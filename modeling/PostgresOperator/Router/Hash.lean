import PostgresOperator.Api.ShardRange

/-!
# Hash functions of the vindexes

`hashKey` of `internal/router/vindex.go` with the three functions it selects: `murmur3Sum32`, written out in the same
file, and the two of the Go library, `hash/fnv` (the 32-bit FNV-1a) and `hash/crc32` (the IEEE polynomial).
-/

namespace PostgresOperator

open Go

def rotl32 (k : UInt32) (r : UInt32) : UInt32 := (k <<< r) ||| (k >>> (32 - r))

def murmurScramble (k : UInt32) : UInt32 := rotl32 (k * 0xcc9e2d51) 15 * 0x1b873593

/-- The loop of `murmur3Sum32`: full little-endian words of four bytes, then the switch over the tail. -/
def murmurBody : UInt32 → Str → UInt32
  | h, a :: b :: c :: d :: data =>
    let k := a.toUInt32 ||| (b.toUInt32 <<< 8) ||| (c.toUInt32 <<< 16) ||| (d.toUInt32 <<< 24)
    murmurBody (rotl32 (h ^^^ murmurScramble k) 13 * 5 + 0xe6546b64) data
  | h, [a, b, c] => h ^^^ murmurScramble ((c.toUInt32 <<< 16) ^^^ (b.toUInt32 <<< 8) ^^^ a.toUInt32)
  | h, [a, b] => h ^^^ murmurScramble ((b.toUInt32 <<< 8) ^^^ a.toUInt32)
  | h, [a] => h ^^^ murmurScramble a.toUInt32
  | h, [] => h

def murmurMix (h : UInt32) : UInt32 :=
  let h := (h ^^^ (h >>> 16)) * 0x85ebca6b
  let h := (h ^^^ (h >>> 13)) * 0xc2b2ae35
  h ^^^ (h >>> 16)

def murmur3Sum32 (data : Str) (seed : UInt32) : UInt32 :=
  murmurMix (murmurBody seed data ^^^ UInt32.ofNat data.length)

def fnv32a (data : Str) : UInt32 :=
  data.foldl (fun h c => (h ^^^ c.toUInt32) * 16777619) 2166136261

def crcBit (c : UInt32) : UInt32 := if c &&& 1 = 1 then (c >>> 1) ^^^ 0xedb88320 else c >>> 1

def crc32IEEE (data : Str) : UInt32 :=
  data.foldl (fun crc c => crcBit^[8] (crc ^^^ c.toUInt32)) 0xffffffff ^^^ 0xffffffff

def hashKey (fn : VindexHashFunction) (key : Str) : Option UInt32 :=
  match fn with
  | .murmur3 => some (murmur3Sum32 key 0)
  | .fnv => some (fnv32a key)
  | .crc32 => some (crc32IEEE key)
  | .other _ _ => none

example : murmur3Sum32 "hello" 0 = 0x248bfa47 := by decide +kernel
example : fnv32a "a" = 0xe40c292c := by decide +kernel
example : crc32IEEE "123456789" = 0xcbf43926 := by decide +kernel

end PostgresOperator
