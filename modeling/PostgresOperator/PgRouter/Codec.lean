import PostgresOperator.PgRouter.Wire

/-!
# The framing of messages

`readMessage` and `writeMessage` of `cmd/pg-router/pgwire.go`, over a stream that arrives in pieces, and the
big-endian numbers of the protocol.
-/

namespace PostgresOperator

open Go List

/-! ### Numbers -/

def uint16Bytes (n : Nat) : Str := [(n / 256).toUInt8, n.toUInt8]

def uint32Bytes (n : Nat) : Str := uint16Bytes (n / 65536) ++ uint16Bytes n

variable {n : Nat} {p q : Str}

theorem uint32At_bytes (n : Nat) (p : Str) : uint32At (uint32Bytes n ++ p) = some (n % 2 ^ 32, p) := by
  simp only [uint32Bytes, uint16Bytes, cons_append, nil_append, uint32At, Nat.toUInt8, UInt8.toNat_ofNat']
  congr 2
  omega

theorem toUInt8_eq {a : UInt8} {k : Nat} (h : k % 256 = a.toNat) : k.toUInt8 = a := by
  apply UInt8.toNat_inj.1
  rwa [Nat.toUInt8, UInt8.toNat_ofNat']

/-- Big-endian lengths are read back as they were written. -/
theorem uint32At_eq_some (h : uint32At p = some (n, q)) : p = uint32Bytes n ++ q ∧ n < 2 ^ 32 := by
  unfold uint32At at h
  split at h
  · rename_i a b c d p
    cases h
    have ha := a.toNat_lt
    have hb := b.toNat_lt
    have hc := c.toNat_lt
    have hd := d.toNat_lt
    rw [uint32Bytes, uint16Bytes, uint16Bytes, toUInt8_eq (a := a) (by omega), toUInt8_eq (a := b) (by omega),
      toUInt8_eq (a := c) (by omega), toUInt8_eq (a := d) (by omega)]
    exact ⟨rfl, by omega⟩
  · cases h

@[simp] theorem length_uint32Bytes (n : Nat) : (uint32Bytes n).length = 4 := rfl

/-! ### Messages -/

inductive ReadError
  | eof
  | unexpectedEOF
  | invalidLength (length : Nat)
  deriving DecidableEq

/-- `io.ReadFull` from a stream whose reads give the pieces: what was read, and the pieces that are left. -/
def readFull : Nat → List Str → Str × List Str
  | 0, r => ([], r)
  | _ + 1, [] => ([], [])
  | n + 1, piece :: r =>
    if n + 1 < piece.length then (piece.take (n + 1), piece.drop (n + 1) :: r)
    else (piece ++ (readFull (n + 1 - piece.length) r).1, (readFull (n + 1 - piece.length) r).2)

def shortRead (got : Str) : ReadError := if got = [] then .eof else .unexpectedEOF

def readMessage (r : List Str) : Except ReadError PgMessage × List Str :=
  let (hdr, r) := readFull 5 r
  match hdr with
  | [] => (.error (shortRead hdr), r)
  | type :: len => match uint32At len with
    | none => (.error (shortRead hdr), r)
    | some (length, _) =>
      if length < 4 ∨ 2 ^ 24 < length then (.error (.invalidLength length), r)
      else
        let (payload, r) := readFull (length - 4) r
        if payload.length < length - 4 then (.error (shortRead payload), r) else (.ok ⟨type, payload⟩, r)

def writeMessage (m : PgMessage) : Str := m.type :: (uint32Bytes (4 + m.payload.length) ++ m.payload)

def readMessages : Nat → List Str → List (Except ReadError PgMessage)
  | 0, _ => []
  | n + 1, r => (readMessage r).1 :: readMessages n (readMessage r).2

variable {r r' : List Str} {m : PgMessage}

/-- Reading depends on the bytes, not on how they arrive. -/
theorem readFull_eq (n : Nat) (r : List Str) :
    (readFull n r).1 = r.flatten.take n ∧ (readFull n r).2.flatten = r.flatten.drop n := by
  fun_induction readFull n r with
  | case1 r => simp
  | case2 n => simp
  | case3 n piece r h =>
    rw [flatten_cons, take_append_of_le_length h.le, flatten_cons, drop_append_of_le_length h.le]
    exact ⟨rfl, rfl⟩
  | case4 n piece r h ih =>
    rw [flatten_cons, take_append, drop_append, take_of_length_le (by omega), drop_eq_nil_of_le (by omega),
      nil_append]
    exact ⟨by rw [ih.1], ih.2⟩

/-- A header that is there is read, and what happens then depends on the length in it. -/
theorem readMessage_header {type : UInt8} {rest : Str} (hn : n < 2 ^ 32)
    (h : r.flatten = type :: (uint32Bytes n ++ rest)) : ∃ r', r'.flatten = rest ∧ readMessage r =
      if n < 4 ∨ 2 ^ 24 < n then (.error (.invalidLength n), r')
      else if (rest.take (n - 4)).length < n - 4
        then (.error (shortRead (rest.take (n - 4))), (readFull (n - 4) r').2)
      else (.ok ⟨type, rest.take (n - 4)⟩, (readFull (n - 4) r').2) := by
  obtain ⟨h₁, h₂⟩ := readFull_eq 5 r
  rw [h] at h₁ h₂
  have hh : (readFull 5 r).1 = type :: uint32Bytes n := by simp [h₁, uint32Bytes, uint16Bytes]
  have hr : (readFull 5 r).2.flatten = rest := by simpa [uint32Bytes, uint16Bytes] using h₂
  refine ⟨(readFull 5 r).2, hr, ?_⟩
  have hu := uint32At_bytes n []
  rw [append_nil, Nat.mod_eq_of_lt hn] at hu
  unfold readMessage
  dsimp only
  rw [hh]
  dsimp only
  rw [hu]
  dsimp only
  rw [(readFull_eq (n - 4) (readFull 5 r).2).1, hr]

theorem readMessage_write (hm : m.payload.length ≤ 2 ^ 24 - 4) {rest : Str} (h : r.flatten = writeMessage m ++ rest) :
    (readMessage r).1 = .ok m ∧ (readMessage r).2.flatten = rest := by
  rw [writeMessage, cons_append, append_assoc] at h
  obtain ⟨r', hr', he⟩ := readMessage_header (by omega) h
  have hs : 4 + m.payload.length - 4 = m.payload.length := by omega
  have hd := (readFull_eq m.payload.length r').2
  rw [hr', drop_left] at hd
  rw [hs, take_left, if_neg (by omega), if_neg (lt_irrefl _)] at he
  rw [he]
  exact ⟨rfl, hd⟩

/-- What is read is a message that was written. -/
theorem readMessage_ok (h : readMessage r = (.ok m, r')) : r.flatten = writeMessage m ++ r'.flatten := by
  have hf := take_append_drop 5 r.flatten
  rw [← (readFull_eq 5 r).1, ← (readFull_eq 5 r).2] at hf
  unfold readMessage at h
  dsimp only at h
  split at h
  · cases h
  · rename_i type len hh
    split at h
    · cases h
    · rename_i n q hu
      obtain ⟨rfl, hn⟩ := uint32At_eq_some hu
      have hq : q = [] := by
        have hl := congrArg length hh
        rw [(readFull_eq 5 r).1, length_take, length_cons, length_append, length_uint32Bytes] at hl
        exact length_eq_zero_iff.1 (by omega)
      split at h
      · cases h
      · split at h
        · cases h
        · rename_i hb hs
          obtain ⟨h₁, rfl⟩ := Prod.mk.inj h
          obtain rfl := Except.ok.inj h₁
          obtain ⟨h₃, h₄⟩ := readFull_eq (n - 4) (readFull 5 r).2
          have hl : (readFull (n - 4) (readFull 5 r).2).1.length = n - 4 := by
            have := congrArg length h₃
            rw [length_take] at this
            omega
          rw [writeMessage, hl,
            show 4 + (n - 4) = n by omega, ← hf, hh, hq, append_nil, h₄, h₃, cons_append, cons_append,
            append_assoc, take_append_drop]

/-- However the bytes are cut into reads, the messages that were written are read back, and then the end of the
input.  Whatever is read is written back to the bytes it was read from, and a length out of range is refused after
the header. -/
theorem framing_faithful :
    (∀ (ms : List PgMessage) (r : List Str), (∀ m ∈ ms, m.payload.length ≤ 2 ^ 24 - 4) →
      r.flatten = ms.flatMap writeMessage →
      readMessages (ms.length + 1) r = ms.map .ok ++ [.error .eof]) ∧
    (∀ (r r' : List Str) (m : PgMessage), readMessage r = (.ok m, r') → r.flatten = writeMessage m ++ r'.flatten) ∧
    ∀ (r : List Str) (type : UInt8) (n : Nat) (rest : Str), r.flatten = type :: (uint32Bytes n ++ rest) → n < 2 ^ 32 →
      n < 4 ∨ 2 ^ 24 < n → ∃ r', readMessage r = (.error (.invalidLength n), r') ∧ r'.flatten = rest := by
  refine ⟨?_, fun _ _ _ => readMessage_ok, ?_⟩
  · intro ms
    induction ms with
    | nil =>
      intro r _ hr
      have h := (readFull_eq 5 r).1
      rw [hr, flatMap_nil, take_nil] at h
      simp [readMessages, readMessage, h, shortRead]
    | cons m ms ih =>
      intro r hms hr
      rw [flatMap_cons] at hr
      obtain ⟨h₁, h₂⟩ := readMessage_write (hms m mem_cons_self) hr
      rw [length_cons, readMessages, h₁, ih _ (fun x hx => hms x (mem_cons_of_mem _ hx)) h₂]
      rfl
  · intro r type n rest h hn hb
    obtain ⟨r', hr', he⟩ := readMessage_header hn h
    rw [if_pos hb] at he
    exact ⟨r', he, hr'⟩

theorem framing_faithful_demo : readMessages 2 [[81, 0, 0], [], [0, 5, 120]] = [.ok ⟨'Q', "x"⟩, .error .eof] :=
  framing_faithful.1 [⟨'Q', "x"⟩] _ (by decide) (by decide)

end PostgresOperator
