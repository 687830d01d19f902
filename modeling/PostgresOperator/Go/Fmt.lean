import PostgresOperator.Go.Decimal
import PostgresOperator.Go.Unicode

/-!
# Texts that are formatted

`fmt.Sprintf` for formats whose verbs are `%s`, `strconv.Quote` and `strings.ToUpper`, and the date and time of a
point in time in UTC.
-/

namespace Go

/-- `strings.ReplaceAll(s, old, new)` for an `old` of one byte. -/
def replaceAll (old : UInt8) (new s : Str) : Str := s.flatMap fun c => if c = old then new else [c]

/-! ### `fmt.Sprintf` -/

def consHead (c : UInt8) : List Str → List Str
  | [] => [[c]]
  | w :: ws => (c :: w) :: ws

/-- The texts between the verbs `%s` of a format, in which `%%` is a percent sign. -/
def verbTexts : Str → List Str
  | [] => [[]]
  | [c] => [[c]]
  | c :: d :: s =>
    if c = '%' ∧ d = 's' then [] :: verbTexts s
    else if c = '%' ∧ d = '%' then consHead c (verbTexts s)
    else consHead c (verbTexts (d :: s))

def interleave : List Str → List Str → Str
  | [], _ => []
  | w :: _, [] => w
  | w :: ws, a :: as => w ++ (a ++ interleave ws as)

/-- `fmt.Sprintf(format, args...)` for a format with one verb `%s` for each argument. -/
def sprintf (format : String) (args : List Str) : Str := interleave (verbTexts (str format)) args

example : sprintf "a %s b%%c %s" ["x", "%s"] = "a x b%c %s" := by decide

/-! ### `strconv.Quote` and `strings.ToUpper` -/

def hex (width n : Nat) : Str :=
  let digits := (Nat.toDigits 16 n).map Char.toUInt8
  List.replicate (width - digits.length) (byte '0') ++ digits

/-- A character in a quoted text.  A byte that is no part of a valid encoding is written in hexadecimal. -/
def quoteChar (isPrint : Rune → Bool) (c : GoChar) : Str :=
  let r := c.rune
  if r = 0xfffd ∧ c.bytes.length = 1 then "\\x" ++ hex 2 ((c.bytes.map UInt8.toNat).headD 0)
  else if c.bytes = "\"" ∨ c.bytes = "\\" then '\\' :: c.bytes
  else if isPrint r then c.bytes
  else if r = 0x07 then "\\a"
  else if r = 0x08 then "\\b"
  else if r = 0x0c then "\\f"
  else if r = 0x0a then "\\n"
  else if r = 0x0d then "\\r"
  else if r = 0x09 then "\\t"
  else if r = 0x0b then "\\v"
  else if r < 0x20 ∨ r = 0x7f then "\\x" ++ hex 2 r
  else if r < 0x10000 then "\\u" ++ hex 4 r
  else "\\U" ++ hex 8 r

/-- `strconv.Quote(s)`, which is `%q`; `isPrint` is `unicode.IsPrint`. -/
def quote (isPrint : Rune → Bool) (s : Str) : Str :=
  "\"" ++ (chars s).flatMap (quoteChar isPrint) ++ "\""

/-- `unicode.ToUpper(r)` where that is an ASCII letter.  The other code points stay, which a comparison with an ASCII
word does not see: none of them is mapped to or from ASCII. -/
def upperRune (r : Rune) : Rune :=
  if 0x61 ≤ r ∧ r ≤ 0x7a then r - 0x20
  -- the dotless i and the long s
  else if r = 0x131 then 0x49
  else if r = 0x17f then 0x53
  else r

/-- `strings.ToUpper(s) == word` for a word of ASCII. -/
def upperIs (s : Str) (word : String) : Bool :=
  (chars s).map (fun c => upperRune c.rune) = word.toList.map Char.toNat

/-! ### Dates -/

/-- The year, month and day of a day that is counted from the first of January 1970.  The days are counted in eras of
400 years that begin on the first of March, so that the leap day is the last one of its year. -/
def civilDate (days : Int) : Int × Int × Int :=
  let era := (days + 719468) / 146097
  let day := (days + 719468) % 146097
  let year := (day - day / 1460 + day / 36524 - day / 146096) / 365
  let ofYear := day - (365 * year + year / 4 - year / 100)
  let month := (5 * ofYear + 2) / 153
  let m := if month < 10 then month + 3 else month - 9
  (year + 400 * era + if m ≤ 2 then 1 else 0, m, ofYear - (153 * month + 2) / 5 + 1)

def padded (width : Nat) (n : Int) : Str :=
  let digits := itoaNat n.natAbs
  (if n < 0 then [byte '-'] else []) ++ List.replicate (width - digits.length) (byte '0') ++ digits

/-- `.999999`: the microseconds without the zeros at the end. -/
def fraction (nanoseconds : Int) : Str :=
  let digits := ((padded 6 (nanoseconds / 1000)).reverse.dropWhile (· = byte '0')).reverse
  if digits = [] then [] else '.' :: digits

/-- `t.UTC().Format("2006-01-02 15:04:05.999999-07:00")`, for the point in time that is `ns` nanoseconds after the
first of January 1970. -/
def formatUTC (ns : Int) : Str :=
  let seconds := ns / 1000000000
  let date := civilDate (seconds / 86400)
  let clock := seconds % 86400
  padded 4 date.1 ++ "-" ++ padded 2 date.2.1 ++ "-" ++ padded 2 date.2.2 ++ " " ++
    padded 2 (clock / 3600) ++ ":" ++ padded 2 (clock / 60 % 60) ++ ":" ++ padded 2 (clock % 60) ++
    fraction (ns % 1000000000) ++ "+00:00"

example : formatUTC 1780576496500000000 = "2026-06-04 12:34:56.5+00:00" := by decide +kernel

end Go
