import PostgresOperator.Regex.Match
import PostgresOperator.Router.Tokenize

/-!
# Routing keys of a query

The extractors of `internal/router/route_extractor.go`, `route_extractor_parser.go` and `sql_route.go`, and
`IsReadOnlyQuery`.  A key that is found is `some`.
-/

namespace PostgresOperator

open Go Regex

/-! ### The token extractor -/

def sym (s : String) : Token := ⟨.sym, str s⟩

def Token.names (t : Token) (name : Str) : Bool := t.kind = .ident && equalFold t.text name

def isKeyLiteral (t : Token) : Bool := (t.kind = .str || t.kind = .num) && t.text ≠ []

def whereEqLoop (col : Str) : Option Str → List Token → Option Str
  | found, t₀ :: t₁ :: t₂ :: ts =>
    if t₀.names col && t₁ = sym "=" && isKeyLiteral t₂ then
      if found.any (· ≠ t₂.text) then none
      else whereEqLoop col (some t₂.text) (t₁ :: t₂ :: ts)
    else whereEqLoop col found (t₁ :: t₂ :: ts)
  | found, _ => found

def whereEqTok (toks : List Token) (col : Str) : Option Str := whereEqLoop col none toks

def parenLoop : Nat → List Token → List (List Token) → List Token → Option (List (List Token))
  | _, _, _, [] => none
  | depth, cur, elems, t :: ts =>
    if t = sym "(" then
      if depth = 0 then parenLoop 1 cur elems ts else parenLoop (depth + 1) (cur ++ [t]) elems ts
    else if t = sym ")" then
      if depth = 1 then some (elems ++ [cur]) else parenLoop (depth - 1) (cur ++ [t]) elems ts
    else if depth = 1 ∧ t = sym "," then parenLoop depth [] (elems ++ [cur]) ts
    else parenLoop depth (cur ++ [t]) elems ts

def parenSplit (toks : List Token) : Option (List (List Token)) :=
  parenLoop 0 [] [] (toks.dropWhile (· ≠ sym "("))

def lastIdent (elem : List Token) : Str :=
  ((elem.filter (·.kind = .ident)).getLast?.map Token.text).getD []

def insertValueLoop (col : Str) : List (List Token × List Token) → Option Str
  | [] => none
  | (ce, ve) :: rest =>
    if lastIdent ce = [] ∨ equalFold (lastIdent ce) col = false then insertValueLoop col rest
    else match ve with
      | [t] => if isKeyLiteral t then some t.text else none
      | _ => none

def insertValueTok (toks : List Token) (col : Str) : Option Str :=
  match toks.findIdx? (·.names "values") with
  | none => none
  | some vi =>
    match parenSplit toks, parenSplit (toks.drop vi) with
    | some colElems, some valElems =>
      if colElems.length ≠ valElems.length then none else insertValueLoop col (colElems.zip valElems)
    | _, _ => none

variable (col query : Str) (x : GoChar)

def parserExtract (col : Str) : Option Str :=
  if col = [] then none
  else
    let toks := tokenize query
    match toks with
    | [] => none
    | t :: _ =>
      if toLower t.text = "insert" then insertValueTok toks col
      else if toLower t.text ∈ [str "select", str "update", str "delete", str "with"] then whereEqTok toks col
      else none

def isReadOnlyQuery : Bool :=
  let toks := tokenize query
  match toks with
  | [] => false
  | t :: _ =>
    if toLower t.text ∈ [str "select", str "show", str "values", str "table"] then !toks.any (·.names (str "for"))
    else false

/-! ### The regular expressions -/

def isChar (c : Char) (x : GoChar) : Bool := x.rune = c.toNat

def notChar (c : Char) (x : GoChar) : Bool := !isChar c x

def isSpace : Bool := ([9, 10, 12, 13, 32] : List Rune).contains x.rune

def isDigitChar : Bool := 0x30 ≤ x.rune && x.rune ≤ 0x39

def isWordChar : Bool :=
  isDigitChar x || (0x41 ≤ x.rune && x.rune ≤ 0x5a) || (0x61 ≤ x.rune && x.rune ≤ 0x7a) || x.rune = 0x5f

def isLetterFold : Bool :=
  (0x61 ≤ foldRune x.rune && foldRune x.rune ≤ 0x7a) || x.rune = 0x5f

def caseless (w : Str) : Pattern GoChar := .cat ((folded w).map fun r => .char fun x => foldRune x.rune = r)

def numberPattern : Pattern GoChar :=
  .cat [.opt (.char (isChar '-')), .plus isDigitChar, .opt (.cat [.char (isChar '.'), .plus isDigitChar])]

def quotedPattern : Pattern GoChar :=
  .cat [.char (isChar '\''), .group 1 (.many (notChar '\'')), .char (isChar '\'')]

def legacyRouteKeyPattern : Pattern GoChar :=
  .cat [.alt (.cat [caseless "VALUES", .many isSpace, .char (isChar '('), .many isSpace])
      (.cat [caseless "WHERE", .plus isSpace, .char isLetterFold,
        .many (fun x => isLetterFold x || isDigitChar x), .many isSpace, .char (isChar '='), .many isSpace]),
    quotedPattern]

def columnPattern : Pattern GoChar :=
  .cat [.boundary isWordChar, caseless col, .many isSpace, .char (isChar '='), .many isSpace,
    .alt quotedPattern (.group 2 numberPattern)]

/-- `INSERT\s+INTO\s+[^\s(]+\s*\(([^)]*)\)\s*VALUES\s*`, the common part of the next two patterns. -/
def insertHead : Pattern GoChar :=
  .cat [caseless "INSERT", .plus isSpace, caseless "INTO", .plus isSpace,
    .plus (fun x => !isSpace x && notChar '(' x), .many isSpace, .char (isChar '('), .group 1 (.many (notChar ')')),
    .char (isChar ')'), .many isSpace, caseless "VALUES", .many isSpace]

def insertPattern : Pattern GoChar :=
  .seq insertHead (.cat [.char (isChar '('), .group 2 (.many (notChar ')')), .char (isChar ')')])

/-- `(?:\s+ON\s+CONFLICT|\s+RETURNING|;|\s*$)` -/
def valuesEnd : Pattern GoChar :=
  .alt (.cat [.plus isSpace, caseless "ON", .plus isSpace, caseless "CONFLICT"])
    (.alt (.cat [.plus isSpace, caseless "RETURNING"])
      (.alt (.char (isChar ';')) (.cat [.many isSpace, .atEnd])))

def insertMultiRowPattern : Pattern GoChar :=
  .seq insertHead (.cat [.group 2 (.seq (.char fun _ => true) (.fewest fun _ => true)), valuesEnd])

def tuplePattern : Pattern GoChar :=
  .cat [.char (isChar '('), .group 1 (.many (notChar ')')), .char (isChar ')')]

def findSubmatch (p : Pattern GoChar) (s : Str) : Option (Place GoChar) := p.find none (chars s)

def groupText (m : Place GoChar) (i : Nat) : Str := bytesOf (m.group i)

/-- `numericLiteral.MatchString(v)`; the pattern is anchored at both ends. -/
def numericLiteral (v : Str) : Bool :=
  ((Pattern.cat [numberPattern, .atEnd]).run ⟨none, chars v, []⟩ some).isSome

/-! ### The regex extractor -/

def splitCSV (s : Str) : List Str := (split ',' s).map trimSpace

/-- The key that a value of a tuple stands for: the inside of its quotes if it is not empty, or a number. -/
def valueKey (v : Str) : Option Str :=
  if 2 ≤ v.length ∧ v.head? = some (byte '\'') ∧ v.getLast? = some (byte '\'') then
    let inner := (v.drop 1).dropLast
    if inner = [] then none else some inner
  else if numericLiteral v then some v
  else none

def matchColumnEquals (col : Str) : Option Str :=
  match findSubmatch (columnPattern col) query with
  | none => none
  | some m =>
    if groupText m 1 ≠ [] then some (groupText m 1)
    else if groupText m 2 ≠ [] then some (groupText m 2)
    else none

def matchInsertColumn (col : Str) : Option Str :=
  match findSubmatch insertPattern query with
  | none => none
  | some m =>
    let cols := splitCSV (groupText m 1)
    let vals := splitCSV (groupText m 2)
    if cols.length ≠ vals.length then none
    else match cols.findIdx? (equalFold · col) with
      | none => none
      | some i => (vals[i]?).bind fun v => valueKey (trimSpace v)

def matchInsertColumnAll (col : Str) : Option (List Str) :=
  match findSubmatch insertMultiRowPattern query with
  | none => none
  | some m =>
    match (splitCSV (groupText m 1)).findIdx? (equalFold · col) with
    | none => none
    | some idx =>
      let tuples := tuplePattern.findAll (m.group 2).length none (m.group 2)
      if tuples = [] then none
      else tuples.mapM fun t => ((splitCSV (groupText t 1))[idx]?).bind fun v => valueKey (trimSpace v)

def regexExtract (col : Str) : Option Str :=
  if col = [] then
    match findSubmatch legacyRouteKeyPattern query with
    | none => none
    | some m => if groupText m 1 = [] then none else some (groupText m 1)
  else (matchColumnEquals query col).or (matchInsertColumn query col)

def autoExtract (col : Str) : Option Str :=
  (parserExtract query col).or (regexExtract query col)

end PostgresOperator
