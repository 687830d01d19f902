import Mathlib.Data.List.DropRight
import PostgresOperator.Router.QueryRouter

/-!
# Messages of the wire protocol

The framed messages of `cmd/pg-router/pgwire.go` and what the router reads from them: the text of a query, the name
and the text of a prepared statement, the parameters of a Bind.
-/

namespace PostgresOperator

open Go

structure PgMessage where
  type : UInt8
  payload : Str := []
  deriving DecidableEq

def cstringAt : Str → Option (Str × Str)
  | [] => none
  | c :: p => if c = 0 then some ([], p) else (cstringAt p).map fun x => (c :: x.1, x.2)

def cstring (s : Str) : Str := s ++ [0]

variable (m : PgMessage)

def querySQL : Option Str :=
  if m.type ≠ 'Q' then none
  else if m.payload.getLast? = some 0 then some m.payload.dropLast
  else some m.payload

def parseStmtName : Str :=
  match cstringAt m.payload with
  | none => []
  | some (name, _) => name

def parseSQL : Option Str :=
  if m.type ≠ 'P' then none
  else match cstringAt m.payload with
    | none => none
    | some (_, rest) => (cstringAt rest).map Prod.fst

def bindStmtName : Str :=
  match cstringAt m.payload with
  | none => []
  | some (_, rest) =>
    match cstringAt rest with
    | none => []
    | some (name, _) => name

/-- `binary.BigEndian.Uint16`, and what follows. -/
def uint16At : Str → Option (Nat × Str)
  | a :: b :: p => some (a.toNat * 256 + b.toNat, p)
  | _ => none

/-- `binary.BigEndian.Uint32`, and what follows. -/
def uint32At : Str → Option (Nat × Str)
  | a :: b :: c :: d :: p => some (((a.toNat * 256 + b.toNat) * 256 + c.toNat) * 256 + d.toNat, p)
  | _ => none

/-- The loop of `bindParams`; a length with the sign bit is a NULL. -/
def bindParamsLoop : Nat → Str → Option (List (Option Str))
  | 0, _ => some []
  | n + 1, p =>
    match uint32At p with
    | none => none
    | some (len, p) =>
      if 2 ^ 31 ≤ len then (bindParamsLoop n p).map (none :: ·)
      else if p.length < len then none
      else (bindParamsLoop n (p.drop len)).map (some (p.take len) :: ·)

def bindParams : Option (List (Option Str)) :=
  if m.type ≠ 'B' then none
  else do
    let (_, p) ← cstringAt m.payload
    let (_, p) ← cstringAt p
    let (numFmt, p) ← uint16At p
    let (numParams, p) ← uint16At (p.drop (numFmt * 2))
    bindParamsLoop numParams p

/-- The name in a Close of a statement, `none` for a Close of a portal. -/
def closeStmtName : Option Str :=
  match m.payload with
  | [] => none
  | c :: p => if c ≠ 'S' then none else some (p.rdropWhile (· = 0))

def firstKeyword (sql : Str) : Str :=
  let body := sql.dropWhile fun c => c ∈ str " \t\r\n("
  toLower (body.takeWhile fun c => c ∉ str " \t\r\n;(")

def atoi (s : Str) : Option Int := parseInt s 10 64

def paramRefLoop (col : Str) : List Token → Option Nat
  | t :: t₁ :: t₂ :: t₃ :: ts =>
    if t.names col ∧ t₁ = sym "=" ∧ t₂ = sym "$" ∧ t₃.kind = .num then
      match atoi t₃.text with
      | some n => if 1 ≤ n then some n.toNat else paramRefLoop col (t₁ :: t₂ :: t₃ :: ts)
      | none => paramRefLoop col (t₁ :: t₂ :: t₃ :: ts)
    else paramRefLoop col (t₁ :: t₂ :: t₃ :: ts)
  | _ => none

def extractParamRef (query col : Str) : Option Nat :=
  if col = [] then none else paramRefLoop col (tokenize query)

end PostgresOperator
