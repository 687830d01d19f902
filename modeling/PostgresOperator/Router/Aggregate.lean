import PostgresOperator.Go.Strconv
import PostgresOperator.Grouping
import PostgresOperator.Router.Extractor

/-!
# Aggregates over shards

`DetectAggregates` of `internal/router/aggregate_detect.go`, which reads the aggregate functions off the select list
of a query, and `MergeAggregatePartials` of `internal/router/scatter_aggregate.go`, which merges the rows that the
shards return by these functions.
-/

namespace PostgresOperator

open Go

inductive AggregateFunc
  | none
  | count
  | sum
  | min
  | max
  deriving DecidableEq

/-! ### DetectAggregates -/

inductive AggFuncName
  | count
  | sum
  | min
  | max
  | avg
  deriving DecidableEq

def AggFuncName.toAggregateFunc : AggFuncName → AggregateFunc
  | .count => .count
  | .sum => .sum
  | .min => .min
  | .max => .max
  | .avg => .none

def aggregateFuncName (t : Token) : Option AggFuncName :=
  if t.kind ≠ .ident then none
  else if toLower t.text = "count" then some .count
  else if toLower t.text = "sum" then some .sum
  else if toLower t.text = "min" then some .min
  else if toLower t.text = "max" then some .max
  else if toLower t.text = "avg" then some .avg
  else none

def beforeFrom : Int → List Token → Option (List Token)
  | _, [] => none
  | depth, t :: ts =>
    if t = sym "(" then (beforeFrom (depth + 1) ts).map (t :: ·)
    else if t = sym ")" then (beforeFrom (depth - 1) ts).map (t :: ·)
    else if depth = 0 ∧ t.names "from" then some []
    else (beforeFrom depth ts).map (t :: ·)

/-- The loop of `splitTopLevelCommas`; `cur` is the segment that is being read.  An empty one at the end is
dropped. -/
def splitCommas : Int → List Token → List Token → List (List Token)
  | _, cur, [] => if cur = [] then [] else [cur]
  | depth, cur, t :: ts =>
    if t = sym "(" then splitCommas (depth + 1) (cur ++ [t]) ts
    else if t = sym ")" then splitCommas (depth - 1) (cur ++ [t]) ts
    else if depth = 0 ∧ t = sym "," then cur :: splitCommas depth [] ts
    else splitCommas depth (cur ++ [t]) ts

def splitTopLevelCommas (toks : List Token) : List (List Token) := splitCommas 0 [] toks

def afterClosing : Int → List Token → Option (List Token)
  | _, [] => none
  | depth, t :: ts =>
    if t = sym "(" then afterClosing (depth + 1) ts
    else if t = sym ")" then if depth - 1 = 0 then some ts else afterClosing (depth - 1) ts
    else afterClosing depth ts

def aliasOnly : List Token → Bool
  | [] => true
  | [t] => t.kind = .ident
  | [t, t'] => t.names "as" && t'.kind = .ident
  | _ => false

def segmentColumn (seg : List Token) : Option AggregateFunc :=
  if seg.any fun t => (aggregateFuncName t).isSome || t = sym "*" then none else some .none

def segmentAggregate : List Token → Option AggregateFunc
  | [] => none
  | first :: rest =>
    match aggregateFuncName first with
    | some fn =>
      if rest.head? = some (sym "(") then
        match afterClosing 0 rest with
        | none => none
        | some behind => if fn = .avg then none else if aliasOnly behind then some fn.toAggregateFunc else none
      else segmentColumn (first :: rest)
    | none => segmentColumn (first :: rest)

def detectTokens : List Token → Option (List AggregateFunc)
  | [] => none
  | first :: rest =>
    if (first :: rest).any (· = sym ";") then none
    else if first.names "select" = false then none
    else if rest.head?.any fun t => t.names "distinct" then none
    else match beforeFrom 0 rest with
      | none => none
      | some list =>
        if list = [] ∨ splitTopLevelCommas list = [] then none
        else match (splitTopLevelCommas list).mapM segmentAggregate with
          | none => none
          | some out => if out.any (· ≠ .none) then some out else none

def detectAggregates (query : Str) : Option (List AggregateFunc) := detectTokens (tokenize query)

/-! ### Values -/

/-- The numbers of the machine: `int64` as integers, with what `strconv` reads and how they are added, and
`float64`. -/
structure Numbers where
  parseInt : Str → Option Int
  addInt : Int → Int → Int
  Float : Type
  parseFloat : Str → Option Float
  ofInt : Int → Float
  addFloat : Float → Float → Float
  less : Float → Float → Bool
  format : Float → Str

/-- A value of a row: what is read from a shard is `nil` or a string, the sums are numbers. -/
inductive Value (N : Numbers)
  | nil
  | text (s : Str)
  | int (i : Int)
  | float (f : N.Float)

/-- The values of a `Row`; the shard of a row is not read. -/
abbrev ResultRow (N : Numbers) := List (Value N)

section Merge

variable {N : Numbers}

def toInt64 : Value N → Option Int
  | .int i => some i
  | .text s => N.parseInt (trimSpace s)
  | .nil | .float _ => none

def toFloat : Value N → Option N.Float
  | .int i => some (N.ofInt i)
  | .float f => some f
  | .text s => N.parseFloat (trimSpace s)
  | .nil => none

def toStr : Value N → Str
  | .text s => s
  | .nil => "<nil>"
  | .int i => itoa i
  | .float f => N.format f

def compareValues (a b : Value N) : Ordering :=
  match toFloat a, toFloat b with
  | some x, some y => if N.less x y then .lt else if N.less y x then .gt else .eq
  | _, _ => if toStr a < toStr b then .lt else if toStr a = toStr b then .eq else .gt

def valueAt (row : ResultRow N) (col : Nat) : Value N := row.getD col .nil

/-! ### The accumulator of a column -/

variable (N) in
structure AggAcc where
  fn : AggregateFunc
  i : Int := 0
  f : N.Float := N.ofInt 0
  isFloat : Bool := false
  hasNum : Bool := false
  best : Value N := .nil
  hasBest : Bool := false

variable (a : AggAcc N) (aggs : List AggregateFunc)

/-- The case of `add` for COUNT and SUM. -/
def AggAcc.addNum (v : Value N) : AggAcc N :=
  match toInt64 v, a.isFloat with
  | some n, false => { a with i := N.addInt a.i n, hasNum := true }
  | _, _ =>
    match toFloat v with
    | none => a
    | some x => { a with f := N.addFloat (if a.isFloat then a.f else N.ofInt a.i) x, isFloat := true, hasNum := true }

/-- The case of `add` for MIN (`better` is `lt`) and MAX (`better` is `gt`). -/
def AggAcc.addBest (better : Ordering) (a : AggAcc N) (v : Value N) : AggAcc N :=
  if a.hasBest = false then { a with best := v, hasBest := true }
  else if compareValues v a.best = better then { a with best := v }
  else a

def AggAcc.add (v : Value N) : AggAcc N :=
  match a.fn, v with
  | .none, _ | _, .nil => a
  | .count, v | .sum, v => a.addNum v
  | .min, v => a.addBest .lt v
  | .max, v => a.addBest .gt v

def AggAcc.total : Value N := if a.isFloat then .float a.f else .int a.i

def AggAcc.result : Value N :=
  match a.fn with
  | .none => .nil
  | .count => if a.hasNum then a.total else .int 0
  | .sum => if a.hasNum then a.total else .nil
  | .min | .max => a.best

/-! ### MergeAggregatePartials -/

def aggGroupKey (row : ResultRow N) (aggs : List AggregateFunc) : Str :=
  (aggs.mapIdx fun i fn => if fn ≠ .none then [] else toStr (valueAt row i) ++ [0x1f]).flatten

variable (N) in
structure Group where
  keyRow : ResultRow N
  accs : List (AggAcc N)

def Group.start (row : ResultRow N) : Group N where
  keyRow := row
  accs := aggs.map fun fn => { fn := fn }

def Group.add (row : ResultRow N) (g : Group N) : Group N :=
  { g with accs := g.accs.mapIdx fun i acc => acc.add (valueAt row i) }

def Group.row (g : Group N) : ResultRow N :=
  g.accs.mapIdx fun i acc => if acc.fn = .none then valueAt g.keyRow i else acc.result

/-- `mergeAggregate`, with the map of the groups and the order of its keys as one list. -/
def mergeAggregate (rows : List (ResultRow N)) : List (ResultRow N) :=
  (rows.foldl (fun gs row => Grouping.upsert (aggGroupKey row aggs) (Group.start aggs row) (Group.add row) gs) []).map
    fun g => g.2.row

def mergeAggregatePartials (rows : List (ResultRow N)) (aggs : List AggregateFunc) : List (ResultRow N) :=
  if aggs = [] then rows else mergeAggregate aggs rows

/-! ### Rows on the wire -/

def decodeRow (row : List (Option Str)) : ResultRow N :=
  row.map fun v => match v with
    | none => .nil
    | some s => .text s

/-- The values that `encodeDataRow` writes. -/
def encodeRow (row : ResultRow N) : List (Option Str) :=
  row.map fun v => match v with
    | .nil => none
    | v => some (toStr v)

end Merge

end PostgresOperator
