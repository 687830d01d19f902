import PostgresOperator.Router.ScatterMerge

/-!
# The select list that DetectAggregates reads

On a text whose comments up to FROM are read alike by the router and by PostgreSQL, `DetectAggregates` reads the
functions of the select list, unless a column or an alias in front of the end of the list is called FROM, in quotes.
Then it takes the name for the end of the list and reads fewer functions than there are items.
-/

namespace PostgresOperator

open Go List

/-! ### The beginning of a text -/

/-- The first `n` lexemes, and the comments in front of them, end where the tokenizer takes them to end. -/
def plainFirst : Nat → List Piece → Bool
  | 0, _ => true
  | _ + 1, [] => true
  | n + 1, p :: ps => p.plainBefore (render ps) && plainFirst (if p.isGap then n + 1 else n) ps

/-- The first lexemes of a text are read as its pieces if these are plain, whatever follows. -/
theorem tokenize_plainFirst {n : Nat} {ps : List Piece} (he : endsApart Piece.endsBefore ps)
    (hp : plainFirst n ps) :
    ∃ rest, tokenize (render ps) = ((ps.filter fun p => !p.isGap).take n).flatMap Piece.tokens ++ rest := by
  induction ps generalizing n with
  | nil => exact ⟨[], by simp [render]⟩
  | cons p ps ih =>
    cases n with
    | zero => exact ⟨_, rfl⟩
    | succ n =>
      simp only [endsApart, Bool.and_eq_true] at he
      simp only [plainFirst, Bool.and_eq_true] at hp
      obtain ⟨rest, hr⟩ := ih he.2 hp.2
      have hc : tokenize (render (p :: ps)) = p.tokens ++ tokenize (render ps) := tokenize_piece p he.1 hp.1
      refine ⟨rest, ?_⟩
      rw [hc, hr]
      by_cases hg : p.isGap
      · have hn : p.tokens = [] := by
          cases p <;> first | rfl | cases hg
        simp [hg, hn]
      · simp [hg]

def SqlText.PlainList (t : SqlText) (s : Select) : Prop := plainFirst s.listPieces.length t.pieces

instance (t : SqlText) (s : Select) : Decidable (t.PlainList s) := inferInstanceAs (Decidable (_ = _))

/-! ### Letter case -/

variable (t : Token) (ts : List Token) (c : Ident)

private def Token.lower : Token :=
  if t.kind = .ident ∧ (t.text.all fun b => b < 0x80) then { t with text := t.text.map lowerByte } else t

theorem Token.kind_lower : t.lower.kind = t.kind := by
  unfold Token.lower
  split <;> rfl

theorem ascii_of_all {s : Str} (h : (s.all fun b => b < 0x80)) : Ascii s := by
  intro b hb
  simpa using all_eq_true.1 h b hb

theorem Token.names_lower (name : Str) : t.lower.names name = t.names name := by
  unfold Token.lower
  split
  · rename_i h
    have hf : equalFold (t.text.map lowerByte) name = equalFold t.text name := by
      unfold equalFold
      rw [folded_map_lowerByte (ascii_of_all h.2)]
    simp [Token.names, hf]
  · rfl

theorem lowerByte_idem : ∀ b : UInt8, lowerByte (lowerByte b) = lowerByte b := by
  decide +kernel

theorem aggregateFuncName_lower : aggregateFuncName t.lower = aggregateFuncName t := by
  unfold Token.lower
  split
  · rename_i h
    have ha := ascii_of_all h.2
    have hl : toLower (t.text.map lowerByte) = toLower t.text := by
      rw [toLower_of_ascii ha, toLower_of_ascii ha.map_lowerByte, map_map]
      exact map_congr_left fun b _ => lowerByte_idem b
    simp only [aggregateFuncName, hl]
  · rfl

theorem Token.lower_eq_sym_iff (x : String) : t.lower = sym x ↔ t = sym x := by
  by_cases hk : t.kind = .ident
  · have hne : ∀ u : Token, u.kind = .ident → u ≠ sym x := by
      rintro u hu rfl
      cases hu
    exact ⟨fun h => absurd h (hne _ ((Token.kind_lower t).trans hk)), fun h => absurd h (hne t hk)⟩
  · unfold Token.lower
    rw [if_neg fun h => hk h.1]

theorem tokens_lower (p : Piece) : p.lower.tokens.map Token.lower = p.tokens.map Token.lower := by
  cases p with
  | word w h =>
    have ha : ∀ {u : Str}, isWord u → (u.all fun b => b < 0x80) := by
      intro u hu
      rw [all_eq_true]
      intro b hb
      simpa using isWord_ascii hu b hb
    simp [Piece.lower, Piece.tokens, Token.lower, ha h, ha (isWord_map_lowerByte h), lowerByte_idem]
  | _ => rfl

theorem beforeFrom_lower (d : Int) (ts : List Token) :
    beforeFrom d (ts.map Token.lower) = (beforeFrom d ts).map (map Token.lower) := by
  induction ts generalizing d with
  | nil => rfl
  | cons t ts ih =>
    simp only [map_cons, beforeFrom, Token.lower_eq_sym_iff, Token.names_lower, ih]
    split
    · simp [Option.map_map, Function.comp_def]
    · split
      · simp [Option.map_map, Function.comp_def]
      · split
        · rfl
        · simp [Option.map_map, Function.comp_def]

theorem splitCommas_lower (d : Int) (cur ts : List Token) :
    splitCommas d (cur.map Token.lower) (ts.map Token.lower) = (splitCommas d cur ts).map (map Token.lower) := by
  induction ts generalizing d cur with
  | nil => by_cases hc : cur = [] <;> simp [splitCommas, hc]
  | cons t ts ih =>
    have hc : cur.map Token.lower ++ [t.lower] = (cur ++ [t]).map Token.lower := by simp
    have hn : ([] : List Token) = [].map Token.lower := rfl
    simp only [map_cons, splitCommas, Token.lower_eq_sym_iff, hc]
    split
    · exact ih _ _
    · split
      · exact ih _ _
      · split
        · rw [map_cons, hn, ih]
          rfl
        · exact ih _ _

theorem afterClosing_lower (d : Int) (ts : List Token) :
    afterClosing d (ts.map Token.lower) = (afterClosing d ts).map (map Token.lower) := by
  induction ts generalizing d with
  | nil => rfl
  | cons t ts ih =>
    simp only [map_cons, afterClosing, Token.lower_eq_sym_iff]
    split
    · exact ih _
    · split
      · split
        · rfl
        · exact ih _
      · exact ih _

theorem aliasOnly_lower : aliasOnly (ts.map Token.lower) = aliasOnly ts := by
  rcases ts with _ | ⟨t, _ | ⟨t', _ | ⟨t'', ts⟩⟩⟩
  · rfl
  · simp [aliasOnly, Token.kind_lower]
  · simp [aliasOnly, Token.kind_lower, Token.names_lower]
  · rfl

theorem segmentColumn_lower (seg : List Token) : segmentColumn (seg.map Token.lower) = segmentColumn seg := by
  simp [segmentColumn, aggregateFuncName_lower, Token.lower_eq_sym_iff]

theorem segmentAggregate_lower (seg : List Token) :
    segmentAggregate (seg.map Token.lower) = segmentAggregate seg := by
  cases seg with
  | nil => rfl
  | cons first rest =>
    have hh : (rest.map Token.lower).head? = some (sym "(") ↔ rest.head? = some (sym "(") := by
      cases rest <;> simp [Token.lower_eq_sym_iff]
    have hco := segmentColumn_lower (first :: rest)
    rw [map_cons] at hco ⊢
    simp only [segmentAggregate, aggregateFuncName_lower, hh, afterClosing_lower, hco]
    cases aggregateFuncName first with
    | none => rfl
    | some fn =>
      simp only
      split
      · cases afterClosing 0 rest with
        | none => rfl
        | some behind => simp only [Option.map_some, aliasOnly_lower]
      · rfl

/-- The detection does not see the case of a keyword. -/
theorem detectTokens_lower (toks : List Token) : detectTokens (toks.map Token.lower) = detectTokens toks := by
  cases toks with
  | nil => rfl
  | cons first rest =>
    have hs : ((first :: rest).map Token.lower).any (· = sym ";") = (first :: rest).any (· = sym ";") := by
      rw [any_map]
      congr 1
      funext t
      simp [Token.lower_eq_sym_iff]
    have hd : ((rest.map Token.lower).head?.any fun t => t.names "distinct") =
        rest.head?.any fun t => t.names "distinct" := by
      cases rest <;> simp [Token.names_lower]
    rw [map_cons] at hs ⊢
    rw [detectTokens, detectTokens, hs, Token.names_lower, hd, beforeFrom_lower]
    cases beforeFrom 0 rest with
    | none => rfl
    | some list =>
      have hsp : splitTopLevelCommas (list.map Token.lower) = (splitTopLevelCommas list).map (map Token.lower) :=
        splitCommas_lower 0 [] list
      have hmm : ((splitTopLevelCommas list).map (map Token.lower)).mapM segmentAggregate =
          (splitTopLevelCommas list).mapM segmentAggregate := by
        rw [mapM_map]
        congr 1
        funext seg
        exact segmentAggregate_lower seg
      simp only [Option.map_some, hsp, hmm, map_eq_nil_iff]

/-! ### The tokens of the select list -/

def Ident.token : Ident → Token
  | .plain name => ⟨.ident, name.1⟩
  | .quoted name => ⟨.ident, name⟩

def Ident.isFrom : Bool := c.token.names "from"

def Item.label : Item → Alias
  | .column _ label | .countAll label | .call _ _ _ label => label

def Item.columnIsFrom : Item → Bool
  | .column c _ => c.isFrom
  | _ => false

def Alias.isFrom : Alias → Bool
  | .none => false
  | .bare name | .as name => name.isFrom

/-- No column of the list and no alias but the last is taken for FROM. -/
def listRead : List Item → Bool
  | [] => true
  | [item] => !item.columnIsFrom
  | item :: items => !item.columnIsFrom && !item.label.isFrom && listRead items

def Alias.tokens (label : Alias) : List Token := label.pieces.flatMap Piece.tokens

def Item.tokens (item : Item) : List Token := item.pieces.flatMap Piece.tokens

def Alias.tokensBefore : Alias → List Token
  | .none | .bare _ => []
  | .as _ => [⟨.ident, "as"⟩]

def Item.body : Item → List Token
  | .column c _ => [c.token]
  | .countAll _ => [⟨.ident, "count"⟩, sym "(", sym "*", sym ")"]
  | .call fn distinct c _ =>
    fn.keyword.tokens ++ [sym "("] ++ (if distinct then [⟨.ident, "distinct"⟩] else []) ++ [c.token, sym ")"]

theorem Ident.tokens_piece : c.piece.tokens = [c.token] := by
  cases c <;> rfl

theorem Item.tokens_eq (item : Item) : item.tokens = item.body ++ item.label.tokens := by
  cases item with
  | column c label => simp [Item.tokens, Item.pieces, Item.body, Item.label, Alias.tokens, Ident.tokens_piece]
  | countAll label => rfl
  | call fn distinct c label =>
    cases distinct with
    | false =>
      simp [Item.tokens, Item.pieces, Item.body, Item.label, Alias.tokens, Ident.tokens_piece]
      rfl
    | true =>
      simp [Item.tokens, Item.pieces, Item.body, Item.label, Alias.tokens, Ident.tokens_piece]
      rfl

theorem Ident.token_ne_sym (x : String) : c.token ≠ sym x := by
  cases c <;> simp [Ident.token, sym]

/-- The scans go past the tokens: no FROM and no comma stands in them outside parentheses. -/
private structure Passes (ts : List Token) : Prop where
  before : ∀ rest, beforeFrom 0 (ts ++ rest) = (beforeFrom 0 rest).map (ts ++ ·)
  split : ∀ cur rest, splitCommas 0 cur (ts ++ rest) = splitCommas 0 (cur ++ ts) rest

theorem passes_nil : Passes [] := ⟨fun rest => by simp, fun cur rest => by simp⟩

theorem Passes.append {ts us : List Token} (h : Passes ts) (h' : Passes us) : Passes (ts ++ us) := by
  constructor
  · intro rest
    rw [append_assoc, h.before, h'.before, Option.map_map]
    congr 1
    funext l
    simp
  · intro cur rest
    rw [append_assoc, h.split, h'.split, append_assoc]

variable {t : Token}

theorem beforeFrom_other {d : Int} (ho : t ≠ sym "(") (hc : t ≠ sym ")")
    (hf : ¬(d = 0 ∧ t.names "from")) (ts : List Token) :
    beforeFrom d (t :: ts) = (beforeFrom d ts).map (t :: ·) := by
  rw [beforeFrom, if_neg ho, if_neg hc, if_neg hf]

theorem splitCommas_other {d : Int} (ho : t ≠ sym "(") (hc : t ≠ sym ")")
    (hcm : ¬(d = 0 ∧ t = sym ",")) (cur ts : List Token) :
    splitCommas d cur (t :: ts) = splitCommas d (cur ++ [t]) ts := by
  rw [splitCommas, if_neg ho, if_neg hc, if_neg hcm]

theorem passes_ident (hk : t.kind = .ident) (hf : t.names "from" = false) : Passes [t] := by
  have hne : ∀ x, t ≠ sym x := by
    rintro x rfl
    cases hk
  constructor
  · intro rest
    exact beforeFrom_other (hne _) (hne _) (by simp [hf]) rest
  · intro cur rest
    exact splitCommas_other (hne _) (hne _) (fun h => hne _ h.2) cur rest

/-- What stands in parentheses is neither split nor taken for the FROM. -/
theorem passes_parens (h : ∀ t ∈ ts, t ≠ sym "(" ∧ t ≠ sym ")") :
    Passes (sym "(" :: ts ++ [sym ")"]) := by
  have hb : ∀ (ts rest : List Token), (∀ t ∈ ts, t ≠ sym "(" ∧ t ≠ sym ")") →
      beforeFrom 1 (ts ++ sym ")" :: rest) = (beforeFrom 0 rest).map (ts ++ sym ")" :: ·) := by
    intro ts rest hts
    induction ts with
    | nil =>
      rw [nil_append, beforeFrom, if_neg (by decide), if_pos rfl]
      rfl
    | cons t ts ih =>
      obtain ⟨ht, hts⟩ := forall_mem_cons.1 hts
      rw [cons_append, beforeFrom_other ht.1 ht.2 (by simp), ih hts, Option.map_map]
      rfl
  have hs : ∀ (ts cur rest : List Token), (∀ t ∈ ts, t ≠ sym "(" ∧ t ≠ sym ")") →
      splitCommas 1 cur (ts ++ sym ")" :: rest) = splitCommas 0 (cur ++ ts ++ [sym ")"]) rest := by
    intro ts cur rest hts
    induction ts generalizing cur with
    | nil =>
      rw [nil_append, splitCommas, if_neg (by decide), if_pos rfl, append_nil]
      rfl
    | cons t ts ih =>
      obtain ⟨ht, hts⟩ := forall_mem_cons.1 hts
      rw [cons_append, splitCommas_other ht.1 ht.2 (by simp), ih _ hts]
      simp
  constructor
  · intro rest
    have ha : sym "(" :: ts ++ [sym ")"] ++ rest = sym "(" :: (ts ++ sym ")" :: rest) := by simp
    rw [ha, beforeFrom, if_pos rfl, zero_add, hb ts rest h, Option.map_map]
    congr 1
    funext l
    simp
  · intro cur rest
    have ha : sym "(" :: ts ++ [sym ")"] ++ rest = sym "(" :: (ts ++ sym ")" :: rest) := by simp
    rw [ha, splitCommas, if_pos rfl, zero_add, hs ts _ rest h]
    simp

theorem Ident.kind_token : c.token.kind = .ident := by
  cases c <;> rfl

theorem argument_ne (distinct : Bool) (c : Ident) :
    ∀ t ∈ (if distinct then [⟨.ident, "distinct"⟩] else []) ++ [c.token], t ≠ sym "(" ∧ t ≠ sym ")" := by
  intro t ht
  rw [mem_append] at ht
  rcases ht with ht | ht
  · cases distinct with
    | false => simp at ht
    | true =>
      rw [if_pos rfl, mem_singleton] at ht
      subst ht
      decide
  · rw [mem_singleton] at ht
    subst ht
    exact ⟨c.token_ne_sym _, c.token_ne_sym _⟩

variable {item : Item}

theorem passes_body (h : item.columnIsFrom = false) : Passes item.body := by
  cases item with
  | column c label => exact passes_ident c.kind_token h
  | countAll label =>
    exact (passes_ident (t := ⟨.ident, "count"⟩) rfl (by decide +kernel)).append
      (passes_parens [sym "*"] (by decide))
  | call fn distinct c label =>
    have hfn : Passes fn.keyword.tokens := by
      cases fn <;> exact passes_ident rfl (by decide +kernel)
    have ha := hfn.append (passes_parens _ (argument_ne distinct c))
    simpa [Item.body] using ha

theorem tokens_bare (name : Ident) : (Alias.bare name).tokens = [name.token] := by
  simp [Alias.tokens, Alias.pieces, Ident.tokens_piece]

theorem tokens_as (name : Ident) : (Alias.as name).tokens = [⟨.ident, "as"⟩, name.token] := by
  simp [Alias.tokens, Alias.pieces, Ident.tokens_piece]
  rfl

theorem passes_as : Passes [⟨.ident, "as"⟩] := passes_ident rfl (by decide +kernel)

theorem passes_label {label : Alias} (h : label.isFrom = false) : Passes label.tokens := by
  cases label with
  | none => exact passes_nil
  | bare name =>
    rw [tokens_bare]
    exact passes_ident name.kind_token h
  | as name =>
    rw [tokens_as]
    exact passes_as.append (passes_ident name.kind_token h)

theorem passes_tokensBefore (label : Alias) : Passes label.tokensBefore := by
  cases label with
  | none => exact passes_nil
  | bare name => exact passes_nil
  | as name => exact passes_as

theorem beforeFrom_isFrom {c : Ident} (h : c.isFrom) (rest : List Token) :
    beforeFrom 0 (c.token :: rest) = some [] := by
  rw [beforeFrom, if_neg (c.token_ne_sym _), if_neg (c.token_ne_sym _), if_pos ⟨rfl, h⟩]

theorem beforeFrom_label {label : Alias} (h : label.isFrom) (rest : List Token) :
    beforeFrom 0 (label.tokens ++ rest) = some label.tokensBefore := by
  cases label with
  | none => cases h
  | bare name =>
    rw [tokens_bare]
    exact beforeFrom_isFrom h rest
  | as name =>
    have hn := beforeFrom_isFrom (c := name) h rest
    rw [tokens_as]
    change beforeFrom 0 ([⟨.ident, "as"⟩] ++ name.token :: rest) = _
    rw [passes_as.before, hn]
    rfl

/-! ### The segments that are read -/

def Item.read (item : Item) : List Token :=
  item.body ++ if item.label.isFrom then item.label.tokensBefore else item.label.tokens

def readSegments : List Item → List (List Token)
  | [] => []
  | [item] => if item.columnIsFrom then [] else [item.read]
  | item :: items =>
    if item.columnIsFrom then [] else if item.label.isFrom then [item.read] else item.read :: readSegments items

theorem Item.read_ne_nil (item : Item) : item.read ≠ [] := by
  cases item with
  | call fn distinct c label => simp [Item.read, Item.body]
  | _ => simp [Item.read, Item.body]

theorem passes_read (h : item.columnIsFrom = false) : Passes item.read := by
  unfold Item.read
  cases hl : item.label.isFrom with
  | true => exact (passes_body h).append (passes_tokensBefore _)
  | false => exact (passes_body h).append (passes_label hl)

theorem split_read (h : item.columnIsFrom = false) : splitCommas 0 [] item.read = [item.read] := by
  have hs := (passes_read h).split [] []
  rw [append_nil, nil_append] at hs
  rw [hs, splitCommas, if_neg item.read_ne_nil]

/-- An item is passed whole, unless its alias is spelt `from`. -/
theorem beforeFrom_item (h : item.columnIsFrom = false) (rest : List Token) : beforeFrom 0 (item.tokens ++ rest) =
      if item.label.isFrom then some item.read else (beforeFrom 0 rest).map (item.read ++ ·) := by
  rw [Item.tokens_eq, append_assoc, (passes_body h).before]
  unfold Item.read
  cases hl : item.label.isFrom with
  | true =>
    rw [beforeFrom_label hl]
    rfl
  | false =>
    rw [(passes_label hl).before, Option.map_map]
    simp only [Bool.false_eq_true, if_false]
    congr 1
    funext l
    simp

theorem beforeFrom_column (h : item.columnIsFrom) (rest : List Token) :
    beforeFrom 0 (item.tokens ++ rest) = some [] := by
  cases item with
  | column c label =>
    rw [Item.tokens_eq]
    exact beforeFrom_isFrom h _
  | countAll label => cases h
  | call fn distinct c label => cases h

/-- The select list that the code reads: it stops at the first name spelt `from`. -/
theorem exists_beforeFrom (items : List Item) (rest : List Token) :
    ∃ list, beforeFrom 0 ((commas (items.map Item.pieces)).flatMap Piece.tokens ++ ⟨.ident, "from"⟩ :: rest)
      = some list ∧ splitTopLevelCommas list = readSegments items := by
  have hf : beforeFrom 0 (⟨.ident, "from"⟩ :: rest) = some [] := by
    rw [beforeFrom, if_neg (by decide), if_neg (by decide), if_pos ⟨rfl, by decide +kernel⟩]
  induction items with
  | nil => exact ⟨[], hf, rfl⟩
  | cons item items ih =>
    cases items with
    | nil =>
      change ∃ list, beforeFrom 0 (item.tokens ++ _) = some list ∧ _
      unfold readSegments
      cases hcol : item.columnIsFrom with
      | true => exact ⟨[], beforeFrom_column hcol _, rfl⟩
      | false =>
        refine ⟨item.read, ?_, split_read hcol⟩
        rw [beforeFrom_item hcol, hf]
        cases item.label.isFrom <;> simp
    | cons item' items =>
      have ht : (commas ((item :: item' :: items).map Item.pieces)).flatMap Piece.tokens ++
          ⟨.ident, "from"⟩ :: rest = item.tokens ++ (sym "," ::
            ((commas ((item' :: items).map Item.pieces)).flatMap Piece.tokens ++ ⟨.ident, "from"⟩ :: rest)) := by
        simp [commas, Item.tokens]
        rfl
      obtain ⟨list, hl, hs⟩ := ih
      rw [ht]
      unfold readSegments
      cases hcol : item.columnIsFrom with
      | true => exact ⟨[], beforeFrom_column hcol _, rfl⟩
      | false =>
        rw [beforeFrom_item hcol]
        cases hlb : item.label.isFrom with
        | true => exact ⟨item.read, rfl, split_read hcol⟩
        | false =>
          have hc : beforeFrom 0 (sym "," ::
              ((commas ((item' :: items).map Item.pieces)).flatMap Piece.tokens ++ ⟨.ident, "from"⟩ :: rest)) =
              some (sym "," :: list) := by
            rw [beforeFrom_other (by decide) (by decide) (by decide), hl]
            rfl
          refine ⟨item.read ++ sym "," :: list, ?_, ?_⟩
          · rw [hc]
            rfl
          · rw [splitTopLevelCommas, (passes_read hcol).split, splitCommas, if_neg (by decide), if_neg (by decide),
              if_pos ⟨rfl, rfl⟩, nil_append]
            exact congrArg (item.read :: ·) hs

/-! ### The functions that are read -/

theorem aliasOnly_read (label : Alias) : aliasOnly (if label.isFrom then label.tokensBefore else label.tokens) ∧
      ∀ t ∈ (if label.isFrom then label.tokensBefore else label.tokens), t.kind = .ident := by
  cases label with
  | none => exact ⟨rfl, by simp [Alias.isFrom, Alias.tokens, Alias.pieces]⟩
  | bare name =>
    rw [tokens_bare]
    cases (Alias.bare name).isFrom with
    | true => exact ⟨rfl, by simp [Alias.tokensBefore]⟩
    | false => simp [aliasOnly, name.kind_token]
  | as name =>
    have has : Token.names ⟨.ident, "as"⟩ "as" := by decide +kernel
    rw [tokens_as]
    cases (Alias.as name).isFrom with
    | true => exact ⟨rfl, by simp [Alias.tokensBefore]⟩
    | false => simp [aliasOnly, name.kind_token, has]

theorem afterClosing_parens {ts : List Token} (h : ∀ t ∈ ts, t ≠ sym "(" ∧ t ≠ sym ")") (rest : List Token) :
    afterClosing 0 (sym "(" :: (ts ++ sym ")" :: rest)) = some rest := by
  have hs : ∀ ts : List Token, (∀ t ∈ ts, t ≠ sym "(" ∧ t ≠ sym ")") →
      afterClosing 1 (ts ++ sym ")" :: rest) = some rest := by
    intro ts hts
    induction ts with
    | nil => rw [nil_append, afterClosing, if_neg (by decide), if_pos rfl, if_pos (by decide)]
    | cons t ts ih =>
      obtain ⟨ht, hts⟩ := forall_mem_cons.1 hts
      rw [cons_append, afterClosing, if_neg ht.1, if_neg ht.2, ih hts]
  rw [afterClosing, if_pos rfl, zero_add, hs ts h]

theorem segmentAggregate_call {first : Token} {fn : AggFuncName} (hfn : aggregateFuncName first = some fn)
    (ha : fn ≠ .avg) (ts : List Token) {rest : List Token} (hts : ∀ t ∈ ts, t ≠ sym "(" ∧ t ≠ sym ")")
    (hr : aliasOnly rest) :
    segmentAggregate (first :: sym "(" :: (ts ++ sym ")" :: rest)) = some fn.toAggregateFunc := by
  rw [segmentAggregate, hfn]
  simp only [head?_cons, if_true, afterClosing_parens hts, ha, if_false, hr]

/-- An item that is recognised is taken for the aggregate it calls. -/
theorem segmentAggregate_read {f : AggregateFunc} (h : segmentAggregate item.read = some f) : f = item.aggregate := by
  obtain ⟨hl, hk⟩ := aliasOnly_read item.label
  cases item with
  | column c label =>
    unfold Item.read at h
    generalize hrs : (if (Item.column c label).label.isFrom then (Item.column c label).label.tokensBefore
      else (Item.column c label).label.tokens) = rest at h hk
    have hh : rest.head? ≠ some (sym "(") := by
      intro ho
      have hkn := hk _ (mem_of_mem_head? ho)
      cases hkn
    have hs : segmentAggregate ((Item.column c label).body ++ rest) = segmentColumn (c.token :: rest) := by
      change segmentAggregate (c.token :: rest) = _
      rw [segmentAggregate]
      cases aggregateFuncName c.token with
      | none => rfl
      | some fn => exact if_neg hh
    rw [hs, segmentColumn] at h
    split at h
    · cases h
    · exact (Option.some.inj h).symm
  | countAll label =>
    have hc := segmentAggregate_call (by decide +kernel : aggregateFuncName ⟨.ident, "count"⟩ = some .count)
      (by decide) [sym "*"] (by decide) hl
    exact (Option.some.inj (hc.symm.trans h)).symm
  | call fn distinct c label =>
    obtain ⟨first, name, ht, hn, ha, hf⟩ : ∃ first name, fn.keyword.tokens = [first] ∧
        aggregateFuncName first = some name ∧ name ≠ .avg ∧ name.toAggregateFunc = fn.func := by
      cases fn with
      | count => exact ⟨_, .count, rfl, by decide +kernel, by decide, rfl⟩
      | sum => exact ⟨_, .sum, rfl, by decide +kernel, by decide, rfl⟩
      | min => exact ⟨_, .min, rfl, by decide +kernel, by decide, rfl⟩
      | max => exact ⟨_, .max, rfl, by decide +kernel, by decide, rfl⟩
    have hc := segmentAggregate_call hn ha _ (argument_ne distinct c) hl
    have hr : (Item.call fn distinct c label).read = first :: sym "(" ::
        ((if distinct then [⟨.ident, "distinct"⟩] else []) ++ [c.token] ++ sym ")" ::
          if (Item.call fn distinct c label).label.isFrom then (Item.call fn distinct c label).label.tokensBefore
          else (Item.call fn distinct c label).label.tokens) := by
      simp [Item.read, Item.body, ht]
    rw [hr, hc, hf] at h
    exact (Option.some.inj h).symm

variable {aggs : List AggregateFunc}

/-- The columns that are detected are those of the query, or fewer when the list was cut. -/
theorem mapM_readSegments {items : List Item} (h : (readSegments items).mapM segmentAggregate = some aggs) :
    (listRead items → aggs = items.map Item.aggregate) ∧
      (listRead items = false → aggs.length < items.length) := by
  induction items generalizing aggs with
  | nil =>
    obtain rfl : [] = aggs := by simpa [readSegments] using h
    exact ⟨fun _ => rfl, fun hr => by cases hr⟩
  | cons item items ih =>
    cases items with
    | nil =>
      unfold readSegments at h
      unfold listRead
      cases hcol : item.columnIsFrom with
      | true =>
        obtain rfl : [] = aggs := by simpa [hcol] using h
        simp
      | false =>
        obtain ⟨f, hf, rfl⟩ : ∃ f, segmentAggregate item.read = some f ∧ [f] = aggs := by
          simpa [hcol, Option.bind_eq_some_iff] using h
        simp [segmentAggregate_read hf]
    | cons item' items =>
      unfold readSegments at h
      unfold listRead
      cases hcol : item.columnIsFrom with
      | true =>
        obtain rfl : [] = aggs := by simpa [hcol] using h
        simp
      | false =>
        cases hlb : item.label.isFrom with
        | true =>
          obtain ⟨f, -, rfl⟩ : ∃ f, segmentAggregate item.read = some f ∧ [f] = aggs := by
            simpa [hcol, hlb, Option.bind_eq_some_iff] using h
          simp
        | false =>
          obtain ⟨f, hf, fs, hfs, rfl⟩ : ∃ f, segmentAggregate item.read = some f ∧
              ∃ fs, (readSegments (item' :: items)).mapM segmentAggregate = some fs ∧ f :: fs = aggs := by
            simpa [hcol, hlb, mapM_cons, Option.bind_eq_some_iff] using h
          obtain ⟨hr, hs⟩ := ih hfs
          constructor
          · intro hl
            rw [hr (by simpa using hl), segmentAggregate_read hf]
            rfl
          · intro hl
            have hlt := hs (by simpa using hl)
            simp only [length_cons] at hlt ⊢
            omega

theorem detectTokens_eq_some {first : Token} {rest : List Token} (h : detectTokens (first :: rest) = some aggs) :
    ∃ list, beforeFrom 0 rest = some list ∧ (splitTopLevelCommas list).mapM segmentAggregate = some aggs ∧
      aggs.any (· ≠ .none) := by
  rw [detectTokens] at h
  split at h
  · cases h
  · split at h
    · cases h
    · split at h
      · cases h
      · split at h
        · cases h
        · rename_i list hl
          split at h
          · cases h
          · split at h
            · cases h
            · rename_i out ho
              split at h
              · rename_i ha
                obtain rfl := Option.some.inj h
                exact ⟨list, hl, ho, ha⟩
              · cases h

/-- What is detected in the text of a query. -/
theorem SqlText.WritesSelect.detectAggregates {t : SqlText} {s : Select} (hw : t.WritesSelect s)
    (hp : t.PlainList s) (hd : PostgresOperator.detectAggregates t.text = some aggs) :
    (listRead s.items → aggs = s.aggregates) ∧ (listRead s.items = false → aggs.length < s.items.length) := by
  obtain ⟨rest, ht⟩ := tokenize_plainFirst t.apart hp
  -- up to letter case these are the tokens of the query
  have hh : ((t.lexemes.take s.listPieces.length).flatMap Piece.tokens).map Token.lower =
      (s.listPieces.flatMap Piece.tokens).map Token.lower := by
    have htk : (t.lexemes.take s.listPieces.length).map Piece.lower = s.listPieces := by
      rw [map_take, hw, Select.pieces, take_left]
    conv_rhs => rw [← htk]
    rw [map_flatMap, map_flatMap, flatMap_map]
    congr 1
    funext p
    exact (tokens_lower p).symm
  have hlw : detectTokens (s.listPieces.flatMap Piece.tokens ++ rest) = some aggs := by
    rw [← hd, PostgresOperator.detectAggregates, SqlText.text, ht, ← detectTokens_lower,
      ← detectTokens_lower (_ ++ rest),
      map_append, map_append]
    exact congrArg (fun l => detectTokens (l ++ _)) hh.symm
  have hl : s.listPieces.flatMap Piece.tokens ++ rest = ⟨.ident, "select"⟩ ::
      ((commas (s.items.map Item.pieces)).flatMap Piece.tokens ++ ⟨.ident, "from"⟩ :: rest) := by
    simp [Select.listPieces]
    rfl
  obtain ⟨list, hb, hs⟩ := exists_beforeFrom s.items rest
  rw [hl] at hlw
  obtain ⟨list', hl', hmm, -⟩ := detectTokens_eq_some hlw
  obtain rfl : list = list' := Option.some.inj (hb.symm.trans hl')
  rw [hs] at hmm
  exact mapM_readSegments hmm

end PostgresOperator
