import PostgresOperator.Go.Strings

/-!
# Ini files

A text is read line by line: `[section]`, `key = value`, or nothing (an empty line, or a comment behind `;` or `#`).
Blanks around keys and values are not part of them.  A text with another line, or with a `key = value` in front of the
first section, is not an ini file.
-/

namespace Ini

open Go List Option

abbrev Entry := Str × Str

def isBlank (c : UInt8) : Bool := c = ' ' || c = '\t' || c = '\r' || c = 0x0b || c = 0x0c

def strip (s : Str) : Str := ((s.dropWhile isBlank).reverse.dropWhile isBlank).reverse

inductive Line
  | blank
  | header (name : Str)
  | entry (key value : Str)
  | bad
  deriving DecidableEq

def readLine (line : Str) : Line :=
  match line.dropWhile isBlank with
  | [] => .blank
  | c :: s =>
    if c = ';' || c = '#' then .blank
    else if c = '[' then
      if (strip s).getLast? = some (byte ']') then .header (strip (strip s).dropLast) else .bad
    else match (c :: s).dropWhile (· ≠ byte '=') with
      | [] => .bad
      | _ :: value => .entry (strip ((c :: s).takeWhile (· ≠ '='))) (strip value)

/-- The entries in front of the first section, and the sections with their entries. -/
def sections : List Line → Option (List Entry × List (Str × List Entry))
  | [] => some ([], [])
  | .blank :: ls => sections ls
  | .header name :: ls => (sections ls).map fun rest => ([], (name, rest.1) :: rest.2)
  | .entry key value :: ls => (sections ls).map fun rest => ((key, value) :: rest.1, rest.2)
  | .bad :: _ => none

def parse (text : Str) : Option (List (Str × List Entry)) :=
  (sections ((split '\n' text).map readLine)).bind fun rest => if rest.1 = [] then some rest.2 else none

/-! ### Lines without a section -/

def Line.entry? : Line → Option Entry
  | .entry key value => some (key, value)
  | _ => none

def Line.plain : Line → Bool
  | .blank | .entry _ _ => true
  | .header _ | .bad => false

@[simp] theorem filterMap_blank (ls : List Line) :
    (Line.blank :: ls).filterMap Line.entry? = ls.filterMap Line.entry? := rfl

@[simp] theorem filterMap_entry (key value : Str) (ls : List Line) :
    (Line.entry key value :: ls).filterMap Line.entry? = (key, value) :: ls.filterMap Line.entry? := rfl

theorem sections_eq_nil_iff {ls : List Line} {es : List Entry} :
    sections ls = some (es, []) ↔ ls.all Line.plain ∧ es = ls.filterMap Line.entry? := by
  induction ls generalizing es with
  | nil => simp [sections, eq_comm]
  | cons l ls ih =>
    cases l with
    | blank => simp only [sections, ih, filterMap_blank, all_cons, Line.plain, Bool.true_and]
    | bad => simp [sections, Line.plain]
    | header name => simp [sections, Line.plain]
    | entry key value =>
      simp only [sections, map_eq_some_iff, Prod.mk.injEq, Prod.exists, all_cons, Line.plain, Bool.true_and,
        filterMap_entry]
      constructor
      · rintro ⟨es', ss, hs, rfl, rfl⟩
        obtain ⟨hp, rfl⟩ := ih.1 hs
        exact ⟨hp, rfl⟩
      · rintro ⟨hp, rfl⟩
        exact ⟨_, _, ih.2 ⟨hp, rfl⟩, rfl, rfl⟩

/-! ### Entries -/

variable {key : Str}

theorem dropWhile_isBlank (hkey : ∀ c ∈ key, isBlank c = false) (hne : key ≠ []) (s : Str) :
    (key ++ s).dropWhile isBlank = key ++ s := by
  obtain ⟨c, key, rfl⟩ := exists_cons_of_ne_nil hne
  simp [hkey c (by simp)]

variable {s : Str}

theorem strip_of_noBlank (hs : ∀ c ∈ s, isBlank c = false) : strip s = s := by
  by_cases hne : s = []
  · subst hne
    rfl
  · have hf := dropWhile_isBlank hs hne []
    have hr : ∀ c ∈ s.reverse, isBlank c = false := fun c hc => hs c (mem_reverse.1 hc)
    have hb := dropWhile_isBlank hr (by simpa using hne) []
    rw [append_nil] at hf hb
    rw [strip, hf, hb, reverse_reverse]

theorem strip_append_blank (hs : ∀ c ∈ s, isBlank c = false) (hne : s ≠ []) : strip (s ++ " ") = s := by
  have hbl : str " " = [byte ' '] := by decide
  have hb := strip_of_noBlank hs
  have hf := dropWhile_isBlank hs hne []
  rw [append_nil] at hf
  rw [strip, hf] at hb
  rw [strip, dropWhile_isBlank hs hne, hbl, reverse_append, reverse_singleton, singleton_append,
    dropWhile_cons, if_pos (by decide), hb]

theorem strip_blank_append (s : Str) : strip (" " ++ s) = strip s := by
  have hb : str " " = [byte ' '] := by decide
  rw [strip, hb, singleton_append, dropWhile_cons, if_pos (by decide), strip]

theorem strip_of_ends {c d : UInt8} (hc : isBlank c = false) (hd : isBlank d = false) (s : Str) :
    strip (c :: (s ++ [d])) = c :: (s ++ [d]) := by
  simp [strip, hc, hd]

def isKeyByte (c : UInt8) : Bool :=
  'a' ≤ c && c ≤ 'z' || '0' ≤ c && c ≤ '9' || c = '_' || c = '*'

theorem isKeyByte_plain : ∀ c, isKeyByte c →
    isBlank c = false ∧ c ≠ '=' ∧ c ≠ '[' ∧ c ≠ ';' ∧ c ≠ '#' ∧ c ≠ '\n' := by
  decide +kernel

/-- A line of a key and a value is read as that entry. -/
theorem readLine_entry (hkey : key.all isKeyByte) (hne : key ≠ []) (value : Str) :
    readLine (key ++ " = " ++ value) = .entry key (strip value) := by
  have hp : ∀ c ∈ key, _ := fun c hc => isKeyByte_plain c (all_eq_true.1 hkey c hc)
  have hsp : str " = " = str " " ++ byte '=' :: str " " := by decide
  have ht : (key ++ str " = " ++ value).takeWhile (· ≠ byte '=') = key ++ str " " := by
    rw [hsp, append_assoc, append_assoc, cons_append, ← append_assoc,
      takeWhile_append_of_pos, takeWhile_cons, if_neg (by simp), append_nil]
    intro c hc
    obtain hc | hc := mem_append.1 hc
    · simpa using (hp c hc).2.1
    · have hb : str " " = [byte ' '] := by decide
      rw [hb, mem_singleton] at hc
      subst hc
      decide
  have hd : (key ++ str " = " ++ value).dropWhile (· ≠ byte '=') = byte '=' :: (str " " ++ value) := by
    have hs := takeWhile_append_dropWhile (p := (· ≠ byte '=')) (l := key ++ str " = " ++ value)
    rw [ht] at hs
    have hw : key ++ str " = " ++ value = (key ++ str " ") ++ byte '=' :: (str " " ++ value) := by simp [hsp]
    exact append_cancel_left (hs.trans hw)
  unfold readLine
  rw [append_assoc, dropWhile_isBlank (fun c hc => (hp c hc).1) hne, ← append_assoc]
  obtain ⟨c, key', rfl⟩ := exists_cons_of_ne_nil hne
  have hc := hp c (by simp)
  simp only [cons_append] at ht hd ⊢
  rw [if_neg (by simp [hc.2.2.2.1, hc.2.2.2.2.1]), if_neg hc.2.2.1, hd, ht]
  dsimp only
  rw [strip_blank_append, ← cons_append, strip_append_blank (fun c hc => (hp c hc).1) hne]

theorem mem_of_readLine {line value : Str} (h : readLine line = .entry key value) {c : UInt8} (hc : c ∈ value) :
    c ∈ line := by
  have hs : ∀ s : Str, ∀ c ∈ strip s, c ∈ s := by
    intro s c hc
    have hm := (dropWhile_suffix _).subset (mem_reverse.1 hc)
    exact (dropWhile_suffix _).subset (mem_reverse.1 hm)
  unfold readLine at h
  split at h
  · cases h
  rename_i d s hl
  split_ifs at h
  split at h
  · cases h
  rename_i e value' hv
  cases h
  have hm : c ∈ (d :: s).dropWhile (· ≠ byte '=') := hv ▸ mem_cons_of_mem _ (hs _ c hc)
  have hr := (dropWhile_suffix _).subset hm
  rw [← hl] at hr
  exact (dropWhile_suffix _).subset hr

/-! ### Texts -/

theorem split_append (sep : UInt8) (s t : Str) : split sep (s ++ sep :: t) = split sep s ++ split sep t := by
  induction s with
  | nil => simp [split]
  | cons c s ih =>
    by_cases hc : c = sep
    · simp [split, hc, ih]
    · obtain ⟨w, ws, hw⟩ := exists_cons_of_ne_nil (split_ne_nil sep s)
      simp [split, hc, ih, hw]

theorem split_prepend {sep : UInt8} (hs : sep ∉ s) (t : Str) :
    split sep (s ++ t) = (s ++ (split sep t).headD []) :: (split sep t).tail := by
  induction s with
  | nil =>
    obtain ⟨w, ws, hw⟩ := exists_cons_of_ne_nil (split_ne_nil sep t)
    simp [hw]
  | cons c s ih =>
    rw [mem_cons, not_or] at hs
    simp [split, Ne.symm hs.1, ih hs.2]

theorem notMem_of_mem_split {sep : UInt8} {w : Str} (hw : w ∈ split sep s) : sep ∉ w := by
  induction s generalizing w with
  | nil => simp_all [split]
  | cons c s ih =>
    rw [split] at hw
    by_cases hc : c = sep
    · rw [if_pos hc] at hw
      obtain rfl | hw := mem_cons.1 hw
      · simp
      · exact ih hw
    · rw [if_neg hc] at hw
      obtain ⟨v, vs, hv⟩ := exists_cons_of_ne_nil (split_ne_nil sep s)
      rw [hv] at hw ih
      obtain rfl | hw := mem_cons.1 hw
      · simp [Ne.symm hc, ih]
      · exact ih (mem_cons_of_mem _ hw)

theorem split_flatMap (ls : List Str) :
    split '\n' (ls.flatMap fun l => l ++ "\n") = ls.flatMap (split '\n') ++ [[]] := by
  have he : str "\n" = [byte '\n'] := by decide
  induction ls with
  | nil => rfl
  | cons l ls ih => rw [flatMap_cons, he, append_assoc, singleton_append, split_append, ← he, ih,
      flatMap_cons, append_assoc]

theorem mem_of_sections {ls : List Line} {es : List Entry} {ss : List (Str × List Entry)}
    (h : sections ls = some (es, ss))
    {e : Entry} (he : e ∈ es ∨ ∃ s ∈ ss, e ∈ s.2) : Line.entry e.1 e.2 ∈ ls := by
  induction ls generalizing es ss with
  | nil =>
    cases h
    simp at he
  | cons l ls ih =>
    cases l with
    | bad => cases h
    | blank => exact mem_cons_of_mem _ (ih h he)
    | header name =>
      obtain ⟨⟨es', ss'⟩, hr, heq⟩ := map_eq_some_iff.1 h
      cases heq
      refine mem_cons_of_mem _ (ih hr ?_)
      obtain he | ⟨s, hs, he⟩ := he
      · cases he
      · obtain rfl | hs := mem_cons.1 hs
        · exact .inl he
        · exact .inr ⟨s, hs, he⟩
    | entry key value =>
      obtain ⟨⟨es', ss'⟩, hr, heq⟩ := map_eq_some_iff.1 h
      cases heq
      obtain he | he := he
      · obtain rfl | he := mem_cons.1 he
        · exact mem_cons_self
        · exact mem_cons_of_mem _ (ih hr (.inl he))
      · exact mem_cons_of_mem _ (ih hr (.inr he))

/-- No value that is read contains a newline. -/
theorem newline_notMem_of_parse {text : Str} {ss : List (Str × List Entry)} (h : parse text = some ss)
    {s : Str × List Entry} (hs : s ∈ ss) {e : Entry} (he : e ∈ s.2) : byte '\n' ∉ e.2 := by
  obtain ⟨⟨es, ss'⟩, hc, hr⟩ := bind_eq_some_iff.1 h
  split_ifs at hr
  obtain rfl := Option.some.inj hr
  obtain ⟨line, hl, hrd⟩ := mem_map.1 (mem_of_sections hc (.inr ⟨s, hs, he⟩))
  exact fun hm => notMem_of_mem_split hl (mem_of_readLine hrd hm)

end Ini
