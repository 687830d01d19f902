import Mathlib.Data.List.AList

/-!
# Stores of named objects

A store is an association list with one object for a key, listed in a fixed order.  Mathlib has `lookup`, `insert` and
`replace`; what is missing there is how a lookup or a search sees an object that was replaced.
-/

namespace Calls

open List

/-- Objects of type `α` under keys of type `κ`. -/
abbrev Store (κ α : Type) : Type := AList fun _ : κ => α

variable {κ α : Type}

instance [DecidableEq κ] [DecidableEq α] : DecidableEq (Store κ α) := fun s t =>
  decidable_of_iff (s.entries = t.entries) AList.ext_iff.symm

namespace Store

variable [DecidableEq κ]

theorem kreplace_cons_self (k : κ) (a b : α) (l : List (Σ _ : κ, α)) : kreplace k b (⟨k, a⟩ :: l) = ⟨k, b⟩ :: l :=
  lookmap_cons_some _ _ (by simp)

theorem kreplace_cons_ne {k : κ} {e : Σ _ : κ, α} (h : k ≠ e.1) (b : α) (l : List (Σ _ : κ, α)) :
    kreplace k b (e :: l) = e :: kreplace k b l :=
  lookmap_cons_none _ _ (by simp [h])

theorem dlookup_cons_of_ne {k : κ} {e : Σ _ : κ, α} (h : k ≠ e.1) (l : List (Σ _ : κ, α)) :
    (e :: l).dlookup k = l.dlookup k :=
  dlookup_cons_ne l e h

/-- A replacement changes one key, if it is there. -/
theorem lookup_replace (s : Store κ α) (k k' : κ) (b : α) :
    (s.replace k b).lookup k' = if k' = k then (s.lookup k).map fun _ => b else s.lookup k' := by
  obtain ⟨l, hl⟩ := s
  show (kreplace k b l).dlookup k' = if k' = k then (l.dlookup k).map fun _ => b else l.dlookup k'
  clear hl
  induction l with
  | nil => simp [kreplace]
  | cons e l ih =>
    obtain ⟨k₁, a₁⟩ := e
    by_cases hk : k = k₁
    · subst hk
      rw [kreplace_cons_self]
      by_cases hk' : k' = k
      · subst hk'
        simp
      · rw [dlookup_cons_of_ne hk', if_neg hk', dlookup_cons_of_ne hk']
    · rw [kreplace_cons_ne hk]
      by_cases hk' : k' = k₁
      · subst hk'
        simp [Ne.symm hk]
      · rw [dlookup_cons_of_ne hk', ih, dlookup_cons_of_ne hk, dlookup_cons_of_ne hk']

variable {s : Store κ α}

theorem lookup_replace_self {k : κ} {a : α} (h : s.lookup k = some a) (b : α) :
    (s.replace k b).lookup k = some b := by
  simp [lookup_replace, h]

theorem lookup_replace_of_ne (s : Store κ α) {k k' : κ} (h : k' ≠ k) (b : α) :
    (s.replace k b).lookup k' = s.lookup k' := by
  simp [lookup_replace, h]

theorem lookup_insert_iff {k k' : κ} {a b : α} (h : s.lookup k = none) :
    (s.insert k b).lookup k' = some a ↔ (k' = k ∧ a = b) ∨ s.lookup k' = some a := by
  by_cases hk : k' = k
  · subst hk
    simp [h, eq_comm]
  · simp [hk]

variable {q : (Σ _ : κ, α) → Bool}

/-- A search that found an entry finds its replacement, if that still passes. -/
theorem find_replace_self {k : κ} {a b : α} (h : s.entries.find? q = some ⟨k, a⟩) (hb : q ⟨k, b⟩) :
    (s.replace k b).entries.find? q = some ⟨k, b⟩ := by
  obtain ⟨l, hl⟩ := s
  change l.find? q = some ⟨k, a⟩ at h
  show (kreplace k b l).find? q = some ⟨k, b⟩
  clear hl
  induction l with
  | nil => simp at h
  | cons e l ih =>
    obtain ⟨k₁, a₁⟩ := e
    by_cases hk : k = k₁
    · subst hk
      rw [kreplace_cons_self, find?_cons_of_pos hb]
    · rw [kreplace_cons_ne hk]
      by_cases hq : q ⟨k₁, a₁⟩
      · rw [find?_cons_of_pos hq] at h
        cases h
        exact absurd rfl hk
      · rw [find?_cons_of_neg hq] at h ⊢
        exact ih h

theorem find_replace_of_not {k : κ} {a b : α} (hs : s.lookup k = some a) (ha : ¬ q ⟨k, a⟩) (hb : ¬ q ⟨k, b⟩) :
    (s.replace k b).entries.find? q = s.entries.find? q := by
  obtain ⟨l, hl⟩ := s
  change l.dlookup k = some a at hs
  show (kreplace k b l).find? q = l.find? q
  clear hl
  induction l with
  | nil => rfl
  | cons e l ih =>
    obtain ⟨k₁, a₁⟩ := e
    by_cases hk : k = k₁
    · subst hk
      rw [dlookup_cons_eq] at hs
      cases hs
      rw [kreplace_cons_self, find?_cons_of_neg hb, find?_cons_of_neg ha]
    · rw [kreplace_cons_ne hk]
      rw [dlookup_cons_of_ne hk] at hs
      simp only [find?_cons, ih hs]

theorem lookup_of_find {k : κ} {a : α} (h : s.entries.find? q = some ⟨k, a⟩) : s.lookup k = some a :=
  AList.mem_lookup_iff.2 (mem_of_find?_eq_some h)

end Store

end Calls
