import Mathlib.Data.List.Sort

/-!
# The next point on a ring

Points with a position in a linear order, laid out on a ring.  `successor` walks through a sorted list of points and
takes the first one at or after a position, or the first of all when there is none.  `Clockwise` is the order in which
a walk from that position meets the points; `successor_eq_some_iff` says that the walk stops at the least of them.
-/

namespace Ring

variable {P α : Type} [LinearOrder α] (pos : P → α) (le : P → P → Prop)

/-- The first point at or after the position `h`, or the first point of all. -/
def successor (h : α) (l : List P) : Option P := (l.find? fun p => decide (h ≤ pos p)).or l.head?

/-- On the way round from `h` the point `p` is met no later than `q`. -/
def Clockwise (h : α) (p q : P) : Prop := (h ≤ pos p ∧ pos q < h) ∨ ((h ≤ pos p ↔ h ≤ pos q) ∧ le p q)

variable {pos le}

theorem Clockwise.antisymm (ha : ∀ p q, le p q → le q p → p = q) {h : α} {p q : P}
    (hpq : Clockwise pos le h p q) (hqp : Clockwise pos le h q p) : p = q := by
  rcases hpq with ⟨hp, hq⟩ | ⟨hf, hle⟩
  · rcases hqp with ⟨hq', -⟩ | ⟨hf', -⟩
    · exact absurd hq' (not_le.2 hq)
    · exact absurd (hf'.2 hp) (not_le.2 hq)
  · rcases hqp with ⟨hq', hp'⟩ | ⟨-, hle'⟩
    · exact absurd (hf.2 hq') (not_le.2 hp')
    · exact ha p q hle hle'

variable {l : List P}

theorem clockwise_of_successor (hm : ∀ p q, le p q → pos p ≤ pos q) (hr : ∀ p, le p p)
    (hs : l.Pairwise le) {h : α} {p : P} (hp : successor pos h l = some p) :
    p ∈ l ∧ ∀ q ∈ l, Clockwise pos le h p q := by
  unfold successor at hp
  cases hf : l.find? (fun p => decide (h ≤ pos p)) with
  | some p' =>
    obtain rfl : p' = p := by simpa [hf] using hp
    obtain ⟨hge, pre, post, rfl, hpr⟩ := List.find?_eq_some_iff_append.1 hf
    have hge' : h ≤ pos p' := by simpa using hge
    refine ⟨by simp, ?_⟩
    intro q hq
    rcases List.mem_append.1 hq with hq | hq
    · have hlt : pos q < h := by simpa using hpr q hq
      exact .inl ⟨hge', hlt⟩
    · -- the points after `p'` in the list are at or after it on the ring
      have ht : (p' :: post).Pairwise le := (List.pairwise_append.1 hs).2.1
      have hle : le p' q := by
        rcases List.mem_cons.1 hq with rfl | hq
        · exact hr q
        · exact List.rel_of_pairwise_cons ht hq
      exact .inr ⟨iff_of_true hge' (hge'.trans (hm p' q hle)), hle⟩
  | none =>
    rw [hf, Option.none_or] at hp
    have hb : ∀ q ∈ l, ¬ h ≤ pos q := by simpa using List.find?_eq_none.1 hf
    obtain ⟨rest, rfl⟩ : ∃ rest, l = p :: rest := by
      cases l with
      | nil => cases hp
      | cons a rest =>
        cases hp
        exact ⟨rest, rfl⟩
    refine ⟨List.mem_cons_self, ?_⟩
    intro q hq
    have hle : le p q := by
      rcases List.mem_cons.1 hq with rfl | hq
      · exact hr q
      · exact List.rel_of_pairwise_cons hs hq
    exact .inr ⟨iff_of_false (hb p List.mem_cons_self) (hb q hq), hle⟩

theorem successor_ne_none (hl : l ≠ []) (h : α) : successor pos h l ≠ none := by
  cases l with
  | nil => exact absurd rfl hl
  | cons a rest =>
    unfold successor
    cases (a :: rest).find? (fun p => decide (h ≤ pos p)) <;> simp

theorem successor_eq_some_iff (hm : ∀ p q, le p q → pos p ≤ pos q) (hr : ∀ p, le p p)
    (ha : ∀ p q, le p q → le q p → p = q) (hsr : l.Pairwise le) {h : α} {p : P} :
    successor pos h l = some p ↔ p ∈ l ∧ ∀ q ∈ l, Clockwise pos le h p q := by
  constructor
  · intro hp
    exact clockwise_of_successor hm hr hsr hp
  · rintro ⟨hmm, hf⟩
    have hne : l ≠ [] := List.ne_nil_of_mem hmm
    have hs : successor pos h l ≠ none := successor_ne_none hne h
    obtain ⟨p', hp'⟩ := Option.ne_none_iff_exists'.1 hs
    obtain ⟨hmm', hf'⟩ := clockwise_of_successor hm hr hsr hp'
    have heq : p = p' := Clockwise.antisymm ha (hf p' hmm') (hf' p hmm)
    rw [hp', heq]

end Ring
