import Mathlib.Data.List.Sort

/-!
# Lists of closed intervals

Intervals of natural numbers, given by their ends.  When they are sorted by their lower ends, to compare each one with
the next is to compare all: neighbours that are apart are pairwise apart, and neighbours that touch are exactly the
pairwise disjoint ones whose union has no gap.  In a list of any order it is enough to look at the breaks, where one
interval does not begin right after the one before it: which numbers are covered (`covers_iff_of_breaks`), and which
of them more than once (`times_le_one_of_breaks`), is decided there and at the two ends.
-/

namespace Intervals

open List

def Within (i : ℕ × ℕ) (x : ℕ) : Prop := i.1 ≤ x ∧ x ≤ i.2

instance (i : ℕ × ℕ) (x : ℕ) : Decidable (Within i x) := inferInstanceAs (Decidable (_ ∧ _))

def Apart (i j : ℕ × ℕ) : Prop := ∀ x, ¬ (Within i x ∧ Within j x)

def Covers (l : List (ℕ × ℕ)) (x : ℕ) : Prop := ∃ i ∈ l, Within i x

instance (l : List (ℕ × ℕ)) (x : ℕ) : Decidable (Covers l x) := inferInstanceAs (Decidable (∃ i ∈ l, Within i x))

variable {i j : ℕ × ℕ} {l : List (ℕ × ℕ)}

theorem Apart.symm (h : Apart i j) : Apart j i := fun x hx => h x hx.symm

theorem covers_cons {x : ℕ} : Covers (i :: l) x ↔ Within i x ∨ Covers l x := by
  simp only [Covers, mem_cons, exists_eq_or_imp]

theorem apart_iff (hj : j.1 ≤ j.2) (hs : i.1 ≤ j.1) : Apart i j ↔ i.2 < j.1 := by
  constructor
  · intro h
    by_contra hle
    exact h j.1 ⟨⟨hs, by omega⟩, le_refl _, hj⟩
  · rintro h x ⟨hx, hx'⟩
    have := hx.2
    have := hx'.1
    omega

theorem behind_of_isChain (hl : ∀ j ∈ l, j.1 ≤ j.2) (h : (i :: l).IsChain fun a b => a.2 < b.1) :
    ∀ j ∈ l, i.2 < j.1 := by
  induction l generalizing i with
  | nil => simp
  | cons k l ih =>
    rw [isChain_cons_cons] at h
    intro j hj
    rcases mem_cons.1 hj with rfl | hj
    · exact h.1
    · have hk := hl k mem_cons_self
      have hlt := ih (fun j hj => hl j (mem_cons_of_mem k hj)) h.2 j hj
      omega

/-- In a list sorted by lower ends, comparing neighbours is enough. -/
theorem isChain_iff_pairwise_apart (hl : ∀ j ∈ l, j.1 ≤ j.2) (hs : l.Pairwise fun a b => a.1 ≤ b.1) :
    (l.IsChain fun a b => a.2 < b.1) ↔ l.Pairwise Apart := by
  induction l with
  | nil => simp
  | cons i l ih =>
    have hl' : ∀ j ∈ l, j.1 ≤ j.2 := fun j hj => hl j (mem_cons_of_mem i hj)
    rw [pairwise_cons] at hs ⊢
    constructor
    · intro h
      exact ⟨fun j hj => (apart_iff (hl' j hj) (hs.1 j hj)).2 (behind_of_isChain hl' h j hj),
        (ih hl' hs.2).1 h.of_cons⟩
    · rintro ⟨hi', hp⟩
      have hc := (ih hl' hs.2).2 hp
      cases l with
      | nil => simp
      | cons j l =>
        have hj : j ∈ j :: l := mem_cons_self
        exact isChain_cons_cons.2 ⟨(apart_iff (hl' j hj) (hs.1 j hj)).1 (hi' j hj), hc⟩

def Next (i j : ℕ × ℕ) : Prop := j.1 = i.2 + 1

theorem pairwise_apart_of_next (hl : ∀ j ∈ l, j.1 ≤ j.2) (h : l.IsChain Next) : l.Pairwise Apart := by
  have hlt : l.IsChain fun a b => a.2 < b.1 := h.imp fun a b hab => by rw [hab]; omega
  induction l with
  | nil => simp
  | cons i l ih =>
    have hl' : ∀ j ∈ l, j.1 ≤ j.2 := fun j hj => hl j (mem_cons_of_mem i hj)
    refine pairwise_cons.2 ⟨?_, ih hl' h.of_cons hlt.of_cons⟩
    intro j hj x ⟨hx, hx'⟩
    have := behind_of_isChain hl' hlt j hj
    have := hx.2
    have := hx'.1
    omega

/-- Adjacent intervals cover what lies between their ends. -/
theorem covers_of_next (hl : ∀ j ∈ i :: l, j.1 ≤ j.2) (h : (i :: l).IsChain Next) (x : ℕ) :
    Covers (i :: l) x ↔ i.1 ≤ x ∧ x ≤ ((i :: l).getLast (by simp)).2 := by
  induction l generalizing i x with
  | nil => simp [Covers, Within]
  | cons j l ih =>
    rw [isChain_cons_cons] at h
    have hn : j.1 = i.2 + 1 := h.1
    have hi := hl i mem_cons_self
    have hj := hl j (mem_cons_of_mem i mem_cons_self)
    have hr := ih (fun k hk => hl k (mem_cons_of_mem i hk)) h.2
    have hls := ((hr j.1).1 ⟨j, mem_cons_self, le_refl _, hj⟩).2
    rw [covers_cons, hr, getLast_cons_cons, Within]
    omega

theorem ends_unique {a b c d : ℕ} (h : ∀ x, a ≤ x ∧ x ≤ b ↔ c ≤ x ∧ x ≤ d) (hle : c ≤ d) : c = a ∧ d = b := by
  have hc := h c
  have hd := h d
  have ha := h a
  have hb := h b
  omega

/-- Intervals that share out a span are adjacent once they are sorted. -/
theorem next_of_covers (hl : ∀ j ∈ l, j.1 ≤ j.2) (hs : l.Pairwise fun a b => a.1 ≤ b.1) (ha : l.Pairwise Apart)
    {a b : ℕ}
    (hc : ∀ x, Covers l x ↔ a ≤ x ∧ x ≤ b) : l.IsChain Next := by
  induction l generalizing a with
  | nil => simp
  | cons i l ih =>
    have hi := hl i mem_cons_self
    have hl' : ∀ j ∈ l, j.1 ≤ j.2 := fun j hj => hl j (mem_cons_of_mem i hj)
    rw [pairwise_cons] at hs ha
    have hb : ∀ j ∈ l, i.2 < j.1 := fun j hj => (apart_iff (hl' j hj) (hs.1 j hj)).1 (ha.1 j hj)
    cases l with
    | nil => simp
    | cons j l =>
      have hj : j ∈ j :: l := mem_cons_self
      have hf := (hc i.1).1 ⟨i, mem_cons_self, le_refl _, hi⟩
      have hsc := (hc j.1).1 ⟨j, mem_cons_of_mem i hj, le_refl _, hl' j hj⟩
      have hlt := hb j hj
      have hn : j.1 = i.2 + 1 := by
        -- the number after the first interval is covered, and not before the second one
        obtain ⟨k, hk, hin⟩ := (hc (i.2 + 1)).2 ⟨by omega, by omega⟩
        have hle := hin.1
        rcases mem_cons.1 hk with rfl | hk
        · have := hin.2
          omega
        · rcases mem_cons.1 hk with rfl | hk
          · omega
          · have := (pairwise_cons.1 hs.2).1 k hk
            omega
      refine isChain_cons_cons.2 ⟨hn, ih hl' hs.2 ha.2 (a := i.2 + 1) fun x => ?_⟩
      constructor
      · intro hx
        obtain ⟨k, hk, hin⟩ := id hx
        have := hb k hk
        have := hin.1
        exact ⟨by omega, ((hc x).1 (covers_cons.2 (.inr hx))).2⟩
      · rintro ⟨hw, hh⟩
        rcases covers_cons.1 ((hc x).2 ⟨by omega, hh⟩) with hin | hx
        · have := hin.2
          omega
        · exact hx

/-! ### Breaks -/

/-- The numbers at the places where the list breaks: where an interval does not begin right after the end of the one
before it, or one of the two is empty. -/
def breaks : List (ℕ × ℕ) → List ℕ
  | i :: j :: l =>
    (if i.1 ≤ i.2 ∧ j.1 ≤ j.2 ∧ j.1 = i.2 + 1 then [] else [i.2 + 1, j.1]) ++ breaks (j :: l)
  | _ => []

def ends : List (ℕ × ℕ) → List ℕ
  | [] => []
  | i :: l => [i.1, ((i :: l).getLast (by simp)).2 + 1]

def times (l : List (ℕ × ℕ)) (x : ℕ) : ℕ := l.countP fun i => decide (Within i x)

theorem covers_iff_times {x : ℕ} : Covers l x ↔ 0 < times l x := by
  simp [Covers, times, countP_pos_iff]

theorem times_cons {x : ℕ} : times (i :: l) x = times l x + if i.1 ≤ x ∧ x ≤ i.2 then 1 else 0 := by
  rw [times, countP_cons, ← times]
  by_cases h : i.1 ≤ x ∧ x ≤ i.2 <;> simp [Within, h]

theorem mem_breaks_cons {x : ℕ} : x ∈ breaks (i :: j :: l) ↔
    ¬ (i.1 ≤ i.2 ∧ j.1 ≤ j.2 ∧ j.1 = i.2 + 1) ∧ (x = i.2 + 1 ∨ x = j.1) ∨ x ∈ breaks (j :: l) := by
  rw [breaks, mem_append]
  split_ifs with h
  · simp only [not_mem_nil, false_or, not_not.2 h, false_and]
  · simp only [mem_cons, not_mem_nil, or_false, h, not_false_eq_true, true_and]

/-- Away from the breaks a number is not in more intervals than the one before it, unless the first one begins
there. -/
theorem times_succ_le {x : ℕ} (hb : x + 1 ∉ breaks (i :: l)) :
    times (i :: l) (x + 1) ≤ times (i :: l) x + if i.1 = x + 1 then 1 else 0 := by
  induction l generalizing i with
  | nil =>
    rw [times_cons, times_cons]
    simp only [times, countP_nil]
    split_ifs <;> omega
  | cons j l ih =>
    rw [mem_breaks_cons, not_or] at hb
    have hr := ih hb.2
    rw [times_cons (i := i), times_cons (i := i)]
    split_ifs at hr ⊢ <;> omega

theorem not_covers_zero (hb : 0 ∉ breaks (i :: l)) (hf : i.1 ≠ 0) : ¬ Covers (i :: l) 0 := by
  induction l generalizing i with
  | nil => simp [Covers, Within, hf]
  | cons j l ih =>
    rw [mem_breaks_cons, not_or] at hb
    rw [covers_cons, not_or]
    refine ⟨fun hw => hf (Nat.le_zero.1 hw.1), ih hb.2 ?_⟩
    omega

/-- Away from the breaks the number after one that is covered is covered, unless the last one ends there. -/
theorem covers_succ {x : ℕ} (hb : x + 1 ∉ breaks (i :: l)) (hl : ((i :: l).getLast (by simp)).2 ≠ x)
    (hc : Covers (i :: l) x) : Covers (i :: l) (x + 1) := by
  induction l generalizing i with
  | nil =>
    obtain ⟨k, hk, hw⟩ := hc
    obtain rfl := mem_singleton.1 hk
    rw [getLast_singleton] at hl
    exact ⟨k, hk, hw.1.trans (by omega), by have := hw.2; omega⟩
  | cons j l ih =>
    rw [mem_breaks_cons, not_or] at hb
    rw [getLast_cons_cons] at hl
    rw [covers_cons] at hc ⊢
    rcases hc with hw | hc
    · rcases Nat.lt_or_ge x i.2 with hlt | hge
      · exact .inl ⟨hw.1.trans (by omega), hlt⟩
      · have he : i.2 = x := Nat.le_antisymm hge hw.2
        exact .inr ⟨j, mem_cons_self, by omega, by omega⟩
    · exact .inr (ih hb.2 hl hc)

/-- Away from the breaks, a number is covered if its successor is. -/
theorem covers_of_covers_succ {x : ℕ} (hb : x + 1 ∉ breaks (i :: l)) (hf : i.1 ≠ x + 1)
    (hc : Covers (i :: l) (x + 1)) :
    Covers (i :: l) x := by
  have hle := times_succ_le hb
  rw [if_neg hf] at hle
  rw [covers_iff_times] at hc ⊢
  omega

/-- Two lists of intervals that begin and end alike cover the same numbers when they do so at the breaks of both and
at the two ends. -/
theorem covers_iff_of_breaks {i' : ℕ × ℕ} {l' : List (ℕ × ℕ)} (hf : i'.1 = i.1)
    (hl : ((i' :: l').getLast (by simp)).2 = ((i :: l).getLast (by simp)).2)
    (h : ∀ x ∈ ends (i :: l) ++ breaks (i :: l) ++ breaks (i' :: l'), Covers (i :: l) x ↔ Covers (i' :: l') x)
    (x : ℕ) :
    Covers (i :: l) x ↔ Covers (i' :: l') x := by
  induction x with
  | zero =>
    by_cases hx : 0 ∈ ends (i :: l) ++ breaks (i :: l) ++ breaks (i' :: l')
    · exact h 0 hx
    simp only [ends, mem_append, mem_cons, not_mem_nil, or_false, not_or] at hx
    exact iff_of_false (not_covers_zero hx.1.2 (Ne.symm hx.1.1.1)) (not_covers_zero hx.2 (hf ▸ Ne.symm hx.1.1.1))
  | succ x ih =>
    by_cases hx : x + 1 ∈ ends (i :: l) ++ breaks (i :: l) ++ breaks (i' :: l')
    · exact h (x + 1) hx
    -- away from these numbers both lists go on as at the number before
    simp only [ends, mem_append, mem_cons, not_mem_nil, or_false, not_or] at hx
    obtain ⟨⟨⟨hxf, hxl⟩, hbr⟩, hbr'⟩ := hx
    exact ⟨fun hc => covers_succ hbr' (by omega) (ih.1 (covers_of_covers_succ hbr (by omega) hc)),
      fun hc => covers_succ hbr (by omega) (ih.2 (covers_of_covers_succ hbr' (by omega) hc))⟩

/-- An interval is covered when its lower end is, and with it the numbers at the breaks and at the end of the list
that lie in it. -/
theorem covers_of_within {k : ℕ × ℕ} (hlo : k.1 ≤ k.2 → Covers (i :: l) k.1)
    (h : ∀ x ∈ ends (i :: l) ++ breaks (i :: l), Within k x → Covers (i :: l) x) {x : ℕ} (hx : Within k x) :
    Covers (i :: l) x := by
  obtain ⟨hk, hx⟩ := hx
  induction x, hk using Nat.le_induction with
  | base => exact hlo hx
  | succ x hk ih =>
    by_cases hm : x + 1 ∈ ends (i :: l) ++ breaks (i :: l)
    · exact h _ hm ⟨by omega, hx⟩
    · simp only [ends, cons_append, nil_append, mem_cons, not_or] at hm
      exact covers_succ hm.2.2 (by omega) (ih (by omega))

/-- A list of intervals has no number twice when it has none twice at its beginning and at its breaks. -/
theorem times_le_one_of_breaks (h : ∀ x ∈ i.1 :: breaks (i :: l), times (i :: l) x ≤ 1) (x : ℕ) :
    times (i :: l) x ≤ 1 := by
  simp only [mem_cons] at h
  induction x with
  | zero =>
    by_cases hx : 0 = i.1 ∨ 0 ∈ breaks (i :: l)
    · exact h 0 hx
    rw [not_or] at hx
    have hn := not_covers_zero hx.2 (Ne.symm hx.1)
    rw [covers_iff_times] at hn
    omega
  | succ x ih =>
    by_cases hx : x + 1 = i.1 ∨ x + 1 ∈ breaks (i :: l)
    · exact h (x + 1) hx
    rw [not_or] at hx
    have hle := times_succ_le hx.2
    rw [if_neg (Ne.symm hx.1)] at hle
    exact hle.trans ih

/-- Disjoint intervals cover nothing twice. -/
theorem pairwise_apart_iff : l.Pairwise Apart ↔ ∀ x, times l x ≤ 1 := by
  induction l with
  | nil => simp [times]
  | cons i l ih =>
    rw [pairwise_cons, ih]
    simp only [times_cons]
    constructor
    · rintro ⟨ha, h⟩ x
      split_ifs with hx
      · have hn : ¬ Covers l x := fun ⟨j, hj, hw⟩ => ha j hj x ⟨hx, hw⟩
        rw [covers_iff_times] at hn
        omega
      · exact h x
    · intro h
      refine ⟨fun j hj x hx => ?_, fun x => (Nat.le_add_right _ _).trans (h x)⟩
      have hc : 0 < times l x := covers_iff_times.1 ⟨j, hj, hx.2⟩
      have := h x
      rw [if_pos (show i.1 ≤ x ∧ x ≤ i.2 from hx.1)] at this
      omega

end Intervals
