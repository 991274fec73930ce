/-
  Lists in an order, and their parts by index.

  A predicate that an element has whenever a later one has it (`Pairwise fun a b => P b → P a`)
  holds of a first part of the list: `filter_eq_take`, `filter_take` and `lt_countP_iff`. An
  insertion sort of distinct elements is stable (`insertionSort_stable`). Where a function of the
  elements is the number of their page, a page is what it selects (`filter_page`), and the pages
  together are the list (`range_flatMap_filter`).
-/
import Mathlib.Data.List.Basic
import Mathlib.Data.List.Perm.Basic
import Mathlib.Data.List.Sort
import Mathlib.Data.List.TakeWhile

namespace CloudScale.Lib

variable {α : Type} {P : α → Bool} {l : List α}

/-! ## First parts -/

theorem filter_eq_take (h : l.Pairwise fun a b => P b = true → P a = true) :
    l.filter P = l.take (l.countP P) := by
  induction l with
  | nil => rfl
  | cons a l ih =>
    obtain ⟨ha, hl⟩ := List.pairwise_cons.mp h
    cases hP : P a with
    | true =>
      rw [List.filter_cons_of_pos hP, List.countP_cons_of_pos hP, List.take_succ_cons, ih hl]
    | false =>
      have hnone : ∀ b ∈ l, ¬ P b = true := fun b hb hPb => by
        rw [ha b hb hPb] at hP
        cases hP
      rw [List.filter_cons_of_neg (by simp [hP]), List.countP_cons_of_neg (by simp [hP]),
        List.countP_eq_zero.mpr hnone, List.filter_eq_nil_iff.mpr hnone, List.take_zero]

theorem filter_take (h : l.Pairwise fun a b => P b = true → P a = true) (n : ℕ) :
    (l.take n).filter P = (l.filter P).take n := by
  induction l generalizing n with
  | nil => simp
  | cons a l ih =>
    obtain ⟨ha, hl⟩ := List.pairwise_cons.mp h
    cases n with
    | zero => rfl
    | succ n =>
      by_cases hP : P a = true
      · rw [List.take_succ_cons, List.filter_cons_of_pos hP, List.filter_cons_of_pos hP,
          List.take_succ_cons, ih hl]
      · have hnone : ∀ b ∈ l, ¬ P b = true := fun b hb hPb => hP (ha b hb hPb)
        rw [List.take_succ_cons, List.filter_cons_of_neg hP, List.filter_cons_of_neg hP,
          List.filter_eq_nil_iff.mpr fun b hb => hnone b (List.mem_of_mem_take hb),
          List.filter_eq_nil_iff.mpr hnone, List.take_nil]

theorem lt_countP_iff (h : l.Pairwise fun a b => P b = true → P a = true) {i : ℕ}
    (hi : i < l.length) : i < l.countP P ↔ P l[i] = true := by
  induction l generalizing i with
  | nil => exact absurd hi (Nat.not_lt_zero i)
  | cons a l ih =>
    obtain ⟨ha, hl⟩ := List.pairwise_cons.mp h
    cases hP : P a with
    | true =>
      rw [List.countP_cons_of_pos hP]
      cases i with
      | zero => simp [hP]
      | succ i =>
        rw [List.getElem_cons_succ, ← ih hl (Nat.lt_of_succ_lt_succ hi)]
        exact Nat.succ_lt_succ_iff
    | false =>
      have hnone : ∀ b ∈ l, ¬ P b = true := fun b hb hPb => by
        rw [ha b hb hPb] at hP
        cases hP
      rw [List.countP_cons_of_neg (by simp [hP]), List.countP_eq_zero.mpr hnone]
      refine iff_of_false (Nat.not_lt_zero i) fun hPi => ?_
      rcases List.mem_cons.mp (List.getElem_mem hi) with heq | hmem
      · rw [heq, hP] at hPi
        cases hPi
      · exact hnone _ hmem hPi

/-! ## Stable sorting -/

/-- The same elements by `r`, and those that `r` does not separate in the order they had. -/
def StableSort (r : α → α → Prop) (l sorted : List α) : Prop :=
  sorted.Perm l ∧ sorted.Pairwise fun a b => r a b ∧ (r b a → [a, b].Sublist l)

section StableSort

variable {r : α → α → Prop}

/-- Two elements are in one order or the other. -/
theorem pair_sublist_or {a b : α} (ha : a ∈ l) (hb : b ∈ l) (hne : a ≠ b) :
    [a, b].Sublist l ∨ [b, a].Sublist l := by
  induction l with
  | nil => exact absurd ha List.not_mem_nil
  | cons x l ih =>
    rcases List.mem_cons.mp ha with rfl | ha'
    · have hb' : b ∈ l := (List.mem_cons.mp hb).resolve_left hne.symm
      exact .inl ((List.singleton_sublist.mpr hb').cons_cons a)
    · rcases List.mem_cons.mp hb with rfl | hb'
      · exact .inr ((List.singleton_sublist.mpr ha').cons_cons b)
      · exact (ih ha' hb').imp (·.cons x) (·.cons x)

theorem not_pair_sublist (h : l.Nodup) {a b : α} (hab : [a, b].Sublist l) :
    ¬ [b, a].Sublist l := by
  induction l with
  | nil => simp at hab
  | cons x l ih =>
    obtain ⟨hx, hl⟩ := List.nodup_cons.mp h
    intro hba
    have hlast : ∀ {c d : α}, [c, d].Sublist l → d ∈ l := fun hcd =>
      hcd.mem (List.mem_cons_of_mem _ List.mem_cons_self)
    rcases List.cons_sublist_cons'.mp hab with hab' | ⟨rfl, hb⟩
    · rcases List.cons_sublist_cons'.mp hba with hba' | ⟨rfl, -⟩
      · exact ih hl hab' hba'
      · exact hx (hlast hab')
    · rcases List.cons_sublist_cons'.mp hba with hba' | ⟨rfl, -⟩
      · exact hx (hlast hba')
      · exact hx (List.singleton_sublist.mp hb)

theorem insertionSort_stable [DecidableRel r] [Std.Total r] [IsTrans α r] (h : l.Nodup) :
    StableSort r l (l.insertionSort r) := by
  refine ⟨List.perm_insertionSort r l, List.pairwise_iff_forall_sublist.mpr fun {a b} hab => ?_⟩
  refine ⟨List.pairwise_iff_forall_sublist.mp (List.pairwise_insertionSort r l) hab, fun hba => ?_⟩
  have hnodup : (l.insertionSort r).Nodup := (List.perm_insertionSort r l).nodup_iff.mpr h
  have hmem : ∀ x ∈ [a, b], x ∈ l := fun x hx => (List.mem_insertionSort r).mp (hab.mem hx)
  have hne : a ≠ b := by simpa using hab.nodup hnodup
  rcases pair_sublist_or (hmem a (by simp)) (hmem b (by simp)) hne with hl | hl
  · exact hl
  · exact absurd (List.pair_sublist_insertionSort hba hl) (not_pair_sublist hnodup hab)

end StableSort

section ByKey

variable {β : Type} [LinearOrder β] (f : α → β)

theorem pairwise_insertionSort_key (l : List α) :
    (l.insertionSort fun x y => f y ≤ f x).Pairwise fun x y => f y ≤ f x := by
  have : Std.Total fun x y : α => f y ≤ f x := ⟨fun x y => le_total (f y) (f x)⟩
  have : IsTrans α fun x y => f y ≤ f x := ⟨fun _ _ _ hxy hyz => le_trans hyz hxy⟩
  exact List.pairwise_insertionSort _ l

end ByKey

/-! ## Pages -/

variable {size k : ℕ}

/-- The page with number `k`, where `page` is the page of each element. -/
theorem filter_page (page : α → ℕ) (hsize : 0 < size)
    (hpage : ∀ i (hi : i < l.length), page l[i] = i / size) :
    l.filter (fun a => decide (page a = k)) = (l.drop (k * size)).take size := by
  have hbefore : (l.take (k * size)).filter (fun a => decide (page a = k)) = [] := by
    refine List.filter_eq_nil_iff.mpr fun a ha heq => ?_
    obtain ⟨i, hi, hget⟩ := List.mem_take_iff_getElem.mp ha
    have hlt : i / size < k := (Nat.div_lt_iff_lt_mul hsize).mpr (by omega)
    rw [← hpage i (by omega), hget, of_decide_eq_true heq] at hlt
    exact Nat.lt_irrefl k hlt
  have hon : ((l.drop (k * size)).take size).filter (fun a => decide (page a = k)) =
      (l.drop (k * size)).take size := by
    refine List.filter_eq_self.mpr fun a ha => decide_eq_true ?_
    obtain ⟨j, hj, hget⟩ := List.mem_take_iff_getElem.mp ha
    rw [List.length_drop] at hj
    rw [List.getElem_drop] at hget
    rw [← hget, hpage, Nat.div_eq_iff hsize]
    omega
  have hafter : ((l.drop (k * size)).drop size).filter (fun a => decide (page a = k)) = [] := by
    refine List.filter_eq_nil_iff.mpr fun a ha heq => ?_
    rw [List.drop_drop] at ha
    obtain ⟨j, hj, hget⟩ := List.mem_iff_getElem.mp ha
    rw [List.length_drop] at hj
    rw [List.getElem_drop] at hget
    have hge : k + 1 ≤ (k * size + size + j) / size :=
      (Nat.le_div_iff_mul_le hsize).mpr (by rw [Nat.succ_mul]; exact Nat.le_add_right _ _)
    rw [← hpage _ (by omega), hget, of_decide_eq_true heq] at hge
    exact Nat.lt_irrefl k hge
  calc l.filter _ = (l.take (k * size) ++ ((l.drop (k * size)).take size ++
        (l.drop (k * size)).drop size)).filter _ := by
          rw [List.take_append_drop, List.take_append_drop]
    _ = _ := by rw [List.filter_append, List.filter_append, hbefore, hon, hafter,
          List.nil_append, List.append_nil]

/-- The elements of the first `n` pages. -/
theorem range_flatMap_filter (l : List α) (page : α → ℕ) (n : ℕ) :
    ((List.range n).flatMap fun k => l.filter fun a => decide (page a = k)).Perm
      (l.filter fun a => decide (page a < n)) := by
  induction n with
  | zero => simp
  | succ n ih =>
    rw [List.range_succ, List.flatMap_append, List.flatMap_singleton]
    refine (ih.append_right _).trans ?_
    have hsplit := List.filter_append_perm (fun a => decide (page a < n))
      (l.filter fun a => decide (page a < n + 1))
    rw [List.filter_filter, List.filter_filter] at hsplit
    refine (List.Perm.of_eq ?_).trans hsplit
    congr 1
    · refine List.filter_congr fun a _ => ?_
      rw [← Bool.decide_and]
      exact decide_eq_decide.mpr (by omega)
    · refine List.filter_congr fun a _ => ?_
      rw [← decide_not, ← Bool.decide_and]
      exact decide_eq_decide.mpr (by omega)

end CloudScale.Lib
