/-
  Counting in fixed windows, and what it admits in a sliding one.

  A window opens at the first time that comes more than `W` after the opening of the last one;
  `windows` cuts a sequence of times into them. A limiter that counts in these windows admits the
  first `m` times of each (`fixedAdmitted`). `fixedAdmitted_bounded_iff`: no half-open interval of
  length `W` has more than `m` of them exactly when no two neighbouring windows are `Crowded`: what
  the later one has within `W` of a counted time of the earlier one fits into what came before that
  time and what the earlier window left unused.
-/
import Mathlib.Algebra.Order.Group.Defs
import Mathlib.Data.List.Chain
import Mathlib.Data.List.TakeWhile

namespace CloudScale.Lib

variable {T : Type} [LinearOrder T]

/-! ## Counting in sorted lists -/

section Counting

variable {l : List T}

theorem countP_lt_eq_zero {x : T} (h : ∀ t ∈ l, x ≤ t) : l.countP (· < x) = 0 := by
  rw [List.countP_eq_zero]
  intro t ht
  simpa using h t ht

/-- Of the first `m` times, those from `x` on. -/
theorem countP_le_take (hl : l.Pairwise (· ≤ ·)) (m : ℕ) (x : T) :
    (l.take m).countP (x ≤ ·) = min m l.length - l.countP (· < x) := by
  induction l generalizing m with
  | nil => simp
  | cons t l ih =>
    rw [List.pairwise_cons] at hl
    cases m with
    | zero => simp
    | succ m =>
      rw [List.take_succ_cons, List.countP_cons, List.countP_cons, ih hl.2, List.length_cons]
      by_cases hx : t < x
      · simp only [hx, not_le.mpr hx, decide_true, decide_false, if_true,
          Bool.false_eq_true, if_false]
        omega
      · have hnone : l.countP (· < x) = 0 :=
          countP_lt_eq_zero fun t' ht' => le_trans (not_lt.mp hx) (hl.1 t' ht')
        simp only [hx, not_lt.mp hx, hnone, decide_true, decide_false, if_true, Bool.false_eq_true,
          if_false]
        omega

/-- Of the first `m` times, those before `y`. -/
theorem countP_lt_take (hl : l.Pairwise (· ≤ ·)) (m : ℕ) (y : T) :
    (l.take m).countP (· < y) = min m (l.countP (· < y)) := by
  induction l generalizing m with
  | nil => simp
  | cons t l ih =>
    rw [List.pairwise_cons] at hl
    cases m with
    | zero => simp
    | succ m =>
      rw [List.take_succ_cons, List.countP_cons, List.countP_cons, ih hl.2]
      by_cases hy : t < y
      · simp only [hy, decide_true, if_true]
        omega
      · have hnone : l.countP (· < y) = 0 :=
          countP_lt_eq_zero fun t' ht' => le_trans (not_lt.mp hy) (hl.1 t' ht')
        simp [hy, hnone]

/-- The first of the first `m` times from `x` on has no more before it than `x` has. -/
theorem exists_first (hl : l.Pairwise (· ≤ ·)) {m : ℕ} {x : T} (h : ∃ a ∈ l.take m, x ≤ a) :
    ∃ a ∈ l.take m, x ≤ a ∧ l.countP (· < a) ≤ l.countP (· < x) := by
  induction l generalizing m with
  | nil => simp at h
  | cons t l ih =>
    obtain ⟨b, hb, hxb⟩ := h
    rw [List.pairwise_cons] at hl
    cases m with
    | zero => simp at hb
    | succ m =>
      rw [List.take_succ_cons] at hb ⊢
      by_cases hx : x ≤ t
      · have hnone : (t :: l).countP (· < t) = 0 :=
          countP_lt_eq_zero (List.forall_mem_cons.mpr ⟨le_refl t, hl.1⟩)
        exact ⟨t, List.mem_cons_self, hx, by rw [hnone]; exact Nat.zero_le _⟩
      · have hb' : b ∈ l.take m := by
          rcases List.mem_cons.mp hb with rfl | hb
          · exact absurd hxb hx
          · exact hb
        obtain ⟨a, ha, hxa, hcount⟩ := ih hl.2 ⟨b, hb', hxb⟩
        refine ⟨a, List.mem_cons_of_mem t ha, hxa, ?_⟩
        rw [List.countP_cons, List.countP_cons]
        simp only [lt_of_lt_of_le (not_le.mp hx) hxa, not_le.mp hx, decide_true, if_true]
        omega

end Counting

/-! ## Windows -/

variable [AddCommGroup T]

/-- The windows of what is still to come, when the one that opened at `s` has `w` so far. -/
def windowsFrom (W s : T) (w : List T) : List T → List (List T)
  | [] => [w]
  | t :: ts => if t ≤ s + W then windowsFrom W s (w ++ [t]) ts else w :: windowsFrom W t [t] ts

def windows (W : T) : List T → List (List T)
  | [] => []
  | t :: ts => windowsFrom W t [t] ts

/-- The first `m` times of each window. -/
def fixedAdmitted (m : ℕ) (W : T) (ts : List T) : List T := (windows W ts).flatMap (·.take m)

/-- No half-open interval of length `W` has more than `m` of the times. -/
def SlidingBounded (m : ℕ) (W : T) (ts : List T) : Prop :=
  ∀ x, ts.countP (fun t => x ≤ t ∧ t < x + W) ≤ m

/-- A counted time of `u` with too many times of the next window, `v`, within `W` of it. -/
def Crowded (m : ℕ) (W : T) (u v : List T) : Prop :=
  ∃ t ∈ u.take m, u.countP (· < t) + (m - u.length) < v.countP (· < t + W)

instance (m : ℕ) (W : T) (u v : List T) : Decidable (Crowded m W u v) :=
  inferInstanceAs (Decidable (∃ t ∈ u.take m, _))

/-- The windows, one after another. -/
theorem windows_cons (W t : T) (ts : List T) :
    windows W (t :: ts) =
      (t :: ts.takeWhile (· ≤ t + W)) :: windows W (ts.dropWhile (· ≤ t + W)) := by
  have hfrom : ∀ w, windowsFrom W t w ts =
      (w ++ ts.takeWhile (· ≤ t + W)) :: windows W (ts.dropWhile (· ≤ t + W)) := by
    induction ts with
    | nil => intro w; simp [windowsFrom, windows]
    | cons t' ts ih =>
      intro w
      by_cases h : t' ≤ t + W
      · rw [windowsFrom, if_pos h, ih]
        simp [h]
      · rw [windowsFrom, if_neg h]
        simp [h, windows]
  exact hfrom [t]

/-- Induction along the windows. -/
theorem windows_induction {P : List T → Prop} (W : T) (hnil : P [])
    (hcons : ∀ t ts, P (ts.dropWhile (· ≤ t + W)) → P (t :: ts)) (ts : List T) : P ts := by
  induction hn : ts.length using Nat.strong_induction_on generalizing ts with
  | _ n ih =>
    cases ts with
    | nil => exact hnil
    | cons t ts =>
      have hlen : (ts.dropWhile (· ≤ t + W)).length ≤ ts.length :=
        (List.dropWhile_sublist _).length_le
      exact hcons t ts (ih _ (by rw [← hn, List.length_cons]; omega) _ rfl)

theorem flatten_windows (W : T) (ts : List T) : (windows W ts).flatten = ts := by
  induction ts using windows_induction W with
  | hnil => rfl
  | hcons t ts ih =>
    rw [windows_cons, List.flatten_cons, ih, List.cons_append, List.takeWhile_append_dropWhile]

/-- What comes after a window is more than `W` after its opening. -/
theorem lt_of_mem_dropWhile {W s t : T} {ts : List T} (hts : ts.Pairwise (· ≤ ·))
    (h : t ∈ ts.dropWhile (· ≤ s + W)) : s + W < t := by
  induction ts with
  | nil => exact absurd h List.not_mem_nil
  | cons t' ts ih =>
    rw [List.pairwise_cons] at hts
    by_cases ht' : t' ≤ s + W
    · rw [List.dropWhile_cons_of_pos (by simpa using ht')] at h
      exact ih hts.2 h
    · rw [List.dropWhile_cons_of_neg (by simpa using ht')] at h
      rcases List.mem_cons.mp h with rfl | h
      · exact not_le.mp ht'
      · exact lt_of_lt_of_le (not_le.mp ht') (hts.1 t h)

/-! ## The two limits -/

section Limits

variable {m : ℕ} {W : T}

theorem fixedAdmitted_cons (m : ℕ) (W t : T) (ts : List T) : fixedAdmitted m W (t :: ts) =
    (t :: ts.takeWhile (· ≤ t + W)).take m ++ fixedAdmitted m W (ts.dropWhile (· ≤ t + W)) := by
  unfold fixedAdmitted
  rw [windows_cons, List.flatMap_cons]

theorem mem_of_mem_fixedAdmitted {t : T} {ts : List T} (h : t ∈ fixedAdmitted m W ts) : t ∈ ts := by
  obtain ⟨u, hu, ht⟩ := List.mem_flatMap.mp h
  rw [← flatten_windows W ts]
  exact List.mem_flatten.mpr ⟨u, hu, List.mem_of_mem_take ht⟩

theorem bounded_append_right {l l' : List T} (h : SlidingBounded m W (l ++ l')) :
    SlidingBounded m W l' := by
  intro x
  have hx := h x
  rw [List.countP_append] at hx
  omega

variable [IsOrderedAddMonoid T] {t : T} {ts : List T}

/-- An interval without length has no times. -/
theorem bounded_of_nonpos (hW : W ≤ 0) (ts : List T) : SlidingBounded m W ts := by
  intro x
  have hnone : ts.countP (fun t => x ≤ t ∧ t < x + W) = 0 := by
    rw [List.countP_eq_zero]
    intro t _
    simp only [decide_eq_true_eq, not_and, not_lt]
    exact le_trans (add_le_of_nonpos_right hW)
  rw [hnone]
  exact Nat.zero_le m

/-- An interval that is not crowded, with what two neighbouring windows have in it. -/
theorem count_of_not_crowded {u v : List T} (hu : u.Pairwise (· ≤ ·))
    (h : ¬ Crowded m W u v) {x : T} (hx : ∃ a ∈ u.take m, x ≤ a) :
    (u.take m).countP (x ≤ ·) + (v.take m).countP (· < x + W) ≤ m := by
  obtain ⟨a, ha, hxa, hcount⟩ := exists_first hu hx
  have hspread : v.countP (· < a + W) ≤ u.countP (· < a) + (m - u.length) := by
    by_contra hlt
    exact h ⟨a, ha, not_le.mp hlt⟩
  have hlater : v.countP (· < x + W) ≤ v.countP (· < a + W) := by
    refine List.countP_mono_left fun t _ ht => ?_
    simp only [decide_eq_true_eq] at ht ⊢
    exact lt_of_lt_of_le ht (add_le_add_left hxa W)
  have htake : (v.take m).countP (· < x + W) ≤ v.countP (· < x + W) :=
    (List.take_sublist m v).countP_le
  have hpos : 0 < (u.take m).countP (x ≤ ·) := List.countP_pos_iff.mpr ⟨a, ha, by simpa using hxa⟩
  rw [countP_le_take hu] at hpos ⊢
  omega

/-- Two windows that are crowded let too many through. -/
theorem not_crowded_of_bounded {v rest : List T} (hlate : ∀ b ∈ v, t + W < b)
    (hts : (t :: (ts.takeWhile (· ≤ t + W) ++ v)).Pairwise (· ≤ ·))
    (h : SlidingBounded m W ((t :: ts.takeWhile (· ≤ t + W)).take m ++ (v.take m ++ rest))) :
    ¬ Crowded m W (t :: ts.takeWhile (· ≤ t + W)) v := by
  rintro ⟨a, ha, hlt⟩
  rw [← List.cons_append, List.pairwise_append] at hts
  obtain ⟨hu, hv, huv⟩ := hts
  have hau : a ∈ t :: ts.takeWhile (· ≤ t + W) := List.mem_of_mem_take ha
  have hta : t ≤ a := by
    rcases List.mem_cons.mp hau with rfl | hmem
    · exact le_refl a
    · exact (List.pairwise_cons.mp hu).1 a hmem
  -- only a time after the opening reaches into the next window
  by_cases hW : 0 ≤ W ∧ t < a
  · have hwithin : ∀ b ∈ t :: ts.takeWhile (· ≤ t + W), b < a + W := by
      intro b hb
      have hbt : b ≤ t + W := by
        rcases List.mem_cons.mp hb with rfl | hmem
        · exact le_add_of_nonneg_right hW.1
        · simpa using List.mem_takeWhile_imp hmem
      exact lt_of_le_of_lt hbt (add_lt_add_left hW.2 W)
    have hfirst : ((t :: ts.takeWhile (· ≤ t + W)).take m).countP (fun b => a ≤ b ∧ b < a + W) =
        ((t :: ts.takeWhile (· ≤ t + W)).take m).countP (a ≤ ·) := by
      refine List.countP_congr fun b hb => ?_
      simp [hwithin b (List.mem_of_mem_take hb)]
    have hsecond : (v.take m).countP (fun b => a ≤ b ∧ b < a + W) =
        (v.take m).countP (· < a + W) := by
      refine List.countP_congr fun b hb => ?_
      simp [huv a hau b (List.mem_of_mem_take hb)]
    have hpos : 0 < ((t :: ts.takeWhile (· ≤ t + W)).take m).countP (a ≤ ·) :=
      List.countP_pos_iff.mpr ⟨a, ha, by simp⟩
    have hbound := h a
    rw [List.countP_append, List.countP_append, hfirst, hsecond] at hbound
    rw [countP_lt_take hv] at hbound
    rw [countP_le_take hu] at hpos hbound
    omega
  · have hnone : v.countP (· < a + W) = 0 := countP_lt_eq_zero fun b hb => by
      rcases not_and_or.mp hW with hneg | hopening
      · exact le_trans (add_le_of_nonpos_right (not_le.mp hneg).le) (huv a hau b hb)
      · rw [le_antisymm (not_lt.mp hopening) hta]
        exact (hlate b hb).le
    omega

/-- Two neighbouring windows that are not crowded, and a bound on all that follows the first. -/
theorem bounded_of_not_crowded {u ts' : List T} {t' : T}
    (hts : (u ++ t' :: ts').Pairwise (· ≤ ·))
    (hnot : ¬ Crowded m W u (t' :: ts'.takeWhile (· ≤ t' + W)))
    (h : SlidingBounded m W (fixedAdmitted m W (t' :: ts'))) :
    SlidingBounded m W (u.take m ++ fixedAdmitted m W (t' :: ts')) := by
  intro x
  rw [List.pairwise_append, List.pairwise_cons] at hts
  obtain ⟨hu, ⟨-, hts'⟩, huv⟩ := hts
  by_cases hx : ∃ a ∈ u.take m, x ≤ a
  · have hcount := count_of_not_crowded hu hnot hx
    obtain ⟨a, ha, hxa⟩ := hx
    have hat : x ≤ t' := le_trans hxa (huv a (List.mem_of_mem_take ha) t' List.mem_cons_self)
    -- what comes after the second window is out of reach
    have hfar : (fixedAdmitted m W (ts'.dropWhile (· ≤ t' + W))).countP
        (fun t => x ≤ t ∧ t < x + W) = 0 := by
      rw [List.countP_eq_zero]
      intro c hc
      have hle : t' + W ≤ c := (lt_of_mem_dropWhile hts' (mem_of_mem_fixedAdmitted hc)).le
      have hxc : x + W ≤ c := le_trans (add_le_add_left hat W) hle
      simp [hxc]
    have hfirst : (u.take m).countP (fun t => x ≤ t ∧ t < x + W) ≤ (u.take m).countP (x ≤ ·) :=
      List.countP_mono_left fun t _ ht => by simp at ht ⊢; exact ht.1
    have hsecond : ((t' :: ts'.takeWhile (· ≤ t' + W)).take m).countP
        (fun t => x ≤ t ∧ t < x + W) ≤
          ((t' :: ts'.takeWhile (· ≤ t' + W)).take m).countP (· < x + W) :=
      List.countP_mono_left fun t _ ht => by simp at ht ⊢; exact ht.2
    rw [fixedAdmitted_cons, List.countP_append, List.countP_append, hfar]
    omega
  · have hnone : (u.take m).countP (fun t => x ≤ t ∧ t < x + W) = 0 := by
      rw [List.countP_eq_zero]
      intro a ha
      have hlt : a < x := by
        by_contra hle
        exact hx ⟨a, ha, not_lt.mp hle⟩
      simp [hlt]
    rw [List.countP_append, hnone, Nat.zero_add]
    exact h x

/-- Counting in fixed windows bounds every interval of their length exactly when no two neighbouring
    windows are crowded. -/
theorem fixedAdmitted_bounded_iff (m : ℕ) (W : T) {ts : List T} (hts : ts.Pairwise (· ≤ ·)) :
    SlidingBounded m W (fixedAdmitted m W ts) ↔
      (windows W ts).IsChain fun u v => ¬ Crowded m W u v := by
  induction ts using windows_induction W with
  | hnil => simp [fixedAdmitted, windows, SlidingBounded]
  | hcons t ts ih =>
    have hsplit : t :: (ts.takeWhile (· ≤ t + W) ++ ts.dropWhile (· ≤ t + W)) = t :: ts := by
      rw [List.takeWhile_append_dropWhile]
    rw [windows_cons, fixedAdmitted_cons]
    cases hd : ts.dropWhile (· ≤ t + W) with
    | nil =>
      refine iff_of_true (fun x => ?_) (List.isChain_singleton _)
      refine le_trans List.countP_le_length ?_
      simp [fixedAdmitted, windows]
    | cons t' ts' =>
      have hrest : (ts.dropWhile (· ≤ t + W)).Pairwise (· ≤ ·) :=
        (List.pairwise_cons.mp hts).2.sublist (List.dropWhile_sublist _)
      have hlate : ∀ b ∈ t' :: ts'.takeWhile (· ≤ t' + W), t + W < b := fun b hb =>
        lt_of_mem_dropWhile (List.pairwise_cons.mp hts).2
          (hd ▸ ((List.takeWhile_sublist _).cons_cons t').subset hb)
      rw [hd] at ih hrest hsplit
      have hwindow :
          (t :: (ts.takeWhile (· ≤ t + W) ++ (t' :: ts'.takeWhile (· ≤ t' + W)))).Pairwise
          (· ≤ ·) := by
        refine (hsplit ▸ hts).sublist ?_
        refine ((List.Sublist.refl _).append ?_).cons_cons t
        exact (List.takeWhile_sublist _).cons_cons t'
      rw [windows_cons W t', List.isChain_cons_cons, ← windows_cons W t', ← ih hrest]
      constructor
      · intro h
        refine ⟨?_, bounded_append_right h⟩
        rw [fixedAdmitted_cons m W t'] at h
        exact not_crowded_of_bounded hlate hwindow h
      · rintro ⟨hnot, h⟩
        refine bounded_of_not_crowded ?_ hnot h
        rw [List.cons_append, hsplit]
        exact hts

end Limits

end CloudScale.Lib
