/-
  Pools of resources that are lent to holders one at a time.

  `Pool.Kept clean own`: a resource that nobody holds is clean, and one that is held is as its
  holder may see it. `take`, `use` and `give` keep it when a clean resource suits every holder, a
  holder leaves its resource as it may see it, and giving a resource back cleans it; what one holder
  did to a resource is then never seen by the next.
-/
import Mathlib.Logic.Function.Basic

namespace CloudScale.Lib

structure Pool (ι ρ η : Type) where
  res : ι → ρ
  holder : ι → Option η

namespace Pool

variable {ι ρ η : Type} [DecidableEq ι]

/-- Lend the idle resource `i` to `h`. -/
def take (p : Pool ι ρ η) (i : ι) (h : η) : Option (Pool ι ρ η) :=
  if (p.holder i).isNone then some { p with holder := Function.update p.holder i (some h) }
  else none

/-- Change the resource `i`. -/
def use (p : Pool ι ρ η) (i : ι) (f : ρ → ρ) : Pool ι ρ η :=
  { p with res := Function.update p.res i (f (p.res i)) }

/-- Change the resource `i` and take it back. -/
def give (p : Pool ι ρ η) (i : ι) (f : ρ → ρ) : Pool ι ρ η :=
  { p.use i f with holder := Function.update p.holder i none }

@[simp] theorem holder_use (p : Pool ι ρ η) (i : ι) (f : ρ → ρ) :
    (p.use i f).holder = p.holder := rfl

theorem holder_give_of_ne {p : Pool ι ρ η} {i j : ι} (f : ρ → ρ) (h : j ≠ i) :
    (p.give i f).holder j = p.holder j :=
  Function.update_of_ne h _ _

theorem take_eq_some {p p' : Pool ι ρ η} {i : ι} {h : η} (ht : p.take i h = some p') :
    p.holder i = none ∧ p' = { p with holder := Function.update p.holder i (some h) } := by
  unfold take at ht
  split at ht
  · next hidle => exact ⟨Option.isNone_iff_eq_none.mp hidle, (Option.some.inj ht).symm⟩
  · cases ht

structure Kept (clean : ρ → Prop) (own : η → ρ → Prop) (p : Pool ι ρ η) : Prop where
  idle : ∀ i, p.holder i = none → clean (p.res i)
  held : ∀ i h, p.holder i = some h → own h (p.res i)

variable {clean : ρ → Prop} {own : η → ρ → Prop} {p p' : Pool ι ρ η} {i : ι} {h : η} {f : ρ → ρ}

theorem Kept.take (hk : Kept clean own p) (ht : p.take i h = some p')
    (hown : ∀ r, clean r → own h r) : Kept clean own p' := by
  obtain ⟨hidle, rfl⟩ := take_eq_some ht
  refine ⟨fun j hj => ?_, fun j h' hj => ?_⟩
  · by_cases hij : j = i
    · subst hij
      simp at hj
    · exact hk.idle j (by simpa [hij] using hj)
  · by_cases hij : j = i
    · subst hij
      obtain rfl : h = h' := by simpa using hj
      exact hown _ (hk.idle j hidle)
    · exact hk.held j h' (by simpa [hij] using hj)

theorem Kept.use (hk : Kept clean own p) (hi : p.holder i = some h)
    (hf : ∀ r, own h r → own h (f r)) : Kept clean own (p.use i f) := by
  refine ⟨fun j hj => ?_, fun j h' hj => ?_⟩
  · have hne : j ≠ i := fun heq => by
      subst heq
      exact Option.some_ne_none h (hi.symm.trans hj)
    simpa [Pool.use, hne] using hk.idle j hj
  · by_cases hij : j = i
    · subst hij
      obtain rfl : h = h' := Option.some.inj (hi.symm.trans hj)
      simpa [Pool.use] using hf _ (hk.held j h hi)
    · simpa [Pool.use, hij] using hk.held j h' hj

/-- Changing an idle resource so that it stays clean. -/
theorem Kept.refresh (hk : Kept clean own p) (hi : p.holder i = none) (hf : ∀ r, clean (f r)) :
    Kept clean own (p.use i f) := by
  refine ⟨fun j hj => ?_, fun j h' hj => ?_⟩
  · by_cases hij : j = i
    · subst hij
      simpa [Pool.use] using hf _
    · simpa [Pool.use, hij] using hk.idle j hj
  · have hne : j ≠ i := fun heq => by
      subst heq
      exact Option.some_ne_none h' (hj.symm.trans hi)
    simpa [Pool.use, hne] using hk.held j h' hj

theorem Kept.give (hk : Kept clean own p) (hi : p.holder i = some h)
    (hf : ∀ r, own h r → clean (f r)) : Kept clean own (p.give i f) := by
  refine ⟨fun j hj => ?_, fun j h' hj => ?_⟩
  · by_cases hij : j = i
    · subst hij
      simpa [Pool.give, Pool.use] using hf _ (hk.held j h hi)
    · rw [holder_give_of_ne f hij] at hj
      simpa [Pool.give, Pool.use, hij] using hk.idle j hj
  · by_cases hij : j = i
    · subst hij
      simp [Pool.give] at hj
    · rw [holder_give_of_ne f hij] at hj
      simpa [Pool.give, Pool.use, hij] using hk.held j h' hj

end Pool

end CloudScale.Lib
