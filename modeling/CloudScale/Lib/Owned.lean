/-
  Tables whose rows have owners.

  `Agree own b t t'`: the tables have the same rows of owner `b`, and may differ in all others. A
  count or a lookup that looks at rows of `b` only does not tell them apart (`Agree.countP`,
  `Agree.find?`), and inserting one row into both keeps it so (`Agree.extend`).
-/
import Mathlib.Data.List.Perm.Basic
import CloudScale.Lib.Table

namespace CloudScale.Lib

variable {κ ρ τ : Type} {key : ρ → κ}

def Agree (own : ρ → τ) (b : τ) (t t' : Table κ ρ key) : Prop :=
  ∀ r, own r = b → (r ∈ t.rows ↔ r ∈ t'.rows)

/-- The rows of owner `b` alone. -/
def Table.only [DecidableEq τ] (own : ρ → τ) (b : τ) (t : Table κ ρ key) : Table κ ρ key where
  rows := t.rows.filter fun r => decide (own r = b)
  nodup := t.nodup.sublist (List.filter_sublist.map key)

theorem Table.mem_only [DecidableEq τ] {own : ρ → τ} {b : τ} {t : Table κ ρ key} {r : ρ} :
    r ∈ (t.only own b).rows ↔ r ∈ t.rows ∧ own r = b := by
  simp [only]

theorem agree_only [DecidableEq τ] (own : ρ → τ) (b : τ) (t : Table κ ρ key) :
    Agree own b t (t.only own b) := by
  intro r hr
  rw [Table.mem_only]
  exact (and_iff_left hr).symm

namespace Agree

variable {own : ρ → τ} {b : τ} {t t' u u' : Table κ ρ key} {p : ρ → Bool}

theorem filter_perm (h : Agree own b t t') (hp : ∀ r, p r = true → own r = b) :
    (t.rows.filter p).Perm (t'.rows.filter p) := by
  have hnodup : ∀ v : Table κ ρ key, (v.rows.filter p).Nodup := fun v =>
    (List.Nodup.of_map key v.nodup).filter p
  refine (List.perm_ext_iff_of_nodup (hnodup t) (hnodup t')).mpr fun r => ?_
  rw [List.mem_filter, List.mem_filter]
  exact and_congr_left fun hr => h r (hp r hr)

theorem countP (h : Agree own b t t') (hp : ∀ r, p r = true → own r = b) :
    t.rows.countP p = t'.rows.countP p := by
  rw [List.countP_eq_length_filter, List.countP_eq_length_filter]
  exact (h.filter_perm hp).length_eq

/-- A lookup that can find one row only. -/
theorem find? (h : Agree own b t t') (hp : ∀ r, p r = true → own r = b)
    (hunique : ∀ r ∈ t'.rows, ∀ s ∈ t'.rows, p r = true → p s = true → r = s) :
    t.rows.find? p = t'.rows.find? p := by
  cases hfind : t'.rows.find? p with
  | none =>
    refine List.find?_eq_none.mpr fun r hr hpr => ?_
    exact List.find?_eq_none.mp hfind r ((h r (hp r hpr)).mp hr) hpr
  | some s =>
    have hs := List.mem_of_find?_eq_some hfind
    have hps := List.find?_some hfind
    have hsome : (t.rows.find? p).isSome :=
      List.find?_isSome.mpr ⟨s, (h s (hp s hps)).mpr hs, hps⟩
    obtain ⟨r, hr⟩ := Option.isSome_iff_exists.mp hsome
    have hpr := List.find?_some hr
    have hmem := (h r (hp r hpr)).mp (List.mem_of_find?_eq_some hr)
    rw [hr, hunique r hmem s hs hpr hps]

theorem extend [DecidableEq κ] (h : Agree own b t t') {rs : List ρ} (hu : t.extend rs = some u)
    (hu' : t'.extend rs = some u') : Agree own b u u' := by
  intro r hr
  rw [Table.rows_extend hu, Table.rows_extend hu', List.mem_append, List.mem_append, h r hr]

end Agree

end CloudScale.Lib
