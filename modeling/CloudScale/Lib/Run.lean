/-
  Runs of a partial labelled step function `step : σ → α → Option σ` (`none`: the label is not
  enabled). Generic in the state and the label; nothing here is about a particular system.

  `runFrom` executes a list of labels. `Reaches step ok s as t` is the same run as a
  derivation, with the side condition `ok` holding of every label in the state it is taken
  in. `Reaches.invariant` is the induction every safety proof uses: an invariant of the first
  state, preserved by every step that meets `ok`, holds of every state reached.
  `AllSteps step P s as` says that `P` holds along the execution of `as` from `s`, so two
  step conditions that agree on reachable states agree on whole runs (`allSteps_congr`).
  `recording` is the step with the history of what the steps emit.
-/
import Mathlib.Data.List.Basic
import Mathlib.Order.Basic

namespace CloudScale.Lib

universe u v

variable {σ : Type u} {α : Type v} {step : σ → α → Option σ}

/-- Execute the labels `as` from `s`. -/
def runFrom (step : σ → α → Option σ) : σ → List α → Option σ
  | s, [] => some s
  | s, a :: as => (step s a).bind fun t => runFrom step t as

/-- `t` is reached from `s` along `as`, and every label met `ok` in the state it was taken in. -/
inductive Reaches (step : σ → α → Option σ) (ok : σ → α → Prop) (s : σ) : List α → σ → Prop where
  | start : Reaches step ok s [] s
  | next {as : List α} {t u : σ} {a : α} : Reaches step ok s as t → ok t a → step t a = some u →
      Reaches step ok s (as ++ [a]) u

/-- `P` holds of every label of `as` in the state it is taken in, from `s` on. -/
def AllSteps (step : σ → α → Option σ) (P : σ → α → Prop) : σ → List α → Prop
  | _, [] => True
  | s, a :: as => P s a ∧ ∀ t, step s a = some t → AllSteps step P t as

instance decidableAllSteps {P : σ → α → Prop} [∀ s a, Decidable (P s a)] :
    ∀ s as, Decidable (AllSteps step P s as)
  | _, [] => isTrue trivial
  | s, a :: as =>
    match h : step s a with
    | none => decidable_of_iff (P s a) (by simp [AllSteps, h])
    | some t =>
      have := decidableAllSteps (P := P) t as
      decidable_of_iff (P s a ∧ AllSteps step P t as) (by simp [AllSteps, h])

/-- The step with the history of what the steps emit, latest first. -/
def recording {ν : Type} (step : σ → α → Option σ) (emit : σ → α → Option ν) (s : σ × List ν)
    (a : α) : Option (σ × List ν) :=
  (step s.1 a).map fun t => (t, (emit s.1 a).toList ++ s.2)

theorem recording_eq_some {ν : Type} {emit : σ → α → Option ν} {s t : σ × List ν} {a : α}
    (h : recording step emit s a = some t) :
    step s.1 a = some t.1 ∧ t.2 = (emit s.1 a).toList ++ s.2 := by
  obtain ⟨u, hu, rfl⟩ := Option.map_eq_some_iff.mp h
  exact ⟨hu, rfl⟩

/-- The condition on steps that excludes nothing. -/
def anyStep (_ : σ) (_ : α) : Prop := True

theorem runFrom_append (s : σ) (as bs : List α) :
    runFrom step s (as ++ bs) = (runFrom step s as).bind fun t => runFrom step t bs := by
  induction as generalizing s with
  | nil => rfl
  | cons a as ih =>
    simp only [List.cons_append, runFrom]
    cases step s a with
    | none => rfl
    | some t => exact ih t

theorem runFrom_trans {s t u : σ} {as bs : List α} (h : runFrom step s as = some t)
    (h' : runFrom step t bs = some u) : runFrom step s (as ++ bs) = some u := by
  rw [runFrom_append, h]
  exact h'

theorem Reaches.runFrom {ok : σ → α → Prop} {s t : σ} {as : List α}
    (h : Reaches step ok s as t) : runFrom step s as = some t := by
  induction h with
  | start => rfl
  | next _ _ hs ih =>
    rw [runFrom_append, ih]
    simp [Lib.runFrom, hs]

theorem reaches_append {ok : σ → α → Prop} {s t u : σ} {as bs : List α}
    (h : Reaches step ok s as t) (h' : Reaches step ok t bs u) :
    Reaches step ok s (as ++ bs) u := by
  induction h' with
  | start => rwa [List.append_nil]
  | next _ hok hs ih =>
    rw [← List.append_assoc]
    exact .next ih hok hs

/-- A run whose labels were checked against `ok` one by one. -/
theorem reaches_of_allSteps {ok : σ → α → Prop} :
    ∀ (as : List α) (s t : σ), runFrom step s as = some t → AllSteps step ok s as →
      Reaches step ok s as t
  | [], s, t, h, _ => by
    cases h
    exact .start
  | a :: as, s, t, h, hok => by
    obtain ⟨s', hs', h⟩ := Option.bind_eq_some_iff.mp h
    have hfirst : Reaches step ok s [a] s' := .next .start hok.1 hs'
    exact reaches_append hfirst (reaches_of_allSteps as s' t h (hok.2 s' hs'))

theorem allSteps_of_forall {P : σ → α → Prop} {as : List α} (h : ∀ s, ∀ a ∈ as, P s a) (s : σ) :
    AllSteps step P s as := by
  induction as generalizing s with
  | nil => trivial
  | cons a as ih =>
    have hrest : ∀ s, ∀ b ∈ as, P s b := fun s b hb => h s b (List.mem_cons_of_mem a hb)
    exact ⟨h s a List.mem_cons_self, fun t _ => ih hrest t⟩

theorem allSteps_and {P P' : σ → α → Prop} {as : List α} {s : σ} (h : AllSteps step P s as)
    (h' : AllSteps step P' s as) : AllSteps step (fun s a => P s a ∧ P' s a) s as := by
  induction as generalizing s with
  | nil => trivial
  | cons a as ih => exact ⟨⟨h.1, h'.1⟩, fun t ht => ih (h.2 t ht) (h'.2 t ht)⟩

/-- An executed label list is a run; how a concrete run is exhibited. -/
theorem reaches_run {s t : σ} {as : List α} (h : runFrom step s as = some t) :
    Reaches step anyStep s as t :=
  reaches_of_allSteps as s t h (allSteps_of_forall (fun _ _ _ => trivial) s)

/-- A run whose labels meet `ok` and whose end satisfies `P`, both checked by execution. -/
theorem reaches_where {ok : σ → α → Prop} {P : σ → Prop} {s : σ} {as : List α}
    (hok : AllSteps step ok s as) (h : ∃ t ∈ Lib.runFrom step s as, P t) :
    ∃ t, Reaches step ok s as t ∧ P t := by
  obtain ⟨t, ht, hp⟩ := h
  exact ⟨t, reaches_of_allSteps as s t ht hok, hp⟩

/-- Safety by induction on the run. -/
theorem Reaches.invariant {ok : σ → α → Prop} (Inv : σ → Prop) {s t : σ} {as : List α}
    (h : Reaches step ok s as t) (h0 : Inv s)
    (hstep : ∀ s a s', Inv s → ok s a → step s a = some s' → Inv s') : Inv t := by
  induction h with
  | start => exact h0
  | next _ hok hs ih => exact hstep _ _ _ ih hok hs

/-- A weaker condition on the steps. -/
theorem Reaches.imp {ok ok' : σ → α → Prop} {s t : σ} {as : List α} (h : Reaches step ok s as t)
    (himp : ∀ u, ∀ a ∈ as, ok u a → ok' u a) : Reaches step ok' s as t := by
  induction h with
  | start => exact .start
  | next _ hok hs ih =>
    refine .next (ih fun u a ha => himp u a (List.mem_append_left _ ha)) ?_ hs
    exact himp _ _ (List.mem_append_right _ List.mem_cons_self) hok

/-- The labels of a run are those of its list. -/
theorem Reaches.labels {ok : σ → α → Prop} {s t : σ} {as : List α} (h : Reaches step ok s as t) :
    Reaches step (fun u a => ok u a ∧ a ∈ as) s as t :=
  h.imp fun _ _ ha hok => ⟨hok, ha⟩

theorem Reaches.ok_of_mem {ok : σ → α → Prop} {s t : σ} {as : List α} (h : Reaches step ok s as t)
    {a : α} (ha : a ∈ as) : ∃ u, ok u a := by
  induction h with
  | start => exact absurd ha List.not_mem_nil
  | next _ hok _ ih =>
    rcases List.mem_append.mp ha with ha | ha
    · exact ih ha
    · exact ⟨_, List.mem_singleton.mp ha ▸ hok⟩

/-- An invariant holds wherever a step is taken. -/
theorem Reaches.within {ok : σ → α → Prop} (Inv : σ → Prop) {s t : σ} {as : List α}
    (h : Reaches step ok s as t) (h0 : Inv s)
    (hstep : ∀ s a s', Inv s → ok s a → step s a = some s' → Inv s') :
    Reaches step (fun u a => ok u a ∧ Inv u) s as t := by
  induction h with
  | start => exact .start
  | next h hok hs ih => exact .next ih ⟨hok, h.invariant Inv h0 hstep⟩ hs

/-- A property that holds after a step exactly if it held before and the step met `P` holds at the
    end of a run exactly if it held at its start and every step met `P`. -/
theorem runFrom_iff_allSteps {Inv Good : σ → Prop} {P : σ → α → Prop}
    (hinv : ∀ s a s', Inv s → step s a = some s' → Inv s')
    (hstep : ∀ s a s', Inv s → step s a = some s' → (Good s' ↔ Good s ∧ P s a)) :
    ∀ (as : List α) (s t : σ), Inv s → runFrom step s as = some t →
      (Good t ↔ Good s ∧ AllSteps step P s as)
  | [], s, t, _, h => by
    cases h
    simp [AllSteps]
  | a :: as, s, t, hs, h => by
    obtain ⟨s', hs', h⟩ := Option.bind_eq_some_iff.mp h
    have ih := runFrom_iff_allSteps hinv hstep as s' t (hinv s a s' hs hs') h
    rw [ih, hstep s a s' hs hs']
    simp [AllSteps, hs', and_assoc]

/-- A measure that no step decreases is at the end of a run what it was at its start exactly if
    every step left it so. -/
theorem runFrom_measure_iff {M : Type v} [PartialOrder M] {Inv : σ → Prop} {μ : σ → M}
    {P : σ → α → Prop} (hinv : ∀ s a s', Inv s → step s a = some s' → Inv s')
    (hle : ∀ s a s', Inv s → step s a = some s' → μ s ≤ μ s')
    (hP : ∀ s a s', Inv s → step s a = some s' → (μ s' = μ s ↔ P s a))
    {as : List α} {s t : σ} (hs : Inv s) (h : runFrom step s as = some t) :
    μ t = μ s ↔ AllSteps step P s as := by
  have hkeep : ∀ u a u', Inv u ∧ μ s ≤ μ u → step u a = some u' → Inv u' ∧ μ s ≤ μ u' :=
    fun u a u' hu hstep => ⟨hinv u a u' hu.1 hstep, hu.2.trans (hle u a u' hu.1 hstep)⟩
  have hsame : ∀ u a u', Inv u ∧ μ s ≤ μ u → step u a = some u' →
      (μ u' = μ s ↔ μ u = μ s ∧ P u a) := by
    intro u a u' hu hstep
    have hmono := hle u a u' hu.1 hstep
    rw [← hP u a u' hu.1 hstep]
    constructor
    · intro hend
      have hbefore : μ u = μ s := le_antisymm (hmono.trans hend.le) hu.2
      exact ⟨hbefore, hend.trans hbefore.symm⟩
    · rintro ⟨hbefore, hidle⟩
      exact hidle.trans hbefore
  exact (runFrom_iff_allSteps hkeep hsame as s t ⟨hs, le_rfl⟩ h).trans (and_iff_right rfl)

/-- Two step conditions agree along every run if they agree wherever the invariant holds, and the
    steps that meet the first keep it. -/
theorem allSteps_congr {Inv : σ → Prop} {P P' : σ → α → Prop}
    (hstep : ∀ s a s', Inv s → P s a → step s a = some s' → Inv s')
    (hP : ∀ s a, Inv s → (P s a ↔ P' s a)) :
    ∀ (as : List α) (s : σ), Inv s → (AllSteps step P s as ↔ AllSteps step P' s as)
  | [], _, _ => Iff.rfl
  | a :: as, s, hs => by
    unfold AllSteps
    rw [← hP s a hs]
    refine and_congr_right fun hmet => forall_congr' fun t => forall_congr' fun ht => ?_
    exact allSteps_congr hstep hP as t (hstep s a t hs hmet ht)

/-- A condition that does not look at the history. -/
theorem allSteps_recording {ν : Type} {emit : σ → α → Option ν} {P : σ → α → Prop} :
    ∀ (as : List α) (s : σ × List ν),
      AllSteps (recording step emit) (fun s a => P s.1 a) s as ↔ AllSteps step P s.1 as
  | [], _ => Iff.rfl
  | a :: as, s => by
    refine and_congr_right fun _ => ⟨fun h t ht => ?_, fun h t ht => ?_⟩
    · have hrecord : recording step emit s a = some (t, (emit s.1 a).toList ++ s.2) := by
        unfold recording
        rw [ht]
        rfl
      exact (allSteps_recording as _).mp (h _ hrecord)
    · exact (allSteps_recording as t).mpr (h t.1 (recording_eq_some ht).1)

end CloudScale.Lib
