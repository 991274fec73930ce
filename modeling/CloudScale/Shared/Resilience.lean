/-
  Functions under `circuit_breaker` and `retry_with_backoff` (`cloudscale_shared/resilience.py`).

  The breaker is outside, the retry inside: a guarded call makes up to `maxAttempts` attempts, and
  the breaker hears of the last one only. Every exception counts as a failure, whatever it says.
  `trafficStep` is a breaker whose calls run `body`; what an attempt meets (`Ω`) is different for
  each.

  `noRejection_iff`: no call is rejected exactly in the runs that are `Spaced`, i.e. where no call
  starts between the failure that reaches the threshold and the end of the recovery timeout.
-/
import CloudScale.Shared.CircuitBreaker

namespace CloudScale.Shared

open CloudScale.Lib

variable {T C Ω ε R : Type}

/-! ## Retries -/

/-- The attempts from the `k`-th on, when `left` more may follow it. -/
def retryFrom (func : Ω → Except ε R) (env : ℕ → Ω) : ℕ → ℕ → Except ε R
  | 0, k => func (env k)
  | left + 1, k => match func (env k) with
    | .ok r => .ok r
    | .error _ => retryFrom func env left (k + 1)

/-- `retry_with_backoff`: the first attempt that returns, or else the last exception. -/
def retryWithBackoff (maxAttempts : ℕ) (func : Ω → Except ε R) (env : ℕ → Ω) : Except ε R :=
  retryFrom func env (maxAttempts - 1) 0

theorem retryFrom_error_iff {func : Ω → Except ε R} {env : ℕ → Ω} {left k : ℕ} :
    (∃ e, retryFrom func env left k = .error e) ↔
      ∀ j, k ≤ j → j ≤ k + left → ∃ e, func (env j) = .error e := by
  induction left generalizing k with
  | zero =>
    refine ⟨fun h j hk hj => ?_, fun h => h k (Nat.le_refl k) (Nat.le_refl k)⟩
    obtain rfl : j = k := by omega
    exact h
  | succ left ih =>
    cases hk : func (env k) with
    | ok r =>
      refine iff_of_false (fun ⟨e, h⟩ => ?_) fun h => ?_
      · simp [retryFrom, hk] at h
      · obtain ⟨e, he⟩ := h k (Nat.le_refl k) (by omega)
        cases hk.symm.trans he
    | error e =>
      have hrest : retryFrom func env (left + 1) k = retryFrom func env left (k + 1) := by
        simp [retryFrom, hk]
      rw [hrest, ih]
      refine ⟨fun h j hkj hj => ?_, fun h j hkj hj => h j (by omega) (by omega)⟩
      rcases Nat.eq_or_lt_of_le hkj with rfl | hlt
      · exact ⟨e, hk⟩
      · exact h j hlt (by omega)

/-- A retried function fails when every attempt does. -/
theorem retryWithBackoff_error_iff {maxAttempts : ℕ} {func : Ω → Except ε R} {env : ℕ → Ω}
    (h : 1 ≤ maxAttempts) : (∃ e, retryWithBackoff maxAttempts func env = .error e) ↔
      ∀ j, j < maxAttempts → ∃ e, func (env j) = .error e := by
  unfold retryWithBackoff
  rw [retryFrom_error_iff]
  exact ⟨fun h' j hj => h' j (Nat.zero_le j) (by omega), fun h' j _ hj => h' j (by omega)⟩

/-! ## Guarded calls of a function -/

inductive TrafficLabel (T C Ω : Type) where
  | start (call : C) (now stamp : T)
  | finish (i : ℕ) (env : ℕ → Ω) (now : T)
  | cancel (i : ℕ) (now : T)

/-- How the awaited call ends for the wrapper. -/
def callEnd : Except ε R → CallEnd
  | .ok _ => .returned
  | .error _ => .raised

variable [LinearOrder T] [Sub T]

/-- A breaker around `body` with its retries. -/
def trafficStep (maxAttempts : ℕ) (body : C → Ω → Except ε R) (g : Guarded T C) :
    TrafficLabel T C Ω → Option (Guarded T C)
  | .start call now stamp => some (g.start call now stamp)
  | .finish i env now => (g.running[i]?).map fun r =>
      g.complete i r (callEnd (retryWithBackoff maxAttempts (body r.call) env)) now
  | .cancel i now => (g.running[i]?).map fun r => g.complete i r .cancelled now

/-- When the failure completed that was the `threshold`-th since the last success. -/
def tripTime (threshold : ℕ) : List (BreakerEvent T C) → Option T
  | [] => none
  | .succeeded _ _ :: _ => none
  | .failed _ _ time :: past =>
    if failuresSinceSuccess past + 1 = threshold then some time else tripTime threshold past
  | _ :: past => tripTime threshold past

def NoRejection (history : List (BreakerEvent T C)) : Prop :=
  ∀ call message time, .rejected call message time ∉ history

/-- A call starts only while the threshold is not reached, or when the recovery timeout since has
    run out for it or for an earlier call. -/
def Spaced (threshold : ℕ) (g : Guarded T C) : TrafficLabel T C Ω → Prop
  | .start _ now _ => ∀ trip, tripTime threshold g.history = some trip →
      ∃ u ∈ now :: startsSinceOpening g.history, g.breaker.recoveryTimeoutSeconds ≤ u - trip
  | _ => True

/-! ## Rejections -/

variable {g g' : Guarded T C} {threshold : ℕ} {name : String} {timeout t₀ : T}

/-- A breaker opens at the failure that reaches the threshold. -/
theorem tripTime_step {l : BreakerLabel T C} (ht : Tracks name threshold timeout g)
    (htrip : tripTime threshold g.history = unhealedOpening g.history) (h : Moves g l g') :
    tripTime threshold g'.history = unhealedOpening g'.history := by
  cases h with
  | rejected _ _ => exact htrip
  | trial _ _ => exact htrip
  | admitted _ => exact htrip
  | returned _ => rfl
  | closes _ => rfl
  | raised hstate =>
    have hne : failuresSinceSuccess g.history + 1 ≠ threshold := by
      have hclosed := ht.closed
      have hcount := ht.count
      by_cases hc : g.breaker.state = .closed
      · have hroom := hstate hc
        rw [ht.config.2.1] at hroom
        omega
      · have hfull : threshold ≤ failuresSinceSuccess g.history :=
          Nat.not_lt.mp fun h => hc (hclosed.mpr h)
        omega
    exact (if_neg hne).trans htrip
  | opens hstate hcount =>
    have hreached : failuresSinceSuccess g.history + 1 = threshold := by
      have hlt := ht.closed.mp hstate
      rw [ht.config.2.1, ht.count] at hcount
      omega
    exact if_pos hreached
  | cancelled => exact htrip

omit [LinearOrder T] [Sub T] in
theorem noRejection_cons {e : BreakerEvent T C} {h : List (BreakerEvent T C)}
    (he : ∀ call message time, e ≠ .rejected call message time) :
    NoRejection (e :: h) ↔ NoRejection h := by
  refine forall_congr' fun call => forall_congr' fun message => forall_congr' fun time => ?_
  rw [List.mem_cons, not_or]
  exact and_iff_right (Ne.symm (he call message time))

omit [LinearOrder T] [Sub T] in
/-- A run that ends with a rejection. -/
theorem rejection_of_head {run : Option (Guarded T C)} {call : C} {message : String} {time : T}
    (h : run.bind (fun g => g.history.head?) = some (.rejected call message time)) :
    ∃ g, run = some g ∧ ¬ NoRejection g.history := by
  obtain ⟨g, hg, hhead⟩ := Option.bind_eq_some_iff.mp h
  exact ⟨g, hg, fun hnone => hnone _ _ _ (List.mem_of_head? hhead)⟩

/-- One step rejects nobody exactly when no call is rejected at it. -/
theorem noRejection_step {l : BreakerLabel T C} (h : Moves g l g') :
    NoRejection g'.history ↔ NoRejection g.history ∧
      ∀ call now stamp, l = .start call now stamp → ¬ (g.breaker.state = .opened ∧
        now - g.breaker.lastStateChange < g.breaker.recoveryTimeoutSeconds) := by
  cases h with
  | rejected hstate htime =>
    refine iff_of_false (fun h => ?_) fun h => ?_
    · exact h _ _ _ List.mem_cons_self
    · exact h.2 _ _ _ rfl ⟨hstate, htime⟩
  | trial hstate htime =>
    rw [noRejection_cons (by simp), noRejection_cons (by simp)]
    refine (and_iff_left ?_).symm
    rintro _ _ _ ⟨⟩ ⟨-, hlt⟩
    exact absurd hlt (not_lt.mpr htime)
  | admitted hstate =>
    rw [noRejection_cons (by simp)]
    refine (and_iff_left ?_).symm
    rintro _ _ _ ⟨⟩ ⟨hopen, -⟩
    exact hstate hopen
  | returned _ =>
    rw [noRejection_cons (by simp)]
    exact (and_iff_left (by rintro _ _ _ ⟨⟩)).symm
  | closes _ =>
    rw [noRejection_cons (by simp), noRejection_cons (by simp)]
    exact (and_iff_left (by rintro _ _ _ ⟨⟩)).symm
  | raised _ =>
    rw [noRejection_cons (by simp)]
    exact (and_iff_left (by rintro _ _ _ ⟨⟩)).symm
  | opens _ _ =>
    rw [noRejection_cons (by simp), noRejection_cons (by simp)]
    exact (and_iff_left (by rintro _ _ _ ⟨⟩)).symm
  | cancelled =>
    rw [noRejection_cons (by simp)]
    exact (and_iff_left (by rintro _ _ _ ⟨⟩)).symm

/-- A breaker stands in the way of a call exactly while its last trip does. -/
theorem blocked_iff (hu : Unhealed g)
    (htrip : tripTime threshold g.history = unhealedOpening g.history) (now : T) :
    (g.breaker.state = .opened ∧
      now - g.breaker.lastStateChange < g.breaker.recoveryTimeoutSeconds) ↔
      ¬ ∀ trip, tripTime threshold g.history = some trip →
        ∃ u ∈ now :: startsSinceOpening g.history, g.breaker.recoveryTimeoutSeconds ≤ u - trip := by
  rw [htrip]
  constructor
  · rintro ⟨hstate, htime⟩ hspaced
    obtain ⟨u, hmem, hlate⟩ := hspaced _ (hu.opened hstate)
    rcases hu.state _ (hu.opened hstate) with ⟨-, -, hall⟩ | ⟨hhalf, -⟩
    · rcases List.mem_cons.mp hmem with rfl | hmem
      · exact absurd htime (not_lt.mpr hlate)
      · exact absurd (hall u hmem) (not_lt.mpr hlate)
    · exact absurd (hstate.symm.trans hhalf) (by decide)
  · intro hnot
    push Not at hnot
    obtain ⟨trip, hsome, hall⟩ := hnot
    rcases hu.state trip hsome with ⟨hstate, hlast, -⟩ | ⟨-, u, hmem, hlate⟩
    · exact ⟨hstate, hlast ▸ hall now List.mem_cons_self⟩
    · exact absurd (hall u (List.mem_cons_of_mem _ hmem)) (not_lt.mpr hlate)

variable {maxAttempts : ℕ} {body : C → Ω → Except ε R}

/-- A step of guarded calls is a step of their breaker. -/
theorem traffic_moves {l : TrafficLabel T C Ω} (h : trafficStep maxAttempts body g l = some g') :
    ∃ bl, Moves g bl g' ∧ ∀ call now stamp,
      bl = .start call now stamp ↔ l = .start call now stamp := by
  cases l with
  | start call now stamp =>
    cases h
    exact ⟨_, start_moves g call now stamp, fun _ _ _ => by simp⟩
  | finish i env now =>
    obtain ⟨r, -, rfl⟩ := Option.map_eq_some_iff.mp h
    exact ⟨_, complete_moves g i r _ now, fun _ _ _ => by simp⟩
  | cancel i now =>
    obtain ⟨r, -, rfl⟩ := Option.map_eq_some_iff.mp h
    exact ⟨_, complete_moves g i r _ now, fun _ _ _ => by simp⟩

/-- No call is rejected in exactly the runs whose calls are spaced. -/
theorem noRejection_iff {ls : List (TrafficLabel T C Ω)} (hthreshold : 1 ≤ threshold)
    (h : runFrom (trafficStep maxAttempts body) (.new name threshold timeout t₀) ls = some g) :
    NoRejection g.history ↔ AllSteps (trafficStep maxAttempts body) (Spaced threshold)
      (.new name threshold timeout t₀) ls := by
  have hinv : ∀ g l g', (Tracks name threshold timeout g ∧ Unhealed g ∧
      tripTime threshold g.history = unhealedOpening g.history) →
      trafficStep maxAttempts body g l = some g' → Tracks name threshold timeout g' ∧
        Unhealed g' ∧ tripTime threshold g'.history = unhealedOpening g'.history := by
    rintro g l g' ⟨ht, hu, htrip⟩ hs
    obtain ⟨bl, hmoves, -⟩ := traffic_moves hs
    exact ⟨tracks_step hthreshold ht hmoves, unhealed_step hu hmoves, tripTime_step ht htrip hmoves⟩
  have hstep : ∀ g l g', (Tracks name threshold timeout g ∧ Unhealed g ∧
      tripTime threshold g.history = unhealedOpening g.history) →
      trafficStep maxAttempts body g l = some g' →
      (NoRejection g'.history ↔ NoRejection g.history ∧ Spaced threshold g l) := by
    rintro g l g' ⟨ht, hu, htrip⟩ hs
    obtain ⟨bl, hmoves, hlabel⟩ := traffic_moves hs
    rw [noRejection_step hmoves]
    refine and_congr_right fun _ => ?_
    simp only [hlabel]
    cases l with
    | start call now stamp =>
      refine ⟨fun hclear => ?_, ?_⟩
      · exact not_not.mp fun hnot => hclear _ _ _ rfl ((blocked_iff hu htrip now).mpr hnot)
      · rintro hspaced _ _ _ ⟨⟩ hblocked
        exact (blocked_iff hu htrip now).mp hblocked hspaced
    | finish i env now => exact iff_of_true (fun _ _ _ h => by cases h) trivial
    | cancel i now => exact iff_of_true (fun _ _ _ h => by cases h) trivial
  have hrun := runFrom_iff_allSteps hinv hstep ls _ g ⟨tracks_new hthreshold, unhealed_new, rfl⟩ h
  have hnone : NoRejection ([] : List (BreakerEvent T C)) := fun _ _ _ => List.not_mem_nil
  exact hrun.trans (and_iff_right hnone)

end CloudScale.Shared
