/-
  The circuit breaker (`CircuitBreaker`, `circuit_breaker` in `cloudscale_shared/resilience.py`).

  A guarded call is two steps: it starts (`check_state`, then it is rejected or admitted), and an
  admitted call completes at some later time, whatever the breaker has become by then. The
  comparisons of times are the source's own; nothing is assumed of the clock. `history` collects
  what happened, latest first; no function reads it.

  `admission_exact`: the state is CLOSED while fewer than the threshold of failures have completed
  since the last success, and a call is rejected exactly when the threshold was reached, the breaker
  has not been half-open since it opened, and its recovery timeout runs. `reopens_iff`:
  `record_failure` has no branch for HALF_OPEN, so a failed trial stops later calls only where the
  breaker has opened again in the meantime (`Waits`); `failed_trial_admits` is the run in which it
  does not.
-/
import Mathlib.Algebra.Order.Ring.Int
import CloudScale.Lib.Run

namespace CloudScale.Shared

open CloudScale.Lib

/-! ## The breaker -/

inductive CircuitState where
  | closed
  | opened
  | halfOpen
deriving DecidableEq

structure CircuitBreaker (T : Type) where
  name : String
  failureThreshold : ℕ := 5
  recoveryTimeoutSeconds : T
  state : CircuitState := .closed
  failureCount : ℕ := 0
  lastStateChange : T

variable {T C : Type}

def CircuitBreaker.new (name : String) (failureThreshold : ℕ) (recoveryTimeoutSeconds now : T) :
    CircuitBreaker T :=
  { name, failureThreshold, recoveryTimeoutSeconds, lastStateChange := now }

namespace CircuitBreaker

def transitionTo (b : CircuitBreaker T) (newState : CircuitState) (now : T) : CircuitBreaker T :=
  { b with state := newState, lastStateChange := now }

def recordSuccess (b : CircuitBreaker T) (now : T) : CircuitBreaker T :=
  let b := { b with failureCount := 0 }
  if b.state ≠ .closed then b.transitionTo .closed now else b

def recordFailure (b : CircuitBreaker T) (now : T) : CircuitBreaker T :=
  let b := { b with failureCount := b.failureCount + 1 }
  if b.state = .closed ∧ b.failureThreshold ≤ b.failureCount then b.transitionTo .opened now else b

/-- `check_state`; `now` is the time it compares, `stamp` the time `transition_to` reads. -/
def checkState [LinearOrder T] [Sub T] (b : CircuitBreaker T) (now stamp : T) : CircuitBreaker T :=
  if b.state = .opened ∧ b.recoveryTimeoutSeconds ≤ now - b.lastStateChange then
    b.transitionTo .halfOpen stamp
  else b

/-- The message of `CircuitBreakerOpenException`. -/
def openMessage (b : CircuitBreaker T) : String :=
  "Circuit breaker " ++ b.name ++ " is open. Request rejected."

end CircuitBreaker

/-! ## Guarded calls -/

/-- How an awaited call ends. A cancellation is no `Exception`, and the wrapper lets it pass. -/
inductive CallEnd where
  | returned
  | raised
  | cancelled
deriving DecidableEq

/-- What happened at a breaker. `call` is the guarded function with its arguments. -/
inductive BreakerEvent (T C : Type) where
  | transitioned (state : CircuitState) (time : T)
  | admitted (call : C) (state : CircuitState) (time : T)
  | rejected (call : C) (message : String) (time : T)
  | succeeded (call : C) (time : T)
  | failed (call : C) (admittedIn : CircuitState) (time : T)
  | cancelled (call : C) (time : T)
deriving DecidableEq

/-- A call that awaits the guarded function. -/
structure RunningCall (C : Type) where
  call : C
  admittedIn : CircuitState
deriving DecidableEq

/-- A breaker with the calls it let through. -/
structure Guarded (T C : Type) where
  breaker : CircuitBreaker T
  running : List (RunningCall C) := []
  history : List (BreakerEvent T C) := []

inductive BreakerLabel (T C : Type) where
  | start (call : C) (now stamp : T)
  | complete (i : ℕ) (how : CallEnd) (now : T)

def Guarded.new (name : String) (failureThreshold : ℕ) (recoveryTimeoutSeconds now : T) :
    Guarded T C :=
  { breaker := .new name failureThreshold recoveryTimeoutSeconds now }

/-- The transition that a method of the breaker has made, if it has made one. -/
def transitions (b b' : CircuitBreaker T) : List (BreakerEvent T C) :=
  if b'.state = b.state then [] else [.transitioned b'.state b'.lastStateChange]

namespace Guarded

/-- The wrapper up to the guarded call. -/
def start [LinearOrder T] [Sub T] (g : Guarded T C) (call : C) (now stamp : T) : Guarded T C :=
  let b := g.breaker.checkState now stamp
  let history := transitions g.breaker b ++ g.history
  if b.state = .opened then
    { g with breaker := b, history := .rejected call b.openMessage now :: history }
  else
    { breaker := b, running := g.running ++ [⟨call, b.state⟩]
      history := .admitted call b.state now :: history }

/-- The wrapper from the end of the guarded call on. -/
def complete (g : Guarded T C) (i : ℕ) (r : RunningCall C) (how : CallEnd) (now : T) :
    Guarded T C :=
  match how with
  | .returned =>
    let b := g.breaker.recordSuccess now
    { breaker := b, running := g.running.eraseIdx i
      history := transitions g.breaker b ++ .succeeded r.call now :: g.history }
  | .raised =>
    let b := g.breaker.recordFailure now
    { breaker := b, running := g.running.eraseIdx i
      history := transitions g.breaker b ++ .failed r.call r.admittedIn now :: g.history }
  | .cancelled =>
    { g with running := g.running.eraseIdx i, history := .cancelled r.call now :: g.history }

def step [LinearOrder T] [Sub T] (g : Guarded T C) : BreakerLabel T C → Option (Guarded T C)
  | .start call now stamp => some (g.start call now stamp)
  | .complete i how now => (g.running[i]?).map fun r => g.complete i r how now

end Guarded

/-! ## What a history says -/

/-- The failures completed since the last completed success. -/
def failuresSinceSuccess : List (BreakerEvent T C) → ℕ
  | [] => 0
  | .succeeded _ _ :: _ => 0
  | .failed _ _ _ :: past => failuresSinceSuccess past + 1
  | _ :: past => failuresSinceSuccess past

/-- When the breaker last opened. -/
def lastOpening : List (BreakerEvent T C) → Option T
  | [] => none
  | .transitioned .opened time :: _ => some time
  | _ :: past => lastOpening past

/-- A `check_state` has moved the breaker to HALF_OPEN since it last opened. -/
def halfOpenedSince : List (BreakerEvent T C) → Bool
  | [] => false
  | .transitioned .opened _ :: _ => false
  | .transitioned .halfOpen _ :: _ => true
  | _ :: past => halfOpenedSince past

/-- When the breaker last opened, unless a call has succeeded since. -/
def unhealedOpening : List (BreakerEvent T C) → Option T
  | [] => none
  | .succeeded _ _ :: _ => none
  | .transitioned .opened time :: _ => some time
  | _ :: past => unhealedOpening past

/-- When calls were started since the breaker last opened. -/
def startsSinceOpening : List (BreakerEvent T C) → List T
  | [] => []
  | .transitioned .opened _ :: _ => []
  | .admitted _ _ time :: past => time :: startsSinceOpening past
  | .rejected _ _ time :: past => time :: startsSinceOpening past
  | _ :: past => startsSinceOpening past

/-- When calls admitted in HALF_OPEN have failed with no success between the last opening and the
    failure, and none since. -/
def trialFailures : List (BreakerEvent T C) → List T
  | [] => []
  | .succeeded _ _ :: _ => []
  | .failed _ .halfOpen time :: past =>
    if (unhealedOpening past).isSome then time :: trialFailures past else trialFailures past
  | _ :: past => trialFailures past

/-! ## Steps -/

variable [LinearOrder T] [Sub T] {g g' : Guarded T C} {l : BreakerLabel T C}

/-- Everything a step can do. -/
inductive Moves (g : Guarded T C) : BreakerLabel T C → Guarded T C → Prop where
  | rejected {call : C} {now stamp : T} (hstate : g.breaker.state = .opened)
      (htime : now - g.breaker.lastStateChange < g.breaker.recoveryTimeoutSeconds) :
      Moves g (.start call now stamp)
        { g with history := .rejected call g.breaker.openMessage now :: g.history }
  | trial {call : C} {now stamp : T} (hstate : g.breaker.state = .opened)
      (htime : g.breaker.recoveryTimeoutSeconds ≤ now - g.breaker.lastStateChange) :
      Moves g (.start call now stamp)
        { breaker := g.breaker.transitionTo .halfOpen stamp
          running := g.running ++ [⟨call, .halfOpen⟩]
          history := .admitted call .halfOpen now :: .transitioned .halfOpen stamp :: g.history }
  | admitted {call : C} {now stamp : T} (hstate : g.breaker.state ≠ .opened) :
      Moves g (.start call now stamp)
        { g with
          running := g.running ++ [⟨call, g.breaker.state⟩]
          history := .admitted call g.breaker.state now :: g.history }
  | returned {i : ℕ} {r : RunningCall C} {now : T} (hstate : g.breaker.state = .closed) :
      Moves g (.complete i .returned now)
        { breaker := { g.breaker with failureCount := 0 }
          running := g.running.eraseIdx i
          history := .succeeded r.call now :: g.history }
  | closes {i : ℕ} {r : RunningCall C} {now : T} (hstate : g.breaker.state ≠ .closed) :
      Moves g (.complete i .returned now)
        { breaker := CircuitBreaker.transitionTo { g.breaker with failureCount := 0 } .closed now
          running := g.running.eraseIdx i
          history := .transitioned .closed now :: .succeeded r.call now :: g.history }
  | raised {i : ℕ} {r : RunningCall C} {now : T}
      (hstate : g.breaker.state = .closed →
        g.breaker.failureCount + 1 < g.breaker.failureThreshold) :
      Moves g (.complete i .raised now)
        { breaker := { g.breaker with failureCount := g.breaker.failureCount + 1 }
          running := g.running.eraseIdx i
          history := .failed r.call r.admittedIn now :: g.history }
  | opens {i : ℕ} {r : RunningCall C} {now : T} (hstate : g.breaker.state = .closed)
      (hcount : g.breaker.failureThreshold ≤ g.breaker.failureCount + 1) :
      Moves g (.complete i .raised now)
        { breaker := CircuitBreaker.transitionTo
            { g.breaker with failureCount := g.breaker.failureCount + 1 } .opened now
          running := g.running.eraseIdx i
          history := .transitioned .opened now :: .failed r.call r.admittedIn now :: g.history }
  | cancelled {i : ℕ} {r : RunningCall C} {now : T} :
      Moves g (.complete i .cancelled now)
        { g with
          running := g.running.eraseIdx i
          history := .cancelled r.call now :: g.history }

theorem start_moves (g : Guarded T C) (call : C) (now stamp : T) :
    Moves g (.start call now stamp) (g.start call now stamp) := by
  by_cases hstate : g.breaker.state = .opened
  · by_cases htime : g.breaker.recoveryTimeoutSeconds ≤ now - g.breaker.lastStateChange
    · have h : Moves g (.start call now stamp) _ := .trial hstate htime
      simpa [Guarded.start, CircuitBreaker.checkState, hstate, htime, transitions,
        CircuitBreaker.transitionTo] using h
    · have h : Moves g (.start call now stamp) _ := .rejected hstate (not_le.mp htime)
      simpa [Guarded.start, CircuitBreaker.checkState, hstate, htime, transitions] using h
  · have h : Moves g (.start call now stamp) _ := .admitted hstate
    simpa [Guarded.start, CircuitBreaker.checkState, hstate, transitions] using h

theorem complete_moves (g : Guarded T C) (i : ℕ) (r : RunningCall C) (how : CallEnd) (now : T) :
    Moves g (.complete i how now) (g.complete i r how now) := by
  cases how with
  | returned =>
    by_cases hstate : g.breaker.state = .closed
    · have h : Moves g (.complete i .returned now) _ := .returned (r := r) hstate
      simpa [Guarded.complete, CircuitBreaker.recordSuccess, hstate, transitions] using h
    · have h : Moves g (.complete i .returned now) _ := .closes (r := r) hstate
      simpa [Guarded.complete, CircuitBreaker.recordSuccess, hstate, Ne.symm hstate, transitions,
        CircuitBreaker.transitionTo] using h
  | raised =>
    by_cases hopens : g.breaker.state = .closed ∧
        g.breaker.failureThreshold ≤ g.breaker.failureCount + 1
    · have h : Moves g (.complete i .raised now) _ := .opens (r := r) hopens.1 hopens.2
      simpa [Guarded.complete, CircuitBreaker.recordFailure, hopens.1, hopens.2, transitions,
        CircuitBreaker.transitionTo] using h
    · have hroom : g.breaker.state = .closed →
          g.breaker.failureCount + 1 < g.breaker.failureThreshold := fun hstate =>
        Nat.lt_of_not_le fun hcount => hopens ⟨hstate, hcount⟩
      have h : Moves g (.complete i .raised now) _ := .raised (r := r) hroom
      simpa [Guarded.complete, CircuitBreaker.recordFailure, hopens, transitions] using h
  | cancelled => exact .cancelled

theorem step_moves (h : g.step l = some g') : Moves g l g' := by
  cases l with
  | start call now stamp =>
    cases h
    exact start_moves g call now stamp
  | complete i how now =>
    obtain ⟨r, -, rfl⟩ := Option.map_eq_some_iff.mp h
    exact complete_moves g i r how now

/-! ## Admission -/

/-- The breaker's fields say what has happened. -/
structure Tracks (name : String) (threshold : ℕ) (timeout : T) (g : Guarded T C) : Prop where
  config : g.breaker.name = name ∧ g.breaker.failureThreshold = threshold ∧
    g.breaker.recoveryTimeoutSeconds = timeout
  count : g.breaker.failureCount = failuresSinceSuccess g.history
  closed : g.breaker.state = .closed ↔ failuresSinceSuccess g.history < threshold
  opened : g.breaker.state = .opened →
    lastOpening g.history = some g.breaker.lastStateChange ∧ halfOpenedSince g.history = false
  halfOpen : g.breaker.state = .halfOpen → halfOpenedSince g.history = true

variable {name : String} {threshold : ℕ} {timeout t₀ : T}

omit [LinearOrder T] [Sub T] in
theorem tracks_new (hthreshold : 1 ≤ threshold) :
    Tracks name threshold timeout (Guarded.new name threshold timeout t₀ : Guarded T C) where
  config := ⟨rfl, rfl, rfl⟩
  count := rfl
  closed := iff_of_true rfl hthreshold
  opened h := by cases h
  halfOpen h := by cases h

theorem tracks_step (hthreshold : 1 ≤ threshold) (ht : Tracks name threshold timeout g)
    (h : Moves g l g') : Tracks name threshold timeout g' := by
  obtain ⟨hconfig, hcount, hclosed, hopened, hhalf⟩ := ht
  obtain ⟨hname, rfl, htimeout⟩ := hconfig
  cases h with
  | rejected hstate htime => exact ⟨⟨hname, rfl, htimeout⟩, hcount, hclosed, hopened, hhalf⟩
  | trial hstate htime =>
    refine ⟨⟨hname, rfl, htimeout⟩, hcount, ?_, by rintro ⟨⟩, fun _ => rfl⟩
    refine iff_of_false (by rintro ⟨⟩) fun hlt => ?_
    exact absurd (hstate.symm.trans (hclosed.mpr hlt)) (by decide)
  | admitted hstate => exact ⟨⟨hname, rfl, htimeout⟩, hcount, hclosed, hopened, hhalf⟩
  | returned hstate =>
    refine ⟨⟨hname, rfl, htimeout⟩, rfl, iff_of_true hstate hthreshold, fun ho => ?_, fun ho => ?_⟩
    · exact absurd (hstate.symm.trans ho) (by decide)
    · exact absurd (hstate.symm.trans ho) (by decide)
  | closes hstate =>
    exact ⟨⟨hname, rfl, htimeout⟩, rfl, iff_of_true rfl hthreshold, by rintro ⟨⟩, by rintro ⟨⟩⟩
  | raised hstate =>
    refine ⟨⟨hname, rfl, htimeout⟩, congrArg (· + 1) hcount, ?_, hopened, hhalf⟩
    refine ⟨fun hc => ?_, fun hlt => hclosed.mpr (Nat.lt_of_succ_lt hlt)⟩
    have hroom := hstate hc
    rw [hcount] at hroom
    exact hroom
  | opens hstate hreached =>
    refine ⟨⟨hname, rfl, htimeout⟩, congrArg (· + 1) hcount, ?_, fun _ => ⟨rfl, rfl⟩, by rintro ⟨⟩⟩
    rw [hcount] at hreached
    exact iff_of_false (by rintro ⟨⟩) (Nat.not_lt.mpr hreached)
  | cancelled => exact ⟨⟨hname, rfl, htimeout⟩, hcount, hclosed, hopened, hhalf⟩

theorem tracks_reaches {ok : Guarded T C → BreakerLabel T C → Prop}
    {ls : List (BreakerLabel T C)} (hthreshold : 1 ≤ threshold)
    (h : Reaches Guarded.step ok (.new name threshold timeout t₀) ls g) :
    Tracks name threshold timeout g :=
  h.invariant (Tracks name threshold timeout) (tracks_new hthreshold) fun _ _ _ ht _ hs =>
    tracks_step hthreshold ht (step_moves hs)

/-- The call is rejected at its start. -/
def Guarded.Rejects (g : Guarded T C) (call : C) (now stamp : T) : Prop :=
  g.start call now stamp =
    { g with history := .rejected call g.breaker.openMessage now :: g.history }

theorem rejects_iff {call : C} {now stamp : T} : g.Rejects call now stamp ↔
    g.breaker.state = .opened ∧
      now - g.breaker.lastStateChange < g.breaker.recoveryTimeoutSeconds := by
  have hmoves := start_moves g call now stamp
  unfold Guarded.Rejects
  generalize g.start call now stamp = g' at hmoves
  cases hmoves with
  | rejected hstate htime => exact iff_of_true rfl ⟨hstate, htime⟩
  | trial hstate htime =>
    refine iff_of_false (fun h => ?_) fun h => absurd h.2 (not_lt.mpr htime)
    simpa using congrArg (fun x : Guarded T C => x.running.length) h
  | admitted hstate =>
    refine iff_of_false (fun h => ?_) fun h => hstate h.1
    simpa using congrArg (fun x : Guarded T C => x.running.length) h

/-- Admission is exact. -/
theorem admission_exact {ls : List (BreakerLabel T C)} (hthreshold : 1 ≤ threshold)
    (h : Reaches Guarded.step anyStep (.new name threshold timeout t₀) ls g) :
    (g.breaker.state = .closed ↔ failuresSinceSuccess g.history < threshold) ∧
      ∀ call now stamp, g.Rejects call now stamp ↔
        threshold ≤ failuresSinceSuccess g.history ∧ halfOpenedSince g.history = false ∧
          ∃ opening, lastOpening g.history = some opening ∧ now - opening < timeout := by
  have ht := tracks_reaches hthreshold h
  refine ⟨ht.closed, fun call now stamp => rejects_iff.trans ?_⟩
  rw [ht.config.2.2]
  constructor
  · rintro ⟨hstate, htime⟩
    obtain ⟨hlast, hnever⟩ := ht.opened hstate
    refine ⟨Nat.not_lt.mp fun hlt => ?_, hnever, _, hlast, htime⟩
    exact absurd (hstate.symm.trans (ht.closed.mpr hlt)) (by decide)
  · rintro ⟨hreached, hnever, opening, hlast, htime⟩
    have hstate : g.breaker.state = .opened := by
      cases hs : g.breaker.state with
      | closed => exact absurd (ht.closed.mp hs) (Nat.not_lt.mpr hreached)
      | opened => rfl
      | halfOpen => exact absurd (hnever.symm.trans (ht.halfOpen hs)) (by decide)
    obtain ⟨hsame, -⟩ := ht.opened hstate
    obtain rfl := Option.some.inj (hlast.symm.trans hsame)
    exact ⟨hstate, htime⟩

/-- `admission_exact` for a breaker of threshold one that has opened at time 1. -/
theorem admission_exact_opened : ∃ g : Guarded ℤ String,
    Reaches Guarded.step anyStep (.new "chaos_db" 1 30 0)
      [.start "query" 0 0, .complete 0 .raised 1] g ∧
      g.Rejects "query" 30 30 ∧ ¬ g.Rejects "query" 31 31 := by
  have hrun : Reaches Guarded.step anyStep (.new "chaos_db" 1 (30 : ℤ) 0)
      [.start "query" 0 0, .complete 0 .raised 1] _ := reaches_run rfl
  have hexact := admission_exact (Nat.le_refl 1) hrun
  refine ⟨_, hrun, (hexact.2 _ _ _).mpr ⟨by decide, rfl, 1, rfl, by decide⟩, fun h => ?_⟩
  obtain ⟨-, -, opening, hlast, htime⟩ := (hexact.2 _ _ _).mp h
  obtain rfl : (1 : ℤ) = opening := Option.some.inj hlast
  exact absurd htime (by decide)

/-! ## Failed trials -/

/-- After a failed trial no call is admitted until the recovery timeout has passed since, unless a
    call has succeeded in between. -/
def ReopensOnFailedTrial (timeout : T) : List (BreakerEvent T C) → Prop
  | [] => True
  | .admitted _ _ now :: past =>
    (∀ t ∈ trialFailures past, timeout ≤ now - t) ∧ ReopensOnFailedTrial timeout past
  | _ :: past => ReopensOnFailedTrial timeout past

/-- A call starts within the recovery timeout of a failed trial only while the timeout of the last
    opening runs as well, for it and for every call started since that opening. -/
def Waits (g : Guarded T C) : BreakerLabel T C → Prop
  | .start _ now _ => ∀ t ∈ trialFailures g.history,
      now - t < g.breaker.recoveryTimeoutSeconds →
      ∃ opening, unhealedOpening g.history = some opening ∧
        ∀ u ∈ now :: startsSinceOpening g.history,
          u - opening < g.breaker.recoveryTimeoutSeconds
  | .complete _ _ _ => True

/-- The breaker after an opening that no success has followed. -/
structure Unhealed (g : Guarded T C) : Prop where
  state : ∀ opening, unhealedOpening g.history = some opening →
    (g.breaker.state = .opened ∧ g.breaker.lastStateChange = opening ∧
      ∀ u ∈ startsSinceOpening g.history, u - opening < g.breaker.recoveryTimeoutSeconds) ∨
    (g.breaker.state = .halfOpen ∧
      ∃ u ∈ startsSinceOpening g.history, g.breaker.recoveryTimeoutSeconds ≤ u - opening)
  opened : g.breaker.state = .opened → unhealedOpening g.history = some g.breaker.lastStateChange
  trial : ∀ t ∈ trialFailures g.history, (unhealedOpening g.history).isSome = true

omit [LinearOrder T] [Sub T] in
theorem mem_trialFailures_failed {call : C} {s : CircuitState} {now t : T}
    {past : List (BreakerEvent T C)} (h : t ∈ trialFailures (.failed call s now :: past)) :
    (unhealedOpening past).isSome = true ∨ t ∈ trialFailures past := by
  cases s with
  | closed => exact Or.inr h
  | opened => exact Or.inr h
  | halfOpen =>
    unfold trialFailures at h
    split at h
    · next hsome => exact Or.inl hsome
    · exact Or.inr h

theorem unhealed_new :
    Unhealed (Guarded.new name threshold timeout t₀ : Guarded T C) where
  state opening h := by cases h
  opened h := by cases h
  trial t h := absurd h List.not_mem_nil

theorem unhealed_step (hu : Unhealed g) (h : Moves g l g') : Unhealed g' := by
  obtain ⟨hstate', hopened, htrial⟩ := hu
  cases h with
  | rejected hstate htime =>
    refine ⟨fun opening ho => ?_, hopened, htrial⟩
    rcases hstate' opening ho with ⟨_, hlast, hall⟩ | ⟨hhalf, _⟩
    · refine Or.inl ⟨hstate, hlast, fun u hmem => ?_⟩
      rcases List.mem_cons.mp hmem with rfl | hmem
      · exact hlast ▸ htime
      · exact hall u hmem
    · exact absurd (hstate.symm.trans hhalf) (by decide)
  | trial hstate htime =>
    refine ⟨fun opening ho => Or.inr ⟨rfl, ?_⟩, by rintro ⟨⟩, htrial⟩
    obtain rfl := Option.some.inj ((hopened hstate).symm.trans ho)
    exact ⟨_, List.mem_cons_self, htime⟩
  | admitted hstate =>
    refine ⟨fun opening ho => ?_, fun ho => absurd ho hstate, htrial⟩
    rcases hstate' opening ho with ⟨hopen, _⟩ | ⟨hhalf, u, hmem, hlate⟩
    · exact absurd hopen hstate
    · exact Or.inr ⟨hhalf, u, List.mem_cons_of_mem _ hmem, hlate⟩
  | returned hstate =>
    refine ⟨fun opening ho => ?_, fun ho => ?_, fun t ht => absurd ht List.not_mem_nil⟩
    · cases ho
    · exact absurd (hstate.symm.trans ho) (by decide)
  | closes hstate =>
    refine ⟨fun opening ho => ?_, fun ho => ?_, fun t ht => absurd ht List.not_mem_nil⟩
    · cases ho
    · cases ho
  | raised hstate =>
    refine ⟨hstate', hopened, fun t ht => ?_⟩
    rcases mem_trialFailures_failed ht with hsome | ht
    · exact hsome
    · exact htrial t ht
  | opens hstate hcount =>
    refine ⟨fun opening ho => ?_, fun _ => rfl, fun t ht => rfl⟩
    cases ho
    exact Or.inl ⟨rfl, rfl, fun u hmem => absurd hmem List.not_mem_nil⟩
  | cancelled => exact ⟨hstate', hopened, htrial⟩

/-- One step keeps the promise exactly when it waits. -/
theorem reopens_step (hu : Unhealed g) (h : Moves g l g') :
    ReopensOnFailedTrial g.breaker.recoveryTimeoutSeconds g'.history ↔
      ReopensOnFailedTrial g.breaker.recoveryTimeoutSeconds g.history ∧ Waits g l := by
  cases h with
  | rejected hstate htime =>
    refine (and_iff_left fun t ht _ => ⟨_, hu.opened hstate, fun u hmem => ?_⟩).symm
    rcases List.mem_cons.mp hmem with rfl | hmem
    · exact htime
    · rcases hu.state _ (hu.opened hstate) with ⟨-, -, hall⟩ | ⟨hhalf, -⟩
      · exact hall u hmem
      · exact absurd (hstate.symm.trans hhalf) (by decide)
  | @trial call now stamp hstate htime =>
    refine and_comm.trans (and_congr_right fun _ => forall₂_congr fun t ht => ?_)
    refine ⟨fun hlong hshort => absurd hlong (not_le.mpr hshort), fun hwaits => ?_⟩
    refine not_lt.mp fun hshort => ?_
    obtain ⟨opening, ho, hall⟩ := hwaits hshort
    obtain rfl := Option.some.inj ((hu.opened hstate).symm.trans ho)
    exact absurd (hall now List.mem_cons_self) (not_lt.mpr htime)
  | admitted hstate =>
    refine and_comm.trans (and_congr_right fun _ => forall₂_congr fun t ht => ?_)
    refine ⟨fun hlong hshort => absurd hlong (not_le.mpr hshort), fun hwaits => ?_⟩
    refine not_lt.mp fun hshort => ?_
    obtain ⟨opening, ho, hall⟩ := hwaits hshort
    rcases hu.state opening ho with ⟨hopen, -⟩ | ⟨-, u, hmem, hlate⟩
    · exact hstate hopen
    · exact absurd (hall u (List.mem_cons_of_mem _ hmem)) (not_lt.mpr hlate)
  | returned _ => exact (and_iff_left trivial).symm
  | closes _ => exact (and_iff_left trivial).symm
  | raised _ => exact (and_iff_left trivial).symm
  | opens _ _ => exact (and_iff_left trivial).symm
  | cancelled => exact (and_iff_left trivial).symm

theorem timeout_step (h : Moves g l g') :
    g'.breaker.recoveryTimeoutSeconds = g.breaker.recoveryTimeoutSeconds := by
  cases h <;> rfl

/-- The breaker re-opens on a failed trial in exactly the runs whose calls wait. -/
theorem reopens_iff {ls : List (BreakerLabel T C)}
    (h : runFrom Guarded.step (.new name threshold timeout t₀) ls = some g) :
    ReopensOnFailedTrial timeout g.history ↔
      AllSteps Guarded.step Waits (.new name threshold timeout t₀ : Guarded T C) ls := by
  have hinv : ∀ (g : Guarded T C) l g',
      Unhealed g ∧ g.breaker.recoveryTimeoutSeconds = timeout → g.step l = some g' →
      Unhealed g' ∧ g'.breaker.recoveryTimeoutSeconds = timeout := fun g l g' hi hs =>
    ⟨unhealed_step hi.1 (step_moves hs), (timeout_step (step_moves hs)).trans hi.2⟩
  have hstep : ∀ (g : Guarded T C) l g',
      Unhealed g ∧ g.breaker.recoveryTimeoutSeconds = timeout → g.step l = some g' →
      (ReopensOnFailedTrial timeout g'.history ↔
        ReopensOnFailedTrial timeout g.history ∧ Waits g l) := by
    rintro g l g' ⟨hu, rfl⟩ hs
    exact reopens_step hu (step_moves hs)
  have hrun := runFrom_iff_allSteps hinv hstep ls _ g ⟨unhealed_new, rfl⟩ h
  exact hrun.trans (and_iff_right trivial)

/-- `reopens_iff` for a run whose trial succeeds. -/
theorem reopens_iff_recovered : ∃ g : Guarded ℤ String,
    runFrom Guarded.step (.new "chaos_db" 1 30 0)
      [.start "query" 0 0, .complete 0 .raised 1, .start "query" 31 31, .complete 0 .returned 32,
        .start "query" 33 33] = some g ∧
      (ReopensOnFailedTrial 30 g.history ↔ AllSteps Guarded.step Waits
        (.new "chaos_db" 1 30 0 : Guarded ℤ String)
        [.start "query" 0 0, .complete 0 .raised 1, .start "query" 31 31, .complete 0 .returned 32,
          .start "query" 33 33]) :=
  ⟨_, rfl, reopens_iff rfl⟩

/-- The trial fails, and the next call is let through one second later. -/
theorem failed_trial_admits : ∃ g : Guarded ℤ String,
    runFrom Guarded.step (.new "chaos_db" 1 30 0)
      [.start "query" 0 0, .complete 0 .raised 1, .start "query" 31 31, .complete 0 .raised 32,
        .start "query" 33 33] = some g ∧ ¬ ReopensOnFailedTrial 30 g.history := by
  refine ⟨_, rfl, fun h => ?_⟩
  exact absurd (h.1 32 List.mem_cons_self) (by decide)

end CloudScale.Shared
