/-
  The single-flight lock of `cache_aside` (`cloudscale_shared/cache.py`), for one key in one event
  loop.

  A step is what a call does between two of its await points. A hit of the L1 cache is a value that
  is not `None`, a hit of Redis a text that is there, so `None` is a hit in Redis only; and what a
  hit of Redis returns has gone through JSON.

  `inv_step` is the step lemma: before the function is executed nothing is cached, and afterwards no
  call goes on to execute it. It needs of a result that it is not `None` where Redis is not
  available, and that JSON gives it back where it is (`Kept`). `single_flight_iff`: these are the
  results with which every run has a single flight. `null_twice` and `read_back` are two runs
  without.
-/
import CloudScale.Lib.Run
import Mathlib.Data.Option.Basic
import Mathlib.Logic.Function.Basic

namespace CloudScale.SingleFlight

open CloudScale.Lib

/-! ## Calls -/

/-- The values of a function: `None`, and what `json.loads` makes of the text that `json.dumps`
    gives (`none`: it raises). -/
structure Values (ρ : Type) where
  null : ρ
  isNull : ρ → Bool
  roundTrip : ρ → Option ρ
  isNull_iff : ∀ v, isNull v = true ↔ v = null
  roundTrip_null : roundTrip null = some null

/-- Where a call waits, or what it has returned; `client` is whether it has a Redis client. -/
inductive Phase (ρ : Type) where
  /-- for the first `redis_client.get` -/
  | reading
  /-- for the lock -/
  | waiting (client : Bool)
  /-- for the `redis_client.get` inside the lock -/
  | rereading
  /-- for the function -/
  | fetching (client : Bool)
  /-- for `redis_client.setex` -/
  | writing (result : ρ)
  | returned (result : ρ)

/-- The entries of the key, its lock and the calls; `executed` are the results of the function,
    latest first. -/
structure Loop (ρ : Type) where
  l1 : Option ρ := none
  redis : Option ρ := none
  locked : Option ℕ := none
  calls : ℕ → Option (Phase ρ) := fun _ => none
  executed : List ρ := []

inductive LoopStep (ρ : Type) where
  | call (i : ℕ) (client : Bool)
  | read (i : ℕ) (ok : Bool)
  | acquire (i : ℕ)
  | reread (i : ℕ) (ok : Bool)
  | func (i : ℕ) (result : ρ)
  | setex (i : ℕ) (ok : Bool)

variable {ρ : Type} (V : Values ρ)

def Loop.setCall (s : Loop ρ) (i : ℕ) (p : Phase ρ) : Loop ρ :=
  { s with calls := Function.update s.calls i (some p) }

/-- `l1_val = l1_cache.get(cache_key)`, if it is not `None`. -/
def Loop.l1Get (s : Loop ρ) : Option ρ := s.l1.filter fun v => !V.isNull v

/-- `redis_val`, decoded; a command that fails is as good as a miss. -/
def Loop.redisGet (s : Loop ρ) (ok : Bool) : Option ρ := if ok then s.redis else none

def step (s : Loop ρ) : LoopStep ρ → Option (Loop ρ)
  | .call i client =>
    match s.calls i, s.l1Get V with
    | none, some v => some (s.setCall i (.returned v))
    | none, none => some (s.setCall i (if client then .reading else .waiting false))
    | some _, _ => none
  | .read i ok =>
    match s.calls i, s.redisGet ok with
    | some .reading, some v => some { s.setCall i (.returned v) with l1 := some v }
    | some .reading, none => some (s.setCall i (.waiting true))
    | _, _ => none
  | .acquire i =>
    match s.calls i, s.locked, s.l1Get V with
    | some (.waiting _), none, some v => some (s.setCall i (.returned v))
    | some (.waiting client), none, none =>
      some { s.setCall i (if client then .rereading else .fetching false) with locked := some i }
    | _, _, _ => none
  | .reread i ok =>
    match s.calls i, s.redisGet ok with
    | some .rereading, some v =>
      some { s.setCall i (.returned v) with l1 := some v, locked := none }
    | some .rereading, none => some (s.setCall i (.fetching true))
    | _, _ => none
  | .func i result =>
    match s.calls i with
    | some (.fetching client) =>
      let s := { s with l1 := some result, executed := result :: s.executed }
      -- a result that `json.dumps` refuses is only logged
      if client ∧ V.roundTrip result ≠ none then some (s.setCall i (.writing result))
      else some { s.setCall i (.returned result) with locked := none }
    | _ => none
  | .setex i ok =>
    match s.calls i with
    | some (.writing result) => some { s.setCall i (.returned result) with
        redis := if ok then V.roundTrip result else s.redis
        locked := none }
    | _ => none

/-- The function was executed at most once, and all calls have returned its result. -/
def Single (s : Loop ρ) : Prop :=
  s.executed.length ≤ 1 ∧ ∀ i v, s.calls i = some (.returned v) → s.executed = [v]

/-- The function returns one of `results`, and Redis is there for all commands or for none. -/
def Allowed (results : ρ → Prop) (available : Bool) (_ : Loop ρ) : LoopStep ρ → Prop
  | .call _ client => available = true → client = true
  | .read _ ok => ok = available
  | .acquire _ => True
  | .reread _ ok => ok = available
  | .func _ result => results result
  | .setex _ ok => ok = available

/-- What the caches give back for a result is the result. -/
def Kept (available : Bool) (r : ρ) : Prop :=
  if available then ∀ v, V.roundTrip r = some v → v = r else r ≠ V.null

/-! ## The invariant -/

/-- The call is in the block of the lock. -/
def Phase.InLock : Phase ρ → Prop
  | .rereading => True
  | .fetching _ => True
  | .writing _ => True
  | _ => False

def Phase.client : Phase ρ → Bool
  | .waiting client => client
  | .fetching client => client
  | _ => true

/-- Where a call may be before the function was executed. -/
def Phase.Before : Phase ρ → Prop
  | .writing _ => False
  | .returned _ => False
  | _ => True

/-- Where a call may be after the function returned `r`. -/
def Phase.After (r : ρ) : Phase ρ → Prop
  | .rereading => r = V.null
  | .fetching _ => False
  | .writing v => v = r
  | .returned v => v = r
  | _ => True

/-- Nothing was executed, and nothing is cached. -/
structure Empty (s : Loop ρ) : Prop where
  executed : s.executed = []
  l1 : s.l1 = none
  redis : s.redis = none
  calls : ∀ i p, s.calls i = some p → p.Before

/-- The function returned `r`, once; where Redis is available it has what JSON encodes of `r`, or
    will before the lock is released. -/
structure Filled (available : Bool) (r : ρ) (s : Loop ρ) : Prop where
  executed : s.executed = [r]
  l1 : s.l1 = some r
  redis : ∀ v, s.redis = some v → v = r
  calls : ∀ i p, s.calls i = some p → p.After V r
  stored : available = true → V.roundTrip r ≠ none →
    s.redis = some r ∨ ∃ i, s.calls i = some (.writing r)

structure Inv (results : ρ → Prop) (available : Bool) (s : Loop ρ) : Prop where
  lock : ∀ i p, s.calls i = some p → p.InLock → s.locked = some i
  client : available = true → ∀ i p, s.calls i = some p → p.client = true
  stage : Empty s ∨ ∃ r, results r ∧ Filled V available r s

section Steps

variable {V} {results : ρ → Prop} {available : Bool} {s s' : Loop ρ} {i : ℕ} {p : Phase ρ} {r : ρ}

theorem Kept.eq (h : Kept V available r) (ha : available = true) :
    ∀ v, V.roundTrip r = some v → v = r := by
  rwa [Kept, if_pos ha] at h

theorem Kept.ne_null (h : Kept V available r) (ha : available ≠ true) : r ≠ V.null := by
  rwa [Kept, if_neg ha] at h

/-- What holds of the new phase of a call, and of the phases of all others. -/
theorem forall_setCall {P : ℕ → Phase ρ → Prop} (h : ∀ j ≠ i, ∀ q, s.calls j = some q → P j q)
    (hp : P i p) : ∀ j q, (s.setCall i p).calls j = some q → P j q := by
  intro j q hj
  by_cases hji : j = i
  · subst hji
    have hq : p = q := by simpa [Loop.setCall] using hj
    exact hq ▸ hp
  · refine h j hji q ?_
    simpa [Loop.setCall, hji] using hj

theorem writing_setCall {v : ρ} (h : ∀ v, s.calls i ≠ some (.writing v)) :
    (∃ j, s.calls j = some (.writing v)) → ∃ j, (s.setCall i p).calls j = some (.writing v) := by
  rintro ⟨j, hj⟩
  have hne : j ≠ i := by
    rintro rfl
    exact h v hj
  exact ⟨j, by simpa [Loop.setCall, hne] using hj⟩

theorem redisGet_eq_some {v : ρ} {ok : Bool} (h : s.redisGet ok = some v) : s.redis = some v := by
  cases ok with
  | false => cases h
  | true => exact h

theorem Phase.after_of_before (h : p.Before) (hin : ¬ p.InLock) : p.After V r := by
  cases p with
  | reading => trivial
  | waiting => trivial
  | rereading => exact (hin trivial).elim
  | fetching => exact (hin trivial).elim
  | writing => exact h.elim
  | returned => exact h.elim

/-- What a cache gives is the result of the function. -/
theorem Inv.cached (h : Inv V results available s) {v : ρ} (hv : s.l1 = some v ∨ s.redis = some v) :
    ∃ r, Filled V available r s ∧ v = r := by
  rcases h.stage with hempty | ⟨r, -, hfilled⟩
  · simp [hempty.l1, hempty.redis] at hv
  · refine ⟨r, hfilled, ?_⟩
    rcases hv with hv | hv
    · exact Option.some.inj (hv.symm.trans hfilled.l1)
    · exact hfilled.redis v hv

/-- A call goes on, and takes no lock. -/
theorem Inv.go (h : Inv V results available s) (hlock : p.InLock → s.locked = some i)
    (hclient : available = true → p.client = true) (hbefore : Empty s → p.Before)
    (hafter : ∀ r, results r → Filled V available r s → p.After V r)
    (hwriting : ∀ v, s.calls i ≠ some (.writing v)) : Inv V results available (s.setCall i p) where
  lock := forall_setCall (fun j _ => h.lock j) hlock
  client ha := forall_setCall (fun j _ => h.client ha j) (hclient ha)
  stage := by
    rcases h.stage with hempty | ⟨r, hr, hfilled⟩
    · exact Or.inl ⟨hempty.executed, hempty.l1, hempty.redis,
        forall_setCall (fun j _ => hempty.calls j) (hbefore hempty)⟩
    · exact Or.inr ⟨r, hr, hfilled.executed, hfilled.l1, hfilled.redis,
        forall_setCall (fun j _ => hfilled.calls j) (hafter r hr hfilled),
        fun ha htext => (hfilled.stored ha htext).imp_right (writing_setCall hwriting)⟩

/-- A call returns what a cache has. -/
theorem Inv.hit (h : Inv V results available s) {v : ρ} (hv : s.l1 = some v ∨ s.redis = some v)
    (hwriting : ∀ v, s.calls i ≠ some (.writing v)) :
    Inv V results available { s.setCall i (.returned v) with l1 := some v } := by
  obtain ⟨r, hfilled, rfl⟩ := h.cached hv
  have hl1 : { s.setCall i (.returned v) with l1 := some v } = s.setCall i (.returned v) := by
    rw [← hfilled.l1]
    rfl
  rw [hl1]
  refine h.go nofun (fun _ => rfl) (fun hempty => ?_) (fun r' _ hfilled' => ?_) hwriting
  · cases hempty.l1.symm.trans hfilled.l1
  · exact Option.some.inj (hfilled.l1.symm.trans hfilled'.l1)

/-- The lock changes hands between calls of which none is in its block. -/
theorem Inv.relock (h : Inv V results available s) {locked : Option ℕ}
    (hlock : ∀ j q, s.calls j = some q → q.InLock → locked = some j) :
    Inv V results available { s with locked := locked } where
  lock := hlock
  client := h.client
  stage := h.stage.imp (fun he => ⟨he.executed, he.l1, he.redis, he.calls⟩)
    fun ⟨r, hr, hf⟩ => ⟨r, hr, hf.executed, hf.l1, hf.redis, hf.calls, hf.stored⟩

/-- The call that holds the lock leaves its block. -/
theorem Inv.left (h : Inv V results available s) (hi : s.locked = some i) (hp : ¬ p.InLock) :
    ∀ j q, (s.setCall i p).calls j = some q → q.InLock → none = some j := by
  refine forall_setCall (fun j hj q hq hin => ?_) fun hin => absurd hin hp
  exact absurd (Option.some.inj (hi.symm.trans (h.lock j q hq hin))) hj.symm

/-- The function returns: its result is the only one, and in the L1 cache. -/
theorem Inv.filled (h : Inv V results available s) (hempty : Empty s) (hi : s.locked = some i)
    (hr : results r) (hp : p.After V r) (hclient : available = true → p.client = true)
    (htext : available = true → V.roundTrip r ≠ none → p = .writing r) :
    Inv V results available
      ({ s with l1 := some r, executed := r :: s.executed }.setCall i p) where
  lock := forall_setCall (fun j _ => h.lock j) fun _ => hi
  client ha := forall_setCall (fun j _ => h.client ha j) (hclient ha)
  stage := by
    refine Or.inr ⟨r, hr, congrArg (r :: ·) hempty.executed, rfl, ?_, ?_, fun ha h0 => ?_⟩
    · simp [Loop.setCall, hempty.redis]
    · refine forall_setCall (fun j hj q hq => ?_) hp
      refine Phase.after_of_before (hempty.calls j q hq) fun hin => ?_
      exact hj (Option.some.inj ((h.lock j q hq hin).symm.trans hi))
    · exact Or.inr ⟨i, by simp [Loop.setCall, htext ha h0]⟩

/-- The call that writes the result to Redis returns it. -/
theorem Inv.stored (h : Inv V results available s) (hi : s.calls i = some (.writing r))
    {redis : Option ρ} (hredis : ∀ v, redis = some v → v = r)
    (htext : available = true → V.roundTrip r ≠ none → redis = some r) :
    Inv V results available { s.setCall i (.returned r) with redis := redis, locked := none } where
  lock := h.left (h.lock i _ hi trivial) id
  client ha := forall_setCall (fun j _ => h.client ha j) rfl
  stage := by
    rcases h.stage with hempty | ⟨r', hr, hfilled⟩
    · exact (hempty.calls i _ hi).elim
    · obtain rfl : r = r' := hfilled.calls i _ hi
      exact Or.inr ⟨r, hr, hfilled.executed, hfilled.l1, hredis,
        forall_setCall (fun j _ => hfilled.calls j) rfl, fun ha h0 => Or.inl (htext ha h0)⟩

@[simp] theorem isNull_null : V.isNull V.null = true := (V.isNull_iff V.null).mpr rfl

theorem l1Get_eq_some {v : ρ} (h : s.l1Get V = some v) : s.l1 = some v :=
  (Option.filter_eq_some_iff.mp h).1

theorem l1Get_eq_none (h : s.l1Get V = none) (hr : s.l1 = some r) : r = V.null := by
  simpa [Loop.l1Get, hr, Option.filter, V.isNull_iff] using h

theorem inv_call (h : Inv V results available s) {client : Bool}
    (hl : Allowed results available s (.call i client))
    (hs : step V s (.call i client) = some s') : Inv V results available s' := by
  cases hi : s.calls i with
  | some q => simp [step, hi] at hs
  | none =>
    have hwriting : ∀ v, s.calls i ≠ some (.writing v) := by simp [hi]
    cases hv : s.l1Get V with
    | some v =>
      obtain rfl : s.setCall i (.returned v) = s' := by simpa [step, hi, hv] using hs
      have hl1 := l1Get_eq_some hv
      simpa [Loop.setCall, ← hl1] using h.hit (i := i) (Or.inl hl1) hwriting
    | none =>
      obtain rfl : s.setCall i (if client then .reading else .waiting false) = s' := by
        simpa [step, hi, hv] using hs
      cases client with
      | true => exact h.go nofun (fun _ => rfl) (fun _ => trivial) (fun _ _ _ => trivial) hwriting
      | false => exact h.go nofun hl (fun _ => trivial) (fun _ _ _ => trivial) hwriting

theorem inv_read (h : Inv V results available s) {ok : Bool}
    (hs : step V s (.read i ok) = some s') : Inv V results available s' := by
  cases hi : s.calls i with
  | none => simp [step, hi] at hs
  | some q =>
    cases q with
    | reading =>
      have hwriting : ∀ v, s.calls i ≠ some (.writing v) := by simp [hi]
      cases hv : s.redisGet ok with
      | some v =>
        obtain rfl : { s.setCall i (.returned v) with l1 := some v } = s' := by
          simpa [step, hi, hv] using hs
        exact h.hit (Or.inr (redisGet_eq_some hv)) hwriting
      | none =>
        obtain rfl : s.setCall i (.waiting true) = s' := by simpa [step, hi, hv] using hs
        exact h.go nofun (fun _ => rfl) (fun _ => trivial) (fun _ _ _ => trivial) hwriting
    | _ => simp [step, hi] at hs

theorem inv_acquire (hkept : ∀ r, results r → Kept V available r) (h : Inv V results available s)
    (hs : step V s (.acquire i) = some s') : Inv V results available s' := by
  cases hi : s.calls i with
  | none => simp [step, hi] at hs
  | some q =>
    cases q with
    | waiting client =>
      have hwriting : ∀ v, s.calls i ≠ some (.writing v) := by simp [hi]
      cases hfree : s.locked with
      | some => simp [step, hi, hfree] at hs
      | none =>
        cases hv : s.l1Get V with
        | some v =>
          obtain rfl : s.setCall i (.returned v) = s' := by
            simpa [step, hi, hfree, hv] using hs
          have hl1 := l1Get_eq_some hv
          simpa [Loop.setCall, ← hl1] using h.hit (i := i) (Or.inl hl1) hwriting
        | none =>
          obtain rfl : { s.setCall i (if client then .rereading else .fetching false) with
              locked := some i } = s' := by
            simpa [step, hi, hfree, hv] using hs
          have htaken : Inv V results available { s with locked := some i } := by
            refine h.relock fun j q hq hin => ?_
            cases hfree.symm.trans (h.lock j q hq hin)
          cases client with
          | true =>
            exact htaken.go (fun _ => rfl) (fun _ => rfl) (fun _ => trivial)
              (fun r _ hfilled => l1Get_eq_none hv hfilled.l1) hwriting
          | false =>
            -- a call without a client waits where Redis is not available, and has no miss then
            have hoff : available ≠ true := fun ha => nomatch h.client ha i _ hi
            refine htaken.go (fun _ => rfl) (fun ha => absurd ha hoff) (fun _ => trivial)
              (fun r hr hfilled => ?_) hwriting
            exact (hkept r hr).ne_null hoff (l1Get_eq_none hv hfilled.l1)
    | _ => simp [step, hi] at hs

theorem inv_reread (hkept : ∀ r, results r → Kept V available r) (h : Inv V results available s)
    {ok : Bool} (hl : Allowed results available s (.reread i ok))
    (hs : step V s (.reread i ok) = some s') : Inv V results available s' := by
  cases hi : s.calls i with
  | none => simp [step, hi] at hs
  | some q =>
    cases q with
    | rereading =>
      have hwriting : ∀ v, s.calls i ≠ some (.writing v) := by simp [hi]
      have hlocked := h.lock i _ hi trivial
      cases hv : s.redisGet ok with
      | some v =>
        obtain rfl : { s.setCall i (.returned v) with l1 := some v, locked := none } = s' := by
          simpa [step, hi, hv] using hs
        exact (h.hit (Or.inr (redisGet_eq_some hv)) hwriting).relock (h.left hlocked id)
      | none =>
        obtain rfl : s.setCall i (.fetching true) = s' := by simpa [step, hi, hv] using hs
        refine h.go (fun _ => hlocked) (fun _ => rfl) (fun _ => trivial)
          (fun r hr hfilled => ?_) hwriting
        -- `None` is in Redis by now: the call that stored it held the lock before this one
        have hnull : r = V.null := hfilled.calls i _ hi
        have htext : V.roundTrip r ≠ none := by simp [hnull, V.roundTrip_null]
        cases available with
        | false => exact (hkept r hr).ne_null nofun hnull
        | true =>
          rcases hfilled.stored rfl htext with hredis | ⟨j, hj⟩
          · simp [Loop.redisGet, show ok = true from hl, hredis] at hv
          · have hji := Option.some.inj ((h.lock j _ hj trivial).symm.trans hlocked)
            exact hwriting r (hji ▸ hj)
    | _ => simp [step, hi] at hs

theorem inv_func (h : Inv V results available s)
    (hl : Allowed results available s (.func i r)) (hs : step V s (.func i r) = some s') :
    Inv V results available s' := by
  cases hi : s.calls i with
  | none => simp [step, hi] at hs
  | some q =>
    cases q with
    | fetching client =>
      have hlocked := h.lock i _ hi trivial
      have hempty : Empty s := by
        rcases h.stage with hempty | ⟨r, -, hfilled⟩
        · exact hempty
        · exact (hfilled.calls i _ hi).elim
      by_cases hw : client = true ∧ V.roundTrip r ≠ none
      · obtain rfl : { s with l1 := some r, executed := r :: s.executed }.setCall i
            (.writing r) = s' := by
          simpa [step, hi, hw] using hs
        exact h.filled hempty hlocked hl rfl (fun _ => rfl) fun _ _ => rfl
      · obtain rfl : { ({ s with l1 := some r, executed := r :: s.executed }.setCall i
            (.returned r)) with locked := none } = s' := by
          simpa [step, hi, hw] using hs
        have hfilled := h.filled (p := .returned r) hempty hlocked hl rfl (fun _ => rfl)
          fun ha htext => (hw ⟨h.client ha i _ hi, htext⟩).elim
        exact hfilled.relock (h.left hlocked id)
    | _ => simp [step, hi] at hs

theorem inv_setex (hkept : ∀ r, results r → Kept V available r) (h : Inv V results available s)
    {ok : Bool} (hl : Allowed results available s (.setex i ok))
    (hs : step V s (.setex i ok) = some s') : Inv V results available s' := by
  cases hi : s.calls i with
  | none => simp [step, hi] at hs
  | some q =>
    cases q with
    | writing result =>
      obtain ⟨hr, hfilled⟩ : results result ∧ Filled V available result s := by
        rcases h.stage with hempty | ⟨r, hr, hfilled⟩
        · exact (hempty.calls i _ hi).elim
        · obtain rfl : result = r := hfilled.calls i _ hi
          exact ⟨hr, hfilled⟩
      obtain rfl : { s.setCall i (.returned result) with
          redis := if ok then V.roundTrip result else s.redis, locked := none } = s' := by
        simpa [step, hi] using hs
      obtain rfl : ok = available := hl
      cases ok with
      | true =>
        have heq := (hkept result hr).eq rfl
        refine h.stored hi heq fun _ htext => ?_
        obtain ⟨v, hv⟩ := Option.ne_none_iff_exists'.mp htext
        exact hv.trans (congrArg some (heq v hv))
      | false => exact h.stored hi hfilled.redis nofun
    | _ => simp [step, hi] at hs

/-- Before the function is executed nothing is cached, and afterwards no call goes on to execute it.
    -/
theorem inv_step (hkept : ∀ r, results r → Kept V available r) (h : Inv V results available s)
    {l : LoopStep ρ} (hl : Allowed results available s l) (hs : step V s l = some s') :
    Inv V results available s' := by
  cases l with
  | call => exact inv_call h hl hs
  | read => exact inv_read h hs
  | acquire => exact inv_acquire hkept h hs
  | reread => exact inv_reread hkept h hl hs
  | func => exact inv_func h hl hs
  | setex => exact inv_setex hkept h hl hs

/-! ## Runs -/

theorem inv_of_reaches (hkept : ∀ r, results r → Kept V available r) {ls : List (LoopStep ρ)}
    (h : Reaches (step V) (Allowed results available) {} ls s) : Inv V results available s := by
  refine h.invariant (Inv V results available) ?_ fun _ _ _ hi hl hs => inv_step hkept hi hl hs
  exact ⟨nofun, fun _ => nofun, Or.inl ⟨rfl, rfl, rfl, nofun⟩⟩

theorem Inv.filled_of_returned (h : Inv V results available s) {v : ρ}
    (hv : s.calls i = some (.returned v)) : results v ∧ Filled V available v s := by
  rcases h.stage with hempty | ⟨r, hr, hfilled⟩
  · exact (hempty.calls i _ hv).elim
  · obtain rfl : v = r := hfilled.calls i _ hv
    exact ⟨hr, hfilled⟩

/-- What a call has returned is in Redis once the lock is free. -/
theorem Inv.redis_eq (h : Inv V results true s) {v : ρ} (hv : s.calls i = some (.returned v))
    (hfree : s.locked = none) (htext : V.roundTrip v ≠ none) : s.redis = some v := by
  rcases (h.filled_of_returned hv).2.stored rfl htext with hredis | ⟨j, hj⟩
  · exact hredis
  · cases hfree.symm.trans (h.lock j _ hj trivial)

theorem Inv.single (h : Inv V results available s) : Single s := by
  refine ⟨?_, fun i v hv => (h.filled_of_returned hv).2.executed⟩
  rcases h.stage with hempty | ⟨r, -, hfilled⟩
  · simp [hempty.executed]
  · simp [hfilled.executed]

variable (results) in
/-- Without Redis, two calls one after the other: `None` is no hit. -/
theorem null_twice (hnull : results V.null) :
    ∃ s, Reaches (step V) (Allowed results false) {} [.call 0 false, .acquire 0, .func 0 V.null,
      .call 1 false, .acquire 1, .func 1 V.null] s ∧ ¬ Single s := by
  refine reaches_where ?_ ?_
  · simp [AllSteps, Allowed, hnull]
  · simp [runFrom, step, Loop.setCall, Loop.l1Get, Option.filter, Single]

variable (results) in
/-- Two calls look into Redis; the answer to the second one comes after the first one has stored its
    result. -/
theorem read_back {v : ρ} (hr : results r) (hv : V.roundTrip r = some v) (hne : v ≠ r) :
    ∃ s, Reaches (step V) (Allowed results true) {} [.call 0 true, .call 1 true, .read 0 true,
      .acquire 0, .reread 0 true, .func 0 r, .setex 0 true, .read 1 true] s ∧ ¬ Single s := by
  suffices h : ∃ s, Reaches (step V) (Allowed results true) {} [.call 0 true, .call 1 true,
      .read 0 true, .acquire 0, .reread 0 true, .func 0 r, .setex 0 true, .read 1 true] s ∧
      s.calls 1 = some (.returned v) ∧ s.executed = [r] by
    obtain ⟨s, hs, hcall, hexec⟩ := h
    refine ⟨s, hs, fun hsingle => hne ?_⟩
    have heq : [r] = [v] := hexec.symm.trans (hsingle.2 1 v hcall)
    exact (List.head_eq_of_cons_eq heq).symm
  refine reaches_where ?_ ?_
  · simp [AllSteps, Allowed, hr]
  · simp [runFrom, step, Loop.setCall, Loop.l1Get, Loop.redisGet, hv]

variable (results) in
/-- A result that JSON does not encode is returned, and Redis stays empty. -/
theorem refused (hr : results r) (htext : V.roundTrip r = none) :
    ∃ s, Reaches (step V) (Allowed results true) {} [.call 0 true, .read 0 true, .acquire 0,
      .reread 0 true, .func 0 r] s ∧
      s.calls 0 = some (.returned r) ∧ s.locked = none ∧ s.redis = none := by
  refine reaches_where ?_ ?_
  · simp [AllSteps, Allowed, hr]
  · simp [runFrom, step, Loop.setCall, Loop.l1Get, Loop.redisGet, htext]

/-- A later call that finds nothing in the L1 cache. -/
theorem read_again {v : ρ} (hredis : s.redis = some v) (hi : s.calls i = none) :
    ∃ t, runFrom (step V) { s with l1 := none } [.call i true, .read i true] = some t ∧
      t.calls i = some (.returned v) := by
  simp [runFrom, step, Loop.setCall, Loop.l1Get, Loop.redisGet, hi, hredis]

end Steps

/-- The calls have a single flight in every run, exactly if the caches keep all that the function
    may return. -/
theorem single_flight_iff (results : ρ → Prop) (available : Bool) :
    (∀ ls s, Reaches (step V) (Allowed results available) {} ls s → Single s) ↔
      ∀ r, results r → Kept V available r := by
  refine ⟨fun h r hr => ?_, fun hkept ls s hreach => (inv_of_reaches hkept hreach).single⟩
  cases available with
  | false =>
    rintro rfl
    obtain ⟨s, hs, hnot⟩ := null_twice results hr
    exact hnot (h _ s hs)
  | true =>
    intro v hv
    by_contra hne
    obtain ⟨s, hs, hnot⟩ := read_back results hr hv hne
    exact hnot (h _ s hs)

/-- Values with two kinds of sequences, of which JSON has one. -/
inductive Value where
  | null
  | list (items : List ℕ)
  | tuple (items : List ℕ)
  deriving DecidableEq

def Value.roundTrip : Value → Option Value
  | .null => some .null
  | .list items => some (.list items)
  | .tuple items => some (.list items)

def values : Values Value where
  null := .null
  isNull v := decide (v = .null)
  roundTrip := Value.roundTrip
  isNull_iff _ := decide_eq_true_iff
  roundTrip_null := rfl

/-- `None` without Redis, and a tuple with it. -/
theorem not_single :
    (¬ ∀ ls s, Reaches (step values) (Allowed (· = .null) false) {} ls s → Single s) ∧
      ¬ ∀ ls s, Reaches (step values) (Allowed (· = .tuple [1]) true) {} ls s → Single s := by
  constructor
  · intro h
    obtain ⟨s, hs, hnot⟩ := null_twice (V := values) (· = .null) rfl
    exact hnot (h _ s hs)
  · intro h
    obtain ⟨s, hs, hnot⟩ := read_back (V := values) (· = .tuple [1]) (v := .list [1]) rfl rfl
      nofun
    exact hnot (h _ s hs)

end CloudScale.SingleFlight
