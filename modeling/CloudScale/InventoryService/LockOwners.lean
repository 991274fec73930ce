/-
  Whose lock `acquire_lock` releases (`inventory/app/locking.py`).

  A call recognises its lock by a token that it takes from its wall clock, so what the key holds may
  have another call's token: clocks of different hosts, or two readings within one tick, may agree.
  The clients' clocks are arbitrary here; `owner` is a history variable.

  `owned_step` is the step lemma: as long as no call gets the lock while another that is in its
  block has the same key and the same token (`Distinct`), what a key holds is recognised by its
  owner only. `releases_own` is the run lemma. `deletes_other`: where a step is not `Distinct`, the
  other call goes on to delete a lock that it does not own; `equal_clocks` is such a run.
-/
import CloudScale.Lib.Keyspace
import CloudScale.Lib.Run

namespace CloudScale.InventoryService.LockOwners

open CloudScale.Lib

/-! ## Calls -/

/-- What a key holds: the token, and the call whose `SET` stored it (no call reads it). -/
structure Held where
  token : String
  owner : ℕ
deriving DecidableEq

inductive Phase where
  | polling
  | holding
  | ended
deriving DecidableEq

/-- A call of `acquire_lock` with the clock readings at its start, `token` of the wall clock and
    `startTime` of the monotonic one. -/
structure Call (T : Type) where
  lockKey : String
  expireSeconds : Int
  timeoutSeconds : T
  token : String
  startTime : T
  phase : Phase := .polling

/-- A deletion by a call's compare-and-delete, and whose lock it was. -/
structure Deletion where
  lockKey : String
  client : ℕ
  owner : ℕ
deriving DecidableEq

structure Locks (T : Type) where
  redis : Keyspace String Held T
  calls : List (Call T) := []
  deletions : List Deletion := []

inductive LockStep (T : Type) where
  /-- a client calls `acquire_lock` -/
  | call (lockKey : String) (expireSeconds : Int) (timeoutSeconds : T) (token : String)
    (startTime : T)
  /-- one round of its loop, with the reading of its monotonic clock -/
  | poll (i : ℕ) (monotonic : T)
  /-- the end of its block; `reached` is whether the script gets to Redis -/
  | release (i : ℕ) (reached : Bool)
  | elapse (now : T)

variable {T : Type} [Ring T] [LinearOrder T]

def Locks.setPhase (s : Locks T) (i : ℕ) (c : Call T) (phase : Phase) : Locks T :=
  { s with calls := s.calls.set i { c with phase } }

/-- `SET lock_key token EX expire_seconds NX`, and what `acquire_lock` does with the answer. -/
def Locks.setNx (s : Locks T) (i : ℕ) (c : Call T) : Locks T :=
  if c.expireSeconds ≤ 0 then s.setPhase i c .ended
  else
    match s.redis.get c.lockKey with
    | some _ => s
    | none => { s.setPhase i c .holding with
        redis := s.redis.set c.lockKey ⟨c.token, i⟩ (some c.expireSeconds) }

/-- The script of the `finally` clause. -/
def Locks.compareAndDelete (s : Locks T) (i : ℕ) (c : Call T) : Locks T :=
  match s.redis.get c.lockKey with
  | some held =>
    if held.token = c.token then { s with
      redis := s.redis.del c.lockKey
      deletions := ⟨c.lockKey, i, held.owner⟩ :: s.deletions }
    else s
  | none => s

def step (s : Locks T) : LockStep T → Option (Locks T)
  | .call lockKey expireSeconds timeoutSeconds token startTime => some { s with
      calls := s.calls ++ [{ lockKey, expireSeconds, timeoutSeconds, token, startTime }] }
  | .poll i monotonic => do
    let c ← s.calls[i]?
    if c.phase ≠ .polling then none
    else if monotonic - c.startTime < c.timeoutSeconds then some (s.setNx i c)
    else some (s.setPhase i c .ended)
  | .release i reached => do
    let c ← s.calls[i]?
    if c.phase ≠ .holding then none
    else
      let s := s.setPhase i c .ended
      some (if reached then s.compareAndDelete i c else s)
  | .elapse now => (s.redis.elapse now).map fun redis => { s with redis }

/-- No lock, no call. -/
def initial (now : T) : Locks T := { redis := Keyspace.empty now }

/-- The call is in its block. -/
def InBlock (calls : List (Call T)) (j : ℕ) (c : Call T) : Prop :=
  calls[j]? = some c ∧ c.phase = .holding

/-- A call gets the lock only if no other call with its key and token is in its block. -/
def Distinct (s : Locks T) : LockStep T → Prop
  | .poll i monotonic => ∀ c ∈ s.calls[i]?,
      c.phase = .polling → monotonic - c.startTime < c.timeoutSeconds → 0 < c.expireSeconds →
      s.redis.get c.lockKey = none →
      ∀ c' ∈ s.calls, c'.phase = .holding → c'.lockKey = c.lockKey → c'.token ≠ c.token
  | _ => True

instance (s : Locks T) (l : LockStep T) : Decidable (Distinct s l) := by
  cases l <;> unfold Distinct <;> infer_instance

/-- A value that no call in its block takes for its own, except its owner. -/
def Recognised (calls : List (Call T)) (lockKey : String) (held : Held) : Prop :=
  ∀ j c, InBlock calls j c → c.lockKey = lockKey → c.token = held.token → held.owner = j

structure Owned (s : Locks T) : Prop where
  redis : s.redis.Holds (Recognised s.calls)
  deletions : ∀ d ∈ s.deletions, d.owner = d.client

section Owned

variable {s s' : Locks T} {i : ℕ} {c : Call T}

omit [Ring T] [LinearOrder T] in
theorem inBlock_append {calls : List (Call T)} {new : Call T} (hnew : new.phase ≠ .holding) {j : ℕ}
    {c : Call T} (h : InBlock (calls ++ [new]) j c) : InBlock calls j c := by
  obtain ⟨hget, hphase⟩ := h
  rcases List.mem_append.mp (List.mem_of_getElem? hget) with hmem | hmem
  · refine ⟨?_, hphase⟩
    rwa [List.getElem?_append_left] at hget
    by_contra hlen
    rw [List.getElem?_append_right (Nat.not_lt.mp hlen)] at hget
    have hnew' : c = new := List.mem_singleton.mp (List.mem_of_getElem? hget)
    exact hnew (hnew' ▸ hphase)
  · exact absurd hphase (List.mem_singleton.mp hmem ▸ hnew)

omit [Ring T] [LinearOrder T] in
theorem inBlock_set {calls : List (Call T)} {i j : ℕ} {new c : Call T}
    (h : InBlock (calls.set i new) j c) : (j = i ∧ c = new) ∨ InBlock calls j c := by
  obtain ⟨hget, hphase⟩ := h
  by_cases hj : j = i
  · subst hj
    have hlen : j < (calls.set j new).length := (List.getElem?_eq_some_iff.mp hget).1
    rw [List.length_set] at hlen
    rw [List.getElem?_set_self hlen] at hget
    exact Or.inl ⟨rfl, (Option.some.inj hget).symm⟩
  · rw [List.getElem?_set_ne (Ne.symm hj)] at hget
    exact Or.inr ⟨hget, hphase⟩

omit [Ring T] [LinearOrder T] in
/-- Fewer calls in their blocks. -/
theorem Owned.sub {calls : List (Call T)} (h : Owned s)
    (hsub : ∀ j c, InBlock calls j c → InBlock s.calls j c) : Owned { s with calls } where
  redis k e he j c hj := h.redis k e he j c (hsub j c hj)
  deletions := h.deletions

omit [Ring T] [LinearOrder T] in
theorem Owned.setEnded (h : Owned s) (i : ℕ) (c : Call T) : Owned (s.setPhase i c .ended) := by
  refine h.sub fun j c' hj => ?_
  rcases inBlock_set hj with ⟨-, rfl⟩ | hold
  · exact nomatch hj.2
  · exact hold

/-- A `SET` that goes through leaves a value that only its call recognises. -/
theorem Owned.setNx (h : Owned s) (hdistinct : 0 < c.expireSeconds → s.redis.get c.lockKey = none →
      ∀ c' ∈ s.calls, c'.phase = .holding → c'.lockKey = c.lockKey → c'.token ≠ c.token) :
    Owned (s.setNx i c) := by
  unfold Locks.setNx
  split
  · exact h.setEnded i c
  · next hexpire =>
    split
    · exact h
    · next hfree =>
      refine ⟨fun k e he j c' hj hkey htoken => ?_, h.deletions⟩
      by_cases hk : k = c.lockKey
      · subst hk
        obtain rfl := Option.some.inj ((Keyspace.set_self _ _ _ _).symm.trans he)
        rcases inBlock_set hj with ⟨rfl, -⟩ | hold
        · rfl
        · exact absurd htoken (hdistinct (Int.not_le.mp hexpire) hfree c'
            (List.mem_of_getElem? hold.1) hold.2 hkey)
      · have he' := (Keyspace.set_of_ne _ _ _ hk).symm.trans he
        rcases inBlock_set hj with ⟨-, rfl⟩ | hold
        · exact absurd hkey.symm hk
        · exact h.redis k e he' j c' hold hkey htoken

omit [Ring T] in
/-- What the compare-and-delete of a call in its block finds is its own. -/
theorem Owned.compareAndDelete (h : Owned s) (hin : InBlock s.calls i c) :
    Owned ((s.setPhase i c .ended).compareAndDelete i c) := by
  have hended := h.setEnded i c
  unfold Locks.compareAndDelete
  split
  · next held hget =>
    split
    · next htoken =>
      refine ⟨hended.redis.del _, List.forall_mem_cons.mpr ⟨?_, h.deletions⟩⟩
      exact h.redis.get hget i c hin rfl htoken.symm
    · exact hended
  · exact hended

theorem owned_step {l : LockStep T} (h : Owned s) (hl : Distinct s l) (hs : step s l = some s') :
    Owned s' := by
  cases l with
  | call lockKey expireSeconds timeoutSeconds token startTime =>
    obtain rfl := Option.some.inj hs
    have hnew : Phase.polling ≠ .holding := by decide
    exact h.sub fun j c hj => inBlock_append hnew hj
  | poll i monotonic =>
    obtain ⟨c, hc, hs⟩ := Option.bind_eq_some_iff.mp hs
    obtain ⟨hphase, hs⟩ := Option.ite_none_left_eq_some.mp hs
    split at hs
    · next htime =>
      obtain rfl := Option.some.inj hs
      exact h.setNx (hl c hc (not_not.mp hphase) htime)
    · obtain rfl := Option.some.inj hs
      exact h.setEnded i c
  | release i reached =>
    obtain ⟨c, hc, hs⟩ := Option.bind_eq_some_iff.mp hs
    obtain ⟨hphase, hs⟩ := Option.ite_none_left_eq_some.mp hs
    obtain rfl := Option.some.inj hs
    cases reached with
    | true => exact h.compareAndDelete ⟨hc, not_not.mp hphase⟩
    | false => exact h.setEnded i c
  | elapse now =>
    obtain ⟨redis, hredis, rfl⟩ := Option.map_eq_some_iff.mp hs
    exact ⟨h.redis.elapse hredis, h.deletions⟩

end Owned

/-- Along every run in which no call gets the lock while another with its token is in its block, a
    compare-and-delete only deletes what its own call has stored. -/
theorem releases_own {now : T} {ls : List (LockStep T)} {s : Locks T}
    (h : Reaches step Distinct (initial now) ls s) : ∀ d ∈ s.deletions, d.owner = d.client := by
  have howned : Owned s := h.invariant Owned ⟨Keyspace.holds_empty now, fun _ hd => nomatch hd⟩
    fun _ _ _ hs hl hstep => owned_step hs hl hstep
  exact howned.deletions

/-- One lock expires under its holder, and the next call has another token. -/
def differentTokens : List (LockStep ℤ) :=
  [.call "inventory:lock:0" 10 5 "100.0" 0, .poll 0 0, .elapse 11,
    .call "inventory:lock:0" 10 5 "111.0" 11, .poll 1 11, .release 0 true, .release 1 true]

/-- The first call finds the second one's lock and leaves it. -/
theorem releases_own_differentTokens : ∃ s : Locks ℤ,
    Reaches step Distinct (initial 0) differentTokens s ∧
      s.deletions = [⟨"inventory:lock:0", 1, 1⟩] ∧ ∀ d ∈ s.deletions, d.owner = d.client := by
  have hok : AllSteps step Distinct (initial 0) differentTokens := by decide +kernel
  have hend : ∃ s ∈ runFrom step (initial 0) differentTokens,
      s.deletions = [⟨"inventory:lock:0", 1, 1⟩] := ⟨_, rfl, rfl⟩
  obtain ⟨s, hreaches, hdeletions⟩ := reaches_where hok hend
  exact ⟨s, hreaches, hdeletions, releases_own hreaches⟩

/-- A step that is not `Distinct`: the call in its block goes on to delete the other one's lock. -/
theorem deletes_other [IsStrictOrderedRing T] {s : Locks T} {i j : ℕ} {c c' : Call T}
    {monotonic : T} (hc : s.calls[i]? = some c) (hphase : c.phase = .polling)
    (htime : monotonic - c.startTime < c.timeoutSeconds) (hexpire : 0 < c.expireSeconds)
    (hfree : s.redis.get c.lockKey = none) (hj : InBlock s.calls j c')
    (hkey : c'.lockKey = c.lockKey) (htoken : c'.token = c.token) :
    ∃ t u, step s (.poll i monotonic) = some t ∧ step t (.release j true) = some u ∧
      ⟨c.lockKey, j, i⟩ ∈ u.deletions := by
  have hne : i ≠ j := by
    rintro rfl
    obtain rfl := Option.some.inj (hc.symm.trans hj.1)
    exact nomatch hphase.symm.trans hj.2
  have hset : s.setNx i c = { s.setPhase i c .holding with
      redis := s.redis.set c.lockKey ⟨c.token, i⟩ (some c.expireSeconds) } := by
    unfold Locks.setNx
    rw [if_neg (Int.not_le.mpr hexpire), hfree]
  have hpoll : step s (.poll i monotonic) = some (s.setNx i c) := by
    simp [step, hc, hphase, htime]
  have hheld : (s.setNx i c).redis.get c'.lockKey = some ⟨c.token, i⟩ := by
    rw [hset, hkey]
    exact Keyspace.get_set_self s.redis c.lockKey ⟨c.token, i⟩ hexpire
  have hcall : (s.setNx i c).calls[j]? = some c' := by
    rw [hset]
    exact (List.getElem?_set_ne hne).trans hj.1
  have hrelease : step (s.setNx i c) (.release j true) =
      some (((s.setNx i c).setPhase j c' .ended).compareAndDelete j c') := by
    simp [step, hcall, hj.2]
  refine ⟨_, _, hpoll, hrelease, ?_⟩
  have hheld' : ((s.setNx i c).setPhase j c' .ended).redis.get c'.lockKey = some ⟨c.token, i⟩ :=
    hheld
  unfold Locks.compareAndDelete
  rw [hheld']
  dsimp only
  rw [if_pos htoken.symm, ← hkey]
  exact List.mem_cons_self

/-- The clocks of two hosts agree: when the second call gets the lock, the first one's has
    expired. -/
def equalClocks : List (LockStep ℤ) :=
  [.call "inventory:lock:0" 10 5 "100.0" 0, .poll 0 0, .elapse 11,
    .call "inventory:lock:0" 10 5 "100.0" 11, .poll 1 11, .release 0 true]

/-- A call can delete another's lock; with equal readings it does. -/
theorem equal_clocks : ¬ ∀ (ls : List (LockStep ℤ)) (s : Locks ℤ),
    Reaches step anyStep (initial 0) ls s → ∀ d ∈ s.deletions, d.owner = d.client := by
  intro hevery
  have hrun : ∃ s, runFrom step (initial 0) equalClocks = some s ∧
      s.deletions = [⟨"inventory:lock:0", 0, 1⟩] := ⟨_, rfl, rfl⟩
  obtain ⟨s, hs, hdeletions⟩ := hrun
  have hown := hevery equalClocks s (reaches_run hs) ⟨"inventory:lock:0", 0, 1⟩
    (by simp [hdeletions])
  exact absurd hown (by decide)

end CloudScale.InventoryService.LockOwners
