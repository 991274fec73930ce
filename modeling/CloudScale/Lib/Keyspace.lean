/-
  A store of values whose entries may expire, with its clock.

  `get` sees an entry as long as it is live; `set` stores a value from now on, for ever or for a
  number of seconds; `elapse` moves the clock, never back. An entry that has expired stays in
  `entries`, where a proof can see that it was there: no answer depends on it.

  Scope: an entry is still there at the instant at which it expires, and gone after it. The store
  drops nothing before that, and one clock, which may be as fine as one likes, serves all commands;
  a real store counts in milliseconds. `SET` with a time to live that is not positive, which a real
  store refuses, is for its users to keep away from.
-/
import Mathlib.Algebra.Order.Ring.Cast
import Mathlib.Data.Int.Cast.Defs
import Mathlib.Logic.Function.Basic

namespace CloudScale.Lib

variable {κ ν T : Type}

/-- A value, and when it expires if it does. -/
structure Stored (ν T : Type) where
  value : ν
  expiry : Option T

structure Keyspace (κ ν T : Type) where
  now : T
  entries : κ → Option (Stored ν T)

def Keyspace.empty (now : T) : Keyspace κ ν T := { now, entries := fun _ => none }

section Clock

variable [LinearOrder T]

/-- The entry has not expired; it has not at the very instant of its expiry. -/
def Stored.live (e : Stored ν T) (now : T) : Bool := e.expiry.all fun t => decide (now ≤ t)

/-- `GET`. -/
def Keyspace.get (s : Keyspace κ ν T) (k : κ) : Option ν :=
  (s.entries k).bind fun e => if e.live s.now then some e.value else none

/-- Time passes. -/
def Keyspace.elapse (t : T) (s : Keyspace κ ν T) : Option (Keyspace κ ν T) :=
  if s.now ≤ t then some { s with now := t } else none

theorem Keyspace.elapse_eq_some {s s' : Keyspace κ ν T} {t : T} (h : s.elapse t = some s') :
    s.now ≤ t ∧ s' = { s with now := t } := by
  obtain ⟨hle, hs⟩ := Option.ite_none_right_eq_some.mp h
  exact ⟨hle, (Option.some.inj hs).symm⟩

/-- A key that was never stored has no value. -/
theorem Keyspace.get_of_absent {s : Keyspace κ ν T} {k : κ} (h : s.entries k = none) :
    s.get k = none := by
  unfold Keyspace.get
  rw [h]
  rfl

theorem Keyspace.get_of_live {s : Keyspace κ ν T} {k : κ} {e : Stored ν T}
    (h : s.entries k = some e) (hlive : e.live s.now = true) : s.get k = some e.value := by
  unfold Keyspace.get
  rw [h, Option.bind_some, if_pos hlive]

end Clock

section Commands

variable [DecidableEq κ]

/-- `SET`, with `EX` when a number of seconds is given. -/
def Keyspace.set [Add T] [IntCast T] (s : Keyspace κ ν T) (k : κ) (v : ν) (ex : Option Int) :
    Keyspace κ ν T :=
  { s with
    entries := Function.update s.entries k (some ⟨v, ex.map fun ttl => s.now + (ttl : T)⟩) }

/-- `DEL`. -/
def Keyspace.del (s : Keyspace κ ν T) (k : κ) : Keyspace κ ν T :=
  { s with entries := Function.update s.entries k none }

section Entries

variable [Add T] [IntCast T] (s : Keyspace κ ν T) (k : κ) (v : ν) (ex : Option Int)

@[simp] theorem Keyspace.set_now : (s.set k v ex).now = s.now := rfl

@[simp] theorem Keyspace.set_self :
    (s.set k v ex).entries k = some ⟨v, ex.map fun ttl => s.now + (ttl : T)⟩ :=
  Function.update_self _ _ _

variable {k} in
theorem Keyspace.set_of_ne {k' : κ} (h : k' ≠ k) : (s.set k v ex).entries k' = s.entries k' :=
  Function.update_of_ne h _ _

end Entries

@[simp] theorem Keyspace.del_self (s : Keyspace κ ν T) (k : κ) : (s.del k).entries k = none :=
  Function.update_self _ _ _

theorem Keyspace.del_of_ne (s : Keyspace κ ν T) {k k' : κ} (h : k' ≠ k) :
    (s.del k).entries k' = s.entries k' :=
  Function.update_of_ne h _ _

end Commands

/-! ## Counters -/

section Counters

variable [LinearOrder T] [DecidableEq κ]

/-- What `INCR` leaves: a live counter keeps its expiry, a new one has none. -/
def Keyspace.bumped (s : Keyspace κ ℕ T) (k : κ) : Stored ℕ T :=
  match s.entries k with
  | some e => if e.live s.now then { e with value := e.value + 1 } else ⟨1, none⟩
  | none => ⟨1, none⟩

/-- `INCR`. -/
def Keyspace.incr (s : Keyspace κ ℕ T) (k : κ) : Keyspace κ ℕ T :=
  { s with entries := Function.update s.entries k (some (s.bumped k)) }

/-- `EXPIRE`; nothing happens to a key that is not there, and one with no time left is deleted. -/
def Keyspace.expire [Add T] [IntCast T] (s : Keyspace κ ν T) (k : κ) (ttl : Int) :
    Keyspace κ ν T :=
  match s.entries k with
  | some e =>
    if e.live s.now then
      if 0 < ttl then
        { s with entries :=
            Function.update s.entries k (some { e with expiry := some (s.now + (ttl : T)) }) }
      else s.del k
    else s
  | none => s

@[simp] theorem Keyspace.incr_self (s : Keyspace κ ℕ T) (k : κ) :
    (s.incr k).entries k = some (s.bumped k) := Function.update_self _ _ _

theorem Keyspace.incr_of_ne (s : Keyspace κ ℕ T) {k k' : κ} (h : k' ≠ k) :
    (s.incr k).entries k' = s.entries k' := Function.update_of_ne h _ _

theorem Keyspace.expire_of_ne [Add T] [IntCast T] (s : Keyspace κ ν T) {k k' : κ} (ttl : Int)
    (h : k' ≠ k) : (s.expire k ttl).entries k' = s.entries k' := by
  unfold Keyspace.expire
  split
  · split
    · split
      · exact Function.update_of_ne h _ _
      · exact s.del_of_ne h
    · rfl
  · rfl

/-- A live key gets the time to live. -/
theorem Keyspace.expire_of_live [Add T] [IntCast T] {s : Keyspace κ ν T} {k : κ} {e : Stored ν T}
    (h : s.entries k = some e) (hlive : e.live s.now = true) {ttl : Int} (hpos : 0 < ttl) :
    (s.expire k ttl).entries k = some { e with expiry := some (s.now + (ttl : T)) } := by
  unfold Keyspace.expire
  rw [h]
  dsimp only
  rw [if_pos hlive, if_pos hpos]
  exact Function.update_self _ _ _

/-- A live key without a time to live is deleted. -/
theorem Keyspace.expire_of_nonpos [Add T] [IntCast T] {s : Keyspace κ ν T} {k : κ} {e : Stored ν T}
    (h : s.entries k = some e) (hlive : e.live s.now = true) {ttl : Int} (hpos : ¬ 0 < ttl) :
    s.expire k ttl = s.del k := by
  unfold Keyspace.expire
  rw [h]
  dsimp only
  rw [if_pos hlive, if_neg hpos]

theorem Keyspace.expire_of_get_none [Add T] [IntCast T] {s : Keyspace κ ν T} {k : κ}
    (h : s.get k = none) (ttl : Int) : s.expire k ttl = s := by
  unfold Keyspace.expire
  split
  · next e he =>
    refine if_neg fun hlive => ?_
    rw [Keyspace.get_of_live he hlive] at h
    cases h
  · rfl

omit [DecidableEq κ] in
/-- A live counter goes up. -/
theorem Keyspace.bumped_of_live {s : Keyspace κ ℕ T} {k : κ} {e : Stored ℕ T}
    (h : s.entries k = some e) (hlive : e.live s.now = true) :
    s.bumped k = { e with value := e.value + 1 } := by
  unfold Keyspace.bumped
  rw [h]
  exact if_pos hlive

omit [DecidableEq κ] in
/-- A counter that is not there starts at 1, without an expiry. -/
theorem Keyspace.bumped_of_get_none {s : Keyspace κ ℕ T} {k : κ} (h : s.get k = none) :
    s.bumped k = ⟨1, none⟩ := by
  unfold Keyspace.bumped
  split
  · next e he =>
    refine if_neg fun hlive => ?_
    rw [Keyspace.get_of_live he hlive] at h
    cases h
  · rfl

end Counters

/-! ## Entries without expiry -/

/-- The key is there and never expires. -/
def Keyspace.Permanent (s : Keyspace κ ν T) (k : κ) : Prop :=
  ∃ e, s.entries k = some e ∧ e.expiry = none

theorem Stored.live_of_permanent [LinearOrder T] {e : Stored ν T} (h : e.expiry = none) (now : T) :
    e.live now = true := by
  unfold Stored.live
  rw [h]
  rfl

section Permanent

variable [DecidableEq κ] {k k' : κ}

theorem Keyspace.permanent_del {s : Keyspace κ ν T} (h : (s.del k).Permanent k') :
    s.Permanent k' := by
  obtain ⟨e, he, hexpiry⟩ := h
  by_cases hne : k' = k
  · subst hne
    rw [Keyspace.del_self] at he
    cases he
  · rw [Keyspace.del_of_ne s hne] at he
    exact ⟨e, he, hexpiry⟩

variable [LinearOrder T]

/-- A counter that is permanent after `INCR` was so before, or it is new. -/
theorem Keyspace.permanent_incr {s : Keyspace κ ℕ T} (h : (s.incr k).Permanent k) :
    s.Permanent k ∨ (s.bumped k).value = 1 := by
  obtain ⟨e, he, hexpiry⟩ := h
  rw [Keyspace.incr_self] at he
  obtain rfl := Option.some.inj he
  cases hget : s.get k with
  | none => exact Or.inr (by rw [Keyspace.bumped_of_get_none hget])
  | some v =>
    obtain ⟨e, he, hlive⟩ := Option.bind_eq_some_iff.mp hget
    rw [Keyspace.bumped_of_live he (Option.ite_none_right_eq_some.mp hlive).1] at hexpiry
    exact Or.inl ⟨e, he, hexpiry⟩

theorem Keyspace.permanent_incr_of_ne {s : Keyspace κ ℕ T} (hne : k' ≠ k)
    (h : (s.incr k).Permanent k') : s.Permanent k' := by
  unfold Keyspace.Permanent at h
  rw [Keyspace.incr_of_ne s hne] at h
  exact h

/-- After `EXPIRE` the key is not permanent, and every other is as it was. -/
theorem Keyspace.permanent_expire [Add T] [IntCast T] {s : Keyspace κ ν T} {ttl : Int}
    (h : (s.expire k ttl).Permanent k') : k' ≠ k ∧ s.Permanent k' := by
  obtain ⟨e, he, hexpiry⟩ := h
  by_cases hne : k' = k
  · subst hne
    cases hget : s.get k' with
    | none =>
      rw [Keyspace.expire_of_get_none hget] at he
      rw [Keyspace.get_of_live he (Stored.live_of_permanent hexpiry s.now)] at hget
      cases hget
    | some v =>
      obtain ⟨e', he', hsome⟩ := Option.bind_eq_some_iff.mp hget
      have hlive := (Option.ite_none_right_eq_some.mp hsome).1
      by_cases hpos : 0 < ttl
      · rw [Keyspace.expire_of_live he' hlive hpos] at he
        rw [← Option.some.inj he] at hexpiry
        cases hexpiry
      · rw [Keyspace.expire_of_nonpos he' hlive hpos, Keyspace.del_self] at he
        cases he
  · rw [Keyspace.expire_of_ne s ttl hne] at he
    exact ⟨hne, e, he, hexpiry⟩

end Permanent

section Reading

variable [LinearOrder T] [DecidableEq κ]

/-- A value is there once it is set, if it is to live. -/
theorem Keyspace.get_set_self [Ring T] [IsStrictOrderedRing T] (s : Keyspace κ ν T) (k : κ) (v : ν)
    {ex : Int} (h : 0 < ex) : (s.set k v (some ex)).get k = some v := by
  refine Keyspace.get_of_live (s.set_self k v (some ex)) (decide_eq_true ?_)
  exact le_add_of_nonneg_right (Int.cast_nonneg h.le)

theorem Keyspace.get_set_of_ne [Add T] [IntCast T] (s : Keyspace κ ν T) {k k' : κ} (v : ν)
    (ex : Option Int) (h : k' ≠ k) : (s.set k v ex).get k' = s.get k' := by
  unfold Keyspace.get
  rw [s.set_of_ne v ex h, Keyspace.set_now]

theorem Keyspace.get_del_of_ne (s : Keyspace κ ν T) {k k' : κ} (h : k' ≠ k) :
    (s.del k).get k' = s.get k' := by
  unfold Keyspace.get
  rw [s.del_of_ne h]
  rfl

/-- A counter is one more after `INCR`. -/
theorem Keyspace.get_incr_self (s : Keyspace κ ℕ T) (k : κ) :
    (s.incr k).get k = some ((s.get k).getD 0 + 1) := by
  have hlive : (s.bumped k).live s.now = true ∧ (s.bumped k).value = (s.get k).getD 0 + 1 := by
    cases hget : s.get k with
    | none =>
      rw [Keyspace.bumped_of_get_none hget]
      exact ⟨rfl, rfl⟩
    | some v =>
      obtain ⟨e, he, hsome⟩ := Option.bind_eq_some_iff.mp hget
      obtain ⟨hlive, hvalue⟩ := Option.ite_none_right_eq_some.mp hsome
      rw [Keyspace.bumped_of_live he hlive, Option.some.inj hvalue]
      exact ⟨hlive, rfl⟩
  rw [Keyspace.get_of_live (s.incr_self k) hlive.1, hlive.2]

theorem Keyspace.get_incr_of_ne (s : Keyspace κ ℕ T) {k k' : κ} (h : k' ≠ k) :
    (s.incr k).get k' = s.get k' := by
  unfold Keyspace.get
  rw [s.incr_of_ne h]
  rfl

/-- A time to live changes no value, if it is positive. -/
theorem Keyspace.get_expire [Ring T] [IsStrictOrderedRing T] (s : Keyspace κ ν T) (k k' : κ)
    {ttl : Int} (h : 0 < ttl) : (s.expire k ttl).get k' = s.get k' := by
  have hnow : (s.expire k ttl).now = s.now := by
    unfold Keyspace.expire
    repeat' split
    all_goals rfl
  by_cases hk : k' = k
  · subst hk
    cases hget : s.get k' with
    | none => rw [Keyspace.expire_of_get_none hget, hget]
    | some v =>
      obtain ⟨e, he, hsome⟩ := Option.bind_eq_some_iff.mp hget
      obtain ⟨hlive, hvalue⟩ := Option.ite_none_right_eq_some.mp hsome
      rw [Keyspace.get_of_live (Keyspace.expire_of_live he hlive h), ← hvalue]
      rw [hnow]
      exact decide_eq_true (le_add_of_nonneg_right (Int.cast_nonneg h.le))
  · unfold Keyspace.get
    rw [s.expire_of_ne ttl hk, hnow]

end Reading

/-! ## What holds of every entry -/

section Holds

variable {good : κ → ν → Prop} {s : Keyspace κ ν T} {k : κ} {v : ν}

/-- Every value is good for its key, also one that has expired. -/
def Keyspace.Holds (good : κ → ν → Prop) (s : Keyspace κ ν T) : Prop :=
  ∀ k e, s.entries k = some e → good k e.value

theorem Keyspace.holds_empty (now : T) : (Keyspace.empty now : Keyspace κ ν T).Holds good :=
  fun _ _ he => by cases he

theorem Keyspace.Holds.get [LinearOrder T] (h : s.Holds good) (hget : s.get k = some v) :
    good k v := by
  obtain ⟨e, he, hvalue⟩ := Option.bind_eq_some_iff.mp hget
  obtain ⟨-, hvalue⟩ := Option.ite_none_right_eq_some.mp hvalue
  exact Option.some.inj hvalue ▸ h k e he

theorem Keyspace.Holds.elapse [LinearOrder T] (h : s.Holds good) {t : T} {s' : Keyspace κ ν T}
    (helapse : s.elapse t = some s') : s'.Holds good := by
  obtain ⟨-, rfl⟩ := Keyspace.elapse_eq_some helapse
  exact h

variable [DecidableEq κ]

theorem Keyspace.Holds.set [Add T] [IntCast T] (h : s.Holds good) (hv : good k v)
    (ex : Option Int) : (s.set k v ex).Holds good := by
  intro k' e he
  by_cases hk : k' = k
  · subst hk
    obtain rfl := Option.some.inj ((s.set_self _ _ _).symm.trans he)
    exact hv
  · exact h k' e ((s.set_of_ne _ _ hk).symm.trans he)

theorem Keyspace.Holds.del (h : s.Holds good) (k : κ) : (s.del k).Holds good := by
  intro k' e he
  by_cases hk : k' = k
  · subst hk
    exact absurd ((s.del_self _).symm.trans he) nofun
  · exact h k' e ((s.del_of_ne hk).symm.trans he)

end Holds

end CloudScale.Lib
