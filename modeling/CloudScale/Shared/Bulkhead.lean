/-
  Bulkheads (`cloudscale_shared/resilience.py`): calls that share a semaphore of `asyncio`, and the
  gauge of those under way.

  Nothing is awaited between `locked()` and the acquisition of a semaphore that is not locked, so a
  call is admitted or refused in one step. The semaphore would let a call wait; `bulkheads_run` has
  that none ever does. Bulkheads of one name share their gauge.
-/
import Mathlib.Algebra.Order.Group.Int
import Mathlib.Data.List.Perm.Basic
import CloudScale.Lib.Run

namespace CloudScale.Shared

open CloudScale.Lib

/-! ## `asyncio.Semaphore` -/

structure Semaphore where
  value : ℕ
  waiters : ℕ := 0

def Semaphore.locked (s : Semaphore) : Bool := s.value = 0 || s.waiters ≠ 0

/-- Whether the caller goes on at once. -/
def Semaphore.acquire (s : Semaphore) : Semaphore × Bool :=
  if s.locked then ({ s with waiters := s.waiters + 1 }, false)
  else ({ s with value := s.value - 1 }, true)

/-- Whether a caller that waited goes on. -/
def Semaphore.release (s : Semaphore) : Semaphore × Bool :=
  if s.waiters = 0 then ({ s with value := s.value + 1 }, false)
  else ({ s with waiters := s.waiters - 1 }, true)

/-! ## Bulkheads -/

structure Bulkhead where
  name : String
  maxConcurrent : ℕ
  semaphore : Semaphore

/-- The bulkheads of a process, the two gauges, the bulkhead of each call under way, and the
    exceptions that were raised. -/
structure Bulkheads where
  all : List Bulkhead := []
  utilization : String → ℤ := fun _ => 0
  limits : String → Option ℕ := fun _ => none
  running : List ℕ := []
  exceeded : List String := []

def addTo (gauge : String → ℤ) (name : String) (d : ℤ) : String → ℤ :=
  fun n => if n = name then gauge n + d else gauge n

def Bulkhead.message (b : Bulkhead) : String :=
  "Bulkhead " ++ b.name ++ " reached limit capacity of " ++ toString b.maxConcurrent

/-- `Bulkhead(name, max_concurrent)` -/
def Bulkheads.create (w : Bulkheads) (name : String) (maxConcurrent : ℕ) : Bulkheads :=
  { w with
    all := w.all ++ [⟨name, maxConcurrent, { value := maxConcurrent }⟩]
    limits := fun n => if n = name then some maxConcurrent else w.limits n }

/-- `execute`, up to the end of the acquisition or to the wait for it. -/
def Bulkheads.execute (w : Bulkheads) (i : ℕ) (b : Bulkhead) : Bulkheads :=
  if b.semaphore.locked then { w with exceeded := b.message :: w.exceeded }
  else
    let (semaphore, now) := b.semaphore.acquire
    { w with
      all := w.all.set i { b with semaphore }
      utilization := addTo w.utilization b.name 1
      running := if now then w.running ++ [i] else w.running }

/-- The rest of `execute`, when the coroutine of a call is done, whatever its end. -/
def Bulkheads.finish (w : Bulkheads) (i : ℕ) (b : Bulkhead) : Bulkheads :=
  let (semaphore, next) := b.semaphore.release
  { w with
    all := w.all.set i { b with semaphore }
    utilization := addTo w.utilization b.name (-1)
    running := if next then w.running ++ [i] else w.running }

/-- A bulkhead is made, a call of a function under the `i`-th begins, the `j`-th call under way
    returns, raises or is cancelled. -/
inductive BulkheadLabel where
  | create (name : String) (maxConcurrent : ℕ)
  | execute (i : ℕ)
  | finish (j : ℕ)

def Bulkheads.step (w : Bulkheads) : BulkheadLabel → Option Bulkheads
  | .create name maxConcurrent => some (w.create name maxConcurrent)
  | .execute i => (w.all[i]?).map (w.execute i)
  | .finish j =>
    match w.running[j]? with
    | none => none
    | some i =>
      (w.all[i]?).map fun b => ({ w with running := w.running.eraseIdx j } : Bulkheads).finish i b

/-! ## The invariant -/

def Bulkheads.active (w : Bulkheads) (i : ℕ) : ℕ := w.running.count i

/-- The calls under way in the bulkheads of a name. -/
def Bulkheads.activeOf (w : Bulkheads) (name : String) : ℕ :=
  w.running.countP fun i => (w.all[i]?).any fun b => b.name = name

structure Bulkheads.Balanced (w : Bulkheads) : Prop where
  permits : ∀ i b, w.all[i]? = some b →
    b.semaphore.waiters = 0 ∧ b.semaphore.value + w.active i = b.maxConcurrent
  known : ∀ i ∈ w.running, i < w.all.length
  gauge : ∀ name, w.utilization name = w.activeOf name

theorem locked_iff {s : Semaphore} (h : s.waiters = 0) : s.locked = true ↔ s.value = 0 := by
  simp [Semaphore.locked, h]

/-- A bulkhead keeps its name when its semaphore changes. -/
theorem any_set {all : List Bulkhead} {i : ℕ} {b : Bulkhead} (h : all[i]? = some b)
    (semaphore : Semaphore) (name : String) (j : ℕ) :
    ((all.set i { b with semaphore })[j]?).any (fun b => b.name = name) =
      (all[j]?).any fun b => b.name = name := by
  obtain ⟨hi, hb⟩ := List.getElem?_eq_some_iff.mp h
  by_cases hij : i = j
  · subst hij
    rw [List.getElem?_set_self hi, h]
    rfl
  · rw [List.getElem?_set_ne hij]

section Steps

variable {w : Bulkheads} {i : ℕ} {b : Bulkhead}

theorem create_balanced (hw : w.Balanced) (name : String) (maxConcurrent : ℕ) :
    (w.create name maxConcurrent).Balanced := by
  refine ⟨fun i b hb => ?_, fun i hi => ?_, fun n => ?_⟩
  · rcases Nat.lt_or_ge i w.all.length with hlt | hge
    · exact hw.permits i b ((List.getElem?_append_left hlt).symm.trans hb)
    · have hlast : [(⟨name, maxConcurrent, { value := maxConcurrent }⟩ : Bulkhead)][
          i - w.all.length]? = some b := (List.getElem?_append_right hge).symm.trans hb
      rw [List.getElem?_singleton] at hlast
      split at hlast
      · obtain rfl := Option.some.inj hlast
        have hnone : w.running.count i = 0 :=
          List.count_eq_zero.mpr fun h => Nat.not_lt.mpr hge (hw.known i h)
        exact ⟨rfl, by simp [Bulkheads.active, Bulkheads.create, hnone]⟩
      · cases hlast
  · have := hw.known i hi
    simp only [Bulkheads.create, List.length_append]
    omega
  · refine (hw.gauge n).trans (congrArg Nat.cast (List.countP_congr fun i hi => ?_))
    rw [Bulkheads.create, List.getElem?_append_left (hw.known i hi)]

/-- One more call, or one less, and the permit that goes with it. -/
theorem permits_set (hw : w.Balanced) (h : w.all[i]? = some b) {value : ℕ} {running : List ℕ}
    (hvalue : value + running.count i = b.semaphore.value + w.running.count i)
    (hothers : ∀ j, j ≠ i → running.count j = w.running.count j) :
    ∀ j c, (w.all.set i { b with semaphore := { value } })[j]? = some c →
      c.semaphore.waiters = 0 ∧ c.semaphore.value + running.count j = c.maxConcurrent := by
  obtain ⟨hi, -⟩ := List.getElem?_eq_some_iff.mp h
  intro j c hc
  by_cases hij : i = j
  · subst hij
    rw [List.getElem?_set_self hi] at hc
    obtain rfl := Option.some.inj hc
    exact ⟨rfl, hvalue.trans (hw.permits i b h).2⟩
  · rw [List.getElem?_set_ne hij] at hc
    have hold := hw.permits j c hc
    exact ⟨hold.1, by rw [hothers j (Ne.symm hij)]; exact hold.2⟩

/-- A call is admitted while there is room, and refused otherwise; none waits. -/
theorem execute_eq (hw : w.Balanced) (h : w.all[i]? = some b) :
    w.execute i b =
      if w.active i < b.maxConcurrent then
        { w with
          all := w.all.set i { b with semaphore := { value := b.semaphore.value - 1 } }
          utilization := addTo w.utilization b.name 1, running := w.running ++ [i] }
      else { w with exceeded := b.message :: w.exceeded } := by
  obtain ⟨hwaiters, hpermits⟩ := hw.permits i b h
  by_cases hlocked : b.semaphore.locked = true
  · have hzero := (locked_iff hwaiters).mp hlocked
    rw [Bulkheads.execute, if_pos hlocked, if_neg (by omega)]
  · have hzero : b.semaphore.value ≠ 0 := fun hz => hlocked ((locked_iff hwaiters).mpr hz)
    rw [Bulkheads.execute, if_neg hlocked, if_pos (by omega), Semaphore.acquire, if_neg hlocked,
      hwaiters]
    rfl

theorem finish_eq (h : b.semaphore.waiters = 0) :
    w.finish i b =
      { w with
        all := w.all.set i { b with semaphore := { value := b.semaphore.value + 1 } }
        utilization := addTo w.utilization b.name (-1) } := by
  rw [Bulkheads.finish, Semaphore.release, if_pos h, h]
  rfl

theorem execute_balanced (hw : w.Balanced) (h : w.all[i]? = some b) : (w.execute i b).Balanced := by
  obtain ⟨hi, -⟩ := List.getElem?_eq_some_iff.mp h
  have hpermits := (hw.permits i b h).2
  rw [execute_eq hw h]
  split
  · next hroom =>
    refine ⟨permits_set hw h ?_ ?_, fun j hj => ?_, fun name => ?_⟩
    · simp only [Bulkheads.active] at hpermits hroom
      rw [List.count_append, List.count_singleton_self]
      omega
    · intro j hj
      rw [List.count_append, List.count_singleton, beq_false_of_ne (Ne.symm hj)]
      rfl
    · rw [List.length_set]
      rcases List.mem_append.mp hj with hj | hj
      · exact hw.known j hj
      · rwa [List.mem_singleton.mp hj]
    · simp only [addTo, Bulkheads.activeOf, any_set h, List.countP_append, List.countP_singleton, h,
        Option.any_some, decide_eq_true_eq, hw.gauge name]
      by_cases hname : name = b.name
      · simp [hname]
      · simp [hname, Ne.symm hname]
  · exact ⟨hw.permits, hw.known, hw.gauge⟩

/-- A call that ends gives back what it took. -/
theorem finish_balanced (hw : w.Balanced) (h : w.all[i]? = some b) {j : ℕ}
    (hj : w.running[j]? = some i) :
    (({ w with running := w.running.eraseIdx j } : Bulkheads).finish i b).Balanced := by
  obtain ⟨hlt, hget⟩ := List.getElem?_eq_some_iff.mp hj
  have hperm : (i :: w.running.eraseIdx j).Perm w.running :=
    hget ▸ List.getElem_cons_eraseIdx_perm hlt
  rw [finish_eq (hw.permits i b h).1]
  refine ⟨permits_set hw h ?_ ?_, fun k hk => ?_, fun name => ?_⟩
  · have hcount := hperm.count_eq i
    rw [List.count_cons_self] at hcount
    simp only
    omega
  · intro k hk
    have hcount := hperm.count_eq k
    rwa [List.count_cons_of_ne (Ne.symm hk)] at hcount
  · rw [List.length_set]
    exact hw.known k (List.mem_of_mem_eraseIdx hk)
  · have hcount := hperm.countP_eq fun k => (w.all[k]?).any fun b => b.name = name
    simp only [List.countP_cons, h, Option.any_some, decide_eq_true_eq] at hcount
    simp only [addTo, Bulkheads.activeOf, any_set h, hw.gauge name]
    by_cases hname : name = b.name
    · rw [if_pos hname.symm] at hcount
      rw [if_pos hname]
      omega
    · rw [if_neg (Ne.symm hname)] at hcount
      rw [if_neg hname]
      omega

theorem step_balanced {l : BulkheadLabel} {w' : Bulkheads} (hw : w.Balanced)
    (hs : w.step l = some w') : w'.Balanced := by
  cases l with
  | create name maxConcurrent =>
    obtain rfl := Option.some.inj hs
    exact create_balanced hw name maxConcurrent
  | execute i =>
    obtain ⟨b, hb, rfl⟩ := Option.map_eq_some_iff.mp hs
    exact execute_balanced hw hb
  | finish j =>
    simp only [Bulkheads.step] at hs
    split at hs
    · cases hs
    · next i hi =>
      obtain ⟨b, hb, rfl⟩ := Option.map_eq_some_iff.mp hs
      exact finish_balanced hw hb hi

end Steps

/-! ## Runs -/

/-- In every state of a run: no bulkhead has more calls under way than it may, or one that waits;
    the permits and the calls make up its capacity; a gauge shows the calls of its name; a call is
    refused exactly at capacity. -/
theorem bulkheads_run {l : List BulkheadLabel} {w : Bulkheads}
    (h : runFrom Bulkheads.step {} l = some w) :
    (∀ i b, w.all[i]? = some b → b.semaphore.waiters = 0 ∧ w.active i ≤ b.maxConcurrent ∧
      b.semaphore.value + w.active i = b.maxConcurrent ∧
      ∀ w', w.step (.execute i) = some w' →
        w'.exceeded =
            (if w.active i = b.maxConcurrent then b.message :: w.exceeded else w.exceeded) ∧
          w'.active i = min (w.active i + 1) b.maxConcurrent) ∧
      ∀ name, w.utilization name = w.activeOf name := by
  have hfirst : ({} : Bulkheads).Balanced :=
    ⟨fun _ _ hb => (by cases hb), fun _ hi => (by cases hi), fun _ => rfl⟩
  have hw : w.Balanced := (reaches_run h).invariant Bulkheads.Balanced hfirst
    fun _ _ _ hw _ hs => step_balanced hw hs
  refine ⟨fun i b hb => ?_, hw.gauge⟩
  obtain ⟨hwaiters, hpermits⟩ := hw.permits i b hb
  refine ⟨hwaiters, by omega, hpermits, fun w' hs => ?_⟩
  obtain ⟨b', hb', rfl⟩ := Option.map_eq_some_iff.mp hs
  obtain rfl := Option.some.inj (hb.symm.trans hb')
  rw [execute_eq hw hb]
  by_cases hroom : w.active i < b.maxConcurrent
  · rw [if_pos hroom, if_neg (by omega)]
    refine ⟨rfl, ?_⟩
    have hcount : (w.running ++ [i]).count i = w.running.count i + 1 := by
      rw [List.count_append, List.count_singleton_self]
    simp only [Bulkheads.active] at hroom ⊢
    omega
  · rw [if_neg hroom, if_pos (by omega)]
    refine ⟨rfl, ?_⟩
    simp only [Bulkheads.active] at hroom hpermits ⊢
    omega

/-- Two calls at a bulkhead of one. -/
theorem bulkheads_run_full : ∃ w, runFrom Bulkheads.step {}
    [.create "search" 1, .execute 0, .execute 0] = some w ∧ w.utilization "search" = 1 := by
  refine ⟨_, rfl, ?_⟩
  exact (bulkheads_run (l := [.create "search" 1, .execute 0, .execute 0]) rfl).2 "search"

end CloudScale.Shared
