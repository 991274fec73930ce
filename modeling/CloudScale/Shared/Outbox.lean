/-
  The outbox worker (`cloudscale_shared/outbox.py`): batches of unprocessed records, published in
  the order of `created_at`, with a failure counter.

  A step of `Outbox` is a poll (`_process_batch`) or the insertion of a committed record. In a
  poll the environment decides which order rows of equal `created_at` come in, which sends are
  acknowledged, whether the process dies on the way and whether the commit goes through. `acked`
  is the log of acknowledged ids and `failed` the log of committed failures, both in the order
  they happened.

  `step_cases` is the one description of what a step does. What follows from it is in
  `OutboxDelivery` (which records are published, and when) and `OutboxOrder` (in which order).
-/
import Mathlib.Data.List.Nodup
import CloudScale.Lib.Run
import CloudScale.Shared.Events

namespace CloudScale.Shared

open CloudScale.Lib

/-! ## The worker -/

/-- A row of the outbox table, with the columns the worker reads. -/
structure OutboxMessage where
  id : ℕ
  topic : String
  key : Option String
  payload : String
  createdAt : ℕ
  processed : Bool := false
  retryCount : ℕ := 0
deriving DecidableEq

/-- A table with its primary key. -/
structure OutboxTable where
  rows : List OutboxMessage
  nodup : (rows.map (·.id)).Nodup

/-- What the worker is configured with; `loads` is `Event(**json.loads(payload))`, where `none`
    is an exception. -/
structure OutboxWorker where
  loads : String → Option Event
  batchSize : ℕ
  maxRetries : ℕ

/-- The table, what was published before the run and what happened since. -/
structure Outbox where
  table : OutboxTable
  before : List ℕ
  acked : List ℕ
  failed : List ℕ

/-- A poll: the order of the eligible rows, the acknowledgements, and after how many records the
    process died, if it did (a failed commit is a death after the last record). -/
inductive OutboxLabel where
  | insert (r : OutboxMessage)
  | poll (order : List OutboxMessage) (acks : ℕ → Bool) (died : Option ℕ)

namespace OutboxWorker

variable (w : OutboxWorker)

/-- The `where` clause of the fetch. -/
def eligible (r : OutboxMessage) : Bool := !r.processed && decide (r.retryCount < w.maxRetries)

/-- `order` lists the eligible rows by `created_at`; rows of equal `created_at` may come in any
    order. -/
def Fetched (t : OutboxTable) (order : List OutboxMessage) : Prop :=
  order.Perm (t.rows.filter w.eligible) ∧ order.Pairwise fun a b => a.createdAt ≤ b.createdAt

instance (t : OutboxTable) (order : List OutboxMessage) : Decidable (w.Fetched t order) :=
  inferInstanceAs (Decidable (_ ∧ _))

/-- The `try` block of the loop succeeds on `r`. -/
def publishes (acks : ℕ → Bool) (r : OutboxMessage) : Bool :=
  (w.loads r.payload).isSome && acks r.id

/-- What one iteration of the loop does to the row. -/
def processRecord (acks : ℕ → Bool) (r : OutboxMessage) : OutboxMessage :=
  if w.publishes acks r then { r with processed := true }
  else { r with retryCount := r.retryCount + 1 }

/-- The committed effect of a batch on the row `r`. -/
def updateRow (acks : ℕ → Bool) (batch : List OutboxMessage) (r : OutboxMessage) : OutboxMessage :=
  if r ∈ batch then w.processRecord acks r else r

/-- The columns the worker never writes. -/
theorem updateRow_fixed (acks : ℕ → Bool) (batch : List OutboxMessage) (r : OutboxMessage) :
    (w.updateRow acks batch r).id = r.id ∧ (w.updateRow acks batch r).topic = r.topic ∧
      (w.updateRow acks batch r).key = r.key ∧ (w.updateRow acks batch r).payload = r.payload ∧
      (w.updateRow acks batch r).createdAt = r.createdAt := by
  unfold updateRow processRecord
  split
  · split <;> exact ⟨rfl, rfl, rfl, rfl, rfl⟩
  · exact ⟨rfl, rfl, rfl, rfl, rfl⟩

/-- `session.commit()` of a batch. -/
def commitBatch (t : OutboxTable) (acks : ℕ → Bool) (batch : List OutboxMessage) : OutboxTable where
  rows := t.rows.map (w.updateRow acks batch)
  nodup := by
    rw [List.map_map]
    have hid : (fun r : OutboxMessage => r.id) ∘ w.updateRow acks batch = (·.id) :=
      funext fun r => (w.updateRow_fixed acks batch r).1
    rw [hid]
    exact t.nodup

/-- The records the loop gets to. -/
def attempted (order : List OutboxMessage) (died : Option ℕ) : List OutboxMessage :=
  let batch := order.take w.batchSize
  match died with
  | none => batch
  | some n => batch.take n

/-- The ids acknowledged while the loop runs over `rs`. -/
def published (acks : ℕ → Bool) (rs : List OutboxMessage) : List ℕ :=
  (rs.filter (w.publishes acks)).map (·.id)

/-- The ids that fail while the loop runs over `rs`. -/
def unpublished (acks : ℕ → Bool) (rs : List OutboxMessage) : List ℕ :=
  (rs.filter fun r => !w.publishes acks r).map (·.id)

def step (s : Outbox) : OutboxLabel → Option Outbox
  | .insert r =>
    if h : r.id ∉ s.table.rows.map (·.id) ∧ r.processed = false ∧ r.retryCount = 0 then
      some { s with table := ⟨r :: s.table.rows, List.nodup_cons.mpr ⟨h.1, s.table.nodup⟩⟩ }
    else none
  | .poll order acks died =>
    if w.Fetched s.table order then
      let rs := w.attempted order died
      match died with
      | some _ => some { s with acked := s.acked ++ w.published acks rs }
      | none => some { s with
          table := w.commitBatch s.table acks rs
          acked := s.acked ++ w.published acks rs
          failed := s.failed ++ w.unpublished acks rs }
    else none

end OutboxWorker

/-- A run starts on any table; its processed rows were published before. -/
def Outbox.start (t : OutboxTable) : Outbox where
  table := t
  before := (t.rows.filter (·.processed)).map (·.id)
  acked := []
  failed := []

/-! ## What a step does -/

namespace OutboxWorker

variable {w : OutboxWorker} {s s' : Outbox}

theorem step_cases {l : OutboxLabel} (h : w.step s l = some s') :
    (∃ r, l = .insert r ∧ r.id ∉ s.table.rows.map (·.id) ∧ r.processed = false ∧
      s'.table.rows = r :: s.table.rows ∧ s'.before = s.before ∧ s'.acked = s.acked ∧
      s'.failed = s.failed) ∨
    ∃ order acks died, l = .poll order acks died ∧ w.Fetched s.table order ∧
      s'.before = s.before ∧ s'.acked = s.acked ++ w.published acks (w.attempted order died) ∧
      ((∃ n, died = some n ∧ s'.table = s.table ∧ s'.failed = s.failed) ∨
        died = none ∧ s'.table = w.commitBatch s.table acks (w.attempted order died) ∧
          s'.failed = s.failed ++ w.unpublished acks (w.attempted order died)) := by
  cases l with
  | insert r =>
    obtain ⟨⟨hid, hp, hc⟩, hs⟩ := Option.dite_none_right_eq_some.mp h
    obtain rfl := Option.some.inj hs
    exact Or.inl ⟨r, rfl, hid, hp, rfl, rfl, rfl, rfl⟩
  | poll order acks died =>
    obtain ⟨hf, h⟩ := Option.ite_none_right_eq_some.mp h
    refine Or.inr ⟨order, acks, died, rfl, hf, ?_⟩
    cases died with
    | some n =>
      obtain rfl := Option.some.inj h
      exact ⟨rfl, rfl, Or.inl ⟨n, rfl, rfl, rfl⟩⟩
    | none =>
      obtain rfl := Option.some.inj h
      exact ⟨rfl, rfl, Or.inr ⟨rfl, rfl, rfl⟩⟩

theorem row_eq_of_id (t : OutboxTable) {a b : OutboxMessage} (ha : a ∈ t.rows) (hb : b ∈ t.rows)
    (h : a.id = b.id) : a = b :=
  List.inj_on_of_nodup_map t.nodup ha hb h

theorem mem_order {order : List OutboxMessage} {r : OutboxMessage}
    (hf : w.Fetched s.table order) : r ∈ order ↔ r ∈ s.table.rows ∧ w.eligible r = true := by
  rw [hf.1.mem_iff, List.mem_filter]

theorem attempted_initial (order : List OutboxMessage) (died : Option ℕ) :
    w.attempted order died <+: order := by
  unfold attempted
  cases died with
  | none => exact List.take_prefix _ _
  | some n => exact (List.take_prefix _ _).trans (List.take_prefix _ _)

theorem mem_attempted {order : List OutboxMessage} {died : Option ℕ} {r : OutboxMessage}
    (hf : w.Fetched s.table order) (h : r ∈ w.attempted order died) :
    r ∈ s.table.rows ∧ w.eligible r = true :=
  (mem_order hf).mp ((attempted_initial order died).subset h)

theorem nodup_attempted {order : List OutboxMessage} {died : Option ℕ}
    (hf : w.Fetched s.table order) : ((w.attempted order died).map (·.id)).Nodup := by
  have hrows : ((s.table.rows.filter w.eligible).map (·.id)).Nodup :=
    s.table.nodup.sublist (List.filter_sublist.map _)
  have horder : (order.map (·.id)).Nodup := (hf.1.map _).nodup_iff.mpr hrows
  exact horder.sublist ((attempted_initial order died).sublist.map _)

/-- A poll counts at most one failure of a row. -/
theorem count_unpublished {acks : ℕ → Bool} {order : List OutboxMessage} {died : Option ℕ}
    {r : OutboxMessage} (hf : w.Fetched s.table order) (hr : r ∈ s.table.rows) :
    (w.unpublished acks (w.attempted order died)).count r.id =
      if r ∈ w.attempted order died ∧ w.publishes acks r = false then 1 else 0 := by
  have hnodup : (w.unpublished acks (w.attempted order died)).Nodup :=
    (nodup_attempted hf).sublist (List.filter_sublist.map _)
  have hmem : r.id ∈ w.unpublished acks (w.attempted order died) ↔
      r ∈ w.attempted order died ∧ w.publishes acks r = false := by
    unfold unpublished
    rw [List.mem_map]
    constructor
    · rintro ⟨x, hx, hid⟩
      obtain ⟨hx, hp⟩ := List.mem_filter.mp hx
      obtain rfl := row_eq_of_id s.table (mem_attempted hf hx).1 hr hid
      exact ⟨hx, by simpa using hp⟩
    · rintro ⟨hx, hp⟩
      exact ⟨r, List.mem_filter.mpr ⟨hx, by simp [hp]⟩, rfl⟩
  split
  · next h => exact List.count_eq_one_of_mem hnodup (hmem.mpr h)
  · next h => exact List.count_eq_zero.mpr (mt hmem.mp h)

theorem mem_published {acks : ℕ → Bool} {rs : List OutboxMessage} {r : OutboxMessage}
    (hr : r ∈ rs) (hp : w.publishes acks r = true) : r.id ∈ w.published acks rs :=
  List.mem_map_of_mem (List.mem_filter.mpr ⟨hr, hp⟩)

theorem unprocessed_updateRow {acks : ℕ → Bool} {batch : List OutboxMessage} {r : OutboxMessage}
    (hp : r.processed = false) (h : ¬ (r ∈ batch ∧ w.publishes acks r = true)) :
    (w.updateRow acks batch r).processed = false := by
  unfold updateRow
  split
  · next hr =>
    unfold processRecord
    rw [if_neg fun hpub => h ⟨hr, hpub⟩]
    exact hp
  · exact hp

theorem acked_grows {l : OutboxLabel} {i : ℕ} (h : w.step s l = some s') (hi : i ∈ s.acked) :
    i ∈ s'.acked := by
  rcases step_cases h with ⟨_, -, -, -, -, -, hacked, -⟩ | ⟨_, _, _, -, -, -, hacked, -⟩
  · exact hacked ▸ hi
  · exact hacked ▸ List.mem_append_left _ hi

end OutboxWorker

end CloudScale.Shared
