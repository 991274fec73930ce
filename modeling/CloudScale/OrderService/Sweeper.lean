/-
  The timeout sweep (`sweep_stale_sagas` in `order/app/consumers.py`), the whole loop.

  Each iteration reads the clock and runs one session; `exec` runs its program while nothing else
  writes. The loop is followed for a number of iterations (`fuel`). Beside the rows of the model
  there is the column `updated_at`, which every UPDATE sets (`onupdate=func.now()`).

  `Progress` says what the iterations so far have done: the orders of `done` are cancelled, each
  with its event, and everything else is as it was. Every iteration that does not end the loop adds
  to `done`, so with a clock that does not go back the loop ends, and nothing stale is left
  (`sweep_complete`). `updated_at_touched`: a cancelled order has another `updated_at` too.
-/
import CloudScale.OrderService.Absorbing
import CloudScale.Lib.Alone

namespace CloudScale.OrderService

open CloudScale.Lib CloudScale.Shared

/-! ## The loop -/

/-- The database with the column `updated_at` of its orders. -/
structure SweepDb extends OrderDb where
  updatedAt : Ident → Option Int

/-- What a call meets: the clock of the process and that of the database in each iteration, the
    order of each scan, and uuids that nobody drew before. -/
structure SweepEnv where
  clock : ℕ → Int
  dbClock : ℕ → Int
  scan : ℕ → List Order
  tid : ℕ

/-- The call returns the number of orders that timed out, or an exception leaves it. -/
inductive SweepResult where
  | returned (totalTimedOut : ℕ) (rows : SweepDb)
  | raised (rows : SweepDb)

/-- `datetime.now(UTC) - timedelta(minutes=timeout_mins)`. -/
def SweepEnv.cutoffTime (env : SweepEnv) (timeout : Int) (n : ℕ) : Int := env.clock n - timeout

/-- The rows after the UPDATEs of the orders. -/
def SweepDb.committed (st : SweepDb) (db : OrderDb) (updates : List StatusUpdate) (now : Int) :
    SweepDb where
  toOrderDb := db
  updatedAt id := if id ∈ updates.map (·.loaded.id) then some now else st.updatedAt id

/-- The loop from iteration `n` on; `none` when it takes more than `fuel` iterations. -/
def sweepLoop (env : SweepEnv) (timeout : Int) (batchLimit : ℕ) :
    (fuel n totalTimedOut : ℕ) → SweepDb → Option SweepResult
  | 0, _, _, _ => none
  | fuel + 1, n, totalTimedOut, st =>
    let session := sweepStaleSagas (env.tid + n) (env.cutoffTime timeout n) batchLimit
    match (session.exec (fun _ q => st.toOrderDb.answer ⟨env.scan n, none⟩ q)
        (fun _ x => x) ()).1 with
    | .error _ => some (.raised st)
    | .ok w =>
      if w.updates.isEmpty then some (.returned totalTimedOut st)
      else match st.toOrderDb.commit w with
        | none => some (.raised st)
        | some db => sweepLoop env timeout batchLimit fuel (n + 1)
            (totalTimedOut + w.updates.length) (st.committed db w.updates (env.dbClock n))

/-! ## What a sweep is to do -/

/-- What a row of the outbox says, beside the ids that are drawn for it. -/
structure Notice where
  topic : Topic
  key : Option Ident
  eventType : EventType
  payload : Payload

def OutboxRow.notice (r : OutboxRow) : Notice :=
  { topic := r.topic, key := r.key, eventType := r.event.eventType, payload := r.event.payload }

/-- The cancellation of an order, listing its items. -/
def cancellation (o : Order) : Notice :=
  { topic := .orderEvents, key := some o.id, eventType := .orderCancelledEvent
    payload := { orderId := some o.id, items := itemsToRelease o,
                 reason := some "Saga execution timeout" } }

/-- All that was stale at the cutoff is cancelled, each order with one event, and nothing else is
    changed. -/
structure Swept (start : OrderDb) (cutoff : Int) (totalTimedOut : ℕ) (final : OrderDb) : Prop where
  complete : ∀ o ∈ final.orders.rows, stale cutoff o = false
  orders : final.orders.rows =
    start.orders.rows.map fun o => if stale cutoff o then o.withStatus .cancelled else o
  events : ∃ rows, final.outbox.rows = start.outbox.rows ++ rows ∧
    (rows.map OutboxRow.notice).Perm ((start.orders.rows.filter (stale cutoff)).map cancellation)
  inbox : final.inbox = start.inbox
  total : totalTimedOut = (start.orders.rows.filter (stale cutoff)).length

/-- No uuid of the outbox is one that the call is going to draw. -/
def NewIds (tid : ℕ) (db : OrderDb) : Prop :=
  ∀ r ∈ db.outbox.rows, ∀ t n, r.eventId = .drawn .order t n → t < tid

/-- A table whose idempotency keys are unique, and a call whose uuids are new and whose clock does
    not go back. -/
structure Sweepable (env : SweepEnv) (db : OrderDb) : Prop where
  keys : keysUnique db.orders = true
  fresh : NewIds env.tid db
  clock : ∀ m n, m ≤ n → env.clock m ≤ env.clock n

/-! ## One batch -/

/-- What a session with the stale orders leaves. -/
def batchWrites (tid : ℕ) (staleOrders : List Order) : OrderWrites :=
  { updates := staleOrders.map fun o => ⟨o, .cancelled⟩
    outbox := staleOrders.mapIdx (timeoutEvent tid) }

section Batch

variable {db : OrderDb} {tid : ℕ} {os : List Order}

theorem exec_sweep (ω : OrderEnv) (cutoff : Int) (limit : ℕ) :
    ((sweepStaleSagas tid cutoff limit).exec (fun _ q => db.answer ω q) (fun _ x => x) ()).1 =
      .ok (batchWrites tid (db.staleOrders ω.scan cutoff limit)) := rfl

theorem loaded_batchWrites : (batchWrites tid os).updates.map (·.loaded.id) = os.map (·.id) := by
  unfold batchWrites
  rw [List.map_map]
  rfl

/-- The rows of the batch are cancelled. -/
theorem rows_batch (orders : Orders) :
    (runUpdates orders (batchWrites tid os).updates).rows =
      orders.rows.map fun o => if o.id ∈ os.map (·.id) then o.withStatus .cancelled else o := by
  show (runUpdates orders (os.map fun o => ⟨o, .cancelled⟩)).rows = _
  induction os generalizing orders with
  | nil => simp [runUpdates]
  | cons a os ih =>
    show (runUpdates (StatusUpdate.run ⟨a, .cancelled⟩ orders) _).rows = _
    rw [ih, rows_run, List.map_map]
    refine List.map_congr_left fun o _ => ?_
    by_cases ha : o.id = a.id
    · simp [ha, Order.withStatus]
    · simp [ha]

theorem eventId_timeoutEvent (i : ℕ) (o : Order) :
    (timeoutEvent tid i o).eventId = .drawn .order tid (2 * i) := rfl

theorem notice_batch :
    ((batchWrites tid os).outbox.map OutboxRow.notice) = os.map cancellation := by
  unfold batchWrites
  refine List.ext_getElem (by simp) fun i h1 h2 => ?_
  simp only [List.getElem_map, List.getElem_mapIdx]
  rfl

/-- The new events have new ids. -/
theorem extend_batch (hfresh : NewIds tid db) :
    ∃ outbox, db.outbox.extend (batchWrites tid os).outbox = some outbox := by
  have hids : (batchWrites tid os).outbox.map OutboxRow.eventId =
      os.mapIdx fun i _ => .drawn .order tid (2 * i) := by
    refine List.ext_getElem (by simp [batchWrites]) fun i h1 h2 => ?_
    simp only [batchWrites, List.getElem_map, List.getElem_mapIdx]
    rfl
  have hnodup : ((db.outbox.rows ++ (batchWrites tid os).outbox).map OutboxRow.eventId).Nodup := by
    rw [List.map_append, hids]
    refine List.nodup_append.mpr ⟨db.outbox.nodup, ?_, ?_⟩
    · refine List.pairwise_iff_getElem.mpr fun i j hi hj hij => ?_
      rw [List.getElem_mapIdx, List.getElem_mapIdx]
      intro heq
      injection heq with _ _ h
      omega
    · rintro id hid _ hid' rfl
      obtain ⟨r, hr, rfl⟩ := List.mem_map.mp hid
      obtain ⟨i, _, hi⟩ := List.mem_mapIdx.mp hid'
      exact Nat.lt_irrefl tid (hfresh r hr tid (2 * i) hi.symm)
  exact ⟨_, dif_pos hnodup⟩

theorem newIds_batch (hfresh : NewIds tid db) {orders : Orders} {outbox : OutboxRows}
    {inbox : InboxRows} (h : db.outbox.extend (batchWrites tid os).outbox = some outbox) :
    NewIds (tid + 1) ⟨orders, outbox, inbox⟩ := by
  intro r hr t n hid
  change r ∈ outbox.rows at hr
  rw [Table.rows_extend h] at hr
  rcases List.mem_append.mp hr with hr | hr
  · exact Nat.lt_succ_of_lt (hfresh r hr t n hid)
  · obtain ⟨i, hi, rfl⟩ := List.mem_mapIdx.mp hr
    rw [eventId_timeoutEvent] at hid
    injection hid with _ htid _
    omega

theorem keysUnique_batch (hkeys : keysUnique db.orders = true) :
    keysUnique (runUpdates db.orders (batchWrites tid os).updates) = true := by
  unfold keysUnique at hkeys ⊢
  rw [rows_batch, List.map_map]
  have hsame : (fun o : Order => o.idempotencyKey) ∘ (fun o : Order =>
      if o.id ∈ os.map (·.id) then o.withStatus .cancelled else o) = (·.idempotencyKey) := by
    funext o
    show Order.idempotencyKey (if o.id ∈ os.map (·.id) then _ else o) = o.idempotencyKey
    split <;> rfl
  rwa [hsame]

theorem storable_batch : (batchWrites tid os).storable = true := by
  have houtbox : (batchWrites tid os).outbox.all (fun r => fitsIdent 36 r.event.correlationId) =
      true := by
    refine List.all_eq_true.mpr fun r hr => ?_
    obtain ⟨i, hi, rfl⟩ := List.mem_mapIdx.mp hr
    rfl
  unfold OrderWrites.storable
  rw [houtbox]
  rfl

/-- A batch is committed, and what it leaves. -/
theorem commit_batch (hkeys : keysUnique db.orders = true) (hfresh : NewIds tid db) :
    ∃ db', db.commit (batchWrites tid os) = some db' ∧
      db'.orders.rows = (db.orders.rows.map fun o =>
        if o.id ∈ os.map (·.id) then o.withStatus .cancelled else o) ∧
      db'.outbox.rows = db.outbox.rows ++ (batchWrites tid os).outbox ∧ db'.inbox = db.inbox ∧
      keysUnique db'.orders = true ∧ NewIds (tid + 1) db' := by
  obtain ⟨outbox, houtbox⟩ : ∃ outbox, db.outbox.extend (batchWrites tid os).outbox = some outbox :=
    extend_batch hfresh
  have hkeys' : keysUnique (runUpdates db.orders (batchWrites tid os).updates) = true :=
    keysUnique_batch hkeys
  refine ⟨⟨runUpdates db.orders (batchWrites tid os).updates, outbox, db.inbox⟩, ?_,
    rows_batch _, Table.rows_extend houtbox, rfl, hkeys', newIds_batch hfresh houtbox⟩
  have hnew : (batchWrites tid os).created.toList = [] := rfl
  have hinbox : (batchWrites tid os).inbox.toList = [] := rfl
  unfold OrderDb.commit
  rw [hnew, hinbox, Table.extend_nil, Table.extend_nil, houtbox]
  simp [hkeys', storable_batch]

/-- The column `updated_at` after a batch. -/
theorem updatedAt_batch (st : SweepDb) (now : Int) (id : Ident) :
    (st.committed db (batchWrites tid os).updates now).updatedAt id =
      if id ∈ os.map (·.id) then some now else st.updatedAt id := by
  show (if id ∈ _ then some now else st.updatedAt id) = _
  rw [loaded_batchWrites]

end Batch

/-! ## The iterations so far -/

def cancelIf (done : List Order) (o : Order) : Order :=
  if o ∈ done then o.withStatus .cancelled else o

theorem id_cancelIf (done : List Order) (o : Order) : (cancelIf done o).id = o.id := by
  unfold cancelIf
  split <;> rfl

/-- A batch on top of what was cancelled before it. -/
theorem cancelIf_append {done os : List Order} {o : Order} (hid : o.id ∈ os.map (·.id) ↔ o ∈ os) :
    (if (cancelIf done o).id ∈ os.map (·.id) then (cancelIf done o).withStatus .cancelled
      else cancelIf done o) = cancelIf (done ++ os) o := by
  rw [id_cancelIf]
  unfold cancelIf
  by_cases hdone : o ∈ done
  · simp [hdone, Order.withStatus]
  · by_cases hmem : o ∈ os
    · simp [hdone, hmem, hid.mpr hmem]
    · simp [hdone, hmem, mt hid.mp hmem]

/-- After `n` iterations: the orders of `done` are cancelled, each with its event. -/
structure Progress (env : SweepEnv) (timeout : Int) (start : SweepDb) (n : ℕ) (done : List Order)
    (st : SweepDb) : Prop where
  stale : ∀ o ∈ done, o ∈ start.orders.rows ∧ ∃ m < n, stale (env.cutoffTime timeout m) o = true
  nodup : done.Nodup
  orders : st.orders.rows = start.orders.rows.map (cancelIf done)
  events : ∃ rows, st.outbox.rows = start.outbox.rows ++ rows ∧
    rows.map OutboxRow.notice = done.map cancellation
  inbox : st.inbox = start.inbox
  touched : ∀ id ∈ done.map (·.id), ∃ m < n, st.updatedAt id = some (env.dbClock m)
  untouched : ∀ id ∉ done.map (·.id), st.updatedAt id = start.updatedAt id
  keys : keysUnique st.orders = true
  fresh : NewIds (env.tid + n) st.toOrderDb

section Iterations

variable {env : SweepEnv} {timeout : Int} {start st : SweepDb} {n limit : ℕ} {done os : List Order}

theorem progress_start (h : Sweepable env start.toOrderDb) :
    Progress env timeout start 0 [] start where
  stale o ho := absurd ho List.not_mem_nil
  nodup := List.nodup_nil
  orders := by
    have hid : cancelIf [] = id := funext fun o => if_neg List.not_mem_nil
    rw [hid, List.map_id]
  events := ⟨[], (List.append_nil _).symm, rfl⟩
  inbox := rfl
  touched id hid := absurd hid List.not_mem_nil
  untouched id _ := rfl
  keys := h.keys
  fresh := h.fresh

/-- A row that is stale has not been cancelled. -/
theorem Progress.mem_start (h : Progress env timeout start n done st) {cutoff : Int} {o : Order}
    (ho : o ∈ st.orders.rows) (hstale : OrderService.stale cutoff o = true) :
    o ∈ start.orders.rows ∧ o ∉ done := by
  rw [h.orders] at ho
  obtain ⟨o', ho', rfl⟩ := List.mem_map.mp ho
  unfold cancelIf at hstale ⊢
  split at hstale
  · cases hstale
  · next hnot =>
    rw [if_neg hnot]
    exact ⟨ho', hnot⟩

/-- A batch is committed, and the orders of it are done as well. -/
theorem Progress.next (h : Progress env timeout start n done st)
    (hos : os = st.staleOrders (env.scan n) (env.cutoffTime timeout n) limit) :
    ∃ db, st.toOrderDb.commit (batchWrites (env.tid + n) os) = some db ∧
      Progress env timeout start (n + 1) (done ++ os)
        (st.committed db (batchWrites (env.tid + n) os).updates (env.dbClock n)) := by
  obtain ⟨db, hcommit, horders, houtbox, hinbox, hkeys, hfresh⟩ :
      ∃ db, st.toOrderDb.commit (batchWrites (env.tid + n) os) = some db ∧ _ :=
    commit_batch h.keys h.fresh
  have ⟨hnodup, hsound⟩ : (os.map (·.id)).Nodup ∧ ∀ o ∈ os, o ∈ st.orders.rows ∧
      OrderService.stale (env.cutoffTime timeout n) o = true := hos ▸ staleOrders_sound
  have hstart : ∀ o ∈ os, o ∈ start.orders.rows ∧ o ∉ done := fun o ho =>
    h.mem_start (hsound o ho).1 (hsound o ho).2
  have hids : ∀ o ∈ start.orders.rows, o.id ∈ os.map (·.id) ↔ o ∈ os := fun o ho => by
    refine ⟨fun hid => ?_, List.mem_map_of_mem⟩
    obtain ⟨o', ho', heq⟩ := List.mem_map.mp hid
    exact Table.row_eq_of_key (hstart o' ho').1 ho heq ▸ ho'
  refine ⟨db, hcommit, ?_, ?_, ?_, ?_, ?_, ?_, ?_, hkeys, hfresh⟩
  · intro o ho
    rcases List.mem_append.mp ho with ho | ho
    · obtain ⟨hmem, m, hm, hstale⟩ := h.stale o ho
      exact ⟨hmem, m, Nat.lt_succ_of_lt hm, hstale⟩
    · exact ⟨(hstart o ho).1, n, Nat.lt_succ_self n, (hsound o ho).2⟩
  · refine List.nodup_append.mpr ⟨h.nodup, List.Nodup.of_map _ hnodup, ?_⟩
    rintro o hdone _ ho rfl
    exact (hstart o ho).2 hdone
  · show db.orders.rows = _
    rw [horders, h.orders, List.map_map]
    exact List.map_congr_left fun o ho => cancelIf_append (hids o ho)
  · obtain ⟨rows, hrows, hnotices⟩ := h.events
    refine ⟨rows ++ (batchWrites (env.tid + n) os).outbox, ?_, ?_⟩
    · show db.outbox.rows = _
      rw [houtbox, hrows, List.append_assoc]
    · rw [List.map_append, List.map_append, hnotices, notice_batch]
  · exact hinbox.trans h.inbox
  · intro id hid
    rw [updatedAt_batch]
    rw [List.map_append, List.mem_append] at hid
    by_cases hmem : id ∈ os.map (·.id)
    · rw [if_pos hmem]
      exact ⟨n, Nat.lt_succ_self n, rfl⟩
    · rw [if_neg hmem]
      obtain ⟨m, hm, hvalue⟩ := h.touched id (hid.resolve_right hmem)
      exact ⟨m, Nat.lt_succ_of_lt hm, hvalue⟩
  · intro id hid
    rw [List.map_append, List.mem_append, not_or] at hid
    rw [updatedAt_batch, if_neg hid.2]
    exact h.untouched id hid.1

/-- The orders that were cancelled so far are rows of the table. -/
theorem Progress.length_le (h : Progress env timeout start n done st) :
    done.length ≤ start.orders.rows.length :=
  (List.subperm_of_subset h.nodup fun o ho => (h.stale o ho).1).length_le

theorem stale_mono {c c' : Int} (hle : c ≤ c') {o : Order} (h : stale c o = true) :
    stale c' o = true := by
  simp only [stale, Bool.and_eq_true, decide_eq_true_eq] at h ⊢
  exact ⟨h.1, h.2.trans hle⟩

theorem cutoffTime_mono (hmono : ∀ m n, m ≤ n → env.clock m ≤ env.clock n) {m n : ℕ}
    (hle : m ≤ n) :
    env.cutoffTime timeout m ≤ env.cutoffTime timeout n :=
  Int.sub_le_sub_right (hmono _ _ hle) timeout

/-- Where no row is stale any more, the cancelled orders are those that were stale at the start. -/
theorem Progress.stale_iff (h : Progress env timeout start n done st)
    (hmono : ∀ m n, m ≤ n → env.clock m ≤ env.clock n)
    (hnone : ∀ o ∈ st.orders.rows, OrderService.stale (env.cutoffTime timeout n) o = false)
    {o : Order} (ho : o ∈ start.orders.rows) :
    OrderService.stale (env.cutoffTime timeout n) o = true ↔ o ∈ done := by
  constructor
  · intro hstale
    by_contra hdone
    have hrow : o ∈ st.orders.rows := by
      rw [h.orders]
      exact List.mem_map.mpr ⟨o, ho, if_neg hdone⟩
    rw [hnone o hrow] at hstale
    cases hstale
  · intro hdone
    obtain ⟨-, m, hm, hstale⟩ := h.stale o hdone
    exact stale_mono (cutoffTime_mono hmono (Nat.le_of_lt hm)) hstale

/-- Where no row is stale any more, the sweep has done what it is to do. -/
theorem Progress.swept (h : Progress env timeout start n done st)
    (hmono : ∀ m n, m ≤ n → env.clock m ≤ env.clock n)
    (hnone : ∀ o ∈ st.orders.rows, OrderService.stale (env.cutoffTime timeout n) o = false) :
    Swept start.toOrderDb (env.cutoffTime timeout n) done.length st.toOrderDb := by
  have hperm : done.Perm (start.orders.rows.filter
      (OrderService.stale (env.cutoffTime timeout n))) := by
    refine (List.perm_ext_iff_of_nodup h.nodup ?_).mpr fun o => ?_
    · exact (List.Nodup.of_map _ start.orders.nodup).filter _
    · rw [List.mem_filter]
      constructor
      · intro ho
        exact ⟨(h.stale o ho).1, (h.stale_iff hmono hnone (h.stale o ho).1).mpr ho⟩
      · rintro ⟨hmem, hstale⟩
        exact (h.stale_iff hmono hnone hmem).mp hstale
  refine ⟨hnone, ?_, ?_, h.inbox, hperm.length_eq⟩
  · rw [h.orders]
    refine List.map_congr_left fun o ho => ?_
    unfold cancelIf
    simp only [h.stale_iff hmono hnone ho]
  · obtain ⟨rows, hrows, hnotices⟩ := h.events
    exact ⟨rows, hrows, hnotices ▸ hperm.map _⟩

theorem staleOrders_eq_nil {db : OrderDb} {scan : List Order} {cutoff : Int} (hlimit : 1 ≤ limit)
    (hnil : db.staleOrders scan cutoff limit = []) :
    ∀ o ∈ db.orders.rows, OrderService.stale cutoff o = false := by
  have hrows : db.orders.rows.filter (OrderService.stale cutoff) = [] := by
    unfold OrderDb.staleOrders at hnil
    dsimp only at hnil
    rcases List.take_eq_nil_iff.mp hnil with hzero | hlist
    · omega
    · split at hlist
      · next hperm => exact (hlist ▸ hperm).nil_eq.symm
      · exact hlist
  intro o ho
  simpa using List.filter_eq_nil_iff.mp hrows o ho

theorem sweepLoop_break (fuel total : ℕ)
    (hos : st.staleOrders (env.scan n) (env.cutoffTime timeout n) limit = []) :
    sweepLoop env timeout limit (fuel + 1) n total st = some (.returned total st) := by
  rw [sweepLoop, exec_sweep, hos]
  rfl

theorem sweepLoop_next (fuel total : ℕ) {db : OrderDb}
    (hos : st.staleOrders (env.scan n) (env.cutoffTime timeout n) limit = os) (hne : os ≠ [])
    (hcommit : st.toOrderDb.commit (batchWrites (env.tid + n) os) = some db) :
    sweepLoop env timeout limit (fuel + 1) n total st =
      sweepLoop env timeout limit fuel (n + 1) (total + os.length)
        (st.committed db (batchWrites (env.tid + n) os).updates (env.dbClock n)) := by
  have hupdates : (batchWrites (env.tid + n) os).updates.isEmpty = false := by
    simpa [batchWrites] using hne
  have hlength : (batchWrites (env.tid + n) os).updates.length = os.length := by
    simp [batchWrites]
  rw [sweepLoop, exec_sweep, hos]
  dsimp only
  rw [hupdates, hcommit, hlength]
  rfl

variable (timeout) in
/-- The loop ends, with nothing stale left. -/
theorem sweepLoop_ends (hlimit : 1 ≤ limit) (fuel : ℕ) (h : Progress env timeout start n done st)
    (hfuel : start.orders.rows.length < fuel + done.length) :
    ∃ last done' final,
      sweepLoop env timeout limit fuel n done.length st = some (.returned done'.length final) ∧
        Progress env timeout start last done' final ∧
          ∀ o ∈ final.orders.rows, OrderService.stale (env.cutoffTime timeout last) o = false := by
  induction fuel generalizing n done st with
  | zero =>
    have hle := h.length_le
    omega
  | succ fuel ih =>
    obtain ⟨os, hos⟩ :
      ∃ os, os = st.staleOrders (env.scan n) (env.cutoffTime timeout n) limit := ⟨_, rfl⟩
    by_cases hnil : os = []
    · rw [hos] at hnil
      exact ⟨n, done, st, sweepLoop_break fuel _ hnil, h, staleOrders_eq_nil hlimit hnil⟩
    · obtain ⟨db, hcommit, hnext⟩ := h.next hos
      have hpos := List.length_pos_iff.mpr hnil
      obtain ⟨last, done', final, hreturned, hend⟩ := ih hnext (by rw [List.length_append]; omega)
      rw [List.length_append] at hreturned
      exact ⟨last, done', final, (sweepLoop_next fuel _ hos.symm hnil hcommit).trans hreturned,
        hend⟩

end Iterations

/-! ## The main result -/

/-- The call returns from the database, having swept it at the last cutoff; only the cancelled
    orders have another `updated_at`, each that of an iteration. -/
structure Returns (env : SweepEnv) (timeout : Int) (start : SweepDb) (last totalTimedOut : ℕ)
    (final : SweepDb) : Prop where
  swept : Swept start.toOrderDb (env.cutoffTime timeout last) totalTimedOut final.toOrderDb
  matched : ∀ o ∈ start.orders.rows, stale (env.cutoffTime timeout last) o = true ↔
    ∃ n ≤ last, stale (env.cutoffTime timeout n) o = true
  touched : ∀ o ∈ start.orders.rows, stale (env.cutoffTime timeout last) o = true →
    ∃ n ≤ last, final.updatedAt o.id = some (env.dbClock n)
  untouched : ∀ id, (∀ o ∈ start.orders.rows, o.id = id →
    stale (env.cutoffTime timeout last) o = false) → final.updatedAt id = start.updatedAt id

theorem sweep_returns {env : SweepEnv} (timeout : Int) {start : SweepDb} {limit fuel : ℕ}
    (hlimit : 1 ≤ limit) (h : Sweepable env start.toOrderDb)
    (hfuel : start.orders.rows.length < fuel) :
    ∃ last totalTimedOut final,
      sweepLoop env timeout limit fuel 0 0 start = some (.returned totalTimedOut final) ∧
        Returns env timeout start last totalTimedOut final := by
  obtain ⟨last, done, final, hreturned, hprogress, hnone⟩ :=
    sweepLoop_ends timeout hlimit fuel (progress_start h) hfuel
  have hiff := fun {o} => hprogress.stale_iff (o := o) h.clock hnone
  refine ⟨last, done.length, final, hreturned, hprogress.swept h.clock hnone, ?_, ?_, ?_⟩
  · intro o ho
    constructor
    · exact fun hstale => ⟨last, Nat.le_refl last, hstale⟩
    · rintro ⟨n, hn, hstale⟩
      exact stale_mono (cutoffTime_mono h.clock hn) hstale
  · intro o ho hstale
    obtain ⟨n, hn, hvalue⟩ :=
      hprogress.touched o.id (List.mem_map_of_mem ((hiff ho).mp hstale))
    exact ⟨n, Nat.le_of_lt hn, hvalue⟩
  · intro id hid
    refine hprogress.untouched id fun hmem => ?_
    obtain ⟨o, ho, rfl⟩ := List.mem_map.mp hmem
    have hstart := (hprogress.stale o ho).1
    exact Bool.false_ne_true ((hid o hstart rfl).symm.trans ((hiff hstart).mpr ho))

theorem events_perm {start final final' : OrderDb} {cutoff : Int} {total total' : ℕ}
    (h : Swept start cutoff total final) (h' : Swept start cutoff total' final') :
    (final.outbox.rows.map OutboxRow.notice).Perm (final'.outbox.rows.map OutboxRow.notice) := by
  obtain ⟨rows, hrows, hperm⟩ := h.events
  obtain ⟨rows', hrows', hperm'⟩ := h'.events
  rw [hrows, hrows', List.map_append, List.map_append]
  exact (hperm.trans hperm'.symm).append_left _

/-- The sweep ends, whatever the size of the batches, the order of the rows and the clock, as long
    as that does not go back, and has swept the database at its last cutoff. If the clock stands
    still, the orders and the events are the same for any two calls. -/
theorem sweep_complete (timeout : Int) (start : SweepDb) :
    (∀ env limit fuel, Sweepable env start.toOrderDb → 1 ≤ limit →
      start.orders.rows.length < fuel → ∃ last totalTimedOut final,
        sweepLoop env timeout limit fuel 0 0 start = some (.returned totalTimedOut final) ∧
          Returns env timeout start last totalTimedOut final) ∧
    (∀ env env' limit limit' fuel fuel' now totalTimedOut totalTimedOut' final final',
      Sweepable env start.toOrderDb → Sweepable env' start.toOrderDb → 1 ≤ limit → 1 ≤ limit' →
      start.orders.rows.length < fuel → start.orders.rows.length < fuel' →
      (∀ n, env.clock n = now) → (∀ n, env'.clock n = now) →
      sweepLoop env timeout limit fuel 0 0 start = some (.returned totalTimedOut final) →
      sweepLoop env' timeout limit' fuel' 0 0 start = some (.returned totalTimedOut' final') →
      final.orders.rows = final'.orders.rows ∧
        (final.outbox.rows.map OutboxRow.notice).Perm
          (final'.outbox.rows.map OutboxRow.notice)) := by
  refine ⟨fun env limit fuel h hlimit hfuel => sweep_returns timeout hlimit h hfuel, ?_⟩
  intro env env' limit limit' fuel fuel' now total total' final final' h h' hlimit hlimit' hfuel
    hfuel' hnow hnow' hrun hrun'
  obtain ⟨last, _, _, hreturned, hreturns⟩ := sweep_returns timeout hlimit h hfuel
  obtain ⟨last', _, _, hreturned', hreturns'⟩ := sweep_returns timeout hlimit' h' hfuel'
  obtain ⟨rfl, rfl⟩ := SweepResult.returned.inj (Option.some.inj (hrun.symm.trans hreturned))
  obtain ⟨rfl, rfl⟩ := SweepResult.returned.inj (Option.some.inj (hrun'.symm.trans hreturned'))
  have hcutoff : env.cutoffTime timeout last = env'.cutoffTime timeout last' := by
    unfold SweepEnv.cutoffTime
    rw [hnow, hnow']
  have hswept := hreturns.swept
  rw [hcutoff] at hswept
  exact ⟨hswept.orders.trans hreturns'.swept.orders.symm, events_perm hswept hreturns'.swept⟩

/-! ## A stale order -/

/-- A table with one order, which was updated at time 0. -/
def staleStart : SweepDb where
  orders := ⟨[{ id := .text "order-1", userId := .text "user-1", totalAmount := 5
                idempotencyKey := "checkout-1", createdAt := 0, tenantId := "tenant-1"
                items := [⟨1, 1, 5⟩] }], List.nodup_singleton _⟩
  outbox := .empty
  inbox := .empty
  updatedAt _ := some 0

/-- A call at time 1000. -/
def standingClock : SweepEnv where
  clock _ := 1000
  dbClock _ := 1000
  scan _ := []
  tid := 0

theorem sweepable_staleStart : Sweepable standingClock staleStart.toOrderDb where
  keys := by decide
  fresh r hr := absurd hr List.not_mem_nil
  clock _ _ _ := Int.le_refl _

def placedAt (n : ℕ) (createdAt : Int) (status : OrderStatus) : Order :=
  { id := .text (toString n), userId := .text "user-1", status, totalAmount := 5
    idempotencyKey := "checkout-" ++ toString n, createdAt, tenantId := "tenant-1"
    items := [⟨1, 1, 5⟩] }

/-- Three orders that are stale at the first cutoff, one that becomes stale with the second, one
    that does not and one that is confirmed. -/
def sixOrders : SweepDb where
  orders := ⟨[placedAt 1 0 .pending, placedAt 2 150 .stockReserved, placedAt 3 50 .confirmed,
    placedAt 4 20 .stockReserved, placedAt 5 500 .pending, placedAt 6 100 .pending], by decide⟩
  outbox := .empty
  inbox := .empty
  updatedAt _ := some 0

/-- The clock goes on by a minute with each iteration. -/
def movingClock : SweepEnv where
  clock n := 1000 + 60 * n
  dbClock n := 1000 + 60 * n
  scan _ := []
  tid := 0

theorem sweepable_sixOrders : Sweepable movingClock sixOrders.toOrderDb where
  keys := by decide +kernel
  fresh r hr := absurd hr List.not_mem_nil
  clock m n hmn := by
    show (1000 + 60 * m : Int) ≤ 1000 + 60 * n
    omega

def SweepResult.total : SweepResult → Option ℕ
  | .returned totalTimedOut _ => some totalTimedOut
  | .raised _ => none

/-- Two batches of two, and an empty one. -/
theorem sweep_complete_two : ∃ last final,
    sweepLoop movingClock 900 2 7 0 0 sixOrders = some (.returned 4 final) ∧
      Returns movingClock 900 sixOrders last 4 final := by
  obtain ⟨last, total, final, hrun, hreturns⟩ :=
    (sweep_complete 900 sixOrders).1 movingClock 2 7 sweepable_sixOrders (by decide) (by decide)
  have htotal : (sweepLoop movingClock 900 2 7 0 0 sixOrders).bind SweepResult.total =
      some 4 := by decide +kernel
  rw [hrun] at htotal
  obtain rfl := Option.some.inj htotal
  exact ⟨last, final, hrun, hreturns⟩

/-- More than the status of the cancelled orders is changed. -/
theorem updated_at_touched : ¬ ∀ env timeout limit fuel (start : SweepDb),
    Sweepable env start.toOrderDb → 1 ≤ limit → start.orders.rows.length < fuel →
      ∃ last totalTimedOut final,
        sweepLoop env timeout limit fuel 0 0 start = some (.returned totalTimedOut final) ∧
          Swept start.toOrderDb (env.cutoffTime timeout last) totalTimedOut final.toOrderDb ∧
            final.updatedAt = start.updatedAt := by
  intro hevery
  obtain ⟨_, _, final, hrun, -, hcolumn⟩ :=
    hevery standingClock 900 1 2 staleStart sweepable_staleStart (by decide) (by decide)
  obtain ⟨last, _, _, hreturned, hreturns⟩ :=
    sweep_returns 900 (by decide : 1 ≤ 1) sweepable_staleStart (by decide : 1 < 2)
  obtain ⟨rfl, rfl⟩ := SweepResult.returned.inj (Option.some.inj (hrun.symm.trans hreturned))
  obtain ⟨n, -, hvalue⟩ := hreturns.touched _ (List.mem_singleton_self _) rfl
  rw [hcolumn] at hvalue
  cases hvalue

end CloudScale.OrderService
