/-
  The saga's consumers and its sweeper under row-level security.

  `_process_event_with_resilience` and `sweep_stale_sagas` open `db_manager.session()`, which is
  `write_session()` without a tenant, so their statements execute with the setting unset
  (`sagaSetting`). With the policies of the first migration in force they see no order
  (`underRls_unset`), take it for missing, and record the event all the same.

  `rls_transparent_iff`: a sequence of events and sweeps leaves the same statuses and outbox with
  and without the policies exactly when, without them, no handler finds an order that it would move
  and no sweep finds a stale one (`Moves`). Every move is progress (`progress`), so what a step
  moved is never undone by a later one.
-/
import Mathlib.Algebra.GroupWithZero.Nat
import Mathlib.Algebra.Order.BigOperators.Group.List
import Mathlib.Algebra.Order.Group.Nat
import CloudScale.Lib.Alone
import CloudScale.OrderService.Compensation
import CloudScale.OrderService.Confluence
import CloudScale.OrderService.Idempotency
import CloudScale.Shared.DatabaseSessions

namespace CloudScale.Tenancy

open CloudScale.Lib CloudScale.Shared CloudScale.Shared.RowSecurity OrderService

section SagaContext

/-! ## What a session sees -/

/-- `upgrade()` of the order service's first migration. -/
def orderCatalog : Catalog := fun table =>
  if table = "orders" ∨ table = "order_items" then some (generateRlsMigration table "tenant_id")
  else none

/-- The columns that the policy of the orders reads. -/
def orderRow (o : Order) : Row := fun column =>
  if column = "tenant_id" then some o.tenantId else none

def orderDatabase (db : OrderDb) : Database where
  rows table := if table = "orders" then db.orders.rows.map orderRow else []
  orders_key := by
    intro o ho _ _ _ hsome
    obtain ⟨order, -, rfl⟩ := List.mem_map.mp ho
    exact absurd rfl hsome

/-- The database as a session sees it. The inbox and the outbox have no policies. -/
def underRls (owner : Bool) (setting : Option String) (db : OrderDb) : OrderDb :=
  { db with orders := {
      rows := db.orders.rows.filter fun o =>
        passes orderCatalog owner setting (orderDatabase db) "orders" .select Policy.usingExpr
          (orderRow o)
      nodup := db.orders.nodup.sublist (List.filter_sublist.map _) } }

/-- The setting of `db_manager.session()`. -/
def sagaSetting : Option String := DatabaseSessions.contextOf none

/-- The order service on a database that its sessions see through `view`. -/
def serviceSeeing (view : OrderDb → OrderDb) : Service OrderDb Unit OrderRequest OrderEnv OrderQuery
    OrderAnswer Exc (Outcome OrderWrites) :=
  { service with answer := fun env _ db q => (view db).answer env q }

/-- In every run of sessions, a statement of one that was opened without a tenant executes with the
    setting unset. -/
theorem saga_statements_unset {ls : List DatabaseSessions.Label} {s : DatabaseSessions.State}
    (hrun : Reaches DatabaseSessions.step anyStep DatabaseSessions.initial ls s)
    {e : DatabaseSessions.Executed} (he : e ∈ s.executed) (htenant : e.tenantId = none) :
    e.setting = sagaSetting := by
  obtain hnone | hown := (DatabaseSessions.isolated_run hrun).executed e he
  · exact hnone
  · exact hown.trans htenant

/-- Without a tenant no order is visible. -/
theorem underRls_unset (owner : Bool) (db : OrderDb) :
    (underRls owner sagaSetting db).orders.rows = [] := by
  refine List.filter_eq_nil_iff.mpr fun o _ hpasses => ?_
  have hmig : orderCatalog "orders" = some (generateRlsMigration "orders" "tenant_id") := rfl
  obtain ⟨tenant, hset, -⟩ := ownRow_of_passes hmig (.inl rfl) hpasses
  exact absurd hset.symm (Option.some_ne_none tenant)

/-! ## Sequences of events and sweeps -/

inductive SagaStep where
  | event (e : SagaEvent)
  | sweep (cutoff : Int) (limit : ℕ)

def SagaStep.request : SagaStep → OrderRequest
  | .event e => .event e
  | .sweep cutoff limit => .sweep cutoff limit

/-- The database and the number of the next transaction. -/
structure SagaState where
  next : ℕ
  db : OrderDb

/-- The transaction of one event, or of one batch of the sweeper, from its begin to its end. -/
def sagaStep (view : OrderDb → OrderDb) (s : SagaState) (l : SagaStep × OrderEnv) :
    Option SagaState :=
  some ⟨s.next + 1, ((serviceSeeing view).alone l.2 s.next l.1.request () s.db).2.1⟩

/-- The statuses of the orders. -/
def statuses (db : OrderDb) : List (Ident × OrderStatus) :=
  db.orders.rows.map fun o => (o.id, o.status)

def SameOutcome (db db' : OrderDb) : Prop :=
  statuses db = statuses db' ∧ db.outbox.rows = db'.outbox.rows

instance (db db' : OrderDb) : Decidable (SameOutcome db db') :=
  inferInstanceAs (Decidable (_ ∧ _))

/-- The step finds something to do: an order in a status from which its handler moves it, or a
    stale order. -/
def Finds (db : OrderDb) : SagaStep → Prop
  | .event e => ¬ db.Processed e ∧ ∃ o ∈ e.payload.orderId.bind db.orders.get,
      ∃ m ∈ moves e.eventType, o.status ∈ m.1
  | .sweep cutoff limit => 0 < limit ∧ ∃ o ∈ db.orders.rows, stale cutoff o = true

instance (db : OrderDb) (l : SagaStep) : Decidable (Finds db l) :=
  match l with
  | .event e => inferInstanceAs (Decidable (¬ db.Processed e ∧
      ∃ o ∈ e.payload.orderId.bind db.orders.get, ∃ m ∈ moves e.eventType, o.status ∈ m.1))
  | .sweep cutoff limit =>
    inferInstanceAs (Decidable (0 < limit ∧ ∃ o ∈ db.orders.rows, stale cutoff o = true))

/-- The identifiers that the step would insert fit their columns. -/
def Fits : SagaStep → Prop
  | .event e => fitsIdent 36 e.eventId = true ∧
      (e.eventType = .paymentFailedEvent → fitsIdent 36 e.correlationId = true)
  | .sweep _ _ => True

instance (l : SagaStep) : Decidable (Fits l) :=
  match l with
  | .event e => inferInstanceAs (Decidable (fitsIdent 36 e.eventId = true ∧
      (e.eventType = .paymentFailedEvent → fitsIdent 36 e.correlationId = true)))
  | .sweep _ _ => isTrue trivial

/-- The step moves an order. -/
def Moves (s : SagaState) (l : SagaStep × OrderEnv) : Prop :=
  Finds s.db l.1 ∧ Fits l.1

instance (s : SagaState) (l : SagaStep × OrderEnv) : Decidable (Moves s l) :=
  inferInstanceAs (Decidable (_ ∧ _))

/-- Idempotency keys are unique, and the identifiers still to be drawn are new. -/
structure Sound (s : SagaState) : Prop where
  keys : (s.db.orders.rows.map (·.idempotencyKey)).Nodup
  undrawn : ∀ tid, s.next ≤ tid → Undrawn s.db tid

/-! ## What a step computes -/

variable {ω : OrderEnv} {tid : ℕ} {e : SagaEvent} {seen db db' : OrderDb} {w : OrderWrites}

/-- The writes of a handler that moves the order to `next`. -/
def moveWrites (tid : ℕ) (e : SagaEvent) (next : OrderStatus) (o : Order) : OrderWrites where
  updates := [⟨o, next⟩]
  outbox := if e.eventType = .paymentFailedEvent then [paymentFailedCancellation tid e o] else []

/-- The writes of the handler that found the row. -/
def eventWrites (tid : ℕ) (e : SagaEvent) (m : List OrderStatus × OrderStatus) :
    Option Order → OrderWrites
  | some o => if o.status ∈ m.1 then moveWrites tid e m.2 o else {}
  | none => {}

def eventResult (tid : ℕ) (e : SagaEvent) (seen : OrderDb) : Except Exc (Outcome OrderWrites) :=
  if seen.Processed e then .ok .skipped
  else match moves e.eventType with
    | none => .ok .ignored
    | some m => match e.payload.orderId with
      | none => .error .uuidError
      | some id => .ok (.handled ((eventWrites tid e m (seen.orders.get id)).record e))

def sagaResult (ω : OrderEnv) (tid : ℕ) (seen : OrderDb) :
    SagaStep → Except Exc (Outcome OrderWrites)
  | .event e => eventResult tid e seen
  | .sweep cutoff limit =>
    let staleOrders := seen.staleOrders ω.scan cutoff limit
    .ok (.handled { updates := staleOrders.map fun o => ⟨o, .cancelled⟩
                    outbox := staleOrders.mapIdx (timeoutEvent tid) })

theorem transition_exec {m : List OrderStatus × OrderStatus} (x : Unit)
    (htype : e.eventType ≠ .paymentFailedEvent) :
    (transition m.1 m.2 e.payload).exec (fun _ q => seen.answer ω q) (fun _ y => y) x =
      match e.payload.orderId with
      | none => (.error .uuidError, x)
      | some id => (.ok (eventWrites tid e m (seen.orders.get id)), x) := by
  unfold transition
  cases e.payload.orderId with
  | none => rfl
  | some id =>
    show Txn.exec _ _ (match seen.orders.get id with | some order => _ | none => _) x =
      (.ok (eventWrites tid e m (seen.orders.get id)), x)
    cases seen.orders.get id with
    | none => rfl
    | some o =>
      by_cases hstatus : o.status ∈ m.1
      · simp [eventWrites, moveWrites, hstatus, htype]
      · simp [eventWrites, hstatus]

theorem handlePaymentFailed_exec (x : Unit) (htype : e.eventType = .paymentFailedEvent) :
    (handlePaymentFailed tid e.correlationId e.payload).exec (fun _ q => seen.answer ω q)
        (fun _ y => y) x =
      match e.payload.orderId with
      | none => (.error .uuidError, x)
      | some id => (.ok (eventWrites tid e ([.pending, .stockReserved], .cancelled)
          (seen.orders.get id)), x) := by
  unfold handlePaymentFailed
  cases e.payload.orderId with
  | none => rfl
  | some id =>
    show Txn.exec _ _ (match seen.orders.get id with | some order => _ | none => _) x =
      (.ok (eventWrites tid e ([.pending, .stockReserved], .cancelled) (seen.orders.get id)), x)
    cases hget : seen.orders.get id with
    | none => rfl
    | some o =>
      obtain rfl : o.id = id := Table.get_key hget
      by_cases hstatus : o.status ∈ [OrderStatus.pending, .stockReserved]
      · simp only [if_pos hstatus, eventWrites, moveWrites, if_pos htype]
        rfl
      · simp only [if_neg hstatus, eventWrites]
        rfl

/-- The handler of an event whose type is handled. -/
theorem handlerOf_exec {m : List OrderStatus × OrderStatus} (hm : moves e.eventType = some m)
    (x : Unit) : ∃ handler, handlerOf tid e = some handler ∧
      handler.exec (fun _ q => seen.answer ω q) (fun _ y => y) x =
        match e.payload.orderId with
        | none => (.error .uuidError, x)
        | some id => (.ok (eventWrites tid e m (seen.orders.get id)), x) := by
  unfold handlerOf
  cases htype : e.eventType with
  | inventoryReservedEvent =>
    rw [htype] at hm
    cases hm
    exact ⟨_, rfl, transition_exec (m := ([.pending], .stockReserved)) x (by simp [htype])⟩
  | inventoryReserveFailedEvent =>
    rw [htype] at hm
    cases hm
    exact ⟨_, rfl, transition_exec (m := ([.pending, .stockReserved], .cancelledNoStock)) x
      (by simp [htype])⟩
  | paymentSuccessEvent =>
    rw [htype] at hm
    cases hm
    exact ⟨_, rfl, transition_exec (m := ([.stockReserved], .confirmed)) x (by simp [htype])⟩
  | paymentFailedEvent =>
    rw [htype] at hm
    cases hm
    exact ⟨_, rfl, handlePaymentFailed_exec x htype⟩
  | _ =>
    rw [htype] at hm
    cases hm

theorem handlerOf_none (hm : moves e.eventType = none) : handlerOf tid e = none := by
  unfold handlerOf
  cases htype : e.eventType <;> first
    | rfl
    | (rw [htype] at hm; cases hm)

theorem event_exec (x : Unit) :
    (processEvent tid e).exec (fun _ q => seen.answer ω q) (fun _ y => y) x =
      (eventResult tid e seen, x) := by
  unfold eventResult
  show Txn.exec _ _ (if inboxAlreadyProcessed seen.inbox e.eventId = true then _ else _) x = _
  by_cases hseen : inboxAlreadyProcessed seen.inbox e.eventId = true
  · have hprocessed : seen.Processed e := hseen
    rw [if_pos hseen, if_pos hprocessed]
    rfl
  · have hprocessed : ¬ seen.Processed e := hseen
    rw [if_neg hseen, if_neg hprocessed]
    cases hm : moves e.eventType with
    | none =>
      rw [handlerOf_none hm]
      rfl
    | some m =>
      obtain ⟨handler, hhandler, hexec⟩ : ∃ handler, handlerOf tid e = some handler ∧
          handler.exec (fun _ q => seen.answer ω q) (fun _ y => y) x = _ := handlerOf_exec hm x
      rw [hhandler]
      show (handler >>= _).exec _ _ x = _
      rw [exec_bind, hexec]
      cases e.payload.orderId with
      | none => rfl
      | some id => rfl

theorem saga_exec (l : SagaStep) (x : Unit) :
    (program tid l.request).exec (fun _ q => seen.answer ω q) (fun _ y => y) x =
      (sagaResult ω tid seen l, x) := by
  cases l with
  | event e => exact event_exec x
  | sweep cutoff limit => rfl

/-- The database after a transaction that ends so. -/
def after (result : Except Exc (Outcome OrderWrites)) (db : OrderDb) : OrderDb :=
  match result with
  | .ok o => (OrderService.commit o db).getD db
  | .error _ => db

theorem sagaStep_eq {view : OrderDb → OrderDb} {s : SagaState} {l : SagaStep × OrderEnv} :
    sagaStep view s l = some ⟨s.next + 1, after (sagaResult l.2 s.next (view s.db) l.1) s.db⟩ := by
  have hexec : ((serviceSeeing view).prog s.next l.1.request).exec
      (fun x q => (serviceSeeing view).answer l.2 x s.db q) (serviceSeeing view).effect () =
      (sagaResult l.2 s.next (view s.db) l.1, ()) := saga_exec l.1 ()
  unfold sagaStep
  cases hres : sagaResult l.2 s.next (view s.db) l.1 with
  | error ex =>
    rw [hres] at hexec
    rw [Service.alone_of_error hexec]
    rfl
  | ok o =>
    rw [hres] at hexec
    rw [Service.alone_of_ok hexec]
    show some (SagaState.mk _ (settle o s.db (OrderService.commit o s.db)).2) = _
    rw [settle_snd]
    rfl

/-! ## Steps that find nothing -/

/-- The statuses and the outbox stay as they are. -/
def Unmoved (db db' : OrderDb) : Prop :=
  db'.orders = db.orders ∧ db'.outbox = db.outbox

/-- Writes of nothing but an inbox row. -/
structure Quiet (w : OrderWrites) : Prop where
  created : w.created = none
  updates : w.updates = []
  outbox : w.outbox = []

theorem commit_quiet (hw : Quiet w) (hc : db.commit w = some db') : Unmoved db db' := by
  obtain ⟨horders, houtbox, -⟩ := commit_eq_some hc
  rw [hw.updates, hw.created] at horders
  rw [hw.outbox] at houtbox
  have hsame : db.orders.extend [] = some db'.orders := horders
  rw [Table.extend_nil] at hsame houtbox
  exact ⟨(Option.some.inj hsame).symm, (Option.some.inj houtbox).symm⟩

theorem after_unmoved {result : Except Exc (Outcome OrderWrites)}
    (h : ∀ w, result = .ok (.handled w) → Quiet w ∨ w.storable = false) :
    Unmoved db (after result db) := by
  cases result with
  | error ex => exact ⟨rfl, rfl⟩
  | ok o =>
    cases o with
    | skipped => exact ⟨rfl, rfl⟩
    | ignored => exact ⟨rfl, rfl⟩
    | handled w =>
      show Unmoved db ((db.commit w).getD db)
      cases hc : db.commit w with
      | none => exact ⟨rfl, rfl⟩
      | some db' =>
        obtain hquiet | hunfit := h w rfl
        · exact commit_quiet hquiet hc
        · rw [commit_unfit hunfit] at hc
          cases hc

theorem quiet_record : Quiet (OrderWrites.record e {}) := ⟨rfl, rfl, rfl⟩

/-- A step that finds nothing to do writes nothing but its inbox row. -/
theorem quiet_of_not_finds {l : SagaStep} (h : ¬ Finds seen l)
    (hres : sagaResult ω tid seen l = .ok (.handled w)) : Quiet w := by
  cases l with
  | event e =>
    simp only [sagaResult, eventResult] at hres
    by_cases hseen : seen.Processed e
    · rw [if_pos hseen] at hres
      cases hres
    rw [if_neg hseen] at hres
    cases hm : moves e.eventType with
    | none =>
      rw [hm] at hres
      cases hres
    | some m =>
      cases horder : e.payload.orderId with
      | none =>
        rw [hm, horder] at hres
        cases hres
      | some id =>
        rw [hm, horder] at hres
        cases hres
        cases hget : seen.orders.get id with
        | none => exact quiet_record
        | some o =>
          have hstatus : o.status ∉ m.1 := fun hstatus =>
            h ⟨hseen, o, by rw [horder]; exact hget, m, hm, hstatus⟩
          rw [eventWrites, if_neg hstatus]
          exact quiet_record
  | sweep cutoff limit =>
    cases hres
    have hnone : seen.staleOrders ω.scan cutoff limit = [] := by
      refine List.eq_nil_iff_forall_not_mem.mpr fun o ho => ?_
      have hpos : 0 < limit := by
        refine Nat.pos_of_ne_zero fun hzero => ?_
        rw [hzero] at ho
        exact absurd ho (by simp [OrderDb.staleOrders])
      obtain ⟨hmem, hstale⟩ := staleOrders_sound.2 o ho
      exact h ⟨hpos, o, hmem, hstale⟩
    rw [hnone]
    exact ⟨rfl, rfl, rfl⟩

/-- With no order in sight there is nothing to do. -/
theorem not_finds_of_unseen (h : seen.orders.rows = []) (l : SagaStep) : ¬ Finds seen l := by
  have hget : ∀ id, seen.orders.get id = none := fun id => by
    rw [Table.get_eq_none_iff, h]
    exact List.not_mem_nil
  cases l with
  | event e =>
    rintro ⟨-, o, ho, -⟩
    obtain ⟨id, -, hsome⟩ := Option.bind_eq_some_iff.mp ho
    exact Option.some_ne_none o (hsome.symm.trans (hget id))
  | sweep cutoff limit =>
    rintro ⟨-, o, ho, -⟩
    rw [h] at ho
    exact List.not_mem_nil ho

/-! ## Steps that move an order -/

/-- How far an order has come. -/
def rank : OrderStatus → ℕ
  | .pending => 0
  | .stockReserved | .cancelling => 1
  | .confirmed | .cancelled | .cancelledNoStock => 2

def progress (orders : Orders) : ℕ := (orders.rows.map fun o => rank o.status).sum

theorem rank_lt_of_edge {st st' : OrderStatus} (h : Edge st st') : rank st < rank st' := by
  have hopen : st ∈ [OrderStatus.pending, .stockReserved] → rank st < 2 := by
    intro hst
    obtain rfl | rfl : st = .pending ∨ st = .stockReserved := by simpa using hst
    · decide
    · decide
  cases h with
  | stockReserved => decide
  | confirmed => decide
  | cancelled h => exact hopen h
  | cancelledNoStock h => exact hopen h

/-- An update of a row as it is, along an edge, is progress. -/
theorem progress_run {u : StatusUpdate} {orders : Orders}
    (hget : orders.get u.loaded.id = some u.loaded) (hedge : Edge u.loaded.status u.status) :
    progress orders < progress (u.run orders) := by
  have hrow : ∀ o ∈ orders.rows, o.id = u.loaded.id → o = u.loaded := fun o ho hid =>
    Table.row_eq_of_key ho (Table.mem_of_get hget) hid
  unfold progress
  rw [rows_run, List.map_map]
  refine List.sum_lt_sum _ _ (fun o ho => ?_) ⟨u.loaded, Table.mem_of_get hget, ?_⟩
  · by_cases hid : o.id = u.loaded.id
    · obtain rfl := hrow o ho hid
      simpa [Order.withStatus] using (rank_lt_of_edge hedge).le
    · simp [hid]
  · simpa [Order.withStatus] using rank_lt_of_edge hedge

theorem progress_runUpdates (us : List StatusUpdate) (orders : Orders)
    (hnodup : (us.map (·.loaded.id)).Nodup)
    (hexact : ∀ u ∈ us, orders.get u.loaded.id = some u.loaded)
    (hedge : ∀ u ∈ us, Edge u.loaded.status u.status) :
    progress orders + us.length ≤ progress (runUpdates orders us) := by
  induction us generalizing orders with
  | nil => exact le_rfl
  | cons u us ih =>
    rw [List.map_cons, List.nodup_cons] at hnodup
    have hrun := progress_run (hexact u List.mem_cons_self) (hedge u List.mem_cons_self)
    -- the other updates find their rows as they were
    have hrest : ∀ v ∈ us, (u.run orders).get v.loaded.id = some v.loaded := fun v hv => by
      have hne : v.loaded.id ≠ u.loaded.id := fun heq =>
        hnodup.1 (heq ▸ List.mem_map_of_mem hv)
      rw [get_run, if_neg hne]
      exact hexact v (List.mem_cons_of_mem u hv)
    have hle := ih (u.run orders) hnodup.2 hrest fun v hv => hedge v (List.mem_cons_of_mem u hv)
    have heq : runUpdates orders (u :: us) = runUpdates (u.run orders) us := rfl
    rw [heq, List.length_cons]
    omega

/-- What a transaction that was not disturbed writes. -/
theorem writes_of_result {l : SagaStep} (hres : sagaResult ω tid db l = .ok (.handled w)) :
    Compensates db w ∧ Account tid db l.request w := by
  have hexec : (program tid l.request).exec (fun _ q => answers id ω db q) (fun _ y => y) () =
      (.ok (.handled w), ()) := hres ▸ saga_exec l ()
  have hcomp : SafeAlone CompensatesOutcome (program tid l.request) db :=
    program_compensates l.request
  have haccount : SafeAlone (fun t o => AccountedOutcome tid t l.request o)
      (program tid l.request) db :=
    program_account (fun s t h => h ▸ Persist.refl s) (fun _ => rfl) (fun _ _ _ h h' => h.trans h')
      l.request
  have hcompensates : CompensatesOutcome db (.handled w) := exec_safe hcomp hexec
  have haccounted := exec_safe haccount hexec
  exact ⟨hcompensates, haccounted⟩

theorem not_mem_inbox (h : ¬ db.Processed e) : e.eventId ∉ db.inbox.rows.map (·.eventId) :=
  fun hmem => h (inboxAlreadyProcessed_iff.mpr hmem)

/-- Writes that insert no order are committed if their identifiers are new and fit. -/
theorem commit_updates (hkeys : (db.orders.rows.map (·.idempotencyKey)).Nodup)
    (hcreated : w.created = none)
    (houtbox : ((db.outbox.rows ++ w.outbox).map (·.eventId)).Nodup)
    (hinbox : ∀ m ∈ w.inbox, m.eventId ∉ db.inbox.rows.map (·.eventId))
    (hfits : w.storable = true) : ∃ db', db.commit w = some db' := by
  have hrows : ((runUpdates db.orders w.updates).rows.map (·.idempotencyKey)).Nodup := by
    obtain ⟨g, hg, hrows⟩ := rows_runUpdates w.updates db.orders
    have hkey : (fun o : Order => o.idempotencyKey) ∘ g = fun o => o.idempotencyKey := by
      funext o
      obtain ⟨st, hst⟩ := hg o
      show (g o).idempotencyKey = _
      rw [hst]
      rfl
    rw [hrows, List.map_map, hkey]
    exact hkeys
  obtain ⟨inbox, hin⟩ : ∃ inbox, db.inbox.extend w.inbox.toList = some inbox := by
    cases hm : w.inbox with
    | none => exact ⟨_, Table.extend_nil _⟩
    | some m => exact Table.extend_eq_some (hinbox m hm)
  have hout : db.outbox.extend w.outbox = some ⟨db.outbox.rows ++ w.outbox, houtbox⟩ :=
    dif_pos houtbox
  have hunique : keysUnique (runUpdates db.orders w.updates) = true := decide_eq_true hrows
  refine ⟨⟨runUpdates db.orders w.updates, ⟨db.outbox.rows ++ w.outbox, houtbox⟩, inbox⟩, ?_⟩
  unfold OrderDb.commit
  rw [hcreated, hout, hin]
  show ((runUpdates db.orders w.updates).extend []).bind _ = _
  rw [Table.extend_nil]
  simp [hunique, hfits]

/-- A batch is not empty when there is a stale order. -/
theorem staleOrders_ne_nil {scan : List Order} {cutoff : Int} {limit : ℕ} {o : Order}
    (hpos : 0 < limit) (ho : o ∈ db.orders.rows) (hstale : stale cutoff o = true) :
    db.staleOrders scan cutoff limit ≠ [] := by
  have hmem : o ∈ db.orders.rows.filter (stale cutoff) := List.mem_filter.mpr ⟨ho, hstale⟩
  unfold OrderDb.staleOrders
  intro hnil
  obtain hzero | hnil := List.take_eq_nil_iff.mp hnil
  · omega
  · by_cases hscan : scan.Perm (db.orders.rows.filter (stale cutoff))
    · rw [if_pos hscan] at hnil
      exact List.not_mem_nil (hnil ▸ hscan.mem_iff.mpr hmem)
    · rw [if_neg hscan] at hnil
      exact List.not_mem_nil (hnil ▸ hmem)

theorem nodup_timeoutEvents (os : List Order) :
    ((os.mapIdx (timeoutEvent tid)).map (·.eventId)).Nodup := by
  refine List.pairwise_iff_getElem.mpr fun i j hi hj hlt heq => ?_
  simp only [List.getElem_map, List.getElem_mapIdx] at heq
  have hids : Ident.drawn .order tid (2 * i) = .drawn .order tid (2 * j) := heq
  have heqn := (Ident.drawn.inj hids).2.2
  omega

/-- The writes of a step that finds something to do. -/
theorem result_of_finds {l : SagaStep} (h : Finds db l) :
    ∃ w, sagaResult ω tid db l = .ok (.handled w) ∧ w.updates ≠ [] ∧ w.created = none ∧
      (w.outbox.map (·.eventId)).Nodup ∧
      (∀ m ∈ w.inbox, m.eventId ∉ db.inbox.rows.map (·.eventId)) ∧
      (w.storable = true ↔ Fits l) := by
  cases l with
  | event e =>
    obtain ⟨hnew, o, ho, m, hm, hstatus⟩ := h
    obtain ⟨id, horder, hget⟩ := Option.bind_eq_some_iff.mp ho
    have hwrites : eventWrites tid e m (db.orders.get id) = moveWrites tid e m.2 o := by
      rw [hget, eventWrites, if_pos hstatus]
    refine ⟨(moveWrites tid e m.2 o).record e, ?_, List.cons_ne_nil _ _, rfl, ?_, ?_, ?_⟩
    · simp only [sagaResult, eventResult, if_neg hnew, Option.mem_def.mp hm, horder, hwrites]
    · show (List.map _ (if _ then _ else _)).Nodup
      split
      · exact List.nodup_singleton _
      · exact List.nodup_nil
    · intro x hx
      cases hx
      exact not_mem_inbox hnew
    · by_cases htype : e.eventType = .paymentFailedEvent
      · simp [OrderWrites.storable, OrderWrites.record, moveWrites, Fits, htype,
          paymentFailedCancellation, writeOutbox, recordInbox, and_comm]
      · simp [OrderWrites.storable, OrderWrites.record, moveWrites, Fits, htype, recordInbox]
  | sweep cutoff limit =>
    obtain ⟨hpos, o, ho, hstale⟩ := h
    have hsome : db.staleOrders ω.scan cutoff limit ≠ [] := staleOrders_ne_nil hpos ho hstale
    refine ⟨_, rfl, ?_, rfl, ?_, fun x hx => absurd hx.symm (Option.some_ne_none x), ?_⟩
    · simpa using hsome
    · exact nodup_timeoutEvents _
    · simp only [OrderWrites.storable, Fits, iff_true, Option.all_none, Bool.true_and,
        Bool.and_true,
        List.all_eq_true]
      intro row hrow
      obtain ⟨i, hi, rfl⟩ := List.mem_mapIdx.mp hrow
      rfl

/-! ## One step -/

variable {s s' t : SagaState} {l : SagaStep × OrderEnv}

theorem commit_progress (hcomp : Compensates db w) (hcreated : w.created = none)
    (hc : db.commit w = some db') :
    progress db.orders + w.updates.length ≤ progress db'.orders := by
  obtain ⟨horders, -, -⟩ := commit_eq_some hc
  rw [hcreated] at horders
  have hsame : (runUpdates db.orders w.updates).extend [] = some db'.orders := horders
  rw [Table.extend_nil, Option.some.injEq] at hsame
  rw [← hsame]
  exact progress_runUpdates w.updates db.orders hcomp.nodup hcomp.exact hcomp.edge

/-- A step that moves an order is progress; any other leaves the orders and the outbox. -/
theorem sagaStep_progress (h : Sound s) (hs : sagaStep id s l = some s') :
    (Moves s l ∧ progress s.db.orders < progress s'.db.orders) ∨
      (¬ Moves s l ∧ Unmoved s.db s'.db) := by
  rw [sagaStep_eq] at hs
  cases hs
  by_cases hfinds : Finds s.db l.1
  · obtain ⟨w, hres, hupdates, hcreated, hids, hinbox, hfits⟩ :
        ∃ w, sagaResult l.2 s.next s.db l.1 = .ok (.handled w) ∧ _ := result_of_finds hfinds
    have hwrites := writes_of_result hres
    rw [id, hres]
    by_cases hfit : Fits l.1
    · refine .inl ⟨⟨hfinds, hfit⟩, ?_⟩
      have houtbox : ((s.db.outbox.rows ++ w.outbox).map (·.eventId)).Nodup := by
        rw [List.map_append]
        refine List.nodup_append.mpr ⟨s.db.outbox.nodup, hids, fun a ha b hb hab => ?_⟩
        obtain ⟨row, hrow, rfl⟩ := List.mem_map.mp ha
        obtain ⟨new, hnew, rfl⟩ := List.mem_map.mp hb
        obtain ⟨n, hn⟩ := hwrites.2.drawn.2 new hnew
        exact (h.undrawn s.next le_rfl).outbox row hrow n (hab.trans hn)
      obtain ⟨db', hc⟩ := commit_updates h.keys hcreated houtbox hinbox (hfits.mpr hfit)
      have hle := commit_progress hwrites.1 hcreated hc
      have hlen := List.length_pos_iff.mpr hupdates
      show progress s.db.orders < progress ((s.db.commit w).getD s.db).orders
      rw [hc, Option.getD_some]
      omega
    · refine .inr ⟨fun hmoves => hfit hmoves.2, after_unmoved fun w' hw' => .inr ?_⟩
      cases hw'
      exact Bool.eq_false_iff.mpr fun hstorable => hfit (hfits.mp hstorable)
  · refine .inr ⟨fun hmoves => hfinds hmoves.1, after_unmoved fun w hw => .inl ?_⟩
    exact quiet_of_not_finds hfinds hw

theorem sagaStep_sound (h : Sound s) (hs : sagaStep id s l = some s') : Sound s' := by
  rw [sagaStep_eq] at hs
  cases hs
  have hsame : Sound ⟨s.next + 1, s.db⟩ :=
    ⟨h.keys, fun tid hle => h.undrawn tid (Nat.le_of_succ_le hle)⟩
  cases hres : sagaResult l.2 s.next (id s.db) l.1 with
  | error ex => exact hsame
  | ok o =>
    cases o with
    | skipped => exact hsame
    | ignored => exact hsame
    | handled w =>
      have hwrites := writes_of_result hres
      show Sound ⟨s.next + 1, (s.db.commit w).getD s.db⟩
      cases hc : s.db.commit w with
      | none => exact hsame
      | some db' =>
        refine ⟨commit_keys hc, fun tid hle => ?_⟩
        have hne : tid ≠ s.next := Nat.ne_of_gt hle
        exact commit_undrawn (h.undrawn tid (Nat.le_of_succ_le hle)) hwrites.2 hc hne

/-- A step whose session sees no order moves none. -/
theorem sagaStep_unseen {view : OrderDb → OrderDb} (hview : (view s.db).orders.rows = [])
    (hs : sagaStep view s l = some s') : Unmoved s.db s'.db := by
  rw [sagaStep_eq] at hs
  cases hs
  exact after_unmoved fun w hw => .inl (quiet_of_not_finds (not_finds_of_unseen hview l.1) hw)

/-! ## Sequences -/

/-- The database at the end of a sequence. -/
def sagaRun (view : OrderDb → OrderDb) (s : SagaState)
    (ls : List (SagaStep × OrderEnv)) : OrderDb :=
  match runFrom (sagaStep view) s ls with
  | some t => t.db
  | none => s.db

theorem sagaRun_eq (view : OrderDb → OrderDb) (s : SagaState) (ls : List (SagaStep × OrderEnv)) :
    ∃ t, runFrom (sagaStep view) s ls = some t ∧ sagaRun view s ls = t.db := by
  obtain ⟨t, ht⟩ : ∃ t, runFrom (sagaStep view) s ls = some t := by
    induction ls generalizing s with
    | nil => exact ⟨s, rfl⟩
    | cons l ls ih => exact ih _
  exact ⟨t, ht, by rw [sagaRun, ht]⟩

theorem unmoved_run {view : OrderDb → OrderDb} {ok : SagaState → SagaStep × OrderEnv → Prop}
    (Inv : SagaState → Prop) {ls : List (SagaStep × OrderEnv)}
    (hrun : Reaches (sagaStep view) ok s ls t) (h0 : Inv s)
    (hstep : ∀ u l u', Inv u → ok u l → sagaStep view u l = some u' →
      Inv u' ∧ Unmoved u.db u'.db) : Unmoved s.db t.db := by
  have hinv : Inv t ∧ Unmoved s.db t.db := by
    refine hrun.invariant (fun u => Inv u ∧ Unmoved s.db u.db) ⟨h0, rfl, rfl⟩ ?_
    rintro u l u' ⟨hu, hsame⟩ hok hs
    obtain ⟨hu', hstep'⟩ := hstep u l u' hu hok hs
    exact ⟨hu', hstep'.1.trans hsame.1, hstep'.2.trans hsame.2⟩
  exact hinv.2

/-- Under the policies no sequence moves an order. -/
theorem underRls_unmoved (owner : Bool) (s : SagaState) (ls : List (SagaStep × OrderEnv)) :
    Unmoved s.db (sagaRun (underRls owner sagaSetting) s ls) := by
  obtain ⟨t, hrun, hend⟩ := sagaRun_eq (underRls owner sagaSetting) s ls
  rw [hend]
  exact unmoved_run (fun _ => True) (reaches_run hrun) trivial fun u l u' _ _ hs =>
    ⟨trivial, sagaStep_unseen (underRls_unset owner u.db) hs⟩

theorem progress_of_statuses (h : statuses db = statuses db') :
    progress db.orders = progress db'.orders := by
  have hrank := congrArg (fun l => (l.map fun x : Ident × OrderStatus => rank x.2).sum) h
  unfold progress
  simpa only [statuses, List.map_map, Function.comp_def] using hrank

/-- Progress over a sequence is made exactly by the steps that move an order. -/
theorem progress_run_iff (h : Sound s) {ls : List (SagaStep × OrderEnv)}
    (hrun : runFrom (sagaStep id) s ls = some t) :
    progress t.db.orders = progress s.db.orders ↔
      AllSteps (sagaStep id) (fun u l => ¬ Moves u l) s ls := by
  have hstep : ∀ u l u', Sound u → sagaStep id u l = some u' →
      progress u.db.orders ≤ progress u'.db.orders ∧
        (progress u'.db.orders = progress u.db.orders ↔ ¬ Moves u l) := by
    intro u l u' hu hs
    obtain ⟨hmoves, hlt⟩ | ⟨hidle, hsame⟩ := sagaStep_progress hu hs
    · exact ⟨hlt.le, iff_of_false hlt.ne' (not_not_intro hmoves)⟩
    · have heq : progress u'.db.orders = progress u.db.orders := congrArg progress hsame.1
      exact ⟨heq.ge, iff_of_true heq hidle⟩
  exact runFrom_measure_iff (fun _ _ _ => sagaStep_sound)
    (fun u l u' hu hs => (hstep u l u' hu hs).1)
    (fun u l u' hu hs => (hstep u l u' hu hs).2) h hrun

/-- The consumers and the sweeper work the same with and without the policies exactly when, without
    them, they never move an order. -/
theorem rls_transparent_iff (owner : Bool) (h : Sound s) (ls : List (SagaStep × OrderEnv)) :
    SameOutcome (sagaRun id s ls) (sagaRun (underRls owner sagaSetting) s ls) ↔
      AllSteps (sagaStep id) (fun u l => ¬ Moves u l) s ls := by
  obtain ⟨t, hrun, hend⟩ := sagaRun_eq id s ls
  obtain ⟨horders, houtbox⟩ := underRls_unmoved owner s ls
  rw [hend]
  constructor
  · rintro ⟨hstatuses, -⟩
    refine (progress_run_iff h hrun).mp ?_
    rw [progress_of_statuses hstatuses, horders]
  · intro hidle
    have hreach := reaches_of_allSteps ls s t hrun hidle
    have hsame : Unmoved s.db t.db := unmoved_run Sound hreach h fun u l u' hu hok hs =>
      ⟨sagaStep_sound hu hs, ((sagaStep_progress hu hs).resolve_left fun hmove => hok hmove.1).2⟩
    constructor
    · rw [statuses, statuses, hsame.1, horders]
    · rw [hsame.2, houtbox]

/-- One pending order; the transactions from the first on have not run. -/
def pendingOrder : SagaState := ⟨1, onePending⟩

theorem pendingOrder_sound : Sound pendingOrder := by
  refine ⟨List.nodup_singleton _, fun tid hle => ⟨fun o ho n heq => ?_, fun row hrow => ?_⟩⟩
  · obtain rfl := List.mem_singleton.mp ho
    have htid : 0 = tid := (Ident.drawn.inj heq).2.1
    have hpos : 1 ≤ tid := hle
    omega
  · exact absurd hrow List.not_mem_nil

/-- A payment that comes too early, and a sweep that comes before the timeout. -/
theorem rls_transparent_iff_early :
    SameOutcome
      (sagaRun id pendingOrder [(.event paymentSuccess, ⟨[], none⟩), (.sweep (-1) 100, ⟨[], none⟩)])
      (sagaRun (underRls false sagaSetting) pendingOrder
        [(.event paymentSuccess, ⟨[], none⟩), (.sweep (-1) 100, ⟨[], none⟩)]) :=
  (rls_transparent_iff false pendingOrder_sound _).mpr (by decide +kernel)

/-- The reservation of a pending order's stock: under the policies the order stays as it is, and the
    event is recorded as processed. -/
theorem stockReserved_lost :
    ¬ SameOutcome (sagaRun id pendingOrder [(.event stockReserved, ⟨[], none⟩)])
        (sagaRun (underRls false sagaSetting) pendingOrder [(.event stockReserved, ⟨[], none⟩)]) ∧
      (sagaRun (underRls false sagaSetting) pendingOrder
        [(.event stockReserved, ⟨[], none⟩)]).Processed stockReserved := by
  decide +kernel

end SagaContext

end CloudScale.Tenancy
