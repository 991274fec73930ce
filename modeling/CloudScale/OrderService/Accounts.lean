/-
  What the order service's transactions leave.

  `Account` lists, for every kind of request, the writes of a finished transaction; an order it
  loaded is a row of the table up to its status (`Known`), because rows stay and only their status
  changes (`Persist`). `program_account` proves it of every program under any such interference,
  `order_guarantees` puts it on the server.
-/
import CloudScale.OrderService.Absorbing

namespace CloudScale.OrderService

open CloudScale.Lib CloudScale.Shared

/-! ## Rows up to their status -/

/-- The order is a row of the table, up to its status. -/
def Known (db : OrderDb) (o : Order) : Prop :=
  ∃ s, db.orders.get o.id = some (o.withStatus s)

/-- Orders stay, and only their status changes. -/
def Persist (db db' : OrderDb) : Prop :=
  ∀ id o, db.orders.get id = some o → ∃ s, db'.orders.get id = some (o.withStatus s)

theorem known_of_get {db : OrderDb} {id : Ident} {o : Order} (h : db.orders.get id = some o) :
    Known db o := by
  have hid : o.id = id := Table.get_key h
  exact ⟨o.status, hid.symm ▸ h⟩

theorem Persist.refl (db : OrderDb) : Persist db db := fun _ o h => ⟨o.status, h⟩

theorem Persist.trans {db db' db'' : OrderDb} (h : Persist db db') (h' : Persist db' db'') :
    Persist db db'' := by
  intro id o ho
  obtain ⟨s, hs⟩ := h id o ho
  obtain ⟨s', hs'⟩ := h' id _ hs
  exact ⟨s', hs'⟩

theorem Known.mono {db db' : OrderDb} {o : Order} (h : Known db o) (hp : Persist db db') :
    Known db' o := by
  obtain ⟨s, hs⟩ := h
  obtain ⟨s', hs'⟩ := hp _ _ hs
  exact ⟨s', hs'⟩

theorem get_runUpdates {us : List StatusUpdate} {orders : Orders} {id : Ident} {o : Order}
    (h : orders.get id = some o) : ∃ s, (runUpdates orders us).get id = some (o.withStatus s) := by
  induction us generalizing orders o with
  | nil => exact ⟨o.status, h⟩
  | cons u us ih =>
    have hrun : ∃ s, (u.run orders).get id = some (o.withStatus s) := by
      rw [get_run, h]
      split
      · exact ⟨u.status, rfl⟩
      · exact ⟨o.status, rfl⟩
    obtain ⟨s, hs⟩ := hrun
    obtain ⟨s', hs'⟩ := ih hs
    exact ⟨s', hs'⟩

theorem commit_persist {db db' : OrderDb} {w : OrderWrites} (h : db.commit w = some db') :
    Persist db db' := by
  intro id o ho
  obtain ⟨s, hs⟩ : ∃ s, (runUpdates db.orders w.updates).get id = some (o.withStatus s) :=
    get_runUpdates ho
  exact ⟨s, Table.get_extend_of_some (commit_eq_some h).1 hs⟩

/-- Updates replace every row by the same row in some status. -/
theorem rows_runUpdates (us : List StatusUpdate) (orders : Orders) :
    ∃ g : Order → Order, (∀ o, ∃ s, g o = o.withStatus s) ∧
      (runUpdates orders us).rows = orders.rows.map g := by
  induction us generalizing orders with
  | nil => exact ⟨id, fun o => ⟨o.status, rfl⟩, (List.map_id _).symm⟩
  | cons u us ih =>
    obtain ⟨g, hg, hrows⟩ := ih (u.run orders)
    refine ⟨fun o => g (if o.id = u.loaded.id then o.withStatus u.status else o), fun o => ?_, ?_⟩
    · dsimp only
      split
      · obtain ⟨s, hs⟩ := hg (o.withStatus u.status)
        exact ⟨s, hs⟩
      · exact hg o
    · show (runUpdates (u.run orders) us).rows = _
      rw [hrows, rows_run, List.map_map]
      rfl

theorem rows_commit {db db' : OrderDb} {w : OrderWrites} (h : db.commit w = some db') :
    ∃ g : Order → Order, (∀ o, ∃ s, g o = o.withStatus s) ∧
      db'.orders.rows = db.orders.rows.map g ++ w.created.toList := by
  obtain ⟨g, hg, hrows⟩ := rows_runUpdates w.updates db.orders
  exact ⟨g, hg, by rw [Table.rows_extend (commit_eq_some h).1, hrows]⟩

/-! ## Writes -/

/-- The status a saga event moves an order to, and the statuses it moves it from. -/
def moves : EventType → Option (List OrderStatus × OrderStatus)
  | .inventoryReservedEvent => some ([.pending], .stockReserved)
  | .inventoryReserveFailedEvent => some ([.pending, .stockReserved], .cancelledNoStock)
  | .paymentSuccessEvent => some ([.stockReserved], .confirmed)
  | .paymentFailedEvent => some ([.pending, .stockReserved], .cancelled)
  | _ => none

def paymentFailedCancellation (tid : ℕ) (e : SagaEvent) (o : Order) : OutboxRow :=
  writeOutbox .orderEvents
    { eventId := .drawn .order tid 0, eventType := .orderCancelledEvent
      correlationId := e.correlationId
      payload := { orderId := some o.id, items := itemsToRelease o } }
    (some o.id)

/-- What a finished transaction leaves, in the database `db`. -/
inductive Account (tid : ℕ) (db : OrderDb) : OrderRequest → OrderWrites → Prop where
  | existing {c : Checkout} {o : Order} (hknown : Known db o)
      (hkey : o.idempotencyKey = c.payload.idempotencyKey) (htenant : o.tenantId = c.tenant) :
      Account tid db (.checkout c) { returned := some o }
  | placed {c : Checkout} : Account tid db (.checkout c) (placed tid c)
  | swept {cutoff : Int} {limit : ℕ} {os : List Order} (hnodup : (os.map (·.id)).Nodup)
      (hknown : ∀ o ∈ os, Known db o) (hopen : ∀ o ∈ os, o.status ∈ [.pending, .stockReserved]) :
      Account tid db (.sweep cutoff limit)
        { updates := os.map fun o => ⟨o, .cancelled⟩, outbox := os.mapIdx (timeoutEvent tid) }
  | unmoved {e : SagaEvent} (hmoves : (moves e.eventType).isSome) :
      Account tid db (.event e) (OrderWrites.record e {})
  | moved {e : SagaEvent} {o : Order} {allowed : List OrderStatus} {next : OrderStatus}
      (hmoves : moves e.eventType = some (allowed, next)) (hknown : Known db o)
      (horder : e.payload.orderId = some o.id) (hstatus : o.status ∈ allowed) :
      Account tid db (.event e) (OrderWrites.record e { updates := [⟨o, next⟩] })
  | cancelled {e : SagaEvent} {o : Order} (htype : e.eventType = .paymentFailedEvent)
      (hknown : Known db o) (horder : e.payload.orderId = some o.id)
      (hstatus : o.status ∈ [.pending, .stockReserved]) :
      Account tid db (.event e) (OrderWrites.record e
        { updates := [⟨o, .cancelled⟩], outbox := [paymentFailedCancellation tid e o] })

theorem Account.mono {tid : ℕ} {db db' : OrderDb} {r : OrderRequest} {w : OrderWrites}
    (h : Account tid db r w) (hp : Persist db db') : Account tid db' r w := by
  cases h with
  | existing hknown hkey htenant => exact .existing (hknown.mono hp) hkey htenant
  | placed => exact .placed
  | swept hnodup hknown hopen => exact .swept hnodup (fun o ho => (hknown o ho).mono hp) hopen
  | unmoved hmoves => exact .unmoved hmoves
  | moved hmoves hknown horder hstatus => exact .moved hmoves (hknown.mono hp) horder hstatus
  | cancelled htype hknown horder hstatus =>
    exact .cancelled htype (hknown.mono hp) horder hstatus

/-- An order found by its key stays known. -/
theorem existing_account {tid : ℕ} {db db' : OrderDb} {c : Checkout} {o : Order}
    (hp : Persist db db') (h : db.orderByKey c.payload.idempotencyKey c.tenant = some o) :
    Account tid db' (.checkout c) { returned := some o } := by
  have hmem : o ∈ db.orders.rows := List.mem_of_find?_eq_some h
  have hkey := List.find?_some h
  simp only [Bool.and_eq_true, beq_iff_eq] at hkey
  exact .existing ((known_of_get (Table.get_of_mem hmem)).mono hp) hkey.1 hkey.2

/-- The updates are of different orders. -/
theorem Account.nodup {tid : ℕ} {db : OrderDb} {r : OrderRequest} {w : OrderWrites}
    (h : Account tid db r w) : (w.updates.map (·.loaded.id)).Nodup := by
  cases h with
  | swept hnodup hknown hopen =>
    show ((List.map _ _).map _).Nodup
    rw [List.map_map]
    exact hnodup
  | moved => exact List.nodup_singleton _
  | cancelled => exact List.nodup_singleton _
  | _ => exact List.nodup_nil

/-- The writes of an outcome, if it has any, are accounted for. -/
def AccountedOutcome (tid : ℕ) (db : OrderDb) (r : OrderRequest) : Outcome OrderWrites → Prop
  | .handled w => Account tid db r w
  | _ => True

section Programs

variable {σ : Type} {view : σ → OrderDb} {rely : σ → σ → Prop}
  {good : σ → OrderQuery → OrderEnv → Prop} {s : σ} {tid : ℕ}

theorem transition_account {e : SagaEvent} {allowed : List OrderStatus} {next : OrderStatus}
    (hrely : ∀ s t, rely s t → Persist (view s) (view t))
    (hmoves : moves e.eventType = some (allowed, next)) :
    Safe (answers view) rely good (fun t w => Account tid (view t) (.event e) (w.record e))
      (transition allowed next e.payload) s := by
  have hsome : (moves e.eventType).isSome := by rw [hmoves]; rfl
  refine safe_transition (fun _ => .unmoved hsome) fun t o horder hget hstatus u hu => ?_
  exact .moved hmoves ((known_of_get hget).mono (hrely t u hu)) horder hstatus

theorem handlePaymentFailed_account {e : SagaEvent}
    (hrely : ∀ s t, rely s t → Persist (view s) (view t))
    (htype : e.eventType = .paymentFailedEvent) :
    Safe (answers view) rely good (fun t w => Account tid (view t) (.event e) (w.record e))
      (handlePaymentFailed tid e.correlationId e.payload) s := by
  have hsome : (moves e.eventType).isSome := by rw [htype]; rfl
  refine safe_handlePaymentFailed (fun _ => .unmoved hsome) fun t o horder hget hstatus u hu => ?_
  exact .cancelled htype ((known_of_get hget).mono (hrely t u hu)) horder hstatus

theorem handlerOf_account {e : SagaEvent} {handler : OrderTxn OrderWrites}
    (hrely : ∀ s t, rely s t → Persist (view s) (view t)) (h : handlerOf tid e = some handler) :
    Safe (answers view) rely good (fun t w => Account tid (view t) (.event e) (w.record e))
      handler s := by
  unfold handlerOf at h
  split at h
  · next htype =>
    cases h
    exact transition_account hrely (by rw [htype]; rfl)
  · next htype =>
    cases h
    exact transition_account hrely (by rw [htype]; rfl)
  · next htype =>
    cases h
    exact transition_account hrely (by rw [htype]; rfl)
  · next htype =>
    cases h
    exact handlePaymentFailed_account hrely htype
  · cases h

theorem sweepStaleSagas_account {cutoff : Int} {limit : ℕ}
    (hrely : ∀ s t, rely s t → Persist (view s) (view t)) :
    Safe (answers view) rely good (fun t w => Account tid (view t) (.sweep cutoff limit) w)
      (sweepStaleSagas tid cutoff limit) s := by
  refine safe_selectStale fun t ω _ _ => fun u hu => .swept staleOrders_sound.1 ?_ ?_
  · intro o ho
    exact (known_of_get (Table.get_of_mem (staleOrders_sound.2 o ho).1)).mono (hrely t u hu)
  · exact fun o ho => open_of_stale (staleOrders_sound.2 o ho).2

/-- Every program leaves writes that are accounted for, whatever other transactions do. -/
theorem program_account (hrely : ∀ s t, rely s t → Persist (view s) (view t))
    (hrefl : ∀ s, rely s s) (htrans : ∀ s t u, rely s t → rely t u → rely s u)
    (r : OrderRequest) :
    Safe (answers view) rely good (fun t o => AccountedOutcome tid (view t) r o)
      (program tid r) s := by
  cases r with
  | event e =>
    refine safe_inInbox fun t ω _ _ => ?_
    split
    · exact fun _ _ => trivial
    · cases hh : handlerOf tid e with
      | none => exact fun _ _ => trivial
      | some handler =>
        refine (handlerOf_account hrely hh).bind (hrefl t) (fun _ u _ => hrefl u) ?_
        exact fun u w hw v hv => Account.mono hw (hrely u v hv)
  | sweep cutoff limit =>
    refine (sweepStaleSagas_account hrely).bind (hrefl s) (fun _ u _ => hrefl u) ?_
    exact fun u w hw v hv => Account.mono hw (hrely u v hv)
  | checkout c =>
    have hcreate : Safe (answers view) rely good
        (fun t w => Account tid (view t) (.checkout c) w) (createOrder tid c) s :=
      safe_createOrder htrans hrefl (fun t u o htu ho => existing_account (hrely t u htu) ho)
        fun _ _ => .placed
    refine hcreate.bind (hrefl s) (fun _ u _ => hrefl u) ?_
    exact fun u w hw v hv => Account.mono hw (hrely u v hv)

end Programs

theorem order_guarantees : Guarantees service (answers id) Persist (fun _ _ _ _ => True)
    (fun tk t o => AccountedOutcome tk.tid t tk.req o) where
  refl := Persist.refl
  trans _ _ _ := Persist.trans
  answer _ _ _ _ := rfl
  start _ r _ := program_account (fun _ _ h => h) Persist.refl (fun _ _ _ => Persist.trans) r
  commit _ db o db' ho hc := by
    cases o with
    | handled w => exact commit_persist hc
    | skipped => exact Option.some.inj hc ▸ Persist.refl db
    | ignored => exact Option.some.inj hc ▸ Persist.refl db

end CloudScale.OrderService
