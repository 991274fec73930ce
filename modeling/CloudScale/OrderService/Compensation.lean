/-
  Compensation exactly once per cancellation.

  Handlers and sweeper runs that do not overlap, and checkouts between them. `Compensates` is what
  each of them leaves: updates of the rows as they are, along the edges of the state machine
  (`Edge`), and one cancellation event for each order it cancels, with the order's lines.
  `compensated_once`: every status history follows the edges, and the outbox has exactly one
  cancellation of each cancelled order and none of any other.
-/
import CloudScale.Lib.Serial
import CloudScale.OrderService.Accounts
import CloudScale.OrderService.Confluence

namespace CloudScale.OrderService

open CloudScale.Lib CloudScale.Shared

/-! ## The state machine -/

/-- The documented transitions of an order. -/
inductive Edge : OrderStatus → OrderStatus → Prop where
  | stockReserved : Edge .pending .stockReserved
  | confirmed : Edge .stockReserved .confirmed
  | cancelled {s : OrderStatus} (h : s ∈ [.pending, .stockReserved]) : Edge s .cancelled
  | cancelledNoStock {s : OrderStatus} (h : s ∈ [.pending, .stockReserved]) :
      Edge s .cancelledNoStock

theorem Edge.not_terminal {s t : OrderStatus} (h : Edge s t) : ¬ s.Terminal := by
  cases h with
  | stockReserved => decide
  | confirmed => decide
  | cancelled h => exact not_terminal_of_open h
  | cancelledNoStock h => exact not_terminal_of_open h

/-! ## Cancellation events -/

/-- The products and quantities of an order, as an event lists them. -/
def orderLines (o : Order) : List (Option ℕ × Int) :=
  o.items.map fun i => (some i.productId, i.quantity)

def eventLines (e : SagaEvent) : List (Option ℕ × Int) :=
  e.payload.items.map fun i => (i.productId, i.quantity)

/-- The cancellation events about an order. -/
def cancellations (rows : List OutboxRow) (o : Ident) : List OutboxRow :=
  rows.filter fun r =>
    decide (r.event.eventType = .orderCancelledEvent ∧ r.event.payload.orderId = some o)

/-- The orders that an outbox cancels, with the lines of the events. -/
def cancelled (rows : List OutboxRow) : List (Option Ident × List (Option ℕ × Int)) :=
  (rows.filter fun r => decide (r.event.eventType = .orderCancelledEvent)).map fun r =>
    (r.event.payload.orderId, eventLines r.event)

/-- The orders that the updates cancel, with their lines. -/
def cancels (us : List StatusUpdate) : List (Option Ident × List (Option ℕ × Int)) :=
  (us.filter fun u => decide (u.status = .cancelled)).map fun u =>
    (some u.loaded.id, orderLines u.loaded)

theorem cancelled_append (rows rows' : List OutboxRow) :
    cancelled (rows ++ rows') = cancelled rows ++ cancelled rows' := by
  simp [cancelled, List.filter_append]

theorem eventLines_itemsToRelease {e : SagaEvent} {o : Order}
    (h : e.payload.items = itemsToRelease o) : eventLines e = orderLines o := by
  unfold eventLines orderLines
  rw [h, itemsToRelease, List.map_map]
  rfl

/-! ## What a transaction leaves -/

/-- Updates of the rows as they are, along edges, and a cancellation event for each order it
    cancels. -/
structure Compensates (db : OrderDb) (w : OrderWrites) : Prop where
  nodup : (w.updates.map (·.loaded.id)).Nodup
  exact : ∀ u ∈ w.updates, db.orders.get u.loaded.id = some u.loaded
  edge : ∀ u ∈ w.updates, Edge u.loaded.status u.status
  outbox : cancelled w.outbox = cancels w.updates
  created : ∀ o, w.created = some o → o.status = .pending

/-- The writes of an outcome, if it has any, compensate what they cancel. -/
def CompensatesOutcome (db : OrderDb) : Outcome OrderWrites → Prop
  | .handled w => Compensates db w
  | _ => True

theorem compensates_none {db : OrderDb} {w : OrderWrites} (hupdates : w.updates = [])
    (houtbox : w.outbox = []) (hcreated : w.created = none) : Compensates db w := by
  refine ⟨?_, fun u h => ?_, fun u h => ?_, ?_, fun o h => ?_⟩
  · rw [hupdates]
    exact List.nodup_nil
  · rw [hupdates] at h
    exact absurd h List.not_mem_nil
  · rw [hupdates] at h
    exact absurd h List.not_mem_nil
  · rw [hupdates, houtbox]
    rfl
  · rw [hcreated] at h
    exact absurd h.symm (Option.some_ne_none o)

theorem compensates_single {db : OrderDb} {id : Ident} {o : Order} {next : OrderStatus}
    {rows : List OutboxRow} (hget : db.orders.get id = some o) (hedge : Edge o.status next)
    (hrows : cancelled rows = cancels [⟨o, next⟩]) :
    Compensates db { updates := [⟨o, next⟩], outbox := rows } := by
  have hid : o.id = id := Table.get_key hget
  refine ⟨List.nodup_singleton _, fun u hu => ?_, fun u hu => ?_, hrows,
    fun o h => absurd h.symm (Option.some_ne_none o)⟩
  · obtain rfl := List.mem_singleton.mp hu
    exact hid.symm ▸ hget
  · obtain rfl := List.mem_singleton.mp hu
    exact hedge

section Programs

/-- Safety when nothing interferes. -/
abbrev SafeAlone {R : Type} (post : OrderDb → R → Prop) (p : OrderTxn R) (db : OrderDb) : Prop :=
  Safe (answers id) (· = ·) (fun _ _ _ => True) post p db

variable {db : OrderDb} {tid : ℕ} {e : SagaEvent}

theorem transition_compensates {allowed : List OrderStatus} {next : OrderStatus}
    {payload : Payload} (hedge : ∀ s ∈ allowed, Edge s next) (hnext : next ≠ .cancelled) :
    SafeAlone Compensates (transition allowed next payload) db := by
  refine safe_transition (fun _ => compensates_none rfl rfl rfl) ?_
  rintro t o - hget hstatus u rfl
  refine compensates_single hget (hedge _ hstatus) ?_
  unfold cancels
  rw [List.filter_cons_of_neg (by simpa using hnext)]
  rfl

theorem handlePaymentFailed_compensates {c : Ident} {payload : Payload} :
    SafeAlone Compensates (handlePaymentFailed tid c payload) db := by
  refine safe_handlePaymentFailed (fun _ => compensates_none rfl rfl rfl) ?_
  rintro t o - hget hstatus u rfl
  refine compensates_single hget (.cancelled hstatus) ?_
  show [(some o.id, eventLines _)] = [(some o.id, orderLines o)]
  rw [eventLines_itemsToRelease rfl]

theorem handlerOf_compensates {handler : OrderTxn OrderWrites}
    (h : handlerOf tid e = some handler) : SafeAlone Compensates handler db := by
  unfold handlerOf at h
  split at h <;> cases h
  · exact transition_compensates (by simp [Edge.stockReserved]) (by decide)
  · exact transition_compensates (fun s hs => .cancelledNoStock hs) (by decide)
  · exact transition_compensates (by simp [Edge.confirmed]) (by decide)
  · exact handlePaymentFailed_compensates

theorem cancelled_timeoutEvents (os : List Order) :
    cancelled (os.mapIdx (timeoutEvent tid)) = os.map fun o => (some o.id, orderLines o) := by
  have hall : (os.mapIdx (timeoutEvent tid)).filter (fun r =>
      decide (r.event.eventType = .orderCancelledEvent)) = os.mapIdx (timeoutEvent tid) := by
    refine List.filter_eq_self.mpr fun r hr => ?_
    obtain ⟨i, hi, rfl⟩ := List.mem_mapIdx.mp hr
    rfl
  unfold cancelled
  rw [hall]
  refine List.ext_getElem (by simp) fun i h1 h2 => ?_
  simp only [List.getElem_map, List.getElem_mapIdx]
  rw [eventLines_itemsToRelease rfl]
  rfl

theorem sweepStaleSagas_compensates {cutoff : Int} {limit : ℕ} :
    SafeAlone Compensates (sweepStaleSagas tid cutoff limit) db := by
  refine safe_selectStale fun t ω _ _ => ?_
  rintro u rfl
  have ⟨hnodup, hstale⟩ : ((t.staleOrders ω.scan cutoff limit).map (·.id)).Nodup ∧
      ∀ o ∈ t.staleOrders ω.scan cutoff limit, o ∈ t.orders.rows ∧ stale cutoff o = true :=
    staleOrders_sound
  refine ⟨?_, fun u hu => ?_, fun u hu => ?_, ?_,
    fun o h => absurd h.symm (Option.some_ne_none o)⟩
  · rw [List.map_map]
    exact hnodup
  · obtain ⟨o, ho, rfl⟩ := List.mem_map.mp hu
    exact Table.get_of_mem (hstale o ho).1
  · obtain ⟨o, ho, rfl⟩ := List.mem_map.mp hu
    exact .cancelled (open_of_stale (hstale o ho).2)
  · rw [cancelled_timeoutEvents]
    unfold cancels
    rw [List.filter_eq_self.mpr, List.map_map]
    · rfl
    · intro u hu
      obtain ⟨o, -, rfl⟩ := List.mem_map.mp hu
      rfl

theorem program_compensates (r : OrderRequest) :
    SafeAlone CompensatesOutcome (program tid r) db := by
  have hrefl : ∀ d : OrderDb, d = d := fun _ => rfl
  cases r with
  | event e =>
    refine safe_inInbox fun t ω _ _ => ?_
    split
    · exact fun _ _ => trivial
    · cases hh : handlerOf tid e with
      | none => exact fun _ _ => trivial
      | some handler =>
        have hsafe : SafeAlone Compensates handler t := handlerOf_compensates hh
        refine hsafe.bind rfl (fun _ u _ => hrefl u) fun u w hw v hv => ?_
        subst hv
        exact ⟨hw.nodup, hw.exact, hw.edge, hw.outbox, hw.created⟩
  | sweep cutoff limit =>
    have hsafe : SafeAlone Compensates (sweepStaleSagas tid cutoff limit) db :=
      sweepStaleSagas_compensates
    exact hsafe.bind rfl (fun _ u _ => hrefl u) fun u w hw v hv => hv ▸ hw
  | checkout c =>
    have hcreate : SafeAlone Compensates (createOrder tid c) db := by
      refine safe_createOrder (fun _ _ _ h h' => h.trans h') hrefl
        (fun _ u _ _ _ => compensates_none rfl rfl rfl) fun t _ => ?_
      refine ⟨List.nodup_nil, fun _ h => absurd h List.not_mem_nil,
        fun _ h => absurd h List.not_mem_nil, rfl, fun o ho => ?_⟩
      cases ho
      rfl
    exact hcreate.bind rfl (fun _ u _ => hrefl u) fun u w hw v hv => hv ▸ hw

end Programs

/-! ## What a commit does -/

/-- The lines of the cancellation events about an order are those the outbox lists for it. -/
theorem lines_cancellations (rows : List OutboxRow) (o : Ident) :
    (cancellations rows o).map (fun r => eventLines r.event) =
      ((cancelled rows).filter fun c => decide (c.1 = some o)).map (·.2) := by
  unfold cancellations cancelled
  rw [List.filter_map, List.filter_filter, List.map_map]
  congr 1
  refine List.filter_congr fun r _ => ?_
  simp [Bool.and_comm]

theorem cancels_filter (us : List StatusUpdate) (o : Ident) :
    (cancels us).filter (fun c => decide (c.1 = some o)) =
      cancels (us.filter fun u => decide (u.loaded.id = o)) := by
  unfold cancels
  rw [List.filter_map, List.filter_filter, List.filter_filter]
  congr 1
  refine List.filter_congr fun u _ => ?_
  simp [Bool.and_comm]

/-- The lines of the cancellation events about an order. -/
def cancelledLines (db : OrderDb) (o : Ident) : List (List (Option ℕ × Int)) :=
  (cancellations db.outbox.rows o).map fun r => eventLines r.event

/-- The outbox cancels an order once if its status is CANCELLED, with its lines, and else never. -/
structure Balanced (db : OrderDb) : Prop where
  balanced : ∀ o ∈ db.orders.rows,
    cancelledLines db o.id = if o.status = .cancelled then [orderLines o] else []
  known : ∀ c ∈ cancelled db.outbox.rows, ∃ o ∈ db.orders.rows, c.1 = some o.id

variable {db db' : OrderDb} {w : OrderWrites}

theorem cancelledLines_commit (hw : Compensates db w) (hc : db.commit w = some db') (o : Ident) :
    cancelledLines db' o = cancelledLines db o ++
      (cancels (w.updates.filter fun u => decide (u.loaded.id = o))).map (·.2) := by
  obtain ⟨-, hout, -⟩ := commit_eq_some hc
  unfold cancelledLines
  rw [lines_cancellations, lines_cancellations, Table.rows_extend hout, cancelled_append,
    List.filter_append, List.map_append, hw.outbox, cancels_filter]

/-- Where the orders of a committed database come from. -/
theorem order_commit (hw : Compensates db w) (hc : db.commit w = some db') {o' : Order}
    (h : o' ∈ db'.orders.rows) :
    (∃ u ∈ w.updates, u.loaded ∈ db.orders.rows ∧ o' = u.loaded.withStatus u.status) ∨
      (o' ∈ db.orders.rows ∧ o'.id ∉ w.updates.map (·.loaded.id)) ∨
      o'.id ∉ db.orders.rows.map (·.id) ∧ w.created = some o' := by
  obtain ⟨g, hg, hrows⟩ := rows_runUpdates w.updates db.orders
  have hnew : db'.orders.get o'.id = some o' := Table.get_of_mem h
  obtain ⟨hext, -, -⟩ := commit_eq_some hc
  rw [Table.rows_extend hext, hrows] at h
  rcases List.mem_append.mp h with hold | hcreated
  · obtain ⟨o, ho, rfl⟩ := List.mem_map.mp hold
    have hid : (g o).id = o.id := by
      obtain ⟨s, hs⟩ := hg o
      rw [hs]
      rfl
    rw [hid] at hnew ⊢
    have hget : db.orders.get o.id = some o := Table.get_of_mem ho
    rcases get_commit hc hw.nodup hget with ⟨u, hu, hloaded, hupdated⟩ | ⟨hnone, hsame⟩
    · have hrow := hw.exact u hu
      rw [hloaded, hget, Option.some.injEq] at hrow
      subst hrow
      exact Or.inl ⟨u, hu, ho, Option.some.inj (hnew.symm.trans hupdated)⟩
    · rw [Option.some.inj (hnew.symm.trans hsame)]
      exact Or.inr (Or.inl ⟨ho, hnone⟩)
  · refine Or.inr (Or.inr ⟨fun hmem => ?_, Option.mem_toList.mp hcreated⟩)
    obtain ⟨o, ho, hid⟩ := List.mem_map.mp hmem
    have hkey : o'.id ∉ (runUpdates db.orders w.updates).rows.map (·.id) :=
      Table.key_not_mem_of_extend hext hcreated
    refine hkey ?_
    rw [hrows, List.map_map]
    refine List.mem_map.mpr ⟨o, ho, ?_⟩
    obtain ⟨s, hs⟩ := hg o
    show (g o).id = o'.id
    rw [hs, ← hid]
    rfl

theorem commit_balanced (hb : Balanced db) (hw : Compensates db w)
    (hc : db.commit w = some db') : Balanced db' := by
  have hloaded : ∀ u ∈ w.updates, u.loaded ∈ db.orders.rows := fun u hu =>
    Table.mem_of_get (hw.exact u hu)
  have hstays : ∀ o ∈ db.orders.rows, ∃ o' ∈ db'.orders.rows, o'.id = o.id := fun o ho => by
    obtain ⟨s, hs⟩ := commit_persist hc _ _ (Table.get_of_mem ho)
    exact ⟨_, Table.mem_of_get hs, rfl⟩
  constructor
  · intro o' ho'
    rw [cancelledLines_commit hw hc]
    rcases order_commit hw hc ho' with ⟨u, hu, hrow, rfl⟩ | ⟨hrow, hnone⟩ | ⟨hfresh, hcreated⟩
    · -- it was not CANCELLED before, and the update is the only one
      have hopen : u.loaded.status ≠ .cancelled := fun h =>
        (hw.edge u hu).not_terminal (Or.inr (Or.inl h))
      show cancelledLines db u.loaded.id ++ (cancels (w.updates.filter fun v =>
        decide (v.loaded.id = u.loaded.id))).map (·.2) =
          if u.status = .cancelled then [orderLines u.loaded] else []
      rw [hb.balanced _ hrow, if_neg hopen, filter_of_nodup_map hw.nodup hu, List.nil_append]
      unfold cancels
      split
      · next h => rw [List.filter_cons_of_pos (by simpa using h)]; rfl
      · next h => rw [List.filter_cons_of_neg (by simpa using h)]; rfl
    · have hskip : w.updates.filter (fun u => decide (u.loaded.id = o'.id)) = [] := by
        refine List.filter_eq_nil_iff.mpr fun u hu h => hnone ?_
        exact of_decide_eq_true h ▸ List.mem_map_of_mem hu
      rw [hskip, hb.balanced _ hrow]
      exact List.append_nil _
    · have hskip : w.updates.filter (fun u => decide (u.loaded.id = o'.id)) = [] := by
        refine List.filter_eq_nil_iff.mpr fun u hu h => hfresh ?_
        exact of_decide_eq_true h ▸ List.mem_map_of_mem (hloaded u hu)
      have hnone : cancelledLines db o'.id = [] := by
        unfold cancelledLines
        rw [lines_cancellations, List.map_eq_nil_iff, List.filter_eq_nil_iff]
        intro c hc' h
        obtain ⟨o, ho, hid⟩ := hb.known c hc'
        have heq : o.id = o'.id := Option.some.inj (hid.symm.trans (of_decide_eq_true h))
        exact hfresh (heq ▸ List.mem_map_of_mem ho)
      rw [hskip, hnone, if_neg (by rw [hw.created o' hcreated]; decide)]
      rfl
  · intro c hcan
    obtain ⟨-, hout, -⟩ := commit_eq_some hc
    rw [Table.rows_extend hout, cancelled_append, hw.outbox] at hcan
    rcases List.mem_append.mp hcan with hold | hnew
    · obtain ⟨o, ho, hid⟩ := hb.known c hold
      obtain ⟨o', ho', heq⟩ := hstays o ho
      exact ⟨o', ho', heq ▸ hid⟩
    · obtain ⟨u, hu, rfl⟩ := List.mem_map.mp hnew
      obtain ⟨o', ho', heq⟩ := hstays _ (hloaded u (List.mem_of_mem_filter hu))
      exact ⟨o', ho', heq ▸ rfl⟩

/-! ## Runs -/

/-- The order keeps its status or moves along an edge; everything else of it stays. -/
def Follows (db db' : OrderDb) : Prop :=
  ∀ o ∈ db.orders.rows, ∃ s, o.withStatus s ∈ db'.orders.rows ∧ (s = o.status ∨ Edge o.status s)

theorem follows_refl (db : OrderDb) : Follows db db := fun o ho => ⟨o.status, ho, Or.inl rfl⟩

theorem commit_follows (hw : Compensates db w) (hc : db.commit w = some db') :
    Follows db db' := by
  intro o ho
  have hget : db.orders.get o.id = some o := Table.get_of_mem ho
  rcases get_commit hc hw.nodup hget with ⟨u, hu, hloaded, hupdated⟩ | ⟨-, hsame⟩
  · have hrow := hw.exact u hu
    rw [hloaded, hget, Option.some.injEq] at hrow
    exact ⟨u.status, Table.mem_of_get hupdated, Or.inr (hrow ▸ hw.edge u hu)⟩
  · exact ⟨o.status, Table.mem_of_get hsame, Or.inl rfl⟩

/-- The order service's programs, run one after another, keep the balance. -/
theorem order_serial : Serial service (answers id) Balanced (fun _ => CompensatesOutcome) where
  answer _ _ _ _ := rfl
  start _ r _ := program_compensates r
  commit _ db o db' hb ho hc := by
    cases o with
    | handled w => exact commit_balanced hb ho hc
    | skipped => exact Option.some.inj hc ▸ hb
    | ignored => exact Option.some.inj hc ▸ hb

/-- All orders are new. -/
structure Fresh (db : OrderDb) : Prop where
  pending : ∀ o ∈ db.orders.rows, o.status = .pending
  outbox : cancelled db.outbox.rows = []

theorem Fresh.balanced (h : Fresh db) : Balanced db := by
  refine ⟨fun o ho => ?_, fun c hc => ?_⟩
  · unfold cancelledLines
    rw [lines_cancellations, h.outbox, if_neg (by rw [h.pending o ho]; decide)]
    rfl
  · rw [h.outbox] at hc
    exact absurd hc List.not_mem_nil

/-- In every state reached from new orders by saga events, sweeps and checkouts that do not
    overlap, in any order and with any repetitions, the cancellation events about an order are one
    if it is CANCELLED, with its lines, and none else; and every step moves every order along an
    edge or not at all, never out of a terminal status. -/
theorem compensated_once (hfresh : Fresh db) {ls : List (Label OrderRequest OrderEnv)}
    {srv : OrderServer} (h : Reaches service.step Alone (Server.init db ()) ls srv) :
    (∀ o ∈ srv.db.orders.rows, (cancellations srv.db.outbox.rows o.id).map
        (fun r => eventLines r.event) = if o.status = .cancelled then [orderLines o] else []) ∧
      ∀ l srv', service.step srv l = some srv' → ∀ o ∈ srv.db.orders.rows,
        ∃ s, o.withStatus s ∈ srv'.db.orders.rows ∧ (s = o.status ∨ Edge o.status s) ∧
          (o.status.Terminal → s = o.status) := by
  have hu := order_serial.reaches h hfresh.balanced
  refine ⟨hu.inv.balanced, fun l srv' hs o ho => ?_⟩
  have hfollows : Follows srv.db srv'.db := by
    rcases Serial.step_cases hu hs with hdb | ⟨a, r, -, hpost, hc⟩
    · exact hdb ▸ follows_refl srv.db
    · cases r with
      | handled w => exact commit_follows hpost hc
      | skipped => exact Option.some.inj hc ▸ follows_refl srv.db
      | ignored => exact Option.some.inj hc ▸ follows_refl srv.db
  obtain ⟨s, hmem, hs'⟩ := hfollows o ho
  exact ⟨s, hmem, hs', fun ht => hs'.resolve_right fun hedge => hedge.not_terminal ht⟩

def paymentFailed (c : ℕ) : SagaEvent :=
  { eventId := .drawn .payment c 0, eventType := .paymentFailedEvent
    correlationId := .text "checkout", payload := { orderId := some reservedOrder.id } }

/-- The payment fails, the event is delivered twice, another failure of the same payment follows,
    and the sweeper looks for stale orders. -/
def failures : List (Label OrderRequest OrderEnv) :=
  deliveries [(paymentFailed 0, 2), (paymentFailed 0, 1), (paymentFailed 1, 2)] ++
    [.start (sweepRequest 1000 none none), .move (.advance 0 ⟨[], none⟩), .move (.finish 0)]

theorem compensated_once_failures : ∃ srv,
    Reaches service.step Alone (Server.init onePending ()) failures srv ∧
      srv.db.statusOf reservedOrder.id = some .cancelled ∧
      ∀ o ∈ srv.db.orders.rows, (cancellations srv.db.outbox.rows o.id).map
        (fun r => eventLines r.event) = if o.status = .cancelled then [orderLines o] else [] := by
  obtain ⟨srv, hrun, hstatus⟩ : ∃ srv,
      Reaches service.step Alone (Server.init onePending ()) failures srv ∧
        srv.db.statusOf reservedOrder.id = some .cancelled :=
    reaches_where (by decide +kernel) (by decide +kernel)
  have hfresh : Fresh onePending := ⟨by decide, rfl⟩
  exact ⟨srv, hrun, hstatus, (compensated_once hfresh hrun).1⟩

end CloudScale.OrderService
