/-
  The two events of a successful checkout, on two topics.

  `InventoryReservedEvent` and `PaymentSuccessEvent` of one order are delivered in any order, any
  number of times, and handled by any number of overlapping transactions. A handler that finds the
  order in another status changes nothing and records its event all the same, so what counts is when
  the transaction that records the payment read the order. `Observed` keeps, beside the service,
  the transactions that read it for the payment before the reservation was processed.

  `confirmed_iff`: once both events are processed, the order is CONFIRMED exactly when the payment
  was recorded by a transaction that is not among them.
-/
import CloudScale.OrderService.Absorbing

namespace CloudScale.OrderService

open CloudScale.Lib CloudScale.Shared

/-- An order's reserved event and its payment's event. -/
structure SagaPair (o : Ident) (reserved paid : SagaEvent) : Prop where
  reservedType : reserved.eventType = .inventoryReservedEvent
  reservedOrder : reserved.payload.orderId = some o
  paidType : paid.eventType = .paymentSuccessEvent
  paidOrder : paid.payload.orderId = some o
  distinct : reserved.eventId ≠ paid.eventId

/-- The service has processed the event. -/
def OrderDb.Processed (db : OrderDb) (e : SagaEvent) : Prop :=
  inboxAlreadyProcessed db.inbox e.eventId = true

instance (db : OrderDb) (e : SagaEvent) : Decidable (db.Processed e) :=
  inferInstanceAs (Decidable (_ = _))

/-! ## Observed runs -/

/-- The service, and the transactions that read the order too early. -/
structure Observed where
  srv : OrderServer
  early : List ℕ

section Observe

variable (reserved paid : SagaEvent)

/-- The transaction that reads the order for the payment in this step, while the reservation is not
    processed. -/
def earlyReader (srv : OrderServer) : Label OrderRequest OrderEnv → List ℕ
  | .move (.advance i _) => match srv.active[i]? with
    | some a => match a.req, a.prog with
      | .event e, .ask (.order _) _ =>
        if e = paid ∧ ¬ srv.db.Processed reserved then [a.tid] else []
      | _, _ => []
    | none => []
  | _ => []

def observe (s : Observed) (l : Label OrderRequest OrderEnv) : Option Observed :=
  (service.step s.srv l).map fun srv =>
    { srv, early := s.early ++ earlyReader reserved paid s.srv l }

/-- The only requests are deliveries of the two events. -/
def Delivers (_ : Observed) : Label OrderRequest OrderEnv → Prop
  | .start r => r = .event reserved ∨ r = .event paid
  | .move _ => True

/-- The transactions that recorded the payment. -/
def payers (srv : OrderServer) : List ℕ :=
  srv.log.filterMap fun e => match e.req, e.verdict with
    | .event e', .committed (.handled _) => if e' = paid then some e.tid else none
    | _, _ => none

end Observe

/-- Observation does not restrict the service. -/
theorem observed_run {reserved paid : SagaEvent} {ls : List (Label OrderRequest OrderEnv)}
    {db : OrderDb} {srv : OrderServer}
    (h : Reaches service.step anyStep (Server.init db ()) ls srv) :
    ∃ early, Reaches (observe reserved paid) anyStep ⟨Server.init db (), []⟩ ls ⟨srv, early⟩ := by
  induction h with
  | start => exact ⟨[], .start⟩
  | next _ _ hs ih =>
    obtain ⟨early, hrun⟩ := ih
    exact ⟨_, .next hrun trivial (by unfold observe; rw [hs]; rfl)⟩

/-! ## The programs of the two events -/

/-- What a `transition` writes for the row it found. -/
def moved (allowed : List OrderStatus) (next : OrderStatus) : Option Order → OrderWrites
  | some o => if o.status ∈ allowed then { updates := [⟨o, next⟩] } else {}
  | none => {}

/-- The part of the program after the inbox check. -/
def readAndMove (o : Ident) (e : SagaEvent) (allowed : List OrderStatus) (next : OrderStatus) :
    OrderTxn (Outcome OrderWrites) :=
  .ask (.order o) fun row => .done (.handled ((moved allowed next row).record e))

theorem program_event {tid : ℕ} {o : Ident} {e : SagaEvent} {allowed : List OrderStatus}
    {next : OrderStatus} (h : handlerOf tid e = some (transition allowed next e.payload))
    (ho : e.payload.orderId = some o) :
    program tid (.event e) = .ask (.inbox e.eventId) fun seen : Bool =>
      if seen = true then .done .skipped else readAndMove o e allowed next := by
  show Txn.ask _ _ = _
  congr 1
  funext seen
  cases seen with
  | true => rfl
  | false =>
    show Txn.bind (.done false) _ = _
    rw [Txn.bind, h]
    unfold transition
    rw [ho]
    show Txn.ask _ _ = Txn.ask _ _
    congr 1
    funext row
    cases row with
    | none => rfl
    | some ord =>
      show (if ord.status ∈ allowed then _ else _ : OrderTxn OrderWrites) >>= _ = _
      unfold moved
      by_cases hstatus : ord.status ∈ allowed
      · simp [hstatus]
      · simp [hstatus]

/-! ## What holds of the two events -/

/-- The writes move the order to `next`. -/
def Moves (w : OrderWrites) (o : Ident) (next : OrderStatus) : Prop :=
  ∃ ord : Order, ord.id = o ∧ w.updates = [⟨ord, next⟩]

theorem moved_moves {allowed : List OrderStatus} {next : OrderStatus} {db : OrderDb} {o : Ident}
    {st : OrderStatus} (h : db.statusOf o = some st) (hst : st ∈ allowed) :
    Moves (moved allowed next (db.orders.get o)) o next := by
  obtain ⟨ord, hget, rfl⟩ := Option.map_eq_some_iff.mp h
  rw [hget]
  exact ⟨ord, Table.get_key hget, by rw [moved, if_pos hst]⟩

theorem moved_unmoved {allowed : List OrderStatus} {next : OrderStatus} {db : OrderDb} {o : Ident}
    {st : OrderStatus} (h : db.statusOf o = some st) (hst : st ∉ allowed) :
    (moved allowed next (db.orders.get o)).updates = [] := by
  obtain ⟨ord, hget, rfl⟩ := Option.map_eq_some_iff.mp h
  rw [hget, moved, if_neg hst]

/-- A transaction in flight for one of the events has not read the order, has nothing to do, or
    leaves writes as `leaves` says. -/
def Stage (o : Ident) (e : SagaEvent) (allowed : List OrderStatus) (next : OrderStatus)
    (early : List ℕ) (leaves : OrderWrites → Prop) (tid : ℕ)
    (p : OrderTxn (Outcome OrderWrites)) : Prop :=
  (p = program tid (.event e) ∨ p = readAndMove o e allowed next) ∧ tid ∉ early ∨
    p = .done .skipped ∨ ∃ w : OrderWrites, p = .done (.handled (w.record e)) ∧ leaves w

abbrev OrderActive :=
  Active OrderDb OrderRequest OrderQuery OrderAnswer Exc (Outcome OrderWrites)

section Invariant

variable (o : Ident) (reserved paid : SagaEvent)

def LeavesReserved (s : Observed) (w : OrderWrites) : Prop :=
  s.srv.db.Processed reserved ∨ Moves w o .stockReserved

def LeavesPaid (s : Observed) (tid : ℕ) (w : OrderWrites) : Prop :=
  s.srv.db.Processed paid ∨ tid ∈ s.early ∧ w.updates = [] ∨
    tid ∉ s.early ∧ s.srv.db.Processed reserved ∧ Moves w o .confirmed

/-- A transaction in flight is at some stage of one of the two events. -/
def InFlight (s : Observed) (a : OrderActive) : Prop :=
  (a.req = .event reserved ∧ Stage o reserved [.pending] .stockReserved s.early
      (LeavesReserved o reserved s) a.tid a.prog) ∨
    a.req = .event paid ∧ Stage o paid [.stockReserved] .confirmed s.early
      (LeavesPaid o reserved paid s a.tid) a.tid a.prog

/-- The status fits what is processed, and how the payment was. -/
structure Fits (s : Observed) : Prop where
  unreserved : ¬ s.srv.db.Processed reserved → s.srv.db.statusOf o = some .pending
  unpaid : s.srv.db.Processed reserved → ¬ s.srv.db.Processed paid →
    s.srv.db.statusOf o = some .stockReserved
  inTime : ∀ t ∈ payers paid s.srv, t ∉ s.early →
    s.srv.db.Processed reserved ∧ s.srv.db.statusOf o = some .confirmed
  tooEarly : ∀ t ∈ payers paid s.srv, t ∈ s.early → s.srv.db.Processed reserved →
    s.srv.db.statusOf o = some .stockReserved
  payer : s.srv.db.Processed paid → ∃ t, payers paid s.srv = [t]
  noPayer : ¬ s.srv.db.Processed paid → payers paid s.srv = []

structure Coherent (s : Observed) : Prop where
  numbered : s.srv.Numbered
  early : ∀ t ∈ s.early, t ∈ s.srv.tids
  fits : Fits o reserved paid s
  flight : ∀ a ∈ s.srv.active, InFlight o reserved paid s a

end Invariant

variable {o : Ident} {reserved paid : SagaEvent} {s s' : Observed}

theorem InFlight.mono {a : OrderActive} (h : InFlight o reserved paid s a)
    (hgrows : ∀ e, s.srv.db.Processed e → s'.srv.db.Processed e)
    (hearly : a.tid ∈ s'.early ↔ a.tid ∈ s.early) : InFlight o reserved paid s' a := by
  rcases h with ⟨hreq, hstage⟩ | ⟨hreq, hstage⟩
  · refine Or.inl ⟨hreq, ?_⟩
    rcases hstage with ⟨hp, ht⟩ | hp | ⟨w, hp, hw⟩
    · exact Or.inl ⟨hp, fun h => ht (hearly.mp h)⟩
    · exact Or.inr (Or.inl hp)
    · exact Or.inr (Or.inr ⟨w, hp, hw.imp_left (hgrows _)⟩)
  · refine Or.inr ⟨hreq, ?_⟩
    rcases hstage with ⟨hp, ht⟩ | hp | ⟨w, hp, hw⟩
    · exact Or.inl ⟨hp, fun h => ht (hearly.mp h)⟩
    · exact Or.inr (Or.inl hp)
    · refine Or.inr (Or.inr ⟨w, hp, ?_⟩)
      rcases hw with hw | ⟨ht, hw⟩ | ⟨ht, hr, hw⟩
      · exact Or.inl (hgrows _ hw)
      · exact Or.inr (Or.inl ⟨hearly.mpr ht, hw⟩)
      · exact Or.inr (Or.inr ⟨fun h => ht (hearly.mp h), hgrows _ hr, hw⟩)

theorem Fits.congr (h : Fits o reserved paid s) (hdb : s'.srv.db = s.srv.db)
    (hpayers : payers paid s'.srv = payers paid s.srv)
    (hearly : ∀ t ∈ payers paid s.srv, t ∈ s'.early ↔ t ∈ s.early) :
    Fits o reserved paid s' := by
  refine ⟨?_, ?_, ?_, ?_, ?_, ?_⟩
  · rw [hdb]; exact h.unreserved
  · rw [hdb]; exact h.unpaid
  · rw [hdb, hpayers]
    exact fun t ht hn => h.inTime t ht fun he => hn ((hearly t ht).mpr he)
  · rw [hdb, hpayers]
    exact fun t ht he => h.tooEarly t ht ((hearly t ht).mp he)
  · rw [hdb, hpayers]; exact h.payer
  · rw [hdb, hpayers]; exact h.noPayer

/-- The two handlers. -/
theorem SagaPair.handlers (hp : SagaPair o reserved paid) (tid : ℕ) :
    handlerOf tid reserved = some (transition [.pending] .stockReserved reserved.payload) ∧
      handlerOf tid paid = some (transition [.stockReserved] .confirmed paid.payload) := by
  unfold handlerOf
  rw [hp.reservedType, hp.paidType]
  exact ⟨rfl, rfl⟩

/-- A transaction that is asked for its next query at one of the stages: the query and what is left
    of the program. -/
theorem stage_ask {e : SagaEvent} {allowed : List OrderStatus} {next : OrderStatus} {early : List ℕ}
    {leaves : OrderWrites → Prop} {tid : ℕ} {q : OrderQuery}
    {k : OrderAnswer q → OrderTxn (Outcome OrderWrites)}
    (hshape : program tid (.event e) = .ask (.inbox e.eventId) fun seen : Bool =>
      if seen = true then .done .skipped else readAndMove o e allowed next)
    (h : Stage o e allowed next early leaves tid (.ask q k)) : tid ∉ early ∧
      ((∃ id, q = .inbox id ∧
          ∀ ans, k ans = .done .skipped ∨ k ans = readAndMove o e allowed next) ∨
        Txn.ask q k = readAndMove o e allowed next) := by
  rcases h with ⟨h | h, ht⟩ | h | ⟨w, h, -⟩
  · refine ⟨ht, Or.inl ⟨e.eventId, ?_⟩⟩
    rw [hshape] at h
    cases h
    refine ⟨rfl, fun ans => ?_⟩
    cases ans with
    | true => exact Or.inl rfl
    | false => exact Or.inr rfl
  · exact ⟨ht, Or.inr h⟩
  · cases h
  · cases h

/-! ## Steps -/

theorem earlyReader_inbox {i : ℕ} {ω : OrderEnv} {a : OrderActive} {id : Ident}
    {k : OrderAnswer (.inbox id) → OrderTxn (Outcome OrderWrites)}
    (ha : s.srv.active[i]? = some a) (hprog : a.prog = .ask (.inbox id) k) :
    earlyReader reserved paid s.srv (.move (.advance i ω)) = [] := by
  simp only [earlyReader, ha, hprog]
  cases a.req <;> rfl

theorem earlyReader_order {i : ℕ} {ω : OrderEnv} {a : OrderActive} {e : SagaEvent}
    {k : OrderAnswer (.order o) → OrderTxn (Outcome OrderWrites)}
    (ha : s.srv.active[i]? = some a) (hreq : a.req = .event e)
    (hprog : a.prog = .ask (.order o) k) :
    earlyReader reserved paid s.srv (.move (.advance i ω)) =
      if e = paid ∧ ¬ s.srv.db.Processed reserved then [a.tid] else [] := by
  simp only [earlyReader, ha, hreq, hprog]

/-- What a query does: the transaction goes one stage further, and reads the order early if the
    reservation is not processed. -/
theorem inFlight_advance (hp : SagaPair o reserved paid) (hfits : Fits o reserved paid s)
    {i : ℕ} {ω : OrderEnv} {a : OrderActive} {q : OrderQuery}
    {k : OrderAnswer q → OrderTxn (Outcome OrderWrites)} (ha : s.srv.active[i]? = some a)
    (hprog : a.prog = .ask q k) (hflight : InFlight o reserved paid s a)
    (hs' : s'.early = s.early ++ earlyReader reserved paid s.srv (.move (.advance i ω)))
    (hdb : s'.srv.db = s.srv.db) :
    (∀ t ∈ s'.early, t ∈ s.early ∨ t = a.tid) ∧
      InFlight o reserved paid s' { a with prog := k (s.srv.db.answer ω q) } := by
  obtain ⟨hhr, hhp⟩ := hp.handlers a.tid
  rcases hflight with ⟨hreq, hstage⟩ | ⟨hreq, hstage⟩
  · rw [hprog] at hstage
    obtain ⟨hearly, ⟨id, rfl, hk⟩ | hread⟩ := stage_ask (program_event hhr hp.reservedOrder) hstage
    · rw [earlyReader_inbox ha hprog, List.append_nil] at hs'
      refine ⟨fun t ht => Or.inl (hs' ▸ ht), Or.inl ⟨hreq, ?_⟩⟩
      rcases hk (s.srv.db.answer ω (.inbox id)) with hk | hk
      · exact Or.inr (Or.inl hk)
      · exact Or.inl ⟨Or.inr hk, hs' ▸ hearly⟩
    · cases hread
      rw [earlyReader_order ha hreq hprog, if_neg, List.append_nil] at hs'
      · refine ⟨fun t ht => Or.inl (hs' ▸ ht), Or.inl ⟨hreq, Or.inr (Or.inr ⟨_, rfl, ?_⟩)⟩⟩
        rw [LeavesReserved, hdb]
        by_cases hr : s.srv.db.Processed reserved
        · exact Or.inl hr
        · exact Or.inr (moved_moves (hfits.unreserved hr) List.mem_cons_self)
      · exact fun h => hp.distinct (congrArg SagaEvent.eventId h.1)
  · rw [hprog] at hstage
    obtain ⟨hearly, ⟨id, rfl, hk⟩ | hread⟩ := stage_ask (program_event hhp hp.paidOrder) hstage
    · rw [earlyReader_inbox ha hprog, List.append_nil] at hs'
      refine ⟨fun t ht => Or.inl (hs' ▸ ht), Or.inr ⟨hreq, ?_⟩⟩
      rcases hk (s.srv.db.answer ω (.inbox id)) with hk | hk
      · exact Or.inr (Or.inl hk)
      · exact Or.inl ⟨Or.inr hk, hs' ▸ hearly⟩
    · cases hread
      rw [earlyReader_order ha hreq hprog] at hs'
      by_cases hr : s.srv.db.Processed reserved
      · rw [if_neg fun h => h.2 hr, List.append_nil] at hs'
        refine ⟨fun t ht => Or.inl (hs' ▸ ht), Or.inr ⟨hreq, Or.inr (Or.inr ⟨_, rfl, ?_⟩)⟩⟩
        rw [LeavesPaid, hdb]
        by_cases hpd : s.srv.db.Processed paid
        · exact Or.inl hpd
        · exact Or.inr (Or.inr ⟨hs' ▸ hearly, hr,
            moved_moves (hfits.unpaid hr hpd) List.mem_cons_self⟩)
      · rw [if_pos ⟨rfl, hr⟩] at hs'
        refine ⟨fun t ht => ?_, Or.inr ⟨hreq, Or.inr (Or.inr ⟨_, rfl, Or.inr (Or.inl ⟨?_, ?_⟩)⟩)⟩⟩
        · rw [hs'] at ht
          exact (List.mem_append.mp ht).imp_right List.mem_singleton.mp
        · rw [hs']
          exact List.mem_append_right _ (List.mem_singleton_self _)
        · exact moved_unmoved (hfits.unreserved hr) (by decide)

section Commit

variable {db db' : OrderDb} {w : OrderWrites} {e : SagaEvent} {st next : OrderStatus}

theorem processed_commit (h : db.commit (w.record e) = some db') (e' : SagaEvent) :
    db'.Processed e' ↔ db.Processed e' ∨ e'.eventId = e.eventId := by
  obtain ⟨-, -, hin⟩ := commit_eq_some h
  simp only [OrderDb.Processed, inboxAlreadyProcessed_iff, Table.rows_extend hin, List.map_append,
    List.mem_append]
  refine or_congr_right ?_
  show e'.eventId ∈ [e.eventId] ↔ _
  exact List.mem_singleton

theorem unprocessed_of_commit (h : db.commit (w.record e) = some db') : ¬ db.Processed e := by
  obtain ⟨-, -, hin⟩ := commit_eq_some h
  rw [OrderDb.Processed, inboxAlreadyProcessed_iff]
  exact Table.key_not_mem_of_extend hin (List.mem_singleton_self (recordInbox e "order-saga"))

theorem statusOf_moved (h : db.commit (w.record e) = some db') (hst : db.statusOf o = some st)
    (hm : Moves w o next) : db'.statusOf o = some next := by
  obtain ⟨ord, hget, rfl⟩ := Option.map_eq_some_iff.mp hst
  obtain ⟨x, hx, hupdates⟩ := hm
  have hnodup : ((w.record e).updates.map (·.loaded.id)).Nodup := by
    show (w.updates.map _).Nodup
    rw [hupdates]
    exact List.nodup_singleton _
  rcases get_commit h hnodup hget with ⟨u, hu, -, hnew⟩ | ⟨hno, -⟩
  · have hu : u ∈ w.updates := hu
    rw [hupdates, List.mem_singleton] at hu
    rw [OrderDb.statusOf, hnew, hu]
    rfl
  · refine absurd ?_ hno
    show o ∈ w.updates.map _
    rw [hupdates, ← hx]
    exact List.mem_singleton_self _

theorem statusOf_unmoved (h : db.commit (w.record e) = some db') (hst : db.statusOf o = some st)
    (hw : w.updates = []) : db'.statusOf o = some st := by
  obtain ⟨ord, hget, rfl⟩ := Option.map_eq_some_iff.mp hst
  have hnodup : ((w.record e).updates.map (·.loaded.id)).Nodup := by
    show (w.updates.map _).Nodup
    rw [hw]
    exact List.nodup_nil
  rcases get_commit h hnodup hget with ⟨u, hu, -, -⟩ | ⟨-, hnew⟩
  · have hu : u ∈ w.updates := hu
    rw [hw] at hu
    exact absurd hu List.not_mem_nil
  · rw [OrderDb.statusOf, hnew]
    rfl

end Commit

theorem payers_close {srv : OrderServer} {i : ℕ} {a : OrderActive}
    {v : Verdict Exc (Outcome OrderWrites)}
    (h : ¬ (a.req = .event paid ∧ ∃ w, v = .committed (.handled w))) :
    payers paid (srv.close i a v) = payers paid srv := by
  unfold payers Server.close
  rw [List.filterMap_cons]
  split
  · rfl
  · next t ht =>
    split at ht
    · next e' w hreq hv =>
      obtain ⟨heq, -⟩ := Option.ite_none_right_eq_some.mp ht
      exact absurd ⟨heq ▸ hreq, w, hv⟩ h
    · cases ht

theorem payers_paid {srv : OrderServer} {i : ℕ} {a : OrderActive} (hreq : a.req = .event paid)
    (w : OrderWrites) :
    payers paid (srv.close i a (.committed (.handled w))) = a.tid :: payers paid srv := by
  unfold payers Server.close
  rw [List.filterMap_cons]
  simp [hreq]

/-- The reservation is recorded. -/
theorem fits_reserved (hp : SagaPair o reserved paid) (hfits : Fits o reserved paid s)
    {w : OrderWrites} (hw : LeavesReserved o reserved s w)
    (hc : s.srv.db.commit (w.record reserved) = some s'.srv.db)
    (hearly : s'.early = s.early) (hpayers : payers paid s'.srv = payers paid s.srv) :
    Fits o reserved paid s' := by
  have hunprocessed := unprocessed_of_commit hc
  have hprocessed : s'.srv.db.Processed reserved := (processed_commit hc _).mpr (Or.inr rfl)
  have hpaid : s'.srv.db.Processed paid ↔ s.srv.db.Processed paid :=
    (processed_commit hc _).trans (or_iff_left hp.distinct.symm)
  have hstatus : s'.srv.db.statusOf o = some .stockReserved :=
    statusOf_moved hc (hfits.unreserved hunprocessed) (hw.resolve_left hunprocessed)
  refine ⟨fun h => absurd hprocessed h, fun _ _ => hstatus, ?_, fun _ _ _ _ => hstatus, ?_, ?_⟩
  · rw [hpayers, hearly]
    exact fun t ht hn => absurd (hfits.inTime t ht hn).1 hunprocessed
  · rw [hpayers, hpaid]
    exact hfits.payer
  · rw [hpayers, hpaid]
    exact hfits.noPayer

/-- The payment is recorded, by transaction `tid`. -/
theorem fits_paid (hp : SagaPair o reserved paid) (hfits : Fits o reserved paid s)
    {w : OrderWrites} {tid : ℕ} (hw : LeavesPaid o reserved paid s tid w)
    (hc : s.srv.db.commit (w.record paid) = some s'.srv.db)
    (hearly : s'.early = s.early) (hpayers : payers paid s'.srv = tid :: payers paid s.srv) :
    Fits o reserved paid s' := by
  have hunprocessed := unprocessed_of_commit hc
  have hprocessed : s'.srv.db.Processed paid := (processed_commit hc _).mpr (Or.inr rfl)
  have hreserved : s'.srv.db.Processed reserved ↔ s.srv.db.Processed reserved :=
    (processed_commit hc _).trans (or_iff_left hp.distinct)
  rw [hfits.noPayer hunprocessed] at hpayers
  have hsame : tid ∈ s.early → ∀ st, s.srv.db.statusOf o = some st →
      s'.srv.db.statusOf o = some st := by
    intro ht st hst
    rcases hw with hw | ⟨-, hw⟩ | ⟨hn, -⟩
    · exact absurd hw hunprocessed
    · exact statusOf_unmoved hc hst hw
    · exact absurd ht hn
  have hmove : tid ∉ s.early →
      s.srv.db.Processed reserved ∧ s'.srv.db.statusOf o = some .confirmed := by
    intro hn
    rcases hw with hw | ⟨ht, -⟩ | ⟨-, hr, hw⟩
    · exact absurd hw hunprocessed
    · exact absurd ht hn
    · exact ⟨hr, statusOf_moved hc (hfits.unpaid hr hunprocessed) hw⟩
  refine ⟨fun hn => ?_, fun _ h => absurd hprocessed h, ?_, ?_, fun _ => ⟨tid, hpayers⟩,
    fun h => absurd hprocessed h⟩
  · rw [hreserved] at hn
    by_cases ht : tid ∈ s.early
    · exact hsame ht _ (hfits.unreserved hn)
    · exact absurd (hmove ht).1 hn
  · rw [hpayers, hearly, hreserved]
    intro t ht hn
    obtain rfl := List.mem_singleton.mp ht
    exact hmove hn
  · rw [hpayers, hearly, hreserved]
    intro t ht he hr
    obtain rfl := List.mem_singleton.mp ht
    exact hsame he _ (hfits.unpaid hr hunprocessed)

theorem coherent_start (hc : Coherent o reserved paid s) {r : OrderRequest}
    (hr : r = .event reserved ∨ r = .event paid) :
    Coherent o reserved paid ⟨service.start s.srv r, s.early⟩ := by
  have hstep : service.step s.srv (.start r) = some (service.start s.srv r) := rfl
  refine ⟨numbered_step hc.numbered hstep, fun t ht => ?_, hc.fits.congr rfl rfl fun _ _ => Iff.rfl,
    fun a ha => ?_⟩
  · rcases List.mem_append.mp (hc.early t ht) with ht | ht
    · obtain ⟨a, ha, rfl⟩ := List.mem_map.mp ht
      exact List.mem_append_left _ (List.mem_map_of_mem (List.mem_append_left _ ha))
    · exact List.mem_append_right _ ht
  · rcases Service.mem_start ha with ha | rfl
    · exact (hc.flight a ha).mono (fun _ h => h) Iff.rfl
    · have hnew : s.srv.next ∉ s.early := fun h =>
        Nat.lt_irrefl _ (hc.numbered.lt _ (hc.early _ h))
      rcases hr with rfl | rfl
      · exact Or.inl ⟨rfl, Or.inl ⟨Or.inl rfl, hnew⟩⟩
      · exact Or.inr ⟨rfl, Or.inl ⟨Or.inl rfl, hnew⟩⟩

/-- A transaction ends, and the fits survive. -/
theorem coherent_close (hc : Coherent o reserved paid s) {i : ℕ} {a : OrderActive}
    {v : Verdict Exc (Outcome OrderWrites)} (ha : s.srv.active[i]? = some a)
    (hactive : s'.srv.active = s.srv.active.eraseIdx i)
    (hlog : s'.srv.log = (s.srv.close i a v).log) (hnumbered : s'.srv.Numbered)
    (hearly : s'.early = s.early)
    (hgrows : ∀ e, s.srv.db.Processed e → s'.srv.db.Processed e)
    (hfits : Fits o reserved paid s') : Coherent o reserved paid s' := by
  have htids : s'.srv.tids = (s.srv.close i a v).tids := by
    unfold Server.tids
    rw [hactive, hlog]
    rfl
  refine ⟨hnumbered, fun t ht => ?_, hfits, fun a' ha' => ?_⟩
  · rw [htids, (tids_close ha v).mem_iff]
    exact hc.early t (hearly ▸ ht)
  · rw [hactive] at ha'
    exact (hc.flight a' (List.mem_of_mem_eraseIdx ha')).mono hgrows (by rw [hearly])

theorem mem_payers {srv : OrderServer} {t : ℕ} (h : t ∈ payers paid srv) :
    ∃ e ∈ srv.log, e.tid = t := by
  obtain ⟨e, he, ht⟩ := List.mem_filterMap.mp h
  refine ⟨e, he, ?_⟩
  split at ht
  · obtain ⟨-, ht⟩ := Option.ite_none_right_eq_some.mp ht
    exact Option.some.inj ht
  · cases ht

theorem coherent_advance (hp : SagaPair o reserved paid) (hc : Coherent o reserved paid s) {i : ℕ}
    {ω : OrderEnv} {a : OrderActive} {q : OrderQuery}
    {k : OrderAnswer q → OrderTxn (Outcome OrderWrites)} (ha : s.srv.active[i]? = some a)
    (hprog : a.prog = .ask q k) (hnumbered : s'.srv.Numbered)
    (hactive : s'.srv.active = s.srv.active.set i { a with prog := k (s.srv.db.answer ω q) })
    (hdb : s'.srv.db = s.srv.db) (hlog : s'.srv.log = s.srv.log)
    (hearly : s'.early = s.early ++ earlyReader reserved paid s.srv (.move (.advance i ω))) :
    Coherent o reserved paid s' := by
  have hmem := List.mem_of_getElem? ha
  obtain ⟨hnew, hflight⟩ := inFlight_advance hp hc.fits ha hprog (hc.flight a hmem) hearly hdb
  have hactives : s'.srv.active.map (·.tid) = s.srv.active.map (·.tid) := by
    rw [hactive]
    exact map_set_of_eq ha rfl
  have hold : ∀ t ∈ s'.early, t ≠ a.tid → t ∈ s.early := fun t ht hn =>
    (hnew t ht).resolve_right hn
  have hkeep : ∀ t ∈ s.early, t ∈ s'.early := fun t ht => hearly ▸ List.mem_append_left _ ht
  refine ⟨hnumbered, fun t ht => ?_, hc.fits.congr hdb ?_ fun t ht => ?_, fun a' ha' => ?_⟩
  · unfold Server.tids
    rw [hactives, hlog]
    rcases hnew t ht with ht | rfl
    · exact hc.early t ht
    · exact List.mem_append_left _ (List.mem_map_of_mem hmem)
  · unfold payers
    rw [hlog]
  · obtain ⟨e, he, rfl⟩ := mem_payers ht
    exact ⟨fun h => hold _ h (hc.numbered.ne_of_log hmem he).symm, hkeep _⟩
  · by_cases htid : a'.tid = a.tid
    · -- the transaction that moved
      have hx : { a with prog := k (s.srv.db.answer ω q) } ∈ s'.srv.active := by
        rw [hactive]
        exact List.mem_set (List.getElem?_eq_some_iff.mp ha).1 _
      have hnodup : (s'.srv.active.map (·.tid)).Nodup := (List.nodup_append.mp hnumbered.nodup).1
      obtain rfl := List.inj_on_of_nodup_map hnodup ha' hx htid
      exact hflight
    · rw [hactive] at ha'
      rcases List.mem_or_eq_of_mem_set ha' with ha' | rfl
      · exact (hc.flight a' ha').mono (fun _ h => hdb ▸ h) ⟨fun h => hold _ h htid, hkeep _⟩
      · exact absurd rfl htid

/-- The writes of an event in flight that are committed. -/
theorem fits_commit (hp : SagaPair o reserved paid) (hc : Coherent o reserved paid s) {i : ℕ}
    {a : OrderActive} {w : Outcome OrderWrites} (ha : s.srv.active[i]? = some a)
    (hprog : a.prog = .done w) (hcommit : commit w s.srv.db = some s'.srv.db)
    (hlog : s'.srv.log = (s.srv.close i a (.committed w)).log) (hearly : s'.early = s.early) :
    Fits o reserved paid s' ∧ ∀ e, s.srv.db.Processed e → s'.srv.db.Processed e := by
  have hpayers : payers paid s'.srv = payers paid (s.srv.close i a (.committed w)) := by
    unfold payers
    rw [hlog]
  have hskip : w = .skipped → Fits o reserved paid s' ∧
      ∀ e, s.srv.db.Processed e → s'.srv.db.Processed e := by
    rintro rfl
    have hdb : s'.srv.db = s.srv.db := (Option.some.inj hcommit).symm
    refine ⟨hc.fits.congr hdb ?_ fun _ _ => by rw [hearly], fun e he => hdb ▸ he⟩
    rw [hpayers]
    exact payers_close fun h => by obtain ⟨-, w, hw⟩ := h; cases hw
  rcases hc.flight a (List.mem_of_getElem? ha) with ⟨hreq, hstage⟩ | ⟨hreq, hstage⟩
  · rw [hprog] at hstage
    rcases hstage with ⟨h | h, -⟩ | h | ⟨u, h, hu⟩
    · rw [program_event (hp.handlers _).1 hp.reservedOrder] at h
      cases h
    · cases h
    · cases h
      exact hskip rfl
    · cases h
      refine ⟨fits_reserved hp hc.fits hu hcommit hearly ?_,
        fun e he => (processed_commit hcommit e).mpr (Or.inl he)⟩
      rw [hpayers]
      refine payers_close fun h => hp.distinct ?_
      have heq := hreq.symm.trans h.1
      cases heq
      rfl
  · rw [hprog] at hstage
    rcases hstage with ⟨h | h, -⟩ | h | ⟨u, h, hu⟩
    · rw [program_event (hp.handlers _).2 hp.paidOrder] at h
      cases h
    · cases h
    · cases h
      exact hskip rfl
    · cases h
      refine ⟨fits_paid hp hc.fits hu hcommit hearly ?_,
        fun e he => (processed_commit hcommit e).mpr (Or.inl he)⟩
      rw [hpayers]
      exact payers_paid hreq _

theorem coherent_commit (hp : SagaPair o reserved paid) (hc : Coherent o reserved paid s) {i : ℕ}
    {a : OrderActive} {w : Outcome OrderWrites} (ha : s.srv.active[i]? = some a)
    (hprog : a.prog = .done w) (hcommit : commit w s.srv.db = some s'.srv.db)
    (hactive : s'.srv.active = s.srv.active.eraseIdx i)
    (hlog : s'.srv.log = (s.srv.close i a (.committed w)).log) (hnumbered : s'.srv.Numbered)
    (hearly : s'.early = s.early) : Coherent o reserved paid s' := by
  obtain ⟨hfits, hgrows⟩ := fits_commit hp hc ha hprog hcommit hlog hearly
  exact coherent_close hc ha hactive hlog hnumbered hearly hgrows hfits

theorem coherent_step (hp : SagaPair o reserved paid) (hc : Coherent o reserved paid s)
    {l : Label OrderRequest OrderEnv} (hok : Delivers reserved paid s l)
    (h : observe reserved paid s l = some s') : Coherent o reserved paid s' := by
  obtain ⟨srv', hstep, rfl⟩ := Option.map_eq_some_iff.mp h
  have hnumbered := numbered_step hc.numbered hstep
  cases l with
  | start r =>
    obtain rfl := Option.some.inj hstep
    have hnone : earlyReader reserved paid s.srv (.start r) = [] := rfl
    rw [hnone, List.append_nil]
    exact coherent_start hc hok
  | move m =>
    obtain ⟨i, a, ha, ⟨ω, q, k, rfl, hprog, rfl⟩ | ⟨w, db, rfl, hprog, hcommit, rfl⟩ |
      ⟨v, hv, rfl⟩⟩ := Service.move_cases hstep
    · exact coherent_advance hp hc ha hprog hnumbered rfl rfl rfl rfl
    · exact coherent_commit hp hc ha hprog hcommit rfl rfl hnumbered (List.append_nil _)
    · have hnone : earlyReader reserved paid s.srv (.move m) = [] := by
        cases m with
        | advance j ω =>
          have hlog := congrArg List.length (Service.log_advance hstep)
          exact absurd hlog (Nat.succ_ne_self _)
        | finish j => rfl
        | crash j => rfl
      have hearly : s.early ++ earlyReader reserved paid s.srv (.move m) = s.early := by
        rw [hnone, List.append_nil]
      refine coherent_close hc ha rfl rfl hnumbered hearly (fun _ h => h)
        (hc.fits.congr rfl (payers_close fun h => ?_) fun _ _ => by rw [hearly])
      obtain ⟨-, w, hw⟩ := h
      exact hv _ hw

/-! ## The iff -/

/-- In every run of deliveries of the two events, once both are processed, the order is CONFIRMED
    exactly when a transaction recorded the payment that had read the order after the reservation
    was processed. -/
theorem confirmed_iff (hp : SagaPair o reserved paid) {db : OrderDb}
    (hpending : db.statusOf o = some .pending) (hreserved : ¬ db.Processed reserved)
    (hpaid : ¬ db.Processed paid) {ls : List (Label OrderRequest OrderEnv)}
    (h : Reaches (observe reserved paid) (Delivers reserved paid) ⟨Server.init db (), []⟩ ls s)
    (hboth : s.srv.db.Processed reserved ∧ s.srv.db.Processed paid) :
    s.srv.db.statusOf o = some .confirmed ↔ ∃ t ∈ payers paid s.srv, t ∉ s.early := by
  have hinit : Coherent o reserved paid ⟨Server.init db (), []⟩ := by
    refine ⟨numbered_init _ _, fun _ h => absurd h List.not_mem_nil, ⟨fun _ => hpending, ?_, ?_,
      ?_, ?_, fun _ => rfl⟩, fun _ h => absurd h List.not_mem_nil⟩
    · exact fun h => absurd h hreserved
    · exact fun _ h => absurd h List.not_mem_nil
    · exact fun _ h => absurd h List.not_mem_nil
    · exact fun h => absurd h hpaid
  have hc : Coherent o reserved paid s :=
    h.invariant (Coherent o reserved paid) hinit fun _ _ _ hc hok hs => coherent_step hp hc hok hs
  obtain ⟨t, hpayers⟩ := hc.fits.payer hboth.2
  have ht : t ∈ payers paid s.srv := hpayers ▸ List.mem_singleton_self t
  constructor
  · intro hconfirmed
    refine ⟨t, ht, fun he => ?_⟩
    have hstatus := hc.fits.tooEarly t ht he hboth.1
    rw [hconfirmed] at hstatus
    cases hstatus
  · rintro ⟨t', ht', hn⟩
    exact (hc.fits.inTime t' ht' hn).2

/-! ## The two orders of arrival -/

/-- A database with one PENDING order. -/
def onePending : OrderDb :=
  { oneReserved with
    orders := ⟨[reservedOrder.withStatus .pending], List.nodup_singleton _⟩ }

def stockReserved : SagaEvent :=
  { eventId := .drawn .inventory 0 0, eventType := .inventoryReservedEvent
    correlationId := .text "checkout", payload := { orderId := some reservedOrder.id } }

theorem stockReserved_pair : SagaPair reservedOrder.id stockReserved paymentSuccess :=
  ⟨rfl, rfl, rfl, rfl, by decide⟩

/-- One delivery after the other, each with the number of queries it asks. -/
def deliveries (es : List (SagaEvent × ℕ)) : List (Label OrderRequest OrderEnv) :=
  es.flatMap fun e => .start (.event e.1) ::
    (List.replicate e.2 (.move (.advance 0 ⟨[], none⟩)) ++ [.move (.finish 0)])

theorem delivers_deliveries {es : List (SagaEvent × ℕ)}
    (h : ∀ e ∈ es, e.1 = reserved ∨ e.1 = paid) (s : Observed) :
    ∀ l ∈ deliveries es, Delivers reserved paid s l := by
  intro l hl
  obtain ⟨e, he, hl⟩ := List.mem_flatMap.mp hl
  rcases List.mem_cons.mp hl with rfl | hl
  · exact (h e he).imp (congrArg _) (congrArg _)
  · rcases List.mem_append.mp hl with hl | hl
    · exact List.eq_of_mem_replicate hl ▸ trivial
    · exact List.mem_singleton.mp hl ▸ trivial

/-- The reservation first, and the payment twice. -/
theorem confirmed_iff_reserved_first : ∃ s,
    Reaches (observe stockReserved paymentSuccess) (Delivers stockReserved paymentSuccess)
      ⟨Server.init onePending (), []⟩
      (deliveries [(stockReserved, 2), (paymentSuccess, 2), (paymentSuccess, 1)]) s ∧
      s.srv.db.statusOf reservedOrder.id = some .confirmed := by
  obtain ⟨s, hrun, hboth, hpayers, hearly⟩ : ∃ s,
      Reaches (observe stockReserved paymentSuccess) (Delivers stockReserved paymentSuccess)
        ⟨Server.init onePending (), []⟩
        (deliveries [(stockReserved, 2), (paymentSuccess, 2), (paymentSuccess, 1)]) s ∧
        (s.srv.db.Processed stockReserved ∧ s.srv.db.Processed paymentSuccess) ∧
        payers paymentSuccess s.srv = [1] ∧ s.early = [] :=
    reaches_where (allSteps_of_forall (delivers_deliveries (by decide)) _) (by decide +kernel)
  refine ⟨s, hrun, (confirmed_iff stockReserved_pair (by decide) (by decide) (by decide) hrun
    hboth).mpr ⟨1, ?_, ?_⟩⟩
  · rw [hpayers]
    exact List.mem_singleton_self 1
  · rw [hearly]
    exact List.not_mem_nil

/-- The payment first: it is recorded, changes nothing, and its second delivery is skipped; the
    order stays STOCK_RESERVED. -/
theorem payment_first_is_lost : ∃ s,
    Reaches (observe stockReserved paymentSuccess) (Delivers stockReserved paymentSuccess)
      ⟨Server.init onePending (), []⟩
      (deliveries [(paymentSuccess, 2), (stockReserved, 2), (paymentSuccess, 1)]) s ∧
      (s.srv.db.Processed stockReserved ∧ s.srv.db.Processed paymentSuccess) ∧
      s.srv.db.statusOf reservedOrder.id = some .stockReserved :=
  reaches_where (allSteps_of_forall (delivers_deliveries (by decide)) _) (by decide +kernel)

end CloudScale.OrderService
