/-
  When terminal order states are absorbing.

  Every handler and the sweeper test the status they read and write only from a non-terminal one
  (`OrderRequest.moves`), but the UPDATE is by primary key and takes no notice of what was committed
  in between. The condition is about the schedule, the history of reads and commits: a transaction
  is `NotOvertaken` if, when it commits, no commit since it read an order has ended that order
  otherwise than the transaction is going to. `terminal_absorbing_iff`: along every run, no step
  changes a terminal status exactly when no transaction that commits has been overtaken.
  `sweeper_cancels_confirmed_order` is a run in which one has.
-/
import CloudScale.Lib.History
import CloudScale.OrderService.Handlers

namespace CloudScale.OrderService

open CloudScale.Lib CloudScale.Shared

/-! ## The condition -/

/-- No step takes an order out of a terminal status. -/
def Absorbing (srv : OrderServer) (l : Label OrderRequest OrderEnv) : Prop :=
  ∀ srv', service.step srv l = some srv' → ∀ id o, srv.db.orders.get id = some o →
    o.status.Terminal → ∃ o', srv'.db.orders.get id = some o' ∧ o'.status = o.status

abbrev OrderAccess := Access OrderDb OrderQuery OrderAnswer

/-- The answers a transaction has heard. -/
abbrev OrderHeard := List ((q : OrderQuery) × OrderAnswer q)

/-- The orders in the answer to a query that a handler or the sweeper sends. -/
def rowsRead : (q : OrderQuery) → OrderAnswer q → List Order
  | .order _, (found : Option Order) => found.toList
  | .stale _ _, (batch : List Order) => batch
  | _, _ => []

/-- The status to which a request moves an order that it finds in `status`. -/
def OrderRequest.moves (r : OrderRequest) (status : OrderStatus) : Option OrderStatus :=
  match r with
  | .event e => match e.eventType with
    | .inventoryReservedEvent => if status ∈ [.pending] then some .stockReserved else none
    | .inventoryReserveFailedEvent =>
      if status ∈ [.pending, .stockReserved] then some .cancelledNoStock else none
    | .paymentSuccessEvent => if status ∈ [.stockReserved] then some .confirmed else none
    | .paymentFailedEvent =>
      if status ∈ [.pending, .stockReserved] then some .cancelled else none
    | _ => none
  | .sweep _ _ => if status ∈ [.pending, .stockReserved] then some .cancelled else none
  | .checkout _ => none

def OrderDb.statusOf (db : OrderDb) (id : Ident) : Option OrderStatus :=
  (db.orders.get id).map (·.status)

/-- A commit that took the database from `before` to `after` has given the order the terminal
    status. -/
def EndedAs (before after : OrderDb) (id : Ident) (status : OrderStatus) : Prop :=
  status.Terminal ∧ before.statusOf id ≠ some status ∧ after.statusOf id = some status

/-- When a transaction commits, no commit since it read an order has ended that order in another
    status than the one to which the transaction's request moves it. -/
def NotOvertaken (s : OrderServer × List OrderAccess) : Label OrderRequest OrderEnv → Prop
  | .move (.finish i) => ∀ a ∈ s.1.active[i]?, ∀ db',
      service.access s.1 (.move (.finish i)) = some (.committed a.tid s.1.db db') →
      ∀ later db q x earlier, s.2 = later ++ .asked a.tid db q x :: earlier →
        ∀ o ∈ rowsRead q x, ∀ next ∈ a.req.moves o.status, ∀ tid before after status,
          .committed tid before after ∈ later → EndedAs before after o.id status → status = next
  | _ => True

/-! ## What the transactions write -/

theorem not_terminal_of_open {s : OrderStatus} (h : s ∈ [OrderStatus.pending, .stockReserved]) :
    ¬ s.Terminal := by
  simp only [List.mem_cons, List.not_mem_nil, or_false] at h
  rcases h with rfl | rfl <;> decide

theorem staleOrders_sound {db : OrderDb} {scan : List Order} {cutoff : Int} {limit : ℕ} :
    ((db.staleOrders scan cutoff limit).map (·.id)).Nodup ∧
      ∀ o ∈ db.staleOrders scan cutoff limit, o ∈ db.orders.rows ∧ stale cutoff o = true := by
  set rows := db.orders.rows.filter (stale cutoff) with hrows
  have hsource : ∃ l : List Order, l.Perm rows ∧
      db.staleOrders scan cutoff limit = l.take limit := by
    unfold OrderDb.staleOrders
    by_cases h : scan.Perm rows
    · exact ⟨scan, h, congrArg (List.take limit) (if_pos h)⟩
    · exact ⟨rows, List.Perm.refl _, congrArg (List.take limit) (if_neg h)⟩
  obtain ⟨l, hperm, htake⟩ := hsource
  have hnodup : (l.map (·.id)).Nodup :=
    (hperm.map _).nodup_iff.mpr (db.orders.nodup.sublist (List.filter_sublist.map _))
  rw [htake]
  refine ⟨hnodup.sublist ((List.take_sublist _ _).map _), fun o ho => ?_⟩
  exact List.mem_filter.mp (hperm.mem_iff.mp (List.mem_of_mem_take ho))

theorem open_of_stale {cutoff : Int} {o : Order} (h : stale cutoff o = true) :
    o.status ∈ [OrderStatus.pending, .stockReserved] := by
  simp only [stale, Bool.and_eq_true, decide_eq_true_eq] at h
  simpa using h.1

/-- A request moves no order out of a terminal status. -/
theorem not_terminal_of_moves {r : OrderRequest} {status next : OrderStatus}
    (h : next ∈ r.moves status) : ¬ status.Terminal := by
  cases status with
  | pending => decide
  | stockReserved => decide
  | cancelling => decide
  | _ =>
    exfalso
    unfold OrderRequest.moves at h
    split at h
    · split at h <;> simp at h
    · simp at h
    · simp at h

/-- The updates of a request that has heard these answers. -/
def OrderRequest.updates (r : OrderRequest) (heard : OrderHeard) : List StatusUpdate :=
  heard.flatMap fun h => (rowsRead h.1 h.2).filterMap fun o =>
    (r.moves o.status).map (StatusUpdate.mk o)

theorem mem_updates {r : OrderRequest} {heard : OrderHeard} {u : StatusUpdate} :
    u ∈ r.updates heard ↔ ∃ q x, ⟨q, x⟩ ∈ heard ∧ u.loaded ∈ rowsRead q x ∧
      u.status ∈ r.moves u.loaded.status := by
  unfold OrderRequest.updates
  rw [List.mem_flatMap]
  constructor
  · rintro ⟨⟨q, x⟩, hheard, hu⟩
    obtain ⟨o, ho, hu⟩ := List.mem_filterMap.mp hu
    obtain ⟨next, hnext, rfl⟩ := Option.map_eq_some_iff.mp hu
    exact ⟨q, x, hheard, ho, hnext⟩
  · rintro ⟨q, x, hheard, ho, hnext⟩
    refine ⟨⟨q, x⟩, hheard, List.mem_filterMap.mpr ⟨u.loaded, ho, ?_⟩⟩
    exact Option.map_eq_some_iff.mpr ⟨u.status, hnext, rfl⟩

/-- What an outcome updates. -/
def updatesOf : Outcome OrderWrites → List StatusUpdate
  | .handled w => w.updates
  | _ => []

/-- The outcome updates each order once, as the request moves what it has heard of. -/
def Tells (r : OrderRequest) (heard : OrderHeard) (us : List StatusUpdate) : Prop :=
  us = r.updates heard ∧ (us.map (·.loaded.id)).Nodup

theorem tells_nil {r : OrderRequest} {heard : OrderHeard} (h : r.updates heard = []) :
    Tells r heard [] :=
  ⟨h.symm, List.nodup_nil⟩

section Tells

variable {r : OrderRequest} {heard : OrderHeard}

/-- The order that was found is moved. -/
theorem tells_moved {o : Order} {next : OrderStatus} (hheard : r.updates heard = [])
    (h : r.moves o.status = some next) (id : Ident) :
    Tells r (⟨.order id, some o⟩ :: heard) [⟨o, next⟩] := by
  refine ⟨?_, List.nodup_singleton _⟩
  unfold OrderRequest.updates at hheard ⊢
  rw [List.flatMap_cons, hheard]
  show _ = [o].filterMap _ ++ []
  rw [List.filterMap_cons, h]
  rfl

/-- The order that was found, if any, stays. -/
theorem tells_left {found : Option Order} (hheard : r.updates heard = [])
    (h : ∀ o ∈ found, r.moves o.status = none) (id : Ident) :
    Tells r (⟨.order id, found⟩ :: heard) [] := by
  refine tells_nil ?_
  unfold OrderRequest.updates at hheard ⊢
  rw [List.flatMap_cons, hheard]
  show found.toList.filterMap _ ++ [] = _
  cases found with
  | none => rfl
  | some o => simp [h o rfl]

/-- A handler that moves the order from `allowed` to `next`, for a request that does so. -/
theorem transition_tells {allowed : List OrderStatus} {next : OrderStatus}
    (hmoves : ∀ status, r.moves status = if status ∈ allowed then some next else none)
    (payload : Payload) (hheard : r.updates heard = []) :
    Accounts service.Answers (fun heard w => Tells r heard w.updates) heard
      (transition allowed next payload) := by
  unfold transition
  cases payload.orderId with
  | none => trivial
  | some orderId =>
    rintro (found : Option Order) -
    cases found with
    | none => exact tells_left hheard (fun _ ho => absurd ho (Option.not_mem_none _)) orderId
    | some o =>
      show Accounts _ _ _ (if o.status ∈ allowed then _ else _)
      split
      · next h => exact tells_moved hheard ((hmoves _).trans (if_pos h)) orderId
      · next h =>
        refine tells_left hheard (fun o' ho' => ?_) orderId
        obtain rfl := Option.some.inj ho'
        exact (hmoves _).trans (if_neg h)

theorem handlePaymentFailed_tells (tid : ℕ) (c : Ident) (payload : Payload)
    (hmoves : ∀ status, r.moves status =
      if status ∈ [OrderStatus.pending, .stockReserved] then some .cancelled else none)
    (hheard : r.updates heard = []) :
    Accounts service.Answers (fun heard w => Tells r heard w.updates) heard
      (handlePaymentFailed tid c payload) := by
  unfold handlePaymentFailed
  cases payload.orderId with
  | none => trivial
  | some orderId =>
    rintro (found : Option Order) -
    cases found with
    | none => exact tells_left hheard (fun _ ho => absurd ho (Option.not_mem_none _)) orderId
    | some o =>
      show Accounts _ _ _ (if o.status ∈ _ then _ else _)
      split
      · next h => exact tells_moved hheard ((hmoves _).trans (if_pos h)) orderId
      · next h =>
        refine tells_left hheard (fun o' ho' => ?_) orderId
        obtain rfl := Option.some.inj ho'
        exact (hmoves _).trans (if_neg h)

theorem handlerOf_tells {tid : ℕ} {e : SagaEvent} {handler : OrderTxn OrderWrites}
    (h : handlerOf tid e = some handler) (hheard : (OrderRequest.event e).updates heard = []) :
    Accounts service.Answers (fun heard w => Tells (.event e) heard w.updates) heard handler := by
  unfold handlerOf at h
  split at h
  · next he =>
    cases h
    exact transition_tells (fun status => by simp only [OrderRequest.moves, he]) _ hheard
  · next he =>
    cases h
    exact transition_tells (fun status => by simp only [OrderRequest.moves, he]) _ hheard
  · next he =>
    cases h
    exact transition_tells (fun status => by simp only [OrderRequest.moves, he]) _ hheard
  · next he =>
    cases h
    refine handlePaymentFailed_tells _ _ _ (fun status => ?_) hheard
    simp only [OrderRequest.moves, he]
  · cases h

theorem sweepStaleSagas_tells (tid : ℕ) (cutoff : Int) (limit : ℕ) :
    Accounts service.Answers (fun heard w => Tells (.sweep cutoff limit) heard w.updates) []
      (sweepStaleSagas tid cutoff limit) := by
  rintro (batch : List Order) ⟨ω, world, db, rfl⟩
  obtain ⟨hnodup, hstale⟩ := @staleOrders_sound db ω.scan cutoff limit
  constructor
  · show (db.staleOrders ω.scan cutoff limit).map _ =
      (db.staleOrders ω.scan cutoff limit).filterMap _ ++ []
    rw [List.append_nil, ← List.filterMap_eq_map]
    refine List.filterMap_congr fun o ho => ?_
    have hmoves : (OrderRequest.sweep cutoff limit).moves o.status = some .cancelled :=
      if_pos (open_of_stale (hstale o ho).2)
    rw [hmoves]
    rfl
  · show (((db.staleOrders ω.scan cutoff limit).map _).map _).Nodup
    rw [List.map_map]
    exact hnodup

theorem updates_checkout (c : Checkout) (heard : OrderHeard) :
    (OrderRequest.checkout c).updates heard = [] := by
  simp [OrderRequest.updates, OrderRequest.moves]

theorem createOrder_tells (tid : ℕ) (c : Checkout) :
    Accounts service.Answers (fun heard w => Tells (.checkout c) heard w.updates) []
      (createOrder tid c) := by
  have hplace : ∀ heard, Accounts service.Answers
      (fun heard w => Tells (.checkout c) heard w.updates) heard (placeOrder tid c) := by
    rintro heard (found : Option Order) -
    cases found with
    | none => exact tells_nil (updates_checkout c _)
    | some o => exact tells_nil (updates_checkout c _)
  unfold createOrder
  split
  · rintro (plan : Option String) - (n : ℕ) -
    show Accounts _ _ _ (if _ then _ else _)
    split
    · trivial
    · exact hplace _
  · exact hplace _

/-- Every program updates the orders it has read, as its request moves them. -/
theorem program_tells (tid : ℕ) (r : OrderRequest) :
    Accounts service.Answers (fun heard o => Tells r heard (updatesOf o)) [] (program tid r) := by
  cases r with
  | event e =>
    rintro (found : Bool) -
    have hheard : (OrderRequest.event e).updates [⟨.inbox e.eventId, found⟩] = [] := rfl
    show Accounts _ _ _ (if found then _ else _)
    split
    · exact tells_nil hheard
    · cases hh : handlerOf tid e with
      | none => exact tells_nil hheard
      | some handler => exact (handlerOf_tells hh hheard).bind fun heard w hw => hw
  | sweep cutoff limit => exact (sweepStaleSagas_tells tid cutoff limit).bind fun heard w hw => hw
  | checkout c => exact (createOrder_tells tid c).bind fun heard w hw => hw

end Tells

/-! ## Runs -/

/-- Every order that a commit has ended still is as that commit left it. -/
def Kept (s : OrderServer × List OrderAccess) : Prop :=
  ∀ tid before after, .committed tid before after ∈ s.2 → ∀ id status,
    EndedAs before after id status → s.1.db.statusOf id = some status

/-- What holds along every run whose steps have been absorbing. -/
structure Scheduled (s : OrderServer × List OrderAccess) : Prop where
  accounted : Accounted service (fun r heard o => Tells r heard (updatesOf o)) s
  changed : ChangedSince s
  kept : Kept s

theorem scheduled_init (db : OrderDb) : Scheduled (Server.init db (), []) :=
  ⟨accounted_init db (), changedSince_init db (), fun _ _ _ h => absurd h List.not_mem_nil⟩

theorem statusOf_eq_some {db : OrderDb} {id : Ident} {status : OrderStatus} :
    db.statusOf id = some status ↔ ∃ o, db.orders.get id = some o ∧ o.status = status :=
  Option.map_eq_some_iff

/-- Along absorbing steps an order that has ended keeps its status. -/
theorem kept_step {s s' : OrderServer × List OrderAccess} {l : Label OrderRequest OrderEnv}
    (h : Kept s) (habsorbing : Absorbing s.1 l)
    (hs : service.recorded s l = some s') : Kept s' := by
  have hold : ∀ tid before after, .committed tid before after ∈ s.2 → ∀ id status,
      EndedAs before after id status → s'.1.db.statusOf id = some status := by
    intro tid before after hmem id status hended
    obtain ⟨o, ho, rfl⟩ := statusOf_eq_some.mp (h tid before after hmem id status hended)
    exact statusOf_eq_some.mpr
      (habsorbing s'.1 (recording_eq_some hs).1 id o ho hended.1)
  cases l with
  | start r =>
    obtain rfl := Service.recorded_start hs
    exact hold
  | move m =>
    obtain ⟨i, a, -, ⟨ω, q, k, -, -, rfl⟩ | ⟨w, db, -, -, -, rfl⟩ | ⟨v, -, rfl⟩⟩ :=
      Service.recorded_cases hs
    · exact fun tid before after hmem =>
        hold tid before after ((List.mem_cons.mp hmem).resolve_left nofun)
    · intro tid before after hmem id status hended
      rcases List.mem_cons.mp hmem with heq | hmem
      · cases heq
        exact hended.2.2
      · exact hold tid before after hmem id status hended
    · exact hold

theorem scheduled_step {s s' : OrderServer × List OrderAccess} {l : Label OrderRequest OrderEnv}
    (h : Scheduled s) (habsorbing : Absorbing s.1 l) (hs : service.recorded s l = some s') :
    Scheduled s' :=
  ⟨accounted_step program_tells h.accounted hs, changedSince_step h.changed hs,
    kept_step h.kept habsorbing hs⟩

/-- A step that leaves the orders alone is absorbing. -/
theorem absorbing_of_orders {srv : OrderServer} {l : Label OrderRequest OrderEnv}
    (h : ∀ srv', service.step srv l = some srv' → srv'.db.orders = srv.db.orders) :
    Absorbing srv l := by
  intro srv' hs id o ho _
  exact ⟨o, (h srv' hs).symm ▸ ho, rfl⟩

/-- A commit of an outcome keeps the terminal orders exactly when it gives them no other status. -/
theorem commit_absorbing_iff {db db' : OrderDb} {w : Outcome OrderWrites}
    (hnodup : ((updatesOf w).map (·.loaded.id)).Nodup) (hc : commit w db = some db') :
    (∀ id o, db.orders.get id = some o → o.status.Terminal →
      ∃ o', db'.orders.get id = some o' ∧ o'.status = o.status) ↔
    ∀ u ∈ updatesOf w, ∀ status ∈ db.statusOf u.loaded.id, status.Terminal →
      status = u.status := by
  cases w with
  | handled w =>
    constructor
    · intro h u hu status hstatus hterminal
      obtain ⟨o, ho, rfl⟩ := statusOf_eq_some.mp hstatus
      obtain ⟨o', ho', hsame⟩ := h _ o ho hterminal
      obtain ⟨hext, -, -⟩ := commit_eq_some hc
      have hnew : db'.orders.get u.loaded.id = some (o.withStatus u.status) := by
        refine Table.get_extend_of_some hext ?_
        exact (get_runUpdates_of_mem _ hnodup hu).trans (ho ▸ rfl)
      obtain rfl := Option.some.inj (hnew.symm.trans ho')
      exact hsame.symm
    · intro h id o ho hterminal
      rcases get_commit hc hnodup ho with ⟨u, hu, rfl, hnew⟩ | ⟨-, hsame⟩
      · exact ⟨_, hnew, (h u hu _ (statusOf_eq_some.mpr ⟨o, ho, rfl⟩) hterminal).symm⟩
      · exact ⟨o, hsame, rfl⟩
  | skipped =>
    obtain rfl := Option.some.inj hc
    exact iff_of_true (fun _ o ho _ => ⟨o, ho, rfl⟩) fun _ hu => absurd hu List.not_mem_nil
  | ignored =>
    obtain rfl := Option.some.inj hc
    exact iff_of_true (fun _ o ho _ => ⟨o, ho, rfl⟩) fun _ hu => absurd hu List.not_mem_nil

/-- An answer with the order is from a database in which the order has this status. -/
theorem statusOf_of_rowsRead {ω : OrderEnv} {db : OrderDb} {q : OrderQuery} {o : Order}
    (h : o ∈ rowsRead q (db.answer ω q)) : db.statusOf o.id = some o.status := by
  refine statusOf_eq_some.mpr ⟨o, ?_, rfl⟩
  cases q with
  | order id =>
    have hget : db.orders.get id = some o := by simpa [rowsRead, OrderDb.answer] using h
    rwa [Table.get_key hget]
  | stale cutoff limit => exact Table.get_of_mem (staleOrders_sound.2 o h).1
  | _ => exact absurd h List.not_mem_nil

/-- The orders a transaction updates have been ended otherwise exactly when it is overtaken. -/
theorem updates_iff {s : OrderServer × List OrderAccess} (h : Scheduled s) {tid : ℕ}
    {r : OrderRequest} {us : List StatusUpdate} (hus : us = r.updates (heardBy tid s.2)) :
    (∀ u ∈ us, ∀ status ∈ s.1.db.statusOf u.loaded.id, status.Terminal → status = u.status) ↔
    ∀ later db q x earlier, s.2 = later ++ .asked tid db q x :: earlier →
      ∀ o ∈ rowsRead q x, ∀ next ∈ r.moves o.status, ∀ tid' before after status,
        .committed tid' before after ∈ later → EndedAs before after o.id status →
          status = next := by
  subst hus
  constructor
  · intro hall later db q x earlier hsplit o ho next hnext tid' before after status hlater hended
    have hasked : ⟨q, x⟩ ∈ heardBy tid s.2 := mem_heardBy.mpr ⟨db, by rw [hsplit]; simp⟩
    have hmem : (.committed tid' before after : OrderAccess) ∈ s.2 := by
      rw [hsplit]
      exact List.mem_append_left _ hlater
    exact hall ⟨o, next⟩ (mem_updates.mpr ⟨q, x, hasked, ho, hnext⟩) status
      (h.kept tid' before after hmem o.id status hended) hended.1
  · intro hall u hu status hstatus hterminal
    obtain ⟨q, x, hasked, ho, hnext⟩ := mem_updates.mp hu
    obtain ⟨db, hasked⟩ := mem_heardBy.mp hasked
    obtain ⟨later, earlier, hsplit⟩ := List.append_of_mem hasked
    obtain ⟨-, ω, world, rfl⟩ := h.accounted.asked tid db q x hasked
    -- it was open when the transaction read it, so some commit since has ended it
    have hread : db.statusOf u.loaded.id = some u.loaded.status := statusOf_of_rowsRead ho
    have hchanged : db.statusOf u.loaded.id ≠ s.1.db.statusOf u.loaded.id := by
      rw [hread, hstatus]
      intro heq
      exact not_terminal_of_moves hnext (Option.some.inj heq ▸ hterminal)
    obtain ⟨tid', before, after, hlater, hbefore, hafter⟩ :=
      h.changed later tid db q _ earlier hsplit (·.statusOf u.loaded.id) hchanged
    rw [hstatus] at hbefore hafter
    exact hall later db q _ earlier hsplit u.loaded ho u.status hnext tid' before
      after status hlater
      ⟨hterminal, hbefore, hafter⟩

theorem absorbing_iff {s : OrderServer × List OrderAccess} {l : Label OrderRequest OrderEnv}
    (h : Scheduled s) : Absorbing s.1 l ↔ NotOvertaken s l := by
  cases l with
  | start r =>
    exact iff_of_true (absorbing_of_orders fun _ hs => by cases hs; rfl) trivial
  | move m =>
    by_cases hcommit : ∃ i a w db', m = .finish i ∧ s.1.active[i]? = some a ∧
        a.prog = .done w ∧ commit w s.1.db = some db'
    · obtain ⟨i, a, w, db', rfl, ha, hp, hc⟩ := hcommit
      obtain ⟨hus, hnodup⟩ := h.accounted.result (List.mem_of_getElem? ha) hp
      have hstep : service.step s.1 (.move (.finish i)) = some _ := Service.finish_db ha hp hc
      have haccess : service.access s.1 (.move (.finish i)) =
          some (.committed a.tid s.1.db db') :=
        Service.access_finish.mpr ⟨a, w, db', ha, hp, hc, rfl⟩
      have habs : Absorbing s.1 (.move (.finish i)) ↔ ∀ id o, s.1.db.orders.get id = some o →
          o.status.Terminal → ∃ o', db'.orders.get id = some o' ∧ o'.status = o.status := by
        unfold Absorbing
        rw [hstep]
        simp only [Option.some.injEq, forall_eq']
      rw [habs, commit_absorbing_iff hnodup hc, updates_iff h hus]
      constructor
      · intro hall a' ha' db'' _
        obtain rfl := Option.some.inj (ha.symm.trans ha')
        exact hall
      · exact fun hno => hno a ha db' haccess
    · refine iff_of_true (absorbing_of_orders fun srv' hs => ?_) ?_
      · rcases Service.move_db hs with hdb | ⟨i, a, w, hm, ha, hp, hc⟩
        · rw [hdb]
        · exact absurd ⟨i, a, w, srv'.db, hm, ha, hp, hc⟩ hcommit
      · cases m with
        | finish i =>
          intro _ _ _ haccess
          obtain ⟨a, w, db', ha, hp, hc, -⟩ := Service.access_finish.mp haccess
          exact absurd ⟨i, a, w, db', rfl, ha, hp, hc⟩ hcommit
        | advance i ω => trivial
        | crash i => trivial

/-- Along every run, no step takes an order out of a terminal status exactly when no transaction
    that commits has been overtaken by a commit that ended an order it has read. -/
theorem terminal_absorbing_iff (db : OrderDb) (ls : List (Label OrderRequest OrderEnv)) :
    AllSteps service.step Absorbing (Server.init db ()) ls ↔
      AllSteps service.recorded NotOvertaken (Server.init db (), []) ls :=
  (allSteps_recording ls (Server.init db (), [])).symm.trans
    (allSteps_congr (fun _ _ _ h habsorbing hs => scheduled_step h habsorbing hs)
      (fun _ _ h => absorbing_iff h) ls _ (scheduled_init db))

/-! ## A lost update -/

def reservedOrder : Order :=
  { id := .drawn .order 0 0, userId := .text "user", status := .stockReserved, totalAmount := 1
    idempotencyKey := "checkout-0", createdAt := 0, tenantId := "default-tenant"
    items := [{ productId := 0, quantity := 1, unitPrice := 1 }] }

def paymentSuccess : SagaEvent :=
  { eventId := .drawn .payment 0 0, eventType := .paymentSuccessEvent
    correlationId := .text "checkout", payload := { orderId := some reservedOrder.id } }

/-- A database with one order whose stock is reserved. -/
def oneReserved : OrderDb :=
  { orders := ⟨[reservedOrder], List.nodup_singleton _⟩, outbox := .empty, inbox := .empty }

/-- The sweeper has read its batch, then the payment's event is handled and committed. -/
def overtaken : List (Label OrderRequest OrderEnv) :=
  [.start (sweepRequest 1000 none none), .move (.advance 0 ⟨[], none⟩),
    .start (.event paymentSuccess), .move (.advance 1 ⟨[], none⟩), .move (.advance 1 ⟨[], none⟩),
    .move (.finish 1)]

/-- The order is CONFIRMED, and the commit of the sweeper, which read it before, makes it
    CANCELLED. -/
theorem sweeper_cancels_confirmed_order : ∃ srv srv',
    Reaches service.step anyStep (Server.init oneReserved ()) overtaken srv ∧
      (srv.db.orders.get reservedOrder.id).map (·.status) = some .confirmed ∧
      service.step srv (.move (.finish 0)) = some srv' ∧
      (srv'.db.orders.get reservedOrder.id).map (·.status) = some .cancelled ∧
      ¬ Absorbing srv (.move (.finish 0)) := by
  have hrun : Reaches service.step anyStep (Server.init oneReserved ()) overtaken _ :=
    reaches_run rfl
  refine ⟨_, _, hrun, rfl, rfl, rfl, fun h => ?_⟩
  obtain ⟨o', ho', hstatus⟩ := h _ rfl reservedOrder.id _ rfl (Or.inl rfl)
  obtain rfl := Option.some.inj ho'
  cases hstatus

end CloudScale.OrderService
