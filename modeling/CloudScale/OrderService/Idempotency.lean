/-
  Checkouts with the same idempotency key.

  `create_order` checks the quota, then looks the key up, then inserts, in this order, and only the
  unique index stands between two requests that both found nothing. `Clear` rules the bad cases out:
  no request for the key counts the tenant's orders when the plan allows no more of them, and none
  commits a new order when there is one with the key. `checkout_idempotent`: then every request that
  ends has returned the one order with the key, which has one created event in the outbox.
  `replay_refused` is a replay that finds the quota used up by the order it asks for.
-/
import CloudScale.Lib.Returns
import CloudScale.OrderService.Accounts

namespace CloudScale.OrderService

open CloudScale.Lib CloudScale.Shared

/-! ## Orders and their created events -/

/-- The created events about an order. -/
def creations (rows : List OutboxRow) (o : Ident) : ℕ :=
  rows.countP fun r =>
    decide (r.event.eventType = .orderCreatedEvent ∧ r.event.payload.orderId = some o)

/-- The transaction has drawn no identifier in the database. -/
structure Undrawn (db : OrderDb) (tid : ℕ) : Prop where
  orders : ∀ o ∈ db.orders.rows, ∀ n, o.id ≠ .drawn .order tid n
  outbox : ∀ r ∈ db.outbox.rows, ∀ n, r.eventId ≠ .drawn .order tid n

/-- The keys are unique and every order has one created event. -/
structure Ledger (db : OrderDb) : Prop where
  keys : (db.orders.rows.map (·.idempotencyKey)).Nodup
  events : ∀ id, creations db.outbox.rows id = db.orders.rows.countP fun o => decide (o.id = id)

theorem creations_append (rows rows' : List OutboxRow) (o : Ident) :
    creations (rows ++ rows') o = creations rows o + creations rows' o :=
  List.countP_append

variable {db db' : OrderDb} {tid : ℕ} {r : OrderRequest} {w : OrderWrites}

theorem commit_keys (hc : db.commit w = some db') :
    (db'.orders.rows.map (·.idempotencyKey)).Nodup := by
  simp only [OrderDb.commit, Option.bind_eq_bind, Option.bind_eq_some_iff,
    Option.ite_none_right_eq_some, Option.some.injEq, Bool.and_eq_true] at hc
  obtain ⟨orders, -, outbox, -, inbox, -, ⟨hkeys, -⟩, rfl⟩ := hc
  exact of_decide_eq_true hkeys

/-- A transaction announces the order it creates, and no other. -/
theorem Account.creations (h : Account tid db r w) (o : Ident) :
    creations w.outbox o = w.created.toList.countP fun x => decide (x.id = o) := by
  cases h with
  | @placed c =>
    have hevent : (orderCreatedEvent tid c).event.payload.orderId = some (newOrder tid c).id := rfl
    have htype : (orderCreatedEvent tid c).event.eventType = .orderCreatedEvent := rfl
    show List.countP _ [orderCreatedEvent tid c] = List.countP _ [newOrder tid c]
    rw [List.countP_singleton, List.countP_singleton, hevent, htype]
    simp
  | @swept cutoff limit os _ _ _ =>
    refine List.countP_eq_zero.mpr fun row hrow => ?_
    obtain ⟨i, hi, rfl⟩ := List.mem_mapIdx.mp hrow
    simp [timeoutEvent, writeOutbox]
  | cancelled => rfl
  | existing => rfl
  | unmoved => rfl
  | moved => rfl

theorem commit_ledger (hl : Ledger db) (h : Account tid db r w) (hc : db.commit w = some db') :
    Ledger db' := by
  refine ⟨commit_keys hc, fun id => ?_⟩
  obtain ⟨-, hout, -⟩ := commit_eq_some hc
  obtain ⟨g, hg, hrows⟩ := rows_commit hc
  have hid : (fun o => decide (o.id = id)) ∘ g = fun o : Order => decide (o.id = id) := by
    funext o
    obtain ⟨s, hs⟩ := hg o
    show decide ((g o).id = id) = _
    rw [hs]
    rfl
  rw [Table.rows_extend hout, creations_append, hl.events, h.creations, hrows,
    List.countP_append, List.countP_map, hid]

/-- The rows a transaction inserts have identifiers it drew. -/
theorem Account.drawn (h : Account tid db r w) :
    (∀ o, w.created = some o → ∃ n, o.id = .drawn .order tid n) ∧
      ∀ row ∈ w.outbox, ∃ n, row.eventId = .drawn .order tid n := by
  cases h with
  | @placed c =>
    refine ⟨fun o ho => ?_, fun row hrow => ?_⟩
    · exact Option.some.inj ho ▸ ⟨0, rfl⟩
    · exact List.mem_singleton.mp hrow ▸ ⟨1, rfl⟩
  | @swept cutoff limit os _ _ _ =>
    refine ⟨fun o ho => absurd ho.symm (Option.some_ne_none o), fun row hrow => ?_⟩
    obtain ⟨i, hi, rfl⟩ := List.mem_mapIdx.mp hrow
    exact ⟨2 * i, rfl⟩
  | cancelled =>
    refine ⟨fun o ho => absurd ho.symm (Option.some_ne_none o), fun row hrow => ?_⟩
    exact List.mem_singleton.mp hrow ▸ ⟨0, rfl⟩
  | _ =>
    exact ⟨fun o ho => absurd ho.symm (Option.some_ne_none o),
      fun _ hrow => absurd hrow List.not_mem_nil⟩

theorem commit_undrawn {t : ℕ} (hu : Undrawn db t) (h : Account tid db r w)
    (hc : db.commit w = some db') (hne : t ≠ tid) : Undrawn db' t := by
  obtain ⟨hcreated, houtbox⟩ := h.drawn
  have hother : ∀ {id : Ident} {n : ℕ}, (∃ m, id = .drawn .order tid m) →
      id ≠ .drawn .order t n := by
    rintro id n ⟨m, rfl⟩ heq
    exact hne (Ident.drawn.inj heq).2.1.symm
  obtain ⟨-, hout, -⟩ := commit_eq_some hc
  obtain ⟨g, hg, hrows⟩ := rows_commit hc
  refine ⟨fun o ho n => ?_, fun row hrow n => ?_⟩
  · rw [hrows] at ho
    rcases List.mem_append.mp ho with hold | hnew
    · obtain ⟨old, hmem, rfl⟩ := List.mem_map.mp hold
      obtain ⟨s, hs⟩ := hg old
      rw [hs]
      exact hu.orders old hmem n
    · exact hother (hcreated o (Option.mem_toList.mp hnew))
  · rw [Table.rows_extend hout] at hrow
    rcases List.mem_append.mp hrow with hold | hnew
    · exact hu.outbox row hold n
    · exact hother (houtbox row hnew)

/-! ## The commit of a new order -/

/-- A new order is stored when its identifiers and its key are new and its values fit. -/
theorem commit_placed {c : Checkout} (hkeys : (db.orders.rows.map (·.idempotencyKey)).Nodup)
    (hu : Undrawn db tid)
    (hkey : ∀ o ∈ db.orders.rows, o.idempotencyKey ≠ c.payload.idempotencyKey)
    (hfits : (placed tid c).storable = true) : ∃ db', db.commit (placed tid c) = some db' := by
  have horder : (newOrder tid c).id ∉ db.orders.rows.map (·.id) := fun h => by
    obtain ⟨o, ho, hid⟩ := List.mem_map.mp h
    exact hu.orders o ho 0 hid
  have hevent : (orderCreatedEvent tid c).eventId ∉ db.outbox.rows.map (·.eventId) := fun h => by
    obtain ⟨row, hrow, hid⟩ := List.mem_map.mp h
    exact hu.outbox row hrow 1 hid
  obtain ⟨orders, horders⟩ := Table.extend_eq_some (t := db.orders) horder
  obtain ⟨outbox, houtbox⟩ := Table.extend_eq_some (t := db.outbox) hevent
  have hunique : keysUnique orders = true := by
    refine decide_eq_true ?_
    rw [Table.rows_extend horders, List.map_append, List.map_singleton]
    refine List.nodup_append.mpr ⟨hkeys, List.nodup_singleton _, fun a ha b hb hab => ?_⟩
    obtain ⟨o, ho, rfl⟩ := List.mem_map.mp ha
    exact hkey o ho (hab.trans (List.mem_singleton.mp hb))
  refine ⟨⟨orders, outbox, db.inbox⟩, ?_⟩
  have hinbox : db.inbox.extend [] = some db.inbox := Table.extend_nil _
  show (do
    let orders ← db.orders.extend [newOrder tid c]
    let outbox ← db.outbox.extend [orderCreatedEvent tid c]
    let inbox ← db.inbox.extend []
    if keysUnique orders && (placed tid c).storable then some (⟨orders, outbox, inbox⟩ : OrderDb)
      else none) = _
  rw [horders, houtbox, hinbox]
  simp [hunique, hfits]

/-- A transaction that only returns an order changes nothing. -/
theorem commit_returned {o : Order} (hkeys : (db.orders.rows.map (·.idempotencyKey)).Nodup) :
    db.commit { returned := some o } = some db := by
  show (do
    let orders ← db.orders.extend []
    let outbox ← db.outbox.extend []
    let inbox ← db.inbox.extend []
    if keysUnique orders && true then some (⟨orders, outbox, inbox⟩ : OrderDb) else none) = _
  have hunique : keysUnique db.orders = true := decide_eq_true hkeys
  rw [Table.extend_nil, Table.extend_nil, Table.extend_nil]
  simp [hunique]

/-! ## Requests for one key -/

/-- A checkout of the tenant with the key. -/
def Checkout.IsFor (T K : String) (c : Checkout) : Prop :=
  c.tenant = T ∧ c.payload.idempotencyKey = K

def Requests (T K : String) : OrderRequest → Prop
  | .checkout c => c.IsFor T K
  | _ => False

/-- The order with the key. -/
def OrderOf (T K : String) (o : Order) : Prop := o.tenantId = T ∧ o.idempotencyKey = K

/-- The request has returned the order. -/
def Returned (e : Entry OrderRequest Exc (Outcome OrderWrites)) (o : Order) : Prop :=
  ∃ w, e.verdict = .committed (.handled w) ∧ w.returned = some o

section Clear

variable (T K : String) (plan : Option String)

/-- The plan is `plan`, and the tenant's orders are fewer than it allows when they are counted. -/
def QuotaLeft (tk : Ticket OrderDb OrderRequest) (db : OrderDb) :
    OrderQuery → OrderEnv → Prop
  | .plan _, ω => Requests T K tk.req → ω.plan = plan
  | .count tenant, _ => Requests T K tk.req →
      (db.orders.rows.countP fun o => o.tenantId == tenant) < planLimit (planTier plan)
  | _, _ => True

/-- No request for the key counts the tenant's orders when its plan allows no more of them, none
    commits a new order when there is one with the key, and their values fit the columns. -/
def Clear (srv : OrderServer) : Label OrderRequest OrderEnv → Prop
  | .start r => match r with
    | .checkout c => c.IsFor T K → (placed srv.next c).storable = true
    | _ => True
  | .move (.advance i ω) => match srv.active[i]? with
    | some a => match a.prog with
      | .ask q _ => QuotaLeft T K plan a.toTicket srv.db q ω
      | _ => True
    | none => True
  | .move (.finish i) => match srv.active[i]? with
    | some a => match a.req, a.prog with
      | .checkout c, .done (.handled w) => c.IsFor T K → w.created.isSome = true →
          ∀ o ∈ srv.db.orders.rows, o.idempotencyKey ≠ K
      | _, _ => True
    | none => True
  | .move (.crash _) => True

end Clear

/-- Every request for the key that has ended, unless its process died, has returned the order. -/
def Replayed (T K : String) (srv : OrderServer) : Prop :=
  ∀ e ∈ srv.log, Requests T K e.req → e.verdict ≠ .crashed →
    ∃ o, Returned e o ∧ Known srv.db o ∧ OrderOf T K o

section Programs

variable {T K : String} {plan : Option String} {rely : OrderDb → OrderDb → Prop}

/-- What the requests are answered when `QuotaLeft` holds. -/
theorem createOrder_returns {c : Checkout} (hc : c.IsFor T K) {begun : OrderDb} {t : ℕ}
    (s : OrderDb) : Returns (answers id) rely
      (QuotaLeft T K plan ⟨t, .checkout c, begun⟩) (createOrder tid c) s := by
  have hplace : ∀ u, Returns (answers id) rely (QuotaLeft T K plan ⟨t, .checkout c, begun⟩)
      (placeOrder tid c) u := by
    intro u v ω _ _
    cases answers id ω v (.byKey c.payload.idempotencyKey c.tenant) with
    | some o => trivial
    | none => trivial
  unfold createOrder
  split
  · intro u ω _ hplan v ω' _ hcount
    have hplan' : ω.plan = plan := hplan hc
    have hcount' : (v.orders.rows.countP fun o => o.tenantId == c.tenant) <
        planLimit (planTier plan) := hcount hc
    show Returns _ _ _ (if planLimit (planTier ω.plan) ≤
      v.orders.rows.countP (fun o => o.tenantId == c.tenant) then _ else _) v
    rw [hplan', if_neg (Nat.not_le.mpr hcount')]
    exact hplace v
  · exact hplace s

theorem program_returns {begun : OrderDb} {t : ℕ} (hr : Requests T K r) (s : OrderDb) :
    Returns (answers id) rely (QuotaLeft T K plan ⟨t, r, begun⟩) (program tid r) s := by
  cases r with
  | event e => exact hr.elim
  | sweep cutoff limit => exact hr.elim
  | checkout c => exact (createOrder_returns hr s).bind fun _ _ => trivial

/-- A request that is no event leaves writes. -/
theorem program_handled {good : OrderDb → OrderQuery → OrderEnv → Prop}
    (hrefl : ∀ s, rely s s) (s : OrderDb) : Safe (answers id) rely good
      (fun _ o => r.event? = none → ∃ w, o = .handled w) (program tid r) s := by
  cases r with
  | event e => exact (safe_true _ s).imp fun _ _ _ h => absurd h (Option.some_ne_none e)
  | sweep cutoff limit =>
    exact (safe_true _ s).bind (hrefl s) (fun _ u _ => hrefl u) fun _ w _ _ _ _ => ⟨w, rfl⟩
  | checkout c =>
    exact (safe_true _ s).bind (hrefl s) (fun _ u _ => hrefl u) fun _ w _ _ _ _ => ⟨w, rfl⟩

end Programs

/-- What a transaction leaves when it ends. -/
def Leaves (tk : Ticket OrderDb OrderRequest) (db : OrderDb) (o : Outcome OrderWrites) : Prop :=
  AccountedOutcome tk.tid db tk.req o ∧ (tk.req.event? = none → ∃ w, o = .handled w)

theorem leaves_guarantees :
    Guarantees service (answers id) Persist (fun _ _ _ _ => True) Leaves where
  refl := order_guarantees.refl
  trans := order_guarantees.trans
  answer := order_guarantees.answer
  start tid r db := (order_guarantees.start tid r db).and (program_handled Persist.refl db)
  commit tk db o db' h hc := order_guarantees.commit tk db o db' h.1 hc

/-- An accounted checkout for the key is committed, and returns the order. -/
theorem checkout_commits {T K : String} {c : Checkout} (hc : c.IsFor T K) (hl : Ledger db)
    (hu : Undrawn db tid) (h : Account tid db (.checkout c) w)
    (hkey : w.created.isSome = true → ∀ o ∈ db.orders.rows, o.idempotencyKey ≠ K)
    (hfits : (placed tid c).storable = true) : ∃ db' o, db.commit w = some db' ∧
      w.returned = some o ∧ Known db' o ∧ OrderOf T K o := by
  obtain ⟨rfl, rfl⟩ := hc
  cases h with
  | @existing _ o hknown hkey' htenant =>
    exact ⟨db, o, commit_returned hl.keys, rfl, hknown, htenant, hkey'⟩
  | placed =>
    obtain ⟨db', hcommit⟩ := commit_placed hl.keys hu (hkey rfl) hfits
    refine ⟨db', newOrder tid c, hcommit, rfl, known_of_get (Table.get_of_mem ?_), rfl, rfl⟩
    rw [Table.rows_extend (commit_eq_some hcommit).1]
    exact List.mem_append_right _ (List.mem_singleton_self _)

/-! ## Runs -/

/-- The transaction is in flight or has not started. -/
def Ahead (srv : OrderServer) (t : ℕ) : Prop := (∃ a ∈ srv.active, a.tid = t) ∨ srv.next ≤ t

structure Tidy (T K : String) (plan : Option String) (srv : OrderServer) : Prop where
  ledger : Ledger srv.db
  numbered : srv.Numbered
  undrawn : ∀ t, Ahead srv t → Undrawn srv.db t
  leaves : srv.AllSafe (answers id) Persist (fun _ _ _ _ => True) Leaves srv.db
  returns : srv.AllReturn (answers id) Persist (QuotaLeft T K plan) (Requests T K) srv.db
  fits : ∀ a ∈ srv.active, ∀ c, a.req = .checkout c → c.IsFor T K →
    (placed a.tid c).storable = true
  replayed : Replayed T K srv

section Runs

variable {T K : String} {plan : Option String} {srv srv' : OrderServer}

theorem tidy_init (hl : Ledger db) (hu : ∀ t, Undrawn db t) :
    Tidy T K plan (Server.init db ()) where
  ledger := hl
  numbered := numbered_init db ()
  undrawn t _ := hu t
  leaves := allSafe_init db ()
  returns := allReturn_init db ()
  fits _ ha := absurd ha List.not_mem_nil
  replayed _ he := absurd he List.not_mem_nil

theorem tidy_start (h : Tidy T K plan srv) {r : OrderRequest}
    (hok : Clear T K plan srv (.start r)) : Tidy T K plan (service.start srv r) where
  ledger := h.ledger
  numbered := numbered_step (l := .start r) h.numbered rfl
  undrawn t ht := by
    refine h.undrawn t ?_
    rcases ht with ⟨a, ha, hat⟩ | hnext
    · rcases Service.mem_start ha with ha | rfl
      · exact Or.inl ⟨a, ha, hat⟩
      · exact Or.inr (Nat.le_of_eq hat)
    · exact Or.inr (Nat.le_of_succ_le hnext)
  leaves := leaves_guarantees.startSafe r h.leaves
  returns := allReturn_start h.returns fun hr => program_returns hr srv.db
  fits a ha c hreq hc := by
    rcases Service.mem_start ha with ha | rfl
    · exact h.fits a ha c hreq hc
    · have hreq' : r = .checkout c := hreq
      subst hreq'
      exact hok hc
  replayed := h.replayed

theorem goodMove_clear {m : Move OrderEnv} (hok : Clear T K plan srv (.move m)) :
    GoodMove (QuotaLeft T K plan) srv srv.db m := by
  cases m with
  | advance i ω =>
    intro a ha q k hp
    unfold Clear at hok
    simpa only [ha, hp] using hok
  | finish i => trivial
  | crash i => trivial

/-- A request for the key that has come to its end commits and returns the order. -/
theorem commits_order (h : Tidy T K plan srv) {i : ℕ} {a o}
    (hok : Clear T K plan srv (.move (.finish i)))
    (ha : srv.active[i]? = some a) (hreq : Requests T K a.req) (hdone : a.prog = .done o) :
    ∃ w db' x, o = .handled w ∧ srv.db.commit w = some db' ∧ w.returned = some x ∧ Known db' x ∧
      OrderOf T K x := by
  have hmem := List.mem_of_getElem? ha
  obtain ⟨haccount, hhandled⟩ := allSafe_result h.leaves hmem hdone (Persist.refl srv.db)
  cases hr : a.req with
  | event e =>
    rw [hr] at hreq
    exact hreq.elim
  | sweep cutoff limit =>
    rw [hr] at hreq
    exact hreq.elim
  | checkout c =>
    rw [hr] at hreq
    have hc : c.IsFor T K := hreq
    obtain ⟨w, rfl⟩ := hhandled (by rw [hr]; rfl)
    have haccount' : Account a.tid srv.db (.checkout c) w := hr ▸ haccount
    have hfree : w.created.isSome = true → ∀ o ∈ srv.db.orders.rows, o.idempotencyKey ≠ K := by
      unfold Clear at hok
      simp only [ha, hr, hdone] at hok
      exact hok hc
    obtain ⟨db', x, hcommit, hx⟩ := checkout_commits hc h.ledger
      (h.undrawn _ (Or.inl ⟨a, hmem, rfl⟩)) haccount' hfree (h.fits a hmem c hr hc)
    exact ⟨w, db', x, rfl, hcommit, hx⟩

/-- A request for the key that ends has returned the order. -/
theorem finish_replayed (h : Tidy T K plan srv) {i : ℕ}
    (hok : Clear T K plan srv (.move (.finish i)))
    (hs : service.move srv (.finish i) = some srv') (hp : Persist srv.db srv'.db) :
    Replayed T K srv' := by
  have hold : ∀ e ∈ srv.log, Requests T K e.req → e.verdict ≠ .crashed →
      ∃ o, Returned e o ∧ Known srv'.db o ∧ OrderOf T K o := fun e he hreq halive => by
    obtain ⟨o, hreturned, hknown, ho⟩ := h.replayed e he hreq halive
    exact ⟨o, hreturned, hknown.mono hp, ho⟩
  obtain ⟨a, ha, hs⟩ := Option.bind_eq_some_iff.mp hs
  have hmem := List.mem_of_getElem? ha
  intro e he hreq halive
  unfold Service.finish at hs
  split at hs
  · next o hdone =>
    split at hs
    · next db' hc =>
      cases hs
      rcases List.mem_cons.mp he with rfl | he
      · obtain ⟨w, db'', x, rfl, hcommit, hreturned, hknown, hx⟩ :=
          commits_order h hok ha hreq hdone
        obtain rfl : db' = db'' := Option.some.inj (hc.symm.trans hcommit)
        exact ⟨x, ⟨w, rfl, hreturned⟩, hknown, hx⟩
      · exact hold e he hreq halive
    · next hc =>
      cases hs
      rcases List.mem_cons.mp he with rfl | he
      · obtain ⟨w, db', x, rfl, hcommit, -⟩ := commits_order h hok ha hreq hdone
        exact absurd (hc.symm.trans hcommit) (Option.some_ne_none db').symm
      · exact hold e he hreq halive
  · next ex hraise =>
    cases hs
    rcases List.mem_cons.mp he with rfl | he
    · exact absurd hraise (AllReturn.not_raise h.returns hmem hreq)
    · exact hold e he hreq halive
  · cases hs

theorem move_replayed (h : Tidy T K plan srv) {m : Move OrderEnv}
    (hok : Clear T K plan srv (.move m)) (hs : service.move srv m = some srv') :
    Replayed T K srv' := by
  have hp : Persist srv.db srv'.db := leaves_guarantees.moveRely h.leaves hs
  cases m with
  | advance i ω =>
    intro e he hreq halive
    rw [Service.log_advance hs] at he
    obtain ⟨o, hreturned, hknown, ho⟩ := h.replayed e he hreq halive
    exact ⟨o, hreturned, hknown.mono hp, ho⟩
  | finish i => exact finish_replayed h hok hs hp
  | crash i =>
    obtain ⟨a, ha, rfl⟩ := Option.map_eq_some_iff.mp hs
    intro e he hreq halive
    rcases List.mem_cons.mp he with rfl | he
    · exact absurd rfl halive
    · exact h.replayed e he hreq halive

/-- A transaction that commits is not ahead any more. -/
theorem ne_of_ahead (hn : srv.Numbered) {i : ℕ} {a : Active OrderDb OrderRequest OrderQuery
    OrderAnswer Exc (Outcome OrderWrites)} {o : Outcome OrderWrites} {t : ℕ}
    (hs : service.move srv (.finish i) = some srv') (ha : srv.active[i]? = some a)
    (hp : a.prog = .done o) (hc : service.commit o srv.db = some db') (ht : Ahead srv' t) :
    t ≠ a.tid := by
  have hnumbered : srv'.Numbered := numbered_step (l := .move (.finish i)) hn hs
  obtain rfl := Option.some.inj (hs.symm.trans (Service.finish_db ha hp hc))
  rcases ht with ⟨a', ha', rfl⟩ | hnext
  · exact hnumbered.ne_of_log ha' List.mem_cons_self
  · have hmem : a.tid ∈ srv.tids :=
      List.mem_append_left _ (List.mem_map_of_mem (List.mem_of_getElem? ha))
    have hlt : a.tid < srv.next := hn.lt _ hmem
    have hle : srv.next ≤ t := hnext
    omega

theorem tidy_move (h : Tidy T K plan srv) {m : Move OrderEnv}
    (hok : Clear T K plan srv (.move m)) (hs : service.move srv m = some srv') :
    Tidy T K plan srv' := by
  have hp : Persist srv.db srv'.db := leaves_guarantees.moveRely h.leaves hs
  have hahead : ∀ t, Ahead srv' t → Ahead srv t := fun t ht => by
    rcases ht with ⟨a', ha', hat⟩ | hnext
    · obtain ⟨a, ha, htk⟩ := Service.move_tickets hs a' ha'
      exact Or.inl ⟨a, ha, (congrArg Ticket.tid htk).trans hat⟩
    · rw [Service.move_next hs] at hnext
      exact Or.inr hnext
  have hdb : Ledger srv'.db ∧ ∀ t, Ahead srv' t → Undrawn srv'.db t := by
    rcases Service.move_db hs with hdb | ⟨i, a, o, rfl, ha, hdone, hc⟩
    · rw [hdb]
      exact ⟨h.ledger, fun t ht => h.undrawn t (hahead t ht)⟩
    · cases o with
      | handled w =>
        have haccount : Account a.tid srv.db a.req w :=
          (allSafe_result h.leaves (List.mem_of_getElem? ha) hdone (Persist.refl _)).1
        exact ⟨commit_ledger h.ledger haccount hc, fun t ht => commit_undrawn
          (h.undrawn t (hahead t ht)) haccount hc (ne_of_ahead h.numbered hs ha hdone hc ht)⟩
      | skipped =>
        have hsame : srv.db = srv'.db := Option.some.inj hc
        rw [← hsame]
        exact ⟨h.ledger, fun t ht => h.undrawn t (hahead t ht)⟩
      | ignored =>
        have hsame : srv.db = srv'.db := Option.some.inj hc
        rw [← hsame]
        exact ⟨h.ledger, fun t ht => h.undrawn t (hahead t ht)⟩
  refine ⟨hdb.1, numbered_step (l := .move m) h.numbered hs, hdb.2, ?_, ?_, ?_, ?_⟩
  · exact leaves_guarantees.moveSafe h.leaves hs (goodMove_of_forall (fun _ _ _ _ => trivial) m)
  · exact allReturn_weaken (fun _ _ _ => Persist.trans) (allReturn_move h.returns hs
      (Persist.refl _) (fun _ _ => rfl) (goodMove_clear hok)) hp
  · intro a' ha' c hreq hc
    obtain ⟨a, ha, htk⟩ := Service.move_tickets hs a' ha'
    have htid : a'.tid = a.tid := (congrArg Ticket.tid htk).symm
    rw [htid]
    exact h.fits a ha c ((congrArg Ticket.req htk).trans hreq) hc
  · exact move_replayed h hok hs

theorem reaches_tidy (hl : Ledger db) (hu : ∀ t, Undrawn db t)
    {ls : List (Label OrderRequest OrderEnv)}
    (h : Reaches service.step (Clear T K plan) (Server.init db ()) ls srv) :
    Tidy T K plan srv := by
  refine h.invariant (Tidy T K plan) (tidy_init hl hu) fun s l s' hs hok hstep => ?_
  cases l with
  | start r =>
    obtain rfl := Option.some.inj hstep
    exact tidy_start hs hok
  | move m => exact tidy_move hs hok hstep

/-- In every run in which the quota is never used up when a request for the key counts, and no
    request commits a new order when there is one with the key, every request for the key that has
    ended (unless its process died) has returned the one order with the key, which has one created
    event. -/
theorem checkout_idempotent (hl : Ledger db) (hu : ∀ t, Undrawn db t)
    {ls : List (Label OrderRequest OrderEnv)}
    (h : Reaches service.step (Clear T K plan) (Server.init db ()) ls srv) :
    ∀ e ∈ srv.log, Requests T K e.req → e.verdict ≠ .crashed → ∃ o s, Returned e o ∧
      o.tenantId = T ∧
      srv.db.orders.rows.filter (fun x => decide (x.idempotencyKey = K)) = [o.withStatus s] ∧
      creations srv.db.outbox.rows o.id = 1 := by
  have ht : Tidy T K plan srv := reaches_tidy hl hu h
  intro e he hreq halive
  obtain ⟨o, hreturned, ⟨s, hs⟩, htenant, rfl⟩ := ht.replayed e he hreq halive
  have hmem := Table.mem_of_get hs
  refine ⟨o, s, hreturned, htenant, filter_of_nodup_map ht.ledger.keys hmem, ?_⟩
  have hid : o.id = (o.withStatus s).id := rfl
  rw [ht.ledger.events, List.countP_eq_length_filter, hid,
    filter_of_nodup_map srv.db.orders.nodup hmem]
  rfl

end Runs

/-! ## Replays -/

instance (T K : String) (c : Checkout) : Decidable (c.IsFor T K) :=
  inferInstanceAs (Decidable (_ ∧ _))

instance (T K : String) (o : Order) : Decidable (OrderOf T K o) :=
  inferInstanceAs (Decidable (_ ∧ _))

instance (T K : String) : DecidablePred (Requests T K)
  | .checkout c => inferInstanceAs (Decidable (c.IsFor T K))
  | .event _ => isFalse id
  | .sweep _ _ => isFalse id

instance (T K : String) (plan : Option String) (tk : Ticket OrderDb OrderRequest) (db : OrderDb)
    (q : OrderQuery) (ω : OrderEnv) : Decidable (QuotaLeft T K plan tk db q ω) := by
  unfold QuotaLeft
  split <;> infer_instance

instance (T K : String) (plan : Option String) (srv : OrderServer)
    (l : Label OrderRequest OrderEnv) : Decidable (Clear T K plan srv l) := by
  unfold Clear
  repeat' split
  all_goals infer_instance

/-- A checkout of one item on the free plan. -/
def freeCheckout (n : ℕ) : Checkout :=
  { user := .text "user", tenant := "tenant-a", now := 0, redis := true, correlationId := none
    payload :=
      { items := [⟨0, 1, 1, by decide, by decide⟩], idempotencyKey := "checkout-key-" ++ toString n
        items_nonempty := List.cons_ne_nil _ _
        key_length := by rw [String.length_append]; exact Nat.le_add_right_of_le (by decide) } }

/-- The next query of the transaction at place `i` is answered; Redis knows no plan. -/
def answered (i : ℕ) : Label OrderRequest OrderEnv := .move (.advance i ⟨[], none⟩)

/-- Two requests with one key overlap, and the second looks the key up when the first has
    committed. -/
def overlappingReplay : List (Label OrderRequest OrderEnv) :=
  [.start (.checkout (freeCheckout 0)), .start (.checkout (freeCheckout 0)), answered 0, answered 1,
    answered 0, answered 1, answered 0, .move (.finish 0), answered 0, .move (.finish 0)]

theorem empty_ledger : Ledger .empty := ⟨List.nodup_nil, fun _ => rfl⟩

theorem empty_undrawn (tid : ℕ) : Undrawn .empty tid :=
  ⟨fun _ h => absurd h List.not_mem_nil, fun _ h => absurd h List.not_mem_nil⟩

theorem checkout_idempotent_overlapping : ∃ srv,
    Reaches service.step (Clear "tenant-a" "checkout-key-0" none) (Server.init .empty ())
      overlappingReplay srv ∧ srv.log.length = 2 ∧
    ∀ e ∈ srv.log, Requests "tenant-a" "checkout-key-0" e.req → e.verdict ≠ .crashed → ∃ o s,
      Returned e o ∧ o.tenantId = "tenant-a" ∧
      srv.db.orders.rows.filter (fun x => decide (x.idempotencyKey = "checkout-key-0")) =
        [o.withStatus s] ∧
      creations srv.db.outbox.rows o.id = 1 := by
  obtain ⟨srv, hrun, hlog⟩ : ∃ srv,
      Reaches service.step (Clear "tenant-a" "checkout-key-0" none) (Server.init .empty ())
        overlappingReplay srv ∧ srv.log.length = 2 :=
    reaches_where (by decide +kernel) (by decide +kernel)
  exact ⟨srv, hrun, hlog, checkout_idempotent empty_ledger empty_undrawn hrun⟩

/-- Checkouts on the free plan one after the other. -/
def checkoutsInTurn (n : ℕ) : List (Label OrderRequest OrderEnv) :=
  (List.range n).flatMap fun n =>
    [.start (.checkout (freeCheckout n)), answered 0, answered 0, answered 0, .move (.finish 0)]

/-- Fifteen checkouts on the free plan, and the last of them again. -/
def replayAtQuota : List (Label OrderRequest OrderEnv) :=
  checkoutsInTurn 15 ++
    [.start (.checkout (freeCheckout 14)), answered 0, answered 0, .move (.finish 0)]

/-- The exception a request ended with. -/
def raised? (e : Entry OrderRequest Exc (Outcome OrderWrites)) : Option Exc :=
  match e.verdict with
  | .raised ex => some ex
  | _ => none

theorem raised_of_some {e : Entry OrderRequest Exc (Outcome OrderWrites)} {ex : Exc}
    (h : raised? e = some ex) : e.verdict = .raised ex := by
  unfold raised? at h
  split at h
  · next hv => rw [hv, Option.some.inj h]
  · cases h

/-- The order is there, and the replay of the request that used the quota up is refused. -/
theorem replay_refused : ∃ srv e,
    Reaches service.step anyStep (Server.init .empty ()) replayAtQuota srv ∧ e ∈ srv.log ∧
      Requests "tenant-a" "checkout-key-14" e.req ∧
      (∃ o ∈ srv.db.orders.rows, OrderOf "tenant-a" "checkout-key-14" o) ∧
      e.verdict = .raised (.validationException (quotaMessage "free")) ∧
      ¬ ∃ o, Returned e o := by
  obtain ⟨srv, hrun, hplaced, e, he, hreq, hraised⟩ : ∃ srv,
      Reaches service.step anyStep (Server.init .empty ()) replayAtQuota srv ∧
        (∃ o ∈ srv.db.orders.rows, OrderOf "tenant-a" "checkout-key-14" o) ∧
        ∃ e ∈ srv.log, Requests "tenant-a" "checkout-key-14" e.req ∧
          raised? e = some (.validationException (quotaMessage "free")) :=
    reaches_where (allSteps_of_forall (fun _ _ _ => trivial) _) (by decide +kernel)
  have hverdict := raised_of_some hraised
  refine ⟨srv, e, hrun, he, hreq, hplaced, hverdict, fun hreturned => ?_⟩
  obtain ⟨o, w, hcommitted, -⟩ := hreturned
  rw [hverdict] at hcommitted
  cases hcommitted

end CloudScale.OrderService
