/-
  Billing requests in flight together (`payment/app/router.py`).

  A request reads the subscription of its tenant, and commits later what it made of it. The flush
  writes the columns whose value differs from the one that was read and leaves the others as they
  are by then (`changed`), so a plan that was asked for while it was the current one is not written
  at all; a second row of a tenant violates its column. `alone_handle`: a request that nobody
  disturbs does what `BillingRequest.handle` says.

  `plans_run`: along every run the invoices are those of the committed requests, in the order of
  their commits, and every tier in the table was there at the start or was asked for by a committed
  request of its tenant.
-/
import CloudScale.Lib.Alone
import CloudScale.Lib.Endings
import CloudScale.PaymentService.Billing

namespace CloudScale.PaymentService.PlanChanges

open CloudScale.Lib CloudScale.Shared

/-! ## Queries and writes -/

inductive PlanQuery where
  | selectSubscription (tenantId : Json)

/-- The row, or the exception of the database. -/
abbrev PlanAnswer : PlanQuery → Type
  | .selectSubscription _ => Except BillingExc (Option Subscription)

abbrev PlanTxn (R : Type) := Txn PlanQuery PlanAnswer BillingExc R

def select (tenantId : Json) : PlanTxn (Option Subscription) := do
  match ← Txn.query (PlanQuery.selectSubscription tenantId) with
  | .ok found => return found
  | .error e => .raise e

inductive SubscriptionWrite where
  | insert (s : Subscription)
  | update (tenantId : String) (planTier status : Option String)

/-- What a session has to commit. -/
structure BillingWrite where
  subscription : Option SubscriptionWrite := none
  invoice : Option Invoice := none

/-- The value of a column that a flush writes: one that is not the one that was read. -/
def changed (read value : String) : Option String := if value = read then none else some value

/-- `sub.plan_tier = ..; sub.status = ..`. -/
def assign (sub : Subscription) (planTier status : String) : SubscriptionWrite :=
  .update sub.tenantId (changed sub.planTier planTier) (changed sub.status status)

/-! ## Endpoints -/

/-- `Subscription(tenant_id=.., plan_tier=.., status="active")`. -/
def newSubscription (tenant planTier : String) : SubscriptionWrite :=
  .insert { tenantId := tenant, planTier, status := "active" }

def getActiveSubscription (tenant : String) : PlanTxn BillingWrite := do
  match ← select (.str tenant) with
  | some _ => return {}
  | none => return { subscription := some (newSubscription tenant "free") }

/-- The subscription gets the plan, and is created if there is none. -/
def provision (tenant planTier : String) (invoice : Option Invoice) : PlanTxn BillingWrite := do
  match ← select (.str tenant) with
  | some sub => return { subscription := some (assign sub planTier "active"), invoice }
  | none => return { subscription := some (newSubscription tenant planTier), invoice }

/-- The invoice of a plan. -/
def planInvoice (tenant planTier : String) : Invoice :=
  { tenantId := tenant, amount := .finite (invoiceAmount planTier) }

def updateSubscription (tenant planTier : String) : PlanTxn BillingWrite :=
  if planTier ∈ ["free", "growth", "enterprise"] then
    provision tenant planTier (some (planInvoice tenant planTier))
  else .raise (.httpException 400 "Invalid plan tier specified")

/-- The part of the webhook that writes. -/
def applyEvent (e : StripeEvent) : PlanTxn BillingWrite :=
  match e.action with
  | .subscriptionCreated tier => match e.tenantId with
    | .str tenant => provision tenant tier none
    | _ => .raise .databaseError
  | .subscriptionUpdated tier cancel => do
    match ← select e.tenantId with
    | some sub =>
      return { subscription := some (assign sub tier (if cancel then "cancelled" else "active")) }
    | none => return {}
  | .paymentSucceeded amount currency => match e.tenantId with
    | .str tenant =>
      return { invoice := some { tenantId := tenant, amount, currency, status := "paid" } }
    | _ => .raise .databaseError
  | .paymentFailed => do
    match ← select e.tenantId with
    | some sub =>
      return { subscription := some (.update sub.tenantId none (changed sub.status "past_due")) }
    | none => return {}
  | .unhandled => return {}

def handleStripeWebhook (rt : StripeRuntime) (verified : Bool) (body : Body) :
    PlanTxn BillingWrite :=
  if verified then match body with
    | .undecodable => .raise .unicodeDecodeError
    | .invalid => .raise (.httpException 400 "Invalid JSON payload")
    | .json event => match readEvent rt event with
      | .ok e => applyEvent e
      | .error x => .raise x
  else .raise (.httpException 400 "Invalid webhook signature")

/-! ## The service -/

def program (rt : StripeRuntime) : BillingRequest → PlanTxn BillingWrite
  | .getActiveSubscription tenant => getActiveSubscription tenant
  | .updateSubscription tenant planTier => updateSubscription tenant planTier
  | .stripeWebhook verified body => handleStripeWebhook rt verified body

def PlanQuery.answer (db : BillingDb) : (q : PlanQuery) → PlanAnswer q
  | .selectSubscription tenantId => PaymentService.selectSubscription db tenantId

/-- The columns that are written. -/
def SubscriptionWrite.row (planTier status : Option String) (s : Subscription) : Subscription :=
  { s with planTier := planTier.getD s.planTier, status := status.getD s.status }

def SubscriptionWrite.flush : SubscriptionWrite → BillingDb → Option BillingDb
  | .insert s, db => (db.addSubscription s).toOption
  | .update tenantId planTier status, db => some { db with
      subscriptions := db.subscriptions.modify tenantId (SubscriptionWrite.row planTier status)
        fun _ => rfl }

def BillingWrite.flush (w : BillingWrite) (db : BillingDb) : Option BillingDb :=
  (match w.subscription with
    | some s => s.flush db
    | none => some db).bind fun db => match w.invoice with
      | some i => (db.addInvoice i).toOption
      | none => some db

def planService (rt : StripeRuntime) : Service BillingDb Unit BillingRequest Unit PlanQuery
    PlanAnswer BillingExc BillingWrite where
  prog _ := program rt
  answer _ _ db q := q.answer db
  effect _ x := x
  commit := BillingWrite.flush

abbrev PlanServer := Server BillingDb Unit BillingRequest PlanQuery PlanAnswer BillingExc
  BillingWrite

/-! ## What a request asks for -/

/-- The request asks for the tier on behalf of the tenant. -/
def AsksFor (rt : StripeRuntime) (tenant tier : String) : BillingRequest → Prop
  | .getActiveSubscription t => t = tenant ∧ tier = "free"
  | .updateSubscription t planTier => t = tenant ∧ tier = planTier
  | .stripeWebhook verified (.json event) => verified = true ∧ ∃ e, readEvent rt event = .ok e ∧
      e.tenantId = .str tenant ∧ (e.action = .subscriptionCreated tier ∨
        ∃ cancel, e.action = .subscriptionUpdated tier cancel)
  | .stripeWebhook _ _ => False

/-- The invoice of a signed event. -/
def eventBill : StripeEvent → Option Invoice
  | ⟨.str tenant, .paymentSucceeded amount currency⟩ =>
    some { tenantId := tenant, amount, currency, status := "paid" }
  | _ => none

/-- The invoice that a request makes. -/
def bill (rt : StripeRuntime) : BillingRequest → Option Invoice
  | .updateSubscription tenant planTier => some (planInvoice tenant planTier)
  | .stripeWebhook true (.json event) => match readEvent rt event with
    | .ok e => eventBill e
    | .error _ => none
  | _ => none

/-- The writes of a request: its invoice, and no tier that it does not ask for. -/
structure WriteOf (asksFor : String → String → Prop) (invoice : Option Invoice)
    (w : BillingWrite) : Prop where
  invoice : w.invoice = invoice
  insert : ∀ s, w.subscription = some (.insert s) → asksFor s.tenantId s.planTier
  update : ∀ tenantId planTier status, w.subscription = some (.update tenantId planTier status) →
    ∀ tier, planTier = some tier → asksFor tenantId tier

/-- A row is that of the tenant it was selected by. -/
def Selected : (q : PlanQuery) → PlanAnswer q → Prop
  | .selectSubscription tenantId, answer => ∀ sub, answer = .ok (some sub) →
    tenantId = .str sub.tenantId

theorem selected_answer (db : BillingDb) (q : PlanQuery) : Selected q (q.answer db) := by
  cases q with
  | selectSubscription tenantId =>
    intro sub h
    cases tenantId with
    | str tenant =>
      have h : db.selectTenant tenant = .ok (some sub) := h
      cases hnul : hasNul tenant with
      | true =>
        rw [selectTenant_of_nul hnul] at h
        cases h
      | false =>
        rw [selectTenant_of_text hnul] at h
        rw [Table.get_key (Except.ok.inj h)]
    | _ => cases h

/-! ## Programs -/

theorem writeOf_none {asksFor : String → String → Prop} {invoice : Option Invoice} :
    WriteOf asksFor invoice { invoice } where
  invoice := rfl
  insert _ h := by cases h
  update _ _ _ h := by cases h

theorem writeOf_insert {asksFor : String → String → Prop} {invoice : Option Invoice}
    {s : Subscription} (h : asksFor s.tenantId s.planTier) :
    WriteOf asksFor invoice { subscription := some (.insert s), invoice } where
  invoice := rfl
  insert _ hs := by
    obtain rfl := SubscriptionWrite.insert.inj (Option.some.inj hs)
    exact h
  update _ _ _ hu := by cases hu

theorem writeOf_update {asksFor : String → String → Prop} {invoice : Option Invoice}
    {tenantId : String} {planTier status : Option String}
    (h : ∀ tier, planTier = some tier → asksFor tenantId tier) :
    WriteOf asksFor invoice
      { subscription := some (.update tenantId planTier status), invoice } where
  invoice := rfl
  insert _ hs := by cases hs
  update _ _ _ hu := by
    obtain ⟨rfl, rfl, rfl⟩ := SubscriptionWrite.update.inj (Option.some.inj hu)
    exact h

theorem eq_of_changed {read value tier : String} (h : changed read value = some tier) :
    tier = value := by
  obtain ⟨-, h⟩ := Option.ite_none_left_eq_some.mp h
  exact (Option.some.inj h).symm

theorem ends_provision {asksFor : String → String → Prop} {tenant planTier : String}
    (hasks : asksFor tenant planTier) (invoice : Option Invoice) :
    Ends Selected (WriteOf asksFor invoice) (fun _ => True)
      (provision tenant planTier invoice) := by
  intro answer hselected
  cases answer with
  | error e => trivial
  | ok found =>
    cases found with
    | none => exact writeOf_insert hasks
    | some sub =>
      obtain rfl := JsonTree.str.inj (hselected sub rfl)
      refine writeOf_update fun tier htier => ?_
      obtain rfl := eq_of_changed htier
      exact hasks

theorem ends_applyEvent {asksFor : String → String → Prop} (e : StripeEvent)
    (hasks : ∀ tenant tier, e.tenantId = .str tenant → (e.action = .subscriptionCreated tier ∨
      ∃ cancel, e.action = .subscriptionUpdated tier cancel) → asksFor tenant tier) :
    Ends Selected (WriteOf asksFor (eventBill e)) (fun _ => True) (applyEvent e) := by
  obtain ⟨tenantId, action⟩ := e
  cases action with
  | subscriptionCreated tier =>
    cases tenantId with
    | str tenant => exact ends_provision (hasks tenant tier rfl (.inl rfl)) none
    | _ => trivial
  | subscriptionUpdated tier cancel =>
    intro answer hselected
    cases answer with
    | error e => trivial
    | ok found =>
      cases found with
      | none =>
        cases tenantId <;> exact writeOf_none
      | some sub =>
        obtain rfl := hselected sub rfl
        refine writeOf_update fun tier' htier => ?_
        obtain rfl := eq_of_changed htier
        exact hasks sub.tenantId tier' rfl (.inr ⟨cancel, rfl⟩)
  | paymentSucceeded amount currency =>
    cases tenantId with
    | str tenant => exact writeOf_none
    | _ => trivial
  | paymentFailed =>
    intro answer hselected
    cases answer with
    | error e => trivial
    | ok found =>
      cases found with
      | none => cases tenantId <;> exact writeOf_none
      | some sub =>
        obtain rfl := hselected sub rfl
        exact writeOf_update fun _ h => by cases h
  | unhandled => cases tenantId <;> exact writeOf_none

theorem ends_program (rt : StripeRuntime) (r : BillingRequest) :
    Ends Selected (WriteOf (fun tenant tier => AsksFor rt tenant tier r) (bill rt r))
      (fun _ => True) (program rt r) := by
  cases r with
  | getActiveSubscription tenant =>
    intro answer _
    cases answer with
    | error e => trivial
    | ok found =>
      cases found with
      | none => exact writeOf_insert ⟨rfl, rfl⟩
      | some sub => exact writeOf_none
  | updateSubscription tenant planTier =>
    unfold program updateSubscription
    dsimp only
    split
    · exact ends_provision ⟨rfl, rfl⟩ _
    · trivial
  | stripeWebhook verified body =>
    cases verified with
    | false => trivial
    | true =>
      cases body with
      | undecodable => trivial
      | invalid => trivial
      | json event =>
        show Ends Selected _ _ (match readEvent rt event with
          | .ok e => applyEvent e
          | .error x => .raise x)
        cases hread : readEvent rt event with
        | error x => trivial
        | ok e =>
          have hbill : bill rt (.stripeWebhook true (.json event)) = eventBill e := by
            simp only [bill, hread]
          rw [hbill]
          exact ends_applyEvent e fun tenant tier htenant haction =>
            ⟨rfl, e, hread, htenant, haction⟩

/-! ## Commits -/

variable {db db' : BillingDb}

theorem invoices_insert {s : Subscription} (h : (SubscriptionWrite.insert s).flush db = some db') :
    db'.invoices = db.invoices ∧ db'.subscriptions.rows = db.subscriptions.rows ++ [s] := by
  have h : (db.addSubscription s).toOption = some db' := h
  unfold BillingDb.addSubscription at h
  split at h
  · cases hext : db.subscriptions.extend [s] with
    | none =>
      rw [hext] at h
      cases h
    | some subscriptions =>
      rw [hext] at h
      obtain rfl := Option.some.inj h
      exact ⟨rfl, Table.rows_extend hext⟩
  · cases h

/-- The row was there with this tier, or it is written with it. -/
def TierFrom (db : BillingDb) (w : SubscriptionWrite) (sub : Subscription) : Prop :=
  (∃ old ∈ db.subscriptions.rows, old.tenantId = sub.tenantId ∧ old.planTier = sub.planTier) ∨
    w = .insert sub ∨ ∃ status, w = .update sub.tenantId (some sub.planTier) status

theorem flush_subscription {w : SubscriptionWrite} (h : w.flush db = some db') :
    db'.invoices = db.invoices ∧ ∀ sub ∈ db'.subscriptions.rows, TierFrom db w sub := by
  cases w with
  | insert s =>
    obtain ⟨hinvoices, hrows⟩ := invoices_insert h
    refine ⟨hinvoices, fun sub hmem => ?_⟩
    rw [hrows] at hmem
    rcases List.mem_append.mp hmem with hmem | hmem
    · exact .inl ⟨sub, hmem, rfl, rfl⟩
    · exact .inr (.inl (congrArg _ (List.mem_singleton.mp hmem).symm))
  | update tenantId planTier status =>
    obtain rfl := Option.some.inj h
    refine ⟨rfl, fun sub hmem => ?_⟩
    obtain ⟨old, hold, rfl⟩ := List.mem_map.mp hmem
    split
    · next hkey =>
      cases planTier with
      | none => exact .inl ⟨old, hold, rfl, rfl⟩
      | some tier => exact .inr (.inr ⟨status, by rw [← hkey]; rfl⟩)
    · exact .inl ⟨old, hold, rfl, rfl⟩

theorem flush_cases {w : BillingWrite} (h : w.flush db = some db') :
    db'.invoices = db.invoices ++ w.invoice.toList ∧ ∀ sub ∈ db'.subscriptions.rows,
      (∃ old ∈ db.subscriptions.rows,
        old.tenantId = sub.tenantId ∧ old.planTier = sub.planTier) ∨
        ∃ s, w.subscription = some s ∧ TierFrom db s sub := by
  obtain ⟨subscription, invoice⟩ := w
  unfold BillingWrite.flush at h
  obtain ⟨mid, hmid, hlast⟩ := Option.bind_eq_some_iff.mp h
  have hinvoice : db'.invoices = mid.invoices ++ invoice.toList ∧
      db'.subscriptions = mid.subscriptions := by
    cases invoice with
    | none =>
      obtain rfl := Option.some.inj hlast
      exact ⟨(List.append_nil _).symm, rfl⟩
    | some i =>
      dsimp only at hlast
      unfold BillingDb.addInvoice at hlast
      split at hlast
      · obtain rfl := Option.some.inj hlast
        exact ⟨rfl, rfl⟩
      · cases hlast
  rw [hinvoice.1, hinvoice.2]
  cases subscription with
  | none =>
    obtain rfl := Option.some.inj hmid
    exact ⟨rfl, fun sub hmem => .inl ⟨sub, hmem, rfl, rfl⟩⟩
  | some s =>
    obtain ⟨hinvoices, htiers⟩ := flush_subscription hmid
    exact ⟨by rw [hinvoices], fun sub hmem => .inr ⟨s, rfl, htiers sub hmem⟩⟩

/-! ## A request that nobody disturbs -/

theorem modify_congr {subscriptions : Subscriptions} {tenant : String}
    {f g : Subscription → Subscription} (hf : ∀ r, (f r).tenantId = r.tenantId)
    (hg : ∀ r, (g r).tenantId = r.tenantId)
    (h : ∀ sub, subscriptions.get tenant = some sub → f sub = g sub) :
    subscriptions.modify tenant f hf = subscriptions.modify tenant g hg := by
  have hrows : (subscriptions.rows.map fun r => if r.tenantId = tenant then f r else r) =
      subscriptions.rows.map fun r => if r.tenantId = tenant then g r else r := by
    refine List.map_congr_left fun r hr => ?_
    split
    · next hkey => exact h r (Table.get_eq_some_iff.mpr ⟨hr, hkey⟩)
    · rfl
  simp only [Table.modify, hrows]

theorem getD_changed (read value : String) : (changed read value).getD read = value := by
  unfold changed
  split
  · next h => exact h.symm
  · rfl

/-- The columns that differ are as good as both. -/
theorem flush_assign {sub : Subscription} {tenant : String}
    (hsub : db.subscriptions.get tenant = some sub) (planTier status : String) :
    (assign sub planTier status).flush db = some (db.setPlan tenant planTier status) := by
  obtain rfl := Table.get_key hsub
  refine congrArg some (congrArg (BillingDb.mk · db.invoices) (modify_congr _ _ fun r hr => ?_))
  obtain rfl := Option.some.inj (hsub.symm.trans hr)
  simp only [SubscriptionWrite.row, getD_changed, Subscription.withPlan]

theorem flush_provision {tenant planTier : String} {found : Option Subscription}
    (hnul : hasNul tenant = false) (hfound : db.subscriptions.get tenant = found) :
    (match found with
      | some sub => assign sub planTier "active"
      | none => newSubscription tenant planTier).flush db =
        (db.provision tenant planTier).toOption := by
  rw [provision_of_text hnul, hfound]
  cases found with
  | some sub => exact flush_assign hfound planTier "active"
  | none => rfl

theorem flush_pastDue {sub : Subscription} {tenant : String}
    (hsub : db.subscriptions.get tenant = some sub) :
    (SubscriptionWrite.update sub.tenantId none (changed sub.status "past_due")).flush db =
      some (db.setStatus tenant "past_due") := by
  obtain rfl := Table.get_key hsub
  refine congrArg some (congrArg (BillingDb.mk · db.invoices) (modify_congr _ _ fun r hr => ?_))
  obtain rfl := Option.some.inj (hsub.symm.trans hr)
  simp only [SubscriptionWrite.row, getD_changed, Subscription.withStatus, Option.getD_none]

/-- What a session leaves that runs alone. -/
def runAlone (db : BillingDb) (p : PlanTxn BillingWrite) : Option BillingDb :=
  match (p.exec (fun _ q => q.answer db) (fun _ x => x) ()).1 with
  | .ok w => w.flush db
  | .error _ => none

/-- A session that begins with a query. -/
theorem runAlone_select (tenantId : Json) (next : Option Subscription → PlanTxn BillingWrite) :
    runAlone db (select tenantId >>= next) =
      match PaymentService.selectSubscription db tenantId with
      | .ok found => runAlone db (next found)
      | .error _ => none := by
  simp only [runAlone, select, Txn.query, PlanQuery.answer, Txn.ask_bind, Txn.done_bind, exec_ask]
  cases PaymentService.selectSubscription db tenantId with
  | error e => rfl
  | ok found => simp only [Txn.pure_eq, Txn.done_bind]

theorem runAlone_provision (tenant planTier : String) (invoice : Option Invoice) :
    runAlone db (provision tenant planTier invoice) =
      (db.provision tenant planTier).toOption.bind fun db => match invoice with
        | some i => (db.addInvoice i).toOption
        | none => some db := by
  unfold provision
  rw [runAlone_select]
  show (match db.selectTenant tenant with
    | .ok found => runAlone db _
    | .error _ => none) = _
  cases hnul : hasNul tenant with
  | true =>
    rw [selectTenant_of_nul hnul, provision_of_nul hnul]
    rfl
  | false =>
    rw [selectTenant_of_text hnul]
    cases hfound : db.subscriptions.get tenant with
    | some sub =>
      rw [← flush_provision hnul hfound]
      rfl
    | none =>
      rw [← flush_provision hnul hfound]
      rfl

theorem runAlone_applyEvent (e : StripeEvent) :
    runAlone db (applyEvent e) = (PaymentService.applyEvent e db).toOption := by
  obtain ⟨tenantId, action⟩ := e
  cases action with
  | subscriptionCreated tier =>
    cases tenantId with
    | str tenant =>
      refine (runAlone_provision tenant tier none).trans ?_
      show _ = (db.provision tenant tier).toOption
      cases db.provision tenant tier <;> rfl
    | _ => rfl
  | subscriptionUpdated tier cancel =>
    refine (runAlone_select tenantId _).trans ?_
    cases tenantId with
    | str tenant =>
      show (match db.selectTenant tenant with
        | .ok found => runAlone db _
        | .error _ => none) = _
      cases hnul : hasNul tenant with
      | true =>
        rw [selectTenant_of_nul hnul,
          applyEvent_of_nul (.subscriptionUpdated tier cancel) nofun hnul]
        rfl
      | false =>
        rw [selectTenant_of_text hnul, applyEvent_updated cancel hnul]
        cases hfound : db.subscriptions.get tenant with
        | none => rfl
        | some sub =>
          obtain rfl := Table.get_key hfound
          exact flush_assign hfound tier (if cancel then "cancelled" else "active")
    | _ => rfl
  | paymentSucceeded amount currency =>
    cases tenantId with
    | str tenant => rfl
    | _ => rfl
  | paymentFailed =>
    refine (runAlone_select tenantId _).trans ?_
    cases tenantId with
    | str tenant =>
      show (match db.selectTenant tenant with
        | .ok found => runAlone db _
        | .error _ => none) = _
      cases hnul : hasNul tenant with
      | true =>
        rw [selectTenant_of_nul hnul, applyEvent_of_nul .paymentFailed nofun hnul]
        rfl
      | false =>
        rw [selectTenant_of_text hnul, applyEvent_failed hnul]
        cases hfound : db.subscriptions.get tenant with
        | none => rfl
        | some sub =>
          obtain rfl := Table.get_key hfound
          exact flush_pastDue hfound
    | _ => rfl
  | unhandled => rfl

theorem runAlone_program (rt : StripeRuntime) (r : BillingRequest) :
    runAlone db (program rt r) = (r.handle rt db).toOption := by
  cases r with
  | getActiveSubscription tenant =>
    refine (runAlone_select (.str tenant) _).trans ?_
    show (match db.selectTenant tenant with
      | .ok found => runAlone db _
      | .error _ => none) = ((PaymentService.getActiveSubscription tenant db).map (·.2)).toOption
    unfold PaymentService.getActiveSubscription
    cases db.selectTenant tenant with
    | error e => rfl
    | ok found =>
      cases found with
      | some sub => rfl
      | none =>
        show (db.addSubscription _).toOption.bind some =
          (Except.map Prod.snd (db.addSubscription _ >>= _)).toOption
        cases db.addSubscription { tenantId := tenant, planTier := "free", status := "active" } <;>
          rfl
  | updateSubscription tenant planTier =>
    simp only [program, updateSubscription, BillingRequest.handle,
      PaymentService.updateSubscription]
    split
    · rw [runAlone_provision]
      cases db.provision tenant planTier with
      | error e => rfl
      | ok mid =>
        show (mid.addInvoice (planInvoice tenant planTier)).toOption =
          (Except.map (·.2) (mid.addInvoice (planInvoice tenant planTier) >>= fun db =>
            (return (planTier, db) : Except BillingExc (String × BillingDb)))).toOption
        cases mid.addInvoice (planInvoice tenant planTier) <;> rfl
    · rfl
  | stripeWebhook verified body =>
    cases verified with
    | false => rfl
    | true =>
      cases body with
      | undecodable => rfl
      | invalid => rfl
      | json event =>
        show runAlone db (match readEvent rt event with
          | .ok e => applyEvent e
          | .error x => .raise x) = (readEvent rt event >>= fun e =>
            PaymentService.applyEvent e db).toOption
        cases readEvent rt event with
        | error x => rfl
        | ok e => exact runAlone_applyEvent e

/-- A request that nobody disturbs does what `BillingRequest.handle` says. -/
theorem alone_handle (rt : StripeRuntime) (tid : ℕ) (r : BillingRequest) (db : BillingDb) :
    ((planService rt).alone () tid r () db).2.1 = db.after (r.handle rt db) := by
  have hafter : ∀ o : Except BillingExc BillingDb, db.after o = o.toOption.getD db := fun o => by
    cases o <;> rfl
  rw [hafter, ← runAlone_program]
  unfold Service.alone runAlone
  dsimp only [planService]
  cases (program rt r).exec (fun _ q => q.answer db) (fun _ x => x) () with
  | mk result x =>
    cases result with
    | ok w => exact settle_snd w db (w.flush db)
    | error e => rfl

/-! ## Runs -/

/-- What the requests in flight can still write, and what the committed ones have left. -/
structure PlanRun (rt : StripeRuntime) (start : BillingDb) (srv : PlanServer) : Prop where
  ends : srv.AllEnd (fun _ => True) (fun _ => Selected)
    (fun r w => WriteOf (fun tenant tier => AsksFor rt tenant tier r) (bill rt r) w)
    (fun _ _ => True)
  invoices : srv.db.invoices =
    start.invoices ++ srv.committed.reverse.filterMap fun rw => bill rt rw.1
  tiers : ∀ sub ∈ srv.db.subscriptions.rows,
    (∃ old ∈ start.subscriptions.rows,
      old.tenantId = sub.tenantId ∧ old.planTier = sub.planTier) ∨
    ∃ rw ∈ srv.committed, AsksFor rt sub.tenantId sub.planTier rw.1

theorem planRun_commit {rt : StripeRuntime} {start : BillingDb} {srv : PlanServer}
    {a : Active BillingDb BillingRequest PlanQuery PlanAnswer BillingExc BillingWrite}
    {w : BillingWrite} (h : PlanRun rt start srv)
    (hw : WriteOf (fun tenant tier => AsksFor rt tenant tier a.req) (bill rt a.req) w)
    (hflush : w.flush srv.db = some db) :
    db.invoices = start.invoices ++
        ((a.req, w) :: srv.committed).reverse.filterMap (fun rw => bill rt rw.1) ∧
      ∀ sub ∈ db.subscriptions.rows,
        (∃ old ∈ start.subscriptions.rows,
          old.tenantId = sub.tenantId ∧ old.planTier = sub.planTier) ∨
        ∃ rw ∈ (a.req, w) :: srv.committed, AsksFor rt sub.tenantId sub.planTier rw.1 := by
  obtain ⟨hinvoices, htiers⟩ := flush_cases hflush
  constructor
  · rw [hinvoices, h.invoices, List.reverse_cons, List.filterMap_append, hw.invoice,
      List.append_assoc, List.filterMap_cons, List.filterMap_nil]
    cases bill rt a.req <;> rfl
  · intro sub hmem
    have hthere : ∀ old ∈ srv.db.subscriptions.rows, old.tenantId = sub.tenantId →
        old.planTier = sub.planTier → _ := fun old hold htenant htier => by
      have hfrom := h.tiers old hold
      rw [htenant, htier] at hfrom
      exact hfrom.imp_right fun ⟨rw, hrw, hasks⟩ =>
        (⟨rw, List.mem_cons_of_mem _ hrw, hasks⟩ :
          ∃ rw ∈ (a.req, w) :: srv.committed, AsksFor rt sub.tenantId sub.planTier rw.1)
    rcases htiers sub hmem with ⟨old, hold, htenant, htier⟩ | ⟨s, hs, hfrom⟩
    · exact hthere old hold htenant htier
    · rcases hfrom with ⟨old, hold, htenant, htier⟩ | rfl | ⟨status, rfl⟩
      · exact hthere old hold htenant htier
      · exact .inr ⟨_, List.mem_cons_self, hw.insert sub hs⟩
      · exact .inr ⟨_, List.mem_cons_self, hw.update _ _ _ hs _ rfl⟩

theorem plans_run (rt : StripeRuntime) {start : BillingDb} {ls : List (Label BillingRequest Unit)}
    {srv : PlanServer}
    (h : Reaches (planService rt).step anyStep (Server.init start ()) ls srv) :
    srv.db.invoices =
        start.invoices ++ srv.committed.reverse.filterMap (fun rw => bill rt rw.1) ∧
      ∀ sub ∈ srv.db.subscriptions.rows,
        (∃ old ∈ start.subscriptions.rows,
          old.tenantId = sub.tenantId ∧ old.planTier = sub.planTier) ∨
        ∃ rw ∈ srv.committed, AsksFor rt sub.tenantId sub.planTier rw.1 := by
  have hrun : PlanRun rt start srv := by
    refine h.invariant (PlanRun rt start) ⟨allEnd_init start (), ?_, ?_⟩ ?_
    · exact (List.append_nil _).symm
    · exact fun sub hmem => .inl ⟨sub, hmem, rfl, rfl⟩
    · intro s l s' hs _ hstep
      cases l with
      | start r =>
        obtain rfl := Option.some.inj hstep
        exact ⟨allEnd_start hs.ends fun _ => ends_program rt r, hs.invoices, hs.tiers⟩
      | move m =>
        have hends := allEnd_move hs.ends hstep (by
          cases m with
          | advance i ω => exact fun a _ q _ _ _ => selected_answer s.db q
          | finish i => trivial
          | crash i => trivial)
        obtain ⟨i, a, ha, ⟨ω, q, k, -, -, rfl⟩ | ⟨w, db, -, hp, hc, rfl⟩ | ⟨v, hv, rfl⟩⟩ :=
          Service.move_cases hstep
        · exact ⟨hends, hs.invoices, hs.tiers⟩
        · have hw := allEnd_done hs.ends (List.mem_of_getElem? ha) trivial hp
          obtain ⟨hinvoices, htiers⟩ := planRun_commit hs hw hc
          exact ⟨hends, hinvoices, htiers⟩
        · refine ⟨hends, ?_, ?_⟩
          · rw [Server.close_uncommitted hv]
            exact hs.invoices
          · rw [Server.close_uncommitted hv]
            exact hs.tiers
  exact ⟨hrun.invoices, hrun.tiers⟩

/-- Two sessions of a new tenant overlap: both insert, and the one that commits last is rolled
    back. -/
def overlapping : List (Label BillingRequest Unit) :=
  [.start (.updateSubscription "t" "growth"), .start (.updateSubscription "t" "enterprise"),
    .move (.advance 0 ()), .move (.advance 1 ()), .move (.finish 1), .move (.finish 0)]

def noParsing : StripeRuntime := ⟨fun _ => none, id⟩

theorem plans_run_overlapping : ∃ srv,
    Reaches (planService noParsing).step anyStep (Server.init .empty ()) overlapping srv ∧
    (tierIn srv.db "t" = some "enterprise" ∧ srv.db.invoices.length = 1) ∧
    srv.db.invoices =
      [] ++ srv.committed.reverse.filterMap (fun rw => bill noParsing rw.1) ∧
    ∀ sub ∈ srv.db.subscriptions.rows,
      (∃ old ∈ BillingDb.empty.subscriptions.rows,
        old.tenantId = sub.tenantId ∧ old.planTier = sub.planTier) ∨
      ∃ rw ∈ srv.committed, AsksFor noParsing sub.tenantId sub.planTier rw.1 := by
  obtain ⟨srv, hrun, hend⟩ : ∃ srv,
      Reaches (planService noParsing).step anyStep (Server.init .empty ()) overlapping srv ∧
      tierIn srv.db "t" = some "enterprise" ∧ srv.db.invoices.length = 1 :=
    reaches_where (allSteps_of_forall (fun _ _ _ => trivial) _) (by decide +kernel)
  exact ⟨srv, hrun, hend, plans_run noParsing hrun⟩

end CloudScale.PaymentService.PlanChanges
