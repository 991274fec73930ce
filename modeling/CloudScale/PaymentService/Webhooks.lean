/-
  Stripe delivers an event more than once (`handle_stripe_webhook` in `payment/app/router.py`).

  No branch records the id of the event. `applyEvent_again`: the branches that write a subscription
  find, when the event comes again, what they wrote the first time. The branch of a successful
  payment adds an invoice every time (`delivered_invoices`). So `webhook_idempotent_iff`: deliveries
  of an event leave the rows of a single one exactly if it does not record an invoice. `paid_twice`
  is a payment that is invoiced twice.
-/
import CloudScale.PaymentService.Billing
import Mathlib.Logic.Function.Iterate

namespace CloudScale.PaymentService

open CloudScale.Lib CloudScale.Shared

/-! ## Deliveries -/

/-- The database after `n` deliveries of the signed event in a row. -/
def BillingDb.delivered (rt : StripeRuntime) (event : Json) (n : ℕ) (db : BillingDb) : BillingDb :=
  (fun db => db.after (handleStripeWebhook rt true (.json event) db))^[n] db

/-- The tables have the same rows. -/
def SameRows (db db' : BillingDb) : Prop :=
  db.subscriptions.rows.Perm db'.subscriptions.rows ∧ db.invoices.Perm db'.invoices

theorem sameRows_refl (db : BillingDb) : SameRows db db := ⟨.refl _, .refl _⟩

/-- The invoice of a successful payment. -/
def StripeEvent.invoice : StripeEvent → Option Invoice
  | ⟨.str tenant, .paymentSucceeded amount currency⟩ =>
    some { tenantId := tenant, amount, currency, status := "paid" }
  | _ => none

/-- The event is a successful payment whose invoice fits the columns. -/
def RecordsInvoice (rt : StripeRuntime) (event : Json) : Prop :=
  ∃ e i, readEvent rt event = .ok e ∧ e.invoice = some i ∧ i.storable = true

/-! ## Subscriptions -/

section Subscriptions

variable {db db' : BillingDb} {tenant planTier status : String}

/-- A plan that a subscription has is not set again. -/
theorem setPlan_self (h : ∀ sub, db.subscriptions.get tenant = some sub →
    sub.planTier = planTier ∧ sub.status = status) : db.setPlan tenant planTier status = db := by
  have hsame : db.subscriptions.modify tenant (.withPlan planTier status) (tenantId_withPlan _ _) =
      db.subscriptions := by
    refine Table.modify_eq_self fun sub hsub => ?_
    obtain ⟨rfl, rfl⟩ := h sub hsub
    rfl
  unfold BillingDb.setPlan
  rw [hsame]

theorem get_setPlan : (db.setPlan tenant planTier status).subscriptions.get tenant =
    (db.subscriptions.get tenant).map (.withPlan planTier status) := by
  unfold BillingDb.setPlan
  rw [Table.get_modify, if_pos rfl]

theorem get_setStatus : (db.setStatus tenant status).subscriptions.get tenant =
    (db.subscriptions.get tenant).map (.withStatus status) := by
  unfold BillingDb.setStatus
  rw [Table.get_modify, if_pos rfl]

theorem setPlan_again (db : BillingDb) (tenant planTier status : String) :
    (db.setPlan tenant planTier status).setPlan tenant planTier status =
      db.setPlan tenant planTier status := by
  refine setPlan_self fun sub hsub => ?_
  rw [get_setPlan] at hsub
  obtain ⟨old, -, rfl⟩ := Option.map_eq_some_iff.mp hsub
  exact ⟨rfl, rfl⟩

theorem setStatus_again (db : BillingDb) (tenant status : String) :
    (db.setStatus tenant status).setStatus tenant status = db.setStatus tenant status := by
  have hsame : (db.setStatus tenant status).subscriptions.modify tenant (.withStatus status)
      (tenantId_withStatus _) = (db.setStatus tenant status).subscriptions := by
    refine Table.modify_eq_self fun sub hsub => ?_
    rw [get_setStatus] at hsub
    obtain ⟨old, -, rfl⟩ := Option.map_eq_some_iff.mp hsub
    rfl
  unfold BillingDb.setStatus at hsame ⊢
  rw [hsame]

/-- A statement about a tenant that succeeded was about a text that the database can compare. -/
theorem hasNul_of_provision (h : db.provision tenant planTier = .ok db') :
    hasNul tenant = false := by
  cases hnul : hasNul tenant with
  | false => rfl
  | true =>
    rw [provision_of_nul hnul] at h
    cases h

theorem provision_eq_ok (h : db.provision tenant planTier = .ok db') :
    ∃ sub, db'.subscriptions.get tenant = some sub ∧ sub.planTier = planTier ∧
      sub.status = "active" := by
  rw [provision_of_text (hasNul_of_provision h)] at h
  cases hget : db.subscriptions.get tenant with
  | some sub =>
    rw [hget] at h
    obtain rfl := Except.ok.inj h
    exact ⟨sub.withPlan planTier "active", by rw [get_setPlan, hget]; rfl, rfl, rfl⟩
  | none =>
    rw [hget] at h
    dsimp only at h
    unfold BillingDb.addSubscription at h
    split at h
    · split at h
      · next subscriptions hext =>
        obtain rfl := Except.ok.inj h
        refine ⟨{ tenantId := tenant, planTier, status := "active" }, ?_, rfl, rfl⟩
        show subscriptions.get tenant = _
        rw [Table.get_extend hext, hget]
        simp
      · cases h
    · cases h

theorem provision_again (h : db.provision tenant planTier = .ok db') :
    db'.provision tenant planTier = .ok db' := by
  obtain ⟨sub, hget, htier, hstatus⟩ := provision_eq_ok h
  rw [provision_of_text (hasNul_of_provision h), hget]
  refine congrArg Except.ok (setPlan_self fun sub' hsub' => ?_)
  obtain rfl := Option.some.inj (hget.symm.trans hsub')
  exact ⟨htier, hstatus⟩

/-- What an event needs that succeeded and named a tenant. -/
theorem hasNul_of_applyEvent {action : StripeAction}
    (h : applyEvent ⟨.str tenant, action⟩ db = .ok db') (haction : action ≠ .unhandled) :
    hasNul tenant = false := by
  cases hnul : hasNul tenant with
  | false => rfl
  | true =>
    rw [applyEvent_of_nul action haction hnul] at h
    cases h

/-- An event without an invoice writes nothing when it comes again. -/
theorem applyEvent_again {e : StripeEvent} (hinvoice : e.invoice = none)
    (h : applyEvent e db = .ok db') : applyEvent e db' = .ok db' := by
  obtain ⟨tenantId, action⟩ := e
  cases action with
  | subscriptionCreated planTier =>
    cases tenantId with
    | str tenant => exact provision_again h
    | _ => cases h
  | subscriptionUpdated planTier cancel =>
    cases tenantId with
    | str tenant =>
      have hnul := hasNul_of_applyEvent h nofun
      rw [applyEvent_updated cancel hnul] at h ⊢
      cases hget : db.subscriptions.get tenant with
      | none =>
        rw [hget] at h
        obtain rfl := Except.ok.inj h
        rw [hget]
      | some sub =>
        rw [hget] at h
        obtain rfl := Except.ok.inj h
        obtain rfl : sub.tenantId = tenant := Table.get_key hget
        rw [get_setPlan, hget]
        exact congrArg Except.ok (setPlan_again _ _ _ _)
    | null =>
      cases h
      rfl
    | _ => cases h
  | paymentSucceeded amount currency =>
    cases tenantId with
    | str tenant => cases hinvoice
    | _ => cases h
  | paymentFailed =>
    cases tenantId with
    | str tenant =>
      have hnul := hasNul_of_applyEvent h nofun
      rw [applyEvent_failed hnul] at h ⊢
      cases hget : db.subscriptions.get tenant with
      | none =>
        rw [hget] at h
        obtain rfl := Except.ok.inj h
        rw [hget]
      | some sub =>
        rw [hget] at h
        obtain rfl := Except.ok.inj h
        obtain rfl : sub.tenantId = tenant := Table.get_key hget
        rw [get_setStatus, hget]
        exact congrArg Except.ok (setStatus_again _ _ _)
    | null =>
      cases h
      rfl
    | _ => cases h
  | unhandled =>
    cases h
    rfl

end Subscriptions

/-! ## Repeated deliveries -/

section Deliveries

variable {rt : StripeRuntime} {event : Json} {db : BillingDb}

theorem delivered_one (rt : StripeRuntime) (event : Json) (db : BillingDb) :
    db.delivered rt event 1 = db.after (handleStripeWebhook rt true (.json event) db) := rfl

theorem delivered_succ (rt : StripeRuntime) (event : Json) (n : ℕ) (db : BillingDb) :
    db.delivered rt event (n + 1) =
      (db.delivered rt event n).after
        (handleStripeWebhook rt true (.json event) (db.delivered rt event n)) :=
  Function.iterate_succ_apply' _ _ _

/-- What the handler makes of an event that it can read. -/
theorem handle_of_read {e : StripeEvent} (h : readEvent rt event = .ok e) (db : BillingDb) :
    handleStripeWebhook rt true (.json event) db = applyEvent e db := by
  show (readEvent rt event).bind (fun e => applyEvent e db) = _
  rw [h]
  rfl

theorem applyEvent_invoice {e : StripeEvent} {i : Invoice} (h : e.invoice = some i) :
    applyEvent e db = db.addInvoice i := by
  obtain ⟨tenantId, action⟩ := e
  cases action with
  | paymentSucceeded amount currency =>
    cases tenantId with
    | str tenant =>
      obtain rfl := Option.some.inj h
      rfl
    | _ => cases h
  | _ => cases tenantId <;> cases h

/-- An event that records no invoice writes nothing when it comes again. -/
theorem handle_again (hnone : ¬ RecordsInvoice rt event) {db' : BillingDb}
    (h : handleStripeWebhook rt true (.json event) db = .ok db') :
    handleStripeWebhook rt true (.json event) db' = .ok db' := by
  cases hread : readEvent rt event with
  | error e =>
    have hfail : handleStripeWebhook rt true (.json event) db = .error e := by
      show (readEvent rt event).bind (fun e => applyEvent e db) = _
      rw [hread]
      rfl
    rw [hfail] at h
    cases h
  | ok e =>
    rw [handle_of_read hread] at h ⊢
    cases hinvoice : e.invoice with
    | none => exact applyEvent_again hinvoice h
    | some i =>
      have hunfit : ¬ i.storable = true := fun hfits => hnone ⟨e, i, hread, hinvoice, hfits⟩
      rw [applyEvent_invoice hinvoice, BillingDb.addInvoice, if_neg hunfit] at h
      cases h

/-- An event that leaves the database as it was when it comes again. -/
theorem delivered_of_again (h : ∀ db', handleStripeWebhook rt true (.json event) db = .ok db' →
    handleStripeWebhook rt true (.json event) db' = .ok db') (n : ℕ) :
    db.delivered rt event (n + 1) = db.delivered rt event 1 := by
  induction n with
  | zero => rfl
  | succ n ih =>
    rw [delivered_succ, ih, delivered_one]
    cases hfirst : handleStripeWebhook rt true (.json event) db with
    | error e =>
      show db.after (handleStripeWebhook rt true (.json event) db) = db
      rw [hfirst]
      rfl
    | ok db' =>
      show db'.after (handleStripeWebhook rt true (.json event) db') = db'
      rw [h db' hfirst]
      rfl

/-- Every delivery of a successful payment adds its invoice. -/
theorem delivered_invoices {e : StripeEvent} {i : Invoice} (hread : readEvent rt event = .ok e)
    (hinvoice : e.invoice = some i) (hfits : i.storable = true) (n : ℕ) :
    (db.delivered rt event n).invoices = db.invoices ++ List.replicate n i := by
  have hadd : ∀ db, handleStripeWebhook rt true (.json event) db =
      .ok { db with invoices := db.invoices ++ [i] } := by
    intro db
    rw [handle_of_read hread, applyEvent_invoice hinvoice]
    exact if_pos hfits
  induction n with
  | zero => exact (List.append_nil _).symm
  | succ n ih =>
    rw [delivered_succ, hadd]
    show (db.delivered rt event n).invoices ++ [i] = _
    rw [ih, List.append_assoc, List.replicate_succ']

/-- An event that records no invoice leaves, however often it is delivered, the rows of a single
    delivery; one that does record an invoice does not. -/
theorem webhook_idempotent_iff (rt : StripeRuntime) (event : Json) (db : BillingDb) :
    (∀ n, 1 ≤ n → SameRows (db.delivered rt event n) (db.delivered rt event 1)) ↔
      ¬ RecordsInvoice rt event := by
  constructor
  · rintro hsame ⟨e, i, hread, hinvoice, hfits⟩
    have hlength := (hsame 2 (by decide)).2.length_eq
    rw [delivered_invoices hread hinvoice hfits, delivered_invoices hread hinvoice hfits] at hlength
    simp at hlength
  · intro hnone n hn
    have hagain : db.delivered rt event n = db.delivered rt event 1 := by
      obtain ⟨m, rfl⟩ := Nat.exists_eq_add_of_le' hn
      exact delivered_of_again (fun db' => handle_again hnone) m
    rw [hagain]
    exact sameRows_refl _

end Deliveries

/-! ## A payment -/

/-- Whole amounts, and upper case for ASCII. -/
def wholeAmounts : StripeRuntime where
  decimal
    | .int n => some (.finite n)
    | _ => none
  upper := String.toUpper

/-- A payment of 49 dollars by a tenant. -/
def paidEvent : Json := .obj [("type", .str "invoice.payment_succeeded"),
  ("data", .obj [("object", .obj [("metadata", .obj [("tenant_id", .str "tenant-1")]),
    ("amount_paid", .int 4900), ("currency", .str "usd")])])]

/-- A redelivered event can change something; a payment is invoiced again. -/
theorem paid_twice : ¬ ∀ (rt : StripeRuntime) (event : Json) (db : BillingDb) (n : ℕ), 1 ≤ n →
    SameRows (db.delivered rt event n) (db.delivered rt event 1) := by
  intro hevery
  have hlength := (hevery wholeAmounts paidEvent .empty 2 (by decide)).2.length_eq
  have hone : (BillingDb.empty.delivered wholeAmounts paidEvent 1).invoices =
      [{ tenantId := "tenant-1", amount := .finite 49, currency := "USD", status := "paid" }] := by
    decide +kernel
  have htwo : (BillingDb.empty.delivered wholeAmounts paidEvent 2).invoices.length = 2 := by
    decide +kernel
  rw [hone, htwo] at hlength
  cases hlength

end CloudScale.PaymentService
