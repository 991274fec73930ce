/-
  The order quota under concurrent checkouts (`create_order` in `order/app/service.py`).

  A checkout counts the tenant's orders, then looks its key up, then inserts; nothing stands between
  the count and the insert. `Unraced` rules the bad case out: a checkout comes past its count while
  the keys that it and the others past theirs can still store are too many for the room that is
  left. A replay of a stored key can store nothing, and two requests with one key store it once.
  `quota_kept`: then a tenant's orders stay within the limit of its plan. `quota_raced`: two
  checkouts that both count the last free place.
-/
import CloudScale.Lib.Stages
import CloudScale.OrderService.Idempotency

namespace CloudScale.OrderService

open CloudScale.Lib CloudScale.Shared

/-- `count_tenant_orders`, of a tenant. -/
def ordersOf (T : String) (db : OrderDb) : ℕ :=
  db.orders.rows.countP fun o => o.tenantId == T

/-- A checkout of the tenant. -/
def CheckoutOf (T : String) : OrderRequest → Prop
  | .checkout c => c.tenant = T
  | _ => False

instance (T : String) : DecidablePred (CheckoutOf T)
  | .checkout c => inferInstanceAs (Decidable (c.tenant = T))
  | .event _ => isFalse id
  | .sweep _ _ => isFalse id

/-- The checkout is past its count and may still insert an order. -/
def mayInsert : OrderTxn (Outcome OrderWrites) → Bool
  | .ask (.byKey _ _) _ => true
  | .done (.handled w) => w.created.isSome
  | _ => false

/-- A checkout of the tenant that may still insert an order. -/
def counted (T : String) (r : OrderRequest) (p : OrderTxn (Outcome OrderWrites)) : Bool :=
  decide (CheckoutOf T r) && mayInsert p

/-- The values of the checkout fit their columns. -/
def fits (c : Checkout) : Bool := (placed 0 c).storable

/-- The key that a checkout can store: no order has it, and its values fit. -/
def freshKey (db : OrderDb) : OrderRequest → Option String
  | .checkout c =>
    if fits c && decide (c.payload.idempotencyKey ∉ db.orders.rows.map (·.idempotencyKey)) then
      some c.payload.idempotencyKey
    else none
  | _ => none

/-- The keys that the tenant's checkouts past their count can still store. -/
def pendingKeys (T : String) (srv : OrderServer) : Finset String :=
  srv.atStage (counted T) (freshKey srv.db)

section Conditions

variable (T : String)

/-- The tenant's plan in Redis is `plan`. -/
def PlanFixed (plan : Option String) (srv : OrderServer) : Label OrderRequest OrderEnv → Prop
  | .move (.advance i ω) => match srv.active[i]? with
    | some a => CheckoutOf T a.req → ω.plan = plan
    | none => True
  | _ => True

/-- Redis is configured for every checkout of the tenant. -/
def Limited : Label OrderRequest OrderEnv → Prop
  | .start (.checkout c) => c.tenant = T → c.redis = true
  | _ => True

/-- A checkout of the tenant counts its orders when the limit is reached, or when there is room for
    its key and for those that the checkouts past their count can still store. -/
def Unraced (limit : ℕ) (srv : OrderServer) : Label OrderRequest OrderEnv → Prop
  | .move (.advance i _) => match srv.active[i]? with
    | some a => match a.prog with
      | .ask (.count _) _ => CheckoutOf T a.req →
          limit ≤ ordersOf T srv.db ∨
            ordersOf T srv.db + ((freshKey srv.db a.req).toFinset ∪ pendingKeys T srv).card ≤ limit
      | _ => True
    | none => True
  | _ => True

end Conditions

/-! ## The gate -/

/-- What checkouts of the tenant are answered about its plan. -/
def onPlan (T : String) (plan : Option String) (r : OrderRequest) :
    (q : OrderQuery) → OrderAnswer q → Prop
  | .plan _, tier => CheckoutOf T r → tier = plan
  | _, _ => True

/-- A count of the tenant's orders, by a checkout of the tenant, below the limit. -/
def belowLimit (T : String) (limit : ℕ) (r : OrderRequest) :
    (q : OrderQuery) → OrderAnswer q → Prop
  | .count t, (n : ℕ) => CheckoutOf T r ∧ t = T ∧ n < limit
  | _, _ => False

theorem mayInsert_of_counted {T : String} {r : OrderRequest} {p : OrderTxn (Outcome OrderWrites)}
    (h : counted T r p = true) : mayInsert p = true :=
  (Bool.and_eq_true_iff.mp h).2

/-- The part of a checkout after its count. -/
def insertOrder (tid : ℕ) (c : Checkout) : OrderTxn (Outcome OrderWrites) := do
  return .handled (← placeOrder tid c)

/-- A checkout with Redis: the plan, the count, then the insert or the refusal. -/
theorem program_checkout {tid : ℕ} {c : Checkout} (h : c.redis = true) :
    program tid (.checkout c) = .ask (.plan c.tenant) fun tier =>
      .ask (.count c.tenant) fun (n : ℕ) =>
      if planLimit (planTier tier) ≤ n then
        .raise (.validationException (quotaMessage (planTier tier)))
      else insertOrder tid c := by
  show createOrder tid c >>= _ = _
  unfold createOrder
  rw [if_pos h]
  refine congrArg (Txn.ask _) (funext fun tier => congrArg (Txn.ask _) (funext fun (n : ℕ) => ?_))
  show (if planLimit (planTier tier) ≤ n then .raise _ else placeOrder tid c : OrderTxn _) >>= _ = _
  split
  · rfl
  · rfl

/-- A checkout of the tenant comes past its count only when that is below the limit. -/
theorem program_gated {T : String} {plan : Option String} {tid : ℕ} {r : OrderRequest} :
    Gated (counted T r) (onPlan T plan r) (belowLimit T (planLimit (planTier plan)) r)
      (program tid r) := by
  by_cases hT : CheckoutOf T r
  · obtain ⟨c, rfl, hc⟩ : ∃ c, r = .checkout c ∧ c.tenant = T := by
      cases r with
      | checkout c => exact ⟨c, rfl, hT⟩
      | event e => exact hT.elim
      | sweep cutoff limit => exact hT.elim
    have hinsert : Gated (counted T (.checkout c)) (onPlan T plan (.checkout c))
        (belowLimit T (planLimit (planTier plan)) (.checkout c)) (insertOrder tid c) := by
      intro x _
      refine ⟨fun _ => .inl (by simp [counted, CheckoutOf, hc, mayInsert]), ?_⟩
      rcases (x : Option Order) with _ | o
      · trivial
      · trivial
    by_cases hredis : c.redis = true
    · rw [program_checkout hredis]
      intro tier htier
      obtain rfl : tier = plan := htier hc
      refine ⟨fun h => absurd (mayInsert_of_counted h) Bool.false_ne_true, fun (n : ℕ) _ => ?_⟩
      beta_reduce
      split
      · exact ⟨fun h => absurd (mayInsert_of_counted h) Bool.false_ne_true, trivial⟩
      · next hroom => exact ⟨fun _ => .inr ⟨hc, hc, not_le.mp hroom⟩, hinsert⟩
    · have hprogram : program tid (.checkout c) = insertOrder tid c := by
        show createOrder tid c >>= _ = _
        unfold createOrder
        rw [if_neg hredis]
        rfl
      rw [hprogram]
      exact hinsert
  · exact gated_of_never (fun p => by simp [counted, hT]) _

/-! ## Runs -/

theorem freshKey_eq_some {db : OrderDb} {r : OrderRequest} {key : String} :
    freshKey db r = some key ↔ ∃ c, r = .checkout c ∧ c.payload.idempotencyKey = key ∧
      fits c = true ∧ key ∉ db.orders.rows.map (·.idempotencyKey) := by
  cases r with
  | checkout c =>
    simp only [freshKey, Option.ite_none_right_eq_some, Bool.and_eq_true, decide_eq_true_eq,
      Option.some.injEq]
    constructor
    · rintro ⟨⟨hfits, hkey⟩, rfl⟩
      exact ⟨c, rfl, rfl, hfits, hkey⟩
    · rintro ⟨c', hc, rfl, hfits, hkey⟩
      cases hc
      exact ⟨⟨hfits, hkey⟩, rfl⟩
  | event e => simp [freshKey]
  | sweep cutoff limit => simp [freshKey]

/-- Whether the values fit does not depend on the transaction. -/
theorem storable_placed (tid : ℕ) (c : Checkout) : (placed tid c).storable = fits c := by
  obtain ⟨user, tenant, now, redis, correlationId, payload⟩ := c
  cases correlationId with
  | none => rfl
  | some id => rfl

/-- A commit removes no key. -/
theorem keys_commit {db db' : OrderDb} {w : OrderWrites} (hc : db.commit w = some db') :
    db'.orders.rows.map (·.idempotencyKey) =
      db.orders.rows.map (·.idempotencyKey) ++ w.created.toList.map (·.idempotencyKey) := by
  obtain ⟨g, hg, hrows⟩ := rows_commit hc
  have hkey : (fun o : Order => o.idempotencyKey) ∘ g = fun o => o.idempotencyKey := by
    funext o
    obtain ⟨s, hs⟩ := hg o
    show (g o).idempotencyKey = _
    rw [hs]
    rfl
  rw [hrows, List.map_append, List.map_map, hkey]

theorem freshKey_commit {db db' : OrderDb} {w : OrderWrites} {r : OrderRequest} {key : String}
    (hc : db.commit w = some db') (h : freshKey db' r = some key) : freshKey db r = some key := by
  obtain ⟨c, rfl, hkey, hfits, hnew⟩ := freshKey_eq_some.mp h
  rw [keys_commit hc, List.mem_append, not_or] at hnew
  exact freshKey_eq_some.mpr ⟨c, rfl, hkey, hfits, hnew.1⟩

theorem pendingKeys_commit {T : String} {srv : OrderServer} {db' : OrderDb} {w : OrderWrites}
    (hc : srv.db.commit w = some db') {i : ℕ}
    {a : Active OrderDb OrderRequest OrderQuery OrderAnswer Exc (Outcome OrderWrites)}
    (v : Verdict Exc (Outcome OrderWrites)) :
    pendingKeys T { srv.close i a v with db := db' } ⊆ pendingKeys T srv := by
  intro key hkey
  obtain ⟨b, hb, hcounted, hfresh⟩ := mem_atStage.mp hkey
  exact mem_atStage.mpr ⟨b, List.mem_of_mem_eraseIdx hb, hcounted, freshKey_commit hc hfresh⟩

/-- The key of a checkout can be stored until it is. -/
theorem freshKey_placed {db db' : OrderDb} {tid : ℕ} {c : Checkout}
    (hc : db.commit (placed tid c) = some db') :
    freshKey db (.checkout c) = some c.payload.idempotencyKey ∧
      ∀ r, freshKey db' r ≠ some c.payload.idempotencyKey := by
  have hkeys : db'.orders.rows.map (·.idempotencyKey) =
      db.orders.rows.map (·.idempotencyKey) ++ [c.payload.idempotencyKey] := keys_commit hc
  have hunique := commit_keys hc
  rw [hkeys, List.nodup_append] at hunique
  have hfits : fits c = true := by
    rw [← storable_placed tid c]
    by_contra h
    exact absurd (commit_unfit (Bool.not_eq_true _ ▸ h)) (hc ▸ Option.some_ne_none _)
  refine ⟨freshKey_eq_some.mpr ⟨c, rfl, rfl, hfits, fun h => ?_⟩, fun r h => ?_⟩
  · exact hunique.2.2 _ h _ (List.mem_singleton_self _) rfl
  · obtain ⟨_, _, -, -, hnew⟩ := freshKey_eq_some.mp h
    rw [hkeys] at hnew
    exact hnew (List.mem_append_right _ (List.mem_singleton_self _))

/-- Only a commit that inserts an order of the tenant changes their number. -/
theorem ordersOf_commit {T : String} {db db' : OrderDb} {w : OrderWrites}
    (hc : db.commit w = some db') :
    ordersOf T db' = ordersOf T db + w.created.toList.countP fun o => o.tenantId == T := by
  obtain ⟨g, hg, hrows⟩ := rows_commit hc
  have htenant : (fun o : Order => o.tenantId == T) ∘ g = fun o => o.tenantId == T := by
    funext o
    obtain ⟨s, hs⟩ := hg o
    show ((g o).tenantId == T) = _
    rw [hs]
    rfl
  unfold ordersOf
  rw [hrows, List.countP_append, List.countP_map, htenant]

/-- The tenant's orders and the keys that its checkouts can still store are within the limit. -/
structure RoomKept (T : String) (plan : Option String) (srv : OrderServer) : Prop where
  leaves : srv.AllSafe (answers id) Persist (fun _ _ _ _ => True) Leaves srv.db
  gated : srv.AllGated (counted T) (onPlan T plan) (belowLimit T (planLimit (planTier plan)))
  room : ordersOf T srv.db + (pendingKeys T srv).card ≤ planLimit (planTier plan)

section Runs

variable {T : String} {plan : Option String} {srv srv' : OrderServer}

theorem roomKept_start (h : RoomKept T plan srv) {r : OrderRequest} (hok : Limited T (.start r)) :
    RoomKept T plan (service.start srv r) := by
  have hnot : counted T r (program srv.next r) = false := by
    cases r with
    | checkout c =>
      by_cases hT : c.tenant = T
      · rw [program_checkout (hok hT)]
        simp [counted, mayInsert]
      · simp [counted, CheckoutOf, hT]
    | event e => rfl
    | sweep cutoff limit => rfl
  have hpending : pendingKeys T (service.start srv r) ⊆ pendingKeys T srv := atStage_start hnot
  refine ⟨leaves_guarantees.startSafe r h.leaves, allGated_start h.gated program_gated, ?_⟩
  exact le_trans (Nat.add_le_add_left (Finset.card_le_card hpending) _) h.room

/-- The one step that takes room: a count below the limit. -/
theorem roomKept_advance (h : RoomKept T plan srv) {i : ℕ} {ω : OrderEnv}
    {a : Active OrderDb OrderRequest OrderQuery OrderAnswer Exc (Outcome OrderWrites)}
    {q : OrderQuery} {k : OrderAnswer q → OrderTxn (Outcome OrderWrites)}
    (ha : srv.active[i]? = some a) (hp : a.prog = .ask q k)
    (hplan : PlanFixed T plan srv (.move (.advance i ω)))
    (hok : Unraced T (planLimit (planTier plan)) srv (.move (.advance i ω))) :
    let x := srv.db.answer ω q
    let srv' := { srv with active := srv.active.set i { a with prog := k x } }
    srv'.AllGated (counted T) (onPlan T plan) (belowLimit T (planLimit (planTier plan))) ∧
      ordersOf T srv.db + (pendingKeys T srv').card ≤ planLimit (planTier plan) := by
  have hallowed : onPlan T plan a.req q (srv.db.answer ω q) := by
    cases q with
    | plan t =>
      simp only [PlanFixed, ha] at hplan
      exact hplan
    | _ => trivial
  obtain ⟨hgated, hpending⟩ :=
    atStage_gated (freshKey srv.db) h.gated ha hp _ hallowed srv.world
  refine ⟨hgated, ?_⟩
  rcases hpending with hsame | ⟨hopens, hone⟩
  · exact le_trans (Nat.add_le_add_left (Finset.card_le_card hsame) _) h.room
  · cases q with
    | count t =>
      obtain ⟨hT, rfl, hbelow⟩ := hopens
      simp only [Unraced, ha, hp] at hok
      rcases hok hT with hfull | hfree
      · exact absurd hbelow (not_lt.mpr hfull)
      · exact le_trans (Nat.add_le_add_left (Finset.card_le_card hone) _) hfree
    | _ => exact hopens.elim

/-- A commit of the tenant's order uses up its key; every other leaves the number of orders. -/
theorem roomKept_commit (h : RoomKept T plan srv) {i : ℕ} {db' : OrderDb} {w : OrderWrites}
    {a : Active OrderDb OrderRequest OrderQuery OrderAnswer Exc (Outcome OrderWrites)}
    (ha : srv.active[i]? = some a) (hp : a.prog = .done (.handled w))
    (hc : srv.db.commit w = some db') (v : Verdict Exc (Outcome OrderWrites)) :
    ordersOf T db' + (pendingKeys T { srv.close i a v with db := db' }).card ≤
      planLimit (planTier plan) := by
  have hsub := pendingKeys_commit (T := T) hc (i := i) (a := a) v
  obtain ⟨haccount, -⟩ := allSafe_result h.leaves (List.mem_of_getElem? ha) hp (Persist.refl _)
  have hroom := h.room
  rw [ordersOf_commit hc]
  by_cases hnew : (w.created.toList.countP fun o => o.tenantId == T) = 0
  · rw [hnew]
    exact le_trans (Nat.add_le_add_left (Finset.card_le_card hsub) _) hroom
  · obtain ⟨c, hreq, rfl⟩ : ∃ c, a.req = .checkout c ∧ w = placed a.tid c := by
      generalize a.req = r at haccount
      cases haccount with
      | @placed c => exact ⟨c, rfl, rfl⟩
      | _ => exact absurd List.countP_nil hnew
    have hT : c.tenant = T := by
      by_contra hT
      exact hnew (by simp [placed, newOrder, hT])
    have hone : ((placed a.tid c).created.toList.countP fun o => o.tenantId == T) = 1 := by
      simp [placed, newOrder, hT]
    obtain ⟨hfresh, hused⟩ := freshKey_placed hc
    have hbefore : c.payload.idempotencyKey ∈ pendingKeys T srv := by
      refine mem_atStage.mpr ⟨a, List.mem_of_getElem? ha, ?_, hreq ▸ hfresh⟩
      rw [hp, hreq]
      simp [counted, CheckoutOf, hT, mayInsert, placed]
    have hafter : c.payload.idempotencyKey ∉ pendingKeys T { srv.close i a v with db := db' } := by
      intro hmem
      obtain ⟨b, -, -, hb⟩ := mem_atStage.mp hmem
      exact hused b.req hb
    have hcard := Finset.card_lt_card (Finset.ssubset_iff_of_subset hsub |>.mpr
      ⟨_, hbefore, hafter⟩)
    omega

theorem roomKept_move (h : RoomKept T plan srv) {m : Move OrderEnv}
    (hplan : PlanFixed T plan srv (.move m))
    (hok : Unraced T (planLimit (planTier plan)) srv (.move m))
    (hs : service.move srv m = some srv') : RoomKept T plan srv' := by
  have hleaves :=
    leaves_guarantees.moveSafe h.leaves hs (goodMove_of_forall (fun _ _ _ _ => trivial) m)
  obtain ⟨i, a, ha, ⟨ω, q, k, rfl, hp, rfl⟩ | ⟨o, db, rfl, hp, hc, rfl⟩ | ⟨v, -, rfl⟩⟩ :=
    Service.move_cases hs
  · obtain ⟨hgated, hroom⟩ := roomKept_advance h ha hp hplan hok
    exact ⟨hleaves, hgated, hroom⟩
  · have hclosed : (srv.close i a (.committed o)).AllGated (counted T) (onPlan T plan)
        (belowLimit T (planLimit (planTier plan))) :=
      h.gated.sub fun b hb => List.mem_of_mem_eraseIdx hb
    refine ⟨hleaves, hclosed, ?_⟩
    cases o with
    | handled w => exact roomKept_commit h ha hp hc _
    | _ =>
      cases hc
      exact le_trans (Nat.add_le_add_left (Finset.card_le_card (atStage_close _)) _) h.room
  · exact ⟨hleaves, h.gated.sub fun b hb => List.mem_of_mem_eraseIdx hb,
      le_trans (Nat.add_le_add_left (Finset.card_le_card (atStage_close v)) _) h.room⟩

/-- In every run with a fixed plan in which no count of the tenant is raced, a tenant that starts
    within the limit of its plan stays within it. -/
theorem quota_kept {db : OrderDb} (h0 : ordersOf T db ≤ planLimit (planTier plan))
    {ls : List (Label OrderRequest OrderEnv)}
    (h : Reaches service.step (fun s l => PlanFixed T plan s l ∧ Limited T l ∧
      Unraced T (planLimit (planTier plan)) s l) (Server.init db ()) ls srv) :
    ordersOf T srv.db ≤ planLimit (planTier plan) := by
  have hkept : RoomKept T plan srv := by
    refine h.invariant (RoomKept T plan) ⟨allSafe_init db (), allGated_init db (), h0⟩ ?_
    rintro s l s' hs ⟨hplan, hlimited, hunraced⟩ hstep
    cases l with
    | start r =>
      obtain rfl := Option.some.inj hstep
      exact roomKept_start hs hlimited
    | move m => exact roomKept_move hs hplan hunraced hstep
  exact le_trans (Nat.le_add_right _ _) hkept.room

end Runs

/-! ## Checkouts at the limit -/

instance (T : String) (plan : Option String) (srv : OrderServer)
    (l : Label OrderRequest OrderEnv) : Decidable (PlanFixed T plan srv l) :=
  match l with
  | .start _ => isTrue trivial
  | .move (.finish _) => isTrue trivial
  | .move (.crash _) => isTrue trivial
  | .move (.advance i ω) =>
    match h : srv.active[i]? with
    | some a => decidable_of_iff (CheckoutOf T a.req → ω.plan = plan) (by simp only [PlanFixed, h])
    | none => isTrue (by simp only [PlanFixed, h])

instance (T : String) (l : Label OrderRequest OrderEnv) : Decidable (Limited T l) :=
  match l with
  | .start (.checkout c) => inferInstanceAs (Decidable (c.tenant = T → c.redis = true))
  | .start (.event _) => isTrue trivial
  | .start (.sweep _ _) => isTrue trivial
  | .move _ => isTrue trivial

instance (T : String) (limit : ℕ) (srv : OrderServer) (l : Label OrderRequest OrderEnv) :
    Decidable (Unraced T limit srv l) :=
  match l with
  | .start _ => isTrue trivial
  | .move (.finish _) => isTrue trivial
  | .move (.crash _) => isTrue trivial
  | .move (.advance i _) =>
    match h : srv.active[i]? with
    | none => isTrue (by simp only [Unraced, h])
    | some a =>
      match hp : a.prog with
      | .ask (.count _) _ => decidable_of_iff (CheckoutOf T a.req →
          limit ≤ ordersOf T srv.db ∨
            ordersOf T srv.db + ((freshKey srv.db a.req).toFinset ∪ pendingKeys T srv).card ≤
              limit) (by simp only [Unraced, h, hp])
      | .ask (.inbox _) _ => isTrue (by simp only [Unraced, h, hp])
      | .ask (.order _) _ => isTrue (by simp only [Unraced, h, hp])
      | .ask (.stale _ _) _ => isTrue (by simp only [Unraced, h, hp])
      | .ask (.plan _) _ => isTrue (by simp only [Unraced, h, hp])
      | .ask (.byKey _ _) _ => isTrue (by simp only [Unraced, h, hp])
      | .done _ => isTrue (by simp only [Unraced, h, hp])
      | .raise _ => isTrue (by simp only [Unraced, h, hp])

/-- Two checkouts that both count before either is committed. -/
def overlapping (c c' : Checkout) : List (Label OrderRequest OrderEnv) :=
  [.start (.checkout c), .start (.checkout c'), answered 0, answered 0, answered 1, answered 1,
    answered 0, answered 1, .move (.finish 0), .move (.finish 0)]

/-- A replay of the first order overlaps with the checkout of the last free place. -/
theorem quota_kept_replay : ∃ srv,
    Reaches service.step (fun s l => PlanFixed "tenant-a" none s l ∧ Limited "tenant-a" l ∧
      Unraced "tenant-a" 15 s l) (Server.init .empty ())
      (checkoutsInTurn 14 ++ overlapping (freeCheckout 0) (freeCheckout 14)) srv ∧
    ordersOf "tenant-a" srv.db = 15 ∧ ordersOf "tenant-a" srv.db ≤ 15 := by
  obtain ⟨srv, hrun, hcount⟩ : ∃ srv,
      Reaches service.step (fun s l => PlanFixed "tenant-a" none s l ∧ Limited "tenant-a" l ∧
        Unraced "tenant-a" (planLimit (planTier none)) s l) (Server.init .empty ())
        (checkoutsInTurn 14 ++ overlapping (freeCheckout 0) (freeCheckout 14)) srv ∧
        ordersOf "tenant-a" srv.db = 15 :=
    reaches_where (by decide +kernel) (by decide +kernel)
  exact ⟨srv, hrun, hcount, quota_kept (Nat.zero_le _) hrun⟩

/-- Two checkouts overlap at the last free place. -/
def racedCheckouts : List (Label OrderRequest OrderEnv) :=
  checkoutsInTurn 14 ++ overlapping (freeCheckout 14) (freeCheckout 15)

/-- Concurrent checkouts do not always stay within the limit. -/
theorem quota_raced : ¬ ∀ (T : String) (plan : Option String) (db : OrderDb)
    (ls : List (Label OrderRequest OrderEnv)) (srv : OrderServer),
    ordersOf T db ≤ planLimit (planTier plan) →
    Reaches service.step (fun s l => PlanFixed T plan s l ∧ Limited T l) (Server.init db ())
      ls srv →
    ordersOf T srv.db ≤ planLimit (planTier plan) := by
  intro hevery
  obtain ⟨srv, hrun, hcount⟩ : ∃ srv,
      Reaches service.step (fun s l => PlanFixed "tenant-a" none s l ∧ Limited "tenant-a" l)
        (Server.init .empty ()) racedCheckouts srv ∧ ordersOf "tenant-a" srv.db = 16 :=
    reaches_where (by decide +kernel) (by decide +kernel)
  have hwithin : ordersOf "tenant-a" srv.db ≤ 15 :=
    hevery "tenant-a" none .empty racedCheckouts srv (Nat.zero_le _) hrun
  omega

end CloudScale.OrderService
