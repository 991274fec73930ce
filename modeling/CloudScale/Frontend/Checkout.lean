/-
  The checkout page and the endpoint it sends orders to (`pages/Checkout.tsx`,
  `order/app/schemas.py` and `create_order` of `order/app/router.py`).

  A submission first asks the inventory service, whatever comes of that, and then posts the order.
  The body has the products with their quantities, the address and the payment method.
  `OrderCreate` also wants a price for each item and an idempotency key, so pydantic refuses every
  body of the page. What an error becomes on its way to the page is the client's (`rejection`).

  `checkout_run`: no run of the page places an order or clears the cart, and each answer of the
  order service leaves the text of a bad request, unless its dependencies failed.
-/
import CloudScale.Frontend.CartStore
import CloudScale.Frontend.ErrorMapper

namespace CloudScale.Frontend

open CloudScale.Lib CloudScale.Shared CloudScale.Platform

/-! ## `OrderCreate` -/

/-- What pydantic says of a value that is there, if it refuses it. -/
structure Pydantic where
  uuid : Json → Option String
  /-- `Field(..., gt=0)` of an `int` -/
  positiveInt : Json → Option String
  positiveDecimal : Json → Option String
  /-- `Field(..., min_length=10)` -/
  key : Json → Option String

/-- A required field of a model. -/
def fieldErrors (loc : List String) (d : Dict) (name : String) (check : Json → Option String) :
    List FieldError :=
  match d.lookup name with
  | none => [⟨loc ++ [name], "Field required"⟩]
  | some v => ((check v).map fun msg => ⟨loc ++ [name], msg⟩).toList

/-- `OrderItemCreate` -/
def orderItemErrors (py : Pydantic) (loc : List String) : Json → List FieldError
  | .obj d =>
    fieldErrors loc d "product_id" py.uuid ++ fieldErrors loc d "quantity" py.positiveInt ++
      fieldErrors loc d "unit_price" py.positiveDecimal
  | _ => [⟨loc, "Input should be a valid dictionary or object to extract fields from"⟩]

def itemsErrors (py : Pydantic) (loc : List String) : Json → List FieldError
  | .arr [] => [⟨loc, "List should have at least 1 item after validation, not 0"⟩]
  | .arr xs => xs.zipIdx.flatMap fun x => orderItemErrors py (loc ++ [toString x.2]) x.1
  | _ => [⟨loc, "Input should be a valid list"⟩]

def orderCreateErrors (py : Pydantic) : Json → List FieldError
  | .obj d =>
    (match d.lookup "items" with
      | none => [⟨["body", "items"], "Field required"⟩]
      | some v => itemsErrors py ["body", "items"] v) ++
    fieldErrors ["body"] d "idempotency_key" py.key
  | _ => [⟨["body"], "Input should be a valid dictionary or object to extract fields from"⟩]

/-- `POST /api/v1/orders`: its dependencies (`some`: one of them raises), the body, the endpoint. -/
def createOrderRoute (py : Pydantic) (dependencies : Option String)
    (createOrder : Json → RouteOutcome) (body : Json) : RouteOutcome :=
  match dependencies with
  | some text => .exception text
  | none =>
    match orderCreateErrors py body with
    | [] => createOrder body
    | errors => .validation errors

/-! ## The page -/

structure CheckoutForm where
  shippingAddress : String
  city : String
  zipCode : String
  paymentMethod : String

def reserveItem (item : CartItem) : Json :=
  .obj [("product_id", .str item.productId), ("quantity", .int item.quantity)]

def orderBody (items : List CartItem) (form : CheckoutForm) : Json :=
  .obj [("items", .arr (items.map reserveItem)),
    ("shipping_address",
      .str (form.shippingAddress ++ ", " ++ form.city ++ " (" ++ form.zipCode ++ ")")),
    ("payment_method", .str form.paymentMethod)]

/-- A submission under way: waiting for the inventory service, or for the order service. -/
inductive Submission where
  | reserving (body : Json)
  | ordering (body : Json)

structure CheckoutPage where
  cart : CartState
  submissions : List Submission := []
  loading : Bool := false
  success : Bool := false
  error : Option Json := none
  notifications : ℕ := 0

/-- What becomes of the order request `a`: the service answers it, and the client is then `c`; or it
    is rejected without an answer, when the network or the refresh it waits for fails. -/
inductive OrderAnswer where
  | served (dependencies : Option String) (uuid4 : String) (req : HttpRequest) (t : Telemetry)
      (c : Client) (a : Attempt)
  | failed (err : Rejection)

/-- The visitor submits; the inventory service is done with the `i`-th submission; its order request
    settles; the cart changes. -/
inductive CheckoutLabel where
  | submit (form : CheckoutForm)
  | reserved (i : ℕ)
  | settled (i : ℕ) (answer : OrderAnswer)
  | cart (action : CartAction)

/-- What a promise of the client comes to. -/
inductive Settled where
  | resolved
  | rejected (err : Rejection)

/-- The answer to a body, as the page gets it; `none`: not yet, the request waits for a refresh. -/
def settledBy (py : Pydantic) (createOrder : Json → RouteOutcome) (body : Json) :
    OrderAnswer → Option Settled
  | .served dependencies uuid4 req t c a =>
    match axiosError (orderService.respond uuid4
      (fun _ _ => createOrderRoute py dependencies createOrder body) req t).1 with
    | none => some .resolved
    | some error => (c.rejection a error).map .rejected
  | .failed err => some (.rejected err)

section Page

variable (toUpperCase : String → String) (py : Pydantic) (createOrder : Json → RouteOutcome)

/-- The rest of `onSubmit`, from the settled order request on. -/
def CheckoutPage.onSettled (p : CheckoutPage) : Settled → CheckoutPage
  | .resolved =>
    { p with
      notifications := p.notifications + 1, cart := p.cart.clearCart, success := true
      loading := false }
  | .rejected err => { p with error := some (checkoutError err), loading := false }

def CheckoutPage.step (p : CheckoutPage) : CheckoutLabel → Option CheckoutPage
  | .submit form => some { p with
      submissions := p.submissions ++ [.reserving (orderBody p.cart.items form)]
      loading := true, error := none }
  | .reserved i =>
    match p.submissions[i]? with
    | some (.reserving body) => some { p with submissions := p.submissions.set i (.ordering body) }
    | _ => none
  | .settled i answer =>
    match p.submissions[i]? with
    | some (.ordering body) => (settledBy py createOrder body answer).map
        { p with submissions := p.submissions.eraseIdx i }.onSettled
    | _ => none
  | .cart action => (p.cart.step toUpperCase action).map fun cart => { p with cart }

/-! ## The bodies of the page -/

/-- A body of the page: it has no idempotency key. -/
def Keyless (body : Json) : Prop := ∃ d, body = .obj d ∧ d.lookup "idempotency_key" = none

def Submission.body : Submission → Json
  | .reserving body => body
  | .ordering body => body

theorem keyless_orderBody (items : List CartItem) (form : CheckoutForm) :
    Keyless (orderBody items form) :=
  ⟨_, rfl, by simp [List.lookup_cons]⟩

theorem orderCreateErrors_keyless {body : Json} (h : Keyless body) :
    orderCreateErrors py body ≠ [] := by
  obtain ⟨d, rfl, hd⟩ := h
  simp [orderCreateErrors, fieldErrors, hd]

theorem createOrderRoute_keyless {body : Json} (h : Keyless body) (dependencies : Option String) :
    (∃ text, createOrderRoute py dependencies createOrder body = .exception text) ∨
      raised (createOrderRoute py dependencies createOrder body) = some 400 := by
  unfold createOrderRoute
  cases dependencies with
  | some text => exact .inl ⟨text, rfl⟩
  | none =>
    cases herrors : orderCreateErrors py body with
    | nil => exact absurd herrors (orderCreateErrors_keyless py h)
    | cons e es => exact .inr rfl

/-- The order service answers a body of the page with an error, of which the client makes a
    rejection. -/
theorem settledBy_served {body : Json} (h : Keyless body) (dependencies : Option String)
    (uuid4 : String) (req : HttpRequest) (t : Telemetry) (c : Client) (a : Attempt) :
    ∃ error,
      axiosError (orderService.respond uuid4
        (fun _ _ => createOrderRoute py dependencies createOrder body) req t).1 = some error ∧
      settledBy py createOrder body (.served dependencies uuid4 req t c a) =
        some (.rejected (.mapped (mapAPIError error))) := by
  have hstatus : (orderService.respond uuid4
      (fun _ _ => createOrderRoute py dependencies createOrder body) req t).1.status = 500 ∨
      (orderService.respond uuid4
        (fun _ _ => createOrderRoute py dependencies createOrder body) req t).1.status = 400 := by
    rcases createOrderRoute_keyless py createOrder h dependencies with ⟨text, htext⟩ | hraised
    · refine .inl ?_
      rw [(respond_eq orderService uuid4 _ req t).1, htext]
      rfl
    · exact .inr (respond_raised orderService uuid4 _ req t hraised).1
  obtain ⟨error, herror⟩ : ∃ error, axiosError (orderService.respond uuid4
      (fun _ _ => createOrderRoute py dependencies createOrder body) req t).1 = some error :=
    ⟨_, if_neg (by omega)⟩
  have hauthorized : ¬ (error.status = some 401 ∧ a.retry = false) := by
    rintro ⟨hunauthorized, -⟩
    rw [AxiosError.status, axiosError_response herror, Option.map_some, Option.some.injEq]
      at hunauthorized
    omega
  refine ⟨error, herror, ?_⟩
  simp only [settledBy, herror, Client.rejection, if_neg hauthorized, Option.map_some]

theorem settledBy_keyless {body : Json} (h : Keyless body) {answer : OrderAnswer}
    {settled : Settled} (hs : settledBy py createOrder body answer = some settled) :
    ∃ err, settled = .rejected err := by
  cases answer with
  | failed err =>
    obtain rfl := Option.some.inj hs
    exact ⟨err, rfl⟩
  | served dependencies uuid4 req t c a =>
    obtain ⟨error, -, heq⟩ := settledBy_served py createOrder h dependencies uuid4 req t c a
    obtain rfl := Option.some.inj (heq.symm.trans hs)
    exact ⟨_, rfl⟩

theorem checkoutError_served {body : Json} (h : Keyless body) (uuid4 : String) (req : HttpRequest)
    (t : Telemetry) (c : Client) (a : Attempt) :
    ∃ err, settledBy py createOrder body (.served none uuid4 req t c a) = some (.rejected err) ∧
      checkoutError err = .str "The request payload parameters are invalid or corrupted." := by
  obtain ⟨error, herror, hsettled⟩ := settledBy_served py createOrder h none uuid4 req t c a
  refine ⟨_, hsettled, ?_⟩
  rcases createOrderRoute_keyless py createOrder h none with ⟨text, htext⟩ | hraised
  · unfold createOrderRoute at htext
    cases herrors : orderCreateErrors py body with
    | nil => exact absurd herrors (orderCreateErrors_keyless py h)
    | cons e es => simp [herrors] at htext
  · obtain ⟨hstatus, hdetail⟩ := respond_raised orderService uuid4
      (fun _ _ => createOrderRoute py none createOrder body) req t hraised
    have hshown := (shown_of herror hdetail (.inr rfl)).checkout
    rw [hstatus] at hshown
    exact hshown

/-! ## Runs -/

/-- No order was placed, and none will be by what is under way. -/
structure Unplaced (p : CheckoutPage) : Prop where
  success : p.success = false
  notifications : p.notifications = 0
  submissions : ∀ s ∈ p.submissions, Keyless s.body

def cartStep (s : CartState) (action : CartAction) : Option CartState := s.step toUpperCase action

/-- What a label does to the cart on its own. -/
def CheckoutLabel.action : CheckoutLabel → Option CartAction
  | .cart action => some action
  | _ => none

theorem step_unplaced {p p' : CheckoutPage} {l : CheckoutLabel} (h : Unplaced p)
    (hs : p.step toUpperCase py createOrder l = some p') :
    Unplaced p' ∧ runFrom (cartStep toUpperCase) p.cart l.action.toList = some p'.cart := by
  cases l with
  | submit form =>
    obtain rfl := Option.some.inj hs
    refine ⟨⟨h.success, h.notifications, fun s hs => ?_⟩, rfl⟩
    rcases List.mem_append.mp hs with hs | hs
    · exact h.submissions s hs
    · obtain rfl := List.mem_singleton.mp hs
      exact keyless_orderBody _ _
  | reserved i =>
    simp only [CheckoutPage.step] at hs
    split at hs
    · next body hbody =>
      obtain rfl := Option.some.inj hs
      refine ⟨⟨h.success, h.notifications, fun s hs => ?_⟩, rfl⟩
      rcases List.mem_or_eq_of_mem_set hs with hs | rfl
      · exact h.submissions s hs
      · exact h.submissions (.reserving body) (List.mem_of_getElem? hbody)
    · cases hs
  | settled i answer =>
    simp only [CheckoutPage.step] at hs
    split at hs
    · next body hbody =>
      have hkeyless : Keyless body := h.submissions _ (List.mem_of_getElem? hbody)
      obtain ⟨settled, hsettled, rfl⟩ := Option.map_eq_some_iff.mp hs
      obtain ⟨err, rfl⟩ := settledBy_keyless py createOrder hkeyless hsettled
      refine ⟨⟨h.success, h.notifications, fun s hs => ?_⟩, rfl⟩
      exact h.submissions s (List.mem_of_mem_eraseIdx hs)
    · cases hs
  | cart action =>
    obtain ⟨cart, hcart, rfl⟩ := Option.map_eq_some_iff.mp hs
    refine ⟨⟨h.success, h.notifications, h.submissions⟩, ?_⟩
    simp [CheckoutLabel.action, runFrom, cartStep, hcart]

theorem run_unplaced {p p' : CheckoutPage} {ls : List CheckoutLabel} (h : Unplaced p)
    (hs : runFrom (CheckoutPage.step toUpperCase py createOrder) p ls = some p') :
    Unplaced p' ∧
      runFrom (cartStep toUpperCase) p.cart (ls.filterMap CheckoutLabel.action) = some p'.cart := by
  induction ls generalizing p with
  | nil =>
    obtain rfl := Option.some.inj hs
    exact ⟨h, rfl⟩
  | cons l ls ih =>
    obtain ⟨q, hq, hrest⟩ := Option.bind_eq_some_iff.mp hs
    obtain ⟨hunplaced, hcart⟩ := step_unplaced toUpperCase py createOrder h hq
    obtain ⟨hunplaced', hcart'⟩ := ih hunplaced hrest
    refine ⟨hunplaced', ?_⟩
    have hsplit : (l :: ls).filterMap CheckoutLabel.action =
        l.action.toList ++ ls.filterMap CheckoutLabel.action := by
      cases haction : l.action <;> simp [haction]
    rw [hsplit]
    exact runFrom_trans hcart hcart'

/-- No run places an order, the cart is what its own actions make of it, and a submission that the
    order service answers ends in the text of a bad request. -/
theorem checkout_run (cart : CartState) {l : List CheckoutLabel} {p : CheckoutPage}
    (h : runFrom (CheckoutPage.step toUpperCase py createOrder) { cart } l = some p) :
    p.success = false ∧ p.notifications = 0 ∧
      runFrom (cartStep toUpperCase) cart (l.filterMap CheckoutLabel.action) = some p.cart ∧
      ∀ i uuid4 req t c a p', p.step toUpperCase py createOrder
        (.settled i (.served none uuid4 req t c a)) = some p' →
          p'.error = some (.str "The request payload parameters are invalid or corrupted.") := by
  have hfirst : Unplaced { cart } := ⟨rfl, rfl, fun _ hs => by cases hs⟩
  obtain ⟨hunplaced, hcart⟩ := run_unplaced toUpperCase py createOrder hfirst h
  refine ⟨hunplaced.success, hunplaced.notifications, hcart, fun i uuid4 req t c a p' hs => ?_⟩
  simp only [CheckoutPage.step] at hs
  split at hs
  · next body hbody =>
    have hkeyless : Keyless body := hunplaced.submissions _ (List.mem_of_getElem? hbody)
    obtain ⟨err, herr, htext⟩ := checkoutError_served py createOrder hkeyless uuid4 req t c a
    rw [herr] at hs
    obtain rfl := Option.some.inj hs
    exact congrArg some htext
  · cases hs

end Page

/-- One item, and a submission that the order service answers. -/
theorem checkout_run_submitted : ∃ p,
    runFrom (CheckoutPage.step id ⟨fun _ => none, fun _ => none, fun _ => none, fun _ => none⟩
      fun _ => .response ⟨202, [], .null⟩) { cart := {} }
      [.cart (.addItem "3f2504e0-4f89-41d3-9a0c-0305e82c3301" "SKU-1" "Shirt" 20),
        .submit ⟨"1 Main Street", "Springfield", "12345", "credit_card"⟩, .reserved 0,
        .settled 0 (.served none "d3b07384" ⟨"POST", "/api/v1/orders", [], none⟩
          ⟨fun _ => 0, fun _ => 0, fun _ => 0⟩ (Client.init {}) ⟨0, false, none⟩)] = some p ∧
            p.success = false := by
  refine ⟨_, rfl, ?_⟩
  exact (checkout_run id ⟨fun _ => none, fun _ => none, fun _ => none, fun _ => none⟩
    (fun _ => .response ⟨202, [], .null⟩) {}
    (l := [.cart (.addItem "3f2504e0-4f89-41d3-9a0c-0305e82c3301" "SKU-1" "Shirt" 20),
        .submit ⟨"1 Main Street", "Springfield", "12345", "credit_card"⟩, .reserved 0,
        .settled 0 (.served none "d3b07384" ⟨"POST", "/api/v1/orders", [], none⟩
          ⟨fun _ => 0, fun _ => 0, fun _ => 0⟩ (Client.init {}) ⟨0, false, none⟩)]) rfl).1

end CloudScale.Frontend
