/-
  An HTTP request on its way through a service: the middleware of `middleware.py`, `metrics.py` and
  `security.py` in the order in which each `main.py` adds it, around the exception handlers of
  `exceptions.py`.

  Starlette puts what is added last outermost, and its own `ServerErrorMiddleware`, with the handler
  of `Exception`, outside all of it. The routes are any function from what a request finds in its
  context to an outcome. Requests overlap, but each updates the counters at one moment, when its
  response leaves; a run lists the requests in that order.

  `telemetry_run`: the counters of any run are the numbers of its responses. `respond_spec`: what is
  on a response. `generic_exception_handler` is never reached, so a response to an exception that
  nothing handles carries no security headers.
-/
import CloudScale.Shared.Json

namespace CloudScale.Platform

open CloudScale.Shared

/-- Header fields; their names are in lower case. -/
abbrev Headers := List (String × String)

structure HttpRequest where
  method : String
  path : String
  headers : Headers
  client : Option String

structure HttpResponse where
  status : ℕ
  headers : Headers
  body : Json

/-- `response.headers[name] = value`. -/
def setHeader : Headers → String → String → Headers
  | [], name, value => [(name, value)]
  | h :: hs, name, value =>
    if h.1 = name then (name, value) :: hs.filter (·.1 ≠ name) else h :: setHeader hs name value

def HttpResponse.setHeader (r : HttpResponse) (name value : String) : HttpResponse :=
  { r with headers := Platform.setHeader r.headers name value }

def HttpResponse.header (r : HttpResponse) (name : String) : Option String := r.headers.lookup name

/-- A header that is absent or empty is neither. -/
def HttpRequest.header (r : HttpRequest) (name : String) : Option String :=
  (r.headers.lookup name).filter (· ≠ "")

/-- The context variables a request runs with. -/
structure Context where
  bound : List (String × String) := []
  tenantId : String := "default-tenant"
  currentTenantId : Option String := none

/-! ## Exceptions and their handlers -/

structure CloudScaleException where
  message : String
  code : String := "INTERNAL_SERVER_ERROR"
  statusCode : ℕ := 500

def notFoundException (message : String) : CloudScaleException := ⟨message, "NOT_FOUND", 404⟩
def conflictException (message : String) : CloudScaleException := ⟨message, "CONFLICT", 409⟩
def unauthorizedException (message : String) : CloudScaleException := ⟨message, "UNAUTHORIZED", 401⟩
def forbiddenException (message : String) : CloudScaleException := ⟨message, "FORBIDDEN", 403⟩
def validationException (message : String) : CloudScaleException :=
  ⟨message, "VALIDATION_FAILED", 400⟩

/-- One of pydantic's errors: `loc` and `msg`. -/
structure FieldError where
  loc : List String
  msg : String

/-- What the routes end in. `http` is the framework's own `HTTPException`. -/
inductive RouteOutcome where
  | response (r : HttpResponse)
  | domain (exc : CloudScaleException)
  | validation (errors : List FieldError)
  | http (status : ℕ) (detail : String) (headers : Headers)
  | exception (text : String)

def errorBody (code message correlationId : String) : Json :=
  .obj [("error", .obj [("code", .str code), ("message", .str message),
    ("correlation_id", .str correlationId)])]

def Context.correlationId (ctx : Context) : String :=
  (ctx.bound.lookup "correlation_id").getD "unknown"

def cloudscaleExceptionHandler (ctx : Context) (exc : CloudScaleException) : HttpResponse :=
  ⟨exc.statusCode, [], errorBody exc.code exc.message ctx.correlationId⟩

def validationMessage (errors : List FieldError) : String :=
  "; ".intercalate (errors.map fun e => "'" ++ ".".intercalate e.loc ++ "': " ++ e.msg)

def validationExceptionHandler (ctx : Context) (errors : List FieldError) : HttpResponse :=
  ⟨400, [], errorBody "VALIDATION_ERROR" (validationMessage errors) ctx.correlationId⟩

def genericExceptionHandler (ctx : Context) : HttpResponse :=
  ⟨500, [], errorBody "INTERNAL_SERVER_ERROR"
    "An unexpected error occurred. Please contact support." ctx.correlationId⟩

/-- The response to an outcome, inside all middleware; `none`: an exception without a handler. -/
def handled (ctx : Context) : RouteOutcome → Option HttpResponse
  | .response r => some r
  | .domain exc => some (cloudscaleExceptionHandler ctx exc)
  | .validation errors => some (validationExceptionHandler ctx errors)
  | .http status detail headers => some ⟨status, headers, .obj [("detail", .str detail)]⟩
  | .exception _ => none

/-! ## Counters -/

structure EndpointLabels where
  service : String
  method : String
  endpoint : String
deriving DecidableEq

structure RequestLabels extends EndpointLabels where
  httpStatus : String
deriving DecidableEq

/-- `REQUEST_COUNT`, the number of observations of `REQUEST_LATENCY`, `REQUEST_ERRORS`. -/
structure Telemetry where
  requestCount : RequestLabels → ℕ
  requestLatency : EndpointLabels → ℕ
  requestErrors : EndpointLabels → ℕ

def inc {L : Type} [DecidableEq L] (counter : L → ℕ) (labels : L) : L → ℕ :=
  fun l => if l = labels then counter l + 1 else counter l

def Telemetry.record (t : Telemetry) (labels : EndpointLabels) (httpStatus : String)
    (failed : Bool) : Telemetry where
  requestCount := inc t.requestCount ⟨labels, httpStatus⟩
  requestLatency := inc t.requestLatency labels
  requestErrors := if failed then inc t.requestErrors labels else t.requestErrors

/-! ## Middleware -/

/-- `call_next`; an error is an exception that comes out of it. -/
abbrev Handler :=
  Context → HttpRequest → Telemetry → Except String HttpResponse × Telemetry

/-- The exception handlers around the routes. -/
def routes (app : Context → HttpRequest → RouteOutcome) : Handler := fun ctx req t =>
  match handled ctx (app ctx req), app ctx req with
  | some r, _ => (.ok r, t)
  | none, .exception text => (.error text, t)
  | none, _ => (.error "", t)

def securityHeaders : Headers :=
  [("x-content-type-options", "nosniff"), ("x-frame-options", "DENY"),
    ("x-xss-protection", "1; mode=block"), ("referrer-policy", "no-referrer"),
    ("strict-transport-security", "max-age=31536000; includeSubDomains"),
    ("content-security-policy", "default-src 'self'"), ("cache-control", "no-store"),
    ("pragma", "no-cache")]

def HttpResponse.setHeaders (r : HttpResponse) (hs : Headers) : HttpResponse :=
  hs.foldl (fun r h => r.setHeader h.1 h.2) r

def securityHeadersMiddleware (callNext : Handler) : Handler := fun ctx req t =>
  match callNext ctx req t with
  | (.ok r, t) => (.ok (r.setHeaders securityHeaders), t)
  | (.error e, t) => (.error e, t)

def tenantOf (req : HttpRequest) : String := (req.header "x-tenant-id").getD "default-tenant"

def tenantContextMiddleware (callNext : Handler) : Handler := fun ctx req t =>
  let tenantId := tenantOf req
  let ctx := { ctx with
    tenantId, bound := ("tenant_id", tenantId) :: ctx.bound, currentTenantId := some tenantId }
  match callNext ctx req t with
  | (.ok r, t) => (.ok (r.setHeader "x-tenant-id" tenantId), t)
  | (.error e, t) => (.error e, t)

def correlationIdOf (uuid4 : String) (req : HttpRequest) : String :=
  (req.header "x-correlation-id").getD uuid4

def correlationIdMiddleware (uuid4 : String) (callNext : Handler) : Handler := fun ctx req t =>
  let correlationId := correlationIdOf uuid4 req
  let ctx := { ctx with bound := [("correlation_id", correlationId), ("path", req.path),
    ("method", req.method), ("client_host", req.client.getD "unknown")] }
  match callNext ctx req t with
  | (.ok r, t) => (.ok (r.setHeader "x-correlation-id" correlationId), t)
  | (.error _, t) =>
    let r : HttpResponse := ⟨500, [], .obj [("detail", .str "Internal Server Error"),
      ("correlation_id", .str correlationId)]⟩
    (.ok (r.setHeader "x-correlation-id" correlationId), t)

def prometheusMiddleware (serviceName : String) (callNext : Handler) : Handler := fun ctx req t =>
  let labels : EndpointLabels := ⟨serviceName, req.method, req.path⟩
  match callNext ctx req t with
  | (.ok r, t) => (.ok r, t.record labels (toString r.status) (500 ≤ r.status))
  | (.error e, t) => (.error e, t.record labels "500" true)

inductive Middleware where
  | securityHeaders
  | tenantContext
  | correlationId
  | prometheus (serviceName : String)

def Middleware.dispatch (uuid4 : String) : Middleware → Handler → Handler
  | .securityHeaders => securityHeadersMiddleware
  | .tenantContext => tenantContextMiddleware
  | .correlationId => correlationIdMiddleware uuid4
  | .prometheus serviceName => prometheusMiddleware serviceName

/-! ## Services -/

/-- A `main.py`: its middleware in the order of the calls of `add_middleware`. -/
structure Service where
  name : String
  tenantScoped : Bool

def Service.middleware (s : Service) : List Middleware :=
  .securityHeaders :: ((if s.tenantScoped then [.tenantContext] else []) ++
    [.correlationId, .prometheus s.name])

def authService : Service := ⟨"auth-service", false⟩
def catalogService : Service := ⟨"catalog-service", true⟩
def inventoryService : Service := ⟨"inventory-service", false⟩
def notificationService : Service := ⟨"notification-service", false⟩
def orderService : Service := ⟨"order-service", true⟩
def paymentService : Service := ⟨"payment-service", true⟩

/-- What is added last is outermost. -/
def Service.stack (s : Service) (uuid4 : String) (app : Context → HttpRequest → RouteOutcome) :
    Handler :=
  s.middleware.foldl (fun callNext m => m.dispatch uuid4 callNext) (routes app)

/-- The response as it leaves `ServerErrorMiddleware`. -/
def Service.respond (s : Service) (uuid4 : String) (app : Context → HttpRequest → RouteOutcome)
    (req : HttpRequest) (t : Telemetry) : HttpResponse × Telemetry :=
  match s.stack uuid4 app {} req t with
  | (.ok r, t) => (r, t)
  | (.error _, t) => (genericExceptionHandler {}, t)

/-! ## Header fields -/

theorem lookup_setHeader_self (hs : Headers) (name value : String) :
    (setHeader hs name value).lookup name = some value := by
  induction hs with
  | nil => simp [setHeader]
  | cons h hs ih =>
    unfold setHeader
    split
    · simp
    · next hne => rw [List.lookup_cons, beq_false_of_ne (Ne.symm hne), ih]

theorem lookup_filter_ne {name name' : String} (h : name' ≠ name) (hs : Headers) :
    (hs.filter (·.1 ≠ name)).lookup name' = hs.lookup name' := by
  induction hs with
  | nil => rfl
  | cons k hs ih =>
    by_cases hk : k.1 = name
    · rw [List.filter_cons_of_neg (by simp [hk]), ih, List.lookup_cons,
        beq_false_of_ne (fun e => h (e.trans hk))]
    · rw [List.filter_cons_of_pos (by simp [hk]), List.lookup_cons, List.lookup_cons, ih]

theorem lookup_setHeader_of_ne {name name' : String} (h : name' ≠ name) (hs : Headers)
    (value : String) : (setHeader hs name value).lookup name' = hs.lookup name' := by
  induction hs with
  | nil => rw [setHeader, List.lookup_cons, beq_false_of_ne h]
  | cons k hs ih =>
    unfold setHeader
    split
    · next hk =>
      rw [List.lookup_cons, beq_false_of_ne h, lookup_filter_ne h, List.lookup_cons,
        beq_false_of_ne (fun e => h (e.trans hk))]
    · rw [List.lookup_cons, List.lookup_cons, ih]

@[simp] theorem header_setHeader_self (r : HttpResponse) (name value : String) :
    (r.setHeader name value).header name = some value :=
  lookup_setHeader_self r.headers name value

theorem header_setHeader_of_ne {name name' : String} (h : name' ≠ name) (r : HttpResponse)
    (value : String) : (r.setHeader name value).header name' = r.header name' :=
  lookup_setHeader_of_ne h r.headers value

@[simp] theorem status_setHeader (r : HttpResponse) (name value : String) :
    (r.setHeader name value).status = r.status := rfl

@[simp] theorem body_setHeader (r : HttpResponse) (name value : String) :
    (r.setHeader name value).body = r.body := rfl

theorem status_setHeaders (r : HttpResponse) (hs : Headers) :
    (r.setHeaders hs).status = r.status ∧ (r.setHeaders hs).body = r.body := by
  induction hs generalizing r with
  | nil => exact ⟨rfl, rfl⟩
  | cons h hs ih => exact ih (r.setHeader h.1 h.2)

theorem header_setHeaders_of_notMem {hs : Headers} {name : String} (h : ∀ k ∈ hs, name ≠ k.1)
    (r : HttpResponse) : (r.setHeaders hs).header name = r.header name := by
  induction hs generalizing r with
  | nil => rfl
  | cons k hs ih =>
    have hne := h k List.mem_cons_self
    exact (ih (fun l hl => h l (List.mem_cons_of_mem _ hl)) _).trans
      (header_setHeader_of_ne hne r k.2)

/-- Fields of different names are all set. -/
theorem header_setHeaders_of_mem {hs : Headers} (hnames : (hs.map (·.1)).Nodup)
    {k : String × String}
    (hk : k ∈ hs) (r : HttpResponse) : (r.setHeaders hs).header k.1 = some k.2 := by
  induction hs generalizing r with
  | nil => cases hk
  | cons l hs ih =>
    obtain ⟨hnotMem, hnodup⟩ := List.nodup_cons.mp hnames
    rcases List.mem_cons.mp hk with rfl | hk
    · have hother : ∀ m ∈ hs, k.1 ≠ m.1 :=
        fun m hm he => hnotMem (List.mem_map.mpr ⟨m, hm, he.symm⟩)
      exact (header_setHeaders_of_notMem hother (r.setHeader k.1 k.2)).trans
        (header_setHeader_self r k.1 k.2)
    · exact ih hnodup hk _

/-! ## One request -/

/-- What the routes find in their context. -/
def Service.context (s : Service) (uuid4 : String) (req : HttpRequest) : Context :=
  let bound := [("correlation_id", correlationIdOf uuid4 req), ("path", req.path),
    ("method", req.method), ("client_host", req.client.getD "unknown")]
  if s.tenantScoped then
    ⟨("tenant_id", tenantOf req) :: bound, tenantOf req, some (tenantOf req)⟩
  else { bound }

/-- What the middleware makes of a response. -/
def Service.outgoing (s : Service) (uuid4 : String) (req : HttpRequest) (r : HttpResponse) :
    HttpResponse :=
  let r := r.setHeaders securityHeaders
  let r := if s.tenantScoped then r.setHeader "x-tenant-id" (tenantOf req) else r
  r.setHeader "x-correlation-id" (correlationIdOf uuid4 req)

/-- The response to an exception that has no handler. -/
def unhandledResponse (correlationId : String) : HttpResponse :=
  ⟨500, [("x-correlation-id", correlationId)], .obj [("detail", .str "Internal Server Error"),
    ("correlation_id", .str correlationId)]⟩

section Respond

variable (s : Service) (uuid4 : String) (app : Context → HttpRequest → RouteOutcome)
  (req : HttpRequest) (t : Telemetry)

def Service.labels : EndpointLabels := ⟨s.name, req.method, req.path⟩

theorem correlationId_context :
    (s.context uuid4 req).correlationId = correlationIdOf uuid4 req := by
  unfold Service.context Context.correlationId
  split <;> simp [List.lookup_cons]

theorem status_outgoing (r : HttpResponse) : (s.outgoing uuid4 req r).status = r.status ∧
    (s.outgoing uuid4 req r).body = r.body := by
  unfold Service.outgoing
  split
  · exact status_setHeaders r securityHeaders
  · exact status_setHeaders r securityHeaders

theorem stack_handled {r : HttpResponse}
    (h : handled (s.context uuid4 req) (app (s.context uuid4 req) req) = some r) :
    s.stack uuid4 app {} req t =
      (.ok (s.outgoing uuid4 req r), t.record (s.labels req) (toString r.status)
        (500 ≤ r.status)) := by
  obtain ⟨name, tenantScoped⟩ := s
  have hstatus := (status_outgoing ⟨name, tenantScoped⟩ uuid4 req r).1
  cases tenantScoped <;>
  · simp only [Service.context, if_true, if_false, Bool.false_eq_true] at h
    simp only [Service.outgoing, if_true, if_false, Bool.false_eq_true] at hstatus
    simp only [Service.stack, Service.middleware, if_true, if_false, Bool.false_eq_true,
      List.nil_append, List.cons_append, List.foldl_cons, List.foldl_nil, Middleware.dispatch,
      prometheusMiddleware, correlationIdMiddleware, tenantContextMiddleware,
      securityHeadersMiddleware, routes, h, Service.outgoing, Service.labels, hstatus]

theorem stack_exception
    (h : handled (s.context uuid4 req) (app (s.context uuid4 req) req) = none) :
    s.stack uuid4 app {} req t =
      (.ok (unhandledResponse (correlationIdOf uuid4 req)),
        t.record (s.labels req) "500" true) := by
  obtain ⟨name, tenantScoped⟩ := s
  obtain ⟨text, htext⟩ : ∃ text, app (Service.context ⟨name, tenantScoped⟩ uuid4 req) req =
      .exception text := by
    cases happ : app (Service.context ⟨name, tenantScoped⟩ uuid4 req) req with
    | exception text => exact ⟨text, rfl⟩
    | _ => simp [happ, handled] at h
  cases tenantScoped <;>
  · simp only [Service.context, if_true, if_false, Bool.false_eq_true] at htext
    simp only [Service.stack, Service.middleware, if_true, if_false, Bool.false_eq_true,
      List.nil_append, List.cons_append, List.foldl_cons, List.foldl_nil, Middleware.dispatch,
      prometheusMiddleware, correlationIdMiddleware, tenantContextMiddleware,
      securityHeadersMiddleware, routes, handled, htext, unhandledResponse, Service.labels,
      HttpResponse.setHeader, setHeader]
    rfl

/-- What leaves the service, and its mark in the counters. -/
theorem respond_eq :
    (s.respond uuid4 app req t).1 =
        (match handled (s.context uuid4 req) (app (s.context uuid4 req) req) with
        | some r => s.outgoing uuid4 req r
        | none => unhandledResponse (correlationIdOf uuid4 req)) ∧
      (s.respond uuid4 app req t).2 = t.record (s.labels req)
        (toString (s.respond uuid4 app req t).1.status)
        (500 ≤ (s.respond uuid4 app req t).1.status) := by
  cases h : handled (s.context uuid4 req) (app (s.context uuid4 req) req) with
  | some r =>
    have hstatus := (status_outgoing s uuid4 req r).1
    simp only [Service.respond, stack_handled s uuid4 app req t h, hstatus, true_and]
  | none =>
    have htext : toString (unhandledResponse (correlationIdOf uuid4 req)).status = "500" :=
      (by decide : toString 500 = "500")
    have hfailed : decide (500 ≤ (unhandledResponse (correlationIdOf uuid4 req)).status) = true :=
      decide_eq_true (le_refl 500)
    simp only [Service.respond, stack_exception s uuid4 app req t h, htext, hfailed, and_self]

theorem securityHeaders_names :
    (∀ h ∈ securityHeaders, h.1 ≠ "x-correlation-id") ∧
      (∀ h ∈ securityHeaders, h.1 ≠ "x-tenant-id") ∧ (securityHeaders.map (·.1)).Nodup := by
  decide

/-- The correlation id is on every response, and in the body of every domain error; the security
    headers are on the responses to all but the exceptions that have no handler. -/
theorem respond_spec :
    (s.respond uuid4 app req t).1.header "x-correlation-id" = some (correlationIdOf uuid4 req) ∧
      ((∀ h ∈ securityHeaders, (s.respond uuid4 app req t).1.header h.1 = some h.2) ↔
        ∀ text, app (s.context uuid4 req) req ≠ .exception text) ∧
      (s.tenantScoped = true → (∀ text, app (s.context uuid4 req) req ≠ .exception text) →
        (s.respond uuid4 app req t).1.header "x-tenant-id" = some (tenantOf req)) ∧
      ∀ exc, app (s.context uuid4 req) req = .domain exc →
        (s.respond uuid4 app req t).1.status = exc.statusCode ∧
          (s.respond uuid4 app req t).1.body =
            errorBody exc.code exc.message (correlationIdOf uuid4 req) := by
  set r := (s.respond uuid4 app req t).1
  set outcome := app (s.context uuid4 req) req
  cases houtcome : handled (s.context uuid4 req) outcome with
  | some r' =>
    have hr : r = s.outgoing uuid4 req r' :=
      (respond_eq s uuid4 app req t).1.trans (by rw [houtcome])
    have hnot : ∀ text, outcome ≠ .exception text := by
      intro text he
      rw [he] at houtcome
      cases houtcome
    refine ⟨hr ▸ header_setHeader_self _ _ _, iff_of_true ?_ hnot, ?_, ?_⟩
    · intro h hh
      have hcorrelation : h.1 ≠ "x-correlation-id" := securityHeaders_names.1 h hh
      rw [hr, Service.outgoing, header_setHeader_of_ne hcorrelation]
      split
      · rw [header_setHeader_of_ne (securityHeaders_names.2.1 h hh)]
        exact header_setHeaders_of_mem securityHeaders_names.2.2 hh r'
      · exact header_setHeaders_of_mem securityHeaders_names.2.2 hh r'
    · intro htenant _
      rw [hr, Service.outgoing, header_setHeader_of_ne (by decide), if_pos htenant,
        header_setHeader_self]
    · intro exc he
      rw [he] at houtcome
      obtain rfl := Option.some.inj houtcome
      rw [hr]
      refine (status_outgoing s uuid4 req _).imp id fun h => h.trans ?_
      rw [cloudscaleExceptionHandler, correlationId_context]
  | none =>
    have hr : r = unhandledResponse (correlationIdOf uuid4 req) :=
      (respond_eq s uuid4 app req t).1.trans (by rw [houtcome])
    obtain ⟨text, htext⟩ : ∃ text, outcome = .exception text := by
      cases h : outcome with
      | exception text => exact ⟨text, rfl⟩
      | _ => simp [h, handled] at houtcome
    refine ⟨hr ▸ rfl, iff_of_false (fun h => ?_) (fun h => h text htext),
      fun _ h => absurd htext (h text), fun exc he => by rw [he] at htext; cases htext⟩
    have hfirst := h ("x-content-type-options", "nosniff") List.mem_cons_self
    rw [hr] at hfirst
    simp [unhandledResponse, HttpResponse.header, List.lookup_cons] at hfirst

end Respond

/-! ## Runs -/

/-- A request, the id it gets if it brings none, and what the routes do with it. -/
structure Exchange where
  request : HttpRequest
  uuid4 : String
  app : Context → HttpRequest → RouteOutcome

/-- The responses of a run, each with its request. -/
def Service.serve (s : Service) : List Exchange → Telemetry →
    List (HttpRequest × HttpResponse) × Telemetry
  | [], t => ([], t)
  | x :: xs, t =>
    let (r, t) := s.respond x.uuid4 x.app x.request t
    let (rs, t) := s.serve xs t
    ((x.request, r) :: rs, t)

/-- A response under these labels. -/
def Service.isAt (s : Service) (l : EndpointLabels) (p : HttpRequest × HttpResponse) : Bool :=
  s.labels p.1 = l

theorem inc_apply {L : Type} [DecidableEq L] (counter : L → ℕ) (labels l : L) :
    inc counter labels l = counter l + if labels = l then 1 else 0 := by
  unfold inc
  by_cases h : l = labels
  · rw [if_pos h, if_pos h.symm]
  · rw [if_neg h, if_neg (Ne.symm h), Nat.add_zero]

theorem telemetry_run (s : Service) (xs : List Exchange) (t : Telemetry) (l : EndpointLabels)
    (status : String) :
    (s.serve xs t).2.requestCount ⟨l, status⟩ = t.requestCount ⟨l, status⟩ +
        (s.serve xs t).1.countP (fun p => s.isAt l p && toString p.2.status = status) ∧
      (s.serve xs t).2.requestLatency l =
        t.requestLatency l + (s.serve xs t).1.countP (s.isAt l) ∧
      (s.serve xs t).2.requestErrors l = t.requestErrors l +
        (s.serve xs t).1.countP (fun p => s.isAt l p && 500 ≤ p.2.status) := by
  induction xs generalizing t with
  | nil => simp [Service.serve]
  | cons x xs ih =>
    have hrecord := (respond_eq s x.uuid4 x.app x.request t).2
    obtain ⟨hcount, hlatency, herrors⟩ := ih (s.respond x.uuid4 x.app x.request t).2
    simp only [Service.serve, List.countP_cons]
    generalize s.respond x.uuid4 x.app x.request t = answer at *
    rw [hcount, hlatency, herrors, hrecord]
    have hlabels : (⟨s.labels x.request, toString answer.1.status⟩ : RequestLabels) = ⟨l, status⟩ ↔
        s.labels x.request = l ∧ toString answer.1.status = status := by
      rw [RequestLabels.mk.injEq]
    refine ⟨?_, ?_, ?_⟩
    · simp only [Telemetry.record, inc_apply, hlabels, Service.isAt, Bool.and_eq_true,
        decide_eq_true_eq]
      omega
    · simp only [Telemetry.record, inc_apply, Service.isAt, decide_eq_true_eq]
      omega
    · by_cases hfailed : 500 ≤ answer.1.status
      · simp only [Telemetry.record, hfailed, decide_true, if_true, inc_apply, Service.isAt,
          Bool.and_true, decide_eq_true_eq]
        omega
      · simp [Telemetry.record, hfailed, Service.isAt]

end CloudScale.Platform
