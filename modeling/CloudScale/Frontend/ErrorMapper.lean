/-
  What a page says of a request that failed (`lib/errorMapper.ts` and the `catch` blocks of the
  pages).

  axios rejects a response outside 200 to 299, and its message names the status. The interceptor of
  `api-client.ts` rejects the call with `mapAPIError` of that error, or with the error itself where
  a token refresh was due and there is no token for it. A refresh that fails rejects the call it was
  made for with `mapAPIError` of its own error and what is queued with that error itself
  (`rejections`). Either way `mapAPIError` and the pages look for `data.detail`, which only the
  framework's own errors have: those of `exceptions.py` are under `data.error`.

  `shown_of_status`: of a domain or validation error no page shows more than its status tells, and
  whether it passed the mapper.
-/
import CloudScale.Frontend.ApiClient
import CloudScale.Platform.RequestPipeline

namespace CloudScale.Frontend

open CloudScale.Lib CloudScale.Shared CloudScale.Platform

/-- `AxiosError`; without a response the network failed. -/
structure AxiosError where
  response : Option HttpResponse
  message : String

/-- What axios makes of a response; `none`: it resolves. -/
def axiosError (r : HttpResponse) : Option AxiosError :=
  if 200 ≤ r.status ∧ r.status < 300 then none
  else some ⟨some r, "Request failed with status code " ++ toString r.status⟩

/-- `data?.detail` -/
def detail (r : HttpResponse) : Option Json :=
  match r.body with
  | .obj d => d.lookup "detail"
  | _ => none

theorem axiosError_response {r : HttpResponse} {error : AxiosError}
    (h : axiosError r = some error) :
    error.response = some r := by
  unfold axiosError at h
  split at h
  · cases h
  · rw [← Option.some.inj h]

structure SystemError where
  code : String
  message : String
  detail : Option Json := none
  status : Option ℕ := none

/-- The code and the message of a status; `none`: the `default` of the switch. -/
def statusError : ℕ → Option (String × String)
  | 400 => some ("BAD_REQUEST", "The request payload parameters are invalid or corrupted.")
  | 401 => some ("UNAUTHORIZED", "Your login session has expired. Please sign in again.")
  | 403 => some ("FORBIDDEN",
      "You do not have administrative privileges to perform this operation.")
  | 404 => some ("NOT_FOUND", "The requested resource record could not be found.")
  | 422 => some ("UNPROCESSABLE_ENTITY", "Field validation failed. Please check input formats.")
  | 429 => some ("TOO_MANY_REQUESTS", "Rate limit threshold exceeded. Please retry shortly.")
  | 500 | 502 | 503 | 504 => some ("SERVER_ERROR",
      "A central microservice error occurred. Our engineers have been alerted.")
  | _ => none

/-- `a || b` of texts. -/
def orElse (a b : String) : String := if a = "" then b else a

def mapAPIError (error : AxiosError) : SystemError :=
  match error.response.bind fun r => (statusError r.status).map fun e => (r, e) with
  | some (r, (code, message)) => ⟨code, message, detail r, some r.status⟩
  | none =>
    { code := "UNKNOWN_ERROR"
      message := orElse error.message "An unexpected network communication error occurred." }

/-- What a call of `apiClient` rejects with. -/
inductive Rejection where
  | raw (error : AxiosError)
  | mapped (error : SystemError)

/-- `err.response?.data?.detail`; a `SystemError` has no `response`. -/
def Rejection.detail : Rejection → Option Json
  | .raw error => error.response.bind Frontend.detail
  | .mapped _ => none

def Rejection.message : Rejection → String
  | .raw error => error.message
  | .mapped error => error.message

def Rejection.isMapped : Rejection → Bool
  | .raw _ => false
  | .mapped _ => true

/-- The rejection is for this error. -/
def Rejection.IsOf (error : AxiosError) (err : Rejection) : Prop :=
  err = .raw error ∨ err = .mapped (mapAPIError error)

/-! ## The response interceptor -/

def AxiosError.status (error : AxiosError) : Option ℕ := error.response.map (·.status)

/-- What the interceptor rejects a call with when an error comes; `none`: it waits for a refresh. -/
def Client.rejection (c : Client) (a : Attempt) (error : AxiosError) : Option Rejection :=
  if error.status = some 401 ∧ a.retry = false then
    if c.isRefreshing then none
    else
      match truthy c.store.refreshToken with
      | none => some (.raw error)
      | some _ => none
  else some (.mapped (mapAPIError error))

/-- The calls that a step rejects for an error: that of the response, or of the refresh POST. -/
def Client.rejections (c : Client) (error : AxiosError) : Label → List (Attempt × Rejection)
  | .respond i _ =>
    match c.inFlight[i]? with
    | some a => ((c.rejection a error).map fun err => (a, err)).toList
    | none => []
  | .refreshFailed i =>
    match c.refreshes[i]? with
    | some a =>
      c.failedQueue.map (fun queued => (queued, .raw error)) ++ [(a, .mapped (mapAPIError error))]
    | none => []
  | _ => []

/-- The step is one at which this error comes. -/
def Label.Throws (error : AxiosError) : Label → Prop
  | .respond _ (.error status) => status = error.status
  | .refreshFailed _ => True
  | _ => False

def rejectedIds (log : List Event) : List ℕ :=
  log.filterMap fun
    | .rejected id => some id
    | _ => none

section Interceptor

variable {c c' : Client} {a : Attempt} {l : Label} {error : AxiosError}

theorem rejected_onError (c : Client) (a : Attempt) (error : AxiosError) :
    rejectedIds (c.onError a error.status).log =
      ((c.rejection a error).map fun _ => a.id).toList ++ rejectedIds c.log := by
  unfold Client.onError Client.rejection
  split
  · split
    · rfl
    · dsimp only
      cases truthy c.store.refreshToken with
      | none => rfl
      | some token => rfl
  · rfl

theorem rejected_releases (queue : List Attempt) (c : Client) :
    rejectedIds (queue.foldl (Client.release none) c).log =
      (queue.map (·.id)).reverse ++ rejectedIds c.log := by
  induction queue generalizing c with
  | nil => rfl
  | cons a queue ih =>
    rw [List.foldl_cons, ih, List.map_cons, List.reverse_cons, List.append_assoc]
    rfl

/-- The rejections are those that the client makes. -/
theorem rejected_step (h : step c l = some c') (hl : l.Throws error) :
    rejectedIds c'.log = ((c.rejections error l).map (·.1.id)).reverse ++ rejectedIds c.log := by
  cases l with
  | respond i response =>
    obtain ⟨a, ha, rfl⟩ := Option.map_eq_some_iff.mp h
    cases response with
    | fulfilled => cases hl
    | error status =>
      obtain rfl : status = error.status := hl
      have hlog : rejectedIds ({ c with inFlight := c.inFlight.eraseIdx i }.receive a
          (.error error.status)).log =
          ((c.rejection a error).map fun _ => a.id).toList ++ rejectedIds c.log := by
        unfold Client.receive
        dsimp only
        split
        · exact rejected_onError _ a error
        · exact rejected_onError _ a error
      rw [hlog]
      simp only [Client.rejections, ha]
      cases c.rejection a error with
      | none => rfl
      | some err => rfl
  | refreshFailed i =>
    obtain ⟨a, ha, rfl⟩ := Option.map_eq_some_iff.mp h
    simp only [Client.rejections, ha, List.map_append, List.map_map, List.reverse_append]
    exact congrArg (a.id :: ·) (rejected_releases c.failedQueue _)
  | _ => cases hl

/-- What a call is rejected with is the error, and not through the mapper where there is no token to
    refresh with or for what waits. -/
theorem rejections_spec {x : Attempt × Rejection} (hx : x ∈ c.rejections error l) :
    x.2.IsOf error ∧ (x.2.isMapped = false →
      (∃ i, l = .refreshFailed i ∧ x.1 ∈ c.failedQueue) ∨
        ∃ i status, l = .respond i status ∧ error.status = some 401 ∧ x.1.retry = false ∧
          truthy c.store.refreshToken = none) := by
  cases l with
  | respond i status =>
    simp only [Client.rejections] at hx
    split at hx
    · next a ha =>
      obtain ⟨err, herr, rfl⟩ := by simpa using hx
      unfold Client.rejection at herr
      split at herr
      · next hunauthorized =>
        split at herr
        · cases herr
        · split at herr
          · next hnone =>
            obtain rfl := Option.some.inj herr
            exact ⟨.inl rfl, fun _ => .inr ⟨i, status, rfl, hunauthorized.1,
              hunauthorized.2, hnone⟩⟩
          · cases herr
      · obtain rfl := Option.some.inj herr
        exact ⟨.inr rfl, fun hraw => by cases hraw⟩
    · cases hx
  | refreshFailed i =>
    simp only [Client.rejections] at hx
    split at hx
    · rcases List.mem_append.mp hx with hqueued | hlast
      · obtain ⟨a, ha, rfl⟩ := List.mem_map.mp hqueued
        exact ⟨.inl rfl, fun _ => .inl ⟨i, rfl, ha⟩⟩
      · obtain rfl := List.mem_singleton.mp hlast
        exact ⟨.inr rfl, fun hraw => by cases hraw⟩
    · cases hx
  | _ => cases hx

end Interceptor

def truthyJson : Json → Bool
  | .null => false
  | .bool b => b
  | .int n => n ≠ 0
  | .float (.finite q) => q ≠ 0
  | .float (.inf _) => true
  | .float .nan => false
  | .str s => s ≠ ""
  | .arr _ => true
  | .obj _ => true

/-- `err.response?.data?.detail || text` -/
def detailOr (err : Rejection) (text : String) : Json :=
  match err.detail with
  | some d => if truthyJson d then d else .str text
  | none => .str text

/-- The sign-in form of `Login.tsx`. -/
def loginError (err : Rejection) : Json := detailOr err "Invalid email or password."

def checkoutError (err : Rejection) : Json :=
  detailOr err (orElse err.message "Failed to process order checkout. Try again.")

/-- The bulk import of `Catalog.tsx`. -/
def bulkImportError (err : Rejection) : Json :=
  detailOr err (orElse err.message "Failed to bulk import products.")

/-! ## Errors of the services -/

/-- What the routes raise of `exceptions.py`, and its status. -/
def raised : RouteOutcome → Option ℕ
  | .domain exc => some exc.statusCode
  | .validation _ => some 400
  | _ => none

/-- The message of the rejection, which the status determines. -/
def statusMessage (asMapped : Bool) (status : ℕ) : String :=
  let plain := "Request failed with status code " ++ toString status
  if asMapped then ((statusError status).map (·.2)).getD plain else plain

theorem handled_raised (ctx : Context) {outcome : RouteOutcome} {status : ℕ}
    (h : raised outcome = some status) :
    ∃ r code message, handled ctx outcome = some r ∧ r.status = status ∧
      r.body = errorBody code message ctx.correlationId := by
  cases outcome with
  | domain exc =>
    obtain rfl := Option.some.inj h
    exact ⟨_, _, _, rfl, rfl, rfl⟩
  | validation errors =>
    obtain rfl := Option.some.inj h
    exact ⟨_, _, _, rfl, rfl, rfl⟩
  | _ => cases h

/-- The response to an error of `exceptions.py`. -/
theorem respond_raised (s : Service) (uuid4 : String) (app : Context → HttpRequest → RouteOutcome)
    (req : HttpRequest) (t : Telemetry) {status : ℕ}
    (h : raised (app (s.context uuid4 req) req) = some status) :
    (s.respond uuid4 app req t).1.status = status ∧
      detail (s.respond uuid4 app req t).1 = none := by
  obtain ⟨r, code, message, hr, hstatus, hbody⟩ := handled_raised (s.context uuid4 req) h
  have heq : (s.respond uuid4 app req t).1 = s.outgoing uuid4 req r :=
    (respond_eq s uuid4 app req t).1.trans (by rw [hr])
  obtain ⟨hsame, hsameBody⟩ := status_outgoing s uuid4 req r
  refine ⟨by rw [heq, hsame, hstatus], ?_⟩
  rw [heq, detail, hsameBody, hbody]
  rfl

theorem message_ne (status : ℕ) : "Request failed with status code " ++ toString status ≠ "" := by
  intro h
  have hlen := congrArg String.length h
  rw [String.length_append] at hlen
  simp at hlen

theorem message_of {r : HttpResponse} {error : AxiosError} {err : Rejection}
    (h : axiosError r = some error) (herr : err.IsOf error) :
    err.message = statusMessage err.isMapped r.status := by
  unfold axiosError at h
  split at h
  · cases h
  · obtain rfl := Option.some.inj h
    rcases herr with rfl | rfl
    · rfl
    · simp only [Rejection.message, mapAPIError, Option.bind_some, statusMessage,
        Rejection.isMapped, if_true]
      cases statusError r.status with
      | some e => rfl
      | none =>
        simp only [Option.map_none, orElse, if_neg (message_ne r.status)]
        rfl

theorem detail_of {r : HttpResponse} {error : AxiosError} {err : Rejection}
    (h : axiosError r = some error) (hdetail : detail r = none) (herr : err.IsOf error) :
    err.detail = none := by
  rcases herr with rfl | rfl
  · rw [Rejection.detail, axiosError_response h]
    exact hdetail
  · rfl

/-- The texts for a rejection whose error is one of `exceptions.py`. -/
structure Shown (status : ℕ) (err : Rejection) : Prop where
  login : loginError err = .str "Invalid email or password."
  checkout : checkoutError err = .str (orElse (statusMessage err.isMapped status)
    "Failed to process order checkout. Try again.")
  bulkImport : bulkImportError err = .str (orElse (statusMessage err.isMapped status)
    "Failed to bulk import products.")

theorem shown_of {r : HttpResponse} {error : AxiosError} {err : Rejection}
    (h : axiosError r = some error) (hdetail : detail r = none) (herr : err.IsOf error) :
    Shown r.status err := by
  have hnone := detail_of h hdetail herr
  have hmessage := message_of h herr
  constructor <;> simp only [loginError, checkoutError, bulkImportError, detailOr, hnone, hmessage]

/-- Whatever the code and the message of an error of a service, as the answer to a call or to a
    token refresh: the calls that the client rejects for it show what the status and the way of the
    rejection determine, and the sign-in form one thing. The way is past the mapper for a call that
    waited for the refresh, and for a 401 without a token to refresh with. -/
theorem shown_of_status (s : Service) (uuid4 : String) (app : Context → HttpRequest → RouteOutcome)
    (req : HttpRequest) (t : Telemetry) {status : ℕ} {error : AxiosError}
    (h : raised (app (s.context uuid4 req) req) = some status)
    (herror : axiosError (s.respond uuid4 app req t).1 = some error)
    {c c' : Client} {l : Label} (hstep : step c l = some c') (hl : l.Throws error) :
    rejectedIds c'.log =
        ((c.rejections error l).map fun x => x.1.id).reverse ++ rejectedIds c.log ∧
      ∀ x ∈ c.rejections error l, Shown status x.2 ∧ (x.2.isMapped = false →
        (∃ i, l = .refreshFailed i ∧ x.1 ∈ c.failedQueue) ∨
          status = 401 ∧ x.1.retry = false ∧ truthy c.store.refreshToken = none) := by
  obtain ⟨hstatus, hdetail⟩ := respond_raised s uuid4 app req t h
  refine ⟨rejected_step hstep hl, fun x hx => ?_⟩
  obtain ⟨herr, hway⟩ := rejections_spec hx
  refine ⟨hstatus ▸ shown_of herror hdetail herr, fun hraw => (hway hraw).imp_right ?_⟩
  rintro ⟨i, _, -, hunauthorized, hretry, hnone⟩
  rw [AxiosError.status, axiosError_response herror] at hunauthorized
  exact ⟨hstatus.symm.trans (Option.some.inj hunauthorized), hretry, hnone⟩

/-- A visitor who signs in: no tokens, and the request in flight. -/
def signingIn : Client :=
  { Client.init {} with inFlight := [⟨0, false, none⟩], next := 1 }

/-- Wrong credentials, at the sign-in form. -/
theorem shown_of_credentials : ∃ error,
    axiosError (authService.respond "d3b07384"
      (fun _ _ => .domain (unauthorizedException "Incorrect email or password"))
      ⟨"POST", "/api/v1/auth/login", [], none⟩ ⟨fun _ => 0, fun _ => 0, fun _ => 0⟩).1 =
        some error ∧
      signingIn.rejections error (.respond 0 (.error (some 401))) =
        [(⟨0, false, none⟩, .raw error)] ∧
      loginError (.raw error) = .str "Invalid email or password." := by
  refine ⟨_, rfl, rfl, ?_⟩
  exact ((shown_of_status authService "d3b07384"
    (fun _ _ => .domain (unauthorizedException "Incorrect email or password"))
    ⟨"POST", "/api/v1/auth/login", [], none⟩ ⟨fun _ => 0, fun _ => 0, fun _ => 0⟩ rfl rfl
    (c := signingIn) (l := .respond 0 (.error (some 401))) rfl rfl).2 _
    (List.mem_singleton.mpr rfl)).1.login

end CloudScale.Frontend
