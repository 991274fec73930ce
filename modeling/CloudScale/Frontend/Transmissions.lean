/-
  What the client puts on the wire (`lib/api-client.ts`, `stores/tenantStore.ts`).

  `ApiClient` is `Client` with whole request configurations: a page makes a call, every attempt to
  send it goes through the request interceptor, and what leaves is noted in `wire`, latest first.
  `call` and `madeUnder` say which call of a page an attempt belongs to and which tenant was active
  when the page made it; the code has neither.

  `erase_step`: without the headers it is `Client`. `calls_run`: every call is at one place, to be
  sent, in flight, waiting for a refresh or answered.
-/
import CloudScale.Frontend.ApiClient
import Mathlib.Data.List.Nodup
import Mathlib.Data.List.Perm.Basic

namespace CloudScale.Frontend.Transmissions

open CloudScale.Lib

/-! ## Requests -/

inductive Method where
  | get
  | head
  | options
  | post
  | put
  | patch
  | delete
deriving DecidableEq

/-- `mutatingMethods.includes(config.method.toLowerCase())` -/
def Method.mutating : Method → Bool
  | .post | .put | .patch | .delete => true
  | .get | .head | .options => false

structure Headers where
  authorization : Option String := none
  correlationId : Option String := none
  csrfToken : Option String := none
  tenantId : Option String := none
  idempotencyKey : Option String := none
deriving DecidableEq

/-- One attempt to send a call. -/
structure RequestConfig where
  id : ℕ
  call : ℕ
  madeUnder : String
  method : Method
  headers : Headers
  retry : Bool
deriving DecidableEq

structure ApiClient where
  store : AuthState
  activeTenantId : String
  isRefreshing : Bool
  failedQueue : List RequestConfig
  created : List RequestConfig
  inFlight : List RequestConfig
  refreshes : List RequestConfig
  next : ℕ
  calls : ℕ
  settled : List ℕ
  wire : List RequestConfig
  log : List Event

def ApiClient.init (store : AuthState) (activeTenantId : String) : ApiClient :=
  { store, activeTenantId, isRefreshing := false, failedQueue := [], created := [], inFlight := []
    refreshes := [], next := 0, calls := 0, settled := [], wire := [], log := [] }

/-- A new call. -/
def ApiClient.request (c : ApiClient) (method : Method) : ApiClient :=
  { c with
    created := c.created ++ [⟨c.next, c.calls, c.activeTenantId, method, {}, false⟩]
    next := c.next + 1, calls := c.calls + 1 }

/-- `logout`, with its revocation request. -/
def ApiClient.logout (c : ApiClient) : ApiClient := { c.request .post with store := {} }

/-- The promise of the call is rejected. -/
def ApiClient.reject (c : ApiClient) (r : RequestConfig) : ApiClient :=
  { c with settled := r.call :: c.settled, log := .rejected r.id :: c.log }

/-- The next attempt, with the token. -/
def RequestConfig.again (r : RequestConfig) (id : ℕ) (token : String) : RequestConfig :=
  { r with id, headers := { r.headers with authorization := some ("Bearer " ++ token) } }

/-- `apiClient(originalRequest)` -/
def ApiClient.resend (c : ApiClient) (r : RequestConfig) (token : String) : ApiClient :=
  { c with
    created := c.created ++ [r.again c.next token], next := c.next + 1
    log := .resent r.id token :: c.log }

def ApiClient.release (token : Option String) (c : ApiClient) (r : RequestConfig) : ApiClient :=
  match truthy token with
  | some token => c.resend r token
  | none => c.reject r

def ApiClient.processQueue (c : ApiClient) (token : Option String) : ApiClient :=
  { c.failedQueue.foldl (ApiClient.release token) c with failedQueue := [] }

/-! ## Interceptors -/

/-- `getCSRFToken` -/
def getCSRFToken : String := "cloudscale-csrf-guard-v1"

/-- `crypto.randomUUID()` for a request that mutates and has no key. -/
def idempotencyKey (uuid : String) (r : RequestConfig) : Option String :=
  if r.method.mutating ∧ truthy r.headers.idempotencyKey = none then some uuid
  else r.headers.idempotencyKey

/-- The request interceptor; `correlationId` is that of the page load. -/
def ApiClient.onRequest (correlationId uuid : String) (c : ApiClient) (r : RequestConfig) :
    RequestConfig :=
  { r with headers := {
    authorization := match truthy c.store.accessToken with
      | some token => some ("Bearer " ++ token)
      | none => r.headers.authorization
    correlationId := some correlationId
    csrfToken := some getCSRFToken
    tenantId := some c.activeTenantId
    idempotencyKey := idempotencyKey uuid r } }

/-- The response interceptor for an error, up to the refresh POST. -/
def ApiClient.onError (c : ApiClient) (r : RequestConfig) (status : Option ℕ) : ApiClient :=
  if status = some 401 ∧ r.retry = false then
    if c.isRefreshing then { c with failedQueue := c.failedQueue ++ [r] }
    else
      let c := { c with isRefreshing := true }
      match truthy c.store.refreshToken with
      | none => c.logout.reject r
      | some _ => { c with refreshes := c.refreshes ++ [{ r with retry := true }] }
  else c.reject r

def ApiClient.onRefreshed (c : ApiClient) (r : RequestConfig) (data : RefreshData) : ApiClient :=
  let c := { c with
    store := setCredentials data.user data.accessToken data.refreshToken, isRefreshing := false }
  (c.processQueue (some data.accessToken)).resend r data.accessToken

def ApiClient.onRefreshError (c : ApiClient) (r : RequestConfig) : ApiClient :=
  let c := { c with isRefreshing := false }
  ((c.processQueue none).logout).reject r

/-! ## Steps -/

/-- As for `Client`; the interceptor may draw a UUID, and the visitor may switch the tenant. -/
inductive ApiLabel where
  | send (method : Method)
  | dispatch (i : ℕ) (uuid : String)
  | respond (i : ℕ) (response : Response)
  | refreshed (i : ℕ) (data : RefreshData)
  | refreshFailed (i : ℕ)
  | login (user : Option User) (accessToken refreshToken : String)
  | logout
  | switchTenant (tenantId : String)
deriving DecidableEq

def ApiClient.receive (c : ApiClient) (r : RequestConfig) : Response → ApiClient
  | .fulfilled => { c with settled := r.call :: c.settled }
  | .error status =>
    (if status = some 401 then { c with log := .unauthorized r.id :: c.log } else c).onError r
      status

def ApiClient.sent (c : ApiClient) (i : ℕ) (r : RequestConfig) : ApiClient :=
  { c with created := c.created.eraseIdx i, inFlight := c.inFlight ++ [r], wire := r :: c.wire }

def ApiClient.step (correlationId : String) (c : ApiClient) : ApiLabel → Option ApiClient
  | .send method => some (c.request method)
  | .dispatch i uuid => (c.created[i]?).map fun r => c.sent i (c.onRequest correlationId uuid r)
  | .respond i response => (c.inFlight[i]?).map fun r =>
    { c with inFlight := c.inFlight.eraseIdx i }.receive r response
  | .refreshed i data => (c.refreshes[i]?).map fun r =>
    { c with refreshes := c.refreshes.eraseIdx i }.onRefreshed r data
  | .refreshFailed i => (c.refreshes[i]?).map fun r =>
    { c with refreshes := c.refreshes.eraseIdx i }.onRefreshError r
  | .login user accessToken refreshToken =>
    some { c with store := setCredentials user accessToken refreshToken }
  | .logout => some c.logout
  | .switchTenant tenantId => some { c with activeTenantId := tenantId }

/-! ## Without the headers -/

def RequestConfig.attempt (r : RequestConfig) : Attempt := ⟨r.id, r.retry, r.headers.authorization⟩

def ApiClient.erase (c : ApiClient) : Client :=
  { store := c.store, isRefreshing := c.isRefreshing
    failedQueue := c.failedQueue.map RequestConfig.attempt
    created := c.created.map RequestConfig.attempt
    inFlight := c.inFlight.map RequestConfig.attempt
    refreshes := c.refreshes.map RequestConfig.attempt
    next := c.next, log := c.log }

/-- A switch of the tenant is none of `Client`'s steps. -/
def ApiLabel.erase : ApiLabel → Option Label
  | .send _ => some .send
  | .dispatch i _ => some (.dispatch i)
  | .respond i response => some (.respond i response)
  | .refreshed i data => some (.refreshed i data)
  | .refreshFailed i => some (.refreshFailed i)
  | .login user accessToken refreshToken => some (.login user accessToken refreshToken)
  | .logout => some .logout
  | .switchTenant _ => none

section Erasure

variable (c : ApiClient) (r : RequestConfig)

theorem erase_request (method : Method) :
    (c.request method).erase = c.erase.request false none := by
  simp [ApiClient.request, ApiClient.erase, Client.request, RequestConfig.attempt]

theorem erase_logout : c.logout.erase = c.erase.logout := by
  simp [ApiClient.logout, ApiClient.request, ApiClient.erase, Client.logout, Client.request,
    RequestConfig.attempt]

theorem erase_reject : (c.reject r).erase = c.erase.reject r.attempt := rfl

theorem erase_resend (token : String) :
    (c.resend r token).erase = c.erase.resend r.attempt token := by
  simp [ApiClient.resend, RequestConfig.again, ApiClient.erase, Client.resend, Client.request,
    RequestConfig.attempt]

theorem erase_release (token : Option String) :
    (c.release token r).erase = c.erase.release token r.attempt := by
  unfold ApiClient.release Client.release
  cases truthy token with
  | some token => exact erase_resend c r token
  | none => exact erase_reject c r

theorem erase_releases (token : Option String) (queue : List RequestConfig) (c : ApiClient) :
    (queue.foldl (ApiClient.release token) c).erase =
      (queue.map RequestConfig.attempt).foldl (Client.release token) c.erase := by
  induction queue generalizing c with
  | nil => rfl
  | cons r queue ih =>
    rw [List.foldl_cons, ih, erase_release]
    rfl

theorem erase_processQueue (token : Option String) :
    (c.processQueue token).erase = c.erase.processQueue token := by
  unfold ApiClient.processQueue Client.processQueue
  rw [show c.erase.failedQueue = c.failedQueue.map RequestConfig.attempt from rfl,
    ← erase_releases]
  rfl

theorem attempt_onRequest (correlationId uuid : String) :
    (c.onRequest correlationId uuid r).attempt = c.erase.onRequest r.attempt := by
  unfold ApiClient.onRequest Client.onRequest
  rw [show c.erase.store = c.store from rfl]
  cases truthy c.store.accessToken with
  | some token => rfl
  | none => rfl

theorem erase_onError (status : Option ℕ) :
    (c.onError r status).erase = c.erase.onError r.attempt status := by
  unfold ApiClient.onError Client.onError
  rw [show r.attempt.retry = r.retry from rfl, show c.erase.isRefreshing = c.isRefreshing from rfl,
    show c.erase.store = c.store from rfl]
  split
  · split
    · simp [ApiClient.erase]
    · dsimp only
      cases truthy c.store.refreshToken with
      | none =>
        rw [erase_reject, erase_logout]
        rfl
      | some token => simp [ApiClient.erase, RequestConfig.attempt]
  · rfl

theorem erase_receive (response : Response) :
    (c.receive r response).erase = c.erase.receive r.attempt response := by
  cases response with
  | fulfilled => rfl
  | error status =>
    unfold ApiClient.receive Client.receive
    dsimp only
    rw [erase_onError]
    split
    · rfl
    · rfl

theorem erase_onRefreshed (data : RefreshData) :
    (c.onRefreshed r data).erase = c.erase.onRefreshed r.attempt data := by
  unfold ApiClient.onRefreshed Client.onRefreshed
  dsimp only
  rw [erase_resend, erase_processQueue]
  rfl

theorem erase_onRefreshError : (c.onRefreshError r).erase = c.erase.onRefreshError r.attempt := by
  unfold ApiClient.onRefreshError Client.onRefreshError
  dsimp only
  rw [erase_reject, erase_logout, erase_processQueue]
  rfl

end Erasure

/-- Each step is one of `Client`, or leaves it as it is. -/
theorem erase_step {correlationId : String} {s t : ApiClient} {l : ApiLabel}
    (h : s.step correlationId l = some t) :
    runFrom step s.erase l.erase.toList = some t.erase := by
  have hsingle : ∀ l', step s.erase l' = some t.erase → runFrom step s.erase [l'] = some t.erase :=
    fun l' hl' => by simp [runFrom, hl']
  cases l with
  | send method =>
    obtain rfl := Option.some.inj h
    exact hsingle .send (congrArg some (erase_request s method).symm)
  | dispatch i uuid =>
    obtain ⟨r, hr, rfl⟩ := Option.map_eq_some_iff.mp h
    refine hsingle (.dispatch i) ?_
    simp [step, ApiClient.erase, hr, ApiClient.sent, List.eraseIdx_map, attempt_onRequest]
  | respond i response =>
    obtain ⟨r, hr, rfl⟩ := Option.map_eq_some_iff.mp h
    refine hsingle (.respond i response) ?_
    rw [erase_receive]
    simp [step, ApiClient.erase, hr, List.eraseIdx_map]
  | refreshed i data =>
    obtain ⟨r, hr, rfl⟩ := Option.map_eq_some_iff.mp h
    refine hsingle (.refreshed i data) ?_
    rw [erase_onRefreshed]
    simp [step, ApiClient.erase, hr, List.eraseIdx_map]
  | refreshFailed i =>
    obtain ⟨r, hr, rfl⟩ := Option.map_eq_some_iff.mp h
    refine hsingle (.refreshFailed i) ?_
    rw [erase_onRefreshError]
    simp [step, ApiClient.erase, hr, List.eraseIdx_map]
  | login user accessToken refreshToken =>
    obtain rfl := Option.some.inj h
    exact hsingle (.login user accessToken refreshToken) rfl
  | logout =>
    obtain rfl := Option.some.inj h
    exact hsingle .logout (congrArg some (erase_logout s).symm)
  | switchTenant tenantId =>
    obtain rfl := Option.some.inj h
    rfl

/-- Every run is one of `Client`. -/
theorem erase_run {correlationId : String} {ok : ApiClient → ApiLabel → Prop} {s t : ApiClient}
    {ls : List ApiLabel} (h : Reaches (ApiClient.step correlationId) ok s ls t) :
    runFrom step s.erase (ls.flatMap fun l => l.erase.toList) = some t.erase := by
  induction h with
  | start => rfl
  | next _ _ hs ih =>
    rw [List.flatMap_append]
    exact runFrom_trans ih (by simpa using erase_step hs)

/-! ## Where a call is -/

/-- What the calls are accounted by. -/
structure Ledger where
  created : List RequestConfig
  settled : List ℕ
  next : ℕ
  calls : ℕ
  wire : List RequestConfig
  log : List Event

def ApiClient.ledger (c : ApiClient) : Ledger :=
  { created := c.created, settled := c.settled, next := c.next, calls := c.calls, wire := c.wire
    log := c.log }

/-- The attempts that have left and are not answered to the page. -/
def ApiClient.away (c : ApiClient) : List RequestConfig :=
  c.inFlight ++ c.failedQueue ++ c.refreshes

/-- `hs` are the attempts in hand besides those to be sent. Each call is accounted for once; an
    attempt leaves once, and for the same call again only after a 401. -/
structure Accounted (L : Ledger) (hs : List RequestConfig) : Prop where
  calls : ((L.created ++ hs).map (·.call) ++ L.settled).Perm (List.range L.calls)
  wireCalls : ∀ y ∈ L.wire, y.call < L.calls
  ids : ((L.created ++ L.wire).map (·.id)).Nodup
  next : ∀ r ∈ L.created ++ L.wire, r.id < L.next
  created : ∀ r ∈ L.created, ∀ y ∈ L.wire, y.call = r.call → .unauthorized y.id ∈ L.log
  hand : ∀ r ∈ hs, ∀ y ∈ L.wire, y.call = r.call → y.id = r.id ∨ .unauthorized y.id ∈ L.log
  ordered : L.wire.Pairwise fun x y => x.call = y.call → .unauthorized y.id ∈ L.log

namespace Accounted

variable {L : Ledger} {hs hs' : List RequestConfig} {r : RequestConfig}

theorem perm (h : Accounted L hs) (hp : hs.Perm hs') : Accounted L hs' where
  calls := (((hp.append_left L.created).map _).append_right _).symm.trans h.calls
  wireCalls := h.wireCalls
  ids := h.ids
  next := h.next
  created := h.created
  hand r hr := h.hand r (hp.mem_iff.mpr hr)
  ordered := h.ordered

/-- What the interceptor writes into the configuration. -/
theorem replace (h : Accounted L (r :: hs)) (r' : RequestConfig) (hcall : r'.call = r.call)
    (hid : r'.id = r.id) : Accounted L (r' :: hs) where
  calls := by simpa [hcall] using h.calls
  wireCalls := h.wireCalls
  ids := h.ids
  next := h.next
  created := h.created
  hand := by
    refine List.forall_mem_cons.mpr ⟨?_, fun x hx => h.hand x (List.mem_cons_of_mem r hx)⟩
    rw [hcall, hid]
    exact h.hand r List.mem_cons_self
  ordered := h.ordered

theorem note (h : Accounted L hs) {log : List Event} (hlog : L.log ⊆ log) :
    Accounted { L with log } hs where
  calls := h.calls
  wireCalls := h.wireCalls
  ids := h.ids
  next := h.next
  created r hr y hy hcall := hlog (h.created r hr y hy hcall)
  hand r hr y hy hcall := (h.hand r hr y hy hcall).imp_right fun hy => hlog hy
  ordered := h.ordered.imp fun hxy hcall => hlog (hxy hcall)

/-- The call of an attempt in hand is answered to the page. -/
theorem settle (h : Accounted L (r :: hs)) :
    Accounted { L with settled := r.call :: L.settled } hs where
  calls := by
    refine List.Perm.trans ?_ h.calls
    simp only [List.map_append, List.map_cons, List.append_assoc, List.cons_append]
    exact List.Perm.append_left _ List.perm_middle
  wireCalls := h.wireCalls
  ids := h.ids
  next := h.next
  created := h.created
  hand x hx := h.hand x (List.mem_cons_of_mem r hx)
  ordered := h.ordered

/-- A new call. -/
theorem request (h : Accounted L hs) (hid : r.id = L.next) (hcall : r.call = L.calls) :
    Accounted { L with created := L.created ++ [r], next := L.next + 1, calls := L.calls + 1 }
      hs where
  calls := by
    rw [List.range_succ]
    refine List.Perm.trans ?_ ((h.calls.append_right [L.calls]))
    simp only [List.map_append, List.map_cons, List.map_nil, List.append_assoc, hcall]
    exact List.Perm.append_left _ (List.perm_append_comm.trans (by rw [List.append_assoc]))
  wireCalls y hy := Nat.lt_succ_of_lt (h.wireCalls y hy)
  ids := by
    refine (List.Perm.nodup_iff ?_).mpr (List.nodup_cons.mpr ⟨?_, h.ids⟩ : (L.next :: _).Nodup)
    · simp only [List.map_append, List.map_cons, List.map_nil, List.append_assoc, hid]
      exact List.perm_middle
    · intro hmem
      obtain ⟨x, hx, heq⟩ := List.mem_map.mp hmem
      exact Nat.ne_of_lt (h.next x hx) heq
  next x hx := by
    simp only [List.append_assoc, List.mem_append, List.mem_singleton] at hx
    rcases hx with hx | rfl | hx
    · exact Nat.lt_succ_of_lt (h.next x (List.mem_append_left _ hx))
    · exact hid ▸ Nat.lt_succ_self _
    · exact Nat.lt_succ_of_lt (h.next x (List.mem_append_right _ hx))
  created x hx y hy heq := by
    rcases List.mem_append.mp hx with hx | hx
    · exact h.created x hx y hy heq
    · obtain rfl := List.mem_singleton.mp hx
      exact absurd (heq.trans hcall) (Nat.ne_of_lt (h.wireCalls y hy))
  hand := h.hand
  ordered := h.ordered

/-- An attempt in hand that got a 401 is tried again. -/
theorem resend (h : Accounted L (r :: hs)) (hr : .unauthorized r.id ∈ L.log) (r' : RequestConfig)
    (hid : r'.id = L.next) (hcall : r'.call = r.call) :
    Accounted { L with created := L.created ++ [r'], next := L.next + 1 } hs where
  calls := by
    refine List.Perm.trans ?_ h.calls
    simp [hcall]
  wireCalls := h.wireCalls
  ids := by
    refine (List.Perm.nodup_iff ?_).mpr (List.nodup_cons.mpr ⟨?_, h.ids⟩ : (L.next :: _).Nodup)
    · simp only [List.map_append, List.map_cons, List.map_nil, List.append_assoc, hid]
      exact List.perm_middle
    · intro hmem
      obtain ⟨x, hx, heq⟩ := List.mem_map.mp hmem
      exact Nat.ne_of_lt (h.next x hx) heq
  next x hx := by
    simp only [List.append_assoc, List.mem_append, List.mem_singleton] at hx
    rcases hx with hx | rfl | hx
    · exact Nat.lt_succ_of_lt (h.next x (List.mem_append_left _ hx))
    · exact hid ▸ Nat.lt_succ_self _
    · exact Nat.lt_succ_of_lt (h.next x (List.mem_append_right _ hx))
  created x hx y hy heq := by
    rcases List.mem_append.mp hx with hx | hx
    · exact h.created x hx y hy heq
    · obtain rfl := List.mem_singleton.mp hx
      rcases h.hand r List.mem_cons_self y hy (heq.trans hcall) with hy | hy
      · exact hy ▸ hr
      · exact hy
  hand x hx := h.hand x (List.mem_cons_of_mem r hx)
  ordered := h.ordered

/-- No two attempts at hand are of one call. -/
theorem unique (h : Accounted L hs) {rest : List RequestConfig} (hp : L.created.Perm (r :: rest)) :
    ∀ x ∈ rest ++ hs, x.call ≠ r.call := by
  have hnodup : ((r :: (rest ++ hs)).map (·.call) ++ L.settled).Nodup :=
    (List.Perm.nodup_iff (((hp.append_right hs).map _).append_right _)).mp
      ((List.Perm.nodup_iff h.calls).mpr List.nodup_range)
  have hhead := (List.nodup_cons.mp (List.Nodup.of_append_left hnodup)).1
  intro x hx heq
  exact hhead (List.mem_map.mpr ⟨x, hx, heq⟩)

/-- An attempt leaves. -/
theorem dispatch (h : Accounted L hs) {rest : List RequestConfig} (hp : L.created.Perm (r :: rest))
    (r' : RequestConfig) (hcall : r'.call = r.call) (hid : r'.id = r.id) :
    Accounted { L with created := rest, wire := r' :: L.wire } (r' :: hs) := by
  have hunique := h.unique hp
  have hr : r ∈ L.created := hp.mem_iff.mpr List.mem_cons_self
  have hrest : ∀ x ∈ rest, x ∈ L.created := fun x hx => hp.mem_iff.mpr (List.mem_cons_of_mem r hx)
  refine ⟨?_, ?_, ?_, ?_, ?_, ?_, ?_⟩
  · refine List.Perm.trans (List.Perm.append_right _ ?_) h.calls
    refine List.Perm.trans ?_ ((hp.append_right hs).map (·.call)).symm
    simp only [List.map_append, List.map_cons, hcall, List.cons_append]
    exact List.perm_middle
  · refine List.forall_mem_cons.mpr ⟨?_, h.wireCalls⟩
    rw [hcall, ← List.mem_range, ← h.calls.mem_iff]
    exact List.mem_append_left _ (List.mem_map_of_mem (List.mem_append_left _ hr))
  · refine (List.Perm.nodup_iff ?_).mp h.ids
    refine ((hp.append_right L.wire).map (·.id)).trans ?_
    simp only [List.map_append, List.map_cons, hid, List.cons_append]
    exact List.perm_middle.symm
  · intro x hx
    simp only [List.mem_append, List.mem_cons] at hx
    rcases hx with hx | rfl | hx
    · exact h.next x (List.mem_append_left _ (hrest x hx))
    · exact hid ▸ h.next r (List.mem_append_left _ hr)
    · exact h.next x (List.mem_append_right _ hx)
  · intro x hx
    refine List.forall_mem_cons.mpr ⟨fun heq => ?_, h.created x (hrest x hx)⟩
    exact absurd (heq.symm.trans hcall) (hunique x (List.mem_append_left _ hx))
  · refine List.forall_mem_cons.mpr ⟨List.forall_mem_cons.mpr ⟨fun _ => .inl rfl, ?_⟩, ?_⟩
    · exact fun y hy heq => .inr (h.created r hr y hy (heq.trans hcall))
    · intro x hx
      refine List.forall_mem_cons.mpr ⟨fun heq => ?_, h.hand x hx⟩
      exact absurd (heq.symm.trans hcall) (hunique x (List.mem_append_right _ hx))
  · refine List.pairwise_cons.mpr ⟨fun y hy heq => ?_, h.ordered⟩
    exact h.created r hr y hy (heq.symm.trans hcall)

end Accounted

/-- The calls of a client are accounted for, and what waits for a refresh got a 401. -/
structure Kept (c : ApiClient) : Prop where
  accounted : Accounted c.ledger c.away
  refused : ∀ r ∈ c.failedQueue ++ c.refreshes, .unauthorized r.id ∈ c.log

/-- Releasing the queue touches neither what is in flight nor the refreshes. -/
structure Framed (c c' : ApiClient) : Prop where
  store : c'.store = c.store
  activeTenantId : c'.activeTenantId = c.activeTenantId
  calls : c'.calls = c.calls
  inFlight : c'.inFlight = c.inFlight
  failedQueue : c'.failedQueue = c.failedQueue
  refreshes : c'.refreshes = c.refreshes
  wire : c'.wire = c.wire
  log : c.log ⊆ c'.log

section Calls

variable {c c' : ApiClient} {hs : List RequestConfig} {r : RequestConfig} {token : Option String}

theorem Framed.refl (c : ApiClient) : Framed c c :=
  ⟨rfl, rfl, rfl, rfl, rfl, rfl, rfl, List.Subset.refl _⟩

theorem Framed.trans {c'' : ApiClient} (h : Framed c c') (h' : Framed c' c'') : Framed c c'' where
  store := h'.store.trans h.store
  activeTenantId := h'.activeTenantId.trans h.activeTenantId
  calls := h'.calls.trans h.calls
  inFlight := h'.inFlight.trans h.inFlight
  failedQueue := h'.failedQueue.trans h.failedQueue
  refreshes := h'.refreshes.trans h.refreshes
  wire := h'.wire.trans h.wire
  log := List.Subset.trans h.log h'.log

theorem framed_reject (c : ApiClient) (r : RequestConfig) : Framed c (c.reject r) :=
  ⟨rfl, rfl, rfl, rfl, rfl, rfl, rfl, List.subset_cons_self _ _⟩

theorem framed_resend (c : ApiClient) (r : RequestConfig) (token : String) :
    Framed c (c.resend r token) :=
  ⟨rfl, rfl, rfl, rfl, rfl, rfl, rfl, List.subset_cons_self _ _⟩

theorem framed_release (token : Option String) (c : ApiClient) (r : RequestConfig) :
    Framed c (c.release token r) := by
  unfold ApiClient.release
  split
  · exact framed_resend c r _
  · exact framed_reject c r

theorem framed_releases (token : Option String) (queue : List RequestConfig) (c : ApiClient) :
    Framed c (queue.foldl (ApiClient.release token) c) := by
  induction queue generalizing c with
  | nil => exact .refl c
  | cons r queue ih => exact (framed_release token c r).trans (ih _)

theorem accounted_request (h : Accounted c.ledger hs) (method : Method) :
    Accounted (c.request method).ledger hs := h.request rfl rfl

theorem accounted_reject (h : Accounted c.ledger (r :: hs)) : Accounted (c.reject r).ledger hs :=
  h.settle.note (List.subset_cons_self _ _)

theorem accounted_resend (h : Accounted c.ledger (r :: hs)) (hr : .unauthorized r.id ∈ c.log)
    (token : String) : Accounted (c.resend r token).ledger hs :=
  (h.resend hr (r.again c.next token) rfl rfl).note (List.subset_cons_self _ _)

theorem accounted_release (h : Accounted c.ledger (r :: hs)) (hr : .unauthorized r.id ∈ c.log) :
    Accounted (c.release token r).ledger hs := by
  unfold ApiClient.release
  split
  · exact accounted_resend h hr _
  · exact accounted_reject h

/-- The whole queue is sent again or rejected. -/
theorem accounted_releases {queue : List RequestConfig} (h : Accounted c.ledger (queue ++ hs))
    (hr : ∀ r ∈ queue, .unauthorized r.id ∈ c.log) :
    Accounted (queue.foldl (ApiClient.release token) c).ledger hs := by
  induction queue generalizing c with
  | nil => exact h
  | cons r queue ih =>
    refine ih (accounted_release h (hr r List.mem_cons_self)) fun x hx => ?_
    exact (framed_release token c r).log (hr x (List.mem_cons_of_mem r hx))

theorem accounted_processQueue (h : Accounted c.ledger (c.failedQueue ++ hs))
    (hr : ∀ r ∈ c.failedQueue, .unauthorized r.id ∈ c.log) :
    Accounted (c.processQueue token).ledger hs := accounted_releases h hr

theorem kept_init (store : AuthState) (activeTenantId : String) :
    Kept (ApiClient.init store activeTenantId) where
  accounted :=
    { calls := List.Perm.refl _
      wireCalls := fun _ hy => absurd hy List.not_mem_nil
      ids := List.nodup_nil
      next := fun _ hr => absurd hr List.not_mem_nil
      created := fun _ hr => absurd hr List.not_mem_nil
      hand := fun _ hr => absurd hr List.not_mem_nil
      ordered := List.Pairwise.nil }
  refused _ hr := absurd hr List.not_mem_nil

/-- The response interceptor is done with an attempt that it has in hand. -/
theorem kept_onError {status : Option ℕ} (h : Accounted c.ledger (r :: c.away))
    (hr : status = some 401 → .unauthorized r.id ∈ c.log)
    (hrefused : ∀ x ∈ c.failedQueue ++ c.refreshes, .unauthorized x.id ∈ c.log) :
    Kept (c.onError r status) := by
  unfold ApiClient.onError
  split
  · next hmend =>
    have hnoted := hr hmend.1
    split
    · refine ⟨h.perm ?_, fun x hx => ?_⟩
      · unfold ApiClient.away
        simp only [List.append_assoc, List.cons_append, List.nil_append]
        refine List.Perm.trans ?_ (List.Perm.append_left _ List.perm_middle.symm)
        exact List.perm_middle.symm
      · simp only [List.append_assoc, List.mem_append, List.mem_singleton] at hx
        rcases hx with hx | rfl | hx
        · exact hrefused x (List.mem_append_left _ hx)
        · exact hnoted
        · exact hrefused x (List.mem_append_right _ hx)
    · dsimp only
      split
      · refine ⟨accounted_reject (accounted_request (c := { c with isRefreshing := true }) h .post),
          fun x hx => ?_⟩
        exact List.mem_cons_of_mem _ (hrefused x hx)
      · refine ⟨(h.replace { r with retry := true } rfl rfl).perm ?_, fun x hx => ?_⟩
        · unfold ApiClient.away
          rw [← List.append_assoc]
          exact (List.perm_append_singleton _ _).symm
        · rw [← List.append_assoc] at hx
          rcases List.mem_append.mp hx with hx | hx
          · exact hrefused x hx
          · obtain rfl := List.mem_singleton.mp hx
            exact hnoted
  · exact ⟨accounted_reject h, fun x hx => List.mem_cons_of_mem _ (hrefused x hx)⟩

theorem kept_receive {response : Response} (h : Accounted c.ledger (r :: c.away))
    (hrefused : ∀ x ∈ c.failedQueue ++ c.refreshes, .unauthorized x.id ∈ c.log) :
    Kept (c.receive r response) := by
  cases response with
  | fulfilled => exact ⟨h.settle, hrefused⟩
  | error status =>
    unfold ApiClient.receive
    dsimp only
    split
    · refine kept_onError (h.note (List.subset_cons_self _ _)) (fun _ => List.mem_cons_self) ?_
      exact fun x hx => List.mem_cons_of_mem _ (hrefused x hx)
    · next hstatus => exact kept_onError h (fun heq => absurd heq hstatus) hrefused

/-- The queue is processed with an attempt in hand. -/
theorem accounted_processed (token : Option String) (h : Accounted c.ledger (r :: c.away))
    (hrefused : ∀ x ∈ c.failedQueue ++ c.refreshes, .unauthorized x.id ∈ c.log) :
    Accounted (c.processQueue token).ledger (r :: (c.processQueue token).away) ∧
      ∀ x ∈ (c.processQueue token).failedQueue ++ (c.processQueue token).refreshes,
        .unauthorized x.id ∈ (c.processQueue token).log := by
  have hframe := framed_releases token c.failedQueue c
  have hinFlight : (c.processQueue token).inFlight = c.inFlight := hframe.inFlight
  have hqueue : (c.processQueue token).failedQueue = [] := rfl
  have hrefreshes : (c.processQueue token).refreshes = c.refreshes := hframe.refreshes
  constructor
  · unfold ApiClient.away
    rw [hinFlight, hqueue, hrefreshes, List.append_nil]
    refine accounted_processQueue (h.perm ?_) fun x hx => hrefused x (List.mem_append_left _ hx)
    unfold ApiClient.away
    refine List.Perm.trans (List.Perm.cons r (List.Perm.append_right _ List.perm_append_comm)) ?_
    rw [List.append_assoc]
    exact List.perm_middle.symm
  · rw [hqueue, hrefreshes]
    exact fun x hx => hframe.log (hrefused x (List.mem_append_right _ hx))

theorem kept_onRefreshed {data : RefreshData} (h : Accounted c.ledger (r :: c.away))
    (hr : .unauthorized r.id ∈ c.log)
    (hrefused : ∀ x ∈ c.failedQueue ++ c.refreshes, .unauthorized x.id ∈ c.log) :
    Kept (c.onRefreshed r data) := by
  obtain ⟨hprocessed, hwaiting⟩ := accounted_processed (some data.accessToken)
    (c := { c with
      store := setCredentials data.user data.accessToken data.refreshToken, isRefreshing := false })
    h hrefused
  refine ⟨accounted_resend hprocessed ?_ data.accessToken, fun x hx => ?_⟩
  · exact (framed_releases _ c.failedQueue _).log hr
  · exact List.mem_cons_of_mem _ (hwaiting x hx)

theorem kept_onRefreshError (h : Accounted c.ledger (r :: c.away))
    (hrefused : ∀ x ∈ c.failedQueue ++ c.refreshes, .unauthorized x.id ∈ c.log) :
    Kept (c.onRefreshError r) := by
  obtain ⟨hprocessed, hwaiting⟩ := accounted_processed none
    (c := { c with isRefreshing := false }) h hrefused
  exact ⟨accounted_reject (accounted_request hprocessed .post),
    fun x hx => List.mem_cons_of_mem _ (hwaiting x hx)⟩

/-- An attempt is taken in hand. -/
theorem perm_inFlight {i : ℕ} (hr : c.inFlight[i]? = some r) :
    c.away.Perm (r :: { c with inFlight := c.inFlight.eraseIdx i }.away) := by
  obtain ⟨hi, rfl⟩ := List.getElem?_eq_some_iff.mp hr
  unfold ApiClient.away
  rw [List.append_assoc, List.append_assoc]
  exact (List.getElem_cons_eraseIdx_perm hi).symm.append_right _

theorem perm_refreshes {i : ℕ} (hr : c.refreshes[i]? = some r) :
    c.away.Perm (r :: { c with refreshes := c.refreshes.eraseIdx i }.away) := by
  obtain ⟨hi, rfl⟩ := List.getElem?_eq_some_iff.mp hr
  unfold ApiClient.away
  refine ((List.getElem_cons_eraseIdx_perm hi).symm.append_left _).trans ?_
  exact List.perm_middle

theorem kept_step {correlationId : String} {s t : ApiClient} {l : ApiLabel} (h : Kept s)
    (hstep : s.step correlationId l = some t) : Kept t := by
  cases l with
  | send method =>
    obtain rfl := Option.some.inj hstep
    exact ⟨accounted_request h.accounted method, h.refused⟩
  | dispatch i uuid =>
    obtain ⟨r, hr, rfl⟩ := Option.map_eq_some_iff.mp hstep
    obtain ⟨hi, rfl⟩ := List.getElem?_eq_some_iff.mp hr
    refine ⟨(h.accounted.dispatch (List.getElem_cons_eraseIdx_perm hi).symm
      (s.onRequest correlationId uuid s.created[i]) rfl rfl).perm ?_, h.refused⟩
    unfold ApiClient.sent ApiClient.away
    simp only [List.append_assoc, List.cons_append, List.nil_append]
    exact List.perm_middle.symm
  | respond i response =>
    obtain ⟨r, hr, rfl⟩ := Option.map_eq_some_iff.mp hstep
    exact kept_receive (h.accounted.perm (perm_inFlight hr)) h.refused
  | refreshed i data =>
    obtain ⟨r, hr, rfl⟩ := Option.map_eq_some_iff.mp hstep
    have hrest : ∀ x ∈ s.failedQueue ++ s.refreshes.eraseIdx i, .unauthorized x.id ∈ s.log :=
      fun x hx => h.refused x (List.Sublist.subset
        ((List.eraseIdx_sublist _ _).append_left _) hx)
    refine kept_onRefreshed (h.accounted.perm (perm_refreshes hr)) (h.refused r ?_) hrest
    exact List.mem_append_right _ (List.mem_of_getElem? hr)
  | refreshFailed i =>
    obtain ⟨r, hr, rfl⟩ := Option.map_eq_some_iff.mp hstep
    exact kept_onRefreshError (h.accounted.perm (perm_refreshes hr)) fun x hx =>
      h.refused x (List.Sublist.subset ((List.eraseIdx_sublist _ _).append_left _) hx)
  | login user accessToken refreshToken =>
    obtain rfl := Option.some.inj hstep
    exact ⟨h.accounted, h.refused⟩
  | logout =>
    obtain rfl := Option.some.inj hstep
    exact ⟨accounted_request h.accounted .post, h.refused⟩
  | switchTenant tenantId =>
    obtain rfl := Option.some.inj hstep
    exact ⟨h.accounted, h.refused⟩

end Calls

/-- Every call is at one place. A call waits only while `isRefreshing` is set (which it stays after
    a 401 that finds no refresh token, with no POST in flight). -/
structure AtOnePlace (c : ApiClient) : Prop where
  calls : ((c.created ++ c.inFlight ++ c.failedQueue ++ c.refreshes).map (·.call) ++ c.settled).Perm
    (List.range c.calls)
  waiting : c.isRefreshing = false → c.failedQueue = [] ∧ c.refreshes = []
  single : c.refreshes.length ≤ 1

section Runs

variable {correlationId : String} {ok : ApiClient → ApiLabel → Prop} {c : ApiClient}
  {ls : List ApiLabel}

theorem kept_run {store : AuthState} {activeTenantId : String}
    (h : Reaches (ApiClient.step correlationId) ok (ApiClient.init store activeTenantId) ls c) :
    Kept c :=
  h.invariant Kept (kept_init store activeTenantId) fun _ _ _ hkept _ hstep => kept_step hkept hstep

/-- In every run, each call ever made is to be sent, in flight, waiting for a refresh or answered to
    the page, and nowhere twice; nothing waits while `isRefreshing` is not set. -/
theorem calls_run (store : AuthState) (activeTenantId : String)
    (h : Reaches (ApiClient.step correlationId) anyStep (ApiClient.init store activeTenantId) ls
      c) :
    AtOnePlace c := by
  have hkept := kept_run h
  have hsound : Sound c.erase := sound_run (sound_init store) (erase_run h)
  refine ⟨?_, fun hidle => ⟨?_, ?_⟩, ?_⟩
  · have hcalls := hkept.accounted.calls
    unfold ApiClient.away at hcalls
    simpa only [List.append_assoc, ApiClient.ledger] using hcalls
  · exact List.map_eq_nil_iff.mp (hsound.queue hidle)
  · by_contra hne
    have hflag : c.isRefreshing = true := hsound.flag fun hnil => hne (List.map_eq_nil_iff.mp hnil)
    rw [hidle] at hflag
    cases hflag
  · simpa [ApiClient.erase] using hsound.single

end Runs

/-- Two calls that a token rotation interrupts. -/
def rotation : List ApiLabel :=
  [.send .post, .send .delete, .dispatch 0 "u0", .dispatch 0 "u1",
    .respond 0 (.error (some 401)), .respond 0 (.error (some 401)),
    .refreshed 0 { accessToken := "a1", refreshToken := "r1", user := none },
    .dispatch 0 "u2", .dispatch 0 "u3", .respond 1 .fulfilled]

def signedIn : ApiClient := ApiClient.init (setCredentials none "a0" "r0") "default-tenant"

theorem calls_run_rotation : ∃ c, runFrom (ApiClient.step "page") signedIn rotation = some c ∧
    c.settled = [0] ∧ AtOnePlace c := by
  have hrun : runFrom (ApiClient.step "page") signedIn rotation = some _ := rfl
  exact ⟨_, hrun, by decide, calls_run _ _ (reaches_run hrun)⟩

end CloudScale.Frontend.Transmissions
