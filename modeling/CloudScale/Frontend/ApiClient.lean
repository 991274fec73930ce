/-
  Token refresh in the browser (`lib/api-client.ts` and `stores/authStore.ts`).

  JavaScript runs an interceptor up to its next `await`, so a step is what happens between two
  waits: a request interceptor, the handling of a response, the continuation of the refresh POST
  when it settles. `refreshes` are the POSTs in flight, each with the request it was made for. `log`
  is a history: which requests got a 401, and which were sent again or rejected.

  `hangs_iff`: in the state after a run no request waits for ever exactly if at each 401 that
  started a refresh the store held a refresh token. `stuck_forever`: where it did not, the refresh
  never ends and what is queued stays queued. `wrong_password` is such a run.
-/
import CloudScale.Lib.Run

namespace CloudScale.Frontend

open CloudScale.Lib

/-! ## The auth store -/

structure User where
  id : String
  email : String
  fullName : String
  role : String
deriving DecidableEq

structure AuthState where
  user : Option User := none
  accessToken : Option String := none
  refreshToken : Option String := none
  isAuthenticated : Bool := false
deriving DecidableEq

def setCredentials (user : Option User) (accessToken refreshToken : String) : AuthState :=
  { user, accessToken := some accessToken, refreshToken := some refreshToken
    isAuthenticated := true }

/-- A token that a condition takes as true. -/
def truthy (token : Option String) : Option String := token.filter fun t => t ≠ ""

/-! ## Requests -/

/-- A request that `apiClient` was called with; `retry` is `_retry` of its configuration. -/
structure Attempt where
  id : ℕ
  retry : Bool
  authorization : Option String
deriving DecidableEq

inductive Event where
  | unauthorized (id : ℕ)
  | resent (id : ℕ) (token : String)
  | rejected (id : ℕ)
deriving DecidableEq

/-- The module state of the client, the store, and the requests under way: `created` ones have their
    request interceptor still to run. -/
structure Client where
  store : AuthState
  isRefreshing : Bool
  failedQueue : List Attempt
  created : List Attempt
  inFlight : List Attempt
  refreshes : List Attempt
  next : ℕ
  log : List Event

def Client.init (store : AuthState) : Client :=
  { store, isRefreshing := false, failedQueue := [], created := [], inFlight := [], refreshes := []
    next := 0, log := [] }

/-- `apiClient(config)`. -/
def Client.request (c : Client) (retry : Bool) (authorization : Option String) : Client :=
  { c with created := c.created ++ [⟨c.next, retry, authorization⟩], next := c.next + 1 }

/-- `logout`; the revocation request runs its interceptor when the store is already empty. -/
def Client.logout (c : Client) : Client := { c.request false none with store := {} }

def Client.reject (c : Client) (a : Attempt) : Client := { c with log := .rejected a.id :: c.log }

/-- The request is sent again with the token. -/
def Client.resend (c : Client) (a : Attempt) (token : String) : Client :=
  { c.request a.retry (some ("Bearer " ++ token)) with log := .resent a.id token :: c.log }

/-- One element of the queue. -/
def Client.release (token : Option String) (c : Client) (a : Attempt) : Client :=
  match truthy token with
  | some token => c.resend a token
  | none => c.reject a

def Client.processQueue (c : Client) (token : Option String) : Client :=
  { c.failedQueue.foldl (Client.release token) c with failedQueue := [] }

/-! ## Interceptors -/

/-- The request interceptor. -/
def Client.onRequest (c : Client) (a : Attempt) : Attempt :=
  match truthy c.store.accessToken with
  | some token => { a with authorization := some ("Bearer " ++ token) }
  | none => a

/-- The response interceptor for an error, up to the refresh POST. -/
def Client.onError (c : Client) (a : Attempt) (status : Option ℕ) : Client :=
  if status = some 401 ∧ a.retry = false then
    if c.isRefreshing then { c with failedQueue := c.failedQueue ++ [a] }
    else
      let c := { c with isRefreshing := true }
      match truthy c.store.refreshToken with
      | none => c.logout.reject a
      | some _ => { c with refreshes := c.refreshes ++ [{ a with retry := true }] }
  else c.reject a

/-- The answer of the refresh endpoint. -/
structure RefreshData where
  accessToken : String
  refreshToken : String
  user : Option User
deriving DecidableEq

/-- The rest of the interceptor, after a refresh. -/
def Client.onRefreshed (c : Client) (a : Attempt) (data : RefreshData) : Client :=
  let c := { c with
    store := setCredentials data.user data.accessToken data.refreshToken, isRefreshing := false }
  (c.processQueue (some data.accessToken)).resend a data.accessToken

/-- The rest of the interceptor, after a refresh that failed. -/
def Client.onRefreshError (c : Client) (a : Attempt) : Client :=
  let c := { c with isRefreshing := false }
  ((c.processQueue none).logout).reject a

/-! ## Steps -/

/-- `error status`; without a status there was no response. -/
inductive Response where
  | fulfilled
  | error (status : Option ℕ)
deriving DecidableEq

/-- A page sends a request, a request interceptor runs, a response comes, a refresh POST settles, a
    page logs in or out. -/
inductive Label where
  | send
  | dispatch (i : ℕ)
  | respond (i : ℕ) (response : Response)
  | refreshed (i : ℕ) (data : RefreshData)
  | refreshFailed (i : ℕ)
  | login (user : Option User) (accessToken refreshToken : String)
  | logout
deriving DecidableEq

/-- What the history notes of a response. -/
def Client.receive (c : Client) (a : Attempt) : Response → Client
  | .fulfilled => c
  | .error status =>
    (if status = some 401 then { c with log := .unauthorized a.id :: c.log }
      else c).onError a status

def step (c : Client) : Label → Option Client
  | .send => some (c.request false none)
  | .dispatch i => (c.created[i]?).map fun a =>
    { c with created := c.created.eraseIdx i, inFlight := c.inFlight ++ [c.onRequest a] }
  | .respond i response => (c.inFlight[i]?).map fun a =>
    { c with inFlight := c.inFlight.eraseIdx i }.receive a response
  | .refreshed i data => (c.refreshes[i]?).map fun a =>
    { c with refreshes := c.refreshes.eraseIdx i }.onRefreshed a data
  | .refreshFailed i => (c.refreshes[i]?).map fun a =>
    { c with refreshes := c.refreshes.eraseIdx i }.onRefreshError a
  | .login user accessToken refreshToken =>
    some { c with store := setCredentials user accessToken refreshToken }
  | .logout => some c.logout

/-! ## Requests that wait -/

/-- A request that got a 401 and is neither sent again nor rejected. -/
def Client.Waits (c : Client) (id : ℕ) : Prop :=
  (∃ a ∈ c.failedQueue, a.id = id) ∨ ∃ a ∈ c.refreshes, a.id = id

def Client.Answered (c : Client) (id : ℕ) : Prop :=
  (∃ token, .resent id token ∈ c.log) ∨ .rejected id ∈ c.log

/-- The refresh POST settles. -/
def Label.Settles : Label → Prop
  | .refreshed _ _ => True
  | .refreshFailed _ => True
  | _ => False

/-- A refresh is in progress only while its POST is in flight, there is one at most, nothing is
    queued without it, and when it settles every request that got a 401 has been sent again or
    rejected. -/
structure NoHang (c : Client) : Prop where
  refreshing : c.isRefreshing = true → c.refreshes ≠ []
  queue : c.refreshes = [] → c.failedQueue = []
  single : c.refreshes.length ≤ 1
  answered : ∀ id, .unauthorized id ∈ c.log → c.Answered id ∨ c.refreshes ≠ [] ∧
    ∀ ls t, runFrom step c ls = some t → (∃ l ∈ ls, l.Settles) → t.Answered id

/-- A 401 that starts a refresh finds a refresh token in the store. -/
def TokenHeld (c : Client) : Label → Prop
  | .respond i (.error status) => status = some 401 → ∀ a ∈ c.inFlight[i]?, a.retry = false →
      c.isRefreshing = false → (truthy c.store.refreshToken).isSome = true
  | _ => True

instance (c : Client) (l : Label) : Decidable (TokenHeld c l) := by
  unfold TokenHeld
  split <;> infer_instance

/-! ## What the parts of a step change -/

section Parts

variable {c c' : Client} {a : Attempt} {id : ℕ} {token : Option String}

theorem Client.Answered.mono (h : c.Answered id) (hlog : c.log ⊆ c'.log) : c'.Answered id := by
  rcases h with ⟨token, h⟩ | h
  · exact Or.inl ⟨token, hlog h⟩
  · exact Or.inr (hlog h)

/-- The two clients differ in the store, in what is created and in the answers only. -/
structure Client.Quiet (c c' : Client) : Prop where
  refreshing : c'.isRefreshing = c.isRefreshing
  queue : c'.failedQueue = c.failedQueue
  refreshes : c'.refreshes = c.refreshes
  log : c.log ⊆ c'.log
  unauthorized : ∀ id, .unauthorized id ∈ c'.log → .unauthorized id ∈ c.log

theorem Client.Quiet.refl (c : Client) : c.Quiet c :=
  ⟨rfl, rfl, rfl, List.Subset.refl _, fun _ h => h⟩

theorem Client.Quiet.trans {c'' : Client} (h : c.Quiet c') (h' : c'.Quiet c'') : c.Quiet c'' where
  refreshing := h'.refreshing.trans h.refreshing
  queue := h'.queue.trans h.queue
  refreshes := h'.refreshes.trans h.refreshes
  log := List.Subset.trans h.log h'.log
  unauthorized id hid := h.unauthorized id (h'.unauthorized id hid)

theorem quiet_request (c : Client) (retry : Bool) (authorization : Option String) :
    c.Quiet (c.request retry authorization) :=
  ⟨rfl, rfl, rfl, List.Subset.refl _, fun _ h => h⟩

theorem quiet_logout (c : Client) : c.Quiet c.logout :=
  ⟨rfl, rfl, rfl, List.Subset.refl _, fun _ h => h⟩

theorem quiet_reject (c : Client) (a : Attempt) : c.Quiet (c.reject a) where
  refreshing := rfl
  queue := rfl
  refreshes := rfl
  log := List.subset_cons_self _ _
  unauthorized id hid := by simpa [Client.reject] using hid

theorem quiet_resend (c : Client) (a : Attempt) (token : String) : c.Quiet (c.resend a token) where
  refreshing := rfl
  queue := rfl
  refreshes := rfl
  log := List.subset_cons_self _ _
  unauthorized id hid := by simpa [Client.resend, Client.request] using hid

theorem answered_reject (c : Client) (a : Attempt) : (c.reject a).Answered a.id :=
  Or.inr List.mem_cons_self

theorem answered_resend (c : Client) (a : Attempt) (token : String) :
    (c.resend a token).Answered a.id := Or.inl ⟨token, List.mem_cons_self⟩

theorem release_spec (token : Option String) (c : Client) (a : Attempt) :
    c.Quiet (c.release token a) ∧ (c.release token a).Answered a.id := by
  unfold Client.release
  split
  · exact ⟨quiet_resend c a _, answered_resend c a _⟩
  · exact ⟨quiet_reject c a, answered_reject c a⟩

/-- Every request of the queue is answered. -/
theorem releases_spec (token : Option String) (queue : List Attempt) (c : Client) :
    c.Quiet (queue.foldl (Client.release token) c) ∧
      ∀ a ∈ queue, (queue.foldl (Client.release token) c).Answered a.id := by
  induction queue generalizing c with
  | nil => exact ⟨.refl c, fun _ ha => absurd ha List.not_mem_nil⟩
  | cons a queue ih =>
    obtain ⟨hquiet, hanswered⟩ := release_spec token c a
    obtain ⟨hrest, hothers⟩ := ih (c.release token a)
    refine ⟨hquiet.trans hrest, fun b hb => ?_⟩
    rcases List.mem_cons.mp hb with rfl | hb
    · exact hanswered.mono hrest.log
    · exact hothers b hb

end Parts

/-! ## What a step does -/

/-- What a step from `s` to `t` does to the refresh and to the requests that wait for it. -/
inductive Effect (s t : Client) (l : Label) : Prop
  | quiet (hok : TokenHeld s l) (hsettles : ¬ l.Settles)
      (hrefreshing : t.isRefreshing = s.isRefreshing)
      (hqueue : t.failedQueue = s.failedQueue) (hrefreshes : t.refreshes = s.refreshes)
  | queued (a : Attempt) (hok : TokenHeld s l) (hsettles : ¬ l.Settles)
      (hbefore : s.isRefreshing = true) (hrefreshing : t.isRefreshing = true)
      (hqueue : t.failedQueue = s.failedQueue ++ [a]) (hrefreshes : t.refreshes = s.refreshes)
  | begun (a : Attempt) (hok : TokenHeld s l) (hsettles : ¬ l.Settles)
      (hbefore : s.isRefreshing = false) (hrefreshing : t.isRefreshing = true)
      (hqueue : t.failedQueue = s.failedQueue) (hrefreshes : t.refreshes = s.refreshes ++ [a])
  | stranded (hno : ¬ TokenHeld s l) (hsettles : ¬ l.Settles)
      (hbefore : s.isRefreshing = false) (hrefreshing : t.isRefreshing = true)
      (hqueue : t.failedQueue = s.failedQueue) (hrefreshes : t.refreshes = s.refreshes)
  | settled (i : ℕ) (a : Attempt) (hok : TokenHeld s l) (ha : s.refreshes[i]? = some a)
      (hrefreshing : t.isRefreshing = false) (hqueue : t.failedQueue = [])
      (hrefreshes : t.refreshes = s.refreshes.eraseIdx i) (hanswered : t.Answered a.id)
      (hothers : ∀ b ∈ s.failedQueue, t.Answered b.id)

/-- The history grows, and a request that gets a 401 is answered or waits. -/
structure Noted (s t : Client) : Prop where
  log : s.log ⊆ t.log
  unauthorized : ∀ id, .unauthorized id ∈ t.log →
    .unauthorized id ∈ s.log ∨ t.Answered id ∨ t.Waits id

theorem Client.Quiet.noted {s t : Client} (h : s.Quiet t) : Noted s t :=
  ⟨h.log, fun id hid => Or.inl (h.unauthorized id hid)⟩

section Steps

variable {s t : Client} {i : ℕ} {a : Attempt} {l : Label}

theorem effect_quiet (hok : TokenHeld s l) (hsettles : ¬ l.Settles) (h : s.Quiet t) :
    Effect s t l ∧ Noted s t :=
  ⟨.quiet hok hsettles h.refreshing h.queue h.refreshes, h.noted⟩

/-- An error that the interceptor does not try to mend. -/
theorem onError_reject (c : Client) {status : Option ℕ}
    (h : ¬ (status = some 401 ∧ a.retry = false)) :
    c.onError a status = c.reject a := if_neg h

/-- The history of a 401. -/
theorem noted_unauthorized (hlog : t.log = .unauthorized a.id :: s.log ∨
      t.log = .rejected a.id :: .unauthorized a.id :: s.log)
    (h : t.Answered a.id ∨ t.Waits a.id) : Noted s t := by
  rcases hlog with hlog | hlog
  all_goals
    refine ⟨fun e he => ?_, fun id hid => ?_⟩
    · rw [hlog]
      simp [he]
    · rw [hlog] at hid
      simp only [List.mem_cons, Event.unauthorized.injEq, reduceCtorEq, false_or] at hid
      rcases hid with rfl | hid
      · exact Or.inr h
      · exact Or.inl hid

/-- A response that is a 401. -/
theorem unauthorized_spec (ha : s.inFlight[i]? = some a)
    (ht : t = { s with
      inFlight := s.inFlight.eraseIdx i, log := .unauthorized a.id :: s.log }.onError
      a (some 401)) :
    Effect s t (.respond i (.error (some 401))) ∧ Noted s t := by
  by_cases hretry : a.retry = false
  · unfold Client.onError at ht
    rw [if_pos ⟨rfl, hretry⟩] at ht
    cases hrefreshing : s.isRefreshing with
    | true =>
      have hok : TokenHeld s (.respond i (.error (some 401))) := fun _ b _ _ hnot => by
        rw [hrefreshing] at hnot
        cases hnot
      rw [if_pos hrefreshing] at ht
      subst ht
      exact ⟨.queued a hok not_false hrefreshing hrefreshing rfl rfl,
        noted_unauthorized (.inl rfl) (.inr (.inl ⟨a, by simp, rfl⟩))⟩
    | false =>
      rw [if_neg (by simp [hrefreshing])] at ht
      dsimp only at ht
      cases htoken : truthy s.store.refreshToken with
      | none =>
        rw [htoken] at ht
        subst ht
        refine ⟨.stranded (fun hok => ?_) not_false hrefreshing rfl rfl rfl,
          noted_unauthorized (.inr rfl) (.inl (answered_reject _ a))⟩
        have hsome := hok rfl a (Option.mem_def.mpr ha) hretry hrefreshing
        rw [htoken] at hsome
        cases hsome
      | some token =>
        rw [htoken] at ht
        subst ht
        refine ⟨.begun { a with retry := true } (fun _ b hb _ _ => ?_) not_false hrefreshing rfl rfl
          rfl, noted_unauthorized (.inl rfl) (.inr (.inr ⟨{ a with retry := true }, ?_, rfl⟩))⟩
        · rw [htoken]
          rfl
        · exact List.mem_append_right _ List.mem_cons_self
  · rw [onError_reject _ fun h => hretry h.2] at ht
    subst ht
    refine ⟨.quiet (fun _ b hb hb' _ => ?_) not_false rfl rfl rfl,
      noted_unauthorized (.inr rfl) (.inl (answered_reject _ a))⟩
    obtain rfl := Option.some.inj (ha.symm.trans hb)
    exact absurd hb' hretry

/-- The refresh POST settles: `s'` is the state in which the queue is processed. -/
theorem settled_spec (s' : Client) (ha : s.refreshes[i]? = some a) (hok : TokenHeld s l)
    (token : Option String) (hrefreshing : s'.isRefreshing = false)
    (hqueue : s'.failedQueue = s.failedQueue) (hrefreshes : s'.refreshes = s.refreshes.eraseIdx i)
    (hlog : s'.log = s.log) (hrest : (s'.processQueue token).Quiet t)
    (hanswered : t.Answered a.id) :
    Effect s t l ∧ Noted s t := by
  obtain ⟨hquiet, hall⟩ := releases_spec token s'.failedQueue s'
  refine ⟨.settled i a hok ha ?_ hrest.queue ?_ hanswered fun b hb => ?_, ?_, fun id hid => ?_⟩
  · exact hrest.refreshing.trans (hquiet.refreshing.trans hrefreshing)
  · exact hrest.refreshes.trans (hquiet.refreshes.trans hrefreshes)
  · exact (hall b (hqueue ▸ hb)).mono hrest.log
  · exact List.Subset.trans (hlog ▸ hquiet.log) hrest.log
  · exact Or.inl (hlog ▸ hquiet.unauthorized id (hrest.unauthorized id hid))

theorem step_spec (h : step s l = some t) : Effect s t l ∧ Noted s t := by
  cases l with
  | send =>
    obtain rfl := Option.some.inj h
    exact effect_quiet trivial not_false (quiet_request s _ _)
  | dispatch i =>
    obtain ⟨a, -, rfl⟩ := Option.map_eq_some_iff.mp h
    exact effect_quiet trivial not_false ⟨rfl, rfl, rfl, List.Subset.refl _, fun _ h => h⟩
  | respond i response =>
    obtain ⟨a, ha, rfl⟩ := Option.map_eq_some_iff.mp h
    cases response with
    | fulfilled =>
      exact effect_quiet trivial not_false ⟨rfl, rfl, rfl, List.Subset.refl _, fun _ h => h⟩
    | error status =>
      by_cases hstatus : status = some 401
      · subst hstatus
        exact unauthorized_spec ha rfl
      · have hok : TokenHeld s (.respond i (.error status)) := fun h => absurd h hstatus
        have hreject : { s with inFlight := s.inFlight.eraseIdx i }.receive a (.error status) =
            { s with inFlight := s.inFlight.eraseIdx i }.reject a := by
          unfold Client.receive
          dsimp only
          rw [if_neg hstatus]
          exact onError_reject _ fun h => hstatus h.1
        rw [hreject]
        exact effect_quiet hok not_false
          ⟨rfl, rfl, rfl, (quiet_reject s a).log, (quiet_reject s a).unauthorized⟩
  | refreshed i data =>
    obtain ⟨a, ha, rfl⟩ := Option.map_eq_some_iff.mp h
    exact settled_spec { s with
      refreshes := s.refreshes.eraseIdx i
      store := setCredentials data.user data.accessToken data.refreshToken, isRefreshing := false }
      ha trivial (some data.accessToken) rfl rfl rfl rfl (quiet_resend _ a _)
        (answered_resend _ a _)
  | refreshFailed i =>
    obtain ⟨a, ha, rfl⟩ := Option.map_eq_some_iff.mp h
    exact settled_spec { s with refreshes := s.refreshes.eraseIdx i, isRefreshing := false }
      ha trivial none rfl rfl rfl rfl ((quiet_logout _).trans (quiet_reject _ a))
      (answered_reject _ a)
  | login user accessToken refreshToken =>
    obtain rfl := Option.some.inj h
    exact effect_quiet trivial not_false ⟨rfl, rfl, rfl, List.Subset.refl _, fun _ h => h⟩
  | logout =>
    obtain rfl := Option.some.inj h
    exact effect_quiet trivial not_false (quiet_logout s)

end Steps

/-! ## Runs -/

/-- What holds in every run. -/
structure Sound (c : Client) : Prop where
  single : c.refreshes.length ≤ 1
  flag : c.refreshes ≠ [] → c.isRefreshing = true
  queue : c.isRefreshing = false → c.failedQueue = []
  accounted : ∀ id, .unauthorized id ∈ c.log → c.Answered id ∨ c.Waits id

section Runs

variable {s t : Client} {l : Label} {id : ℕ} {ls : List Label}

theorem sound_init (store : AuthState) : Sound (Client.init store) where
  single := Nat.zero_le 1
  flag h := absurd rfl h
  queue _ := rfl
  accounted _ hid := absurd hid List.not_mem_nil

/-- The POST that settles is the only one. -/
theorem Sound.refreshes_eq (h : Sound s) {i : ℕ} {a : Attempt} (ha : s.refreshes[i]? = some a) :
    s.refreshes = [a] ∧ i = 0 := by
  have hsingle := h.single
  have hi := (List.getElem?_eq_some_iff.mp ha).1
  obtain rfl : i = 0 := by omega
  obtain ⟨b, hb⟩ := List.length_eq_one_iff.mp (show s.refreshes.length = 1 by omega)
  rw [hb] at ha ⊢
  exact ⟨by simpa using ha, rfl⟩

/-- A request that waits goes on waiting, or it is answered. -/
theorem waits_step (h : Sound s) (hstep : step s l = some t) (hwaits : s.Waits id) :
    t.Answered id ∨ t.Waits id ∧ ¬ l.Settles := by
  cases (step_spec hstep).1 with
  | quiet _ hsettles _ hqueue hrefreshes =>
    refine Or.inr ⟨?_, hsettles⟩
    unfold Client.Waits
    rw [hqueue, hrefreshes]
    exact hwaits
  | queued a _ hsettles _ _ hqueue hrefreshes =>
    refine Or.inr ⟨?_, hsettles⟩
    unfold Client.Waits
    rw [hqueue, hrefreshes]
    exact hwaits.imp_left fun ⟨b, hb, hid⟩ => ⟨b, List.mem_append_left _ hb, hid⟩
  | begun a _ hsettles _ _ hqueue hrefreshes =>
    refine Or.inr ⟨?_, hsettles⟩
    unfold Client.Waits
    rw [hqueue, hrefreshes]
    exact hwaits.imp_right fun ⟨b, hb, hid⟩ => ⟨b, List.mem_append_left _ hb, hid⟩
  | stranded _ hsettles _ _ hqueue hrefreshes =>
    refine Or.inr ⟨?_, hsettles⟩
    unfold Client.Waits
    rw [hqueue, hrefreshes]
    exact hwaits
  | settled i a _ ha _ _ _ hanswered hothers =>
    refine Or.inl ?_
    rcases hwaits with ⟨b, hb, rfl⟩ | ⟨b, hb, rfl⟩
    · exact hothers b hb
    · rw [(h.refreshes_eq ha).1] at hb
      obtain rfl := List.mem_singleton.mp hb
      exact hanswered

theorem answered_step (hstep : step s l = some t) (h : s.Answered id) : t.Answered id :=
  h.mono (step_spec hstep).2.log

theorem sound_step (h : Sound s) (hstep : step s l = some t) : Sound t := by
  obtain ⟨heffect, hnoted⟩ := step_spec hstep
  have haccounted : ∀ id, .unauthorized id ∈ t.log → t.Answered id ∨ t.Waits id := by
    intro id hid
    rcases hnoted.unauthorized id hid with hold | hnew
    · rcases h.accounted id hold with hanswered | hwaits
      · exact Or.inl (answered_step hstep hanswered)
      · exact (waits_step h hstep hwaits).imp_right And.left
    · exact hnew
  have hnone : s.isRefreshing = false → s.refreshes = [] := fun hflag => by
    by_contra hne
    rw [h.flag hne] at hflag
    cases hflag
  cases heffect with
  | quiet _ _ hrefreshing hqueue hrefreshes =>
    exact ⟨hrefreshes ▸ h.single, hrefreshes ▸ hrefreshing ▸ h.flag,
      hqueue ▸ hrefreshing ▸ h.queue, haccounted⟩
  | queued a _ _ _ hrefreshing _ hrefreshes =>
    exact ⟨hrefreshes ▸ h.single, fun _ => hrefreshing,
      fun hflag => absurd (hrefreshing.symm.trans hflag) (by decide), haccounted⟩
  | begun a _ _ hbefore hrefreshing _ hrefreshes =>
    refine ⟨?_, fun _ => hrefreshing,
      fun hflag => absurd (hrefreshing.symm.trans hflag) (by decide), haccounted⟩
    rw [hrefreshes, hnone hbefore]
    exact Nat.le_refl 1
  | stranded _ _ _ hrefreshing _ hrefreshes =>
    exact ⟨hrefreshes ▸ h.single, fun _ => hrefreshing,
      fun hflag => absurd (hrefreshing.symm.trans hflag) (by decide), haccounted⟩
  | settled i a _ ha hrefreshing hqueue hrefreshes _ _ =>
    obtain ⟨hone, rfl⟩ := h.refreshes_eq ha
    have hempty : t.refreshes = [] := by
      rw [hrefreshes, hone]
      rfl
    exact ⟨hempty ▸ Nat.zero_le 1, fun hne => absurd hempty hne, fun _ => hqueue, haccounted⟩

theorem sound_run (h : Sound s) (hrun : runFrom step s ls = some t) : Sound t := by
  induction ls generalizing s with
  | nil => exact Option.some.inj hrun ▸ h
  | cons l ls ih =>
    obtain ⟨u, hu, hrun⟩ := Option.bind_eq_some_iff.mp hrun
    exact ih (sound_step h hu) hrun

theorem answered_run (h : s.Answered id) (hrun : runFrom step s ls = some t) : t.Answered id := by
  induction ls generalizing s with
  | nil => exact Option.some.inj hrun ▸ h
  | cons l ls ih =>
    obtain ⟨u, hu, hrun⟩ := Option.bind_eq_some_iff.mp hrun
    exact ih (answered_step hu h) hrun

/-- A request that waits is answered once the POST settles. -/
theorem answered_of_settles (h : Sound s) (hwaits : s.Waits id)
    (hrun : runFrom step s ls = some t) (hsettles : ∃ l ∈ ls, l.Settles) : t.Answered id := by
  induction ls generalizing s with
  | nil =>
    obtain ⟨l, hl, -⟩ := hsettles
    cases hl
  | cons l ls ih =>
    obtain ⟨u, hu, hrun⟩ := Option.bind_eq_some_iff.mp hrun
    rcases waits_step h hu hwaits with hanswered | ⟨hwaits', hl⟩
    · exact answered_run hanswered hrun
    · obtain ⟨l', hl', hsettles'⟩ := hsettles
      rcases List.mem_cons.mp hl' with rfl | hmem
      · exact absurd hsettles' hl
      · exact ih (sound_step h hu) hwaits' hrun ⟨l', hmem, hsettles'⟩

/-- No request hangs as long as a refresh in progress has its POST. -/
theorem noHang_iff (h : Sound s) : NoHang s ↔ (s.isRefreshing = true → s.refreshes ≠ []) := by
  refine ⟨NoHang.refreshing, fun hflag => ?_⟩
  have hqueue : s.refreshes = [] → s.failedQueue = [] := fun hnone =>
    h.queue (by simpa [hnone] using hflag)
  refine ⟨hflag, hqueue, h.single, fun id hid => ?_⟩
  refine (h.accounted id hid).imp_right fun hwaits => ⟨fun hnone => ?_, fun ls t hrun hsettles =>
    answered_of_settles h hwaits hrun hsettles⟩
  rcases hwaits with ⟨a, ha, -⟩ | ⟨a, ha, -⟩
  · rw [hqueue hnone] at ha
    cases ha
  · rw [hnone] at ha
    cases ha

theorem noHang_step (h : Sound s) (hstep : step s l = some t) :
    NoHang t ↔ NoHang s ∧ TokenHeld s l := by
  rw [noHang_iff (sound_step h hstep), noHang_iff h]
  cases (step_spec hstep).1 with
  | quiet hok _ hrefreshing _ hrefreshes =>
    rw [hrefreshing, hrefreshes, and_iff_left hok]
  | queued a hok _ hbefore hrefreshing _ hrefreshes =>
    rw [hrefreshing, hrefreshes, hbefore, and_iff_left hok]
  | begun a hok _ hbefore _ _ hrefreshes =>
    rw [hrefreshes, hbefore]
    simp [hok]
  | stranded hno _ hbefore hrefreshing _ hrefreshes =>
    have hnone : s.refreshes = [] := by
      by_contra hne
      rw [h.flag hne] at hbefore
      cases hbefore
    rw [hrefreshing, hrefreshes]
    simp [hno, hnone]
  | settled i a hok ha hrefreshing _ _ _ _ =>
    rw [hrefreshing, (h.refreshes_eq ha).1]
    simp [hok]

/-- After a run, no request hangs exactly if every 401 that started a refresh found a refresh token.
    -/
theorem hangs_iff {store : AuthState} (hrun : runFrom step (Client.init store) ls = some s) :
    NoHang s ↔ AllSteps step TokenHeld (Client.init store) ls := by
  have hinit : NoHang (Client.init store) := (noHang_iff (sound_init store)).mpr nofun
  rw [runFrom_iff_allSteps (fun _ _ _ => sound_step) (fun _ _ _ => noHang_step) ls _ s
    (sound_init store) hrun, and_iff_right hinit]

theorem stuck_step (hflag : s.isRefreshing = true) (hnone : s.refreshes = [])
    (hstep : step s l = some t) :
    t.isRefreshing = true ∧ t.refreshes = [] ∧ s.failedQueue <+: t.failedQueue := by
  cases (step_spec hstep).1 with
  | quiet _ _ hrefreshing hqueue hrefreshes =>
    exact ⟨hrefreshing.trans hflag, hrefreshes.trans hnone, hqueue ▸ List.prefix_rfl⟩
  | queued a _ _ _ hrefreshing hqueue hrefreshes =>
    exact ⟨hrefreshing, hrefreshes.trans hnone, hqueue ▸ List.prefix_append _ _⟩
  | begun a _ _ hbefore _ _ _ => exact absurd (hflag.symm.trans hbefore) (by decide)
  | stranded _ _ hbefore _ _ _ => exact absurd (hflag.symm.trans hbefore) (by decide)
  | settled i a _ ha _ _ _ _ _ =>
    rw [hnone] at ha
    cases ha

/-- A refresh without its POST never ends: what is queued stays queued. -/
theorem stuck_forever (hflag : s.isRefreshing = true) (hnone : s.refreshes = [])
    (hrun : runFrom step s ls = some t) :
    t.isRefreshing = true ∧ t.refreshes = [] ∧ s.failedQueue <+: t.failedQueue := by
  induction ls generalizing s with
  | nil =>
    obtain rfl := Option.some.inj hrun
    exact ⟨hflag, hnone, List.prefix_rfl⟩
  | cons l ls ih =>
    obtain ⟨u, hu, hrun⟩ := Option.bind_eq_some_iff.mp hrun
    obtain ⟨hflag', hnone', hqueue⟩ := stuck_step hflag hnone hu
    obtain ⟨hflag'', hnone'', hqueue'⟩ := ih hflag' hnone' hrun
    exact ⟨hflag'', hnone'', hqueue.trans hqueue'⟩

end Runs

/-! ## Two failed logins -/

/-- A session whose token has expired: two requests get a 401, and the refresh serves both. -/
def expiredSession : List Label :=
  [.send, .send, .dispatch 0, .dispatch 0, .respond 0 (.error (some 401)),
    .respond 0 (.error (some 401)), .refreshed 0 ⟨"access-2", "refresh-2", none⟩]

/-- A user who is logged in. -/
def session : AuthState :=
  { user := some ⟨"user-1", "a@b.c", "A B", "shopper"⟩, accessToken := some "access-1"
    refreshToken := some "refresh-1", isAuthenticated := true }

theorem hangs_iff_expired : ∃ s, runFrom step (Client.init session) expiredSession = some s ∧
    s.log.length = 4 ∧ NoHang s := by
  obtain ⟨s, hrun, hlog⟩ : ∃ s, runFrom step (Client.init session) expiredSession = some s ∧
      s.log.length = 4 := ⟨_, rfl, rfl⟩
  exact ⟨s, hrun, hlog, (hangs_iff hrun).mpr (by decide)⟩

/-- Nobody is logged in, and the login request is answered 401, twice. -/
def failedLogins : List Label :=
  [.send, .dispatch 0, .respond 0 (.error (some 401)), .send, .dispatch 1,
    .respond 0 (.error (some 401))]

/-- A refresh in progress need not have its POST in flight; after a wrong password the next one is
    queued, and no refresh is under way. -/
theorem wrong_password : ¬ ∀ (store : AuthState) (ls : List Label) (s : Client),
    runFrom step (Client.init store) ls = some s → NoHang s := by
  intro hevery
  have hqueue := (hevery {} failedLogins _ rfl).queue rfl
  cases hqueue

end CloudScale.Frontend
