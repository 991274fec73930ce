/-
  To whom a cached response is returned (`cloudscale_shared/idempotency.py`).

  The record of a response is found under the tenant and the key, joined by a colon, and compared by
  a digest of method, path, tenant and payload, one after the other. Two requests are `Ambiguous`
  when these texts read the same. `returned_to_own_iff`: over a set of requests, every completed
  record is returned only to a request like the one that has saved it, in every run, exactly when no
  two different requests of the set are ambiguous. `returned_to_other` is two paths of one tenant.
-/
import CloudScale.Shared.Idempotency
import Mathlib.Data.Set.Function

namespace CloudScale.Idempotency

open CloudScale.Lib CloudScale.Shared

/-! ## Requests -/

structure HttpRequest where
  method : String
  path : String
  tenantId : Option String
  idempotencyKey : String
  payload : Option Payload

/-- The bytes that `compute_request_fingerprint` hashes. -/
def HttpRequest.hashed (py : Python) (r : HttpRequest) : List UInt8 :=
  utf8 (py.upper r.method) ++ utf8 r.path ++ utf8 (tenantOrGlobal r.tenantId) ++
    hashedPayload py r.payload

def HttpRequest.fingerprint (py : Python) (r : HttpRequest) : String :=
  computeRequestFingerprint py r.method r.path r.tenantId r.payload

/-- What a payload says: a dict says its canonical JSON text. -/
inductive Content where
  | json (text : String)
  | bytes (b : List UInt8)
  | str (s : String)
deriving DecidableEq

def Payload.content (py : Python) : Payload → Content
  | .dict d => .json (dumps py (.obj d))
  | .bytes b => .bytes b
  | .str s => .str s

/-- The same tenant, key, method up to case, path and payload. -/
structure SameRequest (py : Python) (r r' : HttpRequest) : Prop where
  tenantId : r.tenantId = r'.tenantId
  idempotencyKey : r.idempotencyKey = r'.idempotencyKey
  method : py.upper r.method = py.upper r'.method
  path : r.path = r'.path
  payload : r.payload.map (Payload.content py) = r'.payload.map (Payload.content py)

/-- Tenant and key read the same, and so do method, path, tenant and payload. -/
structure Ambiguous (py : Python) (r r' : HttpRequest) : Prop where
  key : tenantOrGlobal r.tenantId ++ ":" ++ r.idempotencyKey =
    tenantOrGlobal r'.tenantId ++ ":" ++ r'.idempotencyKey
  bytes : utf8 (py.upper r.method ++ r.path ++ tenantOrGlobal r.tenantId) ++
      hashedPayload py r.payload =
    utf8 (py.upper r'.method ++ r'.path ++ tenantOrGlobal r'.tenantId) ++
      hashedPayload py r'.payload

/-- Ambiguous requests share their key in Redis and their fingerprint. -/
theorem ambiguous_iff {py : Python} {R : Set HttpRequest}
    (hsha : Set.InjOn py.sha256 (HttpRequest.hashed py '' R)) {r r' : HttpRequest} (hr : r ∈ R)
    (hr' : r' ∈ R) : Ambiguous py r r' ↔
      formatKey r.tenantId r.idempotencyKey = formatKey r'.tenantId r'.idempotencyKey ∧
        r.fingerprint py = r'.fingerprint py := by
  have hkey : formatKey r.tenantId r.idempotencyKey = formatKey r'.tenantId r'.idempotencyKey ↔
      tenantOrGlobal r.tenantId ++ ":" ++ r.idempotencyKey =
        tenantOrGlobal r'.tenantId ++ ":" ++ r'.idempotencyKey := by
    unfold formatKey
    simp only [String.append_assoc, String.append_right_inj]
  have hbytes : r.fingerprint py = r'.fingerprint py ↔ r.hashed py = r'.hashed py :=
    hsha.eq_iff (Set.mem_image_of_mem _ hr) (Set.mem_image_of_mem _ hr')
  rw [hkey, hbytes]
  unfold HttpRequest.hashed
  simp only [← utf8_append]
  exact ⟨fun h => ⟨h.key, h.bytes⟩, fun h => ⟨h.1, h.2⟩⟩

inductive ApiCall where
  | start (r : HttpRequest)
  | save (r : HttpRequest) (statusCode : Int) (body : Dict)

def ApiCall.request : ApiCall → HttpRequest
  | .start r => r
  | .save r _ _ => r

/-- Each call is made with the request's own fingerprint. -/
def ApiCall.call (py : Python) : ApiCall → IdempotencyRequest
  | .start r => .startProcessing r.tenantId r.idempotencyKey (r.fingerprint py)
  | .save r statusCode body =>
    .saveResponse r.tenantId r.idempotencyKey (r.fingerprint py) statusCode body

/-! ## Runs -/

section Runs

variable {T : Type} [Ring T] [LinearOrder T] {py : Python} {m : Manager} {R : Set HttpRequest}

/-- Only requests of `R` are made. -/
def Over (R : Set HttpRequest) (_ : IdempotencyServer T ApiCall) : IdempotencyLabel T ApiCall → Prop
  | .act (.start c) => c.request ∈ R
  | _ => True

/-- The request saves this record in the run. -/
def Saves (py : Python) (ls : List (IdempotencyLabel T ApiCall)) (r : HttpRequest) (record : Dict) :
    Prop :=
  ∃ statusCode body, .act (.start (.save r statusCode body)) ∈ ls ∧
    record = completedRecord (r.fingerprint py) statusCode body

/-- Every completed record that was returned has been saved by such a request. -/
def ReturnedToOwn (py : Python) (ls : List (IdempotencyLabel T ApiCall))
    (srv : IdempotencyServer T ApiCall) : Prop :=
  ∀ e ∈ srv.log, ∀ r record, e.req = .start r → e.verdict = .committed (.started (some record)) →
    ∃ r', Saves py ls r' record ∧ SameRequest py r' r

/-- A value in the store: a registration, or a record that a request of the run saves. -/
def Saved (py : Python) (ls : List (IdempotencyLabel T ApiCall)) (key : String)
    (value : RedisValue) : Prop :=
  (∃ fingerprint, value = .json (.obj (inProgressRecord fingerprint))) ∨
    ∃ r record, Saves py ls r record ∧ key = formatKey r.tenantId r.idempotencyKey ∧
      value = .json (.obj record)

/-- The lookup finds such a value. -/
def FindsSaved (py : Python) (ls : List (IdempotencyLabel T ApiCall)) :
    (q : RedisQuery) → RedisAnswer q → Prop
  | .get key, found => ∀ value, found = some value → Saved py ls key value
  | _, _ => True

/-- A record that a call returns was saved under its key and its fingerprint. -/
def ReturnsSaved (py : Python) (ls : List (IdempotencyLabel T ApiCall)) (c : ApiCall)
    (w : IdempotencyResult) : Prop :=
  ∀ r record, c = .start r → w = .started (some record) → ∃ r', Saves py ls r' record ∧
    formatKey r'.tenantId r'.idempotencyKey = formatKey r.tenantId r.idempotencyKey ∧
    r'.fingerprint py = r.fingerprint py

omit [Ring T] [LinearOrder T] in
theorem call_ends (ls : List (IdempotencyLabel T ApiCall)) (c : ApiCall) :
    Ends (FindsSaved py ls) (ReturnsSaved py ls c) (fun _ => True) (program m (c.call py)) := by
  cases c with
  | save r statusCode body => exact fun _ _ _ _ hc => by cases hc
  | start r =>
    unfold ApiCall.call
    rw [program_start]
    intro found hfound
    beta_reduce
    cases found with
    | none => exact fun _ _ _ _ _ hw => by cases hw
    | some value =>
      obtain ⟨other, rfl⟩ | ⟨r', record, hsaves, hkey, rfl⟩ := hfound value rfl
      · rw [checkExisting_inProgress]
        split
        · trivial
        · trivial
      · obtain ⟨statusCode, body, hmem, rfl⟩ := hsaves
        rw [checkExisting_completed]
        split
        · next heq =>
          intro r₁ record hc hw
          cases hc
          cases hw
          exact ⟨r', ⟨statusCode, body, hmem, rfl⟩, hkey.symm, heq⟩
        · trivial

/-- Where no two different requests are ambiguous, completed records are returned to their own. -/
theorem returned_to_own {redis : Redis T} {ls : List (IdempotencyLabel T ApiCall)}
    {srv : IdempotencyServer T ApiCall} (hredis : StoreOf (fun _ _ => False) redis)
    (hsame : ∀ r ∈ R, ∀ r' ∈ R, formatKey r.tenantId r.idempotencyKey =
      formatKey r'.tenantId r'.idempotencyKey → r.fingerprint py = r'.fingerprint py →
      SameRequest py r r')
    (h : Reaches ((service m (ApiCall.call py)).stepIn Keyspace.elapse) (Over R)
      (Server.init () redis) ls srv) : ReturnedToOwn py ls srv := by
  have hrun : Reaches ((service m (ApiCall.call py)).stepIn Keyspace.elapse)
      (fun s l => (Over R s l ∧ l ∈ ls) ∧ StoreOf (Saved py ls) s.world) (Server.init () redis) ls
      srv := by
    refine reaches_storeOf h.labels (fun key e he => (hredis key e he).elim) ?_
    intro s c hok value hvalue
    cases c with
    | start r => exact .inl ⟨_, (Option.some.inj hvalue).symm⟩
    | save r statusCode body =>
      exact .inr ⟨r, _, ⟨statusCode, body, hok.2, rfl⟩, rfl, (Option.some.inj hvalue).symm⟩
  have hended := ended_of_answers (fun _ c => call_ends ls c) hrun fun s mv hok => ?_
  · intro e he r record hreq hverdict
    have hreturns := hended e he
    rw [hverdict] at hreturns
    obtain ⟨r', hsaves, hkey, hfingerprint⟩ := hreturns r record hreq rfl
    obtain ⟨statusCode, body, hmem, -⟩ := id hsaves
    obtain ⟨_, hr'⟩ := h.ok_of_mem hmem
    have hr : e.req.request ∈ R := (requests_inEnvironment h fun _ _ hc => hc).2 e he
    rw [hreq] at hr
    exact ⟨r', hsaves, hsame r' hr' r hr hkey hfingerprint⟩
  · cases mv with
    | advance i ω =>
      intro a ha q k hp
      cases q with
      | get key => exact fun value hget => storeOf_get hok.2 hget
      | _ => trivial
    | finish i => trivial
    | crash i => trivial

/-! ## A record that is returned to another request -/

/-- A server with nothing in flight. -/
def idle (redis : Redis T) (next : ℕ)
    (log : List (Entry ApiCall IdempotencyExc IdempotencyResult)) :
    IdempotencyServer T ApiCall :=
  { db := (), world := redis, active := [], next := next, log := log }

/-- A server with one call in flight. -/
def inFlight (redis : Redis T) (next : ℕ)
    (log : List (Entry ApiCall IdempotencyExc IdempotencyResult)) (call : ApiCall)
    (p : IdempotencyTxn IdempotencyResult) : IdempotencyServer T ApiCall :=
  { db := (), world := redis, active := [⟨⟨next, call, ()⟩, p⟩], next := next + 1, log := log }

def replyFirst : IdempotencyLabel T ApiCall := .act (.move (.advance 0 ()))

def endFirst : IdempotencyLabel T ApiCall := .act (.move (.finish 0))

variable {redis : Redis T} {n : ℕ} {log : List (Entry ApiCall IdempotencyExc IdempotencyResult)}
  {r r' : HttpRequest}

section Steps

variable {call : ApiCall} {ls : List (IdempotencyLabel T ApiCall)}

theorem run_arrives : runFrom ((service m (ApiCall.call py)).stepIn Keyspace.elapse)
    (idle redis n log) (.act (.start call) :: ls) =
    runFrom ((service m (ApiCall.call py)).stepIn Keyspace.elapse)
      (inFlight redis n log call (program m (call.call py))) ls := rfl

theorem run_replied {q : RedisQuery} {k : RedisAnswer q → IdempotencyTxn IdempotencyResult} :
    runFrom ((service m (ApiCall.call py)).stepIn Keyspace.elapse)
      (inFlight redis n log call (.ask q k)) (replyFirst :: ls) =
    runFrom ((service m (ApiCall.call py)).stepIn Keyspace.elapse)
      (inFlight (q.effect redis) n log call (k (answer redis q))) ls := rfl

theorem run_ends {w : IdempotencyResult} :
    runFrom ((service m (ApiCall.call py)).stepIn Keyspace.elapse)
      (inFlight redis n log call (.done w)) [endFirst] =
    some (idle redis (n + 1) (⟨n, call, .committed w⟩ :: log)) := rfl

end Steps

theorem run_start_absent (hget : redis.get (formatKey r.tenantId r.idempotencyKey) = none) :
    runFrom ((service m (ApiCall.call py)).stepIn Keyspace.elapse) (idle redis n log)
      [.act (.start (.start r)), replyFirst, replyFirst, endFirst] =
    some (idle (redis.set (formatKey r.tenantId r.idempotencyKey)
      (.json (.obj (inProgressRecord (r.fingerprint py)))) (some m.ttl)) (n + 1)
      (⟨n, .start r, .committed (.started none)⟩ :: log)) := by
  have hanswer : answer redis (.get (formatKey r.tenantId r.idempotencyKey)) =
      (none : Option RedisValue) := hget
  rw [run_arrives, ApiCall.call, program_start, run_replied, hanswer, checkExisting, register,
    run_replied, run_ends]
  rfl

theorem run_save (statusCode : Int) (body : Dict) :
    runFrom ((service m (ApiCall.call py)).stepIn Keyspace.elapse) (idle redis n log)
      [.act (.start (.save r statusCode body)), replyFirst, endFirst] =
    some (idle (redis.set (formatKey r.tenantId r.idempotencyKey)
      (.json (.obj (completedRecord (r.fingerprint py) statusCode body))) (some m.ttl)) (n + 1)
      (⟨n, .save r statusCode body, .committed .saved⟩ :: log)) := rfl

theorem run_start_found {statusCode : Int} {body : Dict}
    (hget : redis.get (formatKey r.tenantId r.idempotencyKey) =
      some (.json (.obj (completedRecord (r.fingerprint py) statusCode body)))) :
    runFrom ((service m (ApiCall.call py)).stepIn Keyspace.elapse) (idle redis n log)
      [.act (.start (.start r)), replyFirst, endFirst] =
    some (idle redis (n + 1)
      (⟨n, .start r, .committed
        (.started (some (completedRecord (r.fingerprint py) statusCode body)))⟩ :: log)) := by
  have hanswer : answer redis (.get (formatKey r.tenantId r.idempotencyKey)) = some _ := hget
  rw [run_arrives, ApiCall.call, program_start, run_replied, hanswer, checkExisting_completed,
    if_pos rfl, register, run_ends]
  rfl

/-- The first request is registered and its response saved; then the second is made. -/
def replayed (r r' : HttpRequest) : List (IdempotencyLabel T ApiCall) :=
  [.act (.start (.start r)), replyFirst, replyFirst, endFirst] ++
    ([.act (.start (.save r 200 [])), replyFirst, endFirst] ++
      [.act (.start (.start r')), replyFirst, endFirst])

omit [Ring T] [LinearOrder T] in
theorem replayed_over (hr : r ∈ R) (hr' : r' ∈ R) (srv : IdempotencyServer T ApiCall) :
    ∀ l ∈ (replayed r r' : List (IdempotencyLabel T ApiCall)), Over R srv l := by
  simp [replayed, replyFirst, endFirst, Over, ApiCall.request, hr, hr']

omit [Ring T] [LinearOrder T] in
theorem saves_replayed {record : Dict} {r'' : HttpRequest}
    (h : Saves py (replayed r r' : List (IdempotencyLabel T ApiCall)) r'' record) : r'' = r := by
  obtain ⟨statusCode, body, hmem, -⟩ := h
  simp only [replayed, replyFirst, endFirst, List.mem_append, List.mem_cons,
    List.not_mem_nil] at hmem
  simp at hmem
  exact hmem.1

/-- The second request is given the record of the first. -/
theorem replayed_returns [IsStrictOrderedRing T] (m : Manager) (now : T)
    (hkey : formatKey r.tenantId r.idempotencyKey = formatKey r'.tenantId r'.idempotencyKey)
    (hfingerprint : r.fingerprint py = r'.fingerprint py) :
    ∃ redis log, runFrom ((service m (ApiCall.call py)).stepIn Keyspace.elapse)
      (Server.init () (.empty now)) (replayed r r') = some (idle redis 3
        (⟨2, .start r',
            .committed (.started (some (completedRecord (r'.fingerprint py) 200 [])))⟩ ::
          log)) := by
  have hfound : ∀ redis : Redis T, (redis.set (formatKey r.tenantId r.idempotencyKey)
      (.json (.obj (completedRecord (r.fingerprint py) 200 []))) (some m.ttl)).get
        (formatKey r'.tenantId r'.idempotencyKey) =
      some (.json (.obj (completedRecord (r'.fingerprint py) 200 []))) := fun redis => by
    rw [← hkey, ← hfingerprint]
    exact redis.get_set_self _ _ m.ttl_pos
  exact ⟨_, _, runFrom_trans (run_start_absent (Keyspace.get_of_absent rfl))
    (runFrom_trans (run_save 200 []) (run_start_found (hfound _)))⟩

/-- Where completed records are returned to their own in every run, requests that share their key in
    Redis and their fingerprint are the same. -/
theorem same_of_returned [IsStrictOrderedRing T] {m : Manager} {now : T}
    (hevery : ∀ ls srv, Reaches ((service m (ApiCall.call py)).stepIn Keyspace.elapse) (Over R)
      (Server.init () (.empty now)) ls srv → ReturnedToOwn py ls srv) (hr : r ∈ R) (hr' : r' ∈ R)
    (hkey : formatKey r.tenantId r.idempotencyKey = formatKey r'.tenantId r'.idempotencyKey)
    (hfingerprint : r.fingerprint py = r'.fingerprint py) : SameRequest py r r' := by
  obtain ⟨redis, log, hrun⟩ := replayed_returns m now hkey hfingerprint
  have hreaches := reaches_of_allSteps _ _ _ hrun
    (allSteps_of_forall (fun s => replayed_over hr hr' s) _)
  obtain ⟨r'', hsaves, hsame⟩ := hevery _ _ hreaches _ List.mem_cons_self r' _ rfl rfl
  exact saves_replayed hsaves ▸ hsame

/-- Over a set of requests, completed records are returned only to requests like those that have
    saved them, in every run, exactly when no two different requests of the set are ambiguous. -/
theorem returned_to_own_iff [IsStrictOrderedRing T] (m : Manager) (now : T)
    (hsha : Set.InjOn py.sha256 (HttpRequest.hashed py '' R)) :
    (∀ ls srv, Reaches ((service m (ApiCall.call py)).stepIn Keyspace.elapse) (Over R)
      (Server.init () (.empty now)) ls srv → ReturnedToOwn py ls srv) ↔
    ∀ r ∈ R, ∀ r' ∈ R, Ambiguous py r r' → SameRequest py r r' := by
  constructor
  · intro hevery r hr r' hr' hambiguous
    obtain ⟨hkey, hfingerprint⟩ := (ambiguous_iff hsha hr hr').mp hambiguous
    exact same_of_returned hevery hr hr' hkey hfingerprint
  · intro hsame ls srv h
    refine returned_to_own (storeOf_empty now) (fun r hr r' hr' hkey hfingerprint => ?_) h
    exact hsame r hr r' hr' ((ambiguous_iff hsha hr hr').mpr ⟨hkey, hfingerprint⟩)

end Runs

/-! ## Two paths -/

instance (py : Python) (r r' : HttpRequest) : Decidable (SameRequest py r r') :=
  decidable_of_iff (r.tenantId = r'.tenantId ∧ r.idempotencyKey = r'.idempotencyKey ∧
    py.upper r.method = py.upper r'.method ∧ r.path = r'.path ∧
    r.payload.map (Payload.content py) = r'.payload.map (Payload.content py))
    ⟨fun ⟨h₁, h₂, h₃, h₄, h₅⟩ => ⟨h₁, h₂, h₃, h₄, h₅⟩,
      fun ⟨h₁, h₂, h₃, h₄, h₅⟩ => ⟨h₁, h₂, h₃, h₄, h₅⟩⟩

instance (py : Python) (r r' : HttpRequest) : Decidable (Ambiguous py r r') :=
  decidable_of_iff (tenantOrGlobal r.tenantId ++ ":" ++ r.idempotencyKey =
      tenantOrGlobal r'.tenantId ++ ":" ++ r'.idempotencyKey ∧
    utf8 (py.upper r.method ++ r.path ++ tenantOrGlobal r.tenantId) ++ hashedPayload py r.payload =
      utf8 (py.upper r'.method ++ r'.path ++ tenantOrGlobal r'.tenantId) ++
        hashedPayload py r'.payload)
    ⟨fun ⟨h₁, h₂⟩ => ⟨h₁, h₂⟩, fun ⟨h₁, h₂⟩ => ⟨h₁, h₂⟩⟩

/-- Python on the requests below: their texts have ASCII letters and no floats. -/
def python : Python where
  upper s := String.ofList (s.toList.map Char.toUpper)
  sha256 bytes :=
    if bytes = utf8 "POST/api/v1/orderstenant-1\x7b\"item\": \"A\", \"qty\": 1\x7d" then
      "8cc8a94772feccb3e7df3dfe337af6f3cdc0a9f89eb6fe6e22f82754d15b0452"
    else if bytes = utf8 "POST/api/v1/orderstenant-1\x7b\"item\": \"B\", \"qty\": 1\x7d" then
      "72a0544c164b54a1bd1a3cdc3f090ef14dae68d020b8e097bc51d2a988b8a7c2"
    else if bytes = utf8 "PUT/orders/1112" then
      "c3cc12ee468f8faef4bbfea97022588278323f232fabeb3353b3c1d5b4fab24d"
    else ""
  floatRepr _ := ""

/-- An order of one item. -/
def orderItem (method item : String) (payload : Dict) : HttpRequest :=
  { method, path := "/api/v1/orders", tenantId := some "tenant-1", idempotencyKey := item
    payload := some (.dict payload) }

/-- The order, the same order written otherwise, and another under its key. -/
def orders : List HttpRequest :=
  [orderItem "POST" "key-123" [("item", .str "A"), ("qty", .int 1)],
    orderItem "post" "key-123" [("qty", .int 1), ("item", .str "A")],
    orderItem "POST" "key-123" [("item", .str "B"), ("qty", .int 1)]]

theorem injOn_list {rs : List HttpRequest}
    (h : ∀ r ∈ rs, ∀ r' ∈ rs, python.sha256 (r.hashed python) = python.sha256 (r'.hashed python) →
      r.hashed python = r'.hashed python) :
    Set.InjOn python.sha256 (HttpRequest.hashed python '' {r | r ∈ rs}) := by
  rintro _ ⟨r, hr, rfl⟩ _ ⟨r', hr', rfl⟩ heq
  exact h r hr r' hr' heq

theorem returned_to_own_orders :
    (∃ r ∈ orders, ∃ r' ∈ orders, r.method ≠ r'.method ∧ Ambiguous python r r') ∧
    ∀ (ls : List (IdempotencyLabel ℤ ApiCall)) (srv : IdempotencyServer ℤ ApiCall),
      Reaches ((service {} (ApiCall.call python)).stepIn Keyspace.elapse) (Over {r | r ∈ orders})
        (Server.init () (.empty 0)) ls srv → ReturnedToOwn python ls srv :=
  have hsame : ∀ r ∈ orders, ∀ r' ∈ orders, Ambiguous python r r' → SameRequest python r r' := by
    decide +kernel
  ⟨by decide +kernel, (returned_to_own_iff {} 0 (injOn_list (by decide +kernel))).mpr hsame⟩

/-- A text is put under a path of tenant `1`. -/
def put (path text : String) : HttpRequest :=
  { method := "PUT", path, tenantId := some "1", idempotencyKey := "key-123"
    payload := some (.str text) }

/-- A cached response can be returned to another request than the one that produced it. -/
theorem returned_to_other : ¬ ∀ (py : Python) (m : Manager) (R : Set HttpRequest),
    Set.InjOn py.sha256 (HttpRequest.hashed py '' R) →
    ∀ (now : ℤ) (ls : List (IdempotencyLabel ℤ ApiCall)) (srv : IdempotencyServer ℤ ApiCall),
      Reaches ((service m (ApiCall.call py)).stepIn Keyspace.elapse) (Over R)
        (Server.init () (.empty now)) ls srv → ReturnedToOwn py ls srv := by
  intro hevery
  have hsame : SameRequest python (put "/orders/1" "12") (put "/orders/11" "2") :=
    same_of_returned (hevery python {} {r | r ∈ [put "/orders/1" "12", put "/orders/11" "2"]}
      (injOn_list (by decide +kernel)) 0) (by simp) (by simp) (by decide +kernel)
        (by decide +kernel)
  exact absurd hsame (by decide +kernel)

end CloudScale.Idempotency
