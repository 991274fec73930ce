/-
  Idempotency keys (`cloudscale_shared/idempotency.py`).

  `start_processing` looks the record of a key up in Redis and registers the request when there is
  none, in two commands; `save_response` and `clear_key` are one command each. Redis is a
  `Keyspace`, and each command is a step of its own. The text that `json.dumps` stores is
  represented by the value that `json.loads` gives back; a text that is no JSON is one too.

  `StoreOf`: what holds of every value that is written holds of every value that is read
  (`reaches_storeOf`).
-/
import CloudScale.Shared.JsonAccess
import CloudScale.Lib.Environment
import CloudScale.Lib.Keyspace
import Mathlib.Data.List.Sort

namespace CloudScale.Idempotency

open CloudScale.Lib CloudScale.Shared

/-! ## Fingerprints -/

/-- What the fingerprint rests on: `str.upper`, the hexadecimal SHA-256 digest, and `repr` of a
    finite float. -/
structure Python where
  upper : String → String
  sha256 : List UInt8 → String
  floatRepr : ℚ → String

/-- `s.encode("utf-8")`. -/
def utf8 (s : String) : List UInt8 := s.toList.flatMap String.utf8EncodeChar

theorem utf8_append (s t : String) : utf8 (s ++ t) = utf8 s ++ utf8 t := by
  simp [utf8]

/-- `\u` and four digits. -/
def escapeUnit (n : ℕ) : String :=
  "\\u" ++ String.ofList ((List.range 4).reverse.map fun i => Nat.digitChar (n / 16 ^ i % 16))

/-- A character of a JSON string, as `json.dumps` writes it by default (`ensure_ascii`). -/
def escapeChar (c : Char) : String :=
  if c = '"' then "\\\""
  else if c = '\\' then "\\\\"
  else if c = '\n' then "\\n"
  else if c = '\r' then "\\r"
  else if c = '\t' then "\\t"
  else if c.toNat = 8 then "\\b"
  else if c.toNat = 12 then "\\f"
  else if 32 ≤ c.toNat ∧ c.toNat ≤ 126 then c.toString
  else if c.toNat < 0x10000 then escapeUnit c.toNat
  else
    let n := c.toNat - 0x10000
    escapeUnit (0xd800 + n / 0x400) ++ escapeUnit (0xdc00 + n % 0x400)

def quote (s : String) : String := "\"" ++ String.join (s.toList.map escapeChar) ++ "\""

def floatText (py : Python) : PyFloat → String
  | .finite q => py.floatRepr q
  | .inf false => "Infinity"
  | .inf true => "-Infinity"
  | .nan => "NaN"

mutual

/-- `json.dumps(value, sort_keys=True)`. -/
def dumps (py : Python) : Json → String
  | .null => "null"
  | .bool true => "true"
  | .bool false => "false"
  | .int n => toString n
  | .float x => floatText py x
  | .str s => quote s
  | .arr xs => "[" ++ ", ".intercalate (dumpsItems py xs) ++ "]"
  | .obj fields =>
    let items := (dumpsFields py fields).insertionSort fun a b => a.1 ≤ b.1
    "\x7b" ++ ", ".intercalate (items.map fun kv => quote kv.1 ++ ": " ++ kv.2) ++ "\x7d"

def dumpsItems (py : Python) : List Json → List String
  | [] => []
  | x :: xs => dumps py x :: dumpsItems py xs

def dumpsFields (py : Python) : List (String × Json) → List (String × String)
  | [] => []
  | (k, v) :: fields => (k, dumps py v) :: dumpsFields py fields

end

inductive Payload where
  | dict (d : Dict)
  | bytes (b : List UInt8)
  | str (s : String)

/-- The bytes of a payload that are hashed. -/
def hashedPayload (py : Python) : Option Payload → List UInt8
  | some (.dict d) => utf8 (dumps py (.obj d))
  | some (.bytes b) => b
  | some (.str s) => utf8 s
  | none => []

/-- `tenant_id or "global"`. -/
def tenantOrGlobal : Option String → String
  | some tenantId => if tenantId.isEmpty then "global" else tenantId
  | none => "global"

/-- `compute_request_fingerprint`. -/
def computeRequestFingerprint (py : Python) (method path : String) (tenantId : Option String)
    (payload : Option Payload) : String :=
  py.sha256 (utf8 (py.upper method) ++ utf8 path ++ utf8 (tenantOrGlobal tenantId) ++
    hashedPayload py payload)

/-- `_format_key`. -/
def formatKey (tenantId : Option String) (key : String) : String :=
  "idempotency:" ++ tenantOrGlobal tenantId ++ ":" ++ key

/-! ## Records -/

/-- A text in Redis. -/
inductive RedisValue where
  | json (j : Json)
  | text (s : String)

abbrev Redis (T : Type) := Keyspace String RedisValue T

def inProgressRecord (fingerprint : String) : Dict :=
  [("fingerprint", .str fingerprint), ("status", .str "IN_PROGRESS"), ("status_code", .null),
    ("body", .null)]

def completedRecord (fingerprint : String) (statusCode : Int) (body : Dict) : Dict :=
  [("fingerprint", .str fingerprint), ("status", .str "COMPLETED"),
    ("status_code", .int statusCode),
    ("body", .obj body)]

structure CloudScaleException where
  message : String
  code : String
  statusCode : Int
deriving DecidableEq

inductive IdempotencyExc where
  | cloudScale (e : CloudScaleException)
  | valueError
  | python (e : PyError)
deriving DecidableEq

def keyMismatch : CloudScaleException :=
  { message := "Idempotency key reused with different request payload"
    code := "IDEMPOTENCY_KEY_MISMATCH", statusCode := 409 }

def concurrentRequest : CloudScaleException :=
  { message := "Concurrent request in progress with this idempotency key"
    code := "IDEMPOTENCY_CONCURRENT_REQUEST", statusCode := 409 }

/-- The text of a field, if it is one. -/
def textOf (record : Dict) (key : String) : Option String := (record.lookup key).bind Json.strField

/-- What `start_processing` makes of the value it finds: the record to return, `none` to register
    the request, or an exception. -/
def checkExisting (fingerprint : String) : Option RedisValue → Except IdempotencyExc (Option Dict)
  | none => .ok none
  | some (.text s) => if s.isEmpty then .ok none else .error .valueError
  | some (.json (.obj record)) =>
    if textOf record "fingerprint" ≠ some fingerprint then .error (.cloudScale keyMismatch)
    else if textOf record "status" = some "IN_PROGRESS" then .error (.cloudScale concurrentRequest)
    else if textOf record "status" = some "COMPLETED" then .ok (some record)
    else .ok none
  | some (.json _) => .error (.python .attributeError)

@[simp] theorem checkExisting_inProgress (fingerprint found : String) :
    checkExisting fingerprint (some (.json (.obj (inProgressRecord found)))) =
      if found = fingerprint then .error (.cloudScale concurrentRequest)
      else .error (.cloudScale keyMismatch) := by
  simp [checkExisting, inProgressRecord, textOf, Json.strField, List.lookup_cons]

@[simp] theorem checkExisting_completed (fingerprint found : String) (statusCode : Int)
    (body : Dict) :
    checkExisting fingerprint (some (.json (.obj (completedRecord found statusCode body)))) =
      if found = fingerprint then .ok (some (completedRecord found statusCode body))
      else .error (.cloudScale keyMismatch) := by
  simp [checkExisting, completedRecord, textOf, Json.strField, List.lookup_cons]

/-! ## Operations -/

inductive RedisQuery where
  | get (key : String)
  | set (key : String) (value : RedisValue) (ex : Int)
  | delete (key : String)

abbrev RedisAnswer : RedisQuery → Type
  | .get _ => Option RedisValue
  | .set _ _ _ => Unit
  | .delete _ => Unit

abbrev IdempotencyTxn (R : Type) := Txn RedisQuery RedisAnswer IdempotencyExc R

/-- `IdempotencyManager`; Redis refuses a time to live that is not positive. -/
structure Manager where
  ttl : Int := 86400
  ttl_pos : 0 < ttl := by decide

/-- `start_processing`. -/
def startProcessing (m : Manager) (tenantId : Option String)
    (idempotencyKey fingerprint : String) : IdempotencyTxn (Option Dict) := do
  let redisKey := formatKey tenantId idempotencyKey
  match checkExisting fingerprint (← Txn.query (RedisQuery.get redisKey)) with
  | .error e => .raise e
  | .ok (some record) => return some record
  | .ok none =>
    Txn.query (RedisQuery.set redisKey (.json (.obj (inProgressRecord fingerprint))) m.ttl)
    return none

/-- `save_response`. -/
def saveResponse (m : Manager) (tenantId : Option String) (idempotencyKey fingerprint : String)
    (statusCode : Int) (body : Dict) : IdempotencyTxn Unit :=
  Txn.query (RedisQuery.set (formatKey tenantId idempotencyKey)
    (.json (.obj (completedRecord fingerprint statusCode body))) m.ttl)

/-- `clear_key`. -/
def clearKey (tenantId : Option String) (idempotencyKey : String) : IdempotencyTxn Unit :=
  Txn.query (RedisQuery.delete (formatKey tenantId idempotencyKey))

inductive IdempotencyRequest where
  | startProcessing (tenantId : Option String) (idempotencyKey fingerprint : String)
  | saveResponse (tenantId : Option String) (idempotencyKey fingerprint : String) (statusCode : Int)
      (body : Dict)
  | clearKey (tenantId : Option String) (idempotencyKey : String)

inductive IdempotencyResult where
  | started (cached : Option Dict)
  | saved
  | cleared

def program (m : Manager) : IdempotencyRequest → IdempotencyTxn IdempotencyResult
  | .startProcessing tenantId idempotencyKey fingerprint => do
    return .started (← startProcessing m tenantId idempotencyKey fingerprint)
  | .saveResponse tenantId idempotencyKey fingerprint statusCode body => do
    saveResponse m tenantId idempotencyKey fingerprint statusCode body
    return .saved
  | .clearKey tenantId idempotencyKey => do
    clearKey tenantId idempotencyKey
    return .cleared

section Service

variable {T τ : Type} [Ring T] [LinearOrder T]

def answer (redis : Redis T) : (q : RedisQuery) → RedisAnswer q
  | .get key => redis.get key
  | .set _ _ _ => ()
  | .delete _ => ()

def RedisQuery.effect : RedisQuery → Redis T → Redis T
  | .get _, redis => redis
  | .set key value ex, redis => redis.set key value (some ex)
  | .delete key, redis => redis.del key

/-- The manager with callers whose calls are `call`. -/
def service (m : Manager) (call : τ → IdempotencyRequest) :
    Service Unit (Redis T) τ Unit RedisQuery RedisAnswer IdempotencyExc IdempotencyResult where
  prog _ c := program m (call c)
  answer _ redis _ q := answer redis q
  effect := RedisQuery.effect
  commit _ db := some db

abbrev IdempotencyServer (T τ : Type) :=
  Server Unit (Redis T) τ RedisQuery RedisAnswer IdempotencyExc IdempotencyResult

/-- A step of a caller, or of the clock. -/
abbrev IdempotencyLabel (T τ : Type) := EnvLabel T (Label τ Unit)

end Service

/-- The rest of `start_processing`, once the lookup is answered. -/
def register (m : Manager) (redisKey fingerprint : String) :
    Except IdempotencyExc (Option Dict) → IdempotencyTxn IdempotencyResult
  | .error e => .raise e
  | .ok (some record) => .done (.started (some record))
  | .ok none => .ask (.set redisKey (.json (.obj (inProgressRecord fingerprint))) m.ttl) fun _ =>
    .done (.started none)

theorem program_start (m : Manager) (tenantId : Option String)
    (idempotencyKey fingerprint : String) :
    program m (.startProcessing tenantId idempotencyKey fingerprint) =
      .ask (.get (formatKey tenantId idempotencyKey)) fun (found : Option RedisValue) =>
        register m (formatKey tenantId idempotencyKey) fingerprint
          (checkExisting fingerprint found) := by
  show startProcessing m tenantId idempotencyKey fingerprint >>= _ = _
  unfold startProcessing
  refine congrArg (Txn.ask _) (funext fun (found : Option RedisValue) => ?_)
  show (match checkExisting fingerprint found with
    | .error e => _ | .ok (some record) => _ | .ok none => _ :
        IdempotencyTxn (Option Dict)) >>= _ = _
  cases checkExisting fingerprint found with
  | error e => rfl
  | ok cached =>
    cases cached with
    | none => rfl
    | some record => rfl

/-! ## What is stored -/

/-- The key in Redis that a call is about. -/
def IdempotencyRequest.redisKey : IdempotencyRequest → String
  | .startProcessing tenantId idempotencyKey _ => formatKey tenantId idempotencyKey
  | .saveResponse tenantId idempotencyKey _ _ _ => formatKey tenantId idempotencyKey
  | .clearKey tenantId idempotencyKey => formatKey tenantId idempotencyKey

/-- The value that a call may write. -/
def IdempotencyRequest.writes : IdempotencyRequest → Option RedisValue
  | .startProcessing _ _ fingerprint => some (.json (.obj (inProgressRecord fingerprint)))
  | .saveResponse _ _ fingerprint statusCode body =>
    some (.json (.obj (completedRecord fingerprint statusCode body)))
  | .clearKey _ _ => none

/-- The commands of a call. -/
def Issues (m : Manager) (r : IdempotencyRequest) : RedisQuery → Prop
  | .get key => key = r.redisKey
  | .set key value ex => key = r.redisKey ∧ r.writes = some value ∧ ex = m.ttl
  | .delete key => key = r.redisKey ∧ r.writes = none

theorem program_issues (m : Manager) (r : IdempotencyRequest) :
    (program m r).Asks (Issues m r) := by
  cases r with
  | startProcessing tenantId idempotencyKey fingerprint =>
    rw [program_start]
    refine ⟨rfl, fun found => ?_⟩
    beta_reduce
    unfold register
    split
    · trivial
    · trivial
    · exact ⟨⟨rfl, rfl, rfl⟩, fun _ => trivial⟩
  | saveResponse tenantId idempotencyKey fingerprint statusCode body =>
    exact ⟨⟨rfl, rfl, rfl⟩, fun _ => trivial⟩
  | clearKey tenantId idempotencyKey => exact ⟨⟨rfl, rfl⟩, fun _ => trivial⟩

section Stored

variable {T τ : Type} [Ring T] [LinearOrder T] {good : String → RedisValue → Prop}

def StoreOf (good : String → RedisValue → Prop) (redis : Redis T) : Prop :=
  ∀ key e, redis.entries key = some e → good key e.value

def Writes (good : String → RedisValue → Prop) : RedisQuery → Prop
  | .set key value _ => good key value
  | _ => True

omit [Ring T] [LinearOrder T] in
theorem storeOf_empty (now : T) : StoreOf good (.empty now) := Keyspace.holds_empty now

omit [Ring T] in
theorem storeOf_get {redis : Redis T} (h : StoreOf good redis) {key : String} {value : RedisValue}
    (hget : redis.get key = some value) : good key value :=
  Keyspace.Holds.get h hget

omit [LinearOrder T] in
theorem storeOf_effect {redis : Redis T} (h : StoreOf good redis) {q : RedisQuery}
    (hq : Writes good q) : StoreOf good (q.effect redis) := by
  cases q with
  | get key => exact h
  | set key value ex => exact Keyspace.Holds.set h hq (some ex)
  | delete key => exact Keyspace.Holds.del h key

/-- What is good of everything that the callers write is good of everything in the store, wherever a
    step is taken. -/
theorem reaches_storeOf {m : Manager} {call : τ → IdempotencyRequest}
    {ok : IdempotencyServer T τ → IdempotencyLabel T τ → Prop} {redis : Redis T}
    {ls : List (IdempotencyLabel T τ)} {srv : IdempotencyServer T τ}
    (h : Reaches ((service m call).stepIn Keyspace.elapse) ok (Server.init () redis) ls srv)
    (hredis : StoreOf good redis)
    (hstart : ∀ s c, ok s (.act (.start c)) →
      ∀ value, (call c).writes = some value → good (call c).redisKey value) :
    Reaches ((service m call).stepIn Keyspace.elapse) (fun s l => ok s l ∧ StoreOf good s.world)
      (Server.init () redis) ls srv := by
  have hwithin := h.within (fun s => StoreOf good s.world ∧ s.AllAsk fun _ => Writes good)
    ⟨hredis, allAsk_init () redis⟩ ?_
  · exact hwithin.imp fun _ _ _ hok => ⟨hok.1, hok.2.1⟩
  · intro s l s' hs hok hstep
    cases l with
    | drift t =>
      obtain ⟨redis', helapse, rfl⟩ := Option.map_eq_some_iff.mp hstep
      exact ⟨Keyspace.Holds.elapse hs.1 helapse, hs.2⟩
    | act l =>
      cases l with
      | start c =>
        obtain rfl := Option.some.inj hstep
        refine ⟨hs.1, allAsk_start hs.2 ((program_issues m (call c)).imp fun q hq => ?_)⟩
        cases q with
        | set key value ex =>
          obtain ⟨rfl, hvalue, -⟩ := hq
          exact hstart s c hok value hvalue
        | _ => trivial
      | move mv =>
        refine ⟨?_, allAsk_move hs.2 hstep⟩
        rcases move_world hs.2 hstep with hsame | ⟨a, -, q, hq, heffect⟩
        · exact hsame ▸ hs.1
        · rw [heffect]
          exact storeOf_effect hs.1 hq

end Stored

end CloudScale.Idempotency
