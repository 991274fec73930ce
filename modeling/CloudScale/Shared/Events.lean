/-
  The wire format (`cloudscale_shared/events.py`): the `Event` schema, Kafka records and
  `send_event`.

  `validate` is `Event(**d)` on a dict: missing fields take their defaults, a field of the wrong
  type is a `ValidationError` (`none`). `validate_lookup`: validation keeps every field it was
  given (`version` and `retry_count` may be coerced). `validate_modelDump`: what `model_dump`
  writes validates to the same event, so nothing is lost between producer and consumer.
-/
import CloudScale.Shared.Json

namespace CloudScale.Shared

/-! ## The event schema -/

/-- `Event`, a pydantic model. -/
structure Event where
  eventId : String
  eventType : String
  timestamp : String
  correlationId : String
  payload : Dict
  version : Int := 1
  retryCount : Int := 0

/-- What `default_factory` yields when a field is missing. -/
structure Draws where
  eventId : String
  timestamp : String

namespace Event

/-- `Event.model_fields`. -/
def modelFields : List String :=
  ["event_id", "event_type", "timestamp", "correlation_id", "payload", "version", "retry_count"]

def modelDump (e : Event) : Dict :=
  [("event_id", .str e.eventId), ("event_type", .str e.eventType), ("timestamp", .str e.timestamp),
    ("correlation_id", .str e.correlationId), ("payload", .obj e.payload),
    ("version", .int e.version), ("retry_count", .int e.retryCount)]

/-- A field with a default. -/
def optField {α : Type} (conv : Json → Option α) (default : α) : Option Json → Option α
  | some j => conv j
  | none => some default

/-- A required field. -/
def reqField {α : Type} (conv : Json → Option α) (j : Option Json) : Option α := j.bind conv

/-- `Event(**d)`; `none` is a `ValidationError` (keys outside the model are ignored). -/
def validate (rt : Runtime) (draws : Draws) (d : Dict) : Option Event := do
  let eventId ← optField Json.strField draws.eventId (d.lookup "event_id")
  let eventType ← reqField Json.strField (d.lookup "event_type")
  let timestamp ← optField Json.strField draws.timestamp (d.lookup "timestamp")
  let correlationId ← reqField Json.strField (d.lookup "correlation_id")
  let payload ← reqField Json.dictField (d.lookup "payload")
  let version ← optField rt.intField 1 (d.lookup "version")
  let retryCount ← optField rt.intField 0 (d.lookup "retry_count")
  return { eventId, eventType, timestamp, correlationId, payload, version, retryCount }

end Event

/-- `inject_trace_into_event`: an empty carrier is not injected. -/
def injectTrace (carrier d : Dict) : Dict :=
  if carrier.isEmpty then d else d.insert "_trace_context" (.obj carrier)

/-! ## Messages -/

/-- A record as the consumer receives it. -/
structure KafkaMessage where
  topic : String
  partition : Int
  offset : Int
  key : Option ByteArray
  value : Json

/-- A record acknowledged by the broker. -/
structure Publication where
  topic : String
  key : Option String
  value : Dict

/-- `send_event`; `none` is the exception it re-raises. -/
def sendEvent (acked : Bool) (carrier : Dict) (topic : String) (event : Event)
    (key : Option String) : Option Publication :=
  if acked then some { topic, key, value := injectTrace carrier event.modelDump } else none

/-- `msg.key.decode("utf-8") if msg.key else None`; the outer `none` is a `UnicodeDecodeError`. -/
def decodeKey : Option ByteArray → Option (Option String)
  | none => some none
  | some b => if b.isEmpty then some none else (String.fromUTF8? b).map some

/-! ## Validation -/

theorem strField_eq_some {j : Json} {s : String} (h : j.strField = some s) : j = .str s := by
  cases j <;> simp [Json.strField] at h
  rw [h]

theorem dictField_eq_some {j : Json} {d : Dict} (h : j.dictField = some d) : j = .obj d := by
  cases j <;> simp [Json.dictField] at h
  rw [h]

/-- The fields a validated event copies from the dict it was built from. -/
def copiedFields : List String :=
  ["event_id", "event_type", "timestamp", "correlation_id", "payload"]

/-- What a successful validation read. -/
theorem validate_eq_some {rt : Runtime} {draws : Draws} {d : Dict} {e : Event}
    (h : Event.validate rt draws d = some e) :
    Event.optField Json.strField draws.eventId (d.lookup "event_id") = some e.eventId ∧
      Event.reqField Json.strField (d.lookup "event_type") = some e.eventType ∧
      Event.optField Json.strField draws.timestamp (d.lookup "timestamp") = some e.timestamp ∧
      Event.reqField Json.strField (d.lookup "correlation_id") = some e.correlationId ∧
      Event.reqField Json.dictField (d.lookup "payload") = some e.payload := by
  simp only [Event.validate, Option.bind_eq_bind, Option.bind_eq_some_iff, Option.pure_def,
    Option.some.injEq] at h
  obtain ⟨i, hi, t, ht, ts, hts, c, hc, p, hp, ve, -, rc, -, rfl⟩ := h
  exact ⟨hi, ht, hts, hc, hp⟩

theorem validate_lookup {rt : Runtime} {draws : Draws} {d : Dict} {e : Event}
    (h : Event.validate rt draws d = some e) {k : String} (hk : k ∈ copiedFields) {v : Json}
    (hv : d.lookup k = some v) : e.modelDump.lookup k = some v := by
  obtain ⟨hi, ht, hts, hc, hp⟩ := validate_eq_some h
  simp only [copiedFields, List.mem_cons, List.not_mem_nil, or_false] at hk
  rcases hk with rfl | rfl | rfl | rfl | rfl
  · rw [hv] at hi
    rw [strField_eq_some hi]
    rfl
  · rw [hv] at ht
    rw [strField_eq_some ht]
    rfl
  · rw [hv] at hts
    rw [strField_eq_some hts]
    rfl
  · rw [hv] at hc
    rw [strField_eq_some hc]
    rfl
  · rw [hv] at hp
    rw [dictField_eq_some hp]
    rfl

theorem validate_modelDump (rt : Runtime) (draws : Draws) (e : Event) :
    Event.validate rt draws e.modelDump = some e := by
  simp [Event.validate, Event.modelDump, Event.optField, Event.reqField, List.lookup_cons,
    Json.strField, Json.dictField, rt.intField_int]

theorem lookup_filter_key (d : Dict) (p : String → Bool) (k : String) (hk : p k = true) :
    List.lookup k (d.filter fun kv => p kv.1) = d.lookup k := by
  induction d with
  | nil => rfl
  | cons kv d ih =>
    obtain ⟨k', v'⟩ := kv
    by_cases hp : p k' = true
    · rw [List.filter_cons_of_pos (by simpa using hp), lookup_cons_ite, lookup_cons_ite, ih]
    · have hne : k ≠ k' := fun h => hp (h ▸ hk)
      rw [List.filter_cons_of_neg (by simpa using hp), lookup_cons_ite, if_neg hne, ih]

theorem lookup_injectTrace (carrier d : Dict) {k : String} (hk : k ≠ "_trace_context") :
    (injectTrace carrier d).lookup k = d.lookup k := by
  unfold injectTrace
  split
  · rfl
  · exact lookup_insert_ne d _ hk

end CloudScale.Shared
