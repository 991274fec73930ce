/-
  The consumer wrapper (`KafkaConsumerWrapper` in `cloudscale_shared/events.py`) with its retry
  and dead-letter routing.

  A message's value is arbitrary JSON. `consumeMessage` is one iteration of `consume_loop`: the
  handler runs, the offset is committed, and on a failure `handleFailure` publishes a copy to
  `<topic>-retry` or `<topic>-dlq` before the offset is committed all the same. What the model
  does not compute is in `Env`: what the handler did, whether each publication was acknowledged,
  whether each commit went through, the clock and the generated ids.

  `consumeLoop_accounted_iff`: every message the loop commits past was handled or has an
  acknowledged copy exactly when every failed message it reaches is `Preservable`. A message
  whose publications all fail is committed and lost (`consumeLoop_commits_lost_message`).
-/
import CloudScale.Shared.Events

namespace CloudScale.Shared

/-- What one iteration of the loop does not decide itself. `handler` covers everything in the
    `try` block up to the commit: trace extraction, the span and the handler. -/
structure Env where
  running : Bool
  handler : Except String Unit
  commit : Except String Unit
  failureCommit : Bool
  producer : Bool
  retryAck : Bool
  dlqAck : Bool
  retryDraws : Draws
  dlqDraws : Draws
  carrier : Dict
  now : String

/-! ## Failure routing -/

variable (rt : Runtime) (maxRetries : Int)

/-- `event_data.get("retry_count", 0)`. -/
def retryCountOf (data : Dict) : Json := (data.lookup "retry_count").getD (.int 0)

/-- `event_data` after `event_data["retry_count"] = retry_count + 1`. -/
def countRetry (data : Dict) : Dict :=
  data.insert "retry_count" ((retryCountOf data).addOne rt)

/-- `{k: v for k, v in event_data.items() if k in Event.model_fields}`. -/
def eventFields (data : Dict) : Dict := data.filter fun kv => Event.modelFields.contains kv.1

/-- The `try` block of the retry branch. -/
def sendToRetry (env : Env) (msg : KafkaMessage) (data : Dict) : Option Publication := do
  let event ← Event.validate rt env.retryDraws (eventFields data)
  if env.producer then
    let key ← decodeKey msg.key
    sendEvent env.retryAck env.carrier (msg.topic ++ "-retry") event key
  else none

def dlqPayload (env : Env) (msg : KafkaMessage) (data : Dict) (error : String) : Dict :=
  [("original_topic", .str msg.topic), ("original_partition", .int msg.partition),
    ("original_offset", .int msg.offset), ("error", .str error), ("payload", .obj data),
    ("timestamp", .str env.now)]

/-- The `try` block of `_send_to_dlq`. -/
def dlqPublication (env : Env) (msg : KafkaMessage) (data : Dict) (error : String) :
    Option Publication := do
  let event ← Event.validate rt env.dlqDraws
    [("event_type", .str "DLQMessage"),
      ("correlation_id", (data.lookup "correlation_id").getD (.str "unknown")),
      ("payload", .obj (dlqPayload env msg data error))]
  if env.producer then
    let key ← decodeKey msg.key
    sendEvent env.dlqAck env.carrier (msg.topic ++ "-dlq") event key
  else none

/-- `_send_to_dlq`: a failure is logged and swallowed. -/
def sendToDlq (env : Env) (msg : KafkaMessage) (data : Dict) (error : String) :
    List Publication :=
  (dlqPublication rt env msg data error).toList

/-- `_handle_failure`; `none` is the `TypeError` of an unordered `retry_count`, which is raised
    outside its `try`. -/
def handleFailure (env : Env) (msg : KafkaMessage) (data : Dict) (error : String) :
    Option (List Publication) :=
  match (retryCountOf data).ltInt maxRetries with
  | none => none
  | some true => match sendToRetry rt env msg (countRetry rt data) with
    | some p => some [p]
    -- the dict was mutated before the attempt, so the DLQ copy carries the new count
    | none => some (sendToDlq rt env msg (countRetry rt data) error)
  | some false => some (sendToDlq rt env msg data error)

/-! ## The loop -/

/-- What happened to one message: the handler returned, copies were acknowledged, the offset was
    committed, or an exception left the iteration and ended the loop. -/
structure StepResult where
  handled : Bool
  published : List Publication
  committed : Bool
  ended : Bool

/-- The `except` clause of the iteration. -/
def afterFailure (env : Env) (msg : KafkaMessage) (data : Dict) (handled : Bool)
    (error : String) : StepResult :=
  match handleFailure rt maxRetries env msg data error with
  | none => { handled, published := [], committed := false, ended := true }
  | some published =>
    { handled, published, committed := env.failureCommit, ended := !env.failureCommit }

/-- One iteration of `consume_loop`. -/
def consumeMessage (env : Env) (msg : KafkaMessage) : StepResult :=
  match msg.value with
  | .obj data => match env.handler, env.commit with
    | .ok (), .ok () => { handled := true, published := [], committed := true, ended := false }
    | .ok (), .error e => afterFailure rt maxRetries env msg data true e
    | .error e, _ => afterFailure rt maxRetries env msg data false e
  -- `event_data.get` fails on anything but a dict, outside the inner `try`
  | _ => { handled := false, published := [], committed := false, ended := true }

/-- A message that reached the loop, with what happened to it. -/
structure Delivery where
  env : Env
  msg : KafkaMessage
  result : StepResult

/-- `consume_loop` over the messages the iterator yields: it stops after `stop()` or when an
    exception leaves an iteration. -/
def consumeLoop : List (Env × KafkaMessage) → List Delivery
  | [] => []
  | (env, msg) :: rest =>
    if env.running then
      let result := consumeMessage rt maxRetries env msg
      ⟨env, msg, result⟩ :: if result.ended then [] else consumeLoop rest
    else []

/-! ## Which messages are accounted for -/

/-- Two dicts carry the same event, up to the retry counter. -/
def SameEvent (d d' : Dict) : Prop := ∀ k, k ≠ "retry_count" → d.lookup k = d'.lookup k

/-- A copy on `<topic>-retry` carries the fields of the event that were present. -/
def RetryCopy (msg : KafkaMessage) (data : Dict) (p : Publication) : Prop :=
  p.topic = msg.topic ++ "-retry" ∧
    ∀ k ∈ copiedFields, ∀ v, data.lookup k = some v → p.value.lookup k = some v

/-- A copy on `<topic>-dlq` embeds the event under `payload.payload`. -/
def DlqCopy (msg : KafkaMessage) (data : Dict) (p : Publication) : Prop :=
  p.topic = msg.topic ++ "-dlq" ∧ ∃ d d', p.value.lookup "payload" = some (.obj d) ∧
    d.lookup "payload" = some (.obj d') ∧ SameEvent d' data

/-- The handler returned normally, or a copy of the event was acknowledged. -/
def Delivery.Accounted (x : Delivery) : Prop :=
  x.result.handled = true ∨ ∃ data, x.msg.value = .obj data ∧
    ∃ p ∈ x.result.published, RetryCopy x.msg data p ∨ DlqCopy x.msg data p

/-- The retry publication goes through. -/
def CanRetry (env : Env) (msg : KafkaMessage) (data : Dict) : Prop :=
  (Event.validate rt env.retryDraws (eventFields (countRetry rt data))).isSome ∧
    env.producer = true ∧ (decodeKey msg.key).isSome ∧ env.retryAck = true

/-- The dead-letter publication goes through. -/
def CanDlq (env : Env) (msg : KafkaMessage) (data : Dict) : Prop :=
  (((data.lookup "correlation_id").getD (.str "unknown")).strField).isSome ∧
    env.producer = true ∧ (decodeKey msg.key).isSome ∧ env.dlqAck = true

/-- If the handler failed and the failure path ends in a commit, one of the publications it
    attempts goes through. -/
def Preservable (env : Env) (msg : KafkaMessage) : Prop :=
  ∀ data e, msg.value = .obj data → env.handler = .error e → env.failureCommit = true →
    ∀ retry, (retryCountOf data).ltInt maxRetries = some retry →
      (retry = true ∧ CanRetry rt env msg data) ∨ CanDlq env msg data

/-! ## Publications -/

theorem ne_of_mem_copiedFields {k x : String} (hk : k ∈ copiedFields) (hx : x ∉ copiedFields) :
    k ≠ x := fun h => hx (h ▸ hk)

theorem copiedFields_modelFields : ∀ x ∈ copiedFields, Event.modelFields.contains x = true := by
  decide

theorem lookup_countRetry (data : Dict) {k : String} (hk : k ≠ "retry_count") :
    (countRetry rt data).lookup k = data.lookup k := lookup_insert_ne data _ hk

theorem sameEvent_countRetry (data : Dict) : SameEvent (countRetry rt data) data :=
  fun _ hk => lookup_countRetry rt data hk

variable {rt} {env : Env} {msg : KafkaMessage} {data : Dict}

/-- When the retry publication is acknowledged, and what it is. -/
theorem sendToRetry_eq_some {p : Publication} :
    sendToRetry rt env msg data = some p ↔ ∃ e k,
      Event.validate rt env.retryDraws (eventFields data) = some e ∧ env.producer = true ∧
      decodeKey msg.key = some k ∧ env.retryAck = true ∧
      p = { topic := msg.topic ++ "-retry", key := k,
            value := injectTrace env.carrier e.modelDump } := by
  simp only [sendToRetry, sendEvent, Option.bind_eq_bind, Option.bind_eq_some_iff,
    Option.ite_none_right_eq_some, Option.some.injEq]
  constructor
  · rintro ⟨e, he, hp, k, hk, ha, rfl⟩
    exact ⟨e, k, he, hp, hk, ha, rfl⟩
  · rintro ⟨e, k, he, hp, hk, ha, rfl⟩
    exact ⟨e, he, hp, k, hk, ha, rfl⟩

theorem sendToRetry_isSome :
    (sendToRetry rt env msg (countRetry rt data)).isSome ↔ CanRetry rt env msg data := by
  simp only [Option.isSome_iff_exists, sendToRetry_eq_some, CanRetry]
  constructor
  · rintro ⟨p, e, k, he, hp, hk, ha, -⟩
    exact ⟨⟨e, he⟩, hp, ⟨k, hk⟩, ha⟩
  · rintro ⟨⟨e, he⟩, hp, ⟨k, hk⟩, ha⟩
    exact ⟨_, e, k, he, hp, hk, ha, rfl⟩

theorem sendToRetry_copy {p : Publication}
    (h : sendToRetry rt env msg (countRetry rt data) = some p) : RetryCopy msg data p := by
  obtain ⟨e, k, he, -, -, -, rfl⟩ := sendToRetry_eq_some.mp h
  refine ⟨rfl, fun x hx v hv => ?_⟩
  rw [← lookup_countRetry rt data (ne_of_mem_copiedFields hx (by decide))] at hv
  rw [lookup_injectTrace _ _ (ne_of_mem_copiedFields hx (by decide))]
  refine validate_lookup he hx ?_
  have hfield : Event.modelFields.contains x = true := copiedFields_modelFields x hx
  rw [eventFields, lookup_filter_key _ _ x hfield]
  exact hv

/-- The dead-letter event is valid as soon as its correlation id is a string. -/
theorem validate_dlqMessage (draws : Draws) (c : Json) (payload : Dict) :
    Event.validate rt draws [("event_type", .str "DLQMessage"), ("correlation_id", c),
        ("payload", .obj payload)] =
      c.strField.map fun c =>
        { eventId := draws.eventId, eventType := "DLQMessage", timestamp := draws.timestamp,
          correlationId := c, payload } := by
  cases c <;> rfl

/-- When the dead-letter publication is acknowledged, and what it is. -/
theorem dlqPublication_eq_some {error : String} {p : Publication} :
    dlqPublication rt env msg data error = some p ↔ ∃ c k,
      ((data.lookup "correlation_id").getD (.str "unknown")).strField = some c ∧
      env.producer = true ∧ decodeKey msg.key = some k ∧ env.dlqAck = true ∧
      p = { topic := msg.topic ++ "-dlq", key := k,
            value := injectTrace env.carrier (Event.modelDump
              { eventId := env.dlqDraws.eventId, eventType := "DLQMessage"
                timestamp := env.dlqDraws.timestamp, correlationId := c
                payload := dlqPayload env msg data error }) } := by
  simp only [dlqPublication, validate_dlqMessage, sendEvent, Option.bind_eq_bind,
    Option.bind_eq_some_iff, Option.map_eq_some_iff, Option.ite_none_right_eq_some,
    Option.some.injEq]
  constructor
  · rintro ⟨e, ⟨c, hc, rfl⟩, hp, k, hk, ha, rfl⟩
    exact ⟨c, k, hc, hp, hk, ha, rfl⟩
  · rintro ⟨c, k, hc, hp, hk, ha, rfl⟩
    exact ⟨_, ⟨c, hc, rfl⟩, hp, k, hk, ha, rfl⟩

theorem dlqPublication_isSome {error : String} {data' : Dict} (hsame : SameEvent data' data) :
    (dlqPublication rt env msg data' error).isSome ↔ CanDlq env msg data := by
  simp only [Option.isSome_iff_exists, dlqPublication_eq_some, CanDlq]
  rw [hsame _ (by decide)]
  constructor
  · rintro ⟨p, c, k, hc, hp, hk, ha, -⟩
    exact ⟨⟨c, hc⟩, hp, ⟨k, hk⟩, ha⟩
  · rintro ⟨⟨c, hc⟩, hp, ⟨k, hk⟩, ha⟩
    exact ⟨_, c, k, hc, hp, hk, ha, rfl⟩

theorem dlqPublication_copy {error : String} {p : Publication} {data' : Dict}
    (h : dlqPublication rt env msg data' error = some p) (hsame : SameEvent data' data) :
    DlqCopy msg data p := by
  obtain ⟨c, k, -, -, -, -, rfl⟩ := dlqPublication_eq_some.mp h
  refine ⟨rfl, dlqPayload env msg data' error, data', ?_, rfl, hsame⟩
  rw [lookup_injectTrace _ _ (by decide)]
  rfl

/-! ## One iteration -/

variable {maxRetries : Int}

/-- A failed message whose `retry_count` is ordered has a copy published exactly when one of the
    publications that are attempted goes through. -/
theorem handleFailure_copy_iff {error : String} {retry : Bool} {published : List Publication}
    (hr : (retryCountOf data).ltInt maxRetries = some retry)
    (h : handleFailure rt maxRetries env msg data error = some published) :
    (∃ p ∈ published, RetryCopy msg data p ∨ DlqCopy msg data p) ↔
      (retry = true ∧ CanRetry rt env msg data) ∨ CanDlq env msg data := by
  have hdlq : ∀ data', SameEvent data' data →
      ((∃ p ∈ sendToDlq rt env msg data' error, RetryCopy msg data p ∨ DlqCopy msg data p) ↔
        CanDlq env msg data) := by
    intro data' hsame
    have hsome : (dlqPublication rt env msg data' error).isSome ↔ CanDlq env msg data :=
      dlqPublication_isSome hsame
    rw [← hsome, Option.isSome_iff_exists]
    unfold sendToDlq
    constructor
    · rintro ⟨p, hp, -⟩
      exact ⟨p, Option.mem_toList.mp hp⟩
    · rintro ⟨p, hp⟩
      exact ⟨p, Option.mem_toList.mpr hp, Or.inr (dlqPublication_copy hp hsame)⟩
  unfold handleFailure at h
  rw [hr] at h
  cases retry with
  | false =>
    have hpub : sendToDlq rt env msg data error = published := Option.some.inj h
    rw [← hpub, hdlq data fun _ _ => rfl]
    simp
  | true =>
    have hcan : (sendToRetry rt env msg (countRetry rt data)).isSome ↔ CanRetry rt env msg data :=
      sendToRetry_isSome
    cases hs : sendToRetry rt env msg (countRetry rt data) with
    | some p =>
      simp only [hs, Option.some.injEq] at h
      subst h
      rw [hs] at hcan
      have hcopy : RetryCopy msg data p := sendToRetry_copy hs
      exact iff_of_true ⟨p, List.mem_singleton_self p, Or.inl hcopy⟩ (Or.inl ⟨rfl, hcan.mp rfl⟩)
    | none =>
      simp only [hs, Option.some.injEq] at h
      subst h
      rw [hs] at hcan
      have hno : ¬ CanRetry rt env msg data := fun hc => Bool.false_ne_true (hcan.mpr hc)
      rw [hdlq _ (sameEvent_countRetry rt data)]
      simp [hno]

/-- After a failure, what is committed is accounted for exactly when the message can be
    preserved. -/
theorem afterFailure_accounted_iff {error : String} (hv : msg.value = .obj data) :
    ((afterFailure rt maxRetries env msg data false error).committed = true →
      Delivery.Accounted ⟨env, msg, afterFailure rt maxRetries env msg data false error⟩) ↔
      (env.failureCommit = true → ∀ retry, (retryCountOf data).ltInt maxRetries = some retry →
        (retry = true ∧ CanRetry rt env msg data) ∨ CanDlq env msg data) := by
  unfold afterFailure
  cases hf : handleFailure rt maxRetries env msg data error with
  | none =>
    have hr : (retryCountOf data).ltInt maxRetries = none := by
      unfold handleFailure at hf
      split at hf
      · assumption
      · split at hf <;> cases hf
      · cases hf
    simp [hr]
  | some published =>
    obtain ⟨retry, hr⟩ : ∃ retry, (retryCountOf data).ltInt maxRetries = some retry := by
      cases hr : (retryCountOf data).ltInt maxRetries with
      | none => simp [handleFailure, hr] at hf
      | some retry => exact ⟨retry, rfl⟩
    have hcopy := handleFailure_copy_iff hr hf
    simp only [Delivery.Accounted, hv, hr, Bool.false_eq_true, false_or, JsonTree.obj.injEq,
      exists_eq_left', Option.some.injEq, forall_eq', hcopy]

/-- A message whose handler returned counts as handled, whatever the commit does. -/
theorem consumeMessage_handled (hv : msg.value = .obj data) (hh : env.handler = .ok ()) :
    (consumeMessage rt maxRetries env msg).handled = true := by
  unfold consumeMessage
  rw [hv, hh]
  cases env.commit with
  | ok _ => rfl
  | error e => unfold afterFailure; dsimp only; split <;> rfl

/-- One iteration commits an accounted message exactly when the message is preservable. -/
theorem consumeMessage_accounted_iff :
    ((consumeMessage rt maxRetries env msg).committed = true →
      Delivery.Accounted ⟨env, msg, consumeMessage rt maxRetries env msg⟩) ↔
      Preservable rt maxRetries env msg := by
  cases hv : msg.value with
  | obj data =>
    cases hh : env.handler with
    | ok _ =>
      refine iff_of_true (fun _ => Or.inl (consumeMessage_handled hv hh)) ?_
      intro _ e _ he
      rw [hh] at he
      cases he
    | error e =>
      have hstep : consumeMessage rt maxRetries env msg =
          afterFailure rt maxRetries env msg data false e := by
        simp only [consumeMessage, hv, hh]
      rw [hstep, afterFailure_accounted_iff hv]
      simp [Preservable, hv, hh]
  | _ => simp [consumeMessage, Preservable, hv]

/-! ## The loop -/

theorem consumeLoop_result {feed : List (Env × KafkaMessage)} :
    ∀ d ∈ consumeLoop rt maxRetries feed, d.result = consumeMessage rt maxRetries d.env d.msg := by
  induction feed with
  | nil =>
    intro d hd
    rw [consumeLoop] at hd
    exact absurd hd List.not_mem_nil
  | cons em rest ih =>
    obtain ⟨env, msg⟩ := em
    intro d hd
    rw [consumeLoop] at hd
    split at hd
    · rcases List.mem_cons.mp hd with rfl | hd
      · rfl
      · split at hd
        · cases hd
        · exact ih d hd
    · cases hd

/-- Every message the loop commits past was handled or has an acknowledged copy exactly when
    every message that reaches the loop is preservable. -/
theorem consumeLoop_accounted_iff (rt : Runtime) (maxRetries : Int)
    (feed : List (Env × KafkaMessage)) :
    (∀ d ∈ consumeLoop rt maxRetries feed, d.result.committed = true → d.Accounted) ↔
      ∀ d ∈ consumeLoop rt maxRetries feed, Preservable rt maxRetries d.env d.msg := by
  refine forall_congr' fun d => forall_congr' fun hd => ?_
  obtain ⟨env, msg, result⟩ := d
  have hres : result = consumeMessage rt maxRetries env msg := consumeLoop_result _ hd
  subst hres
  exact consumeMessage_accounted_iff

/-! ## A lost message -/

/-- The handler raises and the broker acknowledges neither copy. -/
def brokerDown : Env where
  running := true
  handler := .error "handler failed"
  commit := .ok ()
  failureCommit := true
  producer := true
  retryAck := false
  dlqAck := false
  retryDraws := ⟨"e1", "t1"⟩
  dlqDraws := ⟨"e2", "t2"⟩
  carrier := []
  now := "t0"

def orderCreatedMessage : KafkaMessage where
  topic := "order-events"
  partition := 0
  offset := 0
  key := none
  value := .obj (Event.modelDump
    { eventId := "e0", eventType := "OrderCreatedEvent", timestamp := "t0",
      correlationId := "c0", payload := [] })

/-- The offset of a message is committed although the handler failed and no copy of it was
    published: `_send_to_dlq` swallows its failure and the commit follows unconditionally. -/
theorem consumeLoop_commits_lost_message :
    ∃ d ∈ consumeLoop Runtime.exact 3 [(brokerDown, orderCreatedMessage)],
      d.msg = orderCreatedMessage ∧ d.result.committed = true ∧ d.result.published = [] ∧
        ¬ d.Accounted := by
  refine ⟨_, List.mem_singleton_self _, rfl, rfl, rfl, ?_⟩
  rintro (h | ⟨_, _, p, hp, _⟩)
  · exact Bool.false_ne_true h
  · cases hp

end CloudScale.Shared
