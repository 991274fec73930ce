/-
  Which messages stop a consumer (`consume_loop` in `cloudscale_shared/events.py`).

  `Consumer` follows what is published and committed; this module follows how far the loop gets.
  A `Visit` is one message with everything that decides its iteration, the handler's hold on the
  dict included: it is handed `event_data` itself and may change it. Trace extraction
  (`extract_trace_from_event`) runs before the handler and in the same `try`; `propagate` is the
  propagator it calls, which lies outside the repository. An iteration whose handler leaves the
  dict alone is `consumeMessage` (`consumeLoop_results`).

  `consumeLoop_progress_iff`: the loop visits every message up to `stop()`, leaves none of them
  by an exception and hands each one to the handler, to `<topic>-retry` or to `<topic>-dlq`
  exactly when all of them are `Digestible`. A value that is not a dict is never digestible: its
  `get` fails outside the inner `try`, the loop ends and the offset is not committed
  (`consumeLoop_stopped_by_null`).
-/
import CloudScale.Shared.Consumer

namespace CloudScale.Shared.PoisonMessage

/-! ## One message -/

/-- A message that the iterator yields. `env.handler` is how the handler returns, `mutate` what it
    does to the dict it is given. -/
structure Visit where
  env : Env
  msg : KafkaMessage
  mutate : Dict → Dict := id

variable (rt : Runtime) (maxRetries : Int) (propagate : Dict → Except String Unit)

/-- `extract_trace_from_event`, up to the context it returns. -/
def extractTraceFromEvent (data : Dict) : Except String Unit :=
  match data.lookup "_trace_context" with
  | some (.obj carrier) => if carrier.isEmpty then .ok () else propagate carrier
  | _ => .ok ()

/-- What happened to a message, and whether the handler was called with it. -/
structure Receipt where
  visit : Visit
  called : Bool
  result : StepResult

/-- One iteration of `consume_loop`. -/
def consumeMessage (v : Visit) : Receipt :=
  match v.msg.value with
  | .obj data => match extractTraceFromEvent propagate data with
    | .error e => ⟨v, false, afterFailure rt maxRetries v.env v.msg data false e⟩
    | .ok () => match v.env.handler, v.env.commit with
      | .ok (), .ok () =>
        ⟨v, true, { handled := true, published := [], committed := true, ended := false }⟩
      | .ok (), .error e =>
        ⟨v, true, afterFailure rt maxRetries v.env v.msg (v.mutate data) true e⟩
      | .error e, _ =>
        ⟨v, true, afterFailure rt maxRetries v.env v.msg (v.mutate data) false e⟩
  -- `event_data.get` fails on anything but a dict, outside the inner `try`
  | _ => ⟨v, false, { handled := false, published := [], committed := false, ended := true }⟩

/-- `consume_loop` over the messages the iterator yields. -/
def consumeLoop : List Visit → List Receipt
  | [] => []
  | v :: rest =>
    if v.env.running then
      let receipt := consumeMessage rt maxRetries propagate v
      receipt :: if receipt.result.ended then [] else consumeLoop rest
    else []

/-! ## Progress -/

/-- The messages the iterator yields before `stop()`. -/
def beforeStop (visits : List Visit) : List Visit := visits.takeWhile fun v => v.env.running

/-- The message was handed to the handler, or a copy of it was acknowledged. -/
def Receipt.Served (r : Receipt) : Prop :=
  r.called = true ∨ ∃ data, r.visit.msg.value = .obj data ∧
    ∃ p ∈ r.result.published, RetryCopy r.visit.msg data p ∨ DlqCopy r.visit.msg data p

/-- A number, as `retry_count < max_retries` needs it. -/
def Number : Json → Prop
  | .num _ | .bool _ => True
  | _ => False

/-- A publication that `_handle_failure` attempts for `data` goes through. -/
def Preserved (env : Env) (msg : KafkaMessage) (data : Dict) : Prop :=
  ((retryCountOf data).ltInt maxRetries = some true ∧ CanRetry rt env msg data) ∨
    CanDlq env msg data

/-- The `try` block raises on the dict `data`, which is then `left`. -/
def Visit.Raises (v : Visit) (data left : Dict) : Prop :=
  ((∃ e, extractTraceFromEvent propagate data = .error e) ∧ left = data) ∨
    (extractTraceFromEvent propagate data = .ok () ∧
      (v.env.handler = .ok () → v.env.commit ≠ .ok ()) ∧ left = v.mutate data)

/-- The iteration neither ends the loop nor passes over the message. -/
structure Digestible (v : Visit) : Prop where
  /-- The value is a dict. -/
  dict : ∃ data, v.msg.value = .obj data
  /-- Whatever raises leaves a `retry_count` that is a number, or none. -/
  counted : ∀ data left, v.msg.value = .obj data → v.Raises propagate data left →
    Number (retryCountOf left)
  /-- The commit that follows a failure goes through. -/
  committed : ∀ data left, v.msg.value = .obj data → v.Raises propagate data left →
    v.env.failureCommit = true
  /-- A trace context that cannot be read comes in an event that can be published again. -/
  copied : ∀ data e, v.msg.value = .obj data → extractTraceFromEvent propagate data = .error e →
    Preserved rt maxRetries v.env v.msg data

/-- Every message before `stop()` is reached and served, and none ends the loop. -/
def Progress (visits : List Visit) : Prop :=
  (consumeLoop rt maxRetries propagate visits).map Receipt.visit = beforeStop visits ∧
    ∀ r ∈ consumeLoop rt maxRetries propagate visits, r.result.ended = false ∧ r.Served

/-! ## The failure path -/

theorem ltInt_eq_some_iff {j : Json} {m : Int} : (∃ b, j.ltInt m = some b) ↔ Number j := by
  cases j with
  | num n => cases n <;> simp [Json.ltInt, Number]
  | _ => simp [Json.ltInt, Number]

variable {rt maxRetries propagate} {env : Env} {msg : KafkaMessage} {data left : Dict}

/-- `_handle_failure` raises exactly on a `retry_count` that is not a number. -/
theorem handleFailure_eq_some_iff {error : String} :
    (∃ published, handleFailure rt maxRetries env msg data error = some published) ↔
      Number (retryCountOf data) := by
  have hnum : (∃ b, (retryCountOf data).ltInt maxRetries = some b) ↔ Number (retryCountOf data) :=
    ltInt_eq_some_iff
  rw [← hnum]
  unfold handleFailure
  cases (retryCountOf data).ltInt maxRetries with
  | none => simp
  | some retry =>
    refine iff_of_true ?_ ⟨retry, rfl⟩
    cases retry with
    | false => exact ⟨_, rfl⟩
    | true =>
      dsimp only
      split <;> exact ⟨_, rfl⟩

theorem afterFailure_ended_iff {error : String} {handled : Bool} :
    (afterFailure rt maxRetries env msg data handled error).ended = false ↔
      Number (retryCountOf data) ∧ env.failureCommit = true := by
  have hsome : (∃ published, handleFailure rt maxRetries env msg data error = some published) ↔
      Number (retryCountOf data) := handleFailure_eq_some_iff
  unfold afterFailure
  cases hf : handleFailure rt maxRetries env msg data error with
  | none =>
    have hnum : ¬ Number (retryCountOf data) := by
      rw [← hsome, hf]
      simp
    simp [hnum]
  | some published =>
    have hnum : Number (retryCountOf data) := hsome.mp ⟨published, hf⟩
    simp [hnum]

/-- The failure path publishes a copy exactly when one of its publications goes through. -/
theorem afterFailure_copy_iff {error : String} {handled : Bool}
    (hnum : Number (retryCountOf data)) :
    (∃ p ∈ (afterFailure rt maxRetries env msg data handled error).published,
        RetryCopy msg data p ∨ DlqCopy msg data p) ↔ Preserved rt maxRetries env msg data := by
  obtain ⟨published, hf⟩ :
      ∃ published, handleFailure rt maxRetries env msg data error = some published :=
    handleFailure_eq_some_iff.mpr hnum
  obtain ⟨retry, hr⟩ : ∃ retry, (retryCountOf data).ltInt maxRetries = some retry :=
    ltInt_eq_some_iff.mpr hnum
  have hpub : (afterFailure rt maxRetries env msg data handled error).published = published := by
    unfold afterFailure
    rw [hf]
  rw [hpub, handleFailure_copy_iff hr hf, Preserved, hr, Option.some.injEq]

/-! ## One iteration -/

variable {v : Visit}

/-- A message with a dict, when its `try` block raises. -/
theorem digestible_of_raises (hv : v.msg.value = .obj data) (hr : v.Raises propagate data left) :
    Digestible rt maxRetries propagate v ↔
      Number (retryCountOf left) ∧ v.env.failureCommit = true ∧
        ∀ e, extractTraceFromEvent propagate data = .error e →
          Preserved rt maxRetries v.env v.msg data := by
  constructor
  · intro h
    exact ⟨h.counted data left hv hr, h.committed data left hv hr, fun e => h.copied data e hv⟩
  · rintro ⟨hnum, hcommit, hcopy⟩
    have hdata : ∀ data', v.msg.value = .obj data' → data' = data := by
      intro data' hv'
      rw [hv] at hv'
      exact (JsonTree.obj.inj hv').symm
    refine ⟨⟨data, hv⟩, ?_, fun _ _ _ _ => hcommit, ?_⟩
    · intro data' left' hv' hr'
      obtain rfl := hdata data' hv'
      have hleft : left' = left := by
        rcases hr with ⟨⟨e, he⟩, rfl⟩ | ⟨hok, -, rfl⟩
        · rcases hr' with ⟨-, hl⟩ | ⟨hok', -⟩
          · exact hl
          · rw [he] at hok'
            cases hok'
        · rcases hr' with ⟨⟨e, he⟩, -⟩ | ⟨-, -, hl⟩
          · rw [hok] at he
            cases he
          · exact hl
      rw [hleft]
      exact hnum
    · intro data' e hv'
      obtain rfl := hdata data' hv'
      exact hcopy e

/-- The handler was called and raised, or the commit after it did. -/
theorem digestible_of_called (hv : v.msg.value = .obj data)
    (hok : extractTraceFromEvent propagate data = .ok ())
    (hfail : v.env.handler = .ok () → v.env.commit ≠ .ok ()) :
    Digestible rt maxRetries propagate v ↔
      Number (retryCountOf (v.mutate data)) ∧ v.env.failureCommit = true := by
  rw [digestible_of_raises hv (Or.inr ⟨hok, hfail, rfl⟩), hok]
  simp

theorem digestible_of_handled (hv : v.msg.value = .obj data)
    (hok : extractTraceFromEvent propagate data = .ok ()) (hh : v.env.handler = .ok ())
    (hc : v.env.commit = .ok ()) : Digestible rt maxRetries propagate v := by
  have hdata : ∀ data', v.msg.value = .obj data' →
      extractTraceFromEvent propagate data' = .ok () := by
    intro data' hv'
    rw [hv] at hv'
    rw [← JsonTree.obj.inj hv']
    exact hok
  have hraise : ∀ data' left, v.msg.value = .obj data' → ¬ v.Raises propagate data' left := by
    rintro data' left hv' (⟨⟨e, he⟩, -⟩ | ⟨-, hfail, -⟩)
    · rw [hdata data' hv'] at he
      cases he
    · exact hfail hh hc
  refine ⟨⟨data, hv⟩, ?_, ?_, ?_⟩
  · intro data' left hv' hr
    exact absurd hr (hraise data' left hv')
  · intro data' left hv' hr
    exact absurd hr (hraise data' left hv')
  · intro data' e hv' he
    rw [hdata data' hv'] at he
    cases he

/-- One iteration serves its message and lets the loop go on exactly when the message is
    digestible. -/
theorem consumeMessage_served_iff :
    ((consumeMessage rt maxRetries propagate v).result.ended = false ∧
        (consumeMessage rt maxRetries propagate v).Served) ↔
      Digestible rt maxRetries propagate v := by
  cases hv : v.msg.value with
  | obj data =>
    cases hx : extractTraceFromEvent propagate data with
    | error e =>
      have hstep : consumeMessage rt maxRetries propagate v =
          ⟨v, false, afterFailure rt maxRetries v.env v.msg data false e⟩ := by
        simp only [consumeMessage, hv, hx]
      rw [hstep, digestible_of_raises hv (Or.inl ⟨⟨e, hx⟩, rfl⟩), afterFailure_ended_iff]
      simp only [Receipt.Served, hv, hx, Bool.false_eq_true, false_or, JsonTree.obj.injEq,
        exists_eq_left', Except.error.injEq, forall_eq', and_assoc]
      refine and_congr_right fun hnum => ?_
      rw [afterFailure_copy_iff hnum]
    | ok u =>
      cases hh : v.env.handler with
      | error e =>
        have hfail : v.env.handler = .ok () → v.env.commit ≠ .ok () := by
          rw [hh]
          intro h
          cases h
        have hstep : consumeMessage rt maxRetries propagate v =
            ⟨v, true, afterFailure rt maxRetries v.env v.msg (v.mutate data) false e⟩ := by
          simp only [consumeMessage, hv, hx, hh]
        rw [hstep, digestible_of_called hv hx hfail, afterFailure_ended_iff]
        exact and_iff_left (Or.inl rfl)
      | ok u' =>
        cases hc : v.env.commit with
        | error e =>
          have hfail : v.env.handler = .ok () → v.env.commit ≠ .ok () := by
            rw [hc]
            intro _ h
            cases h
          have hstep : consumeMessage rt maxRetries propagate v =
              ⟨v, true, afterFailure rt maxRetries v.env v.msg (v.mutate data) true e⟩ := by
            simp only [consumeMessage, hv, hx, hh, hc]
          rw [hstep, digestible_of_called hv hx hfail, afterFailure_ended_iff]
          exact and_iff_left (Or.inl rfl)
        | ok u'' =>
          have hstep : consumeMessage rt maxRetries propagate v =
              ⟨v, true, { handled := true, published := [], committed := true,
                          ended := false }⟩ := by
            simp only [consumeMessage, hv, hx, hh, hc]
          rw [hstep]
          exact iff_of_true ⟨rfl, Or.inl rfl⟩ (digestible_of_handled hv hx hh hc)
  | _ =>
    have hdict : ¬ Digestible rt maxRetries propagate v := by
      intro h
      obtain ⟨data, hdata⟩ := h.dict
      rw [hv] at hdata
      cases hdata
    simp [consumeMessage, hv, hdict]

/-! ## The loop -/

variable {visits : List Visit}

/-- The loop gets past a message exactly when the message is digestible. -/
theorem progress_cons (hrun : v.env.running = true) :
    Progress rt maxRetries propagate (v :: visits) ↔
      Digestible rt maxRetries propagate v ∧ Progress rt maxRetries propagate visits := by
  have hvisit : (consumeMessage rt maxRetries propagate v).visit = v := by
    unfold consumeMessage
    repeat' split
    all_goals rfl
  have hstop : beforeStop (v :: visits) = v :: beforeStop visits := List.takeWhile_cons_of_pos hrun
  rw [← consumeMessage_served_iff]
  simp only [Progress, consumeLoop, hrun, if_true, hstop, List.map_cons, hvisit,
    List.cons.injEq, true_and, List.mem_cons, forall_eq_or_imp]
  cases (consumeMessage rt maxRetries propagate v).result.ended with
  | true => simp
  | false => simp only [Bool.false_eq_true, if_false]; tauto

theorem progress_stopped (hrun : v.env.running = false) :
    Progress rt maxRetries propagate (v :: visits) := by
  simp [Progress, consumeLoop, beforeStop, hrun]

/-- The loop reaches and serves every message before `stop()` and is ended by none of them
    exactly when each of them is digestible. -/
theorem consumeLoop_progress_iff (rt : Runtime) (maxRetries : Int)
    (propagate : Dict → Except String Unit) (visits : List Visit) :
    Progress rt maxRetries propagate visits ↔
      ∀ v ∈ beforeStop visits, Digestible rt maxRetries propagate v := by
  induction visits with
  | nil => simp [Progress, consumeLoop, beforeStop]
  | cons v visits ih =>
    cases hrun : v.env.running with
    | true =>
      have hstop : beforeStop (v :: visits) = v :: beforeStop visits :=
        List.takeWhile_cons_of_pos hrun
      rw [progress_cons hrun, ih, hstop, List.forall_mem_cons]
    | false =>
      have hstop : beforeStop (v :: visits) = [] := by
        simp [beforeStop, hrun]
      rw [hstop]
      exact iff_of_true (progress_stopped hrun) fun _ h => absurd h List.not_mem_nil

/-! ## The loop of `Consumer` -/

/-- The whole `try` block up to the commit, as one outcome. -/
def Visit.tried (propagate : Dict → Except String Unit) (v : Visit) : Except String Unit :=
  match v.msg.value with
  | .obj data => do
    extractTraceFromEvent propagate data
    v.env.handler
  | _ => v.env.handler

def Visit.feed (propagate : Dict → Except String Unit) (v : Visit) : Env × KafkaMessage :=
  ({ v.env with handler := v.tried propagate }, v.msg)

/-- `_handle_failure` does not look at how the handler returned. -/
theorem afterFailure_handler {error : String} {handled : Bool} (outcome : Except String Unit) :
    afterFailure rt maxRetries { env with handler := outcome } msg data handled error =
      afterFailure rt maxRetries env msg data handled error := rfl

theorem consumeMessage_result (hkeep : v.mutate = id) :
    (consumeMessage rt maxRetries propagate v).result =
      Shared.consumeMessage rt maxRetries (v.feed propagate).1 v.msg := by
  cases hv : v.msg.value with
  | obj data =>
    simp only [consumeMessage, Shared.consumeMessage, Visit.feed, Visit.tried, hv, hkeep, id_eq,
      afterFailure_handler]
    cases extractTraceFromEvent propagate data with
    | error e => rfl
    | ok u =>
      show _ = match v.env.handler, v.env.commit with
        | .ok (), .ok () => _
        | .ok (), .error e => _
        | .error e, _ => _
      cases v.env.handler <;> cases v.env.commit <;> rfl
  | _ => simp only [consumeMessage, Shared.consumeMessage, hv]

/-- Handlers that leave the dict alone make this loop the one of `Consumer`. -/
theorem consumeLoop_results (hkeep : ∀ v ∈ visits, v.mutate = id) :
    (consumeLoop rt maxRetries propagate visits).map Receipt.result =
      (Shared.consumeLoop rt maxRetries (visits.map (Visit.feed propagate))).map
        Delivery.result := by
  induction visits with
  | nil => rfl
  | cons v visits ih =>
    have hres : (consumeMessage rt maxRetries propagate v).result =
        Shared.consumeMessage rt maxRetries (v.feed propagate).1 v.msg :=
      consumeMessage_result (hkeep v List.mem_cons_self)
    have hrest := ih fun w hw => hkeep w (List.mem_cons_of_mem v hw)
    have hfeed : v.feed propagate = ((v.feed propagate).1, v.msg) := rfl
    have hrun : (v.feed propagate).1.running = v.env.running := rfl
    rw [List.map_cons, hfeed]
    simp only [consumeLoop, Shared.consumeLoop, hrun, hres]
    split
    · split
      · rw [List.map_singleton, hres]
        rfl
      · rw [List.map_cons, List.map_cons, hres, hrest]
    · rfl

/-! ## A message that stops the consumer -/

/-- Everything around the consumer works. -/
def healthy : Env :=
  { brokerDown with handler := .ok (), retryAck := true, dlqAck := true }

def nullVisit : Visit := { env := healthy, msg := { orderCreatedMessage with value := .null } }

def orderVisit : Visit := { env := healthy, msg := { orderCreatedMessage with offset := 1 } }

/-- A record whose value is `null` ends the loop: the order behind it is never handled, and as
    the offset of the `null` is not committed, a restarted consumer meets it again. -/
theorem consumeLoop_stopped_by_null :
    beforeStop [nullVisit, orderVisit] = [nullVisit, orderVisit] ∧
      (consumeLoop Runtime.exact 3 (fun _ => .ok ()) [nullVisit, orderVisit]).map
        (fun r => (r.visit.msg.offset, r.result.committed)) = [(0, false)] ∧
      ¬ Progress Runtime.exact 3 (fun _ => .ok ()) [nullVisit, orderVisit] := by
  refine ⟨rfl, rfl, ?_⟩
  rintro ⟨hmap, -⟩
  have hlength := congrArg List.length hmap
  cases hlength

end CloudScale.Shared.PoisonMessage
