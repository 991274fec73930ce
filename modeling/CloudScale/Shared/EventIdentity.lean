/-
  An event on its way from `write_outbox` to a handler, a retry topic and the dead-letter topic
  (`outbox.py`, `events.py` and `tracing.py` of `cloudscale_shared`).

  The event is rebuilt from a dict at every hop: by the worker from the payload column, by
  `_handle_failure` from the fields of the dict the handler was given, each time with the trace
  context of the moment beside the fields. `WrittenIn e d` says that `d` holds the seven fields of
  `e`, whatever else it holds; each hop keeps it. `Publications` follows the outbox workers along
  every run, `Republished` the copies that a failing consumer makes.

  `event_identity`: after `n` republications the handler gets the event that was written, with
  `retry_count` raised by `n`, under the key it was written with; `_handle_failure` republishes
  while `retry_count + n < max_retries`, and then the dead letter embeds the dict the handler got.
  The bound is on the event's own counter: an event that starts above 0 is republished less often
  (`counted_before`).

  Who consumes a retry topic is not decided here; a handler is assumed to leave its dict alone.
-/
import CloudScale.Shared.OutboxWorkers
import CloudScale.Shared.PoisonMessage
import CloudScale.Shared.Subscriptions

namespace CloudScale.Shared

open CloudScale.Lib

/-! ## An event in a dict -/

/-- The fields of the event, as the dict holds them. -/
def Event.WrittenIn (e : Event) (d : Dict) : Prop :=
  ∀ k ∈ Event.modelFields, d.lookup k = e.modelDump.lookup k

/-- The event after `n` republications. -/
def Event.retried (e : Event) (n : ℕ) : Event := { e with retryCount := e.retryCount + n }

namespace EventIdentity

variable {rt : Runtime} {draws : Draws} {e : Event} {d carrier : Dict}

/-- Validation reads nothing but the fields. -/
theorem validate_congr {d' : Dict} (h : ∀ k ∈ Event.modelFields, d.lookup k = d'.lookup k) :
    Event.validate rt draws d = Event.validate rt draws d' := by
  simp only [Event.modelFields, List.forall_mem_cons] at h
  obtain ⟨h1, h2, h3, h4, h5, h6, h7, -⟩ := h
  unfold Event.validate
  rw [h1, h2, h3, h4, h5, h6, h7]

theorem writtenIn_modelDump (e : Event) : e.WrittenIn e.modelDump := fun _ _ => rfl

theorem ne_traceContext {k : String} (hk : k ∈ Event.modelFields) : k ≠ "_trace_context" := by
  intro h
  subst h
  revert hk
  decide

theorem writtenIn_injectTrace (h : e.WrittenIn d) (carrier : Dict) :
    e.WrittenIn (injectTrace carrier d) := by
  intro k hk
  rw [lookup_injectTrace carrier d (ne_traceContext hk)]
  exact h k hk

/-- `Event(**d)` gives the event back. -/
theorem validate_of_writtenIn (h : e.WrittenIn d) : Event.validate rt draws d = some e := by
  rw [validate_congr h]
  exact validate_modelDump rt draws e

theorem retryCountOf_of_writtenIn (h : e.WrittenIn d) : retryCountOf d = .int e.retryCount := by
  unfold retryCountOf
  rw [h "retry_count" (by decide)]
  rfl

theorem lookup_retried {k : String} (hk : k ∈ Event.modelFields) (hne : k ≠ "retry_count")
    (n : ℕ) : (e.retried n).modelDump.lookup k = e.modelDump.lookup k := by
  revert hne
  revert k
  simp only [Event.modelFields, List.forall_mem_cons]
  refine ⟨?_, ?_, ?_, ?_, ?_, ?_, ?_, fun _ h => absurd h List.not_mem_nil⟩
  all_goals intro hne
  all_goals first | rfl | exact absurd rfl hne

/-- Counting a republication touches the counter only. -/
theorem writtenIn_countRetry (h : e.WrittenIn d) : (e.retried 1).WrittenIn (countRetry rt d) := by
  intro k hk
  by_cases hne : k = "retry_count"
  · subst hne
    unfold countRetry
    rw [lookup_insert_self, retryCountOf_of_writtenIn h]
    rfl
  · rw [lookup_countRetry rt d hne, lookup_retried hk hne]
    exact h k hk

/-- The filter on `model_fields` drops nothing of the event. -/
theorem writtenIn_eventFields (h : e.WrittenIn d) : e.WrittenIn (eventFields d) := by
  intro k hk
  have hfield : Event.modelFields.contains k = true := List.contains_iff_mem.mpr hk
  rw [eventFields, lookup_filter_key _ _ k hfield]
  exact h k hk

theorem retried_zero (e : Event) : e.retried 0 = e := by
  simp [Event.retried]

theorem retried_retried (e : Event) (n : ℕ) : (e.retried n).retried 1 = e.retried (n + 1) := by
  simp [Event.retried, Int.add_assoc]

/-- A key that is absent or not empty survives the two serializers. -/
theorem decodeKey_encodeKey {key : Option String} (h : key ≠ some "") :
    decodeKey (encodeKey key) = some key := by
  cases key with
  | none => rfl
  | some k =>
    have hne : k ≠ "" := fun hk => h (by rw [hk])
    have hempty : k.isEmpty = false := by
      simpa [String.isEmpty_iff] using hne
    have hbytes : k.toByteArray.isEmpty = false := hempty
    have hutf8 : String.fromUTF8? k.toByteArray = some k := by
      unfold String.fromUTF8?
      rw [dif_pos k.isValidUTF8]
      rfl
    simp only [encodeKey, hempty, Bool.false_eq_true, if_false, String.toUTF8_eq_toByteArray,
      decodeKey, hbytes, hutf8, Option.map_some]

/-! ## From the outbox to the broker -/

open OutboxWorkers

/-- The record is the row of this `write_outbox`, up to what workers change. -/
def Wrote (r : OutboxRecord) (a : OutboxWrite) : Prop :=
  r.written = OutboxWorkers.writeOutbox r.id a

/-- The event of the write, under its key, with some trace context. -/
def Publishes (a : OutboxWrite) (p : Publication) : Prop :=
  p.topic = a.topic ∧ p.key = a.key ∧ ∃ carrier, p.value = injectTrace carrier a.event.modelDump

structure Publications (s : Broker × OutboxRecords) : Prop where
  written : ∀ r ∈ s.2.rows, ∃ a, Wrote r a
  ids : (s.2.rows.map (·.eventId)).Nodup
  handed : ∀ p ∈ s.1.handed, ∃ r ∈ s.2.rows, ∃ a, Wrote r a ∧ Publishes a p
  acked : ∀ p ∈ s.1.acked, p ∈ s.1.handed

/-- A worker sends what was written. -/
def Sends (s : Broker × OutboxRecords) : OutboxQuery → Prop
  | .fetch _ _ => True
  | .send topic event key =>
    ∃ r ∈ s.2.rows, ∃ a, Wrote r a ∧ a.topic = topic ∧ a.event = event ∧ a.key = key

def Inserts (_ : Broker × OutboxRecords) (w : OutboxWrites) : Prop :=
  ∀ r ∈ w.inserts, ∃ a, Wrote r a

section Outbox

variable {s : Broker × OutboxRecords} {r r' : OutboxRecord} {a : OutboxWrite} {p : Publication}

theorem Wrote.congr (h : Wrote r a) (heq : r'.written = r.written) : Wrote r' a := by
  unfold Wrote at *
  rw [heq, h, id_of_written heq]

theorem Wrote.columns (h : Wrote r a) : r.topic = a.topic ∧ r.key = a.key ∧
    r.payload = a.event.modelDump ∧ r.eventId = a.event.eventId := by
  have hcols := h
  simp only [Wrote, OutboxRecord.written, OutboxWorkers.writeOutbox, OutboxRecord.mk.injEq] at hcols
  obtain ⟨-, hid, -, htopic, hkey, hpayload, -⟩ := hcols
  exact ⟨htopic, hkey, hpayload, hid⟩

/-- The worker's body on a written record: `Event(**json.loads(payload))` is the event. -/
theorem publishRecord_of_wrote (h : Wrote r a) : publishRecord rt draws r = (do
    if ← send a.topic a.event a.key then return { id := r.id, processed := true }
    else return failed r) := by
  obtain ⟨htopic, hkey, hpayload, -⟩ := h.columns
  unfold publishRecord
  rw [hpayload, validate_modelDump, htopic, hkey]

theorem publishes_handOver (b : Broker) (a : OutboxWrite) (hp : p ∈
    (b.handOver a.topic a.event a.key).handed) : p ∈ b.handed ∨ Publishes a p := by
  rcases List.mem_append.mp hp with hp | hp
  · exact Or.inl hp
  · rw [List.mem_singleton.mp hp]
    exact Or.inr ⟨rfl, rfl, _, rfl⟩

theorem acked_handOver (b : Broker) (a : OutboxWrite) (hb : ∀ p ∈ b.acked, p ∈ b.handed)
    (hp : p ∈ (b.handOver a.topic a.event a.key).acked) :
    p ∈ (b.handOver a.topic a.event a.key).handed := by
  rcases List.mem_append.mp hp with hp | hp
  · exact List.mem_append_left _ (hb p hp)
  · rw [Option.mem_toList] at hp
    unfold Broker.sendEvent Shared.sendEvent at hp
    obtain ⟨-, rfl⟩ := Option.ite_none_right_eq_some.mp hp |>.imp_right Option.some.inj
    exact List.mem_append_right _ (List.mem_singleton_self _)

theorem publications_act {q : OutboxQuery} (hs : Publications s) (hq : Sends s q) :
    Publications ((service rt draws).act q s) := by
  cases q with
  | fetch _ _ => exact hs
  | send topic event key =>
    obtain ⟨r, hr, a, hwrote, rfl, rfl, rfl⟩ := hq
    refine ⟨hs.written, hs.ids, fun p hp => ?_, fun p hp => acked_handOver s.1 a hs.acked hp⟩
    rcases publishes_handOver s.1 a hp with hp | hp
    · exact hs.handed p hp
    · exact ⟨r, hr, a, hwrote, hp⟩

/-- The discipline of a worker. -/
abbrev Sending {R : Type} (rt : Runtime) (draws : Draws)
    (post : Broker × OutboxRecords → R → Prop) (p : OutboxTxn R) (s : Broker × OutboxRecords) :
    Prop :=
  Acts (service rt draws).answers (service rt draws).act (Within Publications Grows) Sends post p s

theorem publishRecord_sends (hr : Known r s) (h : Wrote r a) :
    Sending rt draws (fun _ _ => True) (publishRecord rt draws r) s := by
  rw [publishRecord_of_wrote h]
  intro t ht
  obtain ⟨r', hr', heq⟩ := hr.mono ht.1
  refine ⟨⟨r', hr', a, h.congr heq, rfl, rfl, rfl⟩, fun ω => ?_⟩
  show Sending rt draws _ (if (t.1.sendEvent a.topic a.event a.key).isSome then _ else _) _
  split
  · exact fun _ _ => trivial
  · exact fun _ _ => trivial

theorem within_act {s t : Broker × OutboxRecords} {q : OutboxQuery}
    (hst : Within Publications Grows s t) (hq : Sends t q) :
    Within Publications Grows ((service rt draws).act q t) ((service rt draws).act q t) :=
  ⟨Grows.refl _, publications_act hst.2 hq⟩

theorem publishRecords_sends {rs : List OutboxRecord} (hs : Publications s)
    (hrs : ∀ r ∈ rs, Known r s ∧ ∃ a, Wrote r a) :
    Sending rt draws (fun _ _ => True) (publishRecords rt draws rs) s := by
  induction rs generalizing s with
  | nil => exact fun _ _ => trivial
  | cons r rs ih =>
    obtain ⟨⟨hr, a, ha⟩, hrest⟩ := List.forall_mem_cons.mp hrs
    have hone : Sending rt draws _ _ s := publishRecord_sends hr ha
    have hframed := hone.frame (F := fun t => Publications t ∧ ∀ r ∈ rs, Known r t ∧ ∃ a, Wrote r a)
      (fun s t h hst => ⟨hst.2, fun r hr => ⟨(h.2 r hr).1.mono hst.1, (h.2 r hr).2⟩⟩)
      (fun t q h hq => ⟨publications_act h.1 hq,
        fun r hr => ⟨(h.2 r hr).1.mono (grows_act rt draws t q), (h.2 r hr).2⟩⟩) ⟨hs, hrest⟩
    refine hframed.bind ⟨Grows.refl s, hs⟩ (fun _ _ _ => within_act) fun t v ⟨_, ht, hrest⟩ => ?_
    exact (ih ht hrest).bind ⟨Grows.refl t, ht⟩ (fun _ _ _ => within_act) fun _ _ _ _ _ => trivial

theorem program_sends (tid : ℕ) (req : OutboxRequest) :
    Sending rt draws Inserts (program rt draws tid req) s := by
  cases req with
  | domain writes =>
    intro t _ r hr
    obtain ⟨n, hn, rfl⟩ := List.mem_mapIdx.mp hr
    exact ⟨_, rfl⟩
  | poll maxRetries batchSize =>
    intro t hst
    refine ⟨trivial, fun scan => ?_⟩
    have hrs : ∀ r ∈ fetchBatch t.2 scan maxRetries batchSize, Known r t ∧ ∃ a, Wrote r a :=
      fun r hr => ⟨⟨r, mem_of_fetchBatch hr, rfl⟩, hst.2.written r (mem_of_fetchBatch hr)⟩
    refine (publishRecords_sends hst.2 hrs).bind ⟨Grows.refl t, hst.2⟩ (fun _ _ _ => within_act) ?_
    exact fun _ _ _ _ _ _ h => absurd h List.not_mem_nil

theorem nodup_of_commit {w : OutboxWrites} {records records' : OutboxRecords}
    (h : commit w records = some records') : (records'.rows.map (·.eventId)).Nodup := by
  simp only [commit, Option.bind_eq_bind, Option.bind_eq_some_iff,
    Option.ite_none_right_eq_some, Option.some.injEq] at h
  obtain ⟨_, -, hnodup, rfl⟩ := h
  exact hnodup

theorem publications_commit {records : OutboxRecords} {w : OutboxWrites} (hs : Publications s)
    (hw : Inserts s w) (h : commit w s.2 = some records) : Publications (s.1, records) := by
  have hgrows := commit_grows h
  refine ⟨fun r hr => ?_, nodup_of_commit h, fun p hp => ?_, hs.acked⟩
  · replace hr : r ∈ records.rows := hr
    rw [Table.rows_extend (commit_eq_some h)] at hr
    rcases List.mem_append.mp hr with hr | hr
    · obtain ⟨r', hr', heq, -⟩ := mem_runUpdates hr
      obtain ⟨a, ha⟩ := hs.written r' hr'
      exact ⟨a, ha.congr heq⟩
    · exact hw r hr
  · obtain ⟨r, hr, a, hwrote, hpub⟩ := hs.handed p hp
    obtain ⟨r', hr', heq⟩ := hgrows.records r hr
    exact ⟨r', hr', a, hwrote.congr heq, hpub⟩

theorem publications_discipline (rt : Runtime) (draws : Draws) :
    Discipline (service rt draws) Publications Grows (fun _ => Sends) (fun _ => Inserts) where
  refl := Grows.refl
  trans _ _ _ := Grows.trans
  start tid req _ _ := program_sends tid req
  query _ s q hs hq := ⟨publications_act hs hq, grows_act rt draws s q⟩
  commit _ _ _ _ hs hw hc := ⟨publications_commit hs hw hc, commit_grows hc⟩

theorem eventId_of_publishes (h : Publishes a p) :
    p.value.lookup "event_id" = some (.str a.event.eventId) := by
  obtain ⟨-, -, carrier, hvalue⟩ := h
  rw [hvalue, lookup_injectTrace _ _ (by decide)]
  rfl

/-- What the broker has of a committed record is the event that was written, whatever the workers
    do. -/
theorem acked_publishes {fate : ℕ → Bool × Dict} {ls : List (Label OutboxRequest (List ℕ))}
    {srv : Server OutboxRecords Broker OutboxRequest OutboxQuery OutboxAnswer Unit OutboxWrites}
    (h : Reaches (service rt draws).step anyStep (Server.init .empty { fate }) ls srv)
    (hr : r ∈ srv.db.rows) (ha : Wrote r a) (hp : p ∈ srv.world.acked)
    (hid : p.value.lookup "event_id" = some (.str a.event.eventId)) : Publishes a p := by
  have hinit : Publications ({ fate }, .empty) :=
    ⟨fun _ h => absurd h List.not_mem_nil, List.nodup_nil, fun _ h => absurd h List.not_mem_nil,
      fun _ h => absurd h List.not_mem_nil⟩
  have hs := (publications_discipline rt draws).reaches h hinit
  obtain ⟨r', hr', a', ha', hpub⟩ := hs.handed p (hs.acked p hp)
  obtain ⟨htopic, hkey, hpayload, hevent⟩ := ha.columns
  obtain ⟨htopic', hkey', hpayload', hevent'⟩ := ha'.columns
  have hsame : r' = r := by
    refine List.inj_on_of_nodup_map hs.ids hr' hr ?_
    have heq := (eventId_of_publishes hpub).symm.trans hid
    simpa [hevent, hevent'] using heq
  subst hsame
  obtain ⟨hpt, hpk, carrier, hpv⟩ := hpub
  refine ⟨?_, ?_, carrier, ?_⟩
  · rw [hpt, ← htopic', htopic]
  · rw [hpk, ← hkey', hkey]
  · rw [hpv, ← hpayload', hpayload]

end Outbox

/-! ## From a failing handler to the next one -/

open PoisonMessage

/-- The consumer gets the record (on whatever partition, at whatever offset). -/
def Receives (m : KafkaMessage) (p : Publication) : Prop :=
  m.topic = p.topic ∧ m.key = encodeKey p.key ∧ m.value = .obj p.value

/-- An iteration that fails on the message: the trace context, the handler or the commit raises. The
    handler leaves the dict alone. -/
def Fails (propagate : Dict → Except String Unit) (v : Visit) (m : KafkaMessage) : Prop :=
  v.msg = m ∧ v.mutate = id ∧ ∃ data left, m.value = .obj data ∧ v.Raises propagate data left

/-- `m'` is what a consumer gets after `_handle_failure` has republished `m` `n` times. -/
inductive Republished (rt : Runtime) (maxRetries : Int) (propagate : Dict → Except String Unit)
    (m : KafkaMessage) : ℕ → KafkaMessage → Prop
  | first : Republished rt maxRetries propagate m 0 m
  | again {n : ℕ} {m' m'' : KafkaMessage} {v : Visit} {p : Publication} :
      Republished rt maxRetries propagate m n m' → Fails propagate v m' →
      p ∈ (PoisonMessage.consumeMessage rt maxRetries propagate v).result.published →
      p.topic = m'.topic ++ "-retry" → Receives m'' p →
      Republished rt maxRetries propagate m (n + 1) m''

/-- The handler is called with the event that was written, counted `n` times more. -/
structure Arrives (rt : Runtime) (maxRetries : Int) (propagate : Dict → Except String Unit)
    (a : OutboxWrite) (n : ℕ) (m : KafkaMessage) : Prop where
  key : m.key = encodeKey a.key
  value : ∃ data, m.value = .obj data ∧ (a.event.retried n).WrittenIn data ∧
    ∀ v : Visit, v.msg = m → extractTraceFromEvent propagate data = .ok () →
      (PoisonMessage.consumeMessage rt maxRetries propagate v).called = true

/-- A copy on the retry topic, counted once more than `m`. -/
def RetryOf (a : OutboxWrite) (n : ℕ) (m : KafkaMessage) (p : Publication) : Prop :=
  p.topic = m.topic ++ "-retry" ∧ p.key = a.key ∧
    ∃ carrier, p.value = injectTrace carrier (a.event.retried n).modelDump

/-- A dead letter: its payload embeds the dict the handler got. -/
def DeadLetterOf (a : OutboxWrite) (m : KafkaMessage) (p : Publication) : Prop :=
  p.topic = m.topic ++ "-dlq" ∧ p.key = a.key ∧ ∃ d, p.value.lookup "payload" = some (.obj d) ∧
    d.lookup "payload" = some m.value

section Consumer

variable {maxRetries : Int} {propagate : Dict → Except String Unit} {v : Visit}
  {m m' : KafkaMessage} {p : Publication} {a : OutboxWrite} {n : ℕ} {env : Env} {data : Dict}
  {error : String}

/-- A failing iteration publishes what `_handle_failure` makes of the dict. -/
theorem Fails.result (rt : Runtime) (maxRetries : Int) (h : Fails propagate v m)
    (hv : m.value = .obj data) :
    ∃ handled error, (PoisonMessage.consumeMessage rt maxRetries propagate v).result =
      afterFailure rt maxRetries v.env m data handled error := by
  obtain ⟨rfl, hkeep, data', left, hv', hraise⟩ := h
  obtain rfl : data' = data := JsonTree.obj.inj (hv'.symm.trans hv)
  rcases hraise with ⟨⟨e, he⟩, -⟩ | ⟨hok, hfail, -⟩
  · exact ⟨false, e, by simp only [PoisonMessage.consumeMessage, hv, he]⟩
  · cases hh : v.env.handler with
    | error e =>
      exact ⟨false, e, by simp only [PoisonMessage.consumeMessage, hv, hok, hh, hkeep, id_eq]⟩
    | ok u =>
      cases hc : v.env.commit with
      | error e =>
        exact ⟨true, e, by
          simp only [PoisonMessage.consumeMessage, hv, hok, hh, hc, hkeep, id_eq]⟩
      | ok u' => exact absurd hc (hfail hh)

theorem called_of_extracted (hv : v.msg.value = .obj data)
    (hok : extractTraceFromEvent propagate data = .ok ()) :
    (PoisonMessage.consumeMessage rt maxRetries propagate v).called = true := by
  simp only [PoisonMessage.consumeMessage, hv, hok]
  split <;> rfl

theorem published_afterFailure {handled : Bool} {published : List Publication}
    (h : handleFailure rt maxRetries env m data error = some published) :
    (afterFailure rt maxRetries env m data handled error).published = published := by
  unfold afterFailure
  rw [h]

/-- Below the bound an acknowledged copy goes to the retry topic. -/
theorem handleFailure_retry (hkey : a.key ≠ some "") (hm : m.key = encodeKey a.key)
    (hdata : (a.event.retried n).WrittenIn data)
    (hlt : a.event.retryCount + n < maxRetries) (hprod : env.producer = true)
    (hack : env.retryAck = true) :
    ∃ p, handleFailure rt maxRetries env m data error = some [p] ∧ RetryOf a (n + 1) m p := by
  have hcount : (retryCountOf data).ltInt maxRetries = some true := by
    rw [retryCountOf_of_writtenIn hdata]
    exact congrArg some (decide_eq_true hlt)
  have hevent : Event.validate rt env.retryDraws (eventFields (countRetry rt data)) =
      some (a.event.retried (n + 1)) := by
    rw [← retried_retried]
    exact validate_of_writtenIn (writtenIn_eventFields (writtenIn_countRetry hdata))
  have hdecode : decodeKey m.key = some a.key := by
    rw [hm]
    exact decodeKey_encodeKey hkey
  have hsend := sendToRetry_eq_some.mpr ⟨_, _, hevent, hprod, hdecode, hack, rfl⟩
  unfold handleFailure
  rw [hcount, hsend]
  exact ⟨_, rfl, rfl, rfl, _, rfl⟩

theorem dlqPublication_deadLetter (hkey : a.key ≠ some "") (hm : m.key = encodeKey a.key)
    (hv : m.value = .obj data)
    (h : dlqPublication rt env m data error = some p) : DeadLetterOf a m p := by
  obtain ⟨c, k, -, -, hk, -, rfl⟩ := dlqPublication_eq_some.mp h
  rw [hm, decodeKey_encodeKey hkey] at hk
  refine ⟨rfl, (Option.some.inj hk).symm, dlqPayload env m data error, ?_, ?_⟩
  · rw [lookup_injectTrace _ _ (by decide)]
    rfl
  · rw [hv]
    rfl

/-- From the bound on the dead letter is published. -/
theorem handleFailure_deadLetter (hkey : a.key ≠ some "") (hm : m.key = encodeKey a.key)
    (hv : m.value = .obj data) (hdata : (a.event.retried n).WrittenIn data)
    (hle : maxRetries ≤ a.event.retryCount + n) (hprod : env.producer = true)
    (hack : env.dlqAck = true) :
    ∃ p, handleFailure rt maxRetries env m data error = some [p] ∧ DeadLetterOf a m p := by
  have hcount : (retryCountOf data).ltInt maxRetries = some false := by
    rw [retryCountOf_of_writtenIn hdata]
    exact congrArg some (decide_eq_false (not_lt.mpr hle))
  have hcorr : data.lookup "correlation_id" = some (.str a.event.correlationId) :=
    hdata _ (by decide)
  have hdecode : decodeKey m.key = some a.key := by
    rw [hm]
    exact decodeKey_encodeKey hkey
  obtain ⟨p, hp⟩ : ∃ p, dlqPublication rt env m data error = some p :=
    ⟨_, dlqPublication_eq_some.mpr ⟨_, _, by rw [hcorr]; rfl, hprod, hdecode, hack, rfl⟩⟩
  refine ⟨p, ?_, dlqPublication_deadLetter hkey hm hv hp⟩
  unfold handleFailure sendToDlq
  rw [hcount, hp]
  rfl

/-- A failing iteration below the bound republishes the event. -/
theorem retried_of_fails (hkey : a.key ≠ some "") (h : Arrives rt maxRetries propagate a n m)
    (hlt : a.event.retryCount + n < maxRetries) (hfail : Fails propagate v m)
    (hprod : v.env.producer = true) (hack : v.env.retryAck = true) :
    ∃ p, (PoisonMessage.consumeMessage rt maxRetries propagate v).result.published = [p] ∧
      RetryOf a (n + 1) m p := by
  obtain ⟨data, hv, hdata, -⟩ := h.value
  obtain ⟨handled, error, hres⟩ := hfail.result rt maxRetries hv
  obtain ⟨p, hp, hretry⟩ := handleFailure_retry hkey h.key hdata hlt hprod hack
  exact ⟨p, by rw [hres, published_afterFailure hp], hretry⟩

/-- From the bound on it sends the dead letter. -/
theorem deadLettered_of_fails (hkey : a.key ≠ some "") (h : Arrives rt maxRetries propagate a n m)
    (hle : maxRetries ≤ a.event.retryCount + n) (hfail : Fails propagate v m)
    (hprod : v.env.producer = true) (hack : v.env.dlqAck = true) :
    ∃ p, (PoisonMessage.consumeMessage rt maxRetries propagate v).result.published = [p] ∧
      DeadLetterOf a m p := by
  obtain ⟨data, hv, hdata, -⟩ := h.value
  obtain ⟨handled, error, hres⟩ := hfail.result rt maxRetries hv
  obtain ⟨p, hp, hdead⟩ := handleFailure_deadLetter hkey h.key hv hdata hle hprod hack
  exact ⟨p, by rw [hres, published_afterFailure hp], hdead⟩

/-- What is on the retry topic got there below the bound. -/
theorem retried_of_published (hkey : a.key ≠ some "") (h : Arrives rt maxRetries propagate a n m)
    (hfail : Fails propagate v m)
    (hp : p ∈ (PoisonMessage.consumeMessage rt maxRetries propagate v).result.published)
    (htopic : p.topic = m.topic ++ "-retry") :
    a.event.retryCount + n < maxRetries ∧ RetryOf a (n + 1) m p := by
  obtain ⟨data, hv, hdata, -⟩ := h.value
  obtain ⟨handled, error, hres⟩ := hfail.result rt maxRetries hv
  have hpub := hp
  rw [hres] at hpub
  rcases afterFailure_published hpub with hdlq | ⟨-, hcount, hprod, hack⟩
  · exact absurd (hdlq.symm.trans htopic) (retry_ne_dlq m.topic)
  · rw [retryCountOf_of_writtenIn hdata] at hcount
    have hlt : a.event.retryCount + n < maxRetries := of_decide_eq_true (Option.some.inj hcount)
    obtain ⟨q, hq, hretry⟩ := retried_of_fails hkey h hlt hfail hprod hack
    rw [hq] at hp
    rw [List.mem_singleton.mp hp]
    exact ⟨hlt, hretry⟩

theorem arrives_of_receives (hm : Receives m p) (hkey : p.key = a.key)
    (hp : ∃ carrier, p.value = injectTrace carrier (a.event.retried n).modelDump) :
    Arrives rt maxRetries propagate a n m := by
  obtain ⟨-, hmk, hmv⟩ := hm
  obtain ⟨carrier, hvalue⟩ := hp
  refine ⟨by rw [hmk, hkey], p.value, hmv, ?_, fun v hv hok => ?_⟩
  · rw [hvalue]
    exact writtenIn_injectTrace (writtenIn_modelDump _) carrier
  · exact called_of_extracted (hv ▸ hmv) hok

/-- Along the republications the event keeps its identity and its counter stays in bounds. -/
theorem republished_arrives (hkey : a.key ≠ some "") (h : Arrives rt maxRetries propagate a 0 m)
    (hn : Republished rt maxRetries propagate m n m') :
    Arrives rt maxRetries propagate a n m' ∧ (n = 0 ∨ a.event.retryCount + n ≤ maxRetries) := by
  induction hn with
  | first => exact ⟨h, Or.inl rfl⟩
  | again _ hfail hp htopic hm ih =>
    obtain ⟨hlt, -, hpk, hvalue⟩ := retried_of_published hkey ih.1 hfail hp htopic
    refine ⟨arrives_of_receives hm hpk hvalue, Or.inr ?_⟩
    push_cast
    omega

/-- A consumer whose handler fails, with a broker that acknowledges. -/
def failing (m : KafkaMessage) : Visit :=
  { env := { brokerDown with retryAck := true, dlqAck := true }, msg := m }

theorem fails_failing (hv : m.value = .obj data) : Fails propagate (failing m) m := by
  refine ⟨rfl, rfl, data, data, hv, ?_⟩
  cases hx : extractTraceFromEvent propagate data with
  | error e => exact Or.inl ⟨⟨e, hx⟩, rfl⟩
  | ok u =>
    refine Or.inr ⟨hx, fun h => ?_, rfl⟩
    cases h

/-- Up to the bound there is a run that republishes that often. -/
theorem exists_republished (hkey : a.key ≠ some "") (h : Arrives rt maxRetries propagate a 0 m)
    (hn : a.event.retryCount + n ≤ maxRetries) :
    ∃ m', Republished rt maxRetries propagate m n m' := by
  induction n with
  | zero => exact ⟨m, .first⟩
  | succ n ih =>
    push_cast at hn
    obtain ⟨m', hm'⟩ := ih (by omega)
    have harrives := (republished_arrives hkey h hm').1
    obtain ⟨data, hv, -⟩ := harrives.value
    have hfail : Fails propagate (failing m') m' := fails_failing hv
    obtain ⟨p, hp, hretry⟩ := retried_of_fails hkey harrives (by omega) hfail rfl rfl
    refine ⟨record 0 p, .again hm' hfail ?_ hretry.1 ⟨rfl, rfl, rfl⟩⟩
    rw [hp]
    exact List.mem_singleton_self p

end Consumer

/-! ## The whole way -/

/-- What becomes of a written event, from the record `m` that a consumer gets of it. -/
structure Survives (rt : Runtime) (maxRetries : Int) (propagate : Dict → Except String Unit)
    (a : OutboxWrite) (m : KafkaMessage) : Prop where
  /-- After `n` republications the handler gets the event, counted `n` times. -/
  arrives : ∀ n m', Republished rt maxRetries propagate m n m' →
    Arrives rt maxRetries propagate a n m'
  /-- The event can be republished as often as its counter allows. -/
  possible : ∀ n : ℕ, (n = 0 ∨ a.event.retryCount + n ≤ maxRetries) ↔
    ∃ m', Republished rt maxRetries propagate m n m'
  /-- A failure below the bound republishes it. -/
  retried : ∀ n m', Republished rt maxRetries propagate m n m' →
    a.event.retryCount + n < maxRetries → ∀ v, Fails propagate v m' → v.env.producer = true →
      v.env.retryAck = true →
      ∃ p, (PoisonMessage.consumeMessage rt maxRetries propagate v).result.published = [p] ∧
        RetryOf a (n + 1) m' p
  /-- The next failure sends a dead letter that embeds the dict the handler got. -/
  deadLettered : ∀ n m', Republished rt maxRetries propagate m n m' →
    maxRetries ≤ a.event.retryCount + n → ∀ v, Fails propagate v m' → v.env.producer = true →
      v.env.dlqAck = true →
      ∃ p, (PoisonMessage.consumeMessage rt maxRetries propagate v).result.published = [p] ∧
        DeadLetterOf a m' p

section Runs

variable {maxRetries : Int} {propagate : Dict → Except String Unit} {m : KafkaMessage}
  {r : OutboxRecord} {a : OutboxWrite} {p : Publication}

theorem arrives_of_publishes (h : Publishes a p) (hm : Receives m p) :
    Arrives rt maxRetries propagate a 0 m := by
  obtain ⟨-, hkey, hvalue⟩ := h
  rw [← retried_zero a.event] at hvalue
  exact arrives_of_receives hm hkey hvalue

/-- Whatever the outbox workers do, a consumer of an acknowledged publication of a committed record
    gets the event that was written, and so does every handler behind a retry topic; from the bound
    on its counter the failure is a dead letter with the event. -/
theorem event_identity {fate : ℕ → Bool × Dict} {ls : List (Label OutboxRequest (List ℕ))}
    {srv : Server OutboxRecords Broker OutboxRequest OutboxQuery OutboxAnswer Unit OutboxWrites}
    (h : Reaches (service rt draws).step anyStep (Server.init .empty { fate }) ls srv)
    (hr : r ∈ srv.db.rows) (ha : Wrote r a) (hkey : a.key ≠ some "") (hp : p ∈ srv.world.acked)
    (hid : p.value.lookup "event_id" = some (.str a.event.eventId)) (hm : Receives m p) :
    Survives rt maxRetries propagate a m := by
  have hfirst : Arrives rt maxRetries propagate a 0 m :=
    arrives_of_publishes (acked_publishes h hr ha hp hid) hm
  refine ⟨fun n m' hn => (republished_arrives hkey hfirst hn).1, fun n => ⟨?_, ?_⟩, ?_, ?_⟩
  · rintro (rfl | hn)
    · exact ⟨m, .first⟩
    · exact exists_republished hkey hfirst hn
  · rintro ⟨m', hm'⟩
    exact (republished_arrives hkey hfirst hm').2
  · intro n m' hn hlt v hfail
    exact retried_of_fails hkey (republished_arrives hkey hfirst hn).1 hlt hfail
  · intro n m' hn hle v hfail
    exact deadLettered_of_fails hkey (republished_arrives hkey hfirst hn).1 hle hfail

/-! ## One order -/

def createdEvent (retryCount : Int) : Event :=
  { eventId := "e-1", eventType := "OrderCreatedEvent", timestamp := "t", correlationId := "c"
    payload := [("order_id", .str "o-1")], retryCount }

def createdWrite (retryCount : Int) : OutboxWrite :=
  ⟨"order-events", createdEvent retryCount, some "o-1", 0⟩

/-- The order is committed, and a worker publishes its event. -/
def publishOrder (retryCount : Int) : List (Label OutboxRequest (List ℕ)) :=
  [.start (.domain [createdWrite retryCount]), .move (.finish 0), .start (.poll 5 50),
    .move (.advance 0 [0]), .move (.advance 0 []), .move (.finish 0)]

def orderFate : ℕ → Bool × Dict := fun _ => (true, [("traceparent", .str "00-1-2-01")])

def orderRecord (retryCount : Int) : KafkaMessage :=
  record 0 ⟨"order-events", some "o-1",
    injectTrace [("traceparent", .str "00-1-2-01")] (createdEvent retryCount).modelDump⟩

theorem reaches_publishOrder (retryCount : Int) : ∃ srv r p,
    Reaches (service Runtime.exact ⟨"", ""⟩).step anyStep (Server.init .empty { fate := orderFate })
      (publishOrder retryCount) srv ∧ r ∈ srv.db.rows ∧ Wrote r (createdWrite retryCount) ∧
      p ∈ srv.world.acked ∧ p.value.lookup "event_id" = some (.str "e-1") ∧
      Receives (orderRecord retryCount) p := by
  have hrun : Reaches (service Runtime.exact ⟨"", ""⟩).step anyStep
      (Server.init .empty { fate := orderFate }) (publishOrder retryCount) _ := reaches_run rfl
  exact ⟨_, _, _, hrun, List.mem_singleton_self _, rfl, List.mem_singleton_self _, rfl, rfl, rfl,
    rfl⟩

theorem event_identity_order : ∃ srv,
    Reaches (service Runtime.exact ⟨"", ""⟩).step anyStep (Server.init .empty { fate := orderFate })
      (publishOrder 0) srv ∧
      Survives Runtime.exact 3 (fun _ => .ok ()) (createdWrite 0) (orderRecord 0) := by
  obtain ⟨srv, r, p, hrun, hr, ha, hp, hid, hm⟩ := reaches_publishOrder 0
  exact ⟨srv, hrun, event_identity hrun hr ha (by decide) hp hid hm⟩

/-- An event whose counter starts at 1 is not republished once under a bound of 1: its first failure
    is the dead letter. -/
theorem counted_before : ∃ srv r p,
    Reaches (service Runtime.exact ⟨"", ""⟩).step anyStep (Server.init .empty { fate := orderFate })
      (publishOrder 1) srv ∧ r ∈ srv.db.rows ∧ Wrote r (createdWrite 1) ∧
      (createdWrite 1).key ≠ some "" ∧ p ∈ srv.world.acked ∧ Receives (orderRecord 1) p ∧
      ∀ m', ¬ Republished Runtime.exact 1 (fun _ => .ok ()) (orderRecord 1) 1 m' := by
  obtain ⟨srv, r, p, hrun, hr, ha, hp, hid, hm⟩ := reaches_publishOrder 1
  have hkey : (createdWrite 1).key ≠ some "" := by decide
  refine ⟨srv, r, p, hrun, hr, ha, hkey, hp, hm, fun m' hm' => ?_⟩
  have hfirst : Arrives Runtime.exact 1 (fun _ => .ok ()) (createdWrite 1) 0 (orderRecord 1) :=
    arrives_of_publishes (acked_publishes hrun hr ha hp hid) hm
  rcases (republished_arrives hkey hfirst hm').2 with h | h
  · exact absurd h (by decide)
  · exact absurd h (by decide)

end Runs

end EventIdentity

end CloudScale.Shared
