/-
  Which topics the services subscribe to, and what that makes of a failed saga event.

  `Cluster` is the broker with the four consumer groups: one log of acknowledged records and the
  history of deliveries. A group may be given any record of a topic it subscribes to, also again
  and in any order (redelivery after a crash or a rebalance). A delivery runs `consumeMessage`; the
  handler of group `g` fails the first `fails g id` times it sees the event `id`.

  A failed message is republished to `<topic>-retry`, and no group subscribes to such a topic
  (`retry_not_subscribed`), so the copy is never consumed (`retry_copy_is_never_consumed`).
  `reaches_kept`: in a drained state every saga event was completed by every subscriber or is on a
  dead-letter topic, in every run in which no failure is routed to a retry topic.
-/
import CloudScale.Lib.Run
import CloudScale.Shared.Consumer

namespace CloudScale.Shared

open CloudScale.Lib

/-! ## The wiring -/

/-- The topics of the outbox records. -/
def sagaTopics : List String := ["order-events", "inventory-events", "payment-events"]

/-- The consumer groups, one a service. -/
inductive Group where
  | order
  | inventory
  | payment
  | notification
deriving DecidableEq

/-- `topics` of each service's `init_kafka`. -/
def Group.topics : Group → List String
  | .order => ["inventory-events", "payment-events"]
  | .inventory => ["order-events", "payment-events"]
  | .payment => ["inventory-events"]
  | .notification => ["payment-events"]

/-- `key_serializer`: an empty key is not sent. -/
def encodeKey : Option String → Option ByteArray
  | none => none
  | some k => if k.isEmpty then none else some k.toUTF8

/-- The `n`-th record as a consumer receives it (which partition it is on decides nothing). -/
def record (n : ℕ) (p : Publication) : KafkaMessage :=
  { topic := p.topic, partition := 0, offset := n, key := encodeKey p.key, value := .obj p.value }

def eventId (d : Dict) : Option String := (d.lookup "event_id").bind Json.strField

/-- Record `index` was given to `group`. -/
structure Handling where
  group : Group
  index : ℕ
  source : Publication
  delivery : Delivery

structure Cluster where
  log : List Publication
  history : List Handling

def Cluster.empty : Cluster := { log := [], history := [] }

inductive ClusterLabel where
  | publish (topic : String) (carrier : Dict) (event : Event) (key : Option String)
  | consume (g : Group) (n : ℕ) (error : String) (env : Env)

namespace Cluster

variable (rt : Runtime) (maxRetries : Int) (fails : Group → Option String → ℕ)

/-- How often the handler of `g` has failed on an event. -/
def failures (c : Cluster) (g : Group) (id : Option String) : ℕ :=
  c.history.countP fun h =>
    h.group == g && !h.delivery.result.handled && eventId h.source.value == id

/-- The handler of `g` fails on `p` this time. -/
def Fails (c : Cluster) (g : Group) (p : Publication) : Prop :=
  c.failures g (eventId p.value) < fails g (eventId p.value)

instance (c : Cluster) (g : Group) (p : Publication) : Decidable (c.Fails fails g p) :=
  inferInstanceAs (Decidable (_ < _))

/-- `env` with the handler's outcome filled in. -/
def outcome (c : Cluster) (g : Group) (p : Publication) (error : String) (env : Env) : Env :=
  { env with handler := if c.Fails fails g p then .error error else .ok () }

def deliver (c : Cluster) (g : Group) (n : ℕ) (p : Publication) (error : String) (env : Env) :
    Delivery :=
  let env := c.outcome fails g p error env
  ⟨env, record n p, consumeMessage rt maxRetries env (record n p)⟩

def step (c : Cluster) : ClusterLabel → Option Cluster
  | .publish topic carrier event key =>
    if topic ∈ sagaTopics then
      some { c with log := c.log ++ [⟨topic, key, injectTrace carrier event.modelDump⟩] }
    else none
  | .consume g n error env => (c.log[n]?).bind fun p =>
    if p.topic ∈ g.topics then
      let d := c.deliver rt maxRetries fails g n p error env
      some { log := c.log ++ d.result.published, history := c.history ++ [⟨g, n, p, d⟩] }
    else none

/-! ## What is asked of a drained state -/

/-- The offset of record `n` is committed by `g`. -/
def Committed (c : Cluster) (g : Group) (n : ℕ) : Prop :=
  ∃ h ∈ c.history, h.group = g ∧ h.index = n ∧ h.delivery.result.committed = true

/-- Every group has consumed everything on the topics it subscribes to. -/
def Drained (c : Cluster) : Prop :=
  ∀ n p, c.log[n]? = some p → ∀ g : Group, p.topic ∈ g.topics → c.Committed g n

/-- The handler of `g` returned on record `n`, or on a copy of it on another topic. -/
def Completed (c : Cluster) (g : Group) (n : ℕ) (p : Publication) : Prop :=
  ∃ h ∈ c.history, h.group = g ∧ h.delivery.result.handled = true ∧
    (h.index = n ∨ h.source.topic ∉ sagaTopics ∧ eventId h.source.value = eventId p.value)

/-- A dead-letter topic holds a copy of record `n`. -/
def DeadLettered (c : Cluster) (n : ℕ) (p : Publication) : Prop :=
  ∃ q ∈ c.log, DlqCopy (record n p) p.value q

/-- Every retry copy that a failed handler caused was given to its group again. -/
def Redelivered (c : Cluster) : Prop :=
  ∀ h ∈ c.history, h.delivery.result.handled = false →
    ∀ q ∈ h.delivery.result.published, q.topic = h.source.topic ++ "-retry" →
      ∃ h' ∈ c.history, h'.group = h.group ∧ h'.source = q

/-- No saga event is lost. -/
def Kept (c : Cluster) : Prop :=
  (∀ n p, c.log[n]? = some p → p.topic ∈ sagaTopics → ∀ g : Group, p.topic ∈ g.topics →
    c.Completed g n p ∨ c.DeadLettered n p) ∧ c.Redelivered

/-- A failure is not routed to the retry topic, and if its offset is going to be committed the
    dead-letter copy goes through. -/
def Routed (c : Cluster) : ClusterLabel → Prop
  | .publish .. => True
  | .consume g n _ env => ∀ p, c.log[n]? = some p → c.Fails fails g p →
      ((retryCountOf p.value).ltInt maxRetries = some true →
        ¬ (env.producer = true ∧ env.retryAck = true)) ∧
      (env.failureCommit = true → env.producer = true ∧ env.dlqAck = true)

end Cluster

/-! ## Topics -/

theorem saga_of_subscribed {g : Group} {t : String} (h : t ∈ g.topics) : t ∈ sagaTopics := by
  revert h
  cases g <;> simp only [Group.topics, sagaTopics, List.mem_cons, List.not_mem_nil] <;> tauto

/-- The copies of a saga event leave the saga topics. -/
theorem copy_not_saga {t suffix : String} (ht : t ∈ sagaTopics)
    (hs : suffix = "-retry" ∨ suffix = "-dlq") : t ++ suffix ∉ sagaTopics := by
  simp only [sagaTopics, List.mem_cons, List.not_mem_nil, or_false] at ht
  rcases ht with rfl | rfl | rfl <;> rcases hs with rfl | rfl <;> decide

/-- No service subscribes to a retry topic of the saga. -/
theorem retry_not_subscribed {t : String} (ht : t ∈ sagaTopics) (g : Group) :
    t ++ "-retry" ∉ g.topics :=
  fun h => copy_not_saga ht (Or.inl rfl) (saga_of_subscribed h)

theorem retry_ne_dlq (t : String) : t ++ "-dlq" ≠ t ++ "-retry" := by
  intro h
  have hlen := congrArg String.length h
  rw [String.length_append, String.length_append] at hlen
  exact absurd (Nat.add_left_cancel hlen) (by decide)

theorem decodeKey_encodeKey_isSome (k : Option String) : (decodeKey (encodeKey k)).isSome := by
  cases k with
  | none => rfl
  | some k =>
    have hutf8 : String.fromUTF8? k.toByteArray = some k := by
      unfold String.fromUTF8?
      rw [dif_pos k.isValidUTF8]
      rfl
    simp only [encodeKey, String.toUTF8_eq_toByteArray]
    split
    · rfl
    · simp only [decodeKey, hutf8]
      split <;> rfl

/-! ## What a step does -/

namespace Cluster

variable {rt : Runtime} {maxRetries : Int} {fails : Group → Option String → ℕ} {c c' : Cluster}

theorem step_cases {l : ClusterLabel} (h : c.step rt maxRetries fails l = some c') :
    (∃ topic carrier event key, l = .publish topic carrier event key ∧ topic ∈ sagaTopics ∧
      c' = { c with log := c.log ++ [⟨topic, key, injectTrace carrier event.modelDump⟩] }) ∨
    ∃ g n error env p, l = .consume g n error env ∧ c.log[n]? = some p ∧ p.topic ∈ g.topics ∧
      c' = { log := c.log ++ (c.deliver rt maxRetries fails g n p error env).result.published
             history := c.history ++
               [⟨g, n, p, c.deliver rt maxRetries fails g n p error env⟩] } := by
  cases l with
  | publish topic carrier event key =>
    obtain ⟨ht, hc⟩ := Option.ite_none_right_eq_some.mp h
    exact Or.inl ⟨topic, carrier, event, key, rfl, ht, (Option.some.inj hc).symm⟩
  | consume g n error env =>
    obtain ⟨p, hp, h⟩ := Option.bind_eq_some_iff.mp h
    obtain ⟨ht, hc⟩ := Option.ite_none_right_eq_some.mp h
    exact Or.inr ⟨g, n, error, env, p, rfl, hp, ht, (Option.some.inj hc).symm⟩

theorem DeadLettered.grow {n : ℕ} {p : Publication} (h : c.DeadLettered n p)
    {ps : List Publication} (hlog : c'.log = c.log ++ ps) : c'.DeadLettered n p := by
  obtain ⟨q, hq, hcopy⟩ := h
  exact ⟨q, hlog ▸ List.mem_append_left ps hq, hcopy⟩

end Cluster

/-! ## Copies of a failed message -/

/-- What a failure publishes: a dead-letter copy, or a retry copy if one was due and the producer
    had it acknowledged. -/
theorem afterFailure_published {rt : Runtime} {maxRetries : Int} {env : Env} {msg : KafkaMessage}
    {data : Dict} {handled : Bool} {error : String} {q : Publication}
    (hq : q ∈ (afterFailure rt maxRetries env msg data handled error).published) :
    q.topic = msg.topic ++ "-dlq" ∨ q.topic = msg.topic ++ "-retry" ∧
      (retryCountOf data).ltInt maxRetries = some true ∧ env.producer = true ∧
      env.retryAck = true := by
  have hdlq : ∀ data', q ∈ sendToDlq rt env msg data' error → q.topic = msg.topic ++ "-dlq" := by
    intro data' hq
    obtain ⟨_, _, _, _, _, _, rfl⟩ := dlqPublication_eq_some.mp (Option.mem_toList.mp hq)
    rfl
  unfold afterFailure at hq
  split at hq
  · cases hq
  · next published hf =>
    unfold handleFailure at hf
    split at hf
    · cases hf
    · next hlt =>
      split at hf
      · next p hp =>
        obtain rfl := Option.some.inj hf
        obtain rfl := List.mem_singleton.mp hq
        obtain ⟨_, _, _, hprod, _, hack, rfl⟩ := sendToRetry_eq_some.mp hp
        exact Or.inr ⟨rfl, hlt, hprod, hack⟩
      · obtain rfl := Option.some.inj hf
        exact Or.inl (hdlq _ hq)
    · obtain rfl := Option.some.inj hf
      exact Or.inl (hdlq _ hq)

theorem consumeMessage_published {rt : Runtime} {maxRetries : Int} {env : Env} {msg : KafkaMessage}
    {q : Publication} (hq : q ∈ (consumeMessage rt maxRetries env msg).published) :
    ∃ data, msg.value = .obj data ∧ (q.topic = msg.topic ++ "-dlq" ∨
      q.topic = msg.topic ++ "-retry" ∧ (retryCountOf data).ltInt maxRetries = some true ∧
        env.producer = true ∧ env.retryAck = true) := by
  unfold consumeMessage at hq
  split at hq
  · next data hv =>
    split at hq
    · cases hq
    · exact ⟨data, hv, afterFailure_published hq⟩
    · exact ⟨data, hv, afterFailure_published hq⟩
  · cases hq

/-- Everything a delivery publishes leaves the saga topics. -/
theorem published_not_saga {rt : Runtime} {maxRetries : Int} {env : Env} {msg : KafkaMessage}
    (ht : msg.topic ∈ sagaTopics) {q : Publication}
    (hq : q ∈ (consumeMessage rt maxRetries env msg).published) : q.topic ∉ sagaTopics := by
  obtain ⟨_, -, h | ⟨h, -⟩⟩ := consumeMessage_published hq
  · exact h ▸ copy_not_saga ht (Or.inr rfl)
  · exact h ▸ copy_not_saga ht (Or.inl rfl)

/-- A dumped event has an integer `retry_count` and a string `correlation_id`. -/
theorem fields_of_dump (carrier : Dict) (e : Event) :
    retryCountOf (injectTrace carrier e.modelDump) = .int e.retryCount ∧
      (injectTrace carrier e.modelDump).lookup "correlation_id" = some (.str e.correlationId) := by
  constructor
  · rw [retryCountOf, lookup_injectTrace _ _ (by decide)]
    rfl
  · rw [lookup_injectTrace _ _ (by decide)]
    rfl

/-! ## Runs -/

namespace Cluster

variable {rt : Runtime} {maxRetries : Int} {fails : Group → Option String → ℕ} {c c' : Cluster}

/-- What holds of every state reached through `Routed` steps. -/
structure Inv (c : Cluster) : Prop where
  wire : ∀ p ∈ c.log, p.topic ∈ sagaTopics →
    ∃ carrier e, p.value = injectTrace carrier (Event.modelDump e)
  source : ∀ h ∈ c.history, c.log[h.index]? = some h.source
  kept : ∀ h ∈ c.history, h.delivery.result.committed = true →
    h.delivery.result.handled = true ∨ c.DeadLettered h.index h.source
  unretried : ∀ h ∈ c.history, h.delivery.result.handled = false →
    ∀ q ∈ h.delivery.result.published, q.topic ≠ h.source.topic ++ "-retry"

theorem inv_empty : Inv empty := by
  refine ⟨?_, ?_, ?_, ?_⟩ <;> exact fun x hx => absurd hx List.not_mem_nil

/-- A delivery of a saga record under the conditions of `Routed`: nothing goes to the retry topic,
    and what is committed is handled or dead-lettered. -/
theorem deliver_routed {g : Group} {n : ℕ} {p : Publication} {error : String} {env : Env}
    (hwire : ∃ carrier e, p.value = injectTrace carrier (Event.modelDump e))
    (hretry : (retryCountOf p.value).ltInt maxRetries = some true →
      ¬ (env.producer = true ∧ env.retryAck = true))
    (hdlq : env.failureCommit = true → env.producer = true ∧ env.dlqAck = true)
    {r : StepResult} (hr : r = (c.deliver rt maxRetries fails g n p error env).result) :
    (∀ q ∈ r.published, q.topic ≠ p.topic ++ "-retry") ∧
      (r.committed = true → r.handled = true ∨
        ∃ q ∈ r.published, DlqCopy (record n p) p.value q) := by
  obtain ⟨carrier, e, hval⟩ := hwire
  obtain ⟨hcount, hcorr⟩ := fields_of_dump carrier e
  rw [← hval] at hcount hcorr
  set env' := c.outcome fails g p error env
  have hnoretry : ∀ q ∈ r.published, q.topic ≠ p.topic ++ "-retry" := by
    intro q hq htopic
    rw [hr] at hq
    obtain ⟨data, hdata, h | ⟨-, hlt, hprod, hack⟩⟩ := consumeMessage_published hq
    · exact retry_ne_dlq p.topic (h.symm.trans htopic)
    · obtain rfl := JsonTree.obj.inj hdata
      exact hretry hlt ⟨hprod, hack⟩
  refine ⟨hnoretry, fun hcommit => ?_⟩
  have hpres : Preservable rt maxRetries env' (record n p) := by
    intro data e' hdata _ hfc retry _
    obtain rfl := JsonTree.obj.inj hdata
    obtain ⟨hprod, hack⟩ := hdlq hfc
    refine Or.inr ⟨?_, hprod, decodeKey_encodeKey_isSome p.key, hack⟩
    rw [hcorr]
    rfl
  have hacc := consumeMessage_accounted_iff.mpr hpres
  subst hr
  rcases hacc hcommit with h | ⟨data, hdata, q, hq, hcopy⟩
  · exact Or.inl h
  · obtain rfl := JsonTree.obj.inj hdata
    rcases hcopy with hcopy | hcopy
    · exact absurd hcopy.1 (hnoretry q hq)
    · exact Or.inr ⟨q, hq, hcopy⟩

theorem getElem?_grow {ps : List Publication} (hlog : c'.log = c.log ++ ps) {n : ℕ}
    {p : Publication} (h : c.log[n]? = some p) : c'.log[n]? = some p := by
  rw [hlog]
  rw [List.getElem?_append_left (List.getElem?_eq_some_iff.mp h).1, h]

theorem inv_step {l : ClusterLabel} (hi : Inv c) (hok : Routed maxRetries fails c l)
    (h : c.step rt maxRetries fails l = some c') : Inv c' := by
  rcases step_cases h with ⟨topic, carrier, event, key, rfl, -, rfl⟩ |
    ⟨g, n, error, env, p, rfl, hp, ht, rfl⟩
  · refine ⟨?_, fun x hx => getElem?_grow rfl (hi.source x hx), ?_, hi.unretried⟩
    · intro q hq hsaga
      rcases List.mem_append.mp hq with hq | hq
      · exact hi.wire q hq hsaga
      · obtain rfl := List.mem_singleton.mp hq
        exact ⟨carrier, event, rfl⟩
    · exact fun x hx hc => (hi.kept x hx hc).imp_right fun hd => hd.grow rfl
  · have hwire := hi.wire p (List.mem_of_getElem? hp) (saga_of_subscribed ht)
    set d := c.deliver rt maxRetries fails g n p error env with hd
    have hnew : d.result.handled = false →
        (∀ q ∈ d.result.published, q.topic ≠ p.topic ++ "-retry") ∧
          (d.result.committed = true → d.result.handled = true ∨
            ∃ q ∈ d.result.published, DlqCopy (record n p) p.value q) := by
      intro hun
      by_cases hf : c.Fails fails g p
      · obtain ⟨hretry, hdlq⟩ := hok p hp hf
        exact deliver_routed hwire hretry hdlq (congrArg Delivery.result hd)
      · have hhandled : d.result.handled = true := consumeMessage_handled rfl (if_neg hf)
        rw [hhandled] at hun
        cases hun
    refine ⟨?_, ?_, ?_, ?_⟩
    · intro q hq hsaga
      rcases List.mem_append.mp hq with hq | hq
      · exact hi.wire q hq hsaga
      · exact absurd hsaga (published_not_saga (saga_of_subscribed ht) hq)
    · intro x hx
      rcases List.mem_append.mp hx with hx | hx
      · exact getElem?_grow rfl (hi.source x hx)
      · obtain rfl := List.mem_singleton.mp hx
        exact getElem?_grow rfl hp
    · intro x hx hc
      rcases List.mem_append.mp hx with hx | hx
      · exact (hi.kept x hx hc).imp_right fun hd => hd.grow rfl
      · obtain rfl := List.mem_singleton.mp hx
        cases hh : d.result.handled with
        | true => exact Or.inl rfl
        | false =>
          obtain h | ⟨q, hq, hcopy⟩ := (hnew hh).2 hc
          · exact absurd (hh.symm.trans h) Bool.false_ne_true
          · exact Or.inr ⟨q, List.mem_append_right _ hq, hcopy⟩
    · intro x hx hun
      rcases List.mem_append.mp hx with hx | hx
      · exact hi.unretried x hx hun
      · obtain rfl := List.mem_singleton.mp hx
        exact (hnew hun).1

/-- In every run in which no failure is routed to a retry topic and every failure whose offset is
    committed is dead-lettered, no saga event is lost. -/
theorem reaches_kept {ls : List ClusterLabel}
    (h : Reaches (step rt maxRetries fails) (Routed maxRetries fails) empty ls c)
    (hdrained : c.Drained) : c.Kept := by
  have hi : Inv c := h.invariant Inv inv_empty fun _ _ _ hi hok hs => inv_step hi hok hs
  refine ⟨?_, ?_⟩
  · intro n p hp _ g hg
    obtain ⟨x, hx, rfl, rfl, hc⟩ := hdrained n p hp g hg
    have hsource : x.source = p := Option.some.inj ((hi.source x hx).symm.trans hp)
    rcases hi.kept x hx hc with hh | hd
    · exact Or.inl ⟨x, hx, rfl, hh, Or.inl rfl⟩
    · exact Or.inr (hsource ▸ hd)
  · intro x hx hun q hq htopic
    exact absurd htopic (hi.unretried x hx hun q hq)

/-- No run ever delivers a copy from a retry topic of the saga. -/
theorem retry_copy_is_never_consumed {ls : List ClusterLabel}
    (h : Reaches (step rt maxRetries fails) anyStep empty ls c) {t : String} (ht : t ∈ sagaTopics) :
    ∀ x ∈ c.history, x.source.topic ≠ t ++ "-retry" := by
  have hsub : ∀ x ∈ c.history, x.source.topic ∈ x.group.topics := by
    refine h.invariant (fun c => ∀ x ∈ c.history, x.source.topic ∈ x.group.topics)
      (fun x hx => absurd hx List.not_mem_nil) ?_
    intro c l c' hi _ hs
    rcases step_cases hs with ⟨_, _, _, _, -, -, rfl⟩ | ⟨g, n, error, env, p, -, -, hp, rfl⟩
    · exact hi
    · intro x hx
      rcases List.mem_append.mp hx with hx | hx
      · exact hi x hx
      · obtain rfl := List.mem_singleton.mp hx
        exact hp
  exact fun x hx htopic => retry_not_subscribed ht x.group (htopic ▸ hsub x hx)

/-! ## Runs on one event -/

def orderCreated : Event where
  eventId := "e0"
  eventType := "OrderCreatedEvent"
  timestamp := "t0"
  correlationId := "c0"
  payload := []

/-- The broker acknowledges dead-letter copies, and retry copies as told. -/
def broker (retryAck : Bool) : Env where
  running := true
  handler := .ok ()
  commit := .ok ()
  failureCommit := true
  producer := true
  retryAck := retryAck
  dlqAck := true
  retryDraws := ⟨"e1", "t1"⟩
  dlqDraws := ⟨"e2", "t2"⟩
  carrier := []
  now := "t3"

/-- One event, consumed once by the only subscriber. -/
def oneFailure (retryAck : Bool) : List ClusterLabel :=
  [.publish "order-events" [] orderCreated none,
    .consume .inventory 0 "handler failed" (broker retryAck)]

theorem subscriber_of_orderEvents {g : Group} (h : "order-events" ∈ g.topics) :
    g = .inventory := by
  revert h
  cases g <;> decide

/-- In a log of one order event and copies of it nothing else is subscribed to. -/
theorem drained_of_copies {p q : Publication} {hs : List Handling}
    (hp : p.topic = "order-events") (hq : q.topic ∉ sagaTopics)
    (hc : ∃ h ∈ hs, h.group = .inventory ∧ h.index = 0 ∧ h.delivery.result.committed = true) :
    Drained { log := [p, q], history := hs } := by
  intro n r hr g hg
  match n with
  | 0 =>
    obtain rfl : p = r := Option.some.inj hr
    obtain rfl := subscriber_of_orderEvents (hp ▸ hg)
    exact hc
  | 1 =>
    obtain rfl : q = r := Option.some.inj hr
    exact absurd (saga_of_subscribed hg) hq
  | n + 2 => cases hr

theorem drained_oneFailure {retryAck : Bool} {c : Cluster}
    (h : runFrom (step Runtime.exact 3 fun _ _ => 1) empty (oneFailure retryAck) = some c) :
    c.Drained := by
  cases retryAck <;> obtain rfl := Option.some.inj h <;>
    exact drained_of_copies rfl (by decide) ⟨_, List.mem_singleton_self _, rfl, rfl, rfl⟩

/-- A failure whose retry copy is refused by the broker is kept on the dead-letter topic. -/
theorem reaches_kept_oneFailure : ∃ c, runFrom (step Runtime.exact 3 fun _ _ => 1) empty
    (oneFailure false) = some c ∧ c.Drained ∧ c.Kept := by
  refine ⟨_, rfl, drained_oneFailure rfl, ?_⟩
  have hpublish : Reaches (step Runtime.exact 3 fun _ _ => 1) (Routed 3 fun _ _ => 1) empty
      [.publish "order-events" [] orderCreated none] _ := .next .start True.intro rfl
  have hconsume : Reaches (step Runtime.exact 3 fun _ _ => 1) (Routed 3 fun _ _ => 1) empty
      (oneFailure false) _ := hpublish.next
    (fun _ _ _ => ⟨fun _ h => Bool.false_ne_true h.2, fun _ => ⟨rfl, rfl⟩⟩) rfl
  exact reaches_kept hconsume (drained_oneFailure hconsume.runFrom)

/-- The handler fails once on an event: its retry copy is acknowledged, the offset is committed,
    every group has consumed everything it subscribes to, and the event is neither completed nor
    dead-lettered. -/
theorem retried_event_is_lost : ∃ c, Reaches (step Runtime.exact 3 fun _ _ => 1) anyStep empty
      (oneFailure true) c ∧ c.Drained ∧ (∃ p, c.log[0]? = some p ∧ p.topic = "order-events" ∧
        ¬ c.Completed .inventory 0 p ∧ ¬ c.DeadLettered 0 p) ∧ ¬ c.Redelivered := by
  have hrun : Reaches (step Runtime.exact 3 fun _ _ => 1) anyStep empty (oneFailure true) _ :=
    reaches_run rfl
  refine ⟨_, hrun, drained_oneFailure hrun.runFrom, ⟨_, rfl, rfl, ?_, ?_⟩, ?_⟩
  · rintro ⟨x, hx, -, hhandled, -⟩
    obtain rfl := List.mem_singleton.mp hx
    exact Bool.false_ne_true hhandled
  · rintro ⟨q, hq, htopic, -⟩
    obtain rfl | hq := List.mem_cons.mp hq
    · exact absurd htopic (by decide)
    · obtain rfl := List.mem_singleton.mp hq
      exact absurd htopic (by decide)
  · intro h
    obtain ⟨x, hx, -, hsource⟩ :=
      h _ (List.mem_singleton_self _) rfl _ (List.mem_singleton_self _) rfl
    have hsaga : "order-events" ∈ sagaTopics := by decide
    exact retry_copy_is_never_consumed hrun hsaga x hx (congrArg Publication.topic hsource)

end Cluster

end CloudScale.Shared
