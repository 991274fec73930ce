/-
  Several outbox workers on one table (`cloudscale_shared/outbox.py`), with the transactions that
  write it.

  A request is a domain transaction that calls `write_outbox`, or one `_process_batch` of some
  worker. A batch asks one query for the fetch and one for each send, so everything else may happen
  between two sends; its flags and counters are committed together at the end, and a crash, a
  rollback or a failed commit loses them. `Broker.fate` says of each send whether the broker
  acknowledges it and under which trace context it happens. The text column `payload` is modelled by
  the JSON document in it.

  `outbox_sound`: a processed record was acknowledged, and what was handed to the producer is a
  committed record.
-/
import Mathlib.Data.List.Sort
import CloudScale.Lib.Acting
import CloudScale.Lib.Table
import CloudScale.Shared.Events

namespace CloudScale.Shared.OutboxWorkers

open CloudScale.Lib

/-! ## Records -/

/-- A row of `OutboxMixin`; its id is the `n`-th drawn by a transaction. -/
structure OutboxRecord where
  id : ℕ × ℕ
  eventId : String
  eventType : String
  topic : String
  key : Option String
  payload : Dict
  correlationId : String
  createdAt : Int
  processed : Bool := false
  retryCount : ℕ := 0

abbrev OutboxRecords := Table (ℕ × ℕ) OutboxRecord OutboxRecord.id

/-- The arguments of a `write_outbox`, and the time. -/
structure OutboxWrite where
  topic : String
  event : Event
  key : Option String
  now : Int

def writeOutbox (id : ℕ × ℕ) (a : OutboxWrite) : OutboxRecord :=
  { id, eventId := a.event.eventId, eventType := a.event.eventType, topic := a.topic, key := a.key
    payload := a.event.modelDump, correlationId := a.event.correlationId, createdAt := a.now }

/-! ## The broker -/

/-- What was handed to the producers and what the broker acknowledged, in the order it happened;
    `fate n` is the fate of the `n`-th send. -/
structure Broker where
  fate : ℕ → Bool × Dict
  handed : List Publication := []
  acked : List Publication := []

/-- The publication of the next send, if it is acknowledged. -/
def Broker.sendEvent (b : Broker) (topic : String) (event : Event) (key : Option String) :
    Option Publication :=
  Shared.sendEvent (b.fate b.handed.length).1 (b.fate b.handed.length).2 topic event key

def Broker.handOver (b : Broker) (topic : String) (event : Event) (key : Option String) : Broker :=
  { b with
    handed := b.handed ++
      [{ topic, key, value := injectTrace (b.fate b.handed.length).2 event.modelDump }]
    acked := b.acked ++ (b.sendEvent topic event key).toList }

/-! ## Transactions -/

inductive OutboxQuery where
  | fetch (maxRetries batchSize : ℕ)
  | send (topic : String) (event : Event) (key : Option String)

def OutboxAnswer : OutboxQuery → Type
  | .fetch _ _ => List OutboxRecord
  | .send _ _ _ => Bool

/-- The `where` clause of the fetch. -/
def eligible (maxRetries : ℕ) (r : OutboxRecord) : Bool :=
  !r.processed && decide (r.retryCount < maxRetries)

/-- The result of the fetch. Records of equal `created_at` may come in any order: `scan` is the
    order in which the sort meets the eligible ones. -/
def fetchBatch (records : OutboxRecords) (scan : List ℕ) (maxRetries batchSize : ℕ) :
    List OutboxRecord :=
  let rows := records.rows.filter (eligible maxRetries)
  let places := List.range rows.length
  let order := (if scan.Perm places then scan else places).filterMap fun i => rows[i]?
  (order.insertionSort fun a b => a.createdAt ≤ b.createdAt).take batchSize

/-- The columns of a record that the session has changed. -/
structure RecordUpdate where
  id : ℕ × ℕ
  processed : Bool := false
  retryCount : Option ℕ := none

structure OutboxWrites where
  inserts : List OutboxRecord := []
  updates : List RecordUpdate := []

abbrev OutboxTxn (R : Type) := Txn OutboxQuery OutboxAnswer Unit R

section Programs

variable (rt : Runtime) (draws : Draws)

def fetch (maxRetries batchSize : ℕ) : OutboxTxn (List OutboxRecord) :=
  Txn.query (OutboxQuery.fetch maxRetries batchSize)

/-- `self.producer.send_event`; `false` is the exception it raises. -/
def send (topic : String) (event : Event) (key : Option String) : OutboxTxn Bool :=
  Txn.query (OutboxQuery.send topic event key)

/-- The `except` branch of the loop. -/
def failed (r : OutboxRecord) : RecordUpdate :=
  { id := r.id, retryCount := some (r.retryCount + 1) }

/-- The loop body. -/
def publishRecord (r : OutboxRecord) : OutboxTxn RecordUpdate := do
  match Event.validate rt draws r.payload with
  | none => return failed r
  | some event =>
    if ← send r.topic event r.key then return { id := r.id, processed := true }
    else return failed r

def publishRecords : List OutboxRecord → OutboxTxn (List RecordUpdate)
  | [] => return []
  | r :: rs => do
    let u ← publishRecord rt draws r
    let us ← publishRecords rs
    return u :: us

/-- `_process_batch`. -/
def processBatch (maxRetries batchSize : ℕ) : OutboxTxn OutboxWrites := do
  let records ← fetch maxRetries batchSize
  return { updates := ← publishRecords rt draws records }

inductive OutboxRequest where
  | domain (writes : List OutboxWrite)
  | poll (maxRetries batchSize : ℕ)

def program (tid : ℕ) : OutboxRequest → OutboxTxn OutboxWrites
  | .domain writes => return { inserts := writes.mapIdx fun n a => writeOutbox (tid, n) a }
  | .poll maxRetries batchSize => processBatch rt draws maxRetries batchSize

end Programs

/-! ## Commits -/

def RecordUpdate.apply (u : RecordUpdate) (r : OutboxRecord) : OutboxRecord :=
  { r with processed := u.processed || r.processed, retryCount := u.retryCount.getD r.retryCount }

def runUpdates (records : OutboxRecords) (us : List RecordUpdate) : OutboxRecords :=
  us.foldl (fun t u => t.modify u.id u.apply fun _ => rfl) records

/-- `session.commit()`; `none` when a constraint is violated (`event_id` is unique). -/
def commit (w : OutboxWrites) (records : OutboxRecords) : Option OutboxRecords := do
  let records ← (runUpdates records w.updates).extend w.inserts
  if (records.rows.map (·.eventId)).Nodup then some records else none

def service (rt : Runtime) (draws : Draws) :
    Service OutboxRecords Broker OutboxRequest (List ℕ) OutboxQuery OutboxAnswer Unit
      OutboxWrites where
  prog := program rt draws
  answer scan b records
    | .fetch maxRetries batchSize => fetchBatch records scan maxRetries batchSize
    | .send topic event key => (b.sendEvent topic event key).isSome
  effect
    | .fetch _ _, b => b
    | .send topic event key, b => b.handOver topic event key
  commit := commit

/-! ## Soundness -/

/-- The publication has the event id, the topic and the key of the record (the key as it is given to
    `send_and_wait`, whose serializer sends an empty one as none). -/
def Carries (p : Publication) (r : OutboxRecord) : Prop :=
  p.topic = r.topic ∧ p.key = r.key ∧ p.value.lookup "event_id" = some (.str r.eventId)

/-- The columns that no worker changes. -/
def OutboxRecord.written (r : OutboxRecord) : OutboxRecord :=
  { r with processed := false, retryCount := 0 }

/-- The record was written by `write_outbox`. -/
def WellFormed (r : OutboxRecord) : Prop :=
  ∃ e : Event, r.payload = e.modelDump ∧ r.eventId = e.eventId

structure Sound (s : Broker × OutboxRecords) : Prop where
  wellFormed : ∀ r ∈ s.2.rows, WellFormed r
  processed : ∀ r ∈ s.2.rows, r.processed = true → ∃ p ∈ s.1.acked, Carries p r
  handed : ∀ p ∈ s.1.handed, ∃ r ∈ s.2.rows, Carries p r

/-- The record is in the table, up to what workers change. -/
def Known (r : OutboxRecord) (s : Broker × OutboxRecords) : Prop :=
  ∃ r' ∈ s.2.rows, r'.written = r.written

/-- Acknowledgements and records stay. -/
structure Grows (s t : Broker × OutboxRecords) : Prop where
  acked : ∀ p ∈ s.1.acked, p ∈ t.1.acked
  records : ∀ r ∈ s.2.rows, Known r t

/-- A worker hands over what is in the table. -/
def Asks (s : Broker × OutboxRecords) : OutboxQuery → Prop
  | .fetch _ _ => True
  | .send topic event key =>
    ∃ r ∈ s.2.rows, r.topic = topic ∧ r.key = key ∧ r.eventId = event.eventId

/-- A flag is set for a record whose send was acknowledged. -/
def Truthful (s : Broker × OutboxRecords) (u : RecordUpdate) : Prop :=
  u.processed = true → ∃ p ∈ s.1.acked, ∃ r ∈ s.2.rows, r.id = u.id ∧ Carries p r

structure Leaves (s : Broker × OutboxRecords) (w : OutboxWrites) : Prop where
  inserts : ∀ r ∈ w.inserts, WellFormed r ∧ r.processed = false
  updates : ∀ u ∈ w.updates, Truthful s u

variable {s t u : Broker × OutboxRecords} {r r' : OutboxRecord} {p : Publication}

theorem Carries.congr (h : Carries p r) (heq : r'.written = r.written) : Carries p r' := by
  simp only [OutboxRecord.written, OutboxRecord.mk.injEq] at heq
  obtain ⟨-, hevent, -, htopic, hkey, -⟩ := heq
  obtain ⟨h1, h2, h3⟩ := h
  exact ⟨h1.trans htopic.symm, h2.trans hkey.symm, by rw [h3, hevent]⟩

theorem id_of_written (h : r'.written = r.written) : r'.id = r.id := by
  show r'.written.id = r.written.id
  rw [h]

theorem Known.mono (h : Known r s) (hst : Grows s t) : Known r t := by
  obtain ⟨r', hr', heq⟩ := h
  obtain ⟨r'', hr'', heq'⟩ := hst.records r' hr'
  exact ⟨r'', hr'', heq'.trans heq⟩

theorem Grows.refl (s : Broker × OutboxRecords) : Grows s s :=
  ⟨fun _ h => h, fun r hr => ⟨r, hr, rfl⟩⟩

theorem Grows.trans (h : Grows s t) (h' : Grows t u) : Grows s u :=
  ⟨fun p hp => h'.acked p (h.acked p hp), fun r hr => (h.records r hr).mono h'⟩

theorem Truthful.mono {v : RecordUpdate} (h : Truthful s v) (hst : Grows s t) : Truthful t v := by
  intro hv
  obtain ⟨p, hp, r, hr, hid, hc⟩ := h hv
  obtain ⟨r', hr', heq⟩ := hst.records r hr
  exact ⟨p, hst.acked p hp, r', hr', (id_of_written heq).trans hid, hc.congr heq⟩

theorem mem_of_fetchBatch {records : OutboxRecords} {scan : List ℕ} {maxRetries batchSize : ℕ}
    (h : r ∈ fetchBatch records scan maxRetries batchSize) : r ∈ records.rows := by
  have hsort := List.mem_of_mem_take h
  rw [List.mem_insertionSort] at hsort
  obtain ⟨i, -, hi⟩ := List.mem_filterMap.mp hsort
  exact (List.mem_filter.mp (List.mem_of_getElem? hi)).1

/-- What a send adds to the acknowledgements is the publication of its event. -/
theorem sendEvent_carries {b : Broker} {event : Event}
    (h : (b.sendEvent r.topic event r.key).isSome) (hid : r.eventId = event.eventId) :
    ∃ p ∈ (b.handOver r.topic event r.key).acked, Carries p r := by
  obtain ⟨p, hp⟩ := Option.isSome_iff_exists.mp h
  refine ⟨p, ?_, ?_⟩
  · show p ∈ b.acked ++ (b.sendEvent r.topic event r.key).toList
    rw [hp]
    exact List.mem_append_right _ (List.mem_singleton_self p)
  · unfold Broker.sendEvent Shared.sendEvent at hp
    obtain ⟨-, rfl⟩ := Option.ite_none_right_eq_some.mp hp |>.imp_right Option.some.inj
    refine ⟨rfl, rfl, ?_⟩
    show List.lookup _ (injectTrace _ _) = _
    rw [lookup_injectTrace _ _ (by decide), hid]
    rfl

theorem grows_act (rt : Runtime) (draws : Draws) (s : Broker × OutboxRecords) (q : OutboxQuery) :
    Grows s ((service rt draws).act q s) := by
  cases q with
  | fetch _ _ => exact Grows.refl s
  | send topic event key =>
    exact ⟨fun p hp => List.mem_append_left _ hp, fun r hr => ⟨r, hr, rfl⟩⟩

theorem sound_act {rt : Runtime} {draws : Draws} {q : OutboxQuery} (hs : Sound s)
    (hq : Asks s q) : Sound ((service rt draws).act q s) := by
  cases q with
  | fetch _ _ => exact hs
  | send topic event key =>
    obtain ⟨r, hr, rfl, rfl, hid⟩ := hq
    refine ⟨hs.wellFormed, fun r' hr' hp => ?_, fun p hp => ?_⟩
    · obtain ⟨p, hp, hc⟩ := hs.processed r' hr' hp
      exact ⟨p, List.mem_append_left _ hp, hc⟩
    · rcases List.mem_append.mp hp with hp | hp
      · exact hs.handed p hp
      · obtain rfl := List.mem_singleton.mp hp
        refine ⟨r, hr, rfl, rfl, ?_⟩
        show List.lookup _ (injectTrace _ _) = _
        rw [lookup_injectTrace _ _ (by decide), hid]
        rfl

section Programs

variable {rt : Runtime} {draws : Draws}

/-- The discipline of a worker. -/
abbrev Disciplined {R : Type} (rt : Runtime) (draws : Draws)
    (post : Broker × OutboxRecords → R → Prop) (p : OutboxTxn R) (s : Broker × OutboxRecords) :
    Prop :=
  Acts (service rt draws).answers (service rt draws).act (Within Sound Grows) Asks post p s

theorem publishRecord_acts (hr : Known r s) (hw : WellFormed r) :
    Disciplined rt draws (fun t v => Truthful t v) (publishRecord rt draws r) s := by
  obtain ⟨e, hpayload, hid⟩ := hw
  have hfailed : ∀ t, Truthful t (failed r) := fun _ h => absurd h Bool.false_ne_true
  unfold publishRecord
  rw [hpayload, validate_modelDump]
  intro t ⟨hst, _⟩
  obtain ⟨r', hr', heq⟩ := hr.mono hst
  refine ⟨?_, fun ω => ?_⟩
  · have hcols := heq
    simp only [OutboxRecord.written, OutboxRecord.mk.injEq] at hcols
    obtain ⟨-, hevent, -, htopic, hkey, -⟩ := hcols
    exact ⟨r', hr', htopic, hkey, hevent.trans hid⟩
  · show Disciplined rt draws _ (if (t.1.sendEvent r.topic e r.key).isSome then _ else _) _
    split
    · next hack =>
      refine fun u hu => Truthful.mono (fun _ => ?_) hu.1
      obtain ⟨p, hp, hc⟩ := sendEvent_carries hack hid
      exact ⟨p, hp, r', hr', id_of_written heq, hc.congr heq⟩
    · exact fun u _ => hfailed u

theorem within_self {s t : Broker × OutboxRecords} {q : OutboxQuery}
    (hst : Within Sound Grows s t) (hq : Asks t q) :
    Within Sound Grows ((service rt draws).act q t) ((service rt draws).act q t) :=
  ⟨Grows.refl _, sound_act hst.2 hq⟩

/-- What only grows is framed around a worker's program. -/
theorem Disciplined.frame {R : Type} {post : Broker × OutboxRecords → R → Prop} {p : OutboxTxn R}
    {F : Broker × OutboxRecords → Prop} (h : Disciplined rt draws post p s)
    (hF : ∀ s t, Grows s t → F s → F t) (hs : Sound s) (hFs : F s) :
    Disciplined rt draws (fun t r => post t r ∧ Sound t ∧ F t) p s :=
  Acts.frame h (fun s t hF' hst => ⟨hst.2, hF s t hst.1 hF'.2⟩)
    (fun t q hF' hq => ⟨sound_act hF'.1 hq, hF _ _ (grows_act rt draws t q) hF'.2⟩) ⟨hs, hFs⟩

theorem publishRecords_acts {rs : List OutboxRecord} (hs : Sound s)
    (hrs : ∀ r ∈ rs, Known r s ∧ WellFormed r) :
    Disciplined rt draws (fun t us => ∀ v ∈ us, Truthful t v) (publishRecords rt draws rs) s := by
  induction rs generalizing s with
  | nil => exact fun t ht => fun _ hv => absurd hv List.not_mem_nil
  | cons r rs ih =>
    obtain ⟨hr, hrest⟩ := List.forall_mem_cons.mp hrs
    have hone : Disciplined rt draws _ _ s := publishRecord_acts hr.1 hr.2
    have hfirst := hone.frame (F := fun t => ∀ r ∈ rs, Known r t ∧ WellFormed r)
      (fun s t hst h r hr => ⟨(h r hr).1.mono hst, (h r hr).2⟩) hs hrest
    refine hfirst.bind ⟨Grows.refl s, hs⟩ (fun _ _ _ => within_self) fun t v hv => ?_
    obtain ⟨hv, ht, hrest⟩ := hv
    have hothers := (ih ht hrest).frame (F := fun t => Truthful t v)
      (fun _ _ hst h => h.mono hst) ht hv
    refine hothers.bind ⟨Grows.refl t, ht⟩ (fun _ _ _ => within_self) fun u vs hvs w hw => ?_
    obtain ⟨hvs, -, hv⟩ := hvs
    intro x hx
    rcases List.mem_cons.mp hx with rfl | hx
    · exact hv.mono hw.1
    · exact (hvs x hx).mono hw.1

theorem processBatch_acts (maxRetries batchSize : ℕ) :
    Disciplined rt draws Leaves (processBatch rt draws maxRetries batchSize) s := by
  intro t hst
  refine ⟨trivial, fun scan => ?_⟩
  have hrs : ∀ r ∈ fetchBatch t.2 scan maxRetries batchSize, Known r t ∧ WellFormed r :=
    fun r hr => ⟨⟨r, mem_of_fetchBatch hr, rfl⟩, hst.2.wellFormed r (mem_of_fetchBatch hr)⟩
  refine (publishRecords_acts hst.2 hrs).bind ⟨Grows.refl t, hst.2⟩ (fun _ _ _ => within_self) ?_
  exact fun u us hus v hv => ⟨fun _ h => absurd h List.not_mem_nil,
    fun x hx => (hus x hx).mono hv.1⟩

theorem program_acts (tid : ℕ) (req : OutboxRequest) :
    Disciplined rt draws Leaves (program rt draws tid req) s := by
  cases req with
  | poll maxRetries batchSize => exact processBatch_acts maxRetries batchSize
  | domain writes =>
    refine fun t _ => ⟨fun r hr => ?_, fun _ h => absurd h List.not_mem_nil⟩
    obtain ⟨n, hn, rfl⟩ := List.mem_mapIdx.mp hr
    exact ⟨⟨_, rfl, rfl⟩, rfl⟩

end Programs

/-! ## Commits -/

theorem commit_eq_some {records records' : OutboxRecords} {w : OutboxWrites}
    (h : commit w records = some records') :
    (runUpdates records w.updates).extend w.inserts = some records' := by
  simp only [commit, Option.bind_eq_bind, Option.bind_eq_some_iff,
    Option.ite_none_right_eq_some, Option.some.injEq] at h
  obtain ⟨_, hext, -, rfl⟩ := h
  exact hext

theorem written_apply (v : RecordUpdate) (r : OutboxRecord) : (v.apply r).written = r.written := rfl

/-- A row after the updates: an old row up to what workers change, and if it is processed, it was so
    before or an update says so. -/
theorem mem_runUpdates {us : List RecordUpdate} {records : OutboxRecords}
    (h : r ∈ (runUpdates records us).rows) : ∃ r' ∈ records.rows, r.written = r'.written ∧
      (r.processed = true → r'.processed = true ∨
        ∃ v ∈ us, v.id = r.id ∧ v.processed = true) := by
  induction us generalizing records with
  | nil => exact ⟨r, h, rfl, Or.inl⟩
  | cons v us ih =>
    obtain ⟨x, hx, hwritten, hprocessed⟩ := ih h
    obtain ⟨y, hy, hyx⟩ := List.mem_map.mp hx
    refine ⟨y, hy, ?_, fun hp => ?_⟩
    · rw [hwritten, ← hyx]
      split
      · exact written_apply v y
      · rfl
    · rcases hprocessed hp with hp | ⟨v', hv', hid, hp⟩
      · by_cases hid : y.id = v.id
        · rw [if_pos hid] at hyx
          rw [← hyx] at hp
          rcases Bool.or_eq_true_iff.mp hp with hv | hy
          · refine Or.inr ⟨v, List.mem_cons_self, ?_, hv⟩
            rw [id_of_written hwritten, ← hyx]
            exact hid.symm
          · exact Or.inl hy
        · rw [if_neg hid] at hyx
          exact Or.inl (hyx ▸ hp)
      · exact Or.inr ⟨v', List.mem_cons_of_mem _ hv', hid, hp⟩

/-- Every row is still there after the updates. -/
theorem known_runUpdates (us : List RecordUpdate) {records : OutboxRecords}
    (h : r ∈ records.rows) : ∃ r' ∈ (runUpdates records us).rows, r'.written = r.written := by
  induction us generalizing records r with
  | nil => exact ⟨r, h, rfl⟩
  | cons v us ih =>
    have hmem : (if r.id = v.id then v.apply r else r) ∈
        (records.modify v.id v.apply fun _ => rfl).rows := List.mem_map_of_mem h
    obtain ⟨r', hr', heq⟩ := ih hmem
    refine ⟨r', hr', heq.trans ?_⟩
    split
    · exact written_apply v r
    · rfl

theorem commit_grows {records : OutboxRecords} {w : OutboxWrites}
    (h : commit w s.2 = some records) : Grows s (s.1, records) := by
  refine ⟨fun _ hp => hp, fun r hr => ?_⟩
  obtain ⟨r', hr', heq⟩ := known_runUpdates w.updates hr
  refine ⟨r', ?_, heq⟩
  show r' ∈ records.rows
  rw [Table.rows_extend (commit_eq_some h)]
  exact List.mem_append_left _ hr'

theorem commit_sound {records : OutboxRecords} {w : OutboxWrites} (hs : Sound s)
    (hw : Leaves s w) (h : commit w s.2 = some records) : Sound (s.1, records) := by
  have hgrows := commit_grows h
  have hrows := Table.rows_extend (commit_eq_some h)
  have hmem : ∀ r ∈ records.rows, r ∈ (runUpdates s.2 w.updates).rows ∨ r ∈ w.inserts := by
    intro r hr
    rw [hrows] at hr
    exact List.mem_append.mp hr
  refine ⟨fun r hr => ?_, fun r hr hp => ?_, fun p hp => ?_⟩
  · rcases hmem r hr with hr | hr
    · obtain ⟨r', hr', heq, -⟩ := mem_runUpdates hr
      obtain ⟨e, hpayload, hid⟩ := hs.wellFormed r' hr'
      simp only [OutboxRecord.written, OutboxRecord.mk.injEq] at heq
      obtain ⟨-, hevent, -, -, -, hpay, -⟩ := heq
      exact ⟨e, hpay.trans hpayload, hevent.trans hid⟩
    · exact (hw.inserts r hr).1
  · rcases hmem r hr with hr | hr
    · obtain ⟨r', hr', heq, hprocessed⟩ := mem_runUpdates hr
      rcases hprocessed hp with hp | ⟨v, hv, hid, hp⟩
      · obtain ⟨p, hp, hc⟩ := hs.processed r' hr' hp
        exact ⟨p, hp, hc.congr heq⟩
      · obtain ⟨p, hp, x, hx, hxid, hc⟩ := hw.updates v hv hp
        have hsame : x = r' :=
          Table.row_eq_of_key hx hr' (hxid.trans (hid.trans (id_of_written heq)))
        exact ⟨p, hp, (hsame ▸ hc).congr heq⟩
    · rw [(hw.inserts r hr).2] at hp
      cases hp
  · obtain ⟨r, hr, hc⟩ := hs.handed p hp
    obtain ⟨r', hr', heq⟩ := hgrows.records r hr
    exact ⟨r', hr', hc.congr heq⟩

theorem outbox_discipline (rt : Runtime) (draws : Draws) :
    Discipline (service rt draws) Sound Grows (fun _ => Asks) (fun _ => Leaves) where
  refl := Grows.refl
  trans _ _ _ := Grows.trans
  start tid req _ _ := program_acts tid req
  query _ s q hs hq := ⟨sound_act hs hq, grows_act rt draws s q⟩
  commit _ _ _ _ hs hw hc := ⟨commit_sound hs hw hc, commit_grows hc⟩

/-! ## Runs -/

/-- In every state of every run, whatever sends fail and whatever crashes, (a) every processed
    record was acknowledged by the broker with its event id, topic and key, and (b) everything that
    was handed to a producer has the event id, topic and key of a committed record. -/
theorem outbox_sound {rt : Runtime} {draws : Draws} {fate : ℕ → Bool × Dict}
    {ls : List (Label OutboxRequest (List ℕ))}
    {srv : Server OutboxRecords Broker OutboxRequest OutboxQuery OutboxAnswer Unit OutboxWrites}
    (h : Reaches (service rt draws).step anyStep (Server.init .empty { fate }) ls srv) :
    (∀ r ∈ srv.db.rows, r.processed = true → ∃ p ∈ srv.world.acked, Carries p r) ∧
      ∀ p ∈ srv.world.handed, ∃ r ∈ srv.db.rows, Carries p r := by
  have hinit : Sound ({ fate }, .empty) :=
    ⟨fun _ h => absurd h List.not_mem_nil, fun _ h => absurd h List.not_mem_nil,
      fun _ h => absurd h List.not_mem_nil⟩
  have hs := (outbox_discipline rt draws).reaches h hinit
  exact ⟨hs.processed, hs.handed⟩

def cancelledEvent (id : String) : Event :=
  { eventId := id, eventType := "OrderCancelledEvent", timestamp := "t", correlationId := "c"
    payload := [] }

/-- Two workers fetch the same record. The first sends it and dies, the second sends it again and
    commits; meanwhile a domain transaction is rolled back. -/
def overlap : List (Label OutboxRequest (List ℕ)) :=
  [.start (.domain [⟨"order-events", cancelledEvent "a", some "order-a", 0⟩]),
    .move (.finish 0), .start (.poll 5 50), .start (.poll 5 50),
    .start (.domain [⟨"order-events", cancelledEvent "b", none, 1⟩]), .move (.advance 0 []),
    .move (.advance 1 []), .move (.advance 0 []), .move (.crash 0), .move (.advance 0 []),
    .move (.crash 1), .move (.finish 0)]

theorem outbox_sound_overlap : ∃ srv,
    Reaches (service Runtime.exact ⟨"", ""⟩).step anyStep
      (Server.init .empty { fate := fun _ => (true, []) }) overlap srv ∧
      srv.world.handed.length = 2 ∧ srv.db.rows.map (·.processed) = [true] ∧
      ∀ r ∈ srv.db.rows, r.processed = true → ∃ p ∈ srv.world.acked, Carries p r := by
  have hrun : Reaches (service Runtime.exact ⟨"", ""⟩).step anyStep
      (Server.init .empty { fate := fun _ => (true, []) }) overlap _ := reaches_run rfl
  exact ⟨_, hrun, rfl, rfl, (outbox_sound hrun).1⟩

end CloudScale.Shared.OutboxWorkers
