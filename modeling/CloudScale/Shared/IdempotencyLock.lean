/-
  How many requests `start_processing` lets through (`cloudscale_shared/idempotency.py`).

  A call looks the key up and registers itself in a second command, an unconditional `SET`: several
  calls can find the key absent before one of them has set it. `LookupUnraced` rules that out: no
  call finds the key absent while another that has found it absent is still in flight.
  `lock_exclusive`: then at most one call is let through, and every other one is refused with 409 or
  given the completed record. `lock_raced` is two calls that overlap.
-/
import CloudScale.Shared.Idempotency
import CloudScale.Lib.Exclusive

namespace CloudScale.Idempotency

open CloudScale.Lib CloudScale.Shared

/-! ## Records that refuse a call -/

/-- A value with which no call is let through. -/
def Blocks (value : RedisValue) : Prop :=
  ∀ fingerprint, checkExisting fingerprint (some value) ≠ .ok none

/-- A record of the manager. -/
def Recorded (value : RedisValue) : Prop :=
  (∃ fingerprint, value = .json (.obj (inProgressRecord fingerprint))) ∨
    ∃ fingerprint statusCode body,
      value = .json (.obj (completedRecord fingerprint statusCode body))

theorem Recorded.blocks {value : RedisValue} (h : Recorded value) : Blocks value := by
  intro fingerprint
  obtain ⟨found, rfl⟩ | ⟨found, statusCode, body, rfl⟩ := h
  · rw [checkExisting_inProgress]
    split
    · nofun
    · nofun
  · rw [checkExisting_completed]
    split
    · nofun
    · nofun

/-- What a call writes is a record. -/
theorem recorded_writes {r : IdempotencyRequest} {value : RedisValue} (h : r.writes = some value) :
    Recorded value := by
  cases r with
  | startProcessing tenantId idempotencyKey fingerprint =>
    exact .inl ⟨fingerprint, (Option.some.inj h).symm⟩
  | saveResponse tenantId idempotencyKey fingerprint statusCode body =>
    exact .inr ⟨fingerprint, statusCode, body, (Option.some.inj h).symm⟩
  | clearKey tenantId idempotencyKey => cases h

/-! ## Calls -/

/-- A `start_processing` for the key. -/
def starts (redisKey : String) : IdempotencyRequest → Bool
  | .startProcessing tenantId idempotencyKey _ =>
      decide (formatKey tenantId idempotencyKey = redisKey)
  | _ => false

/-- The caller may execute the operation. -/
def IdempotencyResult.proceeds : IdempotencyResult → Bool
  | .started none => true
  | _ => false

/-- The call has been let through. -/
def letThrough : IdempotencyTxn IdempotencyResult → Bool
  | .ask (.set _ _ _) _ => true
  | .done result => result.proceeds
  | _ => false

/-- The calls for the key that have been let through. -/
def registering (redisKey : String) (r : IdempotencyRequest)
    (p : IdempotencyTxn IdempotencyResult) : Bool :=
  starts redisKey r && letThrough p

/-- The lookup lets the call through. -/
def Passes (redisKey : String) : IdempotencyRequest → (q : RedisQuery) → RedisAnswer q → Prop
  | .startProcessing tenantId idempotencyKey fingerprint, .get key, found =>
    formatKey tenantId idempotencyKey = redisKey ∧ key = redisKey ∧
      checkExisting fingerprint found = .ok none
  | _, _, _ => False

/-- The command stores a record under the key. -/
def SetsLock (redisKey : String) : RedisQuery → Prop
  | .set key value ex => key = redisKey ∧ Blocks value ∧ 0 < ex
  | _ => False

/-- The command leaves a record under the key. -/
def KeepsLock (redisKey : String) : RedisQuery → Prop
  | .get _ => True
  | .set key value ex => key = redisKey → Blocks value ∧ 0 < ex
  | .delete key => key ≠ redisKey

/-- A call that neither saves a response under the key nor clears it. -/
def LeavesRecord (redisKey : String) : IdempotencyRequest → Prop
  | .startProcessing _ _ _ => True
  | r => r.redisKey ≠ redisKey

theorem start_gated (m : Manager) (redisKey : String) (r : IdempotencyRequest) :
    Gated (registering redisKey r) (fun _ _ => True) (Passes redisKey r) (program m r) := by
  cases r with
  | startProcessing tenantId idempotencyKey fingerprint =>
    by_cases hkey : formatKey tenantId idempotencyKey = redisKey
    · rw [program_start]
      intro found _
      beta_reduce
      cases hfound : checkExisting fingerprint found with
      | error e => exact ⟨fun h => absurd h (by simp [registering, register, letThrough]), trivial⟩
      | ok cached =>
        cases cached with
        | some record =>
          exact ⟨fun h => absurd h
            (by simp [registering, register, letThrough, IdempotencyResult.proceeds]), trivial⟩
        | none =>
          refine ⟨fun _ => .inr ⟨hkey, hkey, hfound⟩, fun _ _ => ⟨fun _ => .inl ?_, trivial⟩⟩
          simp [registering, starts, hkey, letThrough]
    · exact gated_of_never (fun p => by simp [registering, starts, hkey]) _
  | saveResponse tenantId idempotencyKey fingerprint statusCode body =>
    exact gated_of_never (fun _ => rfl) _
  | clearKey tenantId idempotencyKey => exact gated_of_never (fun _ => rfl) _

/-- A call that does not store a record is not let through. -/
theorem start_ends (m : Manager) (redisKey : String) (r : IdempotencyRequest) :
    Ends (fun q _ => ¬ SetsLock redisKey q)
      (fun w => (starts redisKey r && w.proceeds) = false) (fun _ => True) (program m r) := by
  cases r with
  | startProcessing tenantId idempotencyKey fingerprint =>
    rw [program_start]
    intro found _
    beta_reduce
    by_cases hkey : formatKey tenantId idempotencyKey = redisKey
    · unfold register
      split
      · trivial
      · exact Bool.and_false _
      · intro _ hset
        exact absurd ⟨hkey, (Recorded.blocks (.inl ⟨fingerprint, rfl⟩)), m.ttl_pos⟩ hset
    · exact ends_of_forall (fun w => by simp [starts, hkey]) (fun _ => trivial) _
  | saveResponse tenantId idempotencyKey fingerprint statusCode body =>
    exact ends_of_forall (fun _ => rfl) (fun _ => trivial) _
  | clearKey tenantId idempotencyKey => exact ends_of_forall (fun _ => rfl) (fun _ => trivial) _

/-! ## The lock -/

section Lock

variable {T : Type} [Ring T] [LinearOrder T] [IsStrictOrderedRing T]

/-- The store has a record under the key. -/
def Locked (redisKey : String) (redis : Redis T) : Prop :=
  ∃ value, redis.get redisKey = some value ∧ Blocks value

theorem locked_effect {redisKey : String} {redis : Redis T} {q : RedisQuery}
    (hq : KeepsLock redisKey q) (h : Locked redisKey redis) : Locked redisKey (q.effect redis) := by
  obtain ⟨old, hget, hblocks⟩ := h
  cases q with
  | get key => exact ⟨old, hget, hblocks⟩
  | set key value ex =>
    by_cases hkey : key = redisKey
    · subst hkey
      obtain ⟨hvalue, hex⟩ := hq rfl
      exact ⟨value, redis.get_set_self key value hex, hvalue⟩
    · exact ⟨old, (redis.get_set_of_ne value (some ex) (Ne.symm hkey)).trans hget, hblocks⟩
  | delete key => exact ⟨old, (redis.get_del_of_ne (Ne.symm hq)).trans hget, hblocks⟩

/-- Calls for the key are let through, and mark it with a record. -/
def lock (m : Manager) (redisKey : String) :
    MarkCheck (service m id : Service Unit (Redis T) IdempotencyRequest Unit RedisQuery RedisAnswer
      IdempotencyExc IdempotencyResult) where
  past := registering redisKey
  absent := Passes redisKey
  takes r w := starts redisKey r && w.proceeds
  sets := SetsLock redisKey
  marked := Locked redisKey
  admits := LeavesRecord redisKey
  keeps := KeepsLock redisKey
  gated _ r := start_gated m redisKey r
  start _ r := by
    cases r with
    | startProcessing tenantId idempotencyKey fingerprint =>
      show registering redisKey _
          (program m (.startProcessing tenantId idempotencyKey fingerprint)) =
        false
      rw [program_start]
      simp [registering, letThrough]
    | saveResponse tenantId idempotencyKey fingerprint statusCode body => rfl
    | clearKey tenantId idempotencyKey => rfl
  ends _ r := start_ends m redisKey r
  takes_past _ _ h := h
  effect_sets q redis hq := by
    cases q with
    | set key value ex =>
      obtain ⟨rfl, hvalue, hex⟩ := hq
      exact ⟨value, redis.get_set_self key value hex, hvalue⟩
    | _ => exact hq.elim
  asks _ r hr := by
    refine (program_issues m r).imp fun q hq => ?_
    cases q with
    | get key => trivial
    | set key value ex =>
      obtain ⟨-, hvalue, rfl⟩ := hq
      exact fun _ => ⟨(recorded_writes hvalue).blocks, m.ttl_pos⟩
    | delete key =>
      obtain ⟨rfl, hnone⟩ := hq
      cases r with
      | clearKey tenantId idempotencyKey => exact hr
      | _ => cases hnone
  effect_marked q redis hq h := locked_effect hq h

end Lock

/-! ## Endings -/

/-- The lookup finds nothing, or a record. -/
def FindsRecord : (q : RedisQuery) → RedisAnswer q → Prop
  | .get _, found => ∀ value, found = some value → Recorded value
  | _, _ => True

/-- What a call for the key and the fingerprint returns. -/
def Returned (r : IdempotencyRequest) (w : IdempotencyResult) : Prop :=
  ∀ tenantId idempotencyKey fingerprint, r = .startProcessing tenantId idempotencyKey fingerprint →
    w = .started none ∨
      ∃ statusCode body, w = .started (some (completedRecord fingerprint statusCode body))

/-- What it raises. -/
def Conflict (r : IdempotencyRequest) (x : IdempotencyExc) : Prop :=
  ∀ tenantId idempotencyKey fingerprint, r = .startProcessing tenantId idempotencyKey fingerprint →
    ∃ e : CloudScaleException, x = .cloudScale e ∧ e.statusCode = 409

theorem checkExisting_recorded (fingerprint : String) {found : Option RedisValue}
    (h : ∀ value, found = some value → Recorded value) :
    (∃ e : CloudScaleException, checkExisting fingerprint found = .error (.cloudScale e) ∧
      e.statusCode = 409) ∨ checkExisting fingerprint found = .ok none ∨
      ∃ statusCode body,
        checkExisting fingerprint found =
          .ok (some (completedRecord fingerprint statusCode body)) := by
  cases found with
  | none => exact .inr (.inl rfl)
  | some value =>
    obtain ⟨other, rfl⟩ | ⟨other, statusCode, body, rfl⟩ := h value rfl
    · rw [checkExisting_inProgress]
      split
      · exact .inl ⟨concurrentRequest, rfl, rfl⟩
      · exact .inl ⟨keyMismatch, rfl, rfl⟩
    · rw [checkExisting_completed]
      split
      · next heq => exact .inr (.inr ⟨statusCode, body, by rw [heq]⟩)
      · exact .inl ⟨keyMismatch, rfl, rfl⟩

theorem program_ends (m : Manager) (r : IdempotencyRequest) :
    Ends FindsRecord (Returned r) (Conflict r) (program m r) := by
  cases r with
  | startProcessing tenantId idempotencyKey fingerprint =>
    rw [program_start]
    intro found hfound
    beta_reduce
    obtain ⟨e, he, hcode⟩ | hnone | ⟨statusCode, body, hsome⟩ :=
      checkExisting_recorded fingerprint hfound
    · rw [he]
      exact fun _ _ _ _ => ⟨e, rfl, hcode⟩
    · rw [hnone]
      exact fun _ _ _ _ _ _ => .inl rfl
    · rw [hsome]
      intro _ _ _ hr
      cases hr
      exact .inr ⟨statusCode, body, rfl⟩
  | saveResponse tenantId idempotencyKey fingerprint statusCode body =>
    exact ends_of_forall (fun _ _ _ _ hr => by cases hr) (fun _ _ _ _ hr => by cases hr) _
  | clearKey tenantId idempotencyKey =>
    exact ends_of_forall (fun _ _ _ _ hr => by cases hr) (fun _ _ _ _ hr => by cases hr) _

/-! ## Runs -/

section Runs

variable {T : Type} [Ring T] [LinearOrder T]

/-- No response is saved under the key, the key is not cleared, and its record does not expire. -/
def BeforeSave (redisKey : String) (srv : IdempotencyServer T IdempotencyRequest) :
    IdempotencyLabel T IdempotencyRequest → Prop
  | .act (.start r) => LeavesRecord redisKey r
  | .drift t => (srv.world.get redisKey).isSome = true →
      (Keyspace.get { srv.world with now := t } redisKey).isSome = true
  | _ => True

/-- A call for the key looks it up when there is a record, or when no other call that found none is
    in flight. -/
def LookupUnraced (redisKey : String) (srv : IdempotencyServer T IdempotencyRequest) :
    IdempotencyLabel T IdempotencyRequest → Prop
  | .act (.move (.advance i _)) => match srv.active[i]? with
    | some a => match a.prog with
      | .ask (.get _) _ => starts redisKey a.req = true →
          (srv.world.get redisKey).isSome = true ∨ srv.inStage (registering redisKey) = 0
      | _ => True
    | none => True
  | _ => True

/-- The calls for the key that may execute the operation. -/
def proceeded (redisKey : String) (srv : IdempotencyServer T IdempotencyRequest) : ℕ :=
  srv.committed.countP fun rw => starts redisKey rw.1 && rw.2.proceeds

variable [IsStrictOrderedRing T]

theorem unraced_of_lookup {m : Manager} {redisKey : String}
    {srv : IdempotencyServer T IdempotencyRequest} {mv : Move Unit}
    (hstore : StoreOf (fun _ => Recorded) srv.world)
    (h : LookupUnraced redisKey srv (.act (.move mv))) : (lock m redisKey).Unraced srv mv := by
  cases mv with
  | advance i ω =>
    intro a ha q k hp hpasses
    cases q with
    | get key =>
      cases hr : a.req with
      | startProcessing tenantId idempotencyKey fingerprint =>
        rw [hr] at hpasses
        obtain ⟨hkey, rfl, hfound⟩ := hpasses
        have hfound' : checkExisting fingerprint (srv.world.get key) = .ok none := hfound
        have hnone : srv.world.get key = none := by
          cases hget : srv.world.get key with
          | none => rfl
          | some value =>
            rw [hget] at hfound'
            exact absurd hfound' ((storeOf_get hstore hget).blocks fingerprint)
        have hstarts : starts key a.req = true := by simp [hr, starts, hkey]
        simp only [LookupUnraced, ha, hp] at h
        refine ⟨fun ⟨value, hget, _⟩ => absurd (hnone.symm.trans hget) nofun, ?_⟩
        rcases h hstarts with hsome | hstage
        · rw [hnone] at hsome
          exact absurd hsome (by decide)
        · exact hstage
      | _ =>
        rw [hr] at hpasses
        exact hpasses.elim
    | _ =>
      cases hr : a.req with
      | _ =>
        rw [hr] at hpasses
        exact hpasses.elim
  | finish i => trivial
  | crash i => trivial

omit [Ring T] [IsStrictOrderedRing T] in
/-- The record that does not expire still refuses the calls. -/
theorem locked_elapse {redisKey : String} {redis : Redis T} {t : T}
    (hstore : StoreOf (fun _ => Recorded) redis) (h : Locked redisKey redis)
    (hstays : (redis.get redisKey).isSome = true →
      (Keyspace.get { redis with now := t } redisKey).isSome = true) :
    Locked redisKey { redis with now := t } := by
  obtain ⟨value, hget, -⟩ := h
  obtain ⟨value', hget'⟩ := Option.isSome_iff_exists.mp (hstays (by rw [hget]; rfl))
  have hstore' : StoreOf (fun _ => Recorded) { redis with now := t } := hstore
  exact ⟨value', hget', (storeOf_get hstore' hget').blocks⟩

/-- As long as no response is saved under the key and it is not cleared: in every run in which no
    lookup of the key is raced, at most one call for it is let through, and every other one that
    ends (unless its process dies) raises 409 or returns the completed record. -/
theorem lock_exclusive (m : Manager) {tenantId : Option String} {idempotencyKey : String}
    {redis : Redis T} (hredis : StoreOf (fun _ => Recorded) redis)
    {ls : List (IdempotencyLabel T IdempotencyRequest)}
    {srv : IdempotencyServer T IdempotencyRequest}
    (h : Reaches ((service m id).stepIn Keyspace.elapse)
      (fun s l => BeforeSave (formatKey tenantId idempotencyKey) s l ∧
        LookupUnraced (formatKey tenantId idempotencyKey) s l) (Server.init () redis) ls srv) :
    proceeded (formatKey tenantId idempotencyKey) srv ≤ 1 ∧
      ∀ e ∈ srv.log, ∀ fingerprint, e.req = .startProcessing tenantId idempotencyKey fingerprint →
        e.verdict = .committed (.started none) ∨
        (∃ statusCode body,
          e.verdict = .committed (.started (some (completedRecord fingerprint statusCode body)))) ∨
        (∃ x : CloudScaleException, e.verdict = .raised (.cloudScale x) ∧ x.statusCode = 409) ∨
        e.verdict = .crashed := by
  have hrun := reaches_storeOf h hredis fun _ _ _ _ hvalue => recorded_writes hvalue
  refine ⟨?_, fun e he fingerprint hreq => ?_⟩
  · refine (lock m (formatKey tenantId idempotencyKey)).taken_le_one hrun ?_ ?_ ?_
    · intro s t redis' hok helapse hlocked
      obtain ⟨-, rfl⟩ := Keyspace.elapse_eq_some helapse
      exact locked_elapse hok.2 hlocked hok.1.1
    · exact fun s r hok => hok.1.1
    · exact fun s mv hok => unraced_of_lookup hok.2 hok.1.2
  · have hended := ended_of_answers (fun _ r => program_ends m r) hrun (fun s mv hok => ?_) e he
    · cases hv : e.verdict with
      | committed w =>
        rw [hv] at hended
        obtain rfl | ⟨statusCode, body, rfl⟩ := hended _ _ _ hreq
        · exact .inl rfl
        · exact .inr (.inl ⟨statusCode, body, rfl⟩)
      | rejected w =>
        rw [hv] at hended
        obtain ⟨-, db, hdb⟩ := hended
        cases hdb
      | raised x =>
        rw [hv] at hended
        obtain ⟨y, rfl, hcode⟩ := hended _ _ _ hreq
        exact .inr (.inr (.inl ⟨y, rfl, hcode⟩))
      | crashed => exact .inr (.inr (.inr rfl))
    · cases mv with
      | advance i ω =>
        intro a ha q k hp
        cases q with
        | get key => exact fun value hget => storeOf_get hok.2 hget
        | _ => trivial
      | finish i => trivial
      | crash i => trivial

end Runs

/-! ## Two calls -/

instance (redisKey : String) : DecidablePred (LeavesRecord redisKey)
  | .startProcessing _ _ _ => isTrue trivial
  | .saveResponse tenantId idempotencyKey _ _ _ =>
    inferInstanceAs (Decidable (formatKey tenantId idempotencyKey ≠ redisKey))
  | .clearKey tenantId idempotencyKey =>
    inferInstanceAs (Decidable (formatKey tenantId idempotencyKey ≠ redisKey))

instance {T : Type} [LinearOrder T] (redisKey : String)
    (srv : IdempotencyServer T IdempotencyRequest) (l : IdempotencyLabel T IdempotencyRequest) :
    Decidable (BeforeSave redisKey srv l) := by
  unfold BeforeSave
  repeat' split
  all_goals infer_instance

instance {T : Type} [LinearOrder T] (redisKey : String)
    (srv : IdempotencyServer T IdempotencyRequest) (l : IdempotencyLabel T IdempotencyRequest) :
    Decidable (LookupUnraced redisKey srv l) := by
  unfold LookupUnraced
  repeat' split
  all_goals infer_instance

/-- The manager as it is constructed by default. -/
def defaultManager : Manager := {}

/-- The operation is requested with one key and one fingerprint. -/
def requested : IdempotencyLabel ℤ IdempotencyRequest :=
  .act (.start (.startProcessing (some "tenant-1") "key-123" "fp"))

def reply {τ : Type} (i : ℕ) : IdempotencyLabel ℤ τ := .act (.move (.advance i ()))

def ends {τ : Type} (i : ℕ) : IdempotencyLabel ℤ τ := .act (.move (.finish i))

/-- The second call looks the key up when the first has registered. -/
def requestedTwice : List (IdempotencyLabel ℤ IdempotencyRequest) :=
  [requested, requested, reply 0, reply 0, .drift 1, reply 1, ends 0, ends 0]

theorem lock_exclusive_requestedTwice : ∃ srv,
    Reaches ((service defaultManager id).stepIn Keyspace.elapse)
      (fun s l => BeforeSave (formatKey (some "tenant-1") "key-123") s l ∧
        LookupUnraced (formatKey (some "tenant-1") "key-123") s l) (Server.init () (.empty 0))
      requestedTwice srv ∧ srv.log.length = 2 ∧
    proceeded (formatKey (some "tenant-1") "key-123") srv ≤ 1 ∧
      ∀ e ∈ srv.log, ∀ fingerprint,
        e.req = .startProcessing (some "tenant-1") "key-123" fingerprint →
        e.verdict = .committed (.started none) ∨
        (∃ statusCode body,
          e.verdict = .committed (.started (some (completedRecord fingerprint statusCode body)))) ∨
        (∃ x : CloudScaleException, e.verdict = .raised (.cloudScale x) ∧ x.statusCode = 409) ∨
        e.verdict = .crashed := by
  obtain ⟨srv, hrun, hlog⟩ : ∃ srv, Reaches ((service defaultManager id).stepIn Keyspace.elapse)
      (fun s l => BeforeSave (formatKey (some "tenant-1") "key-123") s l ∧
        LookupUnraced (formatKey (some "tenant-1") "key-123") s l) (Server.init () (.empty 0))
      requestedTwice srv ∧ srv.log.length = 2 :=
    reaches_where (by decide +kernel) (by decide +kernel)
  exact ⟨srv, hrun, hlog, lock_exclusive defaultManager (storeOf_empty 0) hrun⟩

/-- Both calls look the key up before either registers. -/
def racedRequests : List (IdempotencyLabel ℤ IdempotencyRequest) :=
  [requested, requested, reply 0, reply 1, reply 0, reply 1, ends 0, ends 0]

/-- The lock is not exclusive. -/
theorem lock_raced : ¬ ∀ (m : Manager) (tenantId : Option String) (idempotencyKey : String)
    (redis : Redis ℤ), StoreOf (fun _ => Recorded) redis →
    ∀ (ls : List (IdempotencyLabel ℤ IdempotencyRequest))
      (srv : IdempotencyServer ℤ IdempotencyRequest),
      Reaches ((service m id).stepIn Keyspace.elapse)
        (BeforeSave (formatKey tenantId idempotencyKey)) (Server.init () redis) ls srv →
      proceeded (formatKey tenantId idempotencyKey) srv ≤ 1 := by
  intro hevery
  obtain ⟨srv, hrun, htwo⟩ : ∃ srv, Reaches ((service defaultManager id).stepIn Keyspace.elapse)
      (BeforeSave (formatKey (some "tenant-1") "key-123")) (Server.init () (.empty 0)) racedRequests
      srv ∧ proceeded (formatKey (some "tenant-1") "key-123") srv = 2 :=
    reaches_where (by decide +kernel) (by decide +kernel)
  have hone := hevery defaultManager (some "tenant-1") "key-123" (.empty 0) (storeOf_empty 0) _ srv
    hrun
  omega

end CloudScale.Idempotency
