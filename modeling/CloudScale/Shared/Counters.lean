/-
  The counters in Redis: the rate limiter and the account lockout (`cloudscale_shared/security.py`).

  A call counts with `INCR` and, if it was the first, sets the time to live with a second command.
  Every command is a step of its own; a command that Redis fails raises, which no call survives: it
  is a crash here, and so is the death of the process.

  `counters_expire`: along every run in which no call dies that alone owes a counter its time to
  live (`Covered`), no counter is permanent while no call is in flight. `locked_for_good` is a login
  that dies between the two commands.
-/
import CloudScale.Lib.Environment
import CloudScale.Lib.Keyspace
import CloudScale.Lib.Stages
import CloudScale.Shared.Idempotency

namespace CloudScale.Counters

open CloudScale.Lib
open CloudScale.Idempotency (CloudScaleException)

/-- The counters in Redis, by key. -/
abbrev Redis (T : Type) := Keyspace String ℕ T

/-! ## Commands -/

inductive CounterQuery where
  | incr (key : String)
  | expire (key : String) (seconds : Int)
  | get (key : String)
  | delete (key : String)
deriving DecidableEq

abbrev CounterAnswer : CounterQuery → Type
  | .incr _ => ℕ
  | .expire _ _ => Unit
  | .get _ => Option ℕ
  | .delete _ => Unit

abbrev CounterTxn (R : Type) := Txn CounterQuery CounterAnswer CloudScaleException R

def incr (key : String) : CounterTxn ℕ := Txn.query (CounterQuery.incr key)

def expire (key : String) (seconds : Int) : CounterTxn Unit :=
  Txn.query (CounterQuery.expire key seconds)

def get (key : String) : CounterTxn (Option ℕ) := Txn.query (CounterQuery.get key)

def delete (key : String) : CounterTxn Unit := Txn.query (CounterQuery.delete key)

/-! ## Account lockout -/

def lockoutThreshold : ℕ := 5

def lockoutDurationSeconds : Int := 900

def lockoutKey (email : String) : String := "lockout:" ++ email

def recordFailedLogin (email : String) : CounterTxn ℕ := do
  let count ← incr (lockoutKey email)
  if count = 1 then expire (lockoutKey email) lockoutDurationSeconds
  return count

def isAccountLocked (email : String) : CounterTxn Bool := do
  match ← get (lockoutKey email) with
  | some count => return decide (lockoutThreshold ≤ count)
  | none => return false

def clearFailedLogins (email : String) : CounterTxn Unit := delete (lockoutKey email)

/-! ## Rate limiter -/

structure RateLimiter where
  maxRequests : Int := 60
  windowSeconds : Int := 60

/-- What the limiter reads of a request; `redisClient` is whether the app has one. -/
structure Request where
  redisClient : Bool
  client : Option String
  path : String

def Request.rateLimitKey (request : Request) : String :=
  "ratelimit:" ++ request.client.getD "unknown" ++ ":" ++ request.path

def rateLimitExceeded : CloudScaleException :=
  { message := "Too many requests. Please try again later."
    code := "RATE_LIMIT_EXCEEDED", statusCode := 429 }

/-- `RateLimiter.__call__`. -/
def RateLimiter.call (limiter : RateLimiter) (request : Request) : CounterTxn Unit :=
  -- no Redis configured, no limit
  if request.redisClient then do
    let currentCount ← incr request.rateLimitKey
    if currentCount = 1 then expire request.rateLimitKey limiter.windowSeconds
    if (currentCount : Int) > limiter.maxRequests then .raise rateLimitExceeded else return ()
  else return ()

/-! ## The service -/

inductive CounterRequest where
  | rateLimit (limiter : RateLimiter) (request : Request)
  | recordFailedLogin (email : String)
  | isAccountLocked (email : String)
  | clearFailedLogins (email : String)

inductive CounterResult where
  | none
  | count (n : ℕ)
  | locked (b : Bool)

def program : CounterRequest → CounterTxn CounterResult
  | .rateLimit limiter request => do
    limiter.call request
    return .none
  | .recordFailedLogin email => do return .count (← recordFailedLogin email)
  | .isAccountLocked email => do return .locked (← isAccountLocked email)
  | .clearFailedLogins email => do
    clearFailedLogins email
    return .none

section Service

variable {T : Type} [Ring T] [LinearOrder T]

def CounterQuery.answer (redis : Redis T) : (q : CounterQuery) → CounterAnswer q
  | .incr key => (redis.bumped key).value
  | .expire _ _ => ()
  | .get key => redis.get key
  | .delete _ => ()

def CounterQuery.effect (q : CounterQuery) (redis : Redis T) : Redis T :=
  match q with
  | .incr key => redis.incr key
  | .expire key seconds => redis.expire key seconds
  | .get _ => redis
  | .delete key => redis.del key

def service (T : Type) [Ring T] [LinearOrder T] :
    Service Unit (Redis T) CounterRequest Unit CounterQuery CounterAnswer CloudScaleException
      CounterResult where
  prog _ := program
  answer _ redis _ q := q.answer redis
  effect := CounterQuery.effect
  commit _ db := some db

end Service

/-! ## Owed times to live -/

/-- The call's next command sets the time to live of the counter. -/
def owes {R : Type} (key : String) : CounterTxn R → Bool
  | .ask (.expire key' _) _ => key' == key
  | _ => false

/-- Whoever starts a counter sets its time to live next. -/
def Pays {R : Type} : CounterTxn R → Prop
  | .done _ => True
  | .raise _ => True
  | .ask (.incr key) k => owes key (k (1 : ℕ)) = true ∧ ∀ n : ℕ, Pays (k n)
  | .ask (.expire _ _) k => Pays (k ())
  | .ask (.get _) k => ∀ found : Option ℕ, Pays (k found)
  | .ask (.delete _) k => Pays (k ())

/-- What a counted request gets. -/
def RateLimiter.verdict (limiter : RateLimiter) (count : ℕ) : CounterTxn CounterResult :=
  if (count : Int) > limiter.maxRequests then .raise rateLimitExceeded else .done .none

theorem program_rateLimit {limiter : RateLimiter} {request : Request}
    (h : request.redisClient = true) : program (.rateLimit limiter request) =
      .ask (.incr request.rateLimitKey) fun (count : ℕ) =>
        if count = 1 then
          .ask (.expire request.rateLimitKey limiter.windowSeconds) fun _ => limiter.verdict count
        else limiter.verdict count := by
  show limiter.call request >>= _ = _
  unfold RateLimiter.call
  rw [if_pos h]
  refine congrArg (Txn.ask _) (funext fun (count : ℕ) => ?_)
  unfold RateLimiter.verdict
  by_cases hfirst : count = 1
  · subst hfirst
    refine congrArg (Txn.ask _) (funext fun _ => ?_)
    dsimp only
    split <;> rfl
  · dsimp only [Txn.bind]
    rw [if_neg hfirst, if_neg hfirst]
    split <;> rfl

theorem program_recordFailedLogin (email : String) : program (.recordFailedLogin email) =
    .ask (.incr (lockoutKey email)) fun (count : ℕ) =>
      if count = 1 then
        .ask (.expire (lockoutKey email) lockoutDurationSeconds) fun _ => .done (.count count)
      else .done (.count count) := by
  refine congrArg (Txn.ask _) (funext fun (count : ℕ) => ?_)
  by_cases hfirst : count = 1
  · subst hfirst
    rfl
  · dsimp only [Txn.bind]
    rw [if_neg hfirst, if_neg hfirst]
    rfl

/-- A call that counts, and sets the time to live if it was the first. -/
theorem pays_count {key : String} {seconds : Int} {rest : ℕ → CounterTxn CounterResult}
    (h : ∀ n, Pays (rest n)) : Pays (.ask (.incr key) fun (count : ℕ) =>
      if count = 1 then .ask (.expire key seconds) fun _ => rest count else rest count) := by
  refine ⟨beq_self_eq_true key, fun n => ?_⟩
  beta_reduce
  split
  · exact h n
  · exact h n

theorem pays_program (r : CounterRequest) : Pays (program r) := by
  cases r with
  | rateLimit limiter request =>
    cases h : request.redisClient with
    | true =>
      rw [program_rateLimit h]
      refine pays_count fun n => ?_
      unfold RateLimiter.verdict
      split <;> trivial
    | false =>
      have hskip : program (.rateLimit limiter request) = .done .none := by
        show limiter.call request >>= _ = _
        unfold RateLimiter.call
        rw [h]
        rfl
      rw [hskip]
      trivial
  | recordFailedLogin email =>
    rw [program_recordFailedLogin]
    exact pays_count fun n => trivial
  | isAccountLocked email =>
    intro found
    cases found <;> trivial
  | clearFailedLogins email => trivial

/-! ## Permanent counters -/

section Runs

variable {T : Type} [Ring T] [LinearOrder T]

abbrev CounterServer (T : Type) :=
  Server Unit (Redis T) CounterRequest CounterQuery CounterAnswer CloudScaleException CounterResult

abbrev CounterLabel (T : Type) := EnvLabel T (Label CounterRequest Unit)

/-- The calls in flight that are about to set the time to live of the counter. -/
def owing (key : String) (srv : CounterServer T) : ℕ := srv.inStage fun _ p => owes key p

/-- The call that dies is not the only one that owes a permanent counter its time to live. -/
def Covered (srv : CounterServer T) : CounterLabel T → Prop
  | .act (.move (.crash i)) => ∀ a key, srv.active[i]? = some a → owes key a.prog = true →
      srv.world.Permanent key → 1 < owing key srv
  | _ => True

structure Owed (srv : CounterServer T) : Prop where
  pays : ∀ a ∈ srv.active, Pays a.prog
  owed : ∀ key, srv.world.Permanent key → 0 < owing key srv

variable {redis : Redis T} {key key' : String} {srv srv' : CounterServer T}

/-- The answer to a command is followed by the time to live, if one is owed. -/
theorem permanent_effect {q : CounterQuery} {k : CounterAnswer q → CounterTxn CounterResult}
    (hpays : Pays (.ask q k)) (h : (q.effect redis).Permanent key) :
    (redis.Permanent key ∧ owes key (.ask q k : CounterTxn CounterResult) = false) ∨
      owes key (k (q.answer redis)) = true := by
  cases q with
  | incr key' =>
    by_cases hne : key = key'
    · subst hne
      rcases Keyspace.permanent_incr h with h | h
      · exact Or.inl ⟨h, rfl⟩
      · refine Or.inr ?_
        show owes key (k (redis.bumped key).value) = true
        rw [h]
        exact hpays.1
    · exact Or.inl ⟨Keyspace.permanent_incr_of_ne hne h, rfl⟩
  | expire key' seconds =>
    obtain ⟨hne, hold⟩ := Keyspace.permanent_expire h
    exact Or.inl ⟨hold, beq_eq_false_iff_ne.mpr fun h => hne h.symm⟩
  | get key' => exact Or.inl ⟨h, rfl⟩
  | delete key' => exact Or.inl ⟨Keyspace.permanent_del h, rfl⟩

theorem pays_answer {q : CounterQuery} {k : CounterAnswer q → CounterTxn CounterResult}
    (h : Pays (.ask q k)) (x : CounterAnswer q) : Pays (k x) := by
  cases q with
  | incr key => exact h.2 x
  | expire key seconds => exact h
  | get key => exact h x
  | delete key => exact h

variable {i : ℕ} {a : Active Unit CounterRequest CounterQuery CounterAnswer CloudScaleException
  CounterResult}

theorem owing_advance (key : String) {q : CounterQuery}
    {k : CounterAnswer q → CounterTxn CounterResult} (ha : srv.active[i]? = some a)
    (hp : a.prog = .ask q k) :
    owing key { srv with
        world := q.effect srv.world
        active := srv.active.set i { a with prog := k (q.answer srv.world) } } +
      (owes key (.ask q k : CounterTxn CounterResult)).toNat =
        owing key srv + (owes key (k (q.answer srv.world))).toNat := by
  rw [← hp]
  exact inStage_advance (fun _ p => owes key p) ha _ _

omit [Ring T] [LinearOrder T] in
/-- A call that ends leaves the counters to those that owe them. -/
theorem owed_close (h : Owed srv) (ha : srv.active[i]? = some a)
    (hcovered : ∀ key, owes key a.prog = true → srv.world.Permanent key → 1 < owing key srv)
    (v : Verdict CloudScaleException CounterResult) : Owed (srv.close i a v) := by
  refine ⟨fun b hb => h.pays b (List.mem_of_mem_eraseIdx hb), fun key hkey => ?_⟩
  have hcount : owing key (srv.close i a v) + (owes key a.prog).toNat = owing key srv :=
    inStage_close (fun _ p => owes key p) ha v
  have hpos : 0 < owing key srv := h.owed key hkey
  cases howes : owes key a.prog with
  | true =>
    have hmore := hcovered key howes hkey
    rw [howes, Bool.toNat_true] at hcount
    omega
  | false =>
    rw [howes, Bool.toNat_false] at hcount
    omega

theorem owed_start (r : CounterRequest) (h : Owed srv) : Owed ((service T).start srv r) := by
  refine ⟨fun a ha => ?_, fun key hkey => ?_⟩
  · rcases Service.mem_start ha with ha | rfl
    · exact h.pays a ha
    · exact pays_program r
  · have hcount : owing key ((service T).start srv r) =
        owing key srv + (owes key (program r)).toNat := inStage_start _ r
    have hpos : 0 < owing key srv := h.owed key hkey
    omega

theorem owed_move {m : Move Unit} (h : Owed srv) (hok : Covered srv (.act (.move m)))
    (hm : (service T).move srv m = some srv') : Owed srv' := by
  cases m with
  | advance i ω =>
    obtain ⟨a, ha, hm⟩ := Option.bind_eq_some_iff.mp hm
    have hpays := h.pays a (List.mem_of_getElem? ha)
    unfold Service.advance at hm
    split at hm
    · next q k hp =>
      rw [hp] at hpays
      obtain rfl := Option.some.inj hm
      refine ⟨fun b hb => ?_, fun key hkey => ?_⟩
      · rcases List.mem_or_eq_of_mem_set hb with hb | rfl
        · exact h.pays b hb
        · exact pays_answer hpays _
      · show 0 < owing key { srv with
          world := q.effect srv.world
          active := srv.active.set i { a with prog := k (q.answer srv.world) } }
        rcases permanent_effect hpays hkey with ⟨hold, howes⟩ | howes
        · have hpos : 0 < owing key srv := h.owed key hold
          have hcount := owing_advance key ha hp
          rw [howes, Bool.toNat_false] at hcount
          omega
        · have hmem := List.mem_set (List.getElem?_eq_some_iff.mp ha).1
            { a with prog := k (q.answer srv.world) }
          exact List.countP_pos_iff.mpr ⟨_, hmem, howes⟩
    · cases hm
  | finish i =>
    obtain ⟨a, ha, hm⟩ := Option.bind_eq_some_iff.mp hm
    unfold Service.finish at hm
    split at hm
    · next w hp =>
      obtain rfl := Option.some.inj hm
      exact owed_close h ha (fun key howes => by rw [hp] at howes; cases howes) _
    · next e hp =>
      obtain rfl := Option.some.inj hm
      exact owed_close h ha (fun key howes => by rw [hp] at howes; cases howes) _
    · cases hm
  | crash i =>
    obtain ⟨a, ha, rfl⟩ := Option.map_eq_some_iff.mp hm
    exact owed_close h ha (fun key => hok a key ha) _

/-- Along every run in which no call dies that alone owes a permanent counter its time to live,
    every counter has one whenever no call is in flight. -/
theorem counters_expire {redis : Redis T} {ls : List (CounterLabel T)} {srv : CounterServer T}
    (hinit : ∀ key, ¬ redis.Permanent key)
    (h : Reaches ((service T).stepIn Keyspace.elapse) Covered (Server.init () redis) ls srv)
    (hidle : srv.active = []) : ∀ key, ¬ srv.world.Permanent key := by
  have howed : Owed srv := by
    refine h.inEnvironment Owed ⟨fun _ ha => absurd ha List.not_mem_nil, fun key hkey =>
      absurd hkey (hinit key)⟩ ?_ ?_ ?_
    · intro s t x hs _ helapse
      obtain ⟨-, rfl⟩ := Keyspace.elapse_eq_some helapse
      exact ⟨hs.pays, hs.owed⟩
    · exact fun s r hs _ => owed_start r hs
    · exact fun s m s' hs hok hm => owed_move hs hok hm
  intro key hkey
  have hpos := howed.owed key hkey
  unfold owing Server.inStage at hpos
  rw [hidle] at hpos
  exact absurd hpos (Nat.lt_irrefl 0)

end Runs

/-! ## A failed login -/

/-- Two failed logins of one account; the second call dies once it has counted. -/
def countedTwice : List (CounterLabel ℤ) :=
  [.act (.start (.recordFailedLogin "a@b.c")), .act (.move (.advance 0 ())),
    .act (.move (.advance 0 ())), .act (.move (.finish 0)), .drift 10,
    .act (.start (.recordFailedLogin "a@b.c")), .act (.move (.advance 0 ())),
    .act (.move (.crash 0))]

theorem counters_expire_twice : ∃ srv,
    Reaches ((service ℤ).stepIn Keyspace.elapse) Covered
      (Server.init () (.empty 0)) countedTwice srv ∧
      srv.world.get "lockout:a@b.c" = some 2 ∧ ∀ key, ¬ srv.world.Permanent key := by
  have hinit : ∀ key, ¬ (Keyspace.empty 0 : Redis ℤ).Permanent key := nofun
  have hok : AllSteps ((service ℤ).stepIn Keyspace.elapse) Covered
      (Server.init () (.empty 0)) countedTwice := by
    iterate 7
      refine ⟨trivial, fun t ht => ?_⟩
      obtain rfl := Option.some.inj ht
    -- the second call owes nothing: it has counted 2
    refine ⟨fun a key ha howes => ?_, fun _ _ => trivial⟩
    obtain rfl := Option.some.inj ha
    cases howes
  have hrun := reaches_of_allSteps countedTwice _ _ rfl hok
  exact ⟨_, hrun, rfl, counters_expire hinit hrun rfl⟩

/-- The first failed login of the account; the call dies between `INCR` and `EXPIRE`. -/
def diesCounting : List (CounterLabel ℤ) :=
  [.act (.start (.recordFailedLogin "a@b.c")), .act (.move (.advance 0 ())),
    .act (.move (.crash 0))]

/-- The counter stays for good, and from the fifth failed login on so does the lockout. -/
theorem locked_for_good : ∃ srv,
    Reaches ((service ℤ).stepIn Keyspace.elapse) anyStep
      (Server.init () (.empty 0)) diesCounting srv ∧
      srv.active = [] ∧ srv.world.Permanent "lockout:a@b.c" :=
  ⟨_, reaches_run rfl, rfl, _, rfl, rfl⟩

end CloudScale.Counters
