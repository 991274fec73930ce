/-
  Failed logins and the lockout (`authenticate_user` in `auth/app/service.py`).

  A call checks the lock, reads the user, verifies the password and only then counts the failure.
  Each of these is a step of its own, and so is the password hash. The history of a run lists the
  verifications, and the attempts that were lost: a call died after its verification and before it
  counted. `Unraced` says of a check that finds the account unlocked that the failures counted, the
  calls past their check that have still to count, and the lost attempts are below the threshold.
  `verified_bounded`: along runs of such checks a password is verified at most `LOCKOUT_THRESHOLD`
  times. `raced_logins` are six calls that all check before the first of them counts.
-/
import CloudScale.AuthService.Rotation
import CloudScale.Shared.Counters

namespace CloudScale.AuthService

open CloudScale.Lib CloudScale.Counters
open CloudScale.Idempotency (CloudScaleException)

/-! ## Passwords -/

inductive VerifyError where
  | verifyMismatchError
  | invalidHashError
  | verificationError

/-- `argon2.PasswordHasher` and the `bcrypt` context of passlib (`none`: it raises). `hash n` is the
    hash with the salt that call `n` draws. -/
structure Hasher where
  verify : (hashedPassword plainPassword : String) → Except VerifyError Bool
  legacyVerify : (plainPassword hashedPassword : String) → Option Bool
  checkNeedsRehash : String → Bool
  hash : ℕ → String → String

/-- A legacy bcrypt hash. -/
def isLegacy (hashedPassword : String) : Bool :=
  hashedPassword.startsWith "$2b$" || hashedPassword.startsWith "$2a$"

/-- `verify_password`; `none` is an exception that it lets through. -/
def Hasher.verifyPassword (hasher : Hasher) (plainPassword hashedPassword : String) : Option Bool :=
  if isLegacy hashedPassword then
    some ((hasher.legacyVerify plainPassword hashedPassword).getD false)
  else match hasher.verify hashedPassword plainPassword with
    | .ok matched => some matched
    | .error .verifyMismatchError => some false
    | .error .invalidHashError => some false
    | .error .verificationError => none

def Hasher.passwordNeedsRehash (hasher : Hasher) (hashedPassword : String) : Bool :=
  isLegacy hashedPassword || hasher.checkNeedsRehash hashedPassword

/-! ## Queries -/

inductive LoginQuery where
  | redis (q : CounterQuery)
  | getByEmail (email : String)
  | verifyPassword (plainPassword hashedPassword : String)
  | utcNow

abbrev LoginAnswer (T : Type) : LoginQuery → Type
  | .redis q => CounterAnswer q
  | .getByEmail _ => Option User
  | .verifyPassword _ _ => Option Bool
  | .utcNow => T

inductive LoginExc where
  | unauthorizedException (message : String)
  | verificationError
  | cloudScale (e : CloudScaleException)

abbrev LoginTxn (T R : Type) := Txn LoginQuery (LoginAnswer T) LoginExc R

/-- A program on the counters. -/
def onRedis {T R : Type} (p : CounterTxn R) : LoginTxn T R :=
  p.embed LoginQuery.redis (fun _ x => x) LoginExc.cloudScale

/-! ## The operation -/

structure UserLogin where
  email : String
  password : String

structure LoginRuntime (Tok T : Type) extends Runtime Tok T where
  hasher : Hasher

/-- The response, and the user whose password was hashed again. -/
structure LoginResult (Tok : Type) where
  response : TokenResponse Tok
  rehashed : Option (String × String)

section Operation

variable {Tok T : Type} [Ring T] [LinearOrder T] [FloorRing T] (rt : LoginRuntime Tok T)

/-- The failed branch: count it if Redis is configured, and refuse. -/
def failLogin (payload : UserLogin) : LoginTxn T (LoginResult Tok) :=
  if rt.redis then do
    let _ ← onRedis (recordFailedLogin payload.email)
    .raise (.unauthorizedException "Incorrect email or password")
  else .raise (.unauthorizedException "Incorrect email or password")

/-- The branch of a right password. -/
def succeed (tid : ℕ) (payload : UserLogin) (user : User) : LoginTxn T (LoginResult Tok) := do
  if rt.redis then onRedis (clearFailedLogins payload.email)
  let rehashed := if rt.hasher.passwordNeedsRehash user.passwordHash then
    some (user.id, rt.hasher.hash tid payload.password) else none
  -- a user has no `tenant_id`
  let args : TokenPairArgs :=
    { userId := user.id, role := user.role, secretKey := rt.settings.jwtSecretKey
      algorithm := rt.settings.jwtAlgorithm
      accessExpireMinutes := rt.settings.accessTokenExpireMinutes
      refreshExpireDays := rt.settings.refreshTokenExpireDays, tenantId := some user.id }
  let now : T ← Txn.query LoginQuery.utcNow
  let (access, refresh) := createTokenPair rt.jwt args now (rt.uuid4 tid 0) (rt.uuid4 tid 1)
  return { response := { accessToken := access, refreshToken := refresh }, rehashed }

/-- `authenticate_user`. -/
def authenticateUser (tid : ℕ) (payload : UserLogin) : LoginTxn T (LoginResult Tok) := do
  let locked ← if rt.redis then onRedis (isAccountLocked payload.email) else pure false
  if locked then
    .raise (.unauthorizedException
      "Account temporarily locked due to too many failed attempts. Try again later.")
  else
    let found : Option User ← Txn.query (LoginQuery.getByEmail payload.email)
    match found with
    | none => failLogin rt payload
    | some user =>
      let verified : Option Bool ←
        Txn.query (LoginQuery.verifyPassword payload.password user.passwordHash)
      match verified with
      | none => .raise .verificationError
      | some true => succeed rt tid payload user
      | some false => failLogin rt payload

end Operation

/-! ## The service -/

section Service

variable {Tok T : Type} [Ring T] [LinearOrder T] [FloorRing T] (rt : LoginRuntime Tok T)

def LoginQuery.answer (store : Counters.Redis T) (users : Users) :
    (q : LoginQuery) → LoginAnswer T q
  | .redis q => q.answer store
  | .getByEmail email => users.rows.find? fun user => user.email == email
  | .verifyPassword plainPassword hashedPassword =>
    rt.hasher.verifyPassword plainPassword hashedPassword
  | .utcNow => store.now

def LoginQuery.effect : LoginQuery → Counters.Redis T → Counters.Redis T
  | .redis q, store => q.effect store
  | _, store => store

/-- The commit of a login: a password that was hashed again. -/
def commitLogin (w : LoginResult Tok) (users : Users) : Option Users :=
  match w.rehashed with
  | some (id, passwordHash) =>
    some (users.modify id (fun user => { user with passwordHash }) fun _ => rfl)
  | none => some users

def loginService : Service Users (Counters.Redis T) UserLogin Unit LoginQuery (LoginAnswer T)
    LoginExc (LoginResult Tok) where
  prog := authenticateUser rt
  answer _ store users q := q.answer rt store users
  effect := LoginQuery.effect
  commit := commitLogin

end Service

/-! ## Where a call stands -/

section Programs

variable {Tok T : Type} [Ring T] [LinearOrder T] [FloorRing T] {rt : LoginRuntime Tok T}

/-- The account is locked, by what the check finds. -/
def lockedBy (found : Option ℕ) : Bool := found.any fun count => decide (lockoutThreshold ≤ count)

def refuse : LoginTxn T (LoginResult Tok) :=
  .raise (.unauthorizedException "Incorrect email or password")

variable (rt) in
/-- The rest of a call, once the password is verified. -/
def afterVerify (tid : ℕ) (payload : UserLogin) (user : User) :
    Option Bool → LoginTxn T (LoginResult Tok)
  | none => .raise .verificationError
  | some true => succeed rt tid payload user
  | some false => failLogin rt payload

variable (rt) in
/-- The rest of a call, once the user is read. -/
def afterUser (tid : ℕ) (payload : UserLogin) : Option User → LoginTxn T (LoginResult Tok)
  | none => failLogin rt payload
  | some user => .ask (.verifyPassword payload.password user.passwordHash)
    fun (verified : Option Bool) => afterVerify rt tid payload user verified

variable (rt) in
/-- The rest of a call, once the lock is checked. -/
def afterCheck (tid : ℕ) (payload : UserLogin) (found : Option ℕ) : LoginTxn T (LoginResult Tok) :=
  if lockedBy found then .raise (.unauthorizedException
    "Account temporarily locked due to too many failed attempts. Try again later.")
  else .ask (.getByEmail payload.email) fun (found : Option User) => afterUser rt tid payload found

theorem authenticateUser_eq (hredis : rt.redis = true) (tid : ℕ) (payload : UserLogin) :
    authenticateUser rt tid payload = .ask (.redis (.get (lockoutKey payload.email)))
      fun (found : Option ℕ) => afterCheck rt tid payload found := by
  unfold authenticateUser
  rw [if_pos hredis]
  refine congrArg (Txn.ask _) (funext fun (found : Option ℕ) => ?_)
  have hrest : ∀ found : Option User, (match found with
      | none => failLogin rt payload
      | some user => Txn.ask (.verifyPassword payload.password user.passwordHash)
          fun (verified : Option Bool) => match verified with
            | none => .raise .verificationError
            | some true => succeed rt tid payload user
            | some false => failLogin rt payload) = afterUser rt tid payload found := by
    intro found
    cases found with
    | none => rfl
    | some user =>
      refine congrArg (Txn.ask _) (funext fun (verified : Option Bool) => ?_)
      cases verified with
      | none => rfl
      | some matched => cases matched <;> rfl
  unfold afterCheck
  cases found with
  | none =>
    exact congrArg (Txn.ask _) (funext hrest)
  | some count =>
    show (if decide (lockoutThreshold ≤ count) = true then _ else _) =
      (if decide (lockoutThreshold ≤ count) = true then _ else _)
    split
    · rfl
    · exact congrArg (Txn.ask _) (funext hrest)

omit [Ring T] [LinearOrder T] [FloorRing T] in
theorem failLogin_eq (hredis : rt.redis = true) (payload : UserLogin) :
    failLogin rt payload = .ask (.redis (.incr (lockoutKey payload.email))) fun (count : ℕ) =>
      if count = 1 then
        .ask (.redis (.expire (lockoutKey payload.email) lockoutDurationSeconds)) fun _ => refuse
      else refuse := by
  unfold failLogin
  rw [if_pos hredis]
  refine congrArg (Txn.ask _) (funext fun (count : ℕ) => ?_)
  by_cases hfirst : count = 1
  · subst hfirst
    rfl
  · dsimp only [Txn.embed, Txn.bind]
    rw [if_neg hfirst, if_neg hfirst]
    rfl

theorem succeed_eq (hredis : rt.redis = true) (tid : ℕ) (payload : UserLogin) (user : User) :
    ∃ w : T → LoginResult Tok, succeed rt tid payload user =
      .ask (.redis (.delete (lockoutKey payload.email)))
        fun _ => .ask .utcNow fun (now : T) => .done (w now) := by
  unfold succeed
  rw [if_pos hredis]
  exact ⟨_, rfl⟩

variable (rt) in
/-- What is left of a call. -/
inductive Stands (payload : UserLogin) : LoginTxn T (LoginResult Tok) → Prop
  | check (tid : ℕ) : Stands payload (.ask (.redis (.get (lockoutKey payload.email)))
      fun (found : Option ℕ) => afterCheck rt tid payload found)
  | user (tid : ℕ) : Stands payload (.ask (.getByEmail payload.email)
      fun (found : Option User) => afterUser rt tid payload found)
  | verify (tid : ℕ) (user : User) :
    Stands payload (.ask (.verifyPassword payload.password user.passwordHash)
      fun (verified : Option Bool) => afterVerify rt tid payload user verified)
  | count : Stands payload (.ask (.redis (.incr (lockoutKey payload.email))) fun (count : ℕ) =>
      if count = 1 then
        .ask (.redis (.expire (lockoutKey payload.email) lockoutDurationSeconds)) fun _ => refuse
      else refuse)
  | expire : Stands payload
      (.ask (.redis (.expire (lockoutKey payload.email) lockoutDurationSeconds)) fun _ => refuse)
  | clear (w : T → LoginResult Tok) :
    Stands payload (.ask (.redis (.delete (lockoutKey payload.email)))
      fun _ => .ask .utcNow fun (now : T) => .done (w now))
  | issue (w : T → LoginResult Tok) : Stands payload (.ask .utcNow fun (now : T) => .done (w now))
  | done (w : LoginResult Tok) : Stands payload (.done w)
  | raised (e : LoginExc) : Stands payload (.raise e)

variable {payload : UserLogin}

theorem stands_authenticateUser (hredis : rt.redis = true) (tid : ℕ) :
    Stands rt payload (authenticateUser rt tid payload) := by
  rw [authenticateUser_eq hredis]
  exact .check tid

theorem stands_failLogin (hredis : rt.redis = true) : Stands rt payload (failLogin rt payload) := by
  rw [failLogin_eq hredis]
  exact .count

theorem stands_afterCheck (tid : ℕ) (found : Option ℕ) :
    Stands rt payload (afterCheck rt tid payload found) := by
  unfold afterCheck
  split
  · exact .raised _
  · exact .user tid

theorem stands_afterUser (hredis : rt.redis = true) (tid : ℕ) (found : Option User) :
    Stands rt payload (afterUser rt tid payload found) := by
  cases found with
  | none => exact stands_failLogin hredis
  | some user => exact .verify tid user

theorem stands_afterVerify (hredis : rt.redis = true) (tid : ℕ) (user : User)
    (verified : Option Bool) : Stands rt payload (afterVerify rt tid payload user verified) := by
  cases verified with
  | none => exact .raised _
  | some matched =>
    cases matched with
    | false => exact stands_failLogin hredis
    | true =>
      obtain ⟨w, hw⟩ := succeed_eq hredis tid payload user
      show Stands rt payload (succeed rt tid payload user)
      rw [hw]
      exact .clear w

/-! ## Stages -/

/-- The call has found the account unlocked and has still to verify the password. -/
def unverified {R : Type} : LoginTxn T R → Bool
  | .ask (.getByEmail _) _ => true
  | .ask (.verifyPassword _ _) _ => true
  | _ => false

/-- The call is about to count a failure. -/
def uncounted {R : Type} : LoginTxn T R → Bool
  | .ask (.redis (.incr _)) _ => true
  | _ => false

/-- The call is about to clear the failures. -/
def clearing {R : Type} : LoginTxn T R → Bool
  | .ask (.redis (.delete _)) _ => true
  | _ => false

/-- A call for the email at a stage. -/
def ofEmail (email : String) (stage : LoginTxn T (LoginResult Tok) → Bool) (payload : UserLogin)
    (p : LoginTxn T (LoginResult Tok)) : Bool := decide (payload.email = email) && stage p

/-- The failures counted for the email. -/
def failures (email : String) (store : Counters.Redis T) : ℕ :=
  (store.get (lockoutKey email)).getD 0

end Programs

/-! ## Runs -/

/-- A password was verified for the email, or a failure was not counted since its call died. -/
inductive LoginEvent where
  | verified (email : String)
  | lost (email : String)
deriving DecidableEq

section Runs

variable {Tok T : Type} [Ring T] [LinearOrder T] [FloorRing T]

abbrev LoginServer (Tok T : Type) := Server Users (Counters.Redis T) UserLogin LoginQuery
  (LoginAnswer T) LoginExc (LoginResult Tok)

abbrev LoginLabel (T : Type) := EnvLabel T (Label UserLogin Unit)

abbrev LoginHistory (Tok T : Type) := LoginServer Tok T × List LoginEvent

def happens (srv : LoginServer Tok T) : LoginLabel T → Option LoginEvent
  | .act (.move (.advance i _)) => match srv.active[i]? with
    | some a => match a.prog with
      | .ask (.verifyPassword _ _) _ => some (.verified a.req.email)
      | _ => none
    | none => none
  | .act (.move (.crash i)) => match srv.active[i]? with
    | some a => if uncounted a.prog then some (.lost a.req.email) else none
    | none => none
  | _ => none

/-- The service with the history of its logins. -/
abbrev logins (rt : LoginRuntime Tok T) :=
  recording ((loginService rt).stepIn Keyspace.elapse) happens

/-- Every password for the email is wrong, and the counter of the email does not expire. -/
def WrongPasswords (rt : LoginRuntime Tok T) (email : String) (s : LoginHistory Tok T) :
    LoginLabel T → Prop
  | .drift t => failures email { s.1.world with now := t } = failures email s.1.world
  | .act (.move (.advance i _)) => match s.1.active[i]? with
    | some a => match a.prog with
      | .ask (.verifyPassword plainPassword hashedPassword) _ => a.req.email = email →
          rt.hasher.verifyPassword plainPassword hashedPassword = some false
      | _ => True
    | none => True
  | _ => True

/-- The lock of the email is checked when the account is locked, or when the counted failures, the
    calls that have still to count theirs and the lost ones leave room for another. -/
def Unraced (email : String) (s : LoginHistory Tok T) : LoginLabel T → Prop
  | .act (.move (.advance i _)) => match s.1.active[i]? with
    | some a => match a.prog with
      | .ask (.redis (.get _)) _ => a.req.email = email →
          lockoutThreshold ≤ failures email s.1.world ∨
            failures email s.1.world + s.1.inStage (ofEmail email unverified) +
              s.1.inStage (ofEmail email uncounted) + s.2.count (.lost email) < lockoutThreshold
      | _ => True
    | none => True
  | _ => True

instance (rt : LoginRuntime Tok T) (email : String) (s : LoginHistory Tok T) (l : LoginLabel T) :
    Decidable (WrongPasswords rt email s l) := by
  unfold WrongPasswords
  repeat' split
  all_goals infer_instance

instance (email : String) (s : LoginHistory Tok T) (l : LoginLabel T) :
    Decidable (Unraced email s l) := by
  unfold Unraced
  repeat' split
  all_goals infer_instance

/-- What was verified is counted, about to be counted, or lost, and with what is about to be
    verified within the threshold. -/
structure Bounded (rt : LoginRuntime Tok T) (email : String) (s : LoginHistory Tok T) : Prop where
  stands : ∀ a ∈ s.1.active, Stands rt a.req a.prog
  kept : ∀ a ∈ s.1.active, ofEmail email clearing a.req a.prog = false
  counted : s.2.count (.verified email) ≤ failures email s.1.world +
    s.1.inStage (ofEmail email uncounted) + s.2.count (.lost email)
  bounded : s.2.count (.verified email) + s.1.inStage (ofEmail email unverified) ≤ lockoutThreshold

variable {rt : LoginRuntime Tok T} {email : String} {s : LoginHistory Tok T} {i : ℕ}
  {a : Active Users UserLogin LoginQuery (LoginAnswer T) LoginExc (LoginResult Tok)}

theorem bounded_init (rt : LoginRuntime Tok T) (email : String) (users : Users)
    (store : Counters.Redis T) : Bounded rt email (Server.init users store, []) where
  stands _ ha := absurd ha List.not_mem_nil
  kept _ ha := absurd ha List.not_mem_nil
  counted := Nat.zero_le _
  bounded := Nat.zero_le _

theorem bounded_start (hredis : rt.redis = true) (h : Bounded rt email s) (payload : UserLogin) :
    Bounded rt email ((loginService rt).start s.1 payload, s.2) := by
  have hprog : (loginService rt).prog s.1.next payload = _ :=
    authenticateUser_eq hredis s.1.next payload
  refine ⟨fun a ha => ?_, fun a ha => ?_, ?_, ?_⟩
  · rcases Service.mem_start ha with ha | rfl
    · exact h.stands a ha
    · exact stands_authenticateUser hredis s.1.next
  · rcases Service.mem_start ha with ha | rfl
    · exact h.kept a ha
    · rw [hprog]
      exact Bool.and_false _
  · have hcounted := h.counted
    have hstart : ((loginService rt).start s.1 payload).inStage (ofEmail email uncounted) = _ :=
      inStage_start _ payload
    show s.2.count _ ≤ failures email s.1.world +
      ((loginService rt).start s.1 payload).inStage (ofEmail email uncounted) + s.2.count _
    omega
  · have hbounded := h.bounded
    have hstart : ((loginService rt).start s.1 payload).inStage (ofEmail email unverified) = _ :=
      inStage_start _ payload
    have hnone : ofEmail email unverified payload ((loginService rt).prog s.1.next payload) =
        false := by
      rw [hprog]
      exact Bool.and_false _
    rw [hnone, Bool.toNat_false] at hstart
    show s.2.count _ +
      ((loginService rt).start s.1 payload).inStage (ofEmail email unverified) ≤ _
    omega

/-- A call that is answered. -/
theorem bounded_advance (h : Bounded rt email s) (ha : s.1.active[i]? = some a)
    {p : LoginTxn T (LoginResult Tok)} {store : Counters.Redis T} (events : List LoginEvent)
    (hstands : Stands rt a.req p) (hkept : ofEmail email clearing a.req p = false)
    (hcounted : events.count (.verified email) + failures email s.1.world +
      (ofEmail email uncounted a.req a.prog).toNat ≤
        failures email store + (ofEmail email uncounted a.req p).toNat)
    (hbounded : events.count (.verified email) + (ofEmail email unverified a.req p).toNat ≤
        (ofEmail email unverified a.req a.prog).toNat ∨
      events.count (.verified email) + (ofEmail email unverified a.req p).toNat +
        s.2.count (.verified email) + s.1.inStage (ofEmail email unverified) ≤ lockoutThreshold) :
    Bounded rt email ({ s.1 with
      world := store, active := s.1.active.set i { a with prog := p } }, events ++ s.2) := by
  refine ⟨fun b hb => ?_, fun b hb => ?_, ?_, ?_⟩
  · rcases List.mem_or_eq_of_mem_set hb with hb | rfl
    · exact h.stands b hb
    · exact hstands
  · rcases List.mem_or_eq_of_mem_set hb with hb | rfl
    · exact h.kept b hb
    · exact hkept
  · have hold := h.counted
    have hstage := inStage_advance (ofEmail email uncounted) ha store p
    rw [List.count_append, List.count_append]
    dsimp only
    omega
  · have hold := h.bounded
    have hstage := inStage_advance (ofEmail email unverified) ha store p
    rw [List.count_append]
    dsimp only
    omega

/-- A call that ends. -/
theorem bounded_close (h : Bounded rt email s) (ha : s.1.active[i]? = some a)
    (v : Verdict LoginExc (LoginResult Tok)) (users : Users) (events : List LoginEvent)
    (hverified : events.count (.verified email) = 0)
    (hlost : (ofEmail email uncounted a.req a.prog).toNat ≤ events.count (.lost email)) :
    Bounded rt email ({ s.1.close i a v with db := users }, events ++ s.2) := by
  refine ⟨fun b hb => h.stands b (List.mem_of_mem_eraseIdx hb),
    fun b hb => h.kept b (List.mem_of_mem_eraseIdx hb), ?_, ?_⟩
  · have hold := h.counted
    have hstage := inStage_close (ofEmail email uncounted) ha v
    rw [List.count_append, List.count_append]
    show _ ≤ failures email s.1.world + (s.1.close i a v).inStage _ + _
    omega
  · have hold := h.bounded
    have hstage := inStage_close (ofEmail email unverified) ha v
    rw [List.count_append]
    show _ + (s.1.close i a v).inStage _ ≤ _
    omega

/-! ## One step -/

omit [Ring T] [FloorRing T] in
theorem failures_incr (email email' : String) (store : Counters.Redis T) :
    failures email (store.incr (lockoutKey email')) =
      failures email store + (decide (email' = email)).toNat := by
  unfold failures
  by_cases h : email' = email
  · subst h
    rw [Keyspace.get_incr_self]
    simp
  · have hne : lockoutKey email ≠ lockoutKey email' := fun heq =>
      h ((String.append_right_inj _).mp heq).symm
    rw [Keyspace.get_incr_of_ne _ hne]
    simp [h]

omit [Ring T] [FloorRing T] in
theorem failures_del (email email' : String) (h : email' ≠ email) (store : Counters.Redis T) :
    failures email (store.del (lockoutKey email')) = failures email store := by
  have hne : lockoutKey email ≠ lockoutKey email' := fun heq =>
    h ((String.append_right_inj _).mp heq).symm
  unfold failures
  rw [Keyspace.get_del_of_ne _ hne]

omit [Ring T] [FloorRing T] in
theorem room_of_unlocked {store : Counters.Redis T}
    (h : ¬ lockedBy (store.get (lockoutKey email)) = true) :
    ¬ lockoutThreshold ≤ failures email store := by
  unfold failures
  cases hget : store.get (lockoutKey email) with
  | none => exact Nat.not_le.mpr (Nat.succ_pos 4)
  | some count =>
    rw [hget] at h
    exact fun hle => h (decide_eq_true hle)

/-- A check that lets a call pass leaves room for its verification. -/
theorem bounded_check (h : Bounded rt email s) (ha : s.1.active[i]? = some a) (tid : ℕ)
    (hp : a.prog = .ask (.redis (.get (lockoutKey a.req.email)))
      fun (found : Option ℕ) => afterCheck rt tid a.req found)
    (hok : a.req.email = email → lockoutThreshold ≤ failures email s.1.world ∨
      failures email s.1.world + s.1.inStage (ofEmail email unverified) +
        s.1.inStage (ofEmail email uncounted) + s.2.count (.lost email) < lockoutThreshold) :
    Bounded rt email ({ s.1 with
      active := s.1.active.set i
        { a with prog := afterCheck rt tid a.req (s.1.world.get (lockoutKey a.req.email)) } },
      s.2) := by
  have hold := h.counted
  refine bounded_advance h ha [] (stands_afterCheck tid _) ?_ ?_ ?_
  · unfold afterCheck
    split <;> exact Bool.and_false _
  · rw [hp]
    simp [ofEmail, uncounted]
  · unfold afterCheck
    split
    · refine Or.inl ?_
      simp [ofEmail, unverified]
    · next hopen =>
      by_cases hemail : a.req.email = email
      · refine Or.inr ?_
        have hroom : ¬ lockoutThreshold ≤ failures email s.1.world := by
          rw [← hemail]
          exact room_of_unlocked hopen
        rcases hok hemail with hlocked | hroom'
        · exact absurd hlocked hroom
        · have hone := Bool.toNat_le (ofEmail email unverified a.req
            (.ask (.getByEmail a.req.email) fun (found : Option User) =>
              afterUser rt tid a.req found))
          simp only [List.count_nil]
          omega
      · refine Or.inl ?_
        simp [ofEmail, hemail]

/-- A verification of a wrong password. -/
theorem bounded_verify (hredis : rt.redis = true) (h : Bounded rt email s)
    (ha : s.1.active[i]? = some a) (tid : ℕ) (user : User)
    (hp : a.prog = .ask (.verifyPassword a.req.password user.passwordHash)
      fun (verified : Option Bool) => afterVerify rt tid a.req user verified)
    (hwrong : a.req.email = email →
      rt.hasher.verifyPassword a.req.password user.passwordHash = some false) :
    Bounded rt email ({ s.1 with
      active := s.1.active.set i { a with
        prog := afterVerify rt tid a.req user
          (rt.hasher.verifyPassword a.req.password user.passwordHash) } },
      [.verified a.req.email] ++ s.2) := by
  have hstands : ∀ verified, Stands rt a.req (afterVerify rt tid a.req user verified) :=
    stands_afterVerify hredis tid user
  by_cases hemail : a.req.email = email
  · -- the call has still to count the failure
    have hcount := failLogin_eq hredis a.req
    rw [hwrong hemail] at *
    refine bounded_advance h ha _ (hstands (some false)) ?_ ?_ (Or.inl ?_)
    · show ofEmail email clearing a.req (failLogin rt a.req) = false
      rw [hcount]
      exact Bool.and_false _
    · show _ ≤ _ + (ofEmail email uncounted a.req (failLogin rt a.req)).toNat
      rw [hcount, hp]
      simp [ofEmail, uncounted, hemail, Nat.add_comm]
    · show _ + (ofEmail email unverified a.req (failLogin rt a.req)).toNat ≤ _
      rw [hcount, hp]
      simp [ofEmail, unverified, hemail]
  · refine bounded_advance h ha _ (hstands _) ?_ ?_ (Or.inl ?_)
    all_goals simp [ofEmail, hemail]

/-- A user that is found, or not; a password is still to be verified at most once. -/
theorem bounded_user (hredis : rt.redis = true) (h : Bounded rt email s)
    (ha : s.1.active[i]? = some a) (tid : ℕ)
    (hp : a.prog = .ask (.getByEmail a.req.email)
      fun (found : Option User) => afterUser rt tid a.req found) :
    Bounded rt email ({ s.1 with
      active := s.1.active.set i { a with
        prog := afterUser rt tid a.req
          (LoginQuery.answer rt s.1.world s.1.db (.getByEmail a.req.email)) } },
      [] ++ s.2) := by
  have hstands : ∀ found, Stands rt a.req (afterUser rt tid a.req found) :=
    stands_afterUser hredis tid
  refine bounded_advance h ha [] (hstands _) ?_ ?_ (Or.inl ?_)
  · cases hfound : LoginQuery.answer rt s.1.world s.1.db (.getByEmail a.req.email) with
    | none =>
      show ofEmail email clearing a.req (failLogin rt a.req) = false
      rw [failLogin_eq hredis]
      exact Bool.and_false _
    | some user => exact Bool.and_false _
  · rw [hp]
    simp [ofEmail, uncounted]
  · rw [hp]
    cases hemail : decide (a.req.email = email) with
    | false => simp [ofEmail, hemail]
    | true =>
      have hone : (ofEmail email unverified a.req (.ask (.getByEmail a.req.email)
          fun (found : Option User) => afterUser rt tid a.req found)).toNat = 1 := by
        simp [ofEmail, unverified, hemail]
      rw [hone, List.count_nil, Nat.zero_add]
      exact Bool.toNat_le _

/-- A command or a question is answered. -/
theorem bounded_answered [IsStrictOrderedRing T] (hredis : rt.redis = true)
    (h : Bounded rt email s) (ha : s.1.active[i]? = some a) {q : LoginQuery}
    {k : LoginAnswer T q → LoginTxn T (LoginResult Tok)} (hp : a.prog = .ask q k) {ω : Unit}
    (hwrong : WrongPasswords rt email s (.act (.move (.advance i ω))))
    (hunraced : Unraced email s (.act (.move (.advance i ω)))) :
    Bounded rt email ({ s.1 with
      world := q.effect s.1.world
      active := s.1.active.set i { a with prog := k (q.answer rt s.1.world s.1.db) } },
      (happens s.1 (.act (.move (.advance i ω)))).toList ++ s.2) := by
  have hmem := List.mem_of_getElem? ha
  have hstands := h.stands a hmem
  have hkept := h.kept a hmem
  simp only [WrongPasswords, Unraced, happens, ha, hp] at hwrong hunraced ⊢
  rw [hp] at hstands hkept
  cases hstands with
  | check tid => exact bounded_check h ha tid hp hunraced
  | user tid => exact bounded_user hredis h ha tid hp
  | verify tid user => exact bounded_verify hredis h ha tid user hp hwrong
  | count =>
    refine bounded_advance h ha [] ?_ ?_ ?_ (Or.inl ?_)
    · beta_reduce
      split
      · exact .expire
      · exact .raised _
    · beta_reduce
      split <;> exact Bool.and_false _
    · rw [hp]
      show _ ≤ failures email (s.1.world.incr (lockoutKey a.req.email)) + _
      rw [failures_incr]
      simp [ofEmail, uncounted]
    · beta_reduce
      split <;> simp [ofEmail, unverified, refuse]
  | expire =>
    refine bounded_advance h ha [] (.raised _) (Bool.and_false _) ?_ (Or.inl ?_)
    · rw [hp]
      show _ ≤ failures email (s.1.world.expire (lockoutKey a.req.email) lockoutDurationSeconds) + _
      unfold failures
      rw [Keyspace.get_expire _ _ _ (by decide)]
      simp [ofEmail, uncounted]
    · simp [ofEmail, unverified, refuse]
  | clear w =>
    have hother : a.req.email ≠ email := by simpa [ofEmail, clearing] using hkept
    refine bounded_advance h ha [] (.issue w) (Bool.and_false _) ?_ (Or.inl ?_)
    · rw [hp]
      show _ ≤ failures email (s.1.world.del (lockoutKey a.req.email)) + _
      rw [failures_del _ _ hother]
      simp [ofEmail, uncounted]
    · simp [ofEmail, unverified]
  | issue w =>
    refine bounded_advance h ha [] (.done _) (Bool.and_false _) ?_ (Or.inl ?_)
    · rw [hp]
      simp [ofEmail, uncounted, LoginQuery.effect]
    · simp [ofEmail, unverified]

theorem bounded_move [IsStrictOrderedRing T] (hredis : rt.redis = true) (h : Bounded rt email s)
    {m : Move Unit} (hwrong : WrongPasswords rt email s (.act (.move m)))
    (hunraced : Unraced email s (.act (.move m))) {srv : LoginServer Tok T}
    (hm : (loginService rt).move s.1 m = some srv) :
    Bounded rt email (srv, (happens s.1 (.act (.move m))).toList ++ s.2) := by
  cases m with
  | advance i ω =>
    obtain ⟨a, ha, hm⟩ := Option.bind_eq_some_iff.mp hm
    unfold Service.advance at hm
    split at hm
    · next q k hp =>
      obtain rfl := Option.some.inj hm
      exact bounded_answered hredis h ha hp hwrong hunraced
    · cases hm
  | finish i =>
    obtain ⟨a, ha, hm⟩ := Option.bind_eq_some_iff.mp hm
    have hnone : ∀ {p}, a.prog = p → uncounted p = false →
        (ofEmail email uncounted a.req a.prog).toNat ≤ 0 := fun hp hu => by
      rw [hp]
      simp [ofEmail, hu]
    unfold Service.finish at hm
    split at hm
    · next w hp =>
      split at hm
      · next users _ =>
        obtain rfl := Option.some.inj hm
        exact bounded_close h ha _ users [] rfl (hnone hp rfl)
      · obtain rfl := Option.some.inj hm
        exact bounded_close h ha _ s.1.db [] rfl (hnone hp rfl)
    · next e hp =>
      obtain rfl := Option.some.inj hm
      exact bounded_close h ha _ s.1.db [] rfl (hnone hp rfl)
    · cases hm
  | crash i =>
    obtain ⟨a, ha, rfl⟩ := Option.map_eq_some_iff.mp hm
    have hevents : happens s.1 (.act (.move (.crash i))) =
        if uncounted a.prog then some (.lost a.req.email) else none := by
      simp only [happens, ha]
    rw [hevents]
    refine bounded_close h ha _ s.1.db _ ?_ ?_
    · split <;> simp
    · cases huncounted : uncounted a.prog with
      | false => simp [ofEmail, huncounted]
      | true =>
        by_cases hemail : a.req.email = email
        · simp [ofEmail, huncounted, hemail]
        · simp [ofEmail, hemail]

/-- Along every run with wrong passwords whose checks are not raced, a password is verified for the
    email at most `LOCKOUT_THRESHOLD` times. -/
theorem verified_bounded [IsStrictOrderedRing T] (hredis : rt.redis = true) {users : Users}
    {store : Counters.Redis T} {ls : List (LoginLabel T)}
    (h : Reaches (logins rt) (fun s l => WrongPasswords rt email s l ∧ Unraced email s l)
      (Server.init users store, []) ls s) : s.2.count (.verified email) ≤ lockoutThreshold := by
  have hbounded : Bounded rt email s := by
    refine h.invariant (Bounded rt email) (bounded_init rt email users store) ?_
    rintro s l ⟨srv, history⟩ hs hok hstep
    obtain ⟨hstep, hevents⟩ := recording_eq_some hstep
    obtain rfl : history = (happens s.1 l).toList ++ s.2 := hevents
    cases l with
    | drift t =>
      obtain ⟨x, hx, rfl⟩ := Option.map_eq_some_iff.mp hstep
      obtain ⟨-, rfl⟩ := Keyspace.elapse_eq_some hx
      have hcounted := hs.counted
      rw [← hok.1] at hcounted
      exact ⟨hs.stands, hs.kept, hcounted, hs.bounded⟩
    | act l =>
      cases l with
      | start payload =>
        obtain rfl := Option.some.inj hstep
        exact bounded_start hredis hs payload
      | move m => exact bounded_move hredis hs hok.1 hok.2 hstep
  exact (Nat.le_add_right _ _).trans hbounded.bounded

end Runs

/-! ## Six wrong passwords -/

/-- A hasher whose hashes show the password. -/
def plainHasher : Hasher where
  verify hashedPassword plainPassword :=
    if hashedPassword = "plain$" ++ plainPassword then .ok true else .error .verifyMismatchError
  legacyVerify _ _ := none
  checkNeedsRehash _ := false
  hash _ plainPassword := "plain$" ++ plainPassword

def plainRuntime : LoginRuntime (Claims × String × String) ℚ :=
  { signedRuntime with hasher := plainHasher }

def shoppers : Users where
  rows := [⟨"user-1", "a@b.c", "plain$secret", none, none, "shopper"⟩]
  nodup := by decide

/-- A login with a wrong password. -/
def guess : LoginLabel ℚ := .act (.start { email := "a@b.c", password := "guess" })

def answered (i : ℕ) : LoginLabel ℚ := .act (.move (.advance i ()))

def refused (i : ℕ) : LoginLabel ℚ := .act (.move (.finish i))

/-- Six guesses in a row; the first sets the time to live, the last finds the account locked. -/
def guessesInTurn : List (LoginLabel ℚ) :=
  [guess] ++ List.replicate 5 (answered 0) ++ [refused 0] ++
    (List.replicate 4 ([guess] ++ List.replicate 4 (answered 0) ++ [refused 0])).flatten ++
    [guess, answered 0, refused 0]

theorem verified_bounded_in_turn : ∃ s, Reaches (logins plainRuntime)
    (fun s l => WrongPasswords plainRuntime "a@b.c" s l ∧ Unraced "a@b.c" s l)
    (Server.init shoppers (.empty 0), []) guessesInTurn s ∧
    s.1.log.length = 6 ∧ s.2.count (.verified "a@b.c") ≤ lockoutThreshold := by
  obtain ⟨s, hrun, hlog⟩ : ∃ s, Reaches (logins plainRuntime)
      (fun s l => WrongPasswords plainRuntime "a@b.c" s l ∧ Unraced "a@b.c" s l)
      (Server.init shoppers (.empty 0), []) guessesInTurn s ∧ s.1.log.length = 6 :=
    reaches_where (by decide +kernel) (by decide +kernel)
  exact ⟨s, hrun, hlog, verified_bounded rfl hrun⟩

/-- Six guesses at once: every call checks the lock, reads the user and verifies the password before
    the first of them counts. -/
def guessesAtOnce : List (LoginLabel ℚ) :=
  List.replicate 6 guess ++ ((List.range 6).map fun i => List.replicate 3 (answered i)).flatten

/-- A password can be verified more than `LOCKOUT_THRESHOLD` times. -/
theorem raced_logins : ¬ ∀ (rt : LoginRuntime (Claims × String × String) ℚ), rt.redis = true →
    ∀ (email : String) (users : Users) (store : Counters.Redis ℚ) (ls : List (LoginLabel ℚ))
      (s : LoginHistory (Claims × String × String) ℚ),
      Reaches (logins rt) (WrongPasswords rt email) (Server.init users store, []) ls s →
      s.2.count (.verified email) ≤ lockoutThreshold := by
  intro hevery
  obtain ⟨s, hrun, hcount⟩ : ∃ s, Reaches (logins plainRuntime)
      (WrongPasswords plainRuntime "a@b.c") (Server.init shoppers (.empty 0), []) guessesAtOnce s ∧
      s.2.count (.verified "a@b.c") = 6 :=
    reaches_where (by decide +kernel) (by decide +kernel)
  have hle := hevery plainRuntime rfl "a@b.c" shoppers (.empty 0) guessesAtOnce s hrun
  rw [hcount] at hle
  exact absurd hle (by decide)

end CloudScale.AuthService
