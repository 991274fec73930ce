/-
  The auth service as a whole (`auth/app/service.py`): registrations, logins and requests on tokens,
  in flight together over one table of users and one Redis.

  An account is followed from the users the service started with. `Derived` is what a row may have
  become: a user of the start keeps its email and role, and accepts no password that it did not
  accept then (a legacy hash is replaced at a login); any other row is a shopper's. Logins overlap,
  so a hash may be replaced by one that was computed from an older row; `Follows` is what the others
  leave a login. `Unforged`: a token presented to the service and signed with its key was issued by
  it.

  `tokens_of_accounts`: along every such run, each token issued says the id and the role of a row.
  `passwords_run`: along every run, an account accepts only what it accepted when it was made.
-/
import CloudScale.AuthService.Login
import CloudScale.AuthService.Revocation
import CloudScale.Lib.Parts

namespace CloudScale.AuthService

open CloudScale.Lib CloudScale.Counters

/-! ## Registration -/

/-- `str.isupper`, `str.islower` and `str.isdigit` on one character. -/
structure CharClasses where
  isupper : Char → Bool
  islower : Char → Bool
  isdigit : Char → Bool

def specialCharacters : List Char := "!@#$%^&*()-_=+[]\x7b\x7d|;:',.<>?/`~".toList

/-- The checks of the policy with their messages, in order. -/
def passwordPolicy (chars : CharClasses) (password : String) : List (Bool × String) :=
  [(decide (password.length < 8), "Password must be at least 8 characters long."),
    (decide (128 < password.length), "Password must not exceed 128 characters."),
    (!password.toList.any chars.isupper, "Password must contain at least one uppercase letter."),
    (!password.toList.any chars.islower, "Password must contain at least one lowercase letter."),
    (!password.toList.any chars.isdigit, "Password must contain at least one digit."),
    (!password.toList.any fun c => decide (c ∈ specialCharacters),
      "Password must contain at least one special character.")]

/-- `validate_password_policy`. -/
def validatePasswordPolicy (chars : CharClasses) (password : String) : List String :=
  ((passwordPolicy chars password).filter (·.1)).map (·.2)

/-- The body of a registration, within the bounds of its schema. -/
structure UserRegister where
  email : String
  password : String
  firstName : Option String
  lastName : Option String
  length_password : 8 ≤ password.length ∧ password.length ≤ 100

/-! ## Queries -/

inductive AccountQuery where
  | token (q : AuthQuery)
  | login (q : LoginQuery)
  | existsByEmail (email : String)

abbrev AccountAnswer (T : Type) : AccountQuery → Type
  | .token q => AuthAnswer T q
  | .login q => LoginAnswer T q
  | .existsByEmail _ => Bool

inductive AccountExc where
  | token (e : AuthExc)
  | login (e : LoginExc)
  | validationException (message : String)
  | conflictException (message : String)

abbrev AccountTxn (T R : Type) := Txn AccountQuery (AccountAnswer T) AccountExc R

/-- A request on tokens, as a part of the service. -/
def onTokens {T R : Type} (p : AuthTxn T R) : AccountTxn T R :=
  p.embed AccountQuery.token (fun _ x => x) AccountExc.token

/-- A login, as a part of the service. -/
def onLogins {T R : Type} (p : LoginTxn T R) : AccountTxn T R :=
  p.embed AccountQuery.login (fun _ x => x) AccountExc.login

/-! ## The service -/

structure AccountRuntime (Tok T : Type) extends LoginRuntime Tok T where
  chars : CharClasses

inductive AccountRequest (Tok : Type) where
  | register (payload : UserRegister)
  | login (payload : UserLogin)
  | token (r : AuthRequest Tok)

/-- What a request returns; of a registration the row that is inserted. -/
inductive AccountResult (Tok : Type) where
  | registered (user : User)
  | loggedIn (w : LoginResult Tok)
  | token (w : AuthResult Tok)

/-- The keys of Redis by what they hold: the lockout counters, and the blacklist. -/
structure AccountStore (T : Type) where
  counters : Counters.Redis T
  tokens : Redis T

section Service

variable {Tok T : Type} [Ring T] [LinearOrder T] [FloorRing T] (rt : AccountRuntime Tok T)

omit [Ring T] [LinearOrder T] [FloorRing T] in
/-- `register_user`. -/
def registerUser (tid : ℕ) (payload : UserRegister) : AccountTxn T User := do
  let violations := validatePasswordPolicy rt.chars payload.password
  if violations ≠ [] then .raise (.validationException ("; ".intercalate violations))
  else
    let found : Bool ← Txn.query (AccountQuery.existsByEmail payload.email)
    if found then .raise (.conflictException "Email already registered")
    else return {
      id := (rt.uuid4 tid 0).text, email := payload.email
      passwordHash := rt.hasher.hash tid payload.password, firstName := payload.firstName
      lastName := payload.lastName, role := "shopper" }

def accountProgram (tid : ℕ) : AccountRequest Tok → AccountTxn T (AccountResult Tok)
  | .register payload => do return .registered (← registerUser rt tid payload)
  | .login payload => do
    return .loggedIn (← onLogins (authenticateUser rt.toLoginRuntime tid payload))
  | .token r => do return .token (← onTokens (program rt.toRuntime tid r))

def AccountQuery.answer (store : AccountStore T) (users : Users) :
    (q : AccountQuery) → AccountAnswer T q
  | .token q => AuthService.answer store.tokens users q
  | .login q => q.answer rt.toLoginRuntime store.counters users
  | .existsByEmail email => users.rows.any fun user => user.email == email

def AccountQuery.effect : AccountQuery → AccountStore T → AccountStore T
  | .token q, store => { store with tokens := q.effect store.tokens }
  | .login q, store => { store with counters := q.effect store.counters }
  | .existsByEmail _, store => store

/-- The columns `id` and `email` are unique. -/
def commitAccount (w : AccountResult Tok) (users : Users) : Option Users :=
  match w with
  | .registered user =>
    if user.email ∈ users.rows.map User.email then none else users.extend [user]
  | .loggedIn w => commitLogin w users
  | .token _ => some users

def accountService : Service Users (AccountStore T) (AccountRequest Tok) Unit AccountQuery
    (AccountAnswer T) AccountExc (AccountResult Tok) where
  prog := accountProgram rt
  answer _ store users q := q.answer rt store users
  effect := AccountQuery.effect
  commit := commitAccount

abbrev AccountServer (Tok T : Type) := Server Users (AccountStore T) (AccountRequest Tok)
  AccountQuery (AccountAnswer T) AccountExc (AccountResult Tok)

abbrev AccountLabel (Tok T : Type) := EnvLabel T (Label (AccountRequest Tok) Unit)

omit [Ring T] [FloorRing T] in
/-- Time passes. -/
def AccountStore.elapse (t : T) (store : AccountStore T) : Option (AccountStore T) := do
  return { counters := ← store.counters.elapse t, tokens := ← store.tokens.elapse t }

/-! ## What is issued -/

/-- The tokens that a response hands out. -/
def AccountResult.tokens : AccountResult Tok → List Tok
  | .loggedIn w => [w.response.accessToken, w.response.refreshToken]
  | .token (.tokens pair) => [pair.accessToken, pair.refreshToken]
  | _ => []

def issuedTokens (srv : AccountServer Tok T) : List Tok :=
  srv.committed.flatMap fun rw => rw.2.tokens

omit [Ring T] [LinearOrder T] [FloorRing T] in
/-- The token can be decoded to `payload` with the key of the service. -/
def Decodes (rt : AccountRuntime Tok T) (token : Tok) (payload : Claims) : Prop :=
  ∃ now, rt.jwt.decode now token rt.settings.jwtSecretKey rt.settings.jwtAlgorithm = .ok payload

/-- The claims are those of an account. -/
def Holds (users : Users) (payload : Claims) : Prop :=
  ∃ user ∈ users.rows, payload.sub = some user.id ∧ payload.role = some user.role ∧
    payload.tenantId = some user.id

omit [Ring T] [LinearOrder T] [FloorRing T] in
/-- A token is presented that can be decoded only if it was issued before. -/
def Unforged (rt : AccountRuntime Tok T) (srv : AccountServer Tok T) : AccountLabel Tok T → Prop
  | .act (.start (.token r)) => ∀ payload, Decodes rt r.token payload → r.token ∈ issuedTokens srv
  | _ => True

end Service

/-! ## Passwords -/

/-- What the code relies on: a hash is not a legacy one, and it verifies the password it was made
    from and no other. -/
structure Hasher.Sound (hasher : Hasher) : Prop where
  isLegacy_hash : ∀ n password, isLegacy (hasher.hash n password) = false
  verify_hash : ∀ n password plainPassword, hasher.verify (hasher.hash n password) plainPassword =
    if plainPassword = password then .ok true else .error .verifyMismatchError

section Passwords

variable {hasher : Hasher} {passwordHash password : String}

def Hasher.Accepts (hasher : Hasher) (passwordHash password : String) : Prop :=
  hasher.verifyPassword password passwordHash = some true

/-- The hash verifies this password and no other. -/
def Hasher.Only (hasher : Hasher) (passwordHash password : String) : Prop :=
  ∀ plainPassword, hasher.verifyPassword plainPassword passwordHash =
    some (decide (plainPassword = password))

theorem Hasher.Sound.only_hash (h : hasher.Sound) (n : ℕ) (password : String) :
    hasher.Only (hasher.hash n password) password := by
  intro plainPassword
  unfold Hasher.verifyPassword
  rw [h.isLegacy_hash, if_neg Bool.false_ne_true, h.verify_hash]
  by_cases heq : plainPassword = password
  · rw [if_pos heq, decide_eq_true heq]
  · rw [if_neg heq, decide_eq_false heq]

theorem Hasher.Only.eq (h : hasher.Only passwordHash password) {password' : String}
    (haccepts : hasher.Accepts passwordHash password') : password' = password := by
  have hsome := (h password').symm.trans haccepts
  exact of_decide_eq_true (Option.some.inj hsome)

theorem Hasher.Only.accepts (h : hasher.Only passwordHash password) :
    hasher.Accepts passwordHash password :=
  (h password).trans (by rw [decide_eq_true rfl])

end Passwords

/-! ## Accounts over time -/

section Accounts

variable {Tok T : Type} [Ring T] [LinearOrder T] [FloorRing T] (rt : AccountRuntime Tok T)
  (old : Users)

omit [Ring T] [LinearOrder T] [FloorRing T] in
/-- What a row has become since the service started with the users `old`. -/
structure Derived (user : User) : Prop where
  ofOld : ∀ o, old.get user.id = some o → user.email = o.email ∧ user.role = o.role ∧
    (rt.hasher.Sound → ∀ password, rt.hasher.Accepts user.passwordHash password →
      rt.hasher.Accepts o.passwordHash password)
  ofNew : old.get user.id = none → user.role = "shopper" ∧
    (rt.hasher.Sound → ∃ password, rt.hasher.Only user.passwordHash password)

omit [Ring T] [LinearOrder T] [FloorRing T] in
structure Accounts (s : AccountStore T × Users) : Prop where
  derived : ∀ user ∈ s.2.rows, Derived rt old user
  kept : ∀ o ∈ old.rows, ∃ user ∈ s.2.rows, user.id = o.id

omit [Ring T] [LinearOrder T] [FloorRing T] in
/-- The row of an account later on. -/
structure Remains (user user' : User) : Prop where
  id : user'.id = user.id
  email : user'.email = user.email
  role : user'.role = user.role
  only : rt.hasher.Sound → old.get user.id = none →
    ∀ password, rt.hasher.Only user.passwordHash password →
      rt.hasher.Only user'.passwordHash password

omit [Ring T] [LinearOrder T] [FloorRing T] in
def Onward (s t : AccountStore T × Users) : Prop :=
  ∀ user ∈ s.2.rows, ∃ user' ∈ t.2.rows, Remains rt old user user'

variable {rt old}

omit [Ring T] [LinearOrder T] [FloorRing T]

theorem Remains.refl (user : User) : Remains rt old user user := ⟨rfl, rfl, rfl, fun _ _ _ h => h⟩

theorem Remains.trans {u v w : User} (h : Remains rt old u v) (h' : Remains rt old v w) :
    Remains rt old u w where
  id := h'.id.trans h.id
  email := h'.email.trans h.email
  role := h'.role.trans h.role
  only := fun hsound hnew password honly =>
    h'.only hsound (h.id ▸ hnew) password (h.only hsound hnew password honly)

theorem onward_refl (s : AccountStore T × Users) : Onward rt old s s :=
  fun user hmem => ⟨user, hmem, .refl user⟩

theorem onward_trans (s t u : AccountStore T × Users) (hst : Onward rt old s t)
    (htu : Onward rt old t u) : Onward rt old s u := by
  intro user hmem
  obtain ⟨user', hmem', h⟩ := hst user hmem
  obtain ⟨user'', hmem'', h'⟩ := htu user' hmem'
  exact ⟨user'', hmem'', h.trans h'⟩

theorem accounts_init (store : AccountStore T) (users : Users) :
    Accounts rt users (store, users) where
  derived user hmem :=
    { ofOld := fun o ho => by
        obtain rfl := Option.some.inj ((Table.get_of_mem hmem).symm.trans ho)
        exact ⟨rfl, rfl, fun _ _ h => h⟩
      ofNew := fun hnone => by
        rw [Table.get_of_mem hmem] at hnone
        cases hnone }
  kept o ho := ⟨o, ho, rfl⟩

/-! ### What a login has proven -/

/-- The password of a login is one that the account accepted when it was made. -/
def Proven (rt : AccountRuntime Tok T) (old : Users) (password : String) (user : User)
    (s : AccountStore T × Users) : Prop :=
  ∃ row ∈ s.2.rows, row.id = user.id ∧ row.role = user.role ∧ (rt.hasher.Sound →
    (∀ o, old.get user.id = some o → rt.hasher.Accepts o.passwordHash password) ∧
      (old.get user.id = none → rt.hasher.Only row.passwordHash password))

theorem Proven.onward {password : String} {user : User} {s t : AccountStore T × Users}
    (h : Proven rt old password user s) (hst : Onward rt old s t) :
    Proven rt old password user t := by
  obtain ⟨row, hmem, hid, hrole, hpassword⟩ := h
  obtain ⟨row', hmem', hrow⟩ := hst row hmem
  refine ⟨row', hmem', hrow.id.trans hid, hrow.role.trans hrole, fun hsound => ?_⟩
  obtain ⟨hold, hnew⟩ := hpassword hsound
  exact ⟨hold, fun hnone => hrow.only hsound (hid ▸ hnone) password (hnew hnone)⟩

/-- A password that the row verifies. -/
theorem Accounts.proven {s : AccountStore T × Users} (h : Accounts rt old s) {user : User}
    (hmem : user ∈ s.2.rows) {password : String}
    (haccepts : rt.hasher.Accepts user.passwordHash password) : Proven rt old password user s := by
  refine ⟨user, hmem, rfl, rfl, fun hsound => ⟨fun o ho => ?_, fun hnone => ?_⟩⟩
  · exact ((h.derived user hmem).ofOld o ho).2.2 hsound password haccepts
  · obtain ⟨password', honly⟩ := ((h.derived user hmem).ofNew hnone).2 hsound
    exact (honly.eq haccepts) ▸ honly

/-! ### Commits -/

/-- The row that replaces one whose password was hashed again. -/
theorem remains_rehashed {s : AccountStore T × Users} {password : String} {user row : User}
    (h : Proven rt old password user s) (hmem : row ∈ s.2.rows) (hid : row.id = user.id) (n : ℕ) :
    Remains rt old row { row with passwordHash := rt.hasher.hash n password } where
  id := rfl
  email := rfl
  role := rfl
  only hsound hnone password' honly := by
    obtain ⟨row', hmem', hid', -, hpassword⟩ := h
    obtain rfl : row' = row := Table.row_eq_of_key hmem' hmem (hid'.trans hid.symm)
    have hthis := (hpassword hsound).2 (hid ▸ hnone)
    obtain rfl : password = password' := honly.eq hthis.accepts
    exact hsound.only_hash n password

theorem derived_rehashed {s : AccountStore T × Users} {password : String} {user row : User}
    (h : Proven rt old password user s) (hrow : Derived rt old row)
    (hid : row.id = user.id) (n : ℕ) :
    Derived rt old { row with passwordHash := rt.hasher.hash n password } where
  ofOld o ho := by
    obtain ⟨hemail, hrole, -⟩ := hrow.ofOld o ho
    obtain ⟨_, -, -, -, hpassword⟩ := h
    refine ⟨hemail, hrole, fun hsound password' haccepts => ?_⟩
    obtain rfl := (hsound.only_hash n password).eq haccepts
    exact (hpassword hsound).1 o (hid ▸ ho)
  ofNew hnone := ⟨(hrow.ofNew hnone).1, fun hsound => ⟨password, hsound.only_hash n password⟩⟩

variable {s : AccountStore T × Users} {users : Users}

theorem commit_login {w : LoginResult Tok} {user : User} {password : String}
    (h : Accounts rt old s) (hproven : Proven rt old password user s)
    (hrehashed : ∀ id passwordHash, w.rehashed = some (id, passwordHash) →
      id = user.id ∧ ∃ n, passwordHash = rt.hasher.hash n password)
    (hcommit : commitLogin w s.2 = some users) :
    Accounts rt old (s.1, users) ∧ Onward rt old s (s.1, users) := by
  unfold commitLogin at hcommit
  split at hcommit
  · next id passwordHash hw =>
    obtain ⟨rfl, n, rfl⟩ := hrehashed id passwordHash hw
    obtain rfl := Option.some.inj hcommit
    refine ⟨⟨fun row' hmem' => ?_, fun o ho => ?_⟩, fun row hmem => ?_⟩
    · obtain ⟨row, hmem, rfl⟩ := List.mem_map.mp hmem'
      dsimp only
      split
      · next hid => exact derived_rehashed hproven (h.derived row hmem) hid n
      · exact h.derived row hmem
    · obtain ⟨row, hmem, hid⟩ := h.kept o ho
      refine ⟨_, List.mem_map_of_mem hmem, ?_⟩
      dsimp only
      split
      · exact hid
      · exact hid
    · refine ⟨_, List.mem_map_of_mem hmem, ?_⟩
      dsimp only
      split
      · next hid => exact remains_rehashed hproven hmem hid n
      · exact .refl row
  · obtain rfl := Option.some.inj hcommit
    exact ⟨h, onward_refl s⟩

/-- A registered row is a shopper's, and verifies the password it was registered with. -/
structure Registered (rt : AccountRuntime Tok T) (payload : UserRegister) (user : User) : Prop where
  policy : validatePasswordPolicy rt.chars payload.password = []
  email : user.email = payload.email
  role : user.role = "shopper"
  passwordHash : ∃ n, user.passwordHash = rt.hasher.hash n payload.password

theorem Registered.only {payload : UserRegister} {user : User} (h : Registered rt payload user)
    (hsound : rt.hasher.Sound) : rt.hasher.Only user.passwordHash payload.password := by
  obtain ⟨n, hhash⟩ := h.passwordHash
  exact hhash ▸ hsound.only_hash n payload.password

theorem commit_registered {payload : UserRegister} {user : User} (h : Accounts rt old s)
    (hregistered : Registered rt payload user)
    (hcommit : commitAccount (.registered user : AccountResult Tok) s.2 = some users) :
    old.get user.id = none ∧ user ∈ users.rows ∧ Accounts rt old (s.1, users) ∧
      Onward rt old s (s.1, users) := by
  obtain ⟨-, hextend⟩ := Option.ite_none_left_eq_some.mp hcommit
  have hrows := Table.rows_extend hextend
  have hnew : old.get user.id = none := by
    refine Table.get_eq_none_iff.mpr fun hmem => ?_
    obtain ⟨o, ho, hid⟩ := List.mem_map.mp hmem
    obtain ⟨row, hrow, hrowid⟩ := h.kept o ho
    exact Table.key_not_mem_of_extend hextend List.mem_cons_self
      (List.mem_map.mpr ⟨row, hrow, hrowid.trans hid⟩)
  have hderived : Derived rt old user :=
    { ofOld := fun o ho => by
        rw [hnew] at ho
        cases ho
      ofNew := fun _ => ⟨hregistered.role, fun hsound => ⟨_, hregistered.only hsound⟩⟩ }
  have hold : ∀ row ∈ s.2.rows, row ∈ users.rows := fun row hmem => by
    rw [hrows]
    exact List.mem_append_left _ hmem
  refine ⟨hnew, hrows ▸ List.mem_append_right _ List.mem_cons_self, ⟨?_, fun o ho => ?_⟩,
    fun row hmem => ⟨row, hold row hmem, .refl row⟩⟩
  · exact Table.forall_rows_extend hextend h.derived fun row hmem =>
      List.mem_singleton.mp hmem ▸ hderived
  · obtain ⟨row, hmem, hid⟩ := h.kept o ho
    exact ⟨row, hold row hmem, hid⟩

end Accounts

/-! ## Tokens -/

section Tokens

variable {Tok T : Type} [Ring T] [LinearOrder T] [FloorRing T] {rt : AccountRuntime Tok T}
  {old : Users}

/-- The token was made from the claims of an account. -/
def Backed (rt : AccountRuntime Tok T) (users : Users) (token : Tok) : Prop :=
  ∃ payload, Holds users payload ∧
    token = rt.jwt.encode payload rt.settings.jwtSecretKey rt.settings.jwtAlgorithm

/-- The pair was made for this user, role and tenant. -/
def PairFor (rt : AccountRuntime Tok T) (userId role tenantId : String)
    (pair : TokenResponse Tok) : Prop :=
  ∃ args : TokenPairArgs, args.userId = userId ∧ args.role = role ∧
    args.tenantId = some tenantId ∧ args.secretKey = rt.settings.jwtSecretKey ∧
    args.algorithm = rt.settings.jwtAlgorithm ∧ ∃ (now : T) (jtiAccess jtiRefresh : Uuid),
      createTokenPair rt.jwt args now jtiAccess jtiRefresh = (pair.accessToken, pair.refreshToken)

omit [Ring T] [LinearOrder T] [FloorRing T] in
theorem Holds.onward {s t : AccountStore T × Users} {payload : Claims} (h : Holds s.2 payload)
    (hst : Onward rt old s t) : Holds t.2 payload := by
  obtain ⟨user, hmem, hsub, hrole, htenant⟩ := h
  obtain ⟨user', hmem', huser⟩ := hst user hmem
  exact ⟨user', hmem', huser.id ▸ hsub, huser.role ▸ hrole, huser.id ▸ htenant⟩

omit [Ring T] [LinearOrder T] [FloorRing T] in
theorem Backed.onward {s t : AccountStore T × Users} {token : Tok} (h : Backed rt s.2 token)
    (hst : Onward rt old s t) : Backed rt t.2 token := by
  obtain ⟨payload, hholds, htoken⟩ := h
  exact ⟨payload, hholds.onward hst, htoken⟩

/-- A pair for an account is backed by it: an id that is empty stands for itself as a tenant. -/
theorem PairFor.backed {users : Users} {user : User} (hmem : user ∈ users.rows)
    {pair : TokenResponse Tok} (h : PairFor rt user.id user.role user.id pair) :
    Backed rt users pair.accessToken ∧ Backed rt users pair.refreshToken := by
  obtain ⟨args, hid, hrole, htenant, hkey, halgorithm, now, jtiAccess, jtiRefresh, hpair⟩ := h
  have heffective : args.effectiveTenant = user.id := by
    unfold TokenPairArgs.effectiveTenant
    rw [htenant]
    dsimp only
    split
    · exact hid
    · rfl
  have hholds : ∀ lifetime (jti : Uuid) type,
      Holds users (args.claims now lifetime jti type) := fun lifetime jti type =>
    ⟨user, hmem, congrArg some hid, congrArg some hrole, congrArg some heffective⟩
  obtain ⟨haccess, hrefresh⟩ := Prod.mk.inj hpair
  rw [hkey, halgorithm] at haccess hrefresh
  exact ⟨⟨args.accessClaims now jtiAccess, hholds _ _ _, haccess.symm⟩,
    ⟨args.refreshClaims now jtiRefresh, hholds _ _ _, hrefresh.symm⟩⟩

/-! ### What a refresh returns -/

theorem ends_rotate (tid : ℕ) (payload : Claims) :
    Ends (fun _ _ => True) (fun w => ∃ pair, w = .tokens pair ∧
      PairFor rt (payload.sub.getD "") (payload.role.getD "shopper")
        (payload.tenantId.getD (payload.sub.getD "")) pair) (fun _ => True)
      (rotateUnlessRevoked rt.toRuntime tid payload) := by
  have hissue : Ends (fun _ _ => True) (fun w => ∃ pair, w = .tokens pair ∧
      PairFor rt (payload.sub.getD "") (payload.role.getD "shopper")
        (payload.tenantId.getD (payload.sub.getD "")) pair) (fun _ => True)
      (issue rt.toRuntime tid payload >>= fun pair =>
        (return .tokens pair : AuthTxn T (AuthResult Tok))) :=
    fun now _ => ⟨_, rfl, _, rfl, rfl, rfl, rfl, rfl, now, _, _, rfl⟩
  unfold rotateUnlessRevoked
  split
  · intro found _
    cases found with
    | some value => trivial
    | none => exact fun now _ _ _ => hissue
  · exact hissue

/-- Nothing but a refresh hands out tokens. -/
theorem ends_tokenless {r : AuthRequest Tok} (hr : ∀ token, r ≠ .refreshTokens token) (tid : ℕ) :
    Ends (fun _ _ => True) (fun w => (AccountResult.token w).tokens = []) (fun _ => True)
      (program rt.toRuntime tid r) := by
  cases r with
  | refreshTokens token => exact absurd rfl (hr token)
  | logout token => exact (ends_true _).bind fun _ _ => rfl
  | getCurrentUserFromToken token => exact (ends_true _).bind fun _ _ => rfl
  | decodeAndVerifyToken token secretKey redisClient algorithm expectedType =>
    exact (ends_true _).bind fun _ _ => rfl

/-- What the token of a request can be decoded to are claims of an account. -/
def Genuine (rt : AccountRuntime Tok T) (users : Users) (token : Tok) : Prop :=
  ∀ payload, Decodes rt token payload → Holds users payload

/-- The tokens of a result are backed, if the claims that come in are genuine. -/
def TokensBacked (rt : AccountRuntime Tok T) (honest : Prop) (w : AccountResult Tok)
    (s : AccountStore T × Users) : Prop :=
  honest → ∀ token ∈ w.tokens, Backed rt s.2 token

theorem behaves_refresh {honest : Prop} {good : AccountStore T × Users → AuthQuery → Unit → Prop}
    (tid : ℕ) (token : Tok) {s : AccountStore T × Users}
    (hgood : ∀ t q ω, good t q ω → honest → Genuine rt s.2 token) :
    Behaves (fun _ s q => AuthService.answer s.1.tokens s.2 q)
      (fun q s => ({ s.1 with tokens := q.effect s.1.tokens }, s.2))
      (Within (Accounts rt old) (Onward rt old)) good (fun _ _ => True)
      (fun t w => TokensBacked rt honest (.token w) t)
      (program rt.toRuntime tid (.refreshTokens token)) s := by
  rw [program_refresh]
  intro t hst
  refine ⟨trivial, fun ω hω => ?_⟩
  cases hdecode : decodeToken rt.jwt t.1.tokens.now token rt.settings.jwtSecretKey
    rt.settings.jwtAlgorithm "refresh" with
  | error e =>
    show Behaves _ _ _ _ _ _ (onPayload (decodeToken rt.jwt t.1.tokens.now token _ _ _) _) _
    rw [hdecode]
    trivial
  | ok payload =>
    show Behaves _ _ _ _ _ _ (onPayload (decodeToken rt.jwt t.1.tokens.now token _ _ _) _) _
    rw [hdecode]
    have hholds : honest → Holds t.2 payload := fun hhonest =>
      (hgood t _ ω hω hhonest payload ⟨_, (decodeToken_eq_ok hdecode).1⟩).onward hst.1
    refine Behaves.imp (Ends.behaves (F := fun u => honest → Holds u.2 payload)
      (ends_rotate tid payload) ?_ ?_ hholds) ?_
    · exact fun u v hu huv hhonest => (hu hhonest).onward huv.1
    · exact fun q u hu => hu
    rintro u w ⟨⟨pair, rfl, hpair⟩, hholds⟩ hhonest
    obtain ⟨user, hmem, hsub, hrole, htenant⟩ := hholds hhonest
    rw [hsub, hrole, htenant] at hpair
    obtain ⟨haccess, hrefresh⟩ := hpair.backed hmem
    exact List.forall_mem_cons.mpr ⟨haccess, List.forall_mem_cons.mpr ⟨hrefresh, by simp⟩⟩

/-- Every request on tokens. -/
theorem behaves_token {honest : Prop} {good : AccountStore T × Users → AuthQuery → Unit → Prop}
    (tid : ℕ) (r : AuthRequest Tok) {s : AccountStore T × Users}
    (hgood : ∀ t q ω, good t q ω → honest → Genuine rt s.2 r.token) :
    Behaves (fun _ s q => AuthService.answer s.1.tokens s.2 q)
      (fun q s => ({ s.1 with tokens := q.effect s.1.tokens }, s.2))
      (Within (Accounts rt old) (Onward rt old)) good (fun _ _ => True)
      (fun t w => TokensBacked rt honest (.token w) t) (program rt.toRuntime tid r) s := by
  by_cases hr : ∃ token, r = .refreshTokens token
  · obtain ⟨token, rfl⟩ := hr
    exact behaves_refresh tid token hgood
  · refine ((ends_tokenless (fun token h => hr ⟨token, h⟩) tid).behaves (F := fun _ => True)
      (fun _ _ _ _ => trivial) (fun _ _ _ => trivial) trivial).imp ?_
    rintro t w ⟨htokens, -⟩ - token hmem
    rw [htokens] at hmem
    cases hmem

/-! ### What a login returns -/

/-- The result of a login of this user with this password. -/
structure LoggedIn (rt : AccountRuntime Tok T) (password : String) (user : User)
    (w : LoginResult Tok) : Prop where
  pair : PairFor rt user.id user.role user.id w.response
  rehashed : ∀ id passwordHash, w.rehashed = some (id, passwordHash) →
    id = user.id ∧ ∃ n, passwordHash = rt.hasher.hash n password

theorem ends_succeed (tid : ℕ) (payload : UserLogin) (user : User) :
    Ends (fun _ _ => True) (LoggedIn rt payload.password user) (fun _ => True)
      (succeed rt.toLoginRuntime tid payload user) := by
  have hrest : ∀ now : T, LoggedIn rt payload.password user
      { response :=
          let pair := createTokenPair rt.jwt
            { userId := user.id, role := user.role, secretKey := rt.settings.jwtSecretKey
              algorithm := rt.settings.jwtAlgorithm
              accessExpireMinutes := rt.settings.accessTokenExpireMinutes
              refreshExpireDays := rt.settings.refreshTokenExpireDays, tenantId := some user.id }
            now (rt.uuid4 tid 0) (rt.uuid4 tid 1)
          { accessToken := pair.1, refreshToken := pair.2 }
        rehashed := if rt.hasher.passwordNeedsRehash user.passwordHash then
          some (user.id, rt.hasher.hash tid payload.password) else none } := by
    refine fun now => ⟨⟨_, rfl, rfl, rfl, rfl, rfl, now, _, _, rfl⟩, fun id passwordHash h => ?_⟩
    obtain ⟨-, h⟩ := Option.ite_none_right_eq_some.mp h
    obtain ⟨rfl, rfl⟩ := Prod.mk.inj (Option.some.inj h)
    exact ⟨rfl, tid, rfl⟩
  unfold succeed
  dsimp only
  by_cases hredis : rt.redis = true
  · rw [if_pos hredis]
    exact (ends_true _).bind fun _ _ now _ => hrest now
  · rw [if_neg hredis]
    exact fun now _ => hrest now

omit [Ring T] [LinearOrder T] [FloorRing T] in
theorem ends_failLogin (payload : UserLogin) : Ends (fun _ _ => True) (fun _ => False)
    (fun _ => True) (failLogin rt.toLoginRuntime payload : LoginTxn T (LoginResult Tok)) := by
  unfold failLogin
  split
  · exact (ends_true _).bind fun _ _ => trivial
  · trivial

/-- What a login that succeeds has proven: a password of the account. -/
def LoginPost (rt : AccountRuntime Tok T) (old : Users) (password : String)
    (s : AccountStore T × Users) (w : LoginResult Tok) : Prop :=
  ∃ user, LoggedIn rt password user w ∧ Proven rt old password user s

section Login

variable {good : AccountStore T × Users → LoginQuery → Unit → Prop} {payload : UserLogin} (tid : ℕ)

/-- From the read of the user on. -/
theorem behaves_afterUser {k : Option User → LoginTxn T (LoginResult Tok)}
    (hk : ∀ found, k found = afterUser rt.toLoginRuntime tid payload found)
    (s : AccountStore T × Users) :
    Behaves (fun _ s q => q.answer rt.toLoginRuntime s.1.counters s.2)
      (fun q s => ({ s.1 with counters := q.effect s.1.counters }, s.2))
      (Within (Accounts rt old) (Onward rt old)) good (fun _ _ => True)
      (LoginPost rt old payload.password) (.ask (.getByEmail payload.email) k) s := by
  have hfail : Ends (fun _ _ => True) (fun _ => False) (fun _ => True)
      (failLogin rt.toLoginRuntime payload : LoginTxn T (LoginResult Tok)) := ends_failLogin payload
  intro t hst
  refine ⟨trivial, fun _ _ => ?_⟩
  show Behaves _ _ _ _ _ _ (k (t.2.rows.find? fun user => user.email == payload.email)) _
  rw [hk]
  cases hfound : t.2.rows.find? fun user => user.email == payload.email with
  | none => exact hfail.behaves_false (fun _ _ => trivial) _
  | some user =>
    have hmem := List.mem_of_find?_eq_some hfound
    intro u htu
    refine ⟨trivial, fun _ _ => ?_⟩
    show Behaves _ _ _ _ _ _ (afterVerify rt.toLoginRuntime tid payload user
      (rt.hasher.verifyPassword payload.password user.passwordHash)) _
    cases hverified : rt.hasher.verifyPassword payload.password user.passwordHash with
    | none => trivial
    | some verified =>
      cases verified with
      | false => exact hfail.behaves_false (fun _ _ => trivial) _
      | true =>
        have hproven : Proven rt old payload.password user u :=
          (hst.2.proven hmem hverified).onward htu.1
        refine Behaves.imp (Ends.behaves (F := Proven rt old payload.password user)
          (ends_succeed tid payload user) ?_ ?_ hproven) fun _ _ h => ⟨user, h⟩
        · exact fun v w h hvw => h.onward hvw.1
        · exact fun q v h => h

theorem behaves_login (s : AccountStore T × Users) :
    Behaves (fun _ s q => q.answer rt.toLoginRuntime s.1.counters s.2)
      (fun q s => ({ s.1 with counters := q.effect s.1.counters }, s.2))
      (Within (Accounts rt old) (Onward rt old)) good (fun _ _ => True)
      (LoginPost rt old payload.password) (authenticateUser rt.toLoginRuntime tid payload) s := by
  by_cases hredis : rt.redis = true
  · rw [authenticateUser_eq hredis]
    refine fun t _ => ⟨trivial, fun _ _ => ?_⟩
    unfold afterCheck
    dsimp only
    split
    · trivial
    · exact behaves_afterUser tid (fun _ => rfl) _
  · unfold authenticateUser
    rw [if_neg hredis]
    refine behaves_afterUser tid (fun found => ?_) s
    cases found with
    | none => rfl
    | some user =>
      refine congrArg (Txn.ask _) (funext fun (verified : Option Bool) => ?_)
      cases verified with
      | none => rfl
      | some matched => cases matched <;> rfl

end Login

end Tokens

/-! ## Runs -/

section Runs

variable {Tok T : Type} [Ring T] [LinearOrder T] [FloorRing T] {rt : AccountRuntime Tok T}
  {old : Users} {honest : Prop}

/-- What a request returns is proven, and the tokens it hands out are backed. -/
def AccountPost (rt : AccountRuntime Tok T) (old : Users) (honest : Prop)
    (tk : Ticket Users (AccountRequest Tok)) (s : AccountStore T × Users) :
    AccountResult Tok → Prop
  | .registered user => ∃ payload, tk.req = .register payload ∧ Registered rt payload user
  | .loggedIn w => TokensBacked rt honest (.loggedIn w) s ∧ ∃ password user,
      LoggedIn rt password user w ∧ Proven rt old password user s
  | .token w => TokensBacked rt honest (.token w) s

/-- The token of a request was genuine when it came in. -/
def AccountGood (rt : AccountRuntime Tok T) (honest : Prop)
    (tk : Ticket Users (AccountRequest Tok)) (_ : AccountStore T × Users) (_ : AccountQuery)
    (_ : Unit) : Prop :=
  honest → ∀ r, tk.req = .token r → Genuine rt tk.begun r.token

theorem behaves_register {good : AccountStore T × Users → AccountQuery → Unit → Prop} (tid : ℕ)
    (payload : UserRegister) (users : Users) (s : AccountStore T × Users) :
    Behaves (accountService rt).answers (accountService rt).act
      (Within (Accounts rt old) (Onward rt old)) good (fun _ _ => True)
      (AccountPost rt old honest ⟨tid, .register payload, users⟩)
      (accountProgram rt tid (.register payload)) s := by
  unfold accountProgram registerUser
  dsimp only
  by_cases hpolicy : validatePasswordPolicy rt.chars payload.password ≠ []
  · rw [if_pos hpolicy]
    trivial
  · rw [if_neg hpolicy]
    intro t hst
    refine ⟨trivial, fun _ _ => ?_⟩
    cases (accountService rt).answers () t (.existsByEmail payload.email) with
    | true => trivial
    | false =>
      exact fun u _ => ⟨payload, rfl, not_not.mp hpolicy, rfl, rfl, tid, rfl⟩

theorem accounts_regime (rt : AccountRuntime Tok T) (old : Users) (honest : Prop) :
    Regime (accountService rt) (Accounts rt old) (Onward rt old) (AccountGood rt honest)
      (fun _ _ _ => True) (AccountPost rt old honest) where
  refl := onward_refl
  trans := onward_trans
  start tid r s hinv := by
    cases r with
    | register payload => exact behaves_register tid payload s.2 s
    | login payload =>
      refine Behaves.bind (behaves_login tid s).embed ⟨onward_refl s, hinv⟩
        (fun s t q hst _ => ⟨onward_refl _, ?_⟩) ?_
      · cases q with
        | token q => exact ⟨hst.2.derived, hst.2.kept⟩
        | login q => exact ⟨hst.2.derived, hst.2.kept⟩
        | existsByEmail email => exact ⟨hst.2.derived, hst.2.kept⟩
      · rintro t w ⟨user, hlogged, hproven⟩ u htu
        have hnow := hproven.onward htu.1
        refine ⟨fun _ => ?_, payload.password, user, hlogged, hnow⟩
        obtain ⟨row, hmem, hid, hrole, -⟩ := hnow
        obtain ⟨haccess, hrefresh⟩ := PairFor.backed hmem (hid ▸ hrole ▸ hlogged.pair)
        exact List.forall_mem_cons.mpr ⟨haccess, List.forall_mem_cons.mpr ⟨hrefresh, by simp⟩⟩
    | token r =>
      refine Behaves.bind (behaves_token tid r fun t q ω h hhonest => h hhonest r rfl).embed
        ⟨onward_refl s, hinv⟩ (fun s t q hst _ => ⟨onward_refl _, ?_⟩) ?_
      · cases q with
        | token q => exact ⟨hst.2.derived, hst.2.kept⟩
        | login q => exact ⟨hst.2.derived, hst.2.kept⟩
        | existsByEmail email => exact ⟨hst.2.derived, hst.2.kept⟩
      · exact fun t w hbacked u htu hhonest token hmem =>
          (hbacked hhonest token hmem).onward htu.1
  query tk s q hinv _ := by
    have hsame : ((accountService rt).act q s).2 = s.2 := rfl
    exact ⟨⟨hinv.derived, hinv.kept⟩, onward_refl s⟩
  commit tk s w users hinv hpost hcommit := by
    cases w with
    | registered user =>
      obtain ⟨payload, -, hregistered⟩ := hpost
      exact (commit_registered hinv hregistered hcommit).2.2
    | loggedIn w =>
      obtain ⟨-, password, user, hlogged, hproven⟩ := hpost
      exact commit_login hinv hproven hlogged.rehashed hcommit
    | token w =>
      obtain rfl := Option.some.inj hcommit
      exact ⟨hinv, onward_refl s⟩

omit [Ring T] [FloorRing T] in
theorem rely_drift {t : T} {store store' : AccountStore T} {users : Users}
    (_ : store.elapse t = some store') (h : Accounts rt old (store, users)) :
    Accounts rt old (store', users) ∧ Onward rt old (store, users) (store', users) :=
  ⟨⟨h.derived, h.kept⟩, onward_refl (store, users)⟩

/-- What the service keeps along a run: the regime, that every request in flight came in with a
    genuine token, and `est` of what was committed. -/
structure AccountRun (rt : AccountRuntime Tok T) (old : Users) (honest : Prop)
    (est : AccountRequest Tok → AccountResult Tok → AccountStore T × Users → Prop)
    (srv : AccountServer Tok T) : Prop where
  kept : Regime.Kept (accountService rt) (Accounts rt old) (Onward rt old) (AccountGood rt honest)
    (fun _ _ _ => True) (AccountPost rt old honest) srv
  genuine : honest → ∀ a ∈ srv.active, ∀ r, a.req = .token r → Genuine rt a.begun r.token
  established : srv.Established est

omit [Ring T] [LinearOrder T] [FloorRing T] in
theorem good_of_genuine {srv : AccountServer Tok T}
    (h : honest → ∀ a ∈ srv.active, ∀ r, a.req = .token r → Genuine rt a.begun r.token)
    (m : Move Unit) : GoodMove (AccountGood rt honest) srv srv.view m := by
  cases m with
  | advance i ω =>
    exact fun a ha q k _ hhonest r hr => h hhonest a (List.mem_of_getElem? ha) r hr
  | finish i => trivial
  | crash i => trivial

theorem accounts_run {est : AccountRequest Tok → AccountResult Tok → AccountStore T × Users → Prop}
    (hstable : ∀ r w s t, est r w s → Onward rt old s t → est r w t)
    (hcommit : ∀ tk s w users, Accounts rt old s → AccountPost rt old honest tk s w →
      commitAccount w s.2 = some users → est tk.req w (s.1, users))
    {ok : AccountServer Tok T → AccountLabel Tok T → Prop}
    (hok : ∀ srv r, AccountRun rt old honest est srv → honest → ok srv (.act (.start (.token r))) →
      Genuine rt srv.db r.token)
    {store : AccountStore T} {ls : List (AccountLabel Tok T)} {srv : AccountServer Tok T}
    (h : Reaches ((accountService rt).stepIn AccountStore.elapse) ok
      (Server.init old store) ls srv) :
    AccountRun rt old honest est srv := by
  have G := accounts_regime rt old honest
  refine h.inEnvironment (AccountRun rt old honest est)
    ⟨Regime.kept_init (accounts_init store old), ?_, ?_⟩ ?_ ?_ ?_
  · exact fun _ a ha => absurd ha List.not_mem_nil
  · exact fun e he => absurd he List.not_mem_nil
  · intro s t store' hs _ helapse
    obtain ⟨hinv, hrely⟩ := rely_drift helapse hs.kept.inv
    exact ⟨G.kept_drift hs.kept hinv hrely, hs.genuine,
      fun e he w hw => hstable _ _ _ _ (hs.established e he w hw) hrely⟩
  · intro s r hs hstart
    refine ⟨G.kept_start r hs.kept, fun hhonest a ha q hq => ?_, hs.established⟩
    rcases Service.mem_start ha with ha | rfl
    · exact hs.genuine hhonest a ha q hq
    · obtain rfl : r = .token q := hq
      exact hok s q hs hhonest hstart
  · intro s m s' hs _ hmove
    refine ⟨G.kept_move hs.kept (good_of_genuine hs.genuine m) hmove, fun hhonest a ha r hr => ?_,
      G.established_move hstable hcommit hs.kept hs.established hmove⟩
    obtain ⟨a', ha', hticket⟩ := Service.move_tickets hmove a ha
    have hreq : a'.req = .token r := (congrArg Ticket.req hticket).trans hr
    exact (congrArg Ticket.begun hticket) ▸ hs.genuine hhonest a' ha' r hreq

/-- The tokens of a result are backed. -/
def EstTokens (rt : AccountRuntime Tok T) (_ : AccountRequest Tok) (w : AccountResult Tok)
    (s : AccountStore T × Users) : Prop :=
  ∀ token ∈ w.tokens, Backed rt s.2 token

omit [Ring T] [LinearOrder T] [FloorRing T] in
theorem backed_of_issued {srv : AccountServer Tok T} (h : srv.Established (EstTokens rt))
    {token : Tok} (hissued : token ∈ issuedTokens srv) : Backed rt srv.db token := by
  obtain ⟨⟨r, w⟩, hmem, htoken⟩ := List.mem_flatMap.mp hissued
  obtain ⟨e, he, -, hverdict⟩ := Server.mem_committed.mp hmem
  exact h e he w hverdict token htoken

omit [FloorRing T] in
theorem holds_of_decodes (hjwt : rt.jwt.Sound) {users : Users} {token : Tok} {payload : Claims}
    (h : Backed rt users token) (hdecodes : Decodes rt token payload) : Holds users payload := by
  obtain ⟨claims, hholds, rfl⟩ := h
  obtain ⟨now, hdecode⟩ := hdecodes
  obtain ⟨rfl, -⟩ := hjwt.decode_encode hdecode
  exact hholds

/-- No token ever says more than its account: what a token can be decoded to is the id and the role
    of a row, rows of the start keep their email and role, and every other row is a shopper's. -/
theorem tokens_of_accounts (hjwt : rt.jwt.Sound) {store : AccountStore T}
    {ls : List (AccountLabel Tok T)} {srv : AccountServer Tok T}
    (h : Reaches ((accountService rt).stepIn AccountStore.elapse) (Unforged rt)
      (Server.init old store) ls srv) :
    (∀ token ∈ issuedTokens srv, ∀ payload, Decodes rt token payload → Holds srv.db payload) ∧
      (∀ user ∈ srv.db.rows, old.get user.id = none → user.role = "shopper") ∧
      ∀ o ∈ old.rows, ∃ user, srv.db.get o.id = some user ∧ user.email = o.email ∧
        user.role = o.role := by
  have hrun : AccountRun rt old True (EstTokens rt) srv := by
    refine accounts_run ?_ ?_ ?_ h
    · exact fun r w s t hest hst token hmem => (hest token hmem).onward hst
    · intro tk s w users hinv hpost hcommit token hmem
      have hbacked : Backed rt s.2 token := by
        cases w with
        | registered user => cases hmem
        | loggedIn w => exact hpost.1 trivial token hmem
        | token w => exact hpost trivial token hmem
      exact hbacked.onward ((accounts_regime rt old True).commit tk s w users hinv hpost hcommit).2
    · intro s r hs _ hunforged payload hdecodes
      exact holds_of_decodes hjwt
        (backed_of_issued hs.established (hunforged payload hdecodes)) hdecodes
  refine ⟨fun token hissued payload hdecodes =>
    holds_of_decodes hjwt (backed_of_issued hrun.established hissued) hdecodes,
    fun user hmem hnew => ((hrun.kept.inv.derived user hmem).ofNew hnew).1, fun o ho => ?_⟩
  obtain ⟨user, hmem, hid⟩ := hrun.kept.inv.kept o ho
  have hold : old.get user.id = some o := hid ▸ Table.get_of_mem ho
  obtain ⟨hemail, hrole, -⟩ := (hrun.kept.inv.derived user hmem).ofOld o hold
  exact ⟨user, hid ▸ Table.get_of_mem hmem, hemail, hrole⟩

/-! ### Passwords along a run -/

/-- The row of a registration. -/
def EstRegistered (rt : AccountRuntime Tok T) (old : Users) (r : AccountRequest Tok)
    (w : AccountResult Tok) (s : AccountStore T × Users) : Prop :=
  ∀ payload user, r = .register payload → w = .registered user →
    validatePasswordPolicy rt.chars payload.password = [] ∧ old.get user.id = none ∧
      ∃ row ∈ s.2.rows, row.id = user.id ∧ row.email = payload.email ∧ row.role = "shopper" ∧
        (rt.hasher.Sound → rt.hasher.Only row.passwordHash payload.password)

/-- An account accepts only passwords that it accepted when it was made: one of the start those it
    accepted then, and one that was registered exactly its own. -/
theorem passwords_run (hhasher : rt.hasher.Sound) {store : AccountStore T}
    {ok : AccountServer Tok T → AccountLabel Tok T → Prop} {ls : List (AccountLabel Tok T)}
    {srv : AccountServer Tok T}
    (h : Reaches ((accountService rt).stepIn AccountStore.elapse) ok
      (Server.init old store) ls srv) :
    (∀ user ∈ srv.db.rows, ∀ o, old.get user.id = some o → ∀ password,
      rt.hasher.Accepts user.passwordHash password → rt.hasher.Accepts o.passwordHash password) ∧
      ∀ payload user, (AccountRequest.register payload, AccountResult.registered user) ∈
          srv.committed →
        validatePasswordPolicy rt.chars payload.password = [] ∧
          ∃ row, srv.db.get user.id = some row ∧ row.email = payload.email ∧
            row.role = "shopper" ∧ ∀ password, rt.hasher.verifyPassword password row.passwordHash =
              some (decide (password = payload.password)) := by
  have hrun : AccountRun rt old False (EstRegistered rt old) srv := by
    refine accounts_run ?_ ?_ (fun _ _ _ hfalse _ => hfalse.elim) h
    · intro r w s t hest hst payload user hr hw
      obtain ⟨hpolicy, hnew, row, hmem, hid, hemail, hrole, honly⟩ := hest payload user hr hw
      obtain ⟨row', hmem', hrow⟩ := hst row hmem
      exact ⟨hpolicy, hnew, row', hmem', hrow.id.trans hid, hrow.email.trans hemail,
        hrow.role.trans hrole, fun hsound => hrow.only hsound (hid ▸ hnew) _ (honly hsound)⟩
    · rintro tk s w users hinv hpost hcommit payload user hr rfl
      obtain ⟨payload', hr', hregistered⟩ := hpost
      obtain rfl : payload' = payload := AccountRequest.register.inj (hr'.symm.trans hr)
      obtain ⟨hnew, hmem, -, -⟩ := commit_registered hinv hregistered hcommit
      exact ⟨hregistered.policy, hnew, user, hmem, rfl, hregistered.email, hregistered.role,
        hregistered.only⟩
  refine ⟨fun user hmem o ho => ((hrun.kept.inv.derived user hmem).ofOld o ho).2.2 hhasher,
    fun payload user hmem => ?_⟩
  obtain ⟨e, he, hreq, hverdict⟩ := Server.mem_committed.mp hmem
  obtain ⟨hpolicy, -, row, hrow, hid, hemail, hrole, honly⟩ :=
    hrun.established e he _ hverdict payload user hreq rfl
  exact ⟨hpolicy, row, hid ▸ Table.get_of_mem hrow, hemail, hrole, honly hhasher⟩

end Runs

/-! ## A registration, a login and a refresh -/

/-- The hasher that shows passwords, with legacy hashes that show them too. -/
def labelledHasher : Hasher where
  verify := plainHasher.verify
  legacyVerify plainPassword hashedPassword :=
    some (decide (hashedPassword = "$2b$" ++ plainPassword))
  checkNeedsRehash _ := false
  hash := plainHasher.hash

theorem labelledHasher_sound : labelledHasher.Sound where
  isLegacy_hash n password := by
    unfold isLegacy labelledHasher plainHasher
    rw [Bool.or_eq_false_iff]
    constructor
    · rw [Bool.eq_false_iff, Ne, String.startsWith_string_iff]
      simp
    · rw [Bool.eq_false_iff, Ne, String.startsWith_string_iff]
      simp
  verify_hash n password plainPassword := by
    show (if "plain$" ++ password = "plain$" ++ plainPassword then _ else _) = _
    simp only [String.append_right_inj, eq_comm]

def asciiClasses : CharClasses where
  isupper := Char.isUpper
  islower := Char.isLower
  isdigit := Char.isDigit

def accountRuntime : AccountRuntime (Claims × String × String) ℚ :=
  { signedRuntime with hasher := labelledHasher, chars := asciiClasses }

/-- An administrator from before the change of the hashes. -/
def administrators : Users where
  rows := [⟨"user-1", "root@b.c", "$2b$Root#2024", none, none, "admin"⟩]
  nodup := by decide

def advanced (i : ℕ) : AccountLabel (Claims × String × String) ℚ := .act (.move (.advance i ()))

def finished (i : ℕ) : AccountLabel (Claims × String × String) ℚ := .act (.move (.finish i))

def registration : UserRegister where
  email := "a@b.c"
  password := "Secret#1"
  firstName := none
  lastName := none
  length_password := by decide

/-- The refresh token that the administrator's login hands out. -/
def administratorToken : Claims × String × String :=
  (createTokenPair accountRuntime.jwt { loginArgs with role := "admin", tenantId := some "user-1" }
    (0 : ℚ) (uuidOf 4) (uuidOf 5)).2

/-- A shopper registers, and the administrator logs in and refreshes the pair. -/
def firstDay : List (AccountLabel (Claims × String × String) ℚ) :=
  [.act (.start (.register registration)), advanced 0, finished 0,
    .act (.start (.login ⟨"root@b.c", "Root#2024"⟩))] ++ List.replicate 5 (advanced 0) ++
    [finished 0, .drift 60, .act (.start (.token (.refreshTokens administratorToken)))] ++
    List.replicate 5 (advanced 0) ++ [finished 0]

/-- The token that is presented was issued. -/
def Presented {Tok T : Type} : AccountServer Tok T → AccountLabel Tok T → Prop
  | srv, .act (.start (.token r)) => r.token ∈ issuedTokens srv
  | _, _ => True

instance {Tok T : Type} [DecidableEq Tok] (srv : AccountServer Tok T) (l : AccountLabel Tok T) :
    Decidable (Presented srv l) := by
  unfold Presented
  split
  all_goals infer_instance

theorem unforged_of_presented {Tok T : Type} (rt : AccountRuntime Tok T) {srv : AccountServer Tok T}
    {l : AccountLabel Tok T} (h : Presented srv l) : Unforged rt srv l := by
  unfold Unforged
  split
  · exact fun _ _ => h
  · trivial

theorem tokens_of_accounts_firstDay : ∃ srv, Reaches
    ((accountService accountRuntime).stepIn AccountStore.elapse) (Unforged accountRuntime)
    (Server.init administrators ⟨.empty 0, .empty 0⟩) firstDay srv ∧
    (issuedTokens srv).length = 4 ∧
    (∀ token ∈ issuedTokens srv, ∀ payload, Decodes accountRuntime token payload →
      Holds srv.db payload) ∧
    (∀ user ∈ srv.db.rows, administrators.get user.id = none → user.role = "shopper") ∧
    ∀ o ∈ administrators.rows, ∃ user, srv.db.get o.id = some user ∧ user.email = o.email ∧
      user.role = o.role := by
  obtain ⟨srv, hrun, hissued⟩ : ∃ srv, Reaches
      ((accountService accountRuntime).stepIn AccountStore.elapse) Presented
      (Server.init administrators ⟨.empty 0, .empty 0⟩) firstDay srv ∧
      (issuedTokens srv).length = 4 :=
    reaches_where (by decide +kernel) (by decide +kernel)
  have hreaches := hrun.imp fun _ _ _ h => unforged_of_presented accountRuntime h
  exact ⟨srv, hreaches, hissued, tokens_of_accounts signedJwt_sound hreaches⟩

theorem passwords_run_firstDay : ∃ srv, Reaches
    ((accountService accountRuntime).stepIn AccountStore.elapse) anyStep
    (Server.init administrators ⟨.empty 0, .empty 0⟩) firstDay srv ∧
    srv.db.rows.map User.passwordHash = ["plain$Root#2024", "plain$Secret#1"] ∧
    (∀ user ∈ srv.db.rows, ∀ o, administrators.get user.id = some o → ∀ password,
      labelledHasher.Accepts user.passwordHash password →
        labelledHasher.Accepts o.passwordHash password) ∧
    ∀ payload user, (AccountRequest.register payload, AccountResult.registered user) ∈
        srv.committed →
      validatePasswordPolicy asciiClasses payload.password = [] ∧
        ∃ row, srv.db.get user.id = some row ∧ row.email = payload.email ∧
          row.role = "shopper" ∧ ∀ password,
            labelledHasher.verifyPassword password row.passwordHash =
              some (decide (password = payload.password)) := by
  obtain ⟨srv, hrun, hhashes⟩ : ∃ srv, Reaches
      ((accountService accountRuntime).stepIn AccountStore.elapse) anyStep
      (Server.init administrators ⟨.empty 0, .empty 0⟩) firstDay srv ∧
      srv.db.rows.map User.passwordHash = ["plain$Root#2024", "plain$Secret#1"] :=
    reaches_where (allSteps_of_forall (fun _ _ _ => trivial) _) (by decide +kernel)
  exact ⟨srv, hrun, hhashes, passwords_run (show accountRuntime.hasher.Sound from
    labelledHasher_sound) hrun⟩

end CloudScale.AuthService
