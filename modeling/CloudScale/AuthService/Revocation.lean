/-
  How long a revocation lasts (`logout` and `refresh_tokens` in `auth/app/service.py`, the blacklist
  in `cloudscale_shared/security.py`).

  `revoke_token` stores an entry that expires after `max(exp - floor(now), 1)` seconds, at `exp` at
  the earliest (`exp_le_expiry`), and from `exp` on the token cannot be decoded. `Blacklisted` is
  the invariant: the entry is there and outlives the token. `revocation_permanent`: once a call has
  revoked a token, no later call succeeds with it, as long as the clock does not pass `exp` between
  the two steps in which such a call decodes the token and looks it up (`Prompt`).
  `accepted_after_expiry` is a call in which it does.
-/
import CloudScale.AuthService.Rotation

namespace CloudScale.AuthService

open CloudScale.Lib

variable {Tok T : Type} [Ring T] [LinearOrder T] [FloorRing T]

/-! ## Tokens and calls -/

/-- `create_token_pair` has issued the token, with these claims. -/
def Issued (jwt : Jwt Tok T) (token : Tok) (c : Claims) : Prop :=
  ∃ (args : TokenPairArgs) (utcNow : T) (jtiAccess jtiRefresh : Uuid),
    (createTokenPair jwt args utcNow jtiAccess jtiRefresh).1 = token ∧
        c = args.accessClaims utcNow jtiAccess ∨
      (createTokenPair jwt args utcNow jtiAccess jtiRefresh).2 = token ∧
        c = args.refreshClaims utcNow jtiRefresh

/-- What identifies an issued token: the identifier it is revoked under, its expiry, and that it is
    decoded to its claims only. -/
structure Identified (jwt : Jwt Tok T) (token : Tok) (c : Claims) (jti : String) (exp : Int) :
    Prop where
  lookup : c.blacklistJti true = some jti
  jti_eq : c.jti = some jti
  exp_eq : c.exp = some exp
  decode_eq : ∀ {now secretKey algorithm payload},
    jwt.decode now token secretKey algorithm = .ok payload → payload = c ∧ now < (exp : T)

theorem Issued.identified {jwt : Jwt Tok T} (hjwt : jwt.Sound) {token : Tok} {c : Claims}
    (h : Issued jwt token c) : ∃ jti exp, Identified jwt token c jti exp := by
  obtain ⟨args, utcNow, jtiAccess, jtiRefresh, ⟨rfl, rfl⟩ | ⟨rfl, rfl⟩⟩ := h
  · refine ⟨jtiAccess.text, _, blacklistJti_claims _ _ _ _ _, rfl, rfl, fun hdecode => ?_⟩
    obtain ⟨heq, hlive⟩ := hjwt.decode_encode hdecode
    exact ⟨heq, hlive _ rfl⟩
  · refine ⟨jtiRefresh.text, _, blacklistJti_claims _ _ _ _ _, rfl, rfl, fun hdecode => ?_⟩
    obtain ⟨heq, hlive⟩ := hjwt.decode_encode hdecode
    exact ⟨heq, hlive _ rfl⟩

/-- `logout` or `refresh_tokens` on the token. -/
def Revokes (token : Tok) (r : AuthRequest Tok) : Prop :=
  r = .logout token ∨ r = .refreshTokens token

/-- A call that succeeds only with a token that is not revoked. -/
def Verifies (token : Tok) : AuthRequest Tok → Prop
  | .refreshTokens token' => token' = token
  | .logout _ => False
  | .getCurrentUserFromToken token' => token' = token
  | .decodeAndVerifyToken token' _ redisClient _ _ => token' = token ∧ redisClient = true

def AuthRequest.token : AuthRequest Tok → Tok
  | .refreshTokens token => token
  | .logout token => token
  | .getCurrentUserFromToken token => token
  | .decodeAndVerifyToken token _ _ _ _ => token

/-- The service decodes the request's token to `c` if it has the identifier of `c`: no two tokens
    are issued with one `jti`. -/
def SoleJti (rt : Runtime Tok T) (c : Claims) (r : AuthRequest Tok) : Prop :=
  ∀ now payload, rt.jwt.decode now r.token rt.settings.jwtSecretKey rt.settings.jwtAlgorithm =
    .ok payload → payload.jti = c.jti → payload = c

/-! ## The entry -/

/-- The blacklist has an entry for the identifier that lasts until `exp` at least. -/
def Blacklisted (jti : String) (exp : Int) (redis : Redis T) : Prop :=
  ∃ e, redis.entries (revokedKey jti) = some e ∧ ∀ t, e.expiry = some t → (exp : T) ≤ t

theorem revokedKey_injective {j j' : String} (h : revokedKey j = revokedKey j') : j = j' :=
  (String.append_right_inj _).mp h

/-- An entry that is set at `later` with the time to live computed at `now` lasts until `exp`. -/
theorem exp_le_expiry [IsStrictOrderedRing T] {now later : T} (exp : Int) (h : now ≤ later) :
    (exp : T) ≤ later + ((max (exp - ⌊now⌋) 1 : Int) : T) := by
  have hfloor : (⌊now⌋ : T) ≤ later := le_trans (Int.floor_le now) h
  have hmax : ((exp - ⌊now⌋ : Int) : T) ≤ ((max (exp - ⌊now⌋) 1 : Int) : T) :=
    Int.cast_le.mpr (le_max_left _ _)
  calc (exp : T) = ⌊now⌋ + ((exp - ⌊now⌋ : Int) : T) := by push_cast; abel
    _ ≤ later + ((max (exp - ⌊now⌋) 1 : Int) : T) := add_le_add hfloor hmax

omit [FloorRing T] in
/-- Up to `exp` the entry is seen. -/
theorem get_of_blacklisted {jti : String} {exp : Int} {redis : Redis T}
    (h : Blacklisted jti exp redis) (hnow : redis.now ≤ (exp : T)) :
    (redis.get (revokedKey jti)).isSome = true := by
  obtain ⟨e, he, hexpiry⟩ := h
  have hlive : e.live redis.now = true := by
    unfold Stored.live
    cases ht : e.expiry with
    | none => rfl
    | some t => exact decide_eq_true (le_trans hnow (hexpiry t ht))
  rw [Keyspace.get_of_live he hlive]
  rfl

/-- Time passes, and the entry stays. -/
def Later (jti : String) (exp : Int) (s t : Redis T × Users) : Prop :=
  s.1.now ≤ t.1.now ∧ (Blacklisted jti exp s.1 → Blacklisted jti exp t.1)

/-- What is stored under the identifier lasts until `exp`. -/
def Outlives (jti : String) (exp : Int) (s : Redis T × Users) : AuthQuery → Prop
  | .set key _ ex => key = revokedKey jti → (exp : T) ≤ s.1.now + (ex : T)
  | _ => True

/-- The query stores nothing. -/
def AuthQuery.reads : AuthQuery → Prop
  | .set _ _ _ => False
  | _ => True

omit [FloorRing T] in
theorem outlives_of_reads {jti : String} {exp : Int} {s : Redis T × Users} {q : AuthQuery}
    (h : q.reads) : Outlives jti exp s q := by
  cases q with
  | set key value ex => exact h.elim
  | _ => trivial

omit [FloorRing T] in
theorem blacklisted_set {jti : String} {exp ex : Int} {redis : Redis T} {value : String}
    (h : (exp : T) ≤ redis.now + (ex : T)) :
    Blacklisted jti exp (redis.set (revokedKey jti) value (some ex)) :=
  ⟨⟨value, some (redis.now + (ex : T))⟩, Function.update_self _ _ _, fun _ ht =>
    Option.some.inj ht ▸ h⟩

omit [FloorRing T] in
theorem later_effect {jti : String} {exp : Int} {redis : Redis T} {users : Users} {q : AuthQuery}
    (h : Outlives jti exp (redis, users) q) :
    Later jti exp (redis, users) (q.effect redis, users) := by
  cases q with
  | set key value ex =>
    refine ⟨le_refl _, fun ⟨e, he, hexpiry⟩ => ?_⟩
    by_cases hkey : key = revokedKey jti
    · subst hkey
      exact blacklisted_set (h rfl)
    · exact ⟨e, (Function.update_of_ne (Ne.symm hkey) _ _).trans he, hexpiry⟩
  | _ => exact ⟨le_refl _, id⟩

/-! ## The programs on the blacklist -/

section Programs

variable {rt : Runtime Tok T} {jti : String} {exp : Int} {R : Type}

/-- The program stores only entries that outlive the token, and ends in `post`. -/
def Careful (rt : Runtime Tok T) (jti : String) (exp : Int)
    (good : Redis T × Users → AuthQuery → Unit → Prop) (post : Redis T × Users → R → Prop)
    (p : AuthTxn T R) (s : Redis T × Users) : Prop :=
  Behaves (service rt).answers (service rt).act (Within (fun _ => True) (Later jti exp)) good
    (Outlives jti exp) post p s

variable {good : Redis T × Users → AuthQuery → Unit → Prop} {post : Redis T × Users → R → Prop}
  {s : Redis T × Users}

/-- A token that is decoded first; what `good` says of its query can be used from then on. -/
theorem careful_decoded {decoded : T → Except AuthExc Claims} {f : Claims → AuthTxn T R}
    (h : ∀ t now payload, good t .jwtNow () → decoded now = .ok payload →
      Careful rt jti exp good post (f payload) t) :
    Careful rt jti exp good post (.ask .jwtNow fun now => onPayload (decoded now) f) s := by
  refine fun t _ => ⟨trivial, fun ω hgood => ?_⟩
  show Behaves _ _ _ _ _ _ (onPayload (decoded t.1.now) f) t
  unfold onPayload
  split
  · next payload hdecoded => exact h t t.1.now payload hgood hdecoded
  · trivial

/-- `revokeForLife` stores an entry that outlives its token. -/
theorem careful_revokeForLife [IsStrictOrderedRing T] {payload : Claims} {j : String}
    {f : Unit → AuthTxn T R} (hexp : j = jti → payload.exp = some exp)
    (hf : ∀ t, (j = jti → Blacklisted jti exp t.1) → Careful rt jti exp good post (f ()) t) :
    Careful rt jti exp good post (revokeForLife payload j >>= f) s := by
  intro t _
  refine ⟨trivial, fun _ _ u htu => ?_⟩
  have hlasts : j = jti →
      (exp : T) ≤ u.1.now + ((max (payload.exp.getD 0 - ⌊t.1.now⌋) 1 : Int) : T) := by
    intro hj
    rw [hexp hj]
    exact exp_le_expiry exp htu.1.1
  refine ⟨fun hkey => hlasts (revokedKey_injective hkey), fun _ _ => hf _ fun hj => ?_⟩
  subst hj
  exact blacklisted_set (hlasts rfl)

/-- A program that stores nothing ends as it has begun. -/
theorem careful_of_asks {P : Prop} {p : AuthTxn T R} (h : p.Asks AuthQuery.reads)
    (hs : P → Blacklisted jti exp s.1) :
    Careful rt jti exp good (fun t _ => P → Blacklisted jti exp t.1) p s := by
  induction p generalizing s with
  | done r => exact fun t hst hP => hst.1.2 (hs hP)
  | raise e => trivial
  | ask q k ih =>
    intro t hst
    have hasks : Outlives jti exp t q := outlives_of_reads h.1
    exact ⟨hasks, fun ω _ => ih _ (h.2 _) fun hP => (later_effect hasks).2 (hst.1.2 (hs hP))⟩

theorem program_logout {tid : ℕ} {token : Tok} :
    program rt tid (.logout token) = .ask .jwtNow fun now =>
      onPayload (decodeToken rt.jwt now token rt.settings.jwtSecretKey rt.settings.jwtAlgorithm
        "access") fun payload => match payload.blacklistJti rt.redis with
      | some jti => revokeForLife payload jti >>= fun _ => .done .loggedOut
      | none => .done .loggedOut := by
  show logout rt token >>= _ = _
  unfold logout
  rw [Txn.bind_assoc, decode_bind]
  refine congrArg (Txn.ask _) (funext fun now => congrArg (onPayload _) (funext fun payload => ?_))
  cases payload.blacklistJti rt.redis with
  | none => rfl
  | some jti => rfl

variable {tid : ℕ} {token : Tok} {c : Claims} {r : AuthRequest Tok}

theorem asks_issue (payload : Claims) : (issue rt tid payload).Asks AuthQuery.reads :=
  ⟨trivial, fun _ => trivial⟩

/-- Continue with a payload whose identifier is not in the blacklist. -/
def unlessRevoked (redisClient : Bool) (f : Claims → AuthTxn T R) (payload : Claims) :
    AuthTxn T R :=
  match payload.blacklistJti redisClient with
  | some jti => .ask (.get (revokedKey jti)) fun (found : Option String) =>
    if found.isSome then .raise (.unauthorizedException "Token has been revoked") else f payload
  | none => f payload

omit [Ring T] [LinearOrder T] [FloorRing T] in
theorem decodeAndVerify_bind {secretKey : String} {redisClient : Bool}
    {algorithm expectedType : String} (f : Claims → AuthTxn T R) :
    decodeAndVerifyToken rt token secretKey redisClient algorithm expectedType >>= f =
      .ask .jwtNow fun now => onPayload (decodeToken rt.jwt now token secretKey
        algorithm expectedType)
        (unlessRevoked redisClient f) := by
  unfold decodeAndVerifyToken
  rw [Txn.bind_assoc, decode_bind]
  refine congrArg (Txn.ask _) (funext fun now => congrArg (onPayload _) (funext fun payload => ?_))
  unfold unlessRevoked
  cases payload.blacklistJti redisClient with
  | none => rfl
  | some jti =>
    refine congrArg (Txn.ask _) (funext fun (found : Option String) => ?_)
    cases found with
    | none => rfl
    | some value => rfl

omit [Ring T] [LinearOrder T] [FloorRing T] in
theorem asks_decoded {decoded : T → Except AuthExc Claims} {redisClient : Bool}
    {f : Claims → AuthTxn T R} (hf : ∀ payload, (f payload).Asks AuthQuery.reads) :
    (Txn.ask AuthQuery.jwtNow fun now => onPayload (decoded now) (unlessRevoked redisClient f) :
      AuthTxn T R).Asks AuthQuery.reads := by
  refine ⟨trivial, fun now => ?_⟩
  beta_reduce
  unfold onPayload unlessRevoked
  split
  · next payload _ =>
    cases payload.blacklistJti redisClient with
    | none => exact hf payload
    | some jti =>
      refine ⟨trivial, fun (found : Option String) => ?_⟩
      cases found with
      | none => exact hf payload
      | some value => trivial
  · trivial

/-- The user a payload is about. -/
def currentUser (rt : Runtime Tok T) (payload : Claims) : AuthTxn T (AuthResult Tok) :=
  match rt.parseUuid (payload.sub.getD "") with
  | some id => getUserById id >>= fun user => .done (.user user)
  | none => .raise .valueError

omit [Ring T] [LinearOrder T] [FloorRing T] in
theorem asks_currentUser {P : AuthQuery → Prop} (hP : ∀ id, P (.userById id)) (payload : Claims) :
    (currentUser rt payload).Asks P := by
  unfold currentUser
  split
  · refine ⟨hP _, fun (found : Option User) => ?_⟩
    cases found with
    | none => trivial
    | some user => trivial
  · trivial

theorem program_getCurrentUser : program rt tid (.getCurrentUserFromToken token) =
    .ask .jwtNow fun now => onPayload (decodeToken rt.jwt now token rt.settings.jwtSecretKey
      rt.settings.jwtAlgorithm "access") (unlessRevoked rt.redis (currentUser rt)) := by
  show getCurrentUserFromToken rt token >>= _ = _
  unfold getCurrentUserFromToken
  rw [Txn.bind_assoc, decodeAndVerify_bind]
  refine congrArg (Txn.ask _) (funext fun now => congrArg (onPayload _) ?_)
  refine congrArg (unlessRevoked _) (funext fun payload => ?_)
  unfold currentUser
  cases rt.parseUuid (payload.sub.getD "") with
  | none => rfl
  | some id => rfl

theorem program_decodeAndVerify {secretKey : String} {redisClient : Bool}
    {algorithm expectedType : String} :
    program rt tid (.decodeAndVerifyToken token secretKey redisClient algorithm expectedType) =
      .ask .jwtNow fun now => onPayload (decodeToken rt.jwt now token secretKey
        algorithm expectedType)
        (unlessRevoked redisClient fun payload => .done (.claims payload)) :=
  decodeAndVerify_bind _

omit [Ring T] [LinearOrder T] [FloorRing T] in
theorem blacklistJti_eq_some {redis : Bool} {payload : Claims} {j : String}
    (h : payload.blacklistJti redis = some j) : payload.jti = some j := by
  unfold Claims.blacklistJti at h
  split at h
  · exact (Option.filter_eq_some_iff.mp h).1
  · cases h

omit [FloorRing T] in
/-- Under the identifier of the token only its own entry is computed. -/
theorem Identified.exp_of_sole (hid : Identified rt.jwt token c jti exp)
    (hsole : SoleJti rt c r) {now : T} {payload : Claims}
    (hdecode : rt.jwt.decode now r.token rt.settings.jwtSecretKey rt.settings.jwtAlgorithm =
      .ok payload) {redis : Bool} {j : String} (hj : payload.blacklistJti redis = some j)
    (heq : j = jti) : payload.exp = some exp := by
  subst heq
  have hpayload := hsole now payload hdecode
    ((blacklistJti_eq_some hj).trans hid.jti_eq.symm)
  rw [hpayload]
  exact hid.exp_eq

/-- Every program stores only entries that outlive the token, and one that revokes it has stored
    one when it ends. -/
theorem careful_program [IsStrictOrderedRing T] (hid : Identified rt.jwt token c jti exp)
    (hredis : rt.redis = true) (tid : ℕ) (r : AuthRequest Tok) (s : Redis T × Users) :
    Careful rt jti exp (fun _ _ _ => SoleJti rt c r)
      (fun t _ => Revokes token r → Blacklisted jti exp t.1) (program rt tid r) s := by
  have hlookup : ∀ {now secretKey algorithm payload}, Revokes token r →
      rt.jwt.decode now r.token secretKey algorithm = .ok payload →
      payload.blacklistJti rt.redis = some jti := by
    intro now secretKey algorithm payload hrevokes hdecode
    have htoken : r.token = token := by
      rcases hrevokes with rfl | rfl
      · rfl
      · rfl
    rw [htoken] at hdecode
    rw [(hid.decode_eq hdecode).1, hredis]
    exact hid.lookup
  cases r with
  | refreshTokens token' =>
    rw [program_refresh]
    refine careful_decoded fun t now payload hsole hdecoded => ?_
    have hdecode := (decodeToken_eq_ok hdecoded).1
    cases hj : payload.blacklistJti rt.redis with
    | none =>
      unfold rotateUnlessRevoked
      rw [hj]
      refine careful_of_asks ((asks_issue payload).bind fun _ => trivial) fun hrevokes => ?_
      exact absurd (hj.symm.trans (hlookup hrevokes hdecode)) nofun
    | some j =>
      rw [rotateUnlessRevoked_some hj]
      refine fun u _ => ⟨trivial, fun _ _ => ?_⟩
      show Careful rt jti exp _ _ (if _ then _ else _) _
      split
      · trivial
      · refine careful_revokeForLife (hid.exp_of_sole hsole hdecode hj) fun v hv => ?_
        refine careful_of_asks ((asks_issue payload).bind fun _ => trivial) fun hrevokes => hv ?_
        exact Option.some.inj (hj.symm.trans (hlookup hrevokes hdecode))
  | logout token' =>
    rw [program_logout]
    refine careful_decoded fun t now payload hsole hdecoded => ?_
    have hdecode := (decodeToken_eq_ok hdecoded).1
    cases hj : payload.blacklistJti rt.redis with
    | none =>
      refine careful_of_asks trivial fun hrevokes => ?_
      exact absurd (hj.symm.trans (hlookup hrevokes hdecode)) nofun
    | some j =>
      refine careful_revokeForLife (hid.exp_of_sole hsole hdecode hj) fun v hv => ?_
      refine careful_of_asks trivial fun hrevokes => hv ?_
      exact Option.some.inj (hj.symm.trans (hlookup hrevokes hdecode))
  | getCurrentUserFromToken token' =>
    refine careful_of_asks ?_ fun hrevokes => by simp [Revokes] at hrevokes
    rw [program_getCurrentUser]
    exact asks_decoded (asks_currentUser fun _ => trivial)
  | decodeAndVerifyToken token' secretKey redisClient algorithm expectedType =>
    refine careful_of_asks ?_ fun hrevokes => by simp [Revokes] at hrevokes
    rw [program_decodeAndVerify]
    exact asks_decoded fun _ => trivial

/-- The program looks an identifier up next. -/
def looksUp : AuthTxn T R → Bool
  | .ask (.get _) _ => true
  | _ => false

/-- The query is no lookup. -/
def AuthQuery.later : AuthQuery → Prop
  | .get _ => False
  | _ => True

/-- A call that verifies the token decodes it, looks it up and only then goes on. -/
theorem verifying_steps (hid : Identified rt.jwt token c jti exp) (hredis : rt.redis = true)
    (tid : ℕ) (hr : Verifies token r) : ∃ secretKey algorithm expectedType f,
      program rt tid r = .ask .jwtNow (fun now =>
        onPayload (decodeToken rt.jwt now token secretKey algorithm expectedType) f) ∧
      ∀ now payload, decodeToken rt.jwt now token secretKey algorithm expectedType = .ok payload →
        ∃ message rest, (rest : AuthTxn T (AuthResult Tok)).Asks AuthQuery.later ∧
          f payload = .ask (.get (revokedKey jti)) fun (found : Option String) =>
            if found.isSome then .raise (.unauthorizedException message) else rest := by
  have hlookup : ∀ {now secretKey algorithm expectedType payload},
      decodeToken rt.jwt now token secretKey algorithm expectedType = .ok payload →
      payload.blacklistJti true = some jti := by
    intro now secretKey algorithm expectedType payload hdecoded
    rw [(hid.decode_eq (decodeToken_eq_ok hdecoded).1).1]
    exact hid.lookup
  cases r with
  | refreshTokens token' =>
    obtain rfl : token' = token := hr
    refine ⟨_, _, _, _, program_refresh, fun now payload hdecoded => ?_⟩
    refine ⟨_, rotate rt tid payload jti, ?_, rotateUnlessRevoked_some (hredis ▸ hlookup hdecoded)⟩
    exact ⟨trivial, fun _ => ⟨trivial, fun _ => ⟨trivial, fun _ => trivial⟩⟩⟩
  | logout token' => exact hr.elim
  | getCurrentUserFromToken token' =>
    obtain rfl : token' = token := hr
    refine ⟨_, _, _, _, program_getCurrentUser, fun now payload hdecoded => ?_⟩
    unfold unlessRevoked
    rw [hredis, hlookup hdecoded]
    exact ⟨_, _, asks_currentUser (fun _ => trivial) payload, rfl⟩
  | decodeAndVerifyToken token' secretKey redisClient algorithm expectedType =>
    obtain ⟨rfl, rfl⟩ := hr
    refine ⟨_, _, _, _, program_decodeAndVerify, fun now payload hdecoded => ?_⟩
    unfold unlessRevoked
    rw [hlookup hdecoded]
    exact ⟨_, .done (.claims payload), trivial, rfl⟩

/-- The lookup of the token finds its entry. -/
def Seen (T : Type) (jti : String) : (q : AuthQuery) → AuthAnswer T q → Prop
  | .get key, found => key = revokedKey jti → found.isSome = true
  | _, _ => True

/-- A call that finds the entry does not succeed. -/
theorem verifying_ends (hid : Identified rt.jwt token c jti exp) (hredis : rt.redis = true)
    (tid : ℕ) (hr : Verifies token r) :
    Ends (Seen T jti) (fun _ => False) (fun _ => True) (program rt tid r) := by
  obtain ⟨secretKey, algorithm, expectedType, f, hprogram, hf⟩ := verifying_steps hid hredis tid hr
  rw [hprogram]
  intro now _
  beta_reduce
  cases hdecoded : decodeToken rt.jwt now token secretKey algorithm expectedType with
  | error e => trivial
  | ok payload =>
    obtain ⟨message, rest, -, hfound⟩ := hf now payload hdecoded
    simp only [onPayload, hfound]
    intro found hseen
    beta_reduce
    rw [if_pos (hseen rfl)]
    trivial

/-- The token had not expired when it was decoded. -/
def InTime (T : Type) [LT T] [IntCast T] (exp : Int) : (q : AuthQuery) → AuthAnswer T q → Prop
  | .jwtNow, now => (now : T) < exp
  | _, _ => False

/-- A call comes to its lookup by decoding the token before it expires. -/
theorem verifying_gated (hid : Identified rt.jwt token c jti exp) (hredis : rt.redis = true)
    (tid : ℕ) (hr : Verifies token r) :
    Gated looksUp (fun _ _ => True) (InTime T exp) (program rt tid r) := by
  obtain ⟨secretKey, algorithm, expectedType, f, hprogram, hf⟩ := verifying_steps hid hredis tid hr
  rw [hprogram]
  intro now _
  beta_reduce
  cases hdecoded : decodeToken rt.jwt now token secretKey algorithm expectedType with
  | error e => exact ⟨nofun, trivial⟩
  | ok payload =>
    obtain ⟨message, rest, hlater, hfound⟩ := hf now payload hdecoded
    have hintime : now < (exp : T) := (hid.decode_eq (decodeToken_eq_ok hdecoded).1).2
    simp only [onPayload, hfound]
    refine ⟨fun _ => .inr hintime, fun found _ => ⟨fun _ => .inl rfl, ?_⟩⟩
    beta_reduce
    split
    · trivial
    · refine gated_of_asks (fun _ => rfl) (fun _ => rfl) (fun q k hq => ?_) hlater
      cases q with
      | get key => exact hq.elim
      | _ => rfl

end Programs

/-! ## Runs -/

section Runs

variable [IsStrictOrderedRing T] {rt : Runtime Tok T} {token : Tok} {c : Claims} {jti : String}
  {exp : Int} {srv srv' : AuthServer Tok T}

/-- Only requests whose tokens have identifiers of their own arrive. -/
def SoleJtis (rt : Runtime Tok T) (c : Claims) (_ : AuthServer Tok T) : AuthLabel Tok T → Prop
  | .act (.start r) => SoleJti rt c r
  | _ => True

/-- The clock does not pass `exp` while a call from number `n` on has decoded the token and not
    looked it up yet. -/
def Prompt (token : Tok) (exp : Int) (n : ℕ) (srv : AuthServer Tok T) : AuthLabel Tok T → Prop
  | .drift t => t ≤ (exp : T) ∨
      ∀ a ∈ srv.active, n ≤ a.tid → Verifies token a.req → looksUp a.prog = false
  | _ => True

theorem regime (hid : Identified rt.jwt token c jti exp) (hredis : rt.redis = true) :
    Regime (service rt) (fun _ => True) (Later jti exp) (fun tk _ _ _ => SoleJti rt c tk.req)
      (fun _ => Outlives jti exp)
      (fun tk t _ => Revokes token tk.req → Blacklisted jti exp t.1) where
  refl _ := ⟨le_refl _, id⟩
  trans _ _ _ hst htu := ⟨le_trans hst.1 htu.1, fun h => htu.2 (hst.2 h)⟩
  start tid r s _ := careful_program hid hredis tid r s
  query _ _ _ _ hasks := ⟨trivial, later_effect hasks⟩
  commit _ _ _ _ _ _ _ := ⟨trivial, le_refl _, id⟩

/-- What every state of a run has: careful programs, requests with identifiers of their own, and
    numbers. -/
structure Watched (rt : Runtime Tok T) (token : Tok) (c : Claims) (jti : String) (exp : Int)
    (srv : AuthServer Tok T) : Prop where
  kept : Regime.Kept (service rt) (fun _ => True) (Later jti exp)
    (fun tk _ _ _ => SoleJti rt c tk.req) (fun _ => Outlives jti exp)
    (fun tk t _ => Revokes token tk.req → Blacklisted jti exp t.1) srv
  sole : srv.Pending (SoleJti rt c)
  numbered : srv.Numbered

omit [IsStrictOrderedRing T] in
theorem watched_init (users : Users) (redis : Redis T) :
    Watched rt token c jti exp (Server.init users redis) :=
  ⟨Regime.kept_init trivial, pending_init users redis, numbered_init users redis⟩

theorem watched_drift (hid : Identified rt.jwt token c jti exp) (hredis : rt.redis = true) {t : T}
    {redis : Redis T} (h : Watched rt token c jti exp srv) (ht : srv.world.elapse t = some redis) :
    Watched rt token c jti exp { srv with world := redis } := by
  obtain ⟨hle, rfl⟩ := Keyspace.elapse_eq_some ht
  exact ⟨(regime hid hredis).kept_drift h.kept trivial ⟨hle, id⟩, h.sole,
    h.numbered.nodup, h.numbered.lt⟩

theorem watched_start (hid : Identified rt.jwt token c jti exp) (hredis : rt.redis = true)
    {r : AuthRequest Tok} (h : Watched rt token c jti exp srv) (hr : SoleJti rt c r) :
    Watched rt token c jti exp ((service rt).start srv r) :=
  ⟨(regime hid hredis).kept_start r h.kept, pending_start h.sole hr,
    numbered_step (l := .start r) h.numbered rfl⟩

theorem watched_move (hid : Identified rt.jwt token c jti exp) (hredis : rt.redis = true)
    {m : Move Unit} (h : Watched rt token c jti exp srv)
    (hm : (service rt).move srv m = some srv') : Watched rt token c jti exp srv' := by
  have hgood : GoodMove (fun tk _ _ _ => SoleJti rt c tk.req) srv srv.view m := by
    cases m with
    | advance i ω => exact fun a ha _ _ _ => h.sole a (List.mem_of_getElem? ha)
    | finish i => trivial
    | crash i => trivial
  exact ⟨(regime hid hredis).kept_move h.kept hgood hm, pending_move h.sole hm,
    numbered_step (l := .move m) h.numbered hm⟩

/-- The blacklist has the entry once a call that revokes the token has ended. -/
theorem Watched.blacklisted (hid : Identified rt.jwt token c jti exp) (hredis : rt.redis = true)
    (h : Watched rt token c jti exp srv) {r : AuthRequest Tok} {w : AuthResult Tok}
    (hcommitted : (r, w) ∈ srv.committed) (hrevokes : Revokes token r) :
    Blacklisted jti exp srv.world := by
  obtain ⟨e, he, rfl, hw⟩ := Server.mem_committed.mp hcommitted
  obtain ⟨tk, hreq, hpost⟩ := h.kept.committed (regime hid hredis) he hw
  exact hpost (hreq ▸ hrevokes)

omit [IsStrictOrderedRing T] in
/-- The entry stays. -/
theorem Watched.blacklisted_move {m : Move Unit} (h : Watched rt token c jti exp srv)
    (hblack : Blacklisted jti exp srv.world) (hm : (service rt).move srv m = some srv') :
    Blacklisted jti exp srv'.world := by
  obtain ⟨i, a, ha, ⟨ω, q, k, rfl, hp, rfl⟩ | ⟨w, db, rfl, -, -, rfl⟩ | ⟨v, -, rfl⟩⟩ :=
    Service.move_cases hm
  · have hcareful := h.kept.behave a (List.mem_of_getElem? ha)
    rw [hp] at hcareful
    obtain ⟨hasks, -⟩ := hcareful srv.view ⟨⟨le_refl _, id⟩, trivial⟩
    exact (later_effect hasks).2 hblack
  · exact hblack
  · exact hblack

/-- What every state has after the entry is there: the calls from number `n` on that verify the
    token come to their lookup by `exp`, end without success when they find the entry, and none
    has succeeded. -/
structure Shut (rt : Runtime Tok T) (token : Tok) (c : Claims) (jti : String) (exp : Int) (n : ℕ)
    (srv : AuthServer Tok T) : Prop where
  watched : Watched rt token c jti exp srv
  blacklisted : Blacklisted jti exp srv.world
  next : n ≤ srv.next
  gated : ∀ a ∈ srv.active, n ≤ a.tid → Verifies token a.req →
    Gated looksUp (fun _ _ => True) (InTime T exp) a.prog
  inTime : ∀ a ∈ srv.active, n ≤ a.tid → Verifies token a.req → looksUp a.prog = true →
    srv.world.now ≤ (exp : T)
  ends : srv.AllEnd (fun tk => n ≤ tk.tid ∧ Verifies token tk.req) (fun _ => Seen T jti)
    (fun _ _ => False) (fun _ _ => True)
  refused : ∀ e ∈ srv.log, n ≤ e.tid → Verifies token e.req → ∀ w, e.verdict ≠ .committed w

variable {n : ℕ}

omit [IsStrictOrderedRing T] in
/-- No call has started yet. -/
theorem shut_now (h : Watched rt token c jti exp srv) (hblack : Blacklisted jti exp srv.world) :
    Shut rt token c jti exp srv.next srv := by
  have hold : ∀ a ∈ srv.active, ¬ srv.next ≤ a.tid := fun a ha =>
    Nat.not_le.mpr (h.numbered.lt _ (List.mem_append_left _ (List.mem_map_of_mem ha)))
  refine ⟨h, hblack, Nat.le_refl _, fun a ha hn => absurd hn (hold a ha),
    fun a ha hn => absurd hn (hold a ha), fun a ha hn => absurd hn.1 (hold a ha), fun e he hn => ?_⟩
  exact absurd hn (Nat.not_le.mpr
    (h.numbered.lt _ (List.mem_append_right _ (List.mem_map_of_mem he))))

theorem shut_drift (hid : Identified rt.jwt token c jti exp) (hredis : rt.redis = true) {t : T}
    {redis : Redis T} (h : Shut rt token c jti exp n srv) (ht : srv.world.elapse t = some redis)
    (hprompt : Prompt token exp n srv (.drift t)) :
    Shut rt token c jti exp n { srv with world := redis } := by
  have hwatched := watched_drift hid hredis h.watched ht
  obtain ⟨-, rfl⟩ := Keyspace.elapse_eq_some ht
  refine ⟨hwatched, h.blacklisted, h.next, h.gated, fun a ha hn hv hlooks => ?_, h.ends, h.refused⟩
  rcases hprompt with hle | hnone
  · exact hle
  · exact absurd hlooks (Bool.eq_false_iff.mp (hnone a ha hn hv))

theorem shut_start (hid : Identified rt.jwt token c jti exp) (hredis : rt.redis = true)
    {r : AuthRequest Tok} (h : Shut rt token c jti exp n srv) (hr : SoleJti rt c r) :
    Shut rt token c jti exp n ((service rt).start srv r) where
  watched := watched_start hid hredis h.watched hr
  blacklisted := h.blacklisted
  next := Nat.le_succ_of_le h.next
  gated a ha hn hv := by
    rcases Service.mem_start ha with ha | rfl
    · exact h.gated a ha hn hv
    · exact verifying_gated hid hredis _ hv
  inTime a ha hn hv hlooks := by
    rcases Service.mem_start ha with ha | rfl
    · exact h.inTime a ha hn hv hlooks
    · obtain ⟨_, _, _, _, hprogram, -⟩ := verifying_steps hid hredis srv.next hv
      have hfirst : looksUp (program rt srv.next r) = true := hlooks
      rw [hprogram] at hfirst
      exact absurd hfirst Bool.false_ne_true
  ends := allEnd_start h.ends fun hwhich => verifying_ends hid hredis _ hwhich.2
  refused := h.refused

theorem shut_move (hid : Identified rt.jwt token c jti exp) (hredis : rt.redis = true)
    {m : Move Unit} (h : Shut rt token c jti exp n srv)
    (hm : (service rt).move srv m = some srv') : Shut rt token c jti exp n srv' := by
  have hblack := h.watched.blacklisted_move h.blacklisted hm
  have hwatched := watched_move hid hredis h.watched hm
  have hnext : n ≤ srv'.next := Service.move_next hm ▸ h.next
  obtain ⟨i, a, ha, ⟨ω, q, k, rfl, hp, rfl⟩ | ⟨w, db, rfl, hp, -, rfl⟩ | ⟨v, hv, rfl⟩⟩ :=
    Service.move_cases hm
  · have hmem := List.mem_of_getElem? ha
    have hgate : n ≤ a.tid → Verifies token a.req → Gated looksUp (fun _ _ => True) (InTime T exp)
        (Txn.ask q k) := fun hn hv => hp ▸ h.gated a hmem hn hv
    have hnow : (q.effect srv.world).now = srv.world.now := by
      cases q with
      | _ => rfl
    refine ⟨hwatched, hblack, hnext, fun b hb hn hv => ?_, fun b hb hn hv hlooks => ?_,
      ?_, h.refused⟩
    · rcases List.mem_or_eq_of_mem_set hb with hb | rfl
      · exact h.gated b hb hn hv
      · exact (hgate hn hv _ trivial).2
    · refine le_of_eq_of_le hnow ?_
      rcases List.mem_or_eq_of_mem_set hb with hb | rfl
      · exact h.inTime b hb hn hv hlooks
      · rcases (hgate hn hv _ trivial).1 hlooks with hbefore | hopens
        · exact h.inTime a hmem hn hv (hp ▸ hbefore)
        · cases q with
          | jwtNow => exact le_of_lt hopens
          | _ => exact hopens.elim
    · refine allEnd_move h.ends hm fun b hb q' k' hp' hwhich => ?_
      cases q' with
      | get key =>
        rintro rfl
        exact get_of_blacklisted h.blacklisted
          (h.inTime b (List.mem_of_getElem? hb) hwhich.1 hwhich.2 (hp' ▸ rfl))
      | _ => trivial
  · refine ⟨hwatched, hblack, hnext, fun b hb => h.gated b (List.mem_of_mem_eraseIdx hb),
      fun b hb => h.inTime b (List.mem_of_mem_eraseIdx hb),
      fun b hb => h.ends b (List.mem_of_mem_eraseIdx hb), ?_⟩
    refine List.forall_mem_cons.mpr ⟨fun hn hv => ?_, h.refused⟩
    exact (allEnd_done h.ends (List.mem_of_getElem? ha) ⟨hn, hv⟩ hp).elim
  · refine ⟨hwatched, hblack, hnext, fun b hb => h.gated b (List.mem_of_mem_eraseIdx hb),
      fun b hb => h.inTime b (List.mem_of_mem_eraseIdx hb),
      fun b hb => h.ends b (List.mem_of_mem_eraseIdx hb), ?_⟩
    exact List.forall_mem_cons.mpr ⟨fun _ _ => hv, h.refused⟩

/-- Once `logout` or `refresh_tokens` has revoked a token, no call that starts later succeeds with
    it, unless the clock passes `exp` while the call is between decoding the token and looking it
    up. -/
theorem revocation_permanent (hjwt : rt.jwt.Sound) (hredis : rt.redis = true)
    (hissued : Issued rt.jwt token c) (hexp : c.exp = some exp) {users : Users} {redis : Redis T}
    {ls ls' : List (AuthLabel Tok T)}
    (h : Reaches ((service rt).stepIn Keyspace.elapse) (SoleJtis rt c) (Server.init users redis) ls
      srv)
    {r : AuthRequest Tok} {w : AuthResult Tok} (hcommitted : (r, w) ∈ srv.committed)
    (hrevokes : Revokes token r) (h' : Reaches ((service rt).stepIn Keyspace.elapse)
      (fun s l => SoleJtis rt c s l ∧ Prompt token exp srv.next s l) srv ls' srv') :
    ∀ e ∈ srv'.log, srv.next ≤ e.tid → Verifies token e.req → ∀ w', e.verdict ≠ .committed w' := by
  obtain ⟨jti, exp', hid⟩ := hissued.identified hjwt
  obtain rfl : exp' = exp := Option.some.inj (hid.exp_eq.symm.trans hexp)
  have hwatched : Watched rt token c jti exp' srv := by
    refine h.inEnvironment _ (watched_init users redis) ?_ ?_ ?_
    · exact fun s t x hs _ ht => watched_drift hid hredis hs ht
    · exact fun s r hs hr => watched_start hid hredis hs hr
    · exact fun s m s' hs _ hm => watched_move hid hredis hs hm
  have hshut : Shut rt token c jti exp' srv.next srv' := by
    refine h'.inEnvironment _ (shut_now hwatched
      (hwatched.blacklisted hid hredis hcommitted hrevokes))
      ?_ ?_ ?_
    · exact fun s t x hs hok ht => shut_drift hid hredis hs ht hok.2
    · exact fun s r hs hok => shut_start hid hredis hs hok.1
    · exact fun s m s' hs _ hm => shut_move hid hredis hs hm
  exact hshut.refused

end Runs

/-! ## A token that is used after logout -/

instance {Tok : Type} [DecidableEq Tok] (token : Tok) : DecidablePred (Verifies token)
  | .refreshTokens token' => inferInstanceAs (Decidable (token' = token))
  | .logout _ => isFalse id
  | .getCurrentUserFromToken token' => inferInstanceAs (Decidable (token' = token))
  | .decodeAndVerifyToken token' _ redisClient _ _ =>
    inferInstanceAs (Decidable (token' = token ∧ redisClient = true))

instance {Tok T : Type} [Ring T] [LinearOrder T] [FloorRing T] [DecidableEq Tok] (token : Tok)
    (exp : Int) (n : ℕ) (srv : AuthServer Tok T) (l : AuthLabel Tok T) :
    Decidable (Prompt token exp n srv l) :=
  match l with
  | .drift t => inferInstanceAs (Decidable (t ≤ (exp : T) ∨
      ∀ a ∈ srv.active, n ≤ a.tid → Verifies token a.req → looksUp a.prog = false))
  | .act _ => isTrue trivial

/-- The requests that arrive are about the token. -/
def Presents {Tok T : Type} (token : Tok) : AuthLabel Tok T → Prop
  | .act (.start r) => r.token = token
  | _ => True

instance {Tok T : Type} [DecidableEq Tok] (token : Tok) (l : AuthLabel Tok T) :
    Decidable (Presents token l) :=
  match l with
  | .act (.start r) => inferInstanceAs (Decidable (r.token = token))
  | .act (.move _) => isTrue trivial
  | .drift _ => isTrue trivial

omit [FloorRing T] in
theorem soleJtis_of_presents {rt : Runtime Tok T} {token : Tok} {c : Claims} {jti : String}
    {exp : Int} (hid : Identified rt.jwt token c jti exp) {srv : AuthServer Tok T}
    {l : AuthLabel Tok T} (h : Presents token l) : SoleJtis rt c srv l := by
  unfold SoleJtis
  split
  · next r =>
    obtain rfl : r.token = token := h
    exact fun _ _ hdecode _ => (hid.decode_eq hdecode).1
  · trivial

/-- The claims of the access token, which lives for 900 seconds. -/
def loginClaims : Claims := loginArgs.accessClaims (0 : ℚ) (uuidOf 0)

theorem issued_loginPair : Issued signedRuntime.jwt loginPair.1 loginClaims :=
  ⟨loginArgs, 0, uuidOf 0, uuidOf 1, .inl ⟨rfl, rfl⟩⟩

/-- The access token is logged out. -/
def loggedOut : List (AuthLabel (Claims × String × String) ℚ) :=
  [.act (.start (.logout loginPair.1)), reply 0, reply 0, reply 0, ends 0]

/-- The access token is presented to `decode_and_verify_token`. -/
def verified : AuthLabel (Claims × String × String) ℚ :=
  .act (.start (.decodeAndVerifyToken loginPair.1 loginArgs.secretKey true "HS256" "access"))

theorem soleJtis_login {ls : List (AuthLabel (Claims × String × String) ℚ)}
    (h : ∀ l ∈ ls, Presents loginPair.1 l) (srv : AuthServer (Claims × String × String) ℚ) :
    AllSteps ((service signedRuntime).stepIn Keyspace.elapse)
      (SoleJtis signedRuntime loginClaims) srv
      ls := by
  obtain ⟨jti, exp, hid⟩ := issued_loginPair.identified signedJwt_sound
  exact allSteps_of_forall (fun _ l hl => soleJtis_of_presents hid (h l hl)) srv

/-- It is used in the last second of its life, with the lookup at its very end, and after it. -/
def usedAfterLogout : List (AuthLabel (Claims × String × String) ℚ) :=
  [.drift (1799 / 2), .act (.start (.getCurrentUserFromToken loginPair.1)), reply 0, .drift 900,
    reply 0, ends 0, .drift 901, verified, reply 0, ends 0]

theorem revocation_permanent_usedAfterLogout : ∃ srv srv',
    Reaches ((service signedRuntime).stepIn Keyspace.elapse) (SoleJtis signedRuntime loginClaims)
      (Server.init .empty (.empty 0)) loggedOut srv ∧
    (.logout loginPair.1, .loggedOut) ∈ srv.committed ∧
    Reaches ((service signedRuntime).stepIn Keyspace.elapse)
      (fun s l => SoleJtis signedRuntime loginClaims s l ∧ Prompt loginPair.1 900 srv.next s l) srv
      usedAfterLogout srv' ∧ srv'.log.length = 3 ∧
    ∀ e ∈ srv'.log, srv.next ≤ e.tid → Verifies loginPair.1 e.req →
      ∀ w, e.verdict ≠ .committed w := by
  obtain ⟨srv, hrun, hcommitted, hprompt, hended⟩ : ∃ srv, Reaches ((service
      signedRuntime).stepIn Keyspace.elapse) (SoleJtis signedRuntime loginClaims)
      (Server.init .empty (.empty 0)) loggedOut srv ∧
      (.logout loginPair.1, .loggedOut) ∈ srv.committed ∧
      AllSteps ((service signedRuntime).stepIn Keyspace.elapse)
        (Prompt loginPair.1 900 srv.next) srv
        usedAfterLogout ∧
      ∃ srv' ∈ runFrom ((service signedRuntime).stepIn Keyspace.elapse) srv usedAfterLogout,
        srv'.log.length = 3 :=
    reaches_where (soleJtis_login (by decide +kernel) _) (by decide +kernel)
  obtain ⟨srv', hrun', hlog⟩ :=
    reaches_where (allSteps_and (soleJtis_login (by decide +kernel) srv) hprompt) hended
  exact ⟨srv, srv', hrun, hcommitted, hrun', hlog, revocation_permanent signedJwt_sound rfl
    issued_loginPair (by decide +kernel) hrun hcommitted (.inl rfl) hrun'⟩

/-- A call from number `n` on has succeeded with the token. -/
def Succeeds {Tok : Type} (token : Tok) (n : ℕ) (w : AuthResult Tok)
    (e : Entry (AuthRequest Tok) AuthExc (AuthResult Tok)) : Prop :=
  n ≤ e.tid ∧ Verifies token e.req ∧ e.verdict = .committed w

instance {Tok : Type} [DecidableEq Tok] (token : Tok) (n : ℕ) (w : AuthResult Tok)
    (e : Entry (AuthRequest Tok) AuthExc (AuthResult Tok)) : Decidable (Succeeds token n w e) :=
  inferInstanceAs (Decidable (_ ∧ _ ∧ _))

/-- The access token is decoded in the last second of its life, and looked up after it. -/
def straddled : List (AuthLabel (Claims × String × String) ℚ) :=
  [.drift (1799 / 2), verified, reply 0, .drift (1801 / 2), reply 0, ends 0]

/-- Revocation is not permanent. -/
theorem accepted_after_expiry : ¬ ∀ (rt : Runtime (Claims × String × String) ℚ), rt.jwt.Sound →
    rt.redis = true → ∀ token c, Issued rt.jwt token c → ∀ (users : Users) (redis : Redis ℚ)
      (ls ls' : List (AuthLabel (Claims × String × String) ℚ))
      (srv srv' : AuthServer (Claims × String × String) ℚ),
      Reaches ((service rt).stepIn Keyspace.elapse) (SoleJtis rt c)
        (Server.init users redis) ls srv →
      ∀ r w, (r, w) ∈ srv.committed → Revokes token r →
      Reaches ((service rt).stepIn Keyspace.elapse) (SoleJtis rt c) srv ls' srv' →
      ∀ e ∈ srv'.log, srv.next ≤ e.tid → Verifies token e.req →
        ∀ w', e.verdict ≠ .committed w' := by
  intro hevery
  obtain ⟨srv, hrun, hcommitted, hstraddled⟩ : ∃ srv, Reaches ((service
      signedRuntime).stepIn Keyspace.elapse) (SoleJtis signedRuntime loginClaims)
      (Server.init .empty (.empty 0)) loggedOut srv ∧
      (.logout loginPair.1, .loggedOut) ∈ srv.committed ∧
      ∃ srv' ∈ runFrom ((service signedRuntime).stepIn Keyspace.elapse) srv straddled,
        ∃ e ∈ srv'.log, Succeeds loginPair.1 srv.next (.claims loginClaims) e :=
    reaches_where (soleJtis_login (by decide +kernel) _) (by decide +kernel)
  obtain ⟨srv', hrun', e, he, hnext, hverifies, hsucceeds⟩ :=
    reaches_where (soleJtis_login (by decide +kernel) srv) hstraddled
  exact hevery signedRuntime signedJwt_sound rfl _ _ issued_loginPair _ _ _ _ srv srv' hrun _ _
    hcommitted (.inl rfl) hrun' e he hnext hverifies _ hsucceeds

end CloudScale.AuthService
