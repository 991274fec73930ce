/-
  Refresh tokens and how often each can be used (`refresh_tokens` in `auth/app/service.py`).

  A call looks the blacklist up and then sets the entry, in two commands. `LookupUnraced` rules the
  bad cases out: no call looks the token up while another that has found it absent is still in
  flight, nor after the entry of an earlier one has expired. `refresh_single_use`: then at most one
  call returns a new pair and every other one is refused. `refresh_raced` is two calls that overlap.
-/
import CloudScale.AuthService.Handlers
import CloudScale.Lib.Exclusive
import Mathlib.Data.Rat.Floor

namespace CloudScale.AuthService

open CloudScale.Lib

section Programs

variable {Tok T : Type} [Ring T] [LinearOrder T] [FloorRing T] {rt : Runtime Tok T}

/-- The part of `refresh_tokens` after the lookup. -/
def rotate (rt : Runtime Tok T) (tid : ℕ) (payload : Claims) (jti : String) :
    AuthTxn T (AuthResult Tok) := do
  revokeForLife payload jti
  return .tokens (← issue rt tid payload)

/-- `refresh_tokens` once its token is decoded. -/
def rotateUnlessRevoked (rt : Runtime Tok T) (tid : ℕ) (payload : Claims) :
    AuthTxn T (AuthResult Tok) :=
  match payload.blacklistJti rt.redis with
  | some jti => .ask (.get (revokedKey jti)) fun (found : Option String) =>
    if found.isSome then .raise (.unauthorizedException "Refresh token has been revoked")
    else rotate rt tid payload jti
  | none => do return .tokens (← issue rt tid payload)

theorem program_refresh {tid : ℕ} {token : Tok} :
    program rt tid (.refreshTokens token) = .ask .jwtNow fun now =>
      onPayload (decodeToken rt.jwt now token rt.settings.jwtSecretKey rt.settings.jwtAlgorithm
        "refresh") (rotateUnlessRevoked rt tid) := by
  show refreshTokens rt tid token >>= _ = _
  unfold refreshTokens
  rw [Txn.bind_assoc, decode_bind]
  refine congrArg (Txn.ask _) (funext fun now => congrArg (onPayload _) (funext fun payload => ?_))
  unfold rotateUnlessRevoked
  cases payload.blacklistJti rt.redis with
  | none => rfl
  | some jti =>
    refine congrArg (Txn.ask _) (funext fun (found : Option String) => ?_)
    cases found with
    | none => rfl
    | some value => rfl

theorem rotateUnlessRevoked_some {tid : ℕ} {payload : Claims} {jti : String}
    (h : payload.blacklistJti rt.redis = some jti) : rotateUnlessRevoked rt tid payload =
      .ask (.get (revokedKey jti)) fun (found : Option String) =>
        if found.isSome then .raise (.unauthorizedException "Refresh token has been revoked")
        else rotate rt tid payload jti := by
  unfold rotateUnlessRevoked
  rw [h]

/-- Whatever the token is decoded to as a refresh token is looked up under `jti`. -/
def Tracked (rt : Runtime Tok T) (token : Tok) (jti : String) : Prop :=
  ∀ now payload, decodeToken rt.jwt now token rt.settings.jwtSecretKey rt.settings.jwtAlgorithm
    "refresh" = .ok payload → payload.blacklistJti rt.redis = some jti

/-- The refresh token of a pair is looked up under the identifier it was given. -/
theorem tracked_refresh (hjwt : rt.jwt.Sound) (hredis : rt.redis = true) (args : TokenPairArgs)
    (issued : T) (jtiAccess jtiRefresh : Uuid) :
    Tracked rt (createTokenPair rt.jwt args issued jtiAccess jtiRefresh).2 jtiRefresh.text := by
  intro now payload h
  obtain ⟨rfl, -⟩ := hjwt.decode_encode (decodeToken_eq_ok h).1
  rw [hredis]
  exact blacklistJti_claims args issued _ jtiRefresh "refresh"

variable {token : Tok} {jti : String}

/-- The entry of the token is set. -/
def setsEntry (jti : String) : AuthQuery → Prop
  | .set key _ _ => key = revokedKey jti
  | _ => False

/-- The entry is set before a pair is returned. -/
theorem refresh_sets (h : Tracked rt token jti) (tid : ℕ) :
    Ends (fun q _ => ¬ setsEntry jti q) (fun _ => False) (fun _ => True)
      (program rt tid (.refreshTokens token)) := by
  rw [program_refresh]
  intro now _
  beta_reduce
  cases hdecode : decodeToken rt.jwt now token rt.settings.jwtSecretKey rt.settings.jwtAlgorithm
    "refresh" with
  | error e => trivial
  | ok payload =>
    simp only [onPayload, rotateUnlessRevoked_some (h now payload hdecode)]
    intro found _
    cases found with
    | some value => trivial
    | none => exact fun now' _ _ hset => absurd rfl hset

/-- A call returns a pair or refuses the token. -/
theorem refresh_ends (tid : ℕ) : Ends (fun _ _ => True) (fun w => ∃ pair, w = .tokens pair)
    (fun e => ∃ message, e = .unauthorizedException message)
    (program rt tid (.refreshTokens token)) := by
  rw [program_refresh]
  intro now _
  beta_reduce
  cases hdecode : decodeToken rt.jwt now token rt.settings.jwtSecretKey rt.settings.jwtAlgorithm
    "refresh" with
  | error e => exact decodeToken_error hdecode
  | ok payload =>
    unfold onPayload rotateUnlessRevoked
    dsimp only
    cases payload.blacklistJti rt.redis with
    | none => exact fun now' _ => ⟨_, rfl⟩
    | some jti =>
      intro found _
      cases found with
      | some value => exact ⟨_, rfl⟩
      | none => exact fun now' _ _ _ now'' _ => ⟨_, rfl⟩

/-- The program has passed its lookup. -/
def afterLookup : AuthTxn T (AuthResult Tok) → Bool
  | .ask .jwtNow _ => false
  | .ask (.get _) _ => false
  | .raise _ => false
  | _ => true

variable [DecidableEq Tok]

/-- The calls for the token that have passed their lookup. -/
def passed (token : Tok) (r : AuthRequest Tok) (p : AuthTxn T (AuthResult Tok)) : Bool :=
  decide (r = .refreshTokens token) && afterLookup p

/-- The lookup of a call for the token finds no entry. -/
def foundAbsent (T : Type) (token : Tok) (jti : String) (r : AuthRequest Tok) :
    (q : AuthQuery) → AuthAnswer T q → Prop
  | .get key, found => r = .refreshTokens token ∧ key = revokedKey jti ∧ found = none
  | _, _ => False

theorem refresh_gated (h : Tracked rt token jti) (tid : ℕ) :
    Gated (passed token (.refreshTokens token)) (fun _ _ => True)
      (foundAbsent T token jti (.refreshTokens token)) (program rt tid (.refreshTokens token)) := by
  have hnot : ∀ {p : AuthTxn T (AuthResult Tok)} {P : Prop}, afterLookup p = false →
      passed token (.refreshTokens token) p = true → P := fun hp hpast =>
    absurd (hp ▸ (Bool.and_eq_true_iff.mp hpast).2) Bool.false_ne_true
  rw [program_refresh]
  intro now _
  beta_reduce
  cases hdecode : decodeToken rt.jwt now token rt.settings.jwtSecretKey rt.settings.jwtAlgorithm
    "refresh" with
  | error e => exact ⟨hnot rfl, trivial⟩
  | ok payload =>
    simp only [onPayload, rotateUnlessRevoked_some (h now payload hdecode)]
    refine ⟨hnot rfl, fun (found : Option String) _ => ?_⟩
    cases found with
    | some value => exact ⟨hnot rfl, trivial⟩
    | none =>
      -- the clock, the entry, the clock again: past the lookup to the end
      have hpast : ∀ {q : AuthQuery} {k},
          afterLookup (.ask q k : AuthTxn T (AuthResult Tok)) = true →
          passed token (.refreshTokens token) (.ask q k) = true := fun hq => by simp [passed, hq]
      refine ⟨fun _ => .inr ⟨rfl, rfl, rfl⟩, fun now' _ =>
        ⟨fun _ => .inl (hpast rfl), fun _ _ => ?_⟩⟩
      exact ⟨fun _ => .inl (hpast rfl), fun now'' _ => ⟨fun _ => .inl (hpast rfl), trivial⟩⟩

variable (rt) in
/-- Calls for the token take a new pair, and mark its entry in the blacklist. -/
def rotation (h : Tracked rt token jti) : MarkCheck (service rt) where
  past := passed token
  absent := foundAbsent T token jti
  takes r _ := decide (r = .refreshTokens token)
  sets := setsEntry jti
  marked redis := redis.entries (revokedKey jti) ≠ none
  admits _ := True
  keeps _ := True
  gated tid r := by
    by_cases hr : r = .refreshTokens token
    · rw [hr]
      exact refresh_gated h tid
    · exact gated_of_never (fun p => by simp [passed, hr]) _
  start tid r := by
    by_cases hr : r = .refreshTokens token
    · subst hr
      show passed token (.refreshTokens token) (program rt tid (.refreshTokens token)) = false
      rw [program_refresh]
      simp [passed, afterLookup]
    · simp [passed, hr]
  ends tid r := by
    by_cases hr : r = .refreshTokens token
    · subst hr
      exact (refresh_sets h tid).imp (fun _ hf => hf.elim) fun _ he => he
    · exact ends_of_forall (fun _ => by simp [hr]) (fun _ => trivial) _
  takes_past r w hr := by
    obtain rfl := of_decide_eq_true hr
    simp [passed, afterLookup]
  effect_sets q redis hq := by
    cases q with
    | set key value ex =>
      obtain rfl : key = revokedKey jti := hq
      simp [service, AuthQuery.effect, Keyspace.set]
    | _ => exact hq.elim
  asks _ _ _ := Txn.asks_of_forall (fun _ => trivial) _
  effect_marked q redis _ hmarked := by
    cases q with
    | set key value ex =>
      by_cases hkey : revokedKey jti = key
      · simp [service, AuthQuery.effect, Keyspace.set, hkey]
      · simpa [service, AuthQuery.effect, Keyspace.set, hkey] using hmarked
    | _ => exact hmarked

end Programs

/-! ## Runs -/

section Runs

variable {Tok T : Type} [Ring T] [LinearOrder T] [FloorRing T] [DecidableEq Tok]
  {rt : Runtime Tok T} {token : Tok}

/-- A call for the token looks it up when its entry is there, or when none has been set and no other
    call for it is past its lookup. -/
def LookupUnraced (token : Tok) (jti : String) (srv : AuthServer Tok T) : AuthLabel Tok T → Prop
  | .act (.move (.advance i _)) => match srv.active[i]? with
    | some a => match a.prog with
      | .ask (.get _) _ => a.req = .refreshTokens token →
          (srv.world.get (revokedKey jti)).isSome = true ∨
            srv.world.entries (revokedKey jti) = none ∧ srv.inStage (passed token) = 0
      | _ => True
    | none => True
  | _ => True

/-- The calls for the token that have returned a pair. -/
def refreshed (token : Tok) (srv : AuthServer Tok T) : ℕ :=
  srv.committed.countP fun rw => decide (rw.1 = .refreshTokens token)

theorem unraced_of_lookup {jti : String} (htracked : Tracked rt token jti) {srv : AuthServer Tok T}
    {m : Move Unit} (h : LookupUnraced token jti srv (.act (.move m))) :
    (rotation rt htracked).Unraced srv m := by
  cases m with
  | advance i ω =>
    intro a ha q k hp habsent
    cases q with
    | get key =>
      obtain ⟨hreq, rfl, hnone⟩ := habsent
      have hnone' : srv.world.get (revokedKey jti) = none := hnone
      simp only [LookupUnraced, ha, hp] at h
      rcases h hreq with hsome | ⟨hentries, hstage⟩
      · rw [hnone'] at hsome
        exact absurd hsome (by decide)
      · exact ⟨not_not.mpr hentries, hstage⟩
    | _ => exact habsent.elim
  | finish i => trivial
  | crash i => trivial

/-- In every run in which no lookup of a refresh token is raced, at most one call returns a new pair
    for it, and every other one that ends (unless its process dies) raises
    `UnauthorizedException`. -/
theorem refresh_single_use (hjwt : rt.jwt.Sound) (hredis : rt.redis = true) {args : TokenPairArgs}
    {issued : T} {jtiAccess jtiRefresh : Uuid}
    (htoken : (createTokenPair rt.jwt args issued jtiAccess jtiRefresh).2 = token) {users : Users}
    {redis : Redis T} {ls : List (AuthLabel Tok T)} {srv : AuthServer Tok T}
    (h : Reaches ((service rt).stepIn Keyspace.elapse) (LookupUnraced token jtiRefresh.text)
      (Server.init users redis) ls srv) :
    refreshed token srv ≤ 1 ∧ ∀ e ∈ srv.log, e.req = .refreshTokens token →
      (∃ pair, e.verdict = .committed (.tokens pair)) ∨
        (∃ message, e.verdict = .raised (.unauthorizedException message)) ∨
        e.verdict = .crashed := by
  have htracked : Tracked rt token jtiRefresh.text :=
    htoken ▸ tracked_refresh hjwt hredis args issued jtiAccess jtiRefresh
  refine ⟨?_, fun e he hreq => ?_⟩
  · refine (rotation rt htracked).taken_le_one h (fun s t redis' _ helapse hmarked => ?_)
      (fun _ _ _ => trivial) fun s m hok => unraced_of_lookup htracked hok
    obtain ⟨-, rfl⟩ := Keyspace.elapse_eq_some helapse
    exact hmarked
  · have hended := ended_inEnvironment (S := service rt)
      (P := fun r w => r = .refreshTokens token → ∃ pair, w = .tokens pair)
      (E := fun r x => r = .refreshTokens token → ∃ message, x = .unauthorizedException message)
      (fun tid r => ?_) h e he
    · cases hv : e.verdict with
      | committed w =>
        rw [hv] at hended
        obtain ⟨pair, rfl⟩ := hended hreq
        exact .inl ⟨pair, rfl⟩
      | rejected w =>
        rw [hv] at hended
        obtain ⟨-, db, hdb⟩ := hended
        cases hdb
      | raised x =>
        rw [hv] at hended
        obtain ⟨message, rfl⟩ := hended hreq
        exact .inr (.inl ⟨message, rfl⟩)
      | crashed => exact .inr (.inr rfl)
    · by_cases hr : r = .refreshTokens token
      · subst hr
        exact (refresh_ends tid).imp (fun _ hw _ => hw) fun _ hx _ => hx
      · exact ends_of_forall (fun _ h => absurd h hr) (fun _ h => absurd h hr) _

end Runs

/-! ## Two calls -/

instance {Tok T : Type} [Ring T] [LinearOrder T] [FloorRing T] [DecidableEq Tok] (token : Tok)
    (jti : String) (srv : AuthServer Tok T) (l : AuthLabel Tok T) :
    Decidable (LookupUnraced token jti srv l) := by
  unfold LookupUnraced
  repeat' split
  all_goals infer_instance

/-- The `n`-th of some uuids. -/
def uuidOf (n : ℕ) : Uuid where
  text := String.ofList (((toString n).toList ++ List.replicate 36 '-').take 36)
  length_text := by simp

/-- A service with Redis whose tokens are signed claims. -/
def signedRuntime : Runtime (Claims × String × String) ℚ where
  jwt := signedJwt
  uuid4 tid n := uuidOf (2 * tid + n + 2)
  parseUuid := some
  settings := {}
  redis := true

/-- The pair of a user who has just logged in. -/
def loginArgs : TokenPairArgs :=
  { userId := "user-1", role := "shopper", secretKey := signedRuntime.settings.jwtSecretKey }

def loginPair : (Claims × String × String) × Claims × String × String :=
  createTokenPair signedRuntime.jwt loginArgs 0 (uuidOf 0) (uuidOf 1)

/-- The next query of the call at place `i` is answered. -/
def reply (i : ℕ) : AuthLabel (Claims × String × String) ℚ := .act (.move (.advance i ()))

def ends (i : ℕ) : AuthLabel (Claims × String × String) ℚ := .act (.move (.finish i))

/-- The refresh token of the pair is presented. -/
def presented : AuthLabel (Claims × String × String) ℚ := .act (.start (.refreshTokens loginPair.2))

/-- The refresh token is used, and used again a second later. -/
def replayedToken : List (AuthLabel (Claims × String × String) ℚ) :=
  [presented, reply 0, reply 0, reply 0, reply 0, reply 0, ends 0, .drift 1, presented, reply 0,
    reply 0, ends 0]

theorem refresh_single_use_replayed : ∃ srv,
    Reaches ((service signedRuntime).stepIn Keyspace.elapse)
      (LookupUnraced loginPair.2 (uuidOf 1).text) (Server.init .empty (.empty 0)) replayedToken
      srv ∧ srv.log.length = 2 ∧
    refreshed loginPair.2 srv ≤ 1 ∧ ∀ e ∈ srv.log, e.req = .refreshTokens loginPair.2 →
      (∃ pair, e.verdict = .committed (.tokens pair)) ∨
        (∃ message, e.verdict = .raised (.unauthorizedException message)) ∨
        e.verdict = .crashed := by
  obtain ⟨srv, hrun, hlog⟩ : ∃ srv, Reaches ((service signedRuntime).stepIn Keyspace.elapse)
      (LookupUnraced loginPair.2 (uuidOf 1).text) (Server.init .empty (.empty 0)) replayedToken
      srv ∧ srv.log.length = 2 :=
    reaches_where (by decide +kernel) (by decide +kernel)
  exact ⟨srv, hrun, hlog, refresh_single_use signedJwt_sound rfl rfl hrun⟩

/-- The refresh token is presented twice, and both calls look it up before either revokes it. -/
def racedToken : List (AuthLabel (Claims × String × String) ℚ) :=
  [presented, presented, reply 0, reply 0, reply 1, reply 1, reply 0, reply 0, reply 0, ends 0,
    reply 0, reply 0, reply 0, ends 0]

/-- A refresh token can be used more than once. -/
theorem refresh_raced : ¬ ∀ (rt : Runtime (Claims × String × String) ℚ), rt.jwt.Sound →
    rt.redis = true → ∀ (args : TokenPairArgs) (issued : ℚ) (jtiAccess jtiRefresh : Uuid)
      (users : Users) (redis : Redis ℚ) (ls : List (AuthLabel (Claims × String × String) ℚ))
      (srv : AuthServer (Claims × String × String) ℚ),
      Reaches ((service rt).stepIn Keyspace.elapse) anyStep (Server.init users redis) ls srv →
      refreshed (createTokenPair rt.jwt args issued jtiAccess jtiRefresh).2 srv ≤ 1 := by
  intro hevery
  obtain ⟨srv, hrun, hcount⟩ : ∃ srv, Reaches ((service signedRuntime).stepIn Keyspace.elapse)
      anyStep (Server.init .empty (.empty 0)) racedToken srv ∧ refreshed loginPair.2 srv = 2 :=
    reaches_where (allSteps_of_forall (fun _ _ _ => trivial) _) (by decide +kernel)
  have hone := hevery signedRuntime signedJwt_sound rfl loginArgs 0 (uuidOf 0) (uuidOf 1) _ _ _ srv
    hrun
  have htwo :
      refreshed (createTokenPair signedRuntime.jwt loginArgs 0 (uuidOf 0) (uuidOf 1)).2 srv =
      2 := hcount
  omega

end CloudScale.AuthService
