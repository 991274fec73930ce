/-
  The operations on tokens: `refresh_tokens`, `logout` and `get_current_user_from_token`
  (`auth/app/service.py`), and `decode_and_verify_token` (`cloudscale_shared/security.py`).

  Each reads the clock, asks Redis and ends; every command is a step of its own. The blacklist is a
  `Keyspace` whose clock is the one the service reads. A command that Redis fails raises, which no
  request survives: it is a crash here.
-/
import CloudScale.AuthService.Tokens
import CloudScale.Lib.Environment
import CloudScale.Lib.Keyspace
import CloudScale.Lib.Table

namespace CloudScale.AuthService

open CloudScale.Lib

structure User where
  id : String
  email : String
  passwordHash : String
  firstName : Option String
  lastName : Option String
  role : String
deriving DecidableEq

abbrev Users := Table String User User.id

/-- The values in Redis, by key. -/
abbrev Redis (T : Type) := Keyspace String String T

/-! ## Queries -/

/-- `jwtNow` is the time that `jwt.decode` reads, `utcNow` is `datetime.now(UTC)`. -/
inductive AuthQuery where
  | jwtNow
  | utcNow
  | get (key : String)
  | set (key value : String) (ex : Int)
  | userById (id : String)

abbrev AuthAnswer (T : Type) : AuthQuery → Type
  | .jwtNow => T
  | .utcNow => T
  | .get _ => Option String
  | .set _ _ _ => Unit
  | .userById _ => Option User

abbrev AuthTxn (T R : Type) := Txn AuthQuery (AuthAnswer T) AuthExc R

section Queries

variable {T : Type}

def jwtNow : AuthTxn T T := Txn.query AuthQuery.jwtNow

def utcNow : AuthTxn T T := Txn.query AuthQuery.utcNow

def redisGet (key : String) : AuthTxn T (Option String) := Txn.query (AuthQuery.get key)

def redisSet (key value : String) (ex : Int) : AuthTxn T Unit :=
  Txn.query (AuthQuery.set key value ex)

/-- `session.get(User, id)`. -/
def getById (id : String) : AuthTxn T (Option User) := Txn.query (AuthQuery.userById id)

/-- `is_token_revoked`. -/
def isTokenRevoked (jti : String) : AuthTxn T Bool := do
  return (← redisGet (revokedKey jti)).isSome

/-- `revoke_token`. -/
def revokeToken (jti : String) (ttlSeconds : Int) : AuthTxn T Unit :=
  redisSet (revokedKey jti) "1" ttlSeconds

end Queries

/-! ## Operations -/

structure Settings where
  jwtSecretKey : String := "dev-jwt-secret-key-min-32-characters-long"
  jwtAlgorithm : String := "HS256"
  accessTokenExpireMinutes : Int := 15
  refreshTokenExpireDays : Int := 7

/-- What the service runs on: the JWT library, the uuids that a call draws, `uuid.UUID` (`none`: a
    `ValueError`), the settings and whether Redis is configured. -/
structure Runtime (Tok T : Type) where
  jwt : Jwt Tok T
  uuid4 : ℕ → ℕ → Uuid
  parseUuid : String → Option String
  settings : Settings
  redis : Bool

structure TokenResponse (Tok : Type) where
  accessToken : Tok
  refreshToken : Tok
  tokenType : String := "bearer"
deriving DecidableEq

section Operations

variable {Tok T : Type} [Ring T] [LinearOrder T] [FloorRing T] (rt : Runtime Tok T)

omit [Ring T] [LinearOrder T] [FloorRing T] in
/-- `decode_token`, at the time `jwt.decode` reads. -/
def decode (token : Tok) (secretKey algorithm expectedType : String) : AuthTxn T Claims := do
  match decodeToken rt.jwt (← jwtNow) token secretKey algorithm expectedType with
  | .ok payload => return payload
  | .error e => .raise e

/-- Blacklist the token for the rest of its life, and for a second at least. -/
def revokeForLife (payload : Claims) (jti : String) : AuthTxn T Unit := do
  let exp := payload.exp.getD 0
  let now : T ← utcNow
  revokeToken jti (max (exp - ⌊now⌋) 1)

/-- `create_token_pair` for the owner of a refresh token. -/
def issue (tid : ℕ) (payload : Claims) : AuthTxn T (TokenResponse Tok) := do
  let sub := payload.sub.getD ""
  let args : TokenPairArgs :=
    { userId := sub, role := payload.role.getD "shopper", secretKey := rt.settings.jwtSecretKey
      algorithm := rt.settings.jwtAlgorithm
      accessExpireMinutes := rt.settings.accessTokenExpireMinutes
      refreshExpireDays := rt.settings.refreshTokenExpireDays
      tenantId := some (payload.tenantId.getD sub) }
  let (access, refresh) := createTokenPair rt.jwt args (← utcNow) (rt.uuid4 tid 0) (rt.uuid4 tid 1)
  return { accessToken := access, refreshToken := refresh }

/-- `refresh_tokens`. -/
def refreshTokens (tid : ℕ) (token : Tok) : AuthTxn T (TokenResponse Tok) := do
  let payload ← decode rt token rt.settings.jwtSecretKey rt.settings.jwtAlgorithm "refresh"
  match payload.blacklistJti rt.redis with
  | some jti =>
    if ← isTokenRevoked jti then .raise (.unauthorizedException "Refresh token has been revoked")
    else
      revokeForLife payload jti
      issue rt tid payload
  | none => issue rt tid payload

/-- `logout`. -/
def logout (token : Tok) : AuthTxn T Unit := do
  let payload ← decode rt token rt.settings.jwtSecretKey rt.settings.jwtAlgorithm "access"
  match payload.blacklistJti rt.redis with
  | some jti => revokeForLife payload jti
  | none => return ()

omit [Ring T] [LinearOrder T] [FloorRing T] in
/-- `decode_and_verify_token`, with or without a Redis client. -/
def decodeAndVerifyToken (token : Tok) (secretKey : String) (redisClient : Bool)
    (algorithm expectedType : String) : AuthTxn T Claims := do
  let payload ← decode rt token secretKey algorithm expectedType
  match payload.blacklistJti redisClient with
  | some jti =>
    if ← isTokenRevoked jti then .raise (.unauthorizedException "Token has been revoked")
    else return payload
  | none => return payload

omit [Ring T] [LinearOrder T] [FloorRing T] in
/-- `get_user_by_id`. -/
def getUserById (id : String) : AuthTxn T User := do
  match ← getById id with
  | some user => return user
  | none => .raise (.notFoundException "User not found")

omit [Ring T] [LinearOrder T] [FloorRing T] in
/-- `get_current_user_from_token`; it checks the token as `decode_and_verify_token` does. -/
def getCurrentUserFromToken (token : Tok) : AuthTxn T User := do
  let payload ← decodeAndVerifyToken rt token rt.settings.jwtSecretKey rt.redis
    rt.settings.jwtAlgorithm "access"
  match rt.parseUuid (payload.sub.getD "") with
  | some id => getUserById id
  | none => .raise .valueError

end Operations

/-! ## The service -/

inductive AuthRequest (Tok : Type) where
  | refreshTokens (token : Tok)
  | logout (token : Tok)
  | getCurrentUserFromToken (token : Tok)
  | decodeAndVerifyToken (token : Tok) (secretKey : String) (redisClient : Bool)
      (algorithm expectedType : String)
deriving DecidableEq

/-- What a request returns. -/
inductive AuthResult (Tok : Type) where
  | tokens (pair : TokenResponse Tok)
  | loggedOut
  | user (u : User)
  | claims (payload : Claims)
deriving DecidableEq

section Service

variable {Tok T : Type} [Ring T] [LinearOrder T] [FloorRing T] (rt : Runtime Tok T)

def program (tid : ℕ) : AuthRequest Tok → AuthTxn T (AuthResult Tok)
  | .refreshTokens token => do return .tokens (← refreshTokens rt tid token)
  | .logout token => do
    logout rt token
    return .loggedOut
  | .getCurrentUserFromToken token => do return .user (← getCurrentUserFromToken rt token)
  | .decodeAndVerifyToken token secretKey redisClient algorithm expectedType => do
    return .claims (← decodeAndVerifyToken rt token secretKey redisClient algorithm expectedType)

def answer (redis : Redis T) (users : Users) : (q : AuthQuery) → AuthAnswer T q
  | .jwtNow => redis.now
  | .utcNow => redis.now
  | .get key => redis.get key
  | .set _ _ _ => ()
  | .userById id => users.get id

def AuthQuery.effect : AuthQuery → Redis T → Redis T
  | .set key value ex, redis => redis.set key value (some ex)
  | _, redis => redis

/-- The requests on tokens write nothing to the database. -/
def service : Service Users (Redis T) (AuthRequest Tok) Unit AuthQuery (AuthAnswer T) AuthExc
    (AuthResult Tok) where
  prog := program rt
  answer _ redis users q := answer redis users q
  effect := AuthQuery.effect
  commit _ users := some users

abbrev AuthServer (Tok T : Type) := Server Users (Redis T) (AuthRequest Tok) AuthQuery
  (AuthAnswer T) AuthExc (AuthResult Tok)

/-- A step of the service, or of the clock. -/
abbrev AuthLabel (Tok T : Type) := EnvLabel T (Label (AuthRequest Tok) Unit)

end Service

/-! ## Programs in steps -/

section Steps

variable {Tok T R R' : Type}

/-- Continue with the payload of a token, unless it was refused. -/
def onPayload (decoded : Except AuthExc Claims) (f : Claims → AuthTxn T R) : AuthTxn T R :=
  match decoded with
  | .ok payload => f payload
  | .error e => .raise e

theorem decode_bind (rt : Runtime Tok T) (token : Tok) (secretKey algorithm expectedType : String)
    (f : Claims → AuthTxn T R) : decode rt token secretKey algorithm expectedType >>= f =
      .ask .jwtNow fun now =>
        onPayload (decodeToken rt.jwt now token secretKey algorithm expectedType) f := by
  refine congrArg (Txn.ask _) (funext fun (now : T) => ?_)
  show (match decodeToken rt.jwt now token _ _ _ with | .ok payload => _ | .error e => _ :
    AuthTxn T Claims) >>= f = _
  cases decodeToken rt.jwt now token secretKey algorithm expectedType with
  | ok payload => rfl
  | error e => rfl

end Steps

end CloudScale.AuthService
