/-
  Access and refresh tokens (`cloudscale_shared/security.py`).

  The JWT library is a parameter: `Jwt.Sound` is what the code relies on, that decoding a token
  gives the claims it was encoded from, and none once they have expired. The type of the tokens and
  that of the times are parameters too; `signedJwt` takes for a token its claims with the key that
  signed them.
-/
import Mathlib.Algebra.Order.Floor.Ring

namespace CloudScale.AuthService

/-- The text of a uuid. -/
structure Uuid where
  text : String
  length_text : text.length = 36

/-- The payload of a token. -/
structure Claims where
  sub : Option String
  role : Option String
  tenantId : Option String
  exp : Option Int
  iat : Option Int
  jti : Option String
  type : Option String
deriving DecidableEq

inductive JwtError where
  | expiredSignatureError
  | pyJwtError
deriving DecidableEq

/-- `jwt.encode` and `jwt.decode`, the latter at the time it reads. -/
structure Jwt (Tok T : Type) where
  encode : Claims → (secretKey algorithm : String) → Tok
  decode : T → Tok → (secretKey algorithm : String) → Except JwtError Claims

structure Jwt.Sound {Tok T : Type} [LT T] [IntCast T] (jwt : Jwt Tok T) : Prop where
  decode_encode : ∀ {now claims secretKey algorithm secretKey' algorithm' payload},
    jwt.decode now (jwt.encode claims secretKey algorithm) secretKey' algorithm' = .ok payload →
      payload = claims ∧ ∀ exp, claims.exp = some exp → now < (exp : T)

inductive AuthExc where
  | unauthorizedException (message : String)
  | notFoundException (message : String)
  | valueError
deriving DecidableEq

/-- `decode_token`. -/
def decodeToken {Tok T : Type} (jwt : Jwt Tok T) (now : T) (token : Tok)
    (secretKey algorithm expectedType : String) : Except AuthExc Claims :=
  match jwt.decode now token secretKey algorithm with
  | .ok payload =>
    if payload.type ≠ some expectedType ∨ payload.sub = none then
      .error (.unauthorizedException "Invalid token type or missing subject")
    else .ok payload
  | .error .expiredSignatureError => .error (.unauthorizedException "Token has expired")
  | .error .pyJwtError => .error (.unauthorizedException "Could not validate credentials")

theorem decodeToken_eq_ok {Tok T : Type} {jwt : Jwt Tok T} {now : T} {token : Tok}
    {secretKey algorithm expectedType : String} {payload : Claims}
    (h : decodeToken jwt now token secretKey algorithm expectedType = .ok payload) :
    jwt.decode now token secretKey algorithm = .ok payload ∧ payload.type = some expectedType := by
  unfold decodeToken at h
  split at h
  · next heq =>
    split at h
    · cases h
    · next hvalid =>
      obtain rfl := Except.ok.inj h
      exact ⟨heq, by simpa using (not_or.mp hvalid).1⟩
  · cases h
  · cases h

/-- A token that cannot be decoded is refused. -/
theorem decodeToken_error {Tok T : Type} {jwt : Jwt Tok T} {now : T} {token : Tok}
    {secretKey algorithm expectedType : String} {e : AuthExc}
    (h : decodeToken jwt now token secretKey algorithm expectedType = .error e) :
    ∃ message, e = .unauthorizedException message := by
  unfold decodeToken at h
  split at h
  · split at h
    · exact ⟨_, (Except.error.inj h).symm⟩
    · cases h
  · exact ⟨_, (Except.error.inj h).symm⟩
  · exact ⟨_, (Except.error.inj h).symm⟩

/-- The arguments of `create_token_pair`. -/
structure TokenPairArgs where
  userId : String
  role : String
  secretKey : String
  algorithm : String := "HS256"
  accessExpireMinutes : Int := 15
  refreshExpireDays : Int := 7
  tenantId : Option String := none

/-- `tenant_id or user_id`. -/
def TokenPairArgs.effectiveTenant (args : TokenPairArgs) : String :=
  match args.tenantId with
  | some tenantId => if tenantId.isEmpty then args.userId else tenantId
  | none => args.userId

section Pairs

variable {Tok T : Type} [Ring T] [LinearOrder T] [FloorRing T]

/-- The payload of a token that lives for `lifetime` seconds. -/
def TokenPairArgs.claims (args : TokenPairArgs) (utcNow : T) (lifetime : Int) (jti : Uuid)
    (type : String) : Claims :=
  { sub := some args.userId, role := some args.role, tenantId := some args.effectiveTenant
    exp := some ⌊utcNow + (lifetime : T)⌋, iat := some ⌊utcNow⌋, jti := some jti.text
    type := some type }

def TokenPairArgs.accessClaims (args : TokenPairArgs) (utcNow : T) (jti : Uuid) : Claims :=
  args.claims utcNow (60 * args.accessExpireMinutes) jti "access"

def TokenPairArgs.refreshClaims (args : TokenPairArgs) (utcNow : T) (jti : Uuid) : Claims :=
  args.claims utcNow (86400 * args.refreshExpireDays) jti "refresh"

/-- `create_token_pair`, at the time `utcNow`. -/
def createTokenPair (jwt : Jwt Tok T) (args : TokenPairArgs) (utcNow : T)
    (jtiAccess jtiRefresh : Uuid) : Tok × Tok :=
  (jwt.encode (args.accessClaims utcNow jtiAccess) args.secretKey args.algorithm,
    jwt.encode (args.refreshClaims utcNow jtiRefresh) args.secretKey args.algorithm)

end Pairs

/-- `token:revoked:<jti>`. -/
def revokedKey (jti : String) : String := "token:revoked:" ++ jti

/-- The identifier under which a token is looked up and revoked: `redis and jti`. -/
def Claims.blacklistJti (redis : Bool) (payload : Claims) : Option String :=
  if redis then payload.jti.filter fun jti => !jti.isEmpty else none

theorem blacklistJti_claims {T : Type} [Ring T] [LinearOrder T] [FloorRing T] (args : TokenPairArgs)
    (utcNow : T) (lifetime : Int) (jti : Uuid) (type : String) :
    (args.claims utcNow lifetime jti type).blacklistJti true = some jti.text := by
  have hne : jti.text.isEmpty = false := by
    rw [Bool.eq_false_iff]
    intro h
    have hlength := jti.length_text
    rw [String.isEmpty_iff.mp h] at hlength
    exact absurd hlength (by decide)
  simp [Claims.blacklistJti, TokenPairArgs.claims, hne]

/-! ## Signed claims -/

section Signed

variable {T : Type} [LinearOrder T] [IntCast T]

/-- Tokens as their claims with the key and the algorithm that signed them. -/
def signedJwt : Jwt (Claims × String × String) T where
  encode claims secretKey algorithm := (claims, secretKey, algorithm)
  decode now token secretKey algorithm :=
    if token.2 ≠ (secretKey, algorithm) ∨ (token.1.iat.any fun iat => decide (now < (iat : T))) then
      .error .pyJwtError
    else if token.1.exp.any fun exp => decide ((exp : T) ≤ now) then .error .expiredSignatureError
    else .ok token.1

theorem signedJwt_sound : (signedJwt : Jwt (Claims × String × String) T).Sound where
  decode_encode := by
    intro now claims secretKey algorithm secretKey' algorithm' payload h
    simp only [signedJwt] at h
    split at h
    · cases h
    · split at h
      · cases h
      · next hlive =>
        refine ⟨(Except.ok.inj h).symm, fun exp hexp => ?_⟩
        simpa [hexp] using hlive

end Signed

end CloudScale.AuthService
