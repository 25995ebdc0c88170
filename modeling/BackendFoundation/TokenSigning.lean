import BackendFoundation.AuthPersistence

/-! `app/auth/adapters/jwt_signer.py` over PyJWT. The library is a parameter:
what it makes of a token it has not encoded is left open, and one it has encoded
decodes to its payload while the payload's times allow it. -/
namespace BackendFoundation.TokenSigning
open PythonValues AuthPersistence

/-- What `jwt.decode` raises. -/
inductive PyJWTError where
  | expiredSignature
  | invalidIssuer
  | invalidAudience
  | other (message : Str)
  deriving DecidableEq

/-- A payload whose claims pass every check of `jwt.decode` but those of time. -/
structure Decodable (payload : Claims) (audience issuer : Str) (exp iat : Int) : Prop where
  unique : (payload.map Prod.fst).Nodup
  iss : payload.get "iss" = .str issuer
  aud : payload.get "aud" = .str audience
  exp : payload.get "exp" = .int exp
  iat : payload.get "iat" = .int iat
  sub : ∃ text, payload.get "sub" = .str text
  jti : ∃ text, payload.get "jti" = .str text
  nbf : payload.lookup (str "nbf") = none

/-- `jwt.encode` and `jwt.decode` with one pair of keys and its algorithm; `now`
is the time that `decode` reads, of which it takes the `timestamp()`. -/
structure PyJwt where
  encode : Claims → Str
  decode : (audience issuer : Str) → (leeway : Int) → (now : DateTime) → Str →
    Except PyJWTError Claims
  decode_encode : ∀ {payload audience issuer exp iat}, Decodable payload audience issuer exp iat →
    ∀ (leeway : Int) now, decode audience issuer leeway now (encode payload) =
      if timestampDouble now + leeway < iat then
        .error (.other (str "The token is not yet valid (iat)"))
      else if exp ≤ timestampDouble now - leeway then .error .expiredSignature
      else .ok payload

/-- Its keys are those of the `PyJwt` it is used with. -/
structure JwtSigner where
  issuer : Str
  audience : Str
  accessTtlSeconds : Int

/-- `if name not in payload: payload[name] = value`. -/
def setDefault (name : String) (value : Json) (payload : Claims) : Claims :=
  if (payload.lookup (str name)).isSome then payload else payload ++ [(str name, value)]

def authenticationError (detail : Str) : Exn := .app .authentication (some detail)

namespace JwtSigner

variable (signer : JwtSigner) (jwt : PyJwt)

def leeway : Int := 30

/-- The claims with the standard ones filled in; PyJWT writes the default times
in whole seconds. -/
def payload (now : DateTime) (jti : UUID) (claims : Claims) : Claims :=
  setDefault "jti" (.str jti.toStr)
    (setDefault "exp" (.int ((now + signer.accessTtlSeconds * 1000000) / 1000000))
      (setDefault "iat" (.int (now / 1000000))
        (setDefault "aud" (.str signer.audience)
          (setDefault "iss" (.str signer.issuer) claims))))

def sign (now : DateTime) (jti : UUID) (claims : Claims) : Str :=
  jwt.encode (signer.payload now jti claims)

/-- What the caller of `verify` gets for an exception of PyJWT. -/
def refusal : PyJWTError → Exn
  | .expiredSignature => authenticationError (str "Token has expired")
  | .invalidIssuer => authenticationError (str "Invalid token issuer")
  | .invalidAudience => authenticationError (str "Invalid token audience")
  | .other message => authenticationError (str "Invalid token: " ++ message)

def verify (now : DateTime) (token : Str) : Except Exn Claims :=
  match jwt.decode signer.audience signer.issuer leeway now token with
  | .ok claims => .ok claims
  | .error error => .error (refusal error)

end JwtSigner

/-- A moment at which the service's token signer is this one and its clock,
which is PyJWT's clock too, reads `now`. -/
structure Wired (signer : JwtSigner) (jwt : PyJwt) (now : DateTime) (tick : World) : Prop where
  signs : ∀ claims, ∃ jti, tick.answer (.sign claims) = .ok (signer.sign jwt now jti claims)
  verifies : ∀ token, tick.answer (.verify token) = signer.verify jwt now token
  reads : tick.answer .now = .ok now

section Tokens

variable {signer : JwtSigner} {payload : Claims} {exp iat : Int} {now : DateTime}

/-- An encoded payload verifies from its `iat` on, until its `exp` is past, each
with the leeway. -/
theorem verify_encode (jwt : PyJwt) (decodable : Decodable payload signer.audience signer.issuer exp iat)
    (issued : iat ≤ timestampDouble now + 30) (unexpired : timestampDouble now - 30 < exp) :
    signer.verify jwt now (jwt.encode payload) = .ok payload := by
  rw [JwtSigner.verify, jwt.decode_encode decodable, if_neg, if_neg]
  · exact not_le.mpr unexpired
  · exact not_lt.mpr issued

theorem verify_expired (jwt : PyJwt) (decodable : Decodable payload signer.audience signer.issuer exp iat)
    (issued : iat ≤ timestampDouble now + 30) (expired : exp ≤ timestampDouble now - 30) :
    signer.verify jwt now (jwt.encode payload) =
      .error (authenticationError (str "Token has expired")) := by
  rw [JwtSigner.verify, jwt.decode_encode decodable, if_neg, if_pos]
  · rfl
  · exact expired
  · exact not_lt.mpr issued

/-- Whenever it is presented, an encoded payload verifies as itself or not at all. -/
theorem verify_cases (jwt : PyJwt) (now : DateTime)
    (decodable : Decodable payload signer.audience signer.issuer exp iat) :
    signer.verify jwt now (jwt.encode payload) = .ok payload ∨
      ∃ detail, signer.verify jwt now (jwt.encode payload) = .error (authenticationError detail) := by
  rw [JwtSigner.verify, jwt.decode_encode decodable]
  split
  · rename_i early
    split at early
    · cases early
    · split at early
      · cases early
      · cases early
        exact .inl rfl
  · rename_i error refused
    refine .inr ?_
    cases error <;> exact ⟨_, rfl⟩

end Tokens

end BackendFoundation.TokenSigning
