import Mathlib.Logic.Equiv.List
import Vat.Python.Text
import Vat.Signed.Tokens

/-!
# The tokens that the backend signs

Sessions, the codes by which a browser fetches a session, the states of Google sign-ins and the
tokens of ingest clients are all signed with one secret, and told apart by their issuers. The
library that signs is a parameter: a scheme for the claims of all four.

Source: `backend/app/core/jwt.py`; `backend/app/core/oauth.py`.

## Main definitions

* `Claims`, `Jose`: what tokens carry, and the library.
* `createToken`, `decodeToken`, `createOauthExchangeCode`, `decodeOauthExchangeCode`,
  `createOauthState`, `decodeOauthState`, `createIngestToken`, `decodeIngestToken`.

## Main results

* `decodeToken_eq_some_iff`, `decodeOauthExchangeCode_eq_some_iff`, `decodeOauthState_eq_some_iff`,
  `decodeIngestToken_eq_some_iff`: what each kind is accepted as.
-/

namespace Vat

/-- The claims of a token; those that its kind does not have are `none`. Times are whole seconds. -/
structure Claims where
  sub : Option Str
  userId : Option Str
  tenantId : Option Str
  role : Option Str
  grant : Option Str
  cv : Option Str
  usage : Option Str
  exp : ℕ
  iat : ℕ
  iss : Str
  deriving DecidableEq

/-- `jwt.encode` and `jwt.decode` with the secret of the deployment. -/
class Jose where
  scheme : Signed.Scheme Str Claims.iss Claims.exp

section Kinds

variable [Jose]

/-- `JWT_ISSUER`. -/
def jwtIssuer : Str := str "vat"

/-- `OAUTH_EXCHANGE_ISSUER`. -/
def oauthExchangeIssuer : Str := str "vat-oauth-exchange"

/-- `OAUTH_STATE_ISSUER`. -/
def oauthStateIssuer : Str := str "vat-oauth-state"

/-- `INGEST_OAUTH_ISSUER`. -/
def ingestOauthIssuer : Str := str "vat-ingest-oauth"

/-- `OAUTH_STATE_TTL_SECONDS`. -/
def oauthStateTtlSeconds : ℕ := 300

/-- `INGEST_TOKEN_EXPIRE_HOURS`. -/
def ingestTokenExpireHours : ℕ := 1

/-- The claims of a session. -/
def sessionClaims (userId email : Str) (tenantId : Option Str) (role : Str)
    (expireHours now : ℕ) : Claims where
  sub := some email
  userId := some userId
  tenantId := tenantId
  role := some role
  grant := none
  cv := none
  usage := none
  exp := now + expireHours * 3600
  iat := now
  iss := jwtIssuer

/-- `create_token`. -/
def createToken (userId email : Str) (tenantId : Option Str) (role : Str)
    (expireHours now : ℕ) : Str :=
  Jose.scheme.encode (sessionClaims userId email tenantId role expireHours now)

/-- `decode_token`. -/
def decodeToken (now : ℕ) (token : Str) : Option Claims := Jose.scheme.decode now jwtIssuer token

/-- The claims of an exchange code. -/
def exchangeClaims (token : Str) (now : ℕ) : Claims where
  sub := none
  userId := none
  tenantId := none
  role := none
  grant := some token
  cv := none
  usage := some (str "oauth_exchange")
  exp := now + 60
  iat := now
  iss := oauthExchangeIssuer

/-- `create_oauth_exchange_code`. -/
def createOauthExchangeCode (token : Str) (now : ℕ) : Str :=
  Jose.scheme.encode (exchangeClaims token now)

/-- `decode_oauth_exchange_code`. -/
def decodeOauthExchangeCode (now : ℕ) (code : Str) : Option Str :=
  (Jose.scheme.decode now oauthExchangeIssuer code).bind Claims.grant

/-- The claims of a state. -/
def stateClaims (codeVerifier : Str) (ttlSeconds now : ℕ) : Claims where
  sub := none
  userId := none
  tenantId := none
  role := none
  grant := none
  cv := some codeVerifier
  usage := some (str "oauth_state")
  exp := now + ttlSeconds
  iat := now
  iss := oauthStateIssuer

/-- `create_oauth_state`. -/
def createOauthState (codeVerifier : Str) (ttlSeconds now : ℕ) : Str :=
  Jose.scheme.encode (stateClaims codeVerifier ttlSeconds now)

/-- `decode_oauth_state`. -/
def decodeOauthState (now : ℕ) (state : Str) : Option Claims :=
  Jose.scheme.decode now oauthStateIssuer state

/-- The claims of an ingest token. -/
def ingestClaims (sourceId : Str) (now : ℕ) : Claims where
  sub := some sourceId
  userId := none
  tenantId := none
  role := none
  grant := none
  cv := none
  usage := some (str "ingest")
  exp := now + ingestTokenExpireHours * 3600
  iat := now
  iss := ingestOauthIssuer

/-- `create_ingest_token`. -/
def createIngestToken (sourceId : Str) (now : ℕ) : Str :=
  Jose.scheme.encode (ingestClaims sourceId now)

/-- `decode_ingest_token`. -/
def decodeIngestToken (now : ℕ) (token : Str) : Option Str :=
  match Jose.scheme.decode now ingestOauthIssuer token with
  | none => none
  | some payload => if payload.usage ≠ some (str "ingest") then none else payload.sub

theorem decodeToken_eq_some_iff {now : ℕ} {t : Str} {c : Claims} :
    decodeToken now t = some c ↔
      Jose.scheme.Carries t c ∧ c.iss = jwtIssuer ∧ now ≤ c.exp :=
  Signed.Scheme.decode_eq_some_iff

theorem decodeOauthExchangeCode_eq_some_iff {now : ℕ} {code token : Str} :
    decodeOauthExchangeCode now code = some token ↔
      ∃ c, Jose.scheme.Carries code c ∧ c.iss = oauthExchangeIssuer ∧ now ≤ c.exp ∧
        c.grant = some token := by
  simp only [decodeOauthExchangeCode, Option.bind_eq_some_iff, Signed.Scheme.decode_eq_some_iff,
    and_assoc]

theorem decodeOauthState_eq_some_iff {now : ℕ} {t : Str} {c : Claims} :
    decodeOauthState now t = some c ↔
      Jose.scheme.Carries t c ∧ c.iss = oauthStateIssuer ∧ now ≤ c.exp :=
  Signed.Scheme.decode_eq_some_iff

theorem decodeIngestToken_eq_some_iff {now : ℕ} {t sourceId : Str} :
    decodeIngestToken now t = some sourceId ↔
      ∃ c, Jose.scheme.Carries t c ∧ c.iss = ingestOauthIssuer ∧ now ≤ c.exp ∧
        c.usage = some (str "ingest") ∧ c.sub = some sourceId := by
  have hdecode : ∀ c, Jose.scheme.decode now ingestOauthIssuer t = some c ↔
      Jose.scheme.Carries t c ∧ c.iss = ingestOauthIssuer ∧ now ≤ c.exp :=
    fun c => Signed.Scheme.decode_eq_some_iff
  rw [decodeIngestToken]
  constructor
  · intro h
    cases hd : Jose.scheme.decode now ingestOauthIssuer t with
    | none => simp [hd] at h
    | some c =>
      simp only [hd, ne_eq, ite_not, Option.ite_none_right_eq_some] at h
      obtain ⟨hcar, hiss, hexp⟩ := (hdecode c).mp hd
      exact ⟨c, hcar, hiss, hexp, h⟩
  · rintro ⟨c, hcar, hiss, hexp, husage, hsub⟩
    simp only [(hdecode c).mpr ⟨hcar, hiss, hexp⟩, husage, ne_eq, not_true_eq_false, if_false, hsub]

end Kinds

/-- Characters are numbered by their code points. -/
instance Claims.instEncodableChar : Encodable Char :=
  Encodable.ofLeftInjection Char.toNat (fun n => some (Char.ofNat n)) fun c => by
    rw [Char.ofNat_toNat]

instance Claims.instEncodable : Encodable Claims :=
  Encodable.ofLeftInjection
    (fun c => (c.sub, c.userId, c.tenantId, c.role, c.grant, c.cv, c.usage, c.exp, c.iat, c.iss))
    (fun p => some ⟨p.1, p.2.1, p.2.2.1, p.2.2.2.1, p.2.2.2.2.1, p.2.2.2.2.2.1, p.2.2.2.2.2.2.1,
      p.2.2.2.2.2.2.2.1, p.2.2.2.2.2.2.2.2.1, p.2.2.2.2.2.2.2.2.2⟩)
    fun _ => rfl

/-- A library whose tokens hide nothing. -/
@[reducible] def openJose : Jose := ⟨Signed.Scheme.ofEncodable Claims.iss Claims.exp⟩

end Vat
