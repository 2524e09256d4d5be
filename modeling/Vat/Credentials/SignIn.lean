import Vat.Credentials.SessionTokens
import Vat.Findings.Visibility
import Vat.Ledger.SubjectAliases
import Vat.Transition.Run

/-!
# Signing in

A session is a token that the backend signs when a password is right or when a Google sign-in comes
back; nothing about it is stored. A Google sign-in starts in a browser, which gets a state as a
cookie; it comes back with a code, which Google gives for the verifier that the state carries only;
and it ends with an exchange code, which the browser turns into the session within a minute. A
request is served for whom its session, or its admin key, stands for.

The system is the backend with its tables, Google, and any number of browsers. Its tables may change
in any way at any time, and cookies may be planted. The library that signs, the check of a password,
the challenge of a verifier and Google are parameters with what they promise.

Source: `backend/app/api/auth.py`; `backend/app/core/auth.py`, lines 56–228;
`backend/app/services/user_service.py`; `backend/app/core/jwt.py`.

## Main definitions

* `SignIn.State`, `SignIn.Op`, `SignIn.step`: the tables, the cookies, and what happens.
* `SignIn.login`, `SignIn.googleCallback`, `SignIn.exchangeCode`, `SignIn.requireRole`.
* `SignIn.SessionOf`: a token of a sign-in that has not expired.

## Main results

* `SignIn.map_decodeToken_eq_some_iff`: which tokens are sessions.
* `SignIn.decodeIngestToken_run_eq_some_iff`: which tokens are those of clients.
* `SignIn.requireRole_eq_ok_iff`: whom a request is served for.
* `SignIn.getCurrentUserContext_eq`: these are the callers of the tenant checks.
-/

namespace Vat.SignIn

open Relational Transition

/-! ### Users, tenants and the services around -/

/-- A row of the table `users`. -/
structure User where
  id : Str
  tenantId : Option Str
  email : Str
  role : Str
  passwordHash : Option Str
  deriving DecidableEq

/-- A row of the table `tenants`. -/
structure Tenant where
  id : Str
  authMethod : Str
  deriving DecidableEq

instance : Row User Str Str := ⟨User.id, User.id⟩

instance : Row Tenant Str Str := ⟨Tenant.id, Tenant.id⟩

/-- The holder of a Google account lets VAT know the e-mail: Google gives a code, for the challenge
of the flow. -/
structure Consent where
  code : Str
  email : Str
  challenge : Str
  deriving DecidableEq

/-- The code around the backend. -/
class Services extends Jose where
  /-- `bcrypt.checkpw`, `false` where it raises. -/
  checkpw : Str → Str → Bool
  /-- The S256 challenge of a verifier. -/
  challenge : Str → Str
  /-- How `ILIKE` folds the case. -/
  sqlLower : Str → Str
  /-- The two requests to Google, with a code and a verifier: the e-mail, if both are answered. -/
  googleEmail : List Consent → Str → Str → Option (Option Str)
  googleEmail_sound : ∀ {consents code verifier email},
    googleEmail consents code verifier = some (some email) →
      ∃ c ∈ consents, c.code = code ∧ c.email = email ∧ c.challenge = challenge verifier

structure Settings where
  jwtExpireHours : ℕ
  allowDevHeaders : Bool
  /-- The client id and the client secret of Google are set. -/
  google : Bool

/-- The clock in seconds, the tables, what Google has given codes for, the cookies of the browsers,
and the claims that were signed, the latest first. -/
structure State where
  clock : ℕ
  users : Table User
  tenants : Table Tenant
  adminKeys : List AdminKeyEntry
  consents : List Consent
  stateCookie : ℕ → Option Str
  session : ℕ → Option Str
  issued : List Claims

/-- The query of the callback. -/
structure Query where
  code : Option Str
  state : Option Str
  error : Option Str

/-- What happens. Any cookies can be planted in a browser, and it can drop its cookies. -/
inductive Op
  | pass (seconds : ℕ)
  | edit (users : Table User) (tenants : Table Tenant) (adminKeys : List AdminKeyEntry)
  | login (browser : ℕ) (username password : Str)
  | authorize (browser : ℕ) (codeVerifier : Str)
  | consent (c : Consent)
  | callback (browser : ℕ) (q : Query)
  | exchange (browser : ℕ) (code : Str)
  | clientToken (sourceId : Str)
  | logout (browser : ℕ)
  | drop (browser : ℕ)
  | plant (browser : ℕ) (stateCookie session : Option Str)

/-- How a request ends that is not served. -/
inductive Failure
  | http (status : ℕ) (detail : Str)
  | redirect (error : Str)
  | serverError
  deriving DecidableEq

/-- `scalar_one_or_none`. -/
def scalarOneOrNone {α : Type*} : List α → Except Failure (Option α)
  | [] => .ok none
  | [x] => .ok (some x)
  | _ :: _ :: _ => .error .serverError

/-- `get_user_by_id`. -/
def getUserById (users : Table User) (userId : Str) : Option User :=
  if Str.strip userId = [] then none else users.get? (Str.strip userId)

/-- `AUTH_METHOD_LOCAL`. -/
def authMethodLocal : Str := str "local"

/-- `AUTH_METHOD_GOOGLE`. -/
def authMethodGoogle : Str := str "google"

/-- `get_google_tenant`. -/
def getGoogleTenant (tenants : Table Tenant) : Option Tenant :=
  tenants.rows.find? fun t => t.authMethod = authMethodGoogle

section Backend

variable [Unicode] [Services] (cfg : Settings)

/-- `User.email.ilike(email.strip().lower())`. -/
def emailMatches (email : Str) (user : User) : Bool :=
  sqlLike (Services.sqlLower (Unicode.lower (Str.strip email))) (Services.sqlLower user.email)

/-- `get_user_by_email`. -/
def getUserByEmail (users : Table User) (email : Str) : Except Failure (Option User) :=
  if Str.strip email = [] then .ok none
  else scalarOneOrNone (users.rows.filter (emailMatches email))

/-- The tenant of the user signs in with Google. -/
def inGoogleTenant (tenants : Table Tenant) (user : User) : Bool :=
  match user.tenantId with
  | none => false
  | some tenantId => (tenants.get? tenantId).any fun t => t.authMethod = authMethodGoogle

/-- `get_user_by_email_in_google_tenant`. -/
def getUserByEmailInGoogleTenant (users : Table User) (tenants : Table Tenant) (email : Str) :
    Except Failure (Option User) :=
  if Str.strip email = [] then .ok none
  else scalarOneOrNone (users.rows.filter fun u => emailMatches email u && inGoogleTenant tenants u)

/-- `verify_password`. -/
def verifyPassword (plain : Str) (passwordHash : Option Str) : Bool :=
  Str.truthy passwordHash && Services.checkpw plain (Str.orEmpty passwordHash)

/-- The tenant of the user, if it has one, signs in with a password. -/
def inLocalTenant (tenants : Table Tenant) (user : User) : Bool :=
  !Str.truthy user.tenantId ||
    (tenants.get? (Str.orEmpty user.tenantId)).all fun t => t.authMethod = authMethodLocal

/-- `login`: the user whose session it is. -/
def login (s : State) (username password : Str) : Except Failure User :=
  if Str.strip username = [] ∨ password = [] then
    .error (.http 401 (str "Username and password required"))
  else
    let ident := Str.strip username
    let found : Except Failure (Option User) :=
      match getUserById s.users ident with
      | some user => .ok (some user)
      | none => getUserByEmail s.users ident
    match found with
    | .error e => .error e
    | .ok none => .error (.http 401 (str "Invalid username or password"))
    | .ok (some user) =>
      if verifyPassword password user.passwordHash = false then
        .error (.http 401 (str "Invalid username or password"))
      else if inLocalTenant s.tenants user = false then
        .error (.http 401 (str "Use Sign in with Google for this account"))
      else .ok user

/-- `google_callback`, with the cookie of the browser: the user whose session it is. -/
def googleCallback (s : State) (q : Query) (stateCookie : Option Str) : Except Failure User :=
  if Str.truthy q.error then .error (.redirect (str "oauth_denied"))
  else if Str.truthy q.code = false then .error (.http 400 (str "Missing code"))
  else if Str.truthy q.state = false ∨ Str.truthy stateCookie = false ∨ q.state ≠ stateCookie then
    .error (.redirect (str "oauth_state"))
  else match decodeOauthState s.clock (Str.orEmpty q.state) with
  | none => .error (.redirect (str "oauth_state"))
  | some payload =>
    if Str.truthy payload.cv = false then .error (.redirect (str "oauth_state"))
    else match Services.googleEmail s.consents (Str.orEmpty q.code) (Str.orEmpty payload.cv) with
    | none => .error (.redirect (str "oauth_failed"))
    | some email =>
      if Str.truthy email = false then .error (.redirect (str "no_email"))
      else match getUserByEmailInGoogleTenant s.users s.tenants (Str.orEmpty email) with
      | .error e => .error e
      | .ok none => .error (.redirect (str "user_not_found"))
      | .ok (some user) => .ok user

/-- `exchange_code`: the token of the session. -/
def exchangeCode (s : State) (code : Str) : Except Failure Str :=
  match decodeOauthExchangeCode s.clock code with
  | none => .error (.http 400 (str "Invalid or expired code"))
  | some token =>
    if token = [] then .error (.http 400 (str "Invalid or expired code"))
    else if (decodeToken s.clock token).isNone then .error (.http 400 (str "Invalid token"))
    else .ok token

/-- The claims of a session of the user. -/
def userClaims (now : ℕ) (user : User) : Claims :=
  sessionClaims user.id user.email user.tenantId user.role cfg.jwtExpireHours now

/-- The token of a session of the user. -/
def userToken (now : ℕ) (user : User) : Str :=
  createToken user.id user.email user.tenantId user.role cfg.jwtExpireHours now

/-- What the backend signs. -/
def issues (s : State) : Op → List Claims
  | .login _ username password =>
    match login s username password with
    | .error _ => []
    | .ok user => [userClaims cfg s.clock user]
  | .authorize _ codeVerifier =>
    if cfg.google ∧ (getGoogleTenant s.tenants).isSome then
      [stateClaims codeVerifier oauthStateTtlSeconds s.clock]
    else []
  | .callback browser q =>
    match googleCallback s q (s.stateCookie browser) with
    | .error _ => []
    | .ok user =>
      [exchangeClaims (userToken cfg s.clock user) s.clock, userClaims cfg s.clock user]
  | .clientToken sourceId => [ingestClaims sourceId s.clock]
  | _ => []

/-- The session cookies. -/
def sessions (s : State) : Op → ℕ → Option Str
  | .login browser username password =>
    match login s username password with
    | .error _ => s.session
    | .ok user => Function.update s.session browser (some (userToken cfg s.clock user))
  | .exchange browser code =>
    match exchangeCode s code with
    | .error _ => s.session
    | .ok token => Function.update s.session browser (some token)
  | .logout browser => Function.update s.session browser none
  | .drop browser => Function.update s.session browser none
  | .plant browser _ session => Function.update s.session browser session
  | _ => s.session

/-- The cookies with states. A redirect after a callback clears it, an error does not. -/
def stateCookies (s : State) : Op → ℕ → Option Str
  | .authorize browser codeVerifier =>
    if cfg.google ∧ (getGoogleTenant s.tenants).isSome then
      Function.update s.stateCookie browser
        (some (createOauthState codeVerifier oauthStateTtlSeconds s.clock))
    else s.stateCookie
  | .callback browser q =>
    match googleCallback s q (s.stateCookie browser) with
    | .error (.http _ _) => s.stateCookie
    | .error .serverError => s.stateCookie
    | _ => Function.update s.stateCookie browser none
  | .drop browser => Function.update s.stateCookie browser none
  | .plant browser stateCookie _ => Function.update s.stateCookie browser stateCookie
  | _ => s.stateCookie

/-- The tables, what Google knows, and the clock. -/
def step (s : State) (o : Op) : State :=
  { clock := match o with
      | .pass seconds => s.clock + seconds
      | _ => s.clock
    users := match o with
      | .edit users _ _ => users
      | _ => s.users
    tenants := match o with
      | .edit _ tenants _ => tenants
      | _ => s.tenants
    adminKeys := match o with
      | .edit _ _ adminKeys => adminKeys
      | _ => s.adminKeys
    consents := match o with
      | .consent c => c :: s.consents
      | _ => s.consents
    stateCookie := stateCookies cfg s o
    session := sessions cfg s o
    issued := issues cfg s o ++ s.issued }

/-! ### Requests -/

/-- Whom a request is served for. -/
structure Caller where
  userId : Str
  email : Str
  tenantId : Option Str
  role : Str
  rawIdentity : Str
  crossTenant : Bool
  deriving DecidableEq

/-- The caller that a session stands for. -/
def claimsCaller (payload : Claims) : Caller where
  userId := payload.userId.getD (Str.orEmpty payload.sub)
  email := Str.orEmpty payload.sub
  tenantId := some (normalizeTenantId payload.tenantId)
  role := payload.role.getD (str "reviewer")
  rawIdentity := Str.orEmpty payload.sub
  crossTenant := false

/-- The caller that an admin key stands for. -/
def keyCaller (resolved : ResolvedAdminKey) : Caller where
  userId := str "admin-key:" ++ resolved.keyId
  email := str "admin-api-key@vat.local"
  tenantId := some (normalizeTenantId resolved.tenantId)
  role := str "admin"
  rawIdentity := str "admin-api-key:" ++ resolved.keyId
  crossTenant := resolved.crossTenant

/-- The caller that the header `X-VAT-User` names. -/
def userCaller (user : User) (rawIdentity : Str) : Caller where
  userId := user.id
  email := user.email
  tenantId := some (normalizeTenantId user.tenantId)
  role := user.role
  rawIdentity := rawIdentity
  crossTenant := false

variable (verifyKey : Str → Str → Bool)

/-- What authentication consults. -/
def authSources (s : State) : AuthSources where
  decodeToken t := (decodeToken s.clock t).map fun c => ⟨c.sub, c.tenantId⟩
  verifyKey := verifyKey
  adminKeys := s.adminKeys
  getUserByEmail email :=
    match getUserByEmail s.users email with
    | .ok (some user) => some ⟨user.email, user.tenantId⟩
    | _ => none
  allowDevHeaders := cfg.allowDevHeaders

/-- The caller of the `Authorization` header. -/
def bearerCaller (s : State) (req : Credentials) : Option Caller :=
  if Str.truthy req.authorization then
    let credentials := Str.orEmpty req.authorization
    (decodeToken s.clock credentials).map claimsCaller <|>
      (resolveAdminKey (authSources cfg verifyKey s) credentials).map keyCaller
  else none

/-- The caller of the session cookie. -/
def cookieCaller (s : State) (req : Credentials) : Option Caller :=
  if Str.truthy req.sessionCookie then
    (decodeToken s.clock (Str.orEmpty req.sessionCookie)).map claimsCaller
  else none

/-- `_resolve_user_context`, with the error of `get_current_user_context`. -/
def currentCaller (s : State) (req : Credentials) : Except Failure Caller :=
  match bearerCaller cfg verifyKey s req <|> cookieCaller s req with
  | some caller => .ok caller
  | none =>
    let xVatUser := Str.strip (Str.orEmpty req.xVatUser)
    if cfg.allowDevHeaders ∧ '@' ∈ xVatUser then
      match getUserByEmail s.users xVatUser with
      | .error e => .error e
      | .ok (some user) => .ok (userCaller user xVatUser)
      | .ok none => .error (.http 401 (str "Authentication required"))
    else .error (.http 401 (str "Authentication required"))

/-- The callers of some roles. -/
def requireRole (roles : List Str) (detail : Str) (s : State) (req : Credentials) :
    Except Failure Caller :=
  match currentCaller cfg verifyKey s req with
  | .error e => .error e
  | .ok caller => if caller.role ∉ roles then .error (.http 403 detail) else .ok caller

/-- `require_reviewer`. -/
def requireReviewer (s : State) (req : Credentials) : Except Failure Caller :=
  requireRole cfg verifyKey [str "admin", str "reviewer"]
    (str "Insufficient permissions: reviewer or admin role required") s req

/-- `require_admin`. -/
def requireAdmin (s : State) (req : Credentials) : Except Failure Caller :=
  requireRole cfg verifyKey [str "admin"] (str "Admin role required") s req

/-! ### What the backend signs -/

/-- The step signs the user in. -/
def SignsIn (s : State) (o : Op) (user : User) : Prop :=
  match o with
  | .login _ username password => login s username password = .ok user
  | .callback browser q => googleCallback s q (s.stateCookie browser) = .ok user
  | _ => False

theorem mem_issued_run_iff {s₀ : State} {ops : List Op} {c : Claims} :
    c ∈ (run (step cfg) s₀ ops).issued ↔
      c ∈ s₀.issued ∨ Sometime (step cfg) (fun s o => c ∈ issues cfg s o) s₀ ops := by
  induction ops generalizing s₀ with
  | nil => simp
  | cons o ops ih =>
    have hstep : c ∈ (step cfg s₀ o).issued ↔ c ∈ issues cfg s₀ o ∨ c ∈ s₀.issued :=
      List.mem_append
    rw [run_cons, ih, sometime_cons, hstep]
    tauto

variable {cfg}

/-- A session for who is signed in, an exchange code with it for who comes back from Google, a state
for who starts there, and a token for a client. -/
theorem mem_issues_iff {s : State} {o : Op} {c : Claims} :
    c ∈ issues cfg s o ↔
      (∃ user, SignsIn s o user ∧ c = userClaims cfg s.clock user) ∨
      (∃ browser q user, o = .callback browser q ∧
        googleCallback s q (s.stateCookie browser) = .ok user ∧
        c = exchangeClaims (userToken cfg s.clock user) s.clock) ∨
      (∃ browser codeVerifier, o = .authorize browser codeVerifier ∧
        (cfg.google ∧ (getGoogleTenant s.tenants).isSome) ∧
        c = stateClaims codeVerifier oauthStateTtlSeconds s.clock) ∨
      ∃ sourceId, o = .clientToken sourceId ∧ c = ingestClaims sourceId s.clock := by
  cases o with
  | login browser username password =>
    cases h : login s username password <;> simp [issues, SignsIn, h]
  | callback browser q =>
    cases h : googleCallback s q (s.stateCookie browser) with
    | error e => simp [issues, SignsIn, h]
    | ok user =>
      simp only [issues, SignsIn, h, List.mem_cons, List.not_mem_nil, or_false, Except.ok.injEq,
        exists_eq_left', reduceCtorEq, false_and, exists_false, Op.callback.injEq]
      constructor
      · rintro (hc | hc)
        · exact Or.inr ⟨browser, q, user, ⟨rfl, rfl⟩, h, hc⟩
        · exact Or.inl hc
      · rintro (hc | ⟨_, _, user', ⟨rfl, rfl⟩, h', hc⟩)
        · exact Or.inr hc
        · rw [h] at h'
          cases h'
          exact Or.inl hc
  | authorize browser codeVerifier =>
    simp only [issues, SignsIn, false_and, exists_false, reduceCtorEq, false_or, or_false,
      Op.authorize.injEq]
    split
    · rename_i h
      simp [h]
    · rename_i h
      simp [h]
  | clientToken sourceId => simp [issues, SignsIn]
  | pass _ | edit _ _ _ | consent _ | exchange _ _ | logout _ | drop _ | plant _ _ _ =>
    simp [issues, SignsIn]

omit [Unicode] [Services] in
/-- The four issuers are different. -/
theorem issuers_nodup :
    [jwtIssuer, oauthExchangeIssuer, oauthStateIssuer, ingestOauthIssuer].Nodup := by decide

/-- Sessions are signed for the users that are signed in. -/
theorem mem_issues_session_iff {s : State} {o : Op} {c : Claims} (hc : c.iss = jwtIssuer) :
    c ∈ issues cfg s o ↔ ∃ user, SignsIn s o user ∧ c = userClaims cfg s.clock user := by
  have hne := issuers_nodup
  simp only [List.nodup_cons, List.mem_cons, List.not_mem_nil, or_false, not_or] at hne
  rw [mem_issues_iff, or_iff_left]
  rintro (⟨_, _, _, -, -, rfl⟩ | ⟨_, _, -, -, rfl⟩ | ⟨_, -, rfl⟩)
  · exact hne.1.1 hc.symm
  · exact hne.1.2.1 hc.symm
  · exact hne.1.2.2 hc.symm

/-- Exchange codes are signed for the users that come back from Google. -/
theorem mem_issues_exchange {s : State} {o : Op} {c : Claims} (hc : c.iss = oauthExchangeIssuer)
    (h : c ∈ issues cfg s o) :
    ∃ browser q user, o = .callback browser q ∧
      googleCallback s q (s.stateCookie browser) = .ok user ∧
      c = exchangeClaims (userToken cfg s.clock user) s.clock := by
  have hne := issuers_nodup
  simp only [List.nodup_cons, List.mem_cons, List.not_mem_nil, or_false, not_or] at hne
  rcases mem_issues_iff.mp h with ⟨_, -, rfl⟩ | hexchange | ⟨_, _, -, -, rfl⟩ | ⟨_, -, rfl⟩
  · exact absurd hc hne.1.1
  · exact hexchange
  · exact absurd hc.symm hne.2.1.1
  · exact absurd hc.symm hne.2.1.2

/-- Tokens for ingest are signed for clients. -/
theorem mem_issues_ingest {s : State} {o : Op} {c : Claims} (hc : c.iss = ingestOauthIssuer)
    (h : c ∈ issues cfg s o) :
    ∃ sourceId, o = .clientToken sourceId ∧ c = ingestClaims sourceId s.clock := by
  have hne := issuers_nodup
  simp only [List.nodup_cons, List.mem_cons, List.not_mem_nil, or_false, not_or] at hne
  rcases mem_issues_iff.mp h with ⟨_, -, rfl⟩ | ⟨_, _, _, -, -, rfl⟩ | ⟨_, _, -, -, rfl⟩ | hingest
  · exact absurd hc hne.1.2.2
  · exact absurd hc hne.2.1.2
  · exact absurd hc hne.2.2.1
  · exact hingest

/-! ### Whom a request is served for -/

/-- The token is a session of the user, who signed in during the run and no longer ago than a
session lasts. -/
def SessionOf (cfg : Settings) (s₀ : State) (ops : List Op) (t : Str) (user : User) : Prop :=
  ∃ pre o post, ops = pre ++ o :: post ∧ SignsIn (run (step cfg) s₀ pre) o user ∧
    Jose.scheme.Carries t (userClaims cfg (run (step cfg) s₀ pre).clock user) ∧
    (run (step cfg) s₀ ops).clock ≤ (run (step cfg) s₀ pre).clock + cfg.jwtExpireHours * 3600

/-- A text in a request that is the session of the user. -/
def Presents (cfg : Settings) (s₀ : State) (ops : List Op) (text : Option Str) (user : User) :
    Prop :=
  ∃ t, text = some t ∧ t ≠ [] ∧ SessionOf cfg s₀ ops t user

omit [Unicode] [Services] in
@[simp] theorem claimsCaller_userClaims (now : ℕ) (user : User) :
    claimsCaller (userClaims cfg now user) = userCaller user user.email := rfl

/-- A genuine token is taken for a session exactly if it is one. -/
theorem map_decodeToken_eq_some_iff {s₀ : State} (hissued : s₀.issued = []) {ops : List Op}
    {t : Str} (ht : Jose.scheme.Genuine (· ∈ (run (step cfg) s₀ ops).issued) t) {caller : Caller} :
    (decodeToken (run (step cfg) s₀ ops).clock t).map claimsCaller = some caller ↔
      ∃ user, SessionOf cfg s₀ ops t user ∧ caller = userCaller user user.email := by
  rw [Option.map_eq_some_iff]
  constructor
  · rintro ⟨c, hc, rfl⟩
    obtain ⟨hcar, hiss, hexp⟩ := decodeToken_eq_some_iff.mp hc
    have hmem := (mem_issued_run_iff cfg).mp (ht c hcar)
    simp only [hissued, List.not_mem_nil, false_or] at hmem
    obtain ⟨pre, o, post, hsplit, ho⟩ := sometime_iff_exists_split.mp hmem
    obtain ⟨user, huser, rfl⟩ := (mem_issues_session_iff hiss).mp ho
    exact ⟨user, ⟨pre, o, post, hsplit, huser, hcar, hexp⟩, claimsCaller_userClaims _ _⟩
  · rintro ⟨user, ⟨pre, o, post, -, -, hcar, hexp⟩, rfl⟩
    exact ⟨_, decodeToken_eq_some_iff.mpr ⟨hcar, rfl, hexp⟩, claimsCaller_userClaims _ _⟩

/-- A genuine token is taken for one of a client exactly if it was given to it, no longer ago than
such a token lasts: no session and no code passes for one. -/
theorem decodeIngestToken_run_eq_some_iff {s₀ : State} (hissued : s₀.issued = []) {ops : List Op}
    {t : Str} (ht : Jose.scheme.Genuine (· ∈ (run (step cfg) s₀ ops).issued) t) {sourceId : Str} :
    decodeIngestToken (run (step cfg) s₀ ops).clock t = some sourceId ↔
      ∃ pre post, ops = pre ++ .clientToken sourceId :: post ∧
        Jose.scheme.Carries t (ingestClaims sourceId (run (step cfg) s₀ pre).clock) ∧
        (run (step cfg) s₀ ops).clock ≤
          (ingestClaims sourceId (run (step cfg) s₀ pre).clock).exp := by
  rw [decodeIngestToken_eq_some_iff]
  constructor
  · rintro ⟨c, hcar, hiss, hexp, -, hsub⟩
    have hmem := (mem_issued_run_iff cfg).mp (ht c hcar)
    simp only [hissued, List.not_mem_nil, false_or] at hmem
    obtain ⟨pre, o, post, hsplit, ho⟩ := sometime_iff_exists_split.mp hmem
    obtain ⟨sourceId', rfl, rfl⟩ := mem_issues_ingest hiss ho
    cases hsub
    exact ⟨pre, post, hsplit, hcar, hexp⟩
  · rintro ⟨pre, post, -, hcar, hexp⟩
    exact ⟨_, hcar, rfl, hexp, rfl, rfl⟩

/-- The texts of a request are genuine tokens, or none. -/
def GenuineRequest (issued : List Claims) (req : Credentials) : Prop :=
  ∀ t, req.authorization = some t ∨ req.sessionCookie = some t → Jose.scheme.Genuine (· ∈ issued) t

theorem map_decode_presented_iff {s₀ : State} (hissued : s₀.issued = []) {ops : List Op}
    {text : Option Str}
    (ht : ∀ t, text = some t → Jose.scheme.Genuine (· ∈ (run (step cfg) s₀ ops).issued) t)
    {caller : Caller} :
    Str.truthy text = true ∧ (decodeToken (run (step cfg) s₀ ops).clock (Str.orEmpty text)).map
      claimsCaller = some caller ↔
      ∃ user, Presents cfg s₀ ops text user ∧ caller = userCaller user user.email := by
  cases text with
  | none => simp [Presents, Str.truthy]
  | some t =>
    rw [Str.orEmpty_some, map_decodeToken_eq_some_iff hissued (ht t rfl)]
    simp only [Str.truthy, Str.orEmpty_some, bne_iff_ne, ne_eq, Presents, Option.some.injEq,
      exists_eq_left', and_assoc]
    constructor
    · rintro ⟨hne, user, h⟩
      exact ⟨user, hne, h⟩
    · rintro ⟨user, hne, h⟩
      exact ⟨hne, user, h⟩

theorem cookieCaller_eq_some_iff {s₀ : State} (hissued : s₀.issued = []) {ops : List Op}
    {req : Credentials} (hreq : GenuineRequest (run (step cfg) s₀ ops).issued req)
    {caller : Caller} :
    cookieCaller (run (step cfg) s₀ ops) req = some caller ↔
      ∃ user, Presents cfg s₀ ops req.sessionCookie user ∧
        caller = userCaller user user.email := by
  rw [← map_decode_presented_iff hissued fun t ht => hreq t (Or.inr ht), cookieCaller,
    Option.ite_none_right_eq_some]

/-- The admin key in the header of a request. -/
def headerKey (cfg : Settings) (verifyKey : Str → Str → Bool) (s : State) (req : Credentials) :
    Option ResolvedAdminKey :=
  resolveAdminKey (authSources cfg verifyKey s) (Str.orEmpty req.authorization)

theorem bearerCaller_eq (s : State) (req : Credentials) :
    bearerCaller cfg verifyKey s req =
      ((if Str.truthy req.authorization then
          (decodeToken s.clock (Str.orEmpty req.authorization)).map claimsCaller
        else none) <|> (headerKey cfg verifyKey s req).map keyCaller) := by
  rw [bearerCaller, headerKey]
  split_ifs with h
  · rfl
  · have hempty : Str.orEmpty req.authorization = [] := by simpa [Str.truthy] using h
    rw [hempty]
    rfl

/-- Whom a request may be served for: whom a session in its header stands for, else an admin key in
its header, else whom the session in its cookie stands for. -/
def Serves (cfg : Settings) (verifyKey : Str → Str → Bool) (s₀ : State) (ops : List Op)
    (req : Credentials) (caller : Caller) : Prop :=
  (∃ user, Presents cfg s₀ ops req.authorization user ∧ caller = userCaller user user.email) ∨
  (¬ ∃ user, Presents cfg s₀ ops req.authorization user) ∧
    ((∃ resolved, headerKey cfg verifyKey (run (step cfg) s₀ ops) req = some resolved ∧
        caller = keyCaller resolved) ∨
      headerKey cfg verifyKey (run (step cfg) s₀ ops) req = none ∧
        ∃ user, Presents cfg s₀ ops req.sessionCookie user ∧ caller = userCaller user user.email)

theorem currentCaller_eq_ok_iff {s₀ : State} (hissued : s₀.issued = [])
    (hdev : cfg.allowDevHeaders = false) {ops : List Op} {req : Credentials}
    (hreq : GenuineRequest (run (step cfg) s₀ ops).issued req) {caller : Caller} :
    currentCaller cfg verifyKey (run (step cfg) s₀ ops) req = .ok caller ↔
      Serves cfg verifyKey s₀ ops req caller := by
  have htoken : ∀ caller, (if Str.truthy req.authorization then
      (decodeToken (run (step cfg) s₀ ops).clock (Str.orEmpty req.authorization)).map claimsCaller
      else none) = some caller ↔
        ∃ user, Presents cfg s₀ ops req.authorization user ∧
          caller = userCaller user user.email := by
    intro caller
    rw [← map_decode_presented_iff hissued fun t ht => hreq t (Or.inl ht),
      Option.ite_none_right_eq_some]
  have hnone : (if Str.truthy req.authorization then
      (decodeToken (run (step cfg) s₀ ops).clock (Str.orEmpty req.authorization)).map claimsCaller
      else none) = none ↔ ¬ ∃ user, Presents cfg s₀ ops req.authorization user := by
    rw [Option.eq_none_iff_forall_ne_some]
    constructor
    · rintro h ⟨user, hu⟩
      exact h _ ((htoken _).mpr ⟨user, hu, rfl⟩)
    · intro h caller hcaller
      obtain ⟨user, hu, -⟩ := (htoken caller).mp hcaller
      exact h ⟨user, hu⟩
  have hcurrent : currentCaller cfg verifyKey (run (step cfg) s₀ ops) req = .ok caller ↔
      (bearerCaller cfg verifyKey (run (step cfg) s₀ ops) req <|>
        cookieCaller (run (step cfg) s₀ ops) req) = some caller := by
    rw [currentCaller]
    cases bearerCaller cfg verifyKey (run (step cfg) s₀ ops) req <|>
        cookieCaller (run (step cfg) s₀ ops) req with
    | none => simp [hdev]
    | some caller' => simp
  rw [hcurrent, Option.orElse_eq_some, cookieCaller_eq_some_iff hissued hreq, bearerCaller_eq,
    Option.orElse_eq_some, Option.orElse_eq_none, htoken, hnone, Option.map_eq_some_iff,
    Option.map_eq_none_iff, Serves]
  simp only [eq_comm (a := caller)]
  rw [or_assoc, and_assoc, ← and_or_left]

/-- A request is served for the callers of some roles exactly if it may be served for one. -/
theorem requireRole_eq_ok_iff {s₀ : State} (hissued : s₀.issued = [])
    (hdev : cfg.allowDevHeaders = false) {ops : List Op} {req : Credentials}
    (hreq : GenuineRequest (run (step cfg) s₀ ops).issued req) (roles : List Str) (detail : Str)
    {caller : Caller} :
    requireRole cfg verifyKey roles detail (run (step cfg) s₀ ops) req = .ok caller ↔
      caller.role ∈ roles ∧ Serves cfg verifyKey s₀ ops req caller := by
  rw [← currentCaller_eq_ok_iff verifyKey hissued hdev hreq, requireRole]
  cases currentCaller cfg verifyKey (run (step cfg) s₀ ops) req with
  | error e => simp
  | ok caller' =>
    by_cases hrole : caller'.role ∈ roles
    · simp only [hrole, not_true_eq_false, if_false, Except.ok.injEq]
      constructor
      · rintro rfl
        exact ⟨hrole, rfl⟩
      · exact fun h => h.2
    · simp only [hrole, not_false_eq_true, if_true, reduceCtorEq, Except.ok.injEq, false_iff,
        not_and]
      rintro hrole' rfl
      exact hrole hrole'

/-! ### The callers of the tenant checks -/

/-- What the tenant checks read of a caller. -/
def Caller.context (caller : Caller) : UserContext where
  email := caller.email
  tenantId := caller.tenantId
  rawIdentity := caller.rawIdentity
  crossTenant := caller.crossTenant

/-- The callers of the tenant checks are these callers. -/
theorem getCurrentUserContext_eq (hdev : cfg.allowDevHeaders = false) (s : State)
    (req : Credentials) :
    getCurrentUserContext (authSources cfg verifyKey s) req =
      match currentCaller cfg verifyKey s req with
      | .ok caller => .ok caller.context
      | .error _ => .error (str "Authentication required") := by
  have hclaims : ∀ t, ((authSources cfg verifyKey s).decodeToken t).map TokenClaims.context =
      ((decodeToken s.clock t).map claimsCaller).map Caller.context := by
    intro t
    change Option.map _ (Option.map _ (decodeToken s.clock t)) = _
    cases decodeToken s.clock t <;> rfl
  have hkeys : ∀ resolved : Option ResolvedAdminKey, resolved.map ResolvedAdminKey.context =
      (resolved.map keyCaller).map Caller.context := by
    intro resolved
    cases resolved <;> rfl
  have hbearer : bearerContext (authSources cfg verifyKey s) req =
      (bearerCaller cfg verifyKey s req).map Caller.context := by
    rw [bearerContext, bearerCaller]
    split_ifs with h
    · simp only [hclaims, hkeys]
      cases (decodeToken s.clock (Str.orEmpty req.authorization)).map claimsCaller <;>
        simp
    · rfl
  have hcookie : cookieContext (authSources cfg verifyKey s) req =
      (cookieCaller s req).map Caller.context := by
    rw [cookieContext, cookieCaller]
    split_ifs with h
    · rw [hclaims]
    · rfl
  have hheader : devHeaderContext (authSources cfg verifyKey s) req = none := by
    rw [devHeaderContext]
    simp [authSources, hdev]
  rw [getCurrentUserContext, resolveUserContext, hbearer, hcookie, hheader, currentCaller]
  cases bearerCaller cfg verifyKey s req with
  | some caller => rfl
  | none =>
    cases cookieCaller s req with
    | some caller => rfl
    | none => simp [hdev]

end Backend

/-! ### A login -/

/-- Services that hide nothing, around a library that signs. -/
@[reducible] def openServices (J : Jose) : Services where
  toJose := J
  checkpw plain passwordHash := plain = passwordHash
  challenge := id
  sqlLower s := s.map Char.toLower
  googleEmail consents code verifier :=
    (consents.find? fun c => c.code = code ∧ c.challenge = verifier).map fun c => some c.email
  googleEmail_sound {consents code verifier email} h := by
    obtain ⟨c, hc, heq⟩ := Option.map_eq_some_iff.mp h
    have hspec : c.code = code ∧ c.challenge = verifier := by
      simpa using List.find?_some hc
    exact ⟨c, List.mem_of_find?_eq_some hc, hspec.1, Option.some.inj heq, hspec.2⟩

/-- A user with a password. -/
def admin : User := ⟨str "admin", none, str "admin@vat", str "admin", some (str "pw")⟩

/-- A user of a tenant that signs in with Google. -/
def ann : User := ⟨str "u2", some (str "t2"), str "ann@vat", str "reviewer", none⟩

def sampleState : State where
  clock := 0
  users := ⟨[admin, ann], by decide, by decide⟩
  tenants := ⟨[⟨str "t2", authMethodGoogle⟩], by decide, by decide⟩
  adminKeys := []
  consents := []
  stateCookie _ := none
  session _ := none
  issued := []

/-- Sessions of a day. -/
def sampleSettings : Settings := ⟨24, false, true⟩

/-- A library and services that hide nothing. -/
@[reducible] def sampleServices : Services := openServices openJose

section Sample

attribute [local instance] asciiUnicode

theorem login_admin (J : Jose) :
    let _ := openServices J
    login sampleState (str "admin") (str "pw") = .ok admin := by
  intro _
  rfl

attribute [local instance] sampleServices

theorem encode_ne_nil (c : Claims) : openJose.scheme.encode c ≠ [] :=
  Signed.Scheme.ofEncodable_encode_ne_nil Claims.iss Claims.exp c

/-- A request with the session of a login. -/
def adminRequest : Credentials where
  authorization := some (userToken sampleSettings 0 admin)
  xApiKey := none
  xVatUser := none
  sessionCookie := none

theorem requireRole_eq_ok_iff_admin :
    requireRole sampleSettings (fun _ _ => false) [str "admin"] (str "Admin role required")
      (run (step sampleSettings) sampleState
        [.login 0 (str "admin") (str "pw"), .pass 3600]) adminRequest =
      .ok (userCaller admin admin.email) := by
  have hissued : userClaims sampleSettings 0 admin ∈ (run (step sampleSettings) sampleState
      [.login 0 (str "admin") (str "pw"), .pass 3600]).issued :=
    (mem_issued_run_iff sampleSettings).mpr (Or.inr (Or.inl (mem_issues_iff.mpr
      (Or.inl ⟨admin, login_admin openJose, rfl⟩))))
  refine (requireRole_eq_ok_iff _ rfl rfl ?_ _ _).mpr ⟨by decide, Or.inl ⟨admin, ?_, rfl⟩⟩
  · rintro t (ht | ht)
    · cases ht
      exact Signed.Scheme.genuine_encode hissued
    · cases ht
  · exact ⟨_, rfl, encode_ne_nil _, [], _, [.pass 3600], rfl, login_admin openJose,
      Signed.Scheme.carries_encode_iff.mpr rfl, by decide⟩

theorem decodeIngestToken_run_eq_some_iff_ci :
    decodeIngestToken (run (step sampleSettings) sampleState
      [.clientToken (str "ci"), .pass 60]).clock (createIngestToken (str "ci") 0) =
        some (str "ci") := by
  have hissued : ingestClaims (str "ci") 0 ∈ (run (step sampleSettings) sampleState
      [.clientToken (str "ci"), .pass 60]).issued :=
    (mem_issued_run_iff sampleSettings).mpr (Or.inr (Or.inl (mem_issues_iff.mpr
      (Or.inr (Or.inr (Or.inr ⟨_, rfl, rfl⟩))))))
  exact (decodeIngestToken_run_eq_some_iff rfl (Signed.Scheme.genuine_encode hissued)).mpr
    ⟨[], [.pass 60], rfl, Signed.Scheme.carries_encode_iff.mpr rfl, by decide⟩

end Sample

end Vat.SignIn
