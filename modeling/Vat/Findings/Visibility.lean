import Vat.Assets.Group

/-!
# Which findings a caller reaches

The caller that a request authenticates as, and the two tenant checks: the condition of the queries
behind the list of findings and the bulk update, and the check of one loaded row. The verification
of tokens and of key hashes and the search for a user are fields of `AuthSources`; the role and the
user id of a caller, which neither check reads, are left out.

Source: `backend/app/core/auth.py`; `backend/app/core/tenancy.py`;
`backend/app/services/admin_keys.py`, lines 174–210; `backend/app/services/findings_service.py`,
lines 135–260 and 731–745; `backend/app/api/findings.py`, lines 53–55.

## Main definitions

* `resolveUserContext`, `getCurrentUserContext`.
* `listedFindings`, `bulkUpdateRows`: the rows of the two queries.
* `visibleFinding`: the row of an endpoint for one finding.

## Main results

* `tenantFilter_of_authenticated`: the queries keep every row for every caller.
* `filter_agrees_iff`: when the two checks agree.
-/

namespace Vat

open Relational

/-! ### Callers -/

/-- The claims of a token that are read. -/
structure TokenClaims where
  sub : Option Str
  tenantId : Option Str

/-- An entry of the setting `admin_api_keys`. A field that the entry lacks is `none`; a `tenantId`
of `null` is `some none`. -/
structure AdminKeyEntry where
  keyId : Str
  keyHash : Option Str
  tenantId : Option (Option Str)
  crossTenant : Option Bool

/-- The scope of an admin key. -/
structure ResolvedAdminKey where
  keyId : Str
  tenantId : Option Str
  crossTenant : Bool
  legacy : Bool

/-- A row of the table `users`. -/
structure VatUser where
  email : Str
  tenantId : Option Str

/-- What authentication consults. -/
structure AuthSources where
  /-- `decode_token`. -/
  decodeToken : Str → Option TokenClaims
  /-- `verify_key`. -/
  verifyKey : Str → Str → Bool
  adminKeys : List AdminKeyEntry
  /-- `get_user_by_email`. -/
  getUserByEmail : Str → Option VatUser
  allowDevHeaders : Bool

/-- The credentials of a request. -/
structure Credentials where
  authorization : Option Str
  xApiKey : Option Str
  xVatUser : Option Str
  sessionCookie : Option Str

/-- An entry without the two fields of the tenant binding. -/
def AdminKeyEntry.legacy (e : AdminKeyEntry) : Bool :=
  e.tenantId.isNone && e.crossTenant.isNone

/-- The scope that an entry grants. -/
def AdminKeyEntry.resolved (e : AdminKeyEntry) : ResolvedAdminKey where
  keyId := e.keyId
  tenantId := if e.crossTenant.getD e.legacy then none else e.tenantId.getD none
  crossTenant := e.crossTenant.getD e.legacy
  legacy := e.legacy

/-- The entry that a key opens. -/
def AdminKeyEntry.opens (src : AuthSources) (key : Str) (e : AdminKeyEntry) : Bool :=
  match e.keyHash with
  | none => false
  | some storedHash => storedHash ≠ [] && src.verifyKey key storedHash

/-- `resolve_admin_key`. -/
def resolveAdminKey (src : AuthSources) (key : Str) : Option ResolvedAdminKey :=
  let key := Str.strip key
  if ¬ Str.startsWith key (str "vat_") then none
  else (src.adminKeys.find? (AdminKeyEntry.opens src key)).map AdminKeyEntry.resolved

/-- `_identity_from_headers`. -/
def identityFromHeaders (req : Credentials) : Str :=
  if Str.strip (Str.orEmpty req.xVatUser) ≠ [] then (Str.strip (Str.orEmpty req.xVatUser)).take 128
  else if Str.truthy req.xApiKey then str "api-key"
  else if Str.truthy req.authorization then
    let cred := Str.orEmpty req.authorization
    if 20 < cred.length then cred.take 20 ++ str "..." else cred
  else str "anonymous"

/-- The caller that a token stands for. -/
def TokenClaims.context (payload : TokenClaims) : UserContext where
  email := Str.orEmpty payload.sub
  tenantId := some (normalizeTenantId payload.tenantId)
  rawIdentity := Str.orEmpty payload.sub
  crossTenant := false

/-- The caller that an admin key stands for. -/
def ResolvedAdminKey.context (resolved : ResolvedAdminKey) : UserContext where
  email := str "admin-api-key@vat.local"
  tenantId := some (normalizeTenantId resolved.tenantId)
  rawIdentity := str "admin-api-key:" ++ resolved.keyId
  crossTenant := resolved.crossTenant

/-- The caller that the header `X-VAT-User` names. -/
def VatUser.context (user : VatUser) (xVatUser : Str) : UserContext where
  email := user.email
  tenantId := some (normalizeTenantId user.tenantId)
  rawIdentity := Str.strip xVatUser
  crossTenant := false

/-- The `Authorization` header: a token, or else an admin key. -/
def bearerContext (src : AuthSources) (req : Credentials) : Option UserContext :=
  if Str.truthy req.authorization then
    let credentials := Str.orEmpty req.authorization
    (src.decodeToken credentials).map TokenClaims.context <|>
      (resolveAdminKey src credentials).map ResolvedAdminKey.context
  else none

/-- The session cookie: a token only. -/
def cookieContext (src : AuthSources) (req : Credentials) : Option UserContext :=
  if Str.truthy req.sessionCookie then
    (src.decodeToken (Str.orEmpty req.sessionCookie)).map TokenClaims.context
  else none

/-- The header `X-VAT-User`, where the settings allow it. -/
def devHeaderContext (src : AuthSources) (req : Credentials) : Option UserContext :=
  let xVatUser := Str.orEmpty req.xVatUser
  if src.allowDevHeaders ∧ '@' ∈ Str.strip xVatUser then
    (src.getUserByEmail (Str.strip xVatUser)).map (VatUser.context · xVatUser)
  else none

/-- `_resolve_user_context`: the caller, and whether the request is authenticated. -/
def resolveUserContext (src : AuthSources) (req : Credentials) : UserContext × Bool :=
  match bearerContext src req <|> cookieContext src req <|> devHeaderContext src req with
  | some ctx => (ctx, true)
  | none => (⟨[], none, identityFromHeaders req, false⟩, false)

/-- `get_current_user_context`. -/
def getCurrentUserContext (src : AuthSources) (req : Credentials) : Except Str UserContext :=
  match resolveUserContext src req with
  | (ctx, true) => .ok ctx
  | (_, false) => .error (str "Authentication required")

/-- Every authenticated caller has a tenant. -/
theorem exists_tenant_of_authenticated {src : AuthSources} {req : Credentials} {ctx : UserContext}
    (h : getCurrentUserContext src req = .ok ctx) :
    ∃ tenantId, ctx.tenantId = some (normalizeTenantId tenantId) := by
  have hctx : (bearerContext src req <|> cookieContext src req <|> devHeaderContext src req) =
      some ctx := by
    rw [getCurrentUserContext, resolveUserContext] at h
    split at h
    case h_1 _ ctx' heq =>
      obtain rfl := Except.ok.inj h
      split at heq
      · rename_i hsome
        rw [hsome, (Prod.mk.inj heq).1]
      · cases (Prod.mk.inj heq).2
    case h_2 => cases h
  rw [Option.orElse_eq_some, Option.orElse_eq_some] at hctx
  rcases hctx with hbearer | ⟨-, hcookie | ⟨-, hheader⟩⟩
  · rw [bearerContext] at hbearer
    split at hbearer
    · rw [Option.orElse_eq_some, Option.map_eq_some_iff, Option.map_eq_some_iff] at hbearer
      rcases hbearer with ⟨payload, -, rfl⟩ | ⟨-, resolved, -, rfl⟩
      · exact ⟨payload.tenantId, rfl⟩
      · exact ⟨resolved.tenantId, rfl⟩
    · cases hbearer
  · rw [cookieContext] at hcookie
    split at hcookie
    · obtain ⟨payload, -, rfl⟩ := Option.map_eq_some_iff.mp hcookie
      exact ⟨payload.tenantId, rfl⟩
    · cases hcookie
  · rw [devHeaderContext] at hheader
    split at hheader
    · obtain ⟨user, -, rfl⟩ := Option.map_eq_some_iff.mp hheader
      exact ⟨user.tenantId, rfl⟩
    · cases hheader

/-! ### The two checks -/

/-- `_build_findings_query`, without its order, offset and limit; `filters` stands for the
conditions on the other columns. -/
def listedFindings (findings : Table Finding) (ctx : UserContext) (filters : Finding → Bool) :
    List Finding :=
  findings.rows.filter fun f => tenantFilter ctx && filters f

/-- The rows that `bulk_update_findings` changes. -/
def bulkUpdateRows (findings : Table Finding) (ctx : UserContext) (ids : List Str) : List Finding :=
  findings.rows.filter fun f => f.id ∈ ids && tenantFilter ctx

/-- The row of an endpoint for one finding. -/
def visibleFinding (findings : Table Finding) (ctx : UserContext) (findingId : Str) :
    Except Str Finding :=
  match findings.get? findingId with
  | none => .error (str "Finding not found")
  | some finding =>
    if rowTenantVisible finding.tenantId ctx then .ok finding else .error (str "Finding not found")

/-- The queries keep every row for every authenticated caller. -/
theorem tenantFilter_of_authenticated {src : AuthSources} {req : Credentials} {ctx : UserContext}
    (h : getCurrentUserContext src req = .ok ctx) : tenantFilter ctx = true := by
  obtain ⟨tenantId, htenant⟩ := exists_tenant_of_authenticated h
  rw [tenantFilter, htenant, Option.isSome_some, Bool.or_true]

/-- What an authenticated caller reaches by the bulk update: each row that it names, of any
tenant. -/
theorem mem_bulkUpdateRows {src : AuthSources} {req : Credentials} {ctx : UserContext}
    (h : getCurrentUserContext src req = .ok ctx) {findings : Table Finding} {ids : List Str}
    {f : Finding} : f ∈ bulkUpdateRows findings ctx ids ↔ f ∈ findings.rows ∧ f.id ∈ ids := by
  rw [bulkUpdateRows, List.mem_filter, tenantFilter_of_authenticated h, Bool.and_true,
    decide_eq_true_eq]

/-- The row check for a caller with a tenant. -/
theorem rowTenantVisible_eq_true_iff {ctx : UserContext} {tenantId : Str}
    (htenant : ctx.tenantId = some tenantId) (rowTenantId : Option Str) :
    rowTenantVisible rowTenantId ctx = true ↔
      ctx.crossTenant = true ∨ normalizeTenantId rowTenantId = normalizeTenantId ctx.tenantId := by
  rw [rowTenantVisible, htenant]
  split_ifs with hcross
  · exact iff_of_true rfl (.inl hcross)
  · rw [decide_eq_true_eq, or_iff_right hcross]

/-- The condition of the queries and the check of one row agree on a row exactly if the caller works
across tenants or in the tenant of the row. -/
theorem filter_agrees_iff {src : AuthSources} {req : Credentials} {ctx : UserContext}
    (h : getCurrentUserContext src req = .ok ctx) (finding : Finding) :
    (tenantFilter ctx = true ↔ rowTenantVisible finding.tenantId ctx = true) ↔
      ctx.crossTenant = true ∨
        normalizeTenantId finding.tenantId = normalizeTenantId ctx.tenantId := by
  obtain ⟨tenantId, htenant⟩ := exists_tenant_of_authenticated h
  rw [← rowTenantVisible_eq_true_iff htenant, iff_true_left (tenantFilter_of_authenticated h)]

/-! ### A finding of another tenant -/

/-- A deployment where every token is valid and names no tenant. -/
def openSources : AuthSources where
  decodeToken _ := some ⟨some (str "reviewer@acme"), none⟩
  verifyKey _ _ := false
  adminKeys := []
  getUserByEmail _ := none
  allowDevHeaders := false

/-- A request with a token. -/
def tokenRequest : Credentials := ⟨some (str "token"), none, none, none⟩

/-- A finding of the tenant `acme`. -/
def acmeFinding : Finding :=
  { Finding.blank (str "f-1") (str "fp-1") (str "CVE-2024-1") with tenantId := some (str "acme") }

/-- A caller of the default tenant lists and updates a finding that no endpoint for one finding
shows to it. -/
theorem not_filter_agrees :
    ¬ ∀ (src : AuthSources) (req : Credentials) (ctx : UserContext) (finding : Finding),
        getCurrentUserContext src req = .ok ctx →
        (tenantFilter ctx = true ↔ rowTenantVisible finding.tenantId ctx = true) := by
  intro h
  have hvisible := (h openSources tokenRequest _ acmeFinding rfl).mp rfl
  exact absurd hvisible (by decide)

theorem filter_agrees_blank :
    (tenantFilter (TokenClaims.context ⟨some (str "reviewer@acme"), none⟩) = true ↔
      rowTenantVisible (Finding.blank (str "f-1") (str "fp-1") (str "CVE-2024-1")).tenantId
        (TokenClaims.context ⟨some (str "reviewer@acme"), none⟩) = true) := by
  have hctx : getCurrentUserContext openSources tokenRequest =
      .ok (TokenClaims.context ⟨some (str "reviewer@acme"), none⟩) := by rfl
  exact (filter_agrees_iff hctx _).mpr (.inr (by decide))

end Vat
