import Vat.Python.Dynamic
import Vat.Python.Utf8

/-!
# The webhook of an Aikido source

Which bodies the webhook of a source accepts. The credentials are looked up under the source; where
its row has no webhook secret the secret of the environment is taken instead, also when the fallback
to the global credentials is off. HMAC-SHA256 is a parameter.

Source: `backend/app/api/settings.py`, lines 66–134; `backend/app/api/webhooks/aikido.py`, lines
80–138; `backend/app/api/webhooks/common.py`, lines 11–26.

## Main definitions

* `getAikidoCredentials`, `verifyHmac`, `authenticate`, `Accepts`.
* `ownSecret`: the webhook secret in the credentials of a source.
* `PerSource`: what a source accepts depends on its own secret alone.

## Main results

* `accepts_iff`: what a source accepts.
* `perSource_iff`: a source depends on its own secret alone exactly if it has one, or is not
  configured.
-/

namespace Vat

open Transition

/-- `hmac.new(key, payload, hashlib.sha256).hexdigest()`. -/
class HmacSha256 where
  hexdigest (key payload : Bytes) : Str

/-! ### Credentials -/

/-- The table `settings_kv`: a value under each key. -/
abbrev SettingsTable := List (Str × Loaded)

/-- What the environment configures. -/
structure AikidoConfig where
  aikidoClientId : Option Str
  aikidoClientSecret : Option Str
  aikidoRegion : Str
  aikidoWebhookSecret : Option Str

structure AikidoCredentials where
  clientId : Loaded
  clientSecret : Loaded
  region : Loaded
  webhookSecret : Loaded
  tenantId : Loaded
  syncBackEnabled : Loaded

/-- A setting of the environment as a value. -/
def optionText : Option Str → Loaded
  | none => .null
  | some s => .text s

/-- `_get_credentials`. -/
def getCredentials (settings : SettingsTable) (key : Str) : Loaded :=
  match settings.lookup key with
  | some (.dict members) => .dict members
  | _ => .dict []

/-- `_aikido_creds_key`. -/
def aikidoCredsKey (sourceId : Option Str) : Str :=
  if Str.truthy sourceId then str "aikido_credentials:" ++ Str.orEmpty sourceId
  else str "aikido_credentials"

/-- A value under one of two spellings of its name. -/
def spelled (creds : Loaded) (snake camel : String) : Loaded :=
  (creds.member snake).or (creds.member camel)

/-- The credentials in a row, with the settings of the environment where it has none. -/
def credentialsIn (config : AikidoConfig) (creds : Loaded) : AikidoCredentials where
  clientId := (spelled creds "client_id" "clientId").or (optionText config.aikidoClientId)
  clientSecret :=
    (spelled creds "client_secret" "clientSecret").or (optionText config.aikidoClientSecret)
  region := ((creds.member "region").or (.text config.aikidoRegion)).or (.ofString "eu")
  webhookSecret :=
    (spelled creds "webhook_secret" "webhookSecret").or (optionText config.aikidoWebhookSecret)
  tenantId := spelled creds "tenant_id" "tenantId"
  syncBackEnabled := creds.memberOr "sync_back_enabled" (.bool true)

/-- What a source without credentials of its own gets when the fallback is off. -/
def noCredentials (config : AikidoConfig) : AikidoCredentials where
  clientId := .null
  clientSecret := .null
  region := (Loaded.text config.aikidoRegion).or (.ofString "eu")
  webhookSecret := .null
  tenantId := .null
  syncBackEnabled := .bool true

/-- `get_aikido_credentials`. -/
def getAikidoCredentials (settings : SettingsTable) (config : AikidoConfig)
    (sourceId : Option Str) (strict : Bool) : AikidoCredentials :=
  let legacy := getCredentials settings (str "aikido_credentials")
  if Str.truthy sourceId then
    let creds := getCredentials settings (aikidoCredsKey sourceId)
    if (spelled creds "client_id" "clientId").truthy then credentialsIn config creds
    else if strict then noCredentials config
    else credentialsIn config legacy
  else credentialsIn config legacy

/-- `_configured`. -/
def AikidoCredentials.configured (creds : AikidoCredentials) : Bool :=
  creds.clientId.truthy && creds.clientSecret.truthy

/-- The webhook secret in the credentials of a source. -/
def ownSecret (settings : SettingsTable) (sourceId : Str) : Loaded :=
  spelled (getCredentials settings (aikidoCredsKey (some sourceId))) "webhook_secret"
    "webhookSecret"

/-- A source whose webhook is reachable: its credentials name a client. -/
def Configured (settings : SettingsTable) (config : AikidoConfig) (sourceId : Str) : Prop :=
  (getAikidoCredentials settings config (some sourceId) true).configured

/-- The secret of a source that is reachable is its own, or else that of the environment. -/
theorem webhookSecret_of_configured {settings : SettingsTable} {config : AikidoConfig}
    {sourceId : Str} (h : Configured settings config sourceId) :
    (getAikidoCredentials settings config (some sourceId) true).webhookSecret =
      (ownSecret settings sourceId).or (optionText config.aikidoWebhookSecret) := by
  rw [Configured, getAikidoCredentials] at h
  rw [getAikidoCredentials, ownSecret]
  by_cases hid : Str.truthy (some sourceId) = true
  · rw [if_pos hid] at h ⊢
    by_cases hpresent : (spelled (getCredentials settings (aikidoCredsKey (some sourceId)))
        "client_id" "clientId").truthy = true
    · rw [if_pos hpresent]
      rfl
    · rw [if_neg hpresent] at h
      exact absurd h Bool.false_ne_true
  · rw [if_neg hid, aikidoCredsKey, if_neg hid]
    rfl

/-! ### The signature -/

section Signatures

variable [HmacSha256]

/-- `hmac.compare_digest` compares texts of ASCII characters only. -/
def Str.isAscii (s : Str) : Bool := s.all fun c => c.val < 128

/-- The signature of a body under a secret. -/
def signatureOf (secret : Str) (body : Bytes) : Str :=
  HmacSha256.hexdigest (Str.encodeUtf8 secret) body

/-- `verify_hmac`. -/
def verifyHmac (secret : Loaded) (payload : Bytes) (signature : Option Str) :
    Except PyError Bool :=
  if ¬ secret.truthy ∨ ¬ Str.truthy signature then .ok false
  else do
    let sig := Str.strip (Str.orEmpty signature)
    let secret ← secret.asText
    check (Str.isAscii sig) .typeError
    return sig = signatureOf secret payload ∨ sig = str "sha256=" ++ signatureOf secret payload

/-- The answers to a body that is not accepted. -/
inductive Rejection
  | notConfigured
  | webhookSecretNotConfigured
  | invalidSignature
  deriving DecidableEq

/-- `_handle_aikido_webhook`, up to the signature: nothing for a body that is accepted. -/
def authenticate (creds : AikidoCredentials) (body : Bytes) (sig : Option Str) :
    Except PyError (Option Rejection) :=
  if ¬ creds.configured then .ok (some .notConfigured)
  else if ¬ creds.webhookSecret.truthy then .ok (some .webhookSecretNotConfigured)
  else do
    let valid ← verifyHmac creds.webhookSecret body sig
    return if valid then none else some .invalidSignature

/-- `aikido_webhook_per_source` accepts a body with a signature. -/
def Accepts (settings : SettingsTable) (config : AikidoConfig) (sourceId : Str) (body : Bytes)
    (sig : Option Str) : Prop :=
  authenticate (getAikidoCredentials settings config (some sourceId) true) body sig = .ok none

/-- A signature that a secret makes. -/
def Signs (secret : Str) (body : Bytes) (sig : Option Str) : Prop :=
  Str.truthy sig ∧ Str.isAscii (Str.strip (Str.orEmpty sig)) ∧
    (Str.strip (Str.orEmpty sig) = signatureOf secret body ∨
      Str.strip (Str.orEmpty sig) = str "sha256=" ++ signatureOf secret body)

/-! ### What a source accepts -/

/-- What `verify_hmac` accepts. -/
theorem verifyHmac_eq_true_iff {secret : Loaded} {body : Bytes} {sig : Option Str} :
    verifyHmac secret body sig = .ok true ↔
      ∃ s, secret = .text s ∧ s ≠ [] ∧ Signs s body sig := by
  rw [verifyHmac]
  split_ifs with h
  · refine iff_of_false (fun hok => by cases hok) ?_
    rintro ⟨s, rfl, hs, hsig, -⟩
    refine h.elim (fun hno => hno ?_) fun hno => hno hsig
    simpa [Loaded.truthy] using hs
  · obtain ⟨hsecret, hsig⟩ := not_or.mp h
    rw [not_not] at hsecret hsig
    rw [bind_eq_ok_iff]
    constructor
    · rintro ⟨s, hs, hrest⟩
      obtain rfl := Loaded.asText_eq_ok_iff.mp hs
      obtain ⟨u, hascii, hvalid⟩ := bind_eq_ok_iff.mp hrest
      refine ⟨s, rfl, by simpa [Loaded.truthy] using hsecret, hsig, check_eq_ok_iff.mp hascii, ?_⟩
      exact of_decide_eq_true (Except.ok.inj hvalid)
    · rintro ⟨s, rfl, -, -, hascii, hvalid⟩
      refine ⟨s, rfl, bind_eq_ok_iff.mpr ⟨(), check_of_pos hascii, ?_⟩⟩
      exact congrArg Except.ok (decide_eq_true hvalid)

/-- What a source accepts: signatures of its secret, when it is reachable. -/
theorem accepts_iff {settings : SettingsTable} {config : AikidoConfig} {sourceId : Str}
    {body : Bytes} {sig : Option Str} :
    Accepts settings config sourceId body sig ↔
      Configured settings config sourceId ∧
        ∃ s, (ownSecret settings sourceId).or (optionText config.aikidoWebhookSecret) = .text s ∧
          s ≠ [] ∧ Signs s body sig := by
  rw [Accepts, authenticate]
  by_cases hconf : Configured settings config sourceId
  · have hsecret := webhookSecret_of_configured hconf
    have hopen : (getAikidoCredentials settings config (some sourceId) true).configured = true :=
      hconf
    rw [if_neg (not_not.mpr hopen), and_iff_right hconf, hsecret, ← verifyHmac_eq_true_iff]
    by_cases hsome : ((ownSecret settings sourceId).or
        (optionText config.aikidoWebhookSecret)).truthy = true
    · rw [if_neg (not_not.mpr hsome), bind_eq_ok_iff]
      constructor
      · rintro ⟨valid, hvalid, h⟩
        cases valid with
        | true => exact hvalid
        | false => cases h
      · exact fun h => ⟨true, h, rfl⟩
    · rw [if_pos hsome]
      refine iff_of_false (fun h => by cases h) fun h => ?_
      obtain ⟨s, hs, hne, -⟩ := verifyHmac_eq_true_iff.mp h
      rw [hs] at hsome
      exact hsome (by simpa [Loaded.truthy] using hne)
  · have hclosed :
        ¬ (getAikidoCredentials settings config (some sourceId) true).configured = true := hconf
    rw [if_pos hclosed]
    exact iff_of_false (fun h => by cases h) fun h => hconf h.1

/-! ### Secrets of one source -/

/-- What a source accepts depends on its own secret alone: it accepts the same with any other
settings and environment in which its secret is the same and it is reachable as before, what it
accepts is signed with its secret, and so nothing is accepted that another secret signs. -/
structure PerSource (settings : SettingsTable) (config : AikidoConfig) (sourceId : Str) : Prop where
  dependsOnly : ∀ (settings' : SettingsTable) (config' : AikidoConfig),
    ownSecret settings' sourceId = ownSecret settings sourceId →
    (Configured settings' config' sourceId ↔ Configured settings config sourceId) →
    ∀ body sig,
      Accepts settings' config' sourceId body sig ↔ Accepts settings config sourceId body sig
  signedByOwn : ∀ body sig, Accepts settings config sourceId body sig →
    ∃ s, ownSecret settings sourceId = .text s ∧ s ≠ [] ∧ Signs s body sig
  rejectsOthers : ∀ other body sig, Signs other body sig →
    (∀ s, ownSecret settings sourceId = .text s → signatureOf s body ≠ signatureOf other body) →
    ¬ Accepts settings config sourceId body sig

/-- Hexadecimal digits, at least one. -/
def IsHex (s : Str) : Prop := s ≠ [] ∧ ∀ c ∈ s, c ∈ str "0123456789abcdef"

omit [HmacSha256] in
theorem IsHex.forall {s : Str} (h : IsHex s) {p : Char → Bool}
    (hp : (str "0123456789abcdef").all p) : ∀ c ∈ s, p c := fun c hc =>
  List.all_eq_true.mp hp c (h.2 c hc)

omit [HmacSha256] in
theorem IsHex.strip_eq {s : Str} (h : IsHex s) : Str.strip s = s := by
  refine Str.strip_eq_self fun c hc => ?_
  have hno : (!Str.isSpace c) = true := h.forall (p := fun c => !Str.isSpace c) (by decide) c hc
  simpa using hno

omit [HmacSha256] in
/-- A digest is no prefixed digest. -/
theorem IsHex.ne_prefixed {s : Str} (h : IsHex s) (t : Str) : s ≠ str "sha256=" ++ t := by
  rintro rfl
  have hno : ('=' != '=') = true := h.forall (p := (· != '=')) (by decide) '=' (by simp [str])
  exact absurd hno (by decide)

/-- A secret signs a body with its digest. -/
theorem signs_signatureOf {secret : Str} {body : Bytes} (h : IsHex (signatureOf secret body)) :
    Signs secret body (some (signatureOf secret body)) := by
  have hstrip : Str.strip (Str.orEmpty (some (signatureOf secret body))) =
      signatureOf secret body := h.strip_eq
  refine ⟨by simpa [Str.truthy, Str.orEmpty] using h.1, ?_, Or.inl hstrip⟩
  rw [hstrip, Str.isAscii, List.all_eq_true]
  exact h.forall (by decide)

/-- One text signs for two secrets only if their digests are equal. -/
theorem Signs.signatureOf_eq {secret other : Str} {body : Bytes} {sig : Option Str}
    (h : Signs secret body sig) (h' : Signs other body sig)
    (hhex : ∀ secret, IsHex (signatureOf secret body)) :
    signatureOf secret body = signatureOf other body := by
  obtain ⟨-, -, heq | heq⟩ := h
  · obtain ⟨-, -, heq' | heq'⟩ := h'
    · exact heq.symm.trans heq'
    · exact absurd (heq.symm.trans heq') ((hhex secret).ne_prefixed _)
  · obtain ⟨-, -, heq' | heq'⟩ := h'
    · exact absurd (heq'.symm.trans heq) ((hhex other).ne_prefixed _)
    · exact List.append_cancel_left (heq.symm.trans heq')

omit [HmacSha256] in
/-- Whether a source is reachable does not depend on the webhook secret of the environment. -/
theorem configured_withSecret (settings : SettingsTable) (config : AikidoConfig) (sourceId : Str)
    (secret : Option Str) :
    Configured settings { config with aikidoWebhookSecret := secret } sourceId ↔
      Configured settings config sourceId := by
  simp only [Configured, getAikidoCredentials]
  split_ifs with hid hpresent
  · rfl
  · rfl
  · rfl

omit [HmacSha256] in
theorem or_of_truthy {a : Loaded} (h : a.truthy) (b : Loaded) : a.or b = a := if_pos h

omit [HmacSha256] in
theorem or_of_not_truthy {a : Loaded} (h : ¬ a.truthy) (b : Loaded) : a.or b = b := if_neg h

/-- A source that is reachable depends on its own secret alone exactly if it has one: otherwise the
secret of the environment stands in for it. -/
theorem perSource_iff (hhex : ∀ key payload : Bytes, IsHex (HmacSha256.hexdigest key payload))
    (settings : SettingsTable) (config : AikidoConfig) (sourceId : Str) :
    PerSource settings config sourceId ↔
      (Configured settings config sourceId → (ownSecret settings sourceId).truthy) := by
  constructor
  · intro h hconf
    by_contra hown
    have hwith : ∀ secret sig, Accepts settings { config with aikidoWebhookSecret := secret }
        sourceId [] sig ↔ Accepts settings config sourceId [] sig := fun secret sig =>
      h.dependsOnly settings _ rfl (configured_withSecret settings config sourceId secret) [] sig
    -- a secret of the environment signs a body, and without one nothing is accepted
    have hyes : Accepts settings { config with aikidoWebhookSecret := some (str "s") } sourceId []
        (some (signatureOf (str "s") [])) := by
      refine accepts_iff.mpr ⟨(configured_withSecret _ _ _ _).mpr hconf, str "s", ?_, by decide,
        signs_signatureOf (hhex _ _)⟩
      exact or_of_not_truthy hown _
    have hno : ¬ Accepts settings { config with aikidoWebhookSecret := none } sourceId []
        (some (signatureOf (str "s") [])) := by
      intro hacc
      obtain ⟨-, s, hs, -⟩ := accepts_iff.mp hacc
      rw [or_of_not_truthy hown] at hs
      cases hs
    exact hno ((hwith none _).mpr ((hwith _ _).mp hyes))
  · intro h
    have hown : ∀ body sig, Accepts settings config sourceId body sig →
        ∃ s, ownSecret settings sourceId = .text s ∧ s ≠ [] ∧ Signs s body sig := by
      intro body sig hacc
      obtain ⟨hconf, s, hs, hne, hsigns⟩ := accepts_iff.mp hacc
      rw [or_of_truthy (h hconf)] at hs
      exact ⟨s, hs, hne, hsigns⟩
    refine ⟨fun settings' config' hsame hconf' body sig => ?_, hown, ?_⟩
    · rw [accepts_iff, accepts_iff, hconf', hsame]
      refine and_congr_right fun hconf => ?_
      rw [or_of_truthy (h hconf), or_of_truthy (h hconf)]
    · intro other body sig hother hdiffer hacc
      obtain ⟨s, hs, -, hsigns⟩ := hown body sig hacc
      exact hdiffer s hs (hsigns.signatureOf_eq hother fun _ => hhex _ _)

end Signatures

/-! ### The secret of the environment -/

/-- The two hexadecimal digits of a byte. -/
def byteDigits (b : UInt8) : Str :=
  [Nat.digitChar (b.toNat / 16), Nat.digitChar (b.toNat % 16)]

/-- The key and the payload themselves, in hexadecimal digits. -/
@[reducible] def plainHmac : HmacSha256 where
  hexdigest key payload := '0' :: (key ++ payload).flatMap byteDigits

theorem isHex_plainHmac (key payload : Bytes) : IsHex (plainHmac.hexdigest key payload) := by
  refine ⟨List.cons_ne_nil _ _, fun c hc => ?_⟩
  have hdigit : ∀ n < 16, Nat.digitChar n ∈ str "0123456789abcdef" := by decide
  rcases List.mem_cons.mp hc with rfl | hc
  · decide
  · obtain ⟨b, -, hb⟩ := List.mem_flatMap.mp hc
    have hlt : b.toNat < 256 := b.toNat_lt
    rcases List.mem_cons.mp hb with rfl | hb
    · exact hdigit _ (by omega)
    · obtain rfl := List.mem_singleton.mp hb
      exact hdigit _ (by omega)

/-- A row of the settings with the credentials of a source. -/
def aikidoRow (sourceId : String) (members : List (Str × Loaded)) : Str × Loaded :=
  (aikidoCredsKey (some (str sourceId)), .dict members)

/-- An environment with a webhook secret. -/
def configWithSecret : AikidoConfig where
  aikidoClientId := none
  aikidoClientSecret := none
  aikidoRegion := str "eu"
  aikidoWebhookSecret := some (str "env")

section

attribute [local instance] plainHmac

/-- A source with a client and a webhook secret depends on that secret alone. -/
theorem perSource_with_secret :
    PerSource [aikidoRow "x" [(str "client_id", .ofString "c"),
      (str "client_secret", .ofString "d"), (str "webhookSecret", .ofString "own")]]
      configWithSecret (str "x") :=
  (perSource_iff isHex_plainHmac _ _ _).mpr fun _ => by decide

/-- A source with a client and no webhook secret accepts what the environment's secret signs, which
is not its own. -/
theorem not_perSource : ¬ ∀ (settings : SettingsTable) (config : AikidoConfig) (sourceId : Str),
    PerSource settings config sourceId := by
  intro h
  obtain ⟨s, hs, -⟩ := (h [aikidoRow "x" [(str "client_id", .ofString "c"),
    (str "client_secret", .ofString "d")]] configWithSecret (str "x")).signedByOwn []
      (some (signatureOf (str "env") [])) (by unfold Accepts; decide)
  cases hs

end

end Vat
