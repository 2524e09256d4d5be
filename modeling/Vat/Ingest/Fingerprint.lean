import Mathlib.Data.List.Sort
import Vat.Delimited.Fields
import Vat.Identity.Dedup
import Vat.Ingest.Payload

/-!
# Fingerprints of ingested findings

The strategies that pick the text a fingerprint is the SHA-256 digest of. SHA-256 is a function from
texts to hexadecimal texts that is assumed to be injective.

Source: `backend/app/services/dedup.py`, lines 30–81; `backend/app/services/ingest_identity.py`;
`backend/app/services/openscap_identity.py`, lines 107–120;
`backend/app/services/sarif_fingerprints.py`.

## Main definitions

* `Sha256`, `unaryDigest`.
* `makeFingerprint`, `makeFingerprintForSourceIssue`, `makeOpenscapFingerprint`,
  `resolvePartialFingerprints`.
* `computeIngestFingerprint`.
-/

namespace Vat

/-- SHA-256 of a text, as a hexadecimal text. -/
class Sha256 where
  hexdigest : Str → Str
  hexdigest_injective : Function.Injective hexdigest
  mem_hexdigest : ∀ s, ∀ c ∈ hexdigest s, c ∈ str "0123456789abcdef"

/-- Each code point in unary, ended by a one. -/
def unaryHex (s : Str) : Str :=
  Delimited.terminated '1' (s.map fun c => List.replicate c.toNat '0')

theorem unaryHex_injective : Function.Injective unaryHex := by
  have hfields : ∀ s : Str, ∀ x ∈ s.map (fun c : Char => List.replicate c.toNat '0'), '1' ∉ x := by
    intro s x hx hone
    obtain ⟨c, -, rfl⟩ := List.mem_map.mp hx
    exact absurd (List.eq_of_mem_replicate hone) (by decide)
  intro s t h
  have hsplit : ∀ s, (unaryHex s).splitOn '1' =
      s.map (fun c : Char => List.replicate c.toNat '0') ++ [[]] := fun s => by
    rw [unaryHex, ← List.append_nil (Delimited.terminated _ _),
      Delimited.splitOn_terminated_append (hfields s), List.splitOn_nil]
  have hmap := List.append_cancel_right ((hsplit s).symm.trans ((congrArg _ h).trans (hsplit t)))
  refine List.map_injective_iff.mpr (fun c d hcd => ?_) hmap
  have hlen := congrArg List.length hcd
  rw [List.length_replicate, List.length_replicate] at hlen
  exact Char.toNat_inj.mp hlen

/-- An injective digest that is easy to compute. -/
@[reducible] def unaryDigest : Sha256 where
  hexdigest := unaryHex
  hexdigest_injective := unaryHex_injective
  mem_hexdigest s c hc := by
    obtain ⟨x, hx, hc⟩ := List.mem_flatMap.mp hc
    obtain ⟨d, -, rfl⟩ := List.mem_map.mp hx
    rcases List.mem_append.mp hc with hc | hc
    · rw [List.eq_of_mem_replicate hc]
      decide
    · rw [List.mem_singleton.mp hc]
      decide

section Strategies

variable [Unicode] [Sha256]

/-- Deterministic fingerprint for dedup: CVE, component, asset and source. -/
def makeFingerprint (cveId component image branch tag sourceName : Str) : Str :=
  let cve := normalize cveId
  let comp := componentBase component
  let img := normalize image
  let br := normalize branch
  let tg := normalize tag
  if sourceName ≠ [] ∧ Str.strip sourceName ≠ [] then
    Sha256.hexdigest (Str.join '|' [cve, comp, img, br, tg, normalize sourceName])
  else Sha256.hexdigest (Str.join '|' [cve, comp, img, br, tg])

/-- Fingerprint by source and issue id, with the asset. -/
def makeFingerprintForSourceIssue (sourceName sourceIssueId image branch tag : Str) : Str :=
  if sourceName = [] ∨ sourceIssueId = [] then []
  else
    Sha256.hexdigest (sourceName ++ str ":" ++ Str.strip sourceIssueId ++ str "|" ++
      normalize image ++ str "|" ++ normalize branch ++ str "|" ++ normalize tag)

/-- Deterministic identity key for OpenSCAP findings. -/
def makeOpenscapFingerprint (canonicalAssetId stableRuleKey benchmarkFamily : Str)
    (profileScope : Option Str) : Str :=
  Sha256.hexdigest (Str.join '|' [str "openscap", normalize canonicalAssetId,
    normalize stableRuleKey, normalize benchmarkFamily, normalizeProfileScope profileScope])

omit [Unicode] [Sha256] in
/-- `pf.get(key)`. -/
def fingerprintOf (pf : List (Str × Str)) (key : Str) : Str := (pf.lookup key).getD []

omit [Unicode] [Sha256] in
/-- The entries of a mapping with distinct keys, in the order of the keys. -/
def sortedFingerprints (pf : List (Str × Str)) : List (Str × Str) :=
  pf.insertionSort fun a b => ¬ b.1 < a.1

omit [Unicode] [Sha256] in
/-- The text that a mapping of partial fingerprints is resolved to. -/
def fingerprintMaterial (pf : List (Str × Str)) : Option Str :=
  let lineHash := str "primaryLocationLineHash"
  let lineHashV1 := fingerprintOf pf (lineHash ++ str "/v1")
  let lineHashes := (sortedFingerprints pf).filter fun e => Str.startsWith e.1 lineHash ∧ e.2 ≠ []
  let regionHash := fingerprintOf pf (str "contextRegionHash")
  let regionHashV1 := fingerprintOf pf (str "contextRegionHash/v1")
  if Str.strip lineHashV1 ≠ [] then some (Str.strip lineHashV1)
  else
    match lineHashes with
    | e :: _ => some (Str.strip e.2)
    | [] =>
      if Str.strip regionHashV1 ≠ [] then some (Str.strip regionHashV1)
      else if Str.strip regionHash ≠ [] then some (Str.strip regionHash)
      else
        let blob := Str.join '|' (((sortedFingerprints pf).filter fun e => e.2 ≠ []).map
          fun e => e.1 ++ str "=" ++ e.2)
        if blob = [] then none else some blob

omit [Unicode] in
/-- The digest of partial fingerprints. -/
def resolvePartialFingerprints (pf : List (Str × Str)) : Option Str :=
  if pf = [] then none else (fingerprintMaterial pf).map Sha256.hexdigest

/-! ### The strategies -/

/-- `OpenSCAPFingerprintStrategy.compute_fingerprint`. -/
def openscapFingerprint (payload : VatFindingSchema) : Str :=
  let image := Str.orEmpty payload.image
  let tag := Str.orEmpty payload.tag
  let component := payload.componentText
  let assetForIdentity :=
    if image ≠ [] then image else if component ≠ [] then component else tag
  let benchmark := Str.orElse payload.benchmarkFamily payload.benchmarkId
  makeOpenscapFingerprint assetForIdentity (Str.orEmpty payload.stableRuleKey)
    (if Str.truthy benchmark then Str.orEmpty benchmark else str "unknown_benchmark")
    payload.profileScope

omit [Unicode] in
/-- The digest of the partial fingerprints of a payload. -/
def VatFindingSchema.partialFingerprint (payload : VatFindingSchema) : Option Str :=
  payload.partialFingerprints.bind resolvePartialFingerprints

omit [Unicode] [Sha256] in
/-- `str(int(line))`, empty without a line. -/
def lineText (line : Option Nat) : Str :=
  match line with
  | none => []
  | some n => (Nat.repr n).toList

omit [Unicode] [Sha256] in
/-- `payload.rule_id or payload.cve_id`. -/
def VatFindingSchema.ruleText (payload : VatFindingSchema) : Str :=
  if Str.truthy payload.ruleId then Str.orEmpty payload.ruleId else payload.cveId

/-- `DefaultFingerprintStrategy.compute_fingerprint`. -/
def defaultFingerprint (payload : VatFindingSchema) (sourceName : Str) : Str :=
  let sid := Str.strip (Str.orEmpty payload.sourceIssueId)
  let image := Str.orEmpty payload.image
  let branch := Str.orEmpty payload.branch
  let tag := Str.orEmpty payload.tag
  let scannerIdentity := Str.strip (Str.orEmpty payload.scannerIdentity)
  if sid ≠ [] then makeFingerprintForSourceIssue sourceName sid image branch tag
  else
    match payload.partialFingerprint with
    | some digest =>
      Sha256.hexdigest (str "vat:sarif:pfp:" ++ digest ++ str ":" ++ normalize sourceName)
    | none =>
      if scannerIdentity ≠ [] then
        Sha256.hexdigest
          (str "vat:scanner_id:" ++ normalize scannerIdentity ++ str ":" ++ normalize sourceName)
      else if payload.findingType = .sast ∨ payload.findingType = .iac ∨
          payload.findingType = .secret then
        let rule := normalize payload.ruleText
        let path := normalize (Str.orEmpty payload.filePath)
        let snip := normalize (Str.orEmpty payload.snippetMasked)
        Sha256.hexdigest (str "vat:static:" ++ rule ++ str "|" ++ path ++ str "|" ++
          lineText payload.line ++ str "|" ++ snip ++ str "|" ++ normalize sourceName)
      else makeFingerprint payload.cveId payload.componentText image branch tag sourceName

/-- Full fingerprint selection: OpenSCAP wins with a stable rule key and an asset. -/
def computeIngestFingerprint (payload : VatFindingSchema) (sourceName : Str) : Str :=
  let hasAsset := Str.orEmpty payload.image ≠ [] ∨ payload.componentText ≠ [] ∨
    Str.orEmpty payload.tag ≠ []
  if (sourceName = str "openscap" ∨ sourceName = str "openscap_oval") ∧
      Str.truthy payload.stableRuleKey ∧ hasAsset then
    openscapFingerprint payload
  else defaultFingerprint payload sourceName

end Strategies

end Vat
