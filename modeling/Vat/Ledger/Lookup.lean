import Vat.Assets.Resolve
import Vat.Identity.SubjectKey

/-!
# Reading the decision ledger

The candidate keys of a stored finding and the decision they lead to: per candidate first the
decision under the key itself, then the one an alias of the key points to.

Source: `backend/app/services/decision_ledger.py`, lines 153–205.

## Main definitions

* `candidatesForFinding`, `lookupDecision`, `governingDecision`.

## Main results

* `lookupDecision_update`: writes that keep the keys of the decisions do not change which decision
  a lookup finds.
-/

namespace Vat

open Relational

/-- `s or None`. -/
def Str.orNone (s : Str) : Option Str := if s = [] then none else some s

/-- Adapter and issue id of the first source link. -/
def sourceLinkFields (f : Finding) : Option Str × Option Str :=
  match f.externalLinks.find? fun l => l.kind = str "source" with
  | none => (none, none)
  | some l => (Str.orNone (Str.strip l.adapterKey), Str.orNone (Str.strip l.issueId))

/-- The decision under a key, else the one under the key it is an alias of. -/
def decisionUnderKey (db : Db) (tenant key : Str) : Option TriageDecision :=
  match db.decisions.getBy? (tenant, key) with
  | some row => some row
  | none =>
    match db.subjectAliases.get? (tenant, key) with
    | some a => db.decisions.getBy? (tenant, a.canonicalKey)
    | none => none

/-- The decision of the first candidate that leads to one. -/
def lookupDecision (db : Db) (tenantId : Option Str) :
    List DecisionSubjectCandidate → Option (TriageDecision × DecisionSubjectCandidate)
  | [] => none
  | candidate :: candidates =>
    match decisionUnderKey db (normalizeTenantId tenantId) candidate.subjectKey with
    | some row => some (row, candidate)
    | none => lookupDecision db tenantId candidates

theorem decisionUnderKey_mem {db : Db} {tenant key : Str} {d : TriageDecision}
    (h : decisionUnderKey db tenant key = some d) : d ∈ db.decisions.rows := by
  unfold decisionUnderKey at h
  split at h
  · next hd =>
    cases h
    exact Table.mem_of_getBy? hd
  · split at h
    · exact Table.mem_of_getBy? h
    · cases h

theorem lookupDecision_mem {db : Db} {tenantId : Option Str}
    {candidates : List DecisionSubjectCandidate} {d : TriageDecision}
    {c : DecisionSubjectCandidate} (h : lookupDecision db tenantId candidates = some (d, c)) :
    d ∈ db.decisions.rows := by
  induction candidates with
  | nil => cases h
  | cons candidate candidates ih =>
    unfold lookupDecision at h
    split at h
    · next hd =>
      cases h
      exact decisionUnderKey_mem hd
    · exact ih h

section Frame

variable {db db' : Db} {f : TriageDecision → TriageDecision}

/-- Decisions rewritten under their keys are found under the same keys. -/
theorem decisionUnderKey_mapRows {hf : KeepsKeys f} (hd : db'.decisions = db.decisions.mapRows f hf)
    (ha : db'.subjectAliases = db.subjectAliases) (tenant key : Str) :
    decisionUnderKey db' tenant key = (decisionUnderKey db tenant key).map f := by
  simp only [decisionUnderKey, hd, ha, Table.getBy?_mapRows]
  cases db.decisions.getBy? (tenant, key) with
  | some row => rfl
  | none => cases db.subjectAliases.get? (tenant, key) <;> rfl

/-- Decisions rewritten under their keys are found by the same lookups. -/
theorem lookupDecision_mapRows {hf : KeepsKeys f} (hd : db'.decisions = db.decisions.mapRows f hf)
    (ha : db'.subjectAliases = db.subjectAliases) (tenantId : Option Str)
    (candidates : List DecisionSubjectCandidate) :
    lookupDecision db' tenantId candidates =
      (lookupDecision db tenantId candidates).map fun p => (f p.1, p.2) := by
  induction candidates with
  | nil => rfl
  | cons candidate candidates ih =>
    simp only [lookupDecision, decisionUnderKey_mapRows hd ha, ih]
    cases decisionUnderKey db (normalizeTenantId tenantId) candidate.subjectKey <;> rfl

end Frame

variable [Unicode]

/-- Candidates of a stored finding on its canonical asset. -/
def candidatesForFinding (cfg : Settings) (db : Db) (f : Finding) (parserId : Option Str) :
    List DecisionSubjectCandidate :=
  decisionSubjectKeysForFinding f (canonicalAssetForFinding cfg db.assetAliases f parserId)
    (sourceLinkFields f).1 (sourceLinkFields f).2

/-- The decision that a finding resolves to, and the candidate that led to it. -/
def governingDecision (cfg : Settings) (db : Db) (f : Finding) (parserId : Option Str) :
    Option (TriageDecision × DecisionSubjectCandidate) :=
  lookupDecision db f.tenantId (candidatesForFinding cfg db f parserId)

/-- The fields of a finding that its candidate keys are computed from. -/
structure SameSubject (f g : Finding) : Prop where
  id : f.id = g.id
  tenantId : f.tenantId = g.tenantId
  image : f.image = g.image
  component : f.component = g.component
  externalLinks : f.externalLinks = g.externalLinks
  keyPayload : f.keyPayload = g.keyPayload

omit [Unicode] in
theorem SameSubject.refl (f : Finding) : SameSubject f f := ⟨rfl, rfl, rfl, rfl, rfl, rfl⟩

omit [Unicode] in
theorem SameSubject.trans {f g h : Finding} (hfg : SameSubject f g) (hgh : SameSubject g h) :
    SameSubject f h :=
  ⟨hfg.id.trans hgh.id, hfg.tenantId.trans hgh.tenantId, hfg.image.trans hgh.image,
    hfg.component.trans hgh.component, hfg.externalLinks.trans hgh.externalLinks,
    hfg.keyPayload.trans hgh.keyPayload⟩

omit [Unicode] in
theorem SameSubject.symm {f g : Finding} (h : SameSubject f g) : SameSubject g f :=
  ⟨h.id.symm, h.tenantId.symm, h.image.symm, h.component.symm, h.externalLinks.symm,
    h.keyPayload.symm⟩

/-- Findings that differ in no key field have the same candidates. -/
theorem candidatesForFinding_congr {f g : Finding} (h : SameSubject f g) {db db' : Db}
    (ha : db.assetAliases = db'.assetAliases) (cfg : Settings) (parserId : Option Str) :
    candidatesForFinding cfg db f parserId = candidatesForFinding cfg db' g parserId := by
  have hraw : f.rawAsset = g.rawAsset := by rw [Finding.rawAsset, Finding.rawAsset, h.image, h.component]
  have hsrc : sourceLinkFields f = sourceLinkFields g := by
    rw [sourceLinkFields, sourceLinkFields, h.externalLinks]
  simp only [candidatesForFinding, decisionSubjectKeysForFinding, canonicalAssetForFinding, hraw,
    hsrc, h.keyPayload, ha]

/-- Writes to the decisions that keep their keys, and writes to a finding outside its key fields,
do not change which decision governs it. -/
theorem governingDecision_mapRows {f g : Finding} (h : SameSubject f g) {db db' : Db}
    {u : TriageDecision → TriageDecision} {hu : KeepsKeys u}
    (hd : db'.decisions = db.decisions.mapRows u hu)
    (hs : db'.subjectAliases = db.subjectAliases) (ha : db'.assetAliases = db.assetAliases)
    (cfg : Settings) (parserId : Option Str) :
    governingDecision cfg db' g parserId =
      (governingDecision cfg db f parserId).map fun p => (u p.1, p.2) := by
  rw [governingDecision, governingDecision, ← h.tenantId,
    candidatesForFinding_congr h.symm ha, lookupDecision_mapRows hd hs]

theorem governingDecision_mem {cfg : Settings} {db : Db} {f : Finding} {parserId : Option Str}
    {d : TriageDecision} {c : DecisionSubjectCandidate}
    (h : governingDecision cfg db f parserId = some (d, c)) : d ∈ db.decisions.rows :=
  lookupDecision_mem h

end Vat
