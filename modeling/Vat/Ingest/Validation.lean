import Vat.Ingest.Payload
import Vat.Python.Dynamic

/-!
# Validation of payloads

A parser gives the fields of a payload as it read them from a report, and the schema refuses a field
that is no text, or too long a one, with a `ValidationError`, which is a `ValueError`. Control
characters are dropped before that. A line may be any value that stands for a whole number.

Source: `backend/app/schemas/vat.py`, lines 26–51 and 70–230; `backend/app/parsers/base.py`.

## Main definitions

* `IntText`: the texts that pydantic takes for whole numbers.
* `sanitizeText`, `optionalText`, `optionalInt`: one field.
* `PayloadFields`, `createPayload`.

## Main results

* `guarded_createPayload`: a payload that is refused is refused with a `ValueError`.
* `validate_eq`: the payload of fields without a line, and when it is refused.
-/

namespace Vat

open Keyed Transition

/-! ### One field -/

/-- `_sanitize_untrusted_text`. -/
def sanitizeText (s : Str) : Str :=
  s.filter fun c => c == '\t' || c == '\n' || c == '\r' || 32 ≤ c.toNat

theorem sanitizeText_append (s t : Str) :
    sanitizeText (s ++ t) = sanitizeText s ++ sanitizeText t := List.filter_append ..

/-- The members that are left when a later one takes the place of an earlier one of its name. -/
def lastMembers (members : List (Str × Loaded)) : List (Str × Loaded) :=
  (members.foldl (fun d p => d.set p.1 p.2) Dictionary.empty).entries

mutual

/-- `_sanitize_untrusted_value`. -/
def sanitizeValue : Loaded → Loaded
  | .text s => .text (sanitizeText s)
  | .list items => .list (sanitizeItems items)
  | .dict members => .dict (lastMembers (sanitizeMembers members))
  | v => v

/-- The items of a list. -/
def sanitizeItems : List Loaded → List Loaded
  | [] => []
  | v :: items => sanitizeValue v :: sanitizeItems items

/-- The members of a dict. -/
def sanitizeMembers : List (Str × Loaded) → List (Str × Loaded)
  | [] => []
  | (k, v) :: members => (sanitizeText k, sanitizeValue v) :: sanitizeMembers members

end

theorem sanitizeMembers_eq_map (members : List (Str × Loaded)) :
    sanitizeMembers members = members.map fun p => (sanitizeText p.1, sanitizeValue p.2) := by
  induction members with
  | nil => rfl
  | cons p members ih =>
    rw [List.map_cons, ← ih]
    rfl

/-- A value fits into a field of type `Optional[str]` with a `max_length`. -/
def fits (maxLength : ℕ) : Loaded → Bool
  | .null => true
  | .text s => (sanitizeText s).length ≤ maxLength
  | _ => false

/-- The text in a field. -/
def fieldText : Loaded → Option Str
  | .text s => some (sanitizeText s)
  | _ => none

/-- A field of type `Optional[str]`. -/
def optionalText (maxLength : ℕ) (v : Loaded) : Except PyError (Option Str) := do
  check (fits maxLength v) .valueError
  return fieldText v

/-- A field of type `str` with a `min_length`. -/
def boundedText (minLength maxLength : ℕ) (v : Loaded) : Except PyError Str := do
  check (v.isText ∧ minLength ≤ (Str.orEmpty (fieldText v)).length) .valueError
  check (fits maxLength v) .valueError
  return Str.orEmpty (fieldText v)

/-- The text of a whole number, as pydantic reads it. -/
class IntText where
  ofText : Str → Option ℤ
  ofText_toDigits : ∀ n : ℕ, ofText (Nat.toDigits 10 n) = some (n : ℤ)

/-- Digits only. -/
@[reducible] def digitText : IntText where
  ofText s :=
    if s ≠ [] ∧ s.all Char.isDigit then some (Nat.ofDigitChars 10 s 0 : ℤ) else none
  ofText_toDigits n := by
    have hdigits : (Nat.toDigits 10 n).all Char.isDigit = true :=
      List.all_eq_true.mpr fun c hc => Nat.isDigit_of_mem_toDigits (by decide) (by decide) hc
    rw [if_pos ⟨Nat.toDigits_ne_nil, hdigits⟩, Nat.ofDigitChars_ten_toDigits]

/-- The whole number that a value stands for. -/
def wholeNumber [IntText] : Loaded → Option ℤ
  | .bool b => some (if b then 1 else 0)
  | .int i => some i
  | .float ⟨_, .finite whole true⟩ => some whole
  | .text s => IntText.ofText (sanitizeText s)
  | _ => none

/-- A field of type `Optional[int]` with `ge=1`. -/
def optionalLine [IntText] (v : Loaded) : Except PyError (Option ℕ) :=
  match v with
  | .null => .ok none
  | v => do
    check (1 ≤ (wholeNumber v).getD 0) .valueError
    return some ((wholeNumber v).getD 0).toNat

/-! ### Payloads -/

/-- The fields that a parser gives. -/
structure PayloadFields where
  cveId : Loaded
  severity : Severity
  findingType : FindingType
  description : Loaded := .text []
  component : Loaded := .null
  image : Loaded := .null
  branch : Loaded := .null
  tag : Loaded := .null
  imageDigest : Loaded := .null
  filePath : Loaded := .null
  line : Loaded := .null
  snippetMasked : Loaded := .null
  ruleId : Loaded := .null
  cweId : Loaded := .null
  ecosystem : Loaded := .null
  secretType : Loaded := .null
  resource : Loaded := .null
  title : Loaded := .null
  cvss : Loaded := .null
  riskScoring : Option (List (Str × List (Str × Loaded))) := none
  partialFingerprints : Option (List (Str × Str)) := none

section General

variable [ReprText] [IntText]

omit [IntText] in
/-- A value in a JSON column. -/
def Loaded.toJsonValue : Loaded → JsonValue
  | .null => .null
  | .text s => .text s
  | v => .other v.pyStr v.truthy

omit [ReprText] [IntText] in
/-- `_create_payload`: the asset is the image of a payload without an image and a branch. -/
def PayloadFields.withAsset (fields : PayloadFields) (asset : Loaded) : PayloadFields :=
  if asset.truthy ∧ ¬ fields.image.truthy ∧ ¬ fields.branch.truthy then
    { fields with image := asset }
  else fields

omit [ReprText] [IntText] in
/-- The fields but the image are left as they are. -/
theorem PayloadFields.withAsset_eq (fields : PayloadFields) (asset : Loaded) :
    ∃ image, fields.withAsset asset = { fields with image := image } := by
  rw [PayloadFields.withAsset]
  split_ifs
  · exact ⟨asset, rfl⟩
  · exact ⟨fields.image, rfl⟩

/-- `VatFindingSchema(**fields)`. -/
def PayloadFields.validate (fields : PayloadFields) : Except PyError VatFindingSchema := do
  let cveId ← boundedText 1 128 fields.cveId
  let description ← boundedText 0 10000 fields.description
  let component ← optionalText 512 fields.component
  let image ← optionalText 256 fields.image
  let branch ← optionalText 128 fields.branch
  let tag ← optionalText 128 fields.tag
  let imageDigest ← optionalText 128 fields.imageDigest
  let filePath ← optionalText 1024 fields.filePath
  let line ← optionalLine fields.line
  let snippetMasked ← optionalText 512 fields.snippetMasked
  let ruleId ← optionalText 256 fields.ruleId
  let cweId ← optionalText 32 fields.cweId
  let ecosystem ← optionalText 64 fields.ecosystem
  let secretType ← optionalText 128 fields.secretType
  let resource ← optionalText 512 fields.resource
  let title ← optionalText 512 fields.title
  let cvss ← optionalText 16 fields.cvss
  return { VatFindingSchema.blank (Str.strip cveId) fields.severity with
    description := description
    component := component
    image := image
    branch := branch
    tag := tag
    imageDigest := imageDigest
    filePath := filePath
    line := line
    snippetMasked := snippetMasked
    ruleId := ruleId
    cweId := cweId
    ecosystem := ecosystem
    secretType := secretType
    resource := resource
    title := title
    findingType := fields.findingType
    cvss := cvss
    riskScoring := fields.riskScoring.map fun blocks => blocks.map fun block =>
      (block.1, (lastMembers (sanitizeMembers block.2)).map fun p => (p.1, p.2.toJsonValue))
    partialFingerprints := fields.partialFingerprints.map fun pairs =>
      (pairs.foldl (fun d p => d.set (sanitizeText p.1) (sanitizeText p.2))
        Dictionary.empty).entries }

/-- `_create_payload`. -/
def createPayload (fields : PayloadFields) (asset : Loaded) : Except PyError VatFindingSchema :=
  (fields.withAsset asset).validate

/-! ### What is refused -/

variable {handled : PyError → Prop} {fields : PayloadFields} {asset : Loaded}

omit [ReprText] [IntText] in
theorem guarded_optionalText (h : handled .valueError) (n : ℕ) (v : Loaded) :
    Guarded handled (optionalText n v) :=
  (guarded_check_bind h).mpr fun _ => guarded_pure _

omit [ReprText] [IntText] in
theorem guarded_boundedText (h : handled .valueError) (m n : ℕ) (v : Loaded) :
    Guarded handled (boundedText m n v) :=
  (guarded_check_bind h).mpr fun _ => (guarded_check_bind h).mpr fun _ => guarded_pure _

omit [ReprText] in
theorem guarded_optionalLine (h : handled .valueError) (v : Loaded) :
    Guarded handled (optionalLine v) := by
  have hcheck : ∀ {i : ℤ}, Guarded handled (do
      check (1 ≤ i) PyError.valueError
      return some i.toNat) := (guarded_check_bind h).mpr fun _ => guarded_pure _
  cases v with
  | null => exact guarded_ok none
  | bool | int | float | text | list | dict => exact hcheck

/-- A payload that is refused is refused with a `ValueError`. -/
theorem guarded_createPayload (h : handled .valueError) :
    Guarded handled (createPayload fields asset) := by
  simp only [createPayload, PayloadFields.validate, guarded_bind_iff, guarded_optionalText h,
    guarded_boundedText h, guarded_optionalLine h, guarded_pure, implies_true, and_self]

/-! ### What is accepted -/

/-- The optional texts of a payload, with their lengths. -/
def PayloadFields.optionalTexts (fields : PayloadFields) : List (ℕ × Loaded) :=
  [(512, fields.component), (256, fields.image), (128, fields.branch), (128, fields.tag),
    (128, fields.imageDigest), (1024, fields.filePath), (512, fields.snippetMasked),
    (256, fields.ruleId), (32, fields.cweId), (64, fields.ecosystem), (128, fields.secretType),
    (512, fields.resource), (512, fields.title), (16, fields.cvss)]

/-- What is checked of a payload without a line. -/
structure PayloadFields.Accepted (fields : PayloadFields) : Prop where
  cveId : fields.cveId.isText ∧ 1 ≤ (Str.orEmpty (fieldText fields.cveId)).length ∧
    fits 128 fields.cveId
  description : fields.description.isText ∧ fits 10000 fields.description
  optionalTexts : ∀ q ∈ fields.optionalTexts, fits q.1 q.2

omit [ReprText] [IntText] in
theorem PayloadFields.accepted_iff : fields.Accepted ↔
    (fields.cveId.isText ∧ 1 ≤ (Str.orEmpty (fieldText fields.cveId)).length ∧
      fits 128 fields.cveId) ∧ (fields.description.isText ∧ fits 10000 fields.description) ∧
      ∀ q ∈ fields.optionalTexts, fits q.1 q.2 :=
  ⟨fun h => ⟨h.cveId, h.description, h.optionalTexts⟩, fun h => ⟨h.1, h.2.1, h.2.2⟩⟩

omit [ReprText] [IntText] in
instance (fields : PayloadFields) : Decidable fields.Accepted :=
  decidable_of_iff _ PayloadFields.accepted_iff.symm

/-- A payload without a line whose fields pass their checks. -/
def PayloadFields.payload (fields : PayloadFields) : VatFindingSchema :=
  { VatFindingSchema.blank (Str.strip (Str.orEmpty (fieldText fields.cveId))) fields.severity with
    description := Str.orEmpty (fieldText fields.description)
    component := fieldText fields.component
    image := fieldText fields.image
    branch := fieldText fields.branch
    tag := fieldText fields.tag
    imageDigest := fieldText fields.imageDigest
    filePath := fieldText fields.filePath
    snippetMasked := fieldText fields.snippetMasked
    ruleId := fieldText fields.ruleId
    cweId := fieldText fields.cweId
    ecosystem := fieldText fields.ecosystem
    secretType := fieldText fields.secretType
    resource := fieldText fields.resource
    title := fieldText fields.title
    findingType := fields.findingType
    cvss := fieldText fields.cvss
    riskScoring := fields.riskScoring.map fun blocks => blocks.map fun block =>
      (block.1, (lastMembers (sanitizeMembers block.2)).map fun p => (p.1, p.2.toJsonValue))
    partialFingerprints := fields.partialFingerprints.map fun pairs =>
      (pairs.foldl (fun d p => d.set (sanitizeText p.1) (sanitizeText p.2))
        Dictionary.empty).entries }

omit [ReprText] [IntText] in
theorem check_bind_eq_ok_iff {α : Type} {p : Prop} [Decidable p] {e : PyError}
    {f : Unit → Except PyError α} {a : α} : (check p e >>= f) = .ok a ↔ p ∧ f () = .ok a := by
  by_cases h : p
  · rw [check_of_pos h, ok_bind, and_iff_right h]
  · rw [check_of_neg h]
    exact iff_of_false (fun ha => by cases ha) fun ha => h ha.1

omit [ReprText] [IntText] in
theorem optionalText_bind_eq_ok_iff {α : Type} {n : ℕ} {v : Loaded}
    {f : Option Str → Except PyError α} {a : α} :
    (optionalText n v >>= f) = .ok a ↔ fits n v ∧ f (fieldText v) = .ok a := by
  rw [optionalText, bind_assoc, check_bind_eq_ok_iff]
  rfl

omit [ReprText] [IntText] in
theorem boundedText_bind_eq_ok_iff {α : Type} {m n : ℕ} {v : Loaded}
    {f : Str → Except PyError α} {a : α} :
    (boundedText m n v >>= f) = .ok a ↔
      (v.isText ∧ m ≤ (Str.orEmpty (fieldText v)).length) ∧ fits n v ∧
        f (Str.orEmpty (fieldText v)) = .ok a := by
  rw [boundedText, bind_assoc, check_bind_eq_ok_iff, bind_assoc, check_bind_eq_ok_iff]
  rfl

theorem validate_eq_ok_iff {p : VatFindingSchema} (hline : fields.line = .null) :
    fields.validate = .ok p ↔ fields.Accepted ∧ fields.payload = p := by
  have hnone : ∀ {f : Option ℕ → Except PyError VatFindingSchema},
      (optionalLine Loaded.null >>= f) = f none := rfl
  have hpure : ∀ x : VatFindingSchema, (pure x : Except PyError _) = .ok p ↔ x = p :=
    fun x => ⟨fun h => by cases h; rfl, fun h => by rw [h]; rfl⟩
  simp only [PayloadFields.validate, hline, hnone, optionalText_bind_eq_ok_iff,
    boundedText_bind_eq_ok_iff, PayloadFields.accepted_iff, PayloadFields.optionalTexts,
    List.forall_mem_cons, List.not_mem_nil, false_imp_iff, implies_true, and_true, Nat.zero_le,
    and_assoc, hpure]
  rfl

/-- A payload without a line is the one of its fields, or it is refused. -/
theorem validate_eq (hline : fields.line = .null) :
    fields.validate = if fields.Accepted then .ok fields.payload else .error .valueError := by
  by_cases h : fields.Accepted
  · rw [if_pos h]
    exact (validate_eq_ok_iff hline).mpr ⟨h, rfl⟩
  · rw [if_neg h]
    cases hvalidate : fields.validate with
    | ok p => exact absurd ((validate_eq_ok_iff hline).mp hvalidate).1 h
    | error e =>
      have hguarded : Guarded (· = PyError.valueError) (createPayload fields .null) :=
        guarded_createPayload rfl
      rw [createPayload, PayloadFields.withAsset, if_neg fun h => Bool.false_ne_true h.1,
        hvalidate] at hguarded
      rw [guarded_error_iff.mp hguarded]

end General

end Vat
