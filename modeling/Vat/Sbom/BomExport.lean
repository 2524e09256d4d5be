import Vat.Delimited.SelfDelimiting
import Vat.Frontend.GroupKeys
import Vat.Keyed.Gather
import Vat.Python.Utf8
import Vat.Sbom.Packages
import Vat.Sbom.PercentDecoding

/-!
# Packages exported as a CycloneDX document

The export writes the packages of a tenant as the components of a document that the import reads.
Both map the language of a package to the type of its package URL: the import by a table, the export
by substrings.

Source: `backend/app/services/export_service.py`, lines 49–153; `backend/app/services/sbom.py`,
lines 140–254 and 283–305.

## Main definitions

* `LicensedPackage`, `LicensedDocument`, `parseLicensed`: packages and documents with licenses.
* `languageToPurlType`, `buildCyclonedxBom`.
* `RoundTrips`: the import reads what the export was given.
* `LicensedPackage.Survives`.

## Main results

* `encodeUtf8_eq_of_quoteUrl_eq`: percent encoding keeps texts apart.
* `languageToPurlType_eq_iff`: the languages for which the export has the type of the table.
* `roundTrips_iff`: the sets of packages that survive.
-/

namespace Vat

open Keyed Relational

/-! ### Percent encoding -/

/-- What a hexadecimal digit stands for. -/
def percentDigit (c : Char) : ℕ := (str "0123456789ABCDEF").idxOf c

/-- The bytes that a percent-encoded text stands for. -/
def percentBytes : Str → Bytes
  | '%' :: a :: b :: s => UInt8.ofNat (percentDigit a * 16 + percentDigit b) :: percentBytes s
  | c :: s => String.utf8EncodeChar c ++ percentBytes s
  | [] => []

theorem percentBytes_cons {c : Char} (hc : c ≠ '%') (s : Str) :
    percentBytes (c :: s) = String.utf8EncodeChar c ++ percentBytes s := by
  rw [percentBytes]
  rintro _ _ _ rfl
  exact absurd rfl hc

theorem hexByte_eq (b : UInt8) : hexByte b =
    [(str "0123456789ABCDEF").getD (b.toNat / 16) '0',
      (str "0123456789ABCDEF").getD (b.toNat % 16) '0'] := rfl

theorem percentDigit_digit : ∀ n < 16, percentDigit ((str "0123456789ABCDEF").getD n '0') = n := by
  decide

theorem percentBytes_hexByte_append (b : UInt8) (s : Str) :
    percentBytes (('%' :: hexByte b) ++ s) = b :: percentBytes s := by
  have hb : b.toNat < 256 := b.toNat_lt
  rw [hexByte_eq, List.cons_append, List.cons_append, List.cons_append, List.nil_append,
    percentBytes, percentDigit_digit _ (by omega), percentDigit_digit _ (by omega),
    Nat.div_add_mod', UInt8.ofNat_toNat]

theorem percentBytes_bytes_append (bytes : Bytes) (s : Str) :
    percentBytes ((bytes.flatMap fun b => '%' :: hexByte b) ++ s) = bytes ++ percentBytes s := by
  induction bytes with
  | nil => rfl
  | cons b bytes ih =>
    rw [List.flatMap_cons, List.append_assoc, percentBytes_hexByte_append, ih, List.cons_append]

/-- An encoded text stands for the bytes of the text. -/
theorem percentBytes_quoteUrl (s : Str) : percentBytes (quoteUrl [] s) = Str.encodeUtf8 s := by
  induction s with
  | nil => rfl
  | cons c s ih =>
    have hword : Str.encodeUtf8 (c :: s) = String.utf8EncodeChar c ++ Str.encodeUtf8 s :=
      List.flatMap_cons
    rw [hword, ← ih, quoteUrl, List.flatMap_cons, ← quoteUrl]
    split_ifs with hc
    · refine percentBytes_cons ?_ _
      rintro rfl
      revert hc
      decide
    · exact percentBytes_bytes_append _ _

/-- Percent encoding keeps texts apart. -/
theorem quoteUrl_injective : Function.Injective (quoteUrl []) := by
  intro s t h
  have hbytes : Str.encodeUtf8 s = Str.encodeUtf8 t := by
    rw [← percentBytes_quoteUrl, ← percentBytes_quoteUrl, h]
  have hread := congrArg Bytes.decodeReplace hbytes
  rwa [Bytes.decodeReplace, Bytes.decodeReplace, Str.encodeUtf8, Str.encodeUtf8,
    Delimited.PrefixCode.decode_encode, Delimited.PrefixCode.decode_encode] at hread

/-- A visible ASCII character that is not an at sign or a slash. -/
def IsUrlChar (c : Char) : Prop := 33 ≤ c.toNat ∧ c.toNat < 128 ∧ c ≠ '@' ∧ c ≠ '/'

instance : DecidablePred IsUrlChar := fun c =>
  inferInstanceAs (Decidable (33 ≤ c.toNat ∧ c.toNat < 128 ∧ c ≠ '@' ∧ c ≠ '/'))

theorem isUrlChar_of_mem_quoteUrl {s : Str} {c : Char} (h : c ∈ quoteUrl [] s) : IsUrlChar c :=
  forall_mem_quoteUrl (by decide) (by decide) (fun _ hc => absurd hc List.not_mem_nil) c h

theorem IsUrlChar.isSpace_eq_false {c : Char} (h : IsUrlChar c) : Str.isSpace c = false := by
  obtain ⟨hge, hlt, -⟩ := h
  simp only [Str.isSpace, Bool.or_eq_false_iff, Bool.and_eq_false_imp, decide_eq_true_eq,
    decide_eq_false_iff_not, beq_eq_false_iff_ne]
  omega

/-! ### Packages and documents with licenses -/

/-- A row of `sbom_packages` with its license. -/
structure LicensedPackage extends SbomPackage where
  licenseId : Option Str

/-- A `license` object of a component. -/
structure CdxLicense where
  id : Option Str
  name : Option Str

structure LicensedComponent extends CdxComponent where
  licenses : List CdxLicense

structure LicensedDocument where
  components : List LicensedComponent
  metadataProperties : List (Option Str × Option Str)
  metadataName : Option Str

/-- The document without its licenses. -/
def LicensedDocument.plain (doc : LicensedDocument) : CdxDocument where
  components := doc.components.map LicensedComponent.toCdxComponent
  metadataProperties := doc.metadataProperties
  metadataName := doc.metadataName

structure LicensedEntry extends SbomEntry where
  licenseId : Option Str

/-- The license of a component: the first. -/
def firstLicenseId : List CdxLicense → Option Str
  | [] => none
  | lic :: _ => Str.orElse lic.id lic.name

/-- What is compared of a package: name, version, container component and license. -/
abbrev PackageKey := Str × Str × Option Str × Option Str

def LicensedPackage.key (r : LicensedPackage) : PackageKey :=
  (r.name, r.version, r.component, r.licenseId)

def LicensedEntry.key (e : LicensedEntry) : PackageKey :=
  (e.name, e.version, e.component, e.licenseId)

section Parse

variable [Unicode] [CharTables] [UrlDecoding]

/-- `_parse_cyclonedx`, with the licenses. -/
def parseLicensed (doc : LicensedDocument) : List LicensedEntry :=
  doc.components.map fun c => ⟨c.toCdxComponent.entry doc.plain, firstLicenseId c.licenses⟩

end Parse

/-! ### The export -/

section Export

variable [Unicode]

/-- `_language_to_purl_type`. The last test of the source, for a `c`, gives what follows it. -/
def languageToPurlType (lang : Str) : Str :=
  let l := Unicode.lower lang
  if Str.contains l (str "java") then str "maven"
  else if Str.contains l (str "js") ∨ Str.contains l (str "ts") ∨
      l ∈ [str "javascript", str "typescript"] then str "npm"
  else if Str.contains l (str "py") then str "pypi"
  else if Str.contains l (str "go") then str "golang"
  else if Str.contains l (str "rust") then str "cargo"
  else if Str.contains l (str "ruby") then str "gem"
  else if Str.contains l (str "php") then str "composer"
  else str "generic"

omit [Unicode] in
/-- `_supplier_from_purl_type`. -/
def supplierFromPurlType (pt : Str) : Option Str :=
  ([("npm", "npm"), ("pypi", "PyPI"), ("maven", "Maven Central"), ("golang", "Go Modules"),
    ("cargo", "crates.io"), ("gem", "RubyGems"), ("composer", "Packagist"),
    ("nuget", "NuGet")].find? fun p => str p.1 = pt).map fun p => str p.2

/-- A component as the export writes it. -/
structure BomComponent where
  name : Str
  version : Str
  purl : Str
  licenses : List CdxLicense
  language : Option Str
  supplier : Option Str
  properties : List (Str × Str)

/-- An exported document: its components and the name of its metadata component. -/
structure Bom where
  components : List BomComponent
  metadataComponentName : Option Str

namespace LicensedPackage

omit [Unicode] in
def exportName (p : LicensedPackage) : Str := if p.name = [] then str "unknown" else p.name

omit [Unicode] in
def exportVersion (p : LicensedPackage) : Str := if p.version = [] then str "0.0.0" else p.version

/-- The package URL of a package, of the type that its language suggests. -/
def exportPurl (p : LicensedPackage) : Str :=
  str "pkg:" ++ languageToPurlType (Str.orEmpty p.language) ++ str "/" ++
    quoteUrl [] p.exportName ++ str "@" ++ quoteUrl [] p.exportVersion

omit [Unicode] in
/-- `component_ref`. -/
def componentRef (p : LicensedPackage) : Option Str :=
  let ref := Str.strip (Str.orEmpty p.component)
  if ref = [] then none else some ref

/-- `dedupe_key`. -/
def dedupeKey (includeComponentRef : Bool) (p : LicensedPackage) : Str × Option Str :=
  (p.exportPurl, if includeComponentRef then p.componentRef else none)

def bomComponent (includeComponentRef : Bool) (p : LicensedPackage) : BomComponent where
  name := p.exportName
  version := p.exportVersion
  purl := p.exportPurl
  licenses :=
    if Str.truthy p.licenseId ∧ p.licenseId ≠ some (str "Unknown") then [⟨p.licenseId, none⟩]
    else []
  language := if Str.truthy p.language then p.language else none
  supplier := supplierFromPurlType (languageToPurlType (Str.orEmpty p.language))
  properties :=
    if includeComponentRef then
      (p.componentRef.map fun ref => (str "vat:container_ref", ref)).toList
    else []

end LicensedPackage

/-- `_build_cyclonedx_bom`: a package whose key was seen before is skipped. -/
def buildCyclonedxBom (packages : List LicensedPackage) (includeComponentRef : Bool)
    (metadataComponentName : Option Str) : Bom where
  components := (unseen (LicensedPackage.dedupeKey includeComponentRef) [] packages).map
    (LicensedPackage.bomComponent includeComponentRef)
  metadataComponentName := if Str.truthy metadataComponentName then metadataComponentName else none

omit [Unicode] in
/-- What the import reads of an exported component. -/
def BomComponent.licensed (c : BomComponent) : LicensedComponent where
  name := some c.name
  version := some c.version
  properties := c.properties.map fun p => (some p.1, some p.2)
  group := none
  purl := some c.purl
  bomRef := none
  language := c.language
  licenses := c.licenses

omit [Unicode] in
def Bom.licensed (bom : Bom) : LicensedDocument where
  components := bom.components.map BomComponent.licensed
  metadataProperties := []
  metadataName := bom.metadataComponentName

/-! ### The type of a language -/

/-- The type of the table for a language. -/
def ownPurlType (language : Option Str) : Option Str :=
  (purlTypeByLanguage.find? fun p =>
    str p.1 = Unicode.lower (Str.strip (Str.orEmpty language))).map fun p => str p.2

/-- The languages of the table whose type the export misses. -/
def misreadLanguages : List Str :=
  ["javascript", "npm", "node", "maven", "cargo", "nuget", "alpine", "apk", "debian", "deb"].map str

/-- The language, in lower case and without blanks around it, is none that the export misreads; one
test of the export is for the very word. -/
def LanguageKept (language : Option Str) : Prop :=
  Unicode.lower (Str.strip (Str.orEmpty language)) ∉ misreadLanguages ∧
    (Unicode.lower (Str.strip (Str.orEmpty language)) = str "typescript" →
      Unicode.lower (Str.orEmpty language) = str "typescript")

omit [Unicode] in
theorem infix_dropWhile_iff {p : Char → Bool} {needle : Str} (hne : needle ≠ [])
    (hneedle : ∀ c ∈ needle, p c = false) (s : Str) :
    needle <:+: s.dropWhile p ↔ needle <:+: s := by
  induction s with
  | nil => rfl
  | cons c s ih =>
    cases hc : p c with
    | false => rw [List.dropWhile_cons_of_neg (by simp [hc])]
    | true =>
      rw [List.dropWhile_cons_of_pos hc, ih, List.infix_cons_iff]
      refine ⟨Or.inr, fun h => h.resolve_left fun hprefix => ?_⟩
      obtain ⟨d, rest, rfl⟩ := List.exists_cons_of_ne_nil hne
      have hd := hneedle d List.mem_cons_self
      rw [(List.cons_prefix_cons.mp hprefix).1, hc] at hd
      cases hd

omit [Unicode] in
/-- A word without blanks is in a text exactly if it is in the text without the blanks around it. -/
theorem contains_strip {needle : Str} (hne : needle ≠ [])
    (hneedle : ∀ c ∈ needle, Str.isSpace c = false) (s : Str) :
    Str.contains (Str.strip s) needle = Str.contains s needle := by
  have hreverse : ∀ c ∈ needle.reverse, Str.isSpace c = false := fun c hc =>
    hneedle c (List.mem_reverse.mp hc)
  rw [Str.contains, Str.contains, Str.strip, Str.stripWhile, List.rdropWhile, decide_eq_decide,
    ← List.reverse_infix, List.reverse_reverse,
    infix_dropWhile_iff (by simpa using hne) hreverse, List.reverse_infix,
    infix_dropWhile_iff hne hneedle]

omit [Unicode] in
/-- The tests of the export on a text, with the answer to the one for two whole words. -/
def purlTypeOfText (s : Str) (named : Bool) : Str :=
  if Str.contains s (str "java") then str "maven"
  else if Str.contains s (str "js") ∨ Str.contains s (str "ts") ∨ named then str "npm"
  else if Str.contains s (str "py") then str "pypi"
  else if Str.contains s (str "go") then str "golang"
  else if Str.contains s (str "rust") then str "cargo"
  else if Str.contains s (str "ruby") then str "gem"
  else if Str.contains s (str "php") then str "composer"
  else str "generic"

theorem languageToPurlType_eq (lang : Str) : languageToPurlType lang =
    purlTypeOfText (Unicode.lower lang)
      (decide (Unicode.lower lang ∈ [str "javascript", str "typescript"])) := by
  rw [languageToPurlType, purlTypeOfText]
  simp only [decide_eq_true_eq]

omit [Unicode] in
theorem purlTypeOfText_strip (s : Str) (named : Bool) :
    purlTypeOfText (Str.strip s) named = purlTypeOfText s named := by
  have hword : ∀ w ∈ ["java", "js", "ts", "py", "go", "rust", "ruby", "php"],
      Str.contains (Str.strip s) (str w) = Str.contains s (str w) := by
    intro w hw
    have hblank : ∀ w ∈ ["java", "js", "ts", "py", "go", "rust", "ruby", "php"],
        str w ≠ [] ∧ ((str w).all fun c => !Str.isSpace c) = true := by decide
    refine contains_strip (hblank w hw).1 (fun c hc => ?_) s
    exact Bool.eq_false_of_not_eq_true' (List.all_eq_true.mp (hblank w hw).2 c hc)
  rw [purlTypeOfText, purlTypeOfText, hword "java" (by simp), hword "js" (by simp),
    hword "ts" (by simp), hword "py" (by simp), hword "go" (by simp), hword "rust" (by simp),
    hword "ruby" (by simp), hword "php" (by simp)]

end Export

/-- The tests of the export on the words of the table. -/
theorem purlTypeOfText_table : ∀ p ∈ purlTypeByLanguage, ∀ named : Bool,
    (named = true → str p.1 ∈ [str "javascript", str "typescript"]) →
      (purlTypeOfText (str p.1) named = str p.2 ↔
        str p.1 ∉ misreadLanguages ∧ (str p.1 = str "typescript" → named = true)) := by
  decide

section Languages

variable [LowerTables]

/-- The export has the type of the table exactly for the languages that are kept. -/
theorem languageToPurlType_eq_iff {language : Option Str} {t : Str}
    (h : ownPurlType language = some t) :
    languageToPurlType (Str.orEmpty language) = t ↔ LanguageKept language := by
  have hstrip := LowerTables.lower_strip (Str.orEmpty language)
  obtain ⟨p, hfind, rfl⟩ := Option.map_eq_some_iff.mp h
  have hword : str p.1 = Unicode.lower (Str.strip (Str.orEmpty language)) := by
    simpa using List.find?_some hfind
  rw [LanguageKept, ← hword, languageToPurlType_eq, ← purlTypeOfText_strip, ← hstrip, ← hword]
  -- A text that is one of the two words is its own stripped text.
  have hself : Unicode.lower (Str.orEmpty language) ∈ [str "javascript", str "typescript"] →
      str p.1 = Unicode.lower (Str.orEmpty language) := by
    intro hmem
    have hblank : ∀ s ∈ [str "javascript", str "typescript"], Str.strip s = s := by decide
    rw [hword, hstrip, hblank _ hmem]
  rw [purlTypeOfText_table p (List.mem_of_find?_eq_some hfind)]
  · refine and_congr_right fun _ => forall_congr' fun hts => ?_
    rw [decide_eq_true_eq]
    constructor
    · intro hmem
      rw [← hself hmem, hts]
    · intro heq
      rw [heq]
      exact List.mem_of_elem_eq_true rfl
  · intro hmem
    have hmem := of_decide_eq_true hmem
    rw [hself hmem]
    exact hmem

/-- A language that is not in the table is not misread. -/
theorem languageKept_of_ownPurlType_eq_none {language : Option Str}
    (h : ownPurlType language = none) : LanguageKept language := by
  have hnone : ∀ p ∈ purlTypeByLanguage,
      str p.1 ≠ Unicode.lower (Str.strip (Str.orEmpty language)) := by
    simpa [ownPurlType] using h
  have hmisread : ∀ w ∈ misreadLanguages, ∃ p ∈ purlTypeByLanguage, str p.1 = w := by decide
  refine ⟨fun hmem => ?_, fun hts => ?_⟩
  · obtain ⟨p, hp, hw⟩ := hmisread _ hmem
    exact hnone p hp hw
  · exact absurd hts.symm (hnone ("typescript", "npm") (by decide))

theorem forall_ownPurlType_iff {language : Option Str} :
    (∀ t, ownPurlType language = some t → languageToPurlType (Str.orEmpty language) = t) ↔
      LanguageKept language := by
  cases h : ownPurlType language with
  | none => exact ⟨fun _ => languageKept_of_ownPurlType_eq_none h, fun _ _ ht => by cases ht⟩
  | some t =>
    rw [← languageToPurlType_eq_iff h]
    exact ⟨fun hall => hall t rfl, fun heq u hu => heq.trans (Option.some_inj.mp hu)⟩

end Languages

/-! ### The exported package URL -/

/-- The type of a package URL: what stands between `pkg:` and the first slash. -/
def purlTypeOf (purl : Str) : Str := (Str.split1 '/' (purl.drop 4)).1

/-- The types that the export writes. -/
def exportTypes : List Str :=
  ["maven", "npm", "pypi", "golang", "cargo", "gem", "composer", "generic"].map str

/-- A package URL is read back as its type and the rest. -/
theorem split1_purl {pt : Str} (hpt : pt ∈ exportTypes) (rest : Str) :
    Str.split1 '/' ((str "pkg:" ++ pt ++ str "/" ++ rest).drop 4) = (pt, rest) := by
  have htypes : ∀ pt ∈ exportTypes, (pt.all fun c => c != '/') = true := by decide
  have hslash : ∀ c ∈ pt, (c != '/') = true := List.all_eq_true.mp (htypes pt hpt)
  have hdrop : (str "pkg:" ++ pt ++ str "/" ++ rest).drop 4 = pt ++ '/' :: rest := by
    rw [List.append_assoc, List.append_assoc]
    rfl
  rw [hdrop, Str.split1, List.takeWhile_append_of_pos hslash, List.dropWhile_append_of_pos hslash]
  exact congrArg (·, rest) (List.append_nil pt)

/-- The type is read back also when the end of the URL is cut off. -/
theorem purlTypeOf_take {pt : Str} (hpt : pt ∈ exportTypes) (rest : Str) :
    purlTypeOf ((str "pkg:" ++ pt ++ str "/" ++ rest).take 512) = pt := by
  have hshort : ∀ pt ∈ exportTypes, (str "pkg:" ++ pt ++ str "/").length ≤ 512 := by decide
  rw [List.take_append, List.take_of_length_le (hshort pt hpt), purlTypeOf, split1_purl hpt]

section Purl

variable [Unicode]

theorem languageToPurlType_mem (lang : Str) : languageToPurlType lang ∈ exportTypes := by
  rw [languageToPurlType]
  split_ifs <;> decide

namespace LicensedPackage

theorem exportPurl_eq (p : LicensedPackage) : p.exportPurl =
    str "pkg:" ++ languageToPurlType (Str.orEmpty p.language) ++ str "/" ++
      (quoteUrl [] p.exportName ++ '@' :: quoteUrl [] p.exportVersion) := by
  rw [exportPurl, List.append_assoc, List.append_assoc]
  rfl

theorem purlTypeOf_exportPurl (p : LicensedPackage) :
    purlTypeOf (p.exportPurl.take 512) = languageToPurlType (Str.orEmpty p.language) := by
  rw [exportPurl_eq]
  exact purlTypeOf_take (languageToPurlType_mem _) _

/-- A package URL tells the name and the version. -/
theorem eq_of_exportPurl_eq {p q : LicensedPackage} (h : p.exportPurl = q.exportPurl) :
    p.exportName = q.exportName ∧ p.exportVersion = q.exportVersion := by
  have hrest := congrArg (fun purl => (Str.split1 '/' (purl.drop 4)).2) h
  simp only [exportPurl_eq, split1_purl (languageToPurlType_mem _)] at hrest
  have hat : ∀ s : Str, ∀ c ∈ quoteUrl [] s, c ∉ ({'@'} : Set Char) := by
    intro s c hc heq
    exact (isUrlChar_of_mem_quoteUrl hc).2.2.1 heq
  have hstop : ∀ s : Str, Delimited.Stops ({'@'} : Set Char) ('@' :: s) := fun s =>
    Delimited.stops_cons.mpr rfl
  obtain ⟨hname, hversion⟩ := Delimited.splits_of_notMem (hat _) (hat _) (hstop _) (hstop _) hrest
  exact ⟨quoteUrl_injective hname, quoteUrl_injective (List.cons_injective hversion)⟩

end LicensedPackage

end Purl

/-! ### The way there and back -/

namespace LicensedPackage

/-- The license that the import reads: one that is empty or unknown is not exported. -/
def keptLicense (p : LicensedPackage) : Option Str :=
  if Str.truthy p.licenseId ∧ p.licenseId ≠ some (str "Unknown") then p.licenseId else none

/-- The container reference that the import reads: without one, that of the document. -/
def keptRef (metadataName : Option Str) (p : LicensedPackage) : Option Str :=
  p.componentRef.or (if Str.strip (Str.orEmpty metadataName) = [] then none
    else some (Str.strip (Str.orEmpty metadataName)))

theorem componentRef_eq_some {p : LicensedPackage} {ref : Str} (h : p.componentRef = some ref) :
    ref ≠ [] ∧ Str.strip ref = ref := by
  rw [componentRef] at h
  split_ifs at h with hne
  rw [← Option.some_inj.mp h]
  exact ⟨hne, Str.strip_strip _⟩

theorem keptRef_eq_some {metadataName : Option Str} {p : LicensedPackage} {ref : Str}
    (h : p.keptRef metadataName = some ref) : ref ≠ [] ∧ Str.strip ref = ref := by
  rw [keptRef] at h
  cases hp : p.componentRef with
  | some own =>
    rw [hp, Option.some_or, Option.some_inj] at h
    rw [← h]
    exact componentRef_eq_some hp
  | none =>
    rw [hp, Option.none_or] at h
    split_ifs at h with hne
    rw [← Option.some_inj.mp h]
    exact ⟨hne, Str.strip_strip _⟩

/-- The package is one that the document can carry: its container reference has no blanks around it,
its license is neither empty nor unknown, and its language is none that the export misreads. -/
structure Survives [Unicode] (r : LicensedPackage) : Prop where
  component : ∀ ref, r.component = some ref → ref ≠ [] ∧ Str.strip ref = ref
  license : r.licenseId ≠ some [] ∧ r.licenseId ≠ some (str "Unknown")
  language : LanguageKept r.language

theorem componentRef_eq_component {p : LicensedPackage}
    (h : ∀ ref, p.component = some ref → ref ≠ [] ∧ Str.strip ref = ref) :
    p.componentRef = p.component := by
  rw [componentRef]
  cases hp : p.component with
  | none => rfl
  | some ref =>
    obtain ⟨hne, hstrip⟩ := h ref hp
    rw [Str.orEmpty_some, hstrip]
    exact if_neg hne

theorem keptLicense_ne (p : LicensedPackage) :
    p.keptLicense ≠ some [] ∧ p.keptLicense ≠ some (str "Unknown") := by
  rw [keptLicense]
  split_ifs with h
  · refine ⟨fun hempty => ?_, h.2⟩
    rw [hempty] at h
    exact absurd h.1 (by decide)
  · exact ⟨nofun, nofun⟩

theorem keptLicense_eq_iff {p : LicensedPackage} : p.keptLicense = p.licenseId ↔
    p.licenseId ≠ some [] ∧ p.licenseId ≠ some (str "Unknown") := by
  rw [keptLicense]
  cases hp : p.licenseId with
  | none => simp
  | some lic => simp [Str.truthy]

end LicensedPackage

section RoundTrip

variable [Unicode] [CharTables] [UrlDecoding]

/-- The entry that the import reads for an exported package. -/
def LicensedPackage.readBack (metadataName : Option Str) (r : LicensedPackage) : LicensedEntry :=
  ⟨(r.bomComponent true).licensed.toCdxComponent.entry
      ⟨[], [], if Str.truthy metadataName then metadataName else none⟩,
    firstLicenseId (r.bomComponent true).licensed.licenses⟩

theorem parseLicensed_build (rows : List LicensedPackage) (metadataName : Option Str) :
    parseLicensed (buildCyclonedxBom rows true metadataName).licensed =
      (unseen (LicensedPackage.dedupeKey true) [] rows).map
        (LicensedPackage.readBack metadataName) := by
  rw [parseLicensed, buildCyclonedxBom, Bom.licensed, List.map_map, List.map_map]
  rfl

variable {metadataName : Option Str} {r : LicensedPackage}

omit [CharTables] [UrlDecoding] in
theorem containerRefProperty_exported {ref : Str} (hne : ref ≠ []) (hstrip : Str.strip ref = ref) :
    containerRefProperty [(some (str "vat:container_ref"), some ref)] = some ref := by
  have hname : Unicode.lower (Str.strip (str "vat:container_ref")) = str "vat:container_ref" :=
    Unicode.lower_eq_self (by decide)
  have hmem : str "vat:container_ref" ∈ ["vat:container_ref", "vat.container_ref",
      "container_ref", "container.image.ref"].map str := by decide
  rw [containerRefProperty, List.find?_cons_of_pos, Option.map_some, Str.orEmpty_some, hstrip]
  rw [Str.orEmpty_some, Str.orEmpty_some, hname, hstrip]
  exact decide_eq_true ⟨hmem, hne⟩

omit [CharTables] [UrlDecoding] in
/-- The import finds the container reference of an exported package. -/
theorem extractContainerRef_exported (r : LicensedPackage) (metadataName : Option Str) :
    extractContainerRef (r.bomComponent true).licensed.toCdxComponent
      ⟨[], [], if Str.truthy metadataName then metadataName else none⟩ =
        (r.keptRef metadataName).getD [] := by
  rw [extractContainerRef, LicensedPackage.keptRef]
  cases href : r.componentRef with
  | some ref =>
    have hprops : (r.bomComponent true).licensed.properties =
        [(some (str "vat:container_ref"), some ref)] := by
      rw [BomComponent.licensed, LicensedPackage.bomComponent, href]
      rfl
    obtain ⟨hne, hstrip⟩ := LicensedPackage.componentRef_eq_some href
    rw [hprops, containerRefProperty_exported hne hstrip]
    rfl
  | none =>
    have hprops : (r.bomComponent true).licensed.properties = [] := by
      rw [BomComponent.licensed, LicensedPackage.bomComponent, href]
      rfl
    have hmeta : Str.orEmpty (if Str.truthy metadataName then metadataName else none) =
        Str.orEmpty metadataName := by
      split_ifs with h
      · rfl
      · have hempty : Str.orEmpty metadataName = [] := by simpa [Str.truthy] using h
        rw [hempty, Str.orEmpty_none]
    have hnone : containerRefProperty [] = none := rfl
    have hgroup : (r.bomComponent true).licensed.group = none := rfl
    rw [hprops, Option.none_or, hnone, hgroup, hmeta, Str.orEmpty_none, Str.strip_nil,
      if_neg fun h => h rfl]
    split_ifs with h
    · rw [h]
      rfl
    · rfl

theorem component_readBack (r : LicensedPackage) (metadataName : Option Str) :
    (r.readBack metadataName).component = r.keptRef metadataName := by
  have hentry : (r.readBack metadataName).component =
      if (r.keptRef metadataName).getD [] = [] then none
      else some ((r.keptRef metadataName).getD []) := by
    rw [← extractContainerRef_exported]
    rfl
  rw [hentry]
  cases h : r.keptRef metadataName with
  | none => rfl
  | some ref => exact if_neg (LicensedPackage.keptRef_eq_some h).1

theorem licenseId_readBack (r : LicensedPackage) (metadataName : Option Str) :
    (r.readBack metadataName).licenseId = r.keptLicense := by
  have hentry : (r.readBack metadataName).licenseId =
      firstLicenseId (if Str.truthy r.licenseId ∧ r.licenseId ≠ some (str "Unknown") then
        [⟨r.licenseId, none⟩] else []) := rfl
  rw [hentry, LicensedPackage.keptLicense]
  split_ifs with h
  · exact if_pos h.1
  · rfl

theorem key_readBack (hname : r.name ≠ []) (hversion : r.version ≠ []) :
    (r.readBack metadataName).key =
      (r.name, r.version, r.keptRef metadataName, r.keptLicense) := by
  have hexportName : r.exportName = r.name := if_neg hname
  have hexportVersion : r.exportVersion = r.version := if_neg hversion
  have htruthy : Str.truthy (some r.exportName) = true := by
    rw [hexportName]
    exact bne_iff_ne.mpr hname
  have hkept : ∀ y, Str.orElse (some r.exportName) y = some r.exportName := fun y => if_pos htruthy
  have hentryName : (r.readBack metadataName).name = r.name := by
    refine Eq.trans ?_ hexportName
    exact congrArg Str.orEmpty ((congrArg (Str.orElse · _) (hkept _)).trans (hkept _))
  rw [LicensedEntry.key, hentryName, component_readBack, licenseId_readBack]
  exact congrArg (r.name, ·, _) hexportVersion

omit [CharTables] [UrlDecoding] in
theorem isSpace_of_mem_exportPurl {c : Char} (h : c ∈ r.exportPurl) : Str.isSpace c = false := by
  have hword : ∀ w : Str, (w.all fun c => !Str.isSpace c) = true → c ∈ w →
      Str.isSpace c = false := fun w hw hc =>
    Bool.eq_false_of_not_eq_true' (List.all_eq_true.mp hw c hc)
  have htypes : ∀ pt ∈ exportTypes, (pt.all fun c => !Str.isSpace c) = true := by decide
  rw [LicensedPackage.exportPurl] at h
  simp only [List.mem_append] at h
  rcases h with ((((h | h) | h) | h) | h) | h
  · exact hword _ (by decide) h
  · exact hword _ (htypes _ (languageToPurlType_mem _)) h
  · exact hword _ (by decide) h
  · exact (isUrlChar_of_mem_quoteUrl h).isSpace_eq_false
  · exact hword _ (by decide) h
  · exact (isUrlChar_of_mem_quoteUrl h).isSpace_eq_false

theorem purl_readBack (r : LicensedPackage) (metadataName : Option Str) :
    (r.readBack metadataName).purl = some (r.exportPurl.take 512) := by
  have hstrip : Str.strip r.exportPurl = r.exportPurl :=
    Str.strip_eq_self fun c => isSpace_of_mem_exportPurl
  have hstart : Str.startsWith r.exportPurl (str "pkg:") = true := by
    rw [LicensedPackage.exportPurl_eq, Str.startsWith, List.append_assoc, List.append_assoc]
    rfl
  have hextract : extractComponentPurl (r.bomComponent true).licensed.toCdxComponent =
      some r.exportPurl := by
    have hdirect : (if Str.startsWith (Str.strip r.exportPurl) (str "pkg:") then
        some (Str.strip r.exportPurl) else none) = some r.exportPurl := by
      rw [hstrip, if_pos hstart]
    exact congrArg (· <|> _) hdirect
  have hne : r.exportPurl ≠ [] := by
    rw [LicensedPackage.exportPurl_eq]
    exact List.cons_ne_nil _ _
  have hentry : (r.readBack metadataName).purl = clip (extractComponentPurl
      (r.bomComponent true).licensed.toCdxComponent <|> _) 512 := rfl
  rw [hentry, hextract]
  refine (if_neg ?_).trans ?_
  · rwa [hstrip]
  · rw [hstrip]

/-- The import of the exported document reads the packages again: the same names, versions,
container components and licenses, as many as there were, and for each a package URL of the type of
its language. -/
structure RoundTrips (metadataName : Option Str) (rows : List LicensedPackage) : Prop where
  same : ∀ k, k ∈ (parseLicensed (buildCyclonedxBom rows true metadataName).licensed).map
    LicensedEntry.key ↔ k ∈ rows.map LicensedPackage.key
  kept : (parseLicensed (buildCyclonedxBom rows true metadataName).licensed).length = rows.length
  ecosystem : ∀ r ∈ rows, ∃ e ∈ parseLicensed (buildCyclonedxBom rows true metadataName).licensed,
    e.key = r.key ∧ ∃ purl, e.purl = some purl ∧
      ∀ t, ownPurlType r.language = some t → purlTypeOf purl = t

/-- The name of the document does not stand in for the component of a package without one. -/
def NamedApart (metadataName : Option Str) (rows : List LicensedPackage) : Prop :=
  (∃ r ∈ rows, r.component = none) → Str.strip (Str.orEmpty metadataName) = []

variable {rows : List LicensedPackage}

omit [Unicode] [CharTables] [UrlDecoding] in
theorem keptRef_eq_component (hcomponent : ∀ ref, r.component = some ref →
    ref ≠ [] ∧ Str.strip ref = ref)
    (happart : r.component = none → Str.strip (Str.orEmpty metadataName) = []) :
    r.keptRef metadataName = r.component := by
  rw [LicensedPackage.keptRef, LicensedPackage.componentRef_eq_component hcomponent]
  cases h : r.component with
  | none => rw [Option.none_or, if_pos (happart h)]
  | some ref => rfl

omit [Unicode] [CharTables] [UrlDecoding] in
theorem component_eq_none_of_keptRef (h : r.keptRef metadataName = none) :
    Str.strip (Str.orEmpty metadataName) = [] := by
  rw [LicensedPackage.keptRef, Option.or_eq_none_iff] at h
  by_contra hne
  rw [if_neg hne] at h
  cases h.2

section Stored

variable [Sha256] {packages : Table SbomPackage} {tenantId : Str}

omit [Unicode] [CharTables] [UrlDecoding] in
/-- Stored packages of one name, version and component are one row. -/
theorem eq_of_stored (hkeyed : Keyed packages)
    (hrows : ∀ r ∈ rows, r.toSbomPackage ∈ tenantPackages packages tenantId)
    {p q : LicensedPackage} (hp : p ∈ rows) (hq : q ∈ rows) (hname : p.name = q.name)
    (hversion : p.version = q.version) (hcomponent : p.component = q.component) :
    p.toSbomPackage = q.toSbomPackage := by
  have hmem : ∀ r ∈ rows, r.toSbomPackage ∈ packages.rows := fun r hr =>
    List.mem_of_mem_filter (hrows r hr)
  have hid : p.id = q.id := by
    rw [hkeyed _ (hmem p hp), hkeyed _ (hmem q hq), hname, hversion, hcomponent]
  have hget := SbomPackage.get?_id (hmem p hp)
  rw [hid, SbomPackage.get?_id (hmem q hq)] at hget
  exact (Option.some_inj.mp hget).symm

end Stored

end RoundTrip

section Survival

variable [LowerTables] [CharTables] [UrlDecoding] [Sha256] {packages : Table SbomPackage}
  {tenantId : Str} {rows : List LicensedPackage}

omit [CharTables] [UrlDecoding] in
/-- No package is skipped when their container references are exported as they are. -/
theorem nodup_dedupeKey (hkeyed : Keyed packages)
    (hrows : ∀ r ∈ rows, r.toSbomPackage ∈ tenantPackages packages tenantId)
    (hnodup : (rows.map LicensedPackage.toSbomPackage).Nodup)
    (hnamed : ∀ r ∈ rows, r.name ≠ [] ∧ r.version ≠ [])
    (hcomponent : ∀ r ∈ rows, ∀ ref, r.component = some ref → ref ≠ [] ∧ Str.strip ref = ref) :
    (rows.map (LicensedPackage.dedupeKey true)).Nodup := by
  refine hnodup.of_map.map_on fun p hp q hq hkey => ?_
  obtain ⟨hpurl, href⟩ := Prod.mk.inj hkey
  rw [if_pos rfl, if_pos rfl, LicensedPackage.componentRef_eq_component (hcomponent p hp),
    LicensedPackage.componentRef_eq_component (hcomponent q hq)] at href
  obtain ⟨hname, hversion⟩ := LicensedPackage.eq_of_exportPurl_eq hpurl
  rw [LicensedPackage.exportName, LicensedPackage.exportName, if_neg (hnamed p hp).1,
    if_neg (hnamed q hq).1] at hname
  rw [LicensedPackage.exportVersion, LicensedPackage.exportVersion, if_neg (hnamed p hp).2,
    if_neg (hnamed q hq).2] at hversion
  exact List.inj_on_of_nodup_map hnodup hp hq
    (eq_of_stored hkeyed hrows hp hq hname hversion href)

/-- Stored packages of a tenant survive the export and the import exactly if each is one that the
document can carry, and the document is not named in place of a component. -/
theorem roundTrips_iff (hkeyed : Keyed packages) (metadataName : Option Str)
    (hrows : ∀ r ∈ rows, r.toSbomPackage ∈ tenantPackages packages tenantId)
    (hnodup : (rows.map LicensedPackage.toSbomPackage).Nodup)
    (hnamed : ∀ r ∈ rows, r.name ≠ [] ∧ r.version ≠ []) :
    RoundTrips metadataName rows ↔ (∀ r ∈ rows, r.Survives) ∧ NamedApart metadataName rows := by
  constructor
  · intro h
    have hsub : ∀ r ∈ unseen (LicensedPackage.dedupeKey true) [] rows, r ∈ rows := fun r hr =>
      (unseen_sublist [] rows).subset hr
    have hread : ∀ r ∈ rows, ∃ r' ∈ rows, r.component = r'.keptRef metadataName ∧
        r.licenseId = r'.keptLicense := by
      intro r hr
      obtain ⟨e, he, hkey⟩ := List.mem_map.mp ((h.same r.key).mpr (List.mem_map_of_mem hr))
      rw [parseLicensed_build] at he
      obtain ⟨r', hr', rfl⟩ := List.mem_map.mp he
      have hr' := hsub r' hr'
      rw [key_readBack (hnamed r' hr').1 (hnamed r' hr').2] at hkey
      simp only [LicensedPackage.key, Prod.mk.injEq] at hkey
      exact ⟨r', hr', hkey.2.2.1.symm, hkey.2.2.2.symm⟩
    have hcomponent : ∀ r ∈ rows, ∀ ref, r.component = some ref →
        ref ≠ [] ∧ Str.strip ref = ref := by
      intro r hr ref href
      obtain ⟨r', -, hkept, -⟩ := hread r hr
      exact LicensedPackage.keptRef_eq_some (hkept.symm.trans href)
    have happart : NamedApart metadataName rows := by
      rintro ⟨r, hr, hnone⟩
      obtain ⟨r', -, hkept, -⟩ := hread r hr
      exact component_eq_none_of_keptRef (hkept.symm.trans hnone)
    refine ⟨fun r hr => ⟨hcomponent r hr, ?_, ?_⟩, happart⟩
    · obtain ⟨r', -, -, hlicense⟩ := hread r hr
      rw [hlicense]
      exact r'.keptLicense_ne
    · obtain ⟨e, he, hkey, purl, hpurl, htype⟩ := h.ecosystem r hr
      rw [parseLicensed_build] at he
      obtain ⟨r', hr', rfl⟩ := List.mem_map.mp he
      have hr' := hsub r' hr'
      rw [key_readBack (hnamed r' hr').1 (hnamed r' hr').2, keptRef_eq_component
        (hcomponent r' hr') fun hnone => happart ⟨r', hr', hnone⟩] at hkey
      simp only [LicensedPackage.key, Prod.mk.injEq] at hkey
      have hrow := eq_of_stored hkeyed hrows hr' hr hkey.1 hkey.2.1 hkey.2.2.1
      rw [purl_readBack, Option.some_inj] at hpurl
      rw [← hpurl, LicensedPackage.purlTypeOf_exportPurl, hrow] at htype
      exact forall_ownPurlType_iff.mp htype
  · rintro ⟨hall, happart⟩
    have hunseen : unseen (LicensedPackage.dedupeKey true) [] rows = rows :=
      unseen_eq_self (nodup_dedupeKey hkeyed hrows hnodup hnamed fun r hr => (hall r hr).component)
    have hkey : ∀ r ∈ rows, (r.readBack metadataName).key = r.key := by
      intro r hr
      rw [key_readBack (hnamed r hr).1 (hnamed r hr).2, keptRef_eq_component
        (hall r hr).component fun hnone => happart ⟨r, hr, hnone⟩,
        LicensedPackage.keptLicense_eq_iff.mpr (hall r hr).license]
      rfl
    refine ⟨fun k => ?_, ?_, fun r hr => ?_⟩
    · rw [parseLicensed_build, hunseen, List.map_map]
      exact Iff.of_eq (congrArg (k ∈ ·) (List.map_congr_left hkey))
    · rw [parseLicensed_build, hunseen, List.length_map]
    · rw [parseLicensed_build, hunseen]
      refine ⟨_, List.mem_map_of_mem hr, hkey r hr, _, purl_readBack r metadataName, ?_⟩
      rw [LicensedPackage.purlTypeOf_exportPurl]
      exact forall_ownPurlType_iff.mpr (hall r hr).language

end Survival

/-! ### A package of a JavaScript and of a TypeScript project -/

section Lodash

open Transition

attribute [local instance] asciiLowerTables asciiCharTables plainDecoding unaryDigest

/-- An import of a document with one package. -/
def lodashImport (language : String) : SbomImport where
  doc :=
    { components := [⟨some (str "lodash"), some (str "4.17.21"), [], some (str "web"), none, none,
        some (str language)⟩]
      metadataProperties := []
      metadataName := none }
  source := str "ci"
  component := none
  tenantId := str "acme"
  now := 1000000

/-- The packages after it. -/
def lodashTable (language : String) : Table SbomPackage :=
  run (importStep ⟨false, []⟩) .empty [lodashImport language]

theorem keyed_lodashTable (language : String) : Keyed (lodashTable language) := by
  have hkeyed : ∀ calls, Keyed (run (importStep ⟨false, []⟩) .empty calls) :=
    run_induction (fun _ _ h => keyed_importStep h) fun _ hr => absurd hr List.not_mem_nil
  exact hkeyed _

/-- The packages of the tenant, under a license. -/
def lodashPackages (language : String) : List LicensedPackage :=
  (tenantPackages (lodashTable language) (str "acme")).map fun r => ⟨r, some (str "MIT")⟩

theorem map_toSbomPackage_lodashPackages (language : String) :
    (lodashPackages language).map LicensedPackage.toSbomPackage =
      tenantPackages (lodashTable language) (str "acme") := by
  rw [lodashPackages, List.map_map]
  exact List.map_id _

theorem mem_tenantPackages_of_mem_lodashPackages (language : String) :
    ∀ r ∈ lodashPackages language,
      r.toSbomPackage ∈ tenantPackages (lodashTable language) (str "acme") := by
  intro r hr
  rw [← map_toSbomPackage_lodashPackages]
  exact List.mem_map_of_mem hr

theorem nodup_lodashPackages (language : String) :
    ((lodashPackages language).map LicensedPackage.toSbomPackage).Nodup := by
  rw [map_toSbomPackage_lodashPackages]
  exact (nodup_tenantPackages _ _).of_map

/-- The row of the package. -/
def lodashRow (language purlType : String) : LicensedPackage :=
  ⟨(lodashImport language).row ⟨false, []⟩
    ⟨str "lodash", str "4.17.21", some (str "web"), some (str language),
      some (str "pkg:" ++ str purlType ++ str "/lodash@4.17.21"), some (str "derived"),
      some (str "medium")⟩, some (str "MIT")⟩

/-- The package of a TypeScript project survives. -/
theorem roundTrips_typescript : RoundTrips none (lodashPackages "typescript") := by
  have hrows : lodashPackages "typescript" = [lodashRow "typescript" "npm"] := by rfl
  refine (roundTrips_iff (keyed_lodashTable _) none (mem_tenantPackages_of_mem_lodashPackages _)
    (nodup_lodashPackages _) ?_).mpr ⟨?_, ?_⟩
  · rw [hrows]
    decide
  · rw [hrows]
    intro r hr
    rw [List.mem_singleton.mp hr]
    refine ⟨fun ref href => ?_, by decide, by decide, by decide⟩
    cases href
    decide
  · exact fun _ => rfl

/-- The one of a JavaScript project comes back as a Maven package. -/
theorem not_roundTrips :
    ¬ ∀ (packages : Table SbomPackage) (tenantId : Str) (rows : List LicensedPackage),
        Keyed packages → (∀ r ∈ rows, r.toSbomPackage ∈ tenantPackages packages tenantId) →
          (rows.map LicensedPackage.toSbomPackage).Nodup →
            (∀ r ∈ rows, r.name ≠ [] ∧ r.version ≠ []) → RoundTrips none rows := by
  intro hall
  have hrows : lodashPackages "javascript" = [lodashRow "javascript" "npm"] := by rfl
  have hnamed : ∀ r ∈ lodashPackages "javascript", r.name ≠ [] ∧ r.version ≠ [] := by
    rw [hrows]
    decide
  have h := hall _ _ _ (keyed_lodashTable "javascript") (mem_tenantPackages_of_mem_lodashPackages _)
    (nodup_lodashPackages _) hnamed
  have hmem : lodashRow "javascript" "npm" ∈ lodashPackages "javascript" := by
    rw [hrows]
    exact List.mem_singleton_self _
  obtain ⟨e, he, -, purl, hpurl, htype⟩ := h.ecosystem _ hmem
  rw [parseLicensed_build, hrows] at he
  obtain rfl : e = (lodashRow "javascript" "npm").readBack none := List.mem_singleton.mp he
  rw [purl_readBack, Option.some_inj] at hpurl
  have hnpm := htype (str "npm") (by decide)
  rw [← hpurl, LicensedPackage.purlTypeOf_exportPurl] at hnpm
  revert hnpm
  decide

end Lodash

end Vat
