import Mathlib.Data.List.Induction
import Mathlib.Data.List.Nodup
import Vat.Python.Text

/-!
# Packages of Trivy reports

The packages of a report are taken from three sections of each of its results, and a package of an
asset is listed once, by its first entry. An entry of the section `Licenses` for a package that is
listed already adds its license if there is none yet; the component is looked up by its asset then,
and an empty asset is compared with `None`, so it is never found. An entry of `Packages` for such a
package is passed over with its license. So each package comes exactly once, and it has a license
that the report states exactly if its first entry gives one, or its asset has a name and some entry
of `Licenses` gives one (`conserves_iff`).

Texts and lists are given under two spellings of their name, and the first that is not empty is
read. Items that are no objects are passed over by the code and are left out here.

Source: `backend/app/services/sbom_extract.py`, lines 17–175.

## Main definitions

* `TrivyReport`, `TrivySbom.extractSbomFromTrivy`.
* `TrivySbom.entries`: the entries of a report, in the order in which they are read.
* `TrivySbom.Conserves`: what is asked of an extraction.
* `TrivySbom.GivesLicense`: an entry from which a package gets its license.

## Main results

* `TrivySbom.Extracted.addEntry`: what one entry adds.
* `TrivySbom.conserves_iff`.
-/

namespace Vat

namespace TrivySbom

/-! ### Reports -/

/-- A text or a list, under two spellings of its name. -/
structure Spelled (α : Type) where
  upper : Option (List α)
  lower : Option (List α)

/-- `obj.get(Name) or obj.get(name) or empty`. -/
def Spelled.read {α : Type} (s : Spelled α) : List α :=
  match s.upper.getD [] with
  | [] => s.lower.getD []
  | x => x

/-- `(obj.get(Name) or obj.get(name) or "").strip()`. -/
def Spelled.text (s : Spelled Char) : Str := Str.strip s.read

/-- A license of a package: an object with an id and a name, or another value, by its text. -/
inductive PackageLicense
  | object (id name : Spelled Char)
  | other (text : Str)

structure TrivyPackage where
  name : Spelled Char
  version : Spelled Char
  licenses : Spelled PackageLicense

structure TrivyVulnerability where
  pkgName : Spelled Char
  installedVersion : Spelled Char

structure TrivyLicense where
  pkgName : Spelled Char
  version : Spelled Char
  name : Spelled Char
  id : Spelled Char

structure TrivyResult where
  containerImage : Str
  containerTag : Str
  sourceImage : Str
  target : Spelled Char
  type : Spelled Char
  packages : Spelled TrivyPackage
  vulnerabilities : Spelled TrivyVulnerability
  licenses : Spelled TrivyLicense

structure TrivyReport where
  results : Spelled TrivyResult

/-! ### The extraction -/

/-- A component of the SBOM. -/
structure Component where
  name : Str
  version : Str
  licenses : List Str
  group : Str
  language : Str

/-- Name, version and asset. -/
abbrev Key := Str × Str × Str

def Component.key (c : Component) : Key := (c.name, c.version, c.group)

/-- `a or b`. -/
def orText (a b : Str) : Str := if a = [] then b else a

def typeToLanguage : List (Str × Str) :=
  [(str "npm", str "javascript"), (str "yarn", str "javascript"), (str "pnpm", str "javascript"),
    (str "pip", str "python"), (str "pipenv", str "python"), (str "poetry", str "python"),
    (str "gomod", str "go"), (str "go", str "go"), (str "cargo", str "rust"),
    (str "maven", str "java"), (str "gradle", str "java"), (str "composer", str "php"),
    (str "rubygems", str "ruby"), (str "gem", str "ruby"), (str "nuget", str "csharp"),
    (str "dotnet", str "csharp"), (str "alpine", []), (str "apk", []), (str "deb", []),
    (str "rpm", [])]

/-- `_trivy_type_to_language`. -/
def trivyTypeToLanguage [Unicode] (t : Str) : Str :=
  (typeToLanguage.lookup (Unicode.lower t)).getD (Unicode.lower t)

/-- `_make_component`; an empty license is none. -/
def makeComponent (name version license component language : Str) : Component where
  name := name
  version := version
  licenses := if license = [] then [] else [license]
  group := component
  language := language

/-- `_effective_trivy_component`. -/
def effectiveTrivyComponent (res : TrivyResult) (target : Str) : Str :=
  let img := res.containerImage.strip
  let tag := res.containerTag.strip
  if img ≠ [] then if tag ≠ [] then img ++ str ":" ++ tag else img
  else orText res.sourceImage.strip target

/-- The id or name of a license of a package. -/
def PackageLicense.text : PackageLicense → Str
  | .object id name => orText id.read name.read
  | .other text => text

/-- The keys seen, and the components. -/
structure Extraction where
  seen : List Key
  components : List Component

/-- List a component. -/
def Extraction.add (s : Extraction) (c : Component) : Extraction where
  seen := s.seen ++ [c.key]
  components := s.components ++ [c]

/-- The license of an entry, for the first component with its key. An empty asset is `None` here,
and no component has that. -/
def backfill (name version componentRef license : Str) : List Component → List Component
  | [] => []
  | c :: components =>
    if c.name = name ∧ c.version = version ∧ componentRef ≠ [] ∧ c.group = componentRef then
      (if c.licenses = [] ∧ license ≠ [] then { c with licenses := [license] } else c) :: components
    else c :: backfill name version componentRef license components

/-- One turn of the loop over packages. -/
def addPackage (componentRef language : Str) (s : Extraction) (pkg : TrivyPackage) : Extraction :=
  let name := pkg.name.text
  let version := pkg.version.text
  let license := (pkg.licenses.read.map PackageLicense.text).headD []
  if name = [] then s
  else if (name, version, componentRef) ∈ s.seen then s
  else s.add (makeComponent name version license componentRef language)

/-- One turn of the loop over vulnerabilities. -/
def addVulnerability (componentRef language : Str) (s : Extraction) (v : TrivyVulnerability) :
    Extraction :=
  let name := v.pkgName.text
  let version := v.installedVersion.text
  if name = [] then s
  else if (name, version, componentRef) ∈ s.seen then s
  else s.add (makeComponent name version [] componentRef language)

/-- One turn of the loop over licenses. -/
def addLicense (componentRef language : Str) (s : Extraction) (lic : TrivyLicense) : Extraction :=
  let name := lic.pkgName.text
  let version := lic.version.text
  let license := orText lic.name.read lic.id.read
  if name = [] then s
  else if (name, version, componentRef) ∈ s.seen then
    { s with components := backfill name version componentRef license s.components }
  else s.add (makeComponent name version license componentRef language)

/-- One result. -/
def addResult [Unicode] (s : Extraction) (res : TrivyResult) : Extraction :=
  let componentRef := effectiveTrivyComponent res res.target.text
  let language := trivyTypeToLanguage res.type.read
  let s := res.packages.read.foldl (addPackage componentRef language) s
  let s := res.vulnerabilities.read.foldl (addVulnerability componentRef language) s
  res.licenses.read.foldl (addLicense componentRef language) s

/-- `extract_sbom_from_trivy`. -/
def extractSbomFromTrivy [Unicode] (raw : TrivyReport) : Option (List Component) :=
  match (raw.results.read.foldl addResult ⟨[], []⟩).components with
  | [] => none
  | components => some components

/-! ### Entries -/

inductive Section
  | packages
  | vulnerabilities
  | licenses
  deriving DecidableEq

/-- What an entry of a report says of a package: `stated` has the texts of its licenses. -/
structure Entry where
  name : Str
  version : Str
  component : Str
  language : Str
  stated : List Str
  part : Section

namespace Entry

def key (e : Entry) : Key := (e.name, e.version, e.component)

/-- The license that the extraction reads. -/
def license (e : Entry) : Str := e.stated.headD []

end Entry

def packageEntry (componentRef language : Str) (pkg : TrivyPackage) : Entry where
  name := pkg.name.text
  version := pkg.version.text
  component := componentRef
  language := language
  stated := pkg.licenses.read.map PackageLicense.text
  part := .packages

def vulnerabilityEntry (componentRef language : Str) (v : TrivyVulnerability) : Entry where
  name := v.pkgName.text
  version := v.installedVersion.text
  component := componentRef
  language := language
  stated := []
  part := .vulnerabilities

def licenseEntry (componentRef language : Str) (lic : TrivyLicense) : Entry where
  name := lic.pkgName.text
  version := lic.version.text
  component := componentRef
  language := language
  stated := [orText lic.name.read lic.id.read]
  part := .licenses

section Report

variable [Unicode]

/-- The entries of a result, in the order in which they are read. -/
def resultEntries (res : TrivyResult) : List Entry :=
  let componentRef := effectiveTrivyComponent res res.target.text
  let language := trivyTypeToLanguage res.type.read
  res.packages.read.map (packageEntry componentRef language) ++
    res.vulnerabilities.read.map (vulnerabilityEntry componentRef language) ++
    res.licenses.read.map (licenseEntry componentRef language)

/-- The entries of a report. -/
def entries (raw : TrivyReport) : List Entry := raw.results.read.flatMap resultEntries

/-- A report has an entry for a package with a name. -/
def Occurs (raw : TrivyReport) (k : Key) : Prop := k.1 ≠ [] ∧ ∃ e ∈ entries raw, e.key = k

/-- An entry of `Packages` or `Licenses` states a license of a package. -/
def States (raw : TrivyReport) (k : Key) : Prop :=
  ∃ e ∈ entries raw, e.key = k ∧ ∃ license ∈ e.stated, license ≠ []

/-- Each package is listed exactly once and nothing else is, and a package has a license if the
report states one. -/
structure Conserves (raw : TrivyReport) : Prop where
  once : (((extractSbomFromTrivy raw).getD []).map Component.key).Nodup
  complete : ∀ k, k ∈ ((extractSbomFromTrivy raw).getD []).map Component.key ↔ Occurs raw k
  licensed : ∀ c ∈ (extractSbomFromTrivy raw).getD [], States raw c.key → c.licenses ≠ []

end Report

/-- The first entry for a package gives a license, or its asset has a name and some entry of
`Licenses` for it gives one. -/
def GivesLicense (es : List Entry) (k : Key) : Prop :=
  (∃ e, es.find? (fun e => e.key = k) = some e ∧ e.license ≠ []) ∨
    k.2.2 ≠ [] ∧ ∃ e ∈ es, e.part = .licenses ∧ e.key = k ∧ e.license ≠ []

/-! ### One entry -/

def Entry.toComponent (e : Entry) : Component :=
  makeComponent e.name e.version e.license e.component e.language

/-- One entry of any section. -/
def addEntry (s : Extraction) (e : Entry) : Extraction :=
  if e.name = [] then s
  else if e.key ∈ s.seen then
    if e.part = .licenses then
      { s with components := backfill e.name e.version e.component e.license s.components }
    else s
  else s.add e.toComponent

theorem addResult_eq [Unicode] (s : Extraction) (res : TrivyResult) :
    addResult s res = (resultEntries res).foldl addEntry s := by
  rw [addResult, resultEntries, List.foldl_append, List.foldl_append, List.foldl_map,
    List.foldl_map, List.foldl_map]
  rfl

theorem components_extract [Unicode] (raw : TrivyReport) :
    (extractSbomFromTrivy raw).getD [] =
      ((entries raw).foldl addEntry ⟨[], []⟩).components := by
  have hfold : raw.results.read.foldl addResult ⟨[], []⟩ =
      (entries raw).foldl addEntry ⟨[], []⟩ := by
    rw [entries, List.foldl_flatMap]
    exact congrArg (fun f => List.foldl f _ _) (funext₂ addResult_eq)
  rw [extractSbomFromTrivy, hfold]
  split
  · next h => exact h.symm
  · rfl

/-! ### The license of a listed package -/

/-- A license for a component without one. -/
def fill (license : Str) (c : Component) : Component :=
  if c.licenses = [] ∧ license ≠ [] then { c with licenses := [license] } else c

theorem key_fill (license : Str) (c : Component) : (fill license c).key = c.key := by
  rw [fill]
  split <;> rfl

theorem licenses_fill_ne_nil_iff (license : Str) (c : Component) :
    (fill license c).licenses ≠ [] ↔ c.licenses ≠ [] ∨ license ≠ [] := by
  rw [fill]
  split
  · next h => simp [h.2]
  · next h =>
    rw [not_and, not_not] at h
    exact ⟨.inl, fun hor hnil => hor.elim (· hnil) (· (h hnil))⟩

/-- With different keys, the license goes to the component with the key, unless its asset is
empty. -/
theorem backfill_eq_map {components : List Component} (hnodup : (components.map Component.key).Nodup)
    (name version componentRef license : Str) :
    backfill name version componentRef license components =
      components.map fun c =>
        if c.key = (name, version, componentRef) ∧ componentRef ≠ [] then fill license c else c := by
  induction components with
  | nil => rfl
  | cons c components ih =>
    obtain ⟨hc, hnodup⟩ := List.nodup_cons.mp hnodup
    have hiff : (c.name = name ∧ c.version = version ∧ componentRef ≠ [] ∧ c.group = componentRef) ↔
        c.key = (name, version, componentRef) ∧ componentRef ≠ [] := by
      rw [Component.key, Prod.mk.injEq, Prod.mk.injEq]
      tauto
    rw [backfill, List.map_cons]
    by_cases hmatch : c.key = (name, version, componentRef) ∧ componentRef ≠ []
    · -- No later component has the key.
      have hrest : components.map (fun c =>
          if c.key = (name, version, componentRef) ∧ componentRef ≠ [] then fill license c else c) =
            components := by
        refine (List.map_congr_left fun d hd => if_neg fun h => hc ?_).trans (List.map_id _)
        rw [hmatch.1, ← h.1]
        exact List.mem_map_of_mem hd
      rw [if_pos (hiff.mpr hmatch), if_pos hmatch, hrest]
      rfl
    · rw [if_neg fun h => hmatch (hiff.mp h), if_neg hmatch, ih hnodup]

/-! ### After some entries -/

/-- The packages of some entries are listed, each with a license if one is given. -/
structure Extracted (es : List Entry) (s : Extraction) : Prop where
  mem_seen : ∀ k, k ∈ s.seen ↔ k.1 ≠ [] ∧ ∃ e ∈ es, e.key = k
  keys : s.components.map Component.key = s.seen
  nodup : s.seen.Nodup
  licensed : ∀ c ∈ s.components, c.licenses ≠ [] ↔ GivesLicense es c.key

theorem find?_concat_of_mem {es : List Entry} {k : Key} (h : ∃ e ∈ es, e.key = k) (e : Entry) :
    (es ++ [e]).find? (fun e => e.key = k) = es.find? (fun e => e.key = k) := by
  obtain ⟨d, hd, hk⟩ := h
  have hsome : (es.find? fun e => e.key = k).isSome :=
    List.find?_isSome.mpr ⟨d, hd, decide_eq_true hk⟩
  rw [List.find?_append]
  exact Option.or_of_isSome hsome

/-- A later entry gives a listed package a license only as one of `Licenses` for an asset with a
name. -/
theorem givesLicense_concat {es : List Entry} {k : Key} (h : ∃ e ∈ es, e.key = k) (e : Entry) :
    GivesLicense (es ++ [e]) k ↔ GivesLicense es k ∨
      e.key = k ∧ k.2.2 ≠ [] ∧ e.part = .licenses ∧ e.license ≠ [] := by
  rw [GivesLicense, GivesLicense, find?_concat_of_mem h]
  simp only [List.mem_append, List.mem_singleton, or_and_right, exists_or, exists_eq_left]
  rw [and_or_left, ← or_assoc]
  refine or_congr_right ⟨?_, ?_⟩
  · exact fun hadded => ⟨hadded.2.2.1, hadded.1, hadded.2.1, hadded.2.2.2⟩
  · exact fun hadded => ⟨hadded.2.1, hadded.2.2.1, hadded.1, hadded.2.2.2⟩

/-- The first entry of a package. -/
theorem givesLicense_first {es : List Entry} {e : Entry} (h : ¬ ∃ d ∈ es, d.key = e.key) :
    GivesLicense (es ++ [e]) e.key ↔ e.license ≠ [] := by
  have hnone : es.find? (fun d => d.key = e.key) = none :=
    List.find?_eq_none.mpr fun d hd hk => h ⟨d, hd, of_decide_eq_true hk⟩
  have hfirst : (es ++ [e]).find? (fun d => d.key = e.key) = some e := by
    rw [List.find?_append, hnone, Option.none_or]
    exact List.find?_cons_of_pos (decide_eq_true rfl)
  rw [GivesLicense, hfirst]
  constructor
  · rintro (⟨d, hd, hlicense⟩ | ⟨-, d, hd, -, hk, hlicense⟩)
    · cases hd
      exact hlicense
    · rcases List.mem_append.mp hd with hd | hd
      · exact absurd ⟨d, hd, hk⟩ h
      · cases List.mem_singleton.mp hd
        exact hlicense
  · exact fun hlicense => .inl ⟨e, rfl, hlicense⟩

namespace Extracted

variable {es : List Entry} {s : Extraction}

theorem start : Extracted [] ⟨[], []⟩ where
  mem_seen _ := by simp
  keys := rfl
  nodup := List.nodup_nil
  licensed _ h := absurd h List.not_mem_nil

/-- A listed component has an entry. -/
theorem exists_entry (h : Extracted es s) {c : Component} (hc : c ∈ s.components) :
    c.key.1 ≠ [] ∧ ∃ e ∈ es, e.key = c.key :=
  (h.mem_seen c.key).mp (h.keys ▸ List.mem_map_of_mem hc)

/-- One more entry leaves a listed component as it is, or gives it its license. -/
theorem licensed_concat (h : Extracted es s) (e : Entry) {c : Component} (hc : c ∈ s.components) :
    GivesLicense (es ++ [e]) c.key ↔ c.licenses ≠ [] ∨
      e.key = c.key ∧ c.key.2.2 ≠ [] ∧ e.part = .licenses ∧ e.license ≠ [] := by
  rw [givesLicense_concat (h.exists_entry hc).2, h.licensed c hc]

theorem addEntry (h : Extracted es s) (e : Entry) :
    Extracted (es ++ [e]) (TrivySbom.addEntry s e) := by
  have hmem : ∀ k, (∃ d ∈ es ++ [e], d.key = k) ↔ (∃ d ∈ es, d.key = k) ∨ e.key = k := fun k => by
    simp [or_and_right, exists_or]
  rw [TrivySbom.addEntry]
  split
  · next hname =>
    refine ⟨fun k => ?_, h.keys, h.nodup, fun c hc => ?_⟩
    · rw [h.mem_seen, hmem]
      refine and_congr_right fun hk => (or_iff_left ?_).symm
      rintro rfl
      exact hk hname
    · rw [h.licensed_concat e hc]
      refine (or_iff_left fun hadded => (h.exists_entry hc).1 ?_).symm
      rw [← hadded.1]
      exact hname
  next hname =>
  split
  · next hseen =>
    obtain ⟨-, hold⟩ := (h.mem_seen e.key).mp hseen
    have hseen' : ∀ k, k ∈ s.seen ↔ k.1 ≠ [] ∧ ∃ d ∈ es ++ [e], d.key = k := fun k => by
      rw [h.mem_seen, hmem]
      exact and_congr_right fun _ => (or_iff_left_of_imp fun heq => heq ▸ hold).symm
    split
    · next hpart =>
      have hnodup : (s.components.map Component.key).Nodup := h.keys ▸ h.nodup
      have hmap := backfill_eq_map hnodup e.name e.version e.component e.license
      refine ⟨hseen', ?_, h.nodup, fun c hc => ?_⟩
      · dsimp only
        rw [hmap, List.map_map, ← h.keys]
        refine List.map_congr_left fun c _ => ?_
        rw [Function.comp_apply]
        split
        · exact key_fill _ c
        · rfl
      · have hc : c ∈ backfill e.name e.version e.component e.license s.components := hc
        rw [hmap] at hc
        obtain ⟨d, hd, rfl⟩ := List.mem_map.mp hc
        split
        · next hmatch =>
          have hkey : d.key = e.key := hmatch.1
          have hcomponent : d.key.2.2 ≠ [] := hkey ▸ hmatch.2
          rw [key_fill, licenses_fill_ne_nil_iff, h.licensed_concat e hd]
          refine or_congr_right ⟨fun hlicense => ?_, fun hadded => hadded.2.2.2⟩
          exact ⟨hkey.symm, hcomponent, hpart, hlicense⟩
        · next hmatch =>
          rw [h.licensed_concat e hd]
          refine (or_iff_left fun hadded => hmatch ⟨hadded.1.symm, ?_⟩).symm
          have hcomponent := hadded.2.1
          rwa [← hadded.1] at hcomponent
    · next hpart =>
      refine ⟨hseen', h.keys, h.nodup, fun c hc => ?_⟩
      rw [h.licensed_concat e hc]
      exact (or_iff_left fun hadded => hpart hadded.2.2.1).symm
  · next hseen =>
    have hnew : ¬ ∃ d ∈ es, d.key = e.key := fun hold => hseen ((h.mem_seen e.key).mpr ⟨hname, hold⟩)
    have hkey : e.toComponent.key = e.key := rfl
    refine ⟨fun k => ?_, ?_, ?_, fun c hc => ?_⟩
    · rw [Extraction.add, hkey, List.mem_append, List.mem_singleton, h.mem_seen, hmem, and_or_left]
      refine or_congr_right ⟨fun heq => ⟨?_, heq.symm⟩, fun hk => hk.2.symm⟩
      rw [heq]
      exact hname
    · rw [Extraction.add, List.map_append, h.keys]
      rfl
    · rw [Extraction.add, hkey, List.nodup_append]
      refine ⟨h.nodup, List.nodup_singleton _, fun k hk k' hk' heq => hseen ?_⟩
      rwa [← List.mem_singleton.mp hk', ← heq]
    · rcases List.mem_append.mp hc with hc | hc
      · rw [h.licensed_concat e hc]
        refine (or_iff_left fun hadded => hnew ?_).symm
        rw [hadded.1]
        exact (h.exists_entry hc).2
      · rw [List.mem_singleton.mp hc, hkey, givesLicense_first hnew, Entry.toComponent,
          makeComponent]
        by_cases hlicense : e.license = [] <;> simp [hlicense]

theorem foldl (es : List Entry) : Extracted es (es.foldl TrivySbom.addEntry ⟨[], []⟩) := by
  induction es using List.reverseRecOn with
  | nil => exact start
  | append_singleton es e ih =>
    rw [List.foldl_append]
    exact ih.addEntry e

end Extracted

/-- An extraction lists each package exactly once, and it keeps the licenses that the report states
exactly if each package with a stated license gets one from its first entry, or has an asset with a
name and gets one from an entry of `Licenses`. -/
theorem conserves_iff [Unicode] (raw : TrivyReport) :
    Conserves raw ↔
      ∀ k, Occurs raw k → States raw k → GivesLicense (entries raw) k := by
  have h := Extracted.foldl (entries raw)
  have hkeys : ∀ k, k ∈ ((extractSbomFromTrivy raw).getD []).map Component.key ↔ Occurs raw k :=
    fun k => by rw [components_extract, h.keys, h.mem_seen, Occurs]
  constructor
  · intro hconserves k hk hstates
    obtain ⟨c, hc, rfl⟩ := List.mem_map.mp ((hkeys k).mpr hk)
    have hlicensed := hconserves.licensed c hc hstates
    rw [components_extract] at hc
    exact (h.licensed c hc).mp hlicensed
  · intro hgives
    refine ⟨?_, hkeys, fun c hc hstates => ?_⟩
    · rw [components_extract, h.keys]
      exact h.nodup
    · have hk := (hkeys c.key).mp (List.mem_map_of_mem hc)
      rw [components_extract] at hc
      exact (h.licensed c hc).mpr (hgives c.key hk hstates)

/-! ### A package without an asset -/

/-- A vulnerability and a license of one package, in a result without target. -/
def nameless : TrivyReport where
  results := ⟨some [
    { containerImage := []
      containerTag := []
      sourceImage := []
      target := ⟨none, none⟩
      type := ⟨none, none⟩
      packages := ⟨none, none⟩
      vulnerabilities := ⟨some [⟨⟨some (str "a"), none⟩, ⟨some (str "1"), none⟩⟩], none⟩
      licenses := ⟨some [⟨⟨some (str "a"), none⟩, ⟨some (str "1"), none⟩, ⟨some (str "MIT"), none⟩,
        ⟨none, none⟩⟩], none⟩ }], none⟩

attribute [local instance] asciiUnicode in
theorem not_conserves : ¬ ∀ raw : TrivyReport, Conserves raw := by
  intro h
  have hconserves := h nameless
  have hextract : (extractSbomFromTrivy nameless).getD [] = [⟨str "a", str "1", [], [], []⟩] := by
    rfl
  have hlicensed := hconserves.licensed
  rw [hextract] at hlicensed
  refine hlicensed _ List.mem_cons_self ?_ rfl
  refine ⟨licenseEntry [] [] ⟨⟨some (str "a"), none⟩, ⟨some (str "1"), none⟩,
    ⟨some (str "MIT"), none⟩, ⟨none, none⟩⟩, ?_, rfl, str "MIT", List.mem_cons_self, by decide⟩
  exact List.mem_cons_of_mem _ List.mem_cons_self

end TrivySbom

end Vat
