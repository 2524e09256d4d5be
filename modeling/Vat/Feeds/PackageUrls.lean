import Vat.Delimited.Fields
import Vat.Feeds.Matching
import Vat.Identity.ReferenceParts
import Vat.Sbom.PercentDecoding

/-!
# Package URLs read back

The inventory derives a package URL from the name, the version and the language of a package; the
feeds read the ecosystem, the name and the version out of it. The derivation quotes the name in some
of its forms and never the version, and a name can have more parts than the feed reads.

Source: `backend/app/services/sbom.py`, lines 308–358; `backend/app/services/vuln_feeds.py`, lines
323–393.

## Main definitions

* `PurlForm`, `derivedForm`: how a package is written.
* `PurlAgrees`: the feed reads what was written.
* `PurlForm.KeepsName`, `KeepsVersion`.

## Main results

* `parsePurl_typed`: what is read of a package URL.
* `purl_round_trip_iff`: which packages are read back.
-/

namespace Vat

open Delimited

/-! ### The form of a package URL -/

/-- How `_derive_purl` writes a package. -/
inductive PurlForm
  /-- The name as it is, after a namespace. -/
  | plain (purlType namespaced : Str)
  /-- The name quoted, apart from its slashes. -/
  | quoted (purlType : Str)
  /-- The group and the artifact, each of them quoted. -/
  | maven
deriving DecidableEq

namespace PurlForm

/-- The type in the package URL. -/
def purlType : PurlForm → Str
  | plain purlType _ => purlType
  | quoted purlType => purlType
  | maven => str "maven"

/-- What stands for the name. -/
def writtenName : PurlForm → Str → Str
  | plain _ namespaced, pkg => namespaced ++ pkg
  | quoted _, pkg => quoteUrl ['/'] pkg
  | maven, pkg => quoteUrl [] (Str.split1 ':' pkg).1 ++ '/' :: quoteUrl [] (Str.split1 ':' pkg).2

/-- The package URL. -/
def purl (form : PurlForm) (pkg ver : Str) : Str :=
  str "pkg:" ++ (form.purlType ++ '/' :: (form.writtenName pkg ++ '@' :: ver))

end PurlForm

section Forms

variable [Unicode] [CharTables]

/-- The form that the shape of a name or a version suggests. -/
def formOfShape (pkg ver : Str) : Option PurlForm :=
  let firstSegment := Unicode.lower (Str.strip (Str.split1 '/' pkg).1)
  if ["github.com/", "golang.org/", "gopkg.in/"].any fun p => Str.startsWith pkg (str p) then
    some (.plain (str "golang") [])
  else if '/' ∈ pkg ∧ '.' ∈ firstSegment ∧ ' ' ∉ pkg ∧ '@' ∉ pkg then
    some (.plain (str "golang") [])
  else if Str.startsWith pkg (str "@") ∧ '/' ∈ pkg then some (.quoted (str "npm"))
  else if isApkVersion ver then some (.plain (str "apk") (str "alpine/"))
  else if ':' ∈ pkg ∧ '.' ∈ (Str.split1 ':' pkg).1 then
    if (Str.split1 ':' pkg).2 = [] then none else some .maven
  else none

omit [Unicode] [CharTables] in
/-- The form that the ecosystem of a language suggests. -/
def formOfType (purlType pkg : Str) : Option PurlForm :=
  if purlType = str "maven" then
    if ':' ∈ pkg then if (Str.split1 ':' pkg).2 = [] then none else some .maven else none
  else if purlType = str "npm" then some (.quoted (str "npm"))
  else if purlType = str "apk" then some (.plain (str "apk") (str "alpine/"))
  else if purlType = str "deb" then some (.plain (str "deb") (str "debian/"))
  else some (.quoted purlType)

/-- The form in which a package is written. -/
def derivedForm (name version language : Str) : Option PurlForm :=
  let pkg := Str.strip name
  let lang := Unicode.lower (Str.strip language)
  if pkg = [] ∨ Str.strip version = [] then none
  else
    formOfShape pkg (Str.strip version) <|>
      (purlTypeByLanguage.find? fun p => str p.1 = lang).bind fun p => formOfType (str p.2) pkg

variable {pkg ver name version language : Str}

omit [Unicode] [CharTables] in
theorem mavenPurl_eq (pkg ver : Str) : mavenPurl pkg ver =
    (if (Str.split1 ':' pkg).2 = [] then none else some PurlForm.maven).map (·.purl pkg ver) := by
  rw [mavenPurl]
  split_ifs with h
  · simp [h]
  · simp [h, PurlForm.purl, PurlForm.purlType, PurlForm.writtenName, str]

theorem purlOfShape_eq (pkg ver : Str) :
    purlOfShape pkg ver = (formOfShape pkg ver).map (·.purl pkg ver) := by
  rw [purlOfShape, formOfShape]
  split_ifs <;> simp [PurlForm.purl, PurlForm.purlType, PurlForm.writtenName, mavenPurl_eq, str, *]

omit [Unicode] [CharTables] in
theorem purlOfType_eq (purlType pkg ver : Str) :
    purlOfType purlType pkg ver = (formOfType purlType pkg).map (·.purl pkg ver) := by
  rw [purlOfType, formOfType]
  split_ifs <;> simp [PurlForm.purl, PurlForm.purlType, PurlForm.writtenName, mavenPurl_eq, str, *]

/-- A derived package URL has the derived form. -/
theorem derivePurl_eq (name version language : Str) :
    (derivePurl name version language).map Prod.fst = (derivedForm name version language).map
      fun form => form.purl (Str.strip name) (Str.strip version) := by
  rw [derivePurl, derivedForm]
  split_ifs
  · rfl
  · rw [purlOfShape_eq]
    cases hshape : formOfShape (Str.strip name) (Str.strip version) with
    | some form => rfl
    | none =>
      cases hfind : purlTypeByLanguage.find? fun p =>
          str p.1 = Unicode.lower (Str.strip language) with
      | none => rfl
      | some p =>
        simp only [Option.bind_some, purlOfType_eq]
        cases formOfType (str p.2) (Str.strip name) <;> rfl

/-- The types whose names are written as they are, with what stands before the name. -/
def plainTypes : List (Str × Str) :=
  [(str "golang", []), (str "apk", str "alpine/"), (str "deb", str "debian/")]

/-- The types whose names are quoted. -/
def quotedTypes : List Str :=
  ["pypi", "npm", "golang", "gem", "cargo", "nuget"].map str

/-- The forms that are derived from a name. -/
def PurlForm.Derived (pkg : Str) : PurlForm → Prop
  | .plain purlType namespaced => (purlType, namespaced) ∈ plainTypes
  | .quoted purlType => purlType ∈ quotedTypes
  | .maven => ':' ∈ pkg ∧ (Str.split1 ':' pkg).2 ≠ []

omit [Unicode] [CharTables] in
theorem derived_golang : (PurlForm.plain (str "golang") []).Derived pkg := List.mem_cons_self

omit [Unicode] [CharTables] in
theorem derived_npm : (PurlForm.quoted (str "npm")).Derived pkg := by
  show str "npm" ∈ quotedTypes
  decide

omit [Unicode] [CharTables] in
theorem derived_apk : (PurlForm.plain (str "apk") (str "alpine/")).Derived pkg := by
  show (str "apk", str "alpine/") ∈ plainTypes
  decide

theorem derived_of_formOfShape {form : PurlForm} (h : formOfShape pkg ver = some form) :
    form.Derived pkg := by
  rw [formOfShape] at h
  split_ifs at h with _ _ _ _ hcolon hartifact <;> cases h
  · exact derived_golang
  · exact derived_golang
  · exact derived_npm
  · exact derived_apk
  · exact ⟨hcolon.1, hartifact⟩

omit [Unicode] [CharTables] in
theorem derived_of_formOfType {p : String × String} (hp : p ∈ purlTypeByLanguage)
    {form : PurlForm} (h : formOfType (str p.2) pkg = some form) : form.Derived pkg := by
  have hquoted : ∀ p ∈ purlTypeByLanguage, str p.2 ≠ str "maven" → str p.2 ≠ str "apk" →
      str p.2 ≠ str "deb" → str p.2 ∈ quotedTypes := by decide
  rw [formOfType] at h
  split_ifs at h with hmaven hcolon hartifact hnpm hapk hdeb <;> cases h
  · exact ⟨hcolon, hartifact⟩
  · exact derived_npm
  · exact derived_apk
  · show (str "deb", str "debian/") ∈ plainTypes
    decide
  · exact hquoted p hp hmaven hapk hdeb

/-- A derived form comes from the name. -/
theorem derived_of_derivedForm {form : PurlForm}
    (h : derivedForm name version language = some form) :
    Str.strip name ≠ [] ∧ Str.strip version ≠ [] ∧ form.Derived (Str.strip name) := by
  rw [derivedForm] at h
  split_ifs at h with hempty
  rw [not_or] at hempty
  refine ⟨hempty.1, hempty.2, ?_⟩
  cases hshape : formOfShape (Str.strip name) (Str.strip version) with
  | some form' =>
    rw [hshape] at h
    exact derived_of_formOfShape (hshape.trans h)
  | none =>
    rw [hshape] at h
    obtain ⟨p, hp, hform⟩ := Option.bind_eq_some_iff.mp h
    exact derived_of_formOfType (List.mem_of_find?_eq_some hp) hform

end Forms

/-! ### What is read of a package URL -/

section Parsing

/-- What stands before the marks of a fragment and of qualifiers. -/
def beforeMarks (s : Str) : Str := (Str.split1 '?' (Str.split1 '#' s).1).1

/-- What is read as the name and as the version. -/
def readRest (s : Str) : Str × Str :=
  if '@' ∈ beforeMarks s then Str.rsplit1 '@' (beforeMarks s) else (beforeMarks s, [])

variable {s t u pkg ver purlType : Str}

theorem takeWhile_append_of_notMem {c : Char} (hu : c ∉ u) (s : Str) :
    (u ++ s).takeWhile (· != c) = u ++ s.takeWhile (· != c) := by
  refine List.takeWhile_append_of_pos fun d hd => bne_iff_ne.mpr ?_
  rintro rfl
  exact hu hd

/-- A text without marks in front of another one stays there. -/
theorem beforeMarks_append (hu : '#' ∉ u ∧ '?' ∉ u) (s : Str) :
    beforeMarks (u ++ s) = u ++ beforeMarks s := by
  simp only [beforeMarks, Str.split1, takeWhile_append_of_notMem hu.1,
    takeWhile_append_of_notMem hu.2]

theorem beforeMarks_prefix_self (s : Str) : beforeMarks s <+: s :=
  (List.takeWhile_prefix _).trans (List.takeWhile_prefix _)

theorem notMem_beforeMarks (s : Str) : '#' ∉ beforeMarks s ∧ '?' ∉ beforeMarks s := by
  constructor
  · intro hmem
    simpa using List.mem_takeWhile_imp ((List.takeWhile_prefix _).subset hmem)
  · intro hmem
    simpa using List.mem_takeWhile_imp hmem

theorem beforeMarks_eq_self_iff : beforeMarks s = s ↔ '#' ∉ s ∧ '?' ∉ s := by
  constructor
  · intro h
    have hmarks := notMem_beforeMarks s
    rwa [h] at hmarks
  · intro h
    have happend := beforeMarks_append h []
    rwa [List.append_nil, show beforeMarks [] = [] from rfl, List.append_nil] at happend

/-- What stands before a name does not change how the rest is read. -/
theorem readRest_append (hu : '#' ∉ u ∧ '?' ∉ u) (hat : '@' ∉ u) (s : Str) :
    readRest (u ++ s) = (u ++ (readRest s).1, (readRest s).2) := by
  rw [readRest, readRest, beforeMarks_append hu]
  by_cases hmem : '@' ∈ beforeMarks s
  · obtain ⟨y, hs, hy⟩ := Str.exists_rsplit1 hmem
    have hsplit : u ++ beforeMarks s = (u ++ (Str.rsplit1 '@' (beforeMarks s)).1) ++ '@' :: y := by
      rw [List.append_assoc, ← hs]
    have hsecond : (Str.rsplit1 '@' (beforeMarks s)).2 = y := by
      conv_lhs => rw [hs]
      rw [Str.rsplit1_append hy]
    rw [if_pos (List.mem_append_right u hmem), if_pos hmem, hsplit, Str.rsplit1_append hy, hsecond]
  · rw [if_neg (by simp [hmem, hat]), if_neg hmem]

/-- The version starts after the last at sign. -/
theorem readRest_at (hu : '#' ∉ u ∧ '?' ∉ u) (hs : '#' ∉ s ∧ '?' ∉ s) (hat : '@' ∉ s) :
    readRest (u ++ '@' :: s) = (u, s) := by
  have hself : beforeMarks (u ++ '@' :: s) = u ++ '@' :: s := by
    refine beforeMarks_eq_self_iff.mpr ⟨?_, ?_⟩
    · simp [hu.1, hs.1]
    · simp [hu.2, hs.2]
  rw [readRest, hself, if_pos (by simp), Str.rsplit1_append hat]

/-- A version that is read back. -/
structure KeepsVersion (ver : Str) : Prop where
  marks : '#' ∉ ver ∧ '?' ∉ ver
  at_sign : '@' ∉ ver
  escapes : NoEscape ver

/-- The version is read back exactly if nothing in it has a meaning. -/
theorem version_iff (hu : '#' ∉ u ∧ '?' ∉ u) (hver : Str.strip ver = ver) :
    unquoteUrl (Str.strip (readRest (u ++ '@' :: ver)).2) = ver ↔ KeepsVersion ver := by
  constructor
  · intro h
    have hlength : ver.length ≤ (readRest (u ++ '@' :: ver)).2.length := by
      calc ver.length = (unquoteUrl (Str.strip (readRest (u ++ '@' :: ver)).2)).length := by rw [h]
        _ ≤ (Str.strip (readRest (u ++ '@' :: ver)).2).length := length_unquoteUrl_le _
        _ ≤ (readRest (u ++ '@' :: ver)).2.length := (Str.stripWhile_sublist _ _).length_le
    have hpre := beforeMarks_prefix_self ver
    have hbefore : beforeMarks (u ++ '@' :: ver) = u ++ '@' :: beforeMarks ver := by
      rw [List.append_cons, beforeMarks_append ⟨by simp [hu.1], by simp [hu.2]⟩, ← List.append_cons]
    have hat : '@' ∉ beforeMarks ver := by
      intro hmem
      obtain ⟨y, hs, hy⟩ := Str.exists_rsplit1 hmem
      have hsecond : (readRest (u ++ '@' :: ver)).2 = y := by
        rw [readRest, hbefore, if_pos (by simp), hs, ← List.cons_append, ← List.append_assoc,
          Str.rsplit1_append hy]
      have hle := congrArg List.length hs
      rw [hsecond] at hlength
      rw [List.length_append, List.length_cons] at hle
      have := hpre.length_le
      omega
    have hsecond : (readRest (u ++ '@' :: ver)).2 = beforeMarks ver := by
      rw [readRest, hbefore, if_pos (by simp), Str.rsplit1_append hat]
    rw [hsecond] at hlength h
    have hself : beforeMarks ver = ver := hpre.eq_of_length_le hlength
    rw [hself] at hat h
    rw [hver] at h
    exact ⟨beforeMarks_eq_self_iff.mp hself, hat, unquoteUrl_eq_self_iff.mp h⟩
  · intro h
    rw [readRest_at hu h.marks h.at_sign, hver]
    exact unquoteUrl_eq_self_iff.mpr h.escapes

/-- The types that are derived. -/
def purlTypes : List Str := str "maven" :: (quotedTypes ++ plainTypes.map Prod.fst)

theorem PurlForm.Derived.purlType_mem {form : PurlForm} (h : form.Derived pkg) :
    form.purlType ∈ purlTypes := by
  cases form with
  | plain purlType namespaced =>
    exact List.mem_cons_of_mem _ (List.mem_append_right _ (List.mem_map_of_mem h))
  | quoted purlType => exact List.mem_cons_of_mem _ (List.mem_append_left _ h)
  | maven => exact List.mem_cons_self

/-- A type is a word in lower case. -/
theorem of_mem_purlTypes (h : purlType ∈ purlTypes) : purlType ≠ [] ∧
    (purlType.all fun c => c.toNat < 128 && c.toLower == c) = true ∧
      ∀ c ∈ purlType, Str.isSpace c = false ∧ c ∉ str "#?/@%" := by
  have hall : (purlTypes.all fun t => t != [] && (t.all fun c => c.toNat < 128 && c.toLower == c) &&
      t.all fun c => !Str.isSpace c && decide (c ∉ str "#?/@%")) = true := by decide
  have hmem := List.all_eq_true.mp hall purlType h
  rw [Bool.and_eq_true, Bool.and_eq_true, bne_iff_ne] at hmem
  refine ⟨hmem.1.1, hmem.1.2, fun c hc => ?_⟩
  have hchar := List.all_eq_true.mp hmem.2 c hc
  rwa [Bool.and_eq_true, Bool.not_eq_true', decide_eq_true_iff] at hchar

attribute [local instance] percentDecoding

/-- What is read of a package URL. -/
theorem parsePurl_typed [Unicode] (htype : purlType ∈ purlTypes) {rest : Str} (hne : rest ≠ [])
    (hlast : ∀ c, rest.getLast? = some c → Str.isSpace c = false) :
    parsePurl (some (str "pkg:" ++ (purlType ++ '/' :: rest))) =
      if unquoteUrl (Str.strip (readRest rest).1) = [] then none
      else some (purlType, unquoteUrl (Str.strip (readRest rest).1),
        if unquoteUrl (Str.strip (readRest rest).2) = [] then none
        else some (unquoteUrl (Str.strip (readRest rest).2))) := by
  obtain ⟨htype, hlower, hplain⟩ := of_mem_purlTypes htype
  have hnot : ∀ c ∈ str "#?/@%", c ∉ purlType := fun c hc hmem => (hplain c hmem).2 hc
  have hstrip : Str.strip (str "pkg:" ++ (purlType ++ '/' :: rest)) =
      str "pkg:" ++ (purlType ++ '/' :: rest) := by
    refine Str.stripWhile_eq_self_iff.mpr ⟨fun c hc => ?_, fun c hc => hlast c ?_⟩
    · rw [← Option.some.inj hc]
      decide
    · rw [List.append_cons, ← List.append_assoc, List.getLast?_append_of_ne_nil _ hne] at hc
      exact hc
  have hbody : (Str.split1 '?' (Str.split1 '#' (purlType ++ '/' :: rest)).1).1 =
      purlType ++ '/' :: beforeMarks rest := by
    have happend := beforeMarks_append (u := purlType ++ ['/'])
      ⟨by simp [hnot '#' (by decide)], by simp [hnot '?' (by decide)]⟩ rest
    rwa [← List.append_cons, ← List.append_cons] at happend
  have hlowered : UrlDecoding.unquote (Unicode.lower (Str.strip purlType)) = purlType := by
    rw [Str.strip_eq_self fun c hc => (hplain c hc).1, Unicode.lower_eq_self hlower]
    exact unquoteUrl_of_notMem (hnot '%' (by decide))
  have hstart : Str.startsWith (str "pkg:" ++ (purlType ++ '/' :: rest)) (str "pkg:") = true :=
    List.isPrefixOf_iff_prefix.mpr (List.prefix_append _ _)
  have hdrop : (str "pkg:" ++ (purlType ++ '/' :: rest)).drop 4 = purlType ++ '/' :: rest := rfl
  simp only [parsePurl, Str.orEmpty_some, hstrip, hstart, not_true_eq_false, if_false, hdrop, hbody,
    Str.split1_append (hnot '/' (by decide)), hlowered, htype]
  rw [if_neg (by simp)]
  rfl

/-! ### Names in an ecosystem -/

/-- The last part of a path. -/
def lastSegment (s : Str) : Str := (s.splitOn '/').getLast?.getD []

theorem lastSegment_of_notMem (hs : '/' ∉ s) : lastSegment s = s := by
  rw [lastSegment, List.splitOn_eq_singleton hs]
  rfl

theorem lastSegment_append (s t : Str) : lastSegment (s ++ '/' :: t) = lastSegment t := by
  rw [lastSegment, List.splitOn_append_cons_self,
    List.getLast?_append_of_ne_nil _ (List.splitOn_ne_nil '/' t), ← lastSegment]

theorem length_lastSegment_lt (hs : '/' ∈ s) : (lastSegment s).length < s.length := by
  obtain ⟨y, hsplit, hy⟩ := Str.exists_rsplit1 hs
  have hlast : lastSegment s = y := by
    conv_lhs => rw [hsplit]
    rw [lastSegment_append, lastSegment_of_notMem hy]
  have hlength := congrArg List.length hsplit
  rw [List.length_append, List.length_cons] at hlength
  rw [hlast]
  omega

theorem length_lastSegment_le (s : Str) : (lastSegment s).length ≤ s.length := by
  by_cases hs : '/' ∈ s
  · exact (length_lastSegment_lt hs).le
  · rw [lastSegment_of_notMem hs]

theorem length_strip_le (s : Str) : (Str.strip s).length ≤ s.length :=
  (Str.stripWhile_sublist _ s).length_le

/-- The types whose names are the last part of a path. -/
def lastNamedTypes : List Str := ["pypi", "nuget", "gem", "cargo", "apk", "deb"].map str

theorem purlPackageName_of_last (htype : purlType ∈ lastNamedTypes) (path : Str) :
    purlPackageName purlType path = lastSegment path := if_pos htype

theorem purlPackageName_of_path (htype : purlType ∉ lastNamedTypes)
    (hmaven : purlType ≠ str "maven") (path : Str) : purlPackageName purlType path = path := by
  have hmem : purlType ∉ ["pypi", "nuget", "gem", "cargo", "apk", "deb"].map str := htype
  rw [purlPackageName, if_neg hmem, decide_eq_false hmaven]

theorem purlPackageName_nil (purlType : Str) : purlPackageName purlType [] = [] := by
  rw [purlPackageName]
  split_ifs
  · rfl
  · cases decide (purlType = str "maven") <;> rfl

/-- The name of a package that is written quoted is read back exactly if the type has no parts. -/
theorem quoted_name_iff (hmaven : purlType ≠ str "maven") (hpkg : Str.strip pkg = pkg) :
    Str.strip (purlPackageName purlType pkg) = pkg ↔ (purlType ∈ lastNamedTypes → '/' ∉ pkg) := by
  by_cases htype : purlType ∈ lastNamedTypes
  · rw [purlPackageName_of_last htype]
    constructor
    · intro h _ hslash
      have hlength := (length_strip_le (lastSegment pkg)).trans_lt (length_lastSegment_lt hslash)
      rw [h] at hlength
      exact lt_irrefl _ hlength
    · intro h
      rw [lastSegment_of_notMem (h htype), hpkg]
  · rw [purlPackageName_of_path htype hmaven, hpkg]
    exact iff_of_true rfl fun h => absurd h htype

/-- The name of a Maven package has the first two parts of its path. -/
theorem purlPackageName_maven (path : Str) : purlPackageName (str "maven") path =
    match (path.splitOn '/').filter (· ≠ []) with
    | group :: artifact :: _ => group ++ str ":" ++ artifact
    | _ => path := by
  have hmem : str "maven" ∉ ["pypi", "nuget", "gem", "cargo", "apk", "deb"].map str := by decide
  rw [purlPackageName, if_neg hmem, decide_eq_true rfl]
  rcases (path.splitOn '/').filter (· ≠ []) with _ | ⟨group, _ | ⟨artifact, tail⟩⟩ <;> rfl

/-- The group and the artifact of a package are read back exactly if they are parts of a path. -/
theorem maven_name_iff {group artifact : Str} (hartifact : artifact ≠ [])
    (hpkg : Str.strip (group ++ ':' :: artifact) = group ++ ':' :: artifact) :
    Str.strip (purlPackageName (str "maven") (group ++ '/' :: artifact)) =
        group ++ ':' :: artifact ↔ '/' ∉ group ++ ':' :: artifact ∧ group ≠ [] := by
  have hparts : '/' ∉ group ++ ':' :: artifact →
      (group ++ '/' :: artifact).splitOn '/' = [group, artifact] := by
    intro h
    rw [List.splitOn_append_cons_self,
      List.splitOn_eq_singleton fun hmem => h (List.mem_append_left _ hmem),
      List.splitOn_eq_singleton fun hmem =>
        h (List.mem_append_right _ (List.mem_cons_of_mem _ hmem))]
    rfl
  have hboth : '/' ∉ group ++ ':' :: artifact → group ≠ [] →
      ((group ++ '/' :: artifact).splitOn '/').filter (· ≠ []) = [group, artifact] := by
    intro h hgroup
    simp [hparts h, hgroup, hartifact]
  have hpath : Str.strip (group ++ '/' :: artifact) ≠ group ++ ':' :: artifact := by
    intro h
    have hlength : (Str.strip (group ++ '/' :: artifact)).length =
        (group ++ '/' :: artifact).length := by
      rw [h]
      simp
    have hself := (Str.stripWhile_sublist _ _).eq_of_length hlength
    rw [← Str.strip, h, List.append_cancel_left_eq] at hself
    exact absurd (List.cons.inj hself).1 (by decide)
  rw [purlPackageName_maven]
  rcases hfilter : ((group ++ '/' :: artifact).splitOn '/').filter (· ≠ []) with
    _ | ⟨first, _ | ⟨second, tail⟩⟩
  -- with fewer than two parts, the name is the path
  · refine iff_of_false hpath fun h => ?_
    rw [hboth h.1 h.2] at hfilter
    cases hfilter
  · refine iff_of_false hpath fun h => ?_
    rw [hboth h.1 h.2] at hfilter
    cases hfilter
  · have hmem : ∀ x ∈ first :: second :: tail, '/' ∉ x := fun x hx =>
      notMem_of_mem_splitOn (List.mem_of_mem_filter (hfilter ▸ hx))
    constructor
    · intro h
      have hslash : '/' ∉ group ++ ':' :: artifact := by
        rw [← h]
        intro hin
        have hname := (Str.stripWhile_sublist _ _).subset hin
        simp [str, hmem first, hmem second] at hname
      refine ⟨hslash, ?_⟩
      rintro rfl
      rw [hparts hslash] at hfilter
      simp [hartifact] at hfilter
    · intro h
      rw [hboth h.1 h.2] at hfilter
      cases hfilter
      have hname : group ++ str ":" ++ artifact = group ++ ':' :: artifact := by simp [str]
      exact (congrArg Str.strip hname).trans hpkg

/-- The name of a package that is written as it is, behind what stands before it. -/
theorem purlPackageName_plain {namespaced : Str} (htype : (purlType, namespaced) ∈ plainTypes)
    (s : Str) : purlPackageName purlType (namespaced ++ s) =
      if namespaced = [] then s else lastSegment s := by
  simp only [plainTypes, List.mem_cons, List.not_mem_nil, or_false, Prod.mk.injEq] at htype
  rcases htype with ⟨rfl, rfl⟩ | ⟨rfl, rfl⟩ | ⟨rfl, rfl⟩
  · exact purlPackageName_of_path (by decide) (by decide) s
  · exact (purlPackageName_of_last (by decide) _).trans (lastSegment_append (str "alpine") s)
  · exact (purlPackageName_of_last (by decide) _).trans (lastSegment_append (str "debian") s)

/-- What stands before a name is read as it is. -/
theorem exists_unquote_plain {namespaced : Str} (htype : (purlType, namespaced) ∈ plainTypes)
    (s : Str) : ∃ t, unquoteUrl (Str.strip (namespaced ++ s)) = namespaced ++ unquoteUrl t ∧
      t.length ≤ s.length ∧ (Str.strip s = s → t = s) := by
  by_cases hnil : namespaced = []
  · subst hnil
    exact ⟨Str.strip s, rfl, length_strip_le s, id⟩
  · have hplain : (plainTypes.all fun t => t.2.all fun c => !Str.isSpace c && c != '%') = true := by
      decide
    have hchar := List.all_eq_true.mp (List.all_eq_true.mp hplain _ htype)
    simp only [Bool.and_eq_true, Bool.not_eq_true', bne_iff_ne] at hchar
    refine ⟨s.rdropWhile Str.isSpace, ?_, (List.rdropWhile_prefix _ _).length_le, fun h => ?_⟩
    · rw [Str.strip_append_of_noBlank hnil fun c hc => (hchar c hc).1]
      exact unquoteUrl_append_of_notMem fun hmem => (hchar '%' hmem).2 rfl
    · refine List.rdropWhile_eq_self_iff.mpr fun hne => ?_
      rw [(Str.stripWhile_eq_self_iff.mp h).2 _ (List.getLast?_eq_some_getLast hne)]
      exact Bool.false_ne_true

/-- A name that is written as it is is read back exactly if nothing in it has a meaning. -/
theorem plain_name_iff {namespaced : Str} (htype : (purlType, namespaced) ∈ plainTypes)
    (hpkg : Str.strip pkg = pkg) :
    Str.strip (purlPackageName purlType (unquoteUrl (Str.strip (namespaced ++ pkg)))) = pkg ↔
      NoEscape pkg ∧ (namespaced ≠ [] → '/' ∉ pkg) := by
  obtain ⟨t, hpath, -, ht⟩ := exists_unquote_plain htype pkg
  rw [hpath, ht hpkg, purlPackageName_plain htype]
  constructor
  · intro h
    have hlength := length_strip_le (if namespaced = [] then unquoteUrl pkg
      else lastSegment (unquoteUrl pkg))
    rw [h] at hlength
    split_ifs at hlength with hnil
    · exact ⟨noEscape_of_length_le hlength, fun hne => absurd hnil hne⟩
    · have hescape := noEscape_of_length_le (hlength.trans (length_lastSegment_le _))
      rw [unquoteUrl_eq_self_iff.mpr hescape] at hlength
      exact ⟨hescape, fun _ hslash => (length_lastSegment_lt hslash).not_ge hlength⟩
  · rintro ⟨hescape, hslash⟩
    rw [unquoteUrl_eq_self_iff.mpr hescape]
    split_ifs with hnil
    · exact hpkg
    · rw [lastSegment_of_notMem (hslash hnil), hpkg]

/-- A name with a mark is cut. -/
theorem length_readRest_lt (hmark : '#' ∈ pkg ∨ '?' ∈ pkg) (s : Str) :
    (readRest (pkg ++ s)).1.length < pkg.length := by
  have hbefore : (beforeMarks (pkg ++ s)).length < pkg.length := by
    by_contra hle
    have hpre := List.prefix_of_prefix_length_le (List.prefix_append pkg s)
      (beforeMarks_prefix_self (pkg ++ s)) (not_lt.mp hle)
    have hnot := notMem_beforeMarks (pkg ++ s)
    exact hmark.elim (fun h => hnot.1 (hpre.subset h)) fun h => hnot.2 (hpre.subset h)
  rw [readRest]
  split_ifs with hat
  · obtain ⟨y, hs, -⟩ := Str.exists_rsplit1 hat
    have hlength := congrArg List.length hs
    rw [List.length_append] at hlength
    omega
  · exact hbefore

/-- A name with a mark is not read back. -/
theorem plain_name_ne {namespaced : Str} (htype : (purlType, namespaced) ∈ plainTypes)
    (hmark : '#' ∈ pkg ∨ '?' ∈ pkg) (s : Str) :
    Str.strip (purlPackageName purlType
      (unquoteUrl (Str.strip (readRest (namespaced ++ (pkg ++ s))).1))) ≠ pkg := by
  have hplain : (plainTypes.all fun t => t.2.all fun c => decide (c ∉ str "#?@")) = true := by
    decide
  have hchar := List.all_eq_true.mp (List.all_eq_true.mp hplain _ htype)
  have hnot : ∀ c ∈ str "#?@", c ∉ namespaced := fun c hc hmem =>
    of_decide_eq_true (hchar c hmem) hc
  intro h
  rw [readRest_append ⟨hnot '#' (by decide), hnot '?' (by decide)⟩ (hnot '@' (by decide))] at h
  obtain ⟨t, hpath, hlength, -⟩ := exists_unquote_plain htype (readRest (pkg ++ s)).1
  rw [hpath, purlPackageName_plain htype] at h
  have hname := length_strip_le (if namespaced = [] then unquoteUrl t
    else lastSegment (unquoteUrl t))
  have hshort : (if namespaced = [] then unquoteUrl t
      else lastSegment (unquoteUrl t)).length ≤ t.length := by
    split_ifs
    · exact length_unquoteUrl_le t
    · exact (length_lastSegment_le _).trans (length_unquoteUrl_le t)
  rw [h] at hname
  exact absurd (length_readRest_lt hmark s) (by omega)

/-! ### Reading back -/

/-- The feed reads the ecosystem, the name and the version that a package URL was made of. -/
structure PurlAgrees [Unicode] (purl purlType pkg ver : Str) : Prop where
  version : ((parsePurl (some purl)).bind fun parsed => parsed.2.2) = some ver
  target : ∃ ecosystem, ecosystemUnder ecosystemByType purlType = some ecosystem ∧
    ∀ fallback, purlToOsvTarget (some purl) fallback = some (pkg, ecosystem)

/-- What has to be read for the package to be read back. -/
theorem purlAgrees_iff [Unicode] (htype : purlType ∈ purlTypes) (hpkg : pkg ≠ [])
    (hver : Str.strip ver = ver) (hne : ver ≠ []) (written : Str) :
    PurlAgrees (str "pkg:" ++ (purlType ++ '/' :: (written ++ '@' :: ver))) purlType pkg ver ↔
      unquoteUrl (Str.strip (readRest (written ++ '@' :: ver)).2) = ver ∧
        Str.strip (purlPackageName purlType
          (unquoteUrl (Str.strip (readRest (written ++ '@' :: ver)).1))) = pkg := by
  have hecosystems : ∀ t ∈ purlTypes, (ecosystemUnder ecosystemByType t).isSome := by decide
  obtain ⟨ecosystem, hecosystem⟩ := Option.isSome_iff_exists.mp (hecosystems purlType htype)
  have hlast : ∀ c, (written ++ '@' :: ver).getLast? = some c → Str.isSpace c = false := by
    intro c hc
    rw [List.append_cons, List.getLast?_append_of_ne_nil _ hne] at hc
    exact (Str.stripWhile_eq_self_iff.mp hver).2 c hc
  have hparse := parsePurl_typed htype (by simp : written ++ '@' :: ver ≠ []) hlast
  generalize unquoteUrl (Str.strip (readRest (written ++ '@' :: ver)).1) = path at hparse ⊢
  generalize unquoteUrl (Str.strip (readRest (written ++ '@' :: ver)).2) = version at hparse ⊢
  by_cases hpath : path = []
  · rw [if_pos hpath] at hparse
    refine iff_of_false (fun h => ?_) fun h => ?_
    · have hversion := h.version
      rw [hparse] at hversion
      cases hversion
    · rw [hpath, purlPackageName_nil] at h
      exact hpkg h.2.symm
  rw [if_neg hpath] at hparse
  have htarget : ∀ fallback, purlToOsvTarget (some (str "pkg:" ++ (purlType ++ '/' ::
      (written ++ '@' :: ver)))) fallback =
        if Str.strip (purlPackageName purlType path) ≠ [] then
          some (Str.strip (purlPackageName purlType path), ecosystem)
        else if Str.strip (Str.orEmpty fallback) ≠ [] then
          some (Str.strip (Str.orEmpty fallback), ecosystem)
        else none := by
    intro fallback
    rw [purlToOsvTarget, hparse]
    simp only [Option.bind_some, hecosystem]
  constructor
  · intro h
    have hversion := h.version
    obtain ⟨ecosystem', hecosystem', hname⟩ := h.target
    have hnone := hname none
    rw [htarget] at hnone
    rw [hparse, Option.bind_some] at hversion
    refine ⟨?_, ?_⟩
    · split_ifs at hversion
      exact Option.some.inj hversion
    · split_ifs at hnone with hempty hfallback
      · exact (Prod.mk.inj (Option.some.inj hnone)).1
      · exact absurd Str.strip_nil hfallback
  · rintro ⟨rfl, hname⟩
    refine ⟨?_, ecosystem, hecosystem, fun fallback => ?_⟩
    · rw [hparse, Option.bind_some, if_neg hne]
    · rw [htarget, hname, if_pos hpkg]

/-- A quoted text has no blanks and no marks. -/
theorem plain_quoteUrl {safe : Str} (hsafe : ∀ c ∈ safe, c = '/') (s : Str) :
    ∀ c ∈ quoteUrl safe s, Str.isSpace c = false ∧ c ∉ str "#?" := by
  refine forall_mem_quoteUrl (by decide) (by decide) fun c hc => ?_
  rw [hsafe c hc]
  decide

theorem strip_quoteUrl {safe : Str} (hsafe : ∀ c ∈ safe, c = '/') (s : Str) :
    Str.strip (quoteUrl safe s) = quoteUrl safe s :=
  Str.strip_eq_self fun c hc => (plain_quoteUrl hsafe s c hc).1

/-- A name that is read back. -/
def PurlForm.KeepsName : PurlForm → Str → Prop
  | .plain _ namespaced, pkg =>
    ('#' ∉ pkg ∧ '?' ∉ pkg) ∧ NoEscape pkg ∧ (namespaced ≠ [] → '/' ∉ pkg)
  | .quoted purlType, pkg => purlType ∈ lastNamedTypes → '/' ∉ pkg
  | .maven, pkg => '/' ∉ pkg ∧ (Str.split1 ':' pkg).1 ≠ []

/-- If nothing cuts the name, the name and the version are read apart. -/
theorem unmarked_iff {written : Str} {Keeps : Prop} (hwritten : '#' ∉ written ∧ '?' ∉ written)
    (hver : Str.strip ver = ver)
    (hname : Str.strip (purlPackageName purlType (unquoteUrl (Str.strip written))) = pkg ↔ Keeps) :
    unquoteUrl (Str.strip (readRest (written ++ '@' :: ver)).2) = ver ∧
        Str.strip (purlPackageName purlType
          (unquoteUrl (Str.strip (readRest (written ++ '@' :: ver)).1))) = pkg ↔
      Keeps ∧ KeepsVersion ver := by
  rw [version_iff hwritten hver, and_comm]
  refine and_congr_left fun hkeeps => ?_
  rw [readRest_at hwritten hkeeps.marks hkeeps.at_sign]
  exact hname

/-- A package in one of the forms is read back exactly if its name and its version are kept. -/
theorem form_agrees_iff [Unicode] {form : PurlForm} (hform : form.Derived pkg)
    (hpkg : Str.strip pkg = pkg) (hne : pkg ≠ []) (hver : Str.strip ver = ver) (hne' : ver ≠ []) :
    PurlAgrees (form.purl pkg ver) form.purlType pkg ver ↔
      form.KeepsName pkg ∧ KeepsVersion ver := by
  rw [PurlForm.purl, purlAgrees_iff hform.purlType_mem hne hver hne']
  cases form with
  | plain purlType namespaced =>
    by_cases hmarks : '#' ∉ pkg ∧ '?' ∉ pkg
    · have hplain : (plainTypes.all fun t => t.2.all fun c => decide (c ∉ str "#?")) = true := by
        decide
      have hnot : ∀ c ∈ str "#?", c ∉ namespaced := fun c hc hmem =>
        of_decide_eq_true (List.all_eq_true.mp (List.all_eq_true.mp hplain _ hform) c hmem) hc
      refine unmarked_iff ⟨?_, ?_⟩ hver ?_
      · simp [PurlForm.writtenName, hnot '#' (by decide), hmarks.1]
      · simp [PurlForm.writtenName, hnot '?' (by decide), hmarks.2]
      · exact (plain_name_iff hform hpkg).trans (and_iff_right hmarks).symm
    · refine iff_of_false (fun h => ?_) fun h => hmarks h.1.1
      rw [not_and_or, not_not, not_not] at hmarks
      refine plain_name_ne hform hmarks ('@' :: ver) ?_
      rw [← List.append_assoc]
      exact h.2
  | quoted purlType =>
    have hmaven : purlType ≠ str "maven" := by
      have hnot : str "maven" ∉ quotedTypes := by decide
      rintro rfl
      exact hnot hform
    have hsafe : ∀ c ∈ ['/'], c = '/' := fun c hc => List.mem_singleton.mp hc
    refine unmarked_iff ⟨fun h => ?_, fun h => ?_⟩ hver ?_
    · exact absurd (by decide) (plain_quoteUrl hsafe pkg _ h).2
    · exact absurd (by decide) (plain_quoteUrl hsafe pkg _ h).2
    · rw [PurlForm.writtenName, strip_quoteUrl hsafe, unquoteUrl_quoteUrl (by decide)]
      exact quoted_name_iff hmaven hpkg
  | maven =>
    obtain ⟨group, artifact, rfl, hgroup⟩ := List.eq_append_cons_of_mem hform.1
    have hsplit := Str.split1_append (y := artifact) hgroup
    have hartifact := hform.2
    rw [hsplit] at hartifact
    have hwritten : PurlForm.maven.writtenName (group ++ ':' :: artifact) =
        quoteUrl [] group ++ '/' :: quoteUrl [] artifact := by
      rw [PurlForm.writtenName, hsplit]
    have hplain : ∀ c ∈ quoteUrl [] group ++ '/' :: quoteUrl [] artifact,
        Str.isSpace c = false ∧ c ∉ str "#?" := by
      intro c hc
      rcases List.mem_append.mp hc with hc | hc
      · exact plain_quoteUrl (fun c hc => absurd hc List.not_mem_nil) group c hc
      · rcases List.mem_cons.mp hc with rfl | hc
        · decide
        · exact plain_quoteUrl (fun c hc => absurd hc List.not_mem_nil) artifact c hc
    rw [hwritten]
    refine unmarked_iff ⟨fun h => ?_, fun h => ?_⟩ hver ?_
    · exact absurd (by decide) (hplain _ h).2
    · exact absurd (by decide) (hplain _ h).2
    · rw [Str.strip_eq_self fun c hc => (hplain c hc).1,
        unquoteUrl_quoteUrl_append (by decide), unquoteUrl_cons (escapedByte_of_ne (by decide)),
        unquoteUrl_quoteUrl (by decide), PurlForm.KeepsName, hsplit]
      exact maven_name_iff hartifact hpkg

/-- A package is read back from its derived package URL exactly if its name and its version are
kept. -/
theorem purl_round_trip_iff [Unicode] [CharTables] {name version language purl confidence : Str}
    (h : derivePurl name version language = some (purl, confidence)) :
    ∃ form, derivedForm name version language = some form ∧
      (PurlAgrees purl form.purlType (Str.strip name) (Str.strip version) ↔
        form.KeepsName (Str.strip name) ∧ KeepsVersion (Str.strip version)) := by
  have hderived := derivePurl_eq name version language
  rw [h, Option.map_some] at hderived
  obtain ⟨form, hform, hpurl⟩ := Option.map_eq_some_iff.mp hderived.symm
  obtain ⟨hname, hversion, hwritten⟩ := derived_of_derivedForm hform
  obtain rfl : form.purl (Str.strip name) (Str.strip version) = purl := hpurl
  refine ⟨form, hform, ?_⟩
  exact form_agrees_iff hwritten (Str.strip_strip name) hname (Str.strip_strip version) hversion

attribute [local instance] asciiUnicode asciiCharTables

/-- A package with a scope is read back. -/
theorem purl_round_trip_scoped :
    ∃ form, derivedForm (str "@angular/core") (str "17.0.0-rc.1") (str "npm") = some form ∧
      (PurlAgrees (str "pkg:npm/%40angular/core@17.0.0-rc.1") form.purlType (str "@angular/core")
          (str "17.0.0-rc.1") ↔
        form.KeepsName (str "@angular/core") ∧ KeepsVersion (str "17.0.0-rc.1")) := by
  have h : derivePurl (str "@angular/core") (str "17.0.0-rc.1") (str "npm") =
      some (str "pkg:npm/%40angular/core@17.0.0-rc.1", str "high") := by decide +kernel
  exact purl_round_trip_iff h

/-- Of a version that names another package, only the end is read back. -/
theorem not_purl_round_trip_alias :
    derivePurl (str "string-width-cjs") (str "npm:string-width@4.2.0") (str "npm") =
        some (str "pkg:npm/string-width-cjs@npm:string-width@4.2.0", str "medium") ∧
      parsePurl (some (str "pkg:npm/string-width-cjs@npm:string-width@4.2.0")) =
        some (str "npm", str "string-width-cjs@npm:string-width", some (str "4.2.0")) ∧
      ¬ PurlAgrees (str "pkg:npm/string-width-cjs@npm:string-width@4.2.0") (str "npm")
        (str "string-width-cjs") (str "npm:string-width@4.2.0") := by
  have hparse : parsePurl (some (str "pkg:npm/string-width-cjs@npm:string-width@4.2.0")) =
      some (str "npm", str "string-width-cjs@npm:string-width", some (str "4.2.0")) := by
    decide +kernel
  refine ⟨by decide +kernel, hparse, fun h => ?_⟩
  have hversion := h.version
  rw [hparse] at hversion
  exact absurd (Option.some.inj hversion) (by decide)

end Parsing

end Vat
