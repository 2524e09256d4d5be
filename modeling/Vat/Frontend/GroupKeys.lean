import Mathlib.Data.List.Chain
import Vat.Findings.GroupKey
import Vat.Frontend.ContainerKeys

/-!
# Group keys in the frontend

The frontend groups findings by a key of its own, written after the one of the backend. They differ
where the two languages read a text in different ways, where a component base or a title is empty,
in the benchmark families that stand for Oracle Linux, and for a package that is named like a member
of every JavaScript object.

Source: `frontend/lib/findingGroupUtils.ts`, lines 20–288.

## Main definitions

* `LowerTables`: what the tables of both languages have in common.
* `Frontend.getFindingGroupKey`.
* `Frontend.ReadsAlike`: both languages read the texts of a finding in the same way.

## Main results

* `Frontend.groups_agree`: then the keys are those of the backend, and so are the groups.
-/

namespace Vat

/-! ### Text -/

/-- The first word of a text that starts with one. -/
def firstWord (isSpace : Char → Bool) (s : Str) : Str := s.takeWhile fun c => !isSpace c

/-- What follows the first word and the blanks behind it. -/
def afterFirstWord (isSpace : Char → Bool) (s : Str) : Str :=
  (s.dropWhile fun c => !isSpace c).dropWhile isSpace

/-- What is true of lower case in Python and in JavaScript alike: blanks have no case and no letter
is cased across them, a digit stays what it is, and lower case is its own lower case. -/
class LowerTables extends CaseTables where
  lower_strip : ∀ s, lower (Str.strip s) = Str.strip (lower s)
  lower_trim : ∀ s, lower (Js.trim s) = Js.trim (lower s)
  lower_firstWord : ∀ s, lower (firstWord Str.isSpace s) = firstWord Str.isSpace (lower s)
  lower_afterFirstWord : ∀ s,
    lower (afterFirstWord Str.isSpace s) = afterFirstWord Str.isSpace (lower s)
  lower_head : ∀ c s, ∃ d t, lower (c :: s) = d :: t ∧ isDigit d = isDigit c
  lower_of_mem_lower : ∀ s, ∀ c ∈ lower s, lower [c] = [c]
  lower_eq_self : ∀ t, (∀ c ∈ t, lower [c] = [c]) → lower t = t

theorem isSpace_of_letter {c : Char} (hge : 65 ≤ c.toNat) (hle : c.toNat ≤ 122) :
    Str.isSpace c = false ∧ Js.isSpace c = false := by
  simp only [Str.isSpace, Js.isSpace, Bool.or_eq_false_iff, Bool.and_eq_false_imp,
    decide_eq_true_eq, decide_eq_false_iff_not, beq_eq_false_iff_ne]
  omega

theorem isSpace_toLower (c : Char) :
    Str.isSpace c.toLower = Str.isSpace c ∧ Js.isSpace c.toLower = Js.isSpace c := by
  obtain ⟨h, -⟩ | ⟨hge, hle, h⟩ := toNat_toLower c
  · rw [h]
    exact ⟨rfl, rfl⟩
  · have hc := isSpace_of_letter hge (by omega)
    have hlower := isSpace_of_letter (c := c.toLower) (by omega) (by omega)
    rw [hc.1, hc.2, hlower.1, hlower.2]
    exact ⟨rfl, rfl⟩

theorem isDigit_iff (c : Char) : c.isDigit = true ↔ 48 ≤ c.toNat ∧ c.toNat ≤ 57 := by
  simp only [Char.isDigit, Bool.and_eq_true, decide_eq_true_eq, ge_iff_le, UInt32.le_iff_toNat_le]
  exact Iff.rfl

theorem isDigit_toLower (c : Char) : c.toLower.isDigit = c.isDigit := by
  obtain ⟨h, -⟩ | ⟨hge, hle, h⟩ := toNat_toLower c
  · exact congrArg Char.isDigit h
  · rw [Bool.eq_iff_iff, isDigit_iff, isDigit_iff, h]
    omega

theorem not_isSpace_comp_toLower :
    (fun c => !Str.isSpace c) ∘ Char.toLower = fun c => !Str.isSpace c := by
  funext c
  rw [Function.comp_apply, (isSpace_toLower c).1]

theorem isSpace_comp_toLower : Str.isSpace ∘ Char.toLower = Str.isSpace :=
  funext fun c => (isSpace_toLower c).1

/-- The tables on ASCII text. -/
@[reducible] def asciiLowerTables : LowerTables where
  toCaseTables := asciiCaseTables
  lower_strip s := (Str.stripWhile_map (fun c => (isSpace_toLower c).1) s).symm
  lower_trim s := (Str.stripWhile_map (fun c => (isSpace_toLower c).2) s).symm
  lower_firstWord s := by
    refine Eq.symm (List.takeWhile_map.trans ?_)
    rw [not_isSpace_comp_toLower]
    rfl
  lower_afterFirstWord s := by
    refine Eq.symm ((congrArg (List.dropWhile Str.isSpace) List.dropWhile_map).trans
      (List.dropWhile_map.trans ?_))
    rw [not_isSpace_comp_toLower, isSpace_comp_toLower]
    rfl
  lower_head c s := ⟨c.toLower, s.map Char.toLower, List.map_cons, isDigit_toLower c⟩
  lower_of_mem_lower s c hc := by
    obtain ⟨d, -, rfl⟩ := List.mem_map.mp hc
    exact congrArg (fun c => [c]) (toLower_toLower d)
  lower_eq_self t h := by
    have hself : ∀ c ∈ t, c.toLower = c := by
      intro c hc
      have hc' : [c.toLower] = [c] := h c hc
      exact List.singleton_inj.mp hc'
    exact (List.map_congr_left hself).trans (List.map_id t)

namespace Js

/-- `s.length`. -/
def length (s : Str) : ℕ := (s.map fun c => if c.toNat < 0x10000 then 1 else 2).sum

/-- A literal text under the flag `i`: only ASCII letters have two cases there. -/
def lit (s : String) : Pattern := .all ((str s).map fun c => .one fun d => d.toLower == c)

/-- `\s`. -/
def space : Pattern := .one isSpace

/-- `\d`. -/
def decimal : Pattern := .one Char.isDigit

/-- A character of a path: a word character, a dot, a slash or a hyphen. -/
def pathChar : Pattern :=
  .one fun c => c.isAlphanum || c == '_' || c == '.' || c == '/' || c == '-'

/-- `text.replace(pattern + "$", "")`. -/
def replaceAtEnd (p : Pattern) (t : Str) : Str := (Pattern.beforeMatch p t).getD t

/-- `text.replace(/^-|-$/g, "")`. -/
def trimHyphen (s : Str) : Str :=
  let s := if s.head? = some '-' then s.tail else s
  if s.getLast? = some '-' then s.dropLast else s

end Js

namespace Frontend

variable [LowerTables]

/-! ### Packages and ecosystems -/

/-- `componentBase`. -/
def componentBase (comp : Str) : Str := Unicode.lower (Js.trim (Str.split1 '@' comp).1)

/-- `extractComponentBaseForGrouping`. -/
def extractComponentBaseForGrouping (component : Option Str) : Str :=
  let base := componentBase (Str.orEmpty component)
  match afterFirstWord Js.isSpace base with
  | [] => base
  | c :: _ => if c.isDigit then Js.trim (firstWord Js.isSpace base) else base

/-- `normalizeEcosystemForGrouping`. -/
def normalizeEcosystemForGrouping (eco : Option Str) : Str :=
  let e := Js.trim (Unicode.lower (Str.orEmpty eco))
  if e = str "npm" ∨ e = str "yarn" ∨ e = str "pnpm" then str "npm" else e

/-- The members of every JavaScript object whose names are in lower case. -/
def inheritedNames : List Str := [str "constructor", str "__proto__"]

/-- `normalizeScaPackageForCrossScanner`. A package may have the name of something that the table of
aliases inherits, which is no text: `none`. -/
def normalizeScaPackageForCrossScanner (name : Str) : Option Str :=
  let n := Unicode.lower (Js.trim name)
  if n = [] then some []
  else if n ∈ scaPackageAliases then some (str "openssl")
  else if n ∈ inheritedNames then none
  else if Str.startsWith n (str "libssl") then some (str "openssl")
  else some n

/-- `/(^|_)ol(_|$)/`: the text has `_ol_` when it stands between underscores. -/
def hasOlWord (s : Str) : Bool := Str.contains (str "_" ++ s ++ str "_") (str "_ol_")

/-- `inferScaEcosystemFromBenchmarkFamily`. -/
def inferScaEcosystemFromBenchmarkFamily (benchmarkFamily : Option Str) : Str :=
  let bf := Unicode.lower (Str.orEmpty benchmarkFamily)
  if bf = [] then []
  else if Str.containsAny bf ["rhel", "red_hat", "centos", "rocky", "alma", "fedora"] ||
      hasOlWord bf then str "rpm"
  else if Str.containsAny bf ["ubuntu", "debian", "u_ubuntu"] then str "debian"
  else []

/-- `inferScaEcosystemFromContainerRef`. -/
def inferScaEcosystemFromContainerRef (image tag : Option Str) : Str :=
  let blob := Unicode.lower (Str.orEmpty image ++ str " " ++ Str.orEmpty tag)
  if Js.trim blob = [] then []
  else if Str.containsAny blob
      ["debian", "ubuntu", "-deb", "deb12", "deb11", "bookworm", "bullseye", "jammy", "focal"] then
    str "debian"
  else if Str.containsAny blob
      ["rhel", "ubi", "alma", "rocky", "centos", "fedora", "amzn", "amazonlinux"] then
    str "rpm"
  else []

/-- `effectiveScaEcosystem`. -/
def effectiveScaEcosystem (ecosystem benchmarkFamily image tag : Option Str) : Str :=
  let eco := normalizeEcosystemForGrouping ecosystem
  if eco ≠ [] then eco
  else
    let eco := inferScaEcosystemFromBenchmarkFamily benchmarkFamily
    if eco ≠ [] then eco else inferScaEcosystemFromContainerRef image tag

/-- `normalizePackageName` of a text. -/
def normalizePackageName (ecosystem name : Str) : Str :=
  let n := Js.trim name
  let eco := Js.trim (Unicode.lower ecosystem)
  if n = [] then []
  else if eco ∈ [str "npm", str "yarn", str "pnpm"] then Unicode.lower n
  else if eco ∈ [str "pypi", str "pip", str "pipenv", str "poetry"] then
    collapseRuns (fun c => c == '-' || c == '_' || c == '.') (Unicode.lower n)
  else Unicode.lower n

/-- The ecosystem and the package of an SCA or a license finding. -/
def groupPackage (f : Finding) : Str × Str :=
  let rawPkg := f.componentBase.getD (extractComponentBaseForGrouping f.component)
  let ecoGrouped := normalizeEcosystemForGrouping
    (some (effectiveScaEcosystem f.ecosystem f.benchmarkFamily f.image f.tag))
  let cross := if rawPkg = [] then some [] else normalizeScaPackageForCrossScanner rawPkg
  (ecoGrouped,
    match cross with
    | none => []
    | some cross => if cross = [] then [] else normalizePackageName ecoGrouped cross)

/-! ### Titles -/

omit [LowerTables] in
/-- `, path and N others` and `, path, path and N others`. -/
def othersSuffix : Pattern :=
  let part := Pattern.plus (.one fun c => c != ',')
  .all [Js.lit ", ", part, .opt (.all [Js.lit ", ", part]), Js.lit " and ", .plus Js.decimal,
    Js.lit " other", .opt (Js.lit "s")]

omit [LowerTables] in
/-- A second path after a comma. -/
def secondPath : Pattern :=
  .opt (.all [.star Js.space, Js.lit ",", .star Js.space, .plus Js.pathChar])

omit [LowerTables] in
/-- ` in path` with a file extension. -/
def pathSuffix : Pattern :=
  .all [.plus Js.space, Js.lit "in", .plus Js.space, .plus Js.pathChar, Js.lit ".",
    .oneOf (["py", "ts", "tsx", "js", "jsx", "json", "yml", "yaml", "md", "txt", "xml", "html",
      "css", "sh", "go", "rs", "java", "kt", "env", "tf", "hcl", "toml", "lock"].map Js.lit),
    secondPath]

omit [LowerTables] in
/-- ` in path` of a file without an extension. -/
def plainFileSuffix : Pattern :=
  .all [.plus Js.space, Js.lit "in", .plus Js.space, .star Js.pathChar,
    .oneOf (["dockerfile", "makefile", ".dockerignore", ".gitignore"].map Js.lit), secondPath]

omit [LowerTables] in
/-- ` at line N in path` and ` at line N-N in path`. -/
def lineSuffix : Pattern :=
  .all [.plus Js.space, Js.lit "at", .plus Js.space, Js.lit "line", .plus Js.space,
    .plus Js.decimal, .opt (.seq (Js.lit "-") (.plus Js.decimal)), .plus Js.space, Js.lit "in",
    .plus Js.space, .plus Js.pathChar]

/-- `normalizeRuleTitleForGrouping`. -/
def normalizeRuleTitleForGrouping (title : Str) (stripLocations : Bool) : Str :=
  let t := Js.trim title
  if stripLocations then
    let t := [othersSuffix, pathSuffix, plainFileSuffix, lineSuffix].foldl
      (fun t p => Js.replaceAtEnd p t) t
    Unicode.lower (Js.trim t)
  else Unicode.lower t

/-! ### Keys -/

/-- Lower case, without blanks around it. -/
def lowerTrim (s : Option Str) : Str := Js.trim (Unicode.lower (Str.orEmpty s))

/-- `assetKey`, with the rules for aliases in memory. -/
def assetKey (pairs : List (Str × Str)) (f : Finding) : Str :=
  let rawImg := Js.trim (Str.orEmpty f.image)
  let canonImg := if rawImg = [] then [] else Js.trim (Unicode.lower (groupKey pairs rawImg))
  canonImg ++ str "|" ++ lowerTrim f.branch ++ str "|" ++ lowerTrim f.tag

/-- The title of a finding, or its id of a weakness if it has no title. -/
def groupTitle (f : Finding) (stripLocations : Bool) : Str :=
  normalizeRuleTitleForGrouping (Js.trim (f.title.getD f.cveId)) stripLocations

omit [LowerTables] in
/-- The spelling of a secret's key without regard to its separators. -/
def secretKey (rawKey : Str) : Str :=
  if !Str.contains rawKey (str " in ") && Js.length rawKey < 80 then
    let key := Js.trimHyphen
      (collapseRuns (fun c => c == '-' || c == '_' || Js.isSpace c) rawKey)
    if key = [] then rawKey else key
  else rawKey

/-- What is wrong, without the asset. -/
def groupIssue (f : Finding) : Str :=
  match f.findingType with
  | .sca =>
    let (eco, pkg) := groupPackage f
    if pkg = [] then str "cve:" ++ lowerTrim (some f.cveId) else str "sca:" ++ eco ++ str "|" ++ pkg
  | .sast =>
    str "sast:" ++ firstText [lowerTrim f.ruleId, lowerTrim f.cweId, groupTitle f true, f.id]
  | .iac => str "iac:" ++ firstText [lowerTrim f.ruleId, groupTitle f true, f.id]
  | .secret =>
    str "secret:" ++ secretKey
      (firstText [lowerTrim f.secretType, lowerTrim f.ruleId, groupTitle f false, f.id])
  | .license =>
    let (eco, pkg) := groupPackage f
    if pkg = [] then str "license:" ++ f.id else str "license:" ++ eco ++ str "|" ++ pkg

/-- `getFindingGroupKey`. -/
def getFindingGroupKey (pairs : List (Str × Str)) (f : Finding) : Str :=
  groupIssue f ++ str "#" ++ assetKey pairs f

/-! ### When both read a text in the same way -/

omit [LowerTables] in
/-- Both trim a text in the same way. -/
def SameEnds (s : Str) : Prop := Js.trim s = Str.strip s

omit [LowerTables] in
instance (s : Str) : Decidable (SameEnds s) := inferInstanceAs (Decidable (_ = _))

omit [LowerTables] in
/-- A text whose first word is followed by a digit. -/
def versioned (isSpace isDigit : Char → Bool) (s : Str) : Bool :=
  (afterFirstWord isSpace s).head?.any isDigit

omit [LowerTables] in
theorem SameEnds.strip {s : Str} (h : SameEnds s) : SameEnds (Str.strip s) := by
  rw [SameEnds, Str.strip_strip, ← h]
  exact Str.stripWhile_stripWhile _ _

theorem SameEnds.lower {s : Str} (h : SameEnds s) : SameEnds (Unicode.lower s) := by
  rw [SameEnds, ← LowerTables.lower_trim, h, LowerTables.lower_strip]

theorem normalize_eq (s : Str) : normalize s = Str.strip (Unicode.lower s) := by
  rw [normalize]
  split_ifs with hempty
  · rw [hempty, LowerTables.lower_eq_self [] fun c hc => absurd hc List.not_mem_nil, Str.strip_nil]
  · rfl

theorem lowerTrim_eq {s : Option Str} (h : SameEnds (Str.orEmpty s)) :
    lowerTrim s = normalize (Str.orEmpty s) := by
  rw [lowerTrim, normalize_eq, h.lower]

/-! ### Packages -/

omit [LowerTables] in
/-- Blanks around a text do not matter to what stands before a sign. -/
theorem strip_split1_strip {c : Char} (hc : Str.isSpace c = false) (s : Str) :
    Str.strip (Str.split1 c (Str.strip s)).1 = Str.strip (Str.split1 c s).1 := by
  have hsplit : ∀ {l : Str}, (∀ d ∈ l, Str.isSpace d = true) → ∀ d ∈ l, (d != c) = true := by
    intro l hl d hd
    rw [bne_iff_ne]
    rintro rfl
    rw [hl d hd] at hc
    cases hc
  have hpre : ∀ d ∈ s.takeWhile Str.isSpace, Str.isSpace d = true := fun d hd =>
    List.mem_takeWhile_imp hd
  have hpost : ∀ d ∈ (s.dropWhile Str.isSpace).rtakeWhile Str.isSpace, Str.isSpace d = true :=
    fun d hd => List.mem_rtakeWhile_imp hd
  have hleft : Str.strip (Str.split1 c s).1 =
      Str.strip (Str.split1 c (s.dropWhile Str.isSpace)).1 := by
    conv_lhs => rw [← List.takeWhile_append_dropWhile (p := Str.isSpace) (l := s)]
    rw [Str.split1, List.takeWhile_append_of_pos (hsplit hpre)]
    exact Str.stripWhile_append_left hpre _
  have hright : Str.strip (Str.split1 c (s.dropWhile Str.isSpace)).1 =
      Str.strip (Str.split1 c (Str.strip s)).1 := by
    conv_lhs =>
      rw [← List.rdropWhile_append_rtakeWhile (p := Str.isSpace) (l := s.dropWhile Str.isSpace)]
    rw [Str.split1, List.takeWhile_append]
    split_ifs with hall
    · have hself : (Str.split1 c (Str.strip s)).1 = Str.strip s :=
        (List.takeWhile_prefix _).eq_of_length hall
      rw [hself, List.takeWhile_eq_self_iff.mpr (hsplit hpost)]
      exact Str.stripWhile_append_right hpost _
    · rfl
  rw [hleft, hright]

omit [LowerTables] in
theorem notMem_firstWord {isSpace : Char → Bool} {s : Str} :
    ∀ c ∈ firstWord isSpace s, isSpace c = false := fun c hc => by
  simpa using List.mem_takeWhile_imp hc

omit [LowerTables] in
theorem afterFirstWord_of_noBlank {isSpace : Char → Bool} {s : Str}
    (h : ∀ c ∈ s, isSpace c = false) : afterFirstWord isSpace s = [] := by
  have hdrop : s.dropWhile (fun c => !isSpace c) = [] :=
    List.dropWhile_eq_nil_iff.mpr fun c hc => by simp [h c hc]
  rw [afterFirstWord, hdrop, List.dropWhile_nil]

/-- The lower case of a text has a version where the text has one. -/
theorem versioned_lower (s : Str) :
    versioned Str.isSpace Unicode.isDigit (Unicode.lower s) =
      versioned Str.isSpace Unicode.isDigit s := by
  rw [versioned, versioned, ← LowerTables.lower_afterFirstWord]
  cases afterFirstWord Str.isSpace s with
  | nil => rw [LowerTables.lower_eq_self [] fun c hc => absurd hc List.not_mem_nil]
  | cons c t =>
    obtain ⟨d, t', hlower, hdigit⟩ := LowerTables.lower_head c t
    rw [hlower, List.head?_cons, List.head?_cons, Option.any_some, Option.any_some, hdigit]

/-- What both make of the text before an at sign, without blanks around it. -/
def baseOf (isSpace isDigit : Char → Bool) (base : Str) : Str :=
  if versioned isSpace isDigit base then Unicode.lower (firstWord isSpace base)
  else Unicode.lower base

theorem componentBase_eq (component : Str) :
    Vat.componentBase component =
      baseOf Str.isSpace Unicode.isDigit (Str.strip (Str.split1 '@' component).1) := by
  rw [Vat.componentBase]
  generalize hbase : Str.strip (Str.split1 '@' component).1 = base
  have hstrip : Str.strip base = base := by rw [← hbase, Str.strip_strip]
  have hlower : normalize base = Unicode.lower base := by
    rw [normalize_eq, ← LowerTables.lower_strip, hstrip]
  have hword : normalize (Str.strip (firstWord Str.isSpace base)) =
      Unicode.lower (firstWord Str.isSpace base) := by
    rw [Str.strip_eq_self notMem_firstWord, normalize_eq, ← LowerTables.lower_strip,
      Str.strip_eq_self notMem_firstWord]
  have hrest : base.drop (firstWord Str.isSpace base).length =
      base.dropWhile fun c => !Str.isSpace c :=
    (congrArg (List.drop _) List.takeWhile_append_dropWhile.symm).trans List.drop_left
  have hrest' : (base.drop (base.takeWhile fun c => !Str.isSpace c).length).dropWhile Str.isSpace =
      afterFirstWord Str.isSpace base := congrArg (List.dropWhile Str.isSpace) hrest
  by_cases hempty : base = []
  · rw [if_pos hempty, hempty, baseOf]
    exact (LowerTables.lower_eq_self [] fun c hc => absurd hc List.not_mem_nil).symm
  · rw [if_neg hempty, baseOf]
    cases hcase : afterFirstWord Str.isSpace base with
    | nil =>
      have hplain : versioned Str.isSpace Unicode.isDigit base = false := by
        rw [versioned, hcase]
        rfl
      simp only [hrest', hcase, hplain, hlower, Bool.false_eq_true, if_false]
    | cons c t =>
      have hdigit : versioned Str.isSpace Unicode.isDigit base = Unicode.isDigit c := by
        rw [versioned, hcase]
        rfl
      rw [firstWord] at hword
      simp only [hrest', hcase, hdigit, hlower, hword, firstWord]

omit [LowerTables] in
/-- A text without blanks around it has none in front. -/
theorem dropWhile_isSpace_of_strip {s : Str} (h : Str.strip s = s) :
    s.dropWhile Str.isSpace = s := by
  have hpre : Str.strip s <+: s.dropWhile Str.isSpace := List.rdropWhile_prefix _ _
  have hle := hpre.length_le
  rw [h] at hle
  exact (List.dropWhile_suffix Str.isSpace).sublist.eq_of_length_le hle

/-- The second look for a version finds none. -/
theorem extractComponentBaseForGrouping_eq (component : Str) :
    Vat.extractComponentBaseForGrouping (some component) =
      baseOf Str.isSpace Unicode.isDigit (Str.strip (Str.split1 '@' component).1) := by
  rw [Vat.extractComponentBaseForGrouping, Str.orEmpty_some, componentBase_eq,
    strip_split1_strip (by decide)]
  generalize hbase : Str.strip (Str.split1 '@' component).1 = base
  have hstrip : Str.strip base = base := by rw [← hbase, Str.strip_strip]
  generalize hx : baseOf Str.isSpace Unicode.isDigit base = x
  have hfront : x.dropWhile Str.isSpace = x := by
    refine dropWhile_isSpace_of_strip ?_
    rw [← hx, baseOf]
    split_ifs
    · rw [← LowerTables.lower_strip, Str.strip_eq_self notMem_firstWord]
    · rw [← LowerTables.lower_strip, hstrip]
  have hplain : versioned Str.isSpace Unicode.isDigit x = false := by
    rw [← hx, baseOf]
    split_ifs with hversion
    · rw [versioned_lower, versioned, afterFirstWord_of_noBlank notMem_firstWord]
      rfl
    · rw [versioned_lower]
      exact Bool.eq_false_iff.mpr hversion
  simp only [hfront]
  rw [versioned, afterFirstWord] at hplain
  cases hrest : (x.dropWhile fun c => !Str.isSpace c).dropWhile Str.isSpace with
  | nil => rfl
  | cons c t =>
    rw [hrest] at hplain
    exact if_neg (Bool.eq_false_iff.mp hplain)

/-- Both read the same base in a component: they trim it in the same way, and find a version behind
the same first word or none. -/
structure SameComponent (component : Str) : Prop where
  ends : SameEnds (Str.split1 '@' component).1
  version : versioned Js.isSpace Char.isDigit
      (Unicode.lower (Str.strip (Str.split1 '@' component).1)) =
    versioned Str.isSpace Unicode.isDigit (Str.strip (Str.split1 '@' component).1)
  word : versioned Str.isSpace Unicode.isDigit (Str.strip (Str.split1 '@' component).1) →
    firstWord Js.isSpace (Unicode.lower (Str.strip (Str.split1 '@' component).1)) =
      Unicode.lower (firstWord Str.isSpace (Str.strip (Str.split1 '@' component).1))

theorem extractComponentBase_agree {component : Option Str}
    (h : SameComponent (Str.orEmpty component)) :
    extractComponentBaseForGrouping component = Vat.extractComponentBaseForGrouping component := by
  have hsome : Vat.extractComponentBaseForGrouping component =
      Vat.extractComponentBaseForGrouping (some (Str.orEmpty component)) := by
    cases component with
    | none => rfl
    | some s => rfl
  obtain ⟨hends, hversion, hword⟩ := h
  rw [hsome, extractComponentBaseForGrouping_eq, extractComponentBaseForGrouping, componentBase,
    hends, baseOf]
  generalize Str.strip (Str.split1 '@' (Str.orEmpty component)).1 = base at hversion hword ⊢
  rw [versioned] at hversion
  cases hcase : afterFirstWord Js.isSpace (Unicode.lower base) with
  | nil =>
    rw [hcase] at hversion
    exact (if_neg (Bool.eq_false_iff.mp hversion.symm)).symm
  | cons c t =>
    rw [hcase, List.head?_cons, Option.any_some] at hversion
    dsimp only
    rw [← hversion]
    split_ifs with hdigit
    · rw [Js.trim, Str.stripWhile_eq_self notMem_firstWord]
      exact hword (hversion ▸ hdigit)
    · rfl

theorem normalizeEcosystem_agree {eco : Option Str} (h : SameEnds (Str.orEmpty eco)) :
    normalizeEcosystemForGrouping eco = normalizeEcosystemToken eco := by
  rw [normalizeEcosystemForGrouping, normalizeEcosystemToken, h.lower]

/-- Both find Oracle Linux in a benchmark family or not, unless another name stands for packages of
its kind. -/
def SameFamily (benchmarkFamily : Option Str) : Prop :=
  Str.containsAny (Unicode.lower (Str.orEmpty benchmarkFamily))
      ["rhel", "red_hat", "centos", "rocky", "alma", "fedora"] = false →
    hasOlWord (Unicode.lower (Str.orEmpty benchmarkFamily)) =
      Str.contains (Unicode.lower (Str.orEmpty benchmarkFamily)) (str "ol_")

omit [LowerTables] in
/-- Of the two names of Oracle Linux, one is in the other. -/
theorem containsAny_ol (s : Str) :
    Str.containsAny s ["ol_", "_ol_"] = Str.contains s (str "ol_") := by
  have himp : Str.contains s (str "_ol_") = true → Str.contains s (str "ol_") = true := by
    simp only [Str.contains, decide_eq_true_eq]
    intro h
    exact List.IsInfix.trans ⟨['_'], [], rfl⟩ h
  simp only [Str.containsAny, List.any_cons, List.any_nil, Bool.or_false]
  cases hlong : Str.contains s (str "_ol_") with
  | false => rw [Bool.or_false]
  | true => rw [himp hlong, Bool.true_or]

theorem inferFromBenchmarkFamily_agree {benchmarkFamily : Option Str}
    (h : SameFamily benchmarkFamily) :
    inferScaEcosystemFromBenchmarkFamily benchmarkFamily =
      Vat.inferScaEcosystemFromBenchmarkFamily benchmarkFamily := by
  have hnames : Str.containsAny (Unicode.lower (Str.orEmpty benchmarkFamily))
        ["rhel", "red_hat", "centos", "rocky", "alma", "fedora", "ol_", "_ol_"] =
      (Str.containsAny (Unicode.lower (Str.orEmpty benchmarkFamily))
        ["rhel", "red_hat", "centos", "rocky", "alma", "fedora"] ||
      hasOlWord (Unicode.lower (Str.orEmpty benchmarkFamily))) := by
    have hsplit : ["rhel", "red_hat", "centos", "rocky", "alma", "fedora", "ol_", "_ol_"] =
      ["rhel", "red_hat", "centos", "rocky", "alma", "fedora"] ++ ["ol_", "_ol_"] := rfl
    rw [hsplit, Str.containsAny, List.any_append, ← Str.containsAny, ← Str.containsAny,
      containsAny_ol]
    rw [SameFamily] at h
    cases hsix : Str.containsAny (Unicode.lower (Str.orEmpty benchmarkFamily))
        ["rhel", "red_hat", "centos", "rocky", "alma", "fedora"] with
    | true => rfl
    | false => rw [h hsix]
  simp only [inferScaEcosystemFromBenchmarkFamily, Vat.inferScaEcosystemFromBenchmarkFamily, hnames]
  by_cases hempty : Str.orEmpty benchmarkFamily = []
  · simp [Str.truthy, hempty, LowerTables.lower_eq_self []]
  · simp [Str.truthy, hempty, CaseTables.lower_ne_nil _ hempty]

omit [LowerTables] in
/-- A text that is trimmed to nothing has only blanks. -/
theorem of_stripWhile_eq_nil {p : Char → Bool} {s : Str} (h : Str.stripWhile p s = []) :
    ∀ c ∈ s, p c = true := by
  have hall := List.rdropWhile_eq_nil_iff.mp h
  have hdrop : s.dropWhile p = [] := by
    by_contra hne
    have hhead := List.head_dropWhile_not p hne
    rw [hall _ (List.head_mem hne)] at hhead
    cases hhead
  exact List.dropWhile_eq_nil_iff.mp hdrop

omit [LowerTables] in
/-- In a text of blanks there are no other signs. -/
theorem containsAny_eq_false {s : Str}
    (h : ∀ c ∈ s, (Js.isSpace c || Str.isSpace c) = true) {needles : List String}
    (hneedles : needles.all
      (fun n => (str n).any fun c => !(Js.isSpace c || Str.isSpace c)) = true) :
    Str.containsAny s needles = false := by
  rw [Str.containsAny, List.any_eq_false]
  intro n hn hcontains
  obtain ⟨c, hc, hsign⟩ := List.any_eq_true.mp (List.all_eq_true.mp hneedles n hn)
  have hneedle : str n <:+: s := of_decide_eq_true hcontains
  rw [h c (hneedle.subset hc)] at hsign
  cases hsign

theorem inferFromContainerRef_agree (image tag : Option Str) :
    inferScaEcosystemFromContainerRef image tag =
      Vat.inferScaEcosystemFromContainerRef (Str.orEmpty image) (Str.orEmpty tag) := by
  simp only [inferScaEcosystemFromContainerRef, Vat.inferScaEcosystemFromContainerRef]
  generalize Unicode.lower (Str.orEmpty image ++ str " " ++ Str.orEmpty tag) = blob
  by_cases hblank : Js.trim blob = [] ∨ Str.strip blob = []
  · have hall : ∀ c ∈ blob, (Js.isSpace c || Str.isSpace c) = true := by
      intro c hc
      obtain h | h := hblank
      · rw [of_stripWhile_eq_nil h c hc, Bool.true_or]
      · rw [of_stripWhile_eq_nil h c hc, Bool.or_true]
    rw [containsAny_eq_false hall, containsAny_eq_false hall]
    · simp only [Bool.false_eq_true, if_false, ite_self]
    · decide
    · decide
  · rw [not_or] at hblank
    rw [if_neg hblank.1, if_neg hblank.2]

/-- The package of a finding before it is normalized. -/
def rawPackage (f : Finding) : Str :=
  if Str.truthy f.componentBase then Str.orEmpty f.componentBase
  else Vat.extractComponentBaseForGrouping f.component

/-- Both read the same package and the same ecosystem in a finding: an empty component base stands
for no package in both, the package is trimmed in the same way and has no name that the table of
aliases inherits, and the ecosystem is trimmed in the same way, and if there is none, both find the
same distribution in the benchmark. -/
structure SamePackage (f : Finding) : Prop where
  kept : f.componentBase = some [] → Vat.extractComponentBaseForGrouping f.component = []
  component : f.componentBase = none → SameComponent (Str.orEmpty f.component)
  ends : SameEnds (rawPackage f)
  named : Unicode.lower (Str.strip (rawPackage f)) ∉ inheritedNames
  ecosystem : Str.strip (rawPackage f) ≠ [] → SameEnds (Str.orEmpty f.ecosystem)
  family : Str.strip (rawPackage f) ≠ [] → normalizeEcosystemToken f.ecosystem = [] →
    SameFamily f.benchmarkFamily

theorem effectiveScaEcosystem_agree {f : Finding} (heco : SameEnds (Str.orEmpty f.ecosystem))
    (hfamily : normalizeEcosystemToken f.ecosystem = [] → SameFamily f.benchmarkFamily) :
    effectiveScaEcosystem f.ecosystem f.benchmarkFamily f.image f.tag =
      Vat.effectiveScaEcosystem f.ecosystem f.benchmarkFamily (Str.orEmpty f.image)
        (Str.orEmpty f.tag) := by
  simp only [effectiveScaEcosystem, Vat.effectiveScaEcosystem, normalizeEcosystem_agree heco]
  by_cases htoken : normalizeEcosystemToken f.ecosystem = []
  · simp [htoken, inferFromBenchmarkFamily_agree (hfamily htoken), inferFromContainerRef_agree]
  · simp [htoken]

theorem sameEnds_effective {f : Finding} (heco : SameEnds (Str.orEmpty f.ecosystem)) :
    SameEnds (Vat.effectiveScaEcosystem f.ecosystem f.benchmarkFamily (Str.orEmpty f.image)
      (Str.orEmpty f.tag)) := by
  have htoken : SameEnds (normalizeEcosystemToken f.ecosystem) := by
    rw [normalizeEcosystemToken]
    split_ifs
    · rfl
    · exact heco.lower.strip
  have hfamily : SameEnds (Vat.inferScaEcosystemFromBenchmarkFamily f.benchmarkFamily) := by
    simp only [Vat.inferScaEcosystemFromBenchmarkFamily]
    split_ifs <;> rfl
  have himage : SameEnds
      (Vat.inferScaEcosystemFromContainerRef (Str.orEmpty f.image) (Str.orEmpty f.tag)) := by
    simp only [Vat.inferScaEcosystemFromContainerRef]
    split_ifs <;> rfl
  simp only [Vat.effectiveScaEcosystem]
  split_ifs
  · exact htoken
  · exact hfamily
  · exact himage

omit [LowerTables] in
theorem mem_collapseRuns {p : Char → Bool} {s : Str} {c : Char} (h : c ∈ collapseRuns p s) :
    c ∈ s ∨ c = '-' := by
  fun_induction collapseRuns p s with
  | case1 => cases h
  | case2 d hd => exact Or.inr (List.mem_singleton.mp h)
  | case3 d hd => exact Or.inl h
  | case4 d e s hd he ih => exact (ih h).imp_left (List.mem_cons_of_mem _)
  | case5 d e s hd he ih =>
    rcases List.mem_cons.mp h with h | h
    · exact Or.inr h
    · exact (ih h).imp_left (List.mem_cons_of_mem _)
  | case6 d e s hd ih =>
    rcases List.mem_cons.mp h with h | h
    · exact Or.inl (h ▸ List.mem_cons_self)
    · exact (ih h).imp_left (List.mem_cons_of_mem _)

theorem normalizePackageName_agree {eco name : Str} (heco : SameEnds eco) (hname : SameEnds name)
    (hlower : ∀ c ∈ name, Unicode.lower [c] = [c]) :
    normalizePackageName eco name = Vat.normalizePackageName eco name := by
  have hstrip : ∀ c ∈ Str.strip name, Unicode.lower [c] = [c] := fun c hc =>
    hlower c (Str.strip_subset name hc)
  have hcollapse : ∀ p : Char → Bool, Unicode.lower (collapseRuns p (Str.strip name)) =
      collapseRuns p (Unicode.lower (Str.strip name)) := by
    intro p
    rw [LowerTables.lower_eq_self _ hstrip]
    refine LowerTables.lower_eq_self _ fun c hc => ?_
    rcases mem_collapseRuns hc with hc | rfl
    · exact hstrip c hc
    · exact Unicode.lower_eq_self (by decide)
  have htrim : Js.trim name = Str.strip name := hname
  have htrimEco : Js.trim (Unicode.lower eco) = Str.strip (Unicode.lower eco) := heco.lower
  have hapart : ∀ e ∈ [str "npm", str "yarn", str "pnpm"],
      e ∉ [str "pypi", str "pip", str "pipenv", str "poetry"] := by decide
  simp only [normalizePackageName, Vat.normalizePackageName, htrim, htrimEco, hcollapse]
  split_ifs with hempty hnpm hpypi
  · rfl
  · exact absurd hpypi (hapart _ hnpm)
  · rfl
  · rfl
  · rfl

theorem crossScanner_agree {name : Str} (hends : SameEnds name)
    (hnamed : Unicode.lower (Str.strip name) ∉ inheritedNames) :
    normalizeScaPackageForCrossScanner name =
      some (Vat.normalizeScaPackageForCrossScanner name) := by
  have htrim : Js.trim name = Str.strip name := hends
  simp only [normalizeScaPackageForCrossScanner, Vat.normalizeScaPackageForCrossScanner, htrim,
    hnamed, if_false]
  split_ifs <;> rfl

/-- The names of packages across scanners are in lower case. -/
theorem crossScanner_lower {name : Str} :
    ∀ c ∈ Vat.normalizeScaPackageForCrossScanner name, Unicode.lower [c] = [c] := by
  have hopenssl : ∀ c ∈ str "openssl", Unicode.lower [c] = [c] := by
    have hself : Unicode.lower (str "openssl") = str "openssl" := Unicode.lower_eq_self (by decide)
    rw [← hself]
    exact LowerTables.lower_of_mem_lower _
  simp only [Vat.normalizeScaPackageForCrossScanner]
  split_ifs
  · exact fun c hc => absurd hc List.not_mem_nil
  · exact hopenssl
  · exact hopenssl
  · exact LowerTables.lower_of_mem_lower _

theorem crossScanner_sameEnds {name : Str} (hends : SameEnds name) :
    SameEnds (Vat.normalizeScaPackageForCrossScanner name) := by
  simp only [Vat.normalizeScaPackageForCrossScanner]
  split_ifs
  · rfl
  · rfl
  · rfl
  · exact hends.strip.lower

theorem crossScanner_eq_nil_iff {name : Str} :
    Vat.normalizeScaPackageForCrossScanner name = [] ↔ Str.strip name = [] := by
  have hlower : Unicode.lower (Str.strip name) = [] ↔ Str.strip name = [] :=
    ⟨fun h => by_contra fun hne => CaseTables.lower_ne_nil _ hne h,
      fun h => h ▸ LowerTables.lower_eq_self [] fun c hc => absurd hc List.not_mem_nil⟩
  rw [← hlower]
  simp only [Vat.normalizeScaPackageForCrossScanner]
  split_ifs with hempty halias hlibssl
  · exact iff_of_true rfl hempty
  · exact iff_of_false (by decide) hempty
  · exact iff_of_false (by decide) hempty
  · exact Iff.rfl

theorem rawPackage_eq {f : Finding} (h : SamePackage f) :
    f.componentBase.getD (extractComponentBaseForGrouping f.component) = rawPackage f := by
  rw [rawPackage]
  cases hbase : f.componentBase with
  | none =>
    rw [Option.getD_none, extractComponentBase_agree (h.component hbase)]
    rfl
  | some s =>
    cases s with
    | nil => exact (h.kept hbase).symm
    | cons c s => rfl

/-- The package that the backend reads. -/
theorem groupPackage_snd (f : Finding) :
    (Vat.groupPackage f).2 =
      if Vat.normalizeScaPackageForCrossScanner (rawPackage f) = [] then []
      else Vat.normalizePackageName (Vat.groupPackage f).1
        (Vat.normalizeScaPackageForCrossScanner (rawPackage f)) := by
  have hcross : (if rawPackage f = [] then [] else
      Vat.normalizeScaPackageForCrossScanner (rawPackage f)) =
      Vat.normalizeScaPackageForCrossScanner (rawPackage f) := by
    split_ifs with hraw
    · rw [hraw, crossScanner_eq_nil_iff.mpr rfl]
    · rfl
  exact congrArg (fun cross => if cross = [] then [] else
    Vat.normalizePackageName (Vat.groupPackage f).1 cross) hcross

/-- The package that the frontend reads where both read the same name. -/
theorem groupPackage_snd_frontend {f : Finding} (h : SamePackage f) :
    (groupPackage f).2 =
      if Vat.normalizeScaPackageForCrossScanner (rawPackage f) = [] then []
      else normalizePackageName (groupPackage f).1
        (Vat.normalizeScaPackageForCrossScanner (rawPackage f)) := by
  have hcross : (if f.componentBase.getD (extractComponentBaseForGrouping f.component) = [] then
        some [] else normalizeScaPackageForCrossScanner
          (f.componentBase.getD (extractComponentBaseForGrouping f.component))) =
      some (Vat.normalizeScaPackageForCrossScanner (rawPackage f)) := by
    rw [rawPackage_eq h]
    split_ifs with hraw
    · rw [hraw, crossScanner_eq_nil_iff.mpr rfl]
    · exact crossScanner_agree h.ends h.named
  simp only [groupPackage, hcross]

theorem groupPackage_agree {f : Finding} (h : SamePackage f) :
    (groupPackage f).2 = (Vat.groupPackage f).2 ∧
      ((Vat.groupPackage f).2 ≠ [] → (groupPackage f).1 = (Vat.groupPackage f).1) := by
  rw [groupPackage_snd, groupPackage_snd_frontend h]
  by_cases hcross : Vat.normalizeScaPackageForCrossScanner (rawPackage f) = []
  · rw [if_pos hcross, if_pos hcross]
    exact ⟨rfl, fun hne => absurd rfl hne⟩
  · have hraw : Str.strip (rawPackage f) ≠ [] := mt crossScanner_eq_nil_iff.mpr hcross
    have heco := h.ecosystem hraw
    have heff : SameEnds (Vat.groupPackage f).1 := by
      change SameEnds (normalizeEcosystemToken _)
      rw [normalizeEcosystemToken]
      split_ifs
      · rfl
      · exact (sameEnds_effective heco).lower.strip
    have hfst : (groupPackage f).1 = (Vat.groupPackage f).1 := by
      change normalizeEcosystemForGrouping (some _) = normalizeEcosystemToken (some _)
      rw [effectiveScaEcosystem_agree heco (h.family hraw)]
      exact normalizeEcosystem_agree (sameEnds_effective heco)
    rw [if_neg hcross, if_neg hcross, hfst, normalizePackageName_agree heff
      (crossScanner_sameEnds h.ends) crossScanner_lower]
    exact ⟨rfl, fun _ => rfl⟩

omit [LowerTables] in
theorem collapseRuns_ne_nil {p : Char → Bool} {s : Str} (h : s ≠ []) : collapseRuns p s ≠ [] := by
  fun_induction collapseRuns p s with
  | case1 => exact h
  | case2 | case3 | case5 | case6 => exact List.cons_ne_nil _ _
  | case4 d e s hd he ih => exact ih (List.cons_ne_nil _ _)

/-- Where a finding has no package in the backend, its name is blank. -/
theorem strip_rawPackage_eq_nil {f : Finding} (h : (Vat.groupPackage f).2 = []) :
    Str.strip (rawPackage f) = [] := by
  by_contra hraw
  have hcross := mt crossScanner_eq_nil_iff.mp hraw
  have hname : Str.strip (Vat.normalizeScaPackageForCrossScanner (rawPackage f)) ≠ [] := by
    simp only [Vat.normalizeScaPackageForCrossScanner]
    split_ifs with hempty halias hlibssl
    · exact absurd hempty (CaseTables.lower_ne_nil _ hraw)
    · decide
    · decide
    · rw [← LowerTables.lower_strip, Str.strip_strip]
      exact hempty
  rw [groupPackage_snd, if_neg hcross] at h
  simp only [Vat.normalizePackageName, if_neg hname] at h
  split_ifs at h
  · exact CaseTables.lower_ne_nil _ (collapseRuns_ne_nil hname) h
  · exact CaseTables.lower_ne_nil _ hname h

/-! ### Titles and secrets -/

section Titles

variable [CharTables]

/-- The patterns of the two sides. -/
def suffixPairs : List (Pattern × Pattern) :=
  [(Vat.othersSuffix, othersSuffix), (Vat.pathSuffix, pathSuffix),
    (Vat.plainFileSuffix, plainFileSuffix), (Vat.lineSuffix, lineSuffix)]

omit [LowerTables] [CharTables] in
/-- Both cut the same suffixes off a text, one after another, and trim what is left alike. -/
def SameSuffixes : List (Pattern × Pattern) → Str → Prop
  | [], t => SameEnds t
  | (p, q) :: pairs, t =>
    Js.replaceAtEnd q t = Pattern.subAtEnd p t ∧ SameSuffixes pairs (Pattern.subAtEnd p t)

omit [LowerTables] [CharTables] in
theorem SameSuffixes.eq {pairs : List (Pattern × Pattern)} {t : Str} (h : SameSuffixes pairs t) :
    Js.trim ((pairs.map Prod.snd).foldl (fun t p => Js.replaceAtEnd p t) t) =
      Str.strip ((pairs.map Prod.fst).foldl (fun t p => Pattern.subAtEnd p t) t) := by
  induction pairs generalizing t with
  | nil => exact h
  | cons pair pairs ih =>
    rw [List.map_cons, List.map_cons, List.foldl_cons, List.foldl_cons, h.1]
    exact ih h.2

omit [LowerTables] [CharTables] in
/-- The title of a finding, or its id of a weakness. -/
def titleOf (f : Finding) : Str := if Str.truthy f.title then Str.orEmpty f.title else f.cveId

/-- Both read the same title: an empty title stands for the id of a weakness only if that is blank,
and the title is trimmed and cut off in the same way. -/
structure SameTitle (f : Finding) (stripLocations : Bool) : Prop where
  kept : f.title = some [] → Str.strip f.cveId = []
  ends : SameEnds (titleOf f)
  suffixes : stripLocations = true → SameSuffixes suffixPairs (Str.strip (titleOf f))

theorem groupTitle_agree {f : Finding} {stripLocations : Bool} (h : SameTitle f stripLocations) :
    groupTitle f stripLocations = Vat.groupTitle f stripLocations := by
  have htitle : Js.trim (Js.trim (f.title.getD f.cveId)) = Str.strip (titleOf f) := by
    have hends : Js.trim (titleOf f) = Str.strip (titleOf f) := h.ends
    have htwice : Js.trim (Js.trim (f.title.getD f.cveId)) = Js.trim (f.title.getD f.cveId) :=
      Str.stripWhile_stripWhile _ _
    rw [htwice]
    cases hcase : f.title with
    | none =>
      rw [titleOf, hcase] at hends
      rw [titleOf, hcase]
      exact hends
    | some s =>
      cases s with
      | nil =>
        rw [titleOf, hcase]
        exact (h.kept hcase).symm
      | cons c s =>
        rw [titleOf, hcase] at hends
        rw [titleOf, hcase]
        exact hends
  simp only [groupTitle, Vat.groupTitle, normalizeRuleTitleForGrouping, Vat.normalizeRuleTitle,
    htitle]
  cases hlocations : stripLocations with
  | false => rfl
  | true => exact congrArg Unicode.lower (h.suffixes hlocations).eq

omit [LowerTables] [CharTables] in
/-- Both find a key short enough to be spelled without its separators, and the same separators in
it. -/
structure SameSeparators (rawKey : Str) : Prop where
  short : Str.contains rawKey (str " in ") = false → (Js.length rawKey < 80 ↔ rawKey.length < 80)
  blanks : Str.contains rawKey (str " in ") = false → rawKey.length < 80 →
    ∀ c ∈ rawKey, Js.isSpace c = Str.isSpace c

omit [LowerTables] [CharTables] in
theorem collapseRuns_congr {p q : Char → Bool} {s : Str} (h : ∀ c ∈ s, p c = q c) :
    collapseRuns p s = collapseRuns q s := by
  fun_induction collapseRuns p s with
  | case1 => rfl
  | case2 c hc => simp [collapseRuns, ← h c (by simp), hc]
  | case3 c hc => simp [collapseRuns, ← h c (by simp), hc]
  | case4 c d s hc hd ih =>
    simp [collapseRuns, ← h c (by simp), ← h d (by simp), hc, hd,
      ih fun e he => h e (List.mem_cons_of_mem _ he)]
  | case5 c d s hc hd ih =>
    simp [collapseRuns, ← h c (by simp), ← h d (by simp), hc, hd,
      ih fun e he => h e (List.mem_cons_of_mem _ he)]
  | case6 c d s hc ih =>
    simp [collapseRuns, ← h c (by simp), hc, ih fun e he => h e (List.mem_cons_of_mem _ he)]

omit [LowerTables] [CharTables] in
/-- Of two neighbours among collapsed runs, not both are hyphens. -/
theorem isChain_collapseRuns {p : Char → Bool} (hp : p '-' = true) (s : Str) :
    (collapseRuns p s).IsChain fun c d => c ≠ '-' ∨ d ≠ '-' := by
  have hsign : ∀ {c : Char}, ¬ p c = true → c ≠ '-' := by
    rintro c hc rfl
    exact hc hp
  fun_induction collapseRuns p s with
  | case1 => exact .nil
  | case2 | case3 => exact .singleton _
  | case4 c d s hc hd ih => exact ih
  | case5 c d s hc hd ih =>
    refine List.isChain_cons.mpr ⟨fun e he => Or.inr ?_, ih⟩
    have hhead : (collapseRuns p (d :: s)).head? = some d := by
      cases s with
      | nil => simp [collapseRuns, hd]
      | cons e s => simp [collapseRuns, hd]
    rw [hhead] at he
    exact Option.mem_some_iff.mp he ▸ hsign hd
  | case6 c d s hc ih => exact List.isChain_cons.mpr ⟨fun e he => Or.inl (hsign hc), ih⟩

omit [LowerTables] [CharTables] in
theorem tail_of_isChain {s : Str} (h : s.IsChain fun c d => c ≠ '-' ∨ d ≠ '-') :
    (if s.head? = some '-' then s.tail else s) = s.dropWhile (· == '-') := by
  cases s with
  | nil => rfl
  | cons c s =>
    simp only [List.head?_cons, Option.some_inj, List.tail_cons]
    split_ifs with hc
    · rw [hc, List.dropWhile_cons_of_pos rfl]
      cases s with
      | nil => rfl
      | cons d s =>
        have hd := (List.isChain_cons.mp h).1 d rfl
        rw [List.dropWhile_cons_of_neg]
        simpa [hc] using hd
    · rw [List.dropWhile_cons_of_neg (by simpa using hc)]

omit [LowerTables] [CharTables] in
/-- Where no two hyphens are neighbours, cutting one off at either end cuts off all. -/
theorem trimHyphen_eq {s : Str} (h : s.IsChain fun c d => c ≠ '-' ∨ d ≠ '-') :
    Js.trimHyphen s = Str.stripWhile (· == '-') s := by
  have hreverse : (s.dropWhile (· == '-')).reverse.IsChain fun c d => c ≠ '-' ∨ d ≠ '-' := by
    refine List.isChain_reverse.mpr ((h.suffix (List.dropWhile_suffix _)).imp fun _ _ => Or.symm)
  have hlast := congrArg List.reverse (tail_of_isChain hreverse)
  simp only [Js.trimHyphen, tail_of_isChain h]
  rw [Str.stripWhile, List.rdropWhile, ← hlast, List.head?_reverse]
  split_ifs
  · rw [List.tail_reverse, List.reverse_reverse]
  · rw [List.reverse_reverse]

omit [LowerTables] [CharTables] in
theorem secretKey_agree {rawKey : Str} (h : SameSeparators rawKey) :
    secretKey rawKey = Vat.secretKey rawKey := by
  rw [secretKey, Vat.secretKey]
  cases hin : Str.contains rawKey (str " in ") with
  | true => rfl
  | false =>
    have hshort := h.short hin
    by_cases hlength : rawKey.length < 80
    · have hclass : ∀ c ∈ rawKey, (c == '-' || c == '_' || Js.isSpace c) =
          (c == '-' || c == '_' || Str.isSpace c) := by
        intro c hc
        rw [h.blanks hin hlength c hc]
      have hkey : Js.trimHyphen
            (collapseRuns (fun c => c == '-' || c == '_' || Js.isSpace c) rawKey) =
          Str.stripWhile (· == '-')
            (collapseRuns (fun c => c == '-' || c == '_' || Str.isSpace c) rawKey) := by
        rw [collapseRuns_congr hclass, trimHyphen_eq (isChain_collapseRuns rfl _)]
      simp only [hshort.mpr hlength, hlength, hkey]
    · simp only [mt hshort.mp hlength, hlength]
      rfl

end Titles

/-! ### Assets -/

/-- Both read the same image, branch and tag. -/
structure SameAsset (cfg : Settings) (f : Finding) : Prop where
  image : SameEnds (Str.orEmpty f.image)
  reference : Str.strip (Str.orEmpty f.image) ≠ [] → SameTrims (Str.strip (Str.orEmpty f.image))
  aliases : Str.strip (Str.orEmpty f.image) ≠ [] →
    SameAliasTrims cfg.containerAssetPathAliases
      (Vat.normalizeContainerRef (some (Str.strip (Str.orEmpty f.image)))).canonicalAssetKey
  key : Str.strip (Str.orEmpty f.image) ≠ [] →
    SameEnds (containerImageGroupKey cfg (Str.strip (Str.orEmpty f.image)))
  branch : SameEnds (Str.orEmpty f.branch)
  tag : SameEnds (Str.orEmpty f.tag)

theorem assetKey_agree {cfg : Settings} {f : Finding} (h : SameAsset cfg f) :
    assetKey (parseContainerAssetPathAliases cfg.containerAssetPathAliases) f =
      findingAssetKey cfg f := by
  have himage : Js.trim (Str.orEmpty f.image) = Str.strip (Str.orEmpty f.image) := h.image
  simp only [assetKey, findingAssetKey, lowerTrim_eq h.branch, lowerTrim_eq h.tag, himage]
  by_cases hempty : Str.strip (Str.orEmpty f.image) = []
  · rw [if_pos hempty, if_pos hempty]
  · rw [if_neg hempty, if_neg hempty, groupKey_eq (h.reference hempty) (h.aliases hempty),
      (h.key hempty).lower, LowerTables.lower_strip]

/-! ### Keys -/

section Keys

variable [CharTables]

omit [CharTables] in
theorem normalize_eq_nil_iff (s : Str) : normalize s = [] ↔ Str.strip s = [] := by
  rw [normalize_eq, ← LowerTables.lower_strip]
  exact ⟨fun h => by_contra fun hne => CaseTables.lower_ne_nil _ hne h,
    fun h => h ▸ LowerTables.lower_eq_self [] fun c hc => absurd hc List.not_mem_nil⟩

/-- The key of a secret before its separators are read. -/
def rawSecretKey (f : Finding) : Str :=
  firstText [normalize (Str.orEmpty f.secretType), normalize (Str.orEmpty f.ruleId),
    Vat.groupTitle f false, f.id]

/-- Both read the same text, and if it is blank, what the key falls back on. -/
def SameOr (s : Option Str) (fallback : Prop) : Prop :=
  SameEnds (Str.orEmpty s) ∧ (Str.strip (Str.orEmpty s) = [] → fallback)

omit [CharTables] in
/-- A key that falls back is the same when what it falls back on is. -/
theorem firstText_agree {s : Option Str} {fallback : Prop} {xs ys : List Str}
    (h : SameOr s fallback) (hfallback : fallback → firstText xs = firstText ys) :
    firstText (lowerTrim s :: xs) = firstText (normalize (Str.orEmpty s) :: ys) := by
  rw [firstText, firstText, lowerTrim_eq h.1]
  split_ifs with hempty
  · exact hfallback (h.2 ((normalize_eq_nil_iff _).mp hempty))
  · rfl

/-- Both read the same texts for what is wrong, by the type of the finding. -/
def SameIssue (f : Finding) : Prop :=
  match f.findingType with
  | .sca => SamePackage f ∧ (Str.strip (rawPackage f) = [] → SameEnds f.cveId)
  | .sast => SameOr f.ruleId (SameOr f.cweId (SameTitle f true))
  | .iac => SameOr f.ruleId (SameTitle f true)
  | .secret =>
    SameOr f.secretType (SameOr f.ruleId (SameTitle f false)) ∧ SameSeparators (rawSecretKey f)
  | .license => SamePackage f

theorem groupIssue_agree {f : Finding} (h : SameIssue f) : groupIssue f = Vat.groupIssue f := by
  rw [SameIssue] at h
  have htitle : ∀ stripLocations, SameTitle f stripLocations →
      firstText [groupTitle f stripLocations, f.id] =
        firstText [Vat.groupTitle f stripLocations, f.id] := fun _ ht => by
    rw [groupTitle_agree ht]
  rw [groupIssue, Vat.groupIssue]
  cases htype : f.findingType with
  | sca =>
    rw [htype] at h
    obtain ⟨hname, heco⟩ := groupPackage_agree h.1
    by_cases hpkg : (Vat.groupPackage f).2 = []
    · have hcve := lowerTrim_eq (s := some f.cveId) (h.2 (strip_rawPackage_eq_nil hpkg))
      simp only [hname, hpkg, if_true, hcve, Str.orEmpty_some]
    · simp only [hname, heco hpkg, if_neg hpkg]
  | sast =>
    rw [htype] at h
    exact congrArg (str "sast:" ++ ·)
      (firstText_agree h fun hcwe => firstText_agree hcwe (htitle true))
  | iac =>
    rw [htype] at h
    exact congrArg (str "iac:" ++ ·) (firstText_agree h (htitle true))
  | secret =>
    rw [htype] at h
    have hraw : firstText [lowerTrim f.secretType, lowerTrim f.ruleId, groupTitle f false, f.id] =
        rawSecretKey f :=
      firstText_agree h.1 fun hrule => firstText_agree hrule (htitle false)
    dsimp only
    rw [hraw, secretKey_agree h.2]
    rfl
  | license =>
    rw [htype] at h
    obtain ⟨hname, heco⟩ := groupPackage_agree h
    by_cases hpkg : (Vat.groupPackage f).2 = []
    · simp only [hname, hpkg, if_true]
    · simp only [hname, heco hpkg]

/-- Both read the same texts in a finding. -/
structure ReadsAlike (cfg : Settings) (f : Finding) : Prop where
  issue : SameIssue f
  asset : SameAsset cfg f

theorem getFindingGroupKey_agree {cfg : Settings} {f : Finding} (h : ReadsAlike cfg f) :
    getFindingGroupKey (parseContainerAssetPathAliases cfg.containerAssetPathAliases) f =
      Vat.getFindingGroupKey cfg f := by
  rw [getFindingGroupKey, Vat.getFindingGroupKey, groupIssue_agree h.issue, assetKey_agree h.asset]

end Keys

end Frontend

section Closed

attribute [local instance] asciiLowerTables asciiCharTables

/-- A package of a benchmark, with an ecosystem or without. -/
def benchmarkPackage (benchmarkFamily ecosystem : Option Str) : Finding :=
  { Finding.blank (str "f") (str "fp") (str "CVE-2026-0001") with
    componentBase := some (str "zlib")
    image := some (str "ghcr.io/acme/svc:1.0.0")
    benchmarkFamily
    ecosystem }

theorem Frontend.sameAsset_benchmarkPackage (benchmarkFamily ecosystem : Option Str) :
    Frontend.SameAsset ⟨false, []⟩ (benchmarkPackage benchmarkFamily ecosystem) := by
  have hends : Frontend.SameEnds (str "ghcr.io/acme/svc:1.0.0") := by decide
  have hstrip : Str.strip (str "ghcr.io/acme/svc:1.0.0") = str "ghcr.io/acme/svc:1.0.0" := rfl
  have htrims : Frontend.SameTrims (str "ghcr.io/acme/svc:1.0.0") := by
    refine ⟨rfl, fun left rest h => ?_, fun left right h => ?_⟩
    · cases h
    · cases h
      exact ⟨Iff.rfl, fun _ => rfl⟩
  have haliases : Frontend.SameAliasTrims []
      (normalizeContainerRef (some (str "ghcr.io/acme/svc:1.0.0"))).canonicalAssetKey := by
    refine ⟨fun segment hsegment => ?_, fun segment hsegment left right h => ?_, by decide +kernel⟩
    · cases List.mem_singleton.mp hsegment
      rfl
    · cases List.mem_singleton.mp hsegment
      cases h
  have hkey : Frontend.SameEnds
      (containerImageGroupKey ⟨false, []⟩ (str "ghcr.io/acme/svc:1.0.0")) := by decide +kernel
  have hnone : Frontend.SameEnds [] := by decide
  refine ⟨hends, fun _ => ?_, fun _ => ?_, fun _ => ?_, hnone, hnone⟩
  · exact hstrip.symm ▸ htrims
  · exact hstrip.symm ▸ haliases
  · exact hstrip.symm ▸ hkey

/-- A package is read alike when its benchmark is. -/
theorem Frontend.readsAlike_benchmarkPackage {benchmarkFamily ecosystem : Option Str}
    (heco : Frontend.SameEnds (Str.orEmpty ecosystem))
    (hfamily : Frontend.SameFamily benchmarkFamily) :
    Frontend.ReadsAlike ⟨false, []⟩ (benchmarkPackage benchmarkFamily ecosystem) := by
  have hends : Frontend.SameEnds (str "zlib") := by decide
  have hnamed : Unicode.lower (Str.strip (str "zlib")) ∉ Frontend.inheritedNames := by decide
  have hpackage : Frontend.SamePackage (benchmarkPackage benchmarkFamily ecosystem) := by
    refine ⟨fun h => ?_, fun h => ?_, hends, hnamed, fun _ => heco, fun _ _ => hfamily⟩
    · cases h
    · cases h
  have hcve : Frontend.SameEnds (str "CVE-2026-0001") := by decide
  exact ⟨⟨hpackage, fun _ => hcve⟩, Frontend.sameAsset_benchmarkPackage _ _⟩

end Closed

end Vat
