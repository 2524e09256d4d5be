import Vat.Feeds.Matching

/-!
# Ubuntu advisories and their priority

The parser of the Ubuntu feed writes the priority of an advisory into the version of its record,
which the matcher compares with the version of the installed package. So an advisory with a priority
is rejected for a package with another version, and the same advisory without one is not.

A priority that is no text is left out: the column of the version does not hold it, and the refresh
that brings it fails.

Source: `backend/app/services/vuln_feeds.py`, lines 886–913.

## Main definitions

* `streamUbuntuRecords`, `ubuntuRecord`.
* `Loaded.withPriority`: an advisory with another priority.
* `ubuntuDecision`: whether an advisory is materialized for a package, and whether it is rejected.

## Main results

* `ubuntuMatch_withPriority`: how a priority counts.
* `ubuntuDecision_forall_priority_iff`, `ubuntuDecision_forall_package_iff`,
  `ubuntuDecision_priority_iff`: when the decisions do not depend on the priority.
-/

namespace Vat

/-! ### The parser -/

section Parser

variable [FeedScalars]

/-- The record of an item of the feed. -/
def ubuntuRecord (row : Loaded) : Option FeedRecord :=
  if row.isDict then
    match ((row.member "id").or (row.member "cve")).or (row.member "name") with
    | .text cve =>
      if Str.strip cve = [] then none
      else
        some
          { recordKey := some (feedRecordKey [cve])
            vulnerabilityId := .text (cve.take 128)
            aliases := .list [.text cve]
            packageName := row.member "package"
            ecosystem := .ofString "Ubuntu"
            version := row.member "priority"
            severity := FeedScalars.normalizeSeverity (row.member "priority")
            title := row.member "description"
            details := row
            publishedAt := FeedScalars.toDt (row.member "published")
            modifiedAt := FeedScalars.toDt ((row.member "updated_at").or (row.member "modified")) }
    | _ => none
  else none

/-- `_stream_ubuntu_records_from_json`, of the items under `cves`. -/
def streamUbuntuRecords (items : List Loaded) (limit : ℕ) : List FeedRecord :=
  (items.filterMap ubuntuRecord).take (max 1 limit)

end Parser

/-! ### Another priority -/

/-- An item of the feed with another priority, or without one. -/
def Loaded.withPriority (row : Loaded) (priority : Option Str) : Loaded :=
  match row with
  | .dict members =>
    .dict ((str "priority", priority.elim .null .text) ::
      members.filter fun m => m.1 ≠ str "priority")
  | other => other

@[simp] theorem isDict_withPriority (row : Loaded) (priority : Option Str) :
    (row.withPriority priority).isDict = row.isDict := by
  cases row <;> rfl

theorem lookup_filter_of_ne {members : List (Str × Loaded)} {k k' : Str} (h : k ≠ k') :
    (members.filter fun m => m.1 ≠ k').lookup k = members.lookup k := by
  induction members with
  | nil => rfl
  | cons m members ih =>
    obtain ⟨key, v⟩ := m
    by_cases hkey : key = k'
    · rw [List.filter_cons_of_neg (by simpa using hkey), ih, List.lookup_cons,
        beq_eq_false_iff_ne.mpr (hkey ▸ h)]
    · rw [List.filter_cons_of_pos (by simpa using hkey), List.lookup_cons, List.lookup_cons, ih]

/-- The other members stay. -/
theorem member_withPriority_of_ne {k : String} (h : str k ≠ str "priority") (row : Loaded)
    (priority : Option Str) : (row.withPriority priority).member k = row.member k := by
  cases row with
  | dict members =>
    rw [Loaded.withPriority, Loaded.member, Loaded.memberOr_cons_of_ne h, Loaded.member,
      Loaded.memberOr, Loaded.find?, lookup_filter_of_ne h]
    rfl
  | _ => rfl

theorem column_priority_withPriority {row : Loaded} (h : row.isDict = true)
    (priority : Option Str) : ((row.withPriority priority).member "priority").column = priority := by
  cases row with
  | dict members =>
    rw [Loaded.withPriority, Loaded.member, Loaded.memberOr_cons_self]
    cases priority <;> rfl
  | _ => cases h

/-! ### Decisions -/

section Decisions

variable [Unicode] [UrlDecoding] [FeedScalars] {row : Loaded} {pkg : SbomPackage}

/-- The match of a package with the record of an item, if it has one. -/
def ubuntuMatch (row : Loaded) (pkg : SbomPackage) : Option FeedMatch :=
  (ubuntuRecord row).map fun rec => rec.content.matchWith pkg

/-- Whether the record of an item is materialized for a package, and whether it is rejected because
of its version. -/
def ubuntuDecision (includeLowConfidence : Bool) (row : Loaded) (pkg : SbomPackage) :
    Option (Bool × Bool) :=
  (ubuntuMatch row pkg).map fun m =>
    (m.materialized includeLowConfidence, m.kind = .versionMismatch)

/-- How a priority counts: as the version. -/
theorem ubuntuMatch_withPriority (h : ubuntuRecord row ≠ none) (priority : Option Str) :
    ubuntuMatch (row.withPriority priority) pkg =
      some (matchStrategy pkg (row.member "package").column (some (str "Ubuntu")) priority) := by
  have hdict : row.isDict = true := by
    by_contra hn
    exact h (if_neg hn)
  obtain ⟨rec, hrec⟩ := Option.ne_none_iff_exists'.mp h
  have hother : ∀ k : String, str k ≠ str "priority" →
      (row.withPriority priority).member k = row.member k :=
    fun k hk => member_withPriority_of_ne hk row priority
  have hcolumn := column_priority_withPriority hdict priority
  unfold ubuntuRecord at hrec
  rw [if_pos hdict] at hrec
  rw [ubuntuMatch, ubuntuRecord, isDict_withPriority, if_pos hdict, hother "id" (by decide),
    hother "cve" (by decide), hother "name" (by decide)]
  split at hrec
  · split_ifs at hrec with hblank
    rw [if_neg hblank, Option.map_some, FeedContent.matchWith]
    change some (matchStrategy pkg ((row.withPriority priority).member "package").column
      (some (str "Ubuntu")) ((row.withPriority priority).member "priority").column) = _
    rw [hother "package" (by decide), hcolumn]
  · cases hrec

omit [Unicode] [UrlDecoding] in
theorem ubuntuRecord_withPriority_eq_none_iff (priority : Option Str) :
    ubuntuRecord (row.withPriority priority) = none ↔ ubuntuRecord row = none := by
  have hother : ∀ k : String, str k ≠ str "priority" →
      (row.withPriority priority).member k = row.member k :=
    fun k hk => member_withPriority_of_ne hk row priority
  unfold ubuntuRecord
  rw [isDict_withPriority, hother "id" (by decide), hother "cve" (by decide),
    hother "name" (by decide)]
  split_ifs
  · split
    · split_ifs <;> simp
    · rfl
  · rfl

/-- An item without a record has no decision, whatever its priority. -/
theorem ubuntuDecision_withPriority_of_none (h : ubuntuRecord row = none) (low : Bool)
    (priority : Option Str) : ubuntuDecision low (row.withPriority priority) pkg = none := by
  rw [ubuntuDecision, ubuntuMatch, (ubuntuRecord_withPriority_eq_none_iff priority).mpr h]
  rfl

/-- Two priorities with one decision are both rejected, or both not. -/
theorem otherVersion_iff_of_decision (h : ubuntuRecord row ≠ none) {low : Bool}
    (hname : NamesAgree pkg (row.member "package").column) {p q : Option Str}
    (hdecision : ubuntuDecision low (row.withPriority p) pkg =
      ubuntuDecision low (row.withPriority q) pkg) :
    OtherVersion pkg p ↔ OtherVersion pkg q := by
  rw [ubuntuDecision, ubuntuDecision, ubuntuMatch_withPriority h, ubuntuMatch_withPriority h,
    Option.map_some, Option.map_some, Option.some_inj, Prod.mk.injEq, decide_eq_decide,
    kind_eq_versionMismatch_iff, kind_eq_versionMismatch_iff] at hdecision
  simpa only [hname, true_and] using hdecision.2

omit [Unicode] [UrlDecoding] [FeedScalars] in
/-- Some text differs from a version. -/
theorem exists_otherVersion (h : Str.strip pkg.version ≠ []) :
    ∃ q : Str, OtherVersion pkg (some q) := by
  by_cases hlow : Str.strip pkg.version = str "low"
  · exact ⟨str "high", (by decide), h, by rw [hlow]; decide⟩
  · exact ⟨str "low", (by decide), h, Ne.symm hlow⟩

omit [Unicode] [UrlDecoding] [FeedScalars] in
/-- Some version tells two priorities apart that differ in more than the blanks around them. -/
theorem exists_version_otherVersion {p q : Option Str}
    (h : Str.strip (Str.orEmpty p) ≠ Str.strip (Str.orEmpty q)) :
    ∃ version : Str, ∀ pkg : SbomPackage, pkg.version = version →
      ¬ (OtherVersion pkg p ↔ OtherVersion pkg q) := by
  wlog hp : Str.strip (Str.orEmpty p) ≠ [] generalizing p q
  · obtain ⟨v, hv⟩ := this h.symm fun hq => h ((not_not.mp hp).trans hq.symm)
    exact ⟨v, fun pkg hpkg hiff => hv pkg hpkg hiff.symm⟩
  by_cases hq : Str.strip (Str.orEmpty q) = []
  · obtain ⟨v, hv, hne⟩ : ∃ v : Str, Str.strip v ≠ [] ∧ Str.strip (Str.orEmpty p) ≠ Str.strip v := by
      by_cases hlow : Str.strip (Str.orEmpty p) = str "low"
      · exact ⟨str "high", (by decide), by rw [hlow]; decide⟩
      · exact ⟨str "low", (by decide), hlow⟩
    refine ⟨v, ?_⟩
    rintro pkg rfl hiff
    exact (hiff.mp ⟨hp, hv, hne⟩).1 hq
  · refine ⟨Str.orEmpty p, fun pkg hpkg hiff => ?_⟩
    have hother := hiff.mpr ⟨hq, by rwa [hpkg], by rw [hpkg]; exact h.symm⟩
    exact hother.2.2 (by rw [hpkg])

/-- A package with a name and a version, and nothing else. -/
def plainPackage (name version : Str) : SbomPackage where
  id := []
  name := name
  version := version
  component := none
  language := none
  purl := none
  purlSource := none
  purlConfidence := none
  sources := []
  tenantId := none
  updatedAt := 0

omit [UrlDecoding] [FeedScalars] in
theorem namesAgree_plainPackage {name : Option Str} (h : comparedName name ≠ []) (version : Str) :
    NamesAgree (plainPackage (Str.orEmpty name) version) name := ⟨h, h, rfl⟩

/-- Whether the decision for a package depends on the priority. -/
theorem ubuntuDecision_forall_priority_iff (h : ubuntuRecord row ≠ none) (low : Bool) :
    (∀ p q, ubuntuDecision low (row.withPriority p) pkg =
        ubuntuDecision low (row.withPriority q) pkg) ↔
      ¬ NamesAgree pkg (row.member "package").column ∨ Str.strip pkg.version = [] := by
  constructor
  · intro hall
    by_contra hn
    obtain ⟨hname, hversion⟩ := not_or.mp hn
    obtain ⟨q, hq⟩ := exists_otherVersion hversion
    have hiff := otherVersion_iff_of_decision h (not_not.mp hname) (hall none (some q))
    exact (hiff.mpr hq).1 rfl
  · intro hcond p q
    rw [ubuntuDecision, ubuntuDecision, ubuntuMatch_withPriority h, ubuntuMatch_withPriority h]
    obtain hname | hversion := hcond
    · rw [matchStrategy_of_not_namesAgree hname, matchStrategy_of_not_namesAgree hname]
    · rw [matchStrategy_of_blank hversion q]

/-- Whether two priorities give one decision on every inventory. -/
theorem ubuntuDecision_forall_package_iff (h : ubuntuRecord row ≠ none) (low : Bool)
    (p q : Option Str) :
    (∀ pkg, ubuntuDecision low (row.withPriority p) pkg =
        ubuntuDecision low (row.withPriority q) pkg) ↔
      comparedName (row.member "package").column = [] ∨
        Str.strip (Str.orEmpty p) = Str.strip (Str.orEmpty q) := by
  constructor
  · intro hall
    by_contra hn
    obtain ⟨hname, hne⟩ := not_or.mp hn
    obtain ⟨version, hversion⟩ := exists_version_otherVersion hne
    exact hversion _ rfl
      (otherVersion_iff_of_decision h (namesAgree_plainPackage hname version) (hall _))
  · intro hcond pkg
    rw [ubuntuDecision, ubuntuDecision, ubuntuMatch_withPriority h, ubuntuMatch_withPriority h]
    obtain hname | hblanks := hcond
    · have hagree : ¬ NamesAgree pkg (row.member "package").column := fun ha => ha.2.1 hname
      rw [matchStrategy_of_not_namesAgree hagree, matchStrategy_of_not_namesAgree hagree]
    · rw [matchStrategy_congr_version hblanks]

/-- For a package, the decision does not depend on the priority of an advisory exactly when the
names do not agree or the package has no version. Two priorities give one decision on every
inventory exactly when the advisory names no package or they differ in the blanks around them
only. -/
theorem ubuntuDecision_priority_iff (low : Bool) (row : Loaded) :
    (∀ pkg, (∀ p q, ubuntuDecision low (row.withPriority p) pkg =
          ubuntuDecision low (row.withPriority q) pkg) ↔
        ubuntuRecord row = none ∨ ¬ NamesAgree pkg (row.member "package").column ∨
          Str.strip pkg.version = []) ∧
      ∀ p q, (∀ pkg, ubuntuDecision low (row.withPriority p) pkg =
          ubuntuDecision low (row.withPriority q) pkg) ↔
        ubuntuRecord row = none ∨ comparedName (row.member "package").column = [] ∨
          Str.strip (Str.orEmpty p) = Str.strip (Str.orEmpty q) := by
  by_cases h : ubuntuRecord row = none
  · refine ⟨fun pkg => iff_of_true (fun p q => ?_) (Or.inl h),
      fun p q => iff_of_true (fun pkg => ?_) (Or.inl h)⟩
    all_goals rw [ubuntuDecision_withPriority_of_none h, ubuntuDecision_withPriority_of_none h]
  · refine ⟨fun pkg => ?_, fun p q => ?_⟩
    · rw [ubuntuDecision_forall_priority_iff h, or_iff_right h]
    · rw [ubuntuDecision_forall_package_iff h, or_iff_right h]

end Decisions

/-! ### An advisory whose priority is not a version -/

/-- An advisory about a package. -/
def opensslAdvisory : Loaded :=
  .dict [(str "id", .ofString "CVE-2024-2"), (str "package", .ofString "openssl")]

/-- With a priority, the advisory is rejected for the package that it is about. -/
theorem ubuntuDecision_opensslAdvisory :
    ¬ ∀ (low : Bool) (row : Loaded) (p q : Option Str) (pkg : SbomPackage),
      @ubuntuDecision asciiUnicode plainDecoding noScalars low (row.withPriority p) pkg =
        @ubuntuDecision asciiUnicode plainDecoding noScalars low (row.withPriority q) pkg := by
  intro h
  have := h true opensslAdvisory none (some (str "medium"))
    (plainPackage (str "openssl") (str "3.0.2"))
  revert this
  decide

end Vat
