import Mathlib.Data.Multiset.AddSub
import Mathlib.Data.Prod.Lex
import Mathlib.Tactic.Abel
import Vat.Feeds.Upsert
import Vat.Keyed.Capped

/-!
# Curation of feed records

What a refresh keeps of the records of a feed: those that are recent enough, the most severe and the
newest first, up to a cap for each ecosystem, for the Linux kernel and for the feed. Every record is
kept or counted by exactly one filter, and a cap drops a record only for others of its bucket that
rank at least as high.

Curation fails on an age limit that reaches back before year 1, and on a number in the details of a
record that no float can hold.

Source: `backend/app/services/vuln_feeds.py`, lines 89–101, 119–120 and 413–568.

## Main definitions

* `severityFromDetails`, `recordSortKey`.
* `CurationRun`: what is kept, and what each filter drops.
* `applyFeedCuration`.
* `CurationRun.Conserves`.

## Main results

* `conserves_of_curationRun`.
* `curation_conserves_iff`.
-/

namespace Vat

open Keyed Transition

/-! ### Severities -/

/-- `float(s)`, of a text that is a number. -/
class FloatOfText where
  float? : Str → Option PyFloat

/-- No text is a number. -/
@[reducible] def noFloats : FloatOfText where
  float? _ := none

/-- A float is at least a whole number above 0. -/
def FloatSize.atLeast (size : FloatSize) (negative : Bool) (n : ℤ) : Bool :=
  match size with
  | .nan => false
  | .infinite => !negative
  | .finite whole _ => n ≤ whole

/-- A float is above 0. -/
def FloatSize.positive (size : FloatSize) (negative : Bool) : Bool :=
  match size with
  | .nan => false
  | .infinite => !negative
  | .finite whole exact => 0 < whole || whole == 0 && !exact && !negative

/-- `_severity_from_cvss`. -/
def severityFromCvss (size : FloatSize) (negative : Bool) : Str :=
  if size.atLeast negative 9 then str "CRITICAL"
  else if size.atLeast negative 7 then str "HIGH"
  else if size.atLeast negative 4 then str "MEDIUM"
  else if size.positive negative then str "LOW"
  else str "UNKNOWN"

/-- The sign of a float. -/
def PyFloat.negative (x : PyFloat) : Bool := Str.startsWith x.repr (str "-")

/-- The numbers that a float can hold: those that do not round to `2 ** 1024`. -/
def fitsFloat (i : ℤ) : Bool := i.natAbs < 2 ^ 1024 - 2 ^ 970

/-- `_SEVERITY_MAP`. -/
def severityMap : List (String × String) :=
  [("critical", "CRITICAL"), ("important", "HIGH"), ("high", "HIGH"), ("moderate", "MEDIUM"),
    ("medium", "MEDIUM"), ("low", "LOW"), ("negligible", "LOW"), ("unimportant", "LOW"),
    ("unknown", "UNKNOWN"), ("not yet assigned", "UNKNOWN"), ("undetermined", "UNKNOWN")]

section Severity

variable [Unicode] [UpperCase] [FloatOfText]

/-- A severity in words, or as a number. -/
def severityOfText (text : Str) : Str :=
  match FloatOfText.float? text with
  | some x => severityFromCvss x.size x.negative
  | none =>
    ((severityMap.find? fun e => str e.1 = Unicode.lower text).map fun e => str e.2).getD
      ((UpperCase.upper text).take 32)

/-- `_normalize_severity`. An empty text stands for `None`. -/
def normalizeSeverity : Loaded → Except PyError Str
  | .bool b => .ok (severityFromCvss (.finite (if b then 1 else 0) true) false)
  | .int i => do
    -- rounding moves no number past those that it is compared with
    check (fitsFloat i) .overflowError
    return severityFromCvss (.finite i true) (i < 0)
  | .float x => .ok (severityFromCvss x.size x.negative)
  | .text s => .ok (if Str.strip s = [] then [] else severityOfText (Str.strip s))
  | .null | .list _ | .dict _ => .ok []

omit [Unicode] [UpperCase] [FloatOfText] in
/-- The values in the details of a record that may be its severity, in the order in which they are
read. -/
def severityValues (details : Loaded) : List Loaded :=
  ["severity", "priority", "impact", "cvss3"].map details.member ++
    (if (details.member "cvss").isDict then
      [((details.member "cvss").member "score").or ((details.member "cvss").member "baseScore")]
    else []) ++
    match details.member "releases" with
    | .dict members =>
      (members.filter fun p => p.2.isDict).map fun p => p.2.member "urgency"
    | _ => []

/-- The first severity. -/
def firstSeverity : List Loaded → Except PyError Str
  | [] => .ok []
  | v :: vs => do
    let severity ← normalizeSeverity v
    if severity ≠ [] then return severity else firstSeverity vs

/-- `_severity_from_details`. -/
def severityFromDetails (details : Loaded) : Except PyError Str :=
  firstSeverity (severityValues details)

omit [Unicode] [FloatOfText] in
/-- `_severity_rank`. -/
def severityRank (value : Str) : ℕ :=
  let sev := UpperCase.upper (Str.strip (if value = [] then str "UNKNOWN" else value))
  if sev = str "CRITICAL" then 4
  else if sev = str "HIGH" then 3
  else if sev = str "MEDIUM" then 2
  else if sev = str "LOW" then 1
  else 0

/-- `rec.get("modified_at") or rec.get("published_at")`. -/
def FeedContent.when? (rec : FeedContent) : Option Instant := rec.modifiedAt <|> rec.publishedAt

/-- The severity of a record, or else the one in its details. -/
def recordSeverity (rec : FeedRecord) : Except PyError Str :=
  if rec.severity.truthy then rec.severity.asText else severityFromDetails rec.details

/-- `_record_sort_key`. -/
def recordSortKey (rec : FeedRecord) : Except PyError (ℕ ×ₗ Instant) := do
  let severity ← recordSeverity rec
  return toLex (severityRank severity, rec.when?.getD 0)

end Severity

/-! ### The settings -/

/-- The limits of the feeds. -/
structure CurationSettings where
  recentWindowYears : ℤ
  recentWindowDays : ℤ
  osvMaxRecordsPerEcosystem : ℤ
  linuxKernelMaxRecords : ℤ
  maxRecordsPerSource : ℤ

/-- `_effective_recent_window_days`. -/
def CurationSettings.windowDays (settings : CurationSettings) : ℕ :=
  let years := settings.recentWindowYears.toNat
  if 0 < years then years * 365 else settings.recentWindowDays.toNat

/-- A day in microseconds. -/
def dayMicroseconds : ℕ := 86400000000

/-- `_utc_now() - timedelta(days=window_days)`, if there is an age limit. -/
def CurationSettings.cutoff (settings : CurationSettings) (now : Instant) :
    Except PyError (Option Instant) := do
  if 0 < settings.windowDays then
    check (settings.windowDays * dayMicroseconds ≤ now) .overflowError
    return some (now - settings.windowDays * dayMicroseconds)
  else return none

/-- A record is older than the cutoff. -/
def FeedContent.olderThan (cutoff : Option Instant) (rec : FeedContent) : Bool :=
  cutoff.any fun limit => rec.when?.any fun t => t < limit

/-! ### Caps -/

section Caps

variable [Unicode] [ReprText]

/-- The ecosystem of a record, to count it by. -/
def FeedContent.ecosystemBucket (rec : FeedContent) : Str :=
  Unicode.lower (Str.strip (rec.ecosystem.or (.ofString "unknown")).pyStr)

/-- `is_kernel`. -/
def FeedContent.isKernel (rec : FeedContent) : Bool :=
  let pkgName := Unicode.lower (Str.strip (rec.packageName.or (.ofString "")).pyStr)
  let eco := Unicode.lower (Str.strip (rec.ecosystem.or (.ofString "")).pyStr)
  Str.contains pkgName (str "kernel") || eco = str "linux" || eco = str "kernel"

/-- The cap for each ecosystem: what is kept and what is dropped. -/
def capEcosystems (cap : ℕ) (recs : List FeedRecord) : List FeedRecord × List FeedRecord :=
  if 0 < cap then
    let s := capped (fun rec : FeedRecord => some rec.ecosystemBucket) cap recs
    (s.kept, s.skipped)
  else (recs, [])

/-- The cap for the Linux kernel. -/
def capKernel (cap : ℕ) (recs : List FeedRecord) : List FeedRecord × List FeedRecord :=
  if 0 < cap then
    let s := capped (fun rec : FeedRecord => if rec.isKernel then some () else none) cap recs
    (s.kept, s.skipped)
  else (recs, [])

omit [Unicode] [ReprText] in
/-- The cap for the feed. -/
def capSource (cap : ℕ) (recs : List FeedRecord) : List FeedRecord × List FeedRecord :=
  if 0 < cap ∧ cap < recs.length then (recs.take cap, recs.drop cap) else (recs, [])

/-- `SOURCE_OSV`. -/
def sourceOsv : Str := str "osv"

/-- What is kept of the records, and what each filter drops. -/
structure CurationRun where
  kept : List FeedRecord
  aged : List FeedRecord
  ecosystemDropped : List FeedRecord
  kernelDropped : List FeedRecord
  sourceDropped : List FeedRecord

/-- `raw_fetched_items`, `filtered_by_age` and `filtered_by_cap`. -/
structure CurationStats where
  rawFetchedItems : ℕ
  filteredByAge : ℕ
  filteredByCap : ℕ
  deriving DecidableEq

/-- The caps, one after the other; those for ecosystems and for the kernel are of OSV alone. -/
def curateSorted (settings : CurationSettings) (source : Str) (aged recs : List FeedRecord) :
    CurationRun :=
  let osv := decide (source = sourceOsv)
  let eco := capEcosystems (if osv then settings.osvMaxRecordsPerEcosystem.toNat else 0) recs
  let kernel := capKernel (if osv then settings.linuxKernelMaxRecords.toNat else 0) eco.1
  let all := capSource settings.maxRecordsPerSource.toNat kernel.1
  ⟨all.1, aged, eco.2, kernel.2, all.2⟩

end Caps

/-- The counters. -/
def CurationRun.stats (run : CurationRun) (rawCount : ℕ) : CurationStats where
  rawFetchedItems := rawCount
  filteredByAge := run.aged.length
  filteredByCap :=
    run.ecosystemDropped.length + run.kernelDropped.length + run.sourceDropped.length

section Curation

variable [Unicode] [UpperCase] [FloatOfText] [ReprText]

/-- The curation of records that are not none. -/
def curationRun (settings : CurationSettings) (now : Instant) (source : Str)
    (records : List FeedRecord) : Except PyError CurationRun := do
  let cutoff ← settings.cutoff now
  let recent := records.filter fun rec => !rec.olderThan cutoff
  let keyed ← recent.mapM fun rec => do return (rec, ← recordSortKey rec)
  let sorted := (keyed.insertionSort fun a b => b.2 ≤ a.2).map Prod.fst
  return curateSorted settings source (records.filter fun rec => rec.olderThan cutoff) sorted

/-- `_apply_feed_curation`. -/
def applyFeedCuration (settings : CurationSettings) (now : Instant) (source : Str)
    (records : List FeedRecord) : Except PyError (List FeedRecord × CurationStats) :=
  if records = [] then .ok ([], ⟨0, 0, 0⟩)
  else do
    let run ← curationRun settings now source records
    return (run.kept, run.stats records.length)

/-! ### Records that can be ranked -/

omit [ReprText] in
theorem exists_normalizeSeverity_iff {v : Loaded} :
    (∃ s, normalizeSeverity v = .ok s) ↔ ∀ i, v = .int i → fitsFloat i := by
  cases v with
  | int i =>
    simp only [normalizeSeverity, bind_eq_ok_iff, check_eq_ok_iff]
    constructor
    · rintro ⟨_, _, hfits, -⟩ j hj
      cases hj
      exact hfits
    · exact fun h => ⟨_, (), h i rfl, rfl⟩
  | _ => exact iff_of_true ⟨_, rfl⟩ fun i hi => by cases hi

omit [ReprText] in
/-- The values are read up to the first that has a severity. -/
theorem exists_firstSeverity_iff {vs : List Loaded} :
    (∃ s, firstSeverity vs = .ok s) ↔
      ∀ pre i post, vs = pre ++ .int i :: post → (∀ v ∈ pre, normalizeSeverity v = .ok []) →
        fitsFloat i := by
  induction vs with
  | nil => exact iff_of_true ⟨[], rfl⟩ fun pre i post h => by simp at h
  | cons v vs ih =>
    simp only [firstSeverity, bind_eq_ok_iff]
    constructor
    · rintro ⟨s, own, hown, hs⟩ pre i post heq hpre
      cases pre with
      | nil =>
        cases heq
        exact exists_normalizeSeverity_iff.mp ⟨own, hown⟩ i rfl
      | cons u pre =>
        cases heq
        obtain ⟨hu, hpre⟩ := List.forall_mem_cons.mp hpre
        cases hu.symm.trans hown
        exact ih.mp ⟨s, hs⟩ pre i post rfl hpre
    · intro h
      have hfits : ∀ i, v = .int i → fitsFloat i := by
        rintro i rfl
        exact h [] i vs rfl fun v hv => by cases hv
      obtain ⟨own, hown⟩ := exists_normalizeSeverity_iff.mpr hfits
      by_cases hempty : own = []
      · rw [hempty] at hown
        obtain ⟨s, hs⟩ := ih.mpr fun pre i post heq hpre =>
          h (v :: pre) i post (by rw [heq]; rfl) (List.forall_mem_cons.mpr ⟨hown, hpre⟩)
        exact ⟨s, [], hown, hs⟩
      · exact ⟨own, own, hown, if_pos hempty⟩

/-- A record has a sort key: its severity is a text, or else each number that is read for it fits a
float. -/
def FeedRecord.Rankable (rec : FeedRecord) : Prop :=
  if rec.severity.truthy then rec.severity.isText = true
  else ∀ pre i post, severityValues rec.details = pre ++ .int i :: post →
    (∀ v ∈ pre, normalizeSeverity v = .ok []) → fitsFloat i

omit [ReprText] in
theorem exists_recordSortKey_iff {rec : FeedRecord} :
    (∃ key, recordSortKey rec = .ok key) ↔ rec.Rankable := by
  have hkey : (∃ key, recordSortKey rec = .ok key) ↔ ∃ s, recordSeverity rec = .ok s := by
    simp only [recordSortKey, bind_eq_ok_iff]
    constructor
    · rintro ⟨_, s, hs, -⟩
      exact ⟨s, hs⟩
    · rintro ⟨s, hs⟩
      exact ⟨_, s, hs, rfl⟩
  rw [hkey, recordSeverity, FeedRecord.Rankable]
  split_ifs with htruthy
  · simp only [Loaded.asText, bind_eq_ok_iff, check_eq_ok_iff]
    constructor
    · rintro ⟨_, _, htext, -⟩
      exact htext
    · intro htext
      exact ⟨_, (), htext, rfl⟩
  · exact exists_firstSeverity_iff

/-! ### What curation owes to the records -/

/-- A record is past the age limit. -/
def IsAged (settings : CurationSettings) (now : Instant) (rec : FeedRecord) : Prop :=
  0 < settings.windowDays ∧ ∃ t ∈ rec.when?, t + settings.windowDays * dayMicroseconds < now

/-- A record ranks at least as high as another. -/
def Outranks (a b : FeedRecord) : Prop :=
  ∃ ka kb, recordSortKey a = .ok ka ∧ recordSortKey b = .ok kb ∧ kb ≤ ka

/-- Every record is kept or dropped by one filter, the caps are respected, and what is kept of a
bucket ranks at least as high as what its cap drops. -/
structure CurationRun.Conserves (settings : CurationSettings) (now : Instant) (source : Str)
    (records : List FeedRecord) (run : CurationRun) : Prop where
  subperm : run.kept.Subperm records
  perm : (run.kept ++ run.aged ++ run.ecosystemDropped ++ run.kernelDropped ++
    run.sourceDropped).Perm records
  total : (run.stats records.length).rawFetchedItems = run.kept.length +
    (run.stats records.length).filteredByAge + (run.stats records.length).filteredByCap
  aged : ∀ rec ∈ run.aged, IsAged settings now rec
  recent : ∀ rec ∈ run.kept ++ run.ecosystemDropped ++ run.kernelDropped ++ run.sourceDropped,
    ¬ IsAged settings now rec
  ecosystem_le : source = sourceOsv → 0 < settings.osvMaxRecordsPerEcosystem → ∀ eco,
    (run.kept.countP fun rec => rec.ecosystemBucket = eco) ≤ settings.osvMaxRecordsPerEcosystem
  kernel_le : source = sourceOsv → 0 < settings.linuxKernelMaxRecords →
    (run.kept.countP fun rec => rec.isKernel) ≤ settings.linuxKernelMaxRecords
  source_le : 0 < settings.maxRecordsPerSource → run.kept.length ≤ settings.maxRecordsPerSource
  ecosystem_outranks : ∀ a ∈ run.kept, ∀ b ∈ run.ecosystemDropped,
    a.ecosystemBucket = b.ecosystemBucket → Outranks a b
  kernel_outranks : ∀ a ∈ run.kept, ∀ b ∈ run.kernelDropped,
    b.isKernel ∧ (a.isKernel → Outranks a b)
  source_outranks : ∀ a ∈ run.kept, ∀ b ∈ run.sourceDropped, Outranks a b

/-! ### One cap -/

section Cap

variable {cap : ℕ} {recs : List FeedRecord} {r : FeedRecord → FeedRecord → Prop} {a b : FeedRecord}

/-- What a cap keeps and drops is what there is, and what it keeps stays in its order. -/
structure Splits (recs : List FeedRecord) (p : List FeedRecord × List FeedRecord) : Prop where
  perm : (p.1 ++ p.2).Perm recs
  sublist : p.1.Sublist recs

omit [Unicode] [UpperCase] [FloatOfText] [ReprText] in
theorem splits_all : Splits recs (recs, []) := ⟨by rw [List.append_nil], List.Sublist.refl recs⟩

omit [UpperCase] [FloatOfText] in
theorem splits_capEcosystems : Splits recs (capEcosystems cap recs) := by
  rw [capEcosystems]
  split_ifs
  · exact ⟨capped_perm recs, kept_sublist recs⟩
  · exact splits_all

omit [UpperCase] [FloatOfText] in
theorem splits_capKernel : Splits recs (capKernel cap recs) := by
  rw [capKernel]
  split_ifs
  · exact ⟨capped_perm recs, kept_sublist recs⟩
  · exact splits_all

omit [Unicode] [UpperCase] [FloatOfText] [ReprText] in
theorem splits_capSource : Splits recs (capSource cap recs) := by
  rw [capSource]
  split_ifs
  · exact ⟨by rw [List.take_append_drop], List.take_sublist cap recs⟩
  · exact splits_all

omit [UpperCase] [FloatOfText] in
theorem countP_capEcosystems_le (recs : List FeedRecord) (hcap : 0 < cap) (eco : Str) :
    ((capEcosystems cap recs).1.countP fun rec => rec.ecosystemBucket = eco) ≤ cap := by
  rw [capEcosystems, if_pos hcap]
  have hle := countP_kept_le (fun rec : FeedRecord => some rec.ecosystemBucket) cap recs eco
  simpa only [Option.some_inj] using hle

omit [UpperCase] [FloatOfText] in
theorem countP_capKernel_le (recs : List FeedRecord) (hcap : 0 < cap) :
    ((capKernel cap recs).1.countP fun rec => rec.isKernel) ≤ cap := by
  rw [capKernel, if_pos hcap]
  have hle := countP_kept_le
    (fun rec : FeedRecord => if rec.isKernel then some () else none) cap recs ()
  have hbucket : ∀ rec : FeedRecord,
      decide ((if rec.isKernel then some () else none) = some ()) = rec.isKernel := by
    intro rec
    cases rec.isKernel <;> rfl
  simpa only [hbucket] using hle

omit [Unicode] [UpperCase] [FloatOfText] [ReprText] in
theorem length_capSource_le (hcap : 0 < cap) : (capSource cap recs).1.length ≤ cap := by
  rw [capSource]
  split_ifs with h
  · exact List.length_take_le cap recs
  · exact Nat.not_lt.mp fun hlt => h ⟨hcap, hlt⟩

omit [UpperCase] [FloatOfText] in
theorem capEcosystems_dominates (hrecs : recs.Pairwise r) (ha : a ∈ (capEcosystems cap recs).1)
    (hb : b ∈ (capEcosystems cap recs).2) (h : a.ecosystemBucket = b.ecosystemBucket) : r a b := by
  rw [capEcosystems] at ha hb
  split_ifs at ha hb
  · exact capped_dominates hrecs ha hb (congrArg some h)
  · cases hb

omit [UpperCase] [FloatOfText] in
theorem capKernel_dominates (hrecs : recs.Pairwise r) (ha : a ∈ (capKernel cap recs).1)
    (hb : b ∈ (capKernel cap recs).2) : b.isKernel ∧ (a.isKernel → r a b) := by
  rw [capKernel] at ha hb
  split_ifs at ha hb
  · have hkernel : b.isKernel := by
      obtain ⟨_, hbucket⟩ := exists_bucket_of_mem_skipped hb
      by_contra hno
      rw [if_neg hno] at hbucket
      cases hbucket
    refine ⟨hkernel, fun hka => capped_dominates hrecs ha hb ?_⟩
    rw [if_pos hka, if_pos hkernel]
  · cases hb

omit [Unicode] [UpperCase] [FloatOfText] [ReprText] in
theorem capSource_dominates (hrecs : recs.Pairwise r) (ha : a ∈ (capSource cap recs).1)
    (hb : b ∈ (capSource cap recs).2) : r a b := by
  rw [capSource] at ha hb
  split_ifs at ha hb
  · rw [← List.take_append_drop cap recs] at hrecs
    exact (List.pairwise_append.mp hrecs).2.2 a ha b hb
  · cases hb

end Cap

/-! ### The whole curation -/

variable {settings : CurationSettings} {now : Instant} {source : Str} {records : List FeedRecord}

section Caps

variable {aged recs : List FeedRecord} {eco kernel all : List FeedRecord × List FeedRecord}
  (heco : Splits recs eco) (hkernel : Splits eco.1 kernel) (hall : Splits kernel.1 all)

include heco hkernel hall

omit [Unicode] [UpperCase] [FloatOfText] [ReprText] in
/-- Three caps in a row and the aged records: what is kept and what is skipped are the records. -/
theorem perm_of_splits (hperm : (recs ++ aged).Perm records) :
    (all.1 ++ aged ++ eco.2 ++ kernel.2 ++ all.2).Perm records := by
  rw [← Multiset.coe_eq_coe] at hperm ⊢
  have h1 := Multiset.coe_eq_coe.mpr heco.perm
  have h2 := Multiset.coe_eq_coe.mpr hkernel.perm
  have h3 := Multiset.coe_eq_coe.mpr hall.perm
  simp only [← Multiset.coe_add] at hperm h1 h2 h3 ⊢
  rw [← hperm, ← h1, ← h2, ← h3]
  abel

omit [Unicode] [UpperCase] [FloatOfText] [ReprText] in
/-- What they keep or skip is none of the aged records. -/
theorem mem_of_splits {rec : FeedRecord} (h : rec ∈ all.1 ++ eco.2 ++ kernel.2 ++ all.2) :
    rec ∈ recs := by
  simp only [List.mem_append] at h
  rcases h with ((h | h) | h) | h
  · exact (hall.sublist.trans (hkernel.sublist.trans heco.sublist)).subset h
  · exact heco.perm.subset (List.mem_append_right _ h)
  · exact heco.sublist.subset (hkernel.perm.subset (List.mem_append_right _ h))
  · exact (hkernel.sublist.trans heco.sublist).subset (hall.perm.subset (List.mem_append_right _ h))

end Caps

/-- The caps on ranked records. -/
theorem conserves_curateSorted {aged recs : List FeedRecord} (hperm : (recs ++ aged).Perm records)
    (hsorted : recs.Pairwise Outranks) (haged : ∀ rec ∈ aged, IsAged settings now rec)
    (hrecent : ∀ rec ∈ recs, ¬ IsAged settings now rec) :
    (curateSorted settings source aged recs).Conserves settings now source records := by
  set ecoCap := if source = sourceOsv then settings.osvMaxRecordsPerEcosystem.toNat else 0 with hecoCap
  set kernelCap := if source = sourceOsv then settings.linuxKernelMaxRecords.toNat else 0
    with hkernelCap
  set eco := capEcosystems ecoCap recs with heco
  set kernel := capKernel kernelCap eco.1 with hkernel
  set all := capSource settings.maxRecordsPerSource.toNat kernel.1 with hall
  have hrun : curateSorted settings source aged recs = ⟨all.1, aged, eco.2, kernel.2, all.2⟩ := by
    simp only [curateSorted, decide_eq_true_eq]
    rfl
  have hsplitEco : Splits recs eco := splits_capEcosystems
  have hsplitKernel : Splits eco.1 kernel := splits_capKernel
  have hsplitAll : Splits kernel.1 all := splits_capSource
  have hallEco : all.1.Sublist eco.1 := hsplitAll.sublist.trans hsplitKernel.sublist
  have hperm' := perm_of_splits hsplitEco hsplitKernel hsplitAll hperm
  rw [hrun]
  refine ⟨?_, hperm', ?_, haged, ?_, fun hosv hcap k => ?_, fun hosv hcap => ?_, fun hcap => ?_, ?_, ?_,
    ?_⟩
  · refine (List.Sublist.subperm ?_).trans hperm'.subperm
    simp only [List.append_assoc]
    exact List.sublist_append_left _ _
  · have hlength := hperm'.length_eq
    simp only [List.length_append] at hlength
    simp only [CurationRun.stats]
    omega
  · exact fun rec h => hrecent rec (mem_of_splits hsplitEco hsplitKernel hsplitAll h)
  · have hle := (hallEco.countP_le (p := fun rec => rec.ecosystemBucket = k)).trans
      (countP_capEcosystems_le recs (by rw [hecoCap, if_pos hosv]; omega) k)
    rw [hecoCap, if_pos hosv] at hle
    dsimp only
    omega
  · have hle := (hsplitAll.sublist.countP_le (p := fun rec => rec.isKernel)).trans
      (countP_capKernel_le eco.1 (by rw [hkernelCap, if_pos hosv]; omega))
    rw [hkernelCap, if_pos hosv] at hle
    dsimp only
    omega
  · have hle : all.1.length ≤ settings.maxRecordsPerSource.toNat := length_capSource_le (by omega)
    dsimp only
    omega
  · exact fun a ha b hb => capEcosystems_dominates hsorted (hallEco.subset ha) hb
  · exact fun a ha b hb => capKernel_dominates (hsorted.sublist hsplitEco.sublist)
      (hsplitAll.sublist.subset ha) hb
  · exact fun a ha b hb => capSource_dominates
      (hsorted.sublist (hsplitKernel.sublist.trans hsplitEco.sublist)) ha hb

omit [Unicode] [UpperCase] [FloatOfText] [ReprText] in
theorem exists_cutoff_iff :
    (∃ cutoff, settings.cutoff now = .ok cutoff) ↔ settings.windowDays * dayMicroseconds ≤ now := by
  rw [CurationSettings.cutoff]
  split_ifs with hwindow
  · simp only [bind_eq_ok_iff, check_eq_ok_iff]
    constructor
    · rintro ⟨_, _, hle, -⟩
      exact hle
    · intro hle
      exact ⟨_, (), hle, rfl⟩
  · rw [Nat.eq_zero_of_not_pos hwindow, Nat.zero_mul]
    exact iff_of_true ⟨none, rfl⟩ now.zero_le

omit [Unicode] [UpperCase] [FloatOfText] [ReprText] in
/-- What the cutoff filters is past the age limit. -/
theorem olderThan_iff {cutoff : Option Instant} (h : settings.cutoff now = .ok cutoff)
    (rec : FeedRecord) : rec.olderThan cutoff = true ↔ IsAged settings now rec := by
  rw [CurationSettings.cutoff] at h
  rw [FeedContent.olderThan, IsAged]
  split_ifs at h with hwindow
  · obtain ⟨_, hle, h⟩ := bind_eq_ok_iff.mp h
    cases h
    rw [check_eq_ok_iff] at hle
    rw [Option.any_some, Option.any_eq_true, and_iff_right hwindow]
    refine exists_congr fun t => and_congr_right fun _ => ?_
    rw [decide_eq_true_eq]
    exact Nat.lt_sub_iff_add_lt
  · cases h
    exact iff_of_false Bool.false_ne_true fun hold => hwindow hold.1

/-- A curation that does not fail. -/
theorem curationRun_eq_ok_iff {run : CurationRun} :
    curationRun settings now source records = .ok run ↔
      ∃ cutoff, settings.cutoff now = .ok cutoff ∧ ∃ keyed,
        List.Forall₂ (fun rec p => p.1 = rec ∧ recordSortKey rec = .ok p.2)
          (records.filter fun rec => !rec.olderThan cutoff) keyed ∧
        run = curateSorted settings source (records.filter fun rec => rec.olderThan cutoff)
          ((keyed.insertionSort fun a b => b.2 ≤ a.2).map Prod.fst) := by
  have hstep : ∀ (rec : FeedRecord) (p : FeedRecord × (ℕ ×ₗ Instant)),
      (do return (rec, ← recordSortKey rec) : Except PyError (FeedRecord × (ℕ ×ₗ Instant))) = .ok p ↔
        p.1 = rec ∧ recordSortKey rec = .ok p.2 := by
    intro rec p
    rw [bind_eq_ok_iff]
    constructor
    · rintro ⟨key, hkey, hp⟩
      cases hp
      exact ⟨rfl, hkey⟩
    · rintro ⟨rfl, hkey⟩
      exact ⟨p.2, hkey, rfl⟩
  simp only [curationRun, bind_eq_ok_iff, mapM_eq_ok_iff, hstep]
  refine exists_congr fun cutoff => and_congr_right fun _ =>
    exists_congr fun keyed => and_congr_right fun _ => ?_
  exact ⟨fun h => by cases h; rfl, fun h => by rw [h]; rfl⟩

theorem exists_curationRun_iff (settings : CurationSettings) (now : Instant) (source : Str)
    (records : List FeedRecord) :
    (∃ run, curationRun settings now source records = .ok run) ↔
      settings.windowDays * dayMicroseconds ≤ now ∧
        ∀ rec ∈ records, ¬ IsAged settings now rec → rec.Rankable := by
  simp only [curationRun_eq_ok_iff, ← exists_cutoff_iff, ← exists_recordSortKey_iff]
  constructor
  · rintro ⟨_, cutoff, hcutoff, keyed, hkeyed, -⟩
    refine ⟨⟨cutoff, hcutoff⟩, fun rec hrec hrecent => ?_⟩
    have hmem : rec ∈ records.filter fun rec => !rec.olderThan cutoff := by
      rw [List.mem_filter, Bool.not_eq_true', ← Bool.not_eq_true, olderThan_iff hcutoff]
      exact ⟨hrec, hrecent⟩
    obtain ⟨p, -, -, hkey⟩ := exists_mem_of_forall₂ hkeyed hmem
    exact ⟨p.2, hkey⟩
  · rintro ⟨⟨cutoff, hcutoff⟩, hkeys⟩
    have hall : ∀ rec ∈ records.filter (fun rec => !rec.olderThan cutoff),
        ∃ p : FeedRecord × (ℕ ×ₗ Instant), p.1 = rec ∧ recordSortKey rec = .ok p.2 := by
      intro rec hrec
      rw [List.mem_filter, Bool.not_eq_true', ← Bool.not_eq_true, olderThan_iff hcutoff] at hrec
      obtain ⟨key, hkey⟩ := hkeys rec hrec.1 hrec.2
      exact ⟨(rec, key), rfl, hkey⟩
    obtain ⟨keyed, hkeyed⟩ := exists_forall₂_iff.mpr hall
    exact ⟨_, cutoff, hcutoff, keyed, hkeyed, rfl⟩

/-- A curation that does not fail conserves the records. -/
theorem conserves_of_curationRun {run : CurationRun}
    (h : curationRun settings now source records = .ok run) :
    run.Conserves settings now source records := by
  obtain ⟨cutoff, hcutoff, keyed, hkeyed, rfl⟩ := curationRun_eq_ok_iff.mp h
  have hfst : keyed.map Prod.fst = records.filter fun rec => !rec.olderThan cutoff := by
    have hmap : List.Forall₂ (· = ·) (records.filter fun rec => !rec.olderThan cutoff)
        (keyed.map Prod.fst) :=
      List.forall₂_map_right_iff.mpr (hkeyed.imp fun _ _ hp => hp.1.symm)
    rw [List.forall₂_eq_eq_eq] at hmap
    exact hmap.symm
  have hkeys : ∀ p ∈ keyed, recordSortKey p.1 = .ok p.2 := by
    intro p hp
    obtain ⟨rec, -, rfl, hkey⟩ := exists_mem_of_forall₂ hkeyed.flip hp
    exact hkey
  have hperm := (List.perm_insertionSort (fun a b : FeedRecord × (ℕ ×ₗ Instant) => b.2 ≤ a.2) keyed).map
    Prod.fst
  rw [hfst] at hperm
  refine conserves_curateSorted ?_ ?_ ?_ ?_
  · refine (hperm.append_right _).trans (List.perm_append_comm.trans ?_)
    exact List.filter_append_perm _ records
  · rw [List.pairwise_map]
    have hsorted := List.pairwise_insertionSort
      (fun a b : FeedRecord × (ℕ ×ₗ Instant) => b.2 ≤ a.2) keyed
    refine hsorted.imp_of_mem fun ha hb hle => ?_
    rw [List.mem_insertionSort] at ha hb
    exact ⟨_, _, hkeys _ ha, hkeys _ hb, hle⟩
  · intro rec hrec
    exact (olderThan_iff hcutoff rec).mp (List.mem_filter.mp hrec).2
  · intro rec hrec haged
    have hmem := hperm.subset hrec
    rw [List.mem_filter, (olderThan_iff hcutoff rec).mpr haged] at hmem
    cases hmem.2

/-- Curation conserves the records exactly if the age limit does not reach back before year 1 and
every record within it can be ranked. -/
theorem curation_conserves_iff :
    (∃ run : CurationRun, run.Conserves settings now source records ∧
      applyFeedCuration settings now source records = .ok (run.kept, run.stats records.length)) ↔
    records = [] ∨ settings.windowDays * dayMicroseconds ≤ now ∧
      ∀ rec ∈ records, ¬ IsAged settings now rec → rec.Rankable := by
  by_cases hempty : records = []
  · refine iff_of_true ⟨⟨[], [], [], [], []⟩, ?_, ?_⟩ (.inl hempty)
    · rw [hempty]
      refine ⟨.refl [], .nil, rfl, ?_, ?_, ?_, ?_, ?_, ?_, ?_, ?_⟩ <;> simp <;> omega
    · rw [applyFeedCuration, if_pos hempty, hempty]
      rfl
  · rw [or_iff_right hempty, ← exists_curationRun_iff settings now source records]
    simp only [applyFeedCuration, if_neg hempty, bind_eq_ok_iff]
    constructor
    · rintro ⟨_, -, run, hrun, -⟩
      exact ⟨run, hrun⟩
    · rintro ⟨run, hrun⟩
      exact ⟨run, conserves_of_curationRun hrun, run, hrun, rfl⟩

end Curation

/-! ### An age limit before year 1 -/

/-- An age limit of three thousand years. -/
def longWindow : CurationSettings where
  recentWindowYears := 3000
  recentWindowDays := 730
  osvMaxRecordsPerEcosystem := 400
  linuxKernelMaxRecords := 120
  maxRecordsPerSource := 500

/-- The first day of 2024. -/
def newYear2024 : Instant := 738885 * dayMicroseconds

attribute [local instance] asciiUnicode asciiUpperCase noFloats noRepr

/-- With such a limit the curation of a record fails. -/
theorem not_conserves_longWindow : ¬ ∀ (settings : CurationSettings) (now : Instant) (source : Str)
    (records : List FeedRecord), ∃ run : CurationRun, run.Conserves settings now source records ∧
      applyFeedCuration settings now source records = .ok (run.kept, run.stats records.length) := by
  intro h
  obtain ⟨run, -, hrun⟩ := h longWindow newYear2024 sourceOsv [twiceListed]
  have hfail : applyFeedCuration longWindow newYear2024 sourceOsv [twiceListed] =
      .error .overflowError := by
    rfl
  rw [hfail] at hrun
  cases hrun

end Vat
