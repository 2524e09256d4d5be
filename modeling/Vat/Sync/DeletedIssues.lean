import Mathlib.Data.List.Sort
import Vat.Sync.Queue
import Vat.Transition.Run

/-!
# Issues that were deleted

A tick takes the first findings by id that are not archived, asks Linear for the issues that they
are linked to, and unlinks each finding whose issue is not there; it opens the finding again.

Ticks change neither the ids of the findings nor which of them are archived, so every tick takes the
same findings, and one that is not among them is never checked.

Source: `backend/app/services/sync_service.py`, lines 957–1030;
`backend/app/services/external_links_service.py`, lines 36–86.

## Main definitions

* `UnlinkTick`: what a tick finds.
* `unlinkDeletedLinearIssues`.
* `UnlinkTick.Checks`: a tick checks a finding.
* `Drains`: what is asked of repeated ticks.

## Main results

* `rows_unlinkDeletedLinearIssues`, `rows_states`: a tick, and several, on every row.
* `drains_iff`.
-/

namespace Vat

open Relational Transition

/-! ### One finding -/

/-- The columns of a finding that a tick reads or writes. -/
structure LinearFinding extends TrackedFinding where
  id : Str
  archived : Bool
  deriving DecidableEq

instance : Row LinearFinding Str Str where
  pk := LinearFinding.id
  uk := LinearFinding.id

/-- `has_tracker_link`. -/
def hasTrackerLink (f : TrackedFinding) (key : Str) : Bool :=
  f.externalLinks.any (·.isTracker key)

/-- `remove_tracker_link`. -/
def removeTrackerLink (f : TrackedFinding) (key : Str) : TrackedFinding × Bool :=
  let links := f.externalLinks.filter fun l => !l.isTracker key
  ({ f with externalLinks := links }, links.length < f.externalLinks.length)

/-- `"linear"`. -/
def linearKey : Str := str "linear"

/-- The issue to verify of a finding. -/
def issueToVerify (f : TrackedFinding) : Option Str :=
  (getTrackerIssueUuid f linearKey).filter fun uuid => uuid ≠ [] && hasTrackerLink f linearKey

/-- The entry of the audit. -/
def unlinkedEntry (now : Instant) (issueUuid : Str) : AuditEntry where
  ts := some (floorSecond now)
  user := str "system"
  action := str "Unlinked deleted Linear issue"
  note := some (str "issue_uuid=" ++ issueUuid)

/-- A finding whose issue is not there, if it has a link to remove. -/
def unlinkFinding (now : Instant) (issueUuid : Str) (f : LinearFinding) : LinearFinding :=
  if (removeTrackerLink f.toTrackedFinding linearKey).2 then
    { f with
      externalLinks := (removeTrackerLink f.toTrackedFinding linearKey).1.externalLinks
      status := .open
      syncStatus := some (str "pending_sync")
      syncLastError := none
      syncFailedAt := none
      audit := f.audit ++ [unlinkedEntry now issueUuid] }
  else f

/-- A finding that is to be verified. -/
def verifyFinding (now : Instant) (existing : Str → Bool) (f : LinearFinding) : LinearFinding :=
  match issueToVerify f.toTrackedFinding with
  | none => f
  | some uuid => if existing uuid then f else unlinkFinding now uuid f

/-! ### Ticks -/

/-- What a tick finds: the tracker that is configured, and which issues Linear lists of those that
it is asked for; nothing if the request fails. -/
structure UnlinkTick where
  now : Instant
  trackerKey : Str
  hasCredentials : Bool
  listIssuesByIds : Option (Str → Bool)

/-- The findings that a tick takes. -/
def scannedPage (scanLimit : ℕ) (t : Table LinearFinding) : List LinearFinding :=
  ((t.rows.filter fun f => !f.archived).insertionSort fun a b => ¬ b.id < a.id).take scanLimit

theorem keepsKeys_unlinkFinding (now : Instant) (issueUuid : Str) :
    KeepsKeys (unlinkFinding now issueUuid) := by
  intro f
  rw [unlinkFinding]
  split_ifs <;> exact ⟨rfl, rfl⟩

theorem keepsKeys_verifyFinding (now : Instant) (existing : Str → Bool) :
    KeepsKeys (verifyFinding now existing) := by
  intro f
  rw [verifyFinding]
  split
  · exact ⟨rfl, rfl⟩
  · split_ifs
    · exact ⟨rfl, rfl⟩
    · exact keepsKeys_unlinkFinding now _ f

/-- `unlink_deleted_linear_issues`: the findings, and how many are unlinked. -/
def unlinkDeletedLinearIssues (scanLimit : ℕ) (t : Table LinearFinding) (tick : UnlinkTick) :
    Table LinearFinding × ℕ :=
  if tick.trackerKey ≠ linearKey ∨ ¬ tick.hasCredentials then (t, 0)
  else
    let page := scannedPage scanLimit t
    let toVerify := page.filter fun f => (issueToVerify f.toTrackedFinding).isSome
    if toVerify = [] then (t, 0)
    else
      match tick.listIssuesByIds with
      | none => (t, 0)
      | some existing =>
        (t.mapRows (fun f =>
            if f.id ∈ toVerify.map LinearFinding.id then verifyFinding tick.now existing f else f)
          (.ite _ (keepsKeys_verifyFinding tick.now existing) keepsKeys_id),
        toVerify.countP fun f => verifyFinding tick.now existing f ≠ f)

/-- A tick asks Linear and has an answer. -/
def UnlinkTick.Answered (tick : UnlinkTick) : Prop :=
  tick.trackerKey = linearKey ∧ tick.hasCredentials ∧ tick.listIssuesByIds.isSome

/-- A tick checks a finding. -/
structure UnlinkTick.Checks (tick : UnlinkTick) (scanLimit : ℕ) (t : Table LinearFinding)
    (f : LinearFinding) : Prop where
  answered : tick.Answered
  mem_page : f ∈ scannedPage scanLimit t
  to_verify : (issueToVerify f.toTrackedFinding).isSome

/-- A tick is told of an issue that it does not exist. -/
def UnlinkTick.Misses (tick : UnlinkTick) (issueUuid : Str) : Prop :=
  tick.trackerKey = linearKey ∧ tick.hasCredentials ∧
    ∃ existing ∈ tick.listIssuesByIds, existing issueUuid = false

/-- `RiskAccepted`, `FalsePositive`, `Resolved` and `Duplicate`. -/
def Status.IsDecided (s : Status) : Prop :=
  s ∈ [Status.riskAccepted, .falsePositive, .resolved, .duplicate]

instance : DecidablePred Status.IsDecided := fun s =>
  inferInstanceAs (Decidable (s ∈ [Status.riskAccepted, .falsePositive, .resolved, .duplicate]))

/-! ### A tick on one row -/

variable {scanLimit : ℕ} {t : Table LinearFinding} {tick : UnlinkTick} {f : LinearFinding} {uuid : Str}

/-- What a tick makes of a row: it changes those that it takes and whose issue is missing. -/
def UnlinkTick.onRow (ids : List Str) (tick : UnlinkTick) (f : LinearFinding) : LinearFinding :=
  if tick.trackerKey = linearKey ∧ tick.hasCredentials ∧ f.id ∈ ids then
    tick.listIssuesByIds.elim f fun existing => verifyFinding tick.now existing f
  else f

/-- A finding with an issue to verify has a link to remove. -/
theorem hasTrackerLink_of_issueToVerify {f : TrackedFinding} (h : issueToVerify f = some uuid) :
    hasTrackerLink f linearKey = true := by
  obtain ⟨-, h⟩ := Option.filter_eq_some_iff.mp h
  exact (Bool.and_eq_true _ _ ▸ h).2

theorem removeTrackerLink_snd {f : TrackedFinding} (h : hasTrackerLink f linearKey = true) :
    (removeTrackerLink f linearKey).2 = true := by
  obtain ⟨l, hl, htracker⟩ := List.any_eq_true.mp h
  refine decide_eq_true (List.length_filter_lt_length_iff_exists.mpr ⟨l, hl, ?_⟩)
  rw [htracker]
  decide

/-- An unlinked finding is open and has no issue to verify. -/
theorem unlinkFinding_spec (now : Instant) (h : issueToVerify f.toTrackedFinding = some uuid) :
    (unlinkFinding now uuid f).status = .open ∧
      issueToVerify (unlinkFinding now uuid f).toTrackedFinding = none := by
  rw [unlinkFinding, if_pos (removeTrackerLink_snd (hasTrackerLink_of_issueToVerify h))]
  refine ⟨rfl, Option.filter_eq_none_iff.mpr fun u _ => ?_⟩
  have hnone : ∀ l ∈ f.externalLinks.filter (fun l => !l.isTracker linearKey),
      ¬ l.isTracker linearKey = true := by
    intro l hl
    simpa using (List.mem_filter.mp hl).2
  rw [Bool.and_eq_true, not_and]
  exact fun _ hlink => by
    obtain ⟨l, hl, htracker⟩ := List.any_eq_true.mp hlink
    exact hnone l hl htracker

/-- A tick leaves a row as it is, or else it has missed the issue of the row, and the row is open
again and has no issue. -/
theorem onRow_cases (ids : List Str) (tick : UnlinkTick) (f : LinearFinding) :
    tick.onRow ids f = f ∨
      (f.id ∈ ids ∧ ∃ uuid, issueToVerify f.toTrackedFinding = some uuid ∧ tick.Misses uuid) ∧
        (tick.onRow ids f).status = .open ∧
        issueToVerify (tick.onRow ids f).toTrackedFinding = none := by
  rw [UnlinkTick.onRow]
  split_ifs with htakes
  · cases hlist : tick.listIssuesByIds with
    | none => exact .inl rfl
    | some existing =>
      rw [Option.elim_some, verifyFinding]
      cases hissue : issueToVerify f.toTrackedFinding with
      | none => exact .inl rfl
      | some uuid =>
        dsimp only
        by_cases hexists : existing uuid = true
        · exact .inl (if_pos hexists)
        · rw [if_neg hexists]
          refine .inr ⟨⟨htakes.2.2, uuid, rfl, htakes.1, htakes.2.1, existing, hlist,
            Bool.eq_false_iff.mpr hexists⟩, unlinkFinding_spec tick.now hissue⟩
  · exact .inl rfl

/-- A tick that misses the issue of a row changes it. -/
theorem onRow_of_misses {ids : List Str} (hid : f.id ∈ ids)
    (hissue : issueToVerify f.toTrackedFinding = some uuid) (h : tick.Misses uuid) :
    (tick.onRow ids f).status = .open := by
  obtain ⟨hkey, hcredentials, existing, hlist, hmissing⟩ := h
  rw [UnlinkTick.onRow, if_pos ⟨hkey, hcredentials, hid⟩, hlist, Option.elim_some, verifyFinding,
    hissue]
  dsimp only
  rw [if_neg (Bool.eq_false_iff.mp hmissing)]
  exact (unlinkFinding_spec tick.now hissue).1

theorem onRow_keeps (ids : List Str) (tick : UnlinkTick) (f : LinearFinding) :
    (tick.onRow ids f).id = f.id ∧ (tick.onRow ids f).archived = f.archived := by
  have hunlink : ∀ uuid, (unlinkFinding tick.now uuid f).id = f.id ∧
      (unlinkFinding tick.now uuid f).archived = f.archived := by
    intro uuid
    rw [unlinkFinding]
    split_ifs <;> exact ⟨rfl, rfl⟩
  rw [UnlinkTick.onRow]
  split_ifs
  · cases tick.listIssuesByIds with
    | none => exact ⟨rfl, rfl⟩
    | some existing =>
      rw [Option.elim_some, verifyFinding]
      split
      · exact ⟨rfl, rfl⟩
      · split_ifs
        · exact ⟨rfl, rfl⟩
        · exact hunlink _
  · exact ⟨rfl, rfl⟩

/-! ### Ticks on all rows -/

/-- The ids of the findings that a tick takes. -/
def pageIds (scanLimit : ℕ) (t : Table LinearFinding) : List Str :=
  (scannedPage scanLimit t).map LinearFinding.id

theorem mem_of_mem_scannedPage (h : f ∈ scannedPage scanLimit t) : f ∈ t.rows := by
  have hmem := List.mem_of_mem_take h
  rw [List.mem_insertionSort] at hmem
  exact (List.mem_filter.mp hmem).1

theorem id_mem_pageIds_iff (hf : f ∈ t.rows) :
    f.id ∈ pageIds scanLimit t ↔ f ∈ scannedPage scanLimit t := by
  rw [pageIds, List.mem_map]
  constructor
  · rintro ⟨g, hg, hid⟩
    rwa [← Table.eq_of_pk (mem_of_mem_scannedPage hg) hf hid]
  · exact fun h => ⟨f, h, rfl⟩

/-- A tick changes each row on its own. -/
theorem rows_unlinkDeletedLinearIssues (scanLimit : ℕ) (t : Table LinearFinding) (tick : UnlinkTick) :
    (unlinkDeletedLinearIssues scanLimit t tick).1.rows =
      t.rows.map (tick.onRow (pageIds scanLimit t)) := by
  have hself : (∀ f ∈ t.rows, tick.onRow (pageIds scanLimit t) f = f) →
      t.rows = t.rows.map (tick.onRow (pageIds scanLimit t)) := fun h =>
    ((List.map_congr_left h).trans (List.map_id' t.rows)).symm
  rw [unlinkDeletedLinearIssues]
  split_ifs with hconfigured
  · refine hself fun f _ => if_neg fun h => ?_
    rcases hconfigured with hkey | hcredentials
    · exact hkey h.1
    · exact hcredentials h.2.1
  · rw [not_or, not_not, not_not] at hconfigured
    dsimp only
    -- the rows that are taken and have no issue stay as they are
    have hverify : ∀ existing, ∀ f ∈ t.rows,
        (if f.id ∈ ((scannedPage scanLimit t).filter fun f =>
            (issueToVerify f.toTrackedFinding).isSome).map LinearFinding.id
          then verifyFinding tick.now existing f else f) =
        if f.id ∈ pageIds scanLimit t then verifyFinding tick.now existing f else f := by
      intro existing f hf
      cases hissue : issueToVerify f.toTrackedFinding with
      | none =>
        have hsame : verifyFinding tick.now existing f = f := by rw [verifyFinding, hissue]
        rw [hsame, ite_self, ite_self]
      | some uuid =>
        refine if_congr ?_ rfl rfl
        rw [id_mem_pageIds_iff hf, List.mem_map]
        constructor
        · rintro ⟨g, hg, hid⟩
          obtain ⟨hg, -⟩ := List.mem_filter.mp hg
          rwa [← Table.eq_of_pk (mem_of_mem_scannedPage hg) hf hid]
        · exact fun h => ⟨f, List.mem_filter.mpr ⟨h, by rw [hissue]; rfl⟩, rfl⟩
    have hrow : ∀ existing, tick.listIssuesByIds = some existing → ∀ f,
        tick.onRow (pageIds scanLimit t) f =
          if f.id ∈ pageIds scanLimit t then verifyFinding tick.now existing f else f := by
      intro existing hlist f
      rw [UnlinkTick.onRow, hlist, Option.elim_some]
      exact if_congr (by rw [and_iff_right hconfigured.1, and_iff_right hconfigured.2]) rfl rfl
    cases hlist : tick.listIssuesByIds with
    | none =>
      have hidle : ∀ f ∈ t.rows, tick.onRow (pageIds scanLimit t) f = f := by
        intro f _
        rw [UnlinkTick.onRow, hlist, Option.elim_none, ite_self]
      split_ifs <;> exact hself hidle
    | some existing =>
      split_ifs with hempty
      · refine hself fun f hf => ?_
        rw [hrow existing hlist, ← hverify existing f hf, hempty]
        exact if_neg List.not_mem_nil
      · exact List.map_congr_left fun f hf =>
          (hverify existing f hf).trans (hrow existing hlist f).symm

/-- Rows that keep their ids and their place in the archive are taken as before. -/
theorem scannedPage_of_rows {t' : Table LinearFinding} {g : LinearFinding → LinearFinding}
    (hg : ∀ f, (g f).id = f.id ∧ (g f).archived = f.archived) (h : t'.rows = t.rows.map g) :
    scannedPage scanLimit t' = (scannedPage scanLimit t).map g := by
  have hfilter : (t.rows.map g).filter (fun f => !f.archived) =
      (t.rows.filter fun f => !f.archived).map g := by
    rw [List.filter_map]
    exact congrArg (List.map g) (List.filter_congr fun f _ => by rw [Function.comp_apply, (hg f).2])
  have hsort := List.map_insertionSort (fun a b : LinearFinding => ¬ b.id < a.id)
    (fun a b : LinearFinding => ¬ b.id < a.id) g (t.rows.filter fun f => !f.archived)
    fun a _ b _ => by rw [(hg a).1, (hg b).1]
  rw [scannedPage, scannedPage, h, hfilter, ← hsort, List.map_take]

/-- The table before a tick. -/
def ticked (scanLimit : ℕ) (t : Table LinearFinding) (ticks : ℕ → UnlinkTick) (n : ℕ) :
    Table LinearFinding :=
  states (fun t tick => (unlinkDeletedLinearIssues scanLimit t tick).1) t ticks n

/-- A row before a tick. -/
def tickedRow (ids : List Str) (ticks : ℕ → UnlinkTick) (n : ℕ) (f : LinearFinding) : LinearFinding :=
  states (fun f tick => tick.onRow ids f) f ticks n

theorem tickedRow_keeps (ids : List Str) (ticks : ℕ → UnlinkTick) (n : ℕ) (f : LinearFinding) :
    (tickedRow ids ticks n f).id = f.id ∧ (tickedRow ids ticks n f).archived = f.archived := by
  refine states_induction (fun g : LinearFinding => g.id = f.id ∧ g.archived = f.archived)
    (fun n g hg => ?_) ⟨rfl, rfl⟩ n
  have hkeeps := onRow_keeps ids (ticks n) g
  exact ⟨hkeeps.1.trans hg.1, hkeeps.2.trans hg.2⟩

/-- Ticks take the same findings every time, and change each row on its own. -/
theorem rows_ticked (ticks : ℕ → UnlinkTick) (n : ℕ) :
    (ticked scanLimit t ticks n).rows = t.rows.map (tickedRow (pageIds scanLimit t) ticks n) ∧
      scannedPage scanLimit (ticked scanLimit t ticks n) =
        (scannedPage scanLimit t).map (tickedRow (pageIds scanLimit t) ticks n) := by
  induction n with
  | zero => exact ⟨(List.map_id t.rows).symm, (List.map_id _).symm⟩
  | succ n ih =>
    have hids : pageIds scanLimit (ticked scanLimit t ticks n) = pageIds scanLimit t := by
      rw [pageIds, ih.2, List.map_map]
      exact List.map_congr_left fun f _ => (tickedRow_keeps _ ticks n f).1
    have hrows : (ticked scanLimit t ticks (n + 1)).rows =
        t.rows.map (tickedRow (pageIds scanLimit t) ticks (n + 1)) := by
      rw [ticked, states_succ, rows_unlinkDeletedLinearIssues]
      change (ticked scanLimit t ticks n).rows.map _ = _
      rw [ih.1, List.map_map]
      exact congrArg (fun ids => t.rows.map ((ticks n).onRow ids ∘
        tickedRow (pageIds scanLimit t) ticks n)) hids
    exact ⟨hrows, scannedPage_of_rows (tickedRow_keeps _ ticks (n + 1)) hrows⟩

/-! ### What is asked of repeated ticks -/

/-- Every linked finding is checked at some time, a finding whose issue is not missed keeps its
links, and no tick changes the status of a decided finding. -/
structure Drains (scanLimit : ℕ) (t : Table LinearFinding) (ticks : ℕ → UnlinkTick) : Prop where
  checked : ∀ f ∈ t.rows, hasTrackerLink f.toTrackedFinding linearKey →
    ∃ n, ∃ g, g.id = f.id ∧ (ticks n).Checks scanLimit (ticked scanLimit t ticks n) g
  keeps : ∀ n, ∀ f ∈ (ticked scanLimit t ticks n).rows, ∀ uuid,
    getTrackerIssueUuid f.toTrackedFinding linearKey = some uuid → ¬ (ticks n).Misses uuid →
      ∃ g ∈ (ticked scanLimit t ticks (n + 1)).rows, g.id = f.id ∧ g.externalLinks = f.externalLinks
  statuses : ∀ n, ∀ f ∈ (ticked scanLimit t ticks n).rows, f.status.IsDecided →
    ∃ g ∈ (ticked scanLimit t ticks (n + 1)).rows, g.id = f.id ∧ g.status = f.status

variable {ticks : ℕ → UnlinkTick} {n : ℕ}

theorem mem_ticked {g : LinearFinding} : g ∈ (ticked scanLimit t ticks n).rows ↔
    ∃ f ∈ t.rows, tickedRow (pageIds scanLimit t) ticks n f = g := by
  rw [(rows_ticked ticks n).1, List.mem_map]

/-- The next row of a row. -/
theorem exists_next {g : LinearFinding} (hg : g ∈ (ticked scanLimit t ticks n).rows) :
    (ticks n).onRow (pageIds scanLimit t) g ∈ (ticked scanLimit t ticks (n + 1)).rows := by
  obtain ⟨f, hf, rfl⟩ := mem_ticked.mp hg
  exact mem_ticked.mpr ⟨f, hf, rfl⟩

/-- A row is as it was in the beginning, or it has been unlinked. -/
theorem tickedRow_cases (ids : List Str) (ticks : ℕ → UnlinkTick) (n : ℕ) (f : LinearFinding) :
    tickedRow ids ticks n f = f ∨ (tickedRow ids ticks n f).status = .open ∧
      issueToVerify (tickedRow ids ticks n f).toTrackedFinding = none := by
  refine states_induction (fun g : LinearFinding => g = f ∨ g.status = .open ∧
    issueToVerify g.toTrackedFinding = none) (fun n g hg => ?_) (.inl rfl) n
  rcases onRow_cases ids (ticks n) g with hsame | ⟨-, hopen, hnone⟩
  · rw [hsame]
    exact hg
  · exact .inr ⟨hopen, hnone⟩

/-- A finding keeps its links as long as its issue is not missed. -/
theorem externalLinks_onRow {ids : List Str}
    (huuid : getTrackerIssueUuid f.toTrackedFinding linearKey = some uuid) (h : ¬ tick.Misses uuid) :
    (tick.onRow ids f).externalLinks = f.externalLinks := by
  rcases onRow_cases ids tick f with hsame | ⟨⟨-, uuid', hissue, hmisses⟩, -⟩
  · rw [hsame]
  · obtain ⟨huuid', -⟩ := Option.filter_eq_some_iff.mp hissue
    cases huuid.symm.trans huuid'
    exact absurd hmisses h

/-- A finding on the page with an issue to verify is checked once Linear answers. -/
theorem exists_checks (hanswers : ∃ n, (ticks n).Answered) (hpage : f ∈ scannedPage scanLimit t)
    (hissue : (issueToVerify f.toTrackedFinding).isSome) :
    ∃ n, (ticks n).Checks scanLimit (ticked scanLimit t ticks n) f := by
  have hidle : ∀ g (tick : UnlinkTick), ¬ tick.Answered → tick.onRow (pageIds scanLimit t) g = g := by
    intro g tick hno
    rcases onRow_cases (pageIds scanLimit t) tick g with hsame | ⟨⟨-, uuid, -, hmisses⟩, -⟩
    · exact hsame
    · obtain ⟨hkey, hcredentials, existing, hlist, -⟩ := hmisses
      exact absurd ⟨hkey, hcredentials, Option.isSome_of_mem hlist⟩ hno
  obtain ⟨n, hanswered, hsame⟩ := exists_first (s := f) hidle hanswers
  refine ⟨n, hanswered, ?_, hissue⟩
  rw [(rows_ticked ticks n).2, List.mem_map]
  exact ⟨f, hpage, hsame⟩

/-- Under ticks that keep decisions, the row of a decided finding never changes. -/
theorem tickedRow_eq_self_of_drains (h : Drains scanLimit t ticks) {f : LinearFinding}
    (hf : f ∈ t.rows) (hdecided : f.status.IsDecided) (m : ℕ) :
    tickedRow (pageIds scanLimit t) ticks m f = f := by
  rcases tickedRow_cases (pageIds scanLimit t) ticks m f with hsame | ⟨hopen, -⟩
  · exact hsame
  · have hstatus : ∀ k, (tickedRow (pageIds scanLimit t) ticks k f).status = f.status := by
      intro k
      induction k with
      | zero => rfl
      | succ k ih =>
        obtain ⟨g, hg, hid, hgstatus⟩ := h.statuses k _ (mem_ticked.mpr ⟨f, hf, rfl⟩)
          (by rwa [ih])
        have hnext : tickedRow (pageIds scanLimit t) ticks (k + 1) f = g :=
          Table.eq_of_pk (mem_ticked.mpr ⟨f, hf, rfl⟩) hg
            ((tickedRow_keeps _ ticks (k + 1) f).1.trans
              ((tickedRow_keeps _ ticks k f).1.symm.trans hid.symm))
        rw [hnext, hgstatus, ih]
    rw [← hstatus m, hopen] at hdecided
    exact absurd hdecided (by decide)

/-- Ticks do what is asked of them exactly if every linked finding is on the first page with the
UUID of its issue, and no decided finding on the first page has an issue that is missed. -/
theorem drains_iff (hanswers : ∃ n, (ticks n).Answered) :
    Drains scanLimit t ticks ↔
      (∀ f ∈ t.rows, hasTrackerLink f.toTrackedFinding linearKey →
        f ∈ scannedPage scanLimit t ∧ (issueToVerify f.toTrackedFinding).isSome) ∧
      ∀ f ∈ scannedPage scanLimit t, f.status.IsDecided → ∀ uuid,
        issueToVerify f.toTrackedFinding = some uuid → ∀ n, ¬ (ticks n).Misses uuid := by
  constructor
  · intro h
    refine ⟨fun f hf hlinked => ?_, fun f hf hdecided uuid hissue n hmisses => ?_⟩
    · obtain ⟨n, g, hid, -, hpage, hg⟩ := h.checked f hf hlinked
      rw [(rows_ticked ticks n).2, List.mem_map] at hpage
      obtain ⟨f', hf', rfl⟩ := hpage
      obtain rfl : f' = f := Table.eq_of_pk (mem_of_mem_scannedPage hf') hf
        ((tickedRow_keeps _ ticks n f').1.symm.trans hid)
      rcases tickedRow_cases (pageIds scanLimit t) ticks n f' with hsame | ⟨-, hnone⟩
      · rw [hsame] at hg
        exact ⟨hf', hg⟩
      · rw [hnone] at hg
        cases hg
    · have hmem := mem_of_mem_scannedPage hf
      have hsame := tickedRow_eq_self_of_drains h hmem hdecided
      have hopen := onRow_of_misses ((id_mem_pageIds_iff hmem).mpr hf) hissue hmisses
      have hstep : (ticks n).onRow (pageIds scanLimit t) f = f := by
        have hnext := hsame (n + 1)
        change (ticks n).onRow _ (tickedRow _ ticks n f) = f at hnext
        rwa [hsame n] at hnext
      rw [hstep] at hopen
      rw [hopen] at hdecided
      exact absurd hdecided (by decide)
  · rintro ⟨hlinked, hdecided⟩
    refine ⟨fun f hf hlink => ?_, fun n f hf uuid huuid hmisses => ?_, fun n f hf hstatus => ?_⟩
    · obtain ⟨hpage, hissue⟩ := hlinked f hf hlink
      obtain ⟨n, hchecks⟩ := exists_checks hanswers hpage hissue
      exact ⟨n, f, rfl, hchecks⟩
    · exact ⟨_, exists_next hf, (onRow_keeps _ _ f).1, externalLinks_onRow huuid hmisses⟩
    · refine ⟨_, exists_next hf, (onRow_keeps _ _ f).1, ?_⟩
      rcases onRow_cases (pageIds scanLimit t) (ticks n) f with
        hsame | ⟨⟨hid, uuid, hissue, hmisses⟩, -⟩
      · rw [hsame]
      · obtain ⟨f', hf', rfl⟩ := mem_ticked.mp hf
        rcases tickedRow_cases (pageIds scanLimit t) ticks n f' with hsame | ⟨-, hnone⟩
        · rw [hsame] at hid hissue hstatus
          exact absurd hmisses
            (hdecided f' ((id_mem_pageIds_iff hf').mp hid) hstatus uuid hissue n)
        · rw [hnone] at hissue
          cases hissue

/-! ### An accepted risk whose issue was deleted -/

/-- A finding with a link to an issue. -/
def linkedFinding (status : Status) : LinearFinding where
  status := status
  externalLinks := [⟨linearKey, str "tracker", str "ENG-1", none, 0, 0, [], some (str "uuid-1")⟩]
  syncStatus := some (str "synced")
  syncLastError := none
  syncFailedAt := none
  audit := []
  id := str "f-1"
  archived := false

/-- Linear does not list the issue. -/
def missingIssue : UnlinkTick := ⟨0, linearKey, true, some fun _ => false⟩

/-- Linear lists the issue. -/
def presentIssue : UnlinkTick := ⟨0, linearKey, true, some fun _ => true⟩

/-- A tick opens an accepted risk again. -/
theorem not_drains_accepted : ¬ ∀ (scanLimit : ℕ) (t : Table LinearFinding) (ticks : ℕ → UnlinkTick),
    (∃ n, (ticks n).Answered) → Drains scanLimit t ticks := by
  intro h
  have hdrains := h 2000 (.singleton (linkedFinding .riskAccepted)) (fun _ => missingIssue)
    ⟨0, rfl, rfl, rfl⟩
  obtain ⟨g, hg, -, hstatus⟩ := hdrains.statuses 0 (linkedFinding .riskAccepted)
    (List.mem_singleton_self _) (by decide)
  have hopen : ∀ g ∈ (ticked 2000 (.singleton (linkedFinding .riskAccepted))
      (fun _ => missingIssue) 1).rows, g.status = .open := by
    decide +kernel
  rw [hopen g hg] at hstatus
  cases hstatus

/-- An accepted risk whose issue is there. -/
theorem drains_accepted :
    Drains 2000 (.singleton (linkedFinding .riskAccepted)) fun _ => presentIssue := by
  refine (drains_iff ⟨0, rfl, rfl, rfl⟩).mpr ⟨fun f hf _ => ?_, fun f _ _ uuid _ n hmisses => ?_⟩
  · obtain rfl := List.mem_singleton.mp hf
    exact ⟨by decide +kernel, by decide⟩
  · obtain ⟨-, -, existing, hlist, hno⟩ := hmisses
    cases hlist
    cases hno

end Vat
