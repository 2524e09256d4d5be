import Vat.Inbound.AtMostOnce
import Vat.Transition.Run

/-!
# Polls of a tracked issue

A poll reads the description of a linked issue and then its comments, and applies the blocks that
come in under a new idempotency key. The key of a description has its first 200 characters and no
date. An exception ends the poll.

The polls of an issue are followed through their reports alone: which blocks have been applied is
given by the keys (`claimsOfBatches`), and the finding shows the last of them.

Source: `backend/app/services/linear_poll_service.py`, lines 100–210;
`backend/app/services/linear_parsed_service.py`, lines 18–83.

## Main definitions

* `PolledIssue`: what a poll reads of an issue.
* `pollIssue`: what it does with it.
* `newReports`: the reports of a run of polls that come in under a new key.

## Main results

* `run_pollIssue`: the finding of the issue shows the last block that came in under a new key.
* `shows_description_iff`: when a poll leaves the finding as its description says.
-/

namespace Vat

open Transition

/-! ### Polls -/

/-- A comment in a poll. -/
structure PolledComment where
  id : Str
  createdAt : Str
  body : Str

/-- An issue in a poll. -/
structure PolledIssue where
  title : Str
  description : Str
  comments : List PolledComment

/-- The description and the comments of an issue as deliveries; only a webhook has the fields left
empty here. -/
def PolledIssue.deliveries (issue : IssueRef) (p : PolledIssue) : List (Delivery TrackerEdit) :=
  let polled (edit : TrackerEdit) : Delivery TrackerEdit := ⟨edit, .poll, p.title, p.description, true⟩
  polled (.description ⟨p.description, [], issue, [], issue⟩) ::
    p.comments.map fun c => polled (.comment ⟨c.id, c.createdAt, c.body, [], issue, [], issue⟩)

section Polls

variable [Unicode] [UpperCase] [CharTables] [TextMatching] [Sha256]

/-- Whether the update for a delivery raises. -/
def Delivery.raises (s : InboundDb TrackerEdit) (d : Delivery TrackerEdit) : Bool :=
  match d.report id with
  | none => false
  | some r =>
    match s.claimWebhook r.key with
    | none => false
    | some s => (s.applyVatParsedUpdate d.edit r).isNone

/-- The deliveries of a poll one after the other, up to an update that raises. -/
def handleInTurn : InboundDb TrackerEdit → List (Delivery TrackerEdit) → InboundDb TrackerEdit
  | s, [] => s
  | s, d :: ds => if d.raises s then s else handleInTurn (receive id s d) ds

/-- The part of `poll_linear_for_updates` that is about an issue. -/
def pollIssue (issue : IssueRef) (s : InboundDb TrackerEdit) (p : PolledIssue) :
    InboundDb TrackerEdit := handleInTurn s (p.deliveries issue)

/-! ### What a finding shows -/

/-- The status, the justification and the compensating controls that a block asks for. -/
def VatBlock.parsedFields (b : VatBlock) : Option Status × Option Str × Option Str :=
  (statusToEnum b.status, some b.justification, some b.compensatingControls)

/-- The same fields of a finding. -/
def LinkedFinding.parsedFields (f : LinkedFinding) : Option Status × Option Str × Option Str :=
  (some f.status, f.justification, f.compensatingControls)

/-- A report whose status names none. -/
def Report.unknownStatus (r : Report) : Bool := (statusToEnum r.parsed.status).isNone

/-- The reports of a poll. -/
def PolledIssue.reports (issue : IssueRef) (p : PolledIssue) : List Report :=
  (p.deliveries issue).filterMap (Delivery.report id)

/-- The reports of a run of polls that come in under a new key, in each poll up to one with an
unknown status. -/
def newReports (issue : IssueRef) (taken : List Str) (polls : List PolledIssue) : List Report :=
  claimsOfBatches Report.key Report.unknownStatus taken (polls.map (·.reports issue))

/-- The fields after some reports. -/
def fieldsAfter (fields : Option Status × Option Str × Option Str) (reports : List Report) :
    Option Status × Option Str × Option Str :=
  (reports.getLast?.map fun r => r.parsed.parsedFields).getD fields

omit [Unicode] [UpperCase] [CharTables] [TextMatching] [Sha256] in
@[simp]
theorem fieldsAfter_nil (fields : Option Status × Option Str × Option Str) :
    fieldsAfter fields [] = fields := rfl

omit [Unicode] [UpperCase] [CharTables] [TextMatching] [Sha256] in
theorem fieldsAfter_cons (fields : Option Status × Option Str × Option Str) (r : Report)
    (reports : List Report) :
    fieldsAfter fields (r :: reports) = fieldsAfter r.parsed.parsedFields reports := by
  cases reports with
  | nil => rfl
  | cons r' reports => rw [fieldsAfter, fieldsAfter, List.getLast?_cons_cons]; rfl

omit [Unicode] [UpperCase] [CharTables] [TextMatching] [Sha256] in
theorem fieldsAfter_append (fields : Option Status × Option Str × Option Str)
    (reports reports' : List Report) :
    fieldsAfter fields (reports ++ reports') =
      fieldsAfter (fieldsAfter fields reports) reports' := by
  induction reports generalizing fields with
  | nil => rfl
  | cons r reports ih => rw [List.cons_append, fieldsAfter_cons, ih, fieldsAfter_cons]

/-! ### Reports -/

/-- The reports of a poll are about the issue and have a status. -/
theorem report_of_mem_deliveries {issue : IssueRef} {p : PolledIssue} {d : Delivery TrackerEdit}
    {r : Report} (hd : d ∈ p.deliveries issue) (hr : d.report id = some r) :
    d.commits = true ∧ r.issueId = issue.name ∧ r.issueUuid = issue.id ∧ r.parsed.status ≠ [] := by
  rw [PolledIssue.deliveries, List.mem_cons, List.mem_map] at hd
  rcases hd with rfl | ⟨c, -, rfl⟩
  · obtain ⟨b, hb, rfl⟩ := Option.map_eq_some_iff.mp hr
    exact ⟨rfl, rfl, rfl, parseVatBlock_status_ne_nil hb⟩
  · obtain ⟨b, hb, rfl⟩ := Option.map_eq_some_iff.mp hr
    obtain ⟨b', hb', hfits⟩ := Option.bind_eq_some_iff.mp hb
    dsimp only at hfits
    split at hfits
    · obtain rfl := Option.some.inj hfits
      exact ⟨rfl, rfl, rfl, parseVatBlock_status_ne_nil hb'⟩
    · simp at hfits

omit [Unicode] [UpperCase] [CharTables] [TextMatching] [Sha256] in
/-- A finding shows the block that was applied to it. -/
theorem LinkedFinding.parsedFields_edited {b : VatBlock} {status : Status} (f : LinkedFinding)
    (h : statusToEnum b.status = some status) :
    (f.edited b status).parsedFields = b.parsedFields := by
  rw [VatBlock.parsedFields, h]
  rfl

/-! ### Deliveries in turn -/

section InTurn

variable {s : InboundDb TrackerEdit} {d : Delivery TrackerEdit} {r : Report} {f : LinkedFinding}

/-- A delivery without a block, or with a key that is taken, leaves everything as it is. -/
theorem handleInTurn_of_passed (h : ∀ r, d.report id = some r → r.key ∈ s.keys)
    (ds : List (Delivery TrackerEdit)) : handleInTurn s (d :: ds) = handleInTurn s ds := by
  rw [handleInTurn, Delivery.raises, receive]
  cases hr : d.report id with
  | none => rfl
  | some r => simp [InboundDb.claimWebhook, h r hr]

/-- One with an unknown status raises, and the rest of the poll is not looked at. -/
theorem handleInTurn_of_unknown (hr : d.report id = some r) (hkey : r.key ∉ s.keys)
    (hf : findLinked s.findings r = some f) (hstatus : r.parsed.statusFor f.status = none)
    (ds : List (Delivery TrackerEdit)) : handleInTurn s (d :: ds) = s := by
  have hraises : d.raises s = true := by
    simp [Delivery.raises, hr, InboundDb.claimWebhook, hkey, InboundDb.applyVatParsedUpdate, hf,
      hstatus]
  rw [handleInTurn, hraises, if_pos rfl]

/-- Any other takes its key and edits the finding. -/
theorem handleInTurn_of_known {status : Status} (hcommits : d.commits = true)
    (hr : d.report id = some r) (hkey : r.key ∉ s.keys) (hf : findLinked s.findings r = some f)
    (hstatus : r.parsed.statusFor f.status = some status) (ds : List (Delivery TrackerEdit)) :
    handleInTurn s (d :: ds) =
      handleInTurn ⟨s.findings.map fun g => if g.id = f.id then g.edited r.parsed status else g,
        ⟨r.key⟩ :: s.webhookEvents, s.applied ++ [(d.edit, f.id)]⟩ ds := by
  have hraises : d.raises s = false := by
    simp [Delivery.raises, hr, InboundDb.claimWebhook, hkey, InboundDb.applyVatParsedUpdate, hf,
      hstatus]
  rw [handleInTurn, hraises, if_neg Bool.false_ne_true,
    receive_of_findLinked hcommits hr hkey hf hstatus]

end InTurn

/-! ### Runs -/

/-- The deliveries of a poll of a linked issue: the keys that they take and what its finding shows
afterwards. -/
theorem handleInTurn_spec {issue : IssueRef} {f : LinkedFinding} {ds : List (Delivery TrackerEdit)}
    (hds : ∀ d ∈ ds, ∀ r, d.report id = some r → d.commits = true ∧ r.issueId = issue.name ∧
      r.issueUuid = issue.id ∧ r.parsed.status ≠ [])
    {s : InboundDb TrackerEdit} (hlinked : findByIssue s.findings issue.name issue.id = some f) :
    (handleInTurn s ds).keys = takenAfter Report.key s.keys
        (claimsUntil Report.key Report.unknownStatus s.keys (ds.filterMap (Delivery.report id))) ∧
      ∃ f', findByIssue (handleInTurn s ds).findings issue.name issue.id = some f' ∧
        f'.parsedFields = fieldsAfter f.parsedFields
          (claimsUntil Report.key Report.unknownStatus s.keys
            (ds.filterMap (Delivery.report id))) := by
  induction ds generalizing s f with
  | nil => exact ⟨by simp [handleInTurn, claimsUntil, takenAfter], f, hlinked, rfl⟩
  | cons d ds ih =>
    have hds' : ∀ d ∈ ds, ∀ r, d.report id = some r → d.commits = true ∧ r.issueId = issue.name ∧
        r.issueUuid = issue.id ∧ r.parsed.status ≠ [] :=
      fun d hd => hds d (List.mem_cons_of_mem _ hd)
    cases hr : d.report id with
    | none =>
      rw [List.filterMap_cons_none hr, handleInTurn_of_passed (by simp [hr])]
      exact ih hds' hlinked
    | some r =>
      obtain ⟨hcommits, hid, huuid, hne⟩ := hds d List.mem_cons_self r hr
      rw [List.filterMap_cons_some hr, claimsUntil]
      by_cases hkey : r.key ∈ s.keys
      · rw [if_pos hkey, handleInTurn_of_passed (by simp [hr, hkey])]
        exact ih hds' hlinked
      · have hfound : findLinked s.findings r = some f := by
          rw [findLinked, hid, huuid, hlinked, Option.some_or]
        have hfor : r.parsed.statusFor f.status = statusToEnum r.parsed.status := by
          rw [VatBlock.statusFor, if_neg hne]
        rw [if_neg hkey]
        cases hstatus : statusToEnum r.parsed.status with
        | none =>
          rw [handleInTurn_of_unknown hr hkey hfound (hfor.trans hstatus),
            if_pos (by simp [Report.unknownStatus, hstatus])]
          exact ⟨by simp [takenAfter], f, hlinked, rfl⟩
        | some status =>
          have hknown : ¬ r.unknownStatus := by simp [Report.unknownStatus, hstatus]
          rw [handleInTurn_of_known hcommits hr hkey hfound (hfor.trans hstatus), if_neg hknown,
            fieldsAfter_cons, ← f.parsedFields_edited hstatus]
          obtain ⟨ihkeys, f', hf', hfields⟩ := ih hds' (f := f.edited r.parsed status)
            (s := ⟨s.findings.map fun g => if g.id = f.id then g.edited r.parsed status else g,
              ⟨r.key⟩ :: s.webhookEvents, s.applied ++ [(d.edit, f.id)]⟩) (by
            rw [findByIssue_map (keepsLinks_edited f.id r.parsed status), hlinked]
            simp)
          refine ⟨?_, f', hf', hfields⟩
          rw [ihkeys]
          simp [takenAfter, InboundDb.keys]

/-- Polls of a linked issue: its finding shows the last block that came in under a new key. -/
theorem run_pollIssue {issue : IssueRef} (polls : List PolledIssue) {f : LinkedFinding}
    {s : InboundDb TrackerEdit} (hlinked : findByIssue s.findings issue.name issue.id = some f) :
    ∃ f', findByIssue (run (pollIssue issue) s polls).findings issue.name issue.id = some f' ∧
      f'.parsedFields = fieldsAfter f.parsedFields (newReports issue s.keys polls) := by
  induction polls generalizing s f with
  | nil => exact ⟨f, hlinked, rfl⟩
  | cons p polls ih =>
    obtain ⟨hkeys, g, hg, hfields⟩ :=
      handleInTurn_spec (fun d hd r hr => report_of_mem_deliveries hd hr) hlinked
    obtain ⟨f', hf', hfields'⟩ := ih hg
    refine ⟨f', hf', ?_⟩
    have later : newReports issue s.keys (p :: polls) =
        claimsUntil Report.key Report.unknownStatus s.keys (p.reports issue) ++
          newReports issue (pollIssue issue s p).keys polls := by
      rw [pollIssue, hkeys]
      rfl
    rw [hfields', hfields, later, fieldsAfter_append]
    rfl

/-- The finding of the issue is as the block in the description of a poll says, if it has one. -/
def ShowsDescription (issue : IssueRef) (s : InboundDb TrackerEdit) (p : PolledIssue) : Prop :=
  ∀ b, parseVatBlockFromText p.description none = some b →
    (findByIssue s.findings issue.name issue.id).map LinkedFinding.parsedFields =
      some b.parsedFields

/-- After a poll the finding of the issue is as the block in the description says exactly if the
last of the blocks that came in so far under a new key says the same. -/
theorem shows_description_iff {issue : IssueRef} {f : LinkedFinding} {s : InboundDb TrackerEdit}
    (hlinked : findByIssue s.findings issue.name issue.id = some f) (before : List PolledIssue)
    (p : PolledIssue) :
    ShowsDescription issue (run (pollIssue issue) s (before ++ [p])) p ↔
      ∀ b, parseVatBlockFromText p.description none = some b →
        fieldsAfter f.parsedFields (newReports issue s.keys (before ++ [p])) = b.parsedFields := by
  obtain ⟨f', hf', hfields⟩ := run_pollIssue (before ++ [p]) hlinked
  simp only [ShowsDescription, hf', Option.map_some, Option.some_inj, hfields]

end Polls

/-! ### An edit that is lost -/

section Lost

attribute [local instance] asciiUnicode asciiUpperCase asciiCharTables noTextMatching unaryDigest

/-- An issue without comments. -/
def describedIssue (description : Str) : PolledIssue := ⟨[], description, []⟩

/-- Two descriptions. -/
def mitigatedText : Str := str "[VAT] C-1\nstatus: mitigated\njustification: a"

def falsePositiveText : Str := str "[VAT] C-1\nstatus: false-positive\njustification: b"

theorem parse_mitigatedText : parseVatBlockFromText mitigatedText none =
    some ⟨str "C-1", str "Mitigated", str "a", []⟩ := by
  decide +kernel

/-- The first poll of an issue leaves its finding as the description says. -/
theorem shows_description_mitigated :
    ShowsDescription ⟨str "ENG-1", str "u1"⟩
      (run (pollIssue ⟨str "ENG-1", str "u1"⟩) ⟨[engFinding], [], []⟩
        ([] ++ [describedIssue mitigatedText])) (describedIssue mitigatedText) := by
  refine (shows_description_iff (f := engFinding) (by decide) [] _).mpr fun b hb => ?_
  obtain rfl := Option.some.inj (parse_mitigatedText.symm.trans hb)
  decide +kernel

/-- A description that returns to an earlier text is not applied again. -/
theorem not_shows_description :
    ¬ ∀ (issue : IssueRef) (s : InboundDb TrackerEdit) (f : LinkedFinding),
      findByIssue s.findings issue.name issue.id = some f →
      ∀ (before : List PolledIssue) (p : PolledIssue),
        ShowsDescription issue (run (pollIssue issue) s (before ++ [p])) p := by
  intro h
  have shown := h ⟨str "ENG-1", str "u1"⟩ ⟨[engFinding], [], []⟩ engFinding (by decide)
    [describedIssue mitigatedText, describedIssue falsePositiveText] (describedIssue mitigatedText)
    _ parse_mitigatedText
  revert shown
  decide +kernel

end Lost

end Vat
