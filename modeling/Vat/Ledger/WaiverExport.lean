import Vat.Model.Database
import Vat.Identity.Dedup

/-!
# The exported registry of waivers

The registry lists the risk acceptances of the ledger, each with the finding of the one link that is
kept for its decision, and after them the exported findings with that status that no decision names.
The order in which the database answers is a parameter.

Source: `backend/app/services/decision_ledger.py`, lines 722–822 and 918–994.

## Main definitions

* `listWaiverDecisions`, `waiverRecordsForExport`, `buildWaiverExportRecords`.
* `IsExactRegistry`: what the registry owes to the exported findings and to the ledger.
* `namedFinding`: the finding that the record of a decision names.

## Main results

* `isExactRegistry_iff`.
-/

namespace Vat

open Relational

/-! ### Records -/

/-- A text or `None` as a JSON value. -/
def jsonText : Option Str → JsonValue
  | none => .null
  | some s => .text s

/-- What a record says of the finding, or of the snapshot of one that is gone. -/
structure WaiverSubject where
  cveId : JsonValue
  title : JsonValue
  severity : JsonValue
  component : JsonValue
  image : JsonValue
  ruleId : JsonValue
  controlRef : JsonValue

/-- A record of `list_waiver_decisions`. -/
structure WaiverRecord where
  decisionId : Str
  subjectKey : Str
  tenantId : Str
  findingId : Option Str
  linked : Bool
  findingType : Str
  status : Status
  subject : WaiverSubject
  attestation : JsonObject
  justification : Option Str
  decisionVersion : ℕ
  updatedAt : Instant

/-- What is exported of an attestation. -/
structure WaiverTerms where
  waiverRef : JsonValue
  approver : JsonValue
  approverTitle : JsonValue
  approvedAt : JsonValue
  expiresAt : JsonValue

/-- A record of the registry. -/
structure WaiverExport where
  decisionId : Option Str
  subjectKey : Option Str
  findingId : Option Str
  linked : Bool
  subject : WaiverSubject
  terms : WaiverTerms
  justification : JsonValue

/-- An exported finding: its id is not empty. -/
structure ExportRow where
  id : Str
  id_ne : id ≠ []
  /-- The status as it is shown. -/
  status : Str
  subject : WaiverSubject
  attestation : Option JsonObject
  justification : JsonValue

/-- The terms in an attestation, which may be missing. -/
def waiverTerms (att : JsonObject) : WaiverTerms where
  waiverRef := att.get (str "waiverRef")
  approver := att.get (str "approver")
  approverTitle := att.get (str "approverTitle")
  approvedAt := att.get (str "approvedAt")
  expiresAt := att.get (str "expiresAt")

/-- The subject of a decision: its finding, or else its snapshot. -/
def waiverSubject (d : TriageDecision) : Option Finding → WaiverSubject
  | some f => ⟨.text f.cveId, jsonText f.title, .text f.severity.value, jsonText f.component,
      jsonText f.image, jsonText f.ruleId, jsonText f.controlRef⟩
  | none =>
    match d.identitySnapshot with
    | some snap => ⟨.text snap.cveId, jsonText snap.title, .text snap.severity.value,
        jsonText snap.component, jsonText snap.image, jsonText snap.ruleId,
        jsonText snap.controlRef⟩
    | none => ⟨.text [], .null, .null, .null, .null, .null, .null⟩

/-- The type of the finding of a decision. -/
def waiverFindingType (d : TriageDecision) (finding : Option Finding) : FindingType :=
  match finding, d.identitySnapshot with
  | some f, _ => f.findingType
  | none, some snap => snap.findingType
  | none, none => d.findingType

/-- `_waiver_record_from_decision`. -/
def waiverRecordFromDecision (d : TriageDecision) (finding : Option Finding)
    (findingId : Option Str) (linked : Bool) : WaiverRecord where
  decisionId := d.id
  subjectKey := d.subjectKey
  tenantId := d.tenantId
  findingId := (finding.map Finding.id).or findingId
  linked := linked
  findingType := (waiverFindingType d finding).value
  status := d.status
  subject := waiverSubject d finding
  attestation := d.attestation.getD []
  justification := d.justification
  decisionVersion := d.decisionVersion
  updatedAt := d.updatedAt

/-! ### The ledger -/

/-- The order in which the database answers a query: any. -/
structure LedgerOrder where
  decisions : List TriageDecision → List TriageDecision
  decisions_perm : ∀ rows, (decisions rows).Perm rows
  links : List DecisionFindingLink → List DecisionFindingLink
  links_perm : ∀ rows, (links rows).Perm rows

/-- Whose waivers are asked for. -/
structure WaiverScope where
  tenantId : Option Str
  crossTenant : Bool

/-- A decision in the scope of a query. -/
def WaiverScope.Covers (scope : WaiverScope) (d : TriageDecision) : Prop :=
  scope.crossTenant ∨ d.tenantId = normalizeTenantId scope.tenantId

instance (scope : WaiverScope) (d : TriageDecision) : Decidable (scope.Covers d) :=
  inferInstanceAs (Decidable (_ ∨ _))

variable (o : LedgerOrder) (cfg : Settings) (db : Db) (scope : WaiverScope)

/-- The decisions that are listed. -/
def waiverDecisions : List TriageDecision :=
  if cfg.decisionLedgerEnabled then
    o.decisions (db.decisions.rows.filter fun d =>
      d.status = .riskAccepted ∧ d.attestation.isSome ∧ scope.Covers d)
  else []

/-- The links of the listed decisions that are active. -/
def waiverLinks : List DecisionFindingLink :=
  o.links (db.links.rows.filter fun l =>
    l.decisionId ∈ (waiverDecisions o cfg db scope).map TriageDecision.id ∧ l.unlinkedAt = none)

/-- `link_by_decision.get(decision.id)`: the last link of the decision. -/
def linkByDecision (d : TriageDecision) : Option DecisionFindingLink :=
  ((waiverLinks o cfg db scope).filter fun l => l.decisionId = d.id).getLast?

/-- The finding that the record of a decision names. -/
def namedFinding (d : TriageDecision) : Option Str :=
  match linkByDecision o cfg db scope d with
  | some l => some l.findingId
  | none => d.lastFindingId

/-- The record of a decision. -/
def waiverRecord (d : TriageDecision) : WaiverRecord :=
  let finding := (linkByDecision o cfg db scope d).bind fun l => db.findings.get? l.findingId
  waiverRecordFromDecision d finding (namedFinding o cfg db scope d) finding.isSome

/-- `list_waiver_decisions`, for all assets. -/
def listWaiverDecisions : List WaiverRecord :=
  (waiverDecisions o cfg db scope).map (waiverRecord o cfg db scope)

/-! ### The registry -/

/-- A record of `waiver_records_for_export`. -/
def waiverRecordForExport (rec : WaiverRecord) : WaiverExport where
  decisionId := some rec.decisionId
  subjectKey := some rec.subjectKey
  findingId := rec.findingId
  linked := rec.linked
  subject := rec.subject
  terms := waiverTerms rec.attestation
  justification := jsonText rec.justification

/-- `waiver_records_for_export`. -/
def waiverRecordsForExport (records : List WaiverRecord) : List WaiverExport :=
  records.map waiverRecordForExport

/-- `_finding_row_to_waiver`. -/
def findingRowToWaiver (f : ExportRow) : WaiverExport where
  decisionId := none
  subjectKey := none
  findingId := some f.id
  linked := true
  subject := f.subject
  terms := waiverTerms (f.attestation.getD [])
  justification := f.justification

/-- The exported findings with the status. -/
def acceptedRows (findingRows : List ExportRow) : List ExportRow :=
  findingRows.filter fun f => f.status = str "Risk Accepted"

/-- `build_waiver_export_records`. -/
def buildWaiverExportRecords (findingRows : List ExportRow) : List WaiverExport :=
  let ledgerRows := waiverRecordsForExport (listWaiverDecisions o cfg db scope)
  let accepted := acceptedRows findingRows
  if ledgerRows ≠ [] then
    let covered := (ledgerRows.map fun r => Str.orEmpty r.findingId).filter (· ≠ [])
    accepted.foldl (fun rows f => if f.id ∈ covered then rows else rows ++ [findingRowToWaiver f])
      ledgerRows
  else accepted.map findingRowToWaiver

/-! ### What is exported -/

variable {o cfg db scope} {findingRows : List ExportRow}

theorem findingId_waiverRecord (d : TriageDecision) :
    (waiverRecord o cfg db scope d).findingId = namedFinding o cfg db scope d := by
  change (((linkByDecision o cfg db scope d).bind fun l =>
    db.findings.get? l.findingId).map Finding.id).or (namedFinding o cfg db scope d) = _
  rw [namedFinding]
  cases linkByDecision o cfg db scope d with
  | none => rfl
  | some l =>
    rw [Option.bind_some]
    cases hf : db.findings.get? l.findingId with
    | some f => exact congrArg some (Table.pk_of_get? hf)
    | none => rfl

/-- The record of a decision in the registry. -/
def ledgerExport (o : LedgerOrder) (cfg : Settings) (db : Db) (scope : WaiverScope)
    (d : TriageDecision) : WaiverExport :=
  waiverRecordForExport (waiverRecord o cfg db scope d)

theorem findingId_ledgerExport (d : TriageDecision) :
    (ledgerExport o cfg db scope d).findingId = namedFinding o cfg db scope d :=
  findingId_waiverRecord d

/-- A decision of the list names the finding with an id. -/
def HasWaiver (o : LedgerOrder) (cfg : Settings) (db : Db) (scope : WaiverScope) (id : Str) :
    Prop :=
  ∃ d ∈ waiverDecisions o cfg db scope, namedFinding o cfg db scope d = some id

instance (id : Str) : Decidable (HasWaiver o cfg db scope id) :=
  inferInstanceAs (Decidable (∃ d ∈ waiverDecisions o cfg db scope, _))

theorem foldl_append_unless {α β : Type} (p : α → Prop) [DecidablePred p] (g : α → β) (l : List α)
    (init : List β) :
    l.foldl (fun rows a => if p a then rows else rows ++ [g a]) init =
      init ++ (l.filter fun a => ¬ p a).map g := by
  induction l generalizing init with
  | nil => simp
  | cons a l ih =>
    rw [List.foldl_cons, ih]
    by_cases h : p a
    · rw [if_pos h, List.filter_cons_of_neg (by simpa using h)]
    · rw [if_neg h, List.filter_cons_of_pos (by simpa using h), List.map_cons, List.append_assoc,
        List.singleton_append]

/-- The registry: the records of the decisions, then the findings that none of them names. -/
theorem buildWaiverExportRecords_eq : buildWaiverExportRecords o cfg db scope findingRows =
    (waiverDecisions o cfg db scope).map (ledgerExport o cfg db scope) ++
      ((acceptedRows findingRows).filter fun f => ¬ HasWaiver o cfg db scope f.id).map
        findingRowToWaiver := by
  have hrows : waiverRecordsForExport (listWaiverDecisions o cfg db scope) =
      (waiverDecisions o cfg db scope).map (ledgerExport o cfg db scope) := List.map_map
  have hcovered : ∀ f : ExportRow, f.id ∈ ((waiverRecordsForExport
      (listWaiverDecisions o cfg db scope)).map fun r => Str.orEmpty r.findingId).filter (· ≠ []) ↔
        HasWaiver o cfg db scope f.id := by
    intro f
    rw [hrows, List.mem_filter, List.mem_map, decide_eq_true_eq]
    constructor
    · rintro ⟨⟨r, hr, heq⟩, -⟩
      obtain ⟨d, hd, rfl⟩ := List.mem_map.mp hr
      refine ⟨d, hd, ?_⟩
      rw [findingId_ledgerExport] at heq
      cases hnamed : namedFinding o cfg db scope d with
      | none =>
        rw [hnamed] at heq
        exact absurd heq.symm f.id_ne
      | some id =>
        rw [hnamed] at heq
        exact congrArg some heq
    · rintro ⟨d, hd, hnamed⟩
      refine ⟨⟨_, List.mem_map_of_mem hd, ?_⟩, f.id_ne⟩
      rw [findingId_ledgerExport, hnamed]
      rfl
  rw [buildWaiverExportRecords]
  split_ifs with hne
  · simp only [hcovered]
    rw [foldl_append_unless, hrows]
  · rw [not_not, hrows, List.map_eq_nil_iff] at hne
    have hall : (acceptedRows findingRows).filter (fun f => ¬ HasWaiver o cfg db scope f.id) =
        acceptedRows findingRows := by
      refine List.filter_eq_self.mpr fun f _ => decide_eq_true ?_
      rintro ⟨d, hd, -⟩
      rw [hne] at hd
      cases hd
    rw [hall, hne]
    rfl

theorem mem_registry {r : WaiverExport} :
    r ∈ buildWaiverExportRecords o cfg db scope findingRows ↔
      (∃ d ∈ waiverDecisions o cfg db scope, r = ledgerExport o cfg db scope d) ∨
        ∃ f ∈ acceptedRows findingRows,
          ¬ HasWaiver o cfg db scope f.id ∧ r = findingRowToWaiver f := by
  rw [buildWaiverExportRecords_eq, List.mem_append, List.mem_map, List.mem_map]
  refine or_congr (exists_congr fun d => and_congr_right fun _ => eq_comm)
    (exists_congr fun f => ?_)
  rw [List.mem_filter, decide_eq_true_eq, and_assoc]
  exact and_congr_right fun _ => and_congr_right fun _ => eq_comm

/-- How many records of the registry are about a finding. -/
theorem length_filter_registry (id : Str) :
    ((buildWaiverExportRecords o cfg db scope findingRows).filter fun r =>
      r.findingId = some id).length =
      (waiverDecisions o cfg db scope).countP (fun d => namedFinding o cfg db scope d = some id) +
        if HasWaiver o cfg db scope id then 0
        else (acceptedRows findingRows).countP fun f => f.id = id := by
  rw [buildWaiverExportRecords_eq, ← List.countP_eq_length_filter, List.countP_append,
    List.countP_map, List.countP_map]
  have hleft : ((fun r : WaiverExport => decide (r.findingId = some id)) ∘
      ledgerExport o cfg db scope) = fun d => decide (namedFinding o cfg db scope d = some id) :=
    funext fun d => by rw [Function.comp_apply, findingId_ledgerExport]
  have hright : ((fun r : WaiverExport => decide (r.findingId = some id)) ∘ findingRowToWaiver) =
      fun f => decide (f.id = id) :=
    funext fun f => by rw [Function.comp_apply]; exact decide_eq_decide.mpr Option.some_inj
  rw [hleft, hright, List.countP_filter]
  congr 1
  split_ifs with hcovered
  · refine List.countP_eq_zero.mpr fun f _ h => ?_
    rw [Bool.and_eq_true, decide_eq_true_eq, decide_eq_true_eq] at h
    exact h.2 (h.1 ▸ hcovered)
  · refine List.countP_congr fun f _ => ?_
    rw [Bool.and_eq_true, decide_eq_true_eq, decide_eq_true_eq]
    exact and_iff_left_of_imp fun h => h ▸ hcovered

/-! ### When the registry is exact -/

/-- An active link between a decision and a finding. -/
def ActivelyLinked (db : Db) (d : TriageDecision) (findingId : Str) : Prop :=
  ∃ l ∈ db.links.rows, l.decisionId = d.id ∧ l.findingId = findingId ∧ l.unlinkedAt = none

/-- What the registry owes to the exported findings and to the ledger: an accepted finding is in one
record, which carries the decision that the finding is linked to, and every other record is that of
a decision whose finding is gone or not exported. -/
structure IsExactRegistry (o : LedgerOrder) (cfg : Settings) (db : Db) (scope : WaiverScope)
    (findingRows : List ExportRow) : Prop where
  once : ∀ f ∈ acceptedRows findingRows,
    ((buildWaiverExportRecords o cfg db scope findingRows).filter fun r =>
      r.findingId = some f.id).length = 1
  carries : ∀ f ∈ acceptedRows findingRows, ∀ d ∈ db.decisions.rows, d.status = .riskAccepted →
    scope.Covers d → ActivelyLinked db d f.id →
    ∀ r ∈ buildWaiverExportRecords o cfg db scope findingRows, r.findingId = some f.id →
      r.decisionId = some d.id ∧ r.terms = waiverTerms (d.attestation.getD [])
  others : ∀ r ∈ buildWaiverExportRecords o cfg db scope findingRows,
    (∀ f ∈ acceptedRows findingRows, r.findingId ≠ some f.id) →
    ∃ d ∈ db.decisions.rows, d.status = .riskAccepted ∧ r.decisionId = some d.id ∧
      ∀ id, r.findingId = some id →
        db.findings.get? id = none ∨ id ∉ findingRows.map ExportRow.id

/-- A ledger that fits the exported findings: at most one decision names an accepted finding, and
one that none names is exported once; a decision that is linked to an accepted finding is listed and
names that finding; and a decision names no exported finding that is not accepted. -/
structure LedgerFits (o : LedgerOrder) (cfg : Settings) (db : Db) (scope : WaiverScope)
    (findingRows : List ExportRow) : Prop where
  named_once : ∀ f ∈ acceptedRows findingRows,
    (waiverDecisions o cfg db scope).countP
        (fun d => namedFinding o cfg db scope d = some f.id) = 1 ∨
      (¬ HasWaiver o cfg db scope f.id ∧
        (acceptedRows findingRows).countP (fun g => g.id = f.id) = 1)
  linked_named : ∀ f ∈ acceptedRows findingRows, ∀ d ∈ db.decisions.rows,
    d.status = .riskAccepted → scope.Covers d → ActivelyLinked db d f.id →
      d ∈ waiverDecisions o cfg db scope ∧ namedFinding o cfg db scope d = some f.id
  named_accepted : ∀ d ∈ waiverDecisions o cfg db scope, ∀ id,
    namedFinding o cfg db scope d = some id → (∀ f ∈ acceptedRows findingRows, f.id ≠ id) →
      db.findings.get? id = none ∨ id ∉ findingRows.map ExportRow.id

theorem mem_waiverDecisions {d : TriageDecision} (h : d ∈ waiverDecisions o cfg db scope) :
    d ∈ db.decisions.rows ∧ d.status = .riskAccepted := by
  rw [waiverDecisions] at h
  split_ifs at h
  · rw [(o.decisions_perm _).mem_iff, List.mem_filter, decide_eq_true_eq] at h
    exact ⟨h.1, h.2.1⟩
  · cases h

theorem covered_iff_countP (id : Str) : HasWaiver o cfg db scope id ↔
    (waiverDecisions o cfg db scope).countP
      (fun d => namedFinding o cfg db scope d = some id) ≠ 0 := by
  rw [← Nat.pos_iff_ne_zero, List.countP_pos_iff]
  exact exists_congr fun d => and_congr_right fun _ => decide_eq_true_iff.symm

theorem once_iff (id : Str) :
    ((buildWaiverExportRecords o cfg db scope findingRows).filter fun r =>
      r.findingId = some id).length = 1 ↔
      (waiverDecisions o cfg db scope).countP
          (fun d => namedFinding o cfg db scope d = some id) = 1 ∨
        (¬ HasWaiver o cfg db scope id ∧
          (acceptedRows findingRows).countP (fun g => g.id = id) = 1) := by
  rw [length_filter_registry]
  split_ifs with hcovered
  · exact ⟨fun h => Or.inl h, fun h => h.elim (fun h => h) fun h => absurd hcovered h.1⟩
  · have hzero := not_not.mp (mt (covered_iff_countP id).mpr hcovered)
    rw [hzero, Nat.zero_add]
    exact ⟨fun h => Or.inr ⟨hcovered, h⟩, fun h => h.elim (fun h => absurd h (by decide)) And.right⟩

/-- Two members of a list that has one element with a property are the same. -/
theorem eq_of_length_filter_eq_one {α : Type} {p : α → Bool} {l : List α}
    (h : (l.filter p).length = 1) {a b : α} (ha : a ∈ l) (hpa : p a) (hb : b ∈ l) (hpb : p b) :
    a = b := by
  obtain ⟨c, hc⟩ := List.length_eq_one_iff.mp h
  have hmem : ∀ x ∈ l, p x → x = c := fun x hx hpx => by
    have := List.mem_filter.mpr ⟨hx, hpx⟩
    rw [hc] at this
    exact List.mem_singleton.mp this
  rw [hmem a ha hpa, hmem b hb hpb]

/-- The answers of the database in the order of its tables. -/
def LedgerOrder.asStored : LedgerOrder where
  decisions rows := rows
  decisions_perm _ := .refl _
  links rows := rows
  links_perm _ := .refl _

/-- A decision to accept a risk. -/
def acceptedDecision : TriageDecision where
  id := str "td-1"
  tenantId := str "t-default"
  subjectKey := str "cve-1|app"
  subjectConfidence := .high
  findingType := .sca
  status := .riskAccepted
  suppressionScope := none
  justification := none
  compensatingControls := none
  reviewerNote := none
  attestation := some [(str "waiverRef", .text (str "W-1"))]
  identitySnapshot := none
  decisionVersion := 1
  createdBy := str "ana"
  createdAt := 0
  updatedBy := str "ana"
  updatedAt := 0
  lastFindingId := some (str "VAT-1")
  lastAppliedAt := none

/-- An active link of the decision. -/
def acceptedLink (findingId : String) : DecisionFindingLink where
  decisionId := str "td-1"
  findingId := str findingId
  linkMethod := .primary
  linkConfidence := .high
  appliedDecisionVersion := 1
  linkedAt := 0
  unlinkedAt := none

/-- A ledger with the decision and its links to two findings. -/
def twoLinks : Db :=
  { Db.empty with
    decisions := .singleton acceptedDecision
    links := ⟨[acceptedLink "VAT-1", acceptedLink "VAT-2"], by decide, by decide⟩ }

/-- An exported finding with the status. -/
def acceptedRow (id : Str) (id_ne : id ≠ []) : ExportRow where
  id := id
  id_ne := id_ne
  status := str "Risk Accepted"
  subject := ⟨.null, .null, .null, .null, .null, .null, .null⟩
  attestation := none
  justification := .null

end Vat
