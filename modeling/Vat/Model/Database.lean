import Vat.Model.Ledger

/-!
# The database

The tables the services share, the settings they read and the source of new ids. One call of a
service sees one instant: every clock it reads while it runs has the same value.

## Main definitions

* `Settings`, `UuidSource`, `Db`.
* `Db.emitAuditEvent`, `newDecisionId`, `newRevisionId`.
-/

namespace Vat

open Relational

/-- The settings the services read. -/
structure Settings where
  decisionLedgerEnabled : Bool
  containerAssetPathAliases : Str

/-- `uuid.uuid4`: after a prefix, an id that is not in use. -/
class UuidSource where
  /-- The hexadecimal digits drawn. -/
  draw : Str → List Str → Str
  fresh : ∀ idPrefix used, idPrefix ++ draw idPrefix used ∉ used

/-- Ids longer than every id in use. -/
@[reducible] def longestIds : UuidSource where
  draw _ used := used.flatten ++ str "0"
  fresh idPrefix used h := by
    have hle := (List.sublist_flatten_of_mem h).length_le
    simp only [List.length_append] at hle
    have : (str "0").length = 1 := rfl
    omega

/-- The database. -/
structure Db where
  findings : Table Finding
  decisions : Table TriageDecision
  revisions : Table TriageDecisionRevision
  links : Table DecisionFindingLink
  subjectAliases : Table DecisionSubjectAlias
  assetAliases : Table AssetAlias
  auditEvents : List AuditEvent

/-- The database without rows. -/
def Db.empty : Db where
  findings := .empty
  decisions := .empty
  revisions := .empty
  links := .empty
  subjectAliases := .empty
  assetAliases := .empty
  auditEvents := []

/-- The database that holds findings only. -/
def Db.ofFindings (findings : Table Finding) : Db := { Db.empty with findings := findings }

/-- `emit_audit_event`. -/
def Db.emitAuditEvent (db : Db) (e : AuditEvent) : Db :=
  { db with auditEvents := db.auditEvents ++ [e] }

/-- The same findings, decisions and revisions. -/
structure SameRows (db db' : Db) : Prop where
  findings : db'.findings = db.findings
  decisions : db'.decisions = db.decisions
  revisions : db'.revisions = db.revisions

theorem SameRows.refl (db : Db) : SameRows db db := ⟨rfl, rfl, rfl⟩

theorem SameRows.trans {db db' db'' : Db} (h : SameRows db db') (h' : SameRows db' db'') :
    SameRows db db'' :=
  ⟨h'.findings.trans h.findings, h'.decisions.trans h.decisions, h'.revisions.trans h.revisions⟩

section NewIds

variable [UuidSource]

/-- `_new_decision_id`. -/
def newDecisionId (db : Db) : Str :=
  str "td-" ++ UuidSource.draw (str "td-") (db.decisions.rows.map TriageDecision.id)

/-- `_new_revision_id`. -/
def newRevisionId (db : Db) : Str :=
  str "tdr-" ++ UuidSource.draw (str "tdr-") (db.revisions.rows.map TriageDecisionRevision.id)

theorem newRevisionId_not_mem (db : Db) :
    newRevisionId db ∉ db.revisions.rows.map TriageDecisionRevision.id :=
  UuidSource.fresh _ _

end NewIds

end Vat
