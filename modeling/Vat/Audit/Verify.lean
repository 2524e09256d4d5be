import Vat.Audit.Session

/-!
# Verifying stored audit events

A verifier reads a row back and hashes its own fields again. A text column cuts the blanks that pass
its length, and the `JSONB` column rewrites numbers, so a stored row can hold other texts than those
that were hashed.

Source: `backend/app/services/audit_events.py`, lines 25–45 and 126–186;
`backend/app/models/audit_event.py`.

## Main definitions

* `JsonbNumeric`, `Json.stored`, `Json.FloatsKept`.
* `AuditEventRow.stored`, `AuditEventRow.body`, `AuditEventRow.Verifies`.

## Main results

* `Json.stored_dump_eq_iff`.
* `verifies_iff`, `emitted_verifies_iff`: when a stored event can be verified.
-/

namespace Vat

/-! ### What the database gives back -/

/-- The number that a `JSONB` column gives back for a float: an `int` where the stored digits have
no point, and else a float again. -/
class JsonbNumeric where
  read : FloatRepr → ℤ ⊕ FloatRepr

section Jsonb

variable [JsonbNumeric]

/-- What a `JSONB` column gives back for a value that it accepts. -/
def Json.stored : Json → Json
  | .float x => (JsonbNumeric.read x).elim .int .float
  | .list length items => .list length fun i => (items i).stored
  | .dict keys values => .dict keys fun k => (values k).stored
  | .null => .null
  | .bool b => .bool b
  | .int i => .int i
  | .text s => .text s
  | .other s => .other s

/-- Every float of a value reads back with its own text. -/
def Json.FloatsKept : Json → Prop
  | .float x => (JsonbNumeric.read x).elim intText FloatRepr.text = x.text
  | .list _ items => ∀ i, (items i).FloatsKept
  | .dict _ values => ∀ k, (values k).FloatsKept
  | _ => True

/-- A value is written the same after it was stored exactly when its floats are. -/
theorem Json.stored_dump_eq_iff (j : Json) : j.stored.dump = j.dump ↔ j.FloatsKept := by
  induction j with
  | null | bool | int | text | other => simp only [Json.stored, Json.FloatsKept]
  | float x =>
    rw [Json.stored, Json.FloatsKept]
    cases JsonbNumeric.read x with
    | inl i => rfl
    | inr y => rfl
  | list length items ih =>
    rw [Json.stored, Json.FloatsKept, Json.dump_list_eq_iff]
    exact forall_congr' ih
  | dict keys values ih =>
    rw [Json.stored, Json.FloatsKept, Json.dump_dict_eq_iff]
    exact forall_congr' ih

/-- What a column of type `String(n)` keeps of a text that it accepts. Only blanks may pass the
length, and they are cut. -/
def varchar (n : ℕ) (s : Str) : Str := s.take n

omit [JsonbNumeric] in
theorem varchar_eq_self_iff {n : ℕ} {s : Str} : varchar n s = s ↔ s.length ≤ n :=
  List.take_eq_self_iff s

omit [JsonbNumeric] in
theorem map_varchar_eq_self_iff {n : ℕ} {x : Option Str} :
    x.map (varchar n) = x ↔ ∀ s ∈ x, s.length ≤ n := by
  cases x with
  | none => simp
  | some s => simp [varchar_eq_self_iff]

/-- A row as a query gives it back. The two hashes have 64 digits and always fit. -/
def AuditEventRow.stored (r : AuditEventRow) : AuditEventRow :=
  { r with
    eventId := varchar 64 r.eventId
    traceId := varchar 64 r.traceId
    eventType := varchar 128 r.eventType
    actorType := varchar 32 r.actorType
    actorId := r.actorId.map (varchar 256)
    sourceId := r.sourceId.map (varchar 128)
    parserId := r.parserId.map (varchar 64)
    assetId := r.assetId.map (varchar 512)
    findingId := r.findingId.map (varchar 32)
    decisionName := r.decisionName.map (varchar 128)
    decisionReasonCode := r.decisionReasonCode.map (varchar 128)
    decisionConfidence := r.decisionConfidence.map (varchar 32)
    decisionResult := r.decisionResult.map (varchar 64)
    data := ⟨r.data.keys, fun k => (r.data.values k).stored⟩
    retentionClass := varchar 32 r.retentionClass
    redactionLevel := varchar 32 r.redactionLevel
    sensitivity := varchar 32 r.sensitivity }

end Jsonb

/-! ### The verifier -/

/-- The hashed body, from the fields of a row alone. -/
def AuditEventRow.body (r : AuditEventRow) : List (Str × Json) :=
  [(str "event_id", .text r.eventId),
    (str "trace_id", .text r.traceId),
    (str "event_type", .text r.eventType),
    (str "actor_type", .text r.actorType),
    (str "actor_id", .ofOption r.actorId),
    (str "source_id", .ofOption r.sourceId),
    (str "parser_id", .ofOption r.parserId),
    (str "asset_id", .ofOption r.assetId),
    (str "finding_id", .ofOption r.findingId),
    (str "decision_name", .ofOption r.decisionName),
    (str "decision_reason_code", .ofOption r.decisionReasonCode),
    (str "decision_confidence", .ofOption r.decisionConfidence),
    (str "decision_result", .ofOption r.decisionResult),
    (str "data", r.data.toJson),
    (str "prev_record_hash", .text (Str.orEmpty r.prevRecordHash)),
    (str "retention_class", .text r.retentionClass),
    (str "redaction_level", .text r.redactionLevel),
    (str "sensitivity", .text r.sensitivity),
    (str "note", .ofOption r.note),
    (str "created_at", .text r.createdAt.text)]

/-- The hash of the fields of a row is the stored one. -/
def AuditEventRow.Verifies [Sha256] (r : AuditEventRow) : Prop :=
  Sha256.hexdigest (Json.record r.body).dump = r.recordHash

/-- The texts of a call with the lengths of their columns. -/
def AuditCall.columns (c : AuditCall) : List (ℕ × Option Str) :=
  [(64, some c.eventId), (64, some c.traceId), (128, some c.eventType), (32, some c.actorType),
    (256, c.actorId), (128, c.sourceId), (64, c.parserId), (512, c.assetId), (32, c.findingId),
    (128, c.decisionName), (128, c.decisionReasonCode), (32, c.decisionConfidence),
    (64, c.decisionResult), (32, some c.retentionClass), (32, some c.redactionLevel),
    (32, some c.sensitivity)]

/-- No text of a call is longer than its column. -/
def AuditCall.FitsColumns (c : AuditCall) : Prop := ∀ p ∈ c.columns, ∀ s ∈ p.2, s.length ≤ p.1

/-! ### When an event verifies -/

theorem Json.dump_ofOption_eq_iff {x y : Option Str} :
    (Json.ofOption x).dump = (Json.ofOption y).dump ↔ x = y := by
  refine ⟨fun h => ?_, fun h => h ▸ rfl⟩
  cases x with
  | none =>
    cases y with
    | none => rfl
    | some t => cases h
  | some s =>
    cases y with
    | none => cases h
    | some t => rw [Json.dump_text_eq_iff.mp h]

theorem Instant.text_injective : Function.Injective Instant.text := fun s t h => by
  have hdigits := congrArg (Nat.ofDigitChars 10 · 0) h
  simpa [Instant.text] using hdigits

theorem AuditCall.fitsColumns_iff (c : AuditCall) :
    c.FitsColumns ↔ c.eventId.length ≤ 64 ∧ c.traceId.length ≤ 64 ∧ c.eventType.length ≤ 128 ∧
      c.actorType.length ≤ 32 ∧ (∀ s ∈ c.actorId, s.length ≤ 256) ∧
      (∀ s ∈ c.sourceId, s.length ≤ 128) ∧ (∀ s ∈ c.parserId, s.length ≤ 64) ∧
      (∀ s ∈ c.assetId, s.length ≤ 512) ∧ (∀ s ∈ c.findingId, s.length ≤ 32) ∧
      (∀ s ∈ c.decisionName, s.length ≤ 128) ∧ (∀ s ∈ c.decisionReasonCode, s.length ≤ 128) ∧
      (∀ s ∈ c.decisionConfidence, s.length ≤ 32) ∧ (∀ s ∈ c.decisionResult, s.length ≤ 64) ∧
      c.retentionClass.length ≤ 32 ∧ c.redactionLevel.length ≤ 32 ∧ c.sensitivity.length ≤ 32 := by
  simp [FitsColumns, columns]

/-- The body has the names of the hashed one. -/
theorem body_names (r : AuditEventRow) (c : AuditCall) (prev : Option Str) :
    r.body.map Prod.fst = (auditBody c prev).map Prod.fst := rfl

section Emission

variable [Sha256] [JsonbNumeric]

/-- A stored event verifies exactly when both readings of the clock agree, its texts fit their
columns and the floats of its payload keep their texts. -/
theorem verifies_iff (c : AuditCall) (prev : Option Str) :
    (auditRow c prev).stored.Verifies ↔
      c.hashedAt = c.createdAt ∧ c.FitsColumns ∧ c.payload.toJson.FloatsKept := by
  have hdata : (auditRow c prev).stored.data.toJson.dump = c.payload.toJson.dump ↔
      c.payload.toJson.FloatsKept := Json.stored_dump_eq_iff c.payload.toJson
  have hnames := body_names (auditRow c prev).stored c prev
  rw [AuditEventRow.Verifies, show (auditRow c prev).stored.recordHash = recordHash c prev from rfl,
    recordHash, Sha256.hexdigest_injective.eq_iff,
    Json.record_dump_eq_iff hnames (hnames ▸ auditBody_nodup c prev)]
  simp only [AuditEventRow.body, auditBody, List.forall₂_cons, List.Forall₂.nil, and_true,
    Json.dump_text_eq_iff, Json.dump_ofOption_eq_iff, hdata]
  simp only [auditRow, AuditEventRow.stored, varchar_eq_self_iff, map_varchar_eq_self_iff,
    Instant.text_injective.eq_iff, true_and]
  rw [c.fitsColumns_iff, eq_comm (a := c.createdAt)]
  tauto

/-! ### Emitted events -/

variable [NewestRow]

/-- In either mode a call adds one row to those that the session has written or will flush, and the
row verifies from storage exactly under the condition of `verifies_iff`. -/
theorem emitted_verifies_iff (committed : List AuditEventRow) (s : AuditSession) (c : AuditCall) :
    ∃ r, (s.emitAuditEvent committed c).flushBulkAuditEvents.visible committed =
        s.flushBulkAuditEvents.visible committed ++ [r] ∧ r.eventId = c.eventId ∧
      (r.stored.Verifies ↔
        c.hashedAt = c.createdAt ∧ c.FitsColumns ∧ c.payload.toJson.FloatsKept) :=
  ⟨s.emitted committed c, s.visible_flush_emit committed c, rfl, verifies_iff c _⟩

end Emission

/-! ### An event that does not verify -/

/-- A column that gives every float back. -/
@[reducible] def floatsRead : JsonbNumeric := ⟨Sum.inr⟩

attribute [local instance] unaryDigest floatsRead newestFirst

/-- The clock is read again, a microsecond later, for the row. -/
def twoReadings : AuditCall := .withDefaults (str "trace") (str "asset.updated") (str "e1") 1 2

/-- The first event of an empty table, emitted by a new session. -/
theorem emitted_not_verified : ¬ (AuditSession.fresh.emitted [] twoReadings).stored.Verifies := by
  intro h
  have hclock : (1 : Instant) = 2 := ((verifies_iff twoReadings _).mp h).1
  exact absurd hclock (by decide)

end Vat
