import Vat.Ingest.Fingerprint
import Vat.Python.Json

/-!
# Audit events

What `emit_audit_event` hashes and what it stores. The hashed body and the stored row are assembled
separately, and each reads the clock for its own `created_at`.

Source: `backend/app/services/audit_events.py`, lines 25–45 and 113–186;
`backend/app/models/audit_event.py`.

## Main definitions

* `AuditCall`: a call of `emit_audit_event` with the id and the instants that it draws.
* `auditBody`, `recordHash`, `auditRow`.
* `AuditEventRow`: a row of the table `audit_events`.

## Main results

* `Json.record_dump_eq_iff`: records with the same names are written alike exactly when their values
  are.
* `recordHash_ne`: events with different ids have different hashes.
-/

namespace Vat

/-! ### Records -/

/-- The dict of some names with their values. -/
def Json.recordOn (names : List Str) (fields : List (Str × Json)) : Json :=
  .dict names.toFinset fun k => (fields.lookup k.1).getD .null

/-- A dict given by its items, with distinct names. -/
def Json.record (fields : List (Str × Json)) : Json := .recordOn (fields.map Prod.fst) fields

/-- The values of two lists of items with the same distinct names, name by name. -/
private theorem lookup_dump_eq_iff {fields fields' : List (Str × Json)}
    (hnames : fields.map Prod.fst = fields'.map Prod.fst) (hnodup : (fields.map Prod.fst).Nodup) :
    (∀ k ∈ fields.map Prod.fst,
      ((fields.lookup k).getD .null).dump = ((fields'.lookup k).getD .null).dump) ↔
      List.Forall₂ (fun p q => p.2.dump = q.2.dump) fields fields' := by
  induction fields generalizing fields' with
  | nil =>
    obtain rfl : fields' = [] := List.map_eq_nil_iff.mp hnames.symm
    simp
  | cons p fields ih =>
    cases fields' with
    | nil => cases hnames
    | cons q fields' =>
      obtain ⟨name, v⟩ := p
      obtain ⟨name', v'⟩ := q
      simp only [List.map_cons, List.cons.injEq, List.nodup_cons] at hnames hnodup
      obtain ⟨rfl, hnames⟩ := hnames
      rw [List.forall₂_cons, ← ih hnames hnodup.2, List.map_cons, List.forall_mem_cons]
      refine and_congr ?_ (forall₂_congr fun k hk => ?_)
      · simp
      · have hne : k ≠ name := fun heq => hnodup.1 (heq ▸ hk)
        rw [List.lookup_cons, List.lookup_cons, beq_eq_false_iff_ne.mpr hne]

/-- Records with the same distinct names are written alike exactly when their values are. -/
theorem Json.record_dump_eq_iff {fields fields' : List (Str × Json)}
    (hnames : fields.map Prod.fst = fields'.map Prod.fst) (hnodup : (fields.map Prod.fst).Nodup) :
    (Json.record fields).dump = (Json.record fields').dump ↔
      List.Forall₂ (fun p q => p.2.dump = q.2.dump) fields fields' := by
  rw [← lookup_dump_eq_iff hnames hnodup, Json.record, Json.record, ← hnames, Json.recordOn,
    Json.recordOn, Json.dump_dict_eq_iff, Subtype.forall]
  exact ⟨fun h k hk => h k (List.mem_toFinset.mpr hk),
    fun h k hk => h k (List.mem_toFinset.mp hk)⟩

/-! ### Calls -/

/-- A Python `dict` with text keys. -/
structure JsonDict where
  keys : Finset Str
  values : {k // k ∈ keys} → Json

/-- A dict as a value. -/
def JsonDict.toJson (d : JsonDict) : Json := .dict d.keys d.values

/-- The empty dict. -/
def JsonDict.empty : JsonDict := ⟨∅, fun k => absurd k.2 (Finset.notMem_empty _)⟩

/-- The arguments of a call of `emit_audit_event`, the id that it draws, and what the two readings
of the clock give: the one that is hashed and the one that is stored. -/
structure AuditCall where
  traceId : Str
  eventType : Str
  actorType : Str
  actorId : Option Str
  sourceId : Option Str
  parserId : Option Str
  assetId : Option Str
  findingId : Option Str
  decisionName : Option Str
  decisionReasonCode : Option Str
  decisionConfidence : Option Str
  decisionResult : Option Str
  data : Option JsonDict
  retentionClass : Str
  redactionLevel : Str
  sensitivity : Str
  note : Option Str
  eventId : Str
  hashedAt : Instant
  createdAt : Instant

/-- A call with the defaults of the optional arguments. -/
def AuditCall.withDefaults (traceId eventType eventId : Str) (hashedAt createdAt : Instant) :
    AuditCall where
  traceId := traceId
  eventType := eventType
  actorType := str "system"
  actorId := none
  sourceId := none
  parserId := none
  assetId := none
  findingId := none
  decisionName := none
  decisionReasonCode := none
  decisionConfidence := none
  decisionResult := none
  data := none
  retentionClass := str "operational"
  redactionLevel := str "standard"
  sensitivity := str "internal"
  note := none
  eventId := eventId
  hashedAt := hashedAt
  createdAt := createdAt

/-- A call of a trace at an instant. -/
def traceCall (traceId eventId : String) (createdAt : Instant) : AuditCall :=
  .withDefaults (str traceId) (str "dedup.replay.new") (str eventId) createdAt createdAt

/-- `data or {}`. -/
def AuditCall.payload (c : AuditCall) : JsonDict := c.data.getD .empty

/-- An optional text as a value. -/
def Json.ofOption (x : Option Str) : Json := (x.map Json.text).getD .null

/-- The body that is hashed, given the previous hash of the trace. -/
def auditBody (c : AuditCall) (prev : Option Str) : List (Str × Json) :=
  [(str "event_id", .text c.eventId),
    (str "trace_id", .text c.traceId),
    (str "event_type", .text c.eventType),
    (str "actor_type", .text c.actorType),
    (str "actor_id", .ofOption c.actorId),
    (str "source_id", .ofOption c.sourceId),
    (str "parser_id", .ofOption c.parserId),
    (str "asset_id", .ofOption c.assetId),
    (str "finding_id", .ofOption c.findingId),
    (str "decision_name", .ofOption c.decisionName),
    (str "decision_reason_code", .ofOption c.decisionReasonCode),
    (str "decision_confidence", .ofOption c.decisionConfidence),
    (str "decision_result", .ofOption c.decisionResult),
    (str "data", c.payload.toJson),
    (str "prev_record_hash", .text (Str.orEmpty prev)),
    (str "retention_class", .text c.retentionClass),
    (str "redaction_level", .text c.redactionLevel),
    (str "sensitivity", .text c.sensitivity),
    (str "note", .ofOption c.note),
    (str "created_at", .text c.hashedAt.text)]

/-- A row of the table `audit_events`. -/
structure AuditEventRow where
  eventId : Str
  traceId : Str
  eventType : Str
  actorType : Str
  actorId : Option Str
  sourceId : Option Str
  parserId : Option Str
  assetId : Option Str
  findingId : Option Str
  decisionName : Option Str
  decisionReasonCode : Option Str
  decisionConfidence : Option Str
  decisionResult : Option Str
  data : JsonDict
  prevRecordHash : Option Str
  recordHash : Str
  retentionClass : Str
  redactionLevel : Str
  sensitivity : Str
  note : Option Str
  createdAt : Instant

variable [Sha256]

/-- `hashlib.sha256(_stable_json(body).encode()).hexdigest()`. -/
def recordHash (c : AuditCall) (prev : Option Str) : Str :=
  Sha256.hexdigest (Json.record (auditBody c prev)).dump

/-- The row of a call, given the previous hash of the trace. -/
def auditRow (c : AuditCall) (prev : Option Str) : AuditEventRow where
  eventId := c.eventId
  traceId := c.traceId
  eventType := c.eventType
  actorType := c.actorType
  actorId := c.actorId
  sourceId := c.sourceId
  parserId := c.parserId
  assetId := c.assetId
  findingId := c.findingId
  decisionName := c.decisionName
  decisionReasonCode := c.decisionReasonCode
  decisionConfidence := c.decisionConfidence
  decisionResult := c.decisionResult
  data := c.payload
  prevRecordHash := prev
  recordHash := recordHash c prev
  retentionClass := c.retentionClass
  redactionLevel := c.redactionLevel
  sensitivity := c.sensitivity
  note := c.note
  createdAt := c.createdAt

/-- Rows written by `emit_audit_event`. -/
def Written (rows : List AuditEventRow) : Prop := ∀ r ∈ rows, ∃ c prev, r = auditRow c prev

omit [Sha256] in
/-- The names of the hashed fields. -/
theorem auditBody_names (c c' : AuditCall) (prev prev' : Option Str) :
    (auditBody c prev).map Prod.fst = (auditBody c' prev').map Prod.fst := rfl

omit [Sha256] in
theorem auditBody_nodup (c : AuditCall) (prev : Option Str) :
    ((auditBody c prev).map Prod.fst).Nodup := by
  have hnames : ((auditBody (.withDefaults [] [] [] 0 0) none).map Prod.fst).Nodup := by
    decide +kernel
  rwa [auditBody_names c (.withDefaults [] [] [] 0 0) prev none]

/-- Events with different ids have different hashes. -/
theorem recordHash_ne {c c' : AuditCall} (h : c.eventId ≠ c'.eventId) (prev prev' : Option Str) :
    recordHash c prev ≠ recordHash c' prev' := by
  intro heq
  have hdump := Sha256.hexdigest_injective heq
  rw [Json.record_dump_eq_iff (auditBody_names c c' prev prev') (auditBody_nodup c prev),
    auditBody, auditBody, List.forall₂_cons] at hdump
  exact h (Json.dump_text_eq_iff.mp hdump.1)

/-- Written rows with different ids have different hashes. -/
theorem Written.nodup_recordHash {rows : List AuditEventRow} (h : Written rows)
    (hids : (rows.map (·.eventId)).Nodup) : (rows.map (·.recordHash)).Nodup := by
  refine List.Nodup.map_on (fun r hr s hs heq => ?_) hids.of_map
  refine List.inj_on_of_nodup_map hids hr hs ?_
  obtain ⟨c, prev, rfl⟩ := h r hr
  obtain ⟨d, prev', rfl⟩ := h s hs
  by_contra hne
  exact recordHash_ne hne _ _ heq

end Vat
