import Vat.Model.Finding
import Vat.Python.Dynamic
import Vat.Relational.Serial

/-!
# Upserts of feed records

A refresh of a feed looks its records up with one query, assigns the rows that it finds, and adds an
object for every other record. The objects are written at the flush.

A row that was added is not looked up again: a key that is not stored yet and that comes twice is
added twice, and the flush fails.

Source: `backend/app/services/vuln_feeds.py`, lines 149–151 and 1035–1085;
`backend/app/models/vuln_feed_record.py`.

## Main definitions

* `FeedRecord`, `VulnFeedRecord`, `UpsertCall`.
* `upsertRecords`: the loop and the flush.
* `UpsertCall.lastRecord`: the last record with a key.
* `UpsertCall.Upserted`: every key has one row, with the content of its last record.

## Main results

* `UpsertCall.getBy?_session`, `UpsertCall.added_session`: what the loop leaves.
* `upserted_iff`: when the records are upserted.
-/

namespace Vat

open Relational

/-! ### Records and rows -/

/-- What a row holds of its record. -/
structure FeedContent where
  vulnerabilityId : Loaded
  aliases : Loaded
  packageName : Loaded
  ecosystem : Loaded
  version : Loaded
  severity : Loaded
  title : Loaded
  details : Loaded
  publishedAt : Option Instant
  modifiedAt : Option Instant

/-- A record that the parser of a feed gives. -/
structure FeedRecord extends FeedContent where
  recordKey : Option Str

/-- A row of the table `vuln_feed_records`. -/
structure VulnFeedRecord extends FeedContent where
  id : ℕ
  source : Str
  recordKey : Str
  fetchedAt : Instant
  runId : Option Str

instance : Row VulnFeedRecord ℕ (Str × Str) where
  pk := VulnFeedRecord.id
  uk r := (r.source, r.recordKey)

/-- The key of a record that is not skipped. -/
def FeedRecord.key? (r : FeedRecord) : Option Str := r.recordKey.filter fun key => key ≠ []

/-- The content of the row of a record. -/
def FeedRecord.content (r : FeedRecord) : FeedContent :=
  { r.toFeedContent with
    aliases := r.aliases.or (.list [])
    details := r.details.or (.dict []) }

/-- `_record_key`. -/
def feedRecordKey (parts : List Str) : Str :=
  (Str.join '|' ((parts.map Str.strip).filter fun part => part ≠ [])).take 256

/-- What is read of a severity and of a date: `_normalize_severity` and `_to_dt`. -/
class FeedScalars where
  normalizeSeverity : Loaded → Loaded
  toDt : Loaded → Option Instant

/-- No severities and no dates. -/
@[reducible] def noScalars : FeedScalars where
  normalizeSeverity _ := .null
  toDt _ := none

/-- The arguments of `_upsert_records`, at the instant `now`. -/
structure UpsertCall where
  source : Str
  runId : Str
  now : Instant
  records : List FeedRecord

namespace UpsertCall

variable (call : UpsertCall)

/-- The attributes that a record assigns. -/
def assign (rec : FeedRecord) (row : VulnFeedRecord) : VulnFeedRecord :=
  { row with toFeedContent := rec.content, fetchedAt := call.now, runId := some call.runId }

theorem keepsKeys_assign (rec : FeedRecord) : KeepsKeys (call.assign rec) := fun _ => ⟨rfl, rfl⟩

/-- The row of a new object. -/
def newRow (key : Str) (rec : FeedRecord) (id : ℕ) : VulnFeedRecord :=
  { rec.content with
    id := id
    source := call.source
    recordKey := key
    fetchedAt := call.now
    runId := some call.runId }

/-- The rows of the objects that were added. -/
def newRows : NewRows (Str × FeedRecord) VulnFeedRecord where
  key e := (call.source, e.1)
  row e := call.newRow e.1 e.2
  pk_row _ _ := rfl
  uk_row _ _ := rfl

/-! ### The loop and the flush -/

/-- The keys that are looked up. -/
def keys : List Str := call.records.filterMap FeedRecord.key?

/-- The rows that are found. -/
def existing (db : Serial VulnFeedRecord) : List VulnFeedRecord :=
  db.table.rows.filter fun r => r.source = call.source ∧ r.recordKey ∈ call.keys

/-- The rows with what was assigned to them, the ids of those rows, the objects that were added, and
the two counts. -/
structure Session where
  rows : Serial VulnFeedRecord
  dirty : List ℕ
  added : List (Str × FeedRecord)
  inserted : ℕ
  updated : ℕ

/-- The assignment of a record to a row. -/
def Session.edit (s : Session) (rec : FeedRecord) (id : ℕ) : Session :=
  { s with
    rows := s.rows.mapRows (fun r => if r.id = id then call.assign rec r else r)
      (KeepsKeys.ite (fun r => r.id = id) (call.keepsKeys_assign rec) keepsKeys_id)
    dirty := s.dirty ++ [id]
    updated := s.updated + 1 }

/-- The body of the loop. -/
def upsertRecord (existing : List VulnFeedRecord) (s : Session) (rec : FeedRecord) : Session :=
  match rec.key? with
  | none => s
  | some key =>
    match existing.find? fun r => r.recordKey = key with
    | none => { s with added := s.added ++ [(key, rec)], inserted := s.inserted + 1 }
    | some row => s.edit call rec row.id

/-- The loop. -/
def session (db : Serial VulnFeedRecord) (records : List FeedRecord) : Session :=
  records.foldl (call.upsertRecord (call.existing db)) ⟨db, [], [], 0, 0⟩

/-- The flush writes the objects whose contents the columns accept, the new ones first. -/
def Session.flush (accepts : Str → FeedContent → Bool) (s : Session) :
    Option (Serial VulnFeedRecord) :=
  if (∀ e ∈ s.added, accepts e.1 e.2.content) ∧
      ∀ r ∈ s.rows.table.rows, r.id ∈ s.dirty → accepts r.recordKey r.toFeedContent then
    s.rows.insertAll? call.newRows s.added
  else none

end UpsertCall

/-- `_upsert_records` up to its flush. -/
def upsertRecords (accepts : Str → FeedContent → Bool) (db : Serial VulnFeedRecord)
    (call : UpsertCall) : Option (Serial VulnFeedRecord × ℕ × ℕ) :=
  let s := call.session db call.records
  (s.flush call accepts).map fun db' => (db', s.inserted, s.updated)

namespace UpsertCall

variable (call : UpsertCall) (db : Serial VulnFeedRecord)

/-! ### What the loop leaves -/

/-- The last of some records under the keys of a row. -/
def lastRecord (records : List FeedRecord) (u : Str × Str) : Option FeedRecord :=
  if u.1 = call.source then records.reverse.find? fun rec => rec.key? = some u.2 else none

@[simp] theorem lastRecord_nil (u : Str × Str) : call.lastRecord [] u = none := by
  simp [lastRecord]

theorem lastRecord_concat (records : List FeedRecord) (rec : FeedRecord) (u : Str × Str) :
    call.lastRecord (records ++ [rec]) u =
      if u.1 = call.source ∧ rec.key? = some u.2 then some rec else call.lastRecord records u := by
  unfold lastRecord
  by_cases hsource : u.1 = call.source
  · simp only [hsource, ↓reduceIte, true_and, List.reverse_append, List.reverse_singleton,
      List.singleton_append, List.find?_cons]
    by_cases hkey : rec.key? = some u.2
    · simp [hkey]
    · simp [hkey]
  · simp [hsource]

theorem session_concat (records : List FeedRecord) (rec : FeedRecord) :
    call.session db (records ++ [rec]) =
      call.upsertRecord (call.existing db) (call.session db records) rec := by
  rw [session, List.foldl_append]
  rfl

/-- The query finds the row of every record. -/
theorem find?_existing {rec : FeedRecord} (hrec : rec ∈ call.records) {key : Str}
    (hkey : rec.key? = some key) :
    (call.existing db).find? (fun r => r.recordKey = key) =
      db.table.getBy? (call.source, key) := by
  have hmem : key ∈ call.keys := List.mem_filterMap.mpr ⟨rec, hrec, hkey⟩
  rw [existing, List.find?_filter, Table.getBy?]
  congr 1
  funext r
  have hiff : ((r.source = call.source ∧ r.recordKey ∈ call.keys) ∧ r.recordKey = key) ↔
      Row.uk r = (call.source, key) := by
    rw [Prod.ext_iff]
    constructor
    · rintro ⟨⟨hsource, -⟩, hkey⟩
      exact ⟨hsource, hkey⟩
    · rintro ⟨hsource, rfl⟩
      exact ⟨⟨hsource, hmem⟩, rfl⟩
  rw [Bool.eq_iff_iff]
  simpa only [Bool.decide_and, Bool.and_eq_true, decide_eq_true_iff] using hiff

/-- The objects for the records whose keys are not stored. -/
def newObjects (records : List FeedRecord) : List (Str × FeedRecord) :=
  records.filterMap fun rec =>
    rec.key?.bind fun key =>
      if db.table.getBy? (call.source, key) = none then some (key, rec) else none

theorem newObjects_concat (records : List FeedRecord) (rec : FeedRecord) :
    call.newObjects db (records ++ [rec]) =
      call.newObjects db records ++ call.newObjects db [rec] :=
  List.filterMap_append

/-- A row with what the last record under its keys assigns. -/
def refreshed (records : List FeedRecord) (row : VulnFeedRecord) : VulnFeedRecord :=
  (call.lastRecord records (Row.uk row)).elim row fun rec => call.assign rec row

@[simp] theorem id_refreshed (records : List FeedRecord) (row : VulnFeedRecord) :
    (call.refreshed records row).id = row.id := by
  unfold refreshed
  cases call.lastRecord records (Row.uk row) <;> rfl

theorem assign_refreshed (records : List FeedRecord) (rec : FeedRecord) (row : VulnFeedRecord) :
    call.assign rec (call.refreshed records row) = call.assign rec row := by
  unfold refreshed
  cases call.lastRecord records (Row.uk row) <;> rfl

/-- What the loop leaves after some of the records. -/
structure After (records : List FeedRecord) (s : Session) : Prop where
  rows : s.rows.table.rows = db.table.rows.map (call.refreshed records)
  dirty : ∀ r ∈ db.table.rows, r.id ∈ s.dirty ↔ (call.lastRecord records (Row.uk r)).isSome
  added : s.added = call.newObjects db records

variable {call db}

theorem after_start : call.After db [] ⟨db, [], [], 0, 0⟩ where
  rows := by
    have : call.refreshed [] = id := funext fun row => by simp [refreshed]
    rw [this, List.map_id]
  dirty r _ := by simp
  added := rfl

/-- A record whose key is that of no row. -/
theorem After.of_ne {records : List FeedRecord} {rec : FeedRecord} {s s' : Session}
    (h : call.After db records s) (hrows : s'.rows = s.rows) (hdirty : s'.dirty = s.dirty)
    (hadded : s'.added = s.added ++ call.newObjects db [rec])
    (hne : ∀ r ∈ db.table.rows, ¬ ((Row.uk r).1 = call.source ∧ rec.key? = some (Row.uk r).2)) :
    call.After db (records ++ [rec]) s' where
  rows := by
    rw [hrows, h.rows]
    refine List.map_congr_left fun r hr => ?_
    rw [refreshed, refreshed, lastRecord_concat, if_neg (hne r hr)]
  dirty r hr := by
    rw [hdirty, h.dirty r hr, lastRecord_concat, if_neg (hne r hr)]
  added := by rw [hadded, h.added, newObjects_concat]

/-- A record whose key is that of a row. -/
theorem After.edit {records : List FeedRecord} {rec : FeedRecord} {s : Session}
    (h : call.After db records s) {key : Str} (hkey : rec.key? = some key) {row : VulnFeedRecord}
    (hrow : db.table.getBy? (call.source, key) = some row) :
    call.After db (records ++ [rec]) (s.edit call rec row.id) := by
  obtain ⟨hmem, huk⟩ := Table.getBy?_eq_some_iff.mp hrow
  have hiff : ∀ r ∈ db.table.rows,
      ((Row.uk r).1 = call.source ∧ rec.key? = some (Row.uk r).2) ↔ r.id = row.id := by
    intro r hr
    rw [hkey, Option.some_inj, eq_comm (a := key)]
    constructor
    · rintro ⟨hsource, hk⟩
      have : Row.uk r = Row.uk row := (Prod.ext hsource hk).trans huk.symm
      rw [Table.eq_of_uk hr hmem this]
    · intro hid
      rw [Table.eq_of_pk hr hmem hid, huk]
      exact ⟨rfl, rfl⟩
  constructor
  · change s.rows.table.rows.map _ = _
    rw [h.rows, List.map_map]
    refine List.map_congr_left fun r hr => ?_
    rw [Function.comp_apply, id_refreshed, assign_refreshed]
    by_cases hid : r.id = row.id
    · rw [if_pos hid, refreshed, lastRecord_concat, if_pos ((hiff r hr).mpr hid)]
      rfl
    · rw [if_neg hid, refreshed, refreshed, lastRecord_concat, if_neg (mt (hiff r hr).mp hid)]
  · intro r hr
    change r.id ∈ s.dirty ++ [row.id] ↔ _
    rw [List.mem_append, List.mem_singleton, h.dirty r hr, lastRecord_concat]
    by_cases hid : r.id = row.id
    · rw [if_pos ((hiff r hr).mpr hid)]
      exact iff_of_true (Or.inr hid) rfl
    · rw [if_neg (mt (hiff r hr).mp hid), or_iff_left hid]
  · have hnone : call.newObjects db [rec] = [] := by
      simp [newObjects, hkey, hrow]
    rw [newObjects_concat, hnone, List.append_nil]
    exact h.added

/-- One record. -/
theorem After.upsertRecord {records : List FeedRecord} {rec : FeedRecord} {s : Session}
    (h : call.After db records s) (hrec : rec ∈ call.records) :
    call.After db (records ++ [rec]) (call.upsertRecord (call.existing db) s rec) := by
  unfold UpsertCall.upsertRecord
  cases hkey : rec.key? with
  | none => exact h.of_ne rfl rfl (by simp [newObjects, hkey]) fun _ _ ⟨_, hk⟩ => by simp [hkey] at hk
  | some key =>
    dsimp only
    rw [find?_existing call db hrec hkey]
    cases hrow : db.table.getBy? (call.source, key) with
    | none =>
      refine h.of_ne rfl rfl (by simp [newObjects, hkey, hrow]) fun r hr ⟨hsource, hk⟩ => ?_
      rw [hkey, Option.some_inj] at hk
      exact Table.getBy?_eq_none_iff.mp hrow r hr (Prod.ext hsource hk.symm)
    | some row => exact h.edit hkey hrow

/-- All records. -/
theorem after_session (records : List FeedRecord) (hrecords : records ⊆ call.records) :
    call.After db records (call.session db records) := by
  induction records using List.reverseRecOn with
  | nil => exact after_start
  | append_singleton records rec ih =>
    rw [session_concat]
    refine (ih fun r hr => hrecords (List.mem_append_left _ hr)).upsertRecord (hrecords ?_)
    exact List.mem_append_right _ (List.mem_singleton_self rec)

/-! ### Upserted records -/

variable (call db)

/-- Every key of the records has one row, with the content of the last record with the key, and the
other rows stay. -/
structure Upserted (db' : Serial VulnFeedRecord) : Prop where
  one : ∀ u rec, call.lastRecord call.records u = some rec →
    ∃! row, row ∈ db'.table.rows ∧ Row.uk row = u
  content : ∀ row ∈ db'.table.rows, ∀ rec,
    call.lastRecord call.records (Row.uk row) = some rec →
      row.toFeedContent = rec.content ∧ row.fetchedAt = call.now ∧ row.runId = some call.runId
  frame : ∀ u, call.lastRecord call.records u = none →
    db'.table.getBy? u = db.table.getBy? u

/-- No key that is not stored comes twice. -/
def NewKeysOnce : Prop :=
  (call.keys.filter fun key => db.table.getBy? (call.source, key) = none).Nodup

/-- The columns accept the last record with each key. -/
def Accepted (accepts : Str → FeedContent → Bool) : Prop :=
  ∀ u rec, call.lastRecord call.records u = some rec → accepts u.2 rec.content

instance : Decidable (call.NewKeysOnce db) := inferInstanceAs (Decidable (List.Nodup _))

theorem map_fst_newObjects :
    (call.newObjects db call.records).map Prod.fst =
      call.keys.filter fun key => db.table.getBy? (call.source, key) = none := by
  rw [newObjects, keys, List.map_filterMap, List.filter_filterMap]
  refine List.filterMap_congr fun rec _ => ?_
  cases rec.key? with
  | none => rfl
  | some key =>
    by_cases hnone : db.table.getBy? (call.source, key) = none
    · simp [Option.filter, hnone]
    · simp [Option.filter, hnone]

theorem mem_newObjects {e : Str × FeedRecord} :
    e ∈ call.newObjects db call.records ↔
      e.2 ∈ call.records ∧ e.2.key? = some e.1 ∧
        db.table.getBy? (call.source, e.1) = none := by
  rw [newObjects, List.mem_filterMap]
  constructor
  · rintro ⟨rec, hrec, h⟩
    obtain ⟨key, hkey, h⟩ := Option.bind_eq_some_iff.mp h
    split_ifs at h with hnone
    cases h
    exact ⟨hrec, hkey, hnone⟩
  · rintro ⟨hrec, hkey, hnone⟩
    exact ⟨e.2, hrec, by simp [hkey, hnone]⟩

theorem lastRecord_eq_some {u : Str × Str} {rec : FeedRecord}
    (h : call.lastRecord call.records u = some rec) :
    u.1 = call.source ∧ rec ∈ call.records ∧ rec.key? = some u.2 := by
  unfold lastRecord at h
  split_ifs at h with hsource
  exact ⟨hsource, List.mem_reverse.mp (List.mem_of_find?_eq_some h),
    by simpa using List.find?_some h⟩

theorem exists_lastRecord {rec : FeedRecord} (hrec : rec ∈ call.records) {key : Str}
    (hkey : rec.key? = some key) :
    ∃ rec', call.lastRecord call.records (call.source, key) = some rec' := by
  rw [lastRecord, if_pos rfl]
  refine Option.isSome_iff_exists.mp (List.find?_isSome.mpr ⟨rec, List.mem_reverse.mpr hrec, ?_⟩)
  simpa using hkey

/-- A row that the loop leaves is one of the stored rows, with what was assigned to it. -/
theorem getBy?_session (u : Str × Str) :
    (call.session db call.records).rows.table.getBy? u =
      (db.table.getBy? u).map (call.refreshed call.records) := by
  have h : call.After db call.records (call.session db call.records) :=
    after_session call.records (List.Subset.refl _)
  have huk : ∀ r, Row.uk (call.refreshed call.records r) = Row.uk r := by
    intro r
    unfold refreshed
    cases call.lastRecord call.records (Row.uk r) <;> rfl
  rw [Table.getBy?, h.rows, List.find?_map]
  simp only [Function.comp_def, huk]
  rfl

/-! ### Upserted records, exactly -/

variable {call db} {accepts : Str → FeedContent → Bool}

/-- The new rows can be inserted. -/
theorem insertAll?_session_isSome_iff :
    (∃ db', (call.session db call.records).rows.insertAll? call.newRows
        (call.session db call.records).added = some db') ↔ call.NewKeysOnce db := by
  have h : call.After db call.records (call.session db call.records) :=
    after_session call.records (List.Subset.refl _)
  have hmap : (call.newObjects db call.records).map call.newRows.key =
      ((call.newObjects db call.records).map Prod.fst).map (Prod.mk call.source) := by
    rw [List.map_map]
    rfl
  rw [Serial.insertAll?_isSome_iff, h.added, hmap,
    List.nodup_map_iff (Prod.mk_right_injective call.source), map_fst_newObjects]
  refine and_iff_left fun e he => ?_
  rw [getBy?_session]
  exact Option.map_eq_none_iff.mpr ((mem_newObjects call db).mp he).2.2

/-- The rows that were assigned can be written. -/
theorem dirty_accepted_iff :
    (∀ r ∈ (call.session db call.records).rows.table.rows,
        r.id ∈ (call.session db call.records).dirty → accepts r.recordKey r.toFeedContent) ↔
      ∀ u rec, call.lastRecord call.records u = some rec → db.table.getBy? u ≠ none →
        accepts u.2 rec.content := by
  have h : call.After db call.records (call.session db call.records) :=
    after_session call.records (List.Subset.refl _)
  rw [h.rows, List.forall_mem_map]
  constructor
  · intro haccepts u rec hlast hstored
    obtain ⟨row, hrow⟩ := Option.ne_none_iff_exists'.mp hstored
    obtain ⟨hmem, rfl⟩ := Table.getBy?_eq_some_iff.mp hrow
    have hdirty : row.id ∈ (call.session db call.records).dirty := by
      rw [h.dirty row hmem, hlast]
      rfl
    have := haccepts row hmem (by rwa [id_refreshed])
    rw [refreshed, hlast] at this
    exact this
  · intro haccepts row hmem hdirty
    rw [id_refreshed, h.dirty row hmem] at hdirty
    obtain ⟨rec, hlast⟩ := Option.isSome_iff_exists.mp hdirty
    have hstored : db.table.getBy? (Row.uk row) ≠ none := by
      rw [Table.getBy?_uk_of_mem hmem]
      exact Option.some_ne_none row
    rw [refreshed, hlast]
    exact haccepts _ rec hlast hstored

/-- The flush goes through. -/
theorem flush_isSome_iff :
    (∃ db', (call.session db call.records).flush call accepts = some db') ↔
      call.NewKeysOnce db ∧ call.Accepted accepts := by
  have h : call.After db call.records (call.session db call.records) :=
    after_session call.records (List.Subset.refl _)
  rw [← insertAll?_session_isSome_iff, Session.flush]
  split_ifs with haccepts
  all_goals rw [dirty_accepted_iff, h.added] at haccepts
  · refine (and_iff_left fun u rec hlast => ?_).symm
    obtain ⟨hnew, hstored⟩ := haccepts
    by_cases hnone : db.table.getBy? u = none
    · obtain ⟨hsource, hrec, hkey⟩ := lastRecord_eq_some call hlast
      refine hnew (u.2, rec) ((mem_newObjects call db).mpr ⟨hrec, hkey, ?_⟩)
      rwa [← hsource]
    · exact hstored u rec hlast hnone
  · refine iff_of_false (fun ⟨_, hsome⟩ => by cases hsome) fun ⟨honce, haccepted⟩ => haccepts ?_
    refine ⟨fun e he => ?_, fun u rec hlast _ => haccepted u rec hlast⟩
    obtain ⟨hrec, hkey, hnone⟩ := (mem_newObjects call db).mp he
    obtain ⟨rec, hlast⟩ := exists_lastRecord call hrec hkey
    obtain ⟨-, hrec', hkey'⟩ := lastRecord_eq_some call hlast
    -- The key comes once, so the object is that of the last record.
    rw [insertAll?_session_isSome_iff, NewKeysOnce, ← map_fst_newObjects] at honce
    have he' : (e.1, rec) ∈ call.newObjects db call.records :=
      (mem_newObjects call db).mpr ⟨hrec', hkey', hnone⟩
    rw [List.inj_on_of_nodup_map honce he he' rfl]
    exact haccepted _ rec hlast

/-- What a flush that goes through leaves. -/
theorem upserted_of_flush {db' : Serial VulnFeedRecord}
    (hflush : (call.session db call.records).flush call accepts = some db') :
    call.Upserted db db' := by
  have h : call.After db call.records (call.session db call.records) :=
    after_session call.records (List.Subset.refl _)
  have honce := (flush_isSome_iff.mp ⟨db', hflush⟩).1
  unfold Session.flush at hflush
  split_ifs at hflush
  have hrow : ∀ u rec, call.lastRecord call.records u = some rec →
      ∃ row, db'.table.getBy? u = some row ∧ row.toFeedContent = rec.content ∧
        row.fetchedAt = call.now ∧ row.runId = some call.runId := by
    intro u rec hlast
    obtain ⟨hsource, hrec, hkey⟩ := lastRecord_eq_some call hlast
    cases hget : db.table.getBy? u with
    | none =>
      have he : (u.2, rec) ∈ (call.session db call.records).added := by
        rw [h.added, mem_newObjects]
        exact ⟨hrec, hkey, by rwa [← hsource]⟩
      obtain ⟨id, hid⟩ := Serial.getBy?_of_insertAll?_of_mem hflush he
      have hu : call.newRows.key (u.2, rec) = u := Prod.ext hsource.symm rfl
      rw [hu] at hid
      exact ⟨_, hid, rfl, rfl, rfl⟩
    | some old =>
      have hold : (call.session db call.records).rows.table.getBy? u =
          some (call.assign rec old) := by
        rw [getBy?_session, hget, Option.map_some, refreshed, Table.uk_of_getBy? hget, hlast]
        rfl
      exact ⟨_, Serial.getBy?_of_insertAll?_of_eq_some hflush hold, rfl, rfl, rfl⟩
  constructor
  · intro u rec hlast
    obtain ⟨row, hget, -⟩ := hrow u rec hlast
    refine ⟨row, Table.getBy?_eq_some_iff.mp hget, fun row' hrow' => ?_⟩
    exact Table.eq_of_uk hrow'.1 (Table.mem_of_getBy? hget)
      (hrow'.2.trans (Table.uk_of_getBy? hget).symm)
  · intro row hmem rec hlast
    obtain ⟨row', hget, hcontent⟩ := hrow _ rec hlast
    rw [Table.getBy?_uk_of_mem hmem, Option.some_inj] at hget
    rw [hget]
    exact hcontent
  · intro u hlast
    have hne : ∀ e ∈ (call.session db call.records).added, call.newRows.key e ≠ u := by
      rintro e he rfl
      rw [h.added, mem_newObjects] at he
      obtain ⟨rec, hrec⟩ := exists_lastRecord call he.1 he.2.1
      exact Option.some_ne_none rec (hrec.symm.trans hlast)
    rw [Serial.getBy?_of_insertAll?_of_forall_ne hflush hne, getBy?_session]
    cases hget : db.table.getBy? u with
    | none => rfl
    | some row =>
      rw [Option.map_some, refreshed, Table.uk_of_getBy? hget, hlast]
      rfl

end UpsertCall

/-- The records are upserted exactly when no key that is not stored comes twice and the columns
accept the contents. -/
theorem upserted_iff (accepts : Str → FeedContent → Bool) (db : Serial VulnFeedRecord)
    (call : UpsertCall) :
    (∃ db' inserted updated, upsertRecords accepts db call = some (db', inserted, updated) ∧
        call.Upserted db db') ↔
      call.NewKeysOnce db ∧ call.Accepted accepts := by
  rw [← UpsertCall.flush_isSome_iff]
  constructor
  · rintro ⟨db', inserted, updated, h, -⟩
    obtain ⟨db', hflush, -⟩ := Option.map_eq_some_iff.mp h
    exact ⟨db', hflush⟩
  · rintro ⟨db', hflush⟩
    refine ⟨db', (call.session db call.records).inserted, (call.session db call.records).updated,
      ?_, UpsertCall.upserted_of_flush hflush⟩
    rw [upsertRecords, hflush]
    rfl

/-! ### A new key that comes twice -/

/-- The record of one package version under one advisory, as two releases of a distribution list
it. -/
def twiceListed : FeedRecord where
  recordKey := some (str "CVE-2024-1|musl|1.2.4-r1")
  vulnerabilityId := .ofString "CVE-2024-1"
  aliases := .list [.ofString "CVE-2024-1"]
  packageName := .ofString "musl"
  ecosystem := .ofString "Alpine"
  version := .ofString "1.2.4-r1"
  severity := .null
  title := .null
  details := .dict [(str "package", .ofString "musl")]
  publishedAt := none
  modifiedAt := none

/-- The first refresh of such a feed. -/
def firstRefresh : UpsertCall where
  source := str "alpine"
  runId := str "run-1"
  now := 0
  records := [twiceListed, twiceListed]

/-- Its flush fails although the columns accept everything. -/
theorem not_upserted_firstRefresh :
    ¬ ∃ db' inserted updated,
      upsertRecords (fun _ _ => true) .empty firstRefresh = some (db', inserted, updated) ∧
        firstRefresh.Upserted .empty db' := by
  have hnone : upsertRecords (fun _ _ => true) .empty firstRefresh = none := rfl
  rintro ⟨db', inserted, updated, h, -⟩
  rw [hnone] at h
  cases h

end Vat
