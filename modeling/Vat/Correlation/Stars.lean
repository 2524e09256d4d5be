import Vat.Correlation.Unlink

/-!
# Stars of linked findings

A run of linking links the members of a cluster to the oldest one. The runs of a cluster set the
same pointers and put the same edges to use once all its members are stored, in whatever order and
however often the members start them. What an earlier run has linked to another root is not taken
back: an older finding that comes in later becomes the root, and the edges with the root before it
stay in use.

Source: `backend/app/services/correlation_linking.py`, lines 22–169;
`backend/app/services/correlation_edges.py`, lines 95–121.

## Main definitions

* `ClusterEvent`: a finding stored, a run of linking, an ingest of a crosswalk.
* `spokes`: what a run of linking links to the root of a cluster.
* `history`: what the runs of linking have linked.
* `CorrelationDb.IsStar`: the pointers and edges of a cluster are those of its last run.

## Main results

* `EdgeTraced.run`: pointers and edges say what was linked.
* `isStar_iff_and_settled`: when a cluster is a star, and that further runs leave it as it is.
-/

namespace Vat

open Relational Transition Pointers

/-! ### Pairs of ids -/

/-- An id as it is generated: not empty, without blanks at its ends. -/
structure PlainId (id : Str) : Prop where
  ne_nil : id ≠ []
  strip_eq : Str.strip id = id

theorem ne_of_normalizePair {a b : Str} {q : Str × Str} (h : normalizePair a b = .ok q) : a ≠ b := by
  rintro rfl
  simp only [normalizePair] at h
  split_ifs at h

/-- Different plain ids make their pair. -/
theorem normalizePair_of_plain {a b : Str} (ha : PlainId a) (hb : PlainId b) (h : a ≠ b) :
    normalizePair a b = .ok (if a < b then (a, b) else (b, a)) := by
  simp only [normalizePair, ha.strip_eq, hb.strip_eq]
  rw [if_neg (not_or.mpr ⟨ha.ne_nil, hb.ne_nil⟩), if_neg h]

/-- A pair of plain ids has no other ids. -/
theorem eq_or_eq_of_normalizePair {a b c d : Str} (ha : PlainId a) (hb : PlainId b) (hab : a ≠ b)
    (hc : PlainId c) (hd : PlainId d) (hcd : c ≠ d) (h : normalizePair a b = normalizePair c d) :
    a = c ∧ b = d ∨ a = d ∧ b = c := by
  rw [normalizePair_of_plain ha hb hab, normalizePair_of_plain hc hd hcd, Except.ok.injEq] at h
  split_ifs at h <;> cases h
  · exact Or.inl ⟨rfl, rfl⟩
  · exact Or.inr ⟨rfl, rfl⟩
  · exact Or.inr ⟨rfl, rfl⟩
  · exact Or.inl ⟨rfl, rfl⟩

/-! ### The order of a cluster -/

theorem CreatedBefore.antisymm {a b : Finding} (hab : CreatedBefore a b) (hba : CreatedBefore b a) :
    a.id = b.id := by
  rcases hab with hab | ⟨hab, hid⟩
  · rcases hba with hba | ⟨hba, -⟩
    · exact absurd hba (lt_asymm hab)
    · exact absurd hba hab.ne'
  · rcases hba with hba | ⟨-, hid'⟩
    · exact absurd hab hba.ne'
    · exact List.le_antisymm hid hid'

/-! ### Clusters up to pointers -/

/-- A cluster without the pointers of its members. -/
def CorrelationDb.bareCluster (db : CorrelationDb) (key : Str) (tenantId : Option Str) :
    List Finding :=
  (db.selectCorrelationCluster key tenantId).map (Finding.pointTo none)

/-- The cluster depends on the findings up to their pointers. -/
theorem CorrelationDb.bareCluster_eq (db : CorrelationDb) (key : Str) (tenantId : Option Str) :
    db.bareCluster key tenantId =
      ((db.findings.rows.map (Finding.pointTo none)).filter fun r =>
        r.correlationKey = some key ∧ CoalescedTenantEquals r.tenantId tenantId).insertionSort
          CreatedBefore := by
  rw [bareCluster, selectCorrelationCluster, List.filter_map]
  exact List.map_insertionSort CreatedBefore CreatedBefore _ _ fun _ _ _ _ => Iff.rfl

theorem CorrelationDb.bareCluster_of_sameButPointers {db db' : CorrelationDb}
    (h : SameButPointers db.findings db'.findings) (key : Str) (tenantId : Option Str) :
    db'.bareCluster key tenantId = db.bareCluster key tenantId := by
  rw [bareCluster_eq, bareCluster_eq, h]

theorem CorrelationDb.pairwise_bareCluster (db : CorrelationDb) (key : Str)
    (tenantId : Option Str) : (db.bareCluster key tenantId).Pairwise CreatedBefore := by
  rw [bareCluster_eq]
  exact List.pairwise_insertionSort CreatedBefore _

theorem CorrelationDb.mem_bareCluster {db : CorrelationDb} {key : Str} {tenantId : Option Str}
    {r : Finding} :
    r ∈ db.bareCluster key tenantId ↔
      ∃ row ∈ db.findings.rows, row.pointTo none = r ∧ row.correlationKey = some key ∧
        CoalescedTenantEquals row.tenantId tenantId := by
  rw [bareCluster, List.mem_map]
  simp only [mem_selectCorrelationCluster]
  exact ⟨fun ⟨row, ⟨hrow, hkey, htenant⟩, heq⟩ => ⟨row, hrow, heq, hkey, htenant⟩,
    fun ⟨row, hrow, heq, hkey, htenant⟩ => ⟨row, ⟨hrow, hkey, htenant⟩, heq⟩⟩

/-- The ids of a cluster. -/
def CorrelationDb.clusterIds (db : CorrelationDb) (key : Str) (tenantId : Option Str) : List Str :=
  (db.bareCluster key tenantId).map Finding.id

section Stars

variable [Unicode]

/-! ### Spokes -/

/-- A finding that linking links to another one as its root. -/
def Joins (root row : Finding) : Prop := KeyMatch root row ∧ ¬ AssetGate root row

instance (root row : Finding) : Decidable (Joins root row) := inferInstanceAs (Decidable (_ ∧ _))

/-- The links of a cluster: the members that join the oldest one, each with its id. -/
def spokes : List Finding → List (Str × Str)
  | [] => []
  | root :: rows => (rows.filter (Joins root)).map fun row => (row.id, root.id)

theorem mem_spokes {root : Finding} {rows : List Finding} {w : Str × Str} :
    w ∈ spokes (root :: rows) ↔ ∃ row ∈ rows, Joins root row ∧ w = (row.id, root.id) := by
  simp only [spokes, List.mem_map, List.mem_filter, decide_eq_true_eq, and_assoc]
  simp only [eq_comm]

theorem mem_ids_of_mem_spokes {cluster : List Finding} {w : Str × Str} (h : w ∈ spokes cluster) :
    w.1 ∈ cluster.map Finding.id := by
  cases cluster with
  | nil => cases h
  | cons root rows =>
    obtain ⟨row, hrow, -, rfl⟩ := mem_spokes.mp h
    exact List.mem_map_of_mem (List.mem_cons_of_mem root hrow)

/-- The spokes of a cluster have one root. -/
theorem snd_eq_of_mem_spokes {cluster : List Finding} {w w' : Str × Str} (h : w ∈ spokes cluster)
    (h' : w' ∈ spokes cluster) : w.2 = w'.2 := by
  cases cluster with
  | nil => cases h
  | cons root rows =>
    obtain ⟨row, -, -, rfl⟩ := mem_spokes.mp h
    obtain ⟨row', -, -, rfl⟩ := mem_spokes.mp h'
    rfl

theorem spokes_map_pointTo (cluster : List Finding) :
    spokes (cluster.map (Finding.pointTo none)) = spokes cluster := by
  cases cluster with
  | nil => rfl
  | cons root rows =>
    rw [List.map_cons, spokes, spokes, List.filter_map, List.map_map]
    rfl

/-- Nothing joins a finding whose key is empty. -/
theorem not_joins_of_nil {root row : Finding} (h : root.correlationKey = some []) :
    ¬ Joins root row := by
  intro hjoins
  refine hjoins.1.1 ?_
  rw [h]
  exact Unicode.lower_nil

/-- A run of linking links the spokes of its cluster. -/
theorem CorrelationDb.linkWrites_eq_spokes {db : CorrelationDb} {finding : Finding} {key : Str}
    (hkey : finding.correlationKey = some key)
    (hmem : finding.id ∈ db.clusterIds key finding.tenantId) :
    db.linkWrites finding = spokes (db.bareCluster key finding.tenantId) := by
  have hid : finding.id ∈ (db.selectCorrelationCluster key finding.tenantId).map Finding.id := by
    rw [clusterIds, bareCluster, List.map_map] at hmem
    exact hmem
  have hrows : ∀ r ∈ db.selectCorrelationCluster key finding.tenantId,
      r.correlationKey = some key := fun r hr => (mem_selectCorrelationCluster.mp hr).2.1
  rw [bareCluster, spokes_map_pointTo]
  unfold linkWrites linkScope
  simp only [hkey, Str.orEmpty, Option.getD_some, hid, not_true_eq_false, ↓reduceIte]
  generalize db.selectCorrelationCluster key finding.tenantId = cluster at hrows
  by_cases hnil : key = []
  · rw [if_pos hnil]
    cases cluster with
    | nil => rfl
    | cons root rows =>
      have hroot : root.correlationKey = some [] := by rw [hrows root List.mem_cons_self, hnil]
      rw [spokes, List.filter_eq_nil_iff.mpr fun row _ => by simpa using not_joins_of_nil hroot]
      rfl
  · rw [if_neg hnil]
    cases cluster with
    | nil => rfl
    | cons root rows =>
      cases rows with
      | nil => rfl
      | cons peer peers =>
        change List.map _ (List.filter _ (peer :: peers)) = _
        rw [spokes]
        congr 1
        refine List.filter_congr fun row _ => ?_
        rw [decide_eq_decide]
        exact scoreFindingPair_tier_ne_low_iff db.scores root row

/-- A finding that is not in the cluster of its key starts nothing. -/
theorem CorrelationDb.linkWrites_eq_nil {db : CorrelationDb} {finding : Finding}
    (h : ∀ key, finding.correlationKey = some key →
      finding.id ∉ db.clusterIds key finding.tenantId) : db.linkWrites finding = [] := by
  unfold linkWrites linkScope
  cases hkey : finding.correlationKey with
  | none => rfl
  | some key =>
    have hid : finding.id ∉ (db.selectCorrelationCluster key finding.tenantId).map Finding.id := by
      have := h key hkey
      rw [clusterIds, bareCluster, List.map_map] at this
      exact this
    simp only [Str.orEmpty, Option.getD_some, hid, not_false_eq_true, ↓reduceIte]
    split_ifs <;> rfl

/-! ### Events -/

/-- What happens to findings whose keys and assets stay: a new finding is stored, a member starts a
run of linking, or a crosswalk comes in, which changes scores. -/
inductive ClusterEvent
  | store (finding : Finding) (source : Str) (plain : PlainId finding.id)
  | link (findingId : Str)
  | crosswalk (source sourceVersion : Str) (entries : List CrosswalkEntry)

/-- An event; a finding that is stored already is left as it is. -/
def CorrelationDb.clusterStep (db : CorrelationDb) : ClusterEvent → CorrelationDb
  | .store finding source _ =>
    if (db.findings.get? finding.id).isSome then db else db.step (.ingest finding source false)
  | .link findingId => db.step (.link findingId)
  | .crosswalk source sourceVersion entries => db.step (.crosswalk source sourceVersion entries)

/-- What an event links: ids of members, each with that of the root. -/
def CorrelationDb.eventLinks (db : CorrelationDb) : ClusterEvent → List (Str × Str)
  | .link findingId => (db.findings.get? findingId).elim [] db.linkWrites
  | _ => []

/-- What the runs of linking have linked. -/
def history : CorrelationDb → List ClusterEvent → List (Str × Str)
  | _, [] => []
  | db, e :: events => db.eventLinks e ++ history (db.clusterStep e) events

theorem history_append (db : CorrelationDb) (events events' : List ClusterEvent) :
    history db (events ++ events') =
      history db events ++ history (run CorrelationDb.clusterStep db events) events' := by
  induction events generalizing db with
  | nil => rfl
  | cons e events ih => rw [List.cons_append, history, history, ih, List.append_assoc, run_cons]

/-- A member of a cluster and an older one that it joins. -/
def Linkable (root row : Finding) : Prop :=
  (∃ key, root.correlationKey = some key ∧ row.correlationKey = some key) ∧
    root.tenantId.getD (str "t-default") = row.tenantId.getD (str "t-default") ∧
      CreatedBefore root row ∧ root.id ≠ row.id ∧ Joins root row

theorem CorrelationDb.linkable_of_mem_spokes {db : CorrelationDb} {key : Str}
    {tenantId : Option Str} {w : Str × Str} (h : w ∈ spokes (db.bareCluster key tenantId)) :
    ∃ root ∈ db.findings.rows, ∃ row ∈ db.findings.rows,
      root.id = w.2 ∧ row.id = w.1 ∧ Linkable root row := by
  have hnodup : ((db.bareCluster key tenantId).map Finding.id).Nodup := by
    rw [bareCluster, List.map_map]
    exact db.nodup_selectCorrelationCluster key tenantId
  have hsorted := db.pairwise_bareCluster key tenantId
  have hmem := fun r => @mem_bareCluster db key tenantId r
  generalize db.bareCluster key tenantId = cluster at h hnodup hsorted hmem
  cases cluster with
  | nil => cases h
  | cons root rows =>
    obtain ⟨row, hrow, hjoins, rfl⟩ := mem_spokes.mp h
    obtain ⟨root', hroot', rfl, hkey, htenant⟩ := (hmem root).mp List.mem_cons_self
    obtain ⟨row', hrow', rfl, hkey', htenant'⟩ := (hmem row).mp (List.mem_cons_of_mem _ hrow)
    have hbefore : CreatedBefore (root'.pointTo none) (row'.pointTo none) :=
      (List.pairwise_cons.mp hsorted).1 _ hrow
    refine ⟨root', hroot', row', hrow', rfl, rfl, ⟨key, hkey, hkey'⟩, htenant.trans htenant'.symm,
      hbefore, fun heq => ?_, hjoins⟩
    exact (List.nodup_cons.mp hnodup).1 (List.mem_map.mpr ⟨_, hrow, heq.symm⟩)

theorem CorrelationDb.linkable_of_mem_linkWrites {db : CorrelationDb} {finding : Finding}
    {w : Str × Str} (h : w ∈ db.linkWrites finding) :
    ∃ key, finding.correlationKey = some key ∧ finding.id ∈ db.clusterIds key finding.tenantId ∧
      w ∈ spokes (db.bareCluster key finding.tenantId) := by
  by_contra hn
  have hnil : db.linkWrites finding = [] := by
    refine linkWrites_eq_nil fun key hkey hmem => hn ⟨key, hkey, hmem, ?_⟩
    rwa [← linkWrites_eq_spokes hkey hmem]
  rw [hnil] at h
  cases h

/-- What a run of linking does where the ids are plain: it never fails. -/
theorem CorrelationDb.clusterStep_link {db : CorrelationDb}
    (hplain : ∀ row ∈ db.findings.rows, PlainId row.id) (findingId : Str) :
    SameButPointers db.findings (db.clusterStep (.link findingId)).findings ∧
      pointerOf (db.clusterStep (.link findingId)).findings =
        links (pointerOf db.findings)
          ((db.eventLinks (.link findingId)).map fun w => (w.1, some w.2)) ∧
      ∀ q, EdgeActive (db.clusterStep (.link findingId)).edges q ↔
        EdgeActive db.edges q ∨
          ∃ w ∈ db.eventLinks (.link findingId), normalizePair w.2 w.1 = .ok q := by
  cases hget : db.findings.get? findingId with
  | none =>
    have hstep : db.clusterStep (.link findingId) = db := by
      simp only [clusterStep, step, CorrelationOp.perform, linkFinding, hget]
    have hlinks : db.eventLinks (.link findingId) = [] := by
      simp only [eventLinks, hget, Option.elim_none]
    rw [hstep, hlinks]
    exact ⟨rfl, rfl, fun q => by simp⟩
  | some finding =>
    have hpairs : ∀ w ∈ db.linkWrites finding, ∃ q, normalizePair w.2 w.1 = .ok q := by
      intro w hw
      obtain ⟨key, -, -, hspoke⟩ := linkable_of_mem_linkWrites hw
      obtain ⟨root, hroot, row, hrow, hrootId, hrowId, -, -, -, hne, -⟩ :=
        linkable_of_mem_spokes hspoke
      rw [← hrootId, ← hrowId]
      exact ⟨_, normalizePair_of_plain (hplain root hroot) (hplain row hrow) hne⟩
    obtain ⟨⟨db', decision⟩, happly⟩ := applyCorrelationLinking_ok_iff.mpr hpairs
    obtain ⟨hsame, -, hptr, hedges⟩ := applyCorrelationLinking_eq_ok happly
    have hstep : db.clusterStep (.link findingId) = db' := by
      simp only [clusterStep, step, CorrelationOp.perform, linkFinding, hget, happly]
      rfl
    have hlinks : db.eventLinks (.link findingId) = db.linkWrites finding := by
      simp only [eventLinks, hget, Option.elim_some]
    rw [hstep, hlinks]
    exact ⟨hsame, hptr, hedges⟩

/-- A finding is stored without a pointer, if it is stored. -/
theorem CorrelationDb.clusterStep_store (db : CorrelationDb) (finding : Finding) (source : Str)
    (plain : PlainId finding.id) :
    db.clusterStep (.store finding source plain) = db ∨
      db.findings.get? finding.id = none ∧
        (db.clusterStep (.store finding source plain)).findings.rows =
          db.findings.rows ++ [finding.pointTo none] ∧
        (db.clusterStep (.store finding source plain)).edges = db.edges := by
  unfold clusterStep
  dsimp only
  cases hget : db.findings.get? finding.id with
  | some old => exact Or.inl rfl
  | none =>
    cases hstore : storeFinding db.findings finding with
    | none =>
      left
      simp only [Option.isSome_none, Bool.false_eq_true, ↓reduceIte, step, CorrelationOp.perform,
        store, hstore]
      rfl
    | some findings =>
      right
      simp only [Option.isSome_none, Bool.false_eq_true, ↓reduceIte, step, CorrelationOp.perform,
        store, hstore]
      unfold storeFinding at hstore
      rw [hget] at hstore
      exact ⟨trivial, Table.rows_of_insert? hstore, rfl⟩

/-! ### Traces -/

/-- Pointers and edges say what was linked, and what was linked can be. -/
structure EdgeTraced (hist : List (Str × Str)) (db : CorrelationDb) : Prop where
  plain : ∀ row ∈ db.findings.rows, PlainId row.id
  linked : ∀ w ∈ hist, ∃ root ∈ db.findings.rows, ∃ row ∈ db.findings.rows,
    root.id = w.2 ∧ row.id = w.1 ∧ Linkable root row
  pointer : ∀ x root, pointerOf db.findings x = some (some root) → (x, root) ∈ hist
  edges : ∀ q, EdgeActive db.edges q ↔ ∃ w ∈ hist, normalizePair w.2 w.1 = .ok q

theorem edgeTraced_empty : EdgeTraced [] CorrelationDb.empty where
  plain _ h := by cases h
  linked _ h := by cases h
  pointer _ _ h := by cases h
  edges q := by
    refine iff_of_false ?_ fun ⟨_, h, _⟩ => by cases h
    rintro ⟨_, h, -⟩
    cases h

theorem linkable_congr {root root' row row' : Finding}
    (hroot : root'.pointTo none = root.pointTo none) (hrow : row'.pointTo none = row.pointTo none) :
    Linkable root' row' ↔ Linkable root row := by
  change Linkable (root'.pointTo none) (row'.pointTo none) ↔
    Linkable (root.pointTo none) (row.pointTo none)
  rw [hroot, hrow]

omit [Unicode] in
theorem SameButPointers.exists_row {findings findings' : Table Finding}
    (h : SameButPointers findings findings') {row : Finding} (hrow : row ∈ findings.rows) :
    ∃ row' ∈ findings'.rows, row'.pointTo none = row.pointTo none := by
  have hmem : row.pointTo none ∈ findings'.rows.map (Finding.pointTo none) := by
    rw [h]
    exact List.mem_map_of_mem hrow
  exact List.mem_map.mp hmem

/-- What can be linked still can where the findings stay up to their pointers. -/
theorem linkable_of_rows {rows rows' : List Finding}
    (hrows : ∀ row ∈ rows, ∃ row' ∈ rows', row'.pointTo none = row.pointTo none) {w : Str × Str}
    (hw : ∃ root ∈ rows, ∃ row ∈ rows, root.id = w.2 ∧ row.id = w.1 ∧ Linkable root row) :
    ∃ root ∈ rows', ∃ row ∈ rows', root.id = w.2 ∧ row.id = w.1 ∧ Linkable root row := by
  obtain ⟨root, hroot, row, hrow, hrootId, hrowId, hlinkable⟩ := hw
  obtain ⟨root', hroot', hrootEq⟩ := hrows root hroot
  obtain ⟨row', hrow', hrowEq⟩ := hrows row hrow
  exact ⟨root', hroot', row', hrow', (congrArg Finding.id hrootEq).trans hrootId,
    (congrArg Finding.id hrowEq).trans hrowId, (linkable_congr hrootEq hrowEq).mpr hlinkable⟩

theorem CorrelationDb.linkable_of_mem_eventLinks {db : CorrelationDb} {e : ClusterEvent}
    {w : Str × Str} (h : w ∈ db.eventLinks e) :
    ∃ finding key, db.findings.get? finding.id = some finding ∧
      finding.correlationKey = some key ∧ finding.id ∈ db.clusterIds key finding.tenantId ∧
        w ∈ spokes (db.bareCluster key finding.tenantId) := by
  cases e with
  | link findingId =>
    cases hget : db.findings.get? findingId with
    | none =>
      simp only [eventLinks, hget, Option.elim_none] at h
      cases h
    | some finding =>
      simp only [eventLinks, hget, Option.elim_some] at h
      obtain ⟨key, hkey, hid, hspoke⟩ := linkable_of_mem_linkWrites h
      have hfinding : finding.id = findingId := Table.pk_of_get? hget
      exact ⟨finding, key, by rw [hfinding, hget], hkey, hid, hspoke⟩
  | _ => cases h

/-- One event. -/
theorem EdgeTraced.step {hist : List (Str × Str)} {db : CorrelationDb} (h : EdgeTraced hist db)
    (e : ClusterEvent) : EdgeTraced (hist ++ db.eventLinks e) (db.clusterStep e) := by
  cases e with
  | store finding source plain =>
    rw [show db.eventLinks (.store finding source plain) = [] from rfl, List.append_nil]
    rcases db.clusterStep_store finding source plain with heq | ⟨-, hrows, hedges⟩
    · rwa [heq]
    · refine ⟨?_, fun w hw => linkable_of_rows ?_ (h.linked w hw), fun x root hptr => ?_, ?_⟩
      · rw [hrows, List.forall_mem_append, List.forall_mem_singleton]
        exact ⟨h.plain, plain⟩
      · rw [hrows]
        exact fun row hrow => ⟨row, List.mem_append_left _ hrow, rfl⟩
      · obtain ⟨row, hget, hrow⟩ := Option.map_eq_some_iff.mp hptr
        obtain ⟨hmem, hid⟩ := Table.get?_eq_some_iff.mp hget
        rw [hrows, List.mem_append, List.mem_singleton] at hmem
        obtain hmem | rfl := hmem
        · refine h.pointer x root ?_
          rw [pointerOf, Table.get?_eq_some_iff.mpr ⟨hmem, hid⟩, Option.map_some, hrow]
        · cases hrow
      · rw [hedges]
        exact h.edges
  | link findingId =>
    obtain ⟨hsame, hptr, hedges⟩ := CorrelationDb.clusterStep_link h.plain findingId
    refine ⟨fun row' hrow' => ?_, fun w hw => linkable_of_rows (fun _ => hsame.exists_row) ?_,
      fun x root hx => ?_, fun q => ?_⟩
    · obtain ⟨row, hrow, heq⟩ := SameButPointers.exists_row hsame.symm hrow'
      have hid : (row.pointTo none).id = (row'.pointTo none).id := congrArg Finding.id heq
      exact (show row.id = row'.id from hid) ▸ h.plain row hrow
    · rcases List.mem_append.mp hw with hw | hw
      · exact h.linked w hw
      · obtain ⟨_, _, -, -, -, hspoke⟩ := CorrelationDb.linkable_of_mem_eventLinks hw
        exact CorrelationDb.linkable_of_mem_spokes hspoke
    · rw [hptr] at hx
      rcases links_eq_or_mem (pointerOf db.findings)
        ((db.eventLinks (.link findingId)).map fun w => (w.1, some w.2)) x with
        heq | ⟨target, hmem, heq⟩
      · exact List.mem_append_left _ (h.pointer x root (heq.symm.trans hx))
      · obtain ⟨w, hw, hpair⟩ := List.mem_map.mp hmem
        cases hpair
        rw [heq] at hx
        cases hx
        exact List.mem_append_right _ hw
    · rw [hedges, h.edges]
      simp only [List.mem_append, or_and_right, exists_or]
  | crosswalk source sourceVersion entries =>
    rw [show db.eventLinks (.crosswalk source sourceVersion entries) = [] from rfl,
      List.append_nil]
    exact ⟨h.plain, h.linked, h.pointer, h.edges⟩

/-- All events: pointers and edges say what was linked. -/
theorem EdgeTraced.run {hist : List (Str × Str)} {db : CorrelationDb} (h : EdgeTraced hist db)
    (events : List ClusterEvent) :
    EdgeTraced (hist ++ history db events) (run CorrelationDb.clusterStep db events) := by
  induction events generalizing hist db with
  | nil =>
    rw [history, List.append_nil]
    exact h
  | cons e events ih =>
    rw [history, ← List.append_assoc, run_cons]
    exact ih (h.step e)

/-! ### Clusters that are up to date -/

omit [Unicode] in
/-- The own tenant of a row of a tenant. -/
theorem normalizeTenantId_of_coalesced {column tenantId : Option Str}
    (h : CoalescedTenantEquals column tenantId) :
    normalizeTenantId column = normalizeTenantId tenantId := by
  unfold CoalescedTenantEquals at h
  cases column with
  | none => exact h
  | some t =>
    rw [Option.getD_some] at h
    rw [h, normalizeTenantId_idem]

omit [Unicode] in
theorem CorrelationDb.bareCluster_congr_tenant (db : CorrelationDb) (key : Str)
    {tenantId tenantId' : Option Str} (h : normalizeTenantId tenantId = normalizeTenantId tenantId') :
    db.bareCluster key tenantId = db.bareCluster key tenantId' := by
  rw [bareCluster_eq, bareCluster_eq]
  refine congrArg _ (List.filter_congr fun r _ => ?_)
  rw [decide_eq_decide, CoalescedTenantEquals, CoalescedTenantEquals, h]

omit [Unicode] in
/-- A member of a cluster has its key and its tenant. -/
theorem CorrelationDb.exists_row_of_mem_clusterIds {db : CorrelationDb} {key id : Str}
    {tenantId : Option Str} (h : id ∈ db.clusterIds key tenantId) :
    ∃ row, db.findings.get? id = some row ∧ row.correlationKey = some key ∧
      CoalescedTenantEquals row.tenantId tenantId ∧
        db.bareCluster key row.tenantId = db.bareCluster key tenantId := by
  obtain ⟨bare, hbare, rfl⟩ := List.mem_map.mp h
  obtain ⟨row, hrow, rfl, hkey, htenant⟩ := mem_bareCluster.mp hbare
  exact ⟨row, Table.get?_pk_of_mem hrow, hkey, htenant,
    db.bareCluster_congr_tenant key (normalizeTenantId_of_coalesced htenant)⟩

/-- A run that links a member of a cluster, or is started by one, links the spokes of the
cluster. -/
theorem CorrelationDb.eventLinks_link {db : CorrelationDb} {key id : Str} {tenantId : Option Str}
    (h : id ∈ db.clusterIds key tenantId) :
    db.eventLinks (.link id) = spokes (db.bareCluster key tenantId) := by
  obtain ⟨row, hget, hkey, -, hcluster⟩ := exists_row_of_mem_clusterIds h
  have hid : row.id = id := Table.pk_of_get? hget
  have hmem : row.id ∈ db.clusterIds key row.tenantId := by
    rw [clusterIds, hcluster, hid]
    exact h
  simp only [eventLinks, hget, Option.elim_some]
  rw [linkWrites_eq_spokes hkey hmem, hcluster]

/-- A link of a member of a cluster is one of the spokes of the cluster. -/
theorem CorrelationDb.mem_spokes_of_mem_eventLinks {db : CorrelationDb} {e : ClusterEvent}
    {key : Str} {tenantId : Option Str} {w : Str × Str} (hw : w ∈ db.eventLinks e)
    (hmem : w.1 ∈ db.clusterIds key tenantId) : w ∈ spokes (db.bareCluster key tenantId) := by
  obtain ⟨finding, key', -, -, -, hspoke⟩ := linkable_of_mem_eventLinks hw
  obtain ⟨row, hget, hkey, -, hcluster⟩ := exists_row_of_mem_clusterIds hmem
  obtain ⟨row', hget', hkey', -, hcluster'⟩ :=
    exists_row_of_mem_clusterIds (mem_ids_of_mem_spokes hspoke)
  cases hget.symm.trans hget'
  cases hkey.symm.trans hkey'
  rwa [← hcluster, hcluster']

/-- What a run of linking links in a cluster was linked, and the pointers lead there. -/
structure UpToDate (hist : List (Str × Str)) (db : CorrelationDb) (key : Str)
    (tenantId : Option Str) : Prop where
  linked : ∀ w ∈ spokes (db.bareCluster key tenantId), w ∈ hist
  pointer : ∀ w ∈ spokes (db.bareCluster key tenantId),
    pointerOf db.findings w.1 = some (some w.2)

/-- The event stores a finding of the cluster. -/
def ClusterEvent.StoresInto (key : Str) (tenantId : Option Str) : ClusterEvent → Prop
  | .store finding _ _ =>
    finding.correlationKey = some key ∧ CoalescedTenantEquals finding.tenantId tenantId
  | _ => False

omit [Unicode] in
/-- Other events leave the cluster as it is, up to pointers. -/
theorem CorrelationDb.bareCluster_congr_rows {db db' : CorrelationDb} {key : Str}
    {tenantId : Option Str} {new : List Finding}
    (hrows : db'.findings.rows = db.findings.rows ++ new)
    (hnew : ∀ r ∈ new, ¬ (r.correlationKey = some key ∧ CoalescedTenantEquals r.tenantId tenantId)) :
    db'.bareCluster key tenantId = db.bareCluster key tenantId := by
  rw [bareCluster_eq, bareCluster_eq, hrows, List.map_append, List.filter_append]
  have hnil : (new.map (Finding.pointTo none)).filter (fun r =>
      r.correlationKey = some key ∧ CoalescedTenantEquals r.tenantId tenantId) = [] := by
    rw [List.filter_eq_nil_iff]
    intro r hr
    obtain ⟨r', hr', rfl⟩ := List.mem_map.mp hr
    rw [decide_eq_true_eq]
    exact hnew r' hr'
  rw [hnil, List.append_nil]

variable {hist : List (Str × Str)} {db : CorrelationDb} {key : Str} {tenantId : Option Str}

theorem CorrelationDb.bareCluster_clusterStep (h : EdgeTraced hist db) {e : ClusterEvent}
    (he : ¬ e.StoresInto key tenantId) :
    (db.clusterStep e).bareCluster key tenantId = db.bareCluster key tenantId := by
  cases e with
  | store finding source plain =>
    rcases db.clusterStep_store finding source plain with heq | ⟨-, hrows, -⟩
    · rw [heq]
    · refine bareCluster_congr_rows hrows fun r hr => ?_
      rw [List.mem_singleton.mp hr]
      exact he
  | link findingId => exact bareCluster_of_sameButPointers (clusterStep_link h.plain findingId).1 _ _
  | crosswalk source sourceVersion entries => rfl

/-- The pointer of a spoke after a run of linking. -/
theorem pointerOf_link (h : EdgeTraced hist db) {id : Str} {w : Str × Str}
    (hw : w ∈ spokes (db.bareCluster key tenantId))
    (hptr : w ∈ db.eventLinks (.link id) ∨ pointerOf db.findings w.1 = some (some w.2)) :
    pointerOf (db.clusterStep (.link id)).findings w.1 = some (some w.2) := by
  obtain ⟨-, hlinks, -⟩ := CorrelationDb.clusterStep_link h.plain id
  rw [hlinks]
  by_cases hmem : w.1 ∈ ((db.eventLinks (.link id)).map fun w => (w.1, some w.2)).map Prod.fst
  · obtain ⟨target, htarget, heq⟩ := exists_links_of_mem (pointerOf db.findings) hmem
    obtain ⟨w', hw', hpair⟩ := List.mem_map.mp htarget
    obtain ⟨hid, rfl⟩ := Prod.mk.inj hpair
    -- the run links the same member, so that it is a run of the same cluster
    have hspoke : w' ∈ spokes (db.bareCluster key tenantId) :=
      CorrelationDb.mem_spokes_of_mem_eventLinks hw' (hid ▸ mem_ids_of_mem_spokes hw)
    rw [heq, snd_eq_of_mem_spokes hspoke hw]
  · have hold : pointerOf db.findings w.1 = some (some w.2) := by
      refine hptr.resolve_left fun hlink => hmem ?_
      rw [List.map_map]
      exact List.mem_map_of_mem hlink
    rcases links_eq_or_mem (pointerOf db.findings)
      ((db.eventLinks (.link id)).map fun w => (w.1, some w.2)) w.1 with heq | ⟨target, htarget, -⟩
    · exact heq.trans hold
    · exact absurd (List.mem_map_of_mem htarget) hmem

/-- After a run that a member starts, the cluster is up to date. -/
theorem upToDate_link (h : EdgeTraced hist db) {id : Str} (hid : id ∈ db.clusterIds key tenantId) :
    UpToDate (hist ++ db.eventLinks (.link id)) (db.clusterStep (.link id)) key tenantId := by
  have hcluster : (db.clusterStep (.link id)).bareCluster key tenantId = db.bareCluster key tenantId :=
    CorrelationDb.bareCluster_clusterStep h fun hn => hn
  have hlinks := CorrelationDb.eventLinks_link hid
  refine ⟨fun w hw => ?_, fun w hw => ?_⟩
  all_goals rw [hcluster] at hw
  · rw [hlinks]
    exact List.mem_append_right _ hw
  · exact pointerOf_link h hw (Or.inl (hlinks ▸ hw))

/-- An event that stores no finding of the cluster keeps it up to date. -/
theorem UpToDate.step (hcurrent : UpToDate hist db key tenantId) (h : EdgeTraced hist db)
    {e : ClusterEvent} (he : ¬ e.StoresInto key tenantId) :
    UpToDate (hist ++ db.eventLinks e) (db.clusterStep e) key tenantId := by
  have hcluster := CorrelationDb.bareCluster_clusterStep h he
  refine ⟨fun w hw => ?_, fun w hw => ?_⟩
  all_goals rw [hcluster] at hw
  · exact List.mem_append_left _ (hcurrent.linked w hw)
  · have hptr := hcurrent.pointer w hw
    cases e with
    | link findingId => exact pointerOf_link h hw (Or.inr hptr)
    | crosswalk source sourceVersion entries => exact hptr
    | store finding source plain =>
      rcases db.clusterStep_store finding source plain with heq | ⟨-, hrows, -⟩
      · rwa [heq]
      · obtain ⟨row, hget, hrow⟩ := Option.map_eq_some_iff.mp hptr
        obtain ⟨hmem, hid⟩ := Table.get?_eq_some_iff.mp hget
        have hmem' : row ∈ (db.clusterStep (.store finding source plain)).findings.rows := by
          rw [hrows]
          exact List.mem_append_left _ hmem
        rw [pointerOf, Table.get?_eq_some_iff.mpr ⟨hmem', hid⟩, Option.map_some, hrow]

/-- A member of the cluster started a run of linking after the last finding of the cluster was
stored. -/
def LinkedLast (key : Str) (tenantId : Option Str) (events : List ClusterEvent) : Prop :=
  ∃ pre id post, events = pre ++ .link id :: post ∧
    id ∈ (run CorrelationDb.clusterStep .empty pre).clusterIds key tenantId ∧
      ∀ e ∈ post, ¬ e.StoresInto key tenantId

theorem UpToDate.run (hcurrent : UpToDate hist db key tenantId) (h : EdgeTraced hist db)
    {events : List ClusterEvent} (hevents : ∀ e ∈ events, ¬ e.StoresInto key tenantId) :
    UpToDate (hist ++ history db events) (run CorrelationDb.clusterStep db events) key tenantId := by
  induction events generalizing hist db with
  | nil =>
    rw [history, List.append_nil]
    exact hcurrent
  | cons e events ih =>
    obtain ⟨he, hevents⟩ := List.forall_mem_cons.mp hevents
    rw [history, ← List.append_assoc, run_cons]
    exact ih (hcurrent.step h he) (h.step e) hevents

/-- Then the cluster is up to date. -/
theorem LinkedLast.upToDate {events : List ClusterEvent} (h : LinkedLast key tenantId events) :
    UpToDate (history .empty events) (Transition.run CorrelationDb.clusterStep .empty events) key
      tenantId := by
  obtain ⟨pre, id, post, rfl, hid, hpost⟩ := h
  have htraced := edgeTraced_empty.run pre
  rw [List.nil_append] at htraced
  rw [history_append, history, ← List.append_assoc, run_append, run_cons]
  exact (upToDate_link htraced hid).run (htraced.step _) hpost

/-! ### Stars -/

/-- The pointers and the edges in use of a cluster are its spokes: the members that join the oldest
one point at it, the others at none, and the edges between members are those with it. -/
structure CorrelationDb.IsStar (db : CorrelationDb) (key : Str) (tenantId : Option Str) : Prop where
  pointers : ∀ id ∈ db.clusterIds key tenantId,
    pointerOf db.findings id = some ((spokes (db.bareCluster key tenantId)).lookup id)
  edges : ∀ a ∈ db.clusterIds key tenantId, ∀ b ∈ db.clusterIds key tenantId, ∀ q,
    normalizePair a b = .ok q →
      (EdgeActive db.edges q ↔
        ∃ w ∈ spokes (db.bareCluster key tenantId), normalizePair w.2 w.1 = .ok q)

theorem mem_of_lookup_spokes {cluster : List Finding} {id root : Str}
    (h : (spokes cluster).lookup id = some root) : (id, root) ∈ spokes cluster := by
  obtain ⟨before, after, heq, -⟩ := List.lookup_eq_some_iff.mp h
  rw [heq]
  exact List.mem_append_right _ List.mem_cons_self

theorem head?_of_mem_spokes {cluster : List Finding} {w : Str × Str} (h : w ∈ spokes cluster) :
    (cluster.map Finding.id).head? = some w.2 := by
  cases cluster with
  | nil => cases h
  | cons root rows =>
    obtain ⟨row, -, -, rfl⟩ := mem_spokes.mp h
    rfl

theorem lookup_spokes {cluster : List Finding} {w : Str × Str} (h : w ∈ spokes cluster) :
    (spokes cluster).lookup w.1 = some w.2 := by
  cases hlookup : (spokes cluster).lookup w.1 with
  | none => simpa using List.lookup_eq_none_iff.mp hlookup w h
  | some root => rw [snd_eq_of_mem_spokes h (mem_of_lookup_spokes hlookup)]

/-- What was linked to the oldest member of a cluster is one of its spokes. -/
theorem EdgeTraced.mem_spokes (h : EdgeTraced hist db) {w : Str × Str} (hw : w ∈ hist)
    (hmem : w.1 ∈ db.clusterIds key tenantId)
    (hroot : (db.clusterIds key tenantId).head? = some w.2) :
    w ∈ spokes (db.bareCluster key tenantId) := by
  obtain ⟨root, hrootMem, row, hrowMem, hrootId, hrowId, hlinkable⟩ := h.linked w hw
  have hbare : ∀ b ∈ db.bareCluster key tenantId, ∀ r ∈ db.findings.rows, b.id = r.id →
      b = r.pointTo none := by
    intro b hb r hr hid
    obtain ⟨r', hr', rfl, -⟩ := CorrelationDb.mem_bareCluster.mp hb
    rw [Table.eq_of_pk hr' hr hid]
  unfold CorrelationDb.clusterIds at hmem hroot
  generalize db.bareCluster key tenantId = cluster at hmem hroot hbare
  cases cluster with
  | nil => cases hmem
  | cons first rest =>
    have hfirst : first = root.pointTo none :=
      hbare first List.mem_cons_self root hrootMem ((Option.some_inj.mp hroot).trans hrootId.symm)
    obtain ⟨b, hb, hid⟩ := List.mem_map.mp hmem
    have hrow : b = row.pointTo none := hbare b hb row hrowMem (hid.trans hrowId.symm)
    obtain ⟨-, -, -, hne, hjoins⟩ := hlinkable
    have hrest : b ∈ rest := by
      refine (List.mem_cons.mp hb).resolve_left ?_
      rintro rfl
      have hid : (root.pointTo none).id = (row.pointTo none).id := by rw [← hfirst, ← hrow]
      exact hne hid
    subst hfirst hrow
    exact Vat.mem_spokes.mpr ⟨_, hrest, hjoins, Prod.ext hrowId.symm hrootId.symm⟩

/-- The root of a link of a member is in the cluster. -/
theorem EdgeTraced.root_mem_clusterIds (h : EdgeTraced hist db) {w : Str × Str} (hw : w ∈ hist)
    (hmem : w.1 ∈ db.clusterIds key tenantId) : w.2 ∈ db.clusterIds key tenantId := by
  obtain ⟨root, hroot, row, hrow, hrootId, hrowId, ⟨key', hkey, hkey'⟩, htenant, -⟩ := h.linked w hw
  obtain ⟨row', hget, hrowKey, hrowTenant, -⟩ := CorrelationDb.exists_row_of_mem_clusterIds hmem
  obtain rfl : row' = row := by
    refine Table.eq_of_pk (Table.mem_of_get? hget) hrow ((Table.pk_of_get? hget).trans hrowId.symm)
  cases hkey'.symm.trans hrowKey
  exact List.mem_map.mpr ⟨root.pointTo none,
    CorrelationDb.mem_bareCluster.mpr ⟨root, hroot, rfl, hkey, htenant.trans hrowTenant⟩, hrootId⟩

/-- A link and a spoke with one pair are the same. -/
theorem EdgeTraced.eq_of_pair (h : EdgeTraced hist db) {w v : Str × Str} (hw : w ∈ hist)
    (hv : v ∈ spokes (db.bareCluster key tenantId))
    (hpair : normalizePair v.2 v.1 = normalizePair w.2 w.1) : v = w := by
  obtain ⟨root, hroot, row, hrow, hrootId, hrowId, -, -, hbefore, hne, -⟩ := h.linked w hw
  obtain ⟨root', hroot', row', hrow', hrootId', hrowId', -, -, hbefore', hne', -⟩ :=
    CorrelationDb.linkable_of_mem_spokes hv
  rw [← hrootId, ← hrowId, ← hrootId', ← hrowId'] at hpair
  rcases eq_or_eq_of_normalizePair (h.plain root' hroot') (h.plain row' hrow') hne'
    (h.plain root hroot) (h.plain row hrow) hne hpair with ⟨hr, hx⟩ | ⟨hr, hx⟩
  · exact Prod.ext (hrowId'.symm.trans (hx.trans hrowId)) (hrootId'.symm.trans (hr.trans hrootId))
  · -- each of the two would be older than the other
    rw [Table.eq_of_pk hroot' hrow hr, Table.eq_of_pk hrow' hroot hx] at hbefore'
    exact absurd (hbefore.antisymm hbefore') hne

/-- A link between two members is a link of a member. -/
theorem EdgeTraced.mem_clusterIds_of_pair (h : EdgeTraced hist db) {w : Str × Str} (hw : w ∈ hist)
    {a b : Str} (ha : a ∈ db.clusterIds key tenantId) (hb : b ∈ db.clusterIds key tenantId)
    (hab : a ≠ b) (hpair : normalizePair w.2 w.1 = normalizePair a b) :
    w.1 ∈ db.clusterIds key tenantId := by
  obtain ⟨root, hroot, row, hrow, hrootId, hrowId, -, -, -, hne, -⟩ := h.linked w hw
  have hplain : ∀ id ∈ db.clusterIds key tenantId, PlainId id := by
    intro id hid
    obtain ⟨r, hget, -⟩ := CorrelationDb.exists_row_of_mem_clusterIds hid
    have hrid : r.id = id := Table.pk_of_get? hget
    exact hrid ▸ h.plain r (Table.mem_of_get? hget)
  rw [← hrootId, ← hrowId] at hpair
  rcases eq_or_eq_of_normalizePair (h.plain root hroot) (h.plain row hrow) hne (hplain a ha)
    (hplain b hb) hab hpair with ⟨-, hx⟩ | ⟨-, hx⟩
  · rwa [← hrowId, hx]
  · rwa [← hrowId, hx]

/-- A cluster that is up to date is a star exactly when its members were linked to the oldest one
only. -/
theorem isStar_iff_of_upToDate (h : EdgeTraced hist db) (hcurrent : UpToDate hist db key tenantId) :
    db.IsStar key tenantId ↔
      ∀ w ∈ hist, w.1 ∈ db.clusterIds key tenantId →
        (db.clusterIds key tenantId).head? = some w.2 := by
  constructor
  · intro hstar w hw hmem
    obtain ⟨root, hroot, row, hrow, hrootId, hrowId, -, -, -, hne, -⟩ := h.linked w hw
    have hq := normalizePair_of_plain (h.plain root hroot) (h.plain row hrow) hne
    rw [hrootId, hrowId] at hq
    obtain ⟨v, hv, hpair⟩ := (hstar.edges _ (h.root_mem_clusterIds hw hmem) _ hmem _ hq).mp
      ((h.edges _).mpr ⟨w, hw, hq⟩)
    rw [← h.eq_of_pair hw hv (hpair.trans hq.symm)]
    exact head?_of_mem_spokes hv
  · intro hroots
    constructor
    · intro id hid
      cases hlookup : (spokes (db.bareCluster key tenantId)).lookup id with
      | some root => exact hcurrent.pointer _ (mem_of_lookup_spokes hlookup)
      | none =>
        obtain ⟨row, hget, -⟩ := CorrelationDb.exists_row_of_mem_clusterIds hid
        have hptr : pointerOf db.findings id = some row.correlatedTo := by
          rw [pointerOf, hget, Option.map_some]
        cases htarget : row.correlatedTo with
        | none => rw [hptr, htarget]
        | some root =>
          rw [htarget] at hptr
          have hw := h.pointer id root hptr
          have hspoke := h.mem_spokes hw hid (hroots _ hw hid)
          rw [lookup_spokes hspoke] at hlookup
          cases hlookup
    · intro a ha b hb q hq
      rw [h.edges]
      constructor
      · rintro ⟨w, hw, hpair⟩
        have hmem := h.mem_clusterIds_of_pair hw ha hb (ne_of_normalizePair hq)
          (hpair.trans hq.symm)
        exact ⟨w, h.mem_spokes hw hmem (hroots w hw hmem), hpair⟩
      · rintro ⟨w, hw, hpair⟩
        exact ⟨w, hcurrent.linked w hw, hpair⟩

/-- A further run that a member starts leaves a cluster that is up to date as it is. -/
theorem UpToDate.link_eq (h : EdgeTraced hist db) (hcurrent : UpToDate hist db key tenantId) {id : Str}
    (hid : id ∈ db.clusterIds key tenantId) :
    SameButPointers db.findings (db.clusterStep (.link id)).findings ∧
      pointerOf (db.clusterStep (.link id)).findings = pointerOf db.findings ∧
      ∀ q, EdgeActive (db.clusterStep (.link id)).edges q ↔ EdgeActive db.edges q := by
  obtain ⟨hsame, hptr, hedges⟩ := CorrelationDb.clusterStep_link h.plain id
  rw [CorrelationDb.eventLinks_link hid] at hptr hedges
  refine ⟨hsame, ?_, fun q => ?_⟩
  · rw [hptr]
    funext x
    rcases links_eq_or_mem (pointerOf db.findings)
      ((spokes (db.bareCluster key tenantId)).map fun w => (w.1, some w.2)) x with
      heq | ⟨target, hmem, heq⟩
    · exact heq
    · obtain ⟨w, hw, hpair⟩ := List.mem_map.mp hmem
      cases hpair
      rw [heq, hcurrent.pointer w hw]
  · rw [hedges]
    refine or_iff_left_of_imp ?_
    rintro ⟨w, hw, hpair⟩
    exact (h.edges q).mpr ⟨w, hcurrent.linked w hw, hpair⟩

/-- Events that store no finding of the cluster leave it as it is. -/
theorem bareCluster_run (h : EdgeTraced hist db) {events : List ClusterEvent}
    (hevents : ∀ e ∈ events, ¬ e.StoresInto key tenantId) :
    (run CorrelationDb.clusterStep db events).bareCluster key tenantId =
      db.bareCluster key tenantId := by
  induction events generalizing hist db with
  | nil => rfl
  | cons e events ih =>
    obtain ⟨he, hevents⟩ := List.forall_mem_cons.mp hevents
    rw [run_cons, ih (h.step e) hevents, CorrelationDb.bareCluster_clusterStep h he]

/-- What such events link in the cluster are its spokes. -/
theorem mem_spokes_of_mem_history (h : EdgeTraced hist db) {events : List ClusterEvent}
    (hevents : ∀ e ∈ events, ¬ e.StoresInto key tenantId) {w : Str × Str}
    (hw : w ∈ history db events) (hmem : w.1 ∈ db.clusterIds key tenantId) :
    w ∈ spokes (db.bareCluster key tenantId) := by
  induction events generalizing hist db with
  | nil => cases hw
  | cons e events ih =>
    obtain ⟨he, hevents⟩ := List.forall_mem_cons.mp hevents
    have hcluster := CorrelationDb.bareCluster_clusterStep h he
    rcases List.mem_append.mp hw with hw | hw
    · exact CorrelationDb.mem_spokes_of_mem_eventLinks hw hmem
    · rw [← hcluster]
      refine ih (h.step e) hevents hw ?_
      rwa [CorrelationDb.clusterIds, hcluster]

/-- Once a member has started a run of linking after all were stored, a cluster is a star exactly
when what was linked before was linked to the oldest member; and further runs change nothing in
either case. -/
theorem isStar_iff_and_settled {pre events : List ClusterEvent}
    (hevents : ∀ e ∈ events, ¬ e.StoresInto key tenantId)
    (hlink : ∃ id ∈ (Transition.run CorrelationDb.clusterStep .empty pre).clusterIds key tenantId,
      ClusterEvent.link id ∈ events) :
    let db := Transition.run CorrelationDb.clusterStep .empty (pre ++ events)
    (db.IsStar key tenantId ↔
        ∀ w ∈ history .empty pre, w.1 ∈ db.clusterIds key tenantId →
          (db.clusterIds key tenantId).head? = some w.2) ∧
      ∀ id ∈ db.clusterIds key tenantId,
        SameButPointers db.findings (db.clusterStep (.link id)).findings ∧
          pointerOf (db.clusterStep (.link id)).findings = pointerOf db.findings ∧
          ∀ q, EdgeActive (db.clusterStep (.link id)).edges q ↔ EdgeActive db.edges q := by
  have hpre := edgeTraced_empty.run pre
  rw [List.nil_append] at hpre
  have htraced := edgeTraced_empty.run (pre ++ events)
  rw [List.nil_append] at htraced
  have hcluster := bareCluster_run hpre hevents
  rw [← run_append] at hcluster
  obtain ⟨id, hid, hmem⟩ := hlink
  obtain ⟨before, after, rfl⟩ := List.append_of_mem hmem
  have hlast : LinkedLast key tenantId (pre ++ (before ++ .link id :: after)) := by
    refine ⟨pre ++ before, id, after, (List.append_assoc ..).symm, ?_, fun e he =>
      hevents e (List.mem_append_right _ (List.mem_cons_of_mem _ he))⟩
    rw [run_append, CorrelationDb.clusterIds, bareCluster_run hpre fun e he =>
      hevents e (List.mem_append_left _ he)]
    exact hid
  refine ⟨(isStar_iff_of_upToDate htraced hlast.upToDate).trans ⟨fun hroots w hw => ?_,
    fun hroots w hw hw' => ?_⟩, fun id hid => hlast.upToDate.link_eq htraced hid⟩
  · refine hroots w ?_
    rw [history_append]
    exact List.mem_append_left _ hw
  · rw [history_append] at hw
    rcases List.mem_append.mp hw with hw | hw
    · exact hroots w hw hw'
    · rw [CorrelationDb.clusterIds, hcluster] at hw' ⊢
      exact head?_of_mem_spokes (mem_spokes_of_mem_history hpre hevents hw hw')

end Stars

section Older

attribute [local instance] asciiUnicode

/-- Two findings of a container image, the second of which is linked. -/
def linkedPair : List ClusterEvent :=
  [.store (relinkFinding (str "f-1") 1) (str "Trivy") ⟨by decide, by decide⟩,
    .store (relinkFinding (str "f-2") 2) (str "Grype") ⟨by decide, by decide⟩,
    .link (str "f-2")]

/-- An older one that is stored then. -/
def olderStored : ClusterEvent :=
  .store (relinkFinding (str "f-0") 0) (str "Aikido") ⟨by decide, by decide⟩

/-- Runs of linking of all three. -/
def relinkRuns : List ClusterEvent :=
  [.link (str "f-0"), .link (str "f-1"), .link (str "f-2")]

/-- After all three were linked to the older finding, the edge of the other two is still in use. -/
theorem not_isStar_olderStored :
    ¬ ∀ (events : List ClusterEvent) (key : Str) (tenantId : Option Str),
        (∀ id ∈ (run CorrelationDb.clusterStep .empty events).clusterIds key tenantId,
          ∃ pre post, events = pre ++ .link id :: post ∧ ∀ e ∈ post, ¬ e.StoresInto key tenantId) →
        (run CorrelationDb.clusterStep .empty events).IsStar key tenantId := by
  intro h
  have hruns : ∀ e ∈ relinkRuns, ¬ e.StoresInto (str "v1:sca") none := by
    simp [relinkRuns, ClusterEvent.StoresInto]
  have hids : (run CorrelationDb.clusterStep .empty
      (linkedPair ++ olderStored :: relinkRuns)).clusterIds (str "v1:sca") none =
        [str "f-0", str "f-1", str "f-2"] := by decide +kernel
  have hstar := h (linkedPair ++ olderStored :: relinkRuns) (str "v1:sca") none ?_
  · obtain ⟨w, hw, hpair⟩ := (hstar.edges (str "f-1") (by simp [hids]) (str "f-2") (by simp [hids])
      (str "f-1", str "f-2") rfl).mp ⟨_, rfl, rfl⟩
    have hspokes : ∀ w ∈ spokes ((run CorrelationDb.clusterStep .empty
        (linkedPair ++ olderStored :: relinkRuns)).bareCluster (str "v1:sca") none),
        normalizePair w.2 w.1 ≠ .ok (str "f-1", str "f-2") := by decide +kernel
    exact hspokes w hw hpair
  · rw [hids]
    simp only [List.forall_mem_cons]
    refine ⟨⟨linkedPair ++ [olderStored], [.link (str "f-1"), .link (str "f-2")], rfl, ?_⟩,
      ⟨linkedPair ++ [olderStored, .link (str "f-0")], [.link (str "f-2")], rfl, ?_⟩,
      ⟨linkedPair ++ [olderStored, .link (str "f-0"), .link (str "f-1")], [], rfl, ?_⟩, ?_⟩
    · exact fun e he => hruns e (List.mem_cons_of_mem _ he)
    · exact fun e he => hruns e (List.mem_cons_of_mem _ (List.mem_cons_of_mem _ he))
    · exact fun e he => absurd he List.not_mem_nil
    · exact fun id hid => absurd hid List.not_mem_nil

/-- Of two findings stored before they are linked. -/
theorem isStar_iff_and_settled_pair :
    (run CorrelationDb.clusterStep .empty (linkedPair.take 2 ++ [.link (str "f-2")])).IsStar
      (str "v1:sca") none :=
  (isStar_iff_and_settled (by simp [ClusterEvent.StoresInto])
    ⟨str "f-2", by decide +kernel, List.mem_singleton_self _⟩).1.mpr
      (fun w hw => absurd hw (List.not_mem_nil (a := w)))

end Older

end Vat
