import Vat.Correlation.Linking
import Vat.Transition.Run

/-!
# What a removal of a correlation leaves behind

A removal takes an edge out of use until it is restored. It does not clear the pointer that the link
had set, and no run of linking looks at the mark: a run that takes one of the two findings as the
root and links the other puts the edge to use again.

The writes of ingest to a finding are taken as any values of its columns: only its id and the
instant of its creation stay, and its pointer, which ingest leaves to linking.

Source: `backend/app/services/ingest.py`, lines 338–720;
`backend/app/services/correlation_edges.py`; `backend/app/services/correlation_linking.py`;
`backend/app/api/findings.py`, lines 362–554.

## Main definitions

* `CorrelationOp`, `CorrelationDb.step`: the calls that write findings, edges and crosswalks.
* `CorrelationDb.Unlinked`: what a removal promises of two findings.
* `CorrelationDb.KeepsApart`: a call that does not link two findings.

## Main results

* `CorrelationDb.unlinked_run_iff`: when a removal holds over a run.
-/

namespace Vat

open Relational Transition Pointers

section System

variable [Unicode]

/-! ### Calls -/

/-- What an ingest writes to the table of findings, `none` when a key is taken. -/
def storeFinding (findings : Table Finding) (finding : Finding) : Option (Table Finding) :=
  match findings.get? finding.id with
  | none => findings.insert? (finding.pointTo none)
  | some _ =>
    findings.update? finding.id
      (fun old => { finding with
        id := old.id
        createdAt := old.createdAt
        correlatedTo := old.correlatedTo }) fun _ => rfl

/-- An ingest before it links: the finding and its identifier facts. -/
def CorrelationDb.store (db : CorrelationDb) (finding : Finding) (source : Str) :
    Except Str CorrelationDb :=
  match storeFinding db.findings finding with
  | none => .error (str "IntegrityError")
  | some findings =>
    .ok { db with
      findings := findings
      scores := { db.scores with facts := upsertIdentifierFacts db.scores.facts finding source } }

/-- A call. Linking follows an ingest where the settings ask for it. -/
inductive CorrelationOp
  | ingest (finding : Finding) (source : Str) (linking : Bool)
  | link (findingId : Str)
  | crosswalk (source sourceVersion : Str) (entries : List CrosswalkEntry)
  | remove (now : Instant) (ctx : UserContext) (findingId peerFindingId reason : Str)
  | restore (ctx : UserContext) (findingId peerFindingId : Str)

/-- A call; an error is an exception. -/
def CorrelationOp.perform (db : CorrelationDb) : CorrelationOp → Except Str CorrelationDb
  | .ingest finding source linking => do
    let db ← db.store finding source
    if linking then db.linkFinding finding.id else return db
  | .link findingId => db.linkFinding findingId
  | .crosswalk source sourceVersion entries =>
    return { db with scores := { db.scores with
      crosswalk := ingestCrosswalkEntries db.scores.crosswalk source sourceVersion entries } }
  | .remove now ctx findingId peerFindingId reason =>
    db.removeFindingCorrelation now ctx findingId peerFindingId reason
  | .restore ctx findingId peerFindingId => db.restoreFindingCorrelation ctx findingId peerFindingId

/-- A call that fails is rolled back. -/
def CorrelationDb.step (db : CorrelationDb) (op : CorrelationOp) : CorrelationDb :=
  match op.perform db with
  | .ok db' => db'
  | .error _ => db

/-! ### Two findings kept apart -/

/-- Two findings whose edge is not in use, and neither of which points at the other. -/
structure CorrelationDb.Unlinked (db : CorrelationDb) (left right : Str) : Prop where
  edge : ∀ pair, normalizePair left right = .ok pair → ¬ EdgeActive db.edges pair
  left_pointer : pointerOf db.findings left ≠ some (some right)
  right_pointer : pointerOf db.findings right ≠ some (some left)

/-- A request to restore the edge of two findings. -/
def CorrelationOp.Restores (left right : Str) : CorrelationOp → Prop
  | .restore _ findingId peerFindingId =>
    normalizePair findingId peerFindingId = normalizePair left right
  | _ => False

/-- A run of linking that does not link one of the two findings to the other: none of its members
makes their pair with the root, or the run fails on a member whose id makes no pair. -/
def CorrelationDb.RunKeepsApart (left right : Str) (db : CorrelationDb) (findingId : Str) : Prop :=
  ∀ finding, db.findings.get? findingId = some finding →
    (∀ w ∈ db.linkWrites finding, ∃ q, normalizePair w.2 w.1 = .ok q) →
    ∀ w ∈ db.linkWrites finding, normalizePair w.2 w.1 ≠ normalizePair left right

/-- A call whose run of linking, if it makes one, does not link one of the two findings to the
other. -/
def CorrelationDb.KeepsApart (left right : Str) (db : CorrelationDb) : CorrelationOp → Prop
  | .ingest finding source linking =>
    linking = true → ∀ db', db.store finding source = .ok db' → db'.RunKeepsApart left right finding.id
  | .link findingId => db.RunKeepsApart left right findingId
  | _ => True

end System

/-! ### Pointers after an ingest -/

theorem pointerOf_insert {findings : Table Finding} {finding : Finding}
    (h : findings.CanInsert finding) :
    pointerOf (findings.insert finding h) =
      Function.update (pointerOf findings) finding.id (some finding.correlatedTo) := by
  funext a
  rw [pointerOf, Table.get?_insert]
  change (if finding.id = a then some finding else findings.get? a).map Finding.correlatedTo = _
  split_ifs with ha
  · rw [← ha, Function.update_self]
    rfl
  · rw [Function.update_of_ne (Ne.symm ha), pointerOf]

/-- An ingest adds a finding without a pointer, or writes over the one under its id, whose creation
and pointer stay. -/
theorem storeFinding_cases {findings findings' : Table Finding} {finding : Finding}
    (h : storeFinding findings finding = some findings') :
    (findings.get? finding.id = none ∧ ∃ hinsert : findings.CanInsert (finding.pointTo none),
        findings' = findings.insert (finding.pointTo none) hinsert) ∨
      ∀ a, findings'.get? a = if a = finding.id then (findings.get? finding.id).map fun old =>
        { finding with
          id := old.id
          createdAt := old.createdAt
          correlatedTo := old.correlatedTo } else findings.get? a := by
  unfold storeFinding at h
  cases hget : findings.get? finding.id with
  | none =>
    rw [hget] at h
    obtain ⟨hinsert, rfl⟩ := Table.insert?_eq_some_iff.mp h
    exact .inl ⟨rfl, hinsert, rfl⟩
  | some old =>
    rw [hget] at h
    refine .inr fun a => ?_
    rw [Table.get?_of_update? h, hget]

/-- An ingest adds at most a finding without a pointer. -/
theorem pointerOf_storeFinding {findings findings' : Table Finding} {finding : Finding}
    (h : storeFinding findings finding = some findings') :
    pointerOf findings' = pointerOf findings ∨
      pointerOf findings finding.id = none ∧
        pointerOf findings' = link (pointerOf findings) finding.id none := by
  obtain ⟨hget, hinsert, rfl⟩ | hget := storeFinding_cases h
  · refine Or.inr ⟨by rw [pointerOf, hget]; rfl, ?_⟩
    exact pointerOf_insert hinsert
  · refine Or.inl (funext fun a => ?_)
    rw [pointerOf, hget]
    split_ifs with ha
    · rw [ha, Option.map_map, pointerOf]
      rfl
    · rw [pointerOf]

section Steps

variable [Unicode] {db db' : CorrelationDb} {left right findingId : Str}

/-- What an ingest writes before it links touches no edge and lets no finding point at another. -/
theorem CorrelationDb.store_eq_ok {finding : Finding} {source : Str}
    (h : db.store finding source = .ok db') :
    db'.edges = db.edges ∧
      ∀ a b, pointerOf db'.findings a = some (some b) ↔ pointerOf db.findings a = some (some b) := by
  unfold store at h
  cases hstore : storeFinding db.findings finding with
  | none =>
    rw [hstore] at h
    cases h
  | some findings =>
    rw [hstore] at h
    cases h
    refine ⟨rfl, fun a b => ?_⟩
    rcases pointerOf_storeFinding hstore with hptr | ⟨hnone, hptr⟩
    · rw [hptr]
    · rw [hptr]
      by_cases ha : a = finding.id
      · rw [ha, link_self, hnone]
        simp
      · rw [link_of_ne _ ha]

omit [Unicode] in
/-- Whether two findings are unlinked depends on the edges in use and the pointers only. -/
theorem CorrelationDb.unlinked_congr
    (hedges : ∀ q, normalizePair left right = .ok q → (EdgeActive db'.edges q ↔ EdgeActive db.edges q))
    (hptr : ∀ a b, pointerOf db'.findings a = some (some b) ↔
      pointerOf db.findings a = some (some b)) :
    db'.Unlinked left right ↔ db.Unlinked left right := by
  constructor
  · rintro ⟨hedge, hleft, hright⟩
    exact ⟨fun q hq h => hedge q hq ((hedges q hq).mpr h), fun h => hleft ((hptr _ _).mpr h),
      fun h => hright ((hptr _ _).mpr h)⟩
  · rintro ⟨hedge, hleft, hright⟩
    exact ⟨fun q hq h => hedge q hq ((hedges q hq).mp h), fun h => hleft ((hptr _ _).mp h),
      fun h => hright ((hptr _ _).mp h)⟩

/-- A run of linking that succeeds leaves two findings unlinked exactly if it links neither to the
other. -/
theorem CorrelationDb.unlinked_linkFinding_iff (h : db.linkFinding findingId = .ok db')
    (hs : db.Unlinked left right) :
    db'.Unlinked left right ↔ db.RunKeepsApart left right findingId := by
  unfold linkFinding at h
  cases hget : db.findings.get? findingId with
  | none =>
    rw [hget] at h
    cases h
    exact iff_of_true hs fun finding hfinding => by simp [hget] at hfinding
  | some finding =>
    rw [hget] at h
    obtain ⟨⟨db'', decision⟩, happly, h⟩ := bind_eq_ok_iff.mp h
    cases h
    obtain ⟨-, -, hptr, hedges⟩ := applyCorrelationLinking_eq_ok happly
    have hpairs := applyCorrelationLinking_ok_iff.mp ⟨_, happly⟩
    have hpointer : ∀ a b, pointerOf db''.findings a = some (some b) →
        pointerOf db.findings a = some (some b) ∨ (a, b) ∈ db.linkWrites finding := by
      intro a b hab
      rw [hptr] at hab
      rcases links_eq_or_mem (pointerOf db.findings)
        ((db.linkWrites finding).map fun w => (w.1, some w.2)) a with hsame | ⟨target, hmem, hset⟩
      · exact Or.inl (hsame.symm.trans hab)
      · obtain ⟨w, hw, heq⟩ := List.mem_map.mp hmem
        cases heq
        rw [hset] at hab
        cases hab
        exact Or.inr hw
    constructor
    · intro hs' finding' hfinding' _ w hw heq
      cases hget.symm.trans hfinding'
      obtain ⟨q, hq⟩ := hpairs w hw
      exact hs'.edge q (heq.symm.trans hq) ((hedges q).mpr (Or.inr ⟨w, hw, hq⟩))
    · intro hkeeps
      have hapart := hkeeps finding hget hpairs
      refine ⟨fun q hq hactive => ?_, fun hab => ?_, fun hab => ?_⟩
      · rcases (hedges q).mp hactive with hold | ⟨w, hw, hwq⟩
        · exact hs.edge q hq hold
        · exact hapart w hw (hwq.trans hq.symm)
      · rcases hpointer _ _ hab with hold | hmem
        · exact hs.left_pointer hold
        · exact hapart _ hmem (normalizePair_comm right left)
      · rcases hpointer _ _ hab with hold | hmem
        · exact hs.right_pointer hold
        · exact hapart _ hmem rfl

/-- A run of linking fails on the id of a member. -/
theorem CorrelationDb.runKeepsApart_of_error {e : Str} (h : db.linkFinding findingId = .error e) :
    db.RunKeepsApart left right findingId := by
  intro finding hget hpairs
  obtain ⟨r, happly⟩ := applyCorrelationLinking_ok_iff.mpr hpairs
  simp only [linkFinding, hget, happly, ok_bind] at h
  cases h

/-- A call other than a restore keeps two findings unlinked exactly if it does not link them. -/
theorem CorrelationDb.unlinked_step_iff {op : CorrelationOp} (hop : ¬ op.Restores left right)
    (hs : db.Unlinked left right) :
    (db.step op).Unlinked left right ↔ db.KeepsApart left right op := by
  unfold step
  cases hperform : op.perform db with
  | error e =>
    refine iff_of_true hs ?_
    cases op with
    | ingest finding source linking =>
      intro hlinking db' hstore
      simp only [CorrelationOp.perform, hstore, ok_bind, hlinking, ↓reduceIte] at hperform
      exact runKeepsApart_of_error hperform
    | link findingId => exact runKeepsApart_of_error hperform
    | crosswalk | remove | restore => trivial
  | ok db' =>
    cases op with
    | ingest finding source linking =>
      obtain ⟨db'', hstore, hlink⟩ := bind_eq_ok_iff.mp hperform
      obtain ⟨hedges, hptr⟩ := store_eq_ok hstore
      have hs'' : db''.Unlinked left right :=
        (unlinked_congr (fun q _ => by rw [hedges]) hptr).mpr hs
      cases linking with
      | false =>
        cases hlink
        exact iff_of_true hs'' fun h => by cases h
      | true =>
        refine (unlinked_linkFinding_iff hlink hs'').trans ⟨fun h _ db₁ hdb₁ => ?_, fun h => ?_⟩
        · cases hstore.symm.trans hdb₁
          exact h
        · exact h rfl db'' hstore
    | link findingId => exact unlinked_linkFinding_iff hperform hs
    | crosswalk source sourceVersion entries =>
      cases hperform
      exact iff_of_true ⟨hs.edge, hs.left_pointer, hs.right_pointer⟩ trivial
    | remove now ctx findingId peerFindingId reason =>
      obtain ⟨hfindings, pair, -, hedges⟩ := removeFindingCorrelation_eq_ok hperform
      refine iff_of_true ⟨fun q hq h => ?_, ?_, ?_⟩ trivial
      · exact hs.edge q hq ((hedges q).mp h).2
      · rw [hfindings]
        exact hs.left_pointer
      · rw [hfindings]
        exact hs.right_pointer
    | restore ctx findingId peerFindingId =>
      obtain ⟨hfindings, pair, hpair, hedges⟩ := restoreFindingCorrelation_eq_ok hperform
      have hother : ∀ q, normalizePair left right = .ok q → q ≠ pair := by
        rintro q hq rfl
        exact hop (hpair.trans hq.symm)
      refine iff_of_true ((unlinked_congr (fun q hq => ?_) fun a b => ?_).mpr hs) trivial
      · rw [hedges, or_iff_right (hother q hq)]
      · rw [hfindings]

omit [Unicode] in
/-- After a removal the two findings are unlinked, unless one of them points at the other still. -/
theorem CorrelationDb.unlinked_iff_of_remove {now : Instant} {ctx : UserContext} {reason : Str}
    (h : db.removeFindingCorrelation now ctx left right reason = .ok db') :
    db'.Unlinked left right ↔
      pointerOf db.findings left ≠ some (some right) ∧
        pointerOf db.findings right ≠ some (some left) := by
  obtain ⟨hfindings, pair, hpair, hedges⟩ := removeFindingCorrelation_eq_ok h
  rw [← hfindings]
  constructor
  · intro hs
    exact ⟨hs.left_pointer, hs.right_pointer⟩
  · rintro ⟨hleft, hright⟩
    refine ⟨fun q hq hactive => ?_, hleft, hright⟩
    cases hpair.symm.trans hq
    exact ((hedges pair).mp hactive).1 rfl

/-- A removal holds over every later run without a restore exactly if neither finding pointed at the
other when it was made, and no run of linking since has linked one to the other. -/
theorem CorrelationDb.unlinked_run_iff {now : Instant} {ctx : UserContext} {reason : Str}
    (hremove : db.removeFindingCorrelation now ctx left right reason = .ok db')
    {ops : List CorrelationOp} (hops : ∀ op ∈ ops, ¬ op.Restores left right) :
    (∀ pre, pre <+: ops → (run step db' pre).Unlinked left right) ↔
      (pointerOf db.findings left ≠ some (some right) ∧
        pointerOf db.findings right ≠ some (some left)) ∧
        Along step (KeepsApart left right) db' ops := by
  rw [← unlinked_iff_of_remove hremove]
  have hstep : ∀ s : CorrelationDb, ∀ op ∈ ops, s.Unlinked left right →
      ((s.step op).Unlinked left right ↔ s.KeepsApart left right op) :=
    fun s op hop hs => unlinked_step_iff (hops op hop) hs
  constructor
  · intro h
    have hs : db'.Unlinked left right := h [] List.nil_prefix
    exact ⟨hs, (forall_prefix_iff_along_of_mem hstep hs).mp h⟩
  · rintro ⟨hs, halong⟩
    exact (forall_prefix_iff_along_of_mem hstep hs).mpr halong

end Steps

section Relink

attribute [local instance] asciiUnicode

/-- A finding of a container image, with a correlation key. -/
def relinkFinding (id : Str) (createdAt : Instant) : Finding :=
  { Finding.blank id id (str "CVE-2024-1") with
    image := some (str "docker.io/acme/api")
    correlationKey := some (str "v1:sca")
    createdAt := createdAt }

/-- A reviewer of the default tenant. -/
def relinkReviewer : UserContext where
  email := str "reviewer@acme"
  tenantId := some (str "t-default")
  rawIdentity := []
  crossTenant := false

/-- Two findings that ingest has linked. -/
def relinkSetup : List CorrelationOp :=
  [.ingest (relinkFinding (str "f-1") 1) (str "Trivy") true,
    .ingest (relinkFinding (str "f-2") 2) (str "Grype") true]

/-- The removal of their edge. -/
def relinkRemoval : CorrelationOp :=
  .remove 3 relinkReviewer (str "f-1") (str "f-2") (str "not the same")

/-- The run of linking of the second finding puts its edge with the first to use again after a
removal, and the pointer was never cleared. -/
theorem not_unlinked_run :
    ¬ ∀ (setup : List CorrelationOp) (db' : CorrelationDb) (now : Instant) (ctx : UserContext)
        (left right reason : Str) (ops : List CorrelationOp),
        (run CorrelationDb.step .empty setup).removeFindingCorrelation now ctx left right reason =
          .ok db' →
        (∀ op ∈ ops, ¬ op.Restores left right) →
        ∀ pre, pre <+: ops → (run CorrelationDb.step db' pre).Unlinked left right := by
  intro h
  have hunlinked := h relinkSetup ((run CorrelationDb.step .empty relinkSetup).step relinkRemoval) 3
    relinkReviewer (str "f-1") (str "f-2") (str "not the same") [.link (str "f-2")] rfl
    (by simp [CorrelationOp.Restores]) [.link (str "f-2")] List.prefix_rfl
  exact hunlinked.edge (str "f-1", str "f-2") rfl ⟨_, rfl, rfl⟩

/-- An older finding of the same key comes in after the two were linked, and takes both. -/
def relinkOlder : List CorrelationOp :=
  relinkSetup ++ [.ingest (relinkFinding (str "f-0") 0) (str "Aikido") true]

theorem unlinked_run_relinkOlder :
    (run CorrelationDb.step ((run CorrelationDb.step .empty relinkOlder).step relinkRemoval)
      [CorrelationOp.link (str "f-2")]).Unlinked (str "f-1") (str "f-2") := by
  have hremove : (run CorrelationDb.step .empty relinkOlder).removeFindingCorrelation 3 relinkReviewer
      (str "f-1") (str "f-2") (str "not the same") =
        .ok ((run CorrelationDb.step .empty relinkOlder).step relinkRemoval) := by rfl
  have hops : ∀ op ∈ [CorrelationOp.link (str "f-2")], ¬ op.Restores (str "f-1") (str "f-2") := by
    simp [CorrelationOp.Restores]
  refine (CorrelationDb.unlinked_run_iff hremove hops).mpr
    ⟨by decide, ?_, trivial⟩ _ List.prefix_rfl
  -- the run links both findings to the older one
  have hrun : ∀ w ∈ [(str "f-1", str "f-0"), (str "f-2", str "f-0")],
      normalizePair w.2 w.1 ≠ normalizePair (str "f-1") (str "f-2") := by decide
  intro finding hget _ w hw
  cases hget
  exact hrun w hw

end Relink

end Vat
