import Mathlib.Logic.Function.Basic
import Vat.Inbound.AikidoEvents
import Vat.Ingest.FreshIds

/-!
# The finding of an Aikido issue

An ingest fingerprints a payload of Aikido by its issue and its asset. The webhook of a closed issue
goes by the links of the findings to the issue and takes the newest finding that has one. Only if
none has does it go by a fingerprint, which it makes, as the backfill of dates does, of the
vulnerability, the package and the asset.

Source: `backend/app/services/ingest.py`, lines 250–423 and 533–616;
`backend/app/api/webhooks/aikido.py`, lines 172–252; `backend/app/services/aikido_full_sync.py`,
lines 443–498; `backend/app/adapters/aikido.py`, lines 1218–1221.

## Main definitions

* `aikidoSourceIssueId`, `IngestCall.returned`.
* `closedFinding`, `closeIssue`: the webhook of a closed issue.
* `backfilledFinding`, `backfillDates`: the backfill of dates.
* `Unrivalled`: no other finding that is linked to the issue is as new.

## Main results

* `NewestFinding.forall_newest_iff`: the row that a database gives, whatever it does with ties.
* `namesIngested_iff`: when the webhook closes the finding that was ingested, and that the backfill
  never fills its dates.
-/

namespace Vat

open Relational Transition

/-! ### The newest row -/

namespace NewestFinding

theorem mem_of_newest [NewestFinding] {rows : List StoredFinding} {f : StoredFinding}
    (h : newest rows = some f) : f ∈ rows := by
  have hne : rows ≠ [] := by
    rintro rfl
    rw [newest_nil] at h
    cases h
  obtain ⟨r, hr, hnewest, -⟩ := exists_newest rows hne
  rw [h] at hnewest
  exact Option.some.inj hnewest ▸ hr

/-- A database that gives a row whenever it is one of the newest. -/
@[reducible] def preferring (g : StoredFinding) : NewestFinding where
  newest rows :=
    if g ∈ rows ∧ ∀ s ∈ rows, s.createdAt ≤ g.createdAt then some g
    else firstNewestFinding.newest rows
  newest_nil := rfl
  exists_newest rows hne := by
    split_ifs with hg
    · exact ⟨g, hg.1, rfl, hg.2⟩
    · exact firstNewestFinding.exists_newest rows hne

/-- Every database gives a row exactly if all the others are older. -/
theorem forall_newest_iff {rows : List StoredFinding} {f : StoredFinding} :
    (∀ c : NewestFinding, c.newest rows = some f) ↔
      f ∈ rows ∧ ∀ g ∈ rows, g = f ∨ g.createdAt < f.createdAt := by
  constructor
  · intro h
    have hf : f ∈ rows := firstNewestFinding.mem_of_newest (h firstNewestFinding)
    refine ⟨hf, fun g hg => or_iff_not_imp_right.mpr fun hlt => ?_⟩
    obtain ⟨r, -, hr, hle⟩ := firstNewestFinding.exists_newest rows (List.ne_nil_of_mem hf)
    rw [h firstNewestFinding] at hr
    obtain rfl := Option.some.inj hr
    -- a row as new as `f` is given by the database that prefers it
    have hg' : (preferring g).newest rows = some g :=
      if_pos ⟨hg, fun s hs => (hle s hs).trans (not_lt.mp hlt)⟩
    exact Option.some.inj (hg'.symm.trans (h (preferring g)))
  · rintro ⟨hf, hlt⟩ c
    obtain ⟨r, hr, hnewest, hle⟩ := c.exists_newest rows (List.ne_nil_of_mem hf)
    rcases hlt r hr with rfl | hlt
    · exact hnewest
    · exact absurd (hle f hf) hlt.not_ge

end NewestFinding

/-! ### The three lookups -/

/-- `str(raw_id)` of an issue that has one: the `source_issue_id` of its payload. -/
def aikidoSourceIssueId [ReprText] (issue : Loaded) : Option Str :=
  match (issue.member "id").or (issue.member "issue_id") with
  | .null => none
  | rawId => some rawId.pyStr

/-- The columns that the webhook and the backfill write. -/
structure FindingColumns where
  status : Status
  aikidoSourceId : Option Str
  audit : List AuditEntry
  firstDetectedAt : Option Instant
  closedAt : Option Instant
  deriving DecidableEq

/-- The row of a finding whose issue was closed. -/
def FindingColumns.close (c : FindingColumns) (aikidoSourceId : Option Str) (cveId : Str)
    (now : Instant) : FindingColumns :=
  { c with
    status := .resolved
    aikidoSourceId := Str.orElse c.aikidoSourceId (Str.orElse aikidoSourceId c.aikidoSourceId)
    audit := c.audit ++ [⟨some (floorSecond now), str "system",
      str "Closed via Aikido issue.closed",
      some (str "Aikido reported issue closed for " ++ cveId)⟩] }

/-- The row of a finding whose missing dates are filled. -/
def FindingColumns.fill (c : FindingColumns) (payload : VatFindingSchema) : FindingColumns :=
  { c with
    firstDetectedAt := c.firstDetectedAt.or payload.firstDetectedAt
    closedAt := c.closedAt.or payload.closedAt }

section Lookups

variable [Unicode] [Sha256]

/-- The fingerprint of a package with a vulnerability, on its asset. -/
def VatFindingSchema.packageFingerprint (payload : VatFindingSchema) : Str :=
  makeFingerprint payload.cveId payload.componentText (Str.orEmpty payload.image)
    (Str.orEmpty payload.branch) (Str.orEmpty payload.tag) []

theorem IngestCall.id_merge (cfg : Settings) (call : IngestCall) (f : StoredFinding) :
    (call.merge cfg f).id = f.id := rfl

/-- What `ingest_finding` returns, and the table after it; nothing when a write breaks a constraint
of the table. -/
def IngestCall.returned [NewestFinding] (cfg : Settings) (call : IngestCall)
    (findings : Table StoredFinding) : Option (StoredFinding × Table StoredFinding) :=
  match call.existing cfg findings with
  | some f =>
    (findings.update? f.id (call.merge cfg) (call.id_merge cfg)).map fun t => (call.merge cfg f, t)
  | none => (findings.insert? (call.newFinding cfg)).map fun t => (call.newFinding cfg, t)

/-- The finding that the webhook of a closed issue is about. -/
def closedFinding [NewestFinding] (findings : Table StoredFinding) (payload : VatFindingSchema) :
    Option StoredFinding :=
  let sourceIssueId := Str.strip (Str.orEmpty payload.sourceIssueId)
  (if sourceIssueId = [] then none
    else findFindingByExternalId findings (str "Aikido") sourceIssueId).or
    (findings.getBy? payload.packageFingerprint)

/-- What the webhook of a closed issue writes. -/
def closeIssue [NewestFinding] (findings : Table StoredFinding) (payload : VatFindingSchema)
    (aikidoSourceId : Option Str) (now : Instant) (columns : Str → FindingColumns) :
    Str → FindingColumns :=
  match closedFinding findings payload with
  | some f =>
    Function.update columns f.id ((columns f.id).close aikidoSourceId payload.cveId now)
  | none => columns

/-- The finding that the backfill of dates looks up. -/
def backfilledFinding (findings : Table StoredFinding) (payload : VatFindingSchema) :
    Option StoredFinding :=
  findings.getBy? payload.packageFingerprint

/-- What the backfill of dates writes. -/
def backfillDates (findings : Table StoredFinding) (payload : VatFindingSchema)
    (columns : Str → FindingColumns) : Str → FindingColumns :=
  match backfilledFinding findings payload with
  | some f => Function.update columns f.id ((columns f.id).fill payload)
  | none => columns

end Lookups

/-! ### What an ingest returns -/

/-- A finding with a link of an adapter to an issue. -/
def StoredFinding.LinkedTo (f : StoredFinding) (adapterKey issueId : Str) : Prop :=
  ∃ l ∈ f.externalLinks, l.adapterKey = adapterKey ∧ l.issueId = issueId

instance (f : StoredFinding) (adapterKey issueId : Str) :
    Decidable (f.LinkedTo adapterKey issueId) :=
  inferInstanceAs (Decidable (∃ l ∈ f.externalLinks, _ ∧ _))

theorem mem_linked_iff {findings : Table StoredFinding} {adapterKey issueId : Str}
    {f : StoredFinding} :
    (f ∈ findings.rows.filter fun f =>
      f.externalLinks.any fun l => l.adapterKey = adapterKey ∧ l.issueId = issueId) ↔
      f ∈ findings.rows ∧ f.LinkedTo adapterKey issueId := by
  simp only [List.mem_filter, List.any_eq_true, decide_eq_true_eq, StoredFinding.LinkedTo]

/-- A link that is added, and those that it does not replace. -/
theorem exists_mem_addSourceLink_iff {links : List ExternalLink} {adapterKey issueId id : Str}
    {url : Option Str} {now : Instant} :
    (∃ l ∈ addSourceLink links adapterKey issueId url now,
      l.adapterKey = adapterKey ∧ l.issueId = id) ↔
      issueId = id ∨ ∃ l ∈ links, l.kind ≠ str "source" ∧ l.adapterKey = adapterKey ∧
        l.issueId = id := by
  simp only [addSourceLink, List.mem_append, List.mem_filter, List.mem_singleton,
    decide_eq_true_eq]
  constructor
  · rintro ⟨l, ⟨hl, hkept⟩ | rfl, hkey, hid⟩
    · exact Or.inr ⟨l, hl, fun hkind => hkept ⟨hkind, hkey⟩, hkey, hid⟩
    · exact Or.inl hid
  · rintro (rfl | ⟨l, hl, hkind, hkey, hid⟩)
    · exact ⟨_, Or.inr rfl, rfl, rfl⟩
    · exact ⟨l, Or.inl ⟨hl, fun h => hkind h.1⟩, hkey, hid⟩

theorem truthy_of_strip_ne_nil {x : Option Str} (h : Str.strip (Str.orEmpty x) ≠ []) :
    Str.truthy x := by
  rw [Str.truthy, bne_iff_ne]
  exact fun hx => h (by rw [hx, Str.strip_nil])

section Returned

variable [Unicode] [Sha256] [NewestFinding] {cfg : Settings}
  {findings findings' : Table StoredFinding} {call : IngestCall} {f : StoredFinding}

theorem IngestCall.mem_of_existing {e : StoredFinding} (h : call.existing cfg findings = some e) :
    e ∈ findings.rows := by
  rw [existing] at h
  cases hby : findings.getBy? (call.fingerprint cfg) with
  | some g =>
    simp only [hby, Option.some.injEq] at h
    exact h ▸ Table.mem_of_getBy? hby
  | none =>
    simp only [hby] at h
    split_ifs at h with hsid
    obtain ⟨hnewest, -⟩ := Option.filter_eq_some_iff.mp h
    exact List.mem_of_mem_filter (NewestFinding.mem_of_newest hnewest)

/-- A merge or a new row. -/
theorem IngestCall.returned_cases (h : call.returned cfg findings = some (f, findings')) :
    (∃ e, call.existing cfg findings = some e ∧ f = call.merge cfg e ∧
        findings'.rows = findings.rows.map fun r => if r.id = e.id then call.merge cfg r else r) ∨
      call.existing cfg findings = none ∧ f = call.newFinding cfg ∧
        findings'.rows = findings.rows ++ [f] := by
  rw [returned] at h
  cases hexisting : call.existing cfg findings with
  | some e =>
    simp only [hexisting, Option.map_eq_some_iff, Prod.mk.injEq] at h
    obtain ⟨t, ht, rfl, rfl⟩ := h
    exact Or.inl ⟨e, rfl, rfl, Table.rows_of_update? ht⟩
  | none =>
    simp only [hexisting, Option.map_eq_some_iff, Prod.mk.injEq] at h
    obtain ⟨t, ht, rfl, rfl⟩ := h
    exact Or.inr ⟨rfl, rfl, Table.rows_of_insert? ht⟩

theorem IngestCall.fingerprintId_of_returned
    (h : call.returned cfg findings = some (f, findings')) :
    f.fingerprintId = call.fingerprint cfg := by
  rcases returned_cases h with ⟨e, -, rfl, -⟩ | ⟨-, rfl, -⟩
  · rfl
  · rfl

theorem IngestCall.createdAt_of_returned (h : call.returned cfg findings = some (f, findings')) :
    f.createdAt = ((call.existing cfg findings).map (·.createdAt)).getD call.now := by
  rcases returned_cases h with ⟨e, he, rfl, -⟩ | ⟨he, rfl, -⟩
  · rw [he]
    rfl
  · rw [he]
    rfl

/-- The finding that is returned takes the place of the one that was there. -/
theorem IngestCall.mem_of_returned (h : call.returned cfg findings = some (f, findings'))
    {g : StoredFinding} :
    g ∈ findings'.rows ↔ g = f ∨ g ∈ findings.rows ∧ call.existing cfg findings ≠ some g := by
  rcases returned_cases h with ⟨e, he, rfl, hrows⟩ | ⟨he, -, hrows⟩
  · have hmem := mem_of_existing he
    rw [hrows, he, List.mem_map]
    constructor
    · rintro ⟨r, hr, rfl⟩
      split_ifs with hid
      · exact Or.inl (congrArg _ (Table.eq_of_pk hr hmem hid))
      · exact Or.inr ⟨hr, fun heq => hid (Option.some.inj heq ▸ rfl)⟩
    · rintro (rfl | ⟨hg, hne⟩)
      · exact ⟨e, hmem, if_pos rfl⟩
      · exact ⟨g, hg, if_neg fun hid => hne (congrArg some (Table.eq_of_pk hg hmem hid).symm)⟩
  · rw [hrows, he, List.mem_append, List.mem_singleton, or_comm]
    exact or_congr_right (and_iff_left (Option.some_ne_none g).symm).symm

/-- Only the finding that was there has the key of the one that is returned. -/
theorem IngestCall.existing_of_mem (h : call.returned cfg findings = some (f, findings'))
    (hf : f ∈ findings.rows) : call.existing cfg findings = some f := by
  rcases returned_cases h with ⟨e, he, rfl, -⟩ | ⟨-, -, hrows⟩
  · rw [he, Table.eq_of_pk hf (mem_of_existing he) rfl]
  · have hnodup := findings'.pk_nodup
    rw [hrows, List.map_append, List.map_singleton] at hnodup
    exact absurd (List.mem_map_of_mem hf)
      (List.disjoint_singleton.mp (List.disjoint_of_nodup_append hnodup))

omit [Sha256] [NewestFinding] in
@[simp] theorem IngestCall.sourceIssueId_resolved :
    (call.resolved cfg).sourceIssueId = call.payload.sourceIssueId := by
  simp only [resolved, resolveAssetForPayload, VatFindingSchema.ofContainer]
  split_ifs <;> rfl

/-- The links of the finding that is returned to an issue whose id is the stripped one. -/
theorem IngestCall.linkedTo_of_returned (h : call.returned cfg findings = some (f, findings'))
    (htruthy : Str.truthy call.payload.sourceIssueId) (id : Str) :
    f.LinkedTo call.sourceName id ↔
      Str.orEmpty call.payload.sourceIssueId = id ∨
        ∃ e, call.existing cfg findings = some e ∧ ∃ l ∈ e.externalLinks,
          l.kind ≠ str "source" ∧ l.adapterKey = call.sourceName ∧ l.issueId = id := by
  rcases returned_cases h with ⟨e, he, rfl, -⟩ | ⟨he, rfl, -⟩
  · simp only [StoredFinding.LinkedTo, merge, sourceIssueId_resolved, htruthy, ↓reduceIte, he,
      exists_mem_addSourceLink_iff, Option.some.injEq, exists_eq_left']
  · simp [StoredFinding.LinkedTo, newFinding, htruthy, he]

end Returned

/-! ### Fingerprints of two kinds -/

section Fingerprints

variable [Unicode] [Sha256]

omit [Sha256] in
theorem notMem_normalize {c : Char} (hlower : ∀ s, c ∉ Unicode.lower s) (s : Str) :
    c ∉ normalize s := by
  intro hc
  rw [normalize] at hc
  split_ifs at hc with hs
  · cases hc
  · exact hlower s (Str.strip_subset _ hc)

/-- The fingerprint of a package is never that of an issue of Aikido: the text of one starts with a
capital and the other is in lower case. -/
theorem packageFingerprint_ne (hlower : ∀ s, 'A' ∉ Unicode.lower s) (payload : VatFindingSchema)
    (sid image branch tag : Str) (hsid : sid ≠ []) :
    payload.packageFingerprint ≠
      makeFingerprintForSourceIssue (str "Aikido") sid image branch tag := by
  rw [VatFindingSchema.packageFingerprint, makeFingerprint, makeFingerprintForSourceIssue,
    if_neg fun h => h.1 rfl, if_neg (not_or.mpr ⟨by decide, hsid⟩)]
  intro h
  have htext := Sha256.hexdigest_injective h
  cases hcve : normalize payload.cveId with
  | nil => simp [hcve, Str.join, str] at htext
  | cons c t =>
    have hhead : c = 'A' := by simpa [hcve, Str.join, str] using congrArg List.head? htext
    exact notMem_normalize hlower payload.cveId (hcve ▸ hhead ▸ List.mem_cons_self)

theorem IngestCall.fingerprint_eq {cfg : Settings} {call : IngestCall}
    (hsource : call.sourceName = str "Aikido")
    (hid : Str.strip (Str.orEmpty call.payload.sourceIssueId) ≠ []) :
    call.fingerprint cfg =
      makeFingerprintForSourceIssue (str "Aikido")
        (Str.strip (Str.orEmpty call.payload.sourceIssueId))
        (Str.orEmpty (call.resolved cfg).image) (Str.orEmpty (call.resolved cfg).branch)
        (Str.orEmpty (call.resolved cfg).tag) := by
  have hopenscap : ¬ (str "Aikido" = str "openscap" ∨ str "Aikido" = str "openscap_oval") := by
    decide
  rw [fingerprint, hsource, computeIngestFingerprint, if_neg fun h => hopenscap h.1,
    defaultFingerprint, sourceIssueId_resolved, if_pos hid]

end Fingerprints

/-! ### Closing and backfilling -/

section Names

variable [Unicode] [Sha256]

/-- The webhook of a closed issue sets a finding to Resolved and no other, whichever of several
newest findings the database gives. -/
def ClosesExactly (findings : Table StoredFinding) (payload : VatFindingSchema)
    (f : StoredFinding) : Prop :=
  ∀ (c : NewestFinding) (aikidoSourceId : Option Str) (now : Instant)
    (columns : Str → FindingColumns),
    @closeIssue _ _ c findings payload aikidoSourceId now columns =
      Function.update columns f.id ((columns f.id).close aikidoSourceId payload.cveId now)

/-- The finding of an ingest is linked to its issue, and every other finding that is was created
before it. -/
def Unrivalled [NewestFinding] (cfg : Settings) (findings : Table StoredFinding)
    (call : IngestCall) : Prop :=
  let rawId := Str.orEmpty call.payload.sourceIssueId
  let existing := call.existing cfg findings
  (rawId = Str.strip rawId ∨ ∃ e, existing = some e ∧ ∃ l ∈ e.externalLinks,
      l.kind ≠ str "source" ∧ l.adapterKey = str "Aikido" ∧ l.issueId = Str.strip rawId) ∧
    ∀ g ∈ findings.rows, g.LinkedTo (str "Aikido") (Str.strip rawId) →
      existing = some g ∨ g.createdAt < (existing.map (·.createdAt)).getD call.now

theorem mem_of_closedFinding [NewestFinding] {findings : Table StoredFinding}
    {payload : VatFindingSchema} {f : StoredFinding}
    (h : closedFinding findings payload = some f) : f ∈ findings.rows := by
  rcases Option.or_eq_some_iff.mp h with h | ⟨-, h⟩
  · split_ifs at h with hsid
    exact List.mem_of_mem_filter (NewestFinding.mem_of_newest h)
  · exact Table.mem_of_getBy? h

/-- An open finding without an audit. -/
def FindingColumns.blank : FindingColumns := ⟨.open, none, [], none, none⟩

theorem closesExactly_iff {findings : Table StoredFinding} {payload : VatFindingSchema}
    {f : StoredFinding} (hf : f ∈ findings.rows) :
    ClosesExactly findings payload f ↔
      ∀ c : NewestFinding, @closedFinding _ _ c findings payload = some f := by
  constructor
  · intro h c
    have hstatus := congrArg (fun columns : Str → FindingColumns => (columns f.id).status)
      (h c none 0 fun _ => .blank)
    cases hclosed : @closedFinding _ _ c findings payload with
    | none => simp [closeIssue, hclosed, FindingColumns.close, FindingColumns.blank] at hstatus
    | some g =>
      by_cases hid : f.id = g.id
      · exact congrArg some (Table.eq_of_pk (mem_of_closedFinding hclosed) hf hid.symm)
      · simp [closeIssue, hclosed, hid, FindingColumns.close, FindingColumns.blank] at hstatus
  · intro h c aikidoSourceId now columns
    rw [closeIssue, h c]

/-- A finding whose fingerprint is not that of its package is closed by its link alone. -/
theorem closedFinding_eq_some_iff [NewestFinding] {findings : Table StoredFinding}
    {payload : VatFindingSchema} {f : StoredFinding}
    (hid : Str.strip (Str.orEmpty payload.sourceIssueId) ≠ [])
    (hfp : payload.packageFingerprint ≠ f.fingerprintId) :
    closedFinding findings payload = some f ↔
      findFindingByExternalId findings (str "Aikido")
        (Str.strip (Str.orEmpty payload.sourceIssueId)) = some f := by
  rw [closedFinding, if_neg hid, Option.or_eq_some_iff, or_iff_left]
  rintro ⟨-, h⟩
  exact hfp (Table.uk_of_getBy? h).symm

/-- A finding is closed, whichever of several newest ones the database gives, exactly if it is
linked to the issue and the others that are linked are older. -/
theorem forall_closedFinding_iff {findings : Table StoredFinding} {payload : VatFindingSchema}
    {f : StoredFinding} (hf : f ∈ findings.rows)
    (hid : Str.strip (Str.orEmpty payload.sourceIssueId) ≠ [])
    (hfp : payload.packageFingerprint ≠ f.fingerprintId) :
    (∀ c : NewestFinding, @closedFinding _ _ c findings payload = some f) ↔
      f.LinkedTo (str "Aikido") (Str.strip (Str.orEmpty payload.sourceIssueId)) ∧
        ∀ g ∈ findings.rows,
          g.LinkedTo (str "Aikido") (Str.strip (Str.orEmpty payload.sourceIssueId)) →
            g = f ∨ g.createdAt < f.createdAt := by
  refine (forall_congr' fun c => @closedFinding_eq_some_iff _ _ c _ _ _ hid hfp).trans ?_
  refine NewestFinding.forall_newest_iff.trans ?_
  simp only [mem_linked_iff, hf, true_and, and_imp]

variable [NewestFinding] {cfg : Settings} {findings findings' : Table StoredFinding}
  {call : IngestCall} {f : StoredFinding} {payload : VatFindingSchema}

/-- The finding of an issue never has the fingerprint of a package. -/
theorem packageFingerprint_ne_returned (hlower : ∀ s, 'A' ∉ Unicode.lower s)
    (hsource : call.sourceName = str "Aikido")
    (hid : Str.strip (Str.orEmpty call.payload.sourceIssueId) ≠ [])
    (hreturned : call.returned cfg findings = some (f, findings')) (payload : VatFindingSchema) :
    payload.packageFingerprint ≠ f.fingerprintId := by
  rw [IngestCall.fingerprintId_of_returned hreturned, IngestCall.fingerprint_eq hsource hid]
  exact packageFingerprint_ne hlower payload _ _ _ _ hid

theorem closesExactly_returned_iff (hlower : ∀ s, 'A' ∉ Unicode.lower s)
    (hsource : call.sourceName = str "Aikido")
    (hpayload : payload.sourceIssueId = call.payload.sourceIssueId)
    (hid : Str.strip (Str.orEmpty call.payload.sourceIssueId) ≠ [])
    (hreturned : call.returned cfg findings = some (f, findings')) :
    ClosesExactly findings' payload f ↔ Unrivalled cfg findings call := by
  have hmem : f ∈ findings'.rows := (IngestCall.mem_of_returned hreturned).mpr (Or.inl rfl)
  have hfp := packageFingerprint_ne_returned hlower hsource hid hreturned payload
  have hlinks := IngestCall.linkedTo_of_returned hreturned (truthy_of_strip_ne_nil hid)
    (Str.strip (Str.orEmpty call.payload.sourceIssueId))
  rw [closesExactly_iff hmem, forall_closedFinding_iff hmem (hpayload ▸ hid) hfp, hpayload,
    Unrivalled, ← hsource, hlinks]
  refine and_congr_right fun _ => ?_
  simp only [IngestCall.mem_of_returned hreturned, IngestCall.createdAt_of_returned hreturned]
  constructor
  · intro h g hg hlinked
    refine or_iff_not_imp_left.mpr fun hne => ?_
    rcases h g (Or.inr ⟨hg, hne⟩) hlinked with rfl | hlt
    · exact absurd (IngestCall.existing_of_mem hreturned hg) hne
    · exact hlt
  · rintro h g (rfl | ⟨hg, hne⟩) hlinked
    · exact Or.inl rfl
    · exact Or.inr ((h g hg hlinked).resolve_left hne)

omit [NewestFinding] in
/-- What the backfill writes does not touch a finding with another fingerprint. -/
theorem backfillDates_of_ne (hf : f ∈ findings.rows)
    (hfp : payload.packageFingerprint ≠ f.fingerprintId) (columns : Str → FindingColumns) :
    backfillDates findings payload columns f.id = columns f.id := by
  rw [backfillDates]
  cases h : backfilledFinding findings payload with
  | none => rfl
  | some g =>
    have hne : f.id ≠ g.id := fun hid =>
      hfp (Table.eq_of_pk hf (Table.mem_of_getBy? h) hid ▸ (Table.uk_of_getBy? h).symm)
    exact Function.update_of_ne hne _ _

/-- After an ingest of an issue of Aikido the webhook that closes the issue closes the finding that
was returned, and no other, exactly if that is linked to the id of the issue, and was created after
every other finding that is. The backfill does not look the finding up, and leaves its dates as they
are. -/
theorem namesIngested_iff [ReprText] (hlower : ∀ s, 'A' ∉ Unicode.lower s) {issue : Loaded}
    (hsource : call.sourceName = str "Aikido")
    (hcall : call.payload.sourceIssueId = aikidoSourceIssueId issue)
    (hpayload : payload.sourceIssueId = aikidoSourceIssueId issue)
    (hid : Str.strip (Str.orEmpty (aikidoSourceIssueId issue)) ≠ [])
    (hreturned : call.returned cfg findings = some (f, findings')) :
    (ClosesExactly findings' payload f ↔ Unrivalled cfg findings call) ∧
      ∀ backfilled : VatFindingSchema, backfilledFinding findings' backfilled ≠ some f ∧
        ∀ columns, backfillDates findings' backfilled columns f.id = columns f.id := by
  rw [← hcall] at hpayload hid
  have hmem : f ∈ findings'.rows := (IngestCall.mem_of_returned hreturned).mpr (Or.inl rfl)
  have hfp := packageFingerprint_ne_returned hlower hsource hid hreturned
  refine ⟨closesExactly_returned_iff hlower hsource hpayload hid hreturned, fun backfilled => ?_⟩
  exact ⟨fun h => hfp backfilled (Table.uk_of_getBy? h).symm,
    backfillDates_of_ne hmem (hfp backfilled)⟩

end Names

/-! ### An issue on two repositories -/

section TwoRepositories

/-- A digest whose values on the issue in each repository differ in their first characters. -/
@[reducible] def branchDigest : Sha256 := listedDigest branchTexts

attribute [local instance] asciiUnicode branchDigest firstNewestFinding noRepr

/-- An issue as Aikido sends it. -/
def seventhIssue : Loaded := .dict [(str "id", .int 7)]

theorem toLower_ne_capital (c : Char) : c.toLower ≠ 'A' := by
  intro h
  have hcapital : c.toLower.toNat = 65 := congrArg Char.toNat h
  obtain ⟨hself, hrange⟩ | ⟨hge, -, hlower⟩ := toNat_toLower c
  · rw [hself] at hcapital
    omega
  · omega

theorem notMem_lower_asciiUnicode (s : Str) : 'A' ∉ Unicode.lower s := by
  intro h
  obtain ⟨c, -, hc⟩ := List.mem_map.mp h
  exact toLower_ne_capital c hc

/-- Findings of the issue in two repositories. -/
def twoRepositories : Table StoredFinding :=
  (Table.singleton ((branchIssue "team/app" "main" 1).newFinding ⟨true, []⟩)).insert
    ((branchIssue "team/web" "main" 2).newFinding ⟨true, []⟩) (by decide +kernel)

/-- The issue is seen in a second repository: the finding that is new there is closed, but its dates
are not filled. -/
theorem namesIngested_in_second_repository :
    ∃ f findings', (branchIssue "team/app" "main" 2).returned ⟨true, []⟩
        (.singleton ((branchIssue "team/web" "main" 1).newFinding ⟨true, []⟩)) =
          some (f, findings') ∧
      ClosesExactly findings' (branchIssue "team/app" "main" 2).payload f ∧
      ∀ columns, backfillDates findings' (branchIssue "team/app" "main" 2).payload columns f.id =
        columns f.id := by
  obtain ⟨⟨f, findings'⟩, hreturned⟩ := Option.isSome_iff_exists.mp
    (show ((branchIssue "team/app" "main" 2).returned ⟨true, []⟩ (.singleton
      ((branchIssue "team/web" "main" 1).newFinding ⟨true, []⟩))).isSome by decide +kernel)
  have hissue : (branchIssue "team/app" "main" 2).payload.sourceIssueId =
      aikidoSourceIssueId seventhIssue := by decide +kernel
  have hnames := namesIngested_iff notMem_lower_asciiUnicode rfl hissue hissue (by decide +kernel)
    hreturned
  exact ⟨f, findings', hreturned, hnames.1.mpr ⟨Or.inl (by decide +kernel), by decide +kernel⟩,
    fun columns => (hnames.2 _).2 columns⟩

/-- The issue is seen again in the first repository, and the finding in the second one is closed.
In an empty table, the backfill does not find the finding that the ingest stores. -/
theorem not_namesIngested :
    (¬ ∀ (_ : Unicode) (_ : Sha256) (_ : ReprText) (_ : NewestFinding) (cfg : Settings)
      (findings findings' : Table StoredFinding) (call : IngestCall) (f : StoredFinding)
      (issue : Loaded), call.sourceName = str "Aikido" →
      call.payload.sourceIssueId = aikidoSourceIssueId issue →
      Str.strip (Str.orEmpty (aikidoSourceIssueId issue)) ≠ [] →
      call.returned cfg findings = some (f, findings') →
        ClosesExactly findings' call.payload f) ∧
    ¬ ∀ (_ : Unicode) (_ : Sha256) (_ : ReprText) (_ : NewestFinding) (cfg : Settings)
      (findings findings' : Table StoredFinding) (call : IngestCall) (f : StoredFinding)
      (issue : Loaded), call.sourceName = str "Aikido" →
      call.payload.sourceIssueId = aikidoSourceIssueId issue →
      Str.strip (Str.orEmpty (aikidoSourceIssueId issue)) ≠ [] →
      call.returned cfg findings = some (f, findings') →
        backfilledFinding findings' call.payload = some f := by
  constructor
  · intro h
    obtain ⟨⟨f, findings'⟩, hreturned⟩ := Option.isSome_iff_exists.mp
      (show ((branchIssue "team/app" "main" 3).returned ⟨true, []⟩ twoRepositories).isSome by
        decide +kernel)
    have hid : Str.strip (Str.orEmpty (branchIssue "team/app" "main" 3).payload.sourceIssueId) ≠
        [] := by decide +kernel
    have hcloses := h asciiUnicode branchDigest noRepr firstNewestFinding _ _ _ _ _ seventhIssue rfl
      (by decide +kernel) (by decide +kernel) hreturned
    rw [closesExactly_returned_iff notMem_lower_asciiUnicode rfl rfl hid hreturned] at hcloses
    exact absurd hcloses.2 (by decide +kernel)
  · intro h
    obtain ⟨⟨f, findings'⟩, hreturned⟩ := Option.isSome_iff_exists.mp
      (show ((branchIssue "team/app" "main" 1).returned ⟨true, []⟩ .empty).isSome by
        decide +kernel)
    have hid : Str.strip (Str.orEmpty (branchIssue "team/app" "main" 1).payload.sourceIssueId) ≠
        [] := by decide +kernel
    have hfound := h asciiUnicode branchDigest noRepr firstNewestFinding _ _ _ _ _ seventhIssue rfl
      (by decide +kernel) (by decide +kernel) hreturned
    exact packageFingerprint_ne_returned notMem_lower_asciiUnicode rfl hid hreturned _
      (Table.uk_of_getBy? hfound).symm

end TwoRepositories

end Vat
