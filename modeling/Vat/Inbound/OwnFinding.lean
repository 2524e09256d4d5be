import Vat.Inbound.Deliveries

/-!
# The finding that a report is about

A parsed block edits a finding that is linked to the issue of its report. If there is none, then it
edits the first finding with the vulnerability that it names, and else the one whose id it names. Of
several findings with one vulnerability it edits one.

An archived finding is linked by the id of an issue and not by its UUID.

Source: `backend/app/services/linear_parsed_service.py`, lines 31–77;
`backend/app/services/external_links_service.py`, lines 153–234.

## Main definitions

* `LinkedFinding.IsLinkedTo`, `LinkedFinding.Matches`: by what a report finds a finding.
* `InboundDb.Modifies`: a report modifies a finding.
* `TouchesOwnFinding`: what is asked of a report.

## Main results

* `modifies_iff`: a report modifies the finding that it finds, if its status is known.
* `touchesOwnFinding_iff`.
-/

namespace Vat

/-! ### By what a finding is found -/

/-- A link to a Linear issue with an id. -/
def LinkedFinding.hasLinearId (f : LinkedFinding) (issueId : Str) : Bool :=
  f.externalLinks.any fun l => l.adapterKey == str "linear" && l.issueId == issueId

/-- A finding that is not archived has a link to a Linear issue with a UUID. -/
def LinkedFinding.hasLinearUuid (f : LinkedFinding) (uuid : Str) : Bool :=
  !f.archived && f.externalLinks.any fun l => l.isTracker (str "linear") && l.issueUuid == some uuid

/-- The finding is linked to the issue of a report. -/
def LinkedFinding.IsLinkedTo (f : LinkedFinding) (r : Report) : Prop :=
  (r.issueId ≠ [] ∧ f.hasLinearId r.issueId) ∨ (r.issueUuid ≠ [] ∧ f.hasLinearUuid r.issueUuid) ∨
    (isUuid r.issueId ∧ f.hasLinearUuid r.issueId)

/-- The block of a report names the finding, by its vulnerability or by its id. -/
def LinkedFinding.Matches (f : LinkedFinding) (r : Report) : Prop :=
  f.cveId = r.parsed.cveId ∨
    (r.parsed.cveId ≠ [] ∧ r.parsed.cveId.length ≤ 32) ∧ f.id = r.parsed.cveId

/-- The status of the block is one that findings have, or it has none. -/
def Report.StatusKnown (r : Report) : Prop :=
  r.parsed.status = [] ∨ (statusToEnum r.parsed.status).isSome

/-! ### What is asked of a report -/

variable {ε : Type} {s s' : InboundDb ε} {edit : ε} {r : Report} {f : LinkedFinding}

/-- A report is applied to a finding, or changes its row. -/
def InboundDb.Modifies (s : InboundDb ε) (edit : ε) (r : Report) (f : LinkedFinding) : Prop :=
  ∃ s', s.applyVatParsedUpdate edit r = some s' ∧
    (s'.applied = s.applied ++ [(edit, f.id)] ∨ f ∉ s'.findings)

/-- A report modifies only findings that are linked to its issue, or, if there is none, a finding
that it alone names. -/
def TouchesOwnFinding (s : InboundDb ε) (edit : ε) (r : Report) : Prop :=
  ∀ f ∈ s.findings, s.Modifies edit r f →
    f.IsLinkedTo r ∨ (∀ g ∈ s.findings, ¬ g.IsLinkedTo r) ∧ f.Matches r ∧
      ∀ g ∈ s.findings, g.Matches r → g = f

/-! ### Lookups -/

theorem mem_of_mostRecent {findings : List LinkedFinding} (h : mostRecent findings = some f) :
    f ∈ findings := by
  induction findings with
  | nil => cases h
  | cons g fs ih =>
    rw [mostRecent] at h
    cases hrest : mostRecent fs with
    | none =>
      rw [hrest] at h
      cases h
      exact List.mem_cons_self
    | some g' =>
      rw [hrest] at h
      dsimp only at h
      split_ifs at h
      · cases h
        exact List.mem_cons_of_mem _ (ih hrest)
      · cases h
        exact List.mem_cons_self

theorem mostRecent_eq_none_iff {findings : List LinkedFinding} :
    mostRecent findings = none ↔ findings = [] := by
  cases findings with
  | nil => exact iff_of_true rfl rfl
  | cons g fs =>
    refine iff_of_false (fun h => ?_) (List.cons_ne_nil _ _)
    rw [mostRecent] at h
    cases hrest : mostRecent fs with
    | none =>
      rw [hrest] at h
      cases h
    | some g' =>
      rw [hrest] at h
      dsimp only at h
      split_ifs at h

theorem findByExternalId_eq (findings : List LinkedFinding) (issueId : Str) :
    findByExternalId findings issueId = mostRecent (findings.filter (·.hasLinearId issueId)) := rfl

theorem findByLinearUuid_eq (findings : List LinkedFinding) (uuid : Str) :
    findByLinearUuid findings uuid = mostRecent (findings.filter (·.hasLinearUuid uuid)) := rfl

theorem mem_of_mostRecent_filter {findings : List LinkedFinding} {p : LinkedFinding → Bool}
    (h : mostRecent (findings.filter p) = some f) : f ∈ findings ∧ p f :=
  List.mem_filter.mp (mem_of_mostRecent h)

theorem mostRecent_filter_eq_none_iff {findings : List LinkedFinding} {p : LinkedFinding → Bool} :
    mostRecent (findings.filter p) = none ↔ ∀ f ∈ findings, ¬ p f :=
  mostRecent_eq_none_iff.trans List.filter_eq_nil_iff

/-- The lookup by the issue finds a finding that is linked to it. -/
theorem isLinkedTo_of_findByIssue {findings : List LinkedFinding}
    (h : findByIssue findings r.issueId r.issueUuid = some f) : f ∈ findings ∧ f.IsLinkedTo r := by
  rw [findByIssue, findByExternalId_eq, findByLinearUuid_eq, findByLinearUuid_eq] at h
  rcases Option.or_eq_some_iff.mp h with hid | ⟨-, h⟩
  · split_ifs at hid with hne
    obtain ⟨hmem, hlink⟩ := mem_of_mostRecent_filter hid
    exact ⟨hmem, .inl ⟨hne, hlink⟩⟩
  · rcases Option.or_eq_some_iff.mp h with huuid | ⟨-, hid⟩
    · split_ifs at huuid with hne
      obtain ⟨hmem, hlink⟩ := mem_of_mostRecent_filter huuid
      exact ⟨hmem, .inr (.inl ⟨hne, hlink⟩)⟩
    · split_ifs at hid with huuid
      obtain ⟨hmem, hlink⟩ := mem_of_mostRecent_filter hid
      exact ⟨hmem, .inr (.inr ⟨huuid, hlink⟩)⟩

/-- It finds nothing only if no finding is linked to the issue. -/
theorem not_isLinkedTo_of_findByIssue {findings : List LinkedFinding}
    (h : findByIssue findings r.issueId r.issueUuid = none) : ∀ f ∈ findings, ¬ f.IsLinkedTo r := by
  rw [findByIssue, findByExternalId_eq, findByLinearUuid_eq, findByLinearUuid_eq,
    Option.or_eq_none_iff, Option.or_eq_none_iff] at h
  obtain ⟨hid, huuid, hidUuid⟩ := h
  rintro f hf (⟨hne, hlink⟩ | ⟨hne, hlink⟩ | ⟨huuid', hlink⟩)
  · rw [if_neg hne] at hid
    exact mostRecent_filter_eq_none_iff.mp hid f hf hlink
  · rw [if_neg hne] at huuid
    exact mostRecent_filter_eq_none_iff.mp huuid f hf hlink
  · rw [if_pos huuid'] at hidUuid
    exact mostRecent_filter_eq_none_iff.mp hidUuid f hf hlink

/-- The lookups by the block find a finding that it names. -/
theorem matches_of_findLinked {findings : List LinkedFinding}
    (hissue : findByIssue findings r.issueId r.issueUuid = none)
    (h : findLinked findings r = some f) : f ∈ findings ∧ f.Matches r := by
  rw [findLinked, hissue, Option.none_or] at h
  rcases Option.or_eq_some_iff.mp h with hcve | ⟨-, hid⟩
  · exact ⟨List.mem_of_find?_eq_some hcve, .inl (by simpa using List.find?_some hcve)⟩
  · split_ifs at hid with hshort
    exact ⟨List.mem_of_find?_eq_some hid, .inr ⟨hshort, by simpa using List.find?_some hid⟩⟩

theorem not_matches_of_findLinked {findings : List LinkedFinding} (h : findLinked findings r = none) :
    ∀ f ∈ findings, ¬ f.Matches r := by
  rw [findLinked, Option.or_eq_none_iff, Option.or_eq_none_iff] at h
  obtain ⟨-, hcve, hid⟩ := h
  rintro f hf (heq | ⟨hshort, heq⟩)
  · exact List.find?_eq_none.mp hcve f hf (decide_eq_true heq)
  · rw [if_pos hshort] at hid
    exact List.find?_eq_none.mp hid f hf (decide_eq_true heq)

theorem mem_of_findLinked {findings : List LinkedFinding} (h : findLinked findings r = some f) :
    f ∈ findings := by
  cases hissue : findByIssue findings r.issueId r.issueUuid with
  | none => exact (matches_of_findLinked hissue h).1
  | some g =>
    rw [findLinked, hissue, Option.some_or] at h
    cases h
    exact (isLinkedTo_of_findByIssue hissue).1

/-! ### What a report modifies -/

theorem isSome_statusFor_iff (current : Status) :
    (r.parsed.statusFor current).isSome ↔ r.StatusKnown := by
  rw [VatBlock.statusFor, Report.StatusKnown]
  split_ifs with h
  · exact iff_of_true rfl (.inl h)
  · rw [or_iff_right h]

theorem recordWebhookProcessed_eq (s : InboundDb ε) (key : Str) :
    (s.recordWebhookProcessed key).findings = s.findings ∧
      (s.recordWebhookProcessed key).applied = s.applied := by
  rw [InboundDb.recordWebhookProcessed, InboundDb.claimWebhook]
  split_ifs <;> exact ⟨rfl, rfl⟩

/-- A report that finds no finding modifies none. -/
theorem not_modifies_of_findLinked (h : findLinked s.findings r = none) (hf : f ∈ s.findings) :
    ¬ s.Modifies edit r f := by
  rintro ⟨s', hs', hmodified⟩
  rw [InboundDb.applyVatParsedUpdate, h] at hs'
  cases hs'
  rw [(recordWebhookProcessed_eq s r.key).1, (recordWebhookProcessed_eq s r.key).2] at hmodified
  rcases hmodified with happlied | hgone
  · exact List.cons_ne_nil _ _ (List.self_eq_append_right.mp happlied)
  · exact hgone hf

/-- A report modifies the finding that it finds, if its status is known. -/
theorem modifies_iff (hids : (s.findings.map LinkedFinding.id).Nodup) (hf : f ∈ s.findings) :
    s.Modifies edit r f ↔ r.StatusKnown ∧ findLinked s.findings r = some f := by
  cases hfound : findLinked s.findings r with
  | none =>
    refine iff_of_false (not_modifies_of_findLinked hfound hf) fun h => ?_
    cases h.2
  | some g =>
    have hg := mem_of_findLinked hfound
    have heq : g = f ↔ g.id = f.id := by
      constructor
      · exact congrArg LinkedFinding.id
      · exact List.inj_on_of_nodup_map hids hg hf
    rw [← isSome_statusFor_iff g.status, InboundDb.Modifies, InboundDb.applyVatParsedUpdate, hfound,
      Option.some_inj, heq]
    dsimp only
    cases hstatus : r.parsed.statusFor g.status with
    | none => simp only [Option.map_none, reduceCtorEq, false_and, exists_false, Option.isSome_none,
        Bool.false_eq_true]
    | some status =>
      simp only [Option.map_some, Option.some_inj, exists_eq_left', Option.isSome_some, true_and,
        (recordWebhookProcessed_eq _ r.key).1, (recordWebhookProcessed_eq _ r.key).2]
      constructor
      · rintro (happlied | hgone)
        · have hlast := List.append_cancel_left happlied
          exact congrArg Prod.snd (List.singleton_inj.mp hlast)
        · by_contra hne
          refine hgone (List.mem_map.mpr ⟨f, hf, if_neg fun h => hne h.symm⟩)
      · intro hid
        exact .inl (by rw [hid])

/-- A report touches only its own finding exactly if its status is not known, a finding is linked to
its issue, or it names at most one finding. -/
theorem touchesOwnFinding_iff (hids : (s.findings.map LinkedFinding.id).Nodup) :
    TouchesOwnFinding s edit r ↔
      (r.StatusKnown → (∃ f ∈ s.findings, f.IsLinkedTo r) ∨
        ∀ f ∈ s.findings, ∀ g ∈ s.findings, f.Matches r → g.Matches r → f = g) := by
  constructor
  · intro h hstatus
    rw [or_iff_not_imp_left]
    intro hnone f hf g hg hfm hgm
    have hissue : findByIssue s.findings r.issueId r.issueUuid = none := by
      cases hissue : findByIssue s.findings r.issueId r.issueUuid with
      | none => rfl
      | some g => exact absurd ⟨g, isLinkedTo_of_findByIssue hissue⟩ hnone
    cases hfound : findLinked s.findings r with
    | none => exact absurd hfm (not_matches_of_findLinked hfound f hf)
    | some t =>
      have ht := mem_of_findLinked hfound
      rcases h t ht ((modifies_iff hids ht).mpr ⟨hstatus, hfound⟩) with hlink | ⟨-, -, hunique⟩
      · exact absurd ⟨t, ht, hlink⟩ hnone
      · exact (hunique f hf hfm).trans (hunique g hg hgm).symm
  · intro h f hf hmodifies
    obtain ⟨hstatus, hfound⟩ := (modifies_iff hids hf).mp hmodifies
    cases hissue : findByIssue s.findings r.issueId r.issueUuid with
    | some g =>
      rw [findLinked, hissue, Option.some_or] at hfound
      cases hfound
      exact .inl (isLinkedTo_of_findByIssue hissue).2
    | none =>
      have hnone := not_isLinkedTo_of_findByIssue hissue
      have hmatch := (matches_of_findLinked hissue hfound).2
      rcases h hstatus with ⟨g, hg, hlink⟩ | hunique
      · exact absurd hlink (hnone g hg)
      · exact .inr ⟨hnone, hmatch, fun g hg hgm => hunique g hg f hf hgm hmatch⟩

/-! ### One vulnerability on two assets -/

/-- A finding without links. -/
def unlinkedFinding (id : String) (createdAt : Instant) : LinkedFinding where
  id := str id
  cveId := str "CVE-2024-0001"
  createdAt := createdAt
  archived := false
  externalLinks := []
  status := .open
  previousStatus := none
  justification := none
  compensatingControls := none

/-- A comment on an issue that no finding is linked to. -/
def commentReport : Report where
  key := str "k"
  parsed := ⟨str "CVE-2024-0001", str "FalsePositive", str "not reachable", []⟩
  issueId := str "ENG-1"
  issueUuid := []

/-- A vulnerability that one finding has. -/
theorem touchesOwnFinding_once :
    TouchesOwnFinding (⟨[unlinkedFinding "f-1" 1], [], []⟩ : InboundDb Unit) () commentReport := by
  refine (touchesOwnFinding_iff (by decide)).mpr fun _ => .inr fun f hf g hg _ _ => ?_
  exact (List.mem_singleton.mp hf).trans (List.mem_singleton.mp hg).symm

/-- Of two findings with the vulnerability, one is edited. -/
theorem not_touchesOwnFinding_twice :
    ¬ ∀ (s : InboundDb Unit) (edit : Unit) (r : Report), (s.findings.map LinkedFinding.id).Nodup →
      TouchesOwnFinding s edit r := by
  intro h
  have hown := h ⟨[unlinkedFinding "f-1" 1, unlinkedFinding "f-2" 2], [], []⟩ () commentReport
    (by decide)
  have hmodifies : InboundDb.Modifies
      (⟨[unlinkedFinding "f-1" 1, unlinkedFinding "f-2" 2], [], []⟩ : InboundDb Unit) ()
      commentReport (unlinkedFinding "f-1" 1) :=
    (modifies_iff (by decide) (by decide)).mpr ⟨.inr (by decide), by decide⟩
  rcases hown _ List.mem_cons_self hmodifies with hlink | ⟨-, -, hunique⟩
  · rcases hlink with ⟨-, hlink⟩ | ⟨-, hlink⟩ | ⟨-, hlink⟩ <;> cases hlink
  · exact absurd (hunique (unlinkedFinding "f-2" 2) (by decide) (.inl rfl)) (by decide)

end Vat
