import Vat.Inbound.Deliveries
import Vat.Transition.Claims

/-!
# Edits applied at most once

A run of deliveries applies an edit once for each channel over which it comes in with a key that is
new then. The keys of one edit over the two channels are different texts, so that claiming keys does
not stop the second one.

The run is followed through its claims: which finding a delivery is about, and whether its
transaction succeeds, does not change during a run, since applying a block to a finding leaves alone
what findings are found by (`findLinked_map`).

## Main definitions

* `Delivery.outcome`: whether a delivery claims its key, and the finding it then edits.
* `Arrives`: an edit comes in over a channel with a new key, and edits a finding.

## Main results

* `applied_receive_foldl`: what a run applies.
* `applied_once_iff`: no edit is applied twice exactly if none arrives over both channels.
-/

namespace Vat

open Transition

/-! ### What findings are found by -/

/-- The columns by which a finding is found are kept. -/
def KeepsLinks (g : LinkedFinding → LinkedFinding) : Prop :=
  ∀ f, (g f).id = f.id ∧ (g f).cveId = f.cveId ∧ (g f).createdAt = f.createdAt ∧
    (g f).archived = f.archived ∧ (g f).externalLinks = f.externalLinks

theorem keepsLinks_edited (id : Str) (b : VatBlock) (status : Status) :
    KeepsLinks fun f => if f.id = id then f.edited b status else f := by
  intro f
  dsimp only
  split <;> exact ⟨rfl, rfl, rfl, rfl, rfl⟩

variable {g : LinkedFinding → LinkedFinding} (hg : KeepsLinks g)

include hg

theorem mostRecent_map (findings : List LinkedFinding) :
    mostRecent (findings.map g) = (mostRecent findings).map g := by
  induction findings with
  | nil => rfl
  | cons f fs ih =>
    rw [List.map_cons, mostRecent, mostRecent, ih]
    cases mostRecent fs with
    | none => rfl
    | some f' =>
      simp only [Option.map_some, (hg f).2.2.1, (hg f').2.2.1]
      split <;> rfl

omit hg in
theorem filter_map_links (p : LinkedFinding → Bool) (hp : ∀ f, p (g f) = p f)
    (findings : List LinkedFinding) : (findings.map g).filter p = (findings.filter p).map g := by
  rw [List.filter_map]
  congr 1
  exact List.filter_congr fun f _ => hp f

theorem findByExternalId_map (findings : List LinkedFinding) (issueId : Str) :
    findByExternalId (findings.map g) issueId = (findByExternalId findings issueId).map g := by
  rw [findByExternalId, filter_map_links, mostRecent_map hg, findByExternalId]
  exact fun f => by rw [(hg f).2.2.2.2]

theorem findByLinearUuid_map (findings : List LinkedFinding) (uuid : Str) :
    findByLinearUuid (findings.map g) uuid = (findByLinearUuid findings uuid).map g := by
  rw [findByLinearUuid, filter_map_links, mostRecent_map hg, findByLinearUuid]
  exact fun f => by rw [(hg f).2.2.2.1, (hg f).2.2.2.2]

omit hg in
theorem find?_map_links (p : LinkedFinding → Bool) (hp : ∀ f, p (g f) = p f)
    (findings : List LinkedFinding) : (findings.map g).find? p = (findings.find? p).map g := by
  rw [List.find?_map]
  congr 2
  exact funext hp

theorem findByIssue_map (findings : List LinkedFinding) (issueId issueUuid : Str) :
    findByIssue (findings.map g) issueId issueUuid =
      (findByIssue findings issueId issueUuid).map g := by
  rw [findByIssue, findByIssue, Option.map_or, Option.map_or]
  congr 1
  · split
    · rfl
    · exact findByExternalId_map hg ..
  · congr 1
    · split
      · rfl
      · exact findByLinearUuid_map hg ..
    · split
      · exact findByLinearUuid_map hg ..
      · rfl

/-- The finding of a report is the same row after such a change. -/
theorem findLinked_map (findings : List LinkedFinding) (r : Report) :
    findLinked (findings.map g) r = (findLinked findings r).map g := by
  rw [findLinked, findLinked, findByIssue_map hg, Option.map_or, Option.map_or]
  congr 2
  · exact find?_map_links _ (fun f => by rw [(hg f).2.1]) findings
  · split
    · exact find?_map_links _ (fun f => by rw [(hg f).1]) findings
    · rfl

omit hg

/-! ### Outcomes -/

section Outcomes

variable [Unicode] [UpperCase] [CharTables] [TextMatching] [Sha256] {ε : Type}
  (content : ε → TrackerEdit)

/-- The key of a delivery. -/
def Delivery.key (d : Delivery ε) : Str := editKey (content d.edit) d.channel

/-- What a delivery does if its key is new: nothing, or it claims the key and edits a finding, if
there is one. -/
def Delivery.outcome (findings : List LinkedFinding) (d : Delivery ε) : Option (Option Str) :=
  if d.commits then
    (d.report content).bind fun r =>
      match findLinked findings r with
      | none => some none
      | some f => (r.parsed.statusFor f.status).map fun _ => some f.id
  else none

variable {content}

theorem Delivery.report_key {d : Delivery ε} {r : Report} (h : d.report content = some r) :
    r.key = d.key content := by
  unfold Delivery.report at h
  split at h <;> obtain ⟨b, -, rfl⟩ := Option.map_eq_some_iff.mp h <;> rfl

/-- What a delivery does is the same when the findings have been edited. -/
theorem Delivery.outcome_map (hg : KeepsLinks g) (findings : List LinkedFinding) (d : Delivery ε) :
    d.outcome content (findings.map g) = d.outcome content findings := by
  unfold Delivery.outcome
  congr 2
  funext r
  rw [findLinked_map hg]
  cases findLinked findings r with
  | none => rfl
  | some f =>
    simp only [Option.map_some, (hg f).1, VatBlock.statusFor]
    split <;> rfl

omit [Unicode] [UpperCase] [CharTables] [TextMatching] [Sha256] in
/-- What is recorded already is not recorded again. -/
theorem InboundDb.recordWebhookProcessed_of_mem {s : InboundDb ε} {key : Str} (h : key ∈ s.keys) :
    s.recordWebhookProcessed key = s := by
  rw [recordWebhookProcessed, claimWebhook, if_pos h]
  rfl

/-- A delivery that does nothing, or whose key is claimed. -/
theorem receive_eq_self {s : InboundDb ε} {d : Delivery ε}
    (h : d.outcome content s.findings = none ∨ d.key content ∈ s.keys) :
    receive content s d = s := by
  rw [receive]
  cases hr : d.report content with
  | none => rfl
  | some r =>
    by_cases hkey : r.key ∈ s.keys
    · simp [InboundDb.claimWebhook, hkey]
    · have hout := h.resolve_right (d.report_key hr ▸ hkey)
      by_cases hcommits : d.commits = true
      · -- the status is unknown
        cases hf : findLinked s.findings r with
        | none => simp [Delivery.outcome, hr, hf, hcommits] at hout
        | some f =>
          cases hstatus : r.parsed.statusFor f.status with
          | none =>
            simp [InboundDb.claimWebhook, hkey, InboundDb.applyVatParsedUpdate, hf, hstatus]
          | some status => simp [Delivery.outcome, hr, hf, hcommits, hstatus] at hout
      · simp only [hcommits]
        split <;> rfl

/-- A delivery with a new key, whose block is applied to the finding it is about. -/
theorem receive_of_findLinked {s : InboundDb ε} {d : Delivery ε} {r : Report} {f : LinkedFinding}
    {status : Status} (hcommits : d.commits = true) (hr : d.report content = some r)
    (hkey : r.key ∉ s.keys) (hf : findLinked s.findings r = some f)
    (hstatus : r.parsed.statusFor f.status = some status) :
    receive content s d =
      ⟨s.findings.map fun g => if g.id = f.id then g.edited r.parsed status else g,
        ⟨r.key⟩ :: s.webhookEvents, s.applied ++ [(d.edit, f.id)]⟩ := by
  simp only [receive, hr, InboundDb.claimWebhook, hkey, if_false, Option.bind_some,
    InboundDb.applyVatParsedUpdate, hf, hstatus, Option.map_some, hcommits, if_true]
  exact InboundDb.recordWebhookProcessed_of_mem (by simp [InboundDb.keys])

/-- A delivery that claims its key. -/
theorem receive_eq {s : InboundDb ε} {d : Delivery ε} {target : Option Str}
    (h : d.outcome content s.findings = some target) (hkey : d.key content ∉ s.keys) :
    ∃ g, KeepsLinks g ∧ receive content s d =
      ⟨s.findings.map g, ⟨d.key content⟩ :: s.webhookEvents,
        s.applied ++ (target.map (d.edit, ·)).toList⟩ := by
  by_cases hcommits : d.commits = true
  swap
  · simp [Delivery.outcome, hcommits] at h
  cases hr : d.report content with
  | none => simp [Delivery.outcome, hr, hcommits] at h
  | some r =>
    rw [← d.report_key hr] at hkey ⊢
    cases hf : findLinked s.findings r with
    | none =>
      obtain rfl : none = target := by simpa [Delivery.outcome, hr, hf, hcommits] using h
      refine ⟨id, fun f => ⟨rfl, rfl, rfl, rfl, rfl⟩, ?_⟩
      simp only [receive, hr, InboundDb.claimWebhook, hkey, if_false, Option.bind_some,
        InboundDb.applyVatParsedUpdate, hf, hcommits, if_true, List.map_id, Option.map_none,
        Option.toList_none, List.append_nil]
      exact InboundDb.recordWebhookProcessed_of_mem (by simp [InboundDb.keys])
    | some f =>
      obtain ⟨status, hstatus, rfl⟩ : ∃ status, r.parsed.statusFor f.status = some status ∧
          some f.id = target := by
        simpa [Delivery.outcome, hr, hf, hcommits] using h
      exact ⟨_, keepsLinks_edited f.id r.parsed status,
        receive_of_findLinked hcommits hr hkey hf hstatus⟩

/-! ### Runs -/

/-- A delivery that claims its key when it is new. -/
def Delivery.claimsKey (content : ε → TrackerEdit) (findings : List LinkedFinding)
    (d : Delivery ε) : Bool := (d.outcome content findings).isSome

/-- A delivery that edits a finding when its key is new. -/
def Delivery.edits (content : ε → TrackerEdit) (findings : List LinkedFinding)
    (d : Delivery ε) : Bool := (d.outcome content findings).join.isSome

/-- What a run applies: the edits of the deliveries that claim their key and find a finding. -/
theorem applied_receive_foldl (s : InboundDb ε) (run : List (Delivery ε)) :
    (run.foldl (receive content) s).applied.map Prod.fst =
      s.applied.map Prod.fst ++
        ((claims (Delivery.key content) s.keys (run.filter (·.claimsKey content s.findings))).filter
          (·.edits content s.findings)).map Delivery.edit := by
  induction run generalizing s with
  | nil => simp [claims]
  | cons d run ih =>
    rw [List.foldl_cons, ih]
    cases hout : d.outcome content s.findings with
    | none =>
      have hclaims : d.claimsKey content s.findings = false := by simp [Delivery.claimsKey, hout]
      rw [receive_eq_self (.inl hout), List.filter_cons_of_neg (by simp [hclaims])]
    | some target =>
      have hclaims : d.claimsKey content s.findings = true := by simp [Delivery.claimsKey, hout]
      rw [List.filter_cons_of_pos hclaims, claims]
      by_cases hkey : d.key content ∈ s.keys
      · rw [receive_eq_self (.inr hkey), if_pos hkey]
      · obtain ⟨g, hg, heq⟩ := receive_eq hout hkey
        rw [heq, if_neg hkey]
        have later : (fun d' : Delivery ε => d'.edits content (s.findings.map g)) =
            fun d' => d'.edits content s.findings := by
          funext d'
          rw [Delivery.edits, Delivery.outcome_map hg, Delivery.edits]
        have later' : (fun d' : Delivery ε => d'.claimsKey content (s.findings.map g)) =
            fun d' => d'.claimsKey content s.findings := by
          funext d'
          rw [Delivery.claimsKey, Delivery.outcome_map hg, Delivery.claimsKey]
        simp only [later, later', List.map_append, List.append_assoc]
        congr 1
        cases target with
        | none =>
          have : d.edits content s.findings = false := by simp [Delivery.edits, hout]
          simp [this, InboundDb.keys]
        | some id =>
          have : d.edits content s.findings = true := by simp [Delivery.edits, hout]
          simp [this, InboundDb.keys]

/-- An edit comes in over a channel, in a delivery that commits and whose block edits a finding,
with a key that no delivery before it has claimed. -/
def Arrives (content : ε → TrackerEdit) (findings : List LinkedFinding) (taken : List Str)
    (run : List (Delivery ε)) (e : ε) (channel : Channel) : Prop :=
  ∃ before d after, run = before ++ d :: after ∧ d.edit = e ∧ d.channel = channel ∧
    d.edits content findings ∧ d.key content ∉ taken ∧
    ∀ d' ∈ before, d'.claimsKey content findings → d'.key content ≠ d.key content

theorem Delivery.claimsKey_of_edits {findings : List LinkedFinding} {d : Delivery ε}
    (h : d.edits content findings) : d.claimsKey content findings := by
  cases hout : d.outcome content findings with
  | none => simp [Delivery.edits, hout] at h
  | some target => simp [Delivery.claimsKey, hout]

/-- An edit arrives exactly if one of the deliveries that claim their key is about it. -/
theorem arrives_iff {findings : List LinkedFinding} {taken : List Str} {run : List (Delivery ε)}
    {e : ε} {channel : Channel} :
    Arrives content findings taken run e channel ↔
      ∃ d ∈ claims (Delivery.key content) taken (run.filter (·.claimsKey content findings)),
        d.edits content findings ∧ d.edit = e ∧ d.channel = channel := by
  simp only [mem_claims_filter]
  constructor
  · rintro ⟨before, d, after, hrun, he, hchannel, hedits, htaken, hbefore⟩
    exact ⟨d, ⟨before, after, hrun, Delivery.claimsKey_of_edits hedits, htaken, hbefore⟩, hedits,
      he, hchannel⟩
  · rintro ⟨d, ⟨before, after, hrun, -, htaken, hbefore⟩, hedits, he, hchannel⟩
    exact ⟨before, d, after, hrun, he, hchannel, hedits, htaken, hbefore⟩

/-- In a run of deliveries, no edit is applied twice exactly if none arrives by webhook and by poll,
with a key that is new each time. -/
theorem applied_once_iff (content : ε → TrackerEdit) (findings : List LinkedFinding)
    (events : List WebhookEvent) (run : List (Delivery ε)) :
    ((run.foldl (receive content) ⟨findings, events, []⟩).applied.map Prod.fst).Nodup ↔
      ∀ e, ¬ (Arrives content findings (events.map WebhookEvent.idempotencyKey) run e .webhook ∧
        Arrives content findings (events.map WebhookEvent.idempotencyKey) run e .poll) := by
  have same_key : ∀ d d' : Delivery ε, d.edit = d'.edit → d.channel = d'.channel →
      d.key content = d'.key content := fun d d' hedit hchannel => by
    rw [Delivery.key, Delivery.key, hedit, hchannel]
  rw [applied_receive_foldl, List.map_nil, List.nil_append, nodup_map_claims_iff same_key]
  simp only [arrives_iff, InboundDb.keys]
  constructor
  · rintro h e ⟨⟨d, hd, hedits, rfl, hchannel⟩, d', hd', hedits', he, hchannel'⟩
    have := h d hd d' hd' hedits hedits' he.symm
    rw [hchannel, hchannel'] at this
    exact absurd this (by decide)
  · intro h d hd d' hd' hedits hedits' he
    have both := h d.edit
    cases hchannel : d.channel <;> cases hchannel' : d'.channel
    · rfl
    · exact absurd ⟨⟨d, hd, hedits, rfl, hchannel⟩, d', hd', hedits', he.symm, hchannel'⟩ both
    · exact absurd ⟨⟨d', hd', hedits', he.symm, hchannel'⟩, d, hd, hedits, rfl, hchannel⟩ both
    · rfl

end Outcomes

/-! ### A comment that is applied twice -/

section Twice

attribute [local instance] asciiUnicode asciiUpperCase asciiCharTables noTextMatching unaryDigest

/-- An answer to an issue. -/
def mitigatedComment : CommentEdit where
  id := str "c1"
  createdAt := str "2026-01-01"
  body := str "[VAT] CVE-2024-1\nstatus: mitigated\njustification: patched"
  action := str "create"
  webhookIssue := ⟨str "ENG-1", str "u1"⟩
  webhookIssueId := str "u1"
  issue := ⟨str "ENG-1", str "u1"⟩

/-- The finding of the issue. -/
def engFinding : LinkedFinding where
  id := str "f-1"
  cveId := str "CVE-2024-1"
  createdAt := 0
  archived := false
  externalLinks := [⟨str "linear", str "tracker", str "ENG-1", none, 0, 0, [], some (str "u1")⟩]
  status := .open
  previousStatus := none
  justification := none
  compensatingControls := none

/-- The webhook of a comment and the poll that lists it apply it once each. -/
theorem not_applied_once :
    ¬ ∀ (content : Unit → TrackerEdit) (findings : List LinkedFinding) (events : List WebhookEvent)
      (run : List (Delivery Unit)),
      ((run.foldl (receive content) ⟨findings, events, []⟩).applied.map Prod.fst).Nodup := by
  intro h
  have twice := h (fun _ => .comment mitigatedComment) [engFinding] []
    [⟨(), .webhook, [], [], true⟩, ⟨(), .poll, [], [], true⟩]
  revert twice
  decide +kernel

end Twice

end Vat
