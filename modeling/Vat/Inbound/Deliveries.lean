import Vat.Findings.Update
import Vat.Ingest.Fingerprint
import Vat.Sync.Queue
import Vat.Tracker.VatBlock

/-!
# Tracker edits that come in

A comment on a tracked issue and an edit of its description reach VAT over two channels: the tracker
posts a webhook, and may post it again, and VAT polls the tracker. Each delivery claims an
idempotency key in the table `webhook_events` in the same transaction in which the parsed block is
applied to the linked finding.

A delivery names the edit it is about, so that it can be said which edits were applied; the code
sees only the texts. A transaction that fails leaves nothing behind (`Delivery.commits`).

Source: `backend/app/api/webhooks/linear.py`, lines 112–149 and 197–246;
`backend/app/services/linear_poll_service.py`, lines 100–190;
`backend/app/services/linear_parsed_service.py`, lines 18–83;
`backend/app/services/webhook_idempotency.py`, lines 25–71 and 83–106;
`backend/app/services/external_links_service.py`, lines 153–234;
`backend/app/adapters/linear.py`, lines 1418–1472; `backend/app/schemas/vat.py`, lines 231–240.

## Main definitions

* `TrackerEdit`, `Delivery`, `Delivery.report`: what comes in and what is read out of it.
* `LinkedFinding`, `findLinked`: the findings and the one a report is about.
* `InboundDb`, `applyVatParsedUpdate`, `receive`.
-/

namespace Vat

/-! ### Deliveries -/

/-- An issue as a payload names it. -/
structure IssueRef where
  identifier : Str
  id : Str
deriving DecidableEq

/-- `issue.get("identifier") or issue.get("id")`. -/
def IssueRef.name (i : IssueRef) : Str := if i.identifier = [] then i.id else i.identifier

/-- `x or y` for texts. -/
def orText (x y : Str) : Str := if x = [] then y else x

/-- A comment: its webhook and its entry in the list of the issue's comments. -/
structure CommentEdit where
  id : Str
  createdAt : Str
  body : Str
  /-- `action`, or the type of the webhook. -/
  action : Str
  /-- The issue in the webhook, and its `issueId`. -/
  webhookIssue : IssueRef
  webhookIssueId : Str
  /-- The issue in the poll. -/
  issue : IssueRef
deriving DecidableEq

/-- A new description of an issue: its webhook and the issue in the poll. -/
structure DescriptionEdit where
  description : Str
  /-- `createdAt`, or `webhookTimestamp`. -/
  timestamp : Str
  webhookIssue : IssueRef
  webhookIssueId : Str
  issue : IssueRef
deriving DecidableEq

/-- An edit in the tracker. -/
inductive TrackerEdit
  | comment (c : CommentEdit)
  | description (d : DescriptionEdit)
deriving DecidableEq

/-- How an edit comes in. -/
inductive Channel
  | webhook
  | poll
deriving DecidableEq

/-- A webhook, or the part of a poll that is about one edit, with the issue's title and description
as it shows them. -/
structure Delivery (ε : Type) where
  edit : ε
  channel : Channel
  title : Str
  description : Str
  commits : Bool

/-- What is read out of a delivery. -/
structure Report where
  key : Str
  parsed : VatBlock
  issueId : Str
  issueUuid : Str

section Reports

variable [Unicode] [UpperCase] [CharTables] [TextMatching] [Sha256]

/-- `compute_idempotency_key`. -/
def computeIdempotencyKey (source eventType : Str) (parts : List Str) : Str :=
  Sha256.hexdigest (source ++ str ":" ++ eventType ++ str ":" ++ Str.join ':' parts)

/-- `LinearAdapter.to_vat_comment_update`: the block in a comment, if it fits the schema. -/
def toVatCommentUpdate (body issueBodyHint issueId commentId : Str) : Option VatBlock := do
  let b ← parseVatBlock body (extractCveIds issueBodyHint).head?
  if b.cveId ≠ [] ∧ b.cveId.length ≤ 128 ∧ b.status.length ≤ 64 ∧ b.justification.length ≤ 10000 ∧
      b.compensatingControls.length ≤ 2000 ∧ issueId.length ≤ 64 ∧ commentId.length ≤ 64 then
    some b
  else none

/-- The idempotency key of an edit that comes in over a channel. -/
def editKey (edit : TrackerEdit) (channel : Channel) : Str :=
  match edit, channel with
  | .comment c, .webhook =>
    computeIdempotencyKey (str "linear") (orText c.action (str "Comment.create"))
      [orText c.id (orText c.webhookIssue.name c.webhookIssueId),
        orText c.createdAt (orText c.webhookIssueId c.webhookIssue.id)]
  | .comment c, .poll =>
    computeIdempotencyKey (str "linear") (str "Comment.create")
      [orText c.id c.issue.name, orText c.createdAt c.issue.id]
  | .description d, .webhook =>
    computeIdempotencyKey (str "linear") (str "Issue.update.description")
      [orText d.webhookIssue.name d.webhookIssueId, d.description.take 200 ++ d.timestamp]
  | .description d, .poll =>
    computeIdempotencyKey (str "linear") (str "Issue.update.description")
      [d.issue.name, d.description.take 200]

/-- The block, the issue and the key of a delivery; nothing when there is no block to apply. -/
def Delivery.report {ε : Type} (content : ε → TrackerEdit) (d : Delivery ε) : Option Report :=
  let key := editKey (content d.edit) d.channel
  match content d.edit, d.channel with
  | .comment c, .webhook =>
    let issueId := orText c.webhookIssue.name c.webhookIssueId
    (toVatCommentUpdate c.body (d.description ++ str " " ++ d.title) issueId c.id).map fun b =>
      ⟨key, b, issueId, orText c.webhookIssueId c.webhookIssue.id⟩
  | .comment c, .poll =>
    (toVatCommentUpdate c.body (d.title ++ str " " ++ d.description)
      (orText c.issue.name c.issue.id) c.id).map fun b => ⟨key, b, c.issue.name, c.issue.id⟩
  | .description e, .webhook =>
    (parseVatBlockFromText e.description none).map fun b =>
      ⟨key, b, orText e.webhookIssue.name e.webhookIssueId, e.webhookIssue.id⟩
  | .description e, .poll =>
    (parseVatBlockFromText e.description none).map fun b => ⟨key, b, e.issue.name, e.issue.id⟩

end Reports

/-! ### Findings -/

/-- The columns of a finding by which a report finds it, and those that it edits. -/
structure LinkedFinding where
  id : Str
  cveId : Str
  createdAt : Instant
  archived : Bool
  externalLinks : List LinkRecord
  status : Status
  previousStatus : Option Str
  justification : Option Str
  compensatingControls : Option Str
deriving DecidableEq

/-- `ORDER BY created_at DESC LIMIT 1`. -/
def mostRecent : List LinkedFinding → Option LinkedFinding
  | [] => none
  | f :: fs =>
    match mostRecent fs with
    | none => some f
    | some g => if f.createdAt < g.createdAt then some g else some f

/-- `find_finding_by_external_id` for Linear. -/
def findByExternalId (findings : List LinkedFinding) (issueId : Str) : Option LinkedFinding :=
  mostRecent (findings.filter fun f =>
    f.externalLinks.any fun l => l.adapterKey == str "linear" && l.issueId == issueId)

/-- `_find_finding_by_linear_uuid`. -/
def findByLinearUuid (findings : List LinkedFinding) (uuid : Str) : Option LinkedFinding :=
  mostRecent (findings.filter fun f => !f.archived &&
    f.externalLinks.any fun l => l.isTracker (str "linear") && l.issueUuid == some uuid)

/-- `_is_uuid`: groups of hexadecimal digits. -/
def isUuid (s : Str) : Bool :=
  let parts := (Str.strip s).splitOn '-'
  parts.map List.length == [8, 4, 4, 4, 12] &&
    parts.all fun p => p.all fun c => c.isDigit || c.toLower ∈ str "abcdef"

/-- `find_finding_by_linear_issue_id_or_uuid`. -/
def findByIssue (findings : List LinkedFinding) (issueId issueUuid : Str) : Option LinkedFinding :=
  (if issueId = [] then none else findByExternalId findings issueId).or <|
    (if issueUuid = [] then none else findByLinearUuid findings issueUuid).or <|
      if isUuid issueId then findByLinearUuid findings issueId else none

/-- The finding a report is about: by the issue, by the vulnerability, by its id. -/
def findLinked (findings : List LinkedFinding) (r : Report) : Option LinkedFinding :=
  (findByIssue findings r.issueId r.issueUuid).or <|
    (findings.find? fun f => f.cveId = r.parsed.cveId).or <|
      if r.parsed.cveId ≠ [] ∧ r.parsed.cveId.length ≤ 32 then
        findings.find? fun f => f.id = r.parsed.cveId
      else none

/-- The status `update_finding` sets; nothing when it raises, as it does for an unknown one. -/
def VatBlock.statusFor (b : VatBlock) (current : Status) : Option Status :=
  if b.status = [] then some current else statusToEnum b.status

/-- The edit that `update_finding` makes for a parsed block. -/
def LinkedFinding.edited (b : VatBlock) (status : Status) (f : LinkedFinding) : LinkedFinding :=
  { f with
    status := status
    previousStatus := if status ≠ f.status then some f.status.value else f.previousStatus
    justification := some b.justification
    compensatingControls := some b.compensatingControls }

/-! ### The database -/

/-- A row of the table `webhook_events`; `idempotency_key` is unique. -/
structure WebhookEvent where
  idempotencyKey : Str
deriving DecidableEq

/-- The tables, and which edits have been applied to which findings. -/
structure InboundDb (ε : Type) where
  findings : List LinkedFinding
  webhookEvents : List WebhookEvent
  applied : List (ε × Str)

namespace InboundDb

variable {ε : Type}

/-- The keys that are claimed. -/
def keys (s : InboundDb ε) : List Str := s.webhookEvents.map WebhookEvent.idempotencyKey

/-- `claim_webhook`: `ON CONFLICT DO NOTHING`, and whether a row was inserted. -/
def claimWebhook (s : InboundDb ε) (key : Str) : Option (InboundDb ε) :=
  if key ∈ s.keys then none else some { s with webhookEvents := ⟨key⟩ :: s.webhookEvents }

/-- `record_webhook_processed`. -/
def recordWebhookProcessed (s : InboundDb ε) (key : Str) : InboundDb ε :=
  (s.claimWebhook key).getD s

/-- `apply_vat_parsed_update`; nothing when it raises. -/
def applyVatParsedUpdate (s : InboundDb ε) (edit : ε) (r : Report) : Option (InboundDb ε) :=
  match findLinked s.findings r with
  | none => some (s.recordWebhookProcessed r.key)
  | some f => (r.parsed.statusFor f.status).map fun newStatus =>
    let updated : InboundDb ε := { s with
      findings := s.findings.map fun g => if g.id = f.id then g.edited r.parsed newStatus else g
      applied := s.applied ++ [(edit, f.id)] }
    updated.recordWebhookProcessed r.key

end InboundDb

section Receive

variable [Unicode] [UpperCase] [CharTables] [TextMatching] [Sha256] {ε : Type}

/-- One delivery, in a transaction of its own. -/
def receive (content : ε → TrackerEdit) (s : InboundDb ε) (d : Delivery ε) : InboundDb ε :=
  match d.report content with
  | none => s
  | some r =>
    match (s.claimWebhook r.key).bind fun s => s.applyVatParsedUpdate d.edit r with
    | some s' => if d.commits then s' else s
    | none => s

end Receive

end Vat
