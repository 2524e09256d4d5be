import Vat.Inbound.Deliveries
import Vat.Python.Dynamic
import Vat.Transition.Transactions

/-!
# The events of Aikido

What comes in at the webhook of an Aikido source, after its signature was checked. The timestamp
that the replay check reads comes from a header or from the body, the one in the idempotency key
from the body alone, and the key has nothing else of the body but its event and the id of its issue.
So of two bodies with one event, issue and timestamp only the first is applied.

Source: `backend/app/api/webhooks/aikido.py`, lines 127–170 and 205–295;
`backend/app/services/webhook_idempotency.py`, lines 25–71; `backend/app/api/webhooks/common.py`,
lines 29–71.

## Main definitions

* `verifyReplayTimestamp`, `idempotencyKey`: the two readings of a body.
* `AikidoDelivery.key`: the key of a delivery that is let in.

## Main results

* `aikido_exactly_once_iff`: every body is applied exactly once, in all runs of concurrent handlers,
  exactly if no two of the bodies have one key.
-/

namespace Vat

open Transition

/-- `float(s)`, of a text that is a number. -/
class FloatText where
  float? : Str → Option FloatSize

/-- Texts of decimal digits. -/
@[reducible] def digitsOnly : FloatText where
  float? s :=
    if s ≠ [] ∧ s.all Char.isDigit then
      some (.finite (s.foldl (fun n c => 10 * n + (c.toNat - '0'.toNat)) 0 : ℕ) true)
    else none

/-! ### The replay check -/

section Replay

variable [FloatText]

/-- `int(x)` of a float. -/
def FloatSize.toInt : FloatSize → Except PyError ℤ
  | .nan => .error .valueError
  | .infinite => .error .overflowError
  | .finite whole _ => .ok whole

/-- The seconds of a timestamp: a number, or a text that is one. -/
def Loaded.toSeconds : Loaded → Except PyError ℤ
  | .bool b => .ok (if b then 1 else 0)
  | .int i => .ok i
  | .float x => x.size.toInt
  | .text s =>
    match FloatText.float? s with
    | none => .error .valueError
    | some size => size.toInt
  | .null | .list _ | .dict _ => .error .typeError

/-- The first value that is not `None` under some names. -/
def firstPresent (payload : Loaded) (keys : List String) : Loaded :=
  ((keys.map payload.member).find? fun v => match v with | .null => false | _ => true).getD .null

/-- The headers of a request. -/
abbrev Headers := List (Str × Str)

/-- The first header that is not empty, of those with some names. -/
def headerTimestamp (headers : Headers) (names : List String) : Option Str :=
  (names.map fun n => headers.lookup (str n)).find? Str.truthy |>.join

/-- The timestamp of a request: in a header, or else in the body. -/
def requestTimestamp (headers : Headers) (payload : Loaded) : Except PyError Loaded :=
  match headerTimestamp headers ["X-Webhook-Timestamp", "X-Aikido-Webhook-Timestamp"] with
  | some s => .ok (.text s)
  | none =>
    if payload.truthy then do
      check payload.isDict .attributeError
      return firstPresent payload ["dispatched_at", "created_at", "timestamp", "webhookTimestamp"]
    else .ok .null

/-- `verify_replay_timestamp`. -/
def verifyReplayTimestamp (headers : Headers) (payload : Loaded) (maxAgeSec : ℕ) (now : ℤ) :
    Except PyError Bool := do
  let ts ← requestTimestamp headers payload
  if ts.truthy then
    match ts.toSeconds with
    | .ok ts =>
      let seconds := if 1000000000000 < ts then ts / 1000 else ts
      return decide ((now - seconds).natAbs ≤ maxAgeSec)
    | .error .valueError | .error .typeError => return false
    | .error e => .error e
  else return true

end Replay

/-! ### The key -/

/-- The issue in a body: under its own name, in its payload, or else the body itself. -/
def webhookIssue (data : Loaded) : Except PyError Loaded := do
  let issue ← data.get "issue"
  if issue.truthy then return issue
  else do
    let payload ← data.getOr "payload" (.dict [])
    let issue ← payload.get "issue"
    return issue.or data

section Keys

variable [ReprText] [Sha256]

/-- The idempotency key of a body. -/
def idempotencyKey (data : Loaded) : Except PyError Str := do
  check data.isDict .attributeError
  let event := ((data.member "event").or (data.member "event_type")).or (.ofString "unknown")
  let issue ← webhookIssue data
  let issueId := ((issue.member "id").or (issue.member "issue_id")).or (.text [])
  let ts := (((data.member "dispatched_at").or (data.member "created_at")).or
    (data.member "timestamp")).or (.text [])
  return computeIdempotencyKey (str "aikido") event.pyStr [issueId.pyStr, ts.pyStr]

variable [FloatText]

/-- A delivery whose signature was checked: the headers, what `json.loads` makes of the body, and
the second in which it comes. -/
structure AikidoDelivery where
  headers : Headers
  data : Loaded
  now : ℤ

/-- The key of a delivery, when it is let in and the key can be read. -/
def AikidoDelivery.key (d : AikidoDelivery) : Option Str :=
  match verifyReplayTimestamp d.headers d.data 30 d.now with
  | .ok true => (idempotencyKey d.data).toOption
  | _ => none

/-- The key depends on the body alone. -/
theorem AikidoDelivery.key_eq_some {d : AikidoDelivery} {k : Str} (h : d.key = some k) :
    idempotencyKey d.data = .ok k := by
  unfold AikidoDelivery.key at h
  split at h
  · cases hkey : idempotencyKey d.data with
    | ok k' =>
      rw [hkey] at h
      exact congrArg _ (Option.some.inj h)
    | error e =>
      rw [hkey] at h
      cases h
  · cases h

theorem AikidoDelivery.key_congr (d d' : AikidoDelivery) (k k' : Str) (hdata : d.data = d'.data)
    (hk : d.key = some k) (hk' : d'.key = some k') : k = k' := by
  have heq := key_eq_some hk
  rw [hdata, key_eq_some hk'] at heq
  exact (Except.ok.inj heq).symm

/-- Every body is applied exactly once, whatever handlers run side by side and fail, exactly if no
two bodies that are let in have one key. -/
theorem aikido_exactly_once_iff (deliveries : Set AikidoDelivery) :
    (∀ s, Intake.Reachable AikidoDelivery.key deliveries s →
      Intake.ExactlyOnce AikidoDelivery.key deliveries AikidoDelivery.data s) ↔
      ∀ d ∈ deliveries, ∀ d' ∈ deliveries, ∀ k, d.key = some k → d'.key = some k →
        d.data = d'.data :=
  Intake.exactlyOnce_iff AikidoDelivery.data AikidoDelivery.key_congr

end Keys

/-- An update of an issue, as a body without a timestamp says it. -/
def issueUpdated (severity : String) : AikidoDelivery where
  headers := []
  data := .dict [(str "event", .ofString "issue.updated"),
    (str "issue", .dict [(str "id", .ofString "1"), (str "severity", .ofString severity)])]
  now := 0

section

attribute [local instance] noRepr unaryDigest digitsOnly

theorem key_issueUpdated (severity : String) : (issueUpdated severity).key =
    some (computeIdempotencyKey (str "aikido") (str "issue.updated") [str "1", []]) := rfl

/-- The second update of an issue is taken for a duplicate of the first. -/
theorem not_aikido_exactly_once : ¬ ∀ (deliveries : Set AikidoDelivery) (s : Intake _ _),
    Intake.Reachable AikidoDelivery.key deliveries s →
      Intake.ExactlyOnce AikidoDelivery.key deliveries AikidoDelivery.data s := by
  intro h
  have hdata := (Intake.exactlyOnce_iff AikidoDelivery.data AikidoDelivery.key_congr).mp
    (h {issueUpdated "low", issueUpdated "high"}) _ (Or.inl rfl) _ (Or.inr rfl) _
    (key_issueUpdated "low") (key_issueUpdated "high")
  have hseverity := congrArg (fun v : Loaded => ((v.member "issue").member "severity").textOf) hdata
  exact absurd hseverity (by decide)

end

end Vat
