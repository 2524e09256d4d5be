import Vat.Inbound.AtMostOnce
import Vat.Transition.Run

/-!
# VAT's own comments come back

When VAT has applied a block, it posts the block in its canonical format as a comment on the issue.
That comment is a block again, with an id of its own, and no handler looks at who wrote what comes
in. The counts of canonical comments and of applied blocks stay below the number of human edits in a
run in which each delivery that VAT answers is of a human edit that it has not answered before
(`canonical_comments_bounded`).

Source: `backend/app/services/linear_parsed_service.py`, lines 86–108;
`backend/app/api/webhooks/linear.py`, lines 112–149 and 209–256;
`backend/app/services/linear_poll_service.py`, lines 105–205;
`backend/app/adapters/linear.py`, lines 1804–1814; `backend/app/schemas/vat.py`, lines 299–303.

## Main definitions

* `formatCanonicalBlock`, `canonicalComment`: what VAT posts.
* `Delivery.answered`: the block that VAT applies, and confirms, when a delivery comes in.
* `Exchange`, `Exchange.Op`, `Exchange.step`: the tracker and VAT.

## Main results

* `Exchange.answers_humans_iff`: each answer is to a different human edit.
* `canonical_comments_bounded`.
-/

namespace Vat

open Transition

/-! ### The canonical comment -/

section Canonical

variable [Unicode]

/-- `LinearAdapter.format_canonical_block`. -/
def formatCanonicalBlock (b : VatBlock) : Str :=
  str "[VAT] " ++ b.cveId ++ str "\nstatus: " ++ replaceChar ' ' '-' (Unicode.lower b.status) ++
    str "\njustification: " ++ b.justification ++
    if b.compensatingControls = [] then []
    else str "\ncompensating-controls: " ++ b.compensatingControls

/-- The comment that confirms a block. -/
def canonicalComment (b : VatBlock) : Str :=
  str "**VAT parsed your response.** Canonical format:\n\n" ++ formatCanonicalBlock b

end Canonical

/-! ### The tracker and VAT -/

/-- Who wrote an edit. -/
inductive Author
  | human | vat
deriving DecidableEq

/-- An edit in the tracker. -/
structure AuthoredEdit where
  number : ℕ
  author : Author
  edit : TrackerEdit

/-- The edits in the tracker, VAT's database, the edits that VAT has answered, and how many
canonical comments it has posted. -/
structure Exchange where
  tracker : List AuthoredEdit
  db : InboundDb AuthoredEdit
  answered : List AuthoredEdit
  posted : ℕ

/-- Somebody writes in the tracker: a human, or VAT a comment that is not canonical, such as the
injected template; or an edit comes in. `comment` is what the tracker makes of a canonical comment,
if the call that posts it succeeds. -/
inductive ExchangeOp
  | write (author : Author) (edit : TrackerEdit)
  | deliver (number : ℕ) (channel : Channel) (title description : Str) (commits : Bool)
      (comment : Option CommentEdit)

/-- An edit is made in the tracker. -/
def Exchange.write (s : Exchange) (author : Author) (edit : TrackerEdit) : Exchange :=
  { s with tracker := s.tracker ++ [⟨s.tracker.length, author, edit⟩] }

/-- The edits that humans have made. -/
def Exchange.humanEdits (s : Exchange) : ℕ := s.tracker.countP fun w => w.author = .human

section Exchanges

variable [Unicode]

/-- `post_canonical_if_enabled`, where it is enabled. -/
def Exchange.postCanonical (s : Exchange) (r : Report) (comment : Option CommentEdit) : Exchange :=
  let body := canonicalComment r.parsed
  match comment with
  | none => s
  | some c =>
    if r.issueId ≠ [] ∧ r.issueId.length ≤ 64 ∧ body.length ≤ 10000 then
      { s with posted := s.posted + 1 }.write .vat (.comment { c with body := body })
    else s

variable [UpperCase] [CharTables] [TextMatching] [Sha256]

/-- The report of a delivery whose block is applied to a finding: its key is new, there is a
finding, and the status is known. -/
def Delivery.applies {ε : Type} (content : ε → TrackerEdit) (s : InboundDb ε) (d : Delivery ε) :
    Option Report :=
  (d.report content).filter fun r => r.key ∉ s.keys ∧
    ((findLinked s.findings r).bind fun f => r.parsed.statusFor f.status).isSome

/-- The report of a delivery that VAT answers. A poll answers before it commits. -/
def Delivery.confirms {ε : Type} (content : ε → TrackerEdit) (s : InboundDb ε) (d : Delivery ε) :
    Option Report :=
  if d.channel = .poll ∨ d.commits then d.applies content s else none

/-- An edit comes in. -/
def Exchange.deliver (s : Exchange) (d : Delivery AuthoredEdit) (comment : Option CommentEdit) :
    Exchange :=
  let s' := { s with db := receive AuthoredEdit.edit s.db d }
  match d.confirms AuthoredEdit.edit s.db with
  | none => s'
  | some r => { s' with answered := s.answered ++ [d.edit] }.postCanonical r comment

def Exchange.step (s : Exchange) : ExchangeOp → Exchange
  | .write author edit => s.write author edit
  | .deliver number channel title description commits comment =>
    match s.tracker[number]? with
    | none => s
    | some w => s.deliver ⟨w, channel, title, description, commits⟩ comment

/-- Nothing is in the tracker. -/
def Exchange.start (findings : List LinkedFinding) (events : List WebhookEvent) : Exchange :=
  ⟨[], ⟨findings, events, []⟩, [], 0⟩

/-- The canonical comments and the updates of findings are no more than the edits of humans. -/
def Exchange.Bounded (s : Exchange) : Prop :=
  s.posted ≤ s.humanEdits ∧ s.db.applied.length ≤ s.humanEdits

/-- A delivery that VAT answers is of an edit of a human that it has not answered before. -/
def Exchange.AnswersNewHuman (s : Exchange) : ExchangeOp → Prop
  | .write _ _ => True
  | .deliver number channel title description commits _ => ∀ w, s.tracker[number]? = some w →
      (Delivery.confirms AuthoredEdit.edit s.db ⟨w, channel, title, description, commits⟩).isSome →
      w.author = .human ∧ w ∉ s.answered

/-! ### What a delivery changes -/

theorem applies_eq_some_iff {ε : Type} {content : ε → TrackerEdit} {s : InboundDb ε}
    {d : Delivery ε} {r : Report} :
    d.applies content s = some r ↔ d.report content = some r ∧ r.key ∉ s.keys ∧
      ∃ f status, findLinked s.findings r = some f ∧ r.parsed.statusFor f.status = some status := by
  simp only [Delivery.applies, Option.filter_eq_some_iff, decide_eq_true_eq,
    Option.isSome_iff_exists, Option.bind_eq_some_iff]
  constructor
  · rintro ⟨hr, hkey, status, f, hf, hstatus⟩
    exact ⟨hr, hkey, f, status, hf, hstatus⟩
  · rintro ⟨hr, hkey, f, status, hf, hstatus⟩
    exact ⟨hr, hkey, status, f, hf, hstatus⟩

/-- A delivery applies at most one block, and one only that VAT answers. -/
theorem length_applied_receive {ε : Type} (content : ε → TrackerEdit) (s : InboundDb ε)
    (d : Delivery ε) :
    (receive content s d).applied.length ≤
      s.applied.length + if (d.confirms content s).isSome then 1 else 0 := by
  cases hout : d.outcome content s.findings with
  | none =>
    rw [receive_eq_self (.inl hout)]
    exact Nat.le_add_right ..
  | some target =>
    by_cases hkey : d.key content ∈ s.keys
    · rw [receive_eq_self (.inr hkey)]
      exact Nat.le_add_right ..
    obtain ⟨g, -, heq⟩ := receive_eq hout hkey
    rw [heq]
    cases target with
    | none =>
      simp only [Option.map_none, Option.toList_none, List.append_nil]
      exact Nat.le_add_right ..
    | some id =>
      have hconfirms : (d.confirms content s).isSome := by
        cases hcommits : d.commits with
        | false => simp [Delivery.outcome, hcommits] at hout
        | true =>
          rw [Delivery.outcome, hcommits, if_pos rfl] at hout
          obtain ⟨r, hr, hout⟩ := Option.bind_eq_some_iff.mp hout
          rw [← d.report_key hr] at hkey
          cases hf : findLinked s.findings r with
          | none => simp [hf] at hout
          | some f =>
            simp only [hf, Option.some.injEq, Option.map_eq_some_iff] at hout
            obtain ⟨status, hstatus, -⟩ := hout
            rw [Delivery.confirms, hcommits, if_pos (.inr rfl),
              applies_eq_some_iff.mpr ⟨hr, hkey, f, status, hf, hstatus⟩]
            rfl
      rw [if_pos hconfirms]
      exact Nat.le_of_eq List.length_append

namespace Exchange

omit [UpperCase] [CharTables] [TextMatching] [Sha256] in
/-- The canonical comment is one edit of VAT's own more, if any. -/
theorem postCanonical_cases (s : Exchange) (r : Report) (comment : Option CommentEdit) :
    s.postCanonical r comment = s ∨
      ∃ edit, s.postCanonical r comment = { s with posted := s.posted + 1 }.write .vat edit := by
  cases comment with
  | none => exact .inl rfl
  | some c =>
    rw [postCanonical]
    split
    · exact .inr ⟨_, rfl⟩
    · exact .inl rfl

omit [UpperCase] [CharTables] [TextMatching] [Sha256] in
theorem answered_postCanonical (s : Exchange) (r : Report) (comment : Option CommentEdit) :
    (s.postCanonical r comment).answered = s.answered := by
  obtain heq | ⟨edit, heq⟩ := s.postCanonical_cases r comment
  · rw [heq]
  · rw [heq]
    rfl

/-- What is answered is in the tracker, whose edits are numbered, and there are no more canonical
comments and updates than answers. -/
structure Accounted (s : Exchange) : Prop where
  numbered : ∀ (i : ℕ) w, s.tracker[i]? = some w → w.number = i
  answered_mem : ∀ w ∈ s.answered, w ∈ s.tracker
  posted_le : s.posted ≤ s.answered.length
  applied_le : s.db.applied.length ≤ s.answered.length

namespace Accounted

variable {s : Exchange}

omit [Unicode] [UpperCase] [CharTables] [TextMatching] [Sha256] in
theorem write (h : Accounted s) (author : Author) (edit : TrackerEdit) :
    Accounted (s.write author edit) where
  numbered i w hw := by
    rw [Exchange.write, List.getElem?_append] at hw
    split at hw
    · exact h.numbered i w hw
    · next hi =>
      rw [List.getElem?_singleton] at hw
      split at hw
      · obtain rfl := Option.some.inj hw
        change s.tracker.length = i
        omega
      · simp at hw
  answered_mem w hw := List.mem_append_left _ (h.answered_mem w hw)
  posted_le := h.posted_le
  applied_le := h.applied_le

omit [UpperCase] [CharTables] [TextMatching] [Sha256] in
theorem postCanonical (h : Accounted s) (hposted : s.posted + 1 ≤ s.answered.length) (r : Report)
    (comment : Option CommentEdit) : Accounted (s.postCanonical r comment) := by
  obtain heq | ⟨edit, heq⟩ := s.postCanonical_cases r comment
  · rw [heq]
    exact h
  · rw [heq]
    exact write (s := { s with posted := s.posted + 1 })
      ⟨h.numbered, h.answered_mem, hposted, h.applied_le⟩ .vat edit

theorem deliver (h : Accounted s) {d : Delivery AuthoredEdit} (hd : d.edit ∈ s.tracker)
    (comment : Option CommentEdit) : Accounted (s.deliver d comment) := by
  have happlied := length_applied_receive AuthoredEdit.edit s.db d
  rw [Exchange.deliver]
  cases hconfirms : d.confirms AuthoredEdit.edit s.db with
  | none =>
    rw [hconfirms] at happlied
    exact ⟨h.numbered, h.answered_mem, h.posted_le, happlied.trans h.applied_le⟩
  | some r =>
    rw [hconfirms] at happlied
    have hlength : (s.answered ++ [d.edit]).length = s.answered.length + 1 := List.length_append
    have hmem : ∀ w ∈ s.answered ++ [d.edit], w ∈ s.tracker := fun w hw =>
      (List.mem_append.mp hw).elim (h.answered_mem w) fun hw => List.mem_singleton.mp hw ▸ hd
    have happlied' : (receive AuthoredEdit.edit s.db d).applied.length ≤
        (s.answered ++ [d.edit]).length := by
      rw [hlength]
      exact happlied.trans (Nat.succ_le_succ h.applied_le)
    have hposted : s.posted + 1 ≤ (s.answered ++ [d.edit]).length := by
      rw [hlength]
      exact Nat.succ_le_succ h.posted_le
    exact postCanonical (s := { s with
      db := receive AuthoredEdit.edit s.db d
      answered := s.answered ++ [d.edit] })
      ⟨h.numbered, hmem, Nat.le_of_succ_le hposted, happlied'⟩ hposted r comment

theorem step (h : Accounted s) (op : ExchangeOp) : Accounted (s.step op) := by
  cases op with
  | write author edit => exact h.write author edit
  | deliver number channel title description commits comment =>
    rw [Exchange.step]
    split
    · exact h
    · next w hw => exact h.deliver (List.mem_of_getElem? hw) comment

end Accounted

/-- Each answer is to a different edit, of a human. -/
def AnswersHumans (s : Exchange) : Prop :=
  s.answered.Nodup ∧ ∀ w ∈ s.answered, w.author = .human

omit [Unicode] [UpperCase] [CharTables] [TextMatching] [Sha256] in
/-- Then there are no more of them than edits of humans. -/
theorem Accounted.bounded {s : Exchange} (h : Accounted s) (hanswers : AnswersHumans s) :
    Bounded s := by
  have hsub : s.answered ⊆ s.tracker.filter fun w => w.author = .human := fun w hw =>
    List.mem_filter.mpr ⟨h.answered_mem w hw, decide_eq_true (hanswers.2 w hw)⟩
  have hle : s.answered.length ≤ s.humanEdits := by
    rw [humanEdits, List.countP_eq_length_filter]
    exact (List.subperm_of_subset hanswers.1 hsub).length_le
  exact ⟨h.posted_le.trans hle, h.applied_le.trans hle⟩

theorem answered_deliver (s : Exchange) (d : Delivery AuthoredEdit) (comment : Option CommentEdit) :
    (s.deliver d comment).answered =
      if (d.confirms AuthoredEdit.edit s.db).isSome then s.answered ++ [d.edit]
      else s.answered := by
  rw [Exchange.deliver]
  cases d.confirms AuthoredEdit.edit s.db with
  | none => rfl
  | some r => exact answered_postCanonical _ r comment

omit [Unicode] [UpperCase] [CharTables] [TextMatching] [Sha256] in
theorem answersHumans_append_iff {answered : List AuthoredEdit} {w : AuthoredEdit}
    (h : answered.Nodup ∧ ∀ w ∈ answered, w.author = .human) :
    ((answered ++ [w]).Nodup ∧ ∀ w' ∈ answered ++ [w], w'.author = .human) ↔
      w.author = .human ∧ w ∉ answered := by
  constructor
  · rintro ⟨hnodup, hhuman⟩
    refine ⟨hhuman w (List.mem_append_right _ List.mem_cons_self), fun hw => ?_⟩
    exact (List.nodup_append.mp hnodup).2.2 w hw w List.mem_cons_self rfl
  · rintro ⟨hw, hnew⟩
    refine ⟨List.nodup_append.mpr ⟨h.1, List.nodup_singleton w, fun a ha b hb hab => hnew ?_⟩,
      fun w' hw' => ?_⟩
    · rw [← List.mem_singleton.mp hb, ← hab]
      exact ha
    · rcases List.mem_append.mp hw' with hw' | hw'
      · exact h.2 w' hw'
      · rw [List.mem_singleton.mp hw']
        exact hw

theorem answersHumans_step_iff {s : Exchange} (h : AnswersHumans s) (op : ExchangeOp) :
    AnswersHumans (s.step op) ↔ AnswersNewHuman s op := by
  cases op with
  | write author edit => exact iff_of_true h trivial
  | deliver number channel title description commits comment =>
    rw [step, AnswersNewHuman]
    cases hw : s.tracker[number]? with
    | none => exact iff_of_true h fun w hw => by simp at hw
    | some w =>
      simp only [Option.some.injEq, forall_eq', AnswersHumans, answered_deliver]
      split
      · next hconfirms => rw [answersHumans_append_iff h, imp_iff_right hconfirms]
      · next hconfirms => exact iff_of_true h fun hc => absurd hc hconfirms

/-- In every state of a run each answer is to a different edit of a human exactly if each delivery
that VAT answers is of such an edit. -/
theorem answers_humans_iff (findings : List LinkedFinding) (events : List WebhookEvent)
    (ops : List ExchangeOp) :
    (∀ pre, pre <+: ops → AnswersHumans (run step (start findings events) pre)) ↔
      Along step AnswersNewHuman (start findings events) ops :=
  have hstart : AnswersHumans (start findings events) :=
    ⟨List.nodup_nil, fun _ hw => absurd hw List.not_mem_nil⟩
  forall_prefix_iff_along (S := AnswersHumans) (fun _ op h => answersHumans_step_iff h op)
    hstart ops

theorem accounted_run (findings : List LinkedFinding) (events : List WebhookEvent)
    (ops : List ExchangeOp) : Accounted (run step (start findings events) ops) :=
  have hstart : Accounted (start findings events) :=
    ⟨fun i w hw => by simp [start] at hw, fun _ hw => absurd hw List.not_mem_nil, Nat.le_refl 0,
      Nat.le_refl 0⟩
  @run_induction _ _ step Accounted (fun _ op h => h.step op) _ hstart ops

end Exchange

/-- In a run in which each delivery that VAT answers is of an edit of a human that it has not
answered before, the canonical comments and the updates are never more than the edits of humans. -/
theorem canonical_comments_bounded (findings : List LinkedFinding) (events : List WebhookEvent)
    (ops : List ExchangeOp)
    (h : Along Exchange.step Exchange.AnswersNewHuman (Exchange.start findings events) ops) :
    ∀ pre, pre <+: ops →
      Exchange.Bounded (run Exchange.step (Exchange.start findings events) pre) := fun pre hpre =>
  (Exchange.accounted_run findings events pre).bounded
    ((Exchange.answers_humans_iff findings events ops).mpr h pre hpre)

end Exchanges

/-! ### One comment -/

section OneComment

attribute [local instance] asciiUnicode asciiUpperCase asciiCharTables noTextMatching unaryDigest

/-- What the tracker makes of a canonical comment. -/
def confirmation (id : Str) : CommentEdit where
  id := id
  createdAt := str "2026-01-02"
  body := []
  action := str "create"
  webhookIssue := ⟨str "ENG-1", str "u1"⟩
  webhookIssueId := str "u1"
  issue := ⟨str "ENG-1", str "u1"⟩

/-- A comment of a human and its webhook. -/
def answeredOnce : List ExchangeOp :=
  [.write .human (.comment mitigatedComment),
    .deliver 0 .webhook [] [] true (some (confirmation (str "c2")))]

theorem canonical_comments_bounded_answeredOnce :
    Exchange.Bounded (run Exchange.step (Exchange.start [engFinding] []) answeredOnce) := by
  refine canonical_comments_bounded [engFinding] [] answeredOnce
    ⟨trivial, fun w hw _ => ?_, trivial⟩ answeredOnce (List.prefix_refl answeredOnce)
  obtain rfl := Option.some.inj hw
  exact ⟨rfl, List.not_mem_nil⟩

/-- The webhook of the canonical comment is answered by another one. -/
theorem not_canonical_comments_bounded :
    ¬ ∀ (findings : List LinkedFinding) (events : List WebhookEvent) (ops : List ExchangeOp),
      Exchange.Bounded (run Exchange.step (Exchange.start findings events) ops) := by
  intro h
  have hposted := (h [engFinding] [] (answeredOnce ++
    [.deliver 1 .webhook [] [] true (some (confirmation (str "c3")))])).1
  revert hposted
  decide +kernel

end OneComment

end Vat
