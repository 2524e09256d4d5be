import Vat.Python.Pattern
import Vat.Regular.Backtracking

/-!
# Reading a reviewer decision out of a text

A reviewer answers a tracker issue with a `[VAT]` block: the identifier of the vulnerability, a
status, a justification and, if there are any, compensating controls. The parser tries six grammars
from strict to tolerant and takes the first that yields a status it knows.

The typo matcher and the tokenizer of the last two grammars are third-party packages; they are the
fields of `TextMatching`.

Source: `backend/app/adapters/linear.py`, lines 38, 149–500, 1418–1472 and 1764–1769.

## Main definitions

* `VatBlock`: what a block says.
* `normalizeStatus`, `extractStatus`: the status a text stands for.
* `vatBlockRe`, `vatBlockRelaxedRe`, `vatCompactRe`, `vatFlexibleRe`, `contextualRe`: the grammars.
* `parseVatBlock`, `parseVatBlockFromText`.

## Main results

* `parseVatBlock_status_ne_nil`: every block that is read has a status.
-/

namespace Vat

/-- What a `[VAT]` block says. -/
structure VatBlock where
  cveId : Str
  status : Str
  justification : Str
  compensatingControls : Str
deriving DecidableEq, Repr

/-- Third-party text matching. -/
class TextMatching where
  /-- `rapidfuzz.process.extractOne(text, choices, scorer=fuzz.ratio, score_cutoff=70)`. -/
  extractOne : Str → List Str → Option Str
  extractOne_mem : ∀ s choices c, extractOne s choices = some c → c ∈ choices
  /-- The spaCy pipeline, if its model is installed: the key tokens that the matcher finds in a line
  with the text after each. -/
  keyValues : Option (Str → List (Str × Str))

/-- No typo is recognised and no language model is installed. -/
@[reducible] def noTextMatching : TextMatching where
  extractOne _ _ := none
  extractOne_mem _ _ _ h := nomatch h
  keyValues := none

/-! ### Texts in parts -/

/-- `re.split("[...]+", text)`: the parts between the runs of a class. -/
def splitRuns (p : Char → Bool) : Str → List Str
  | [] => [[]]
  | c :: s =>
    if p c then
      match s with
      | [] => [[], []]
      | d :: _ => if p d then splitRuns p s else [] :: splitRuns p s
    else
      match splitRuns p s with
      | [] => [[c]]
      | x :: xs => (c :: x) :: xs

/-- `s.replace(a, b)` for single characters. -/
def replaceChar (a b : Char) (s : Str) : Str := s.map fun c => if c = a then b else c

/-! ### Statuses -/

section Status

variable [Unicode] [TextMatching]

/-- `_STATUS_MAP`. -/
def statusMap : List (Str × Str) :=
  [(str "false-positive", str "False Positive"), (str "false positive", str "False Positive"),
    (str "falsepositive", str "False Positive"), (str "fp", str "False Positive"),
    (str "not-applicable", str "Not Applicable"), (str "not applicable", str "Not Applicable"),
    (str "notapplicable", str "Not Applicable"), (str "na", str "Not Applicable"),
    (str "n/a", str "Not Applicable"), (str "risk-accepted", str "Risk Accepted"),
    (str "risk accepted", str "Risk Accepted"), (str "riskaccepted", str "Risk Accepted"),
    (str "ra", str "Risk Accepted"), (str "mitigated", str "Mitigated"),
    (str "duplicate", str "Duplicate"), (str "dup", str "Duplicate")]

/-- `_STATUS_CANONICAL`. -/
def statusCanonical : List Str :=
  [str "False Positive", str "Not Applicable", str "Risk Accepted", str "Mitigated",
    str "Duplicate"]

/-- `_normalize_status`. -/
def normalizeStatus (raw : Str) : Option Str :=
  if Str.strip raw = [] then none
  else
    let key := replaceChar '_' '-' (replaceChar ' ' '-' (Unicode.lower (Str.strip raw)))
    let squeezed := key.filter (· != '-')
    (statusMap.lookup key).or <|
      ((statusMap.find? fun kv => kv.1.filter (· != '-') == squeezed).map Prod.snd).or <|
      TextMatching.extractOne (Str.strip raw) statusCanonical

/-- A character between two statuses. -/
def separatesStatuses (c : Char) : Bool := Str.isSpace c || c == '|' || c == ',' || c == '/'

/-- `_extract_status`: the first part that is a status, else the whole text as one. -/
def extractStatus (raw : Str) : Option Str :=
  let raw := Str.strip raw
  ((splitRuns separatesStatuses raw).findSome? normalizeStatus).or (normalizeStatus raw)

end Status

/-! ### The grammars -/

/-- The named groups of the grammars. -/
inductive VatGroup
  | cveId
  | status
  | justification
  | compensating
deriving DecidableEq, Repr

/-- An expression of a grammar. -/
abbrev VatRegex := Regex Char VatGroup

namespace VatRegex

variable [Unicode]

/-- A literal text, given in lower case, without regard to case. -/
def lit (s : String) : VatRegex := .literal Pattern.foldsTo (str s)

/-- `\s*`. -/
def spaces : VatRegex := .many true Str.isSpace

/-- `\n`. -/
def newline : VatRegex := .one (· == '\n')

/-- `\s*:\s*`. -/
def colon : VatRegex := .all [spaces, .one (· == ':'), spaces]

/-- `\[VAT\]\s*(?P<cve_id>\S+)`. -/
def vatHead : VatRegex :=
  .all [lit "[vat]", spaces, .group .cveId (.plus true fun c => !Str.isSpace c)]

/-- `.*?`, a dot that matches every character. -/
def anything : VatRegex := .many false fun _ => true

/-- `(?=a|b|...)`, after `\n` each, or at the end of the text. -/
def endsBefore (ends : List VatRegex) : VatRegex :=
  .ahead (ends.foldr (fun e r => .alt (.seq newline e) r) .atEnd)

/-- `[Cc]ompensating[- ]?[Cc]ontrols?\s*:\s*(?P<compensating>.*?)`, after a line end. -/
def looseControls : VatRegex :=
  .all [newline, lit "compensating", .opt (.one fun c => c == '-' || c == ' '), lit "control",
    .opt (lit "s"), colon, .group .compensating anything]

/-- `compensating-controls:\s*(?P<compensating>.*?)`, after a line end. -/
def strictControls : VatRegex :=
  .all [newline, lit "compensating-controls:", spaces, .group .compensating anything]

/-- The text of a `[VAT]` block with the statuses that `status` reads. -/
def block (status : VatRegex) : VatRegex :=
  .all [lit "[vat]", spaces, .group .cveId (.plus true fun c => !Str.isSpace c), spaces, newline,
    lit "status:", spaces, .group .status status, spaces, newline,
    lit "justification:", spaces, .group .justification anything, .opt strictControls,
    endsBefore [newline, lit "["]]

/-- `_VAT_BLOCK_RE`. -/
def vatBlockRe : VatRegex :=
  block (.alt (lit "false-positive") (.alt (lit "not-applicable") (.alt (lit "risk-accepted")
    (.alt (lit "mitigated") (lit "duplicate")))))

/-- `_VAT_BLOCK_RELAXED_RE`. -/
def vatBlockRelaxedRe : VatRegex := block (.plus false (· != '\n'))

/-- `_VAT_FLEXIBLE_RE`. -/
def vatFlexibleRe : VatRegex :=
  .all [.opt (.all [vatHead, spaces, newline, spaces]),
    lit "status", colon, .group .status (.plus false (· != '\n')), spaces, newline,
    lit "justification", colon, .group .justification anything, .opt looseControls,
    endsBefore [newline, lit "[vat]", .all [lit "status", spaces, .one (· == ':')]]]

/-- `_VAT_COMPACT_RE`. -/
def vatCompactRe : VatRegex :=
  .all [vatHead, .plus true Str.isSpace, lit "status", colon,
    .group .status (.plus false fun c => c != '\n' && c != '|'),
    .opt (.all [spaces, .one (· == '|'), spaces]), spaces, lit "justification", colon,
    .group .justification (.plus true (· != '\n'))]

/-- The expression of the grammar that takes the identifier from the issue. -/
def contextualRe : VatRegex :=
  .all [lit "status", colon, .group .status (.plus true (· != '\n')), spaces, newline, spaces,
    lit "justification", colon, .group .justification anything, .opt looseControls,
    endsBefore [newline]]

omit [Unicode] in
/-- Where a block starts: `\[VAT\]\s*\S+`, with regard to case. -/
def blockStart : VatRegex :=
  .all [.literal (· == ·) (str "[VAT]"), spaces, .plus true fun c => !Str.isSpace c]

/-- `_CVE_PATTERN`. -/
def cvePattern [CharTables] : VatRegex :=
  let digit : VatRegex := .one CharTables.isDecimal
  .all [lit "cve-", digit, digit, digit, digit, .one (· == '-'), digit, digit, digit,
    .plus true CharTables.isDecimal]

/-- `^key\s*[:=\-]\s*(.+)$` on a line; the value is a group. -/
def keyValue (key : Str) : VatRegex :=
  .all [.literal Pattern.foldsTo key, spaces, .one fun c => c == ':' || c == '=' || c == '-',
    spaces,     .group .justification (.plus true (· != '\n')), .atEnd]

end VatRegex

open VatRegex

/-- `m.group(i) or ""`. -/
def groupText (g : Regex.Groups Char VatGroup) (i : VatGroup) : Str := Str.orEmpty (g i)

/-- `_make_result`. -/
def makeResult (cveId status justification compensating : Str) : VatBlock :=
  ⟨Str.strip cveId, status, Str.strip justification, Str.strip compensating⟩

/-- The result of a match whose status is known. -/
def resultOf (g : Regex.Groups Char VatGroup) (cveId status : Str) : VatBlock :=
  makeResult cveId status (groupText g .justification) (groupText g .compensating)

section Parser

variable [Unicode] [UpperCase] [CharTables] [TextMatching]

/-! ### Blocks -/

/-- The texts from one block start to the next. -/
def blockChunks : List Str → List Str
  | [] => []
  | [s] => [s]
  | s :: t :: starts => Regex.consumed s t :: blockChunks (t :: starts)

/-- What the first grammar reads in the text of one block. -/
def parseChunk (chunk : Str) : Option VatBlock :=
  match vatBlockRe.search chunk with
  | some g =>
    let status := groupText g .status
    some (resultOf g (groupText g .cveId) ((statusMap.lookup (Unicode.lower status)).getD status))
  | none => do
    let g ← vatBlockRelaxedRe.search chunk
    let status ← extractStatus (groupText g .status)
    pure (resultOf g (groupText g .cveId) status)

/-- The standard grammar. -/
def parseStandard (text : Str) : Option VatBlock :=
  (blockChunks ((blockStart.finditer text).map Prod.snd)).findSome? parseChunk

/-- The grammar of a block on one line. -/
def parseCompact (text : Str) : Option VatBlock := do
  let g ← vatCompactRe.search text
  let status ← extractStatus (groupText g .status)
  pure (makeResult (groupText g .cveId) status (groupText g .justification) [])

/-- The grammar of a block with spelling variations, with the block's identifier or the hint. -/
def parseFlexible (text : Str) (hint : Option Str) : Option VatBlock := do
  let g ← vatFlexibleRe.search text
  let status ← extractStatus (groupText g .status)
  let cveId := Str.strip (groupText g .cveId)
  if cveId ≠ [] then pure (resultOf g cveId status)
  else if Str.truthy hint then pure (resultOf g (Str.orEmpty hint) status)
  else none

/-- The grammar without an identifier. -/
def parseContextual (text : Str) (hint : Option Str) : Option VatBlock :=
  if Str.truthy hint then do
    let g ← contextualRe.search text
    let status ← extractStatus (groupText g .status)
    pure (resultOf g (Str.orEmpty hint) status)
  else none

/-! ### Keys and values -/

/-- `LinearAdapter.extract_cve_ids`. -/
def extractCveIds (text : Str) : List Str :=
  ((cvePattern.finditer text).map fun m => UpperCase.upper m.1).eraseDups

/-- The identifier of a text without a block: the hint, else the first one it mentions. -/
def cveOrFirst (text : Str) (hint : Option Str) : Option Str :=
  if Str.truthy hint then hint else (extractCveIds text).head?

/-- `_STATUS_KEYS`. -/
def statusKeys : List Str :=
  [str "status", str "verdict", str "disposition", str "result", str "outcome"]

/-- `_JUSTIFICATION_KEYS`. -/
def justificationKeys : List Str :=
  [str "justification", str "reason", str "rationale", str "because"]

/-- `_COMPENSATING_KEYS`. -/
def compensatingKeys : List Str :=
  [str "compensating-controls", str "compensating controls", str "compensating", str "controls"]

/-- The value of a key on a line. -/
def lineValue (line key : Str) : Option Str := do
  let m ← (keyValue key).matchStart (Str.strip line)
  let value := Str.strip (groupText m.1 .justification)
  if value ≠ [] then some value else none

/-- `_find_value`. -/
def findValue (content : Str) (keys : List Str) : Option Str :=
  (content.splitOn '\n').findSome? fun line => keys.findSome? (lineValue line)

/-- `_parse_vat_block_key_value`. -/
def parseKeyValue (text : Str) (hint : Option Str) : Option VatBlock := do
  let cveId ← cveOrFirst text hint
  let statusVal ← findValue text statusKeys
  let justificationVal ← findValue text justificationKeys
  let status ← normalizeStatus statusVal
  pure ⟨cveId, status, Str.strip justificationVal,
    Str.strip (Str.orEmpty (findValue text compensatingKeys))⟩

/-- The last value of one of the keys among the pairs of a key token and the text after it. -/
def lastValue (pairs : List (Str × Str)) (keys : List Str) : Option Str :=
  ((pairs.filter fun kv => Unicode.lower kv.1 ∈ keys ∧ Str.strip kv.2 ≠ []).getLast?).map
    fun kv => Str.strip kv.2

/-- `_parse_vat_block_spacy`. -/
def parseSpacy (text : Str) (hint : Option Str) : Option VatBlock := do
  let keyValues ← TextMatching.keyValues
  let cveId ← cveOrFirst text hint
  let lines := ((text.splitOn '\n').map Str.strip).filter (· != [])
  let pairs := lines.flatMap keyValues
  let statusVal ← lastValue pairs statusKeys
  let justificationVal ← lastValue pairs justificationKeys
  let status ← normalizeStatus statusVal
  pure ⟨cveId, status, Str.strip justificationVal,
    Str.strip (Str.orEmpty (lastValue pairs compensatingKeys))⟩

/-! ### The parser -/

/-- `_parse_vat_block`. -/
def parseVatBlock (text : Str) (hint : Option Str) : Option VatBlock :=
  if text = [] then none
  else
    (parseStandard text).or <| (parseCompact text).or <| (parseFlexible text hint).or <|
      (parseContextual text hint).or <| (parseKeyValue text hint).or <| parseSpacy text hint

/-- `LinearAdapter.parse_vat_block_from_text`. -/
def parseVatBlockFromText (text : Str) (hint : Option Str) : Option VatBlock :=
  parseVatBlock text (cveOrFirst text hint)

end Parser

/-! ### Every block has a status -/

section Statuses

open Regex

variable [Unicode]

/-- A text that an expression matches is not empty. -/
def Consumes (r : VatRegex) : Prop :=
  ∀ g g' s t, (g', t) ∈ run r g s → ∃ u, u ≠ [] ∧ s = u ++ t

theorem consumes_lit {w : String} (hw : str w ≠ []) : Consumes (lit w) := by
  intro g g' s t h
  obtain ⟨-, u, hu, rfl⟩ := mem_run_literal h
  refine ⟨u, ?_, rfl⟩
  rintro rfl
  exact hw (List.forall₂_nil_right_iff.mp hu)

omit [Unicode] in
theorem Consumes.alt {a b : VatRegex} (ha : Consumes a) (hb : Consumes b) :
    Consumes (.alt a b) := by
  intro g g' s t h
  rw [run_alt, List.mem_append] at h
  exact h.elim (ha g g' s t) (hb g g' s t)

/-- The status that a block is read with is not empty. -/
theorem status_ne_nil_of_mem_block {status : VatRegex} (hstatus : Consumes status)
    {g g' : Groups Char VatGroup} {s t : Str} (h : (g', t) ∈ run (block status) g s) :
    groupText g' .status ≠ [] := by
  obtain ⟨g₁, t₁, -, r₁⟩ := mem_run_all.mp h
  obtain ⟨g₂, t₂, -, r₂⟩ := mem_run_all.mp r₁
  obtain ⟨g₃, t₃, -, r₃⟩ := mem_run_all.mp r₂
  obtain ⟨g₄, t₄, -, r₄⟩ := mem_run_all.mp r₃
  obtain ⟨g₅, t₅, -, r₅⟩ := mem_run_all.mp r₄
  obtain ⟨g₆, t₆, -, r₆⟩ := mem_run_all.mp r₅
  obtain ⟨g₇, t₇, -, r₇⟩ := mem_run_all.mp r₆
  obtain ⟨g₈, t₈, h₈, r₈⟩ := mem_run_all.mp r₇
  obtain ⟨g₈', t₈', h₈', he⟩ := mem_run_group.mp h₈
  obtain ⟨u, hu, rfl⟩ := hstatus _ _ _ _ h₈'
  obtain ⟨rfl, rfl⟩ := Prod.mk.inj he
  have kept : g' .status = some u :=
    (groups_of_mem_run (by simp [names, lit, spaces, newline, anything, opt, strictControls,
      endsBefore]) r₈).trans (by simp)
  rw [groupText, kept]
  exact hu

omit [Unicode] in
theorem statusMap_ne_nil {key status : Str} (h : statusMap.lookup key = some status) :
    status ≠ [] := by
  have hmap : ∀ kv ∈ statusMap, kv.2 ≠ [] := by decide
  obtain ⟨l₁, l₂, heq, -⟩ := List.lookup_eq_some_iff.mp h
  exact hmap (key, status) (by simp [heq])

variable [TextMatching]

theorem normalizeStatus_ne_nil {raw status : Str} (h : normalizeStatus raw = some status) :
    status ≠ [] := by
  have hmap : ∀ kv ∈ statusMap, kv.2 ≠ [] := by decide
  have hcanonical : ∀ s ∈ statusCanonical, s ≠ [] := by decide
  rw [normalizeStatus] at h
  split at h
  · simp at h
  · simp only [Option.or_eq_some_iff] at h
    rcases h with h | ⟨-, h | ⟨-, h⟩⟩
    · exact statusMap_ne_nil h
    · obtain ⟨kv, hkv, rfl⟩ := Option.map_eq_some_iff.mp h
      exact hmap kv (List.mem_of_find?_eq_some hkv)
    · exact hcanonical status (TextMatching.extractOne_mem _ _ _ h)

theorem extractStatus_ne_nil {raw status : Str} (h : extractStatus raw = some status) :
    status ≠ [] := by
  rw [extractStatus, Option.or_eq_some_iff] at h
  rcases h with h | ⟨-, h⟩
  · obtain ⟨part, -, hpart⟩ := List.exists_of_findSome?_eq_some h
    exact normalizeStatus_ne_nil hpart
  · exact normalizeStatus_ne_nil h

theorem parseChunk_status_ne_nil {chunk : Str} {b : VatBlock} (h : parseChunk chunk = some b) :
    b.status ≠ [] := by
  rw [parseChunk] at h
  split at h
  · next g hg =>
    obtain rfl := Option.some.inj h
    obtain ⟨u, v, t, -, hm⟩ := exists_mem_of_search hg
    have hne : groupText g .status ≠ [] := status_ne_nil_of_mem_block
      ((consumes_lit (by decide)).alt <| (consumes_lit (by decide)).alt <|
        (consumes_lit (by decide)).alt <| (consumes_lit (by decide)).alt <|
          consumes_lit (by decide)) hm
    change (statusMap.lookup _).getD _ ≠ []
    cases hlookup : statusMap.lookup (Unicode.lower (groupText g .status)) with
    | none => exact hne
    | some status => exact statusMap_ne_nil hlookup
  · obtain ⟨g, -, h⟩ := Option.bind_eq_some_iff.mp h
    obtain ⟨status, hstatus, h⟩ := Option.bind_eq_some_iff.mp h
    obtain rfl := Option.some.inj h
    exact extractStatus_ne_nil hstatus

variable [UpperCase] [CharTables]

/-- Every block that is read has a status. -/
theorem parseVatBlock_status_ne_nil {text : Str} {hint : Option Str} {b : VatBlock}
    (h : parseVatBlock text hint = some b) : b.status ≠ [] := by
  rw [parseVatBlock] at h
  split at h
  · simp at h
  simp only [Option.or_eq_some_iff] at h
  rcases h with h | ⟨-, h | ⟨-, h | ⟨-, h | ⟨-, h | ⟨-, h⟩⟩⟩⟩⟩
  · obtain ⟨chunk, -, hchunk⟩ := List.exists_of_findSome?_eq_some h
    exact parseChunk_status_ne_nil hchunk
  · obtain ⟨g, -, h⟩ := Option.bind_eq_some_iff.mp h
    obtain ⟨status, hstatus, h⟩ := Option.bind_eq_some_iff.mp h
    obtain rfl := Option.some.inj h
    exact extractStatus_ne_nil hstatus
  · obtain ⟨g, -, h⟩ := Option.bind_eq_some_iff.mp h
    obtain ⟨status, hstatus, h⟩ := Option.bind_eq_some_iff.mp h
    have := extractStatus_ne_nil hstatus
    dsimp only at h
    split at h
    · obtain rfl := Option.some.inj h
      exact this
    · split at h
      · obtain rfl := Option.some.inj h
        exact this
      · simp at h
  · rw [parseContextual] at h
    split at h
    · obtain ⟨g, -, h⟩ := Option.bind_eq_some_iff.mp h
      obtain ⟨status, hstatus, h⟩ := Option.bind_eq_some_iff.mp h
      obtain rfl := Option.some.inj h
      exact extractStatus_ne_nil hstatus
    · simp at h
  · obtain ⟨cveId, -, h⟩ := Option.bind_eq_some_iff.mp h
    obtain ⟨statusVal, -, h⟩ := Option.bind_eq_some_iff.mp h
    obtain ⟨justificationVal, -, h⟩ := Option.bind_eq_some_iff.mp h
    obtain ⟨status, hstatus, h⟩ := Option.bind_eq_some_iff.mp h
    obtain rfl := Option.some.inj h
    exact normalizeStatus_ne_nil hstatus
  · obtain ⟨keyValues, -, h⟩ := Option.bind_eq_some_iff.mp h
    obtain ⟨cveId, -, h⟩ := Option.bind_eq_some_iff.mp h
    obtain ⟨statusVal, -, h⟩ := Option.bind_eq_some_iff.mp h
    obtain ⟨justificationVal, -, h⟩ := Option.bind_eq_some_iff.mp h
    obtain ⟨status, hstatus, h⟩ := Option.bind_eq_some_iff.mp h
    obtain rfl := Option.some.inj h
    exact normalizeStatus_ne_nil hstatus

end Statuses

end Vat
