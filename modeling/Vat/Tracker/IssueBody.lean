import Vat.Delimited.Fields
import Vat.Tracker.VatBlock

/-!
# The texts VAT writes into tracker issues

An issue that VAT opens describes the finding and ends with a template that the engineer is to fill
in: a `[VAT]` block whose status line lists the statuses to choose from and whose justification is a
placeholder. The same template is posted as a comment when a watched label is applied or when the
template was removed.

Source: `backend/app/adapters/linear.py`, lines 929–997 and 1771–1802.

## Main definitions

* `FormatPart`, `formatParts`: format strings.
* `requiredBlock`: the block that every template contains.
* `IssueFinding`, `buildIssueBody`, `injectedComment`.

## Main results

* `buildIssueBody_requiredBlock`, `injectedComment_requiredBlock`: where the block stands in them.
-/

namespace Vat

open Delimited

/-! ### Format strings -/

/-- A piece of a format string. -/
inductive FormatPart
  | text (s : Str)
  | field (name : Str)
deriving DecidableEq, Repr

/-- `template.format(**values)`, or nothing when a field is missing (`KeyError`). -/
def formatParts (template : List FormatPart) (values : List (Str × Str)) : Option Str :=
  (template.mapM fun
    | FormatPart.text s => some s
    | FormatPart.field name => values.lookup name).map List.flatten

/-- The status line of the template: the statuses to choose from. -/
def statusOptions : Str :=
  str "false-positive | not-applicable | risk-accepted | mitigated | duplicate"

/-- `LinearAdapter._REQUIRED_BLOCK`. -/
def requiredBlock : List FormatPart :=
  [.text (str "[VAT] "), .field (str "cve_id"),
    .text (str "\nstatus: " ++ statusOptions ++
      str "\njustification: <required>\ncompensating-controls: <optional>")]

/-- `_REQUIRED_BLOCK.format(cve_id=cve_id)`. -/
def requiredText (cveId : Str) : Str :=
  str "[VAT] " ++ cveId ++ str "\nstatus: " ++ statusOptions ++
    str "\njustification: <required>\ncompensating-controls: <optional>"

/-- A template filled in, with a parseable block appended if the template has none. -/
def fillTemplate (template : List FormatPart) (values : List (Str × Str)) (cveId : Str) : Str :=
  let formatted := (formatParts template values).getD (requiredText cveId)
  if ¬ formatted.contains (str "status:") ∨ ¬ formatted.contains (str "justification:") ∨
      ¬ formatted.contains (str "[VAT]") then
    formatted.rdropWhile Str.isSpace ++ str "\n\n" ++ requiredText cveId
  else formatted

/-! ### Issues -/

/-- The entries of the finding snapshot that the body shows. Where a key has two spellings, the
second one is the key in camel case. -/
structure IssueFinding where
  cveId : Option Str := none
  camelCveId : Option Str := none
  findingId : Option Str := none
  filePath : Option Str := none
  camelFilePath : Option Str := none
  line : Option ℕ := none
  sourceFileUrl : Option Str := none
  camelSourceFileUrl : Option Str := none
  sourceIssueUrl : Option Str := none
  camelSourceIssueUrl : Option Str := none
  severity : Option Str := none
  component : Option Str := none
  image : Option Str := none
  findingType : Option Str := none
  camelFindingType : Option Str := none
  description : Option Str := none
  groupKey : Option Str := none

namespace IssueFinding

/-- `value or fallback` for a text. -/
def orText (value fallback : Str) : Str := if value = [] then fallback else value

/-- The identifier the body shows. -/
def shownCve (f : IssueFinding) : Str :=
  orText (Str.orEmpty (Str.orElse f.camelCveId f.cveId)) (str "unknown")

/-- The line number, if there is one. -/
def shownLine (f : IssueFinding) : Option Str :=
  match f.line with
  | some (n + 1) => some (Nat.toDigits 10 (n + 1))
  | _ => none

/-- The lines of the body that say where the finding is. -/
def locationParts (f : IssueFinding) : List Str :=
  let filePath := Str.orEmpty (Str.orElse f.filePath f.camelFilePath)
  let fileUrl := Str.orEmpty (Str.orElse f.sourceFileUrl f.camelSourceFileUrl)
  let issueUrl := Str.orEmpty (Str.orElse f.sourceIssueUrl f.camelSourceIssueUrl)
  let lineText := match f.shownLine with
    | some line => str " (line " ++ line ++ str ")"
    | none => []
  (if filePath = [] then [] else [str "**File:** \x60" ++ filePath ++ str "\x60" ++ lineText]) ++
    (if fileUrl = [] then [] else [str "**Code:** " ++ fileUrl]) ++
    if issueUrl = [] then [] else [str "**View in source:** " ++ issueUrl]

/-- The values of the template's fields. -/
def templateValues (f : IssueFinding) : List (Str × Str) :=
  let shown (x : Option Str) := orText (Str.orEmpty x) (str "(not specified)")
  [(str "cve_id", f.shownCve), (str "finding_id", orText (Str.orEmpty f.findingId) f.shownCve),
    (str "file_path", shown (Str.orElse f.filePath f.camelFilePath)),
    (str "line", shown f.shownLine),
    (str "source_file_url", shown (Str.orElse f.sourceFileUrl f.camelSourceFileUrl)),
    (str "source_issue_url", shown (Str.orElse f.sourceIssueUrl f.camelSourceIssueUrl))]

/-- The lines of the body before the template. -/
def details (f : IssueFinding) : List Str :=
  let location := f.locationParts
  [str "## VAT Finding: " ++ f.shownCve, [],
    str "**Severity:** " ++ f.severity.getD (str "N/A"),
    str "**Component:** " ++ orText (Str.orEmpty (Str.orElse f.component f.image)) (str "N/A"),
    str "**Type:** " ++
      orText (Str.orEmpty (Str.orElse f.camelFindingType f.findingType)) (str "SCA"),
    [], if location = [] then [] else Str.join '\n' location ++ str "\n",
    Str.orEmpty f.description, []]

end IssueFinding

/-- `LinearAdapter._build_issue_body`. -/
def buildIssueBody (f : IssueFinding) (template : List FormatPart) : Str :=
  let formatted := fillTemplate template f.templateValues f.shownCve
  let body := Str.join '\n' (f.details ++ [str "---", [], formatted])
  if Str.truthy f.groupKey then
    body ++ str "\n\n<!-- [VAT-GROUP: " ++ Str.orEmpty f.groupKey ++ str "] -->"
  else body

/-- The comment that `inject_vat_template_on_issue` posts. -/
def injectedComment (cveId : Str) (template : List FormatPart) (reason : Str) : Str :=
  str "**VAT template injected** (" ++ reason ++ str ")\n\n" ++
    fillTemplate template [(str "cve_id", cveId)] cveId

/-! ### Where the required block stands -/

theorem contains_of_infix {s needle : Str} (part : Str) (h : part <:+: s) (hneedle : needle <:+: part) :
    s.contains needle = true := by
  simpa [Str.contains] using hneedle.trans h

/-- A template that formats to the required block is left as it is. -/
theorem fillTemplate_requiredBlock {values : List (Str × Str)} {cveId : Str}
    (h : values.lookup (str "cve_id") = some cveId) :
    fillTemplate requiredBlock values cveId = requiredText cveId := by
  have formatted : formatParts requiredBlock values = some (requiredText cveId) := by
    simp [formatParts, requiredBlock, h, requiredText]
  have hstatus : (requiredText cveId).contains (str "status:") = true :=
    contains_of_infix (str "\nstatus: ")
      ⟨str "[VAT] " ++ cveId, statusOptions ++ _, (List.append_assoc ..).symm⟩ (by decide)
  have hjust : (requiredText cveId).contains (str "justification:") = true :=
    contains_of_infix
      (str "\njustification: <required>\ncompensating-controls: <optional>")
      (List.suffix_append ..).isInfix (by decide)
  have hvat : (requiredText cveId).contains (str "[VAT]") = true :=
    contains_of_infix (str "[VAT] ")
      (List.IsPrefix.isInfix (by
        simp only [requiredText, List.append_assoc]
        exact List.prefix_append ..)) (by decide)
  simp [fillTemplate, formatted, hstatus, hjust, hvat]

/-- The lines above the template, a line of hyphens and an empty line. -/
theorem join_details (details : List Str) (s : Str) :
    Str.join '\n' (details ++ [str "---", [], s]) =
      (terminated '\n' details ++ str "--") ++ '-' :: str "\n\n" ++ s := by
  rw [Str.join, intercalate_append_cons, intercalate_cons]
  simp [str]

/-- The template's block in an issue body, after a line of hyphens. -/
theorem buildIssueBody_requiredBlock (f : IssueFinding) :
    ∃ before after, buildIssueBody f requiredBlock =
      before ++ '-' :: str "\n\n" ++ (requiredText f.shownCve ++ after) := by
  have filled : fillTemplate requiredBlock f.templateValues f.shownCve = requiredText f.shownCve :=
    fillTemplate_requiredBlock rfl
  have body := join_details f.details (requiredText f.shownCve)
  rw [buildIssueBody, filled, body]
  split
  · exact ⟨_, _, by rw [List.append_assoc, List.append_assoc, List.append_assoc]⟩
  · exact ⟨_, [], by rw [List.append_nil]⟩

/-- The template's block in a comment, after the reason. -/
theorem injectedComment_requiredBlock (cveId reason : Str) :
    injectedComment cveId requiredBlock reason =
      (str "**VAT template injected** (" ++ reason) ++ ')' :: str "\n\n" ++ requiredText cveId := by
  rw [injectedComment, fillTemplate_requiredBlock (by simp)]
  simp [str]

end Vat
