import Vat.Export.SarifOutput
import Vat.Ingest.PartialFingerprints
import Vat.Parsers.Sarif

/-!
# SARIF output read back

The document that the local scanner writes is read by the SARIF parser of the backend. Every result
comes back, in its order, as a payload with its rule, its path, its line and its fingerprint, except
for those without a path and those that the schema of the payloads refuses. The severity is that of
the level, so that a critical finding comes back as a high one, and the title is that of the last
result with the same rule.

So what a scan has found keeps its identity when its SARIF output is imported, and the identity
knows of nothing but rule, path and line.

Source: `vat-local-scanner/vat_scanner/sarif_output.py`; `backend/app/parsers/sarif.py`;
`backend/app/services/sarif_fingerprints.py`.

## Main definitions

* `Entry.Importable`: what is checked of a result.
* `Entry.payload`: what a result comes back as.

## Main results

* `resultToPayload_result`: one result.
* `parse_reportsToSarif`: the whole document.
* `computeIngestFingerprint_payload_eq_iff`: when two results are one finding.
-/

namespace Vat

open Keyed Transition

namespace SarifOutput

/-! ### What a result stands for -/

/-- The severity of a level. -/
def Level.severity : Level → Severity
  | .error => .high
  | .warning => .medium
  | .note => .low

section Names

variable [IntOfText]

/-- The name of the rule: results without a rule id share one. -/
def Entry.name (e : Entry) : Str := if e.rid.truthy then e.rid.textOf else str "unknown"

/-- The result whose rule a result is read with. -/
def ruleOf (entries : List Entry) (e : Entry) : Option Entry := lastOf entries (.text e.name)

/-- The title: the description of the rule, or else its name. -/
def Entry.title (entries : List Entry) (e : Entry) : Str :=
  match ruleOf entries e with
  | none => e.name
  | some r => if r.short = [] then e.name else r.short

/-- The description: the message, or else the title. -/
def Entry.description (entries : List Entry) (e : Entry) : Loaded :=
  e.message.or (.text (e.title entries))

/-- The package. -/
def Entry.component [ReprText] (e : Entry) : Loaded :=
  match e.properties with
  | none => .null
  | some p => SarifParser.componentOf p.packageName (p.installedVersion.getD .null)

/-- The score. -/
def Entry.score (e : Entry) : Option Str := e.properties.bind Properties.score

theorem or_unknown (e : Entry) : e.rid.or (.ofString "unknown") = .text e.name := by
  rw [Loaded.or, Entry.name]
  split_ifs with h
  · have htext := e.rid_named h
    cases hrid : e.rid with
    | text s => rfl
    | null | bool | int | float | list | dict =>
      rw [hrid] at htext
      cases htext
  · rfl

theorem Entry.name_ne_nil (e : Entry) : e.name ≠ [] := by
  rw [Entry.name]
  split_ifs with h
  · have htext := e.rid_named h
    cases hrid : e.rid with
    | text s =>
      rw [hrid] at h
      simpa [Loaded.truthy, Loaded.textOf] using h
    | null | bool | int | float | list | dict =>
      rw [hrid] at htext
      cases htext
  · decide

/-- The key of a rule that is looked up by its name. -/
theorem Entry.key_eq_text_iff (e : Entry) {s : Str} :
    e.key = .text s ↔ e.rid = .text s := by
  have hkey := e.rid_key
  rw [Entry.key]
  cases hrid : e.rid with
  | text t => simp [Loaded.hashKey?]
  | float x =>
    obtain ⟨repr, size⟩ := x
    rcases size with _ | _ | ⟨whole, _ | _⟩ <;> simp [Loaded.hashKey?]
  | null | bool | int => simp [Loaded.hashKey?]
  | list | dict =>
    rw [hrid] at hkey
    cases hkey

end Names

section Reader

variable [Unicode] [ReprText] [IntOfText] [Sha256] [IntText]

/-! ### The rules of a run -/

omit [Unicode] [ReprText] [Sha256] [IntText] in
/-- The rules with a rule under its id, if it has one. -/
def withRule (indexed : SarifParser.Rules) (e : Entry) : SarifParser.Rules :=
  if e.rid.truthy then indexed.set e.key e.rule else indexed

omit [Unicode] [ReprText] [Sha256] [IntText] in
theorem indexRulesFrom_cons (i : ℤ) (e : Entry) (rules : List Loaded)
    (indexed : SarifParser.Rules) :
    SarifParser.indexRulesFrom i (e.rule :: rules) indexed =
      SarifParser.indexRulesFrom (i + 1) rules ((withRule indexed e).set (.number i) e.rule) := by
  have hid : e.rule.get "id" = .ok e.rid := rfl
  have hhash : e.rid.hashKey = .ok e.key := by
    rw [Loaded.hashKey, check_of_pos e.rid_key]
    rfl
  rw [SarifParser.indexRulesFrom, hid, ok_bind, withRule]
  split_ifs with htruthy
  · rw [hhash]
    rfl
  · rfl

omit [Unicode] [ReprText] [Sha256] [IntText] in
/-- What is under a name after a rule has been indexed. -/
theorem get?_withRule (indexed : SarifParser.Rules) (e : Entry) {s : Str} (hs : s ≠ []) :
    (withRule indexed e).get? (.text s) =
      if e.key = .text s then some e.rule else indexed.get? (.text s) := by
  rw [withRule]
  by_cases htruthy : e.rid.truthy = true
  · rw [if_pos htruthy, Dictionary.get?_set]
    simp only [eq_comm]
  · have hne : e.key ≠ .text s := by
      rw [ne_eq, e.key_eq_text_iff]
      intro hrid
      rw [hrid] at htruthy
      simp [Loaded.truthy, hs] at htruthy
    rw [if_neg htruthy, if_neg hne]

omit [Unicode] [ReprText] [Sha256] [IntText] in
/-- The rules that are indexed under a name are those that were written. -/
theorem indexRulesFrom_rules {l : List (HashKey × Loaded)}
    (hl : ∀ q ∈ l, ∃ e : Entry, q = (e.key, e.rule)) (hnodup : (l.map Prod.fst).Nodup) (i : ℤ)
    (indexed : SarifParser.Rules) :
    ∃ rules, SarifParser.indexRulesFrom i (l.map Prod.snd) indexed = .ok rules ∧
      ∀ s ≠ [], rules.get? (.text s) =
        ((l.find? fun q => q.1 = .text s).map Prod.snd).or (indexed.get? (.text s)) := by
  induction l generalizing i indexed with
  | nil => exact ⟨indexed, rfl, fun s _ => rfl⟩
  | cons q l ih =>
    rw [List.map_cons, List.nodup_cons] at hnodup
    obtain ⟨e, rfl⟩ := hl q List.mem_cons_self
    obtain ⟨rules, hrules, hget⟩ := ih (fun q hq => hl q (List.mem_cons_of_mem _ hq)) hnodup.2
      (i + 1) ((withRule indexed e).set (.number i) e.rule)
    refine ⟨rules, (indexRulesFrom_cons i e _ indexed).trans hrules, fun s hs => ?_⟩
    rw [hget s hs, Dictionary.get?_set, if_neg (by simp), get?_withRule indexed e hs,
      List.find?_cons]
    by_cases hkey : e.key = .text s
    · have hnone : (l.find? fun q => q.1 = .text s) = none := by
        refine List.find?_eq_none.mpr fun q hq heq => hnodup.1 ?_
        exact List.mem_map.mpr ⟨q, hq, (of_decide_eq_true heq).trans hkey.symm⟩
      simp [hkey, hnone]
    · simp [hkey]

omit [Unicode] [ReprText] [Sha256] [IntText] in
/-- The rules of a run, as they are indexed. -/
theorem indexRules_rulesOf (entries : List Entry) :
    ∃ rules, SarifParser.indexRules (.list ((rulesOf entries).entries.map Prod.snd)) = .ok rules ∧
      ∀ e : Entry, rules.get? (.text e.name) = (ruleOf entries e).map Entry.rule := by
  obtain ⟨rules, hrules, hget⟩ := indexRulesFrom_rules
    (fun q hq => (mem_rulesOf hq).imp fun _ h => h.2) (rulesOf entries).nodup 0 .empty
  refine ⟨rules, hrules, fun e => ?_⟩
  rw [hget e.name e.name_ne_nil, ruleOf, ← get?_rulesOf, Dictionary.get?_empty, Option.or_none]
  rfl

/-! ### One result -/

omit [IntText] in
/-- What the parser reads of a result. -/
def Entry.fields (entries : List Entry) (e : Entry) : PayloadFields where
  cveId := .text e.name
  severity := e.level.severity
  description := e.description entries
  findingType := .sast
  component := e.component
  filePath := e.uri
  line := e.line
  ruleId := .text e.name
  title := .text (e.title entries)
  cvss := optionField e.score
  partialFingerprints := some [(lineHashV1Key, e.fingerprint)]

omit [ReprText] [IntText] in
/-- A member that no result has. -/
theorem memberOr_result {k : String} (hk : str k ∉ ([str "ruleId", str "message", str "level",
    str "locations", str "partialFingerprints", str "properties"] : List Str))
    (e : Entry) (default : Loaded) : e.result.memberOr k default = default := by
  simp only [List.mem_cons, List.not_mem_nil, or_false, not_or] at hk
  obtain ⟨hrule, hmessage, hlevel, hlocations, hfingerprints, hproperties⟩ := hk
  rw [Entry.result]
  simp only [List.cons_append, List.nil_append, Loaded.memberOr_cons_of_ne hrule,
    Loaded.memberOr_cons_of_ne hmessage, Loaded.memberOr_cons_of_ne hlevel,
    Loaded.memberOr_cons_of_ne hlocations, Loaded.memberOr_cons_of_ne hfingerprints]
  cases e.properties with
  | none => rfl
  | some p => exact (Loaded.memberOr_cons_of_ne hproperties p.value [] default).trans rfl

omit [ReprText] [IntText] in
/-- The properties of a result, or else an empty object. -/
theorem properties_result (e : Entry) : (e.result.member "properties").or (.dict []) =
    (e.properties.map Properties.value).getD (.dict []) := by
  have hne : ∀ k ∈ ([str "ruleId", str "message", str "level", str "locations",
      str "partialFingerprints"] : List Str), str "properties" ≠ k := by decide
  simp only [List.forall_mem_cons, List.not_mem_nil, false_imp_iff, implies_true, and_true] at hne
  obtain ⟨hrule, hmessage, hlevel, hlocations, hfingerprints⟩ := hne
  rw [Entry.result, Loaded.member]
  simp only [List.cons_append, List.nil_append, Loaded.memberOr_cons_of_ne hrule,
    Loaded.memberOr_cons_of_ne hmessage, Loaded.memberOr_cons_of_ne hlevel,
    Loaded.memberOr_cons_of_ne hlocations]
  cases e.properties with
  | none => rfl
  | some p => rfl

omit [ReprText] [IntText] in
/-- A result names its rule, or is read as one of the unknown rule. -/
theorem ruleIdOf_result (e : Entry) : SarifParser.ruleIdOf e.result = .ok (.text e.name) := by
  have hget : e.result.get "ruleId" = .ok e.rid := rfl
  have hrule : e.result.getOr "rule" (.dict []) = .ok (.dict []) :=
    congrArg Except.ok (memberOr_result (by decide) e (.dict []))
  rw [SarifParser.ruleIdOf, hget, ok_bind, ← or_unknown, Loaded.or]
  split_ifs with h
  · rfl
  · rw [hrule]
    rfl

omit [Unicode] [ReprText] [Sha256] [IntText] in
/-- The rule that a result is read with: an empty object if there is none. -/
def ruleDef (entries : List Entry) (e : Entry) : Loaded :=
  ((ruleOf entries e).map Entry.rule).getD (.dict [])

omit [Unicode] [Sha256] [IntText] in
theorem ruleDefOf_name {rules : SarifParser.Rules} {entries : List Entry} {e : Entry}
    (h : rules.get? (.text e.name) = (ruleOf entries e).map Entry.rule) :
    SarifParser.ruleDefOf rules (.text e.name) .null = .ok (ruleDef entries e) := by
  have hkey : (Loaded.text e.name).hashKey = .ok (.text e.name) := rfl
  rw [SarifParser.ruleDefOf, hkey, ok_bind, h, ruleDef]
  cases ruleOf entries e <;> rfl

omit [Unicode] [ReprText] [Sha256] [IntText] in
/-- The short description of the rule, or else the name of the rule. -/
theorem text_or_name (entries : List Entry) (e : Entry) :
    (((ruleDef entries e).memberOr "shortDescription" (.dict [])).member "text").or
      (.text e.name) = .text (e.title entries) := by
  rw [ruleDef, Entry.title]
  cases ruleOf entries e with
  | none => rfl
  | some r =>
    change (Loaded.text r.short).or (.text e.name) = _
    rw [Loaded.or]
    by_cases hshort : r.short = [] <;> simp [Loaded.truthy, hshort]

omit [Unicode] [ReprText] [Sha256] [IntText] in
/-- The message of a rule. -/
theorem ruleMessage_rule (r : Entry) (name : Str) :
    SarifParser.ruleMessage r.rule (.text name) =
      .ok (.text (if r.short = [] then name else r.short)) := by
  have hfull : SarifParser.ruleText r.rule "fullDescription" = .ok .null := rfl
  have hshort : SarifParser.ruleText r.rule "shortDescription" = .ok (.text r.short) := rfl
  have hhelp : SarifParser.ruleText r.rule "help" = .ok .null := rfl
  rw [SarifParser.ruleMessage, hfull, ok_bind, hshort, hhelp]
  by_cases h : r.short = []
  · rw [if_pos h, h]
    rfl
  · have htruthy : (Loaded.text r.short).truthy = true := by simpa [Loaded.truthy] using h
    rw [if_neg h, ok_bind, htruthy]
    rfl

omit [ReprText] [IntText] in
/-- The message of a result is the text that was written. -/
theorem getMessage_result (e : Entry) :
    SarifParser.getMessage e.result = .ok (e.message.or (.text [])) := by
  have hget : e.result.get "message" = .ok (.dict [(str "text", e.message)]) := rfl
  have hmarkdown : (Loaded.dict [(str "text", e.message)]).get "markdown" = .ok .null := rfl
  have htext : (Loaded.dict [(str "text", e.message)]).get "text" = .ok e.message := rfl
  rw [SarifParser.getMessage, hget, ok_bind, Loaded.or]
  change (do
    let text ← (Loaded.dict [(str "text", e.message)]).get "text"
    if text.truthy then return text
    else
      let markdown ← (Loaded.dict [(str "text", e.message)]).get "markdown"
      return markdown.or (.text [])) = _
  rw [htext, ok_bind, hmarkdown, Loaded.or]
  split_ifs <;> rfl

omit [ReprText] [IntText] in
/-- The message of a result, or else the description of its rule, or else its name. -/
theorem messageOf_result (entries : List Entry) (e : Entry) :
    SarifParser.messageOf (ruleDef entries e) (.text e.name) e.result =
      .ok (e.description entries) := by
  rw [SarifParser.messageOf, getMessage_result, ok_bind, Entry.description]
  by_cases htruthy : e.message.truthy = true
  · have hor : ∀ v : Loaded, e.message.or v = e.message := fun v => if_pos htruthy
    simp only [hor, htruthy, not_true_eq_false, false_and, if_false]
    rfl
  · have hor : ∀ v : Loaded, e.message.or v = v := fun v => if_neg htruthy
    have hempty : (Loaded.text []).truthy = false := rfl
    simp only [hor, hempty, Bool.false_eq_true, not_false_eq_true, true_and]
    rw [ruleDef, Entry.title]
    cases ruleOf entries e with
    | none => rfl
    | some r =>
      change (do
        let message ← SarifParser.ruleMessage r.rule (.text e.name)
        pure (message.or (.text e.name))) = _
      have hne : (if r.short = [] then e.name else r.short) ≠ [] := by
        split_ifs with hshort
        · exact e.name_ne_nil
        · exact hshort
      rw [ruleMessage_rule, ok_bind, Loaded.or, if_pos (by simpa [Loaded.truthy] using hne)]
      rfl

omit [IntText] [Sha256] in
/-- The severity of a result is that of its level. -/
theorem mapLevel_result (e : Entry) (defaultConfig : Loaded) :
    SarifParser.mapLevel (.text e.level.text) defaultConfig = .ok e.level.severity := by
  have hlower : Unicode.lower e.level.text = e.level.text :=
    Unicode.lower_eq_self (by cases e.level <;> decide)
  have hmapped : SarifParser.mappedLevel (.text e.level.text) = .ok (some e.level.severity) := by
    have htext : (Loaded.text e.level.text).asText = .ok e.level.text := rfl
    have htruthy : (Loaded.text e.level.text).truthy = true := by cases e.level <;> decide
    rw [SarifParser.mappedLevel, if_pos htruthy, htext, ok_bind, hlower]
    cases e.level <;> rfl
  rw [SarifParser.mapLevel, hmapped]
  rfl

omit [Unicode] [ReprText] [IntText] [Sha256] in
/-- The title of a result is that of its rule. -/
theorem titleOf_properties (entries : List Entry) (e : Entry) :
    SarifParser.titleOf ((e.properties.map Properties.value).getD (.dict [])) (ruleDef entries e)
      (.text e.name) = .ok (.text (e.title entries)) := by
  have htitle : ((e.properties.map Properties.value).getD (.dict [])).get "title" = .ok .null := by
    cases e.properties with
    | none => rfl
    | some p =>
      obtain ⟨pkg, _ | ver, _ | score⟩ := p <;> rfl
  have hshort : SarifParser.ruleText (ruleDef entries e) "shortDescription" =
      .ok (((ruleDef entries e).memberOr "shortDescription" (.dict [])).member "text") := by
    rw [ruleDef]
    cases ruleOf entries e <;> rfl
  rw [SarifParser.titleOf, htitle, ok_bind, hshort, ← text_or_name]
  rfl

omit [Unicode] [ReprText] [Sha256] [IntText] in
/-- The physical location of a result. -/
def Entry.place (e : Entry) : Loaded :=
  .dict [(str "artifactLocation", .dict [(str "uri", e.uri)]),
    (str "region", .dict [(str "startLine", e.line)])]

omit [Unicode] [ReprText] [Sha256] [IntText] in
/-- The location of a result. -/
def Entry.location (e : Entry) : Loaded := .dict [(str "physicalLocation", e.place)]

omit [ReprText] [IntText] in
/-- What is at the place of a result. -/
theorem location_result (e : Entry) :
    e.result.get "locations" = .ok (.list [e.location]) ∧
      e.location.getOr "physicalLocation" (.dict []) = .ok e.place ∧
      e.place.getOr "artifactLocation" (.dict []) = .ok (.dict [(str "uri", e.uri)]) ∧
      e.place.getOr "region" (.dict []) = .ok (.dict [(str "startLine", e.line)]) :=
  ⟨rfl, rfl, rfl, rfl⟩

omit [ReprText] [IntText] in
/-- The fingerprints of a result. -/
theorem fingerprints_result (e : Entry) :
    e.result.get "partialFingerprints" = .ok (.dict [(lineHashV1Key, .text e.fingerprint)]) ∧
      e.result.get "fingerprints" = .ok .null :=
  ⟨rfl, congrArg Except.ok (memberOr_result (by decide) e .null)⟩

omit [Unicode] [IntOfText] [Sha256] [IntText] in
theorem componentOf_or_null (a b : Loaded) :
    SarifParser.componentOf (a.or .null) (b.or .null) = SarifParser.componentOf a b := by
  have hor : ∀ v : Loaded, v.or .null = if v.truthy then v else .null := fun _ => rfl
  have hnull : Loaded.null.truthy = false := rfl
  rw [SarifParser.componentOf, SarifParser.componentOf, hor, hor]
  by_cases ha : a.truthy = true <;> by_cases hb : b.truthy = true <;> simp [ha, hb, hnull]

omit [Unicode] [Sha256] [IntText] in
/-- The properties that are read. -/
theorem properties_get (e : Entry) : ∃ pkg ver, SarifParser.componentOf pkg ver = e.component ∧
    let props := (e.properties.map Properties.value).getD (.dict [])
    props.get "packageName" = .ok pkg ∧ props.get "PackageName" = .ok .null ∧
      props.get "installedVersion" = .ok ver ∧ props.get "InstalledVersion" = .ok .null ∧
      props.get "security-severity" = .ok (optionField e.score) := by
  rw [Entry.component, Entry.score]
  cases e.properties with
  | none => exact ⟨.null, .null, rfl, rfl, rfl, rfl, rfl, rfl⟩
  | some p =>
    obtain ⟨pkg, _ | ver, _ | score⟩ := p
    · exact ⟨pkg, .null, rfl, rfl, rfl, rfl, rfl, rfl⟩
    · exact ⟨pkg, .null, rfl, rfl, rfl, rfl, rfl, rfl⟩
    · exact ⟨pkg, ver, rfl, rfl, rfl, rfl, rfl, rfl⟩
    · exact ⟨pkg, ver, rfl, rfl, rfl, rfl, rfl, rfl⟩

/-- A result without a path is left out, and any other one is read as its fields. -/
theorem resultToPayload_result {rules : SarifParser.Rules} {entries : List Entry} {e : Entry}
    (h : rules.get? (.text e.name) = (ruleOf entries e).map Entry.rule) :
    SarifParser.resultToPayload rules e.result =
      if ¬ e.uri.truthy then .ok [] else do
        let payload ← createPayload (e.fields entries) e.uri
        return [payload] := by
  have hindex : e.result.get "ruleIndex" = .ok .null :=
    congrArg Except.ok (memberOr_result (by decide) e .null)
  have hlevel : e.result.get "level" = .ok (.text e.level.text) := rfl
  have hconfig : (ruleDef entries e).getOr "defaultConfiguration" (.dict []) = .ok (.dict []) := by
    rw [ruleDef]
    cases ruleOf entries e <;> rfl
  have hproperties : e.result.get "properties" = .ok (e.result.member "properties") := rfl
  have hfirst : ((Loaded.list [e.location]).or (.list [.dict []])).first = .ok e.location := rfl
  have huri : (Loaded.dict [(str "uri", e.uri)]).getOr "uri" (.text []) = .ok e.uri := rfl
  have hnull : Loaded.null.truthy = false := rfl
  have hsnippet : SarifParser.snippetOf (.dict [(str "startLine", e.line)]) = .ok .null := rfl
  have hline : (Loaded.dict [(str "startLine", e.line)]).get "startLine" = .ok e.line := rfl
  obtain ⟨hlocations, hphysical, hartifact, hregion⟩ := location_result e
  obtain ⟨hdigests, hfingerprints⟩ := fingerprints_result e
  obtain ⟨pkg, ver, hcomponent, hpkg, hpkg', hver, hver', hscore⟩ := properties_get e
  simp only [SarifParser.resultToPayload, ruleIdOf_result, hindex, ruleDefOf_name h,
    messageOf_result, hlevel, hconfig, mapLevel_result, hlocations, hfirst, hphysical, hartifact,
    huri, hregion, hproperties, properties_result, hdigests, hfingerprints, hsnippet, hline,
    titleOf_properties, hpkg, hpkg', hver, hver', hscore, ok_bind, componentOf_or_null, hcomponent,
    hnull, Bool.false_eq_true, if_false]
  by_cases hpath : e.uri.truthy = true
  · rw [if_neg (not_not.mpr hpath), if_neg (not_not.mpr hpath), Entry.fields]
    cases e.score <;> rfl
  · rw [if_pos hpath, if_pos hpath]
    rfl

/-! ### What is accepted -/

omit [Unicode] [ReprText] [IntOfText] [Sha256] in
/-- A line that the schema accepts. -/
def lineAccepted : Loaded → Bool
  | .null => true
  | v => 1 ≤ (wholeNumber v).getD 0

omit [Unicode] [ReprText] [IntOfText] [Sha256] in
/-- The line in a payload. -/
def importedLine : Loaded → Option ℕ
  | .null => none
  | v => some ((wholeNumber v).getD 0).toNat

omit [Unicode] [ReprText] [IntOfText] [Sha256] in
theorem optionalLine_eq_ok_iff {v : Loaded} {line : Option ℕ} :
    optionalLine v = .ok line ↔ lineAccepted v ∧ importedLine v = line := by
  have hcheck : ∀ i : ℤ, (do
      check (1 ≤ i) PyError.valueError
      return some i.toNat) = Except.ok line ↔ decide (1 ≤ i) = true ∧ some i.toNat = line := by
    intro i
    rw [check_bind_eq_ok_iff, decide_eq_true_iff]
    exact and_congr_right fun _ => ⟨fun h => by cases h; rfl, fun h => by rw [h]; rfl⟩
  cases v with
  | null =>
    change Except.ok none = Except.ok line ↔ true = true ∧ none = line
    simp
  | bool | int | float | text | list | dict => exact hcheck _

omit [Unicode] [IntOfText] [Sha256] in
/-- The payload of fields with a line. -/
theorem validate_eq_ok_iff_line {fields : PayloadFields} {p : VatFindingSchema} :
    fields.validate = .ok p ↔ (fields.Accepted ∧ lineAccepted fields.line) ∧
      { fields.payload with line := importedLine fields.line } = p := by
  have hline : ∀ {f : Option ℕ → Except PyError VatFindingSchema},
      (optionalLine fields.line >>= f) = .ok p ↔
        lineAccepted fields.line ∧ f (importedLine fields.line) = .ok p := by
    intro f
    rw [bind_eq_ok_iff]
    simp only [optionalLine_eq_ok_iff]
    exact ⟨fun ⟨_, ⟨hok, rfl⟩, h⟩ => ⟨hok, h⟩, fun ⟨hok, h⟩ => ⟨_, ⟨hok, rfl⟩, h⟩⟩
  have hpure : ∀ x : VatFindingSchema, (pure x : Except PyError _) = .ok p ↔ x = p :=
    fun x => ⟨fun h => by cases h; rfl, fun h => by rw [h]; rfl⟩
  simp only [PayloadFields.validate, hline, optionalText_bind_eq_ok_iff,
    boundedText_bind_eq_ok_iff, PayloadFields.accepted_iff, PayloadFields.optionalTexts,
    List.forall_mem_cons, List.not_mem_nil, false_imp_iff, implies_true, and_true, Nat.zero_le,
    and_assoc, and_left_comm (b := lineAccepted fields.line = true), hpure]
  rfl

/-- What is checked of a result. -/
structure Entry.Importable (e : Entry) : Prop where
  uri : e.uri.truthy ∧ fits 256 e.uri
  name : 1 ≤ (sanitizeText e.name).length ∧ (sanitizeText e.name).length ≤ 128
  message : e.message.truthy → e.message.isText ∧ fits 10000 e.message
  component : fits 512 e.component
  score : fits 16 (optionField e.score)
  line : lineAccepted e.line

omit [Unicode] [Sha256] in
theorem Entry.importable_iff (e : Entry) : e.Importable ↔ (e.uri.truthy ∧ fits 256 e.uri) ∧
    (1 ≤ (sanitizeText e.name).length ∧ (sanitizeText e.name).length ≤ 128) ∧
    (e.message.truthy → e.message.isText ∧ fits 10000 e.message) ∧ fits 512 e.component ∧
    fits 16 (optionField e.score) ∧ lineAccepted e.line :=
  ⟨fun h => ⟨h.uri, h.name, h.message, h.component, h.score, h.line⟩,
    fun h => ⟨h.1, h.2.1, h.2.2.1, h.2.2.2.1, h.2.2.2.2.1, h.2.2.2.2.2⟩⟩

instance (e : Entry) : Decidable e.Importable := decidable_of_iff _ e.importable_iff.symm

/-- What a result comes back as. -/
def Entry.payload (entries : List Entry) (e : Entry) : VatFindingSchema :=
  { VatFindingSchema.blank (Str.strip (sanitizeText e.name)) e.level.severity with
    description := sanitizeText (e.description entries).textOf
    component := fieldText e.component
    image := fieldText e.uri
    filePath := fieldText e.uri
    line := importedLine e.line
    ruleId := some (sanitizeText e.name)
    title := some (sanitizeText (e.title entries))
    findingType := .sast
    cvss := e.score.map sanitizeText
    partialFingerprints := some [(lineHashV1Key, e.fingerprint)] }

omit [Unicode] [ReprText] [IntOfText] [Sha256] [IntText] in
theorem length_sanitizeText_le (s : Str) : (sanitizeText s).length ≤ s.length :=
  List.length_filter_le _ _

omit [Unicode] [ReprText] [Sha256] [IntText] in
/-- The title is no longer than the schema allows. -/
theorem fits_title (entries : List Entry) {e : Entry} (h : (sanitizeText e.name).length ≤ 128) :
    (sanitizeText (e.title entries)).length ≤ 200 := by
  rw [Entry.title]
  cases ruleOf entries e with
  | none => exact h.trans (by decide)
  | some r =>
    dsimp only
    split_ifs
    · exact h.trans (by decide)
    · exact (length_sanitizeText_le r.short).trans r.short_length

omit [ReprText] [IntText] in
/-- A digest has no control characters. -/
theorem sanitizeText_fingerprint (e : Entry) : sanitizeText e.fingerprint = e.fingerprint := by
  have hhex : (str "0123456789abcdef").all
      (fun c => c == '\t' || c == '\n' || c == '\r' || 32 ≤ c.toNat) = true := by decide
  exact List.filter_eq_self.mpr fun c hc =>
    List.all_eq_true.mp hhex c (Sha256.mem_hexdigest _ c hc)

omit [Unicode] [ReprText] [IntOfText] [Sha256] [IntText] in
theorem fits_text_iff {n : ℕ} {s : Str} :
    fits n (.text s) = true ↔ (sanitizeText s).length ≤ n := decide_eq_true_iff

omit [Unicode] [ReprText] [Sha256] [IntText] in
/-- A description that comes from the rule fits. -/
theorem fits_description_iff (entries : List Entry) {e : Entry}
    (hname : (sanitizeText e.name).length ≤ 128) :
    ((e.description entries).isText = true ∧ fits 10000 (e.description entries) = true) ↔
      (e.message.truthy → e.message.isText ∧ fits 10000 e.message) := by
  rw [Entry.description, Loaded.or]
  split_ifs with h
  · exact ⟨fun hd _ => hd, fun hd => hd h⟩
  · exact iff_of_true ⟨rfl, fits_text_iff.mpr ((fits_title entries hname).trans (by decide))⟩
      fun hno => absurd hno h

omit [IntText] in
/-- The checks of the fields of a result. -/
theorem accepted_fields_iff (entries : List Entry) (e : Entry) :
    PayloadFields.Accepted { e.fields entries with image := e.uri } ↔
      fits 256 e.uri ∧ (1 ≤ (sanitizeText e.name).length ∧ (sanitizeText e.name).length ≤ 128) ∧
        (e.message.truthy → e.message.isText ∧ fits 10000 e.message) ∧ fits 512 e.component ∧
        fits 16 (optionField e.score) := by
  have hpath : fits 256 e.uri = true → fits 1024 e.uri = true := by
    cases e.uri with
    | text s =>
      rw [fits_text_iff, fits_text_iff]
      omega
    | null | bool | int | float | list | dict => exact id
  constructor
  · intro h
    obtain ⟨-, hmin, hmax⟩ := h.cveId
    have hname := fits_text_iff.mp hmax
    have hmem : ∀ q ∈ [(512, e.component), (256, e.uri), (16, optionField e.score)],
        fits q.1 q.2 = true := by
      intro q hq
      refine h.optionalTexts q ?_
      simp only [List.mem_cons, List.not_mem_nil, or_false] at hq
      rcases hq with rfl | rfl | rfl <;> simp [PayloadFields.optionalTexts, Entry.fields]
    simp only [List.forall_mem_cons, List.not_mem_nil, false_imp_iff, implies_true, and_true]
      at hmem
    exact ⟨hmem.2.1, ⟨hmin, hname⟩, (fits_description_iff entries hname).mp h.description, hmem.1,
      hmem.2.2⟩
  · rintro ⟨huri, hname, hmessage, hcomponent, hscore⟩
    refine ⟨⟨rfl, hname.1, fits_text_iff.mpr hname.2⟩,
      (fits_description_iff entries hname.2).mpr hmessage, ?_⟩
    have hnull : ∀ n, fits n .null = true := fun _ => rfl
    simp only [PayloadFields.optionalTexts, Entry.fields, List.forall_mem_cons, List.not_mem_nil,
      false_imp_iff, implies_true, and_true, fits_text_iff, hnull, true_and]
    exact ⟨hcomponent, huri, hpath huri, hname.2.trans (by decide),
      (fits_title entries hname.2).trans (by decide), hscore⟩

/-- A result with a path is a payload exactly if it passes the checks. -/
theorem createPayload_fields_eq_ok_iff {entries : List Entry} {e : Entry}
    (huri : e.uri.truthy = true) {p : VatFindingSchema} :
    createPayload (e.fields entries) e.uri = .ok p ↔ e.Importable ∧ e.payload entries = p := by
  have hasset : (e.fields entries).withAsset e.uri = { e.fields entries with image := e.uri } := by
    have hnull : Loaded.null.truthy = false := rfl
    rw [PayloadFields.withAsset, if_pos]
    exact ⟨huri, by rw [Entry.fields, hnull]; decide, by rw [Entry.fields, hnull]; decide⟩
  have hpayload : { PayloadFields.payload { e.fields entries with image := e.uri } with
      line := importedLine e.line } = e.payload entries := by
    have hdescription : Str.orEmpty (fieldText (e.description entries)) =
        sanitizeText (e.description entries).textOf := by
      cases e.description entries <;> rfl
    have hscore : fieldText (optionField e.score) = e.score.map sanitizeText := by
      cases e.score <;> rfl
    have hkey : sanitizeText lineHashV1Key = lineHashV1Key := by decide
    have hfingerprints : (e.fields entries).partialFingerprints.map (fun pairs =>
        (pairs.foldl (fun d p => d.set (sanitizeText p.1) (sanitizeText p.2))
          Dictionary.empty).entries) = some [(lineHashV1Key, e.fingerprint)] := by
      change some [(sanitizeText lineHashV1Key, sanitizeText e.fingerprint)] = _
      rw [hkey, sanitizeText_fingerprint]
    rw [Entry.payload, PayloadFields.payload, ← hdescription, ← hscore, ← hfingerprints]
    rfl
  rw [createPayload, hasset, validate_eq_ok_iff_line, accepted_fields_iff]
  exact and_congr ⟨fun h => ⟨⟨huri, h.1.1⟩, h.1.2.1, h.1.2.2.1, h.1.2.2.2.1, h.1.2.2.2.2, h.2⟩,
    fun h => ⟨⟨h.uri.2, h.name, h.message, h.component, h.score⟩, h.line⟩⟩ (by rw [← hpayload]; rfl)

/-! ### The whole document -/

omit [Unicode] [ReprText] [Sha256] [IntText] in
/-- The tool of a run and its rules. -/
def Run.driver (run : Run) : Loaded :=
  .dict [(str "name", .text run.tool),
    (str "rules", .list ((rulesOf run.entries).entries.map Prod.snd))]

/-- A result is read as its payload, or left out. -/
theorem parseResult_result {rules : SarifParser.Rules} {entries : List Entry} {e : Entry}
    (h : rules.get? (.text e.name) = (ruleOf entries e).map Entry.rule) :
    SarifParser.parseResult rules e.result =
      .ok (if e.Importable then [e.payload entries] else []) := by
  rw [SarifParser.parseResult, resultToPayload_result h]
  by_cases huri : e.uri.truthy = true
  · rw [if_neg (not_not.mpr huri)]
    by_cases hok : e.Importable
    · rw [if_pos hok, (createPayload_fields_eq_ok_iff huri).mpr ⟨hok, rfl⟩]
      rfl
    · rw [if_neg hok]
      cases hcreate : createPayload (e.fields entries) e.uri with
      | ok p => exact absurd ((createPayload_fields_eq_ok_iff huri).mp hcreate).1 hok
      | error err =>
        have hguarded : Guarded (· = PyError.valueError) (createPayload (e.fields entries) e.uri) :=
          guarded_createPayload rfl
        rw [hguarded err hcreate]
        rfl
  · rw [if_pos huri, if_neg fun hok : e.Importable => huri hok.uri.1]
    rfl

/-- What the results of a run come back as. -/
def Run.payloads (run : Run) : List VatFindingSchema :=
  (run.entries.filter fun e => e.Importable).map fun e => e.payload run.entries

/-- A run is read as its results. -/
theorem parseRun_value (run : Run) : SarifParser.parseRun run.value = .ok run.payloads := by
  obtain ⟨rules, hrules, hget⟩ := indexRules_rulesOf run.entries
  have hresults : run.value.get "results" = .ok (.list (run.entries.map Entry.result)) := rfl
  have htool : run.value.getOr "tool" (.dict []) = .ok (.dict [(str "driver", run.driver)]) := rfl
  have hdriver : (Loaded.dict [(str "driver", run.driver)]).getOr "driver" (.dict []) =
      .ok run.driver := rfl
  have hname : run.driver.getOr "name" (.ofString "unknown") = .ok (.text run.tool) := rfl
  have hrule : run.driver.get "rules" =
      .ok (.list ((rulesOf run.entries).entries.map Prod.snd)) := rfl
  have hiterate : ∀ items, (Loaded.list items).iterate = .ok items := fun _ => rfl
  have hcollect := collect_eq_ok_flatMap (l := run.entries) fun e _ => parseResult_result (hget e)
  have hpayloads : ∀ l : List Entry,
      (l.flatMap fun e => if e.Importable then [e.payload run.entries] else []) =
        (l.filter fun e => e.Importable).map fun e => e.payload run.entries := by
    intro l
    induction l with
    | nil => rfl
    | cons e l ih =>
      rw [List.flatMap_cons, ih, List.filter_cons]
      by_cases hok : e.Importable <;> simp [hok]
  rw [SarifParser.parseRun, SarifParser.toolName]
  simp only [hresults, htool, hdriver, hname, hrule, Loaded.list_or_nil, hrules, hiterate, ok_bind,
    collect_map, hcollect, hpayloads, Run.payloads]

/-- The document that is written is read, and gives the payloads of its results. -/
theorem parse_reportsToSarif (reports : List (Str × Loaded)) (assetName : Str) :
    SarifParser.parse (reportsToSarif reports assetName) =
      .ok ((runsOf reports assetName).flatMap Run.payloads) := by
  have hschema : (reportsToSarif reports assetName).getOr "$schema" (.text []) =
      .ok (.ofString "https://json.schemastore.org/sarif-2.1.0.json") := rfl
  have hversion : (reportsToSarif reports assetName).getOr "version" (.text []) =
      .ok (.ofString "2.1.0") := rfl
  have hruns : (reportsToSarif reports assetName).get "runs" =
      .ok (.list ((runsOf reports assetName).map Run.value)) := rfl
  have hiterate : ∀ items, (Loaded.list items).iterate = .ok items := fun _ => rfl
  have hsarif : Str.contains (Unicode.lower (Loaded.ofString
      "https://json.schemastore.org/sarif-2.1.0.json").pyStr) (str "sarif") = true := by
    have hlower : Unicode.lower (str "https://json.schemastore.org/sarif-2.1.0.json") =
        str "https://json.schemastore.org/sarif-2.1.0.json" := Unicode.lower_eq_self (by decide)
    change Str.contains (Unicode.lower (str "https://json.schemastore.org/sarif-2.1.0.json"))
      (str "sarif") = true
    rw [hlower]
    decide
  have hsupported : (Loaded.ofString "2.1.0").isText ∧
      (Loaded.ofString "2.1.0").textOf ∈ SarifParser.supportedVersions := by decide
  rw [SarifParser.parse, check_of_pos (p := (reportsToSarif reports assetName).isDict) rfl]
  simp only [hschema, hversion, hruns, Loaded.list_or_nil, hiterate, ok_bind, collect_map,
    check_of_pos hsarif, check_of_pos hsupported]
  exact collect_eq_ok_flatMap fun run _ => parseRun_value run

/-! ### The identity of what is read -/

omit [Unicode] [ReprText] [IntOfText] [Sha256] [IntText] in
theorem isDigit_of_mem_toDigits {n : ℕ} {c : Char} (h : c ∈ Nat.toDigits 10 n) :
    c.isDigit = true :=
  Nat.isDigit_of_mem_toDigits (by decide) (by decide) h

omit [Unicode] [ReprText] [IntOfText] [Sha256] [IntText] in
theorem intText_injective : Function.Injective intText := by
  have hdigits : ∀ {m n : ℕ}, Nat.toDigits 10 m = Nat.toDigits 10 n → m = n := by
    intro m n h
    rw [← Nat.ofDigitChars_ten_toDigits (n := m), h, Nat.ofDigitChars_ten_toDigits]
  have hsign : ∀ {m n : ℕ}, '-' :: Nat.toDigits 10 m ≠ Nat.toDigits 10 n := fun h =>
    absurd (isDigit_of_mem_toDigits (h ▸ List.mem_cons_self)) (by decide)
  intro i j h
  rw [intText, intText] at h
  split_ifs at h with hi hj hj
  · have := hdigits (List.cons.inj h).2
    omega
  · exact absurd h hsign
  · exact absurd h.symm hsign
  · have := hdigits h
    omega

omit [Unicode] [ReprText] [IntOfText] [Sha256] [IntText] in
theorem bar_notMem_intText (i : ℤ) : '|' ∉ intText i := by
  have hbar : ∀ n, '|' ∉ Nat.toDigits 10 n := fun n h =>
    absurd (isDigit_of_mem_toDigits h) (by decide)
  rw [intText]
  split_ifs
  · rw [List.mem_cons, not_or]
    exact ⟨by decide, hbar _⟩
  · exact hbar _

omit [ReprText] [IntOfText] [Sha256] [IntText] in
/-- What the fingerprints of two results are made of, when the rule ids have no bar. -/
theorem material_eq_iff {rid rid' uri uri' : Loaded} {i i' : ℤ}
    (h : '|' ∉ Str.strip (nameText rid)) (h' : '|' ∉ Str.strip (nameText rid')) :
    material rid uri i = material rid' uri' i' ↔
      Str.strip (nameText rid) = Str.strip (nameText rid') ∧ pathText uri = pathText uri' ∧
        i = i' := by
  rw [material, material, Delimited.append_cons_inj h h',
    Delimited.append_cons_inj_right (bar_notMem_intText i) (bar_notMem_intText i'),
    intText_injective.eq_iff]

/-- The partial fingerprints of a payload are resolved to the digest of its fingerprint. -/
theorem partialFingerprint_payload {e : Entry} (h : e.fingerprint ≠ [])
    (entries : List Entry) :
    (e.payload entries).partialFingerprint = some (Sha256.hexdigest e.fingerprint) := by
  have hdigits : (str "0123456789abcdef").all (fun c => !Str.isSpace c) = true := by decide
  have hstrip : Str.strip e.fingerprint = e.fingerprint := Str.strip_eq_self fun c hc => by
    simpa using List.all_eq_true.mp hdigits c (Sha256.mem_hexdigest _ c hc)
  have hlookup : fingerprintOf [(lineHashV1Key, e.fingerprint)]
      (str "primaryLocationLineHash" ++ str "/v1") = e.fingerprint := by
    rw [fingerprintOf]
    change (List.lookup lineHashV1Key [(lineHashV1Key, e.fingerprint)]).getD [] = _
    rw [List.lookup_cons_self, Option.getD_some]
  have hmaterial : fingerprintMaterial [(lineHashV1Key, e.fingerprint)] = some e.fingerprint := by
    rw [fingerprintMaterial]
    simp only [hlookup, hstrip]
    exact if_pos h
  change resolvePartialFingerprints [(lineHashV1Key, e.fingerprint)] = _
  rw [resolvePartialFingerprints, if_neg (List.cons_ne_nil _ _), hmaterial, Option.map_some]

/-- The fingerprint of what a result comes back as. -/
theorem computeIngestFingerprint_payload {e : Entry} (h : e.fingerprint ≠ [])
    (entries : List Entry) (sourceName : Str) :
    computeIngestFingerprint (e.payload entries) sourceName =
      Sha256.hexdigest (str "vat:sarif:pfp:" ++ Sha256.hexdigest e.fingerprint ++ str ":" ++
        normalize sourceName) := by
  have hkey : Str.truthy (e.payload entries).stableRuleKey = false := rfl
  have hissue : Str.strip (Str.orEmpty (e.payload entries).sourceIssueId) = [] := rfl
  rw [computeIngestFingerprint, if_neg fun hopenscap => by simp [hkey] at hopenscap,
    defaultFingerprint, if_neg (not_not.mpr hissue), partialFingerprint_payload h]

/-- Results that come back are one finding exactly if they have one rule, one path, one line and
one source: neither the package nor the asset counts. -/
theorem computeIngestFingerprint_payload_eq_iff (hdigest : ∀ s, Sha256.hexdigest s ≠ [])
    {e e' : Entry} (hrid : '|' ∉ Str.strip (nameText e.rid))
    (hrid' : '|' ∉ Str.strip (nameText e'.rid)) (entries entries' : List Entry)
    (sourceName sourceName' : Str) :
    computeIngestFingerprint (e.payload entries) sourceName =
        computeIngestFingerprint (e'.payload entries') sourceName' ↔
      (Str.strip (nameText e.rid) = Str.strip (nameText e'.rid) ∧
        pathText e.uri = pathText e'.uri ∧ e.number = e'.number) ∧
      normalize sourceName = normalize sourceName' := by
  have hhex : ':' ∉ str "0123456789abcdef" := by decide
  have hcolon : ∀ s, ':' ∉ Sha256.hexdigest s := fun s h => hhex (Sha256.mem_hexdigest s _ h)
  have hsep : ∀ s, str ":" ++ s = ':' :: s := fun _ => rfl
  rw [computeIngestFingerprint_payload (hdigest _), computeIngestFingerprint_payload (hdigest _),
    Sha256.hexdigest_injective.eq_iff, List.append_assoc, List.append_assoc, List.append_assoc,
    List.append_assoc, List.append_cancel_left_eq, hsep, hsep,
    Delimited.append_cons_inj (hcolon _) (hcolon _), Sha256.hexdigest_injective.eq_iff,
    Entry.fingerprint, Entry.fingerprint, Sha256.hexdigest_injective.eq_iff,
    material_eq_iff hrid hrid']

end Reader

/-! ### Two packages -/

/-- A digest that is never empty. -/
@[reducible] def markedDigest : Sha256 where
  hexdigest s := '1' :: unaryHex s
  hexdigest_injective _ _ h := unaryHex_injective (List.cons.inj h).2
  mem_hexdigest s c hc := by
    rcases List.mem_cons.mp hc with rfl | hc
    · decide
    · exact unaryDigest.mem_hexdigest s c hc

section Sample

attribute [local instance] asciiUnicode noRepr noIntOfText digitText markedDigest

/-- A vulnerability of a package. -/
def sampleVulnerability (pkg : String) : Loaded :=
  .dict [(str "VulnerabilityID", .ofString "CVE-1"), (str "PkgName", .ofString pkg),
    (str "Severity", .ofString "CRITICAL")]

/-- A report with one vulnerability in two packages. -/
def sampleReport : Loaded :=
  .dict [(str "Results", .list [.dict [(str "Target", .ofString "app"),
    (str "Vulnerabilities", .list [sampleVulnerability "left", sampleVulnerability "right"])]])]

/-- The result of a package. -/
def sampleEntry (pkg : String) : Entry where
  rid := .ofString "CVE-1"
  short := str "CVE-1"
  message := .ofString "CVE-1"
  level := .error
  uri := .ofString "app"
  line := .int 1
  number := 1
  properties := some ⟨.ofString pkg, some (.text []), some []⟩
  rid_named := by decide
  rid_key := rfl
  short_length := by decide
  uri_named := by decide
  line_number := rfl

example : runsOf [(str "trivy", sampleReport)] (str "host") =
    [⟨str "Trivy", [sampleEntry "left", sampleEntry "right"]⟩] := by
  rfl

theorem computeIngestFingerprint_payload_eq_iff_packages :
    computeIngestFingerprint ((sampleEntry "left").payload [sampleEntry "left"]) (str "sarif") =
      computeIngestFingerprint ((sampleEntry "right").payload [sampleEntry "right"])
        (str "sarif") :=
  (computeIngestFingerprint_payload_eq_iff (fun _ => List.cons_ne_nil _ _)
    (e := sampleEntry "left") (by decide) (by decide) _ _ _ _).mpr ⟨⟨rfl, rfl, rfl⟩, rfl⟩

end Sample

end SarifOutput

end Vat
