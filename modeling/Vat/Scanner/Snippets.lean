import Mathlib.Data.Char
import Vat.Nested.Value
import Vat.Python.Text

/-!
# Reports without snippets

What `--no-snippets` leaves of a report, what the normalization of a report keeps of it, and the
payloads in which `_push_report` sends one. Removing snippets goes into dictionaries and lists; of a
list of CycloneDX documents with labels, each document is the first entry of a tuple.

Source: `vat-local-scanner/vat_scanner/snippets.py`; `vat-local-scanner/vat_scanner/cli.py`, lines
98–239; `vat-local-scanner/vat_scanner/scanners/normalize.py`, lines 80–99 and 160–170.

## Main definitions

* `Obj`, `SnippetKey`, `stripSnippets`.
* `normalizeGrype`, `normalizeGitleaks`.
* `Payload`, `pushPayloads`.
* `Sendable`, `Withheld`: a report can be sent, and its payloads have no snippets.

## Main results

* `hasSnippet_normalizeGrype_iff`, `hasSnippet_normalizeGitleaks_iff`.
* `pushPayloads_stripSnippets`.
-/

namespace Vat.Snippets

open Nested

/-! ### Objects -/

/-- A value that is no container. -/
inductive Scalar
  | null
  | bool (b : Bool)
  | int (i : ℤ)
  | float (repr : Str)
  | text (s : Str)
deriving DecidableEq

abbrev Obj := Value Str Scalar

abbrev Fields := Dict Str Scalar

/-- A text as a value. -/
def text (s : Str) : Obj := .atom (.text s)

/-- `{}`. -/
def Fields.empty : Fields := ⟨[], fun _ => .atom .null⟩

/-- The truth of a value. -/
def truthy : Obj → Bool
  | .atom .null => false
  | .atom (.bool b) => b
  | .atom (.int i) => i ≠ 0
  | .atom (.float repr) => repr ≠ str "0.0" ∧ repr ≠ str "-0.0"
  | .atom (.text s) => s ≠ []
  | .dict keys _ => keys ≠ []
  | .list n _ | .tuple n _ => n ≠ 0

/-- `SNIPPET_KEYS`. -/
def snippetKeys : List Str :=
  [str "Code", str "code", str "Match", str "match", str "Secret", str "secret", str "Content",
    str "content", str "Snippet", str "snippet", str "MatchContent", str "Lines", str "lines",
    str "matched_content"]

def SnippetKey (k : Str) : Prop := k ∈ snippetKeys

instance SnippetKey.decidable : DecidablePred SnippetKey := fun k =>
  inferInstanceAs (Decidable (k ∈ snippetKeys))

/-- `strip_snippets`. -/
def stripSnippets (report : Obj) : Obj := report.strip SnippetKey

def HasSnippet (o : Obj) : Prop := o.HasKey SnippetKey

instance HasSnippet.decidable (o : Obj) : Decidable (HasSnippet o) :=
  inferInstanceAs (Decidable (o.HasKey SnippetKey))

/-! ### Normalization -/

/-- `_inject_scan_tag`. -/
def injectScanTag (report : Fields) (scanTag : Str) : Fields :=
  if scanTag = [] then report else report.set (str "_vat_scan_tag") (text scanTag)

/-- The keys that it sets. -/
def scanTagKeys (scanTag : Str) : List Str :=
  if scanTag = [] then [] else [str "_vat_scan_tag"]

/-- `normalize_gitleaks`. -/
def normalizeGitleaks (report : Obj) (assetName scanTag : Str) : Obj :=
  match report with
  | .list n item =>
    (injectScanTag ((Fields.empty.set (str "findings") (.list n item)).set (str "target")
      (text assetName)) scanTag).toValue
  | .dict keys value =>
    (injectScanTag ((⟨keys, value⟩ : Fields).set (str "target") (text assetName)) scanTag).toValue
  | report => report

/-- What the normalization keeps of a Gitleaks report. -/
def gitleaksKept (report : Obj) (scanTag : Str) : Obj :=
  match report with
  | .dict keys value =>
    ((⟨keys, value⟩ : Fields).without (str "target" :: scanTagKeys scanTag)).toValue
  | report => report

/-- `report.get("source") or {}`. -/
def grypeSource (report : Fields) : Obj :=
  ((report.get (str "source")).filter truthy).getD Fields.empty.toValue

/-- The source with its target written over. -/
def retarget (assetName : Str) : Obj → Obj
  | .dict keys value =>
    (((⟨keys, value⟩ : Fields).set (str "target") (text assetName)).set (str "userInput")
      (text assetName)).toValue
  | src => src

/-- `normalize_grype`, without a scan tag. -/
def normalizeGrype (report : Fields) (assetName : Str) : Obj :=
  (report.set (str "source") (retarget assetName (grypeSource report))).toValue

/-- The source without what is written over. -/
def untargeted : Obj → Obj
  | .dict keys value =>
    ((⟨keys, value⟩ : Fields).without [str "target", str "userInput"]).toValue
  | src => src

/-- What the normalization keeps of a Grype report. -/
def grypeKept (report : Fields) : Obj :=
  (report.set (str "source") (untargeted (grypeSource report))).toValue

section Normalization

variable {report : Obj} {fields : Fields} {assetName scanTag : Str} {ks : List Str}

/-- A text that is set under another key has no snippet. -/
theorem hasSnippet_set_text_iff {k : Str} (hk : ¬ SnippetKey k) {s : Str} :
    HasSnippet ((fields.set k (text s)).without ks).toValue ↔
      HasSnippet (fields.without (k :: ks)).toValue := by
  have htext : ¬ (text s).HasKey SnippetKey := id
  rw [HasSnippet, Dict.hasKey_set_without_iff]
  simp [hk, htext, HasSnippet]

theorem hasSnippet_injectScanTag_iff :
    HasSnippet (injectScanTag fields scanTag).toValue ↔
      HasSnippet (fields.without (scanTagKeys scanTag)).toValue := by
  rw [injectScanTag, scanTagKeys]
  split
  · exact Dict.hasKey_without_nil.symm
  · rw [HasSnippet, ← Dict.hasKey_without_nil]
    exact hasSnippet_set_text_iff (by decide)

/-- The snippets of a normalized Gitleaks report are those that it keeps. -/
theorem hasSnippet_normalizeGitleaks_iff :
    HasSnippet (normalizeGitleaks report assetName scanTag) ↔
      HasSnippet (gitleaksKept report scanTag) := by
  cases report with
  | atom a => rfl
  | tuple n item => rfl
  | dict keys value =>
    rw [normalizeGitleaks, gitleaksKept, hasSnippet_injectScanTag_iff]
    exact hasSnippet_set_text_iff (by decide)
  | list n item =>
    have hfindings : str "findings" ∉ str "target" :: scanTagKeys scanTag := by
      rw [scanTagKeys]
      split <;> decide
    have hkey : ¬ SnippetKey (str "findings") := by decide
    have hempty : ¬ (Fields.empty.without
        (str "findings" :: str "target" :: scanTagKeys scanTag)).toValue.HasKey SnippetKey := by
      simp [Dict.hasKey_toValue_iff, Fields.empty]
    rw [normalizeGitleaks, gitleaksKept, hasSnippet_injectScanTag_iff,
      hasSnippet_set_text_iff (by decide), HasSnippet, Dict.hasKey_set_without_iff,
      or_iff_left hempty, and_iff_right hfindings, or_iff_right hkey]
    · rfl
    · simp

theorem hasSnippet_set_iff {k : Str} (hk : ¬ SnippetKey k) {v : Obj} :
    HasSnippet (fields.set k v).toValue ↔
      HasSnippet v ∨ HasSnippet (fields.without [k]).toValue := by
  rw [HasSnippet, Dict.hasKey_set_iff, or_iff_right hk]
  rfl

theorem hasSnippet_retarget_iff {src : Obj} :
    HasSnippet (retarget assetName src) ↔ HasSnippet (untargeted src) := by
  cases src with
  | atom a => rfl
  | list n item => rfl
  | tuple n item => rfl
  | dict keys value =>
    rw [retarget, untargeted, HasSnippet, ← Dict.hasKey_without_nil]
    exact (hasSnippet_set_text_iff (by decide)).trans (hasSnippet_set_text_iff (by decide))

/-- The snippets of a normalized Grype report are those that it keeps. -/
theorem hasSnippet_normalizeGrype_iff :
    HasSnippet (normalizeGrype fields assetName) ↔ HasSnippet (grypeKept fields) := by
  have hsource : ¬ SnippetKey (str "source") := by decide
  rw [normalizeGrype, grypeKept, hasSnippet_set_iff hsource, hasSnippet_set_iff hsource,
    hasSnippet_retarget_iff]

end Normalization

/-! ### Payloads -/

/-- What is sent to VAT. -/
inductive Payload
  | json (o : Obj)
  | xml (content : Str)

/-- A payload has a snippet key, at any depth. -/
def Payload.HasSnippet : Payload → Prop
  | .json o => Snippets.HasSnippet o
  | .xml _ => False

/-- `_parse_tuple_item`: the document of an item. -/
def itemContent : Obj → Obj
  | .tuple n item => if 2 ≤ n then item 0 else .tuple n item
  | item => item

/-- The payload of an item of OpenSCAP results. -/
def xmlPayload (item : Obj) : Option Payload :=
  match itemContent item with
  | .atom (.text s) => if Str.strip s = [] then none else some (.xml s)
  | _ => none

/-- The payload of an item of CycloneDX documents. -/
def documentPayload (item : Obj) : Option Payload :=
  match itemContent item with
  | .dict keys value => some (.json (.dict keys value))
  | _ => none

/-- `len`; nothing where it raises. -/
def len : Obj → Option ℕ
  | .atom (.text s) => some s.length
  | .atom _ => none
  | .dict keys _ => some keys.length
  | .list n _ | .tuple n _ => some n

/-- `_TRIVY_RESULT_BATCH`. -/
def trivyResultBatch : ℕ := 20

/-- `results[start : start + _TRIVY_RESULT_BATCH]`; nothing where it raises. -/
def batch : Obj → Option (ℕ → Obj)
  | .atom (.text s) => some fun start => text ((s.drop start).take trivyResultBatch)
  | .list n item =>
    some fun start => .list (min trivyResultBatch (n - start)) fun i => item (start + i)
  | .tuple n item =>
    some fun start => .tuple (min trivyResultBatch (n - start)) fun i => item (start + i)
  | .atom _ | .dict _ _ => none

/-- `range(0, n, _TRIVY_RESULT_BATCH)`. -/
def batchStarts (n : ℕ) : List ℕ :=
  (List.range ((n + (trivyResultBatch - 1)) / trivyResultBatch)).map (· * trivyResultBatch)

/-- The payloads of a report that is no list of items: its results in batches. -/
def batchPayloads (report : Fields) : Option (List Payload) :=
  match (report.get (str "Results")).filter truthy with
  | none => some [.json report.toValue]
  | some results => do
    let n ← len results
    if trivyResultBatch < n then
      let slice ← batch results
      some ((batchStarts n).map fun start =>
        .json ((report.without [str "Results"]).set (str "Results") (slice start)).toValue)
    else some [.json report.toValue]

/-- The payloads of `_push_report`, in order, for as long as VAT accepts them; nothing if it
raises before the first. -/
def pushPayloads (parser : Str) (report : Obj) : Option (List Payload) :=
  match report with
  | .list n item =>
    if parser = str "openscap" ∨ parser = str "openscap_oval" then
      some (((List.range n).map item).filterMap xmlPayload)
    else if parser = str "cyclonedx" then
      some (((List.range n).map item).filterMap documentPayload)
    else some [.json (.list n item)]
  | .dict keys value => batchPayloads ⟨keys, value⟩
  | report => some [.json report]

/-- The result of a report can be cut into batches where they are needed. -/
def ResultsSendable : Obj → Prop
  | .atom (.text _) | .list _ _ | .tuple _ _ => True
  | .atom a => truthy (.atom a) = false
  | .dict keys _ => (keys.filter fun k => ¬ SnippetKey k).length ≤ trivyResultBatch

/-- `_push_report` does not raise on a report without its snippets. -/
def Sendable : Obj → Prop
  | .dict keys value => str "Results" ∈ keys → ResultsSendable (value (str "Results"))
  | _ => True

/-- A document of a list has no snippet where `strip_snippets` does not remove it. -/
def ItemWithheld : Obj → Prop
  | .tuple n item => 2 ≤ n → ∀ keys value, item 0 = .dict keys value → ¬ HasSnippet (item 0)
  | .dict keys value => ¬ (Value.dict keys value).HasHiddenKey SnippetKey
  | _ => True

/-- No payload of a report without its snippets has one. -/
def Withheld (parser : Str) (report : Obj) : Prop :=
  match report with
  | .list n item =>
    if parser = str "openscap" ∨ parser = str "openscap_oval" then True
    else if parser = str "cyclonedx" then ∀ i < n, ItemWithheld (item i)
    else ¬ (Value.list n item).HasHiddenKey SnippetKey
  | report => ¬ report.HasHiddenKey SnippetKey

section Push

variable {parser : Str} {report : Obj} {fields : Fields} {ps : List Payload}

/-- Every index is in one of the batches. -/
theorem exists_batch_iff {n : ℕ} {P : ℕ → Prop} :
    (∃ start ∈ batchStarts n, ∃ i < min trivyResultBatch (n - start), P (start + i)) ↔
      ∃ i < n, P i := by
  constructor
  · rintro ⟨start, -, i, hi, h⟩
    exact ⟨start + i, by omega, h⟩
  · rintro ⟨i, hi, h⟩
    refine ⟨i / trivyResultBatch * trivyResultBatch, ?_, i % trivyResultBatch, ?_, ?_⟩
    · refine List.mem_map.mpr ⟨i / trivyResultBatch, List.mem_range.mpr ?_, rfl⟩
      simp only [trivyResultBatch]
      omega
    · simp only [trivyResultBatch]
      omega
    · rwa [Nat.div_add_mod']

theorem hasSnippet_batch_iff {results : Obj} {slice : ℕ → Obj} {n : ℕ}
    (hslice : batch results = some slice) (hn : len results = some n) :
    (∃ start ∈ batchStarts n, HasSnippet (slice start)) ↔ HasSnippet results := by
  cases results with
  | dict keys value => simp [batch] at hslice
  | list m item =>
    cases hslice
    cases hn
    exact exists_batch_iff (P := fun i => HasSnippet (item i))
  | tuple m item =>
    cases hslice
    cases hn
    exact exists_batch_iff (P := fun i => HasSnippet (item i))
  | atom a =>
    cases a with
    | text s =>
      cases hslice
      exact ⟨fun ⟨_, _, h⟩ => h, False.elim⟩
    | _ => simp [batch] at hslice

/-- What is sent of a report has a snippet exactly if the report has one. -/
theorem exists_batchPayloads_iff (h : batchPayloads fields = some ps) :
    (∃ q ∈ ps, q.HasSnippet) ↔ HasSnippet fields.toValue := by
  have hwhole : (∃ q ∈ [Payload.json fields.toValue], q.HasSnippet) ↔
      HasSnippet fields.toValue := by
    simp [Payload.HasSnippet]
  rw [batchPayloads] at h
  cases hresults : (fields.get (str "Results")).filter truthy with
  | none =>
    rw [hresults] at h
    cases h
    exact hwhole
  | some results =>
    rw [hresults] at h
    obtain ⟨n, hn, h⟩ := Option.bind_eq_some_iff.mp h
    split at h
    · next hmany =>
      obtain ⟨slice, hslice, h⟩ := Option.bind_eq_some_iff.mp h
      cases h
      have hkey : ¬ SnippetKey (str "Results") := by decide
      obtain ⟨hget, -⟩ := Option.filter_eq_some_iff.mp hresults
      obtain ⟨hmem, hvalue⟩ := Option.ite_none_right_eq_some.mp hget
      have hone : ∀ start, HasSnippet ((fields.without [str "Results"]).set (str "Results")
          (slice start)).toValue ↔
            HasSnippet (slice start) ∨ HasSnippet (fields.without [str "Results"]).toValue := by
        intro start
        rw [hasSnippet_set_iff hkey, Dict.without_self]
      have hne : batchStarts n ≠ [] := by
        simp [batchStarts, trivyResultBatch]
        omega
      obtain ⟨start, hstart⟩ := List.exists_mem_of_ne_nil _ hne
      have hwholes : HasSnippet fields.toValue ↔
          HasSnippet results ∨ HasSnippet (fields.without [str "Results"]).toValue := by
        rw [HasSnippet, Dict.hasKey_iff_without hmem, or_iff_right hkey, Option.some.inj hvalue]
        rfl
      rw [hwholes, ← hasSnippet_batch_iff hslice hn]
      simp only [List.mem_map, exists_exists_and_eq_and, Payload.HasSnippet, hone]
      constructor
      · rintro ⟨start, hstart, h | h⟩
        · exact .inl ⟨start, hstart, h⟩
        · exact .inr h
      · rintro (⟨start, hstart, h⟩ | h)
        · exact ⟨start, hstart, .inl h⟩
        · exact ⟨start, hstart, .inr h⟩
    · cases h
      exact hwhole

/-- A value has a length, and can be cut into batches if there is more than one. -/
def Cuttable (results : Obj) : Prop :=
  ∃ n, len results = some n ∧ (trivyResultBatch < n → (batch results).isSome)

theorem batchPayloads_eq_none_iff :
    batchPayloads fields = none ↔
      ∃ results ∈ fields.get (str "Results"), truthy results = true ∧ ¬ Cuttable results := by
  rw [batchPayloads]
  cases hresults : (fields.get (str "Results")).filter truthy with
  | none =>
    refine iff_of_false (by simp) ?_
    rintro ⟨results, hget, htruthy, -⟩
    exact Option.filter_eq_none_iff.mp hresults results hget htruthy
  | some results =>
    obtain ⟨hget, htruthy⟩ := Option.filter_eq_some_iff.mp hresults
    have hall : (∃ results' ∈ fields.get (str "Results"), truthy results' = true ∧
        ¬ Cuttable results') ↔ ¬ Cuttable results := by
      rw [hget]
      simp [htruthy]
    rw [hall, Cuttable]
    dsimp only
    cases hn : len results with
    | none => simp
    | some n =>
      by_cases hmany : trivyResultBatch < n
      · cases hslice : batch results <;> simp [hmany]
      · simp [hmany]

theorem resultsSendable_iff {results : Obj} :
    ResultsSendable results ↔
      (truthy (stripSnippets results) = true → Cuttable (stripSnippets results)) := by
  cases results with
  | atom a =>
    cases a <;> simp [ResultsSendable, stripSnippets, Value.strip, Cuttable, len, batch]
  | list n item =>
    exact iff_of_true trivial fun _ => ⟨n, rfl, fun _ => rfl⟩
  | tuple n item =>
    exact iff_of_true trivial fun _ => ⟨n, rfl, fun _ => rfl⟩
  | dict keys value =>
    have hcut : Cuttable (stripSnippets (.dict keys value)) ↔
        (keys.filter fun k => ¬ SnippetKey k).length ≤ trivyResultBatch := by
      simp [Cuttable, stripSnippets, Value.strip, len, batch]
    rw [hcut, ResultsSendable]
    refine ⟨fun h _ => h, fun h => ?_⟩
    by_cases hempty : (keys.filter fun k => ¬ SnippetKey k) = []
    · rw [hempty]
      exact Nat.zero_le _
    · exact h (by simpa [truthy, stripSnippets, Value.strip] using hempty)

/-- `_push_report` raises on the reports that cannot be sent. -/
theorem pushPayloads_eq_none_iff :
    pushPayloads parser (stripSnippets report) = none ↔ ¬ Sendable report := by
  cases report with
  | atom a =>
    exact iff_of_false (by simp [stripSnippets, Value.strip, pushPayloads]) (by simp [Sendable])
  | tuple n item =>
    exact iff_of_false (by simp [stripSnippets, Value.strip, pushPayloads]) (by simp [Sendable])
  | list n item =>
    refine iff_of_false ?_ (by simp [Sendable])
    rw [stripSnippets, Value.strip, pushPayloads]
    split_ifs <;> simp
  | dict keys value =>
    have hkey : ¬ SnippetKey (str "Results") := by decide
    rw [stripSnippets, Value.strip, pushPayloads, batchPayloads_eq_none_iff, Sendable, Dict.get]
    by_cases hmem : str "Results" ∈ keys
    · rw [if_pos (List.mem_filter.mpr ⟨hmem, decide_eq_true hkey⟩), resultsSendable_iff]
      simp [hmem, stripSnippets]
    · have hnot : str "Results" ∉ keys.filter fun k => ¬ SnippetKey k := fun h =>
        hmem (List.mem_filter.mp h).1
      rw [if_neg hnot]
      simp [hmem]

theorem hasSnippet_documentPayload_iff {item : Obj} :
    (∃ q ∈ documentPayload (stripSnippets item), q.HasSnippet) ↔ ¬ ItemWithheld item := by
  cases item with
  | atom a =>
    exact iff_of_false (by simp [stripSnippets, Value.strip, documentPayload, itemContent])
      (by simp [ItemWithheld])
  | list n item =>
    exact iff_of_false (by simp [stripSnippets, Value.strip, documentPayload, itemContent])
      (by simp [ItemWithheld])
  | dict keys value =>
    rw [ItemWithheld, not_not, ← Value.hasKey_strip_iff]
    simp [stripSnippets, Value.strip, documentPayload, itemContent, Payload.HasSnippet, HasSnippet]
  | tuple n item =>
    rw [stripSnippets, Value.strip, documentPayload, itemContent, ItemWithheld]
    by_cases hn : 2 ≤ n
    · rw [if_pos hn]
      cases hitem : item 0 <;> simp [hn, Payload.HasSnippet]
    · rw [if_neg hn]
      simp [hn]

theorem not_hasSnippet_xmlPayload {item : Obj} : ∀ q ∈ xmlPayload item, ¬ q.HasSnippet := by
  intro q hq
  rw [xmlPayload] at hq
  split at hq
  · obtain ⟨-, heq⟩ := Option.ite_none_left_eq_some.mp hq
    rw [← Option.some.inj heq]
    exact id
  · simp at hq

/-- The payloads of a report without its snippets have none exactly if they are withheld. -/
theorem forall_pushPayloads_iff (h : pushPayloads parser (stripSnippets report) = some ps) :
    (∀ q ∈ ps, ¬ q.HasSnippet) ↔ Withheld parser report := by
  have hwhole : (∀ q ∈ [Payload.json (stripSnippets report)], ¬ q.HasSnippet) ↔
      ¬ report.HasHiddenKey SnippetKey := by
    rw [← Value.hasKey_strip_iff]
    simp [Payload.HasSnippet, HasSnippet, stripSnippets]
  cases report with
  | atom a =>
    cases h
    exact hwhole
  | tuple n item =>
    cases h
    exact hwhole
  | dict keys value =>
    have hnone : (∀ q ∈ ps, ¬ q.HasSnippet) ↔ ¬ ∃ q ∈ ps, q.HasSnippet := by simp
    have hstrip : HasSnippet (stripSnippets (.dict keys value)) ↔
        (Value.dict keys value).HasHiddenKey SnippetKey := Value.hasKey_strip_iff
    rw [hnone, exists_batchPayloads_iff h]
    exact not_congr hstrip
  | list n item =>
    rw [stripSnippets, Value.strip, pushPayloads] at h
    rw [Withheld]
    split at h
    · next hxml =>
      cases h
      rw [if_pos hxml]
      refine iff_of_true (fun q hq => ?_) trivial
      obtain ⟨item', -, hq⟩ := List.mem_filterMap.mp hq
      exact not_hasSnippet_xmlPayload q hq
    · next hxml =>
      rw [if_neg hxml]
      split at h
      · next hdocuments =>
        cases h
        rw [if_pos hdocuments]
        have hitem : ∀ i, (∀ q ∈ documentPayload (stripSnippets (item i)), ¬ q.HasSnippet) ↔
            ItemWithheld (item i) := by
          intro i
          rw [← not_not (a := ItemWithheld (item i)), ← hasSnippet_documentPayload_iff]
          simp
        simp only [← hitem, List.mem_filterMap, List.mem_map, List.mem_range]
        constructor
        · intro hall i hi q hq
          exact hall q ⟨stripSnippets (item i), ⟨i, hi, rfl⟩, hq⟩
        · rintro hall q ⟨_, ⟨i, hi, rfl⟩, hq⟩
          exact hall i hi q hq
      · next hother =>
        cases h
        rw [if_neg hother]
        exact hwhole

end Push

end Vat.Snippets
