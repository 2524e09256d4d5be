import Vat.Parsers.OpenscapOval

/-!
# OVAL Results documents

A well-formed document has the elements of the standard in their places, in the namespaces of the
standard or without any. What it reports are the definition results that are true and have an id;
what it says of one of them is in the metadata of the definition with that id.

In a document in the namespaces, the searches of the parser find what stands in these places. Of a
definition without a title nothing is read: the lookup fails.

Source: `backend/app/parsers/openscap_oval.py`, lines 25–136.

## Main definitions

* `Namespaces`, `OvalResults`: well-formed documents.
* `reported`, `own`, `ownReferences`, `ownSeverity`: what a document says.

## Main results

* `OvalResults.flatMap_definitionResults`: the definition results that the parser goes through.
* `OvalResults.getDefinitionMetadata_eq`, `OvalResults.readDefinition_eq`: what it reads of one.
-/

namespace Vat

namespace OvalParser

@[simp] theorem str_inj {a b : String} : str a = str b ↔ a = b := String.toList_inj

/-! ### Well-formed documents -/

/-- The namespaces of a document: those of the standard, or none. -/
inductive Namespaces
  | standard
  | plain
  deriving DecidableEq

namespace Namespaces

/-- A tag of the results. -/
def res : Namespaces → String → XmlTag
  | .standard, name => resTag name
  | .plain, name => ⟨none, str name⟩

/-- A tag of the definitions. -/
def dfn : Namespaces → String → XmlTag
  | .standard, name => defTag name
  | .plain, name => ⟨none, str name⟩

variable {N : Namespaces} {a b : String}

@[simp] theorem res_localName : (N.res a).localName = str a := by
  cases N <;> rfl

@[simp] theorem dfn_localName : (N.dfn a).localName = str a := by
  cases N <;> rfl

@[simp] theorem dfn_inj : N.dfn a = N.dfn b ↔ a = b := by
  refine ⟨fun h => ?_, congrArg N.dfn⟩
  have hname := congrArg XmlTag.localName h
  rwa [dfn_localName, dfn_localName, str_inj] at hname

@[simp] theorem dfn_eq_res_iff : N.dfn a = N.res b ↔ N = .plain ∧ a = b := by
  cases N with
  | standard =>
    refine iff_of_false (fun h => ?_) fun h => (by cases h.1)
    have hns : some defNs = some resNs := congrArg XmlTag.ns h
    exact absurd hns (by decide +kernel)
  | plain => simp [dfn, res]

@[simp] theorem res_eq_dfn_iff : N.res a = N.dfn b ↔ N = .plain ∧ a = b := by
  rw [eq_comm, dfn_eq_res_iff, eq_comm (a := b)]

end Namespaces

/-- A character of XML. -/
def xmlChar (c : Char) : Bool := c == '\t' || c == '\n' || c == '\r' || 32 ≤ c.toNat

/-- `ResultEnumeration`. -/
def resultValues : List Str :=
  ["true", "false", "unknown", "error", "not evaluated", "not applicable"].map str

variable (N : Namespaces) (root : Element)

/-- The systems of the results, in the order of the document. -/
def systems : List Element :=
  (root.childrenTagged (N.res "results")).flatMap (Element.childrenTagged (N.res "system"))

def containers : List Element :=
  (systems N root).flatMap (Element.childrenTagged (N.res "definitions"))

/-- The definition results of the systems. -/
def resultDefinitions : List Element :=
  (containers N root).flatMap (Element.childrenTagged (N.res "definition"))

/-- The definitions that the document carries. -/
def carriedDefinitions : List Element :=
  ((root.childrenTagged (N.dfn "oval_definitions")).flatMap
    (Element.childrenTagged (N.dfn "definitions"))).flatMap
      (Element.childrenTagged (N.dfn "definition"))

/-- The titles of a definition. -/
def titlesOf (definition : Element) : List Element :=
  (definition.childrenTagged (N.dfn "metadata")).flatMap (Element.childrenTagged (N.dfn "title"))

/-- The id of a definition result. -/
def resultId (result : Element) : Str :=
  Str.orEmpty (Str.orElse (result.get "definition_id") (result.get "id"))

/-- A well-formed document: the elements of the standard stand where it puts them, results have the
values of the standard, and ids without blanks around them. An id that a result has is that of a
definition and of nothing else, and of one definition only. -/
structure OvalResults : Prop where
  tag : root.tag = N.res "oval_results"
  plain : N = .plain → ∀ e ∈ root.iter, e.tag.ns = none
  chars : ∀ e ∈ root.iter, ∀ a ∈ e.attrs, a.2.all xmlChar
  results_placed : Element.OnlyAsChildren (N.res "results") root
  results_one : (root.childrenTagged (N.res "results")).length = 1
  systems_placed : ∀ r ∈ root.childrenTagged (N.res "results"),
    Element.OnlyAsChildren (N.res "system") r
  containers_placed : ∀ s ∈ systems N root, Element.OnlyAsChildren (N.res "definitions") s
  containers_le_one : ∀ s ∈ systems N root, (s.childrenTagged (N.res "definitions")).length ≤ 1
  definitions_placed : ∀ c ∈ containers N root, Element.OnlyAsChildren (N.res "definition") c
  values : ∀ r ∈ resultDefinitions N root, ∃ v ∈ resultValues, r.get "result" = some v
  ids : ∀ r ∈ resultDefinitions N root, Str.strip (resultId r) = resultId r
  carried_placed : Element.OnlyAsChildren (N.dfn "oval_definitions") root
  carried_le_one : (root.childrenTagged (N.dfn "oval_definitions")).length ≤ 1
  carried_ids : ∀ r ∈ resultDefinitions N root,
    ∀ defs ∈ root.childrenTagged (N.dfn "oval_definitions"), ∀ e ∈ defs.iter,
      e.get "id" = some (resultId r) → e ∈ carriedDefinitions N root
  carried_unique : ∀ d ∈ carriedDefinitions N root, ∀ d' ∈ carriedDefinitions N root,
    d.get "id" = d'.get "id" → d = d'
  metadata_placed : ∀ d ∈ carriedDefinitions N root, Element.OnlyAsChildren (N.dfn "metadata") d
  metadata_le_one : ∀ d ∈ carriedDefinitions N root,
    (d.childrenTagged (N.dfn "metadata")).length ≤ 1
  titles_placed : ∀ d ∈ carriedDefinitions N root,
    d.descendants.filter (fun e => e.tag.localName = (N.dfn "title").localName) = titlesOf N d
  references_placed : ∀ d ∈ carriedDefinitions N root,
    ∀ m ∈ d.childrenTagged (N.dfn "metadata"), Element.OnlyAsChildren (N.dfn "reference") m

/-! ### What a document says -/

/-- The definition results that are true and have an id. -/
def reported : List Element :=
  (resultDefinitions N root).filter fun r => r.get "result" = some (str "true") ∧ resultId r ≠ []

/-- The definition of a result. -/
def own (result : Element) : Option Element :=
  (carriedDefinitions N root).find? fun d => d.get "id" = some (resultId result)

/-- The references in the metadata of a definition. -/
def referencesOf (definition : Element) : List Element :=
  (definition.childrenTagged (N.dfn "metadata")).flatMap
    (Element.childrenTagged (N.dfn "reference"))

/-- The references in the metadata of a result. -/
def ownReferences (result : Element) : List Element :=
  ((own N root result).map (referencesOf N)).getD []

/-- The severity that the advisory in the metadata of a definition states. -/
def statedSeverity (definition : Element) : Option Str :=
  let advisories := (definition.childrenTagged (N.dfn "metadata")).flatMap fun m =>
    m.children.filter (hasLocalName (str "advisory"))
  let severities := advisories.flatMap fun a => a.children.filter (hasLocalName (str "severity"))
  (severities.map textOf).find? (· != [])

/-- The severity of a result, as `_map_severity` reads it: medium if none is stated. -/
def ownSeverity [Unicode] (result : Element) : Severity :=
  normalizeSeverity (mapSeverity ((own N root result).bind (statedSeverity N)))

/-! ### Lookups in a well-formed document -/

section Lookups

variable {N root} {d e r s : Element}

theorem systems_subset : systems N root ⊆ root.iter :=
  Element.flatMap_childrenTagged_subset fun _ => Element.mem_iter_of_mem_childrenTagged

theorem containers_subset : containers N root ⊆ root.iter :=
  Element.flatMap_childrenTagged_subset systems_subset

theorem resultDefinitions_subset : resultDefinitions N root ⊆ root.iter :=
  Element.flatMap_childrenTagged_subset containers_subset

/-- The definitions that are carried are below the elements for them. -/
theorem exists_of_mem_carried (hd : d ∈ carriedDefinitions N root) :
    ∃ defs ∈ root.childrenTagged (N.dfn "oval_definitions"), d ∈ defs.iter := by
  obtain ⟨c, hc, hd⟩ := List.mem_flatMap.mp hd
  obtain ⟨defs, hdefs, hc⟩ := List.mem_flatMap.mp hc
  exact ⟨defs, hdefs, Element.iter_subset defs c (Element.mem_iter_of_mem_childrenTagged hc)
    (Element.mem_iter_of_mem_childrenTagged hd)⟩

theorem carriedDefinitions_subset : carriedDefinitions N root ⊆ root.iter := by
  intro d hd
  obtain ⟨defs, hdefs, hd⟩ := exists_of_mem_carried hd
  exact Element.iter_subset root defs (Element.mem_iter_of_mem_childrenTagged hdefs) hd

theorem mem_of_own (h : own N root r = some d) : d ∈ carriedDefinitions N root :=
  List.mem_of_find?_eq_some h

/-- The references of a result are elements of the document. -/
theorem ownReferences_subset : ownReferences N root r ⊆ root.iter := by
  rw [ownReferences]
  cases hown : own N root r with
  | none => exact List.nil_subset _
  | some d =>
    refine Element.flatMap_childrenTagged_subset fun m hm => ?_
    exact Element.iter_subset root d (carriedDefinitions_subset (mem_of_own hown))
      (Element.mem_iter_of_mem_childrenTagged hm)

theorem tail_eq_nil {α : Type} {a : α} {l : List α} (h : (a :: l).length ≤ 1) : l = [] :=
  List.length_eq_zero_iff.mp (Nat.le_zero.mp (Nat.le_of_succ_le_succ h))

/-- A list with the elements that are looked for, of another one, gives the same. -/
theorem find?_eq_of_subset {α : Type} {l l' : List α} {p : α → Bool} (hsub : l' ⊆ l)
    (hmem : ∀ a ∈ l, p a → a ∈ l') (hunique : ∀ a ∈ l', ∀ b ∈ l', p a → p b → a = b) :
    l.find? p = l'.find? p := by
  cases hfind : l.find? p with
  | none =>
    refine (List.find?_eq_none.mpr fun a ha => ?_).symm
    exact List.find?_eq_none.mp hfind a (hsub ha)
  | some a =>
    have ha := hmem a (List.mem_of_find?_eq_some hfind) (List.find?_some hfind)
    cases hfind' : l'.find? p with
    | none => exact absurd (List.find?_some hfind) (List.find?_eq_none.mp hfind' a ha)
    | some b =>
      rw [hunique a ha b (List.mem_of_find?_eq_some hfind') (List.find?_some hfind)
        (List.find?_some hfind')]

namespace OvalResults

theorem exists_results (h : OvalResults N root) :
    ∃ results, root.childrenTagged (N.res "results") = [results] :=
  List.length_eq_one_iff.mp h.results_one

theorem definitionResults_eq (h : OvalResults .standard root) (hs : s ∈ systems .standard root) :
    definitionResults s = (s.childrenTagged (resTag "definitions")).flatMap
      (Element.childrenTagged (resTag "definition")) := by
  have hname : s.tag.localName ≠ (resTag "definitions").localName := by
    rw [show s.tag = resTag "system" from Element.tag_of_mem_flatMap hs]
    decide +kernel
  have hplaced : Element.OnlyAsChildren (resTag "definitions") s := h.containers_placed s hs
  have hone : (s.childrenTagged (resTag "definitions")).length ≤ 1 := h.containers_le_one s hs
  rw [definitionResults, lookupIn_eq hplaced hname]
  cases hcontainers : s.childrenTagged (resTag "definitions") with
  | nil => rfl
  | cons c cs =>
    obtain rfl : cs = [] := by
      rw [hcontainers] at hone
      exact tail_eq_nil hone
    have hc : c ∈ containers .standard root :=
      List.mem_flatMap.mpr ⟨s, hs, hcontainers ▸ List.mem_singleton_self c⟩
    rw [List.head?_cons, List.flatMap_singleton]
    exact (h.definitions_placed c hc).findall_eq

/-- The definition results that the parse goes through. -/
theorem flatMap_definitionResults (h : OvalResults .standard root) {results : Element}
    (hresults : root.childrenTagged (resTag "results") = [results]) :
    (systemsOf results).flatMap definitionResults = resultDefinitions .standard root := by
  have hmem : results ∈ root.childrenTagged (resTag "results") :=
    hresults ▸ List.mem_singleton_self results
  have hname : results.tag.localName ≠ str "system" := by
    rw [(Element.mem_childrenTagged_iff.mp hmem).2]
    decide +kernel
  have hsystems : systemsOf results = systems .standard root := by
    have hall : systems .standard root =
        [results].flatMap (Element.childrenTagged (resTag "system")) := hresults ▸ rfl
    rw [systemsOf_eq (h.systems_placed results hmem) hname, hall, List.flatMap_singleton]
  rw [hsystems, resultDefinitions, containers, List.flatMap_assoc]
  exact List.flatMap_congr fun s hs => h.definitionResults_eq hs

/-- A definition with a title is read; the lookup of a title that is missing fails. -/
theorem readDefinition_eq [UpperCase] (h : OvalResults .standard root)
    (hd : d ∈ carriedDefinitions .standard root) (definitionId : Str) :
    readDefinition definitionId d = if titlesOf .standard d = [] then .error .xpathSyntax
      else .ok (titleIn definitionId (titlesOf .standard d).head?,
        collectCves (referencesOf .standard d), str "medium") := by
  have htitle : d.find (defTag "title") = (titlesOf .standard d).head? := by
    rw [Element.find_eq_head?]
    exact congrArg List.head? (Element.findall_eq_of_filter_eq (h.titles_placed d hd)
      fun e he => Element.tag_of_mem_flatMap he)
  rw [readDefinition, lookupBelow, htitle]
  cases htitles : titlesOf .standard d with
  | nil => rfl
  | cons title titles =>
    have hone : (d.childrenTagged (defTag "metadata")).length ≤ 1 := h.metadata_le_one d hd
    obtain ⟨m, hm⟩ : ∃ m, d.childrenTagged (defTag "metadata") = [m] := by
      refine List.length_eq_one_iff.mp (le_antisymm hone (List.length_pos_iff.mpr fun hnil => ?_))
      have hnone : titlesOf .standard d =
          [].flatMap (Element.childrenTagged (defTag "title")) := hnil ▸ rfl
      cases htitles.symm.trans hnone
    have hmem : m ∈ d.childrenTagged (defTag "metadata") := hm ▸ List.mem_singleton_self m
    have hname : m.tag.localName ≠ str "reference" := by
      rw [(Element.mem_childrenTagged_iff.mp hmem).2]
      decide +kernel
    have hplaced : Element.OnlyAsChildren (defTag "metadata") d := h.metadata_placed d hd
    have hreferences : referencesOf .standard d =
        [m].flatMap (Element.childrenTagged (defTag "reference")) := hm ▸ rfl
    have hcves : collectCvesFromMetadata d = .ok (collectCves (referencesOf .standard d)) := by
      rw [collectCvesFromMetadata, lookupBelow, hplaced.find_eq, hm, hreferences,
        List.flatMap_singleton]
      exact congrArg Except.ok (collectCvesFromRefs_eq (h.references_placed d hd m hmem) hname)
    rw [hcves]
    rfl

/-- The search for a definition by its id finds the one of the result. -/
theorem find?_definition (h : OvalResults .standard root)
    (hr : r ∈ resultDefinitions .standard root) :
    ((ovalDefinitions root).bind fun defs =>
      defs.iter.find? fun e => e.get "id" = some (resultId r)) = own .standard root r := by
  have hname : root.tag.localName ≠ (defTag "oval_definitions").localName := by
    rw [h.tag]
    decide +kernel
  have hdefs : ovalDefinitions root = (root.childrenTagged (defTag "oval_definitions")).head? :=
    lookupIn_eq h.carried_placed hname
  have hone : (root.childrenTagged (defTag "oval_definitions")).length ≤ 1 := h.carried_le_one
  rw [hdefs]
  cases hcarried : root.childrenTagged (defTag "oval_definitions") with
  | nil =>
    have hnone : carriedDefinitions .standard root = [] := by
      refine List.eq_nil_iff_forall_not_mem.mpr fun d hd => ?_
      obtain ⟨defs, hmem, -⟩ := exists_of_mem_carried hd
      exact absurd (hcarried ▸ hmem) List.not_mem_nil
    rw [own, hnone]
    rfl
  | cons defs rest =>
    obtain rfl : rest = [] := by
      rw [hcarried] at hone
      exact tail_eq_nil hone
    have hmem : defs ∈ root.childrenTagged (defTag "oval_definitions") :=
      hcarried ▸ List.mem_singleton_self defs
    refine find?_eq_of_subset (fun d hd => ?_) (fun e he hid => ?_) fun a ha b hb hpa hpb => ?_
    · obtain ⟨defs', hmem', hd⟩ := exists_of_mem_carried hd
      have hmem' : defs' ∈ [defs] := hcarried ▸ hmem'
      rw [← List.mem_singleton.mp hmem']
      exact hd
    · exact h.carried_ids r hr defs hmem e he (of_decide_eq_true hid)
    · exact h.carried_unique a ha b hb
        ((of_decide_eq_true hpa).trans (of_decide_eq_true hpb).symm)

/-- The metadata of a definition result: those of the definition with its id. -/
theorem getDefinitionMetadata_eq [UpperCase] (h : OvalResults .standard root)
    (hr : r ∈ resultDefinitions .standard root) :
    getDefinitionMetadata root (resultId r) =
      match own .standard root r with
      | none => .ok (resultId r, [], str "medium")
      | some d => readDefinition (resultId r) d := by
  have hfound := h.find?_definition hr
  cases hown : own .standard root r with
  | none =>
    rw [hown] at hfound
    simp only [getDefinitionMetadata, hfound]
  | some d =>
    rw [hown] at hfound
    simp only [getDefinitionMetadata, hfound]

end OvalResults

/-! ### Texts in a well-formed document -/

theorem sanitizeText_of_xmlChar {s : Str} (h : s.all xmlChar) : sanitizeText s = s :=
  List.filter_eq_self.mpr (List.all_eq_true.mp h)

theorem xmlChar_strip {s : Str} (h : s.all xmlChar) : (Str.strip s).all xmlChar :=
  List.all_eq_true.mpr fun c hc => List.all_eq_true.mp h c (Str.strip_subset s hc)

namespace OvalResults

theorem xmlChar_get (h : OvalResults N root) (he : e ∈ root.iter) (name : String) :
    (Str.orEmpty (e.get name)).all xmlChar := by
  cases hget : e.get name with
  | none => rfl
  | some v =>
    obtain ⟨a, ha, -, rfl⟩ : ∃ a ∈ e.attrs, str name = a.1 ∧ a.2 = v := by
      obtain ⟨l₁, l₂, hattrs, -⟩ := List.lookup_eq_some_iff.mp hget
      exact ⟨(str name, v), hattrs ▸ List.mem_append_right _ List.mem_cons_self, rfl, rfl⟩
    exact h.chars e he a ha

theorem xmlChar_resultId (h : OvalResults N root) (hr : r ∈ root.iter) :
    (resultId r).all xmlChar := by
  rw [resultId, Str.orElse]
  split_ifs
  · exact h.xmlChar_get hr "definition_id"
  · exact h.xmlChar_get hr "id"

theorem xmlChar_refId (h : OvalResults N root) (he : e ∈ root.iter) :
    (refId e).all xmlChar := xmlChar_strip (h.xmlChar_get he "ref_id")

end OvalResults

end Lookups

end OvalParser

end Vat
