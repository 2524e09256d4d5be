import Mathlib.Data.List.Infix
import Vat.Python.Text

/-!
# XML trees

The elements that `xml.etree.ElementTree` reads, and the searches for elements with a tag. `iter`
goes through an element and all below it in the order of the document; `find` and `findall` with
`.//tag` leave the element itself out.

## Main definitions

* `XmlTag`, `Element`, `Element.iter`, `Element.descendants`, `Element.itertext`.
* `Element.find`, `Element.findall`, `Element.childrenTagged`.
* `Element.OnlyAsChildren`: the elements of a name below an element are children of it.

## Main results

* `Element.iter_subset`: what is below a descendant.
* `Element.OnlyAsChildren.findall_eq`: then a search gives these children.
-/

namespace Vat

/-- A tag: a namespace, if there is one, and a local name. -/
structure XmlTag where
  ns : Option Str
  localName : Str
  deriving DecidableEq

/-- `el.tag`. -/
def XmlTag.text (t : XmlTag) : Str :=
  match t.ns with
  | none => t.localName
  | some ns => str "\x7b" ++ ns ++ str "\x7d" ++ t.localName

/-- An element: its tag and attributes, the text before its first child, its children, and the text
after its end. -/
inductive Element
  | node (tag : XmlTag) (attrs : List (Str × Str)) (text : Str) (children : List Element)
    (tail : Str)

namespace Element

def tag : Element → XmlTag
  | .node tag _ _ _ _ => tag

def attrs : Element → List (Str × Str)
  | .node _ attrs _ _ _ => attrs

def children : Element → List Element
  | .node _ _ _ children _ => children

def tail : Element → Str
  | .node _ _ _ _ tail => tail

/-- `el.get(name)`. -/
def get (e : Element) (name : String) : Option Str := e.attrs.lookup (str name)

mutual

/-- `el.iter()`. -/
def iter : Element → List Element
  | .node tag attrs text children tail =>
    .node tag attrs text children tail :: iterAll children

/-- The elements of a list and all below them. -/
def iterAll : List Element → List Element
  | [] => []
  | e :: es => iter e ++ iterAll es

end

mutual

/-- `"".join(el.itertext())`. -/
def itertext : Element → Str
  | .node _ _ text children _ => text ++ itertextAll children

/-- The texts of children, each with the text after it. -/
def itertextAll : List Element → Str
  | [] => []
  | .node tag attrs text children tail :: es =>
    itertext (.node tag attrs text children tail) ++ tail ++ itertextAll es

end

/-- All below an element, in the order of the document. -/
def descendants (e : Element) : List Element := iterAll e.children

/-- `el.findall(".//tag")`. -/
def findall (t : XmlTag) (e : Element) : List Element := e.descendants.filter fun d => d.tag = t

/-- `el.find(".//tag")`. -/
def find (t : XmlTag) (e : Element) : Option Element := e.descendants.find? fun d => d.tag = t

/-- The children with a tag. -/
def childrenTagged (t : XmlTag) (e : Element) : List Element :=
  e.children.filter fun d => d.tag = t

/-- The elements below `e` with the local name of `t` are children of `e` with the tag `t`. -/
def OnlyAsChildren (t : XmlTag) (e : Element) : Prop :=
  e.descendants.filter (fun d => d.tag.localName = t.localName) = e.childrenTagged t

section Node

variable (tag : XmlTag) (attrs : List (Str × Str)) (text tail : Str) (es : List Element)

@[simp] theorem tag_node : (node tag attrs text es tail).tag = tag := rfl

@[simp] theorem attrs_node : (node tag attrs text es tail).attrs = attrs := rfl

@[simp] theorem iter_node :
    (node tag attrs text es tail).iter = node tag attrs text es tail :: iterAll es := by
  rw [iter]

@[simp] theorem iterAll_nil : iterAll [] = [] := by
  rw [iterAll]

@[simp] theorem iterAll_cons (e : Element) : iterAll (e :: es) = e.iter ++ iterAll es := by
  rw [iterAll]

@[simp] theorem descendants_node :
    (node tag attrs text es tail).descendants = iterAll es := rfl

@[simp] theorem childrenTagged_node (t : XmlTag) :
    (node tag attrs text es tail).childrenTagged t = es.filter fun d => d.tag = t := rfl

end Node

variable {t : XmlTag} {e d : Element}

theorem iter_eq (e : Element) : e.iter = e :: e.descendants := by
  cases e with
  | node tag attrs text children tail => rw [iter_node, descendants_node]

theorem mem_iter_self (e : Element) : e ∈ e.iter := by
  rw [iter_eq]
  exact List.mem_cons_self

theorem mem_iter_of_mem_descendants (h : d ∈ e.descendants) : d ∈ e.iter := by
  rw [iter_eq]
  exact List.mem_cons_of_mem e h

theorem find_eq_head? (t : XmlTag) (e : Element) : e.find t = (e.findall t).head? :=
  (List.head?_filter ..).symm

theorem mem_findall_iff : d ∈ e.findall t ↔ d ∈ e.descendants ∧ d.tag = t := by
  rw [findall, List.mem_filter, decide_eq_true_eq]

mutual

/-- What is below an element of a tree is in the tree. -/
theorem iter_subset : ∀ e d : Element, d ∈ e.iter → d.iter ⊆ e.iter
  | .node tag attrs text children tail, d, h => by
    rw [iter_node, List.mem_cons] at h
    rcases h with rfl | h
    · exact List.Subset.refl _
    · rw [iter_node]
      exact List.subset_cons_of_subset _ (iterAll_subset children d h)

theorem iterAll_subset : ∀ (es : List Element) (d : Element), d ∈ iterAll es →
    d.iter ⊆ iterAll es
  | [], d, h => by
    rw [iterAll_nil] at h
    cases h
  | e :: es, d, h => by
    rw [iterAll_cons, List.mem_append] at h
    rw [iterAll_cons]
    rcases h with h | h
    · exact List.subset_append_of_subset_left _ (iter_subset e d h)
    · exact List.subset_append_of_subset_right _ (iterAll_subset es d h)

end

/-- What is below an element below another one. -/
theorem descendants_subset (h : d ∈ e.iter) : d.descendants ⊆ e.iter := fun _ hd =>
  iter_subset e d h (mem_iter_of_mem_descendants hd)

theorem mem_iterAll_of_mem {es : List Element} (h : d ∈ es) : d ∈ iterAll es := by
  induction es with
  | nil => cases h
  | cons e es ih =>
    rw [iterAll_cons, List.mem_append]
    rcases List.mem_cons.mp h with rfl | h
    · exact .inl (mem_iter_self d)
    · exact .inr (ih h)

theorem mem_descendants_of_mem_children (h : d ∈ e.children) : d ∈ e.descendants :=
  mem_iterAll_of_mem h

theorem mem_childrenTagged_iff : d ∈ e.childrenTagged t ↔ d ∈ e.children ∧ d.tag = t := by
  rw [childrenTagged, List.mem_filter, decide_eq_true_eq]

theorem mem_iter_of_mem_childrenTagged (h : d ∈ e.childrenTagged t) : d ∈ e.iter :=
  mem_iter_of_mem_descendants (mem_descendants_of_mem_children (mem_childrenTagged_iff.mp h).1)

theorem flatMap_childrenTagged_subset {l : List Element} (h : l ⊆ e.iter) :
    l.flatMap (childrenTagged t) ⊆ e.iter := by
  intro d hd
  obtain ⟨c, hc, hd⟩ := List.mem_flatMap.mp hd
  exact iter_subset e c (h hc) (mem_iter_of_mem_childrenTagged hd)

theorem tag_of_mem_flatMap {l : List Element} (h : d ∈ l.flatMap (childrenTagged t)) :
    d.tag = t := by
  obtain ⟨c, -, hd⟩ := List.mem_flatMap.mp h
  exact (mem_childrenTagged_iff.mp hd).2

/-- A search gives the elements of its local name, where these have its tag. -/
theorem findall_eq_of_filter_eq {l : List Element}
    (h : e.descendants.filter (fun d => d.tag.localName = t.localName) = l)
    (htag : ∀ d ∈ l, d.tag = t) : e.findall t = l := by
  have hsub : e.descendants.filter (fun d => d.tag = t) =
      (e.descendants.filter fun d => d.tag.localName = t.localName).filter fun d => d.tag = t := by
    rw [List.filter_filter]
    refine List.filter_congr fun d _ => ?_
    by_cases hd : d.tag = t
    · simp [hd]
    · simp [hd]
  rw [findall, hsub, h]
  exact List.filter_eq_self.mpr fun d hd => decide_eq_true (htag d hd)

namespace OnlyAsChildren

/-- A search gives the children. -/
theorem findall_eq (h : OnlyAsChildren t e) : e.findall t = e.childrenTagged t :=
  findall_eq_of_filter_eq h fun _ hd => (mem_childrenTagged_iff.mp hd).2

theorem find_eq (h : OnlyAsChildren t e) : e.find t = (e.childrenTagged t).head? := by
  rw [find_eq_head?, h.findall_eq]

end OnlyAsChildren

end Element

end Vat
