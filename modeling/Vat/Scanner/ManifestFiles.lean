import Mathlib.Data.List.Forall2
import Vat.Ingest.Fingerprint
import Vat.Python.Dynamic
import Vat.Python.Pattern

/-!
# The files of Kubernetes manifests

The scanner writes the manifest of every object of the inventory to a file of its own directory, and
the file is to tell the findings of different objects apart. Its name is the key of the object in
lower case, with a hyphen for every character that is neither a letter nor a digit, and without
hyphens at its ends. So the ConfigMaps `a.b` and `a-b` of a namespace have one file. Whatever else
is skipped or fails, objects have files of their own exactly if no two of them have keys that are
the same up to such characters (`own_files_iff`).

Source: `vat-local-scanner/vat_scanner/cli.py`, lines 1425–1477 and 2493–2593.

## Main definitions

* `K8s.inventoryItemKey`, `K8s.inventoryItemSignature`, `K8s.inventoryAssetAndTag`,
  `K8s.safeManifestFilename`: what the scanner reads of an item.
* `K8s.scanItem`: one turn of the loop.
* `K8s.OwnFiles`: no file has the manifests of two objects.
* `K8s.SameUpToMarks`: texts that differ in marks only.

## Main results

* `K8s.safeManifestFilename_eq_iff`: when two items get one file name.
* `K8s.own_files_iff`.
-/

namespace Vat.K8s

open Transition

section Scan

variable [Unicode] [CharTables] [ReprText] [Sha256]

/-! ### What is read of an item -/

/-- `str(item.get(k) or "")`. -/
def itemText (item : Loaded) (k : String) : Str := ((item.member k).or (.ofString "")).pyStr

/-- `_k8s_inventory_item_key`. -/
def inventoryItemKey (item : Loaded) : Str :=
  let ns := (itemText item "namespace").strip
  let kind := (itemText item "kind").strip
  let name := (itemText item "name").strip
  if ns ≠ [] then ns ++ str "/" ++ kind ++ str "/" ++ name
  else str "cluster/" ++ kind ++ str "/" ++ name

/-- `_k8s_inventory_item_signature`. -/
def inventoryItemSignature (item : Loaded) : Str :=
  (itemText item "resourceVersion").strip ++ str "|" ++ Sha256.hexdigest (itemText item "manifest")

def rbacKinds : List Str :=
  [str "role", str "rolebinding", str "clusterrole", str "clusterrolebinding"]

/-- `_k8s_inventory_asset_and_tag`: none if the item has no kind or no name. -/
def inventoryAssetAndTag (item : Loaded) (clusterName : Str) : Option (Str × Str) :=
  let kind := (itemText item "kind").strip
  let name := (itemText item "name").strip
  let ns := (itemText item "namespace").strip
  if kind ≠ [] ∧ name ≠ [] then
    let named := (if clusterName = [] then str "cluster" else clusterName).strip
    let cluster := if named = [] then str "cluster" else named
    let nsPart := if ns = [] then str "cluster" else ns
    some (str "k8s/" ++ cluster ++ str "/" ++ nsPart,
      if Unicode.lower kind ∈ rbacKinds then str "rbac" else str "k8s-config")
  else none

/-- A hyphen for a character that is neither a letter nor a digit. -/
def hyphenate (c : Char) : Char := if isAlnum c then c else '-'

/-- `_safe_k8s_manifest_filename`. -/
def safeManifestFilename (item : Loaded) : Str :=
  let name := Str.stripWhile (· == '-') ((Unicode.lower (inventoryItemKey item)).map hyphenate)
  if name = [] then str "object" else name

/-! ### The scan -/

/-- An object of the cluster. -/
structure Object where
  kind : Str
  ns : Str
  name : Str
  deriving DecidableEq

def objectOf (item : Loaded) : Object where
  kind := (itemText item "kind").strip
  ns := (itemText item "namespace").strip
  name := (itemText item "name").strip

/-- A manifest that is written: its directory and file under the temporary directory, the object,
and the text. -/
structure Write where
  path : Str × Str
  object : Object
  text : Str

/-- How the turn of an object ends once its manifest is written: its reports are ingested, or a tool
or VAT fails, after which the scan goes on or, with `--fail-on-error`, ends. -/
inductive Outcome
  | scanned
  | failed
  | stopped

/-- The signatures of the objects scanned so far, the files written, and whether the scan has
ended. -/
structure Progress where
  objects : Str → Option Str
  writes : List Write
  ended : Bool

/-- The file of an item. -/
def writeOf (item : Loaded) : Write where
  path := (safeManifestFilename item, safeManifestFilename item ++ str ".yaml")
  object := objectOf item
  text := (itemText item "manifest").strip ++ str "\n"

/-- One turn of the loop of `cmd_scan_k8s_inventory`. -/
def scanItem (clusterName : Str) (fullRescan : Bool) (s : Progress) (turn : Loaded × Outcome) :
    Progress :=
  let item := turn.1
  if s.ended ∨ item.isDict = false ∨ inventoryAssetAndTag item clusterName = none then s
  else if fullRescan = false ∧
      s.objects (inventoryItemKey item) = some (inventoryItemSignature item) then s
  else if (itemText item "manifest").strip = [] then s
  else
    let written := { s with writes := s.writes ++ [writeOf item] }
    match turn.2 with
    | .scanned =>
      { written with
        objects := Function.update s.objects (inventoryItemKey item)
          (some (inventoryItemSignature item)) }
    | .failed => written
    | .stopped => { written with ended := true }

/-- The files that a scan writes. -/
def scanWrites (clusterName : Str) (fullRescan : Bool) (objects : Str → Option Str)
    (turns : List (Loaded × Outcome)) : List Write :=
  (turns.foldl (scanItem clusterName fullRescan) ⟨objects, [], false⟩).writes

end Scan

/-- What a file holds after some writes: the last of them. -/
def lastWrite (writes : List Write) (path : Str × Str) : Option Write :=
  writes.reverse.find? fun w => decide (w.path = path)

/-- Different objects are written to different files, no manifest is overwritten by that of another
object, and a file tells the object that it came from. -/
structure OwnFiles (writes : List Write) : Prop where
  distinct : ∀ w ∈ writes, ∀ w' ∈ writes, w.object ≠ w'.object → w.path ≠ w'.path
  kept : ∀ w ∈ writes, ∃ w', lastWrite writes w.path = some w' ∧ w'.object = w.object
  traced : ∃ origin : Str × Str → Option Object, ∀ w ∈ writes, origin w.path = some w.object

/-- Files that are different for different objects are their own. -/
theorem ownFiles_of_distinct {writes : List Write}
    (h : ∀ w ∈ writes, ∀ w' ∈ writes, w.object ≠ w'.object → w.path ≠ w'.path) :
    OwnFiles writes := by
  have hkept : ∀ w ∈ writes, ∃ w', lastWrite writes w.path = some w' ∧ w'.object = w.object := by
    intro w hw
    cases hl : lastWrite writes w.path with
    | none =>
      have hnone := List.find?_eq_none.mp hl w (List.mem_reverse.mpr hw)
      simp at hnone
    | some w' =>
      rw [lastWrite] at hl
      have hpath : w'.path = w.path := by simpa using List.find?_some hl
      have hmem : w' ∈ writes := List.mem_reverse.mp (List.mem_of_find?_eq_some hl)
      refine ⟨w', rfl, ?_⟩
      by_contra hne
      exact h w' hmem w hw hne hpath
  refine ⟨h, hkept, fun path => (lastWrite writes path).map Write.object, fun w hw => ?_⟩
  obtain ⟨w', hl, hobject⟩ := hkept w hw
  dsimp only
  rw [hl, Option.map_some, hobject]

/-! ### When two names agree -/

section Names

variable [CharTables]

/-- Texts that agree at every place, or have a character there that is neither a letter nor a
digit. -/
def SameUpToMarks (a b : Str) : Prop :=
  List.Forall₂ (fun x y => x = y ∨ isAlnum x = false ∧ isAlnum y = false) a b

/-- A key in lower case without marks at its ends; `object` if nothing else is left. -/
def keyCore [Unicode] (key : Str) : Str :=
  let core := Str.stripWhile (fun c => !isAlnum c) (Unicode.lower key)
  if core = [] then str "object" else core

theorem isAlnum_hyphen : isAlnum '-' = false := by
  rw [isAlnum, CharTables.isWord_of_ascii '-' (by decide)]
  decide

theorem hyphenate_eq_hyphen_iff (c : Char) : (hyphenate c == '-') = !isAlnum c := by
  rw [hyphenate]
  by_cases hc : isAlnum c = true
  · have hne : c ≠ '-' := by
      rintro rfl
      rw [isAlnum_hyphen] at hc
      cases hc
    simp [hc, hne]
  · simp [hc]

theorem hyphenate_eq_iff (x y : Char) :
    hyphenate x = hyphenate y ↔ x = y ∨ isAlnum x = false ∧ isAlnum y = false := by
  have hne : ∀ c, isAlnum c = true → c ≠ '-' := by
    rintro c hc rfl
    rw [isAlnum_hyphen] at hc
    cases hc
  rw [hyphenate, hyphenate]
  cases hx : isAlnum x <;> cases hy : isAlnum y
  · simp
  · have hxy : x ≠ y := fun heq => by simp [heq, hy] at hx
    simp [hxy, (hne y hy).symm]
  · have hxy : x ≠ y := fun heq => by simp [heq, hy] at hx
    simp [hxy, hne x hx]
  · simp

theorem map_hyphenate_eq_iff (a b : Str) :
    a.map hyphenate = b.map hyphenate ↔ SameUpToMarks a b := by
  rw [SameUpToMarks, ← List.forall₂_eq_eq_eq, List.forall₂_map_left_iff,
    List.forall₂_map_right_iff]
  simp only [hyphenate_eq_iff]

theorem map_hyphenate_object : (str "object").map hyphenate = str "object" := by
  have halnum : ∀ c ∈ str "object", isAlnum c = true := by
    intro c hc
    have hall : ((str "object").all fun c =>
        decide (c.toNat < 128 ∧ (c.isAlphanum || c == '_') && c != '_')) = true := by
      decide
    have hascii := of_decide_eq_true (List.all_eq_true.mp hall c hc)
    rw [isAlnum, CharTables.isWord_of_ascii c hascii.1]
    exact hascii.2
  refine (List.map_congr_left fun c hc => ?_).trans (List.map_id _)
  rw [hyphenate, if_pos (halnum c hc)]
  rfl

theorem safeManifestFilename_eq [Unicode] [ReprText] (item : Loaded) :
    safeManifestFilename item = (keyCore (inventoryItemKey item)).map hyphenate := by
  rw [safeManifestFilename, keyCore, Str.stripWhile_map_of hyphenate_eq_hyphen_iff]
  simp only [List.map_eq_nil_iff]
  split
  · exact map_hyphenate_object.symm
  · rfl

/-- Two items get one file name exactly if their keys are the same up to marks. -/
theorem safeManifestFilename_eq_iff [Unicode] [ReprText] (i j : Loaded) :
    safeManifestFilename i = safeManifestFilename j ↔
      SameUpToMarks (keyCore (inventoryItemKey i)) (keyCore (inventoryItemKey j)) := by
  rw [safeManifestFilename_eq, safeManifestFilename_eq, map_hyphenate_eq_iff]

end Names

/-! ### The files of a scan -/

section Files

variable [Unicode] [CharTables] [ReprText] [Sha256]

/-- An item with a manifest of an object. -/
structure Exported (item : Loaded) : Prop where
  isDict : item.isDict
  kind : (objectOf item).kind ≠ []
  name : (objectOf item).name ≠ []
  manifest : (itemText item "manifest").strip ≠ []

omit [CharTables] [Sha256] in
theorem inventoryAssetAndTag_eq_none_iff (item : Loaded) (clusterName : Str) :
    inventoryAssetAndTag item clusterName = none ↔
      ¬ ((objectOf item).kind ≠ [] ∧ (objectOf item).name ≠ []) := by
  rw [inventoryAssetAndTag]
  dsimp only
  split
  · next h => exact ⟨fun hnone => (Option.some_ne_none _ hnone).elim, fun hnot => absurd h hnot⟩
  · next h => exact ⟨fun _ => h, fun _ => rfl⟩

/-- A turn writes nothing, or the file of an item with a manifest. -/
theorem scanItem_writes (clusterName : Str) (fullRescan : Bool) (s : Progress)
    (turn : Loaded × Outcome) :
    (scanItem clusterName fullRescan s turn).writes = s.writes ∨
      Exported turn.1 ∧
        (scanItem clusterName fullRescan s turn).writes = s.writes ++ [writeOf turn.1] := by
  rw [scanItem]
  dsimp only
  split
  · exact .inl rfl
  next hitem =>
  split
  · exact .inl rfl
  split
  · exact .inl rfl
  next hmanifest =>
  obtain ⟨-, hdict, hasset⟩ : ¬ s.ended = true ∧ ¬ turn.1.isDict = false ∧
      ¬ inventoryAssetAndTag turn.1 clusterName = none := by
    simpa only [not_or] using hitem
  rw [inventoryAssetAndTag_eq_none_iff, not_not] at hasset
  refine .inr ⟨⟨by simpa using hdict, hasset.1, hasset.2, hmanifest⟩, ?_⟩
  cases turn.2 <;> rfl

theorem mem_foldl_scanItem {clusterName : Str} {fullRescan : Bool} {turns : List (Loaded × Outcome)}
    {s : Progress} {w : Write}
    (hw : w ∈ (turns.foldl (scanItem clusterName fullRescan) s).writes) :
    w ∈ s.writes ∨ ∃ item ∈ turns.map Prod.fst, Exported item ∧ w = writeOf item := by
  induction turns generalizing s with
  | nil => exact .inl hw
  | cons turn turns ih =>
    rcases ih hw with hw | ⟨item, hitem, hex⟩
    · rcases scanItem_writes clusterName fullRescan s turn with heq | ⟨hex, heq⟩
      · exact .inl (heq ▸ hw)
      · rw [heq, List.mem_append, List.mem_singleton] at hw
        exact hw.imp_right fun hw => ⟨turn.1, List.mem_cons_self, hex, hw⟩
    · exact .inr ⟨item, List.mem_cons_of_mem _ hitem, hex⟩

/-- A scan writes the files of items with a manifest only. -/
theorem mem_scanWrites {clusterName : Str} {fullRescan : Bool} {objects : Str → Option Str}
    {turns : List (Loaded × Outcome)} {w : Write}
    (hw : w ∈ scanWrites clusterName fullRescan objects turns) :
    ∃ item ∈ turns.map Prod.fst, Exported item ∧ w = writeOf item :=
  (mem_foldl_scanItem hw).resolve_left List.not_mem_nil

theorem scanItem_full (clusterName : Str) {s : Progress} (hs : s.ended = false) (item : Loaded) :
    (scanItem clusterName true s (item, .scanned)).ended = false ∧
      s.writes ⊆ (scanItem clusterName true s (item, .scanned)).writes ∧
      (Exported item → writeOf item ∈ (scanItem clusterName true s (item, .scanned)).writes) := by
  rw [scanItem]
  dsimp only
  split
  · next hitem =>
    refine ⟨hs, List.Subset.refl _, fun hex => ?_⟩
    rw [inventoryAssetAndTag_eq_none_iff, hs, hex.isDict] at hitem
    simp [hex.kind, hex.name] at hitem
  rw [if_neg (by simp)]
  split
  · next hmanifest => exact ⟨hs, List.Subset.refl _, fun hex => absurd hmanifest hex.manifest⟩
  · exact ⟨hs, List.subset_append_left _ _, fun _ => by simp⟩

/-- A full scan in which nothing fails writes the files of all items with a manifest. -/
theorem writeOf_mem_scanWrites (clusterName : Str) (objects : Str → Option Str)
    {items : List Loaded} {item : Loaded} (hitem : item ∈ items) (hex : Exported item) :
    writeOf item ∈ scanWrites clusterName true objects (items.map fun i => (i, Outcome.scanned)) := by
  have hrun : ∀ (items : List Loaded) (s : Progress), s.ended = false →
      s.writes ⊆ ((items.map fun i => (i, Outcome.scanned)).foldl
        (scanItem clusterName true) s).writes ∧
      (item ∈ items → writeOf item ∈ ((items.map fun i => (i, Outcome.scanned)).foldl
        (scanItem clusterName true) s).writes) := by
    intro items
    induction items with
    | nil => exact fun s _ => ⟨List.Subset.refl _, fun h => absurd h List.not_mem_nil⟩
    | cons i items ih =>
      intro s hs
      obtain ⟨hended, hsub, hwrite⟩ := scanItem_full clusterName hs i
      obtain ⟨hrest, hmem⟩ := ih _ hended
      refine ⟨List.Subset.trans hsub hrest, fun h => ?_⟩
      rcases List.mem_cons.mp h with rfl | h
      · exact hrest (hwrite hex)
      · exact hmem h
  exact (hrun items ⟨objects, [], false⟩ rfl).2 hitem

/-- No two objects with manifests have keys that are the same up to marks. -/
def KeysApart (items : List Loaded) : Prop :=
  ∀ i ∈ items, ∀ j ∈ items, Exported i → Exported j → objectOf i ≠ objectOf j →
    ¬ SameUpToMarks (keyCore (inventoryItemKey i)) (keyCore (inventoryItemKey j))

omit [Sha256] in
theorem path_eq_iff (i j : Loaded) : (writeOf i).path = (writeOf j).path ↔
    safeManifestFilename i = safeManifestFilename j :=
  ⟨fun h => (Prod.mk.inj h).1, fun h => by rw [writeOf, writeOf, h]⟩

/-- The objects of an inventory have files of their own in every scan, whatever was scanned before
and whatever fails, exactly if no two of them have keys that are the same up to marks. -/
theorem own_files_iff (items : List Loaded) :
    (∀ clusterName fullRescan objects turns, turns.map Prod.fst = items →
      OwnFiles (scanWrites clusterName fullRescan objects turns)) ↔ KeysApart items := by
  constructor
  · intro h i hi j hj hexi hexj hne hsame
    have hturns : (items.map fun i => (i, Outcome.scanned)).map Prod.fst = items := by
      rw [List.map_map]
      exact List.map_id items
    have hown := h [] true (fun _ => none) _ hturns
    refine hown.distinct _ (writeOf_mem_scanWrites [] _ hi hexi) _
      (writeOf_mem_scanWrites [] _ hj hexj) hne ?_
    rw [path_eq_iff, safeManifestFilename_eq_iff]
    exact hsame
  · intro h clusterName fullRescan objects turns hturns
    refine ownFiles_of_distinct fun w hw w' hw' hne hpath => ?_
    obtain ⟨i, hi, hexi, rfl⟩ := mem_scanWrites hw
    obtain ⟨j, hj, hexj, rfl⟩ := mem_scanWrites hw'
    rw [hturns] at hi hj
    rw [path_eq_iff, safeManifestFilename_eq_iff] at hpath
    exact h i hi j hj hexi hexj hne hpath

end Files

/-! ### Two ConfigMaps -/

/-- A ConfigMap of the namespace `x`. -/
def configMap (name : String) : Loaded :=
  .dict [(str "kind", .ofString "ConfigMap"), (str "namespace", .ofString "x"),
    (str "name", .ofString name), (str "manifest", .ofString "kind: ConfigMap")]

attribute [local instance] asciiUnicode asciiCharTables noRepr unaryDigest in
/-- The ConfigMaps `a.b` and `a-b` have one file. -/
theorem not_own_files : ¬ ∀ (items : List Loaded) (clusterName : Str) (fullRescan : Bool)
    (objects : Str → Option Str) (turns : List (Loaded × Outcome)), turns.map Prod.fst = items →
      OwnFiles (scanWrites clusterName fullRescan objects turns) := by
  intro h
  have hown := h [configMap "a.b", configMap "a-b"] [] true (fun _ => none)
    ([configMap "a.b", configMap "a-b"].map fun i => (i, Outcome.scanned)) rfl
  have hdot : Exported (configMap "a.b") :=
    ⟨by decide, by decide +kernel, by decide +kernel, by decide +kernel⟩
  have hhyphen : Exported (configMap "a-b") :=
    ⟨by decide, by decide +kernel, by decide +kernel, by decide +kernel⟩
  refine hown.distinct _ (writeOf_mem_scanWrites [] _ (by simp) hdot) _
    (writeOf_mem_scanWrites [] _ (by simp) hhyphen) ?_ ?_
  · decide +kernel
  · decide +kernel

end Vat.K8s
