import Vat.Assets.Group
import Vat.Keyed.FirstMatch
import Vat.Python.Dynamic
import Vat.Sbom.Cyclonedx

/-!
# Image digests from the SBOMs of containers

Aikido lists a container once for each of its tags. The sync reads the SBOM of each row and gives
the digest in it to the findings of the image that have none: the findings are found by the names of
the image alone, so the first row of an image fills in the findings of all its tags.

What the export of a container says, once it is unwrapped, is a parameter, and so is whether its
packages can be imported. The batches of the other mode, which is off by default, are left out.

Source: `backend/app/services/aikido_container_sbom_sync.py`, lines 130–319;
`backend/app/services/cyclonedx_identity.py`, lines 48–132; `backend/app/adapters/aikido.py`, lines
316–323.

## Main definitions

* `containerDisplayFields`, `extractContainerIdentity`, `imageCandidates`.
* `syncSboms`: the sync, row by row.
* `RespectsIdentity`: what the sync owes to the findings, in every order of the rows.

## Main results

* `syncSboms_eq`: each finding gets the digest of the first row that gives it one.
* `respectsIdentity_iff`.
-/

namespace Vat

open Keyed

/-! ### Rows -/

/-- `_strip_tag_from_container_name`. -/
def stripTagFromContainerName (name : Str) : Str :=
  let s := Str.strip name
  if ':' ∈ s then
    let repo := Str.strip (Str.rsplit1 ':' s).1
    if repo = [] then s else repo
  else s

/-- What a row says of its container: the name without a tag, the id, and the tag. -/
structure ContainerFields where
  assetKey : Option Str
  cid : Option Str
  listTag : Str

/-- `x or y` for texts that may be empty. -/
def textOr (x y : Str) : Str := if x = [] then y else x

section Rows

variable [ReprText]

/-- `_container_display_fields`. -/
def containerDisplayFields (c : Loaded) : ContainerFields :=
  match c.member "id" with
  | .null => ⟨none, none, str "latest"⟩
  | cid =>
    let sid := Str.strip cid.pyStr
    if sid = [] then ⟨none, none, str "latest"⟩
    else
      let name := (((c.member "name").or (c.member "image")).or (c.member "repository_name")).or
        (c.member "repositoryName")
      match name with
      | .null => ⟨none, some sid, str "latest"⟩
      | name =>
        let nameStr := Str.strip name.pyStr
        if nameStr = [] then ⟨none, some sid, str "latest"⟩
        else
          let tag := (((c.member "tag").or (c.member "image_tag")).or (c.member "imageTag")).or
            (.ofString "latest")
          ⟨some (textOr (stripTagFromContainerName nameStr) nameStr), some sid,
            textOr (Str.strip tag.pyStr) (str "latest")⟩

omit [ReprText] in
/-- `preferred_sbom_component_for_aikido_container`. -/
def preferredSbomComponent (assetKey : Str) (c : Loaded) : Str :=
  let ak := Str.strip assetKey
  let named := (["image", "repository", "repository_uri", "repositoryUri", "full_image",
    "fullImage", "registry_path", "registryPath"].map fun key =>
      Str.strip (c.member key).textOf).find? fun s => s ≠ [] ∧ ('/' ∈ s ∨ '.' ∈ s)
  match named with
  | some s => textOr (stripTagFromContainerName s) s
  | none =>
    if Str.startsWith ak (str "containers/") ∨ Str.startsWith ak (str "kamiwaza/") then
      str "docker.io/" ++ ak
    else ak

/-! ### Documents -/

/-- `CycloneDxContainerIdentity`, without the name that is shown. -/
structure ContainerIdentity where
  digest : Option Str
  tag : Option Str
  stampRef : Option Str

omit [ReprText] in
/-- `_tag_from_name`. -/
def tagFromName (name : Option Str) : Option Str :=
  let s := Str.strip (Str.orEmpty name)
  if ':' ∈ s then
    let tag := Str.strip (Str.rsplit1 ':' s).2
    if tag ≠ [] ∧ '/' ∉ tag then some tag else none
  else none

variable [Unicode] [UrlDecoding]

omit [ReprText] in
/-- `_digest_from_oci_purl`. -/
def digestFromOciPurl (purl : Str) : Option Str :=
  match Str.splitSub1 (str "@sha256:") (UrlDecoding.unquote (Str.strip purl)) with
  | none => none
  | some (_, part) =>
    let hex := part.filter fun c => isHexChar c || ('A' ≤ c && c ≤ 'F')
    normalizeImageDigest (some (str "sha256:" ++ hex.take 64))

/-- The text of a member, or else the empty text. -/
def memberText (v : Loaded) (name : String) : Str :=
  Str.strip ((v.member name).or (.text [])).pyStr

omit [UrlDecoding] in
/-- `_prop_map`: what the last property with a name says. -/
def propValue (props : Loaded) (name : String) : Option Str :=
  let entries := (if props.isList then props.items else []).filterMap fun p =>
    if p.isDict ∧ memberText p "name" ≠ [] ∧ memberText p "value" ≠ [] then
      some (Unicode.lower (memberText p "name"), memberText p "value")
    else none
  ((entries.filter fun e => e.1 = str name).getLast?).map (·.2)

/-- `extract_container_identity_from_cyclonedx`. -/
def extractContainerIdentity (doc : Loaded) : ContainerIdentity :=
  let comp := (doc.member "metadata").member "component"
  if ¬ comp.isDict then ⟨none, none, none⟩
  else
    let name := memberText comp "name"
    let props := comp.member "properties"
    let repoDigest := (propValue props "aquasecurity:trivy:repodigest").or
      (propValue props "repodigest")
    let digest := (digestFromOciPurl (memberText comp "purl")).or (repoDigest.bind fun rd =>
      match Str.splitSub1 (str "@sha256:") rd with
      | some (_, hex) => normalizeImageDigest (some hex)
      | none => normalizeImageDigest (some rd))
    let repoTag := (propValue props "aquasecurity:trivy:repotag").or (propValue props "repotag")
    let tag := (tagFromName repoTag).or (tagFromName (some name))
    let pinned := repoDigest.filter fun rd => (Str.splitSub1 (str "@sha256:") rd).isSome
    let stampRef := pinned.or <|
      match digest with
      | some d =>
        if name ≠ [] ∧ '@' ∉ name then
          if Str.startsWith d (str "sha256:") then some (name ++ str "@sha256:" ++ d.drop 7)
          else some (name ++ str "@" ++ d)
        else some d
      | none => if name = [] then none else some name
    ⟨digest, tag, stampRef⟩

/-! ### The sync -/

/-- What is exported for a container: a document, and whether its packages can be imported. -/
structure SbomExport where
  cdx : Loaded
  imports : Bool

/-- A row that the sync takes up: an object with a name and an id. -/
def Eligible (c : Loaded) : Bool :=
  c.isDict && Str.truthy (containerDisplayFields c).assetKey &&
    Str.truthy (containerDisplayFields c).cid

/-- The names under which the findings of a row are looked for. -/
def imageCandidates (cfg : Settings) (c cdx : Loaded) : List Str :=
  let assetKey := Str.orEmpty (containerDisplayFields c).assetKey
  let ingestComponent := preferredSbomComponent assetKey c
  let ref := textOr (textOr (Str.orEmpty (extractContainerIdentity cdx).stampRef) ingestComponent)
    assetKey
  [assetKey, ingestComponent, (Str.strip ref).take 256, containerImageGroupKey cfg assetKey].filter
    fun x => Str.strip x ≠ []

/-- The tag of a row, under which its digest is recorded as observed. -/
def rowTag (c cdx : Loaded) : Str :=
  let tag := textOr (Str.orEmpty (extractContainerIdentity cdx).tag)
    (containerDisplayFields c).listTag
  textOr (Str.strip tag) (str "latest")

/-- `_ingest_container_sbom_cyclonedx`, of the findings. -/
def ingestContainerSbom (cfg : Settings) (findings : List Finding) (c : Loaded)
    (sbom : SbomExport) : List Finding :=
  if ¬ sbom.imports then findings
  else
    match (extractContainerIdentity sbom.cdx).digest with
    | none => findings
    | some digest => findings.map fun f =>
      if f.source = some (str "Aikido") ∧ f.imageDigest = none ∧
          f.image.any fun image => image ∈ imageCandidates cfg c sbom.cdx then
        { f with imageDigest := some digest }
      else f

/-- One row: its document is fetched and ingested. -/
def processRow (cfg : Settings) (documents : Str → Option SbomExport) (findings : List Finding)
    (c : Loaded) : List Finding :=
  match documents (Str.orEmpty (containerDisplayFields c).cid) with
  | none => findings
  | some sbom => ingestContainerSbom cfg findings c sbom

/-- `_sync_sboms_licenses_export`, of the findings, when some rows are processed: at most so many
rows are, where the maximum is not zero. -/
def syncSbomsFrom (cfg : Settings) (documents : Str → Option SbomExport) (maxN : ℕ) :
    ℕ → List Finding → List Loaded → List Finding
  | _, findings, [] => findings
  | processed, findings, c :: containers =>
    if 0 < maxN ∧ maxN ≤ processed then findings
    else if ¬ Eligible c then syncSbomsFrom cfg documents maxN processed findings containers
    else
      syncSbomsFrom cfg documents maxN (processed + 1) (processRow cfg documents findings c)
        containers

/-- `sync_aikido_container_sboms`, of the findings. -/
def syncSboms (cfg : Settings) (documents : Str → Option SbomExport) (maxN : ℕ)
    (containers : List Loaded) (findings : List Finding) : List Finding :=
  syncSbomsFrom cfg documents maxN 0 findings containers

/-! ### What each finding gets -/

/-- The digest that a document gives a finding, which has none. -/
def digestIn (cfg : Settings) (f : Finding) (c : Loaded) (sbom : SbomExport) : Option Str :=
  if sbom.imports ∧ f.source = some (str "Aikido") ∧ f.imageDigest = none ∧
      f.image.any fun image => image ∈ imageCandidates cfg c sbom.cdx then
    (extractContainerIdentity sbom.cdx).digest
  else none

/-- The digest that a row gives a finding. -/
def digestFor (cfg : Settings) (documents : Str → Option SbomExport) (f : Finding) (c : Loaded) :
    Option Str :=
  (documents (Str.orEmpty (containerDisplayFields c).cid)).bind (digestIn cfg f c)

/-- The tag of a row is that of a finding. -/
def hasTag (documents : Str → Option SbomExport) (f : Finding) (c : Loaded) : Bool :=
  (documents (Str.orEmpty (containerDisplayFields c).cid)).any fun sbom =>
    f.tag = some (rowTag c sbom.cdx)

/-- How many rows are processed, of those that may be. -/
def rowLimit (maxN : ℕ) (containers : List Loaded) : ℕ :=
  if maxN = 0 then (containers.filter Eligible).length else maxN

/-- The rows that are processed. -/
def processedRows (maxN : ℕ) (containers : List Loaded) : List Loaded :=
  (containers.filter Eligible).take (rowLimit maxN containers)

omit [ReprText] [Unicode] [UrlDecoding] in
/-- A finding with a digest, if there is one to fill in. -/
def withDigest (f : Finding) : Option Str → Finding
  | none => f
  | some digest => { f with imageDigest := some digest }

variable {cfg : Settings} {documents : Str → Option SbomExport} {f : Finding}

theorem digestIn_of_digest (h : f.imageDigest ≠ none) (c : Loaded) (sbom : SbomExport) :
    digestIn cfg f c sbom = none :=
  if_neg fun hall => h hall.2.2.1

theorem digestFor_of_digest (h : f.imageDigest ≠ none) (c : Loaded) :
    digestFor cfg documents f c = none := by
  rw [digestFor]
  cases documents (Str.orEmpty (containerDisplayFields c).cid) with
  | none => rfl
  | some sbom => exact digestIn_of_digest h c sbom

theorem ingestContainerSbom_eq (findings : List Finding) (c : Loaded) (sbom : SbomExport) :
    ingestContainerSbom cfg findings c sbom =
      findings.map fun f => withDigest f (digestIn cfg f c sbom) := by
  have hkeep (h : ∀ f ∈ findings, digestIn cfg f c sbom = none) :
      findings = findings.map fun f => withDigest f (digestIn cfg f c sbom) := by
    refine (List.map_id findings).symm.trans (List.map_congr_left fun f hf => ?_)
    rw [h f hf]
    rfl
  rw [ingestContainerSbom]
  by_cases himports : sbom.imports = true
  · rw [if_neg (not_not.mpr himports)]
    cases hdigest : (extractContainerIdentity sbom.cdx).digest with
    | none => exact hkeep fun f _ => by rw [digestIn, hdigest, ite_self]
    | some digest =>
      refine List.map_congr_left fun f _ => ?_
      rw [digestIn, hdigest]
      by_cases hall : f.source = some (str "Aikido") ∧ f.imageDigest = none ∧
          f.image.any fun image => image ∈ imageCandidates cfg c sbom.cdx
      · rw [if_pos hall, if_pos ⟨himports, hall⟩]
        rfl
      · rw [if_neg hall, if_neg fun h => hall h.2]
        rfl
  · rw [if_pos himports]
    exact hkeep fun f _ => if_neg fun h => himports h.1

/-- One row gives each finding its digest. -/
theorem processRow_eq (findings : List Finding) (c : Loaded) :
    processRow cfg documents findings c =
      findings.map fun f => withDigest f (digestFor cfg documents f c) := by
  unfold processRow digestFor
  cases documents (Str.orEmpty (containerDisplayFields c).cid) with
  | none => exact (List.map_id findings).symm
  | some sbom => exact ingestContainerSbom_eq findings c sbom

/-- Row after row: each finding gets the digest of the first row that gives it one. -/
theorem foldl_processRow (rows : List Loaded) (findings : List Finding) :
    rows.foldl (processRow cfg documents) findings =
      findings.map fun f => withDigest f (filled (digestFor cfg documents f) rows) := by
  induction rows generalizing findings with
  | nil => exact (List.map_id findings).symm
  | cons c rows ih =>
    rw [List.foldl_cons, ih, processRow_eq, List.map_map]
    refine List.map_congr_left fun f _ => ?_
    rw [Function.comp_apply, filled, filled, List.findSome?_cons]
    cases hc : digestFor cfg documents f c with
    | none => rfl
    | some digest =>
      -- once it has a digest, no row gives it another
      have hnone :
          List.findSome? (digestFor cfg documents (withDigest f (some digest))) rows = none :=
        List.findSome?_eq_none_iff.mpr fun c _ =>
          digestFor_of_digest (Option.some_ne_none digest) c
      rw [hnone]
      rfl

theorem syncSbomsFrom_eq (maxN processed : ℕ) (findings : List Finding) (containers : List Loaded) :
    syncSbomsFrom cfg documents maxN processed findings containers =
      (if maxN = 0 then containers.filter Eligible
        else (containers.filter Eligible).take (maxN - processed)).foldl
          (processRow cfg documents) findings := by
  induction containers generalizing processed findings with
  | nil => simp [syncSbomsFrom]
  | cons c containers ih =>
    rw [syncSbomsFrom]
    by_cases hfull : 0 < maxN ∧ maxN ≤ processed
    · rw [if_pos hfull, if_neg (by omega), Nat.sub_eq_zero_of_le hfull.2, List.take_zero]
      rfl
    · rw [if_neg hfull]
      by_cases hc : Eligible c = true
      · rw [if_neg (not_not.mpr hc), ih, List.filter_cons_of_pos hc]
        by_cases hmax : maxN = 0
        · rw [if_pos hmax, if_pos hmax, List.foldl_cons]
        · obtain ⟨m, hm⟩ : ∃ m, maxN - processed = m + 1 := ⟨maxN - processed - 1, by omega⟩
          rw [if_neg hmax, if_neg hmax, hm, List.take_succ_cons, List.foldl_cons]
          congr 2
          omega
      · rw [if_pos hc, ih, List.filter_cons_of_neg hc]

/-- Each finding gets the digest of the first of the processed rows that gives it one. -/
theorem syncSboms_eq (maxN : ℕ) (containers : List Loaded) (findings : List Finding) :
    syncSboms cfg documents maxN containers findings = findings.map fun f =>
      withDigest f (filled (digestFor cfg documents f) (processedRows maxN containers)) := by
  rw [syncSboms, syncSbomsFrom_eq, ← foldl_processRow, processedRows, rowLimit, Nat.sub_zero]
  split_ifs with h
  · rw [List.take_length]
  · rfl

/-! ### Images and tags -/

/-- What the sync owes to the findings, in every order of the rows: a digest that it fills in comes
from a document for a row with the image and the tag of the finding, and the result is the same. -/
def RespectsIdentity (cfg : Settings) (documents : Str → Option SbomExport) (maxN : ℕ)
    (containers : List Loaded) (findings : List Finding) : Prop :=
  ∀ containers' : List Loaded, containers'.Perm containers →
    (∀ p ∈ findings.zip (syncSboms cfg documents maxN containers' findings), ∀ digest,
      p.1.imageDigest = none → p.2.imageDigest = some digest →
        ∃ c ∈ processedRows maxN containers',
          hasTag documents p.1 c ∧ digestFor cfg documents p.1 c = some digest) ∧
    syncSboms cfg documents maxN containers' findings =
      syncSboms cfg documents maxN containers findings

theorem filled_of_digest (h : f.imageDigest ≠ none) (rows : List Loaded) :
    filled (digestFor cfg documents f) rows = none :=
  filled_eq_none_iff.mpr fun c _ => digestFor_of_digest h c

omit [ReprText] [Unicode] [UrlDecoding] in
theorem imageDigest_withDigest (h : f.imageDigest = none) (digest : Option Str) :
    (withDigest f digest).imageDigest = digest := by
  cases digest with
  | none => exact h
  | some digest => rfl

omit [ReprText] [Unicode] [UrlDecoding] in
theorem mem_zip_map {g : Finding → Finding} {findings : List Finding} {p : Finding × Finding} :
    p ∈ findings.zip (findings.map g) ↔ ∃ f ∈ findings, p = (f, g f) := by
  have hzip : findings.zip (findings.map g) = findings.map fun f => (f, g f) := by
    have := List.zip_map' (f := id) (g := g) (l := findings)
    rwa [List.map_id] at this
  rw [hzip, List.mem_map]
  exact exists_congr fun f => and_congr_right fun _ => eq_comm

omit [Unicode] [UrlDecoding] in
theorem rowLimit_perm {containers containers' : List Loaded} (h : containers'.Perm containers)
    (maxN : ℕ) : rowLimit maxN containers' = rowLimit maxN containers := by
  rw [rowLimit, rowLimit, (h.filter _).length_eq]

omit [Unicode] [UrlDecoding] in
/-- The rows that may be processed, in any order, are those of some order of all rows. -/
theorem exists_perm_eligible {containers rows : List Loaded}
    (h : rows.Perm (containers.filter Eligible)) :
    ∃ containers' : List Loaded, containers'.Perm containers ∧
      containers'.filter Eligible = rows := by
  refine ⟨rows ++ containers.filter fun c => !Eligible c, ?_, ?_⟩
  · exact (h.append_right _).trans (List.filter_append_perm _ containers)
  · have hrows : rows.filter Eligible = rows := List.filter_eq_self.mpr fun c hc =>
      (List.mem_filter.mp (h.mem_iff.mp hc)).2
    have hrest : (containers.filter fun c => !Eligible c).filter Eligible = [] := by
      refine List.filter_eq_nil_iff.mpr fun c hc hyes => ?_
      have hno := (List.mem_filter.mp hc).2
      rw [hyes] at hno
      cases hno
    rw [List.filter_append, hrows, hrest, List.append_nil]

/-- The sync respects images and tags exactly if what it fills in for each finding is settled. -/
theorem respectsIdentity_iff_settled {maxN : ℕ} {containers : List Loaded}
    {findings : List Finding} :
    RespectsIdentity cfg documents maxN containers findings ↔
      ∀ f ∈ findings, Settled (digestFor cfg documents f) (hasTag documents f)
        (rowLimit maxN containers) (containers.filter Eligible) := by
  constructor
  · intro h f hf rows hrows
    obtain ⟨containers', hperm, rfl⟩ := exists_perm_eligible hrows
    obtain ⟨hown, hsame⟩ := h containers' hperm
    rw [syncSboms_eq] at hown
    rw [syncSboms_eq, syncSboms_eq, List.map_inj_left] at hsame
    have htake : (containers'.filter Eligible).take (rowLimit maxN containers) =
        processedRows maxN containers' := by
      rw [processedRows, rowLimit_perm hperm]
    rw [htake]
    by_cases hdigest : f.imageDigest = none
    · refine ⟨fun v hv => ?_, ?_⟩
      · exact hown _ (mem_zip_map.mpr ⟨f, hf, rfl⟩) v hdigest
          ((imageDigest_withDigest hdigest _).trans hv)
      · have heq := congrArg Finding.imageDigest (hsame f hf)
        rwa [imageDigest_withDigest hdigest, imageDigest_withDigest hdigest] at heq
    · refine ⟨fun v hv => ?_, ?_⟩
      · rw [filled_of_digest hdigest] at hv
        cases hv
      · rw [filled_of_digest hdigest, filled_of_digest hdigest]
  · intro h containers' hperm
    have htake : (containers'.filter Eligible).take (rowLimit maxN containers) =
        processedRows maxN containers' := by
      rw [processedRows, rowLimit_perm hperm]
    have hsettled : ∀ f ∈ findings, _ := fun f hf => h f hf _ (hperm.filter _)
    rw [htake] at hsettled
    rw [syncSboms_eq, syncSboms_eq]
    refine ⟨fun p hp digest hnone hsome => ?_, List.map_congr_left fun f hf => ?_⟩
    · obtain ⟨f, hf, rfl⟩ := mem_zip_map.mp hp
      rw [imageDigest_withDigest hnone] at hsome
      exact (hsettled f hf).1 digest hsome
    · rw [(hsettled f hf).2]
      rfl

end Rows

/-! ### Two tags of one image -/

/-- A row of an image, with its id and its tag. -/
def etcdRow (id tag : String) : Loaded :=
  .dict [(str "id", .ofString id), (str "name", .ofString "containers/images/etcd"),
    (str "tag", .ofString tag)]

/-- The export of a container with a digest. -/
def etcdSbom (digits : String) : SbomExport :=
  ⟨.dict [(str "metadata", .dict [(str "component",
    .dict [(str "purl", .text (str "pkg:oci/etcd@sha256:" ++ str digits))])])], true⟩

/-- The export of the container with id 11, and of any other. -/
def etcdSboms (cid : Str) : Option SbomExport :=
  some (if cid = str "11" then etcdSbom "aaaaaaaaaaaa" else etcdSbom "bbbbbbbbbbbb")

/-- A finding of the image with the second tag. -/
def etcdFinding : Finding :=
  { Finding.blank (str "VAT-1") (str "fp") (str "CVE-1") with
    source := some (str "Aikido")
    image := some (str "containers/images/etcd")
    tag := some (str "v2") }

section

attribute [local instance] noRepr asciiUnicode plainDecoding

end

end Vat
