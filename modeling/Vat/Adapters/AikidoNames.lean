import Vat.Identity.ImageRefs
import Vat.Sbom.ContainerDigests

/-!
# Names and tags of Aikido containers

The adapter splits a container name in two ways. `_strip_tag_from_container_name` cuts it at its
last colon, and `_tag_from_image_ref` takes what comes after that colon for a tag, unless it may be
a port: it has a slash, or is a number. On references without a digest that have a tag, or no port,
the first is the repository (`stripTagFromContainerName_text_iff` says where else it is); the second
is the tag, unless that is a number (`container_names_split`).

Source: `backend/app/adapters/aikido.py`, lines 316–369; `backend/app/services/aikido_full_sync.py`,
lines 211–233.

## Main definitions

* `tagFromImageRef`, `extraTagsFromValue`, `fullSyncContainer`.
* `ImageRef.HasPort`: a registry with a port.
* `FoundIn`: the texts of a nested value that may be references.
* `MarkerTables`: what lower case leaves of a digest.

## Main results

* `ImageRef.stripTagFromContainerName_text_iff`, `ImageRef.tagFromImageRef_text`.
* `mem_extraTagsFromValue_iff`, `fullSyncContainer_key`.
* `container_names_split`, `not_container_names_split`.
-/

namespace Vat

/-! ### The functions -/

section Functions

variable [Unicode]

/-- `_tag_from_image_ref`. -/
def tagFromImageRef (value : Str) : Option Str :=
  if value = [] then none
  else
    let s := Str.strip value
    if str "@sha256:" <:+: Unicode.lower s then none
    else if ':' ∉ s then none
    else
      let tag := Str.strip (Str.rsplit1 ':' s).2
      if tag = [] ∨ tag.all Unicode.isDigit ∨ '/' ∈ tag then none else some tag

/-- The members that `_extra_tags_from_value` goes into. -/
def extraTagKeys : List Str :=
  ["tag", "image_tag", "imageTag", "image", "name", "reference", "ref", "docker_image",
    "dockerImage"].map str

mutual

/-- `_extra_tags_from_value`. -/
def extraTagsFromValue : Loaded → List Str
  | .text s => (tagFromImageRef s).toList
  | .list items => extraTagsFromItems items
  | .dict members => extraTagKeys.flatMap fun k => extraTagsUnder k members
  | .null | .bool _ | .int _ | .float _ => []

def extraTagsFromItems : List Loaded → List Str
  | [] => []
  | v :: items => extraTagsFromValue v ++ extraTagsFromItems items

/-- The tags under a key. -/
def extraTagsUnder (k : Str) : List (Str × Loaded) → List Str
  | [] => []
  | (k', v) :: members => if k = k' then extraTagsFromValue v else extraTagsUnder k members

end

end Functions

section FullSync

variable [ReprText]

/-- The name of a row of the full sync. -/
def fullSyncName (c : Loaded) : Loaded :=
  ((((c.member "name").or (c.member "image")).or (c.member "repository_name")).or
    (c.member "repositoryName")).or (c.member "id")

/-- The asset key that the full sync gives to a row, and the tag of a new asset. -/
def fullSyncContainer (c : Loaded) : Option (Str × Str) :=
  if ¬ c.isDict then none
  else
    match fullSyncName c with
    | .null => none
    | name =>
      let nameStr := Str.strip name.pyStr
      if nameStr = [] then none
      else
        let tag := ((c.member "tag").or (c.member "image_tag")).or (.ofString "latest")
        some (textOr (stripTagFromContainerName nameStr) nameStr,
          textOr (Str.strip tag.pyStr) (str "latest"))

end FullSync

/-! ### Nested values -/

/-- A text of a nested value that may be a reference. -/
inductive FoundIn : Loaded → Str → Prop
  | text (s : Str) : FoundIn (.text s) s
  | item {items : List Loaded} {v : Loaded} {s : Str} (hv : v ∈ items) (h : FoundIn v s) :
    FoundIn (.list items) s
  | member {members : List (Str × Loaded)} {k : Str} {v : Loaded} {s : Str} (hk : k ∈ extraTagKeys)
    (hv : members.lookup k = some v) (h : FoundIn v s) : FoundIn (.dict members) s

section Nested

variable [Unicode] {t : Str}

theorem mem_extraTagsFromItems {items : List Loaded} {v : Loaded} (hv : v ∈ items)
    (ht : t ∈ extraTagsFromValue v) : t ∈ extraTagsFromItems items := by
  induction items with
  | nil => cases hv
  | cons v' items ih =>
    rw [extraTagsFromItems, List.mem_append]
    rcases List.mem_cons.mp hv with rfl | hv
    · exact .inl ht
    · exact .inr (ih hv)

theorem extraTagsUnder_of_lookup {k : Str} {members : List (Str × Loaded)} {v : Loaded}
    (hv : members.lookup k = some v) : extraTagsUnder k members = extraTagsFromValue v := by
  induction members with
  | nil => cases hv
  | cons p members ih =>
    obtain ⟨k', v'⟩ := p
    rw [extraTagsUnder]
    by_cases hk : k = k'
    · rw [hk, List.lookup_cons_self] at hv
      rw [if_pos hk, Option.some.inj hv]
    · rw [List.lookup_cons, beq_false_of_ne hk] at hv
      rw [if_neg hk, ih hv]

/-- The tag of a text that is found. -/
theorem FoundIn.mem_extraTags {v : Loaded} {s : Str} (h : FoundIn v s)
    (htag : tagFromImageRef s = some t) : t ∈ extraTagsFromValue v := by
  induction h with
  | text s =>
    rw [extraTagsFromValue, htag]
    exact List.mem_singleton_self t
  | item hv _ ih =>
    rw [extraTagsFromValue]
    exact mem_extraTagsFromItems hv (ih htag)
  | member hk hv _ ih =>
    rw [extraTagsFromValue, List.mem_flatMap]
    exact ⟨_, hk, by rw [extraTagsUnder_of_lookup hv]; exact ih htag⟩

mutual

theorem exists_foundIn : ∀ v : Loaded, t ∈ extraTagsFromValue v →
    ∃ s, FoundIn v s ∧ tagFromImageRef s = some t
  | .text s, h => by
    rw [extraTagsFromValue, Option.mem_toList] at h
    exact ⟨s, .text s, h⟩
  | .list items, h => by
    rw [extraTagsFromValue] at h
    obtain ⟨v, hv, s, hs, htag⟩ := exists_foundIn_items items h
    exact ⟨s, .item hv hs, htag⟩
  | .dict members, h => by
    rw [extraTagsFromValue, List.mem_flatMap] at h
    obtain ⟨k, hk, h⟩ := h
    obtain ⟨v, hv, s, hs, htag⟩ := exists_foundIn_under k members h
    exact ⟨s, .member hk hv hs, htag⟩
  | .null, h | .bool _, h | .int _, h | .float _, h => by
    rw [extraTagsFromValue] at h
    cases h

theorem exists_foundIn_items : ∀ items : List Loaded, t ∈ extraTagsFromItems items →
    ∃ v ∈ items, ∃ s, FoundIn v s ∧ tagFromImageRef s = some t
  | [], h => by
    rw [extraTagsFromItems] at h
    cases h
  | v :: items, h => by
    rw [extraTagsFromItems, List.mem_append] at h
    rcases h with h | h
    · exact ⟨v, List.mem_cons_self, exists_foundIn v h⟩
    · obtain ⟨v', hv', hs⟩ := exists_foundIn_items items h
      exact ⟨v', List.mem_cons_of_mem v hv', hs⟩

theorem exists_foundIn_under (k : Str) : ∀ members : List (Str × Loaded),
    t ∈ extraTagsUnder k members →
    ∃ v, members.lookup k = some v ∧ ∃ s, FoundIn v s ∧ tagFromImageRef s = some t
  | [], h => by
    rw [extraTagsUnder] at h
    cases h
  | (k', v) :: members, h => by
    rw [extraTagsUnder] at h
    split_ifs at h with hk
    · exact ⟨v, by rw [hk, List.lookup_cons_self], exists_foundIn v h⟩
    · obtain ⟨v', hv', hs⟩ := exists_foundIn_under k members h
      exact ⟨v', by rw [List.lookup_cons, beq_false_of_ne hk]; exact hv', hs⟩

end

/-- The tags of a nested value are those of the texts that are found in it. -/
theorem mem_extraTagsFromValue_iff {v : Loaded} :
    t ∈ extraTagsFromValue v ↔ ∃ s, FoundIn v s ∧ tagFromImageRef s = some t := by
  constructor
  · exact exists_foundIn v
  · rintro ⟨s, hs, htag⟩
    exact hs.mem_extraTags htag

end Nested

/-! ### References -/

/-- Lower case leaves the marker of a digest, and makes no at sign. -/
class MarkerTables extends Unicode where
  lower_marker : ∀ x y, lower (x ++ (str "@sha256:" ++ y)) = lower x ++ (str "@sha256:" ++ lower y)
  at_notMem_lower : ∀ s, '@' ∉ s → '@' ∉ lower s

theorem eq_at_of_toLower_eq {c : Char} (h : c.toLower = '@') : c = '@' := by
  obtain ⟨hself, -⟩ | ⟨hge, -, hlower⟩ := toNat_toLower c
  · exact hself.symm.trans h
  · have hat : c.toLower.toNat = 64 := congrArg Char.toNat h
    omega

/-- The tables on ASCII text. -/
@[reducible] def asciiMarkerTables : MarkerTables where
  toUnicode := asciiUnicode
  lower_marker x y := by
    change (x ++ (str "@sha256:" ++ y)).map Char.toLower = _
    rw [List.map_append, List.map_append]
    rfl
  at_notMem_lower s h hmem := by
    obtain ⟨c, hc, heq⟩ := List.mem_map.mp hmem
    exact h (eq_at_of_toLower_eq heq ▸ hc)

namespace ImageRef

variable (ref : ImageRef)

/-- The registry has a name and a port. -/
def HasPort : Prop := ∃ host port, ref.host = some (host, some port) ∧ host ≠ []

/-- A reference without a digest, that has a tag or no port. -/
def Plain : Prop := ref.hex = none ∧ (ref.tag ≠ none ∨ ¬ ref.HasPort)

/-- The two ways to split the name of a reference lose nothing: one gives the repository, and the
other, if there is no digest, the tag. -/
def SplitsWithoutLoss [Unicode] : Prop :=
  stripTagFromContainerName ref.text = ref.repository ∧
    (ref.hex = none → tagFromImageRef ref.text = ref.tag)

theorem text_of_hex_eq_none (h : ref.hex = none) : ref.text = ref.tagged := by
  rw [text_eq, h, Option.elim_none, List.append_nil]

theorem notMem_repository : '@' ∉ ref.repository := fun h =>
  absurd (List.all_eq_true.mp ref.repository_symbols _ h) (by decide)

/-- What comes before the last colon. -/
theorem stripTag_append {x y : Str} (hx : ∀ c ∈ x, Str.isSpace c = false)
    (hy : ∀ c ∈ y, Str.isSpace c = false) (hcolon : ':' ∉ y) :
    stripTagFromContainerName (x ++ ':' :: y) = if x = [] then x ++ ':' :: y else x := by
  have hstrip : Str.strip (x ++ ':' :: y) = x ++ ':' :: y := by
    refine Str.strip_eq_self fun c hc => ?_
    rcases List.mem_append.mp hc with hc | hc
    · exact hx c hc
    · rcases List.mem_cons.mp hc with rfl | hc
      · decide
      · exact hy c hc
  simp only [stripTagFromContainerName, hstrip, Str.rsplit1_append hcolon, Str.strip_eq_self hx]
  exact if_pos (by simp)

theorem stripTag_of_notMem {x : Str} (hx : ∀ c ∈ x, Str.isSpace c = false) (hcolon : ':' ∉ x) :
    stripTagFromContainerName x = x := by
  simp only [stripTagFromContainerName, Str.strip_eq_self hx]
  exact if_neg hcolon

/-- The cut in the digest. -/
theorem stripTag_text_of_digest {hex : Str} (hhex : ref.hex = some hex) :
    stripTagFromContainerName ref.text = ref.tagged ++ str "@sha256" := by
  have hsymbols := all_taggedSymbol (ref.hex_symbols hex hhex)
  have htext : ref.text = (ref.tagged ++ str "@sha256") ++ ':' :: hex := by
    rw [text_eq, hhex, Option.elim_some, List.append_assoc]
    rfl
  have hspace : ∀ c ∈ ref.tagged ++ str "@sha256", Str.isSpace c = false := by
    intro c hc
    rcases List.mem_append.mp hc with hc | hc
    · exact isSpace_of_taggedSymbol ref.tagged_symbols c hc
    · have hmarker : (str "@sha256").all (fun c => !Str.isSpace c) = true := by decide
      simpa using List.all_eq_true.mp hmarker c hc
  rw [htext, stripTag_append hspace (isSpace_of_taggedSymbol hsymbols)
    (notMem_of_all_refSymbol (ref.hex_symbols hex hhex)).1]
  exact if_neg (List.append_ne_nil_of_left_ne_nil ref.tagged_ne_nil _)

/-- The cut before the tag. -/
theorem stripTag_text_of_tag {tag : Str} (hhex : ref.hex = none) (htag : ref.tag = some tag) :
    stripTagFromContainerName ref.text = ref.repository := by
  have hsymbols := ref.tag_symbols tag htag
  have htext : ref.text = ref.repository ++ ':' :: tag := by
    rw [ref.text_of_hex_eq_none hhex, tagged, htag]
  rw [htext, stripTag_append (isSpace_of_taggedSymbol ref.repository_symbols)
    (isSpace_of_taggedSymbol (all_taggedSymbol hsymbols)) (notMem_of_all_refSymbol hsymbols).1]
  exact if_neg ref.repository_ne_nil

/-- The cut before the port. -/
theorem stripTag_repository_of_port {host port : Str} (hhost : ref.host = some (host, some port)) :
    stripTagFromContainerName ref.repository = if host = [] then ref.repository else host := by
  obtain ⟨hsymbols, hport⟩ := ref.host_symbols _ hhost
  have hrest : ∀ c ∈ port ++ str "/" ++ ref.path, c ∈ ref.repository := fun c hc => by
    rw [repository, registryText, hhost]
    simp only [List.mem_append] at hc ⊢
    tauto
  have htext : ref.repository = host ++ ':' :: (port ++ str "/" ++ ref.path) := by
    rw [repository, registryText, hhost]
    simp [str]
  have hcolon : ':' ∉ port ++ str "/" ++ ref.path := by
    rw [List.mem_append, List.mem_append, not_or, not_or]
    exact ⟨⟨(notMem_of_all_refSymbol (hport port rfl)).1, by decide⟩, ref.notMem_path.1⟩
  have hspace := isSpace_of_taggedSymbol ref.repository_symbols
  conv_lhs => rw [htext]
  rw [stripTag_append (isSpace_of_taggedSymbol (all_taggedSymbol hsymbols))
    (fun c hc => hspace c (hrest c hc)) hcolon, ← htext]

/-- No colon without a port. -/
theorem colon_notMem_repository (hport : ∀ host port, ref.host ≠ some (host, some port)) :
    ':' ∉ ref.repository := by
  rw [repository, registryText, List.mem_append, not_or]
  refine ⟨?_, ref.notMem_path.1⟩
  split
  · exact List.not_mem_nil
  · next host hhost =>
    rw [List.mem_append, not_or]
    exact ⟨(notMem_of_all_refSymbol (ref.host_symbols _ hhost).1).1, by decide⟩
  · next host port hhost => exact absurd hhost (hport host port)

/-- The repository of a reference without tag and digest is left as it is, unless it has a port. -/
theorem stripTag_repository_iff : stripTagFromContainerName ref.repository = ref.repository ↔
    ¬ ref.HasPort := by
  by_cases hport : ∃ host port, ref.host = some (host, some port)
  · obtain ⟨host, port, hhost⟩ := hport
    rw [ref.stripTag_repository_of_port hhost]
    by_cases hnil : host = []
    · rw [if_pos hnil]
      refine iff_of_true rfl ?_
      rintro ⟨host', port', hhost', hne⟩
      rw [hhost] at hhost'
      cases hhost'
      exact hne hnil
    · rw [if_neg hnil]
      refine iff_of_false (fun heq => ?_) fun h => h ⟨host, port, hhost, hnil⟩
      have hlen := congrArg List.length heq
      simp [repository, registryText, hhost, str] at hlen
  · push Not at hport
    refine iff_of_true ?_ ?_
    · exact stripTag_of_notMem (isSpace_of_taggedSymbol ref.repository_symbols)
        (ref.colon_notMem_repository hport)
    · rintro ⟨host, port, hhost, -⟩
      exact hport host port hhost

/-- The name without its last colon is the repository exactly if there is no digest, and a tag or no
port. -/
theorem stripTagFromContainerName_text_iff :
    stripTagFromContainerName ref.text = ref.repository ↔ ref.Plain := by
  rw [Plain]
  cases hhex : ref.hex with
  | some hex =>
    refine iff_of_false (fun heq => ?_) fun h => by cases h.1
    rw [ref.stripTag_text_of_digest hhex] at heq
    exact ref.notMem_repository (heq ▸ List.mem_append_right _ (by decide))
  | none =>
    cases htag : ref.tag with
    | some tag => exact iff_of_true (ref.stripTag_text_of_tag hhex htag) ⟨rfl, .inl nofun⟩
    | none =>
      have htext : ref.text = ref.repository := by
        rw [ref.text_of_hex_eq_none hhex, tagged, htag]
      rw [htext, stripTag_repository_iff]
      exact ⟨fun h => ⟨rfl, .inr h⟩, fun h => h.2.resolve_left fun hne => hne rfl⟩

/-- The text after a port has a slash. -/
theorem exists_slash_of_mem_repository (h : ':' ∈ ref.repository) :
    ∃ host rest, ref.repository = host ++ ':' :: rest ∧ ':' ∉ rest ∧ '/' ∈ rest := by
  by_cases hport : ∃ host port, ref.host = some (host, some port)
  · obtain ⟨host, port, hhost⟩ := hport
    have hport := notMem_of_all_refSymbol ((ref.host_symbols _ hhost).2 port rfl)
    refine ⟨host, port ++ '/' :: ref.path, ?_, ?_, by simp⟩
    · rw [repository, registryText, hhost]
      simp [str]
    · rw [List.mem_append, List.mem_cons, not_or, not_or]
      exact ⟨hport.1, by decide, ref.notMem_path.1⟩
  · push Not at hport
    exact absurd h (ref.colon_notMem_repository hport)

section Tags

variable [MarkerTables]

/-- Without a digest there is no marker of one. -/
theorem not_marker_isInfix_lower_tagged : ¬ str "@sha256:" <:+: Unicode.lower ref.tagged := by
  intro h
  have hat : '@' ∈ Unicode.lower ref.tagged := h.subset (by decide)
  exact MarkerTables.at_notMem_lower _ ref.notMem_tagged hat

theorem marker_isInfix_lower_text {hex : Str} (hhex : ref.hex = some hex) :
    str "@sha256:" <:+: Unicode.lower ref.text := by
  rw [text_eq, hhex, Option.elim_some, MarkerTables.lower_marker]
  exact ⟨_, _, List.append_assoc _ _ _⟩

/-- What the other function finds: nothing in a reference with a digest, else the tag, unless it is
a number. -/
theorem tagFromImageRef_text : tagFromImageRef ref.text =
    if ref.hex = none then ref.tag.filter fun tag => !tag.all Unicode.isDigit else none := by
  simp only [tagFromImageRef, if_neg ref.text_ne_nil, strip_text]
  cases hhex : ref.hex with
  | some hex => rw [if_pos (ref.marker_isInfix_lower_text hhex), if_neg nofun]
  | none =>
    rw [ref.text_of_hex_eq_none hhex, if_neg ref.not_marker_isInfix_lower_tagged, if_pos rfl,
      tagged]
    cases htag : ref.tag with
    | some tag =>
      have hsymbols := ref.tag_symbols tag htag
      obtain ⟨hcolon, -, hslash⟩ := notMem_of_all_refSymbol hsymbols
      have hne : tag ≠ [] := fun h => ref.tag_ne_nil (h ▸ htag)
      have hmem : ':' ∈ ref.repository ++ ':' :: tag := by simp
      simp only [hmem, not_true, if_false, Str.rsplit1_append hcolon,
        strip_of_taggedSymbol (all_taggedSymbol hsymbols), hne, hslash, false_or, or_false,
        Option.filter_some]
      cases tag.all Unicode.isDigit <;> rfl
    | none =>
      dsimp only
      by_cases hmem : ':' ∈ ref.repository
      · obtain ⟨host, rest, heq, hcolon, hslash⟩ := ref.exists_slash_of_mem_repository hmem
        have hspace : ∀ c ∈ rest, Str.isSpace c = false := fun c hc =>
          isSpace_of_taggedSymbol ref.repository_symbols c (heq ▸ by simp [hc])
        have hno : ¬ ':' ∉ ref.repository := not_not.mpr hmem
        rw [if_neg hno, heq, Str.rsplit1_append hcolon, Str.strip_eq_self hspace]
        exact if_pos (.inr (.inr hslash))
      · rw [if_pos hmem]
        rfl

theorem tagFromImageRef_text_eq_some_iff {t : Str} : tagFromImageRef ref.text = some t ↔
    ref.hex = none ∧ ref.tag = some t ∧ t.all Unicode.isDigit = false := by
  rw [tagFromImageRef_text]
  split_ifs with hhex
  · rw [Option.filter_eq_some_iff, Bool.not_eq_true']
    exact (and_iff_right hhex).symm
  · exact iff_of_false nofun fun h => hhex h.1

end Tags

end ImageRef

section Rows

variable [ReprText]

/-- The asset key of a row with the name of a reference. -/
theorem fullSyncContainer_key {c : Loaded} {ref : ImageRef} (hdict : c.isDict)
    (hname : fullSyncName c = .text ref.text) (hplain : ref.Plain) :
    (fullSyncContainer c).map Prod.fst = some ref.repository := by
  have hstrip := ref.stripTagFromContainerName_text_iff.mpr hplain
  have hno : ¬ ¬ c.isDict = true := not_not.mpr hdict
  simp only [fullSyncContainer, if_neg hno, hname, Loaded.pyStr, ref.strip_text,
    if_neg ref.text_ne_nil, hstrip, textOr, if_neg ref.repository_ne_nil, Option.map_some]

/-- **Container names and tags.** A reference without a digest, that has a tag or no port, is cut to
its repository, so that two rows with such names share their asset key exactly when their
repositories are the same. The tag of a reference without a digest is found unless it is a number,
and nothing is found in place of it; in nested values of references, such tags are found and no
others. -/
theorem container_names_split [MarkerTables] :
    (∀ ref : ImageRef, ref.Plain → stripTagFromContainerName ref.text = ref.repository) ∧
      (∀ ref : ImageRef, tagFromImageRef ref.text =
        if ref.hex = none then ref.tag.filter fun tag => !tag.all Unicode.isDigit else none) ∧
      (∀ (c c' : Loaded) (ref ref' : ImageRef), c.isDict → c'.isDict → ref.Plain → ref'.Plain →
        fullSyncName c = .text ref.text → fullSyncName c' = .text ref'.text →
          ((fullSyncContainer c).map Prod.fst = (fullSyncContainer c').map Prod.fst ↔
            ref.repository = ref'.repository)) ∧
      ∀ v : Loaded, (∀ s, FoundIn v s → ∃ ref : ImageRef, s = ref.text) → ∀ t,
        t ∈ extraTagsFromValue v ↔ ∃ ref : ImageRef, FoundIn v ref.text ∧ ref.hex = none ∧
          ref.tag = some t ∧ t.all Unicode.isDigit = false := by
  refine ⟨fun ref => ref.stripTagFromContainerName_text_iff.mpr,
    fun ref => ref.tagFromImageRef_text,
    fun c c' ref ref' hc hc' hplain hplain' hname hname' => ?_, fun v hrefs t => ?_⟩
  · rw [fullSyncContainer_key hc hname hplain, fullSyncContainer_key hc' hname' hplain',
      Option.some_inj]
  · rw [mem_extraTagsFromValue_iff]
    constructor
    · rintro ⟨s, hs, htag⟩
      obtain ⟨ref, rfl⟩ := hrefs s hs
      exact ⟨ref, hs, ref.tagFromImageRef_text_eq_some_iff.mp htag⟩
    · rintro ⟨ref, hs, htag⟩
      exact ⟨ref.text, hs, ref.tagFromImageRef_text_eq_some_iff.mpr htag⟩

end Rows

section Closed

attribute [local instance] asciiUnicode

/-- The tag of `postgres:16` is not found. -/
theorem not_container_names_split : ¬ ∀ ref : ImageRef, ref.SplitsWithoutLoss := by
  intro h
  have htag := (h
    { host := none
      path := str "postgres"
      tag := some (str "16")
      hex := none
      host_symbols := fun _ h => nomatch h
      path_ne_nil := by decide
      path_symbols := by decide
      tag_ne_nil := by decide
      tag_symbols := by rintro _ ⟨⟩; decide
      hex_symbols := fun _ h => nomatch h }).2 rfl
  revert htag
  decide +kernel

end Closed

end Vat
