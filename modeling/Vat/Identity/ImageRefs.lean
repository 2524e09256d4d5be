import Vat.Identity.ContainerRef

/-!
# Repositories and tags of image references

An image reference names a repository, with a registry or not, and may have a tag and a digest. The
operator, the scanner and the backend each split it with functions of their own.

Source: `operator/internal/watch/workitems.go`, lines 127–140;
`vat-local-scanner/vat_scanner/cli.py`, lines 1195–1206 and 2761–2765;
`vat-local-scanner/vat_scanner/container_identity.py`, lines 28–46.

## Main definitions

* `tagFromRef`, `imageRefTag`, `repoWithoutTag`, `splitRepoAndTag`.
* `ImageRef`: a reference of the form `[host[:port]/]path[:tag][@sha256:hex]`.

## Main results

* `splits_agree`: on such references all find the same repository, and the tag if there is one.
* `not_tags_agree`: for a reference without a tag they have different defaults.
-/

namespace Vat

/-! ### The functions -/

/-- The text before the last colon and the text after it, unless a slash comes after it: the test
`colon > slash` on the last positions of the two. -/
def splitLastColon (ref : Str) : Option (Str × Str) :=
  let p := Str.rsplit1 ':' ref
  if ':' ∈ ref ∧ '/' ∉ p.2 then some p else none

/-- The default tag. -/
def latestTag : Str := str "latest"

/-- `tagFromRef` of the operator. -/
def tagFromRef (ref : Str) : Str :=
  match splitLastColon (ref.takeWhile (· != '@')) with
  | some (_, tag) => tag
  | none => latestTag

/-- `_image_ref_tag` of the scanner. -/
def imageRefTag (imageRef : Option Str) : Option Str :=
  let ref := Str.strip (Str.orEmpty imageRef)
  if ref = [] then none
  else
    match splitLastColon (Str.split1 '@' ref).1 with
    | none => if '@' ∈ ref then none else some latestTag
    | some (_, right) => if Str.strip right = [] then none else some (Str.strip right)

/-- `_repo_without_tag` of the scanner. -/
def repoWithoutTag (ref : Str) : Str :=
  let r := (Str.split1 '@' ref).1
  match splitLastColon r with
  | some (left, _) => left
  | none => r

/-- `split_repo_and_tag` of the scanner. -/
def splitRepoAndTag (ref : Option Str) : Str × Str :=
  let ref := Str.strip (Str.orEmpty ref)
  if ref = [] then ([], latestTag)
  else
    let ref :=
      match Str.splitSub1 (str "@sha256:") ref with
      | some (left, _) => Str.strip left
      | none => ref
    if ':' ∉ ref then (ref, latestTag)
    else
      let (left, right) := Str.rsplit1 ':' ref
      if right ≠ [] ∧ '/' ∉ right then (left, right) else (ref, latestTag)

/-! ### References -/

/-- A symbol of a name. -/
def refSymbol (c : Char) : Bool := !Str.isSpace c && c != ':' && c != '@' && c != '/'

/-- A reference of the form `[host[:port]/]path[:tag][@sha256:hex]`. -/
structure ImageRef where
  host : Option (Str × Option Str)
  path : Str
  tag : Option Str
  hex : Option Str
  host_symbols : ∀ h ∈ host, h.1.all refSymbol ∧ ∀ port ∈ h.2, port.all refSymbol
  path_ne_nil : path ≠ []
  path_symbols : path.all fun c => refSymbol c || c == '/'
  tag_ne_nil : tag ≠ some []
  tag_symbols : ∀ t ∈ tag, t.all refSymbol
  hex_symbols : ∀ h ∈ hex, h.all refSymbol

namespace ImageRef

/-- The registry, with the slash after it. -/
def registryText (ref : ImageRef) : Str :=
  match ref.host with
  | none => []
  | some (host, none) => host ++ str "/"
  | some (host, some port) => host ++ str ":" ++ port ++ str "/"

def repository (ref : ImageRef) : Str := ref.registryText ++ ref.path

/-- The reference without its digest. -/
def tagged (ref : ImageRef) : Str :=
  match ref.tag with
  | none => ref.repository
  | some tag => ref.repository ++ ':' :: tag

def text (ref : ImageRef) : Str :=
  match ref.hex with
  | none => ref.tagged
  | some hex => ref.tagged ++ (str "@sha256:" ++ hex)

end ImageRef

/-! ### Splitting at a separator -/

theorem Str.rsplit1_append {c : Char} {x y : Str} (h : c ∉ y) :
    Str.rsplit1 c (x ++ c :: y) = (x, y) := by
  have hy : ∀ d ∈ y.reverse, (d != c) = true := fun d hd => by
    simpa using fun heq : d = c => h (heq ▸ List.mem_reverse.mp hd)
  rw [Str.rsplit1, List.reverse_append, List.reverse_cons, List.append_assoc,
    List.singleton_append, List.dropWhile_append_of_pos hy, List.takeWhile_append_of_pos hy]
  simp

theorem notMem_of_all_refSymbol {s : Str} (h : s.all refSymbol) :
    ':' ∉ s ∧ '@' ∉ s ∧ '/' ∉ s := by
  refine ⟨fun hc => ?_, fun hc => ?_, fun hc => ?_⟩ <;>
    exact absurd (List.all_eq_true.mp h _ hc) (by decide)

/-- A name after the last colon. -/
theorem splitLastColon_append {x tag : Str} (htag : tag.all refSymbol) :
    splitLastColon (x ++ ':' :: tag) = some (x, tag) := by
  obtain ⟨hcolon, -, hslash⟩ := notMem_of_all_refSymbol htag
  rw [splitLastColon, Str.rsplit1_append hcolon]
  exact if_pos ⟨by simp, hslash⟩

theorem splitLastColon_of_notMem {x : Str} (hx : ':' ∉ x) : splitLastColon x = none := by
  rw [splitLastColon]
  exact if_neg fun h => hx h.1

/-- No colon after the last slash. -/
theorem splitLastColon_slash {x y : Str} (hy : ':' ∉ y) :
    splitLastColon (x ++ '/' :: y) = none := by
  have hrest : ∀ d ∈ y.reverse ++ ['/'], (d != ':') = true := by
    intro d hd
    rcases List.mem_append.mp hd with hd | hd
    · simpa using fun heq : d = ':' => hy (heq ▸ List.mem_reverse.mp hd)
    · rw [List.mem_singleton.mp hd]
      decide
  have hslash : '/' ∈ (Str.rsplit1 ':' (x ++ '/' :: y)).2 := by
    rw [Str.rsplit1, List.reverse_append, List.reverse_cons, List.takeWhile_append_of_pos hrest]
    simp
  rw [splitLastColon]
  exact if_neg fun h => h.2 hslash

/-- The backend splits a tag off in the same way. -/
theorem splitTag_eq (ref : Str) :
    splitTag ref = match splitLastColon ref with
      | none => (ref, none)
      | some (left, right) =>
        if Str.strip right = [] then (ref, none) else (Str.strip left, some (Str.strip right)) := by
  rw [splitTag, splitLastColon]
  by_cases hcolon : ':' ∈ ref
  · by_cases hslash : '/' ∈ (Str.rsplit1 ':' ref).2
    · simp [hcolon, hslash]
    · simp [hcolon, hslash]
  · simp [hcolon]

/-- So does `split_repo_and_tag`, without stripping. -/
theorem splitAtLastColon_eq (ref : Str) :
    (if ':' ∉ ref then (ref, latestTag)
      else
        let (left, right) := Str.rsplit1 ':' ref
        if right ≠ [] ∧ '/' ∉ right then (left, right) else (ref, latestTag)) =
      match splitLastColon ref with
      | none => (ref, latestTag)
      | some (left, right) => if right ≠ [] then (left, right) else (ref, latestTag) := by
  rw [splitLastColon]
  by_cases hcolon : ':' ∈ ref
  · by_cases hslash : '/' ∈ (Str.rsplit1 ':' ref).2
    · simp [hcolon, hslash]
    · simp [hcolon, hslash]
  · simp [hcolon]

/-- A text without the first symbol of a separator before its first occurrence. -/
theorem Str.splitSub1_append_of_head {d : Char} {x : Str} (sep y : Str) (hx : d ∉ x) :
    Str.splitSub1 (d :: sep) (x ++ y) =
      (Str.splitSub1 (d :: sep) y).map fun q => (x ++ q.1, q.2) := by
  induction x with
  | nil => simp
  | cons c x ih =>
    have hne : d ≠ c := fun h => hx (h ▸ List.mem_cons_self)
    have hno : (d :: sep).isPrefixOf (c :: (x ++ y)) = false := by
      rw [List.isPrefixOf, beq_false_of_ne hne, Bool.false_and]
    rw [List.cons_append, Str.splitSub1, hno, ih fun h => hx (List.mem_cons_of_mem _ h),
      Option.map_map]
    rfl

theorem Str.splitSub1_digest {x hex : Str} (hx : '@' ∉ x) :
    Str.splitSub1 (str "@sha256:") (x ++ (str "@sha256:" ++ hex)) = some (x, hex) := by
  have hhex : Str.splitSub1 (str "@sha256:") (str "@sha256:" ++ hex) = some ([], hex) := rfl
  have hsplit := Str.splitSub1_append_of_head (str "sha256:") (str "@sha256:" ++ hex) hx
  rw [show '@' :: str "sha256:" = str "@sha256:" from rfl, hhex] at hsplit
  rw [hsplit, Option.map_some, List.append_nil]

theorem Str.splitSub1_eq_none_of_notMem {x : Str} (hx : '@' ∉ x) :
    Str.splitSub1 (str "@sha256:") x = none := by
  have hsplit := Str.splitSub1_append_of_head (str "sha256:") [] hx
  rw [List.append_nil] at hsplit
  exact hsplit

/-! ### What a reference is made of -/

namespace ImageRef

variable (ref : ImageRef)

theorem notMem_path : ':' ∉ ref.path ∧ '@' ∉ ref.path := by
  refine ⟨fun hc => ?_, fun hc => ?_⟩ <;>
    exact absurd (List.all_eq_true.mp ref.path_symbols _ hc) (by decide)

/-- No colon in a repository comes after its last slash. -/
theorem splitLastColon_repository : splitLastColon ref.repository = none := by
  have hpath := ref.notMem_path.1
  rw [repository, registryText]
  split
  · exact splitLastColon_of_notMem hpath
  · rw [List.append_assoc]
    exact splitLastColon_slash hpath
  · rw [List.append_assoc]
    exact splitLastColon_slash hpath

theorem splitLastColon_tagged :
    splitLastColon ref.tagged = ref.tag.map fun tag => (ref.repository, tag) := by
  rw [tagged]
  split
  · next htag => rw [splitLastColon_repository, htag, Option.map_none]
  · next tag htag => rw [splitLastColon_append (ref.tag_symbols tag htag), htag, Option.map_some]

/-- A symbol of a reference without its digest. -/
def taggedSymbol (c : Char) : Bool := refSymbol c || c == ':' || c == '/'

theorem all_taggedSymbol {s : Str} (h : s.all refSymbol) : s.all taggedSymbol :=
  List.all_eq_true.mpr fun c hc => by
    rw [taggedSymbol, List.all_eq_true.mp h c hc, Bool.true_or, Bool.true_or]

theorem repository_symbols : ref.repository.all taggedSymbol := by
  have hpath : ref.path.all taggedSymbol := List.all_eq_true.mpr fun c hc => by
    have := List.all_eq_true.mp ref.path_symbols c hc
    rw [taggedSymbol, Bool.or_right_comm, this, Bool.true_or]
  rw [repository, List.all_append, hpath, Bool.and_true, registryText]
  split
  · rfl
  · next host hhost =>
    have hsymbols := all_taggedSymbol (ref.host_symbols _ hhost).1
    rw [List.all_append, hsymbols]
    rfl
  · next host port hhost =>
    have hsymbols := all_taggedSymbol (ref.host_symbols _ hhost).1
    have hport := all_taggedSymbol ((ref.host_symbols _ hhost).2 port rfl)
    rw [List.all_append, List.all_append, List.all_append, hsymbols, hport]
    rfl

theorem tagged_symbols : ref.tagged.all taggedSymbol := by
  rw [tagged]
  split
  · exact ref.repository_symbols
  · next tag htag =>
    rw [List.all_append, List.all_cons, ref.repository_symbols,
      all_taggedSymbol (ref.tag_symbols tag htag)]
    rfl

theorem notMem_tagged : '@' ∉ ref.tagged := fun h =>
  absurd (List.all_eq_true.mp ref.tagged_symbols _ h) (by decide)

theorem isSpace_of_taggedSymbol {s : Str} (h : s.all taggedSymbol) :
    ∀ c ∈ s, Str.isSpace c = false := by
  intro c hc
  have hsymbol := List.all_eq_true.mp h c hc
  rw [taggedSymbol, Bool.or_eq_true, Bool.or_eq_true, beq_iff_eq, beq_iff_eq] at hsymbol
  obtain (hsymbol | rfl) | rfl := hsymbol
  · have hparts : ((Str.isSpace c = false ∧ c ≠ ':') ∧ c ≠ '@') ∧ c ≠ '/' := by
      simpa [refSymbol] using hsymbol
    exact hparts.1.1.1
  · decide
  · decide

theorem strip_of_taggedSymbol {s : Str} (h : s.all taggedSymbol) : Str.strip s = s :=
  Str.strip_eq_self (isSpace_of_taggedSymbol h)

/-- The digest, with its marker. -/
theorem text_eq : ref.text = ref.tagged ++
    (ref.hex.elim [] fun hex => str "@sha256:" ++ hex) := by
  rw [text]
  split
  · next h => rw [h, Option.elim_none, List.append_nil]
  · next h => rw [h, Option.elim_some]

theorem strip_text : Str.strip ref.text = ref.text := by
  refine Str.strip_eq_self fun c hc => ?_
  rw [text] at hc
  split at hc
  · exact isSpace_of_taggedSymbol ref.tagged_symbols c hc
  · next hex hhex =>
    rcases List.mem_append.mp hc with hc | hc
    · exact isSpace_of_taggedSymbol ref.tagged_symbols c hc
    · rcases List.mem_append.mp hc with hc | hc
      · have hmarker : (str "@sha256:").all (fun c => !Str.isSpace c) = true := by decide
        simpa using List.all_eq_true.mp hmarker c hc
      · exact isSpace_of_taggedSymbol (all_taggedSymbol (ref.hex_symbols hex hhex)) c hc

theorem takeWhile_text : ref.text.takeWhile (· != '@') = ref.tagged := by
  have htagged : ∀ c ∈ ref.tagged, (c != '@') = true := fun c hc => by
    simpa using fun heq : c = '@' => ref.notMem_tagged (heq ▸ hc)
  rw [text_eq, List.takeWhile_append_of_pos htagged]
  cases ref.hex with
  | none => rw [Option.elim_none, List.takeWhile_nil, List.append_nil]
  | some hex =>
    change ref.tagged ++ [] = ref.tagged
    rw [List.append_nil]

theorem mem_text_iff : '@' ∈ ref.text ↔ ref.hex ≠ none := by
  rw [text]
  split
  · next h => exact iff_of_false ref.notMem_tagged (by simp [h])
  · next h => exact iff_of_true (by simp [str]) (by simp [h])

theorem splitSub1_text :
    Str.splitSub1 (str "@sha256:") ref.text = ref.hex.map fun hex => (ref.tagged, hex) := by
  rw [text]
  split
  · next h => rw [h, Str.splitSub1_eq_none_of_notMem ref.notMem_tagged, Option.map_none]
  · next h => rw [h, Str.splitSub1_digest ref.notMem_tagged, Option.map_some]

theorem repository_ne_nil : ref.repository ≠ [] :=
  List.append_ne_nil_of_right_ne_nil _ ref.path_ne_nil

theorem tagged_ne_nil : ref.tagged ≠ [] := by
  rw [tagged]
  split
  · exact ref.repository_ne_nil
  · exact List.append_ne_nil_of_left_ne_nil ref.repository_ne_nil _

theorem text_ne_nil : ref.text ≠ [] := by
  rw [text_eq]
  exact List.append_ne_nil_of_left_ne_nil ref.tagged_ne_nil _

/-! ### What the functions find -/

theorem tagFromRef_text : tagFromRef ref.text = ref.tag.getD latestTag := by
  rw [tagFromRef, takeWhile_text, splitLastColon_tagged]
  cases ref.tag with
  | none => rfl
  | some tag => rfl

theorem repoWithoutTag_text : repoWithoutTag ref.text = ref.repository := by
  rw [repoWithoutTag, Str.split1, takeWhile_text]
  dsimp only
  rw [splitLastColon_tagged, tagged]
  cases ref.tag with
  | none => rfl
  | some tag => rfl

theorem imageRefTag_text :
    imageRefTag (some ref.text) =
      ref.tag.orElse fun _ => if ref.hex = none then some latestTag else none := by
  rw [imageRefTag, Str.orEmpty_some, strip_text, if_neg ref.text_ne_nil, Str.split1,
    takeWhile_text, splitLastColon_tagged]
  cases htag : ref.tag with
  | none =>
    change (if '@' ∈ ref.text then none else some latestTag) = _
    by_cases hhex : ref.hex = none
    · rw [if_neg fun h => ref.mem_text_iff.mp h hhex, if_pos hhex]
      rfl
    · rw [if_pos (ref.mem_text_iff.mpr hhex), if_neg hhex]
      rfl
  | some tag =>
    have hstrip : Str.strip tag = tag :=
      strip_of_taggedSymbol (all_taggedSymbol (ref.tag_symbols tag htag))
    have hne : tag ≠ [] := fun h => ref.tag_ne_nil (h ▸ htag)
    change (if Str.strip tag = [] then none else some (Str.strip tag)) = some tag
    rw [hstrip, if_neg hne]

theorem splitRepoAndTag_text :
    splitRepoAndTag (some ref.text) = (ref.repository, ref.tag.getD latestTag) := by
  have hbase : (match Str.splitSub1 (str "@sha256:") ref.text with
      | some (left, _) => Str.strip left
      | none => ref.text) = ref.tagged := by
    rw [splitSub1_text]
    cases hhex : ref.hex with
    | none =>
      rw [Option.map_none, text_eq, hhex, Option.elim_none, List.append_nil]
    | some hex => exact strip_of_taggedSymbol ref.tagged_symbols
  rw [splitRepoAndTag, Str.orEmpty_some, strip_text, if_neg ref.text_ne_nil, hbase,
    splitAtLastColon_eq, splitLastColon_tagged]
  cases htag : ref.tag with
  | none =>
    change (ref.tagged, latestTag) = (ref.repository, latestTag)
    rw [tagged, htag]
  | some tag =>
    have hne : tag ≠ [] := fun h => ref.tag_ne_nil (h ▸ htag)
    change (if tag ≠ [] then (ref.repository, tag) else _) = (ref.repository, tag)
    rw [if_pos hne]

section Backend

variable [Unicode]

theorem splitDigest_text : (splitDigest ref.text).1 = ref.tagged := by
  rw [splitDigest, splitSub1_text]
  cases hhex : ref.hex with
  | none =>
    change ref.text = ref.tagged
    rw [text_eq, hhex, Option.elim_none, List.append_nil]
  | some hex => exact strip_of_taggedSymbol ref.tagged_symbols

omit [Unicode] in
theorem splitTag_tagged : splitTag ref.tagged = (ref.repository, ref.tag) := by
  rw [splitTag_eq, splitLastColon_tagged]
  cases htag : ref.tag with
  | none =>
    change (ref.tagged, none) = (ref.repository, none)
    rw [tagged, htag]
  | some tag =>
    have hstrip : Str.strip tag = tag :=
      strip_of_taggedSymbol (all_taggedSymbol (ref.tag_symbols tag htag))
    have hne : tag ≠ [] := fun h => ref.tag_ne_nil (h ▸ htag)
    change (if Str.strip tag = [] then _ else (Str.strip ref.repository, some (Str.strip tag))) = _
    rw [hstrip, if_neg hne, strip_of_taggedSymbol ref.repository_symbols]

theorem observedTag_text : (normalizeContainerRef (some ref.text)).observedTag = ref.tag := by
  rw [normalizeContainerRef, Str.orEmpty_some, strip_text, if_neg ref.text_ne_nil]
  change (splitTag (splitDigest ref.text).1).2 = ref.tag
  rw [splitDigest_text, splitTag_tagged]

/-- The key of a reference without its tag and its digest. -/
def repositoryKey (repo : Str) : Str :=
  let (registry, path) :=
    match splitRegistryAndPath repo with
    | (none, path) => (str "docker.io", dockerHubPath path)
    | (some registry, path) => (registry, path)
  let canonical := Str.stripWhile (· == '/')
    (Unicode.lower registry ++ str "/" ++ Unicode.lower (Str.stripWhile (· == '/') path))
  if canonical = [] then str "docker.io/library/unknown" else canonical

/-- The key of a reference is that of its repository. -/
theorem canonicalAssetKey_text :
    (normalizeContainerRef (some ref.text)).canonicalAssetKey = repositoryKey ref.repository := by
  rw [normalizeContainerRef, Str.orEmpty_some, strip_text, if_neg ref.text_ne_nil]
  change repositoryKey (splitTag (splitDigest ref.text).1).1 = repositoryKey ref.repository
  rw [splitDigest_text, splitTag_tagged]

end Backend

/-- The functions find the repository, the backend its key. They find the tag if there is one; else
the operator and `split_repo_and_tag` give `latest`, `_image_ref_tag` too unless there is a digest,
and the backend no tag. -/
structure SplitsAgree [Unicode] : Prop where
  repoWithoutTag : Vat.repoWithoutTag ref.text = ref.repository
  splitRepo : (splitRepoAndTag (some ref.text)).1 = ref.repository
  canonicalAssetKey :
    (normalizeContainerRef (some ref.text)).canonicalAssetKey = repositoryKey ref.repository
  tagged : ∀ tag, ref.tag = some tag →
    tagFromRef ref.text = tag ∧ imageRefTag (some ref.text) = some tag ∧
      (splitRepoAndTag (some ref.text)).2 = tag ∧
      (normalizeContainerRef (some ref.text)).observedTag = some tag
  untagged : ref.tag = none →
    tagFromRef ref.text = latestTag ∧
      imageRefTag (some ref.text) = (if ref.hex = none then some latestTag else none) ∧
      (splitRepoAndTag (some ref.text)).2 = latestTag ∧
      (normalizeContainerRef (some ref.text)).observedTag = none

end ImageRef

/-- The functions agree on every reference, up to their defaults for one without a tag. -/
theorem splits_agree [Unicode] (ref : ImageRef) : ref.SplitsAgree where
  repoWithoutTag := ref.repoWithoutTag_text
  splitRepo := by rw [ref.splitRepoAndTag_text]
  canonicalAssetKey := ref.canonicalAssetKey_text
  tagged tag h := by
    rw [ref.tagFromRef_text, ref.imageRefTag_text, ref.splitRepoAndTag_text, ref.observedTag_text,
      h]
    exact ⟨rfl, rfl, rfl, rfl⟩
  untagged h := by
    rw [ref.tagFromRef_text, ref.imageRefTag_text, ref.splitRepoAndTag_text, ref.observedTag_text,
      h]
    exact ⟨rfl, rfl, rfl, rfl⟩

section Closed

attribute [local instance] asciiUnicode

/-- The operator and `split_repo_and_tag` take a reference by digest for the tag `latest`, the other
two for none. -/
theorem not_tags_agree :
    ¬ ∀ ref : ImageRef, repoWithoutTag ref.text = (splitRepoAndTag (some ref.text)).1 ∧
      imageRefTag (some ref.text) = some (tagFromRef ref.text) ∧
      (splitRepoAndTag (some ref.text)).2 = tagFromRef ref.text ∧
      (normalizeContainerRef (some ref.text)).observedTag = imageRefTag (some ref.text) := by
  intro h
  have hdigest := (h
    { host := none
      path := str "app"
      tag := none
      hex := some (str "0123456789ab")
      host_symbols := fun _ h => nomatch h
      path_ne_nil := by decide
      path_symbols := by decide
      tag_ne_nil := by decide
      tag_symbols := fun _ h => nomatch h
      hex_symbols := by rintro _ ⟨⟩; decide }).2.1
  revert hdigest
  decide +kernel

end Closed

end Vat
