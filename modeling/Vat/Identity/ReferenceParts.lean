import Vat.Identity.ImageDigests
import Vat.Identity.ImageRefs

/-!
# The parts of any reference

A container reference is any text. Its repository is what is left without the blanks around it, its
digest and its tag; written out, the repository has its registry in front and no slash around its
path.

Source: `backend/app/services/container_ref_normalization.py`, lines 66–133.

## Main definitions

* `beforeDigest`, `repoPart`: a reference without its digest, and without digest and tag.
* `registryPath`, `fullName`: the registry and the path of a repository, and both written out.

## Main results

* `repoPart_digest`, `repoPart_tag`: a digest does not change the repository, nor does a tag.
* `repoPart_append`: what stands in front of a reference stands in front of its repository.
-/

namespace Vat

/-! ### Blanks around a text -/

namespace Str

variable {p : Char → Bool} {pre s x : Str}

/-- Nothing is stripped from a text that neither starts nor ends with what is stripped. -/
theorem stripWhile_eq_self_iff :
    stripWhile p s = s ↔
      (∀ c, s.head? = some c → p c = false) ∧ ∀ c, s.getLast? = some c → p c = false := by
  have hdrop : s.dropWhile p = s ↔ ∀ c, s.head? = some c → p c = false := by
    cases s with
    | nil => exact iff_of_true rfl fun c hc => nomatch hc
    | cons d s => simp [List.dropWhile_eq_self_iff]
  have hrdrop : s.rdropWhile p = s ↔ ∀ c, s.getLast? = some c → p c = false := by
    rcases List.eq_nil_or_concat s with rfl | ⟨s, d, rfl⟩
    · exact iff_of_true rfl fun c hc => nomatch hc
    · simp [List.rdropWhile_eq_self_iff]
  rw [← hdrop, ← hrdrop]
  refine ⟨fun h => ?_, fun h => ?_⟩
  · have hfront : s.dropWhile p = s := by
      refine (List.dropWhile_suffix p).sublist.eq_of_length_le ?_
      calc s.length = (stripWhile p s).length := by rw [h]
        _ ≤ (s.dropWhile p).length := (List.rdropWhile_prefix p _).length_le
    rw [stripWhile, hfront] at h
    exact ⟨hfront, h⟩
  · rw [stripWhile, h.1, h.2]

/-- A text without blanks in front of another one stays there. -/
theorem strip_append_of_noBlank (hne : pre ≠ []) (hpre : ∀ c ∈ pre, isSpace c = false) (x : Str) :
    strip (pre ++ x) = pre ++ x.rdropWhile isSpace := by
  have hfront : (pre ++ x).dropWhile isSpace = pre ++ x := by
    obtain ⟨c, pre, rfl⟩ := List.exists_cons_of_ne_nil hne
    rw [List.cons_append, List.dropWhile_cons, hpre c List.mem_cons_self,
      if_neg Bool.false_ne_true]
  have hself : pre.reverse.dropWhile isSpace = pre.reverse := by
    refine List.dropWhile_eq_self_iff.mpr fun hpos => ?_
    simpa using hpre _ (List.mem_reverse.mp (List.getElem_mem hpos))
  rw [strip, stripWhile, hfront, List.rdropWhile, List.rdropWhile, List.reverse_append,
    List.dropWhile_append]
  split_ifs with hempty
  · rw [hself, List.isEmpty_iff.mp hempty, List.reverse_reverse, List.reverse_nil, List.append_nil]
  · rw [List.reverse_append, List.reverse_reverse]

theorem strip_of_dropWhile (h : s.dropWhile isSpace = s) : strip s = s.rdropWhile isSpace := by
  rw [strip, stripWhile, h]

/-- What a text is divided into before its last colon and after it. -/
theorem exists_rsplit1 {c : Char} (h : c ∈ s) : ∃ y, s = (rsplit1 c s).1 ++ c :: y ∧ c ∉ y := by
  obtain ⟨y, x, hs, hy⟩ := List.eq_append_cons_of_mem (List.mem_reverse.mpr h)
  have hsplit : s = x.reverse ++ c :: y.reverse := by
    rw [← List.reverse_reverse s, hs]
    simp
  have hy' : c ∉ y.reverse := fun hmem => hy (List.mem_reverse.mp hmem)
  refine ⟨y.reverse, ?_, hy'⟩
  conv_lhs => rw [hsplit]
  rw [hsplit, rsplit1_append hy']

end Str

/-! ### The repository of a reference -/

/-- What stands before the first digest of a reference. -/
def beforeDigest (s : Str) : Str :=
  ((Str.splitSub1 (str "@sha256:") s).map Prod.fst).getD s

/-- The blanks at both ends of a text can be left where they are. -/
theorem splitDigest_strip_fst [Unicode] (s : Str) :
    (splitDigest (Str.strip s)).1 = Str.strip (beforeDigest s) := by
  obtain ⟨pre, post, hs, -, hpre, hpost⟩ := exists_strip s
  have hsep : str "@sha256:" ≠ [] := by decide
  have hsplit : Str.splitSub1 (str "@sha256:") s =
      (Str.splitSub1 (str "@sha256:") (Str.strip s)).map fun q => (pre ++ q.1, q.2 ++ post) := by
    conv_lhs => rw [hs]
    rw [Str.splitSub1_append_right hsep fun c hc => not_mem_refMarker_of_isSpace (hpost c hc),
      Str.splitSub1_append_left hsep fun c hc => not_mem_refMarker_of_isSpace (hpre c hc),
      Option.map_map]
    rfl
  rw [splitDigest, beforeDigest, hsplit]
  cases Str.splitSub1 (str "@sha256:") (Str.strip s) with
  | none => rfl
  | some q => exact (Str.stripWhile_append_left hpre q.1).symm

/-- A reference without the blanks around it, its digest and its tag. -/
def repoPart (s : Str) : Str := (splitTag (Str.strip (beforeDigest s))).1

/-- The key of a reference is that of its repository. -/
theorem canonicalAssetKey_eq_repositoryKey [Unicode] (s : Str) :
    (normalizeContainerRef (some s)).canonicalAssetKey = ImageRef.repositoryKey (repoPart s) := by
  rw [normalizeContainerRef, Str.orEmpty_some, repoPart, ← splitDigest_strip_fst]
  by_cases hempty : Str.strip s = []
  · rw [if_pos hempty, hempty]
    have hlower : ∀ t : String, ((str t).all fun c => c.toNat < 128 && c.toLower == c) = true →
        Unicode.lower (str t) = str t := fun t => Unicode.lower_eq_self
    have hkey : ImageRef.repositoryKey [] =
        let key := Str.stripWhile (· == '/')
          (Unicode.lower (str "docker.io") ++ str "/" ++ Unicode.lower (str "library/unknown"))
        if key = [] then str "docker.io/library/unknown" else key := rfl
    refine Eq.trans ?_ hkey.symm
    rw [hlower "docker.io" (by decide), hlower "library/unknown" (by decide)]
    decide
  · rw [if_neg hempty]
    rfl

/-- No digest starts within the marker of another one. -/
theorem marker_prefix_append {x hex : Str} (hne : x ≠ [])
    (h : str "@sha256:" <+: x ++ (str "@sha256:" ++ hex)) : str "@sha256:" <+: x := by
  rcases le_total (str "@sha256:").length x.length with hle | hle
  · exact List.prefix_of_prefix_length_le h (List.prefix_append x _) hle
  obtain ⟨rest, hrest⟩ := List.prefix_of_prefix_length_le (List.prefix_append x _) h hle
  cases rest with
  | nil => exact ⟨[], by rw [List.append_nil, ← hrest, List.append_nil]⟩
  | cons c rest =>
    -- the rest of the marker starts with its first symbol, which it has nowhere else
    rw [← hrest, List.prefix_append_right_inj, hrest] at h
    have hc : c = '@' := (List.cons_prefix_cons.mp h).1
    obtain ⟨d, x, rfl⟩ := List.exists_cons_of_ne_nil hne
    have hat : '@' ∈ x ++ c :: rest := by
      rw [hc]
      simp
    have htail : x ++ c :: rest = str "sha256:" := (List.cons_eq_cons.mp hrest).2
    rw [htail] at hat
    exact absurd hat (by decide)

theorem beforeDigest_cons (c : Char) (s : Str) :
    beforeDigest (c :: s) =
      if (str "@sha256:").isPrefixOf (c :: s) then [] else c :: beforeDigest s := by
  rw [beforeDigest, beforeDigest, Str.splitSub1]
  split_ifs
  · rfl
  · cases Str.splitSub1 (str "@sha256:") s with
    | none => rfl
    | some q => rfl

theorem beforeDigest_isPrefix (s : Str) : beforeDigest s <+: s := by
  induction s with
  | nil => exact List.prefix_rfl
  | cons c s ih =>
    rw [beforeDigest_cons]
    split_ifs
    · exact List.nil_prefix
    · exact List.cons_prefix_cons.mpr ⟨rfl, ih⟩

/-- The first digest comes first. -/
theorem beforeDigest_digest (s hex : Str) :
    beforeDigest (s ++ (str "@sha256:" ++ hex)) = beforeDigest s := by
  induction s with
  | nil => rfl
  | cons c s ih =>
    have hiff : (str "@sha256:").isPrefixOf (c :: (s ++ (str "@sha256:" ++ hex))) =
        (str "@sha256:").isPrefixOf (c :: s) := by
      rw [Bool.eq_iff_iff, List.isPrefixOf_iff_prefix, List.isPrefixOf_iff_prefix]
      exact ⟨marker_prefix_append (List.cons_ne_nil c s), fun h => h.trans (List.prefix_append _ _)⟩
    rw [List.cons_append, beforeDigest_cons, beforeDigest_cons, hiff, ih]

/-- A text without a digest is all before it. -/
theorem beforeDigest_eq_self_iff {s : Str} : beforeDigest s = s ↔ ¬ str "@sha256:" <:+: s := by
  induction s with
  | nil => exact iff_of_true rfl (by decide)
  | cons c s ih =>
    rw [beforeDigest_cons, List.infix_cons_iff, not_or, ← ih, ← List.isPrefixOf_iff_prefix]
    by_cases h : (str "@sha256:").isPrefixOf (c :: s) = true
    · rw [if_pos h]
      exact iff_of_false (List.cons_ne_nil c s).symm fun hno => hno.1 h
    · rw [if_neg h, List.cons_eq_cons]
      exact ⟨fun heq => ⟨h, heq.2⟩, fun heq => ⟨rfl, heq.2⟩⟩

/-- What stands in front of a reference stands in front of its digest. -/
theorem beforeDigest_append {pre : Str} (hpre : '@' ∉ pre) (s : Str) :
    beforeDigest (pre ++ s) = pre ++ beforeDigest s := by
  rw [beforeDigest, beforeDigest,
    show str "@sha256:" = '@' :: str "sha256:" from rfl, Str.splitSub1_append_of_head _ _ hpre]
  cases Str.splitSub1 ('@' :: str "sha256:") s with
  | none => rfl
  | some q => rfl

/-- A digest does not change the repository of a reference. -/
theorem repoPart_digest (s hex : Str) : repoPart (s ++ (str "@sha256:" ++ hex)) = repoPart s := by
  rw [repoPart, beforeDigest_digest, repoPart]

/-! ### Tags -/

/-- A text without a tag. -/
def Untagged (s : Str) : Prop := (splitTag s).2 = none

theorem untagged_of_notMem {s : Str} (h : ':' ∉ s) : Untagged s := by
  rw [Untagged, splitTag, if_pos h]

/-- What follows the last colon is no tag if there is a slash or nothing but blanks. -/
theorem untagged_append_iff {x y : Str} (hy : ':' ∉ y) :
    Untagged (x ++ ':' :: y) ↔ '/' ∈ y ∨ Str.strip y = [] := by
  have hcolon : ¬ ':' ∉ x ++ ':' :: y := fun h => h (by simp)
  rw [Untagged, splitTag, if_neg hcolon, Str.rsplit1_append hy]
  dsimp only
  split_ifs with hslash hempty
  · exact iff_of_true rfl (.inl hslash)
  · exact iff_of_true rfl (.inr hempty)
  · exact iff_of_false id fun h => h.elim hslash hempty

theorem splitTag_of_untagged {s : Str} (h : Untagged s) : (splitTag s).1 = s := by
  rw [Untagged, splitTag] at h
  rw [splitTag]
  dsimp only at h ⊢
  split_ifs at h ⊢
  · rfl
  · rfl
  · rfl

theorem splitTag_append_fst {x y : Str} (hy : ':' ∉ y) :
    (splitTag (x ++ ':' :: y)).1 =
      if '/' ∈ y ∨ Str.strip y = [] then x ++ ':' :: y else Str.strip x := by
  have hcolon : ¬ ':' ∉ x ++ ':' :: y := fun h => h (by simp)
  split_ifs with h
  · exact splitTag_of_untagged ((untagged_append_iff hy).mpr h)
  · rw [not_or] at h
    rw [splitTag, if_neg hcolon, Str.rsplit1_append hy]
    dsimp only
    rw [if_neg h.1, if_neg h.2]

/-- What stands in front of a text stands in front of it without its tag. -/
theorem splitTag_append_left {pre x : Str} (hne : pre ≠ [])
    (hpre : ∀ c ∈ pre, Str.isSpace c = false) (hcolon : ':' ∉ pre)
    (hx : x.dropWhile Str.isSpace = x) :
    (splitTag (pre ++ x)).1 = pre ++ (splitTag x).1 := by
  by_cases hmem : ':' ∈ x
  · obtain ⟨v, hsplit, hv⟩ := Str.exists_rsplit1 hmem
    set u := (Str.rsplit1 ':' x).1
    have hu : u.dropWhile Str.isSpace = u := by
      refine Str.dropWhile_of_isPrefix ?_ hx
      rw [hsplit]
      exact List.prefix_append _ _
    rw [hsplit, ← List.append_assoc, splitTag_append_fst hv, splitTag_append_fst hv,
      Str.strip_append_of_noBlank hne hpre, Str.strip_of_dropWhile hu]
    split_ifs
    · exact List.append_assoc _ _ _
    · rfl
  · have hboth : ':' ∉ pre ++ x := fun h => (List.mem_append.mp h).elim hcolon hmem
    rw [splitTag_of_untagged (untagged_of_notMem hboth),
      splitTag_of_untagged (untagged_of_notMem hmem)]

theorem splitTag_sublist (s : Str) : List.Sublist (splitTag s).1 s := by
  by_cases hmem : ':' ∈ s
  · obtain ⟨y, hs, hy⟩ := Str.exists_rsplit1 hmem
    set x := (Str.rsplit1 ':' s).1
    rw [hs, splitTag_append_fst hy]
    split_ifs
    · exact List.Sublist.refl _
    · exact (Str.stripWhile_sublist _ x).trans (List.sublist_append_left x _)
  · rw [splitTag_of_untagged (untagged_of_notMem hmem)]

/-- A tag is not empty. -/
theorem untagged_of_length_le {s : Str} (h : s.length ≤ (splitTag s).1.length) : Untagged s := by
  by_cases hmem : ':' ∈ s
  · obtain ⟨y, hs, hy⟩ := Str.exists_rsplit1 hmem
    set x := (Str.rsplit1 ':' s).1
    rw [hs] at h ⊢
    refine (untagged_append_iff hy).mpr ?_
    by_contra hno
    rw [splitTag_append_fst hy, if_neg hno, List.length_append, List.length_cons] at h
    have hle := (Str.stripWhile_sublist Str.isSpace x).length_le
    rw [Str.strip] at h
    omega
  · exact untagged_of_notMem hmem

/-- What can stand in front of a reference: no blank, no colon and no at sign. -/
def frontSymbol (c : Char) : Bool := !Str.isSpace c && c != ':' && c != '@'

theorem frontSymbol_iff {c : Char} :
    frontSymbol c = true ↔ Str.isSpace c = false ∧ c ≠ ':' ∧ c ≠ '@' := by
  simp [frontSymbol, and_assoc]

section Front

variable {pre : Str} (hne : pre ≠ []) (hpre : pre.all frontSymbol)

include hpre in
theorem front_symbols :
    (∀ c ∈ pre, Str.isSpace c = false) ∧ ':' ∉ pre ∧ '@' ∉ pre := by
  have hsymbols : ∀ c ∈ pre, Str.isSpace c = false ∧ c ≠ ':' ∧ c ≠ '@' := fun c hc =>
    frontSymbol_iff.mp (List.all_eq_true.mp hpre c hc)
  exact ⟨fun c hc => (hsymbols c hc).1, fun hc => (hsymbols _ hc).2.1 rfl,
    fun hc => (hsymbols _ hc).2.2 rfl⟩

include hne hpre

/-- What stands in front of a reference stands in front of its repository. -/
theorem repoPart_append {s : Str} (hs : s.dropWhile Str.isSpace = s) :
    repoPart (pre ++ s) = pre ++ repoPart s := by
  obtain ⟨hspace, hcolon, hat⟩ := front_symbols hpre
  have hfront : (beforeDigest s).dropWhile Str.isSpace = beforeDigest s :=
    Str.dropWhile_of_isPrefix (beforeDigest_isPrefix s) hs
  rw [repoPart, repoPart, beforeDigest_append hat, Str.strip_append_of_noBlank hne hspace,
    Str.strip_of_dropWhile hfront, splitTag_append_left hne hspace hcolon]
  exact Str.dropWhile_rdropWhile hfront

end Front

/-- A reference is its own repository if there is nothing to take off. -/
theorem repoPart_eq_self_iff {s : Str} :
    repoPart s = s ↔ ¬ str "@sha256:" <:+: s ∧ Str.strip s = s ∧ Untagged s := by
  refine ⟨fun h => ?_, fun h => ?_⟩
  · have htag := (splitTag_sublist (Str.strip (beforeDigest s))).length_le
    have hstrip := (Str.stripWhile_sublist Str.isSpace (beforeDigest s)).length_le
    have hdigest := (beforeDigest_isPrefix s).length_le
    have hlength : s.length = (splitTag (Str.strip (beforeDigest s))).1.length :=
      congrArg List.length h.symm
    rw [Str.strip] at htag hlength
    have hbefore : beforeDigest s = s :=
      (beforeDigest_isPrefix s).sublist.eq_of_length_le (by omega)
    rw [hbefore] at hstrip htag hlength
    have hself : Str.stripWhile Str.isSpace s = s :=
      (Str.stripWhile_sublist _ s).eq_of_length_le (by omega)
    rw [hself] at hlength
    exact ⟨beforeDigest_eq_self_iff.mp hbefore, hself, untagged_of_length_le hlength.le⟩
  · obtain ⟨hmarker, hstrip, htag⟩ := h
    rw [repoPart, beforeDigest_eq_self_iff.mpr hmarker, hstrip, splitTag_of_untagged htag]

/-- A tag completes no digest but one that lacks only the colon. -/
theorem marker_infix_tag {s tag : Str} (hcolon : ':' ∉ tag)
    (h : str "@sha256:" <:+: s ++ ':' :: tag) : str "@sha256:" <:+: s ++ str ":" := by
  obtain ⟨x, y, hxy⟩ := h
  by_cases hy : ':' ∈ y
  · obtain ⟨z, hz, hcolon'⟩ := Str.exists_rsplit1 hy
    set u := (Str.rsplit1 ':' y).1
    have hsplit : (x ++ str "@sha256:" ++ u) ++ ':' :: z = s ++ ':' :: tag := by
      rw [← hxy, hz, List.append_assoc]
    have heq := congrArg (Str.rsplit1 ':') hsplit
    rw [Str.rsplit1_append hcolon', Str.rsplit1_append hcolon] at heq
    rw [← (Prod.mk.inj heq).1]
    exact ⟨x, u ++ str ":", by rw [List.append_assoc, List.append_assoc, List.append_assoc]⟩
  · have hsplit : (x ++ str "@sha256") ++ ':' :: y = s ++ ':' :: tag := by
      rw [← hxy, List.append_assoc, List.append_assoc]
      rfl
    have heq := congrArg (Str.rsplit1 ':') hsplit
    rw [Str.rsplit1_append hy, Str.rsplit1_append hcolon] at heq
    rw [← (Prod.mk.inj heq).1]
    exact ⟨x, [], by rw [List.append_nil, List.append_assoc]; rfl⟩

theorem strip_tag {s tag : Str} (htag : ∀ c ∈ tag, Str.isSpace c = false) (hne : tag ≠ []) :
    Str.strip (s ++ ':' :: tag) = s.dropWhile Str.isSpace ++ ':' :: tag := by
  have hblank : ∀ c ∈ s.takeWhile Str.isSpace, Str.isSpace c := fun c hc => List.mem_takeWhile_imp hc
  have hcut : Str.strip (s ++ ':' :: tag) =
      Str.strip (s.dropWhile Str.isSpace ++ ':' :: tag) := by
    conv_lhs => rw [← List.takeWhile_append_dropWhile (p := Str.isSpace) (l := s), List.append_assoc]
    exact Str.stripWhile_append_left hblank _
  rw [hcut]
  refine Str.stripWhile_eq_self_iff.mpr ⟨fun c hc => ?_, fun c hc => ?_⟩
  · cases hd : s.dropWhile Str.isSpace with
    | nil =>
      rw [hd, List.nil_append, List.head?_cons] at hc
      cases hc
      decide
    | cons d t =>
      rw [hd, List.cons_append, List.head?_cons] at hc
      cases hc
      have hhead := List.head?_dropWhile_not Str.isSpace s
      rwa [hd] at hhead
  · rw [List.getLast?_append_of_ne_nil _ (List.cons_ne_nil _ _), List.getLast?_cons_of_ne_nil hne] at hc
    exact htag c (List.mem_of_getLast? hc)

/-- A tag does not change the repository of a reference that has neither a tag nor a digest, nor
gets one from the colon. -/
theorem repoPart_tag {s tag : Str} (hdigest : ¬ str "@sha256:" <:+: s ++ str ":")
    (huntagged : Untagged (Str.strip s)) (htag : tag.all refSymbol) (hne : tag ≠ []) :
    repoPart (s ++ ':' :: tag) = repoPart s := by
  have hspace : ∀ c ∈ tag, Str.isSpace c = false :=
    ImageRef.isSpace_of_taggedSymbol (ImageRef.all_taggedSymbol htag)
  have hbefore : beforeDigest (s ++ ':' :: tag) = s ++ ':' :: tag :=
    beforeDigest_eq_self_iff.mpr fun h =>
      hdigest (marker_infix_tag (notMem_of_all_refSymbol htag).1 h)
  have hself : beforeDigest s = s :=
    beforeDigest_eq_self_iff.mpr fun h => hdigest (h.trans (List.prefix_append s _).isInfix)
  have hstrip : Str.strip tag = tag := Str.strip_eq_self hspace
  have hno : ¬ ('/' ∈ tag ∨ Str.strip tag = []) := by
    rw [hstrip, not_or]
    exact ⟨(notMem_of_all_refSymbol htag).2.2, hne⟩
  rw [repoPart, repoPart, hbefore, hself, strip_tag hspace hne,
    splitTag_append_fst (notMem_of_all_refSymbol htag).1, if_neg hno,
    splitTag_of_untagged huntagged, Str.strip, Str.strip, Str.stripWhile, Str.stripWhile,
    List.dropWhile_idempotent]

/-! ### Repositories written out -/

/-- The registry of a repository, and its path without slashes around it. -/
def registryPath (repo : Str) : Str × Str :=
  match splitRegistryAndPath repo with
  | (none, path) => (str "docker.io", Str.stripWhile (· == '/') (dockerHubPath path))
  | (some registry, path) => (registry, Str.stripWhile (· == '/') path)

/-- A repository with its registry written out. -/
def fullName (repo : Str) : Str := (registryPath repo).1 ++ '/' :: (registryPath repo).2

/-- What makes the first part of a repository its registry. -/
def IsRegistry (s : Str) : Prop := '.' ∈ s ∨ ':' ∈ s ∨ s = str "localhost"

theorem isRegistry_dockerIo : IsRegistry (str "docker.io") ∧ '/' ∉ str "docker.io" :=
  ⟨.inl (by decide), by decide⟩

theorem Str.split1_append {c : Char} {x y : Str} (h : c ∉ x) :
    Str.split1 c (x ++ c :: y) = (x, y) := by
  have hx : ∀ d ∈ x, (d != c) = true := fun d hd => by
    simpa using fun heq : d = c => h (heq ▸ hd)
  rw [Str.split1, List.takeWhile_append_of_pos hx, List.dropWhile_append_of_pos hx]
  simp

theorem splitRegistryAndPath_append {registry path : Str} (hslash : '/' ∉ registry)
    (h : IsRegistry registry) :
    splitRegistryAndPath (registry ++ '/' :: path) = (some registry, path) := by
  rw [splitRegistryAndPath, if_neg (by simp), if_neg (by simp), Str.split1_append hslash]
  exact if_pos h

/-- A repository has no registry, or its first part is one. -/
theorem splitRegistryAndPath_cases (repo : Str) :
    splitRegistryAndPath repo = (none, repo) ∨
      ∃ registry path, repo = registry ++ '/' :: path ∧ '/' ∉ registry ∧ IsRegistry registry ∧
        splitRegistryAndPath repo = (some registry, path) := by
  by_cases hmem : '/' ∈ repo
  · obtain ⟨x, y, rfl, hx⟩ := List.eq_append_cons_of_mem hmem
    by_cases h : IsRegistry x
    · exact .inr ⟨x, y, rfl, hx, h, splitRegistryAndPath_append hx h⟩
    · refine .inl ?_
      rw [splitRegistryAndPath, if_neg (by simp), if_neg (by simp), Str.split1_append hx]
      exact if_neg h
  · refine .inl ?_
    rw [splitRegistryAndPath]
    by_cases hnil : repo = []
    · rw [if_pos hnil, hnil]
    · rw [if_neg hnil, if_pos hmem]

theorem registryPath_of_none {repo : Str} (h : (splitRegistryAndPath repo).1 = none) :
    registryPath repo = (str "docker.io", Str.stripWhile (· == '/') (dockerHubPath repo)) := by
  obtain hsplit | ⟨_, _, -, -, -, hsplit⟩ := splitRegistryAndPath_cases repo
  · rw [registryPath, hsplit]
  · rw [hsplit] at h
    cases h

/-- A repository that is written out is its own registry and path. -/
theorem registryPath_append {registry path : Str} (hslash : '/' ∉ registry)
    (h : IsRegistry registry) :
    registryPath (registry ++ '/' :: path) = (registry, Str.stripWhile (· == '/') path) := by
  rw [registryPath, splitRegistryAndPath_append hslash h]

/-- The first part of a repository that is written out is a registry. -/
theorem isRegistry_registryPath (repo : Str) :
    IsRegistry (registryPath repo).1 ∧ '/' ∉ (registryPath repo).1 := by
  obtain h | ⟨registry, path, rfl, hslash, hregistry, -⟩ := splitRegistryAndPath_cases repo
  · rw [registryPath_of_none (congrArg Prod.fst h)]
    exact isRegistry_dockerIo
  · rw [registryPath_append hslash hregistry]
    exact ⟨hregistry, hslash⟩

theorem IsRegistry.ne_nil {s : Str} (h : IsRegistry s) : s ≠ [] := by
  rintro rfl
  revert h
  rw [IsRegistry]
  decide

theorem stripWhile_registryPath (repo : Str) :
    Str.stripWhile (· == '/') (registryPath repo).2 = (registryPath repo).2 := by
  rw [registryPath]
  split <;> exact Str.stripWhile_stripWhile _ _

/-- An official image may have `library` in front. -/
theorem registryPath_library {name : Str} (hname : name ≠ []) (hslash : '/' ∉ name) :
    registryPath (str "library/" ++ name) = registryPath name := by
  have hnone : (splitRegistryAndPath name).1 = none := by
    rw [splitRegistryAndPath, if_neg hname, if_pos hslash]
  have hfront : (splitRegistryAndPath (str "library/" ++ name)).1 = none := by
    have hword : '/' ∉ str "library" := by decide
    have hsplit : Str.split1 '/' (str "library/" ++ name) = (str "library", name) :=
      Str.split1_append hword
    rw [splitRegistryAndPath, if_neg (by simp [str]), if_neg (by simp [str]), hsplit]
    rfl
  have hslashes : ∀ c ∈ name, (c == '/') = false := by
    intro c hc
    simpa using fun heq : c = '/' => hslash (heq ▸ hc)
  have hself : Str.stripWhile (· == '/') (str "library/" ++ name) = str "library/" ++ name := by
    refine Str.stripWhile_eq_self_iff.mpr ⟨fun c hc => ?_, fun c hc => ?_⟩
    · cases hc
      decide
    · rw [List.getLast?_append_of_ne_nil _ hname] at hc
      exact hslashes c (List.mem_of_getLast? hc)
  rw [registryPath_of_none hnone, registryPath_of_none hfront, dockerHubPath, dockerHubPath, hself,
    Str.stripWhile_eq_self hslashes]
  rw [if_neg (by simp [str]), if_neg (by simp [str]), if_neg hname, if_pos hslash]

/-- An image without a registry may have `docker.io` in front. -/
theorem registryPath_dockerIo {path : Str} (hpath : '/' ∈ Str.stripWhile (· == '/') path)
    (hnone : (splitRegistryAndPath path).1 = none) :
    registryPath (str "docker.io/" ++ path) = registryPath path := by
  have hfront : registryPath (str "docker.io" ++ '/' :: path) = _ :=
    registryPath_append isRegistry_dockerIo.2 isRegistry_dockerIo.1
  have hhub : dockerHubPath path = Str.stripWhile (· == '/') path := by
    rw [dockerHubPath, if_neg (List.ne_nil_of_mem hpath), if_neg (not_not.mpr hpath)]
  rw [registryPath_of_none hnone, hhub, Str.stripWhile_stripWhile]
  exact hfront

end Vat
