import Vat.Identity.ContainerRef

/-!
# Image digests in three components

The operator, the scanner and the backend each read digests out of image references. The Python
functions collect the hex digits of everything that follows the first marker; the operator takes the
run of digits after the last one. So they agree exactly where these are the same digits, as far as
they count (`digests_agree_iff`).

Source: `operator/internal/watch/workitems.go`, lines 99–125;
`vat-local-scanner/vat_scanner/container_identity.py`, lines 13–25;
`vat-local-scanner/vat_scanner/container_digest.py`, lines 40–55;
`backend/app/parsers/image_digest.py`, lines 8–32.

## Main definitions

* `extractDigest`, `imageDigestFromRef`, `normalizeSha256Digest`.
* `DigestsAgree`: the functions defined on a form of reference give the same.
* `RunDecides`: the run after the last marker has the digits that count.

## Main results

* `digestOfDigits_eq_iff`: when some digits and a run among them make the same digest.
* `digests_agree_iff`.
-/

namespace Vat

/-! ### The functions -/

/-- The hex digits in either case. -/
def isHex (b : Char) : Bool :=
  ('0' ≤ b && b ≤ '9') || ('a' ≤ b && b ≤ 'f') || ('A' ≤ b && b ≤ 'F')

/-- The marker of a digest. -/
def digestMarker : Str := str "sha256:"

/-- What follows the last occurrence of a text (`strings.LastIndex`). -/
def Str.afterLast (sep : Str) : Str → Option Str
  | [] => none
  | c :: s => (Str.afterLast sep s).or
    (if sep.isPrefixOf (c :: s) then some ((c :: s).drop sep.length) else none)

/-- `extractDigest` of the operator; the empty text for none. -/
def extractDigest (s : Str) : Str :=
  match Str.afterLast digestMarker s with
  | none => []
  | some rest =>
    let hex := (rest.takeWhile isHex).map Char.toLower
    if hex.length < 12 then [] else digestMarker ++ hex.take 64

section Functions

variable [Unicode]

/-- `image_digest_from_ref` of the scanner. -/
def imageDigestFromRef (ref : Option Str) : Option Str :=
  match Str.splitSub1 (str "@sha256:") (Str.strip (Str.orEmpty ref)) with
  | none => none
  | some (_, part) => digestOfHex (Unicode.lower part)

/-- `normalize_sha256_digest` of the scanner. -/
def normalizeSha256Digest (s : Option Str) : Option Str :=
  let t := Str.strip (Str.orEmpty s)
  if Str.startsWith t digestMarker then digestOfHex (Unicode.lower (t.drop 7)) else none

/-- A text that starts with the marker, in either case. -/
def IsBareDigest (s : Str) : Prop := Str.startsWith (Unicode.lower (Str.strip s)) digestMarker

/-- A reference with a digest. -/
def IsDigestRef (s : Str) : Prop := (Str.splitSub1 (str "@sha256:") s).isSome

/-- The functions that are defined on the form of a text give the same digest, or all none. -/
def DigestsAgree (s : Str) : Prop :=
  (IsBareDigest s →
    extractDigest s = Str.orEmpty (normalizeSha256Digest (some s)) ∧
      normalizeSha256Digest (some s) = normalizeImageDigest (some s)) ∧
  (IsDigestRef s →
    extractDigest s = Str.orEmpty (imageDigestFromRef (some s)) ∧
      imageDigestFromRef (some s) = extractDigestFromImageRef (some s))

end Functions

/-! ### Occurrences in a text -/

namespace Str

variable {sep s t x p : Str}

theorem eq_of_splitSub1 (h : splitSub1 sep s = some (x, p)) : s = x ++ sep ++ p := by
  induction s generalizing x with
  | nil => simp [splitSub1] at h
  | cons c s ih =>
    rw [splitSub1] at h
    split at h
    · next hpre =>
      obtain ⟨rfl, rfl⟩ := Prod.mk.inj (Option.some.inj h)
      rw [List.nil_append]
      exact List.prefix_iff_eq_append.mp (List.isPrefixOf_iff_prefix.mp hpre) |>.symm
    · obtain ⟨⟨y, q⟩, hy, heq⟩ := Option.map_eq_some_iff.mp h
      obtain ⟨rfl, rfl⟩ := Prod.mk.inj heq
      rw [ih hy]
      rfl

/-- A text without symbols of `sep` before the first occurrence does not change it. -/
theorem splitSub1_append_left {pre : Str} (hsep : sep ≠ []) (hpre : ∀ c ∈ pre, c ∉ sep) :
    splitSub1 sep (pre ++ t) = (splitSub1 sep t).map fun q => (pre ++ q.1, q.2) := by
  induction pre with
  | nil => simp
  | cons c pre ih =>
    have hno : sep.isPrefixOf (c :: (pre ++ t)) = false := by
      obtain ⟨d, sep, rfl⟩ := List.exists_cons_of_ne_nil hsep
      have hne : d ≠ c := fun h => hpre c (by simp) (by simp [h])
      simp [List.isPrefixOf, hne]
    rw [List.cons_append, splitSub1, hno, ih fun d hd => hpre d (by simp [hd]), Option.map_map]
    rfl

theorem prefix_of_prefix_append {post : Str} (hpost : ∀ c ∈ post, c ∉ sep)
    (h : sep <+: t ++ post) : sep <+: t := by
  rcases le_total sep.length t.length with hle | hle
  · exact List.prefix_of_prefix_length_le h (List.prefix_append t post) hle
  · obtain ⟨w, rfl⟩ := List.prefix_of_prefix_length_le (List.prefix_append t post) h hle
    cases w with
    | nil => simp
    | cons d w =>
      have hw : d :: w <+: post := (List.prefix_append_right_inj t).mp h
      exact absurd (by simp) (hpost d (hw.subset (by simp)))

/-- Nor does a text without symbols of `sep` behind it. -/
theorem splitSub1_append_right {post : Str} (hsep : sep ≠ []) (hpost : ∀ c ∈ post, c ∉ sep) :
    splitSub1 sep (t ++ post) = (splitSub1 sep t).map fun q => (q.1, q.2 ++ post) := by
  induction t with
  | nil =>
    have := splitSub1_append_left (t := []) hsep hpost
    simpa [splitSub1] using this
  | cons c t ih =>
    have hprefix : sep <+: c :: (t ++ post) ↔ sep <+: c :: t :=
      ⟨prefix_of_prefix_append (t := c :: t) hpost,
        fun h => h.trans (List.prefix_append (c :: t) post)⟩
    have hbool : sep.isPrefixOf (c :: (t ++ post)) = sep.isPrefixOf (c :: t) := by
      rw [Bool.eq_iff_iff, List.isPrefixOf_iff_prefix, List.isPrefixOf_iff_prefix, hprefix]
    rw [List.cons_append, splitSub1, splitSub1, hbool, ih, Option.map_map]
    split
    · next h =>
      have hle := (List.isPrefixOf_iff_prefix.mp h).length_le
      rw [Option.map_some, ← List.cons_append, List.drop_append_of_le_length hle]
    · rw [Option.map_map]
      rfl

theorem afterLast_append {r : Str} (h : afterLast sep s = some r) :
    afterLast sep (x ++ s) = some r := by
  induction x with
  | nil => exact h
  | cons c x ih => rw [List.cons_append, afterLast, ih, Option.some_or]

theorem eq_of_afterLast {r : Str} (h : afterLast sep s = some r) : ∃ x, s = x ++ sep ++ r := by
  induction s with
  | nil => simp [afterLast] at h
  | cons c s ih =>
    rw [afterLast, Option.or_eq_some_iff] at h
    rcases h with h | ⟨-, h⟩
    · obtain ⟨x, rfl⟩ := ih h
      exact ⟨c :: x, rfl⟩
    · split at h
      · next hpre =>
        rw [← Option.some.inj h]
        exact ⟨[], List.prefix_iff_eq_append.mp (List.isPrefixOf_iff_prefix.mp hpre) |>.symm⟩
      · simp at h

/-- No occurrence of the marker overlaps another one. -/
theorem afterLast_marker (p : Str) :
    afterLast digestMarker (digestMarker ++ p) = some ((afterLast digestMarker p).getD p) := by
  cases h : afterLast digestMarker p <;>
    simp_all [digestMarker, str, afterLast, List.isPrefixOf]

end Str

/-! ### Digits -/

/-- The hex digits of a text, in lower case. -/
def hexDigits (s : Str) : Str := (s.filter isHex).map Char.toLower

/-- The digest of some digits. -/
def digestOfDigits (digits : Str) : Option Str :=
  if digits.length < 12 then none else some (digestMarker ++ digits.take 64)

@[simp]
theorem hexDigits_append (s t : Str) : hexDigits (s ++ t) = hexDigits s ++ hexDigits t := by
  simp [hexDigits]

theorem hexDigits_eq_nil {s : Str} (h : ∀ c ∈ s, isHex c = false) : hexDigits s = [] := by
  rw [hexDigits, List.filter_eq_nil_iff.mpr fun c hc => by simp [h c hc], List.map_nil]

theorem isHexChar_toLower (c : Char) : isHexChar c.toLower = isHex c := by
  have h0 : ('0' : Char).val.toNat = 48 := rfl
  have h9 : ('9' : Char).val.toNat = 57 := rfl
  have ha : ('a' : Char).val.toNat = 97 := rfl
  have hf : ('f' : Char).val.toNat = 102 := rfl
  have hA : ('A' : Char).val.toNat = 65 := rfl
  have hF : ('F' : Char).val.toNat = 70 := rfl
  have hc : c.toNat = c.val.toNat := rfl
  rw [Bool.eq_iff_iff]
  simp only [isHexChar, isHex, Bool.or_eq_true, Bool.and_eq_true, decide_eq_true_eq, Char.le_def,
    UInt32.le_iff_toNat_le, h0, h9, ha, hf, hA, hF]
  delta Char.toLower
  split
  · next h =>
    simp only [UInt32.le_iff_toNat_le, UInt32.toNat_add] at h ⊢
    simp at h ⊢
    omega
  · next h =>
    simp only [UInt32.le_iff_toNat_le] at h
    simp at h
    omega

/-- Digits and a run among them make the same digest: fewer than twelve in all, or a run that is all
of them, or one that is long enough and starts with the same 64. -/
theorem digestOfDigits_eq_iff {skipped run later : Str} :
    digestOfDigits run = digestOfDigits (skipped ++ run ++ later) ↔
      (skipped ++ run ++ later).length < 12 ∨
        12 ≤ run.length ∧ run.length < 64 ∧ skipped = [] ∧ later = [] ∨
        64 ≤ run.length ∧ (skipped ++ run).take 64 = run.take 64 := by
  have hlen : (skipped ++ run ++ later).length = skipped.length + run.length + later.length := by
    rw [List.length_append, List.length_append]
  rw [digestOfDigits, digestOfDigits]
  by_cases htotal : (skipped ++ run ++ later).length < 12
  · have hrun : run.length < 12 := by omega
    simp only [htotal, hrun, if_true, true_or]
  by_cases hrun : run.length < 12
  · have hlong : ¬ 12 ≤ run.length ∧ ¬ 64 ≤ run.length := by omega
    simp only [htotal, hrun, hlong.1, hlong.2, if_true, if_false, false_and, or_self, reduceCtorEq]
  simp only [htotal, hrun, if_false, Option.some.injEq, List.append_cancel_left_eq,
    false_or]
  by_cases hfull : 64 ≤ run.length
  · have hnot : ¬ run.length < 64 := by omega
    rw [List.take_append_of_le_length (by simp; omega)]
    simp only [hfull, hnot, false_and, and_false, true_and, false_or, eq_comm]
  · rw [List.take_of_length_le (by omega : run.length ≤ 64)]
    constructor
    · intro h
      have := congrArg List.length h
      rw [List.length_take, hlen] at this
      exact .inl ⟨by omega, by omega, List.length_eq_zero_iff.mp (by omega),
        List.length_eq_zero_iff.mp (by omega)⟩
    · rintro (⟨-, -, rfl, rfl⟩ | ⟨h, -⟩)
      · simp only [List.nil_append, List.append_nil]
        exact (List.take_of_length_le (by omega : run.length ≤ 64)).symm
      · exact absurd h hfull

/-! ### Tables -/

/-- Unicode tables in which lowering a text lowers its hex digits and makes no other character
one. -/
class HexTables extends Unicode where
  lower_filter_hex : ∀ s : Str, (lower s).filter isHexChar = hexDigits s

/-- The tables on ASCII text. -/
@[reducible] def asciiHexTables : HexTables where
  toUnicode := asciiUnicode
  lower_filter_hex s := by
    have hcomp : isHexChar ∘ Char.toLower = isHex := funext isHexChar_toLower
    change (s.map Char.toLower).filter isHexChar = hexDigits s
    rw [List.filter_map, hcomp, hexDigits]

/-! ### When they agree -/

/-- The digits that count of a text after the first marker are those of the run after the last one:
there are fewer than twelve in all, or all are in the run, or the run fills the digest and digits
before it, if there are any, repeat it. -/
def RunDecides (p : Str) : Prop :=
  let q := (Str.afterLast digestMarker p).getD p
  let skipped := hexDigits (p.take (p.length - q.length))
  let run := hexDigits (q.takeWhile isHex)
  let later := hexDigits (q.dropWhile isHex)
  (skipped ++ run ++ later).length < 12 ∨
    12 ≤ run.length ∧ run.length < 64 ∧ skipped = [] ∧ later = [] ∨
    64 ≤ run.length ∧ (skipped ++ run).take 64 = run.take 64

/-- The same of a bare digest. With a marker in another case the scanner reads no digest, so that
the backend must find too few digits after it; the marker has four itself. -/
def BareDecides (s : Str) : Prop :=
  if Str.startsWith (Str.strip s) digestMarker then
    RunDecides ((s.dropWhile Str.isSpace).drop digestMarker.length)
  else ((hexDigits s).drop 4).length < 12

theorem extractDigest_of_afterLast {s q : Str} (h : Str.afterLast digestMarker s = some q) :
    extractDigest s = Str.orEmpty (digestOfDigits (hexDigits (q.takeWhile isHex))) := by
  have hall : (q.takeWhile isHex).filter isHex = q.takeWhile isHex :=
    List.filter_eq_self.mpr fun c hc => List.mem_takeWhile_imp hc
  simp only [extractDigest, h, hexDigits, hall, digestOfDigits]
  split <;> rfl

theorem orEmpty_digestOfDigits_inj {s t : Str} :
    Str.orEmpty (digestOfDigits s) = Str.orEmpty (digestOfDigits t) ↔
      digestOfDigits s = digestOfDigits t := by
  simp only [digestOfDigits]
  split <;> split <;> simp [digestMarker, str]

/-- The operator reads what the digits after the first marker make exactly if the run after the last
one decides. -/
theorem extractDigest_eq_iff {s p : Str}
    (h : Str.afterLast digestMarker s = some ((Str.afterLast digestMarker p).getD p)) :
    extractDigest s = Str.orEmpty (digestOfDigits (hexDigits p)) ↔ RunDecides p := by
  set q := (Str.afterLast digestMarker p).getD p with hq
  have hsuffix : q <:+ p := by
    cases hlast : Str.afterLast digestMarker p with
    | none => rw [hq, hlast]; exact List.suffix_rfl
    | some r =>
      obtain ⟨x, hx⟩ := Str.eq_of_afterLast hlast
      rw [hq, hlast]
      exact ⟨x ++ digestMarker, hx.symm⟩
  have hp : p = p.take (p.length - q.length) ++ q.takeWhile isHex ++ q.dropWhile isHex := by
    rw [List.append_assoc, List.takeWhile_append_dropWhile]
    exact (List.suffix_iff_eq_append.mp hsuffix).symm
  rw [extractDigest_of_afterLast h, orEmpty_digestOfDigits_inj]
  conv_lhs => rw [hp]
  rw [hexDigits_append, hexDigits_append, digestOfDigits_eq_iff]
  rfl

/-! ### Texts with a marker or with blanks around them -/

variable {s : Str}

theorem digestOfHex_eq (p : Str) : digestOfHex p = digestOfDigits (p.filter isHexChar) := by
  simp only [digestOfHex, digestOfDigits, List.length_take]
  split <;> split <;> first | rfl | omega

/-- The marker has four digits itself. -/
theorem hexDigits_of_marker {x p : Str} :
    hexDigits (x ++ digestMarker ++ p) = hexDigits x ++ str "a256" ++ hexDigits p := by
  rw [hexDigits_append, hexDigits_append]
  rfl

theorem isHex_of_isSpace {c : Char} (h : Str.isSpace c) : isHex c = false := by
  have hc : c.toNat = c.val.toNat := rfl
  rw [← Bool.not_eq_true]
  intro hhex
  simp only [isHex, Bool.or_eq_true, Bool.and_eq_true, decide_eq_true_eq, Char.le_def,
    UInt32.le_iff_toNat_le] at hhex
  simp only [Str.isSpace, Bool.or_eq_true, Bool.and_eq_true, decide_eq_true_eq, beq_iff_eq, hc] at h
  simp at hhex
  omega

theorem not_mem_refMarker_of_isSpace {c : Char} (h : Str.isSpace c) : c ∉ str "@sha256:" := by
  intro hc
  have hall : (str "@sha256:").all (fun d => !Str.isSpace d) = true := by decide
  have := List.all_eq_true.mp hall c hc
  simp [h] at this

/-- What is stripped are blanks. -/
theorem exists_strip (s : Str) : ∃ pre post, s = pre ++ Str.strip s ++ post ∧
    s.dropWhile Str.isSpace = Str.strip s ++ post ∧
    (∀ c ∈ pre, Str.isSpace c) ∧ ∀ c ∈ post, Str.isSpace c := by
  set t := s.dropWhile Str.isSpace with ht
  have hback : t = Str.strip s ++ (t.reverse.takeWhile Str.isSpace).reverse := by
    have := congrArg List.reverse
      (List.takeWhile_append_dropWhile (p := Str.isSpace) (l := t.reverse))
    rw [List.reverse_append, List.reverse_reverse] at this
    exact this.symm
  refine ⟨s.takeWhile Str.isSpace, (t.reverse.takeWhile Str.isSpace).reverse, ?_, hback,
    fun c hc => List.mem_takeWhile_imp hc,
    fun c hc => List.mem_takeWhile_imp (List.mem_reverse.mp hc)⟩
  rw [List.append_assoc, ← hback, ht, List.takeWhile_append_dropWhile]

theorem hexDigits_strip (s : Str) : hexDigits (Str.strip s) = hexDigits s := by
  obtain ⟨pre, post, hs, -, hpre, hpost⟩ := exists_strip s
  conv_rhs => rw [hs]
  rw [hexDigits_append, hexDigits_append,
    hexDigits_eq_nil fun c hc => isHex_of_isSpace (hpre c hc),
    hexDigits_eq_nil fun c hc => isHex_of_isSpace (hpost c hc), List.nil_append, List.append_nil]

/-- The first marker of a reference is found whether or not it is stripped before. -/
theorem splitSub1_strip {x p : Str} (h : Str.splitSub1 (str "@sha256:") s = some (x, p)) :
    ∃ y q, Str.splitSub1 (str "@sha256:") (Str.strip s) = some (y, q) ∧
      hexDigits q = hexDigits p := by
  obtain ⟨pre, post, hs, -, hpre, hpost⟩ := exists_strip s
  have hsep : str "@sha256:" ≠ [] := by decide
  rw [hs, Str.splitSub1_append_right hsep fun c hc => not_mem_refMarker_of_isSpace (hpost c hc),
    Str.splitSub1_append_left hsep fun c hc => not_mem_refMarker_of_isSpace (hpre c hc),
    Option.map_map, Option.map_eq_some_iff] at h
  obtain ⟨⟨y, q⟩, hy, heq⟩ := h
  obtain ⟨-, rfl⟩ := Prod.mk.inj heq
  refine ⟨y, q, hy, ?_⟩
  rw [hexDigits_append, hexDigits_eq_nil fun c hc => isHex_of_isSpace (hpost c hc),
    List.append_nil]

theorem extractDigest_eq_nil_of_few (hfew : ((hexDigits s).drop 4).length < 12) :
    extractDigest s = [] := by
  cases h : Str.afterLast digestMarker s with
  | none => rw [extractDigest, h]
  | some q =>
    obtain ⟨x, hx⟩ := Str.eq_of_afterLast h
    have hrun : (hexDigits (q.takeWhile isHex)).length < 12 := by
      rw [hx, ← List.takeWhile_append_dropWhile (p := isHex) (l := q), hexDigits_of_marker,
        hexDigits_append] at hfew
      simp only [List.length_drop, List.length_append] at hfew
      have : (str "a256").length = 4 := rfl
      omega
    rw [extractDigest_of_afterLast h, digestOfDigits, if_pos hrun]
    rfl

section Agree

variable [HexTables]

theorem digestOfHex_lower (p : Str) :
    digestOfHex (Unicode.lower p) = digestOfDigits (hexDigits p) := by
  rw [digestOfHex_eq, HexTables.lower_filter_hex]

theorem ref_agree_iff {x p : Str} (h : Str.splitSub1 (str "@sha256:") s = some (x, p)) :
    (extractDigest s = Str.orEmpty (imageDigestFromRef (some s)) ∧
      imageDigestFromRef (some s) = extractDigestFromImageRef (some s)) ↔ RunDecides p := by
  obtain ⟨y, q, hq, hdigits⟩ := splitSub1_strip h
  have hscanner : imageDigestFromRef (some s) = digestOfDigits (hexDigits p) := by
    simp only [imageDigestFromRef, Str.orEmpty_some, hq, digestOfHex_lower, hdigits]
  have hbackend : extractDigestFromImageRef (some s) = digestOfDigits (hexDigits p) := by
    simp only [extractDigestFromImageRef, Str.orEmpty_some, h, digestOfHex_lower]
  have hlast : Str.afterLast digestMarker s = some ((Str.afterLast digestMarker p).getD p) := by
    have hs : s = (x ++ str "@") ++ (digestMarker ++ p) := by
      rw [Str.eq_of_splitSub1 h]
      simp [digestMarker, str]
    rw [hs]
    exact Str.afterLast_append (Str.afterLast_marker p)
  rw [hscanner, hbackend, extractDigest_eq_iff hlast, and_iff_left rfl]

/-- The backend reads a bare digest from the digits after the marker, whatever its case. -/
theorem normalizeImageDigest_of_bare (hbare : IsBareDigest s) :
    normalizeImageDigest (some s) = digestOfDigits ((hexDigits s).drop 4) := by
  obtain ⟨u, hu⟩ := List.isPrefixOf_iff_prefix.mp hbare
  have hne : Unicode.lower (Str.strip s) ≠ [] := by
    rw [← hu]
    simp [digestMarker, str]
  have hdigits : u.filter isHexChar = (hexDigits s).drop 4 := by
    rw [← hexDigits_strip s, ← HexTables.lower_filter_hex, ← hu, List.filter_append]
    rfl
  have hdrop : (Unicode.lower (Str.strip s)).drop 7 = u := by
    rw [← hu]
    rfl
  rw [IsBareDigest, digestMarker] at hbare
  simp only [normalizeImageDigest, Str.orEmpty_some, if_neg hne, hbare, if_true, hdrop,
    digestOfHex_eq, hdigits]

theorem bare_agree_iff (hbare : IsBareDigest s) :
    (extractDigest s = Str.orEmpty (normalizeSha256Digest (some s)) ∧
      normalizeSha256Digest (some s) = normalizeImageDigest (some s)) ↔ BareDecides s := by
  rw [normalizeImageDigest_of_bare hbare, BareDecides]
  by_cases hmark : Str.startsWith (Str.strip s) digestMarker
  · obtain ⟨r, hr⟩ := List.isPrefixOf_iff_prefix.mp hmark
    obtain ⟨pre, post, hs, hfront, hpre, hpost⟩ := exists_strip s
    have hpost : hexDigits post = [] := hexDigits_eq_nil fun c hc => isHex_of_isSpace (hpost c hc)
    have htail : (s.dropWhile Str.isSpace).drop digestMarker.length = r ++ post := by
      rw [hfront, ← hr, List.append_assoc, List.drop_left]
    have hdigits : (hexDigits s).drop 4 = hexDigits (r ++ post) := by
      rw [← hexDigits_strip s, ← hr, hexDigits_append, hexDigits_append, hpost, List.append_nil]
      rfl
    have hscanner : normalizeSha256Digest (some s) = digestOfDigits (hexDigits (r ++ post)) := by
      have hdrop : (Str.strip s).drop 7 = r := by
        rw [← hr]
        rfl
      simp only [normalizeSha256Digest, Str.orEmpty_some, hmark, if_true, hdrop, digestOfHex_lower,
        hexDigits_append, hpost, List.append_nil]
    have hlast : Str.afterLast digestMarker s =
        some ((Str.afterLast digestMarker (r ++ post)).getD (r ++ post)) := by
      have hmarked : s = pre ++ (digestMarker ++ (r ++ post)) := by
        conv_lhs => rw [hs, ← hr]
        simp
      conv_lhs => rw [hmarked]
      exact Str.afterLast_append (Str.afterLast_marker (r ++ post))
    rw [if_pos hmark, hscanner, hdigits, htail, extractDigest_eq_iff hlast, and_iff_left rfl]
  · have hscanner : normalizeSha256Digest (some s) = none := by
      simp only [normalizeSha256Digest, Str.orEmpty_some, hmark, Bool.false_eq_true, if_false]
    have hnone : none = digestOfDigits ((hexDigits s).drop 4) ↔
        ((hexDigits s).drop 4).length < 12 := by
      rw [digestOfDigits]
      split <;> simp_all
    rw [if_neg hmark, hscanner, hnone]
    exact ⟨fun h => h.2, fun h => ⟨extractDigest_eq_nil_of_few h, h⟩⟩

/-- The components read the same digest from a text exactly if, on the forms it has, the run of
digits after the last marker has all that counts after the first one. -/
theorem digests_agree_iff (s : Str) :
    DigestsAgree s ↔ (IsBareDigest s → BareDecides s) ∧
      ∀ x p, Str.splitSub1 (str "@sha256:") s = some (x, p) → RunDecides p := by
  refine and_congr (imp_congr_right bare_agree_iff) ?_
  constructor
  · intro hagree x p h
    exact (ref_agree_iff h).mp (hagree (by rw [IsDigestRef, h]; rfl))
  · intro hruns href
    obtain ⟨⟨x, p⟩, h⟩ := Option.isSome_iff_exists.mp href
    exact (ref_agree_iff h).mpr (hruns x p h)

end Agree

section Ascii

attribute [local instance] asciiUnicode

/-- The operator stops at a character that is no digit, the others do not. -/
theorem not_digests_agree : ¬ ∀ s, DigestsAgree s := by
  intro hagree
  have := ((hagree (str "registry/app@sha256:0123456789abcdef-a")).2 rfl).1
  exact absurd this (by decide)

end Ascii

end Vat
