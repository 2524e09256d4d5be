import Vat.Python.Utf8
import Vat.Sbom.Cyclonedx

/-!
# Percent decoding

A percent sign with two hexadecimal digits stands for a byte. The bytes and the ASCII characters of
a run are decoded together, with a replacement character where they are no text; other characters
stay as they are. What was quoted comes back, and a text without escapes stays as it is. A text
never gets longer.

Source: `urllib.parse.quote` and `urllib.parse.unquote`, as `backend/app/services/sbom.py`, lines
308–358, and `backend/app/services/vuln_feeds.py`, lines 323–346, use them.

## Main definitions

* `unquoteUrl`: `urllib.parse.unquote`.
* `percentDecoding`.

## Main results

* `unquoteUrl_quoteUrl_append`: what was quoted comes back.
* `unquoteUrl_eq_self_iff`: the texts that stay as they are.
-/

namespace Vat

open Delimited

/-- The value of a hexadecimal digit. -/
def hexDigitValue (c : Char) : Option ℕ := (str "0123456789abcdef").idxOf? c.toLower

/-- The byte of an escape at the start of a text. -/
def escapedByte : Str → Option UInt8
  | '%' :: a :: b :: _ => do
    let m ← hexDigitValue a
    let n ← hexDigitValue b
    pure (UInt8.ofNat (m * 16 + n))
  | _ => none

/-- Decodes a text after the bytes of a run; its first `skip` characters belong to an escape. -/
def unquoteFrom : ℕ → Bytes → Str → Str
  | _, run, [] => run.decodeReplace
  | skip + 1, run, _ :: s => unquoteFrom skip run s
  | 0, run, c :: s =>
    match escapedByte (c :: s) with
    | some b => unquoteFrom 2 (run ++ [b]) s
    | none =>
      if c.toNat < 128 then unquoteFrom 0 (run ++ String.utf8EncodeChar c) s
      else run.decodeReplace ++ c :: unquoteFrom 0 [] s

/-- `urllib.parse.unquote`. -/
def unquoteUrl (s : Str) : Str := unquoteFrom 0 [] s

variable {s t u : Str} {c : Char} {run : Bytes} {skip : ℕ}

/-! ### What was quoted -/

theorem decodeReplace_encodeUtf8_append (s : Str) (rest : Bytes) :
    Bytes.decodeReplace (Str.encodeUtf8 s ++ rest) = s ++ rest.decodeReplace :=
  PrefixCode.decode_encode_append _ _ s rest

theorem decodeReplace_nil : Bytes.decodeReplace [] = [] := by
  rw [Bytes.decodeReplace, PrefixCode.decode]

theorem unquoteUrl_nil : unquoteUrl [] = [] := decodeReplace_nil

/-- The bytes of a text at the start of a run are that text. -/
theorem unquoteFrom_encodeUtf8_append (t : Str) :
    unquoteFrom skip (Str.encodeUtf8 t ++ run) s = t ++ unquoteFrom skip run s := by
  induction s generalizing skip run with
  | nil => exact decodeReplace_encodeUtf8_append t run
  | cons c s ih =>
    cases skip with
    | succ skip => exact ih
    | zero =>
      rw [unquoteFrom, unquoteFrom]
      split
      · rw [List.append_assoc, ih]
      · split_ifs
        · rw [List.append_assoc, ih]
        · rw [decodeReplace_encodeUtf8_append, List.append_assoc]

theorem unquoteFrom_encodeUtf8 (s t : Str) :
    unquoteFrom 0 (Str.encodeUtf8 t) s = t ++ unquoteUrl s := by
  have h : unquoteFrom 0 (Str.encodeUtf8 t ++ []) s = _ := unquoteFrom_encodeUtf8_append t
  rwa [List.append_nil] at h

theorem encodeUtf8_singleton (c : Char) : Str.encodeUtf8 [c] = String.utf8EncodeChar c :=
  List.flatMap_singleton ..

/-- A character that starts no escape stays. -/
theorem unquoteUrl_cons (h : escapedByte (c :: s) = none) :
    unquoteUrl (c :: s) = c :: unquoteUrl s := by
  rw [unquoteUrl, unquoteFrom, h]
  by_cases hc : c.toNat < 128
  · simp only [if_pos hc, List.nil_append]
    rw [← encodeUtf8_singleton, unquoteFrom_encodeUtf8]
    rfl
  · simp only [if_neg hc, decodeReplace_nil]
    rfl

theorem escapedByte_of_ne (hc : c ≠ '%') : escapedByte (c :: s) = none := by
  rw [escapedByte]
  rintro a b t h
  exact hc (List.cons.inj h).1

/-- A text without percent signs in front of another one stays. -/
theorem unquoteUrl_append_of_notMem (hu : '%' ∉ u) : unquoteUrl (u ++ s) = u ++ unquoteUrl s := by
  induction u with
  | nil => rfl
  | cons c u ih =>
    rw [List.mem_cons, not_or] at hu
    rw [List.cons_append, unquoteUrl_cons (escapedByte_of_ne (Ne.symm hu.1)), ih hu.2]
    rfl

theorem unquoteUrl_of_notMem (hs : '%' ∉ s) : unquoteUrl s = s := by
  have h := unquoteUrl_append_of_notMem (s := []) hs
  rwa [List.append_nil, unquoteUrl_nil, List.append_nil] at h

theorem hexDigitValue_digit : ∀ n < 16,
    hexDigitValue ((str "0123456789ABCDEF").getD n '0') = some n := by
  decide

theorem escapedByte_hexByte_append (b : UInt8) (s : Str) :
    escapedByte ('%' :: (hexByte b ++ s)) = some b := by
  have hb : b.toNat < 256 := b.toNat_lt
  simp only [hexByte, List.cons_append, List.nil_append, escapedByte,
    hexDigitValue_digit _ (by omega : b.toNat / 16 < 16),
    hexDigitValue_digit _ (by omega : b.toNat % 16 < 16), Option.bind_eq_bind, Option.bind_some,
    Option.pure_def, Nat.div_add_mod', UInt8.ofNat_toNat]

/-- The escapes of some bytes are those bytes. -/
theorem unquoteFrom_hexBytes_append (bytes : Bytes) :
    unquoteFrom 0 run ((bytes.flatMap fun b => '%' :: hexByte b) ++ s) =
      unquoteFrom 0 (run ++ bytes) s := by
  induction bytes generalizing run with
  | nil => rw [List.flatMap_nil, List.nil_append, List.append_nil]
  | cons b bytes ih =>
    rw [List.flatMap_cons, List.append_assoc, List.cons_append, unquoteFrom,
      escapedByte_hexByte_append, List.append_cons run b bytes, ← ih]
    rfl

/-- What was quoted comes back. -/
theorem unquoteUrl_quoteUrl_append {safe : Str} (hsafe : '%' ∉ safe) (s t : Str) :
    unquoteUrl (quoteUrl safe s ++ t) = s ++ unquoteUrl t := by
  induction s with
  | nil => rfl
  | cons c s ih =>
    rw [quoteUrl, List.flatMap_cons, ← quoteUrl, List.append_assoc, List.cons_append, ← ih]
    split_ifs with hc
    · refine unquoteUrl_cons (escapedByte_of_ne ?_)
      rintro rfl
      rcases hc with hc | hc | hc
      · exact absurd hc (by decide)
      · exact absurd hc (by decide)
      · exact hsafe hc
    · rw [unquoteUrl, unquoteFrom_hexBytes_append, ← encodeUtf8_singleton, List.nil_append,
        unquoteFrom_encodeUtf8]
      rfl

theorem unquoteUrl_quoteUrl {safe : Str} (hsafe : '%' ∉ safe) (s : Str) :
    unquoteUrl (quoteUrl safe s) = s := by
  have h := unquoteUrl_quoteUrl_append hsafe s []
  rwa [List.append_nil, unquoteUrl_nil, List.append_nil] at h

theorem isAlphanum_hexDigit : ∀ n < 16, ((str "0123456789ABCDEF").getD n '0').toNat < 128 ∧
    ((str "0123456789ABCDEF").getD n '0').isAlphanum := by
  decide

/-- A quoted text has letters, digits, percent signs and what is safe. -/
theorem forall_mem_quoteUrl {P : Char → Prop} {safe : Str}
    (halnum : ∀ n < 128, (Char.ofNat n).isAlphanum → P (Char.ofNat n))
    (hmarks : List.Forall P (str "_.-~%")) (hsafe : ∀ c ∈ safe, P c) : ∀ c ∈ quoteUrl safe s, P c := by
  have hchar : ∀ c : Char, c.toNat < 128 → c.isAlphanum → P c := by
    intro c hascii hc
    have h := halnum c.toNat hascii
    rw [Char.ofNat_toNat] at h
    exact h hc
  intro c hc
  obtain ⟨d, -, hd⟩ := List.mem_flatMap.mp hc
  split_ifs at hd with hplain
  · rw [List.mem_singleton.mp hd]
    rcases hplain with ⟨hascii, halnum⟩ | hmark | hmem
    · exact hchar d hascii halnum
    · exact List.forall_iff_forall_mem.mp hmarks d (List.mem_append_left ['%'] hmark)
    · exact hsafe d hmem
  · obtain ⟨b, -, hb⟩ := List.mem_flatMap.mp hd
    have hlt : b.toNat < 256 := b.toNat_lt
    simp only [hexByte, List.mem_cons, List.not_mem_nil, or_false] at hb
    rcases hb with rfl | rfl | rfl
    · exact List.forall_iff_forall_mem.mp hmarks '%' (by decide)
    · obtain ⟨hascii, halnum⟩ := isAlphanum_hexDigit (b.toNat / 16) (by omega)
      exact hchar _ hascii halnum
    · obtain ⟨hascii, halnum⟩ := isAlphanum_hexDigit (b.toNat % 16) (by omega)
      exact hchar _ hascii halnum

/-! ### The length of what is decoded -/

theorem length_utf8EncodeChar_of_lt (hc : c.toNat < 128) :
    (String.utf8EncodeChar c).length = 1 := by
  rw [String.length_utf8EncodeChar, Char.utf8Size_eq_one_iff]
  exact Nat.le_of_lt_succ hc

/-- A text does not get longer. -/
theorem length_unquoteFrom_le :
    (unquoteFrom skip run s).length ≤ run.length + (s.length - skip) := by
  induction s generalizing skip run with
  | nil => exact (PrefixCode.length_decode_le _ _ run).trans (Nat.le_add_right ..)
  | cons c s ih =>
    cases skip with
    | succ skip =>
      rw [unquoteFrom, List.length_cons, Nat.add_sub_add_right]
      exact ih
    | zero =>
      rw [unquoteFrom]
      split
      · refine ih.trans ?_
        simp only [List.length_append, List.length_cons, List.length_nil]
        omega
      · split_ifs with hc
        · refine ih.trans ?_
          rw [List.length_append, length_utf8EncodeChar_of_lt hc, List.length_cons]
          omega
        · have hrun : run.decodeReplace.length ≤ run.length := PrefixCode.length_decode_le _ _ run
          have hrest : (unquoteFrom 0 [] s).length ≤ _ := ih
          simp only [List.length_append, List.length_cons, List.length_nil] at hrest ⊢
          omega

theorem length_unquoteUrl_le (s : Str) : (unquoteUrl s).length ≤ s.length := by
  have h : (unquoteFrom 0 [] s).length ≤ _ := length_unquoteFrom_le
  rwa [List.length_nil, Nat.zero_add, Nat.sub_zero] at h

/-- A text with an escape gets shorter. -/
theorem length_unquoteFrom_lt (h : ∃ v, v <:+ s ∧ escapedByte v ≠ none) :
    (unquoteFrom 0 run s).length < run.length + s.length := by
  obtain ⟨v, hsuffix, hv⟩ := h
  induction s generalizing run with
  | nil =>
    rw [List.suffix_nil.mp hsuffix] at hv
    exact absurd rfl hv
  | cons c s ih =>
    rw [unquoteFrom]
    split
    · next b hb =>
      have hlength : 2 ≤ s.length := by
        match s with
        | a :: b :: s => exact Nat.le_add_left ..
        | [a] => simp [escapedByte] at hb
        | [] => simp [escapedByte] at hb
      refine length_unquoteFrom_le.trans_lt ?_
      simp only [List.length_append, List.length_cons, List.length_nil]
      omega
    · next hnone =>
      rcases List.suffix_cons_iff.mp hsuffix with rfl | hsuffix
      · exact absurd hnone hv
      · split_ifs with hc
        · refine (ih hsuffix).trans_le ?_
          rw [List.length_append, length_utf8EncodeChar_of_lt hc, List.length_cons]
          omega
        · have hrun : run.decodeReplace.length ≤ run.length := PrefixCode.length_decode_le _ _ run
          have hrest := @ih [] hsuffix
          simp only [List.length_append, List.length_cons, List.length_nil] at hrest ⊢
          omega

/-- No escape stands in a text. -/
def NoEscape (s : Str) : Prop := ∀ v, v <:+ s → escapedByte v = none

theorem noEscape_of_length_le (h : s.length ≤ (unquoteUrl s).length) : NoEscape s := by
  intro v hsuffix
  by_contra hv
  have hlt : (unquoteFrom 0 [] s).length < _ := length_unquoteFrom_lt ⟨v, hsuffix, hv⟩
  rw [← unquoteUrl, List.length_nil, Nat.zero_add] at hlt
  exact hlt.not_ge h

/-- The texts that stay as they are have no escape. -/
theorem unquoteUrl_eq_self_iff : unquoteUrl s = s ↔ NoEscape s := by
  constructor
  · intro h
    exact noEscape_of_length_le (by rw [h])
  · intro h
    induction s with
    | nil => exact unquoteUrl_nil
    | cons c s ih =>
      rw [unquoteUrl_cons (h _ List.suffix_rfl),
        ih fun v hsuffix => h v (hsuffix.trans (List.suffix_cons c s))]

/-- `urllib.parse.unquote` as a way to decode. -/
@[reducible] def percentDecoding : UrlDecoding where
  unquote := unquoteUrl
  unquote_of_notMem _ := unquoteUrl_of_notMem

end Vat
