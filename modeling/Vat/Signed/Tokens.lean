import Mathlib.Logic.Encodable.Basic

/-!
# Signed tokens

A server signs claims with a secret and later accepts a token if it carries the signature, names the
right issuer and has not expired. A scheme says what tokens carry; that nobody else can sign is a
condition on the tokens that are presented, `Scheme.Genuine`: what such a token carries has been
signed before.

## Main definitions

* `Scheme`: encoding and decoding of signed claims.
* `Scheme.Carries`, `Scheme.Genuine`.

## Main results

* `Scheme.decode_eq_some_iff`: what a token is accepted as, and when.
* `Scheme.genuine_encode`: a token that was made of signed claims is genuine.
* `Scheme.ofEncodable`: a scheme that hides nothing.
-/

namespace Signed

variable {τ κ ι : Type*} {issuer : κ → ι} {expiry : κ → ℕ}

/-- Encoding and decoding of signed claims. A token that is accepted at some time for some issuer is
accepted like the encoding of its claims. -/
structure Scheme (τ : Type*) {κ ι : Type*} (issuer : κ → ι) (expiry : κ → ℕ) where
  encode : κ → τ
  decode : ℕ → ι → τ → Option κ
  decode_encode : ∀ now i c c',
    decode now i (encode c) = some c' ↔ c = c' ∧ issuer c = i ∧ now ≤ expiry c
  decode_of_decode : ∀ {now i t c}, decode now i t = some c →
    ∀ now' i', decode now' i' t = decode now' i' (encode c)

namespace Scheme

variable (S : Scheme τ issuer expiry)

/-- A token that carries a signature of the claims. -/
def Carries (t : τ) (c : κ) : Prop := ∃ now i, S.decode now i t = some c

/-- What the token carries has been signed. -/
def Genuine (signed : κ → Prop) (t : τ) : Prop := ∀ c, S.Carries t c → signed c

variable {S}

theorem decode_eq_encode {t : τ} {c : κ} (h : S.Carries t c) (now : ℕ) (i : ι) :
    S.decode now i t = S.decode now i (S.encode c) := by
  obtain ⟨now', i', h⟩ := h
  exact S.decode_of_decode h now i

theorem carries_encode_iff {c c' : κ} : S.Carries (S.encode c) c' ↔ c = c' := by
  constructor
  · rintro ⟨now, i, h⟩
    exact ((S.decode_encode now i c c').mp h).1
  · rintro rfl
    exact ⟨0, issuer c, (S.decode_encode 0 (issuer c) c c).mpr ⟨rfl, rfl, Nat.zero_le _⟩⟩

/-- A token is accepted as the claims that it carries, for their issuer, until they expire. -/
theorem decode_eq_some_iff {now : ℕ} {i : ι} {t : τ} {c : κ} :
    S.decode now i t = some c ↔ S.Carries t c ∧ issuer c = i ∧ now ≤ expiry c := by
  constructor
  · intro h
    refine ⟨⟨now, i, h⟩, ?_⟩
    rw [S.decode_of_decode h, S.decode_encode] at h
    exact h.2
  · rintro ⟨hc, hi, hnow⟩
    rw [decode_eq_encode hc, S.decode_encode]
    exact ⟨rfl, hi, hnow⟩

theorem genuine_encode {signed : κ → Prop} {c : κ} (h : signed c) :
    S.Genuine signed (S.encode c) := by
  intro c' hc'
  rwa [← carries_encode_iff.mp hc']

end Scheme

/-- A scheme that hides nothing: the length of a token tells its claims. -/
@[irreducible] def Scheme.ofEncodable [Encodable κ] [DecidableEq κ] [DecidableEq ι] (issuer : κ → ι)
    (expiry : κ → ℕ) : Scheme (List Char) issuer expiry where
  encode c := List.replicate (Encodable.encode c + 1) '0'
  decode now i t := (Encodable.decode (t.length - 1)).filter fun c =>
    t = List.replicate (Encodable.encode c + 1) '0' ∧ issuer c = i ∧ now ≤ expiry c
  decode_encode now i c c' := by
    rw [List.length_replicate, Nat.add_sub_cancel, Encodable.encodek, Option.filter_eq_some_iff,
      decide_eq_true_eq, Option.some.injEq]
    constructor
    · rintro ⟨rfl, -, hi, hnow⟩
      exact ⟨rfl, hi, hnow⟩
    · rintro ⟨rfl, hi, hnow⟩
      exact ⟨rfl, rfl, hi, hnow⟩
  decode_of_decode {now i t c} h now' i' := by
    rw [Option.filter_eq_some_iff, decide_eq_true_eq] at h
    rw [h.2.1]

theorem Scheme.ofEncodable_encode_ne_nil [Encodable κ] [DecidableEq κ] [DecidableEq ι]
    (issuer : κ → ι) (expiry : κ → ℕ) (c : κ) :
    (Scheme.ofEncodable issuer expiry).encode c ≠ [] := by
  rw [Scheme.ofEncodable]
  exact List.cons_ne_nil _ _

end Signed
