import Vat.Ingest.Fingerprint

/-!
# Hashes of keys

A key or a client secret is drawn at random and stored as a hash. The message authentication code
with the pepper of the deployment is a function from texts to texts that is assumed to be injective,
and so is SHA-256, by which older entries are checked.

Source: `backend/app/core/key_hashing.py`, lines 33–73; `backend/app/services/ingest_keys.py`, lines
32–42.

## Main definitions

* `Pepper`, `hashKey`, `verifyKey`, `StoredHash`.
* `TokenSource`: `secrets.token_hex`.
-/

namespace Vat

/-- HMAC-SHA256 with the pepper of the deployment, as a hexadecimal text. -/
class Pepper where
  hmac : Str → Str
  hmac_injective : Function.Injective hmac

/-- `secrets.token_hex`: digits that were not drawn before. -/
class TokenSource where
  draw : List Str → Str
  mem_draw : ∀ drawn, ∀ c ∈ draw drawn, c ∈ str "0123456789abcdef"
  draw_ne_nil : ∀ drawn, draw drawn ≠ []
  draw_notMem : ∀ drawn, draw drawn ∉ drawn

/-- A pepper that changes nothing. -/
@[reducible] def noPepper : Pepper := ⟨id, Function.injective_id⟩

/-- Tokens that are longer than those before. -/
@[reducible] def longerTokens : TokenSource where
  draw drawn := List.replicate (drawn.flatten.length + 1) '0'
  mem_draw drawn c hc := by
    rw [List.eq_of_mem_replicate hc]
    decide
  draw_ne_nil drawn := List.cons_ne_nil _ _
  draw_notMem drawn h := by
    have hle := (List.sublist_flatten_of_mem h).length_le
    rw [List.length_replicate] at hle
    omega

section Hash

variable [Pepper]

/-- Hash an API key or a client secret. -/
def hashKey (key : Str) : Str := str "v2:" ++ Pepper.hmac key

/-- Check a key against a stored hash, which has no prefix if it is an older one. -/
def verifyKey [Sha256] (key storedHash : Str) : Bool :=
  if storedHash = [] then false
  else if Str.startsWith storedHash (str "v2:") then hashKey key = storedHash
  else Sha256.hexdigest key = storedHash

theorem hashKey_injective : Function.Injective hashKey := fun _ _ h =>
  Pepper.hmac_injective (List.append_cancel_left h)

@[simp] theorem verifyKey_hashKey [Sha256] {key key' : Str} :
    verifyKey key (hashKey key') = true ↔ key = key' := by
  have hne : hashKey key' ≠ [] := List.cons_ne_nil _ _
  have hprefix : Str.startsWith (hashKey key') (str "v2:") = true :=
    List.isPrefixOf_iff_prefix.mpr (List.prefix_append _ _)
  rw [verifyKey, if_neg hne, if_pos hprefix, decide_eq_true_iff, hashKey_injective.eq_iff]

/-- A hash that was made of a key, with the pepper. -/
abbrev StoredHash := { h : Str // ∃ key, h = hashKey key }

def StoredHash.of (key : Str) : StoredHash := ⟨hashKey key, key, rfl⟩

theorem StoredHash.of_injective : Function.Injective StoredHash.of := fun _ _ h =>
  hashKey_injective (Subtype.ext_iff.mp h)

theorem verifyKey_storedHash [Sha256] {key : Str} {h : StoredHash} :
    verifyKey key h.1 = true ↔ h = StoredHash.of key := by
  obtain ⟨_, key', rfl⟩ := h
  rw [verifyKey_hashKey, Subtype.ext_iff, StoredHash.of, hashKey_injective.eq_iff, eq_comm]

end Hash

/-- A drawn token has nothing to strip. -/
theorem isSpace_eq_false_of_mem_draw [TokenSource] {drawn : List Str} {c : Char}
    (hc : c ∈ TokenSource.draw drawn) : Str.isSpace c = false := by
  have hdigits : (str "0123456789abcdef").all (fun c => !Str.isSpace c) = true := by decide
  simpa using List.all_eq_true.mp hdigits c (TokenSource.mem_draw drawn c hc)

end Vat
