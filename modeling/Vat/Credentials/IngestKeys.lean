import Vat.Credentials.KeyHash
import Vat.Keyed.Dictionary
import Vat.Orm.SharedRow
import Vat.Transition.Run

/-!
# Ingest keys

The keys of all sources are entries of one JSON row. A call locks the row, reads it, changes a copy
and writes it back. The lock makes the section one step, but a session that holds an object of the
row from before is not given what was written in between.

Source: `backend/app/services/ingest_keys.py`.

## Main definitions

* `IngestKeyEntry`, `KeyMutator.apply`: the entries, and what a call does to them.
* `IngestKeys`, `IngestKeys.step`, `IngestKeys.validateKey`.
* `serialStore`, `issuedKey`: the store after the calls one by one, and the key of a source.
* `KeyMutator.SeesOthers`, `IngestKeys.UpToDate`: an object that has what others have written.

## Main results

* `hashOf_serialStore`: the store of the calls one by one has the hashes of the issued keys.
* `IngestKeys.no_lost_update_iff`: the store is that of the calls one by one and the verdicts on
  keys are right exactly if no call works on an object that misses what others have written.
-/

namespace Vat

open Keyed Orm Transition

/-! ### The store -/

/-- The entry of a source. -/
structure IngestKeyEntry where
  authType : Str
  keyHash : Str
  keyPrefix : Str
  createdAt : Str
  rotatedAt : Option Str
  sourceId : Str
  deriving DecidableEq

abbrev KeyStore := Dictionary Str IngestKeyEntry

/-- `KEY_PREFIX`. -/
def ingestKeyPrefix : Str := str "vat_"

/-- What a call does to the store: with the key that it issues and the time. -/
inductive KeyMutator
  | create (source fullKey now : Str)
  | regenerate (source fullKey now : Str)
  | revoke (source : Str)

namespace KeyMutator

def source : KeyMutator → Str
  | create source _ _ | regenerate source _ _ | revoke source => source

/-- The key that is issued. -/
def fullKey? : KeyMutator → Option Str
  | create _ fullKey _ | regenerate _ fullKey _ => some fullKey
  | revoke _ => none

variable [Pepper]

/-- The entry that `create_key` stores. -/
def newEntry (source fullKey now : Str) (rotatedAt : Option Str) : IngestKeyEntry where
  authType := str "api_token"
  keyHash := hashKey fullKey
  keyPrefix := fullKey.take 6
  createdAt := now
  rotatedAt := rotatedAt
  sourceId := source

/-- The entry that `regenerate_key` stores: the creation time of an earlier one is kept. -/
def rotatedEntry (old : Option IngestKeyEntry) (source fullKey now : Str) : IngestKeyEntry :=
  newEntry source fullKey ((old.map IngestKeyEntry.createdAt).getD now) (some now)

/-- The mutators of `create_key`, `regenerate_key` and `revoke_key`. -/
def apply (store : KeyStore) : KeyMutator → KeyStore
  | create source fullKey now => store.set source (newEntry source fullKey now none)
  | regenerate source fullKey now =>
    store.set source (rotatedEntry (store.get? source) source fullKey now)
  | revoke source => store.erase source

/-- The hash of a source. -/
def hashOf (store : KeyStore) (source : Str) : Option Str :=
  (store.get? source).map IngestKeyEntry.keyHash

/-- A call changes the hash of its source only. -/
theorem hashOf_apply (store : KeyStore) (m : KeyMutator) (x : Str) :
    hashOf (m.apply store) x =
      if x = m.source then m.fullKey?.map hashKey else hashOf store x := by
  cases m with
  | create | regenerate =>
    rw [hashOf, apply, Dictionary.get?_set, source]
    split_ifs
    · rfl
    · rfl
  | revoke =>
    rw [hashOf, apply, Dictionary.get?_erase, source]
    split_ifs
    · rfl
    · rfl

/-- Equal stores stay equal. -/
theorem same_apply {d d' : KeyStore} (h : d.Same d') (m : KeyMutator) :
    (m.apply d).Same (m.apply d') := by
  cases m with
  | create source fullKey now => exact Dictionary.same_set_iff.mpr ⟨rfl, fun x _ => h x⟩
  | regenerate source fullKey now =>
    rw [apply, apply, h source]
    exact Dictionary.same_set_iff.mpr ⟨rfl, fun x _ => h x⟩
  | revoke source => exact Dictionary.same_erase_iff.mpr fun x _ => h x

end KeyMutator

/-! ### The calls one by one -/

section Serial

variable [Pepper]

/-- The store after calls one by one, the newest first. -/
def serialStore : List KeyMutator → KeyStore
  | [] => .empty
  | m :: log => m.apply (serialStore log)

omit [Pepper] in
/-- The key issued by the latest `create_key` or `regenerate_key` of a source, unless a `revoke_key`
came after. -/
def issuedKey : List KeyMutator → Str → Option Str
  | [], _ => none
  | m :: log, x => if x = m.source then m.fullKey? else issuedKey log x

/-- The hashes of the store are those of the issued keys. -/
theorem hashOf_serialStore (log : List KeyMutator) (x : Str) :
    KeyMutator.hashOf (serialStore log) x = (issuedKey log x).map hashKey := by
  induction log with
  | nil => rfl
  | cons m log ih =>
    rw [serialStore, KeyMutator.hashOf_apply, ih, issuedKey]
    split_ifs
    · rfl
    · rfl

/-- Keys of one store, by their hashes: they were issued, and no two sources have the same. -/
structure Distinct (keys : List Str) (store : KeyStore) : Prop where
  issued : ∀ x h, KeyMutator.hashOf store x = some h → ∃ k ∈ keys, h = hashKey k
  source_inj : ∀ x y h, KeyMutator.hashOf store x = some h → KeyMutator.hashOf store y = some h →
    x = y

theorem Distinct.empty (keys : List Str) : Distinct keys .empty :=
  ⟨fun _ _ h => (by cases h), fun _ _ _ h => (by cases h)⟩

theorem Distinct.mono {keys keys' : List Str} {store : KeyStore} (h : Distinct keys store)
    (hkeys : keys ⊆ keys') : Distinct keys' store :=
  ⟨fun x k hk => (h.issued x k hk).imp fun _ hk => ⟨hkeys hk.1, hk.2⟩, h.source_inj⟩

/-- A call that issues a new key, or none, keeps the keys distinct. -/
theorem Distinct.apply {keys : List Str} {store : KeyStore} (h : Distinct keys store)
    {m : KeyMutator} (hm : ∀ k ∈ m.fullKey?, k ∉ keys) :
    Distinct (m.fullKey?.toList ++ keys) (m.apply store) := by
  have hnew : ∀ x hash, KeyMutator.hashOf store x = some hash →
      m.fullKey?.map hashKey ≠ some hash := by
    intro x hash hx heq
    obtain ⟨k, hk, rfl⟩ := Option.map_eq_some_iff.mp heq
    obtain ⟨k', hk', hhash⟩ := h.issued x _ hx
    exact hm k hk (hashKey_injective hhash ▸ hk')
  constructor
  · intro x hash hx
    rw [KeyMutator.hashOf_apply] at hx
    split_ifs at hx with hsource
    · obtain ⟨k, hk, rfl⟩ := Option.map_eq_some_iff.mp hx
      exact ⟨k, List.mem_append_left _ (by simp [hk]), rfl⟩
    · obtain ⟨k, hk, rfl⟩ := h.issued x hash hx
      exact ⟨k, List.mem_append_right _ hk, rfl⟩
  · intro x y hash hx hy
    rw [KeyMutator.hashOf_apply] at hx hy
    split_ifs at hx hy with hxs hys hys
    · rw [hxs, hys]
    · exact absurd hx (hnew y hash hy)
    · exact absurd hy (hnew x hash hx)
    · exact h.source_inj x y hash hx hy

end Serial

/-! ### Sessions -/

/-- The row of the store, the keys drawn so far without their prefix, and the calls that were
committed, the newest first. The code keeps neither of the latter. -/
structure IngestKeys where
  shared : SharedRow KeyStore
  drawn : List Str
  log : List KeyMutator

/-- A statement of a session, with the time of the call. -/
inductive IngestKeysOp
  | createKey (session : ℕ) (sourceId now : Str)
  | regenerateKey (session : ℕ) (sourceId now : Str)
  | revokeKey (session : ℕ) (sourceId : Str)
  | validateKey (session : ℕ) (key : Str)
  | forget (session : ℕ)

/-- The session of an operation. -/
def IngestKeysOp.session : IngestKeysOp → ℕ
  | createKey w _ _ | regenerateKey w _ _ | revokeKey w _ | validateKey w _ | forget w => w

namespace IngestKeys

variable [Pepper]

/-- The row exists and has no keys. -/
def start : IngestKeys := ⟨.start .empty, [], []⟩

/-- `_mutate_keys_store`: a locked read, the change of a copy and a commit. -/
def mutateKeysStore (s : IngestKeys) (w : ℕ) (m : KeyMutator) : IngestKeys :=
  let store := s.shared.select w
  { s with
    shared := s.shared.flush w Dictionary.Same store (m.apply store)
    log := m :: s.log }

section Draw

variable [TokenSource]

/-- `generate_key`. -/
def generateKey (s : IngestKeys) : Str × IngestKeys :=
  let raw := TokenSource.draw s.drawn
  (ingestKeyPrefix ++ raw, { s with drawn := raw :: s.drawn })

/-- The mutator of a call and the state after it drew a key, if it gets as far as that. -/
def mutator? (s : IngestKeys) : IngestKeysOp → Option (ℕ × KeyMutator × IngestKeys)
  | .createKey w sourceId now =>
    let source := Str.strip sourceId
    if source = [] then none
    else some (w, .create source s.generateKey.1 now, s.generateKey.2)
  | .regenerateKey w sourceId now =>
    some (w, .regenerate sourceId s.generateKey.1 now, s.generateKey.2)
  | .revokeKey w sourceId => some (w, .revoke sourceId, s)
  | .validateKey _ _ | .forget _ => none

omit [Pepper] [TokenSource] in
/-- What is left of an operation without a mutator. -/
def touch (s : IngestKeys) : IngestKeysOp → IngestKeys
  | .validateKey w _ => { s with shared := s.shared.load w }
  | .forget w => { s with shared := s.shared.forget w }
  | .createKey _ _ _ | .regenerateKey _ _ _ | .revokeKey _ _ => s

def step (s : IngestKeys) (op : IngestKeysOp) : IngestKeys :=
  match s.mutator? op with
  | some (w, m, s') => s'.mutateKeysStore w m
  | none => s.touch op

end Draw

/-- `validate_key` on the store that the session is given: the source of the key. -/
def validateKey [Sha256] (store : KeyStore) (key : Str) : Option Str :=
  let key := Str.strip key
  if key = [] ∨ ¬ Str.startsWith key ingestKeyPrefix then none
  else store.findKey? fun e => e.keyHash ≠ [] && verifyKey key e.keyHash

end IngestKeys

/-! ### Issued keys -/

/-- The keys that calls have issued. -/
def issuedKeys (log : List KeyMutator) : List Str := log.flatMap fun m => m.fullKey?.toList

section Verdicts

variable [Pepper]

theorem Distinct.hashOf_ne {keys : List Str} {store : KeyStore} (h : Distinct keys store) {k : Str}
    (hk : k ∉ keys) (x : Str) : KeyMutator.hashOf store x ≠ some (hashKey k) := by
  intro hx
  obtain ⟨k', hk', heq⟩ := h.issued x _ hx
  exact hk (hashKey_injective heq ▸ hk')

/-- A key is accepted for the source with its hash. -/
theorem validateKey_eq_some_iff [Sha256] {keys : List Str} {store : KeyStore}
    (h : Distinct keys store) (hkeys : ∀ k ∈ keys, Str.startsWith k ingestKeyPrefix) (key x : Str) :
    IngestKeys.validateKey store key = some x ↔
      KeyMutator.hashOf store x = some (hashKey (Str.strip key)) := by
  have hprefix : Str.startsWith [] ingestKeyPrefix = false := by decide
  rw [IngestKeys.validateKey]
  split_ifs with hkey
  · refine iff_of_false (by simp) (h.hashOf_ne (fun hmem => ?_) x)
    have hstarts := hkeys _ hmem
    rcases hkey with hkey | hkey
    · rw [hkey, hprefix] at hstarts
      cases hstarts
    · exact hkey hstarts
  · have htest : ∀ y e, store.get? y = some e →
        ((e.keyHash ≠ [] && verifyKey (Str.strip key) e.keyHash) = true ↔
          e.keyHash = hashKey (Str.strip key)) := by
      intro y e he
      obtain ⟨k, -, hhash⟩ := h.issued y e.keyHash (by rw [KeyMutator.hashOf, he, Option.map_some])
      have hne : hashKey k ≠ [] := List.cons_ne_nil _ _
      rw [hhash, Bool.and_eq_true, verifyKey_hashKey, hashKey_injective.eq_iff, decide_eq_true_iff,
        and_iff_right hne, eq_comm]
    rw [Dictionary.findKey?_eq_some_iff]
    · rw [KeyMutator.hashOf, Option.map_eq_some_iff]
      exact exists_congr fun e => and_congr_right fun he => htest x e he
    · intro y y' e e' he he' hp hp'
      refine h.source_inj y y' (hashKey (Str.strip key)) ?_ ?_
      · rw [KeyMutator.hashOf, he, Option.map_some, (htest y e he).mp hp]
      · rw [KeyMutator.hashOf, he', Option.map_some, (htest y' e' he').mp hp']

/-! ### One call -/

/-- The object that a call works on has what others have written to the row: the entries of the
other sources, for `regenerate_key` also the creation time of its own entry, and `revoke_key` does
not miss the entry that it is to remove. -/
def KeyMutator.SeesOthers (m : KeyMutator) (store row : KeyStore) : Prop :=
  match m with
  | create source _ _ => ∀ x, x ≠ source → store.get? x = row.get? x
  | regenerate source _ now =>
    ((store.get? source).map IngestKeyEntry.createdAt).getD now =
        ((row.get? source).map IngestKeyEntry.createdAt).getD now ∧
      ∀ x, x ≠ source → store.get? x = row.get? x
  | revoke source =>
    if store.get? source = none then row.get? source = none
    else ∀ x, x ≠ source → store.get? x = row.get? x

/-- A call leaves the row as if it had worked on it exactly if its object has what others wrote. -/
theorem KeyMutator.same_written_iff {keys : List Str} {store : KeyStore} (h : Distinct keys store)
    {m : KeyMutator} (hm : ∀ k ∈ m.fullKey?, k ∉ keys) (row : KeyStore) :
    (if (m.apply store).Same store then row else m.apply store).Same (m.apply row) ↔
      m.SeesOthers store row := by
  have hissue : ∀ source e fullKey, fullKey ∉ keys → e.keyHash = hashKey fullKey →
      ¬ (store.set source e).Same store := by
    intro source e fullKey hkey hhash hsame
    refine h.hashOf_ne hkey source ?_
    rw [hashOf, Dictionary.same_set_self_iff.mp hsame, Option.map_some, hhash]
  cases m with
  | create source fullKey now =>
    rw [apply, apply, if_neg (hissue source _ fullKey (hm fullKey rfl) rfl),
      Dictionary.same_set_iff, and_iff_right rfl, SeesOthers]
  | regenerate source fullKey now =>
    rw [apply, apply, if_neg (hissue source _ fullKey (hm fullKey rfl) rfl),
      Dictionary.same_set_iff, SeesOthers]
    refine and_congr_left fun _ => ?_
    simp only [rotatedEntry, newEntry, IngestKeyEntry.mk.injEq, true_and, and_true]
  | revoke source =>
    rw [apply, apply, SeesOthers]
    split_ifs with herase hsource hsource
    · rw [← Dictionary.same_erase_self_iff]
      exact ⟨Dictionary.Same.symm, Dictionary.Same.symm⟩
    · exact absurd (Dictionary.same_erase_self_iff.mp herase) hsource
    · exact absurd (Dictionary.same_erase_self_iff.mpr hsource) herase
    · exact Dictionary.same_erase_iff

end Verdicts

/-! ### Runs -/

namespace IngestKeys

variable [Pepper] [TokenSource]

/-- Every object of the row has keys that were issued, and those come from different draws. -/
structure Sound (s : IngestKeys) : Prop where
  issued : issuedKeys s.log = s.drawn.map (ingestKeyPrefix ++ ·)
  nodup : s.drawn.Nodup
  distinct : s.shared.Forall (Distinct (issuedKeys s.log))

omit [TokenSource] in
theorem sound_start : start.Sound :=
  ⟨rfl, List.nodup_nil, SharedRow.forall_start (Distinct.empty _)⟩

/-- A call that gets as far as its mutator has the row and the sessions as they were, and issues a
key that is new. -/
theorem mutator?_spec {s s' : IngestKeys} {op : IngestKeysOp} {w : ℕ} {m : KeyMutator}
    (h : s.mutator? op = some (w, m, s')) (hs : s.Sound) :
    s'.shared = s.shared ∧ s'.log = s.log ∧ (∀ k ∈ m.fullKey?, k ∉ issuedKeys s.log) ∧
      s'.drawn.Nodup ∧
      issuedKeys (m :: s.log) = s'.drawn.map (ingestKeyPrefix ++ ·) := by
  have hnew : ∀ k ∈ some s.generateKey.1, k ∉ issuedKeys s.log := by
    intro k hk hmem
    rw [hs.issued] at hmem
    obtain ⟨raw, hraw, heq⟩ := List.mem_map.mp hmem
    rw [Option.mem_some_iff, generateKey] at hk
    rw [← hk] at heq
    exact TokenSource.draw_notMem s.drawn (List.append_cancel_left heq ▸ hraw)
  have hdrawn : s.generateKey.2.drawn.Nodup :=
    List.nodup_cons.mpr ⟨TokenSource.draw_notMem s.drawn, hs.nodup⟩
  have hissued : s.generateKey.1 :: issuedKeys s.log =
      s.generateKey.2.drawn.map (ingestKeyPrefix ++ ·) := by
    rw [hs.issued, generateKey, List.map_cons]
  cases op with
  | createKey w' sourceId now =>
    rw [mutator?] at h
    split_ifs at h
    cases h
    exact ⟨rfl, rfl, hnew, hdrawn, hissued⟩
  | regenerateKey w' sourceId now =>
    cases h
    exact ⟨rfl, rfl, hnew, hdrawn, hissued⟩
  | revokeKey w' sourceId =>
    cases h
    have hnone : ∀ k ∈ (none : Option Str), k ∉ issuedKeys s.log := fun k hk => nomatch hk
    exact ⟨rfl, rfl, hnone, hs.nodup, hs.issued⟩
  | validateKey | forget => cases h

theorem sound_step (s : IngestKeys) (op : IngestKeysOp) (hs : s.Sound) : (s.step op).Sound := by
  rw [step]
  split
  · next w m s' hm =>
    obtain ⟨hshared, hlog, hnew, hnodup, hissued⟩ := mutator?_spec hm hs
    refine ⟨by rw [mutateKeysStore, hlog]; exact hissued, hnodup, ?_⟩
    rw [mutateKeysStore, hlog, hshared]
    have hkeys : issuedKeys (m :: s.log) = m.fullKey?.toList ++ issuedKeys s.log := rfl
    rw [hkeys]
    refine SharedRow.Forall.flush w ?_ ((hs.distinct.select w).apply hnew)
    exact hs.distinct.mono fun _ h => h.mono (List.subset_append_right _ _)
  · cases op with
    | validateKey w => exact ⟨hs.issued, hs.nodup, hs.distinct.load w⟩
    | forget w => exact ⟨hs.issued, hs.nodup, hs.distinct.forget w⟩
    | createKey | regenerateKey | revokeKey => exact hs

omit [TokenSource] in
/-- The row is the store of the calls one by one. -/
def Serial (s : IngestKeys) : Prop := s.shared.row.Same (serialStore s.log)

variable [Sha256]

omit [TokenSource] in
/-- A verdict on a key is for the source whose issued key it is. -/
def RightVerdict (s : IngestKeys) : IngestKeysOp → Prop
  | .validateKey w key => ∀ x,
    validateKey (s.shared.select w) key = some x ↔ issuedKey s.log x = some (Str.strip key)
  | _ => True

/-- The row stays the store of the calls one by one, and a verdict is right. -/
def Serialized (s : IngestKeys) (op : IngestKeysOp) : Prop :=
  (s.step op).Serial ∧ s.RightVerdict op

omit [TokenSource] [Sha256] in
/-- The object of the session has the hash of the key that is checked where the row has it. -/
def SeesHash (s : IngestKeys) : IngestKeysOp → Prop
  | .validateKey w key => ∀ x,
    KeyMutator.hashOf (s.shared.select w) x = some (hashKey (Str.strip key)) ↔
      KeyMutator.hashOf s.shared.row x = some (hashKey (Str.strip key))
  | _ => True

omit [Sha256] in
/-- The object that a session has of the row does not miss what the operation needs: what others
wrote, for a change, and whether the row has the hash of the key, for a verdict. -/
def UpToDate (s : IngestKeys) (op : IngestKeysOp) : Prop :=
  match s.mutator? op with
  | some (w, m, _) => m.SeesOthers (s.shared.select w) s.shared.row
  | none => s.SeesHash op

omit [Sha256] in
theorem serial_step_iff {s : IngestKeys} (hs : s.Sound) (hserial : s.Serial) (op : IngestKeysOp) :
    (s.step op).Serial ↔ ∀ w m s', s.mutator? op = some (w, m, s') →
      m.SeesOthers (s.shared.select w) s.shared.row := by
  rw [step]
  split
  · next w m s' hm =>
    obtain ⟨hshared, hlog, hnew, -, -⟩ := mutator?_spec hm hs
    have hiff := KeyMutator.same_written_iff (hs.distinct.select w) hnew s.shared.row
    have htarget : (m.apply s.shared.row).Same (m.apply (serialStore s.log)) :=
      KeyMutator.same_apply hserial m
    rw [Serial, mutateKeysStore, hlog, hshared, serialStore]
    constructor
    · intro h w' m' s'' hm'
      cases hm.symm.trans hm'
      exact hiff.mp fun x => (h x).trans (htarget x).symm
    · intro h
      have hsame := hiff.mpr (h w m s' hm)
      exact fun x => (hsame x).trans (htarget x)
  · next hm =>
    have hrow : (s.touch op).Serial := by
      cases op with
      | validateKey | forget | createKey | regenerateKey | revokeKey => exact hserial
    refine iff_of_true hrow fun w m s' hm' => ?_
    cases hm.symm.trans hm'

/-- While the row is the store of the calls one by one, an operation keeps it so and gives a right
verdict exactly if its session is up to date. -/
theorem serialized_iff {s : IngestKeys} (hs : s.Sound) (hserial : s.Serial) (op : IngestKeysOp) :
    s.Serialized op ↔ s.UpToDate op := by
  have hissuedStarts : ∀ k ∈ issuedKeys s.log, Str.startsWith k ingestKeyPrefix := by
    intro k hk
    rw [hs.issued] at hk
    obtain ⟨raw, -, rfl⟩ := List.mem_map.mp hk
    exact List.isPrefixOf_iff_prefix.mpr (List.prefix_append _ _)
  rw [Serialized, serial_step_iff hs hserial, UpToDate]
  split
  · next w m s' hm =>
    have hverdict : s.RightVerdict op := by
      cases op with
      | validateKey => cases hm
      | createKey | regenerateKey | revokeKey | forget => trivial
    rw [and_iff_left hverdict]
    constructor
    · exact fun h => h w m s' hm
    · intro h w' m' s'' hm'
      cases hm.symm.trans hm'
      exact h
  · next hm =>
    rw [and_iff_right fun w m s' hm' => by cases hm.symm.trans hm']
    cases op with
    | validateKey w key =>
      refine forall_congr' fun x => ?_
      have hrow : KeyMutator.hashOf s.shared.row x = some (hashKey (Str.strip key)) ↔
          issuedKey s.log x = some (Str.strip key) := by
        rw [KeyMutator.hashOf, hserial x]
        change KeyMutator.hashOf (serialStore s.log) x = _ ↔ _
        rw [hashOf_serialStore, Option.map_eq_some_iff]
        simp [hashKey_injective.eq_iff]
      rw [validateKey_eq_some_iff (hs.distinct.select w) hissuedStarts, hrow]
    | createKey | regenerateKey | revokeKey | forget => exact Iff.rfl

/-- The row is the store of the calls one by one after every call, and a key is accepted for a
source exactly if it is the one issued last and not revoked since, exactly if no call works on an
object that misses what others have written. -/
theorem no_lost_update_iff (ops : List IngestKeysOp) :
    Along step Serialized start ops ↔ Along step UpToDate start ops := by
  have hiff : ∀ s op, Sound s ∧ Serial s → (s.Serialized op ↔ s.UpToDate op) :=
    fun s op h => serialized_iff h.1 h.2 op
  refine along_iff_along hiff ?_ ⟨sound_start, fun _ => rfl⟩
  exact fun s op h hop => ⟨sound_step s op h.1, hop.1⟩

end IngestKeys

section Closed

attribute [local instance] noPepper longerTokens unaryDigest

/-- A session checks a key, another one issues a key for `a`, and the first one issues a key for
`b`: it writes the store that it has read first, and the key for `a` is not accepted any more. -/
theorem IngestKeys.not_no_lost_update :
    ¬ ∀ ops, Along IngestKeys.step IngestKeys.Serialized IngestKeys.start ops := by
  intro h
  have hserial := (h [.validateKey 0 (str "vat_"), .createKey 1 (str "a") [],
    .createKey 0 (str "b") []]).2.2.1.1 (str "a")
  revert hserial
  decide +kernel

end Closed

end Vat
