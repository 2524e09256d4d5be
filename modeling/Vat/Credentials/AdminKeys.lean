import Mathlib.Data.List.Perm.Subperm
import Vat.Credentials.OauthClients
import Vat.Findings.Visibility

/-!
# Admin keys

Keys for automation are entries of one JSON row, under ids that count up. A call reads the row into
a copy, adds or takes out an entry and saves the copy with a second select, without a lock. The id
of a new key is the first that the copy does not use.

Source: `backend/app/services/admin_keys.py`.

## Main definitions

* `StoredAdminKey`, `AuthSources.withKeys`: the entries, and what `resolveAdminKey` makes of them.
* `nextId`.
* `AdminKeys.step`: the two parts of a call, and what happens to the object of a session.
* `AdminKeys.UpToDate`: a save that keeps the other entries and overwrites no key, and a verdict
  from what the row has.

## Main results

* `nextId_notMem`: the id of a new key is free in the copy.
* `AdminKeys.honoured_of_upToDate`: in a run of such operations, a key is accepted from the call
  that created it up to the one that revokes it, and not after it.
* `credentials_stay_dead`: both stores.
-/

namespace Vat

open Keyed Orm Transition

/-! ### The store -/

/-- `KEY_PREFIX`. -/
def adminKeyPrefix : Str := str "vat_"

section Hash

variable [Pepper]

/-- What `create_admin_key` stores under an id. -/
structure StoredAdminKey where
  keyHash : StoredHash
  keyPrefix : Str
  tenantId : Option Str
  crossTenant : Bool
  createdAt : Str
  deriving DecidableEq

abbrev AdminStore := Dictionary Str StoredAdminKey

/-- The hash under an id. -/
def storedKey (store : AdminStore) (id : Str) : Option StoredHash :=
  (store.get? id).map StoredAdminKey.keyHash

/-- An entry as `resolve_admin_key` reads it. -/
def StoredAdminKey.entry (keyId : Str) (info : StoredAdminKey) : AdminKeyEntry where
  keyId := keyId
  keyHash := some info.keyHash.1
  tenantId := some info.tenantId
  crossTenant := some info.crossTenant

/-- What authentication consults when the store is the setting that it reads. -/
def AuthSources.withKeys [Sha256] (src : AuthSources) (store : AdminStore) : AuthSources :=
  { src with
    verifyKey := Vat.verifyKey
    adminKeys := store.entries.map fun e => e.2.entry e.1 }

/-- The id under which `resolve_admin_key` accepts a key. -/
theorem keyId_resolveAdminKey [Sha256] (src : AuthSources) (store : AdminStore) (key : Str) :
    (resolveAdminKey (src.withKeys store) key).map ResolvedAdminKey.keyId =
      if Str.startsWith (Str.strip key) adminKeyPrefix then
        store.findKey? fun info => verifyKey (Str.strip key) info.keyHash.1
      else none := by
  have hopens : ∀ e : Str × StoredAdminKey,
      (e.2.entry e.1).opens (src.withKeys store) (Str.strip key) =
        verifyKey (Str.strip key) e.2.keyHash.1 := by
    rintro ⟨keyId, info⟩
    obtain ⟨key', hkey'⟩ := info.keyHash.2
    have hne : info.keyHash.1 ≠ [] := by
      rw [hkey']
      exact List.cons_ne_nil _ _
    change (decide (info.keyHash.1 ≠ []) && verifyKey (Str.strip key) info.keyHash.1) = _
    rw [decide_eq_true hne, Bool.true_and]
  have hresolve : resolveAdminKey (src.withKeys store) key =
      if ¬ Str.startsWith (Str.strip key) adminKeyPrefix then none
      else ((store.entries.map fun e => e.2.entry e.1).find?
        (AdminKeyEntry.opens (src.withKeys store) (Str.strip key))).map
          AdminKeyEntry.resolved := rfl
  rw [hresolve]
  split_ifs
  · rw [List.find?_map, Option.map_map, Option.map_map, Dictionary.findKey?]
    have htest : AdminKeyEntry.opens (src.withKeys store) (Str.strip key) ∘
        (fun e : Str × StoredAdminKey => e.2.entry e.1) =
          fun e => verifyKey (Str.strip key) e.2.keyHash.1 := funext hopens
    rw [htest]
    rfl
  · rfl

theorem storedKey_eq_of_same (store store' : AdminStore) (h : store.Same store') (id : Str) :
    storedKey store id = storedKey store' id := by
  rw [storedKey, storedKey, h id]

/-! ### Ids -/

/-- The number in an id. The ids of a store are written by `nextId` and have ASCII digits only. -/
def akNumber (id : Str) : Option ℕ :=
  let digits := id.drop 3
  if Str.startsWith id (str "ak_") ∧ digits ≠ [] ∧ digits.all Char.isDigit then
    some (Nat.ofDigitChars 10 digits 0)
  else none

def akId (n : ℕ) : Str := str "ak_" ++ Nat.toDigits 10 n

omit [Pepper] in
@[simp] theorem akNumber_akId (n : ℕ) : akNumber (akId n) = some n := by
  have hdigits : (akId n).drop 3 = Nat.toDigits 10 n := rfl
  have hall : (Nat.toDigits 10 n).all Char.isDigit = true := List.all_eq_true.mpr fun c hc =>
    Nat.isDigit_of_mem_toDigits (by decide) (by decide) hc
  have hstarts : Str.startsWith (akId n) (str "ak_") = true :=
    List.isPrefixOf_iff_prefix.mpr (List.prefix_append _ _)
  rw [akNumber, hdigits, if_pos ⟨hstarts, Nat.toDigits_ne_nil, hall⟩, Nat.ofDigitChars_ten_toDigits]

/-- The first number from one on that is not used. -/
def firstUnused (used : List ℕ) : ℕ :=
  ((List.range' 1 (used.length + 1)).find? fun n => n ∉ used).getD 1

omit [Pepper] in
/-- One of so many numbers is not used. -/
theorem firstUnused_notMem (used : List ℕ) : firstUnused used ∉ used := by
  rw [firstUnused]
  cases hfind : (List.range' 1 (used.length + 1)).find? fun n => n ∉ used with
  | some n => simpa using List.find?_some hfind
  | none =>
    have hsubset : List.range' 1 (used.length + 1) ⊆ used := fun n hn => by
      simpa using List.find?_eq_none.mp hfind n hn
    have hlength := (List.subperm_of_subset List.nodup_range' hsubset).length_le
    rw [List.length_range'] at hlength
    omega

/-- `_next_id`. -/
def nextId (store : AdminStore) : Str :=
  akId (firstUnused (store.entries.filterMap fun e => akNumber e.1))

/-- The id of a new key is free in the copy. -/
theorem nextId_notMem (store : AdminStore) : nextId store ∉ store.entries.map Prod.fst := by
  intro hmem
  obtain ⟨e, he, heq⟩ := List.mem_map.mp hmem
  have hnumber : akNumber e.1 =
      some (firstUnused (store.entries.filterMap fun e => akNumber e.1)) := by
    rw [heq]
    exact akNumber_akId _
  refine firstUnused_notMem (store.entries.filterMap fun e => akNumber e.1) ?_
  exact List.mem_filterMap.mpr ⟨e, he, hnumber⟩

/-! ### The calls -/

/-- What `create_admin_key` does with the store. -/
def createKeyEdit (fullKey : Str) (tenantId : Option Str) (crossTenant : Bool) (now : Str)
    (store : AdminStore) : Option (Edit AdminStore Str Str) :=
  let keyId := nextId store
  let info : StoredAdminKey :=
    { keyHash := .of fullKey
      keyPrefix := fullKey.take 6
      tenantId
      crossTenant
      createdAt := now }
  some ⟨store, store.set keyId info, keyId, some fullKey⟩

/-- What `revoke_admin_key` does with the store, if it has the id. -/
def revokeKeyEdit (keyId : Str) (store : AdminStore) : Option (Edit AdminStore Str Str) :=
  if store.get? keyId = none then none else some ⟨store, store.erase keyId, keyId, none⟩

/-- A call changes the key under its id only. -/
theorem editsOne_createKeyEdit (fullKey : Str) (tenantId : Option Str) (crossTenant : Bool)
    (now : Str) : EditedRow.EditsOne storedKey StoredHash.of
      (createKeyEdit fullKey tenantId crossTenant now) := by
  rintro store e ⟨⟩ x
  rw [storedKey, Dictionary.get?_set]
  split_ifs
  · rfl
  · rfl

theorem editsOne_revokeKeyEdit (keyId : Str) :
    EditedRow.EditsOne storedKey StoredHash.of (revokeKeyEdit keyId) := by
  intro store e h x
  rw [revokeKeyEdit] at h
  split_ifs at h
  cases h
  rw [storedKey, Dictionary.get?_erase]
  split_ifs
  · rfl
  · rfl

end Hash

/-- The row of the store, a row that does not exist yet being the empty store, and the tokens drawn
so far. -/
structure AdminKeys [Pepper] where
  rows : EditedRow AdminStore Str Str
  drawn : List Str

/-- A step of a session. A call is two steps: its first part, with the time, and the save. -/
inductive AdminOp
  | createAdminKey (session : ℕ) (tenantId : Option Str) (crossTenant : Bool) (now : Str)
  | revokeAdminKey (session : ℕ) (keyId : Str)
  | saveStore (session : ℕ)
  | resolveAdminKey (session : ℕ) (key : Str)
  | forget (session : ℕ)
  | close (session : ℕ)

/-- A key was created under an id that was not revoked since. -/
def Standing : List (Str × Option Str) → Str → Str → Prop
  | [], _, _ => False
  | e :: log, id, key => e = (id, some key) ∨ e ≠ (id, none) ∧ Standing log id key

/-- A key was created under an id that was revoked since. -/
def Revoked : List (Str × Option Str) → Str → Prop
  | [], _ => False
  | e :: log, key => Revoked log key ∨ e.2 = none ∧ (e.1, some key) ∈ log

theorem Revoked.retired {log : List (Str × Option Str)} {key : Str} (h : Revoked log key) :
    Retired id log key := by
  induction log with
  | nil => exact h
  | cons e log ih => exact h.imp ih fun h => ⟨key, rfl, h.2⟩

namespace AdminKeys

variable [Pepper] [TokenSource]

def start : AdminKeys := ⟨.start .empty, []⟩

/-- A key for a tenant and for all of them, or for neither, is refused. -/
def step (s : AdminKeys) : AdminOp → AdminKeys
  | .createAdminKey w tenantId crossTenant now =>
    if crossTenant ∧ tenantId ≠ none ∨ ¬ crossTenant ∧ ¬ Str.truthy tenantId then s
    else
      let raw := TokenSource.draw s.drawn
      ⟨s.rows.edit w (createKeyEdit (adminKeyPrefix ++ raw) tenantId crossTenant now),
        raw :: s.drawn⟩
  | .revokeAdminKey w keyId => { s with rows := s.rows.edit w (revokeKeyEdit keyId) }
  | .saveStore w => { s with rows := s.rows.save w Dictionary.Same }
  | .resolveAdminKey w _ => { s with rows := s.rows.read w }
  | .forget w => { s with rows := s.rows.forget w }
  | .close w => { s with rows := s.rows.close w }

/-! ### The row and the calls -/

omit [TokenSource] in
/-- The row has the keys that the calls have left, no key was issued twice, and none was lost. -/
structure Sound (s : AdminKeys) : Prop where
  current : s.rows.Current storedKey StoredHash.of
  fresh : s.rows.Fresh id (s.drawn.map (adminKeyPrefix ++ ·))
  digits : ∀ t ∈ s.drawn, ∀ c ∈ t, Str.isSpace c = false
  standing : ∀ id key, Standing s.rows.log id key → latest s.rows.log id = some key

omit [TokenSource] in
theorem sound_start : start.Sound :=
  ⟨EditedRow.current_start fun _ => rfl, EditedRow.fresh_start, fun _ h => (by cases h),
    fun _ _ h => (by cases h)⟩

omit [TokenSource] in
/-- A save keeps the other keys and writes its own, and the id of a new key is free in the row. -/
def SavesKey (s : AdminKeys) (w : ℕ) : Prop :=
  s.rows.SavesOthers w storedKey StoredHash.of Dictionary.Same ∧
    ∀ copy id key, s.rows.pending w = some (copy, id, some key) →
      storedKey s.rows.shared.row id = none

omit [TokenSource] in
theorem sound_save {s : AdminKeys} (hs : s.Sound) {w : ℕ} (h : s.SavesKey w) :
    Sound { s with rows := s.rows.save w Dictionary.Same } := by
  refine ⟨hs.current.save w h.1, hs.fresh.save w, hs.digits, fun id key hstanding => ?_⟩
  rw [EditedRow.save] at hstanding ⊢
  split at hstanding
  · next hpending => exact hs.standing id key hstanding
  · next copy written hpending =>
    rw [latest]
    obtain rfl | ⟨hne, hold⟩ := hstanding
    · rw [if_pos rfl]
    · have hlatest := hs.standing id key hold
      split_ifs with hid
      · obtain ⟨id', v⟩ := written
        cases hid
        cases v with
        | none => exact absurd rfl hne
        | some key' =>
          have hfree := h.2 copy id' key' hpending
          rw [hs.current.row, hlatest] at hfree
          cases hfree
      · exact hlatest

/-- Steps keep that, as long as a save keeps the other entries and overwrites no key. -/
theorem sound_step {s : AdminKeys} (hs : s.Sound) (op : AdminOp)
    (hsave : ∀ w, op = .saveStore w → s.SavesKey w) : (s.step op).Sound := by
  have hlog : ∀ w f, (s.rows.edit w f).log = s.rows.log := by
    intro w f
    rw [EditedRow.edit]
    split
    · rfl
    · rfl
    · rfl
  cases op with
  | createAdminKey w tenantId crossTenant now =>
    rw [step]
    split_ifs
    · exact hs
    · refine ⟨hs.current.edit w (editsOne_createKeyEdit _ _ _ _), ?_, ?_, fun id key h => ?_⟩
      · refine hs.fresh.edit w [adminKeyPrefix ++ TokenSource.draw s.drawn] ?_
        rintro store e ⟨⟩ t ht
        cases ht
        refine ⟨List.mem_singleton_self _, fun hmem => ?_⟩
        obtain ⟨raw, hraw, heq⟩ := List.mem_map.mp hmem
        exact TokenSource.draw_notMem s.drawn (List.append_cancel_left heq ▸ hraw)
      · intro t ht c hc
        rcases List.mem_cons.mp ht with rfl | ht
        · exact isSpace_eq_false_of_mem_draw hc
        · exact hs.digits t ht c hc
      · rw [hlog] at h ⊢
        exact hs.standing id key h
  | revokeAdminKey w keyId =>
    refine ⟨hs.current.edit w (editsOne_revokeKeyEdit _), ?_, hs.digits, fun id key h => ?_⟩
    · refine hs.fresh.edit w [] fun store e he t ht => ?_
      rw [revokeKeyEdit] at he
      split_ifs at he
      cases he
      cases ht
    · change latest (s.rows.edit w _).log id = some key
      change Standing (s.rows.edit w _).log id key at h
      rw [hlog] at h ⊢
      exact hs.standing id key h
  | saveStore w => exact sound_save hs (hsave w rfl)
  | resolveAdminKey w => exact ⟨hs.current.read w, hs.fresh.read w, hs.digits, hs.standing⟩
  | forget w => exact ⟨hs.current.forget w, hs.fresh.forget w, hs.digits, hs.standing⟩
  | close w => exact ⟨hs.current.close w, hs.fresh.close w, hs.digits, hs.standing⟩

/-! ### Verdicts -/

variable [Sha256]

omit [TokenSource] in
/-- A verdict on a key accepts it under the id that it was created under, as long as that was not
revoked, and not after that. -/
def Honoured (s : AdminKeys) : AdminOp → Prop
  | .resolveAdminKey w key =>
    ∀ src : AuthSources,
      let verdict := Vat.resolveAdminKey (src.withKeys (s.rows.shared.select w)) key
      (∀ id, Standing s.rows.log id key → verdict.map ResolvedAdminKey.keyId = some id) ∧
        (Revoked s.rows.log key → verdict = none)
  | _ => True

omit [TokenSource] [Sha256] in
/-- A save keeps the other keys, writes its own and overwrites none, and a session that checks a key
has an object with the same entries for it as the row. -/
def UpToDate (s : AdminKeys) : AdminOp → Prop
  | .saveStore w => s.SavesKey w
  | .resolveAdminKey w key => ∀ id,
    (storedKey (s.rows.shared.select w) id = some (.of (Str.strip key)) ↔
      storedKey s.rows.shared.row id = some (.of (Str.strip key)))
  | _ => True

omit [TokenSource] [Sha256] in
/-- A key that was issued has nothing to strip. -/
theorem strip_of_mem_labels {s : AdminKeys} (hs : s.Sound) {key : Str}
    (h : key ∈ labels id s.rows.log) : Str.strip key = key := by
  obtain ⟨raw, hraw, rfl⟩ := List.mem_map.mp (hs.fresh.mem_log h)
  refine Str.strip_eq_self fun c hc => ?_
  have hprefix : adminKeyPrefix.all (fun c => !Str.isSpace c) = true := by decide
  rcases List.mem_append.mp hc with hc | hc
  · simpa using List.all_eq_true.mp hprefix c hc
  · exact hs.digits raw hraw c hc

omit [TokenSource] in
/-- A key is accepted under the id whose latest call has created it. -/
theorem keyId_resolveAdminKey_iff {s : AdminKeys} (hs : s.Sound) {w : ℕ} {key : Str}
    (h : s.UpToDate (.resolveAdminKey w key)) (src : AuthSources) (id : Str) :
    (Vat.resolveAdminKey (src.withKeys (s.rows.shared.select w)) key).map ResolvedAdminKey.keyId =
      some id ↔ latest s.rows.log id = some (Str.strip key) := by
  have hissued : ∀ id, storedKey (s.rows.shared.select w) id = some (.of (Str.strip key)) ↔
      latest s.rows.log id = some (Str.strip key) := by
    intro id
    rw [h id, hs.current.row, Option.map_eq_some_iff]
    constructor
    · rintro ⟨key', hlatest, heq⟩
      rw [hlatest, StoredHash.of_injective heq]
    · exact fun hlatest => ⟨_, hlatest, rfl⟩
  rw [keyId_resolveAdminKey]
  split_ifs with hinput
  · refine Dictionary.findKey?_eq_some_iff_of_test
      (fun id => latest s.rows.log id = some (Str.strip key)) (fun x info hinfo => ?_)
      (fun x hx hnone => ?_) ?_
    · rw [verifyKey_storedHash, ← hissued x, storedKey, hinfo, Option.map_some, Option.some_inj]
    · have hstored := (hissued x).mpr hx
      rw [storedKey, hnone] at hstored
      cases hstored
    · exact fun x y hx hy => eq_of_latest hs.fresh.nodup hx hy rfl
  · -- a key that is not looked up was not issued
    refine iff_of_false (by simp) fun hlatest => hinput ?_
    obtain ⟨raw, -, hraw⟩ := List.mem_map.mp (hs.fresh.mem_log (mem_labels (mem_of_latest hlatest)))
    change adminKeyPrefix ++ raw = Str.strip key at hraw
    rw [← hraw]
    exact List.isPrefixOf_iff_prefix.mpr (List.prefix_append _ _)

omit [TokenSource] in
theorem honoured_of_sound {s : AdminKeys} (hs : s.Sound) {op : AdminOp} (h : s.UpToDate op) :
    s.Honoured op := by
  cases op with
  | resolveAdminKey w key =>
    refine fun src => ⟨fun id hstanding => ?_, fun hrevoked => ?_⟩
    · have hlatest := hs.standing id key hstanding
      have hstrip : Str.strip key = key :=
        strip_of_mem_labels hs (mem_labels (mem_of_latest hlatest))
      rw [keyId_resolveAdminKey_iff hs h src, hstrip]
      exact hlatest
    · refine Option.eq_none_iff_forall_ne_some.mpr fun resolved haccepted => ?_
      have hlatest := (keyId_resolveAdminKey_iff hs h src resolved.keyId).mp
        (congrArg (Option.map ResolvedAdminKey.keyId) haccepted)
      rw [strip_of_mem_labels hs hrevoked.retired.mem] at hlatest
      exact label_ne_of_retired hs.fresh.nodup hrevoked.retired hlatest rfl
  | createAdminKey | revokeAdminKey | saveStore | forget | close => trivial

/-- In a run whose saves keep the other keys and overwrite none, and whose verdicts come from what
the row has, a key is accepted from the call that created it up to the one that revokes it, and not
after it. -/
theorem honoured_of_upToDate {ops : List AdminOp} (h : Along step UpToDate start ops) :
    Along step Honoured start ops := by
  have hstep : ∀ s op, Sound s → UpToDate s op → Sound (step s op) := by
    intro s op hs hop
    refine sound_step hs op ?_
    rintro w rfl
    exact hop
  exact along_of_along hstep (fun s op hs hop => honoured_of_sound hs hop) sound_start h

end AdminKeys

/-! ### Both stores -/

/-- In runs of calls on the two stores whose saves keep what others have saved, are not skipped and
overwrite no key, and whose verdicts come from what the row has, credentials are accepted as long as
they were not rotated out or revoked, and not after that. -/
theorem credentials_stay_dead [Pepper] [TokenSource] [Sha256] :
    (∀ ops, Along OauthClients.step OauthClients.UpToDate OauthClients.start ops →
      Along OauthClients.step OauthClients.Honoured OauthClients.start ops) ∧
    ∀ ops, Along AdminKeys.step AdminKeys.UpToDate AdminKeys.start ops →
      Along AdminKeys.step AdminKeys.Honoured AdminKeys.start ops :=
  ⟨fun _ => OauthClients.honoured_of_upToDate, fun _ => AdminKeys.honoured_of_upToDate⟩

section Closed

attribute [local instance] noPepper longerTokens unaryDigest

/-- A client is created and then checked, and so is a key. -/
theorem credentials_stay_dead_create :
    Along OauthClients.step OauthClients.Honoured OauthClients.start
      [.createOauthClient 0 (str "a") [], .forget 0, .saveClientsStore 0,
        .validateOauthClient 1 (str "vat_oauth_0") (str "00")] ∧
    Along AdminKeys.step AdminKeys.Honoured AdminKeys.start
      [.createAdminKey 0 none true [], .forget 0, .saveStore 0,
        .resolveAdminKey 1 (str "vat_0")] := by
  refine ⟨credentials_stay_dead.1 _ ⟨trivial, trivial, ?_, fun _ _ _ => Iff.rfl, trivial⟩,
    credentials_stay_dead.2 _ ⟨trivial, trivial, ⟨?_, ?_⟩, fun _ => Iff.rfl, trivial⟩⟩
  · exact EditedRow.savesOthers_of_uninterrupted (s := OauthClients.start.rows) 0 rfl rfl
      (editsOne_createEdit _ _ _) storedCredentials_eq_of_same
  · exact EditedRow.savesOthers_of_uninterrupted (s := AdminKeys.start.rows) 0 rfl rfl
      (editsOne_createKeyEdit _ _ _ _) storedKey_eq_of_same
  · rintro copy id key ⟨⟩
    rfl

/-- A session reads the clients in order to create one, another one revokes the client of `a`, and
the first one saves its copy: the secret that was revoked is accepted. -/
theorem not_credentials_stay_dead :
    ¬ ((∀ ops, Along OauthClients.step OauthClients.Honoured OauthClients.start ops) ∧
      ∀ ops, Along AdminKeys.step AdminKeys.Honoured AdminKeys.start ops) := by
  intro h
  have hverdict := (h.1 [.createOauthClient 0 (str "a") [], .saveClientsStore 0, .forget 0,
    .createOauthClient 1 (str "b") [], .forget 1, .revokeOauthClient 0 (str "a"),
    .saveClientsStore 0, .forget 0, .saveClientsStore 1, .forget 1,
    .validateOauthClient 2 (str "vat_oauth_0") (str "00")]).2.2.2.2.2.2.2.2.2.2.1.2
      (.inl (.inr ⟨_, rfl, List.mem_singleton_self _⟩))
  revert hverdict
  decide +kernel

end Closed

end Vat
