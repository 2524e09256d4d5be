import Vat.Credentials.KeyHash
import Vat.Keyed.Dictionary
import Vat.Orm.EditedRow
import Vat.Transition.Run

/-!
# OAuth clients of sources

The clients of all sources are entries of one JSON row. A call reads the row into a shallow copy,
edits the copy and saves it with a second select; no lock holds other sessions off in between. The
entry that a rotation edits is the entry of the object that the session has loaded.

Source: `backend/app/services/oauth_clients.py`.

## Main definitions

* `ClientId`, `OauthClient`: the entries, with ids that a call has made.
* `OauthClients.step`: the two parts of a call, and what happens to the object of a session.
* `validateOauthClient`: the verdict on credentials.
* `OauthClients.UpToDate`: a save that keeps the other entries, and a verdict from what the row has.

## Main results

* `OauthClients.honoured_of_upToDate`: in a run of such operations, a secret is accepted from the
  call that issued it up to the next call for its source, and not after it.
-/

namespace Vat

open Keyed Orm Transition

/-! ### The store -/

/-- `OAUTH_CLIENT_ID_PREFIX`. -/
def oauthClientIdPrefix : Str := str "vat_oauth_"

/-- An id that `generate_client_credentials` makes. -/
structure ClientId where
  text : Str
  startsWith : Str.startsWith text oauthClientIdPrefix
  isSpace_eq_false : ∀ c ∈ text, Str.isSpace c = false
  deriving DecidableEq

section Hash

variable [Pepper]

/-- The entry of a source. -/
structure OauthClient where
  clientId : ClientId
  clientSecretHash : StoredHash
  createdAt : Str
  rotatedAt : Option Str
  sourceId : Str
  deriving DecidableEq

abbrev ClientStore := Dictionary Str OauthClient

/-- The credentials of a source, as they are stored. -/
def storedCredentials (store : ClientStore) (source : Str) : Option (ClientId × StoredHash) :=
  (store.get? source).map fun info => (info.clientId, info.clientSecretHash)

/-- How credentials are stored. -/
def hashCredentials (credentials : ClientId × Str) : ClientId × StoredHash :=
  (credentials.1, .of credentials.2)

/-- `validate_oauth_client` on the store that the session is given: the source of the
credentials. -/
def validateOauthClient [Sha256] (store : ClientStore) (clientId clientSecret : Str) : Option Str :=
  let key := Str.strip clientId
  if clientId = [] ∨ clientSecret = [] ∨ key = [] ∨ ¬ Str.startsWith key oauthClientIdPrefix then
    none
  else store.findKey? fun info =>
    info.clientId.text = key && verifyKey clientSecret info.clientSecretHash.1

/-! ### The calls -/

/-- What `create_oauth_client` does with the store. -/
def createEdit (source : Str) (credentials : ClientId × Str) (now : Str) (store : ClientStore) :
    Option (Edit ClientStore Str (ClientId × Str)) :=
  let info : OauthClient :=
    { clientId := credentials.1
      clientSecretHash := .of credentials.2
      createdAt := now
      rotatedAt := none
      sourceId := source }
  some ⟨store, store.set source info, source, some credentials⟩

/-- What `rotate_oauth_client` does with the store, unless it has no entry: the entry is edited in
place, so the object that it comes from is edited as well as the copy. -/
def rotateEdit (source clientSecret now : Str) (store : ClientStore) :
    Option (Edit ClientStore Str (ClientId × Str)) :=
  (store.get? source).map fun info =>
    let edited := store.set source
      { info with clientSecretHash := .of clientSecret, rotatedAt := some now }
    ⟨edited, edited, source, some (info.clientId, clientSecret)⟩

/-- What `revoke_oauth_client` does with the store, if it has the source. -/
def revokeEdit (source : Str) (store : ClientStore) :
    Option (Edit ClientStore Str (ClientId × Str)) :=
  if store.get? source = none then none else some ⟨store, store.erase source, source, none⟩

theorem storedCredentials_set (store : ClientStore) (source : Str) (info : OauthClient) (x : Str) :
    storedCredentials (store.set source info) x =
      if x = source then some (info.clientId, info.clientSecretHash)
      else storedCredentials store x := by
  rw [storedCredentials, Dictionary.get?_set]
  split_ifs
  · rfl
  · rfl

theorem storedCredentials_eq_of_same (store store' : ClientStore) (h : store.Same store')
    (source : Str) : storedCredentials store source = storedCredentials store' source := by
  rw [storedCredentials, storedCredentials, h source]

/-- A call changes the credentials of its source only. -/
theorem editsOne_createEdit (source : Str) (credentials : ClientId × Str) (now : Str) :
    EditedRow.EditsOne storedCredentials hashCredentials (createEdit source credentials now) := by
  rintro store e ⟨⟩ x
  exact storedCredentials_set ..

theorem editsOne_rotateEdit (source clientSecret now : Str) :
    EditedRow.EditsOne storedCredentials hashCredentials (rotateEdit source clientSecret now) := by
  intro store e h x
  obtain ⟨info, -, rfl⟩ := Option.map_eq_some_iff.mp h
  exact storedCredentials_set ..

theorem editsOne_revokeEdit (source : Str) :
    EditedRow.EditsOne storedCredentials hashCredentials (revokeEdit source) := by
  intro store e h x
  rw [revokeEdit] at h
  split_ifs at h
  cases h
  rw [storedCredentials, Dictionary.get?_erase]
  split_ifs
  · rfl
  · rfl

end Hash

/-- `generate_client_credentials`. -/
def generateClientCredentials [TokenSource] (drawn : List Str) : (ClientId × Str) × List Str :=
  let raw := TokenSource.draw drawn
  let clientSecret := TokenSource.draw (raw :: drawn)
  let clientId : ClientId :=
    { text := oauthClientIdPrefix ++ raw.take 16
      startsWith := List.isPrefixOf_iff_prefix.mpr (List.prefix_append _ _)
      isSpace_eq_false := by
        intro c hc
        have hprefix : oauthClientIdPrefix.all (fun c => !Str.isSpace c) = true := by decide
        rcases List.mem_append.mp hc with hc | hc
        · simpa using List.all_eq_true.mp hprefix c hc
        · exact isSpace_eq_false_of_mem_draw (List.mem_of_mem_take hc) }
  ((clientId, clientSecret), [clientSecret, raw])

/-- The row of the store, a row that does not exist yet being the empty store, and the tokens drawn
so far. -/
structure OauthClients [Pepper] where
  rows : EditedRow ClientStore Str (ClientId × Str)
  drawn : List Str

/-- A step of a session. A call is two steps: its first part, with the time, and the save. A session
may lose its object or end at any time. -/
inductive OauthOp
  | createOauthClient (session : ℕ) (sourceId now : Str)
  | rotateOauthClient (session : ℕ) (sourceId now : Str)
  | revokeOauthClient (session : ℕ) (sourceId : Str)
  | saveClientsStore (session : ℕ)
  | validateOauthClient (session : ℕ) (clientId clientSecret : Str)
  | forget (session : ℕ)
  | close (session : ℕ)

namespace OauthClients

variable [Pepper] [TokenSource]

def start : OauthClients := ⟨.start .empty, []⟩

def step (s : OauthClients) : OauthOp → OauthClients
  | .createOauthClient w sourceId now =>
    let source := Str.strip sourceId
    if source = [] then s
    else
      let (credentials, tokens) := generateClientCredentials s.drawn
      ⟨s.rows.edit w (createEdit source credentials now), tokens ++ s.drawn⟩
  | .rotateOauthClient w sourceId now =>
    let source := Str.strip sourceId
    if source = [] then s
    else
      let (credentials, tokens) := generateClientCredentials s.drawn
      ⟨s.rows.edit w (rotateEdit source credentials.2 now), tokens ++ s.drawn⟩
  | .revokeOauthClient w sourceId => { s with rows := s.rows.edit w (revokeEdit sourceId) }
  | .saveClientsStore w => { s with rows := s.rows.save w Dictionary.Same }
  | .validateOauthClient w _ _ => { s with rows := s.rows.read w }
  | .forget w => { s with rows := s.rows.forget w }
  | .close w => { s with rows := s.rows.close w }

/-! ### The row and the calls -/

omit [TokenSource] in
/-- The row has the credentials that the calls have left, and no secret was issued twice. -/
structure Sound (s : OauthClients) : Prop where
  current : s.rows.Current storedCredentials hashCredentials
  fresh : s.rows.Fresh Prod.snd s.drawn
  ne_nil : ∀ t ∈ s.drawn, t ≠ []

omit [TokenSource] in
theorem sound_start : start.Sound :=
  ⟨EditedRow.current_start fun _ => rfl, EditedRow.fresh_start, fun _ h => by cases h⟩

/-- Steps keep that, as long as a save keeps the other entries. -/
theorem sound_step {s : OauthClients} (hs : s.Sound) (op : OauthOp) (hsave : ∀ w,
    op = .saveClientsStore w →
      s.rows.SavesOthers w storedCredentials hashCredentials Dictionary.Same) :
    (s.step op).Sound := by
  -- the tokens that a call draws are new, and its secret is one of them
  have hdraw : ∀ w f, EditedRow.EditsOne storedCredentials hashCredentials f →
      (∀ store e, f store = some e → ∀ t, e.written.2.map Prod.snd = some t →
        t = (generateClientCredentials s.drawn).1.2) →
      Sound ⟨s.rows.edit w f, (generateClientCredentials s.drawn).2 ++ s.drawn⟩ := by
    intro w f hf hsecret
    refine ⟨hs.current.edit w hf, hs.fresh.edit w _ fun store e he t ht => ?_, fun t ht => ?_⟩
    · rw [hsecret store e he t ht]
      refine ⟨List.mem_cons_self, fun hmem => ?_⟩
      exact TokenSource.draw_notMem _ (List.mem_cons_of_mem _ hmem)
    · rcases List.mem_append.mp ht with ht | ht
      · rcases List.mem_pair.mp ht with rfl | rfl
        · exact TokenSource.draw_ne_nil _
        · exact TokenSource.draw_ne_nil _
      · exact hs.ne_nil t ht
  cases op with
  | createOauthClient w sourceId now =>
    rw [step]
    split_ifs
    · exact hs
    · refine hdraw w _ (editsOne_createEdit _ _ _) ?_
      rintro store e ⟨⟩ t ht
      exact (Option.some.inj ht).symm
  | rotateOauthClient w sourceId now =>
    rw [step]
    split_ifs
    · exact hs
    · refine hdraw w _ (editsOne_rotateEdit _ _ _) fun store e he t ht => ?_
      obtain ⟨info, -, rfl⟩ := Option.map_eq_some_iff.mp he
      exact (Option.some.inj ht).symm
  | revokeOauthClient w sourceId =>
    refine ⟨hs.current.edit w (editsOne_revokeEdit sourceId), ?_, hs.ne_nil⟩
    refine hs.fresh.edit w [] fun store e he t ht => ?_
    rw [revokeEdit] at he
    split_ifs at he
    cases he
    cases ht
  | saveClientsStore w => exact ⟨hs.current.save w (hsave w rfl), hs.fresh.save w, hs.ne_nil⟩
  | validateOauthClient w => exact ⟨hs.current.read w, hs.fresh.read w, hs.ne_nil⟩
  | forget w => exact ⟨hs.current.forget w, hs.fresh.forget w, hs.ne_nil⟩
  | close w => exact ⟨hs.current.close w, hs.fresh.close w, hs.ne_nil⟩

/-! ### Verdicts -/

variable [Sha256]

omit [TokenSource] in
/-- A verdict on credentials accepts the ones that the latest call for a source has issued, and none
whose source had a later call that rotated, replaced or revoked them. -/
def Honoured (s : OauthClients) : OauthOp → Prop
  | .validateOauthClient w clientId clientSecret =>
    (∀ source id, latest s.rows.log source = some (id, clientSecret) → id.text = clientId →
      Vat.validateOauthClient (s.rows.shared.select w) clientId clientSecret = some source) ∧
    (Retired Prod.snd s.rows.log clientSecret →
      Vat.validateOauthClient (s.rows.shared.select w) clientId clientSecret = none)
  | _ => True

omit [TokenSource] [Sha256] in
/-- A save keeps the credentials of the other sources and writes its own, and a session that checks
credentials has an object with the same entries for them as the row. -/
def UpToDate (s : OauthClients) : OauthOp → Prop
  | .saveClientsStore w => s.rows.SavesOthers w storedCredentials hashCredentials Dictionary.Same
  | .validateOauthClient w clientId clientSecret => ∀ source id, id.text = Str.strip clientId →
    (storedCredentials (s.rows.shared.select w) source = some (id, .of clientSecret) ↔
      storedCredentials s.rows.shared.row source = some (id, .of clientSecret))
  | _ => True

omit [TokenSource] in
/-- Credentials are accepted for the source whose latest call has issued them. -/
theorem validateOauthClient_eq_some_iff {s : OauthClients} (hs : s.Sound) {w : ℕ}
    {clientId clientSecret : Str} (h : s.UpToDate (.validateOauthClient w clientId clientSecret))
    (source : Str) :
    Vat.validateOauthClient (s.rows.shared.select w) clientId clientSecret = some source ↔
      ∃ id : ClientId, id.text = Str.strip clientId ∧
        latest s.rows.log source = some (id, clientSecret) := by
  have hissued : ∀ source (id : ClientId), id.text = Str.strip clientId →
      (storedCredentials (s.rows.shared.select w) source = some (id, .of clientSecret) ↔
        latest s.rows.log source = some (id, clientSecret)) := by
    intro source id hid
    rw [h source id hid, hs.current.row, Option.map_eq_some_iff]
    constructor
    · rintro ⟨credentials, hlatest, heq⟩
      rw [hlatest]
      exact congrArg some (Prod.ext (Prod.ext_iff.mp heq).1
        (StoredHash.of_injective (Prod.ext_iff.mp heq).2))
    · exact fun hlatest => ⟨_, hlatest, rfl⟩
  rw [Vat.validateOauthClient]
  split_ifs with hinput
  · -- credentials that are not looked up were not issued
    refine iff_of_false (by simp) ?_
    rintro ⟨id, hid, hlatest⟩
    have hsecret : clientSecret ∈ s.drawn := hs.fresh.mem_log (mem_labels (mem_of_latest hlatest))
    have hempty : Str.startsWith [] oauthClientIdPrefix = false := by decide
    have hstarts := id.startsWith
    rw [hid] at hstarts
    rcases hinput with rfl | hnil | hnil | hnot
    · exact absurd hstarts (by decide)
    · exact hs.ne_nil _ hsecret hnil
    · rw [hnil, hempty] at hstarts
      cases hstarts
    · exact hnot hstarts
  · refine Dictionary.findKey?_eq_some_iff_of_test (fun source => ∃ id : ClientId,
      id.text = Str.strip clientId ∧ latest s.rows.log source = some (id, clientSecret))
      (fun x info hinfo => ?_) ?_ ?_
    · have hstored : storedCredentials (s.rows.shared.select w) x =
          some (info.clientId, info.clientSecretHash) := by
        rw [storedCredentials, hinfo, Option.map_some]
      rw [Bool.and_eq_true, decide_eq_true_iff, verifyKey_storedHash]
      constructor
      · rintro ⟨hid, hhash⟩
        exact ⟨info.clientId, hid, (hissued x _ hid).mp (by rw [hstored, hhash])⟩
      · rintro ⟨id, hid, hlatest⟩
        have hsome := hstored.symm.trans ((hissued x id hid).mpr hlatest)
        rw [Option.some_inj, Prod.mk.injEq] at hsome
        rw [hsome.1]
        exact ⟨hid, hsome.2⟩
    · rintro x ⟨id, hid, hlatest⟩ hnone
      have hstored := (hissued x id hid).mpr hlatest
      rw [storedCredentials, hnone] at hstored
      cases hstored
    · rintro x y ⟨id, -, hx⟩ ⟨id', -, hy⟩
      exact eq_of_latest hs.fresh.nodup hx hy rfl

omit [TokenSource] in
theorem honoured_of_sound {s : OauthClients} (hs : s.Sound) {op : OauthOp} (h : s.UpToDate op) :
    s.Honoured op := by
  cases op with
  | validateOauthClient w clientId clientSecret =>
    refine ⟨?_, fun hretired => ?_⟩
    · rintro source id hlatest rfl
      refine (validateOauthClient_eq_some_iff hs h source).mpr ⟨id, ?_, hlatest⟩
      exact (Str.strip_eq_self id.isSpace_eq_false).symm
    · refine Option.eq_none_iff_forall_ne_some.mpr fun source haccepted => ?_
      obtain ⟨id, -, hlatest⟩ := (validateOauthClient_eq_some_iff hs h source).mp haccepted
      exact label_ne_of_retired hs.fresh.nodup hretired hlatest rfl
  | createOauthClient | rotateOauthClient | revokeOauthClient | saveClientsStore | forget | close =>
    trivial

/-- In a run whose saves keep the other entries and whose verdicts come from what the row has, a
secret is accepted from the call that issued it up to the next call for its source, and not after
it. -/
theorem honoured_of_upToDate {ops : List OauthOp} (h : Along step UpToDate start ops) :
    Along step Honoured start ops := by
  have hstep : ∀ s op, Sound s → UpToDate s op → Sound (step s op) := by
    intro s op hs hop
    refine sound_step hs op ?_
    rintro w rfl
    exact hop
  exact along_of_along hstep (fun s op hs hop => honoured_of_sound hs hop) sound_start h

end OauthClients

end Vat
