import Vat.Adapters.Aikido
import Vat.Feeds.Matching
import Vat.Paged.Window
import Vat.Transition.Run

/-!
# The cursor of the OSV refresh

A refresh takes some packages from a stored cursor on, in the order of tenant, component, name and
version, and the first ones again after the last. It asks OSV for those whose ecosystem it can tell
and moves the cursor past the packages that it took. If it can tell the ecosystem of none of them,
then the cursor stays where it is.

What a refresh does with the answers is left out. A refresh whose request fails is one that is not
answered. Packages that the order does not tell apart keep the order of the table.

Source: `backend/app/services/vuln_feeds.py`, lines 291–320, 396–411, 1022–1029, 1074–1174 and
1327–1443.

## Main definitions

* `sbomOsvTarget`, `osvQuery`: what OSV is asked for a package.
* `fetchOsvRecords`, `refreshOsv`: a refresh.
* `CoversInventory`: what is asked of repeated refreshes.
* `WindowsQueried`: OSV is asked for a package of every window.

## Main results

* `storedCursor_refreshOsv_of_answered`: where a refresh leaves the cursor.
* `coversInventory_iff`.
-/

namespace Vat

open Transition

/-! ### Queries -/

/-- The columns of a package that a refresh reads. -/
structure OsvCandidate where
  name : Str
  version : Str
  language : Option Str
  purl : Option Str
  deriving DecidableEq

/-- One of the `queries` of `querybatch`. -/
structure OsvQuery where
  packageName : Str
  ecosystem : Str
  version : Str
  deriving DecidableEq

/-- The columns of a package that a refresh reads. -/
def SbomPackage.candidate (pkg : SbomPackage) : OsvCandidate :=
  ⟨pkg.name, pkg.version, pkg.language, pkg.purl⟩

theorem length_eraseDups_le {α : Type*} [DecidableEq α] (l : List α) :
    l.eraseDups.length ≤ l.length := by
  induction hn : l.length using Nat.strong_induction_on generalizing l with
  | _ n ih =>
    cases l with
    | nil => exact Nat.zero_le _
    | cons a l =>
      subst hn
      have hle : (l.filter fun b => !b == a).length ≤ l.length := List.length_filter_le _ _
      rw [List.eraseDups_cons, List.length_cons]
      exact Nat.succ_le_succ ((ih _ (Nat.lt_succ_of_le hle) _ rfl).trans hle)

section General

variable [Unicode] [CharTables] [UrlDecoding]

omit [UrlDecoding] in
/-- `_infer_ecosystem_for_sbom`. -/
def inferEcosystemForSbom (name version language : Option Str) : Option Str :=
  let langKey := Unicode.lower (Str.strip (Str.orEmpty language))
  let pkg := Unicode.lower (Str.strip (Str.orEmpty name))
  let ver := Unicode.lower (Str.strip (Str.orEmpty version))
  ecosystemUnder ecosystemByLanguage langKey <|>
    if pkg = [] then none
    else if ["github.com/", "golang.org/", "gopkg.in/"].any fun p => Str.startsWith pkg (str p) then
      some (str "Go")
    else if isApkVersion ver then some (str "Alpine")
    else if ':' ∈ pkg ∧ '.' ∈ (Str.split1 ':' pkg).1 then some (str "Maven")
    else if Str.startsWith pkg (str "@") then some (str "npm")
    else none

/-- `_sbom_osv_target`: the name and the ecosystem. -/
def sbomOsvTarget (name version language purl : Option Str) : Option (Str × Str) :=
  purlToOsvTarget purl name <|>
    (inferEcosystemForSbom name version language).bind fun ecosystem =>
      let pkgName := Str.strip (Str.orEmpty name)
      if pkgName = [] then none else some (pkgName, ecosystem)

/-- What OSV is asked for a package. -/
def osvQuery (c : OsvCandidate) : Option OsvQuery :=
  if c.name = [] ∨ c.version = [] then none
  else
    (sbomOsvTarget (some c.name) (some c.version) c.language c.purl).map fun target =>
      ⟨target.1, target.2, c.version⟩

/-! ### Refreshes -/

omit [CharTables] [UrlDecoding] in
/-- What `query_order` orders the packages by. -/
def osvOrder (pkg : SbomPackage) : List Str :=
  [Str.orEmpty pkg.tenantId, Str.orEmpty pkg.component, Unicode.lower pkg.name, pkg.version]

omit [CharTables] [UrlDecoding] in
/-- `query_order`. -/
def queryOrder (rows : List SbomPackage) : List OsvCandidate :=
  (rows.insertionSort fun a b => ¬ osvOrder b < osvOrder a).map SbomPackage.candidate

omit [CharTables] [UrlDecoding] in
@[simp] theorem length_queryOrder (rows : List SbomPackage) :
    (queryOrder rows).length = rows.length := by
  rw [queryOrder, List.length_map, List.length_insertionSort]

omit [CharTables] [UrlDecoding] in
@[simp] theorem mem_queryOrder {rows : List SbomPackage} {c : OsvCandidate} :
    c ∈ queryOrder rows ↔ ∃ pkg ∈ rows, pkg.candidate = c := by
  simp only [queryOrder, List.mem_map, List.mem_insertionSort]

/-- `_get_source_state`, of the column `state`. -/
def sourceState (state : Loaded) : Loaded := if state.isDict then state else .dict []

/-- The state that holds a cursor. -/
def osvState (cursor : ℕ) : Loaded := .dict [(str "osv_cursor", .int cursor)]

section Refresh

variable [IntOfText]

/-- `_safe_cursor`. -/
def safeCursor (value : Loaded) (total : ℕ) : ℕ :=
  if total = 0 then 0
  else
    match value.toInt with
    | .ok cursor => (cursor % total).toNat
    | .error _ => 0

/-- `_next_cursor`, for a cursor and a number of packages. -/
def nextCursor (current consumed total : ℕ) : ℕ :=
  if total = 0 then 0 else (current + consumed) % total

/-- The cursor from which a refresh takes packages. -/
def storedCursor (rows : List SbomPackage) (state : Loaded) : ℕ :=
  safeCursor ((sourceState state).member "osv_cursor") rows.length

/-- The packages that a refresh takes, each of them once. -/
def sbomRows (maxQueries : ℤ) (rows : List SbomPackage) (cursor : ℕ) : List OsvCandidate :=
  (Paged.wrapped cursor maxQueries.toNat (queryOrder rows)).eraseDups

/-- `_fetch_osv_records`, as far as the answer of OSV: the queries and the cursor after it. -/
def fetchOsvRecords (maxQueries : ℤ) (rows : List SbomPackage) (state : Loaded) :
    List OsvQuery × ℕ :=
  if maxQueries ≤ 0 ∨ rows.length = 0 then ([], 0)
  else
    let cursor := storedCursor rows state
    let unique := sbomRows maxQueries rows cursor
    let queries := unique.filterMap osvQuery
    (queries, if queries = [] then cursor else nextCursor cursor unique.length rows.length)

/-- `refresh_source` for OSV: the state that it stores. -/
def refreshOsv (maxQueries : ℤ) (rows : List SbomPackage) (state : Loaded) (answered : Bool) :
    Loaded :=
  let fetched := fetchOsvRecords maxQueries rows state
  if fetched.1 ≠ [] ∧ ¬ answered then sourceState state else osvState fetched.2

end Refresh

/-! ### Where a refresh leaves the cursor -/

section Cursor

variable [IntOfText] {maxQueries : ℤ} {rows : List SbomPackage} {state : Loaded} {c : ℕ}

omit [Unicode] [CharTables] [UrlDecoding] in
theorem storedCursor_lt (h : 0 < rows.length) : storedCursor rows state < rows.length := by
  rw [storedCursor, safeCursor, if_neg h.ne']
  split
  · next cursor _ =>
    have hpos : (0 : ℤ) < rows.length := Int.natCast_pos.mpr h
    have hnonneg := Int.emod_nonneg cursor hpos.ne'
    have hlt := Int.emod_lt_of_pos cursor hpos
    omega
  · exact h

omit [Unicode] [CharTables] [UrlDecoding] in
theorem storedCursor_osvState (h : c < rows.length) : storedCursor rows (osvState c) = c := by
  have hstate : sourceState (osvState c) = osvState c := rfl
  have hcursor : ((osvState c).member "osv_cursor").toInt = .ok (c : ℤ) := rfl
  rw [storedCursor, hstate, safeCursor, if_neg (Nat.ne_zero_of_lt h), hcursor]
  change ((c : ℤ) % (rows.length : ℤ)).toNat = c
  rw [Int.emod_eq_of_lt (Int.natCast_nonneg c) (by omega), Int.toNat_natCast]

omit [Unicode] [CharTables] [UrlDecoding] in
theorem storedCursor_sourceState : storedCursor rows (sourceState state) = storedCursor rows state := by
  have hidem : sourceState (sourceState state) = sourceState state := by
    have hdict : (sourceState state).isDict := by
      unfold sourceState
      split_ifs with h
      · exact h
      · rfl
    exact if_pos hdict
  rw [storedCursor, hidem, storedCursor]

theorem fetchOsvRecords_eq (hmax : 1 ≤ maxQueries) (hrows : 0 < rows.length) :
    fetchOsvRecords maxQueries rows state =
      let cursor := storedCursor rows state
      let unique := sbomRows maxQueries rows cursor
      let queries := unique.filterMap osvQuery
      (queries, if queries = [] then cursor else nextCursor cursor unique.length rows.length) :=
  if_neg (by omega)

/-- Without a query the cursor stays where it is. -/
theorem storedCursor_refreshOsv_of_no_query (hmax : 1 ≤ maxQueries) (hrows : 0 < rows.length)
    (h : (fetchOsvRecords maxQueries rows state).1 = []) (answered : Bool) :
    storedCursor rows (refreshOsv maxQueries rows state answered) = storedCursor rows state := by
  have hcursor : (fetchOsvRecords maxQueries rows state).2 = storedCursor rows state := by
    rw [fetchOsvRecords_eq hmax hrows] at h ⊢
    exact if_pos h
  rw [refreshOsv, if_neg (fun hn => hn.1 h), hcursor, storedCursor_osvState (storedCursor_lt hrows)]

theorem storedCursor_refreshOsv_of_not_answered
    (h : (fetchOsvRecords maxQueries rows state).1 ≠ []) :
    storedCursor rows (refreshOsv maxQueries rows state false) = storedCursor rows state := by
  rw [refreshOsv, if_pos ⟨h, Bool.false_ne_true⟩, storedCursor_sourceState]

theorem storedCursor_refreshOsv_of_answered (hmax : 1 ≤ maxQueries) (hrows : 0 < rows.length)
    (h : (fetchOsvRecords maxQueries rows state).1 ≠ []) :
    storedCursor rows (refreshOsv maxQueries rows state true) =
      (storedCursor rows state + (sbomRows maxQueries rows (storedCursor rows state)).length) %
        rows.length := by
  have hcursor : (fetchOsvRecords maxQueries rows state).2 =
      (storedCursor rows state + (sbomRows maxQueries rows (storedCursor rows state)).length) %
        rows.length := by
    rw [fetchOsvRecords_eq hmax hrows] at h ⊢
    exact (if_neg h).trans (if_neg hrows.ne')
  rw [refreshOsv, if_neg (fun hn => hn.2 rfl), hcursor,
    storedCursor_osvState (Nat.mod_lt _ hrows)]

end Cursor

/-! ### Coverage -/

section Coverage

variable [IntOfText]

/-- A refresh asks OSV for a package. -/
def OsvAsks (maxQueries : ℤ) (rows : List SbomPackage) (state : Loaded) (pkg : SbomPackage) : Prop :=
  ∃ q ∈ osvQuery pkg.candidate, q ∈ (fetchOsvRecords maxQueries rows state).1

/-- From any stored cursor, refreshes that are answered again and again ask OSV for every package
again and again, and a refresh that leaves the cursor where it is asks for all of them. -/
structure CoversInventory (maxQueries : ℤ) (rows : List SbomPackage) : Prop where
  asks : ∀ (state : Loaded) (answered : ℕ → Bool), (∀ n, ∃ m ≥ n, answered m) →
    ∀ pkg ∈ rows, (osvQuery pkg.candidate).isSome → ∀ n, ∃ m ≥ n, answered m ∧
      OsvAsks maxQueries rows (states (refreshOsv maxQueries rows) state answered m) pkg
  not_stuck : ∀ state : Loaded,
    storedCursor rows (refreshOsv maxQueries rows state true) = storedCursor rows state →
      ∀ pkg ∈ rows, (osvQuery pkg.candidate).isSome → OsvAsks maxQueries rows state pkg

omit [IntOfText] in
/-- OSV is asked for a package of every window of `maxQueries` packages, the first packages
following on the last, or for none at all. -/
def WindowsQueried (maxQueries : ℤ) (rows : List SbomPackage) : Prop :=
  (∃ pkg ∈ rows, (osvQuery pkg.candidate).isSome) →
    ∀ cursor < rows.length,
      ∃ c ∈ Paged.wrapped cursor maxQueries.toNat (queryOrder rows), (osvQuery c).isSome

omit [IntOfText] in
instance (maxQueries : ℤ) (rows : List SbomPackage) : Decidable (WindowsQueried maxQueries rows) :=
  inferInstanceAs (Decidable (_ → _))

variable {maxQueries : ℤ} {rows : List SbomPackage} {state : Loaded}

omit [CharTables] [UrlDecoding] [IntOfText] in
theorem mem_sbomRows {cursor : ℕ} {c : OsvCandidate} :
    c ∈ sbomRows maxQueries rows cursor ↔
      c ∈ Paged.wrapped cursor maxQueries.toNat (queryOrder rows) :=
  List.mem_eraseDups

omit [CharTables] [UrlDecoding] [IntOfText] in
theorem length_sbomRows_le (cursor : ℕ) :
    (sbomRows maxQueries rows cursor).length ≤ maxQueries.toNat :=
  (length_eraseDups_le _).trans (Paged.length_wrapped _ _ _)

/-- A refresh asks nothing exactly if its window holds no package that OSV is asked for. -/
theorem queries_eq_nil_iff (hmax : 1 ≤ maxQueries) (hrows : 0 < rows.length) :
    (fetchOsvRecords maxQueries rows state).1 = [] ↔
      ∀ c ∈ Paged.wrapped (storedCursor rows state) maxQueries.toNat (queryOrder rows),
        osvQuery c = none := by
  rw [fetchOsvRecords_eq hmax hrows]
  simp only [List.filterMap_eq_nil_iff, mem_sbomRows]

theorem asks_of_mem (hmax : 1 ≤ maxQueries) (hrows : 0 < rows.length) {pkg : SbomPackage}
    (hquery : (osvQuery pkg.candidate).isSome)
    (h : pkg.candidate ∈ sbomRows maxQueries rows (storedCursor rows state)) :
    OsvAsks maxQueries rows state pkg := by
  obtain ⟨q, hq⟩ := Option.isSome_iff_exists.mp hquery
  refine ⟨q, hq, ?_⟩
  rw [fetchOsvRecords_eq hmax hrows]
  exact List.mem_filterMap.mpr ⟨_, h, hq⟩

/-- What a refresh asks depends on the cursor alone. -/
theorem fetchOsvRecords_congr {state' : Loaded}
    (h : storedCursor rows state = storedCursor rows state') :
    fetchOsvRecords maxQueries rows state = fetchOsvRecords maxQueries rows state' := by
  rw [fetchOsvRecords, fetchOsvRecords, h]

theorem refreshOsv_true :
    refreshOsv maxQueries rows state true = osvState (fetchOsvRecords maxQueries rows state).2 :=
  if_neg fun h => h.2 rfl

/-- A cursor that is stuck before a window without queries asks nothing, ever. -/
theorem windowsQueried_of_covers (hmax : 1 ≤ maxQueries) (h : CoversInventory maxQueries rows) :
    WindowsQueried maxQueries rows := by
  rintro ⟨pkg, hpkg, hquery⟩ cursor hcursor
  by_contra hnone
  have hrows : 0 < rows.length := Nat.zero_lt_of_lt hcursor
  have hempty : (fetchOsvRecords maxQueries rows (osvState cursor)).1 = [] := by
    rw [queries_eq_nil_iff hmax hrows, storedCursor_osvState hcursor]
    intro c hc
    by_contra hsome
    exact hnone ⟨c, hc, Option.isSome_iff_ne_none.mpr hsome⟩
  have hstuck := storedCursor_refreshOsv_of_no_query hmax hrows hempty true
  obtain ⟨q, -, hq⟩ := h.not_stuck (osvState cursor) hstuck pkg hpkg hquery
  rw [hempty] at hq
  exact List.not_mem_nil hq

theorem fetch_ne_nil (hmax : 1 ≤ maxQueries) (hrows : 0 < rows.length)
    (h : WindowsQueried maxQueries rows) (hsome : ∃ pkg ∈ rows, (osvQuery pkg.candidate).isSome) :
    (fetchOsvRecords maxQueries rows state).1 ≠ [] := by
  intro hnil
  obtain ⟨c, hc, hquery⟩ := h hsome (storedCursor rows state) (storedCursor_lt hrows)
  rw [(queries_eq_nil_iff hmax hrows).mp hnil c hc] at hquery
  exact Bool.false_ne_true hquery

/-- How far a refresh moves the cursor. -/
def osvAdvance (maxQueries : ℤ) (rows : List SbomPackage) (state : Loaded) (answered : Bool) : ℕ :=
  if answered then (sbomRows maxQueries rows (storedCursor rows state)).length else 0

theorem storedCursor_refreshOsv (hmax : 1 ≤ maxQueries) (hrows : 0 < rows.length)
    (h : (fetchOsvRecords maxQueries rows state).1 ≠ []) (answered : Bool) :
    storedCursor rows (refreshOsv maxQueries rows state answered) =
      (storedCursor rows state + osvAdvance maxQueries rows state answered) % rows.length := by
  cases answered with
  | true => exact storedCursor_refreshOsv_of_answered hmax hrows h
  | false =>
    rw [storedCursor_refreshOsv_of_not_answered h]
    exact (Nat.mod_eq_of_lt (storedCursor_lt hrows)).symm

theorem advance_pos (hmax : 1 ≤ maxQueries) (hrows : 0 < rows.length)
    (h : (fetchOsvRecords maxQueries rows state).1 ≠ []) : 0 < osvAdvance maxQueries rows state true := by
  refine List.length_pos_iff.mpr fun hnil => h ?_
  rw [fetchOsvRecords_eq hmax hrows]
  simp only [hnil, List.filterMap_nil]

/-- If every window is asked for, then the cursor goes round. -/
theorem asks_of_windows (hmax : 1 ≤ maxQueries) (h : WindowsQueried maxQueries rows)
    {answered : ℕ → Bool} (hanswered : ∀ n, ∃ m ≥ n, answered m) {pkg : SbomPackage}
    (hpkg : pkg ∈ rows) (hquery : (osvQuery pkg.candidate).isSome) (n : ℕ) :
    ∃ m ≥ n, answered m ∧
      OsvAsks maxQueries rows (states (refreshOsv maxQueries rows) state answered m) pkg := by
  have hrows : 0 < rows.length := List.length_pos_of_mem hpkg
  have hne : ∀ s, (fetchOsvRecords maxQueries rows s).1 ≠ [] :=
    fun s => fetch_ne_nil hmax hrows h ⟨pkg, hpkg, hquery⟩
  obtain ⟨i, hi, hget⟩ := List.getElem_of_mem (mem_queryOrder.mpr ⟨pkg, hpkg, rfl⟩)
  let s := states (refreshOsv maxQueries rows) state answered
  have hstep : ∀ k, storedCursor rows (s (k + 1)) =
      (storedCursor rows (s k) + osvAdvance maxQueries rows (s k) (answered k)) % rows.length :=
    fun k => storedCursor_refreshOsv hmax hrows (hne _) (answered k)
  have hadvance : ∀ k, ∃ m ≥ k, 0 < osvAdvance maxQueries rows (s m) (answered m) := by
    intro k
    obtain ⟨m, hm, hans⟩ := hanswered k
    refine ⟨m, hm, ?_⟩
    rw [hans]
    exact advance_pos hmax hrows (hne _)
  rw [length_queryOrder] at hi
  have hpasses : ∃ m ≥ n, Paged.ahead rows.length (storedCursor rows (s m)) i <
      osvAdvance maxQueries rows (s m) (answered m) :=
    Paged.exists_passed (storedCursor_lt hrows) hstep hadvance hi n
  obtain ⟨m, hm, hpassed⟩ := hpasses
  have hans : answered m = true := by
    by_contra hfalse
    rw [osvAdvance, if_neg hfalse] at hpassed
    exact Nat.not_lt_zero _ hpassed
  rw [osvAdvance, if_pos hans] at hpassed
  refine ⟨m, hm, hans, asks_of_mem hmax hrows hquery (mem_sbomRows.mpr ?_)⟩
  rw [← hget]
  refine Paged.getElem_mem_wrapped _ ?_ ?_
  · rw [length_queryOrder]
    exact storedCursor_lt hrows
  · rw [length_queryOrder]
    exact hpassed.trans_le (length_sbomRows_le _)

/-- Repeated refreshes cover the inventory exactly if OSV is asked for a package of every window. -/
theorem coversInventory_iff (hmax : 1 ≤ maxQueries) :
    CoversInventory maxQueries rows ↔ WindowsQueried maxQueries rows := by
  constructor
  · exact windowsQueried_of_covers hmax
  · intro h
    refine ⟨fun state answered hanswered pkg hpkg hquery n =>
      asks_of_windows hmax h hanswered hpkg hquery n, ?_⟩
    intro state hstuck pkg hpkg hquery
    have hanswered : ∀ n : ℕ, ∃ m ≥ n, (fun _ => true) m = true := fun n => ⟨n, le_rfl, rfl⟩
    obtain ⟨m, -, -, hasks⟩ := @asks_of_windows _ _ _ _ maxQueries rows state hmax h (fun _ => true)
      hanswered pkg hpkg hquery 0
    have hsame : ∀ m, storedCursor rows
        (states (refreshOsv maxQueries rows) state (fun _ => true) m) = storedCursor rows state := by
      intro m
      refine states_induction (fun s => storedCursor rows s = storedCursor rows state) ?_ rfl m
      intro _ s hs
      rw [refreshOsv_true, fetchOsvRecords_congr hs, ← refreshOsv_true]
      exact hstuck
    rw [OsvAsks, fetchOsvRecords_congr (hsame m)] at hasks
    exact hasks

end Coverage

end General

/-! ### A package without an ecosystem -/

section NoEcosystem

attribute [local instance] asciiUnicode asciiCharTables plainDecoding noIntOfText

/-- A package of an image. -/
def imagePackage (id name version : String) (purl : Option String) : SbomPackage where
  id := str id
  name := str name
  version := str version
  component := some (str "shop/api")
  language := none
  purl := purl.map str
  purlSource := none
  purlConfidence := none
  sources := []
  tenantId := some (str "acme")
  updatedAt := 0

/-- A package whose ecosystem is in its package URL. -/
def requestsPackage : SbomPackage :=
  imagePackage "p1" "requests" "2.31.0" (some "pkg:pypi/requests@2.31.0")

/-- A package without an ecosystem. -/
def opensslPackage : SbomPackage := imagePackage "p2" "openssl" "3.0.2" none

/-- One by one, packages with an ecosystem are covered. -/
theorem coversInventory_requests : CoversInventory 1 [requestsPackage] :=
  (coversInventory_iff (by decide)).mpr (by decide +kernel)

/-- One by one, no refresh comes past a package without an ecosystem. -/
theorem not_coversInventory_openssl :
    ¬ ∀ (_ : Unicode) (_ : CharTables) (_ : UrlDecoding) (_ : IntOfText) (maxQueries : ℤ)
      (rows : List SbomPackage), 1 ≤ maxQueries → CoversInventory maxQueries rows := by
  intro h
  have hcovers := h asciiUnicode asciiCharTables plainDecoding noIntOfText 1
    [requestsPackage, opensslPackage] (by decide)
  have hwindows := windowsQueried_of_covers (by decide) hcovers
  exact absurd hwindows (by decide +kernel)

end NoEcosystem

end Vat
