import Vat.Paged.Fetch
import Vat.Python.Dynamic
import Vat.Transition.Guarded

/-!
# The listings of the Aikido adapter

A listing is fetched page after page, until a page is empty or short. The fetch of the code
repositories fails with its first request that fails. The fetch of the containers takes a request
that fails for an empty page, so that it returns what comes before that page: it has the whole
listing exactly when no request for a page of the listing fails, and that of the page after the last
full one may (`aikido_listings_iff`).

Source: `backend/app/adapters/aikido.py`, lines 1541–1575, 1853–1882, 1950–2016.

## Main definitions

* `Upstream`, `aikidoApiGet`, `aikidoApiGetSafe`.
* `fetchAikidoCodeRepositories`, `fetchAikidoContainers`.
* `Serves`: the upstream serves a listing in pages.
* `CompleteOrFails`: a fetch ends with the whole listing or an error.

## Main results

* `fetchAikidoCodeRepositories_complete_or_error`, `fetchAikidoContainers_complete_iff`.
* `aikido_listings_iff`, `partial_container_listing`.
-/

namespace Vat.AikidoListings

open Paged Transition

/-! ### Requests -/

/-- An HTTP response: its status, and the value of its body if that is JSON. -/
structure Reply where
  status : ℕ
  body : Option Loaded

/-- What a request raises. -/
inductive ApiError
  /-- Credentials are missing. -/
  | notConfigured
  /-- The token, a slot of the rate limit or the connection. -/
  | transport
  /-- `raise_for_status`. -/
  | status (code : ℕ)
  /-- `resp.json()`. -/
  | notJson
  | python (e : PyError)

/-- What the requests of a fetch meet: whether there are credentials, the token that is there for
the request of a path, and the response to each attempt. -/
structure Upstream where
  configured : Bool
  token : Str → Except ApiError Str
  reply : (token path : Str) → (attempt : ℕ) → Except ApiError Reply

/-- `resp.is_success`. -/
def Reply.isSuccess (resp : Reply) : Bool := 200 ≤ resp.status && resp.status < 300

/-- `resp.raise_for_status()`, then `resp.json()`. -/
def Reply.json (resp : Reply) : Except ApiError Loaded :=
  if resp.isSuccess then
    match resp.body with
    | some body => .ok body
    | none => .error .notJson
  else .error (.status resp.status)

/-- `max_retries`. -/
def maxRetries : ℕ := 3

/-- The attempts of a request, `left` of them from `attempt` on. -/
def attempts (up : Upstream) (token path : Str) : (left attempt : ℕ) → Except ApiError Loaded
  | 0, _ => .ok .null
  | left + 1, attempt => do
    let resp ← up.reply token path attempt
    if resp.status = 429 ∧ attempt < maxRetries - 1 then attempts up token path left (attempt + 1)
    else resp.json

/-- `_aikido_api_get`. -/
def aikidoApiGet (up : Upstream) (path : Str) : Except ApiError Loaded :=
  if up.configured then do
    let token ← up.token path
    attempts up token path maxRetries 0
  else .error .notConfigured

/-- `_aikido_api_get_safe`: `None` for whatever is raised. -/
def aikidoApiGetSafe (up : Upstream) (path : Str) : Loaded :=
  match aikidoApiGet up path with
  | .ok data => data
  | .error _ => .null

/-! ### Pages -/

/-- An error of Python in a fetch. -/
def liftPy {α : Type} : Except PyError α → Except ApiError α := Except.mapError .python

/-- `data.get(k, data.get(k', … []))`. -/
def nestedGet (data : Loaded) : List String → Except PyError Loaded
  | [] => .ok (.list [])
  | k :: keys => do
    let inner ← nestedGet data keys
    data.getOr k inner

/-- `data if isinstance(data, list) else data.get(…)`. -/
def itemsIn (keys : List String) (data : Loaded) : Except PyError Loaded :=
  if data.isList then .ok data else nestedGet data keys

/-- The items of a page; none ends the loop. -/
def pageItems (keys : List String) (data : Loaded) : Except PyError (List Loaded) := do
  let items ← itemsIn keys data
  if items.truthy then items.iterate else .ok []

/-- `per_page`. -/
def perPage : ℕ := 100

/-- The path of a page. -/
def pagePath (resource : String) (page : ℕ) : Str :=
  str resource ++ str "?page=" ++ intText page ++ str "&per_page=" ++ intText perPage

def codeRepositoriesPath : ℕ → Str := pagePath "/repositories/code"

def codeRepositoryKeys : List String := ["repositories", "data", "items"]

def containersPath : ℕ → Str := pagePath "/containers"

def containerKeys : List String := ["containers", "repositories", "data"]

/-- A page of the code repositories. -/
def readCodeRepositories (up : Upstream) (page : ℕ) : Except ApiError (List Loaded) := do
  let data ← aikidoApiGet up (codeRepositoriesPath page)
  liftPy (pageItems codeRepositoryKeys data)

/-- A page of the containers. -/
def readContainers (up : Upstream) (page : ℕ) : Except ApiError (List Loaded) :=
  let data := aikidoApiGetSafe up (containersPath page)
  if data.truthy then liftPy (pageItems containerKeys data) else .ok []

/-- `fetch_aikido_code_repositories`, with a budget of pages. -/
def fetchAikidoCodeRepositories (up : Upstream) : ℕ → Option (Except ApiError (List Loaded)) :=
  fetch (readCodeRepositories up) perPage

/-- `fetch_aikido_containers`, with a budget of pages. -/
def fetchAikidoContainers (up : Upstream) : ℕ → Option (Except ApiError (List Loaded)) :=
  fetch (readContainers up) perPage

/-! ### An upstream that serves a listing -/

/-- A body is a page: the list of its items, or a dict that has it under one of some keys. -/
def IsPage (keys : List String) (items : List Loaded) (body : Loaded) : Prop :=
  body = .list items ∨ body.isDict ∧ ∃ k ∈ keys, body.find? k = some (.list items) ∧
    ∀ k' ∈ keys, k' ≠ k → body.find? k' = none

/-- Every successful response to the request of a page has that page of the listing. -/
def Serves (up : Upstream) (path : ℕ → Str) (keys : List String) (listing : List Loaded) : Prop :=
  ∀ page token attempt resp body, up.reply token (path page) attempt = .ok resp →
    resp.isSuccess → resp.body = some body →
      IsPage keys (window (page * perPage) perPage listing) body

/-- A fetch ends with the whole listing, in its order and without repeats, or it raises. -/
def CompleteOrFails (f : ℕ → Option (Except ApiError (List Loaded))) (listing : List Loaded) :
    Prop :=
  Returns f (.ok listing) ∨ ∃ e, Returns f (.error e)

section Pages

variable {keys : List String} {items : List Loaded} {body : Loaded}

theorem getOr_of_isDict (hdict : body.isDict) (k : String) (default : Loaded) :
    body.getOr k default = .ok (body.memberOr k default) := by
  rw [Loaded.getOr, check_of_pos hdict]
  rfl

theorem exists_nestedGet (hdict : body.isDict) (keys : List String) :
    ∃ inner, nestedGet body keys = .ok inner := by
  induction keys with
  | nil => exact ⟨_, rfl⟩
  | cons k keys ih =>
    obtain ⟨inner, hinner⟩ := ih
    exact ⟨body.memberOr k inner, by rw [nestedGet, hinner, ok_bind, getOr_of_isDict hdict]⟩

/-- The list under the only key that is there. -/
theorem nestedGet_of_only {k : String} (hdict : body.isDict) (hk : k ∈ keys)
    (hfind : body.find? k = some (.list items))
    (honly : ∀ k' ∈ keys, k' ≠ k → body.find? k' = none) :
    nestedGet body keys = .ok (.list items) := by
  induction keys with
  | nil => cases hk
  | cons k' keys ih =>
    obtain ⟨inner, hinner⟩ := exists_nestedGet hdict keys
    rw [nestedGet, hinner, ok_bind, getOr_of_isDict hdict, Loaded.memberOr]
    by_cases hkk : k' = k
    · rw [hkk, hfind, Option.getD_some]
    · rw [honly k' List.mem_cons_self hkk, Option.getD_none, ← hinner]
      exact ih ((List.mem_cons.mp hk).resolve_left (Ne.symm hkk))
        fun k'' hk'' => honly k'' (List.mem_cons_of_mem _ hk'')

/-- The items of a page are read. -/
theorem pageItems_of_isPage (h : IsPage keys items body) : pageItems keys body = .ok items := by
  have hread : itemsIn keys body = .ok (.list items) := by
    rcases h with rfl | ⟨hdict, k, hk, hfind, honly⟩
    · rfl
    · have hlist : ¬ body.isList = true := by
        cases body with
        | dict members => exact Bool.false_ne_true
        | _ => cases hdict
      rw [itemsIn, if_neg hlist]
      exact nestedGet_of_only hdict hk hfind honly
  rw [pageItems, hread, ok_bind]
  cases items <;> rfl

end Pages

section Requests

variable {up : Upstream} {path : ℕ → Str} {keys : List String} {listing : List Loaded} {page : ℕ}

theorem Reply.json_eq_ok_iff {resp : Reply} {body : Loaded} :
    resp.json = .ok body ↔ resp.isSuccess ∧ resp.body = some body := by
  rw [Reply.json]
  split_ifs with h
  · cases resp.body <;> simp [h]
  · simp [h]

/-- An attempt that gives a value has a successful response with it. -/
theorem exists_reply_of_attempts {token p : Str} {left attempt : ℕ} {body : Loaded}
    (hleft : attempt + left = maxRetries) (hpos : 0 < left)
    (h : attempts up token p left attempt = .ok body) :
    ∃ attempt resp, up.reply token p attempt = .ok resp ∧ resp.isSuccess ∧
      resp.body = some body := by
  induction left generalizing attempt with
  | zero => cases hpos
  | succ left ih =>
    rw [attempts] at h
    obtain ⟨resp, hresp, h⟩ := bind_eq_ok_iff.mp h
    split_ifs at h with hretry
    · exact ih (by omega) (by omega) h
    · exact ⟨attempt, resp, hresp, Reply.json_eq_ok_iff.mp h⟩

/-- A request that does not fail gives the page. -/
theorem Serves.isPage (h : Serves up path keys listing) {body : Loaded}
    (hget : aikidoApiGet up (path page) = .ok body) :
    IsPage keys (window (page * perPage) perPage listing) body := by
  rw [aikidoApiGet] at hget
  split_ifs at hget
  obtain ⟨token, -, hget⟩ := bind_eq_ok_iff.mp hget
  obtain ⟨attempt, resp, hresp, hsuccess, hbody⟩ := exists_reply_of_attempts rfl (by decide) hget
  exact h page token attempt resp body hresp hsuccess hbody

/-- A page of the code repositories is read, or the request fails. -/
theorem readCodeRepositories_cases (h : Serves up codeRepositoriesPath codeRepositoryKeys listing)
    (page : ℕ) : Served (readCodeRepositories up) perPage listing page ∨
      ∃ e, readCodeRepositories up page = .error e := by
  cases hget : aikidoApiGet up (codeRepositoriesPath page) with
  | error e => exact .inr ⟨e, by rw [readCodeRepositories, hget]; rfl⟩
  | ok body =>
    left
    rw [Served, readCodeRepositories, hget, ok_bind, pageItems_of_isPage (h.isPage hget)]
    rfl

/-- A page of the containers is read when the request does not fail. -/
theorem served_readContainers (h : Serves up containersPath containerKeys listing) {body : Loaded}
    (hget : aikidoApiGet up (containersPath page) = .ok body) :
    Served (readContainers up) perPage listing page := by
  have hpage := h.isPage hget
  have hitems := pageItems_of_isPage hpage
  have hsafe : aikidoApiGetSafe up (containersPath page) = body := by rw [aikidoApiGetSafe, hget]
  simp only [Served, readContainers, hsafe]
  split_ifs with htruthy
  · rw [hitems]
    rfl
  · -- only the bare list of no items is false
    rcases hpage with rfl | ⟨hdict, k, -, hfind, -⟩
    · cases hwindow : window (page * perPage) perPage listing with
      | nil => rfl
      | cons item items => exact absurd (by rw [hwindow]; rfl) htruthy
    · cases body with
      | dict members =>
        cases members with
        | nil => cases hfind
        | cons _ _ => exact absurd rfl htruthy
      | _ => cases hdict

/-- It is taken for an empty one when the request fails. -/
theorem readContainers_of_error {e : ApiError}
    (hget : aikidoApiGet up (containersPath page) = .error e) :
    readContainers up page = .ok [] := by
  have hsafe : aikidoApiGetSafe up (containersPath page) = .null := by rw [aikidoApiGetSafe, hget]
  simp only [readContainers, hsafe]
  rfl

end Requests

section Listings

variable {up : Upstream} {listing : List Loaded}

/-- The fetch of the code repositories is complete or fails. -/
theorem fetchAikidoCodeRepositories_complete_or_error
    (h : Serves up codeRepositoriesPath codeRepositoryKeys listing) :
    CompleteOrFails (fetchAikidoCodeRepositories up) listing :=
  fetch_complete_or_error (by decide) (readCodeRepositories_cases h)

theorem readContainers_cases (h : Serves up containersPath containerKeys listing) (page : ℕ) :
    Served (readContainers up) perPage listing page ∨ readContainers up page = .ok [] := by
  cases hget : aikidoApiGet up (containersPath page) with
  | error e => exact .inr (readContainers_of_error hget)
  | ok body => exact .inl (served_readContainers h hget)

/-- The fetch of the containers never fails: it has the whole listing, or some of its first
pages. -/
theorem returns_fetchAikidoContainers (h : Serves up containersPath containerKeys listing) :
    Returns (fetchAikidoContainers up) (.ok listing) ∨ ∃ page, page * perPage < listing.length ∧
      Returns (fetchAikidoContainers up) (.ok (listing.take (page * perPage))) :=
  returns_fetch (by decide) (readContainers_cases h)

theorem exists_returns_fetchAikidoContainers (h : Serves up containersPath containerKeys listing) :
    ∃ items, Returns (fetchAikidoContainers up) (.ok items) := by
  rcases returns_fetchAikidoContainers h with h | ⟨page, -, h⟩
  · exact ⟨_, h⟩
  · exact ⟨_, h⟩

/-- A page that has a part of the listing is read exactly when its request does not fail. -/
theorem served_readContainers_iff (h : Serves up containersPath containerKeys listing) {page : ℕ}
    (hpage : page * perPage < listing.length) : Served (readContainers up) perPage listing page ↔
      ∃ body, aikidoApiGet up (containersPath page) = .ok body := by
  constructor
  · intro hserved
    cases hget : aikidoApiGet up (containersPath page) with
    | ok body => exact ⟨body, rfl⟩
    | error e =>
      rw [Served, readContainers_of_error hget] at hserved
      have hlen := congrArg List.length (Except.ok.inj hserved)
      have hper : 0 < perPage := by decide
      rw [length_window, List.length_nil] at hlen
      omega
  · rintro ⟨body, hget⟩
    exact served_readContainers h hget

/-- The fetch of the containers is complete exactly when no request for a page of the listing
fails. -/
theorem fetchAikidoContainers_complete_iff (h : Serves up containersPath containerKeys listing) :
    CompleteOrFails (fetchAikidoContainers up) listing ↔
      ∀ page, page * perPage < listing.length →
        ∃ body, aikidoApiGet up (containersPath page) = .ok body := by
  have hcomplete : CompleteOrFails (fetchAikidoContainers up) listing ↔
      Returns (fetchAikidoContainers up) (.ok listing) := by
    refine or_iff_left ?_
    rintro ⟨e, he⟩
    obtain ⟨items, hitems⟩ := exists_returns_fetchAikidoContainers h
    cases he.unique hitems
  rw [hcomplete, fetchAikidoContainers, fetch_complete_iff (by decide) (readContainers_cases h)]
  exact forall₂_congr fun page hpage => served_readContainers_iff h hpage

/-- **The listings of the adapter.** They are complete or fail exactly when no request for a page
that has a part of the containers fails. The code repositories always are, and the containers always
end with a listing. -/
theorem aikido_listings_iff (up : Upstream) (repositories containers : List Loaded)
    (hrepositories : Serves up codeRepositoriesPath codeRepositoryKeys repositories)
    (hcontainers : Serves up containersPath containerKeys containers) :
    (CompleteOrFails (fetchAikidoCodeRepositories up) repositories ∧
        CompleteOrFails (fetchAikidoContainers up) containers ↔
      ∀ page, page * perPage < containers.length →
        ∃ body, aikidoApiGet up (containersPath page) = .ok body) ∧
      CompleteOrFails (fetchAikidoCodeRepositories up) repositories ∧
      ∃ items, Returns (fetchAikidoContainers up) (.ok items) := by
  have hcomplete := fetchAikidoCodeRepositories_complete_or_error hrepositories
  refine ⟨?_, hcomplete, exists_returns_fetchAikidoContainers hcontainers⟩
  rw [← fetchAikidoContainers_complete_iff hcontainers]
  exact and_iff_right hcomplete

/-! ### An upstream that fails after the first page -/

/-- The first page of the containers is there, and every other request is answered by 503. -/
def firstPageOnly (containers : List Loaded) : Upstream where
  configured := true
  token _ := .ok []
  reply _ path _ := .ok (if path = containersPath 0 then
    ⟨200, some (.list (containers.take perPage))⟩ else ⟨503, none⟩)

theorem pagePath_injective (resource : String) : Function.Injective (pagePath resource) := by
  intro i j h
  have htext : intText i = intText j :=
    List.append_cancel_left (List.append_cancel_right (List.append_cancel_right h))
  have hdigits (n : ℕ) : intText n = Nat.toDigits 10 n := if_neg (by omega)
  rw [hdigits, hdigits] at htext
  rw [← Nat.ofDigitChars_ten_toDigits (n := i), htext, Nat.ofDigitChars_ten_toDigits]

theorem serves_firstPageOnly (containers : List Loaded) :
    Serves (firstPageOnly containers) containersPath containerKeys containers := by
  intro page token attempt resp body hresp hsuccess hbody
  obtain rfl := Except.ok.inj hresp
  by_cases hpath : containersPath page = containersPath 0
  · rw [if_pos hpath] at hbody
    obtain rfl := Option.some.inj hbody
    rw [pagePath_injective _ hpath, Nat.zero_mul]
    exact .inl rfl
  · rw [if_neg hpath] at hsuccess
    cases hsuccess

/-- The code repositories are not answered. -/
theorem serves_codeRepositories (containers repositories : List Loaded) :
    Serves (firstPageOnly containers) codeRepositoriesPath codeRepositoryKeys repositories := by
  intro page token attempt resp body hresp hsuccess hbody
  obtain rfl := Except.ok.inj hresp
  have hpath : codeRepositoriesPath page ≠ containersPath 0 := fun h => by
    have hsecond : some 'r' = some 'c' := congrArg (·[1]?) h
    revert hsecond
    decide
  rw [if_neg hpath] at hsuccess
  cases hsuccess

/-- One container, on the page that is there. -/
theorem aikido_listings_one_page :
    CompleteOrFails (fetchAikidoCodeRepositories (firstPageOnly [.int 7])) [.int 3] ∧
      CompleteOrFails (fetchAikidoContainers (firstPageOnly [.int 7])) [.int 7] := by
  have h := aikido_listings_iff (firstPageOnly [.int 7]) [.int 3] [.int 7]
    (serves_codeRepositories _ _) (serves_firstPageOnly _)
  refine h.1.mpr fun page hpage => ?_
  have hzero : page = 0 := by
    have hper : perPage = 100 := rfl
    rw [List.length_singleton, hper] at hpage
    omega
  rw [hzero]
  exact ⟨.list [.int 7], rfl⟩

/-- Of 101 containers, the last one is on a page whose request fails; the first hundred are returned
as if there were no more. -/
theorem partial_container_listing :
    ¬ ∀ (up : Upstream) (repositories containers : List Loaded),
      Serves up codeRepositoriesPath codeRepositoryKeys repositories →
      Serves up containersPath containerKeys containers →
      CompleteOrFails (fetchAikidoCodeRepositories up) repositories ∧
        CompleteOrFails (fetchAikidoContainers up) containers := by
  intro h
  let containers : List Loaded := (List.range 101).map fun n : ℕ => .int (n : ℤ)
  have hlen : containers.length = 101 := by rw [List.length_map, List.length_range]
  have hserves := serves_firstPageOnly containers
  have hcomplete := (h _ [] _ (serves_codeRepositories containers []) hserves).2
  obtain ⟨body, hbody⟩ := (fetchAikidoContainers_complete_iff hserves).mp hcomplete 1 (by
    rw [hlen]
    decide)
  have hpath : containersPath 1 ≠ containersPath 0 := fun h => by cases pagePath_injective _ h
  have hfail : aikidoApiGet (firstPageOnly containers) (containersPath 1) =
      .error (.status 503) := by
    simp [aikidoApiGet, firstPageOnly, attempts, maxRetries, hpath, Reply.json, Reply.isSuccess]
  cases hbody.symm.trans hfail

end Listings

end Vat.AikidoListings
