import Vat.Credentials.SignIn

/-!
# Where sessions come from

A Google sign-in ends in the browser in which it began: the state is a cookie of that browser, and
Google gives nothing for a code without the verifier in it. The exchange code that it ends with is
not bound to a browser: the session in the cookie of a browser is that of a callback, in whichever
browser, at most a minute before the exchange there, unless it comes from a password.

Source: `backend/app/api/auth.py`, lines 95–127, 200–260 and 263–418;
`backend/app/services/user_service.py`, lines 55–72.

## Main results

* `SignIn.callback_of_own_flow`: a Google sign-in ends in the browser that began it.
* `SignIn.session_cookie_origin`: where the session of a browser comes from.
-/

namespace Vat.SignIn

open Relational Transition

section Backend

variable [Unicode] [Services] {cfg : Settings}

/-! ### Where a sign-in comes from -/

omit [Unicode] [Services] in
theorem scalarOneOrNone_eq_ok_some_iff {α : Type*} {l : List α} {x : α} :
    scalarOneOrNone l = .ok (some x) ↔ l = [x] := by
  rcases l with _ | ⟨y, _ | ⟨z, l⟩⟩ <;> simp [scalarOneOrNone]

omit [Unicode] [Services] in
theorem exists_of_truthy {x : Option Str} (h : Str.truthy x = true) : ∃ s, x = some s := by
  cases x with
  | none => simp [Str.truthy] at h
  | some s => exact ⟨s, rfl⟩

/-- The rows that a Google sign-in with an e-mail finds. -/
def googleUsers (s : State) (email : Str) : List User :=
  s.users.rows.filter fun u => emailMatches email u && inGoogleTenant s.tenants u

/-- The underscore of an e-mail is a wildcard. -/
example : sqlLike (str "jo_doe@vat") (str "jondoe@vat") = true := by decide

/-- A callback succeeds only with the state in the cookie, a code that Google has given for the
verifier in that state, and one user with the e-mail. -/
theorem of_googleCallback_eq_ok {s : State} {q : Query} {stateCookie : Option Str} {user : User}
    (h : googleCallback s q stateCookie = .ok user) :
    ∃ state payload c codeVerifier, q.state = some state ∧ stateCookie = some state ∧
      decodeOauthState s.clock state = some payload ∧ payload.cv = some codeVerifier ∧
      c ∈ s.consents ∧ q.code = some c.code ∧ c.challenge = Services.challenge codeVerifier ∧
      googleUsers s c.email = [user] := by
  rw [googleCallback] at h
  split_ifs at h with herror hcode hstate
  rw [Bool.not_eq_false] at hcode
  simp only [not_or, Bool.not_eq_false, not_not] at hstate
  obtain ⟨hstate, -, heq⟩ := hstate
  obtain ⟨code, hq⟩ := exists_of_truthy hcode
  obtain ⟨state, hs⟩ := exists_of_truthy hstate
  rw [hs, hq, Str.orEmpty_some, Str.orEmpty_some] at h
  cases hdecode : decodeOauthState s.clock state with
  | none => simp [hdecode] at h
  | some payload =>
    simp only [hdecode] at h
    split_ifs at h with hcv
    obtain ⟨codeVerifier, hcv⟩ := exists_of_truthy (Bool.not_eq_false _ ▸ hcv)
    rw [hcv, Str.orEmpty_some] at h
    cases hgoogle : Services.googleEmail s.consents code codeVerifier with
    | none => simp [hgoogle] at h
    | some email =>
      simp only [hgoogle] at h
      split_ifs at h with hemail
      obtain ⟨email, rfl⟩ := exists_of_truthy (Bool.not_eq_false _ ▸ hemail)
      obtain ⟨c, hc, rfl, rfl, hchallenge⟩ := Services.googleEmail_sound hgoogle
      rw [Str.orEmpty_some, getUserByEmailInGoogleTenant] at h
      refine ⟨state, payload, c, codeVerifier, hs, by rw [← heq, hs], hdecode, hcv, hc, hq,
        hchallenge, ?_⟩
      split_ifs at h
      rw [googleUsers, ← scalarOneOrNone_eq_ok_some_iff]
      cases hone : scalarOneOrNone (s.users.rows.filter fun u =>
          emailMatches c.email u && inGoogleTenant s.tenants u) with
      | error e => simp [hone] at h
      | ok found =>
        cases found with
        | none => simp [hone] at h
        | some user' =>
          simp only [hone, Except.ok.injEq] at h
          rw [h]

omit [Unicode] [Services] in
/-- A cookie that a browser has after a write in some browser was written, or was there. -/
theorem of_update_eq_some {cookies : ℕ → Option Str} {b browser : ℕ} {written : Option Str}
    {t : Str} (h : Function.update cookies b written browser = some t) :
    browser = b ∧ written = some t ∨ cookies browser = some t := by
  by_cases heq : browser = b
  · rw [heq, Function.update_self] at h
    exact Or.inl ⟨heq, h⟩
  · rw [Function.update_of_ne heq] at h
    exact Or.inr h

omit [Unicode] [Services] in
/-- A cookie that a browser has after one was cleared was there. -/
theorem of_clear_eq_some {cookies : ℕ → Option Str} {b browser : ℕ} {t : Str}
    (h : Function.update cookies b none browser = some t) : cookies browser = some t := by
  rcases of_update_eq_some h with ⟨-, ⟨⟩⟩ | h
  exact h

/-- The cookie with the state comes from the start of a sign-in in the browser. -/
theorem stateCookies_eq_some {s : State} {o : Op} {browser : ℕ}
    (hplant : ∀ state session, o ≠ .plant browser state session) {t : Str}
    (h : stateCookies cfg s o browser = some t) :
    s.stateCookie browser = some t ∨
      ∃ codeVerifier, o = .authorize browser codeVerifier ∧
        t = createOauthState codeVerifier oauthStateTtlSeconds s.clock := by
  cases o with
  | authorize b codeVerifier =>
    simp only [stateCookies] at h
    split_ifs at h
    · rcases of_update_eq_some h with ⟨rfl, ⟨⟩⟩ | h
      · exact Or.inr ⟨codeVerifier, rfl, rfl⟩
      · exact Or.inl h
    · exact Or.inl h
  | callback b q =>
    simp only [stateCookies] at h
    cases hcb : googleCallback s q (s.stateCookie b) with
    | ok user => exact Or.inl (of_clear_eq_some (b := b) (by simpa only [hcb] using h))
    | error e =>
      cases e with
      | http status detail => exact Or.inl (by simpa only [hcb] using h)
      | serverError => exact Or.inl (by simpa only [hcb] using h)
      | redirect error => exact Or.inl (of_clear_eq_some (b := b) (by simpa only [hcb] using h))
  | drop b => exact Or.inl (of_clear_eq_some h)
  | plant b state session =>
    have hne : browser ≠ b := by
      rintro rfl
      exact hplant state session rfl
    simp only [stateCookies, Function.update_of_ne hne] at h
    exact Or.inl h
  | pass _ | edit _ _ _ | login _ _ _ | consent _ | exchange _ _ | clientToken _ | logout _ =>
    exact Or.inl h

/-- A Google sign-in ends in the browser that began it, within five minutes, with a code that
Google gave for the verifier of that beginning, for the one user with the e-mail of the account. -/
theorem callback_of_own_flow {s₀ : State} {browser : ℕ} (hcookie : s₀.stateCookie browser = none)
    {ops : List Op} (hplant : ∀ o ∈ ops, ∀ state session, o ≠ .plant browser state session)
    {q : Query} {user : User}
    (h : googleCallback (run (step cfg) s₀ ops) q
      ((run (step cfg) s₀ ops).stateCookie browser) = .ok user) :
    ∃ pre codeVerifier post, ops = pre ++ .authorize browser codeVerifier :: post ∧
      q.state = some (createOauthState codeVerifier oauthStateTtlSeconds
        (run (step cfg) s₀ pre).clock) ∧
      (run (step cfg) s₀ ops).clock ≤ (run (step cfg) s₀ pre).clock + oauthStateTtlSeconds ∧
      ∃ c ∈ (run (step cfg) s₀ ops).consents, q.code = some c.code ∧
        c.challenge = Services.challenge codeVerifier ∧
        googleUsers (run (step cfg) s₀ ops) c.email = [user] := by
  obtain ⟨state, payload, c, cv, hstate, hsame, hdecode, hcv, hc, hcode, hchallenge, huser⟩ :=
    of_googleCallback_eq_ok h
  have horigin := sometime_of_run (S := fun s : State => s.stateCookie browser = some state)
    (fun s o ho => stateCookies_eq_some (hplant o ho)) hsame
  rw [or_iff_right (by rw [hcookie]; simp), sometime_iff_exists_split] at horigin
  obtain ⟨pre, _, post, hsplit, codeVerifier, rfl, rfl⟩ := horigin
  obtain ⟨hcar, -, hexp⟩ := decodeOauthState_eq_some_iff.mp hdecode
  obtain rfl := Signed.Scheme.carries_encode_iff.mp hcar
  obtain rfl : codeVerifier = cv := Option.some.inj hcv
  exact ⟨pre, codeVerifier, post, hsplit, hstate, hexp, c, hc, hcode, hchallenge, huser⟩

/-- The session cookie comes from a login in the browser, or from an exchange there. -/
theorem sessions_eq_some {s : State} {o : Op} {browser : ℕ}
    (hplant : ∀ state session, o ≠ .plant browser state session) {t : Str}
    (h : sessions cfg s o browser = some t) :
    s.session browser = some t ∨
      (∃ username password user, o = .login browser username password ∧
        login s username password = .ok user ∧ t = userToken cfg s.clock user) ∨
      ∃ code, o = .exchange browser code ∧ exchangeCode s code = .ok t := by
  cases o with
  | login b username password =>
    simp only [sessions] at h
    cases hlogin : login s username password with
    | error e => exact Or.inl (by simpa only [hlogin] using h)
    | ok user =>
      simp only [hlogin] at h
      rcases of_update_eq_some h with ⟨rfl, ⟨⟩⟩ | h
      · exact Or.inr (Or.inl ⟨username, password, user, rfl, hlogin, rfl⟩)
      · exact Or.inl h
  | exchange b code =>
    simp only [sessions] at h
    cases hexchange : exchangeCode s code with
    | error e => exact Or.inl (by simpa only [hexchange] using h)
    | ok token =>
      simp only [hexchange] at h
      rcases of_update_eq_some h with ⟨rfl, ⟨⟩⟩ | h
      · exact Or.inr (Or.inr ⟨code, rfl, hexchange⟩)
      · exact Or.inl h
  | logout b => exact Or.inl (of_clear_eq_some h)
  | drop b => exact Or.inl (of_clear_eq_some h)
  | plant b state session =>
    have hne : browser ≠ b := by
      rintro rfl
      exact hplant state session rfl
    rcases of_update_eq_some h with ⟨heq, -⟩ | h
    · exact absurd heq hne
    · exact Or.inl h
  | pass _ | edit _ _ _ | authorize _ _ | consent _ | callback _ _ | clientToken _ =>
    exact Or.inl h

/-- The exchange codes that are presented are genuine. -/
def GenuineCode (s : State) : Op → Prop
  | .exchange _ code => Jose.scheme.Genuine (· ∈ s.issued) code
  | _ => True

/-- An exchange gives the session of a callback at most a minute before it, whichever browser that
was in, and whether or not the code has been exchanged already. -/
theorem of_exchangeCode_eq_ok {s₀ : State} (hissued : s₀.issued = []) {ops : List Op} {code t : Str}
    (hcode : Jose.scheme.Genuine (· ∈ (run (step cfg) s₀ ops).issued) code)
    (h : exchangeCode (run (step cfg) s₀ ops) code = .ok t) :
    ∃ pre browser q post user, ops = pre ++ .callback browser q :: post ∧
      SignsIn (run (step cfg) s₀ pre) (.callback browser q) user ∧
      t = userToken cfg (run (step cfg) s₀ pre).clock user ∧
      (run (step cfg) s₀ ops).clock ≤ (run (step cfg) s₀ pre).clock + 60 := by
  have hdecode : decodeOauthExchangeCode (run (step cfg) s₀ ops).clock code = some t := by
    rw [exchangeCode] at h
    cases hd : decodeOauthExchangeCode (run (step cfg) s₀ ops).clock code with
    | none => simp [hd] at h
    | some token =>
      simp only [hd] at h
      split_ifs at h
      rw [Except.ok.inj h]
  obtain ⟨c, hcar, hiss, hexp, hgrant⟩ := decodeOauthExchangeCode_eq_some_iff.mp hdecode
  have hmem := (mem_issued_run_iff cfg).mp (hcode c hcar)
  rw [hissued, or_iff_right List.not_mem_nil, sometime_iff_exists_split] at hmem
  obtain ⟨pre, o, post, hsplit, ho⟩ := hmem
  obtain ⟨browser, q, user, rfl, hcallback, rfl⟩ := mem_issues_exchange hiss ho
  exact ⟨pre, browser, q, post, user, hsplit, hcallback, (Option.some.inj hgrant).symm, hexp⟩

/-- The session of a browser is that of a user who signed in: with the password in that browser, or
with Google, and the code was exchanged in that browser within a minute. -/
theorem session_cookie_origin {s₀ : State} (hissued : s₀.issued = []) {browser : ℕ}
    (hsession : s₀.session browser = none) {ops : List Op}
    (hplant : ∀ o ∈ ops, ∀ state session, o ≠ .plant browser state session)
    (hcode : Along (step cfg) GenuineCode s₀ ops) {t : Str}
    (h : (run (step cfg) s₀ ops).session browser = some t) :
    ∃ pre o post user, ops = pre ++ o :: post ∧ SignsIn (run (step cfg) s₀ pre) o user ∧
      t = userToken cfg (run (step cfg) s₀ pre).clock user ∧
      ((∃ username password, o = .login browser username password) ∨
        (∃ b q, o = .callback b q) ∧
          ∃ mid code post', post = mid ++ .exchange browser code :: post' ∧
            (run (step cfg) s₀ (pre ++ o :: mid)).clock ≤
              (run (step cfg) s₀ pre).clock + 60) := by
  have horigin := sometime_of_run (S := fun s : State => s.session browser = some t)
    (fun s o ho => sessions_eq_some (hplant o ho)) h
  rw [or_iff_right (by rw [hsession]; simp), sometime_iff_exists_split] at horigin
  obtain ⟨pre, o, post, hsplit, ⟨username, password, user, rfl, hlogin, ht⟩ |
    ⟨code, rfl, hexchange⟩⟩ := horigin
  · exact ⟨pre, _, post, user, hsplit, hlogin, ht, Or.inl ⟨username, password, rfl⟩⟩
  · have hgenuine := along_iff_forall_split.mp hcode pre _ post hsplit
    obtain ⟨pre', b, q, mid, user, hpre, hsigns, ht, hclock⟩ :=
      of_exchangeCode_eq_ok hissued hgenuine hexchange
    refine ⟨pre', .callback b q, mid ++ .exchange browser code :: post, user, ?_, hsigns, ht,
      Or.inr ⟨⟨b, q, rfl⟩, mid, code, post, rfl, ?_⟩⟩
    · rw [hsplit, hpre, List.append_assoc, List.cons_append]
    · rwa [← hpre]

end Backend

/-! ### A Google sign-in -/

section Sample

attribute [local instance] asciiUnicode

/-- A start at Google, and the consent to it. -/
def flow : List Op :=
  [.authorize 0 (str "v"), .consent ⟨str "c", str "ann@vat", str "v"⟩]

/-- How the browser comes back. -/
def flowQuery (J : Jose) : Query where
  code := some (str "c")
  state := some (createOauthState (str "v") oauthStateTtlSeconds 0)
  error := none

theorem googleCallback_flow (J : Jose) (hne : ∀ c, J.scheme.encode c ≠ []) :
    let _ := openServices J
    googleCallback (run (step sampleSettings) sampleState flow) (flowQuery J)
      ((run (step sampleSettings) sampleState flow).stateCookie 0) = .ok ann := by
  intro _
  have hcookie : (run (step sampleSettings) sampleState flow).stateCookie 0 =
      some (createOauthState (str "v") oauthStateTtlSeconds 0) := rfl
  have hstate : Str.truthy (some (createOauthState (str "v") oauthStateTtlSeconds 0)) = true :=
    bne_iff_ne.mpr (hne _)
  have hcode : Str.truthy (some (str "c")) = true := by decide
  have hnone : Str.truthy none = false := rfl
  have hdecode : decodeOauthState (run (step sampleSettings) sampleState flow).clock
      (createOauthState (str "v") oauthStateTtlSeconds 0) =
        some (stateClaims (str "v") oauthStateTtlSeconds 0) :=
    decodeOauthState_eq_some_iff.mpr
      ⟨Signed.Scheme.carries_encode_iff.mpr rfl, rfl, Nat.zero_le _⟩
  have hcv : Str.truthy (stateClaims (str "v") oauthStateTtlSeconds 0).cv = true := by decide
  have hgoogle : Services.googleEmail (run (step sampleSettings) sampleState flow).consents
      (str "c") (Str.orEmpty (stateClaims (str "v") oauthStateTtlSeconds 0).cv) =
        some (some (str "ann@vat")) := rfl
  have hemail : Str.truthy (some (str "ann@vat")) = true := by decide
  have husers : getUserByEmailInGoogleTenant (run (step sampleSettings) sampleState flow).users
      (run (step sampleSettings) sampleState flow).tenants (str "ann@vat") = .ok (some ann) := rfl
  simp only [hcookie, googleCallback, flowQuery, hstate, hcode, hnone, hdecode, hcv, hgoogle,
    hemail, husers, Str.orEmpty_some, reduceCtorEq, ne_eq, not_true_eq_false, or_self, if_false]

/-- What the browser brings to the exchange. -/
def flowCode (J : Jose) : Str :=
  let _ := openServices J
  createOauthExchangeCode (userToken sampleSettings 0 ann) 0

/-- The flow to its end, with the exchange in another browser. -/
def wholeFlow (J : Jose) : List Op :=
  flow ++ [.callback 0 (flowQuery J), .pass 30, .exchange 1 (flowCode J)]

theorem mem_issued_wholeFlow (J : Jose) (hne : ∀ c, J.scheme.encode c ≠ []) :
    let _ := openServices J
    exchangeClaims (userToken sampleSettings 0 ann) 0 ∈ (run (step sampleSettings) sampleState
      (flow ++ [.callback 0 (flowQuery J), .pass 30])).issued := by
  intro _
  refine (mem_issued_run_iff sampleSettings).mpr (Or.inr (sometime_iff_exists_split.mpr ?_))
  refine ⟨flow, .callback 0 (flowQuery J), [.pass 30], rfl, mem_issues_iff.mpr (Or.inr (Or.inl ?_))⟩
  exact ⟨0, flowQuery J, ann, rfl, googleCallback_flow J hne, rfl⟩

theorem session_wholeFlow (J : Jose) (hne : ∀ c, J.scheme.encode c ≠ []) :
    let _ := openServices J
    (run (step sampleSettings) sampleState (wholeFlow J)).session 1 =
      some (userToken sampleSettings 0 ann) := by
  intro _
  have hclock : (run (step sampleSettings) sampleState
      (flow ++ [.callback 0 (flowQuery J), .pass 30])).clock = 30 := rfl
  have hexchange : exchangeCode (run (step sampleSettings) sampleState
      (flow ++ [.callback 0 (flowQuery J), .pass 30])) (flowCode J) =
        .ok (userToken sampleSettings 0 ann) := by
    have hcode : decodeOauthExchangeCode 30 (flowCode J) =
        some (userToken sampleSettings 0 ann) :=
      decodeOauthExchangeCode_eq_some_iff.mpr
        ⟨_, Signed.Scheme.carries_encode_iff.mpr rfl, rfl, show 30 ≤ 0 + 60 by decide, rfl⟩
    have htoken : decodeToken 30 (userToken sampleSettings 0 ann) =
        some (userClaims sampleSettings 0 ann) :=
      decodeToken_eq_some_iff.mpr
        ⟨Signed.Scheme.carries_encode_iff.mpr rfl, rfl, show 30 ≤ 0 + 24 * 3600 by decide⟩
    have hne' : userToken sampleSettings 0 ann ≠ [] := hne _
    simp only [exchangeCode, hclock, hcode, htoken, hne', if_false, Option.isNone_some,
      Bool.false_eq_true]
  rw [wholeFlow, show [Op.callback 0 (flowQuery J), .pass 30, .exchange 1 (flowCode J)] =
    [.callback 0 (flowQuery J), .pass 30] ++ [.exchange 1 (flowCode J)] from rfl,
    ← List.append_assoc, run_append]
  change sessions sampleSettings _ (.exchange 1 (flowCode J)) 1 = _
  simp only [sessions, hexchange, Function.update_self]

attribute [local instance] sampleServices

/-- The flow of the sample ends in its browser. -/
theorem callback_of_own_flow_ann :
    ∃ pre codeVerifier post, flow = pre ++ .authorize 0 codeVerifier :: post ∧
      (flowQuery openJose).state = some (createOauthState codeVerifier oauthStateTtlSeconds
        (run (step sampleSettings) sampleState pre).clock) ∧
      (run (step sampleSettings) sampleState flow).clock ≤
        (run (step sampleSettings) sampleState pre).clock + oauthStateTtlSeconds ∧
      ∃ c ∈ (run (step sampleSettings) sampleState flow).consents,
        (flowQuery openJose).code = some c.code ∧
        c.challenge = Services.challenge codeVerifier ∧
        googleUsers (run (step sampleSettings) sampleState flow) c.email = [ann] := by
  refine callback_of_own_flow rfl ?_ (googleCallback_flow openJose encode_ne_nil)
  rintro o ho state session rfl
  simp [flow] at ho

/-- The session of the other browser is that of the callback. -/
theorem session_cookie_origin_ann :
    ∃ pre o post user, wholeFlow openJose = pre ++ o :: post ∧
      SignsIn (run (step sampleSettings) sampleState pre) o user ∧
      userToken sampleSettings 0 ann =
        userToken sampleSettings (run (step sampleSettings) sampleState pre).clock user ∧
      ((∃ username password, o = .login 1 username password) ∨
        (∃ b q, o = .callback b q) ∧
          ∃ mid code post', post = mid ++ .exchange 1 code :: post' ∧
            (run (step sampleSettings) sampleState (pre ++ o :: mid)).clock ≤
              (run (step sampleSettings) sampleState pre).clock + 60) := by
  refine session_cookie_origin rfl rfl ?_ ?_ (session_wholeFlow openJose encode_ne_nil)
  · rintro o ho state session rfl
    simp [wholeFlow, flow] at ho
  · refine ⟨trivial, trivial, trivial, trivial, ?_, trivial⟩
    exact Signed.Scheme.genuine_encode (mem_issued_wholeFlow openJose encode_ne_nil)

end Sample

end Vat.SignIn
