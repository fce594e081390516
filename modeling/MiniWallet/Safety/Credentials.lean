import MiniWallet.Safety.Authorization

/-!
# Whose password was given

As long as nobody forges access tokens, money is taken from an account only after somebody has
logged in with the password of its owner. An access token stands for the subject that it was made
for; it was made at a login, or in exchange for a refresh token; and the subject of a refresh token
goes back, through any number of exchanges, to a login.

* `Unforged`: a step in which no token is accepted that was not handed out.
* `LoggedIn`, `SignedUp`: somebody has given the password of a user, and somebody has chosen it.
* `ApiState.Trusted`, `ApiSession.Trusts`: tokens, and what is known because of them, go back to
  logins.
* `debits_proven`: so do the debits.
-/

namespace MiniWallet

open Numeric Bookkeeping Process System

/-- What was written into a token or an identifier is what is read from it. -/
structure Platform.Faithful (P : Platform) : Prop where
  decode : ∀ {subject expiry at_ subject'},
    P.decode (P.encode subject expiry) at_ = some (some subject') → subject' = subject
  asUuid : ∀ id : UUID, P.asUuid id.str = some id

/-- The access token that an answer hands out. -/
def Answer.accessToken? : Answer → Option String
  | data _ (.tokens t) => some t.accessToken
  | _ => none

/-- The access tokens that have been handed out. -/
def ApiState.handedOut (s : ApiState) : List String := s.answered.filterMap (·.answer.accessToken?)

/-- The token that a step accepts. -/
def accepted? : ApiEvent → Option String
  | .call _ (.decode token) (.ok (some (some _))) => some token
  | _ => none

/-- No token is accepted that was not handed out. -/
def Unforged (w : World ApiState ApiSession) (l : ApiEvent) : Prop :=
  ∀ token ∈ accepted? l, token ∈ w.shared.handedOut

/-- Whether the token of a step was handed out is decidable. -/
instance (w : World ApiState ApiSession) (l : ApiEvent) : Decidable (Unforged w l) :=
  inferInstanceAs (Decidable (∀ token ∈ accepted? l, token ∈ w.shared.handedOut))

section Logins

variable (P : Platform) (s : ApiState)

/-- Somebody has logged in as the user, with the password. -/
def LoggedIn (user : User) : Prop :=
  ∃ body, .login body ∈ s.received ∧ P.emailStr body.email = .ok user.email ∧
    P.checkpw body.password user.hashedPassword = true

/-- Somebody has registered as the user, and chosen the password. -/
def SignedUp (user : User) : Prop :=
  ∃ body, .register body ∈ s.received ∧ P.emailStr body.email = .ok user.email ∧
    P.checkpw body.password user.hashedPassword = true

/-- The subject stands for a user who has logged in. -/
def Vouched (subject : String) : Prop :=
  ∃ user ∈ s.auth.users, LoggedIn P s user ∧ subject = user.id.str

/-- The tokens go back to logins, and the users to registrations. -/
structure ApiState.Trusted : Prop where
  /-- The refresh tokens in Redis. -/
  tokens : ∀ {key value expiry}, s.auth.tokens key = some (value, expiry) → Vouched P s value
  /-- The access tokens that were handed out. -/
  handedOut : ∀ token ∈ s.handedOut, ∃ subject expiry, token = P.encode subject expiry ∧
    Vouched P s subject
  registered : ∀ user ∈ s.auth.users, SignedUp P s user
  unique : ∀ u ∈ s.auth.users, ∀ u' ∈ s.auth.users, u.id = u'.id → u = u'

/-- What a request knows because of tokens goes back to logins. -/
structure ApiSession.Trusts (σ : ApiSession) : Prop where
  loaded : ∀ user ∈ σ.loaded, user ∈ s.auth.users ∧ ∃ body, σ.received = some (.login body) ∧
    P.emailStr body.email = .ok user.email
  exchanged : ∀ subject ∈ σ.exchanged, Vouched P s subject
  subject : ∀ subject ∈ σ.subject, Vouched P s subject.2
  caller : ∀ c ∈ σ.caller, LoggedIn P s c.user
  hashes : ∀ h ∈ σ.hashes, P.checkpw h.1 h.2 = true

end Logins

variable {P : Platform} {t₀ : Time} {c : Api} {s s' : ApiState} {σ : ApiSession}

/-! ## What stays true -/

/-- A login that has arrived has arrived. -/
theorem LoggedIn.mono {user : User} (h : LoggedIn P s user) (hgrows : s.Grows s') :
    LoggedIn P s' user := by
  obtain ⟨body, hbody, hcheck⟩ := h
  exact ⟨body, hgrows.received _ hbody, hcheck⟩

/-- A registration that has arrived has arrived. -/
theorem SignedUp.mono {user : User} (h : SignedUp P s user) (hgrows : s.Grows s') :
    SignedUp P s' user := by
  obtain ⟨body, hbody, hcheck⟩ := h
  exact ⟨body, hgrows.received _ hbody, hcheck⟩

/-- A subject stays vouched for. -/
theorem Vouched.mono {subject : String} (h : Vouched P s subject) (hgrows : s.Grows s') :
    Vouched P s' subject := by
  obtain ⟨user, huser, hlogged, heq⟩ := h
  exact ⟨user, hgrows.users _ huser, hlogged.mono hgrows, heq⟩

/-- What a session trusts stays trusted. -/
theorem ApiSession.Trusts.mono (h : σ.Trusts P s) (hgrows : s.Grows s') : σ.Trusts P s' where
  loaded := fun user huser =>
    ⟨hgrows.users _ (h.loaded user huser).1, (h.loaded user huser).2⟩
  exchanged := fun subject hsubject => (h.exchanged subject hsubject).mono hgrows
  subject := fun subject hsubject => (h.subject subject hsubject).mono hgrows
  caller := fun c hc => (h.caller c hc).mono hgrows
  hashes := h.hashes

/-- A session at its start trusts nothing. -/
theorem ApiSession.trusts_idle (s : ApiState) : ApiSession.Trusts P s {} where
  loaded := fun _ h => nomatch h
  exchanged := fun _ h => nomatch h
  subject := fun _ h => nomatch h
  caller := fun _ h => nomatch h
  hashes := fun _ h => nomatch h

/-- What is known because of tokens does not depend on the rest of the session. -/
theorem ApiSession.Trusts.congr {σ' : ApiSession} (h : σ.Trusts P s)
    (hreceived : σ'.received = σ.received) (hloaded : σ'.loaded = σ.loaded)
    (hexchanged : σ'.exchanged = σ.exchanged) (hsubject : σ'.subject = σ.subject)
    (hcaller : σ'.caller = σ.caller) (hhashes : σ'.hashes = σ.hashes) : σ'.Trusts P s where
  loaded := by rw [hreceived, hloaded]; exact h.loaded
  exchanged := by rw [hexchanged]; exact h.exchanged
  subject := by rw [hsubject]; exact h.subject
  caller := by rw [hcaller]; exact h.caller
  hashes := by rw [hhashes]; exact h.hashes

/-- The tokens stay trusted while only trusted refresh tokens are stored. -/
theorem ApiState.Trusted.mono (h : s.Trusted P) (hgrows : s.Grows s')
    (htokens : ∀ key value expiry, s'.auth.tokens key = some (value, expiry) → Vouched P s' value)
    (hanswered : s'.answered = s.answered) (husers : s'.auth.users = s.auth.users) :
    s'.Trusted P where
  tokens := fun htoken => htokens _ _ _ htoken
  handedOut := by
    intro token htoken
    rw [ApiState.handedOut, hanswered] at htoken
    obtain ⟨subject, expiry, heq, hvouched⟩ := h.handedOut token htoken
    exact ⟨subject, expiry, heq, hvouched.mono hgrows⟩
  registered := by
    rw [husers]
    exact fun user huser => (h.registered user huser).mono hgrows
  unique := by
    rw [husers]
    exact h.unique

/-- A subject for which a request may make a token stands for a user who has logged in. -/
theorem ApiSession.Trusts.vouched (h : σ.Trusts P s) (hknows : σ.Knows P s) {subject : String}
    (hvouches : σ.Vouches P subject) : Vouched P s subject := by
  rcases hvouches with ⟨body, user, hreceived, hloaded, hcheck, rfl⟩ | hexchanged
  · obtain ⟨huser, body', hreceived', hemail⟩ := h.loaded user hloaded
    -- the user was looked up for the same login
    have hsame : HttpCall.login body' = .login body :=
      Option.some.inj (hreceived'.symm.trans hreceived)
    obtain rfl := HttpCall.login.inj hsame
    exact ⟨user, huser, ⟨body', hknows.received _ hreceived, hemail, hcheck⟩, rfl⟩
  · exact h.exchanged subject hexchanged

/-! ## Steps -/

/-- An operation of a handler keeps the tokens trusted. -/
theorem ApiCall.trusted {i : ℕ} {o : ApiOp} {r : Except ApiExc o.Out}
    (h : ApiCall P t₀ Unforged c i o r) (htrusted : c.shared.Trusted P)
    (htrusts : (c.sess i).Trusts P c.shared) :
    (ApiState.effect P o r (c.sess i) c.shared).Trusted P := by
  have hgrows := ApiCall.grows h
  have hknows := MiniWallet.knows h.run i
  have hends : c.shared.Ends P o r := h.enabled
  have hold : ∀ key value expiry, c.shared.auth.tokens key = some (value, expiry) →
      Vouched P (ApiState.effect P o r (c.sess i) c.shared) value :=
    fun key value expiry htoken => (htrusted.tokens htoken).mono hgrows
  cases o with
  | insertUser user =>
      cases r with
      | error e => exact htrusted
      | ok _ =>
          obtain ⟨body, hreceived, hemail, hhash⟩ := h.guard
          -- no other user has the identifier
          have hnew : ∀ u ∈ c.shared.auth.users, u.id ≠ user.id := by
            intro u hu hid
            rcases hends with hverdict | hfailed
            · have hany : (c.shared.auth.users.any fun u =>
                  decide (u.id = user.id ∨ u.email = user.email)) = true :=
                List.any_eq_true.mpr ⟨u, hu, by simp [hid]⟩
              simp only [ApiState.verdict, hany, if_true] at hverdict
              split at hverdict <;> cases hverdict
            · cases hfailed
          refine { tokens := fun htoken => hold _ _ _ htoken, handedOut := fun token htoken => ?_,
                   registered := fun u hu => ?_, unique := fun u hu u' hu' hid => ?_ }
          · obtain ⟨subject, expiry, heq, hvouched⟩ := htrusted.handedOut token htoken
            exact ⟨subject, expiry, heq, hvouched.mono hgrows⟩
          · rcases List.mem_cons.mp hu with rfl | hu
            · exact ⟨body, hknows.received _ hreceived, hemail, htrusts.hashes _ hhash⟩
            · exact (htrusted.registered u hu).mono hgrows
          · rcases List.mem_cons.mp hu with rfl | hmem <;>
              rcases List.mem_cons.mp hu' with rfl | hmem'
            · rfl
            · exact absurd hid.symm (hnew _ hmem')
            · exact absurd hid (hnew _ hmem)
            · exact htrusted.unique u hmem u' hmem' hid
  | auth o =>
      obtain ⟨x, -, rfl⟩ := hends
      have husers : (ApiState.effect P (.auth o) (.ok x) (c.sess i) c.shared).auth.users =
          c.shared.auth.users := AuthStore.effect_users o x _ c.shared.store
      cases o with
      | setex key ttl value =>
          cases x with
          | error e => exact htrusted.mono hgrows hold rfl husers
          | ok _ =>
              have hvouched := htrusts.vouched hknows h.guard
              refine htrusted.mono hgrows (fun key' value' expiry htoken => ?_) rfl husers
              change Function.update c.shared.auth.tokens key _ key' = _ at htoken
              by_cases hkey : key' = key
              · -- the refresh token that is stored
                rw [hkey, Function.update_self] at htoken
                cases htoken
                exact hvouched.mono hgrows
              · rw [Function.update_of_ne hkey] at htoken
                exact hold _ _ _ htoken
      | delete key =>
          cases x with
          | error e => exact htrusted.mono hgrows hold rfl husers
          | ok n =>
              refine htrusted.mono hgrows (fun key' value' expiry htoken => ?_) rfl husers
              change Function.update c.shared.auth.tokens key none key' = _ at htoken
              by_cases hkey : key' = key
              · rw [hkey, Function.update_self] at htoken
                cases htoken
              · rw [Function.update_of_ne hkey] at htoken
                exact hold _ _ _ htoken
      | now | tokenUrlsafe | selectUser | get =>
          cases x <;> exact htrusted.mono hgrows hold rfl husers
  | respond answer =>
      obtain rfl : r = .ok () := hends
      refine { tokens := fun htoken => hold _ _ _ htoken, handedOut := fun token htoken => ?_,
               registered := fun u hu => (htrusted.registered u hu).mono hgrows,
               unique := htrusted.unique }
      obtain ⟨x, hx, htoken⟩ := List.mem_filterMap.mp htoken
      rcases List.mem_append.mp hx with hx | hx
      · -- the token that is handed out has been made for a subject that the request vouches for
        obtain ⟨call, hreceived, rfl⟩ := Option.map_eq_some_iff.mp (Option.mem_toList.mp hx)
        have hmay : (c.sess i).MayAnswer P answer := h.guard
        cases answer with
        | failed e => cases htoken
        | data status data =>
            cases data with
            | tokens t =>
                cases htoken
                obtain ⟨-, -, subject, expiry, heq, hvouches⟩ := hmay
                exact ⟨subject, expiry, heq, (htrusts.vouched hknows hvouches).mono hgrows⟩
            | _ => cases htoken
      · obtain ⟨subject, expiry, heq, hvouched⟩ :=
          htrusted.handedOut token (List.mem_filterMap.mpr ⟨x, hx, htoken⟩)
        exact ⟨subject, expiry, heq, hvouched.mono hgrows⟩
  | wallet o =>
      obtain ⟨x, -, rfl⟩ := hends
      exact htrusted.mono hgrows hold rfl rfl
  | receive call =>
      exact htrusted.mono hgrows hold rfl rfl
  | call request =>
      obtain rfl : r = .ok c.shared.wallet.size := hends
      exact htrusted.mono hgrows hold rfl rfl
  | _ => exact htrusted

/-- What happens without the requests keeps the tokens trusted. -/
theorem trusted_env (h : ApiRun P t₀ Unforged c) (htrusted : c.shared.Trusted P) {s' : ApiState}
    (he : ApiState.Env P c.shared s') : s'.Trusted P := by
  have hgrows := grows_env h he
  have hold : ∀ key value expiry, c.shared.auth.tokens key = some (value, expiry) →
      Vouched P s' value := fun key value expiry htoken => (htrusted.tokens htoken).mono hgrows
  cases he with
  | wallet hs _ => exact htrusted.mono hgrows hold rfl rfl
  | sweep cb => exact htrusted.mono hgrows hold rfl rfl
  | evict tokens htokens =>
      refine htrusted.mono hgrows (fun key value expiry htoken => ?_) rfl rfl
      rcases htokens key with heq | hnone
      · exact hold key value expiry (heq.symm.trans htoken)
      · cases hnone.symm.trans htoken

/-- What a request comes to know because of tokens goes back to logins. -/
theorem ApiCall.trusts (hP : P.Faithful) {i : ℕ} {o : ApiOp} {r : Except ApiExc o.Out}
    (h : ApiCall P t₀ Unforged c i o r) (htrusted : c.shared.Trusted P)
    (htrusts : (c.sess i).Trusts P c.shared) :
    (ApiSession.after o r (c.sess i)).Trusts P (ApiState.effect P o r (c.sess i) c.shared) := by
  have hgrows := ApiCall.grows h
  have hkept := htrusts.mono hgrows
  have hends : c.shared.Ends P o r := h.enabled
  cases o with
  | receive call =>
      obtain rfl : r = .ok () := hends
      have hidle : c.sess i = {} := h.guard
      rw [hidle]
      exact { ApiSession.trusts_idle _ with loaded := fun _ h => nomatch h }
  | decode token =>
      obtain rfl : r = .ok (P.decode token c.shared.clock) := hends
      refine { hkept with subject := ?_ }
      rintro ⟨token', userId⟩ hsubject
      obtain ⟨userId', hjoin, heq⟩ := Option.map_eq_some_iff.mp hsubject
      cases heq
      have hdecode := Option.join_eq_some_iff.mp hjoin
      -- the token has been handed out, so it was made for a subject that is vouched for
      have hallowed := h.allowed
      rw [hdecode] at hallowed
      obtain ⟨subject, expiry, rfl, hvouched⟩ := htrusted.handedOut token (hallowed token rfl)
      obtain rfl := hP.decode hdecode
      exact hvouched.mono hgrows
  | getUser userId =>
      cases r with
      | error e => exact hkept
      | ok user =>
          obtain ⟨token, hsubject⟩ := h.guard
          refine { hkept with caller := ?_ }
          intro c' hc'
          simp only [ApiSession.after, hsubject, Option.bind_some] at hc'
          obtain ⟨u, rfl, rfl⟩ := Option.map_eq_some_iff.mp hc'
          obtain ⟨user, huser, hlogged, rfl⟩ := htrusts.subject _ hsubject
          -- the subject is the text of an identifier, and users differ in their identifiers
          have hfind : c.shared.auth.users.find? (·.id = user.id) = some u := by
            rcases hends with hends | hends
            · rw [hP.asUuid] at hends
              exact (Except.ok.inj hends).symm
            · cases hends
          have hid : u.id = user.id := by simpa using List.find?_some hfind
          have hsame := htrusted.unique u (List.mem_of_find?_eq_some hfind) user huser hid
          rw [hsame]
          exact hlogged.mono hgrows
  | hashpw password =>
      cases r with
      | error e => exact hkept
      | ok hash =>
          refine { hkept with hashes := ?_ }
          intro h' hh'
          rcases List.mem_cons.mp hh' with rfl | hh'
          · rcases hends with ⟨hash', hcheck, heq⟩ | hfailed
            · cases heq
              exact hcheck
            · cases hfailed
          · exact hkept.hashes h' hh'
  | auth o =>
      obtain ⟨x, hx, rfl⟩ := hends
      cases o with
      | selectUser email =>
          cases x with
          | error e => exact hkept.congr rfl rfl rfl rfl rfl rfl
          | ok user =>
              obtain ⟨body, hreceived, hemail⟩ := h.guard
              refine { hkept with loaded := fun u hu => ?_ }
              rcases hx with hx | hx
              · obtain rfl := Except.ok.inj hx
                have haddress : u.email = email := by simpa using List.find?_some hu
                exact ⟨hgrows.users _ (List.mem_of_find?_eq_some hu), body, hreceived,
                  haddress ▸ hemail⟩
              · cases hx
      | get key =>
          cases x with
          | error e => exact hkept.congr rfl rfl rfl rfl rfl rfl
          | ok value =>
              refine { hkept with exchanged := fun subject hsubject => ?_ }
              rcases hx with hx | hx
              · -- the value of a key of Redis
                have hlookup : c.shared.store.lookup key = some subject :=
                  (Except.ok.inj hx).symm.trans hsubject
                simp only [AuthStore.lookup] at hlookup
                split at hlookup
                · next value expiry hvalue =>
                  split at hlookup
                  · obtain rfl := Option.some.inj hlookup
                    exact (htrusted.tokens hvalue).mono hgrows
                  · cases hlookup
                · cases hlookup
              · cases hx
      | _ => cases x <;> exact hkept.congr rfl rfl rfl rfl rfl rfl
  | join process =>
      cases r with
      | error e => exact hkept
      | ok out => cases out <;> exact hkept.congr rfl rfl rfl rfl rfl rfl
  | userByEmail | accountByUser | wallet | call =>
      cases r <;> exact hkept.congr rfl rfl rfl rfl rfl rfl
  | _ => exact hkept

/-- In every run without forged tokens, the tokens and what is known because of them go back to
logins. -/
theorem trusts (hP : P.Faithful) (h : ApiRun P t₀ Unforged c) (i : ℕ) :
    c.shared.Trusted P ∧ (c.sess i).Trusts P c.shared := by
  refine h.each (J := fun s σ => s.Trusted P ∧ σ.Trusts P s) (duties_abides P _)
    { init := ?_, own := ?_, other := ?_, env := ?_ } i
  · refine ⟨?_, ApiSession.trusts_idle _⟩
    exact { tokens := fun h => (nomatch h), handedOut := fun _ h => (nomatch h),
            registered := fun _ h => (nomatch h), unique := fun _ h => (nomatch h) }
  · intro c i o r hcall hJ
    obtain ⟨htrusted, htrusts⟩ := hJ i
    exact ⟨ApiCall.trusted hcall htrusted htrusts, ApiCall.trusts hP hcall htrusted htrusts⟩
  · intro c i o r j hcall hJ _
    exact ⟨ApiCall.trusted hcall (hJ i).1 (hJ i).2, (hJ j).2.mono (ApiCall.grows hcall)⟩
  · exact fun hrun hJ he => ⟨trusted_env hrun hJ.1 he, hJ.2.mono (grows_env hrun he)⟩

/-! ## Debits -/

/-- The users for whom services were started have logged in. -/
theorem loggedIn_of_service (hP : P.Faithful) (h : ApiRun P t₀ Unforged c) {i : ℕ}
    {request : Request} {call : HttpCall} {caller : Option Caller}
    (hservice : c.shared.services i = some ⟨request, some (call, caller)⟩) :
    ∀ c' ∈ caller, LoggedIn P c.shared c'.user := by
  refine h.invariant (I := fun w => ∀ i request call caller,
    w.shared.services i = some ⟨request, some (call, caller)⟩ →
      ∀ c' ∈ caller, LoggedIn P w.shared c'.user) (duties_abides P _)
    { init := ?_, spawn := ?_, call := ?_, stop := ?_, env := ?_ } i request call caller hservice
  · exact fun _ _ _ _ h => nomatch h
  · exact fun _ hI => hI
  · intro c i o r hcall hI j request call caller hservice c' hc'
    have hgrows := ApiCall.grows hcall
    dsimp only [afterCall, api] at hservice ⊢
    rcases ApiCall.wallet_cases hcall with ⟨-, hservices⟩ | ⟨request', rfl, -, hservices⟩
    · rw [hservices] at hservice
      exact (hI j request call caller hservice c' hc').mono hgrows
    · rw [hservices] at hservice
      by_cases hj : j = c.shared.wallet.size
      · -- the service that has just been started is for the user of the session
        rw [hj, Function.update_self] at hservice
        obtain ⟨-, hcause⟩ := Service.mk.inj (Option.some.inj hservice)
        obtain ⟨call', -, heq⟩ := Option.map_eq_some_iff.mp hcause
        cases heq
        exact ((trusts hP hcall.run i).2.caller c' hc').mono hgrows
      · rw [Function.update_of_ne hj] at hservice
        exact (hI j request call caller hservice c' hc').mono hgrows
  · exact fun _ hI _ => hI
  · intro c s' hrun hI he j request call caller hservice c' hc'
    have hgrows := grows_env hrun he
    cases he with
    | wallet hs _ => exact (hI j request call caller hservice c' hc').mono hgrows
    | sweep cb =>
        dsimp only at hservice
        by_cases hj : j = c.shared.wallet.size
        · rw [hj, Function.update_self] at hservice
          cases hservice
        · rw [Function.update_of_ne hj] at hservice
          exact (hI j request call caller hservice c' hc').mono hgrows
    | evict tokens _ => exact (hI j request call caller hservice c' hc').mono hgrows

/-- A request that asks for a debit is one for the account of its user. -/
theorem HttpCall.Submits.debits {D : Directory} {caller : Option Caller} {call : HttpCall}
    {request : Request} {action : BankAction} {source : UUID}
    (h : call.Submits P D caller request) (hasks : request.Asks action)
    (hdebits : action.debits? = some source) : ∃ c ∈ caller, D.owns c.user.id source := by
  cases action <;> cases hdebits
  · cases request <;> first | exact hasks.elim | skip
    cases call <;> first | exact h.elim | skip
    obtain ⟨-, rfl, -⟩ := hasks
    obtain ⟨-, -, -, c, hc, hown⟩ := h
    exact ⟨c, hc, hown⟩
  · cases request <;> first | exact hasks.elim | skip
    cases call <;> first | exact h.elim | skip
    obtain ⟨-, rfl, -⟩ := hasks
    obtain ⟨-, -, c, hc, hown⟩ := h
    exact ⟨c, hc, hown⟩

/-- In every run without forged tokens, the tables are those of a sequence of actions of the bank in
which every debit is from the account of a user whose password somebody has chosen in registering,
and whose password somebody has given in logging in. -/
theorem debits_proven (hP : P.Faithful) (h : ApiRun P t₀ Unforged c) :
    ∃ history, Told c.shared.origin history c.shared.db.bank ∧
      ∀ deed ∈ history, ∀ source, deed.2.debits? = some source →
        ∃ user ∈ c.shared.auth.users, c.shared.directory.owns user.id source ∧
          LoggedIn P c.shared user ∧ SignedUp P c.shared user := by
  obtain ⟨history, hhistory⟩ := exists_walletHistory (tale h)
  have htold := hhistory.told
  refine ⟨history, htold, fun deed hdeed source hdebits => ?_⟩
  obtain ⟨request, horigin, hasks⟩ := htold.asked deed hdeed
  obtain ⟨⟨request, cause⟩, hservice, rfl⟩ := Option.map_eq_some_iff.mp horigin
  have hwarranted := warranted h hservice
  cases cause with
  | none =>
      -- a sweep debits nobody
      obtain ⟨cb, rfl⟩ := hwarranted
      generalize deed.2 = action at hasks hdebits
      cases action <;> first | exact hasks.elim | cases hdebits
  | some cause =>
      obtain ⟨call, caller⟩ := cause
      obtain ⟨-, hears, hsubmits⟩ := hwarranted
      obtain ⟨c', hc', hown⟩ := hsubmits.debits hasks hdebits
      have huser := (hears c' hc').2.2.1
      exact ⟨c'.user, huser, hown, loggedIn_of_service hP h hservice c' hc',
        (trusts hP h 0).1.registered c'.user huser⟩

/-- The platform of the schedules reads what was written. -/
theorem demo_faithful (appEnv : String) : (demo appEnv).Faithful where
  decode := by
    intro subject expiry at_ subject' hdecode
    simp only [demo] at hdecode
    rw [ite_eq_iff] at hdecode
    rcases hdecode with ⟨-, heq⟩ | ⟨-, heq⟩
    · exact (Option.some.inj (Option.some.inj heq)).symm
    · cases heq
  asUuid := by
    intro id
    simp only [demo]
    exact UUID.parse_str id

/-- A user who has registered and logged in pays 40 dollars. -/
theorem debits_proven_paid :
    ∃ c : Api, c.shared.db.getBalance ⟨9⟩ = 400000 ∧ ∃ history,
      Told c.shared.origin history c.shared.db.bank ∧
        ∀ deed ∈ history, ∀ source, deed.2.debits? = some source →
          ∃ user ∈ c.shared.auth.users, c.shared.directory.owns user.id source ∧
            LoggedIn (demo "development") c.shared user ∧
              SignedUp (demo "development") c.shared user := by
  obtain ⟨c, hrun, hbalance⟩ := apiRun_of_played "development" Unforged
    (Q := fun c => c.shared.db.getBalance ⟨9⟩ = 400000)
    (show (apiPlayed _ _ paid).any _ = true by decide +kernel)
  exact ⟨c, hbalance, debits_proven (demo_faithful _) hrun⟩

end MiniWallet
