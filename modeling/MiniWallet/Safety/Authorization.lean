import MiniWallet.Api.Duties
import MiniWallet.Api.Schedules
import MiniWallet.Safety.Atomicity

/-!
# Who may do what

Whatever the wallet does to its accounts, it does because a request has come in by the API that may
ask for it. An account is debited at the request of its own user only, who has shown a token that
stands for him, and with the key and the amount that the request gives. Money comes from outside in
development only.

* `tale`: the services of the wallet under the API are a run of the wallet.
* `ApiState.Grows`: what is known once stays true.
* `ApiSession.Knows`, `Service.Warranted`: what a request has learned is true, and every service
  that was started has been asked for by a request that may ask for it.
* `deeds_sanctioned`: so is every action of the bank that the tables stand for.
* `moneyless`: outside development there is no money.
-/

namespace MiniWallet

open Numeric Bookkeeping Process System

/-- The directory of the tables. -/
def ApiState.directory (s : ApiState) : Directory where
  users := (· ∈ s.auth.users)
  owns := fun userId account => s.db.bank.owned userId = some account

/-- The token of the caller has been decoded, at some time, as one of the user. -/
def Authentic (P : Platform) (s : ApiState) (c : Caller) : Prop :=
  c.user ∈ s.auth.users ∧ ∃ at_ ≤ s.clock, ∃ subject,
    P.decode c.token at_ = some (some subject) ∧ P.asUuid subject = some c.user.id

/-- A request has arrived with the token of the caller, who is authentic. -/
def ApiState.Hears (P : Platform) (s : ApiState) (call : HttpCall) (c : Caller) : Prop :=
  call ∈ s.received ∧ call.bearer? = some c.token ∧ Authentic P s c

/-- What has to be there for an action of the bank among the actions of `history`: a request that
may ask for it. -/
inductive Sanctioned (P : Platform) (s : ApiState) (history : List BankAction) : BankAction → Prop
  /-- Users open accounts for themselves. -/
  | openAccount {bearer : Option String} {c : Caller} {account : UUID} :
      s.Hears P (.openAccount bearer) c → Sanctioned P s history (.openAccount c.user.id account)
  /-- A transfer is from the account of its user, and goes where the request says. -/
  | move {bearer : Option String} {key : String} {body : Schemas.TransferRequest} {c : Caller}
      {source target : UUID} {amount : Ticks} :
      s.Hears P (.createTransfer bearer (some key) body) c → s.directory.owns c.user.id source →
      body.Names s.directory target → amountOf body.amount = some amount →
      Sanctioned P s history (.move (.transferIdempotencyKey key) source target amount)
  /-- A transfer may be turned down. -/
  | decline {bearer : Option String} {key : String} {body : Schemas.TransferRequest} {c : Caller} :
      s.Hears P (.createTransfer bearer (some key) body) c →
      Sanctioned P s history (.decline (.transferIdempotencyKey key))
  /-- A withdrawal is from the account of its user. -/
  | reserve {bearer : Option String} {key : String} {body : Schemas.WithdrawalRequest} {c : Caller}
      {claim source : UUID} {amount : Ticks} :
      s.Hears P (.createWithdrawal bearer (some key) body) c → s.directory.owns c.user.id source →
      amountOf body.amount = some amount →
      Sanctioned P s history (.reserve (.withdrawalIdempotencyKey key) claim source amount)
  /-- What was reserved for a withdrawal may be given back, to the account that it was taken from,
  under the key of its reversal. -/
  | refund {key : UniqueKey} {claim target : UUID} {amount : Ticks} :
      .reserve key claim target amount ∈ history →
      Sanctioned P s history
        (.refund (.ledgerIdempotencyKey (reversalKey claim)) claim target amount)
  /-- In development, a user may seed an account. -/
  | seed {bearer : Option String} {key : String} {body : Schemas.SeedRequest} {c : Caller}
      {target : UUID} {amount : Ticks} :
      P.appEnv = "development" → s.Hears P (.seed bearer (some key) body) c →
      UUID.parse body.accountId = some target → amountOf body.amount = some amount →
      Sanctioned P s history (.issue (.ledgerIdempotencyKey key) target amount)
  /-- In development, a deposit may come in. -/
  | deposit {body : Schemas.SimulateDepositRequest} {target : UUID} {amount : Ticks} :
      P.appEnv = "development" → .simulateDeposit body ∈ s.received →
      UUID.parse body.accountId = some target → amountOf body.amount = some amount →
      Sanctioned P s history
        (.issue (.depositExternalReference body.externalReference) target amount)
  /-- A deposit may be rejected. -/
  | reject {body : Schemas.SimulateDepositRequest} :
      P.appEnv = "development" → .simulateDeposit body ∈ s.received →
      Sanctioned P s history (.decline (.depositExternalReference body.externalReference))

variable {P : Platform} {t₀ : Time} {ok : World ApiState ApiSession → ApiEvent → Prop} {c : Api}

/-! ## The contract of the handlers -/

/-- The handlers keep their contract, whatever the operations end with. -/
theorem duties_abides (P : Platform) (s : ApiState) : (api P).Abides (duties P) s where
  possible := by
    intro c i o r _ hr
    have hends : c.shared.Ends P o r := hr
    cases o with
    -- a user that is found has the address that was asked for
    | userByEmail email =>
        rcases hends with rfl | rfl
        · intro u hu
          simpa using List.find?_some hu
        · trivial
    -- of the queries only the one for an account promises something
    | wallet o =>
        obtain ⟨x, hx, rfl⟩ := hends
        cases o with
        | select q =>
            cases q with
            | accountById id =>
                rcases ends_select hx with rfl | rfl
                · intro a ha
                  simpa using List.find?_some ha
                · trivial
            | _ => trivial
        | _ => trivial
    | _ => trivial
  safe := by
    rintro p ⟨call, rfl⟩
    exact duties_handle call

/-- An operation of the API, called in a run. -/
abbrev ApiCall (P : Platform) (t₀ : Time)
    (ok : World ApiState ApiSession → ApiEvent → Prop) (c : Api)
    (i : ℕ) (o : ApiOp) (r : Except ApiExc o.Out) : Prop :=
  System.Call (api P) (duties P) ok (.initial P.sha256 t₀) c i o r

/-! ## The wallet under the API -/

/-- An operation of a handler leaves the wallet as it is, or starts a service. -/
theorem ApiCall.wallet_cases {i : ℕ} {o : ApiOp} {r : Except ApiExc o.Out}
    (h : ApiCall P t₀ ok c i o r) :
    ((ApiState.effect P o r (c.sess i) c.shared).wallet = c.shared.wallet ∧
        (ApiState.effect P o r (c.sess i) c.shared).services = c.shared.services) ∨
      ∃ request, o = .call request ∧
        (ApiState.effect P o r (c.sess i) c.shared).wallet =
          spawned c.shared.wallet (request.program P.sha256) ∧
        (ApiState.effect P o r (c.sess i) c.shared).services =
          Function.update c.shared.services c.shared.wallet.size
            (some ⟨request, (c.sess i).received.map (·, (c.sess i).caller)⟩) := by
  have hends : c.shared.Ends P o r := h.enabled
  cases o with
  | wallet o =>
      -- a handler only reads in the wallet
      obtain ⟨x, -, rfl⟩ := hends
      have hreads : o.ReadsOnly := h.guard
      refine .inl ⟨?_, rfl⟩
      simp only [ApiState.effect, hreads.effect_eq]
  | call request =>
      obtain rfl : r = .ok c.shared.wallet.size := hends
      exact .inr ⟨request, rfl, rfl, rfl⟩
  | insertUser | auth | respond => cases r <;> exact .inl ⟨rfl, rfl⟩
  | _ => exact .inl ⟨rfl, rfl⟩

/-- The requests of the services depend on the services only. -/
theorem ApiState.origin_congr {s s' : ApiState} (h : s'.services = s.services) :
    s'.origin = s.origin := by
  funext i
  rw [ApiState.origin, h, ApiState.origin]

/-- The requests of the services, after one more has been started. -/
theorem origin_update {s : ApiState} {services : ℕ → Option Service} {n : ℕ} {service : Service}
    (h : services = Function.update s.services n (some service)) :
    (fun i => (services i).map (·.request)) = Function.update s.origin n
      (some service.request) := by
  subst h
  funext i
  by_cases hi : i = n
  · subst hi
    simp
  · simp [hi, ApiState.origin]

/-- The services of the wallet under the API are a run of the wallet, in which each process runs the
program of its request. -/
theorem tale (h : ApiRun P t₀ ok c) :
    WalletTale P.sha256 t₀ anyStep c.shared.origin c.shared.wallet := by
  refine h.invariant (I := fun w => WalletTale P.sha256 t₀ anyStep w.shared.origin w.shared.wallet)
    (duties_abides P _) { init := ?_, spawn := ?_, call := ?_, stop := ?_, env := ?_ }
  · exact .start
  · exact fun _ htale => htale
  · intro c i o r hcall htale
    dsimp only [afterCall, api]
    -- a call of the API that concerns the wallet is a step of it, or starts a process for a request
    rcases ApiCall.wallet_cases hcall with ⟨hwallet, hservices⟩ | ⟨request, -, hwallet, hservices⟩
    · rw [hwallet, ApiState.origin_congr hservices]
      exact htale
    · rw [hwallet]
      refine Eq.subst (motive := fun origin => WalletTale P.sha256 t₀ anyStep origin _)
        (origin_update hservices).symm ?_
      exact .spawn htale trivial ⟨request, rfl⟩
  · exact fun _ htale _ => htale
  · intro c s' _ htale he
    cases he with
    -- the wallet goes on by itself
    | wallet hs hl => exact .step htale trivial hs hl
    -- a sweep is started outside the API
    | sweep cb =>
        refine Eq.subst (motive := fun origin => WalletTale P.sha256 t₀ anyStep origin _)
          (origin_update rfl).symm ?_
        exact .spawn htale trivial ⟨_, rfl⟩
    | evict tokens _ => exact htale

/-! ## What stays true -/

/-- A step of the wallet keeps the accounts of the users, and time does not go back. -/
theorem owned_of_step {sha256 : String → String} {w w' : Wallet} {l : Event}
    (h : WalletRun sha256 t₀ anyStep w) (hs : (wallet sha256).Step w l w') :
    w.shared.clock ≤ w'.shared.clock ∧ ∀ userId account,
      w.shared.db.bank.owned userId = some account →
        w'.shared.db.bank.owned userId = some account := by
  cases hs with
  | spawn _ | stop _ => exact ⟨le_rfl, fun _ _ howned => howned⟩
  | call hp hr =>
      have hcall := h.call (abides sha256 t₀) hp hr trivial
      refine ⟨(effect_clock _ _ _ _).ge, fun userId account howned => ?_⟩
      -- a call that commits does to the bank what its action does, and others do nothing to it
      rcases (WalletStep.of_call hcall).commit_cases with ⟨hdb, -⟩ | ⟨T, hT, -, hs⟩
      · dsimp only [afterCall, wallet]
        rwa [hdb]
      · dsimp only [afterCall, wallet]
        rw [hs, Shared.commit, hT.writes, hT.bank_eq]
        cases haction : T.action with
        | none => exact howned
        | some action => exact (hT.allows haction).owned howned
  | env he =>
      obtain ⟨clock, redis, rfl, hclock, -⟩ := he
      exact ⟨hclock, fun _ _ howned => howned⟩

namespace ApiState

/-- What is known once stays true. -/
structure Grows (s s' : ApiState) : Prop where
  clock : s.clock ≤ s'.clock
  users : ∀ u ∈ s.auth.users, u ∈ s'.auth.users
  owned : ∀ userId account, s.directory.owns userId account → s'.directory.owns userId account
  received : ∀ call ∈ s.received, call ∈ s'.received
  services : ∀ i service, s.services i = some service → s'.services i = some service

variable {s s' : ApiState}

/-- Nothing is lost without a step. -/
theorem Grows.refl (s : ApiState) : s.Grows s :=
  ⟨le_rfl, fun _ h => h, fun _ _ h => h, fun _ h => h, fun _ _ h => h⟩

/-- The directory grows with the state. -/
theorem Grows.directory (h : s.Grows s') : s'.directory.Extends s.directory :=
  ⟨h.users, h.owned⟩

/-- A caller stays authentic. -/
theorem Grows.authentic (h : s.Grows s') {c : Caller} (hc : Authentic P s c) :
    Authentic P s' c := by
  obtain ⟨huser, at_, hle, hdecode⟩ := hc
  exact ⟨h.users _ huser, at_, hle.trans h.clock, hdecode⟩

/-- A request that has arrived has arrived. -/
theorem Grows.hears (h : s.Grows s') {call : HttpCall} {c : Caller} (hears : s.Hears P call c) :
    s'.Hears P call c :=
  ⟨h.received _ hears.1, hears.2.1, h.authentic hears.2.2⟩

end ApiState

/-- The auth service does not touch the users. -/
theorem AuthStore.effect_users (o : AuthOp) (r : Except AuthExc o.Out) (σ : AuthSession)
    (s : AuthStore) : (AuthStore.effect o r σ s).users = s.users := by
  cases o <;> cases r <;> rfl

/-- A process that is started is a new one. -/
theorem services_update (htale : WalletTale P.sha256 t₀ anyStep c.shared.origin c.shared.wallet)
    (service : Service) {i : ℕ} {service' : Service} (h : c.shared.services i = some service') :
    Function.update c.shared.services c.shared.wallet.size (some service) i = some service' := by
  have hne : i ≠ c.shared.wallet.size := by
    rintro rfl
    have hnone := htale.origin_none le_rfl
    simp [ApiState.origin, h] at hnone
  rwa [Function.update_of_ne hne]

/-- An operation of a handler keeps what is known. -/
theorem ApiCall.grows {i : ℕ} {o : ApiOp} {r : Except ApiExc o.Out} (h : ApiCall P t₀ ok c i o r) :
    c.shared.Grows (ApiState.effect P o r (c.sess i) c.shared) := by
  have htale := tale h.run
  have hends : c.shared.Ends P o r := h.enabled
  have hrefl := ApiState.Grows.refl c.shared
  cases o with
  | receive call => exact { hrefl with received := fun _ h => List.mem_cons_of_mem _ h }
  | insertUser user =>
      -- a user is only ever added
      cases r with
      | ok u => exact { hrefl with users := fun _ h => List.mem_cons_of_mem _ h }
      | error e => exact hrefl
  | wallet o =>
      -- a query of the wallet has no effect
      obtain ⟨x, -, rfl⟩ := hends
      have hreads : o.ReadsOnly := h.guard
      simp only [ApiState.effect, hreads.effect_eq]
      exact hrefl
  | auth o =>
      cases r with
      | ok x =>
          -- the auth service adds tokens, not users
          refine { hrefl with users := fun u hu => ?_ }
          exact Eq.subst (motive := (u ∈ ·)) (AuthStore.effect_users o x _ c.shared.store).symm hu
      | error e => exact hrefl
  | call request =>
      obtain rfl : r = .ok c.shared.wallet.size := hends
      -- the service is the newest of the processes of the wallet
      exact { hrefl with services := fun j service hj => services_update htale _ hj }
  | respond answer => cases r <;> exact { hrefl with }
  | _ => exact hrefl

/-- What happens without the requests keeps what is known. -/
theorem grows_env (h : ApiRun P t₀ ok c) {s' : ApiState} (he : ApiState.Env P c.shared s') :
    c.shared.Grows s' := by
  have htale := tale h
  have hrefl := ApiState.Grows.refl c.shared
  cases he with
  | wallet hs _ =>
      obtain ⟨hclock, howned⟩ := owned_of_step htale.run hs
      exact { hrefl with clock := hclock, owned := howned }
  | sweep cb => exact { hrefl with services := fun j service hj => services_update htale _ hj }
  | evict tokens _ => exact { hrefl with }

/-! ## What a request has learned -/

/-- What a request has learned is true. -/
structure ApiSession.Knows (P : Platform) (s : ApiState) (σ : ApiSession) : Prop where
  received : ∀ call ∈ σ.received, call ∈ s.received
  /-- The token that was decoded is that of the request. -/
  subject : ∀ subject ∈ σ.subject, (∃ call ∈ σ.received, call.bearer? = some subject.1) ∧
    ∃ at_ ≤ s.clock, P.decode subject.1 at_ = some (some subject.2)
  caller : ∀ c ∈ σ.caller, ∃ call ∈ σ.received, s.Hears P call c
  directory : s.directory.Extends σ.directory

/-- What a session knows stays true. -/
theorem ApiSession.Knows.mono {s s' : ApiState} {σ : ApiSession} (h : σ.Knows P s)
    (hgrows : s.Grows s') : σ.Knows P s' where
  received := fun call hcall => hgrows.received _ (h.received call hcall)
  subject := by
    intro subject hsubject
    obtain ⟨hbearer, at_, hle, hdecode⟩ := h.subject subject hsubject
    exact ⟨hbearer, at_, hle.trans hgrows.clock, hdecode⟩
  caller := by
    intro c hc
    obtain ⟨call, hcall, hears⟩ := h.caller c hc
    exact ⟨call, hcall, hgrows.hears hears⟩
  directory :=
    ⟨fun u hu => hgrows.users u (h.directory.users u hu),
      fun u a hown => hgrows.owned u a (h.directory.owns u a hown)⟩

/-- A request that has learned nothing. -/
theorem ApiSession.knows_idle (s : ApiState) : ApiSession.Knows P s {} where
  received := fun _ h => nomatch h
  subject := fun _ h => nomatch h
  caller := fun _ h => nomatch h
  directory := ⟨fun _ h => (nomatch h), fun _ _ h => (nomatch h)⟩

/-- What is known does not depend on the rest of the session. -/
theorem ApiSession.Knows.congr {s : ApiState} {σ σ' : ApiSession} (h : σ.Knows P s)
    (hreceived : σ'.received = σ.received) (hsubject : σ'.subject = σ.subject)
    (hcaller : σ'.caller = σ.caller) (hfound : σ'.found = σ.found)
    (haccounts : σ'.accounts = σ.accounts) : σ'.Knows P s where
  received := by rw [hreceived]; exact h.received
  subject := by rw [hreceived, hsubject]; exact h.subject
  caller := by rw [hreceived, hcaller]; exact h.caller
  directory := by rw [ApiSession.directory, hfound, haccounts]; exact h.directory

/-- What a request learns is true. -/
theorem ApiCall.knows {i : ℕ} {o : ApiOp} {r : Except ApiExc o.Out} (h : ApiCall P t₀ ok c i o r)
    (hknows : (c.sess i).Knows P c.shared) :
    (ApiSession.after o r (c.sess i)).Knows P (ApiState.effect P o r (c.sess i) c.shared) := by
  have hgrows := ApiCall.grows h
  have hkept := hknows.mono hgrows
  have hends : c.shared.Ends P o r := h.enabled
  cases o with
  | receive call =>
      obtain rfl : r = .ok () := hends
      have hidle : c.sess i = {} := h.guard
      rw [hidle]
      refine { received := fun call' hcall' => ?_, subject := fun _ h => (nomatch h),
               caller := fun _ h => (nomatch h),
               directory := ⟨fun _ h => (nomatch h), fun _ _ h => (nomatch h)⟩ }
      obtain rfl : call = call' := Option.some.inj hcall'
      exact List.mem_cons_self
  | decode token =>
      obtain rfl : r = .ok (P.decode token c.shared.clock) := hends
      obtain ⟨call, hcall, hbearer⟩ := h.guard
      refine { hkept with subject := ?_ }
      rintro ⟨token', userId⟩ hsubject
      obtain ⟨userId', hjoin, heq⟩ := Option.map_eq_some_iff.mp hsubject
      cases heq
      exact ⟨⟨call, hcall, hbearer⟩, c.shared.clock, le_rfl, Option.join_eq_some_iff.mp hjoin⟩
  | getUser userId =>
      cases r with
      | error e => exact hkept
      | ok user =>
          obtain ⟨token, hsubject⟩ := h.guard
          refine { hkept with caller := ?_ }
          intro c' hc'
          simp only [ApiSession.after, hsubject, Option.bind_some] at hc'
          obtain ⟨u, rfl, rfl⟩ := Option.map_eq_some_iff.mp hc'
          obtain ⟨⟨call, hcall, hbearer⟩, at_, hle, hdecode⟩ := hknows.subject _ hsubject
          -- the row that was loaded has the identifier of the subject
          have hfound : ∃ id, P.asUuid userId = some id ∧
              c.shared.auth.users.find? (·.id = id) = some u := by
            rcases hends with hends | hends
            · split at hends
              · next id hid => exact ⟨id, hid, (Except.ok.inj hends).symm⟩
              · cases hends
            · cases hends
          obtain ⟨id, hid, hfind⟩ := hfound
          have huid : u.id = id := by simpa using List.find?_some hfind
          exact ⟨call, hcall, hknows.received call hcall, hbearer, List.mem_of_find?_eq_some hfind,
            at_, hle, userId, hdecode, huid ▸ hid⟩
  | userByEmail email =>
      cases r with
      | error e => exact hkept
      | ok user =>
          refine { hkept with directory := ⟨fun u hu => ?_, hkept.directory.owns⟩ }
          rcases List.mem_append.mp hu with hu | hu
          · rcases hends with hends | hends
            · obtain rfl := Except.ok.inj hends
              exact List.mem_of_find?_eq_some (Option.mem_toList.mp hu)
            · cases hends
          · exact hkept.directory.users u hu
  | accountByUser userId =>
      cases r with
      | error e => exact hkept
      | ok account =>
          refine { hkept with directory := ⟨hkept.directory.users, fun u a hown => ?_⟩ }
          rcases List.mem_append.mp hown with hown | hown
          · rcases hends with hends | hends
            · obtain rfl := Except.ok.inj hends
              obtain ⟨row, hrow, heq⟩ := Option.map_eq_some_iff.mp (Option.mem_toList.mp hown)
              cases heq
              exact congrArg (Option.map _) hrow
            · cases hends
          · exact hkept.directory.owns u a hown
  | wallet o =>
      obtain ⟨x, -, rfl⟩ := hends
      exact hkept.congr rfl rfl rfl rfl rfl
  | auth o =>
      obtain ⟨x, -, rfl⟩ := hends
      cases o <;> cases x <;> exact hkept.congr rfl rfl rfl rfl rfl
  | join process =>
      cases r with
      | error e => exact hkept
      | ok out => cases out <;> exact hkept.congr rfl rfl rfl rfl rfl
  | hashpw | call => cases r <;> exact hkept.congr rfl rfl rfl rfl rfl
  | _ => exact hkept

/-- In every run what a request has learned is true. -/
theorem knows (h : ApiRun P t₀ ok c) (i : ℕ) : (c.sess i).Knows P c.shared := by
  refine h.each (J := fun s σ => σ.Knows P s) (duties_abides P _)
    { init := ?_, own := ?_, other := ?_, env := ?_ } i
  · exact ApiSession.knows_idle _
  · exact fun hcall hknows => ApiCall.knows hcall (hknows _)
  · exact fun hcall hknows _ => (hknows _).mono (ApiCall.grows hcall)
  · exact fun hrun hknows he => hknows.mono (grows_env hrun he)

/-! ## What the services are for -/

/-- A service is a sweep, or it has been asked for by a request that may ask for it. -/
def Service.Warranted (P : Platform) (s : ApiState) (service : Service) : Prop :=
  match service.cause with
  | none => ∃ circuitBreaker, service.request = .recoverStuckWithdrawals circuitBreaker
  | some (call, caller) => call ∈ s.received ∧ (∀ c ∈ caller, s.Hears P call c) ∧
      call.Submits P s.directory caller service.request

/-- A service stays warranted. -/
theorem Service.Warranted.mono {s s' : ApiState} {service : Service} (h : service.Warranted P s)
    (hgrows : s.Grows s') : service.Warranted P s' := by
  unfold Service.Warranted at h ⊢
  split
  · next hcause => rwa [hcause] at h
  · next call caller hcause =>
    rw [hcause] at h
    obtain ⟨hcall, hears, hsubmits⟩ := h
    exact ⟨hgrows.received _ hcall, fun c hc => hgrows.hears (hears c hc),
      hsubmits.mono hgrows.directory⟩

/-- In every run each service is warranted. -/
theorem warranted (h : ApiRun P t₀ ok c) {i : ℕ} {service : Service}
    (hservice : c.shared.services i = some service) : service.Warranted P c.shared := by
  refine h.invariant (I := fun w => ∀ i service, w.shared.services i = some service →
    service.Warranted P w.shared) (duties_abides P _)
    { init := ?_, spawn := ?_, call := ?_, stop := ?_, env := ?_ } i service hservice
  · exact fun _ _ h => nomatch h
  · exact fun _ hI => hI
  · intro c i o r hcall hI j service hservice
    have hgrows := ApiCall.grows hcall
    dsimp only [afterCall, api] at hservice ⊢
    rcases ApiCall.wallet_cases hcall with ⟨-, hservices⟩ | ⟨request, rfl, -, hservices⟩
    · rw [hservices] at hservice
      exact (hI j service hservice).mono hgrows
    · rw [hservices] at hservice
      by_cases hj : j = c.shared.wallet.size
      · -- the service that has just been started
        rw [hj, Function.update_self] at hservice
        obtain rfl := Option.some.inj hservice
        obtain ⟨call, hreceived, hsubmits⟩ := hcall.guard
        have hknows := knows hcall.run i
        rw [hreceived]
        refine Service.Warranted.mono ⟨hknows.received call hreceived, fun c' hc' => ?_,
          hsubmits.mono hknows.directory⟩ hgrows
        obtain ⟨call', hcall', hears⟩ := hknows.caller c' hc'
        obtain rfl : call = call' := Option.some.inj (hreceived.symm.trans hcall')
        exact hears
      · rw [Function.update_of_ne hj] at hservice
        exact (hI j service hservice).mono hgrows
  · exact fun _ hI _ => hI
  · intro c s' hrun hI he j service hservice
    have hgrows := grows_env hrun he
    have hold : ∀ service, c.shared.services j = some service → service.Warranted P s' :=
      fun service hservice => (hI j service hservice).mono hgrows
    cases he with
    | wallet hs _ => exact hold service hservice
    | sweep cb =>
        by_cases hj : j = c.shared.wallet.size
        · dsimp only at hservice
          rw [hj, Function.update_self] at hservice
          obtain rfl := Option.some.inj hservice
          exact ⟨cb, rfl⟩
        · dsimp only at hservice
          rw [Function.update_of_ne hj] at hservice
          exact hold service hservice
    | evict tokens _ => exact hold service hservice

/-- What a warranted service asks for is sanctioned, if refunds give back what was reserved. -/
theorem Service.Warranted.sanctioned {s : ApiState} {service : Service}
    (h : service.Warranted P s) {history : List BankAction} {action : BankAction}
    (hrefund : ∀ {key claim target amount}, action = .refund key claim target amount →
      ∃ key', .reserve key' claim target amount ∈ history)
    (hasks : service.request.Asks action) : Sanctioned P s history action := by
  have hamountOf : ∀ {text : String} {d : Decimal},
      Python.decimal (Python.codePoints text) = some d → amountOf text = some (Ticks.ofDecimal d) :=
    fun hd => congrArg (Option.map Ticks.ofDecimal) hd
  obtain ⟨request, cause⟩ := service
  cases cause with
  | none =>
      obtain ⟨cb, rfl⟩ := h
      cases action <;> first | exact hasks.elim | skip
      obtain rfl : _ = UniqueKey.ledgerIdempotencyKey _ := hasks
      obtain ⟨key, hreserved⟩ := hrefund rfl
      exact .refund hreserved
  | some cause =>
      obtain ⟨call, caller⟩ := cause
      obtain ⟨hcall, hears, hsubmits⟩ := h
      cases call <;> cases request <;> first | exact hsubmits.elim | skip
      case openAccount.openAccount =>
        obtain ⟨c, hc, rfl⟩ := hsubmits
        cases action <;> first | exact hasks.elim | skip
        obtain rfl : _ = c.user.id := hasks
        exact .openAccount (hears c hc)
      case createTransfer.transfer =>
        obtain ⟨rfl, hamount, hnames, c, hc, hown⟩ := hsubmits
        cases action <;> first | exact hasks.elim | skip
        · obtain rfl : _ = UniqueKey.transferIdempotencyKey _ := hasks
          exact .decline (hears c hc)
        · obtain ⟨rfl, rfl, rfl, rfl⟩ := hasks
          exact .move (hears c hc) hown hnames (hamountOf hamount)
      case createWithdrawal.createWithdrawal =>
        obtain ⟨rfl, hamount, c, hc, hown⟩ := hsubmits
        cases action <;> first | exact hasks.elim | skip
        · obtain ⟨rfl, rfl, rfl⟩ := hasks
          exact .reserve (hears c hc) hown (hamountOf hamount)
        · obtain ⟨rfl, -, -⟩ := hasks
          obtain ⟨key, hreserved⟩ := hrefund rfl
          exact .refund hreserved
      case seed.seed =>
        obtain ⟨henv, rfl, haccount, hamount, c, hc, -⟩ := hsubmits
        cases action <;> first | exact hasks.elim | skip
        obtain ⟨rfl, rfl, rfl⟩ := hasks
        exact .seed henv (hears c hc) haccount (hamountOf hamount)
      case simulateDeposit.simulateDeposit =>
        obtain ⟨henv, hreference, haccount, hamount⟩ := hsubmits
        cases action <;> first | exact hasks.elim | skip
        · obtain rfl : _ = UniqueKey.depositExternalReference _ := hasks
          rw [← hreference]
          exact .reject henv hcall
        · obtain ⟨rfl, rfl, rfl⟩ := hasks
          rw [← hreference]
          exact .deposit henv hcall haccount (hamountOf hamount)
      -- the getters ask for nothing
      all_goals cases action <;> exact hasks.elim

/-- In every run the actions of the services are sanctioned. -/
theorem sanctioned (h : ApiRun P t₀ ok c) {history : List (ℕ × BankAction)}
    (htold : Told c.shared.origin history c.shared.db.bank) :
    ∀ deed ∈ history, Sanctioned P c.shared (history.map Prod.snd) deed.2 := by
  intro deed hdeed
  obtain ⟨request, horigin, hasks⟩ := htold.asked deed hdeed
  obtain ⟨service, hservice, rfl⟩ := Option.map_eq_some_iff.mp horigin
  have hmem : deed.2 ∈ history.map Prod.snd := List.mem_map_of_mem hdeed
  refine (warranted h hservice).sanctioned (fun haction => ?_) hasks
  rw [haction] at hmem
  exact htold.leads.refunds hmem

/-- However the requests and the services interleave, the tables are those of a sequence of actions
of the bank, each of which a request has asked for that may ask for it. -/
theorem deeds_sanctioned (h : ApiRun P t₀ ok c) :
    ∃ history, Told c.shared.origin history c.shared.db.bank ∧
      ∀ deed ∈ history, Sanctioned P c.shared (history.map Prod.snd) deed.2 := by
  obtain ⟨history, hhistory⟩ := exists_walletHistory (tale h)
  exact ⟨history, hhistory.told, sanctioned h hhistory.told⟩

/-- A user pays another one. -/
theorem deeds_sanctioned_paid :
    ∃ c : Api, c.shared.db.getBalance ⟨9⟩ = 400000 ∧ ∃ history,
      Told c.shared.origin history c.shared.db.bank ∧
        ∀ deed ∈ history,
          Sanctioned (demo "development") c.shared (history.map Prod.snd) deed.2 := by
  obtain ⟨c, hrun, hbalance⟩ := apiRun_of_played "development" anyStep
    (Q := fun c => c.shared.db.getBalance ⟨9⟩ = 400000)
    (show (apiPlayed _ _ paid).any _ = true by decide +kernel)
  exact ⟨c, hbalance, deeds_sanctioned hrun⟩

/-- Outside development no money comes in, so there is none. -/
theorem moneyless (h : ApiRun P t₀ ok c) (henv : P.appEnv ≠ "development") (account : UUID) :
    c.shared.db.getBalance account = 0 := by
  obtain ⟨history, hhistory⟩ := exists_walletHistory (tale h)
  have hleads := hhistory.told.leads
  refine (hleads.still fun action haction => ?_).1 account
  obtain ⟨deed, hdeed, rfl⟩ := List.mem_map.mp haction
  have hsanctioned := sanctioned h hhistory.told deed hdeed
  generalize deed.2 = action at hsanctioned ⊢
  cases hsanctioned with
  | move _ hown _ _ => exact hleads.owned_ne.2 _ _ hown
  | seed hdev _ _ _ | deposit hdev _ _ _ => exact absurd hdev henv
  | _ => trivial

/-- In production, a user registers and opens an account. -/
theorem moneyless_joined :
    ∃ c : Api, c.shared.db.accounts.length = 2 ∧ ∀ account, c.shared.db.getBalance account = 0 := by
  obtain ⟨c, hrun, hlength⟩ := apiRun_of_played "production" anyStep
    (Q := fun c => c.shared.db.accounts.length = 2)
    (show (apiPlayed _ _ joined).any _ = true by decide +kernel)
  exact ⟨c, hlength, moneyless hrun (by decide)⟩

end MiniWallet
