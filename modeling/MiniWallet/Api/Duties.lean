import MiniWallet.Api.System

/-!
# What the handlers owe

Before a handler starts a service of the wallet it has found out whose account the service is for,
and before it answers it has found what it answers with.

* `Directory`: who is known, and whose accounts are whose.
* `HttpCall.Submits`: the requests that a handler may hand to the wallet.
* `ApiSession.Vouches`, `ApiSession.Shows`: the subjects that a token may be made for, and what an
  answer may show.
* `duties`: the contract of the handlers.
* `duties_handle`: every handler keeps it.
-/

namespace MiniWallet

open Numeric Process ApiProgram

/-- The operation only reads. -/
def Op.ReadsOnly : Op → Prop
  | .now | .select _ | .cacheGet _ | .breaker .getState | .breaker .getLastFailureAt
  | .breaker .probeExists => True
  | _ => False

/-- An operation that only reads changes nothing. -/
theorem Op.ReadsOnly.effect_eq {o : Op} (h : o.ReadsOnly) (r : Except Exc o.Out) (σ : Session)
    (s : Shared) : MiniWallet.effect o r σ s = s := by
  cases o with
  | now | select _ | cacheGet _ => rfl
  | breaker command =>
      cases command with
      | getState | getLastFailureAt | probeExists => cases r <;> rfl
      | _ => exact h.elim
  | _ => exact h.elim

/-- Who is known, and whose accounts are whose. -/
structure Directory where
  users : User → Prop
  owns : UUID → UUID → Prop

/-- A directory that knows no less than another one. -/
structure Directory.Extends (D' D : Directory) : Prop where
  users : ∀ u, D.users u → D'.users u
  owns : ∀ u a, D.owns u a → D'.owns u a

/-- The body of a transfer names the account that it goes to. -/
def Schemas.TransferRequest.Names (body : Schemas.TransferRequest) (D : Directory) (target : UUID) :
    Prop :=
  (∃ email ∈ body.toEmail, ∃ user, D.users user ∧ user.email = email ∧ D.owns user.id target) ∨
  ∃ text ∈ body.toAccountId, UUID.parse text = some target

section Duties

variable (P : Platform)

/-- The amount of money that a text stands for. -/
def amountOf (text : String) : Option Ticks :=
  (Python.decimal (Python.codePoints text)).map Ticks.ofDecimal

/-- `call.Submits P D caller request`: the handler of `call` may hand `request` to the wallet, if
the user of the call is `caller` and the directory is `D`. Money comes from outside in development
only. -/
def HttpCall.Submits (D : Directory) (caller : Option Caller) : HttpCall → Request → Prop
  | openAccount _, .openAccount userId => ∃ c ∈ caller, userId = c.user.id
  | createTransfer _ key body, .transfer q =>
      key = some q.idempotencyKey ∧ Python.decimal (Python.codePoints body.amount) = some q.amount ∧
        body.Names D q.toAccountId ∧ ∃ c ∈ caller, D.owns c.user.id q.fromAccountId
  | getTransfer _ transferId, .getTransfer id account =>
      UUID.parse transferId = some id ∧ ∃ c ∈ caller, D.owns c.user.id account
  | getDeposit _ depositId, .getDeposit id account =>
      UUID.parse depositId = some id ∧ ∃ c ∈ caller, D.owns c.user.id account
  | createWithdrawal _ key body, .createWithdrawal q =>
      key = some q.idempotencyKey ∧ Python.decimal (Python.codePoints body.amount) = some q.amount ∧
        ∃ c ∈ caller, D.owns c.user.id q.accountId
  | getWithdrawal _ withdrawalId, .getWithdrawal id account =>
      UUID.parse withdrawalId = some id ∧ ∃ c ∈ caller, D.owns c.user.id account
  | seed _ key body, .seed q =>
      P.appEnv = "development" ∧ key = some q.idempotencyKey ∧
        UUID.parse body.accountId = some q.accountId ∧
        Python.decimal (Python.codePoints body.amount) = some q.amount ∧
        ∃ c ∈ caller, q.actorUserId = c.user.id
  -- the webhook has no user: whoever calls it names the account
  | simulateDeposit body, .simulateDeposit q =>
      P.appEnv = "development" ∧ body.externalReference = q.externalReference ∧
        UUID.parse body.accountId = some q.accountId ∧
        Python.decimal (Python.codePoints body.amount) = some q.amount
  | _, _ => False

section Mono

variable {P} {D D' : Directory}

/-- Who knows more knows the account that a body names. -/
theorem Schemas.TransferRequest.Names.mono {body : Schemas.TransferRequest} {target : UUID}
    (h : body.Names D target) (hD : D'.Extends D) : body.Names D' target := by
  rcases h with ⟨email, hemail, user, huser, heq, hown⟩ | htext
  · exact .inl ⟨email, hemail, user, hD.users _ huser, heq, hD.owns _ _ hown⟩
  · exact .inr htext

/-- Who knows more may submit more. -/
theorem HttpCall.Submits.mono {caller : Option Caller} {call : HttpCall} {request : Request}
    (h : call.Submits P D caller request) (hD : D'.Extends D) :
    call.Submits P D' caller request := by
  cases call <;> cases request <;> first | exact h.elim | skip
  case openAccount.openAccount | seed.seed | simulateDeposit.simulateDeposit => exact h
  case getTransfer.getTransfer | getDeposit.getDeposit | getWithdrawal.getWithdrawal =>
    obtain ⟨hid, c, hc, hown⟩ := h
    exact ⟨hid, c, hc, hD.owns _ _ hown⟩
  case createTransfer.transfer =>
    obtain ⟨hkey, hamount, hnames, c, hc, hown⟩ := h
    exact ⟨hkey, hamount, hnames.mono hD, c, hc, hD.owns _ _ hown⟩
  case createWithdrawal.createWithdrawal =>
    obtain ⟨hkey, hamount, c, hc, hown⟩ := h
    exact ⟨hkey, hamount, c, hc, hD.owns _ _ hown⟩

end Mono

namespace ApiSession

variable (σ : ApiSession)

/-- What the request has found. -/
def directory : Directory where
  users := (· ∈ σ.found)
  owns := fun userId account => (userId, account) ∈ σ.accounts

/-- A token may be made for the subject: the user whose password was given, or the one of the
refresh token that is exchanged. -/
def Vouches (subject : String) : Prop :=
  (∃ body user, σ.received = some (.login body) ∧ σ.loaded = some user ∧
    P.checkpw body.password user.hashedPassword = true ∧ subject = user.id.str) ∨
  σ.exchanged = some subject

/-- The response is that of the wallet to a request of the call. -/
def Serves (call : HttpCall) (response : Response) : Prop :=
  ∃ request, σ.served = some (request, response) ∧ call.Submits P σ.directory σ.caller request

/-- The balance was read for an account of the user. -/
def Balances (account balance : String) : Prop :=
  ∃ c ∈ σ.caller, ∃ a b, (c.user.id, a) ∈ σ.accounts ∧ (a, b) ∈ σ.balances ∧ account = a.str ∧
    balance = shownBalance b

/-- What an answer may show. -/
def Shows (call : HttpCall) : Data → Prop
  | .registered _ _ | .account _ _ _ _ _ => True
  | .tokens t => ∃ subject expiry, t.accessToken = P.encode subject expiry ∧ σ.Vouches P subject
  | .user userId email => ∃ c ∈ σ.caller, userId = c.user.id.str ∧ email = c.user.email
  | .summary account _ balance _ | .balance account balance _ => σ.Balances account balance
  | .seed r => σ.Serves P call (.seed r)
  | .transfer r => σ.Serves P call (.transfer r)
  | .deposit r => σ.Serves P call (.deposit r)
  | .withdrawal r => σ.Serves P call (.withdrawal r)

/-- An answer may be sent. -/
def MayAnswer : Answer → Prop
  | .failed _ => True
  | .data _ data => ∃ call, σ.received = some call ∧ σ.Shows P call data

end ApiSession

/-- What the handlers owe. -/
def duties : Contract ApiOp ApiOp.Out ApiExc ApiSession where
  guard
    | .receive _, σ => σ = {}
    | .decode token, σ => ∃ call, σ.received = some call ∧ call.bearer? = some token
    -- the token is the one that the request came with
    | .getUser userId, σ => ∃ token, σ.subject = some (token, userId)
    | .insertUser user, σ => ∃ body, σ.received = some (.register body) ∧
        P.emailStr body.email = .ok user.email ∧ (body.password, user.hashedPassword) ∈ σ.hashes
    | .wallet o, _ => o.ReadsOnly
    | .auth (.selectUser email), σ => ∃ body, σ.received = some (.login body) ∧
        P.emailStr body.email = .ok email
    | .auth (.setex _ _ value), σ => σ.Vouches P value
    | .call request, σ => ∃ call, σ.received = some call ∧
        call.Submits P σ.directory σ.caller request
    -- a request waits for the process that it has started itself
    | .join process, σ => ∃ request, σ.service = some (process, request)
    | .respond answer, σ => σ.MayAnswer P answer
    | _, _ => True
  possible
    | .userByEmail email, .ok (user : Option User), _ => ∀ u ∈ user, u.email = email
    | .wallet (.select (.accountById id)), .ok (.ok (account : Option Account)), _ =>
        ∀ a ∈ account, a.id = id
    | _, _, _ => True

/-- `Owes P p Q σ`: the program keeps the contract from the session `σ`, and returns in `Q` if it
returns. -/
abbrev Owes {α : Type} (p : ApiProgram α) (Q : α → ApiSession → Prop) (σ : ApiSession) : Prop :=
  (duties P).wp ApiSession.after p Q (fun _ _ => True) σ

variable {P} {α β : Type} {σ : ApiSession}

/-! ## Rules -/

/-- Returning owes nothing. -/
theorem owes_pure {a : α} {Q : α → ApiSession → Prop} (h : Q a σ) :
    Owes P (pure a : ApiProgram α) Q σ :=
  (Contract.wp_pure _ _ _).mpr h

/-- Raising owes nothing. -/
theorem owes_throw (e : ApiExc) {Q : α → ApiSession → Prop} :
    Owes P (throw e : ApiProgram α) Q σ :=
  (Contract.wp_throw _ _ _).mpr trivial

/-- What follows may rely on what was found before. -/
theorem owes_bind {p : ApiProgram α} {f : α → ApiProgram β} {Q : β → ApiSession → Prop}
    (h : Owes P p (fun a σ' => Owes P (f a) Q σ') σ) : Owes P (p >>= f) Q σ :=
  (Contract.wp_bind _ _ _ _).mpr h

/-- Awaiting an operation. -/
theorem owes_perform {o : ApiOp} {Q : o.Out → ApiSession → Prop} (hguard : (duties P).guard o σ)
    (h : ∀ a, (duties P).possible o (.ok a) σ → Q a (ApiSession.after o (.ok a) σ)) :
    Owes P (perform o) Q σ :=
  (Contract.wp_perform _ _ o).mpr ⟨hguard, h, fun _ _ => trivial⟩

/-- A computation without operations. -/
theorem owes_settle {r : Except ApiExc α} {Q : α → ApiSession → Prop} (h : ∀ a, r = .ok a → Q a σ) :
    Owes P (settle r) Q σ := by
  cases r with
  | ok a => exact owes_pure (h a rfl)
  | error e => exact owes_throw e

/-- A value that has to be there. -/
theorem owes_orRaise {e : ApiExc} {a? : Option α} {Q : α → ApiSession → Prop}
    (h : ∀ a, a? = some a → Q a σ) : Owes P (orRaise e a?) Q σ := by
  cases a? with
  | none => exact owes_throw e
  | some a => exact owes_pure (h a rfl)

/-- A sequence of the wallet. -/
theorem reading_bind (p : Program α) (f : α → Program β) :
    reading (p >>= f) = reading p >>= fun a => reading (f a) :=
  Prog.via_bind _ _ p f

/-- A sequence of the auth service. -/
theorem authenticating_bind (p : AuthProgram α) (f : α → AuthProgram β) :
    authenticating (p >>= f) = authenticating p >>= fun a => authenticating (f a) :=
  Prog.via_bind _ _ p f

/-- Reading in the wallet. -/
theorem owes_reading {o : Op} (ho : o.ReadsOnly) {Q : o.Out → ApiSession → Prop}
    (h : ∀ a, (duties P).possible (.wallet o) (.ok (.ok a)) σ →
      Q a { σ with balances := balanceRead o (.ok a) ++ σ.balances }) :
    Owes P (reading (Program.perform o)) Q σ := by
  refine Contract.wp_via_perform (owes_perform (o := .wallet o) ho ?_)
  rintro _ hpossible a rfl
  exact h a hpossible

/-- Awaiting the auth service. -/
theorem owes_authenticating {o : AuthOp} (ho : (duties P).guard (.auth o) σ)
    {Q : o.Out → ApiSession → Prop} (h : ∀ a, Q a (σ.afterAuth o (.ok a))) :
    Owes P (authenticating (AuthProgram.perform o)) Q σ := by
  refine Contract.wp_via_perform (owes_perform (o := .auth o) ho ?_)
  rintro _ - a rfl
  exact h a

/-! ## Parts of the handlers -/

/-- The session of a request that is handled for a user. -/
structure ApiSession.Handles (σ : ApiSession) (call : HttpCall) (caller : Option Caller) :
    Prop where
  received : σ.received = some call
  caller : σ.caller = caller

section Parts

variable {call : HttpCall}

/-- The user of a token. -/
theorem owes_getCurrentUser {bearer : Option String} (hreceived : σ.received = some call)
    (hbearer : call.bearer? = bearer) {Q : User → ApiSession → Prop}
    (h : ∀ user token σ', σ'.Handles call (some ⟨token, user⟩) → Q user σ') :
    Owes P (getCurrentUser bearer) Q σ := by
  cases bearer with
  | none => exact owes_throw _
  | some token =>
      refine owes_bind (owes_perform (o := .decode token) ⟨call, hreceived, hbearer⟩
        fun subject _ => ?_)
      rcases subject with _ | _ | userId
      · exact owes_throw _
      · exact owes_throw _
      · refine owes_bind (owes_perform (o := .getUser userId) ⟨token, rfl⟩ fun user _ => ?_)
        cases user with
        | none => exact owes_throw _
        | some user => exact owes_pure (h user token _ ⟨hreceived, rfl⟩)

/-- The account of a user. -/
theorem owes_getOwnAccount {caller : Option Caller} {user : User} (hσ : σ.Handles call caller)
    {Q : Account → ApiSession → Prop}
    (h : ∀ account σ', σ'.Handles call caller → (user.id, account.id) ∈ σ'.accounts →
      Q account σ') :
    Owes P (getOwnAccount user) Q σ := by
  refine owes_bind (owes_perform (o := .accountByUser user.id) trivial fun account _ => ?_)
  cases account with
  | none => exact owes_throw _
  | some account => exact owes_pure (h account _ ⟨hσ.received, hσ.caller⟩ List.mem_cons_self)

/-- The headers and the body of a request with an `Idempotency-Key`. -/
theorem owes_keyed {key : Option String} {checks : List (String × Check)}
    {Q : String → ApiSession → Prop} (h : ∀ k, key = some k → Q k σ) :
    Owes P (keyed key checks) Q σ :=
  owes_bind (owes_settle fun _ _ => owes_orRaise fun k hk => h k hk)

/-- A service of the wallet. -/
theorem owes_serve {caller : Option Caller} {request : Request} {pick : Response → Option α}
    (hσ : σ.Handles call caller) (hsubmits : call.Submits P σ.directory caller request)
    {Q : α → ApiSession → Prop}
    (h : ∀ response a σ', pick response = some a → σ'.Handles call caller →
      σ'.Serves P call response → Q a σ') : Owes P (serve request pick) Q σ := by
  rw [← hσ.caller] at hsubmits
  refine owes_bind (owes_perform (o := .call request) ⟨call, hσ.received, hsubmits⟩
    fun process _ => ?_)
  refine owes_bind (owes_perform (o := .join process) ⟨request, rfl⟩ fun out _ => ?_)
  cases out with
  | error e => exact owes_throw _
  | ok response =>
      dsimp only
      split
      · next a hpick =>
          exact owes_pure (h response a _ hpick ⟨hσ.received, hσ.caller⟩ ⟨request, rfl, hsubmits⟩)
      · exact owes_throw _

/-- A service of the wallet whose response is the answer. -/
theorem owes_served {caller : Option Caller} {request : Request} {pick : Response → Option α}
    {response : α → Response} {status : ℕ} {data : α → Data}
    (hpick : ∀ {answer a}, pick answer = some a → answer = response a)
    (hshows : ∀ a (σ' : ApiSession), σ'.Serves P call (response a) → σ'.Shows P call (data a))
    (hσ : σ.Handles call caller) (hsubmits : call.Submits P σ.directory caller request) :
    Owes P (serve request pick >>= fun a => pure (.data status (data a)))
      (fun answer σ' => σ'.MayAnswer P answer) σ := by
  refine owes_bind (owes_serve hσ hsubmits fun answer a σ' ha hσ' hserves => owes_pure ?_)
  rw [hpick ha] at hserves
  exact ⟨call, hσ'.received, hshows a σ' hserves⟩

/-- A balance. -/
theorem owes_getBalance {caller : Option Caller} {a : UUID} (hσ : σ.Handles call caller)
    {Q : Ticks → ApiSession → Prop}
    (h : ∀ b σ', σ'.Handles call caller → σ'.accounts = σ.accounts → (a, b) ∈ σ'.balances →
      Q b σ') :
    Owes P (reading (Program.getBalance a)) Q σ :=
  owes_reading (o := .select (.balance a)) trivial fun b _ =>
    h b _ ⟨hσ.received, hσ.caller⟩ rfl List.mem_cons_self

/-- The account to which a transfer goes. -/
theorem owes_recipientAccount {caller : Option Caller} {body : Schemas.TransferRequest}
    (hσ : σ.Handles call caller) {Q : Option Account → ApiSession → Prop}
    (h : ∀ (account : Option Account) σ', σ'.Handles call caller →
      (∀ own ∈ σ.accounts, own ∈ σ'.accounts) →
      (∀ a ∈ account, body.Names σ'.directory a.id) → Q account σ') :
    Owes P (recipientAccount body) Q σ := by
  unfold recipientAccount
  split
  · -- an address is resolved to its user first, and then to the account of this user
    next email hemail =>
    refine owes_bind (owes_perform (o := .userByEmail email) trivial fun recipient haddress => ?_)
    cases recipient with
    | none => exact owes_throw _
    | some recipient =>
        refine owes_perform (o := .accountByUser recipient.id) trivial fun account _ => ?_
        refine h account _ ⟨hσ.received, hσ.caller⟩
          (fun own hown => List.mem_append_right _ hown) ?_
        rintro a rfl
        exact .inl ⟨email, (Option.filter_eq_some_iff.mp hemail).1, recipient, List.mem_cons_self,
          haddress recipient rfl, List.mem_cons_self⟩
  · -- otherwise the body has to name an account
    split
    · next text htext =>
      refine owes_bind (owes_orRaise fun id hid => ?_)
      refine owes_reading (o := .select (.accountById id)) trivial fun account haccount => ?_
      refine h account _ ⟨hσ.received, hσ.caller⟩ (fun _ hown => hown) fun a ha => .inr ?_
      rw [haccount a ha]
      exact ⟨text, (Option.filter_eq_some_iff.mp htext).1, hid⟩
    · exact owes_throw _

/-- An amount. -/
theorem owes_readAmount {text : String}
    {Q : Option Decimal → ApiSession → Prop} (hinfinite : Q none σ)
    (hfinite : ∀ amount, Python.decimal (Python.codePoints text) = some amount →
      Q (some amount) σ) :
    Owes P (readAmount text) Q σ := by
  unfold readAmount
  split
  · next amount hamount => exact owes_pure (hfinite amount hamount)
  · split
    · exact owes_pure hinfinite
    · exact owes_throw _

/-- An account that has to exist. -/
theorem owes_requireAccount {id : UUID} {Q : Unit → ApiSession → Prop} (h : ∀ σ', Q () σ') :
    Owes P (requireAccount id) Q σ := by
  refine owes_bind (owes_reading (o := .select (.accountById id)) trivial fun account _ => ?_)
  cases account with
  | none => exact owes_throw _
  | some _ => exact owes_pure (h _)

/-- A key under which Redis has nothing. -/
theorem owes_requireNoEntry {key : String} {Q : Unit → ApiSession → Prop} (h : ∀ σ', Q () σ') :
    Owes P (requireNoEntry key) Q σ := by
  refine owes_bind (owes_reading (o := .cacheGet key) trivial fun entry _ => ?_)
  cases entry with
  | none => exact owes_pure (h _)
  | some _ => exact owes_throw _

/-- A transfer of an infinite amount is not answered with data. -/
theorem owes_transferInfinity {source target : UUID} {key : String}
    {Q : Answer → ApiSession → Prop} : Owes P (transferInfinity source target key) Q σ :=
  owes_bind (owes_requireNoEntry fun _ => owes_bind (owes_requireAccount fun _ =>
    owes_bind (owes_requireAccount fun _ => owes_throw _)))

/-- Nor is a withdrawal. -/
theorem owes_withdrawInfinity {account : UUID} {key : String} {Q : Answer → ApiSession → Prop} :
    Owes P (withdrawInfinity account key) Q σ := by
  refine owes_bind (owes_requireNoEntry fun _ => ?_)
  split
  · exact owes_throw _
  · exact owes_bind (owes_requireAccount fun _ => owes_throw _)

/-- Nor is a seed. -/
theorem owes_seedInfinity {account : UUID} {Q : Answer → ApiSession → Prop} :
    Owes P (seedInfinity account) Q σ :=
  owes_bind (owes_requireAccount fun _ => owes_throw _)

/-- Whether a call of the rail is allowed. -/
theorem owes_isCallAllowed {cb : CircuitBreaker} {Q : Bool → ApiSession → Prop} (h : ∀ b, Q b σ) :
    Owes P (reading cb.isCallAllowed) Q σ := by
  rw [CircuitBreaker.isCallAllowed, reading_bind]
  refine owes_bind (owes_reading (o := .breaker .getState) trivial fun state _ => ?_)
  split
  · exact owes_pure (h true)
  · rw [CircuitBreaker.cooldownElapsed, reading_bind]
    refine owes_bind (owes_reading (o := .breaker .getLastFailureAt) trivial fun last _ => ?_)
    split
    · exact owes_pure (h true)
    · rw [reading_bind]
      exact owes_bind (owes_reading (o := .now) trivial fun _ _ => owes_pure (h _))
  · rw [reading_bind]
    exact owes_bind (owes_reading (o := .breaker .probeExists) trivial fun _ _ => owes_pure (h _))

end Parts

/-! ## Handlers -/

/-- A login makes tokens for the user whose password was given. -/
theorem owes_login {body : Schemas.LoginRequest} {email : String}
    (hreceived : σ.received = some (.login body)) (hemail : P.emailStr body.email = .ok email)
    {Q : TokenResponse → ApiSession → Prop}
    (h : ∀ t subject expiry σ', σ'.received = some (.login body) →
      t.accessToken = P.encode subject expiry → σ'.Vouches P subject → Q t σ') :
    Owes P (authenticating (login P.checkpw P.encode email body.password)) Q σ := by
  rw [login, authenticating_bind]
  refine owes_bind (owes_authenticating (o := .selectUser email) ⟨body, hreceived, hemail⟩
    fun user => ?_)
  cases user with
  | none => exact owes_throw _
  | some user =>
      dsimp only
      split
      · -- the password is right; the tokens are made before the refresh token is stored
        next hcheck =>
        rw [createAccessToken, authenticating_bind, authenticating_bind]
        refine owes_bind (owes_bind (owes_authenticating (o := .now) trivial fun t => owes_pure ?_))
        rw [authenticating_bind]
        refine owes_bind (owes_authenticating (o := .tokenUrlsafe) trivial fun token => ?_)
        rw [authenticating_bind]
        -- both the storing and the answer rest on the user that was loaded for the address
        have hvouches : ∀ σ' : ApiSession, σ'.received = σ.received → σ'.loaded = some user →
            σ'.Vouches P user.id.str := fun σ' hrec hload =>
          .inl ⟨body, user, hrec.trans hreceived, hload, hcheck, rfl⟩
        refine owes_bind (owes_authenticating (o := .setex _ _ _) ?_ fun _ => owes_pure ?_)
        · exact hvouches _ rfl rfl
        · exact h _ _ _ _ hreceived rfl (hvouches _ rfl rfl)
      · exact owes_throw _

/-- A refresh makes tokens for the subject of the token that it exchanges. -/
theorem owes_refreshToken {call : HttpCall} {token : String} (hreceived : σ.received = some call)
    {Q : TokenResponse → ApiSession → Prop}
    (h : ∀ t subject expiry σ', σ'.received = some call →
      t.accessToken = P.encode subject expiry → σ'.Vouches P subject → Q t σ') :
    Owes P (authenticating (MiniWallet.refreshToken P.encode token)) Q σ := by
  rw [MiniWallet.refreshToken, authenticating_bind]
  refine owes_bind (owes_authenticating (o := .get _) trivial fun userId => ?_)
  cases userId with
  | none => exact owes_throw _
  | some userId =>
      dsimp only
      rw [authenticating_bind]
      -- the token is gone, but the subject that it stood for is known
      refine owes_bind (owes_authenticating (o := .delete _) trivial fun _ => ?_)
      rw [createAccessToken, authenticating_bind, authenticating_bind]
      refine owes_bind (owes_bind (owes_authenticating (o := .now) trivial fun t => owes_pure ?_))
      rw [authenticating_bind]
      refine owes_bind (owes_authenticating (o := .tokenUrlsafe) trivial fun fresh => ?_)
      rw [authenticating_bind]
      refine owes_bind (owes_authenticating (o := .setex _ _ _) ?_ fun _ => owes_pure ?_)
      · exact .inr rfl
      · -- the new tokens are made for that subject
        exact h _ _ _ _ hreceived rfl (.inr rfl)

/-- Registering a user. -/
theorem owes_registerUser {body : Schemas.RegisterRequest} {email : String}
    (hreceived : σ.received = some (.register body)) (hemail : P.emailStr body.email = .ok email)
    {Q : User → ApiSession → Prop} (h : ∀ user σ', σ'.received = some (.register body) →
      Q user σ') :
    Owes P (registerUser email body.password) Q σ := by
  refine owes_bind (owes_perform (o := .hashpw body.password) trivial fun hashed _ => ?_)
  refine owes_bind (owes_perform (o := .uuid4) trivial fun id _ => ?_)
  refine owes_bind (Contract.wp_tryCatch_of_forall _ _ ?_ fun e σ' => ?_)
  · refine owes_perform (o := .insertUser _) ⟨body, hreceived, hemail, List.mem_cons_self⟩
      fun _ _ => ?_
    refine owes_bind (owes_perform (o := .refreshUser id) trivial fun user _ => ?_)
    exact owes_orRaise fun user _ => h user _ hreceived
  · split <;> exact owes_throw _

/-- Every route is answered with what may be shown. -/
theorem owes_route (call : HttpCall) (hreceived : σ.received = some call) :
    Owes P (call.route P) (fun answer σ' => σ'.MayAnswer P answer) σ := by
  cases call with
  -- the routes without a bearer token
  | register body =>
      refine owes_bind (owes_settle fun _ _ => owes_bind ?_)
      unfold normalizedEmail
      split
      · next address hemail =>
        refine owes_pure
          (owes_bind (owes_registerUser hreceived hemail fun user σ' hreceived => ?_))
        exact owes_pure ⟨_, hreceived, trivial⟩
      · exact owes_throw _
  | login body =>
      refine owes_bind (owes_settle fun _ _ => owes_bind ?_)
      unfold normalizedEmail
      split
      · next address hemail =>
        refine owes_pure (owes_bind (owes_login hreceived hemail
          fun t subject expiry σ' hreceived ht hvouches => ?_))
        exact owes_pure ⟨_, hreceived, subject, expiry, ht, hvouches⟩
      · exact owes_throw _
  | refresh body =>
      refine owes_bind (owes_refreshToken hreceived
        fun t subject expiry σ' hreceived ht hvouches => ?_)
      exact owes_pure ⟨_, hreceived, subject, expiry, ht, hvouches⟩
  -- from here on the user is known before anything else is done
  | getMe bearer =>
      refine owes_bind (owes_getCurrentUser hreceived rfl fun user token σ' hσ => ?_)
      exact owes_pure ⟨_, hσ.received, _, hσ.caller, rfl, rfl⟩
  | openAccount bearer =>
      refine owes_bind (owes_getCurrentUser hreceived rfl fun user token σ' hσ => ?_)
      have hsubmits : (HttpCall.openAccount bearer).Submits P σ'.directory (some ⟨token, user⟩)
          (.openAccount user.id) := ⟨_, rfl, rfl⟩
      refine owes_bind (owes_serve hσ hsubmits fun response account σ' _ hσ _ => ?_)
      refine owes_bind (owes_getBalance hσ fun b σ' hσ _ _ => ?_)
      exact owes_pure ⟨_, hσ.received, trivial⟩
  | getAccount bearer =>
      refine owes_bind (owes_getCurrentUser hreceived rfl fun user token σ' hσ => ?_)
      refine owes_bind (owes_getOwnAccount hσ fun account σ' hσ hown => ?_)
      refine owes_bind (owes_getBalance hσ fun b σ'' hσ haccounts hb => ?_)
      refine owes_pure ⟨_, hσ.received, _, hσ.caller, account.id, b, ?_, hb, rfl, rfl⟩
      rwa [haccounts]
  | getBalance bearer =>
      refine owes_bind (owes_getCurrentUser hreceived rfl fun user token σ' hσ => ?_)
      refine owes_bind (owes_getOwnAccount hσ fun account σ' hσ hown => ?_)
      refine owes_bind (owes_getBalance hσ fun b σ'' hσ haccounts hb => ?_)
      refine owes_bind (owes_reading (o := .now) trivial fun at_ _ => ?_)
      refine owes_pure ⟨_, hσ.received, _, hσ.caller, account.id, b, ?_, hb, rfl, rfl⟩
      change (user.id, account.id) ∈ σ''.accounts
      rwa [haccounts]
  -- the routes that start a service check the key and find the own account before
  | createTransfer bearer key body =>
      refine owes_bind (owes_getCurrentUser hreceived rfl fun user token σ' hσ => ?_)
      refine owes_bind (owes_keyed fun k hk => ?_)
      refine owes_bind (owes_getOwnAccount hσ fun sender σ' hσ hown => ?_)
      refine owes_bind (owes_recipientAccount hσ fun recipient σ'' hσ hgrows hnames => ?_)
      cases recipient with
      | none => exact owes_throw _
      | some recipient =>
          dsimp only
          split
          · exact owes_throw _
          · refine owes_bind (owes_readAmount owes_transferInfinity fun amount hamount => ?_)
            exact owes_served Response.eq_of_transfer? (fun _ _ h => h) hσ
              ⟨hk, hamount, hnames recipient rfl, _, rfl, hgrows _ hown⟩
  | getTransfer bearer transferId =>
      refine owes_bind (owes_getCurrentUser hreceived rfl fun user token σ' hσ => ?_)
      refine owes_bind (owes_getOwnAccount hσ fun account σ' hσ hown => ?_)
      refine owes_bind (owes_orRaise fun id hid => ?_)
      exact owes_served Response.eq_of_transfer? (fun _ _ h => h) hσ ⟨hid, _, rfl, hown⟩
  | getDeposit bearer depositId =>
      refine owes_bind (owes_getCurrentUser hreceived rfl fun user token σ' hσ => ?_)
      refine owes_bind (owes_getOwnAccount hσ fun account σ' hσ hown => ?_)
      refine owes_bind (owes_orRaise fun id hid => ?_)
      exact owes_served Response.eq_of_deposit? (fun _ _ h => h) hσ ⟨hid, _, rfl, hown⟩
  | createWithdrawal bearer key body =>
      refine owes_bind (owes_getCurrentUser hreceived rfl fun user token σ' hσ => ?_)
      refine owes_bind (owes_keyed fun k hk => ?_)
      refine owes_bind (owes_isCallAllowed fun allowed => ?_)
      cases allowed with
      | false => exact owes_throw _
      | true =>
          refine owes_bind (owes_getOwnAccount hσ fun sender σ' hσ hown => ?_)
          refine owes_bind (owes_readAmount owes_withdrawInfinity fun amount hamount => ?_)
          exact owes_served Response.eq_of_withdrawal? (fun _ _ h => h) hσ
            ⟨hk, hamount, _, rfl, hown⟩
  | getWithdrawal bearer withdrawalId =>
      refine owes_bind (owes_getCurrentUser hreceived rfl fun user token σ' hσ => ?_)
      refine owes_bind (owes_getOwnAccount hσ fun sender σ' hσ hown => ?_)
      refine owes_bind (owes_orRaise fun id hid => ?_)
      exact owes_served Response.eq_of_withdrawal? (fun _ _ h => h) hσ ⟨hid, _, rfl, hown⟩
  -- money comes from outside in development only
  | seed bearer key body =>
      refine owes_bind (owes_getCurrentUser hreceived rfl fun user token σ' hσ => ?_)
      refine owes_bind (owes_keyed fun k hk => owes_bind ?_)
      unfold developmentOnly
      split
      · exact owes_throw _
      · next henv =>
        refine owes_pure (owes_bind (owes_orRaise fun accountId haccount => ?_))
        refine owes_bind (owes_readAmount owes_seedInfinity fun amount hamount => ?_)
        exact owes_served Response.eq_of_seed? (fun _ _ h => h) hσ
          ⟨not_not.mp henv, hk, haccount, hamount, _, rfl, rfl⟩
  | simulateDeposit body =>
      refine owes_bind (owes_settle fun _ _ => owes_bind ?_)
      unfold developmentOnly
      split
      · exact owes_throw _
      · next henv =>
        refine owes_pure (owes_bind (owes_orRaise fun accountId haccount => ?_))
        refine owes_bind (owes_readAmount (owes_throw _) fun amount hamount => ?_)
        exact owes_served Response.eq_of_deposit? (fun _ _ h => h) ⟨hreceived, rfl⟩
          ⟨not_not.mp henv, rfl, haccount, hamount⟩

/-- Every handler keeps the contract. -/
theorem duties_handle (call : HttpCall) : (duties P).Safe ApiSession.after (call.handle P) {} := by
  refine owes_bind (owes_perform (o := .receive call) rfl fun _ _ => owes_bind ?_)
  refine Contract.wp_mono _ _ (fun answer σ' hmay => owes_perform (o := .respond answer) hmay
    fun _ _ => trivial) (fun _ _ h => h) ?_
  exact Contract.wp_tryCatch_of_forall _ _ (owes_route call rfl) fun e σ' => owes_pure trivial

end Duties

end MiniWallet
