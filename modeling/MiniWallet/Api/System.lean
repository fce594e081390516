import MiniWallet.Api.Routers
import MiniWallet.Ledger.Actions
import MiniWallet.Process.Provenance

/-!
# The API as a system

Any number of requests are handled at the same time, each in a process of its own. The wallet, the
users and Redis are what they share, and between two operations of a handler everything else can go
on: the services that other requests have started, the recovery sweeps, and time.

* `ApiState`: what is shared, with the record of the requests and of the answers.
* `ApiSession`: what a request has learned so far.
* `api`: the system. Its processes run the handlers of requests.
-/

namespace MiniWallet

open Process

/-- The token of the `Authorization` header of a protected route. -/
def HttpCall.bearer? : HttpCall → Option String
  | getMe bearer | openAccount bearer | getAccount bearer | getBalance bearer
  | createTransfer bearer _ _ | getTransfer bearer _ | getDeposit bearer _
  | createWithdrawal bearer _ _ | getWithdrawal bearer _ | seed bearer _ _ => bearer
  | register _ | login _ | refresh _ | simulateDeposit _ => none

/-- The user of a request, with the token that was taken for it. -/
structure Caller where
  token : String
  user : User

/-- A service of the wallet that has been started. -/
structure Service where
  request : Request
  /-- The request of the API that it was started for, with its user. A sweep has none. -/
  cause : Option (HttpCall × Option Caller)

/-- An answer that was sent, with the request that it was sent to and the user of the request. -/
structure Exchange where
  call : HttpCall
  caller : Option Caller
  answer : Answer

/-- What the requests share. -/
structure ApiState where
  wallet : Wallet
  auth : AuthStore := {}
  /-- The services of the wallet, by their processes. -/
  services : ℕ → Option Service := fun _ => none
  /-- The requests that have arrived. -/
  received : List HttpCall := []
  /-- The answers that have been sent. -/
  answered : List Exchange := []

namespace ApiState

variable (s : ApiState)

/-- The time. -/
def clock : Time := s.wallet.shared.clock

/-- What the auth service sees. -/
def store : AuthStore := { s.auth with clock := s.clock }

/-- The committed tables. -/
abbrev db : Database := s.wallet.shared.db

/-- The requests of the services. -/
def origin (i : ℕ) : Option Request := (s.services i).map (·.request)

/-- How the insertion of a user ends. -/
def verdict (user : User) : Except ApiExc Unit :=
  if 255 < user.email.length ∨ 255 < user.hashedPassword.length then .error .dataError
  else if s.auth.users.any fun u => u.id = user.id ∨ u.email = user.email then
    .error .integrityError
  else .ok ()

end ApiState

/-- What a request has learned so far. -/
structure ApiSession where
  received : Option HttpCall := none
  /-- The token that was decoded, with its subject. -/
  subject : Option (String × String) := none
  caller : Option Caller := none
  /-- The users that were found by their addresses. -/
  found : List User := []
  /-- The accounts that were found, with the users for whom they were looked up. -/
  accounts : List (UUID × UUID) := []
  /-- The balances that were read. -/
  balances : List (UUID × Ticks) := []
  /-- The service that was started last. -/
  service : Option (ℕ × Request) := none
  /-- The service that has ended last, with its response. -/
  served : Option (Request × Response) := none
  /-- The passwords that were hashed, with their hashes. -/
  hashes : List (String × String) := []
  auth : AuthSession := {}
  /-- The user whom the auth service has found. -/
  loaded : Option User := none
  /-- The subject of the refresh token that is exchanged. -/
  exchanged : Option String := none

section Semantics

variable (P : Platform)

/-- The results of an operation. -/
def ApiState.Ends (s : ApiState) : (o : ApiOp) → Except ApiExc o.Out → Prop
  | .receive _, r => r = .ok ()
  | .decode token, r => r = .ok (P.decode token s.clock)
  | .getUser userId, r =>
      (match P.asUuid userId with
        | some id => r = .ok (s.auth.users.find? (·.id = id))
        -- a subject that is no UUID makes the driver fail
        | none => r = .error .dataError) ∨ r = .error .operationalError
  | .refreshUser id, r => r = .ok (s.auth.users.find? (·.id = id)) ∨ r = .error .operationalError
  | .userByEmail email, r =>
      r = .ok (s.auth.users.find? (·.email = email)) ∨ r = .error .operationalError
  | .accountByUser userId, r => r = .ok (s.db.accountByUser userId) ∨ r = .error .operationalError
  | .hashpw password, r =>
      (∃ hash, P.checkpw password hash = true ∧ r = .ok hash) ∨ r = .error .valueError
  | .uuid4, r => ∃ id, r = .ok id
  | .insertUser user, r => r = s.verdict user ∨ r = .error .operationalError
  | .wallet o, r => ∃ x, MiniWallet.Ends s.wallet.toWorld s.wallet.size o x ∧ r = .ok x
  | .auth o, r => ∃ x, s.store.Ends o x ∧ r = .ok x
  | .call _, r => r = .ok s.wallet.size
  | .join i, r => ∃ out, (s.wallet.pool i).bind Prog.outcome? = some out ∧ r = .ok out
  | .respond _, r => r = .ok ()

/-- The balance that an operation of the wallet reads. -/
def balanceRead : (o : Op) → Except Exc o.Out → List (UUID × Ticks)
  | .select (.balance a), .ok (b : Ticks) => [(a, b)]
  | _, _ => []

/-- What a request has learned after an operation of the auth service. -/
def ApiSession.afterAuth (σ : ApiSession) : (o : AuthOp) → Except AuthExc o.Out → ApiSession
  | .selectUser _, .ok user => { σ with loaded := user }
  | .get key, .ok value =>
      { σ with auth := σ.auth.after (.get key) (.ok value), exchanged := value }
  | o, r => { σ with auth := σ.auth.after o r }

/-- What a request has learned after an operation. -/
def ApiSession.after : (o : ApiOp) → Except ApiExc o.Out → ApiSession → ApiSession
  | .receive call, .ok _, σ => { σ with received := some call }
  | .decode token, .ok subject, σ => { σ with subject := subject.join.map (token, ·) }
  | .getUser _, .ok user, σ =>
      { σ with caller := σ.subject.bind fun subject => user.map (⟨subject.1, ·⟩) }
  | .userByEmail _, .ok user, σ => { σ with found := user.toList ++ σ.found }
  | .accountByUser userId, .ok account, σ =>
      { σ with accounts := (account.map fun a => (userId, a.id)).toList ++ σ.accounts }
  | .hashpw password, .ok hash, σ => { σ with hashes := (password, hash) :: σ.hashes }
  | .wallet o, .ok x, σ => { σ with balances := balanceRead o x ++ σ.balances }
  | .auth o, .ok x, σ => σ.afterAuth o x
  | .call request, .ok process, σ => { σ with service := some (process, request) }
  | .join _, .ok (.ok response), σ =>
      { σ with served := σ.service.map fun service => (service.2, response) }
  | _, _, σ => σ

/-- What the requests share after an operation. -/
def ApiState.effect : (o : ApiOp) → Except ApiExc o.Out → ApiSession → ApiState → ApiState
  | .receive call, _, _, s => { s with received := call :: s.received }
  | .insertUser user, .ok _, _, s =>
      { s with auth := { s.auth with users := user :: s.auth.users } }
  | .wallet o, .ok x, _, s =>
      { s with
        wallet := { s.wallet with shared := MiniWallet.effect o x {} s.wallet.shared } }
  | .auth o, .ok x, σ, s => { s with auth := AuthStore.effect o x σ.auth s.store }
  | .call request, .ok process, σ, s =>
      { s with
        wallet := System.spawned s.wallet (request.program P.sha256)
        services := Function.update s.services process
          (some ⟨request, σ.received.map (·, σ.caller)⟩) }
  | .respond answer, .ok _, σ, s =>
      { s with
        answered := (σ.received.map (⟨·, σ.caller, answer⟩)).toList ++ s.answered }
  | _, _, _, s => s

/-- What happens without the requests. -/
inductive ApiState.Env : ApiState → ApiState → Prop
  /-- The services of the wallet go on or stop, time passes, and entries of Redis expire. -/
  | wallet {s : ApiState} {l : Event} {c : Wallet} :
      (MiniWallet.wallet P.sha256).Step s.wallet l c →
      l ≠ .spawn → Env s { s with wallet := c }
  /-- A recovery sweep starts. -/
  | sweep {s : ApiState} (circuitBreaker : CircuitBreaker) :
      Env s
        { s with
          wallet := System.spawned s.wallet
            ((Request.recoverStuckWithdrawals circuitBreaker).program P.sha256)
          services := Function.update s.services s.wallet.size
            (some ⟨.recoverStuckWithdrawals circuitBreaker, none⟩) }
  /-- Refresh tokens expire or are evicted. -/
  | evict {s : ApiState} (tokens : String → Option (String × Time)) :
      (∀ key, tokens key = s.auth.tokens key ∨ tokens key = none) →
      Env s { s with auth := { s.auth with tokens := tokens } }

/-- The API: the handlers of requests. -/
def api : System ApiOp ApiOp.Out ApiExc Unit ApiState ApiSession where
  idle := {}
  enabled := fun _ o r w => w.shared.Ends P o r
  after := ApiSession.after
  effect := ApiState.effect P
  env := ApiState.Env P
  start := fun p => ∃ call : HttpCall, p = call.handle P

end Semantics

/-- What is shared before the first request. -/
def ApiState.initial (sha256 : String → String) (t₀ : Time) : ApiState where
  wallet := (MiniWallet.wallet sha256).initial (.initial t₀)

/-- A configuration of the API. -/
abbrev Api := Config ApiOp ApiOp.Out ApiExc Unit ApiState ApiSession

/-- What happens in a step of the API. -/
abbrev ApiEvent := Label ApiOp ApiOp.Out ApiExc

/-- `ApiRun P t₀ ok c`: the API gets from the migrated database at time `t₀` to `c`, by some
interleaving of requests, sweeps and crashes whose steps all satisfy `ok`. -/
abbrev ApiRun (P : Platform) (t₀ : Time)
    (ok : World ApiState ApiSession → ApiEvent → Prop) (c : Api) :
    Prop :=
  (api P).Run ok ((api P).initial (.initial P.sha256 t₀)) c

end MiniWallet
