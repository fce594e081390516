import MiniWallet.Api.Operations
import MiniWallet.Schema.Identifiers

/-!
# Routers

The handlers of the routes. A protected route loads the user of its token before anything else is
looked at; then the headers and the body are checked, and only then the handler runs. The account
that a handler acts for is that of the user, never one from the request.

* `getCurrentUser`: the dependency of the protected routes.
* `HttpCall.handle`: the handler of a request, with its answer.
-/

namespace MiniWallet

open Numeric Process ApiProgram

/-- `UUID(text)`. -/
def readUuid (text : String) : ApiProgram UUID := orRaise .valueError (UUID.parse text)

/-- `Decimal(text)` of an amount that its validator has accepted: `none` is infinity. -/
def readAmount (text : String) : ApiProgram (Option Decimal) :=
  match Python.decimal (Python.codePoints text) with
  | some amount => pure (some amount)
  | none =>
      if Python.infinity (Python.codePoints text) = some false then pure none
      else throw .invalidOperation

/-- The error of a header that is missing. -/
def missingHeader (name : String) : Option String → List FieldError
  | some _ => []
  | none => [⟨"header." ++ name, "Field required"⟩]

/-- `get_current_user`: the user of the token of a request. -/
def getCurrentUser (bearer : Option String) : ApiProgram User := do
  match bearer with
  | none => throw (.miniBank .unauthorized)
  | some token =>
      match ← decode token with
      | some (some userId) =>
          match ← getUser userId with
          | some user => pure user
          | none => throw (.miniBank .unauthorized)
      | some none | none => throw (.miniBank .unauthorized)

/-- The account of a user, which has to exist. -/
def getOwnAccount (user : User) : ApiProgram Account := do
  match ← getAccountByUser user.id with
  | some account => pure account
  | none => throw (.miniBank .accountNotFound)

/-- The headers and the body of a request with an `Idempotency-Key`: the value of the header. -/
def keyed (key : Option String) (checks : List (String × Check)) : ApiProgram String := do
  settle (validated (missingHeader "Idempotency-Key" key) checks)
  orRaise (.validation (missingHeader "Idempotency-Key" key)) key

/-- The account to which a transfer goes: that of the user with the address, or the one that is
named. -/
def recipientAccount (body : Schemas.TransferRequest) : ApiProgram (Option Account) := do
  -- an empty string is falsy, so it counts as absent
  match body.toEmail.filter (· ≠ "") with
  | some email =>
      match ← getByEmail email with
      | none => throw (.miniBank .userNotFound)
      -- `none` for a user without an account, which is answered like an unknown account
      | some recipient => getAccountByUser recipient.id
  | none =>
      match body.toAccountId.filter (· ≠ "") with
      | some text =>
          let id ← readUuid text
          reading (Program.getAccountById id)
      | none => throw (.http 422 "VALIDATION_ERROR" "to_email or to_account_id required")

/-- `get_circuit_breaker`. -/
def getCircuitBreaker : CircuitBreaker := {}

/-- A balance as it is shown. -/
def shownBalance (balance : Ticks) : String := money (Ticks.toDecimal balance)

/-! ## Infinite amounts

No balance covers an infinite amount and no column takes it, so each service raises before it has
written anything. What it has locked is released by the rollback. -/

/-- `account_service.get_account_by_id`, of an account that has to exist. -/
def requireAccount (id : UUID) : ApiProgram Unit := do
  match ← reading (Program.getAccountById id) with
  | some _ => pure ()
  | none => throw (.wallet .accountNotFound)

/-- What Redis has under the key is the answer to another request, as no request for an infinite
amount is ever answered. -/
def requireNoEntry (key : String) : ApiProgram Unit := do
  match ← reading (Program.cacheGet key) with
  | some _ => throw (.wallet .idempotencyConflict)
  | none => pure ()

/-- `transfer` of an infinite amount: the failed transfer does not fit its table. -/
def transferInfinity (fromAccountId toAccountId : UUID) (idempotencyKey : String) :
    ApiProgram Answer := do
  requireNoEntry (transferCacheKey idempotencyKey)
  requireAccount fromAccountId
  requireAccount toAccountId
  throw (.wallet .dataError)

/-- `create_withdrawal` of an infinite amount. -/
def withdrawInfinity (accountId : UUID) (idempotencyKey : String) : ApiProgram Answer := do
  requireNoEntry (withdrawalCacheKey idempotencyKey)
  if accountId = systemAccountId then throw (.wallet .accountNotFound)
  else
    requireAccount accountId
    throw (.wallet .insufficientBalance)

/-- `seed` of an infinite amount. -/
def seedInfinity (accountId : UUID) : ApiProgram Answer := do
  requireAccount accountId
  throw (.wallet .dataError)

section Handlers

variable (P : Platform)

/-- The check of an address. -/
def checkEmail (email : String) : Check :=
  match P.emailStr email with
  | .ok _ => .accepted
  | .error message => .valueError message

/-- The normalized address. -/
def normalizedEmail (email : String) : ApiProgram String :=
  match P.emailStr email with
  | .ok address => pure address
  | .error message => throw (.validation [⟨"email", "Value error, " ++ message⟩])

/-- The dev routes exist in development only. -/
def developmentOnly : ApiProgram Unit :=
  if P.appEnv ≠ "development" then throw (.miniBank .forbidden) else pure ()

/-- `auth_service.register`. -/
def registerUser (email password : String) : ApiProgram User := do
  let hashed ← hashpw password
  let id ← uuid4
  let user : User := { id := id, email := email, hashedPassword := hashed }
  try insertUser user
  catch
    | .integrityError => throw (.miniBank .emailAlreadyExists)
    | e => throw e
  orRaise .operationalError (← refreshUser user.id)

namespace Routers

/-! ## `routers/auth.py` and `routers/users.py` -/

/-- `POST /auth/register`. -/
def register (body : Schemas.RegisterRequest) : ApiProgram Answer := do
  settle (validated []
    [("email", checkEmail P body.email), ("password", Schemas.validatePassword body.password)])
  let email ← normalizedEmail P body.email
  let user ← registerUser email body.password
  pure (.data 201 (.registered user.id.str user.email))

/-- `POST /auth/login`. -/
def login (body : Schemas.LoginRequest) : ApiProgram Answer := do
  settle (validated [] [("email", checkEmail P body.email)])
  let email ← normalizedEmail P body.email
  let tokens ← authenticating (MiniWallet.login P.checkpw P.encode email body.password)
  pure (.data 200 (.tokens tokens))

/-- `POST /auth/refresh`. -/
def refresh (body : Schemas.RefreshRequest) : ApiProgram Answer := do
  let tokens ← authenticating (MiniWallet.refreshToken P.encode body.refreshToken)
  pure (.data 200 (.tokens tokens))

/-- `GET /users/me`. -/
def getMe (bearer : Option String) : ApiProgram Answer := do
  let user ← getCurrentUser bearer
  pure (.data 200 (.user user.id.str user.email))

/-! ## `routers/accounts.py` -/

/-- `POST /accounts`. -/
def openAccount (bearer : Option String) : ApiProgram Answer := do
  let user ← getCurrentUser bearer
  let account ← serve (.openAccount user.id) Response.account?
  let balance ← reading (Program.getBalance account.id)
  pure (.data 201
    (.account account.id.str ((account.userId.map UUID.str).getD "None") account.status
    (shownBalance balance) account.createdAt))

/-- `GET /accounts/me`. -/
def getAccount (bearer : Option String) : ApiProgram Answer := do
  let user ← getCurrentUser bearer
  let account ← getOwnAccount user
  let balance ← reading (Program.getBalance account.id)
  pure (.data 200 (.summary account.id.str account.status (shownBalance balance) account.createdAt))

/-- `GET /accounts/me/balance`. -/
def getBalance (bearer : Option String) : ApiProgram Answer := do
  let user ← getCurrentUser bearer
  let account ← getOwnAccount user
  let balance ← reading (Program.getBalance account.id)
  let asOf ← reading Program.now
  pure (.data 200 (.balance account.id.str (shownBalance balance) asOf))

/-! ## `routers/transfers.py` -/

/-- `POST /transfers`. -/
def createTransfer (bearer key : Option String) (body : Schemas.TransferRequest) :
    ApiProgram Answer := do
  let user ← getCurrentUser bearer
  let idempotencyKey ← keyed key body.checks
  let sender ← getOwnAccount user
  match ← recipientAccount body with
  | none => throw (.miniBank .accountNotFound)
  | some recipient =>
      -- decided before the amount is read, so also for an infinite one
      if sender.id = recipient.id then throw (.miniBank .sameAccount)
      else
        match ← readAmount body.amount with
        | none => transferInfinity sender.id recipient.id idempotencyKey
        | some amount =>
            let result ← serve
              (.transfer
                { fromAccountId := sender.id
                  toAccountId := recipient.id
                  amount := amount
                  idempotencyKey := idempotencyKey
                  actorUserId := some user.id })
              Response.transfer?
            pure (.data 201 (.transfer result))

/-- `GET /transfers/{transfer_id}`. -/
def getTransfer (bearer : Option String) (transferId : String) : ApiProgram Answer := do
  let user ← getCurrentUser bearer
  let account ← getOwnAccount user
  let id ← readUuid transferId
  let result ← serve (.getTransfer id account.id) Response.transfer?
  pure (.data 200 (.transfer result))

/-! ## `routers/deposits.py` and `routers/withdrawals.py` -/

/-- `GET /deposits/{deposit_id}`. -/
def getDeposit (bearer : Option String) (depositId : String) : ApiProgram Answer := do
  let user ← getCurrentUser bearer
  let account ← getOwnAccount user
  let id ← readUuid depositId
  let result ← serve (.getDeposit id account.id) Response.deposit?
  pure (.data 200 (.deposit result))

/-- `POST /withdrawals`. The circuit is looked at before the account is. -/
def createWithdrawal (bearer key : Option String) (body : Schemas.WithdrawalRequest) :
    ApiProgram Answer := do
  let user ← getCurrentUser bearer
  let idempotencyKey ← keyed key body.checks
  let allowed ← reading getCircuitBreaker.isCallAllowed
  -- nothing has been written yet, so there is nothing to compensate
  if !allowed then throw (.miniBank .bankRailUnavailable)
  else
    let sender ← getOwnAccount user
    match ← readAmount body.amount with
    | none => withdrawInfinity sender.id idempotencyKey
    | some amount =>
        let result ← serve
          (.createWithdrawal
            { accountId := sender.id
              amount := amount
              currency := body.currency
              destinationType := body.destinationType
              destinationDetails := body.destinationDetails
              idempotencyKey := idempotencyKey
              actorUserId := some user.id
              circuitBreaker := some getCircuitBreaker })
          Response.withdrawal?
        pure (.data 201 (.withdrawal result))

/-- `GET /withdrawals/{withdrawal_id}`. -/
def getWithdrawal (bearer : Option String) (withdrawalId : String) : ApiProgram Answer := do
  let user ← getCurrentUser bearer
  let sender ← getOwnAccount user
  let id ← readUuid withdrawalId
  let result ← serve (.getWithdrawal id sender.id) Response.withdrawal?
  pure (.data 200 (.withdrawal result))

/-! ## `routers/dev.py` -/

/-- `POST /dev/seed`. -/
def seed (bearer key : Option String) (body : Schemas.SeedRequest) : ApiProgram Answer := do
  let user ← getCurrentUser bearer
  let idempotencyKey ← keyed key body.checks
  -- the body has been validated by then: a malformed one is answered 422 in production too
  developmentOnly P
  let accountId ← readUuid body.accountId
  match ← readAmount body.amount with
  | none => seedInfinity accountId
  | some amount =>
      let result ← serve
        (.seed
          { accountId := accountId
            amount := amount
            idempotencyKey := idempotencyKey
            actorUserId := user.id })
        Response.seed?
      pure (.data 201 (.seed result))

/-- `POST /dev/simulate-deposit`, the webhook of an inbound payment. It asks for no token. -/
def simulateDeposit (body : Schemas.SimulateDepositRequest) : ApiProgram Answer := do
  settle (validated [] body.checks)
  -- as for the seed, the body has been validated before
  developmentOnly P
  let accountId ← readUuid body.accountId
  match ← readAmount body.amount with
  -- the flush of the pending row fails
  | none => throw (.wallet .dataError)
  | some amount =>
      let result ← serve
        (.simulateDeposit
          { accountId := accountId
            amount := amount
            currency := body.currency
            sourceType := body.sourceType
            externalReference := body.externalReference })
        Response.deposit?
      pure (.data 201 (.deposit result))

end Routers

end Handlers

/-- The route of a request. -/
def HttpCall.route (P : Platform) : HttpCall → ApiProgram Answer
  | register body => Routers.register P body
  | login body => Routers.login P body
  | refresh body => Routers.refresh P body
  | getMe bearer => Routers.getMe bearer
  | openAccount bearer => Routers.openAccount bearer
  | getAccount bearer => Routers.getAccount bearer
  | getBalance bearer => Routers.getBalance bearer
  | createTransfer bearer key body => Routers.createTransfer bearer key body
  | getTransfer bearer transferId => Routers.getTransfer bearer transferId
  | getDeposit bearer depositId => Routers.getDeposit bearer depositId
  | createWithdrawal bearer key body => Routers.createWithdrawal bearer key body
  | getWithdrawal bearer withdrawalId => Routers.getWithdrawal bearer withdrawalId
  | seed bearer key body => Routers.seed P bearer key body
  | simulateDeposit body => Routers.simulateDeposit P body

/-- Handle a request: every exception is answered. -/
def HttpCall.handle (P : Platform) (call : HttpCall) : ApiProgram Unit := do
  receive call
  let answer ← tryCatch (call.route P) fun e => pure (.failed e.answer)
  respond answer

end MiniWallet
