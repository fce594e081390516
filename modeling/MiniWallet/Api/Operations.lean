import MiniWallet.Api.Schemas
import MiniWallet.App
import MiniWallet.Process.Embedding

/-!
# Operations of the API

What the handlers of the API await. The services of the wallet that move money are processes of
their own, which a handler starts and waits for; the auth service runs in the handler itself, and so
do the reading coroutines of the wallet.

* `Platform`: the code outside the repository that the API rests on, and the settings.
* `HttpCall`: the requests, by their routes.
* `ApiOp`: the operations.
-/

namespace MiniWallet

open Process

/-- The code outside the repository that the API rests on, and the settings. -/
structure Platform where
  sha256 : String → String
  /-- `bcrypt.checkpw`. -/
  checkpw : String → String → Bool
  /-- `jwt.encode` of a subject and a time of expiry. -/
  encode : String → Time → String
  /-- `jwt.decode` at an instant: the subject, if the token has one, or `none` for an
  `InvalidTokenError`. -/
  decode : String → Time → Option (Option String)
  /-- The UUID that the database driver reads from a text. -/
  asUuid : String → Option UUID
  /-- `EmailStr`: the normalized address, or the reason why it is none. -/
  emailStr : String → Except String String
  /-- `settings.app_env`. -/
  appEnv : String

/-- The requests. A protected route has the token of the `Authorization` header, and a route with an
`Idempotency-Key` has its value, if the headers are there. -/
inductive HttpCall
  | register (body : Schemas.RegisterRequest)
  | login (body : Schemas.LoginRequest)
  | refresh (body : Schemas.RefreshRequest)
  | getMe (bearer : Option String)
  | openAccount (bearer : Option String)
  | getAccount (bearer : Option String)
  | getBalance (bearer : Option String)
  | createTransfer (bearer key : Option String) (body : Schemas.TransferRequest)
  | getTransfer (bearer : Option String) (transferId : String)
  | getDeposit (bearer : Option String) (depositId : String)
  | createWithdrawal (bearer key : Option String) (body : Schemas.WithdrawalRequest)
  | getWithdrawal (bearer : Option String) (withdrawalId : String)
  | seed (bearer key : Option String) (body : Schemas.SeedRequest)
  | simulateDeposit (body : Schemas.SimulateDepositRequest)

/-- The operations of the handlers. -/
inductive ApiOp
  /-- The request arrives. -/
  | receive (call : HttpCall)
  /-- `jwt.decode`. -/
  | decode (token : String)
  /-- `db.get(User, user_id)`, with the identifier as a text. -/
  | getUser (userId : String)
  /-- `db.refresh` of a user. -/
  | refreshUser (id : UUID)
  /-- `SELECT … FROM users WHERE email = …`. -/
  | userByEmail (email : String)
  /-- `SELECT … FROM accounts WHERE user_id = …`. -/
  | accountByUser (userId : UUID)
  /-- `bcrypt.hashpw` with a fresh salt. -/
  | hashpw (password : String)
  /-- `uuid.uuid4()`. -/
  | uuid4
  /-- `INSERT INTO users`, committed at once. -/
  | insertUser (user : User)
  /-- An operation of the wallet that reads, awaited by the handler itself. -/
  | wallet (o : Op)
  /-- An operation of the auth service. -/
  | auth (o : AuthOp)
  /-- Start a service of the wallet. -/
  | call (request : Request)
  /-- Wait for a service of the wallet to end. -/
  | join (process : ℕ)
  /-- The answer is sent. -/
  | respond (answer : Answer)

/-- The type of the value that an operation returns. -/
def ApiOp.Out : ApiOp → Type
  | receive _ => Unit
  | decode _ => Option (Option String)
  | getUser _ | refreshUser _ | userByEmail _ => Option User
  | accountByUser _ => Option Account
  | hashpw _ => String
  | uuid4 => UUID
  | insertUser _ => Unit
  | wallet o => Except Exc o.Out
  | auth o => Except AuthExc o.Out
  | call _ => ℕ
  | join _ => Except Exc Response
  | respond _ => Unit

/-- A coroutine of the API. -/
abbrev ApiProgram (α : Type) : Type := Prog ApiOp ApiOp.Out ApiExc α

namespace ApiProgram

variable {α : Type}

/-- Await an operation. -/
abbrev perform (o : ApiOp) : ApiProgram o.Out := Prog.perform o

/-- The request arrives. -/
def receive (call : HttpCall) : ApiProgram Unit := perform (.receive call)

/-- `jwt.decode` of a token. -/
def decode (token : String) : ApiProgram (Option (Option String)) := perform (.decode token)

/-- `db.get(User, user_id)`. -/
def getUser (userId : String) : ApiProgram (Option User) := perform (.getUser userId)

/-- `db.refresh` of a user. -/
def refreshUser (id : UUID) : ApiProgram (Option User) := perform (.refreshUser id)

/-- `user_service.get_by_email`. -/
def getByEmail (email : String) : ApiProgram (Option User) := perform (.userByEmail email)

/-- `account_service.get_account_by_user`. -/
def getAccountByUser (userId : UUID) : ApiProgram (Option Account) :=
  perform (.accountByUser userId)

/-- `bcrypt.hashpw` with a fresh salt. -/
def hashpw (password : String) : ApiProgram String := perform (.hashpw password)

/-- `uuid.uuid4()`. -/
def uuid4 : ApiProgram UUID := perform .uuid4

/-- Insert a user and commit. -/
def insertUser (user : User) : ApiProgram Unit := perform (.insertUser user)

/-- Send the answer. -/
def respond (answer : Answer) : ApiProgram Unit := perform (.respond answer)

/-- Run a coroutine of the wallet that reads. -/
def reading (p : Program α) : ApiProgram α := p.via (fun o => perform (.wallet o)) .wallet

/-- Run a coroutine of the auth service. -/
def authenticating (p : AuthProgram α) : ApiProgram α := p.via (fun o => perform (.auth o)) .auth

/-- Start a service of the wallet, wait for it, and take its response. -/
def serve (request : Request) (pick : Response → Option α) : ApiProgram α := do
  let process ← perform (.call request)
  match ← perform (.join process) with
  | .error e => throw (.wallet e)
  | .ok response =>
      match pick response with
      | some a => pure a
      | none => throw .responseValidation

/-- What a computation without operations ends with. -/
def settle : Except ApiExc α → ApiProgram α
  | .ok a => pure a
  | .error e => throw e

/-- A value that has to be there. -/
def orRaise (e : ApiExc) : Option α → ApiProgram α
  | some a => pure a
  | none => throw e

end ApiProgram

namespace Response

/-- The response as an account. -/
def account? : Response → Option Account
  | account a => some a
  | _ => none

/-- The response as one to a seed. -/
def seed? : Response → Option SeedResponse
  | seed r => some r
  | _ => none

/-- Only the response to a seed is read as one. -/
theorem eq_of_seed? {response : Response} {r : SeedResponse} (h : response.seed? = some r) :
    response = .seed r := by
  cases response <;> cases h
  rfl

/-- The response as one to a transfer. -/
def transfer? : Response → Option TransferResponse
  | transfer r => some r
  | _ => none

/-- Only the response to a transfer is read as one. -/
theorem eq_of_transfer? {response : Response} {r : TransferResponse}
    (h : response.transfer? = some r) :
    response = .transfer r := by
  cases response <;> cases h
  rfl

/-- The response as one to a deposit. -/
def deposit? : Response → Option DepositResponse
  | deposit r => some r
  | _ => none

/-- Only the response to a deposit is read as one. -/
theorem eq_of_deposit? {response : Response} {r : DepositResponse}
    (h : response.deposit? = some r) :
    response = .deposit r := by
  cases response <;> cases h
  rfl

/-- The response as one to a withdrawal. -/
def withdrawal? : Response → Option WithdrawalResponse
  | withdrawal r => some r
  | _ => none

/-- Only the response to a withdrawal is read as one. -/
theorem eq_of_withdrawal? {response : Response} {r : WithdrawalResponse}
    (h : response.withdrawal? = some r) :
    response = .withdrawal r := by
  cases response <;> cases h
  rfl

end Response

end MiniWallet
