import MiniWallet.Api.Errors
import MiniWallet.Python.Numbers
import MiniWallet.Services.Deposit

/-!
# Bodies of requests

The bodies that the routes accept, with the validators of their fields. The types of the fields are
those that the framework has checked already.

* `Check`: what a validator finds.
* `validated`: the checks of a request together. A `ValueError` becomes the error of its field, and
  the errors of all fields are reported; any other exception passes through.
-/

namespace MiniWallet

open Numeric

/-- What a validator does with a value. -/
inductive Check
  | accepted
  /-- It raises `ValueError`. -/
  | valueError (message : String)
  /-- It raises `InvalidOperation`, which is no `ValueError`. -/
  | invalidOperation
deriving DecidableEq, Repr

/-- The error of a field that a check refuses. -/
def Check.error? (field : String) : Check → Option FieldError
  | accepted | invalidOperation => none
  | valueError message => some ⟨field, "Value error, " ++ message⟩

/-- The checks of a request, each with its field, after those that the framework makes itself. -/
def validated (missing : List FieldError) (checks : List (String × Check)) : Except ApiExc Unit :=
  if .invalidOperation ∈ checks.map Prod.snd then .error .invalidOperation
  else
    match missing ++ checks.filterMap fun c => c.2.error? c.1 with
    | [] => .ok ()
    | details => .error (.validation details)

/-- `validate_amount`. A text that is no number and a NaN raise `InvalidOperation`; an infinity is
compared with 0 like a finite number. -/
def validateAmount (v : String) : Check :=
  match Python.decimal (Python.codePoints v) with
  | some d => if d.Nonpositive then .valueError "amount must be positive" else .accepted
  | none =>
      match Python.infinity (Python.codePoints v) with
      | some true => .valueError "amount must be positive"
      | some false => .accepted
      | none => .invalidOperation

example : validateAmount " 1_0.5 " = .accepted := by decide +kernel

example : validateAmount "Infinity" = .accepted := by decide +kernel

example : validateAmount "NaN" = .invalidOperation := by decide +kernel

namespace Schemas

/-- The body of `POST /auth/register`. -/
structure RegisterRequest where
  email : String
  password : String

/-- The body of `POST /auth/login`. -/
structure LoginRequest where
  email : String
  password : String

/-- The body of `POST /auth/refresh`. -/
structure RefreshRequest where
  refreshToken : String

/-- The body of `POST /dev/seed`. -/
structure SeedRequest where
  accountId : String
  amount : String

/-- The body of `POST /transfers`. -/
structure TransferRequest where
  toEmail : Option String := none
  toAccountId : Option String := none
  amount : String

/-- The body of `POST /withdrawals`. -/
structure WithdrawalRequest where
  amount : String
  currency : String := "USD"
  destinationType : String
  destinationDetails : Json

/-- The body of `POST /dev/simulate-deposit`. -/
structure SimulateDepositRequest where
  accountId : String
  amount : String
  currency : String := "USD"
  sourceType : String
  externalReference : String

/-- `validate_password`. -/
def validatePassword (v : String) : Check :=
  if v.length < 8 then .valueError "Password must be at least 8 characters" else .accepted

/-- `validate_source_type`. -/
def validateSourceType (v : String) : Check :=
  if v ∈ allowedSourceTypes then .accepted
  else .valueError "source_type must be one of: ['bank_transfer', 'card_topup', 'direct_debit']"

/-- `_ALLOWED_DESTINATION_TYPES`. -/
def allowedDestinationTypes : List String := ["bank_transfer", "card_withdrawal"]

/-- `validate_destination_type`. -/
def validateDestinationType (v : String) : Check :=
  if v ∈ allowedDestinationTypes then .accepted
  else .valueError "destination_type must be one of: ['bank_transfer', 'card_withdrawal']"

/-- The checks of a seed. -/
def SeedRequest.checks (body : SeedRequest) : List (String × Check) :=
  [("amount", validateAmount body.amount)]

/-- The checks of a transfer. -/
def TransferRequest.checks (body : TransferRequest) : List (String × Check) :=
  [("amount", validateAmount body.amount)]

/-- The checks of a withdrawal. -/
def WithdrawalRequest.checks (body : WithdrawalRequest) : List (String × Check) :=
  [("amount", validateAmount body.amount),
    ("destination_type", validateDestinationType body.destinationType)]

/-- The checks of a simulated deposit. -/
def SimulateDepositRequest.checks (body : SimulateDepositRequest) : List (String × Check) :=
  [("amount", validateAmount body.amount), ("source_type", validateSourceType body.sourceType)]

end Schemas

/-- What the answer to a request that has succeeded carries. -/
inductive Data
  | registered (userId email : String)
  | tokens (tokens : TokenResponse)
  | user (userId email : String)
  | account (accountId userId status balance : String) (createdAt : Time)
  | summary (accountId status balance : String) (createdAt : Time)
  | balance (accountId balance : String) (asOf : Time)
  | seed (response : SeedResponse)
  | transfer (response : TransferResponse)
  | deposit (response : DepositResponse)
  | withdrawal (response : WithdrawalResponse)

/-- The answer to a request. -/
inductive Answer
  | data (statusCode : ℕ) (data : Data)
  | failed (answer : ErrorAnswer)

end MiniWallet
