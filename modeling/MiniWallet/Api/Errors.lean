import MiniWallet.Server.Operations
import MiniWallet.Services.Auth

/-!
# Errors of the API

The domain errors with their statuses, codes and messages, and how every exception that a handler
can raise is answered.

* `MiniBankError`: the domain errors, of which each has its own answer.
* `ApiExc.answer`: the answer to an exception. What is no domain error and no validation error is
  answered with status 500 and tells nothing.
-/

namespace MiniWallet

/-- The subclasses of `MiniBankError` that the handlers and their services raise. -/
inductive MiniBankError
  | emailAlreadyExists
  | invalidCredentials
  | invalidRefreshToken
  | unauthorized
  | accountAlreadyExists
  | accountNotFound
  | userNotFound
  | transferNotFound
  | insufficientBalance
  | sameAccount
  | idempotencyConflict
  | idempotencyKeyConsumed
  | forbidden
  | depositNotFound
  | withdrawalNotFound
  | bankRailUnavailable
deriving DecidableEq, Repr

namespace MiniBankError

/-- `status_code`. -/
def statusCode : MiniBankError → ℕ
  | emailAlreadyExists | accountAlreadyExists | idempotencyConflict | idempotencyKeyConsumed => 409
  | invalidCredentials | invalidRefreshToken | unauthorized => 401
  | accountNotFound | userNotFound | transferNotFound | depositNotFound | withdrawalNotFound => 404
  | insufficientBalance | sameAccount => 422
  | forbidden => 403
  | bankRailUnavailable => 503

/-- `error_code`. -/
def errorCode : MiniBankError → String
  | emailAlreadyExists => "EMAIL_ALREADY_EXISTS"
  | invalidCredentials => "INVALID_CREDENTIALS"
  | invalidRefreshToken => "INVALID_REFRESH_TOKEN"
  | unauthorized => "UNAUTHORIZED"
  | accountAlreadyExists => "ACCOUNT_ALREADY_EXISTS"
  | accountNotFound | userNotFound | transferNotFound | depositNotFound | withdrawalNotFound =>
      "NOT_FOUND"
  | insufficientBalance => "INSUFFICIENT_BALANCE"
  | sameAccount => "SAME_ACCOUNT"
  | idempotencyConflict => "IDEMPOTENCY_CONFLICT"
  | idempotencyKeyConsumed => "IDEMPOTENCY_KEY_CONSUMED"
  | forbidden => "FORBIDDEN"
  | bankRailUnavailable => "BANK_RAIL_UNAVAILABLE"

/-- `message`. -/
def message : MiniBankError → String
  | emailAlreadyExists => "Email already registered"
  | invalidCredentials => "Invalid email or password"
  | invalidRefreshToken => "Refresh token invalid or expired"
  | unauthorized => "Invalid or expired token"
  | accountAlreadyExists => "User already has an account"
  | accountNotFound => "Account not found"
  | userNotFound => "User not found"
  | transferNotFound => "Transfer not found"
  | insufficientBalance => "Insufficient balance"
  | sameAccount => "Cannot transfer to yourself"
  | idempotencyConflict => "Same idempotency key used with different request parameters"
  | idempotencyKeyConsumed =>
      "This idempotency key was used for a previous failed request. Generate a new key to retry."
  | forbidden => "Dev endpoints not available in this environment"
  | depositNotFound => "Deposit not found"
  | withdrawalNotFound => "Withdrawal not found"
  | bankRailUnavailable => "Bank rail is temporarily unavailable. Please retry later."

end MiniBankError

/-- The exceptions of the services of the wallet that are domain errors. -/
def Exc.miniBankError? : Exc → Option MiniBankError
  | .accountNotFound => some .accountNotFound
  | .accountAlreadyExists => some .accountAlreadyExists
  | .idempotencyConflict => some .idempotencyConflict
  | .idempotencyKeyConsumed => some .idempotencyKeyConsumed
  | .insufficientBalance => some .insufficientBalance
  | .transferNotFound => some .transferNotFound
  | .depositNotFound => some .depositNotFound
  | .withdrawalNotFound => some .withdrawalNotFound
  | _ => none

/-- The exceptions of the auth service that are domain errors. -/
def AuthExc.miniBankError? : AuthExc → Option MiniBankError
  | .invalidCredentials => some .invalidCredentials
  | .invalidRefreshToken => some .invalidRefreshToken
  | .redisError | .operationalError => none

/-- A field that was refused, with the reason. -/
structure FieldError where
  field : String
  message : String
deriving DecidableEq, Repr

/-- The exceptions of the handlers. -/
inductive ApiExc
  /-- A domain error. -/
  | miniBank (e : MiniBankError)
  /-- `RequestValidationError`. -/
  | validation (details : List FieldError)
  /-- `HTTPException`, with a code and a message as its detail. -/
  | http (statusCode : ℕ) (code message : String)
  /-- A text that is no UUID. -/
  | valueError
  /-- A text that is no decimal number. -/
  | invalidOperation
  /-- A value that the database does not take. -/
  | dataError
  /-- A row violates a constraint. -/
  | integrityError
  /-- The answer does not have the shape that the route declares. -/
  | responseValidation
  /-- What a service of the wallet lets through. -/
  | wallet (e : Exc)
  /-- What the auth service lets through. -/
  | auth (e : AuthExc)
  /-- The connection to Postgres is lost. -/
  | operationalError
deriving DecidableEq, Repr

/-- The answer to a request that has failed. -/
inductive ErrorAnswer
  /-- The envelope of the domain errors and of the validation errors. -/
  | error (statusCode : ℕ) (code message : String) (details : List FieldError)
  /-- The envelope of `HTTPException`. -/
  | detail (statusCode : ℕ) (code message : String)
  /-- Status 500. -/
  | internal
deriving DecidableEq, Repr

/-- `_minibank_error_handler`. -/
def MiniBankError.answer (e : MiniBankError) : ErrorAnswer :=
  .error e.statusCode e.errorCode e.message []

/-- The answer to an exception: those of `_minibank_error_handler` and `_validation_error_handler`,
and those of the framework. -/
def ApiExc.answer : ApiExc → ErrorAnswer
  | miniBank e => e.answer
  | validation details => .error 422 "VALIDATION_ERROR" "Request validation failed" details
  | http statusCode code message => .detail statusCode code message
  | wallet e => e.miniBankError?.elim .internal MiniBankError.answer
  | auth e => e.miniBankError?.elim .internal MiniBankError.answer
  | valueError | invalidOperation | dataError | integrityError | responseValidation
  | operationalError => .internal

end MiniWallet
