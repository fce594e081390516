import MiniWallet.Ledger.Actions
import MiniWallet.Process.Obedience

/-!
# Who writes what

A program writes only what its request is about: rows with the accounts, the amount and the key of
the request, and updates of the withdrawals that it settles.

* `Request.Authors`: the writes that the program of a request may make.
* `authors_program`: the program of a request makes no others.
* `Request.asks_of_authors`: so its transactions are the actions that the request asks for.
-/

namespace MiniWallet

open Numeric Bookkeeping Process Program
open Prog (obeys_pure obeys_throw obeys_perform)

/-- The writes that the program of a request may make. -/
@[simp]
def Request.Authors : Request → Write → Prop
  | _, .insert (.outbox _) => True
  | openAccount userId, .insert (.account a) => a.userId = some userId
  -- the debit leg has no key of its own
  | seed q, .insert (.ledger l) =>
      l.entryType = .seed ∧ (l.direction = .credit →
        l.accountId = q.accountId ∧ l.amount = q.amount ∧ l.idempotencyKey = some q.idempotencyKey)
  | transfer q, .insert (.transfer t) =>
      t.fromAccountId = q.fromAccountId ∧ t.toAccountId = q.toAccountId ∧ t.amount = q.amount ∧
        t.idempotencyKey = q.idempotencyKey
  | transfer _, .insert (.ledger l) => l.entryType = .transfer
  | simulateDeposit q, .insert (.deposit d) =>
      d.accountId = q.accountId ∧ d.amount = q.amount ∧ d.externalReference = q.externalReference
  | simulateDeposit _, .insert (.ledger l) => l.entryType = .deposit
  | simulateDeposit _, .setDeposit _ _ => True
  | createWithdrawal q, .insert (.withdrawal w) =>
      w.accountId = q.accountId ∧ w.amount = q.amount ∧ w.idempotencyKey = q.idempotencyKey
  -- the legs of a reversal give the same amount back to the same account
  | createWithdrawal q, .insert (.ledger l) =>
      (l.entryType = .withdrawal ∨ l.entryType = .withdrawalReversal) ∧ l.amount = q.amount ∧
        (l.entryType = .withdrawalReversal → l.direction = .credit → l.accountId = q.accountId)
  | createWithdrawal _, .setWithdrawal _ _ => True
  -- a sweep reads the amount and the account from the row that it has locked
  | recoverStuckWithdrawals _, .insert (.ledger l) => l.entryType = .withdrawalReversal
  | recoverStuckWithdrawals _, .setWithdrawal _ _ => True
  | _, _ => False

/-- The operation writes nothing but what `G` admits. -/
def Op.Writes (G : Write → Prop) : Op → Prop
  | .write w => G w
  | _ => True

section Rules

variable {G : Write → Prop} {α : Type}

/-- An operation that writes nothing. -/
theorem obeys_plain {o : Op} (h : ∀ w, o ≠ .write w) :
    (Program.perform o).Obeys (Op.Writes G) fun _ => True := by
  refine obeys_perform ?_
  cases o with
  | write w => exact absurd rfl (h w)
  | _ => trivial

/-- A sequence that begins with an operation that writes nothing. -/
theorem obeys_then {o : Op} (h : ∀ w, o ≠ .write w) {f : o.Out → Program α} {Q : α → Prop}
    (hf : ∀ a, (f a).Obeys (Op.Writes G) Q) : (Program.perform o >>= f).Obeys (Op.Writes G) Q :=
  (obeys_plain h).bind fun a _ => hf a

/-- Writes that `G` admits. -/
theorem obeys_flush {ws : List Write} (h : ∀ w ∈ ws, G w) :
    (flush ws).Obeys (Op.Writes G) fun _ => True := by
  induction ws with
  | nil => exact obeys_pure trivial
  | cons w ws ih =>
      have hw : (Program.perform (.write w)).Obeys (Op.Writes G) fun _ => True :=
        obeys_perform (h w List.mem_cons_self)
      exact hw.bind fun _ _ => ih fun w' hw' => h w' (List.mem_cons_of_mem _ hw')

/-- A block that commits at its end. -/
theorem obeys_begin {body : Program α} {Q : α → Prop} (h : body.Obeys (Op.Writes G) Q) :
    (begin body).Obeys (Op.Writes G) Q := by
  unfold begin
  refine .tryCatch (h.bind fun a ha => obeys_then (by rintro _ ⟨⟩) fun _ => obeys_pure ha)
    fun e => ?_
  exact obeys_then (by rintro _ ⟨⟩) fun _ => obeys_throw e

/-- Publishing an event writes nothing yet. -/
theorem obeys_publishEvent (topic eventType : String) (payload : EventPayload)
    (actorId : Option UUID) :
    (publishEvent topic eventType payload actorId).Obeys (Op.Writes G) fun _ => True :=
  obeys_then (by rintro _ ⟨⟩) fun _ => obeys_then (by rintro _ ⟨⟩) fun _ =>
    obeys_then (by rintro _ ⟨⟩) fun _ => obeys_pure trivial

/-- A command of the circuit breaker writes nothing. -/
theorem obeys_breaker (command : BreakerCommand) :
    (Program.perform (.breaker command)).Obeys (Op.Writes G) fun _ => True :=
  obeys_plain (by rintro _ ⟨⟩)

/-- Asking whether the cooldown has passed writes nothing. -/
theorem obeys_cooldownElapsed (cb : CircuitBreaker) :
    cb.cooldownElapsed.Obeys (Op.Writes G) fun _ => True := by
  refine (obeys_breaker .getLastFailureAt).bind fun last _ => ?_
  split
  · exact obeys_pure trivial
  · exact obeys_then (by rintro _ ⟨⟩) fun _ => obeys_pure trivial

/-- The preflight check writes nothing. -/
theorem obeys_isCallAllowed (cb : CircuitBreaker) :
    cb.isCallAllowed.Obeys (Op.Writes G) fun _ => True := by
  refine (obeys_breaker .getState).bind fun state _ => ?_
  split
  · exact obeys_pure trivial
  · exact obeys_cooldownElapsed cb
  · exact (obeys_breaker .probeExists).bind fun _ _ => obeys_pure trivial

/-- Entering the circuit breaker writes nothing. -/
theorem obeys_enter (cb : CircuitBreaker) : cb.enter.Obeys (Op.Writes G) fun _ => True := by
  have hclaimed (claimed : Bool) :
      (if claimed then pure () else throw .circuitOpen : Program Unit).Obeys (Op.Writes G)
        fun _ => True := by
    split
    · exact obeys_pure trivial
    · exact obeys_throw _
  refine (obeys_breaker .getState).bind fun state _ => ?_
  split
  · exact obeys_pure trivial
  · refine (obeys_cooldownElapsed cb).bind fun elapsed _ => ?_
    split
    · exact (obeys_breaker (.claimProbe _)).bind fun claimed _ => hclaimed claimed
    · exact obeys_throw _
  · refine (obeys_breaker .probeExists).bind fun probeActive _ => ?_
    split
    · exact obeys_throw _
    · exact (obeys_breaker (.setProbe _)).bind fun claimed _ => hclaimed claimed

/-- A call of the rail writes nothing. -/
theorem obeys_callRailOutcome (circuitBreaker : Option CircuitBreaker) (w : Withdrawal Decimal) :
    (callRailOutcome circuitBreaker w).Obeys (Op.Writes G) fun _ => True := by
  have hsend : (sendWithdrawal w.id w.amount w.destinationDetails).Obeys (Op.Writes G)
      fun _ => True := obeys_plain (by rintro _ ⟨⟩)
  unfold callRailOutcome
  refine .tryCatch (.bind (Q := fun _ => True) ?_ fun _ _ => obeys_pure trivial) fun e => ?_
  · unfold callRail
    split
    · refine (obeys_enter _).bind fun _ _ => .tryCatch (hsend.bind fun _ _ =>
        (obeys_breaker .recordSuccess).bind fun _ _ => obeys_pure trivial) fun e => ?_
      split
      · refine .bind (Q := fun _ => True) ?_ fun _ _ => obeys_throw _
        exact obeys_then (by rintro _ ⟨⟩) fun _ =>
          (obeys_breaker (.recordFailure _ _)).bind fun _ _ => obeys_pure trivial
      · exact obeys_throw _
    · exact hsend
  · -- the handler turns a rejection into a code
    split
    · exact obeys_pure trivial
    · exact obeys_throw _

end Rules

/-! ## The programs -/

section Programs

variable {sha256 : String → String}

/-- What the program of a request obeys. -/
abbrev Request.Authored (request : Request) {α : Type} (p : Program α) : Prop :=
  p.Obeys (Op.Writes request.Authors) fun _ => True

/-- The account is that of the user who asks for it. -/
theorem authors_openAccount (userId : UUID) :
    (Request.openAccount userId).Authored (openAccount userId) := by
  unfold openAccount
  refine obeys_then (by rintro _ ⟨⟩) fun _ => obeys_then (by rintro _ ⟨⟩) fun id =>
    (obeys_publishEvent _ _ _ _).bind fun event _ => .bind (Q := fun _ => True)
      (.tryCatch ((obeys_flush ?_).bind fun _ _ => obeys_plain (by rintro _ ⟨⟩)) fun e => ?_)
      fun _ _ => obeys_then (by rintro _ ⟨⟩) fun account => ?_
  · simp
  · split
    · exact obeys_then (by rintro _ ⟨⟩) fun _ => obeys_throw _
    · exact obeys_throw _
  · split
    · exact obeys_pure trivial
    · exact obeys_throw _

/-- The credit leg has the account, the amount and the key of the request. -/
theorem authors_seed (q : SeedRequest) : (Request.seed q).Authored (seed q) := by
  unfold seed
  refine obeys_then (by rintro _ ⟨⟩) fun account => ?_
  split
  · exact obeys_throw _
  · refine obeys_then (by rintro _ ⟨⟩) fun _ => obeys_then (by rintro _ ⟨⟩) fun _ =>
      obeys_then (by rintro _ ⟨⟩) fun _ => obeys_then (by rintro _ ⟨⟩) fun _ =>
        (obeys_publishEvent _ _ _ _).bind fun event _ => .bind (Q := fun _ => True)
          (.tryCatch ?_ fun e => ?_) fun _ _ => obeys_then (by rintro _ ⟨⟩) fun _ =>
            obeys_pure trivial
    · refine (obeys_flush ?_).bind fun _ _ => obeys_then (by rintro _ ⟨⟩)
        fun _ => obeys_pure trivial
      simp
    · unfold resolveSeed
      split
      · -- after a duplicate key only reads and errors follow
        refine obeys_then (by rintro _ ⟨⟩) fun _ => obeys_then (by rintro _ ⟨⟩) fun existing => ?_
        split
        · exact obeys_throw _
        · split
          · exact obeys_throw _
          · exact obeys_pure trivial
      · exact obeys_throw _

/-- Locking accounts writes nothing. -/
theorem obeys_lockAccounts {G : Write → Prop} (ids : List UUID) :
    (lockAccounts ids).Obeys (Op.Writes G) fun _ => True := by
  induction ids with
  | nil => exact obeys_pure trivial
  | cons id ids ih =>
      refine obeys_then (by rintro _ ⟨⟩) fun account => ?_
      split
      · exact obeys_throw _
      · exact ih

/-- The transfer, failed or not, has the accounts, the amount and the key of the request. -/
theorem authors_attemptTransfer (q : TransferRequest) :
    (Request.transfer q).Authored (attemptTransfer q) := by
  unfold attemptTransfer
  refine (obeys_lockAccounts _).bind fun _ _ => obeys_then (by rintro _ ⟨⟩) fun balance => ?_
  split
  · unfold recordInsufficientBalance
    refine obeys_then (by rintro _ ⟨⟩) fun _ => obeys_then (by rintro _ ⟨⟩) fun _ =>
      (obeys_publishEvent _ _ _ _).bind fun event _ => (obeys_flush ?_).bind fun _ _ =>
        obeys_then (by rintro _ ⟨⟩) fun _ => obeys_throw _
    simp
  · unfold recordTransfer
    refine obeys_then (by rintro _ ⟨⟩) fun _ => obeys_then (by rintro _ ⟨⟩) fun _ =>
      obeys_then (by rintro _ ⟨⟩) fun _ => obeys_then (by rintro _ ⟨⟩) fun _ =>
        obeys_then (by rintro _ ⟨⟩) fun _ => (obeys_publishEvent _ _ _ _).bind fun event _ =>
          (obeys_flush ?_).bind fun _ _ => obeys_then (by rintro _ ⟨⟩) fun _ => obeys_pure trivial
    simp

/-- The handler of a refused transfer writes nothing more. -/
theorem authors_transfer (q : TransferRequest) :
    (Request.transfer q).Authored (transfer sha256 q) := by
  unfold transfer
  refine obeys_then (by rintro _ ⟨⟩) fun cached => ?_
  split
  · -- an entry in Redis is returned or refused without a write
    split
    · exact obeys_throw _
    · unfold CacheEntry.transferResponse
      split
      · exact obeys_pure trivial
      · exact obeys_throw _
  · refine .bind (Q := fun _ => True) (.tryCatch (authors_attemptTransfer q) fun e => ?_) fun _ _ =>
      obeys_then (by rintro _ ⟨⟩) fun _ => obeys_pure trivial
    unfold resolveTransfer
    -- the handler of the unique key only reads what the first request has left
    split
    · refine obeys_then (by rintro _ ⟨⟩) fun _ => ?_
      split
      · refine obeys_then (by rintro _ ⟨⟩) fun existing => ?_
        split
        · exact obeys_throw _
        · split
          · exact obeys_throw _
          · split
            · exact obeys_throw _
            · exact obeys_pure trivial
      · exact obeys_throw _
    · exact obeys_throw _

/-- The deposit is the one that the webhook announces. -/
theorem authors_simulateDeposit (q : DepositRequest) :
    (Request.simulateDeposit q).Authored (simulateDeposit q) := by
  unfold simulateDeposit
  refine obeys_then (by rintro _ ⟨⟩) fun at_ => obeys_then (by rintro _ ⟨⟩) fun id =>
    .bind (Q := fun _ => True) ?_ fun existing _ => ?_
  · -- the row of the deposit is the only one of this transaction
    unfold insertDeposit
    refine .tryCatch (.bind (Q := fun _ => True) (obeys_perform ?_) fun _ _ => obeys_pure trivial)
      fun e => ?_
    · simp [Op.Writes]
    · split
      · refine obeys_then (by rintro _ ⟨⟩) fun _ => ?_
        split
        · refine obeys_then (by rintro _ ⟨⟩) fun existing => ?_
          split
          · exact obeys_pure trivial
          · exact obeys_throw _
        · exact obeys_throw _
      · exact obeys_throw _
  · split
    · exact obeys_pure trivial
    · refine .bind (Q := fun _ => True) ?_ fun reason _ => ?_
      · -- the reason for a rejection is found without a write
        unfold validateDeposit
        split
        · exact obeys_pure trivial
        · refine obeys_then (by rintro _ ⟨⟩) fun account => ?_
          split
          · exact obeys_pure trivial
          · split
            · exact obeys_pure trivial
            · exact obeys_pure trivial
      · split
        · -- what follows is written about the deposit that was inserted
          unfold rejectDeposit
          refine (obeys_publishEvent _ _ _ _).bind fun event _ => (obeys_flush ?_).bind fun _ _ =>
            obeys_then (by rintro _ ⟨⟩) fun _ => obeys_pure trivial
          simp
        · unfold completeDeposit
          refine obeys_then (by rintro _ ⟨⟩) fun _ => obeys_then (by rintro _ ⟨⟩) fun _ =>
            obeys_then (by rintro _ ⟨⟩) fun _ => (obeys_publishEvent _ _ _ _).bind fun event _ =>
              (obeys_flush ?_).bind fun _ _ => obeys_then (by rintro _ ⟨⟩) fun _ =>
                obeys_pure trivial
          simp

/-! ### Withdrawals -/

/-- The object of a withdrawal that a request is about. -/
def WithdrawalRequest.About (q : WithdrawalRequest) (w : Withdrawal Decimal) : Prop :=
  w.accountId = q.accountId ∧ w.amount = q.amount

/-- Submitting a withdrawal leaves it the one that was asked for. -/
theorem authors_submitWithdrawal (q : WithdrawalRequest) {w : Withdrawal Decimal}
    (hw : q.About w) : (submitWithdrawal w).Obeys (Op.Writes (Request.createWithdrawal q).Authors)
      q.About := by
  refine obeys_begin (obeys_then (by rintro _ ⟨⟩) fun _ => obeys_then (by rintro _ ⟨⟩) fun _ =>
    (obeys_flush ?_).bind fun _ _ => obeys_pure hw)
  simp

/-- Completing a withdrawal writes its update and its event. -/
theorem authors_completeWithdrawal (q : WithdrawalRequest) (w : Withdrawal Decimal)
    (reference : String) (actorUserId : Option UUID) :
    (Request.createWithdrawal q).Authored (completeWithdrawal w reference actorUserId) := by
  refine obeys_begin (obeys_then (by rintro _ ⟨⟩) fun _ =>
    (obeys_publishEvent _ _ _ _).bind fun event _ => obeys_then (by rintro _ ⟨⟩) fun _ =>
      (obeys_flush ?_).bind fun _ _ => obeys_pure trivial)
  simp

/-- The amount of a compensation is that of the request, and it goes back to its account. -/
theorem authors_compensateWithdrawal (q : WithdrawalRequest) {w : Withdrawal Decimal}
    (hw : q.About w) (code : String) (actorUserId : Option UUID) :
    (Request.createWithdrawal q).Authored (compensateWithdrawal w code actorUserId) := by
  refine obeys_then (by rintro _ ⟨⟩) fun _ => obeys_begin (obeys_then (by rintro _ ⟨⟩) fun _ =>
    obeys_then (by rintro _ ⟨⟩) fun _ => obeys_then (by rintro _ ⟨⟩) fun _ =>
      (obeys_publishEvent _ _ _ _).bind fun event _ => obeys_then (by rintro _ ⟨⟩) fun _ =>
        (obeys_flush ?_).bind fun _ _ => obeys_pure trivial)
  simp [hw.1, hw.2]

/-- The amount of a reservation is that of the request. -/
theorem authors_reserveFunds (q : WithdrawalRequest) (w : Withdrawal Decimal) (at_ : Time) :
    (Request.createWithdrawal q).Authored (reserveFunds q w at_) := by
  refine obeys_then (by rintro _ ⟨⟩) fun _ => obeys_then (by rintro _ ⟨⟩) fun _ =>
    obeys_then (by rintro _ ⟨⟩) fun _ => (obeys_publishEvent _ _ _ _).bind fun event _ =>
      (obeys_flush ?_).bind fun _ _ => obeys_plain (by rintro _ ⟨⟩)
  simp

/-- The withdrawal has the account, the amount and the key of the request. -/
theorem authors_insertWithdrawal {q : WithdrawalRequest} {w : Withdrawal Decimal} (hw : q.About w)
    (hkey : w.idempotencyKey = q.idempotencyKey) :
    (Request.createWithdrawal q).Authored (insertWithdrawal q w) := by
  unfold insertWithdrawal
  refine .tryCatch (.bind (Q := fun _ => True) (obeys_perform ?_) fun _ _ => obeys_pure trivial)
    fun e => ?_
  · exact ⟨hw.1, hw.2, hkey⟩
  · split
    · refine obeys_then (by rintro _ ⟨⟩) fun _ => obeys_then (by rintro _ ⟨⟩) fun existing => ?_
      split
      · exact obeys_pure trivial
      · exact obeys_throw _
    · exact obeys_throw _

/-- The saga writes only what the withdrawal that was asked for needs. -/
theorem authors_runSaga (q : WithdrawalRequest) {w : Withdrawal Decimal} (hw : q.About w) :
    (Request.createWithdrawal q).Authored (runSaga sha256 q w) := by
  refine obeys_then (by rintro _ ⟨⟩) fun _ => (authors_submitWithdrawal q hw).bind
    fun submitted hsubmitted => (obeys_callRailOutcome _ _).bind fun outcome _ => ?_
  split
  · exact (authors_compensateWithdrawal q hsubmitted _ _).bind fun _ _ => obeys_pure trivial
  · exact (authors_completeWithdrawal q _ _ _).bind fun _ _ => obeys_pure trivial

/-- A request for a withdrawal writes about this withdrawal only. -/
theorem authors_createWithdrawal (q : WithdrawalRequest) :
    (Request.createWithdrawal q).Authored (createWithdrawal sha256 q) := by
  unfold createWithdrawal
  refine obeys_then (by rintro _ ⟨⟩) fun cached => ?_
  split
  · -- an entry in Redis is returned or refused without a write
    split
    · exact obeys_throw _
    · unfold CacheEntry.withdrawalResponse
      split
      · exact obeys_pure trivial
      · exact obeys_throw _
  · -- the checks before the first write
    unfold startWithdrawal
    split
    · exact obeys_throw _
    · refine obeys_then (by rintro _ ⟨⟩) fun account => ?_
      split
      · exact obeys_throw _
      · refine obeys_then (by rintro _ ⟨⟩) fun balance => ?_
        split
        · exact obeys_throw _
        · -- the reservation and the rest of the saga carry the key of the request
          refine obeys_then (by rintro _ ⟨⟩) fun at_ => obeys_then (by rintro _ ⟨⟩) fun id =>
            (authors_insertWithdrawal ⟨rfl, rfl⟩ rfl).bind fun existing _ => ?_
          split
          · exact obeys_pure trivial
          · exact (authors_reserveFunds q _ _).bind fun _ _ => authors_runSaga q ⟨rfl, rfl⟩

/-! ### Recovery -/

namespace SagaRecovery

variable {cb : CircuitBreaker}

/-- The compensation of the sweep writes reversal legs, an update and an event. -/
theorem authors_compensate (w : Withdrawal Decimal) (code : String) :
    (Request.recoverStuckWithdrawals cb).Authored (compensate w code) := by
  refine obeys_then (by rintro _ ⟨⟩) fun _ => obeys_then (by rintro _ ⟨⟩) fun _ =>
    obeys_then (by rintro _ ⟨⟩) fun _ => obeys_then (by rintro _ ⟨⟩) fun _ =>
      (obeys_publishEvent _ _ _ _).bind fun event _ => obeys_then (by rintro _ ⟨⟩) fun _ =>
        obeys_flush ?_
  simp

/-- The completion of the sweep writes an update and an event. -/
theorem authors_complete (w : Withdrawal Decimal) (reference : String) :
    (Request.recoverStuckWithdrawals cb).Authored (complete w reference) := by
  refine obeys_then (by rintro _ ⟨⟩) fun _ => (obeys_publishEvent _ _ _ _).bind fun event _ =>
    obeys_then (by rintro _ ⟨⟩) fun _ => obeys_flush ?_
  simp

/-- A pending withdrawal is completed or compensated, or left alone. -/
theorem authors_recoverPending (w : Withdrawal Decimal) :
    (Request.recoverStuckWithdrawals cb).Authored (recoverPending cb w) := by
  refine (obeys_isCallAllowed cb).bind fun allowed _ => ?_
  split
  · refine obeys_then (by rintro _ ⟨⟩) fun _ => obeys_then (by rintro _ ⟨⟩) fun _ =>
      (obeys_flush ?_).bind fun _ _ => (obeys_callRailOutcome _ _).bind fun outcome _ => ?_
    · simp
    · split
      · exact authors_complete _ _
      · exact authors_compensate _ _
  · exact authors_compensate _ _

/-- So is a submitted one. -/
theorem authors_recoverSubmitted (w : Withdrawal Decimal) :
    (Request.recoverStuckWithdrawals cb).Authored (recoverSubmitted w) := by
  have hquery (reference : String) :
      (Request.recoverStuckWithdrawals cb).Authored (tryQueryStatus reference) :=
    .tryCatch (obeys_then (by rintro _ ⟨⟩) fun _ => obeys_pure trivial) fun _ => obeys_pure trivial
  have htimeout (cutoff : Time) : (Request.recoverStuckWithdrawals cb).Authored
      (if w.updatedAt < cutoff then compensate w "TIMEOUT" else pure () : Program Unit) := by
    split
    · exact authors_compensate _ _
    · exact obeys_pure trivial
  unfold recoverSubmitted
  refine obeys_then (by rintro _ ⟨⟩) fun _ => ?_
  split
  · refine (hquery _).bind fun status _ => ?_
    split
    · split
      · exact authors_complete _ _
      · split
        · exact authors_compensate _ _
        · exact obeys_pure trivial
    · exact htimeout _
  · exact htimeout _

/-- Resolving one withdrawal writes about it at most once. -/
theorem authors_resolveOne (id : UUID) :
    (Request.recoverStuckWithdrawals cb).Authored (resolveOne cb id) := by
  refine obeys_begin (obeys_then (by rintro _ ⟨⟩) fun row => ?_)
  split
  · exact obeys_pure trivial
  · split
    · exact authors_recoverPending _
    · exact authors_recoverSubmitted _
    · exact obeys_pure trivial
    · exact obeys_pure trivial

/-- Resolving a batch writes nothing else. -/
theorem authors_resolveAll (ids : List UUID) :
    (Request.recoverStuckWithdrawals cb).Authored (resolveAll cb ids) := by
  induction ids with
  | nil => exact obeys_pure trivial
  | cons id ids ih =>
      exact .bind (.tryCatch (authors_resolveOne id) fun _ => obeys_pure trivial) fun _ _ => ih

/-- The sweep inserts legs of reversals only. -/
theorem authors_recoverStuckWithdrawals :
    (Request.recoverStuckWithdrawals cb).Authored (recoverStuckWithdrawals cb) :=
  obeys_then (by rintro _ ⟨⟩) fun _ =>
    (obeys_begin (obeys_plain (by rintro _ ⟨⟩))).bind fun ids _ => authors_resolveAll ids

end SagaRecovery

/-- The program of a request writes only what the request is about. -/
theorem authors_program (request : Request) : request.Authored (request.program sha256) := by
  -- a route that looks a record up writes nothing
  have hget {α β : Type} {o : Op} {f : o.Out → Program α} {g : α → β} (h : ∀ w, o ≠ .write w)
      (hf : ∀ a, request.Authored (f a)) :
      request.Authored ((Program.perform o >>= f) >>= fun a => pure (g a)) :=
    (obeys_then h hf).bind fun _ _ => obeys_pure trivial
  cases request with
  | openAccount userId => exact (authors_openAccount userId).bind fun _ _ => obeys_pure trivial
  | seed q => exact (authors_seed q).bind fun _ _ => obeys_pure trivial
  | transfer q => exact (authors_transfer q).bind fun _ _ => obeys_pure trivial
  | simulateDeposit q => exact (authors_simulateDeposit q).bind fun _ _ => obeys_pure trivial
  | createWithdrawal q => exact (authors_createWithdrawal q).bind fun _ _ => obeys_pure trivial
  | recoverStuckWithdrawals cb =>
      exact SagaRecovery.authors_recoverStuckWithdrawals.bind fun _ _ => obeys_pure trivial
  | getTransfer id account | getDeposit id account | getWithdrawal id account =>
      refine hget (by rintro _ ⟨⟩) fun record => ?_
      split
      · exact obeys_throw _
      · split
        · exact obeys_throw _
        · exact obeys_pure trivial

end Programs

/-! ## The actions of a request -/

/-- A transaction that consists of writes that a request may make is an action that the request asks
for. -/
theorem Request.asks_of_authors {request : Request} {σ : Session} {T : Transaction}
    (hT : Justified σ T) (hwrites : ∀ w ∈ T.writes, request.Authors w) {action : BankAction}
    (haction : T.action = some action) : request.Asks action := by
  cases hT with
  | @opened a event _ huser =>
      obtain ⟨userId, huser⟩ := Option.isSome_iff_exists.mp huser
      simp only [Transaction.action, huser, Option.map_some, Option.some.injEq] at haction
      subst haction
      have h := hwrites (.insert (.account a)) (by simp [Transaction.writes])
      clear hwrites
      cases request <;> simp_all [Authors, Asks]
  | @seeded e event _ hkind _ _ _ hcredit =>
      obtain ⟨key, hkey⟩ := Option.isSome_iff_exists.mp hcredit
      simp only [Transaction.action, hkey, Option.map_some, Option.some.injEq] at haction
      subst haction
      -- the credit leg says what the seed is
      have h := hwrites (.insert (.ledger e.credit)) (by simp [Transaction.writes])
      have hkind' := e.double.credit_kind.trans hkind
      have hdirection := e.double.credit_direction
      have haccount := e.double.credit_account
      have hamount := e.double.credit_amount
      clear hwrites
      cases request <;> simp_all [Authors, Asks, Entry.map, Movement.map]
  | @transferFailed t event =>
      cases haction
      have h := hwrites (.insert (.transfer t)) (by simp [Transaction.writes])
      clear hwrites
      cases request <;> simp_all [Authors, Asks]
  | @transferred t e event =>
      cases haction
      have h := hwrites (.insert (.transfer t)) (by simp [Transaction.writes])
      clear hwrites
      cases request <;> simp_all [Authors, Asks, Transfer.map]
  | @depositRejected d set event =>
      cases haction
      have h := hwrites (.insert (.deposit d)) (by simp [Transaction.writes])
      clear hwrites
      cases request <;> simp_all [Authors, Asks]
  | @deposited d e set event =>
      cases haction
      have h := hwrites (.insert (.deposit d)) (by simp [Transaction.writes])
      clear hwrites
      cases request <;> simp_all [Authors, Asks, Deposit.map]
  | @reserved w e event =>
      cases haction
      have h := hwrites (.insert (.withdrawal w)) (by simp [Transaction.writes])
      clear hwrites
      cases request <;> simp_all [Authors, Asks, Withdrawal.map]
  | @compensated w e set event _ _ _ _ _ hrev
  | @recoveredCompensated row before e set event _ _ _ hrev =>
      cases haction
      have h := hwrites (.insert (.ledger e.credit)) (by simp [Transaction.writes])
      have hkind : e.credit.entryType = .withdrawalReversal :=
        e.double.credit_kind.trans (by rw [hrev.1]; rfl)
      have hdirection := e.double.credit_direction
      have haccount := e.double.credit_account
      have hamount := e.double.credit_amount
      clear hwrites hrev
      cases request <;> simp_all [Authors, Asks, Entry.map, Movement.map]
  | _ => cases haction

end MiniWallet
