import MiniWallet.App

/-!
# Envelopes

What the programs of the wallet put around the payloads of their events. The time in an envelope is
one that the process has read from the clock, so it has every property `T` of the times that can be
read; the actor is a user or nobody. The texts of a payload that no table checks are constants.

* `envelopes T`: the contract that every event that is written has such an envelope.
* `enveloped_program`: every program of the wallet keeps it.
-/

namespace MiniWallet

open Numeric Process Program

/-- The texts of a payload that no table checks. -/
def EventPayload.constants : EventPayload → List String
  | accountOpened p => [p.status]
  | depositRejected p => [p.rejectionReason]
  | _ => []

/-- The event has an envelope of the wallet, with a time in `T`. -/
structure OutboxRow.Enveloped (T : Time → Prop) (event : OutboxRow) : Prop where
  version : event.payload.version = "1"
  actorId : ∃ actor : Option UUID, event.payload.actorId = actor.map UUID.str
  occurredAt : T event.payload.occurredAt
  constants : ∀ s ∈ event.payload.payload.constants, hasNull s = false

/-- A write is no event, or the event has an envelope of the wallet. -/
def Write.Enveloped (T : Time → Prop) : Write → Prop
  | .insert (.outbox event) => event.Enveloped T
  | _ => True

/-- The events that a process writes have envelopes of the wallet, if the times that it reads are
in `T`. -/
def envelopes (T : Time → Prop) : Contract Op Op.Out Exc Session where
  guard
    | .write w, _ => w.Enveloped T
    | _, _ => True
  possible
    | .now, .ok t, _ => T t
    | _, _, _ => True

/-- The operation inserts or updates a row. -/
def Op.isWrite : Op → Bool
  | .write _ => true
  | _ => false

/-- Whatever its session is, the program keeps the contract, and what it returns satisfies `Q`. -/
def Yields (T : Time → Prop) {α : Type} (p : Program α) (Q : α → Prop) : Prop :=
  ∀ σ, (envelopes T).wp after p (fun a _ => Q a) (fun _ _ => True) σ

/-- No condition on the result. -/
def Whatever {α : Type} : α → Prop := fun _ => True

section Rules

variable {T : Time → Prop} {α β : Type} {p : Program α} {f : α → Program β} {Q : α → Prop}
  {R : β → Prop}

/-- Returning a value that satisfies the condition. -/
theorem yields_pure {a : α} (h : Q a) : Yields T (pure a : Program α) Q :=
  fun _ => (Contract.wp_pure _ _ _).mpr h

/-- A program that raises yields nothing. -/
theorem yields_throw (e : Exc) : Yields T (throw e : Program α) Q :=
  fun _ => (Contract.wp_throw _ _ _).mpr trivial

/-- What follows may rely on what the first program yields. -/
theorem Yields.bind (hp : Yields T p Q) (hf : ∀ a, Q a → Yields T (f a) R) :
    Yields T (p >>= f) R := fun σ =>
  (Contract.wp_bind _ _ _ _).mpr
    (Contract.wp_mono _ _ (fun a σ' ha => hf a ha σ') (fun _ _ h => h) (hp σ))

/-- A result may be described more weakly. -/
theorem Yields.mono (hp : Yields T p Q) {Q' : α → Prop} (hQ : ∀ a, Q a → Q' a) : Yields T p Q' :=
  fun σ => Contract.wp_mono _ _ (fun a _ ha => hQ a ha) (fun _ _ h => h) (hp σ)

/-- A handler has to yield what the body does. -/
theorem Yields.tryCatch {h : Exc → Program α} (hp : Yields T p Q) (hh : ∀ e, Yields T (h e) Q) :
    Yields T (tryCatch p h) Q := fun σ =>
  Contract.wp_tryCatch_of_forall _ _ (hp σ) fun e σ' => hh e σ'

/-- An operation that does not write an event. -/
theorem yields_perform {o : Op} (h : ∀ σ, (envelopes T).guard o σ) :
    Yields T (perform o) Whatever := fun σ =>
  (Contract.wp_perform _ _ o).mpr ⟨h σ, fun _ _ => trivial, fun _ _ => trivial⟩

/-- An operation that writes nothing. -/
theorem yields_plain {o : Op} (h : o.isWrite = false) : Yields T (perform o) Whatever := by
  refine yields_perform fun σ => ?_
  cases o with
  | write w => cases h
  | _ => trivial

/-- A time that is read is in `T`. -/
theorem yields_now : Yields T now T := fun _ =>
  (Contract.wp_perform _ _ Op.now).mpr ⟨trivial, fun _ ht => ht, fun _ _ => trivial⟩

/-- A block that commits at its end. -/
theorem yields_begin {body : Program α} (h : Yields T body Q) : Yields T (begin body) Q := by
  unfold begin
  exact .tryCatch (.bind h fun a ha => .bind (yields_plain rfl) fun _ _ => yields_pure ha) fun e =>
    .bind (yields_plain rfl) fun _ _ => yields_throw e

/-- Writes that have their envelopes. -/
theorem yields_flush {ws : List Write} (h : ∀ w ∈ ws, w.Enveloped T) :
    Yields T (flush ws) Whatever := by
  induction ws with
  | nil => exact yields_pure trivial
  | cons w ws ih =>
      exact .bind (yields_perform fun _ => h w List.mem_cons_self) fun _ _ =>
        ih fun w' hw' => h w' (List.mem_cons_of_mem _ hw')

/-- Publishing an event puts an envelope around it. -/
theorem yields_publishEvent {topic eventType : String} {payload : EventPayload}
    {actorId : Option UUID} (h : ∀ s ∈ payload.constants, hasNull s = false) :
    Yields T (publishEvent topic eventType payload actorId) (OutboxRow.Enveloped T) :=
  .bind (yields_plain rfl) fun _ _ => .bind yields_now fun _ ht =>
    .bind (yields_plain rfl) fun _ _ => yields_pure ⟨rfl, ⟨actorId, rfl⟩, ht, h⟩

end Rules

/-! ## The programs -/

section Programs

variable {T : Time → Prop} {sha256 : String → String}

/-- The event of an opened account has an envelope. -/
theorem yields_openAccount (userId : UUID) : Yields T (openAccount userId) Whatever := by
  unfold openAccount
  refine .bind yields_now fun _ _ => .bind (yields_plain rfl) fun id _ =>
    .bind (yields_publishEvent ?_) fun event hevent =>
      .bind (Q := Whatever) (.tryCatch (.bind (yields_flush ?_) fun _ _ => yields_plain rfl)
        fun e => ?_) fun _ _ => .bind (yields_plain rfl) fun account _ => ?_
  · have hactive : hasNull "active" = false := by decide +kernel
    simp [EventPayload.constants, hactive]
  · simp [Write.Enveloped, hevent]
  · split
    · exact .bind (yields_plain rfl) fun _ _ => yields_throw _
    · exact yields_throw _
  · split
    · exact yields_pure trivial
    · exact yields_throw _

/-- The event of a seed has an envelope. -/
theorem yields_seed (q : SeedRequest) : Yields T (seed q) Whatever := by
  unfold seed
  refine .bind (yields_plain rfl) fun account _ => ?_
  split
  · exact yields_throw _
  · refine .bind yields_now fun _ _ => .bind (yields_plain rfl) fun _ _ =>
      .bind (yields_plain rfl) fun _ _ => .bind (yields_plain rfl) fun _ _ =>
        .bind (yields_publishEvent ?_) fun event hevent =>
          .bind (Q := Whatever) (.tryCatch ?_ fun e => ?_) fun _ _ =>
            .bind (yields_plain rfl) fun _ _ => yields_pure trivial
    · exact fun s hs => nomatch hs
    · refine .bind (yields_flush ?_) fun _ _ => .bind (yields_plain rfl) fun _ _ =>
        yields_pure trivial
      simp [Write.Enveloped, hevent]
    · unfold resolveSeed
      split
      · refine .bind (yields_plain rfl) fun _ _ => .bind (yields_plain rfl) fun existing _ => ?_
        split
        · exact yields_throw _
        · split
          · exact yields_throw _
          · exact yields_pure trivial
      · exact yields_throw _

/-- Locking accounts writes no event. -/
theorem yields_lockAccounts (ids : List UUID) : Yields T (lockAccounts ids) Whatever := by
  induction ids with
  | nil => exact yields_pure trivial
  | cons id ids ih =>
      refine .bind (yields_plain rfl) fun account _ => ?_
      split
      · exact yields_throw _
      · exact ih

/-- The event of a transfer has an envelope, whether the transfer fails or not. -/
theorem yields_attemptTransfer (q : TransferRequest) :
    Yields T (attemptTransfer q) Whatever := by
  unfold attemptTransfer
  refine .bind (yields_lockAccounts _) fun _ _ => .bind (yields_plain rfl) fun balance _ => ?_
  split
  · unfold recordInsufficientBalance
    -- the failed transfer
    refine .bind yields_now fun _ _ => .bind (yields_plain rfl) fun _ _ =>
      .bind (yields_publishEvent ?_) fun event hevent => .bind (yields_flush ?_) fun _ _ =>
        .bind (yields_plain rfl) fun _ _ => yields_throw _
    · exact fun s hs => nomatch hs
    · simp [Write.Enveloped, hevent]
  · unfold recordTransfer
    -- the completed one
    refine .bind yields_now fun _ _ => .bind (yields_plain rfl) fun _ _ =>
      .bind (yields_plain rfl) fun _ _ => .bind (yields_plain rfl) fun _ _ =>
        .bind (yields_plain rfl) fun _ _ => .bind (yields_publishEvent ?_) fun event hevent =>
          .bind (yields_flush ?_) fun _ _ => .bind (yields_plain rfl) fun _ _ =>
            yields_pure trivial
    · exact fun s hs => nomatch hs
    · simp [Write.Enveloped, hevent]

/-- The handler of a refused transfer writes no event. -/
theorem yields_transfer (q : TransferRequest) : Yields T (transfer sha256 q) Whatever := by
  unfold transfer
  refine .bind (yields_plain rfl) fun cached _ => ?_
  split
  · -- an entry in Redis is returned or refused without an event
    split
    · exact yields_throw _
    · unfold CacheEntry.transferResponse
      split
      · exact yields_pure trivial
      · exact yields_throw _
  · refine .bind (Q := Whatever) (.tryCatch (yields_attemptTransfer q) fun e => ?_) fun _ _ =>
      .bind (yields_plain rfl) fun _ _ => yields_pure trivial
    unfold resolveTransfer
    -- the handler of the unique key only reads
    split
    · refine .bind (yields_plain rfl) fun _ _ => ?_
      split
      · refine .bind (yields_plain rfl) fun existing _ => ?_
        split
        · exact yields_throw _
        · split
          · exact yields_throw _
          · split
            · exact yields_throw _
            · exact yields_pure trivial
      · exact yields_throw _
    · exact yields_throw _

/-- The reasons for a rejection are constants. -/
theorem yields_validateDeposit (q : DepositRequest) :
    Yields T (validateDeposit q) fun reason => ∀ s ∈ reason, hasNull s = false := by
  unfold validateDeposit
  split
  · next reason hreason =>
      refine yields_pure fun s hs => ?_
      cases hs
      have hconstant : reason ∈ ["ACCOUNT_NOT_FOUND", "INVALID_AMOUNT",
        "UNSUPPORTED_CURRENCY"] := by
        unfold rejectionReason at hreason
        split_ifs at hreason <;> cases hreason <;> decide
      -- no reason has a null character in it
      have hall : ∀ s ∈ ["ACCOUNT_NOT_FOUND", "INVALID_AMOUNT", "UNSUPPORTED_CURRENCY"],
          hasNull s = false := by decide +kernel
      exact hall reason hconstant
  · refine .bind (yields_plain rfl) fun account _ => ?_
    split
    · exact yields_pure (by decide +kernel)
    · split
      · exact yields_pure (by decide +kernel)
      · exact yields_pure fun s hs => nomatch hs

/-- The event of a deposit has an envelope, whether the deposit is rejected or not. -/
theorem yields_simulateDeposit (q : DepositRequest) :
    Yields T (simulateDeposit q) Whatever := by
  unfold simulateDeposit
  refine .bind yields_now fun _ _ => .bind (yields_plain rfl) fun _ _ =>
    .bind (Q := Whatever) ?_ fun existing _ => ?_
  · -- a duplicate is answered with the row that is there
    unfold insertDeposit
    refine .tryCatch (.bind (yields_perform fun _ => trivial) fun _ _ => yields_pure trivial)
      fun e => ?_
    split
    · refine .bind (yields_plain rfl) fun _ _ => ?_
      split
      · refine .bind (yields_plain rfl) fun existing _ => ?_
        split
        · exact yields_pure trivial
        · exact yields_throw _
      · exact yields_throw _
    · exact yields_throw _
  · split
    · exact yields_pure trivial
    · refine .bind (yields_validateDeposit q) fun reason hreason => ?_
      split
      · -- the constants of a rejection include its reason
        unfold rejectDeposit
        refine .bind (yields_publishEvent ?_) fun event hevent => .bind (yields_flush ?_) fun _ _ =>
          .bind (yields_plain rfl) fun _ _ => yields_pure trivial
        · simpa [EventPayload.constants] using hreason
        · simp [Write.Enveloped, hevent]
      · unfold completeDeposit
        refine .bind (yields_plain rfl) fun _ _ => .bind (yields_plain rfl) fun _ _ =>
          .bind (yields_plain rfl) fun _ _ => .bind (yields_publishEvent ?_) fun event hevent =>
            .bind (yields_flush ?_) fun _ _ => .bind (yields_plain rfl) fun _ _ =>
              yields_pure trivial
        · exact fun s hs => nomatch hs
        · simp [Write.Enveloped, hevent]

/-! ### Withdrawals -/

/-- A command of the circuit breaker. -/
theorem yields_breaker (c : BreakerCommand) : Yields T (perform (.breaker c)) Whatever :=
  yields_plain rfl

/-- Asking whether the cooldown has passed writes no event. -/
theorem yields_cooldownElapsed (cb : CircuitBreaker) : Yields T cb.cooldownElapsed Whatever := by
  refine .bind (yields_breaker .getLastFailureAt) fun last _ => ?_
  split
  · exact yields_pure trivial
  · exact .bind yields_now fun _ _ => yields_pure trivial

/-- The preflight check writes no event. -/
theorem yields_isCallAllowed (cb : CircuitBreaker) : Yields T cb.isCallAllowed Whatever := by
  refine .bind (yields_breaker .getState) fun state _ => ?_
  split
  · exact yields_pure trivial
  · exact yields_cooldownElapsed cb
  · exact .bind (yields_breaker .probeExists) fun _ _ => yields_pure trivial

/-- Entering the circuit breaker writes no event. -/
theorem yields_enter (cb : CircuitBreaker) : Yields T cb.enter Whatever := by
  have hclaimed (claimed : Bool) :
      Yields T (if claimed then pure () else throw .circuitOpen : Program Unit) Whatever := by
    split
    · exact yields_pure trivial
    · exact yields_throw _
  refine .bind (yields_breaker .getState) fun state _ => ?_
  split
  · exact yields_pure trivial
  · refine .bind (yields_cooldownElapsed cb) fun elapsed _ => ?_
    split
    · exact .bind (yields_breaker (.claimProbe _)) fun claimed _ => hclaimed claimed
    · exact yields_throw _
  · refine .bind (yields_breaker .probeExists) fun probeActive _ => ?_
    split
    · exact yields_throw _
    · exact .bind (yields_breaker (.setProbe _)) fun claimed _ => hclaimed claimed

/-- Calling the rail writes no event. -/
theorem yields_callRailOutcome (circuitBreaker : Option CircuitBreaker) (w : Withdrawal Decimal) :
    Yields T (callRailOutcome circuitBreaker w) Whatever := by
  have hsend : Yields T (sendWithdrawal w.id w.amount w.destinationDetails) Whatever :=
    yields_plain rfl
  unfold callRailOutcome
  refine .tryCatch (.bind (Q := Whatever) ?_ fun _ _ => yields_pure trivial) fun e => ?_
  · unfold callRail
    split
    · refine .bind (yields_enter _) fun _ _ => .tryCatch
        (.bind hsend fun _ _ => .bind (yields_breaker .recordSuccess)
          fun _ _ => yields_pure trivial)
        fun e => ?_
      split
      · -- a rejection is reported to the circuit and raised again
        refine .bind (Q := Whatever) ?_ fun _ _ => yields_throw _
        exact .bind yields_now fun _ _ => .bind (yields_breaker (.recordFailure _ _)) fun _ _ =>
          yields_pure trivial
      · exact yields_throw _
    · exact hsend
  · split
    · exact yields_pure trivial
    · exact yields_throw _

/-- Each stage of the saga returns the withdrawal with its update. -/
theorem yields_submitWithdrawal (w : Withdrawal Decimal) :
    Yields T (submitWithdrawal w) fun w' => ∃ set : WithdrawalSet, w' = set.apply w := by
  refine yields_begin (.bind yields_now fun _ _ => .bind yields_now fun _ _ =>
    .bind (yields_flush ?_) fun _ _ => yields_pure ⟨_, rfl⟩)
  simp [Write.Enveloped]

/-- The event of a completed withdrawal has an envelope, and the withdrawal has been updated. -/
theorem yields_completeWithdrawal (w : Withdrawal Decimal) (reference : String)
    (actorUserId : Option UUID) :
    Yields T (completeWithdrawal w reference actorUserId) fun w' =>
      ∃ set : WithdrawalSet, w' = set.apply w := by
  refine yields_begin (.bind yields_now fun _ _ => .bind (yields_publishEvent ?_)
    fun event hevent =>
    .bind yields_now fun _ _ => .bind (yields_flush ?_) fun _ _ => yields_pure ⟨_, rfl⟩)
  · exact fun s hs => nomatch hs
  · simp [Write.Enveloped, hevent]

/-- The event of a failed withdrawal has an envelope, and the withdrawal has been updated. -/
theorem yields_compensateWithdrawal (w : Withdrawal Decimal) (code : String)
    (actorUserId : Option UUID) :
    Yields T (compensateWithdrawal w code actorUserId) fun w' =>
      ∃ set : WithdrawalSet, w' = set.apply w := by
  refine .bind yields_now fun _ _ => yields_begin (.bind (yields_plain rfl) fun _ _ =>
    .bind (yields_plain rfl) fun _ _ => .bind (yields_plain rfl) fun _ _ =>
      .bind (yields_publishEvent ?_) fun event hevent => .bind yields_now fun _ _ =>
        .bind (yields_flush ?_) fun _ _ => yields_pure ⟨_, rfl⟩)
  · exact fun s hs => nomatch hs
  · simp [Write.Enveloped, hevent]

/-- The saga answers with the withdrawal and its updates. -/
theorem yields_runSaga (q : WithdrawalRequest) (w : Withdrawal Decimal) :
    Yields T (runSaga sha256 q w) fun r => ∃ sets : List WithdrawalSet,
      r = withdrawalToResponse (sets.foldl (fun w set => set.apply w) w) := by
  refine .bind (yields_plain rfl) fun _ _ => .bind (yields_submitWithdrawal w)
    fun submitted hsubmitted => .bind (yields_callRailOutcome _ _) fun outcome _ => ?_
  obtain ⟨set, rfl⟩ := hsubmitted
  split
  · refine .bind (yields_compensateWithdrawal _ _ _) fun failed hfailed => yields_pure ?_
    obtain ⟨set', rfl⟩ := hfailed
    exact ⟨[set, set'], rfl⟩
  · refine .bind (yields_completeWithdrawal _ _ _) fun completed hcompleted => yields_pure ?_
    obtain ⟨set', rfl⟩ := hcompleted
    exact ⟨[set, set'], rfl⟩

/-- Inserting a withdrawal writes no event. -/
theorem yields_insertWithdrawal (q : WithdrawalRequest) (w : Withdrawal Decimal) :
    Yields T (insertWithdrawal q w) Whatever := by
  unfold insertWithdrawal
  refine .tryCatch (.bind (yields_perform fun _ => trivial) fun _ _ => yields_pure trivial)
    fun e => ?_
  split
  · refine .bind (yields_plain rfl) fun _ _ => .bind (yields_plain rfl) fun existing _ => ?_
    split
    · exact yields_pure trivial
    · exact yields_throw _
  · exact yields_throw _

/-- The event of an initiated withdrawal has an envelope. -/
theorem yields_reserveFunds (q : WithdrawalRequest) (w : Withdrawal Decimal) (at_ : Time) :
    Yields T (reserveFunds q w at_) Whatever := by
  refine .bind (yields_plain rfl) fun _ _ => .bind (yields_plain rfl) fun _ _ =>
    .bind (yields_plain rfl) fun _ _ => .bind (yields_publishEvent ?_) fun event hevent =>
      .bind (yields_flush ?_) fun _ _ => yields_plain rfl
  · exact fun s hs => nomatch hs
  · simp [Write.Enveloped, hevent]

/-- All events of the saga have envelopes. -/
theorem yields_createWithdrawal (q : WithdrawalRequest) :
    Yields T (createWithdrawal sha256 q) Whatever := by
  unfold createWithdrawal
  refine .bind (yields_plain rfl) fun cached _ => ?_
  -- an entry in Redis is returned or refused without an event
  split
  · split
    · exact yields_throw _
    · unfold CacheEntry.withdrawalResponse
      split
      · exact yields_pure trivial
      · exact yields_throw _
  · -- the checks before the first write
    unfold startWithdrawal
    split
    · exact yields_throw _
    · refine .bind (yields_plain rfl) fun account _ => ?_
      split
      · exact yields_throw _
      · refine .bind (yields_plain rfl) fun balance _ => ?_
        split
        · exact yields_throw _
        · refine .bind yields_now fun _ _ => .bind (yields_plain rfl) fun _ _ =>
            .bind (yields_insertWithdrawal _ _) fun existing _ => ?_
          split
          · exact yields_pure trivial
          · exact .bind (yields_reserveFunds _ _ _) fun _ _ => (yields_runSaga _ _).mono
              fun _ _ => trivial

/-! ### Reading a record -/

/-- Looking a transfer up writes no event. -/
theorem yields_getTransfer (id account : UUID) : Yields T (getTransfer id account) Whatever := by
  refine .bind (yields_plain rfl) fun record _ => ?_
  split
  · exact yields_throw _
  · split
    · exact yields_throw _
    · exact yields_pure trivial

/-- Looking a deposit up writes no event. -/
theorem yields_getDeposit (id account : UUID) : Yields T (getDeposit id account) Whatever := by
  refine .bind (yields_plain rfl) fun deposit _ => ?_
  split
  · exact yields_throw _
  · split
    · exact yields_throw _
    · exact yields_pure trivial

/-- Looking a withdrawal up writes no event. -/
theorem yields_getWithdrawal (id account : UUID) :
    Yields T (getWithdrawal id account) Whatever := by
  refine .bind (yields_plain rfl) fun withdrawal _ => ?_
  split
  · exact yields_throw _
  · split
    · exact yields_throw _
    · exact yields_pure trivial

/-! ### Recovery -/

namespace SagaRecovery

/-- The event of a compensation by the sweep has an envelope. -/
theorem yields_compensate (w : Withdrawal Decimal) (code : String) :
    Yields T (compensate w code) Whatever := by
  refine .bind (yields_plain rfl) fun _ _ => .bind yields_now fun _ _ =>
    .bind (yields_plain rfl) fun _ _ => .bind (yields_plain rfl) fun _ _ =>
      .bind (yields_publishEvent ?_) fun event hevent => .bind yields_now fun _ _ =>
        yields_flush ?_
  · exact fun s hs => nomatch hs
  · simp [Write.Enveloped, hevent]

/-- The event of a completion by the sweep has an envelope. -/
theorem yields_complete (w : Withdrawal Decimal) (reference : String) :
    Yields T (complete w reference) Whatever := by
  refine .bind yields_now fun _ _ => .bind (yields_publishEvent ?_) fun event hevent =>
    .bind yields_now fun _ _ => yields_flush ?_
  · exact fun s hs => nomatch hs
  · simp [Write.Enveloped, hevent]

/-- Recovering a pending withdrawal writes events in envelopes only. -/
theorem yields_recoverPending (cb : CircuitBreaker) (w : Withdrawal Decimal) :
    Yields T (recoverPending cb w) Whatever := by
  refine .bind (yields_isCallAllowed cb) fun allowed _ => ?_
  split
  · refine .bind yields_now fun _ _ => .bind yields_now fun _ _ => .bind (yields_flush ?_)
      fun _ _ => .bind (yields_callRailOutcome _ _) fun outcome _ => ?_
    · simp [Write.Enveloped]
    · split
      · exact yields_complete _ _
      · exact yields_compensate _ _
  · exact yields_compensate _ _

/-- So does recovering a submitted one. -/
theorem yields_recoverSubmitted (w : Withdrawal Decimal) :
    Yields T (recoverSubmitted w) Whatever := by
  have hquery (reference : String) : Yields T (tryQueryStatus reference) Whatever :=
    .tryCatch (.bind (yields_plain rfl) fun _ _ => yields_pure trivial) fun _ => yields_pure trivial
  have htimeout (cutoff : Time) : Yields T (if w.updatedAt < cutoff then compensate w "TIMEOUT"
      else pure () : Program Unit) Whatever := by
    split
    · exact yields_compensate _ _
    · exact yields_pure trivial
  unfold recoverSubmitted
  refine .bind yields_now fun _ _ => ?_
  split
  · refine .bind (hquery _) fun status _ => ?_
    split
    · split
      · exact yields_complete _ _
      · split
        · exact yields_compensate _ _
        · exact yields_pure trivial
    · exact htimeout _
  · exact htimeout _

/-- So does resolving one withdrawal. -/
theorem yields_resolveOne (cb : CircuitBreaker) (id : UUID) :
    Yields T (resolveOne cb id) Whatever := by
  refine yields_begin (.bind (yields_plain rfl) fun row _ => ?_)
  split
  · exact yields_pure trivial
  · split
    · exact yields_recoverPending _ _
    · exact yields_recoverSubmitted _
    · exact yields_pure trivial
    · exact yields_pure trivial

/-- So does resolving a batch. -/
theorem yields_resolveAll (cb : CircuitBreaker) (ids : List UUID) :
    Yields T (resolveAll cb ids) Whatever := by
  induction ids with
  | nil => exact yields_pure trivial
  | cons id ids ih =>
      exact .bind (.tryCatch (yields_resolveOne cb id) fun _ => yields_pure trivial) fun _ _ => ih

/-- All events of a sweep have envelopes. -/
theorem yields_recoverStuckWithdrawals (cb : CircuitBreaker) :
    Yields T (recoverStuckWithdrawals cb) Whatever :=
  .bind yields_now fun _ _ => .bind (yields_begin (Q := Whatever) (yields_plain rfl)) fun ids _ =>
    yields_resolveAll cb ids

end SagaRecovery

/-- Every program of the wallet puts its envelopes around its events. -/
theorem enveloped_program (request : Request) : Yields T (request.program sha256) Whatever := by
  cases request with
  | openAccount userId => exact .bind (yields_openAccount userId) fun _ _ => yields_pure trivial
  | seed q => exact .bind (yields_seed q) fun _ _ => yields_pure trivial
  | transfer q => exact .bind (yields_transfer q) fun _ _ => yields_pure trivial
  | simulateDeposit q => exact .bind (yields_simulateDeposit q) fun _ _ => yields_pure trivial
  | createWithdrawal q => exact .bind (yields_createWithdrawal q) fun _ _ => yields_pure trivial
  | recoverStuckWithdrawals cb =>
      exact .bind (SagaRecovery.yields_recoverStuckWithdrawals cb) fun _ _ => yields_pure trivial
  | getTransfer id account =>
      exact .bind (yields_getTransfer id account) fun _ _ => yields_pure trivial
  | getDeposit id account =>
      exact .bind (yields_getDeposit id account) fun _ _ => yields_pure trivial
  | getWithdrawal id account =>
      exact .bind (yields_getWithdrawal id account) fun _ _ => yields_pure trivial

end Programs

end MiniWallet
