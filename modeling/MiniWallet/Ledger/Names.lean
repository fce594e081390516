import MiniWallet.App

/-!
# Primary keys and outcomes

Every row that the wallet inserts has a primary key that was drawn for it. A deposit is inserted as
pending, and an update gives it one of its two outcomes, with a reason exactly if it is rejected.

* `names`: the contract that every statement of a program is of this kind.
* `named_program`: every program of the wallet keeps it.
-/

namespace MiniWallet

open Numeric Process System Program

/-- The primary keys among some unique keys are in the list. -/
def Within (keys : List UniqueKey) (ids : List UUID) : Prop :=
  ∀ t id, .pkey t id ∈ keys → id ∈ ids

/-- More identifiers may be listed. -/
theorem Within.mono {keys : List UniqueKey} {ids ids' : List UUID} (h : Within keys ids)
    (hsub : ∀ id ∈ ids, id ∈ ids') : Within keys ids' :=
  fun t id hid => hsub id (h t id hid)

/-- No keys are within any list. -/
@[simp]
theorem within_nil (ids : List UUID) : Within [] ids := fun _ _ hid => nomatch hid

/-- Keys are within a list if the first one and the other ones are. -/
@[simp]
theorem within_cons {k : UniqueKey} {keys : List UniqueKey} {ids : List UUID} :
    Within (k :: keys) ids ↔ (∀ t id, k = .pkey t id → id ∈ ids) ∧ Within keys ids := by
  constructor
  · exact fun h => ⟨fun t id hk => h t id (hk ▸ List.mem_cons_self),
      fun t id hid => h t id (List.mem_cons_of_mem _ hid)⟩
  · rintro ⟨hk, hkeys⟩ t id hid
    rcases List.mem_cons.mp hid with hid | hid
    · exact hk t id hid.symm
    · exact hkeys t id hid

/-- What a statement says about a deposit: it is inserted as pending, or it gets one of its
outcomes. -/
def Write.Resolves : Write → Prop
  | .insert (.deposit d) =>
      d.status = .pending ∧ d.rejectionReason = none ∧ d.completedAt = none
  | .setDeposit _ set =>
      set.status = .completed ∧ set.rejectionReason = none ∨
        set.status = .rejected ∧ set.rejectionReason.isSome ∧ set.completedAt = none
  | _ => True

/-- The primary keys of the rows that are inserted were drawn, and deposits get their outcomes. -/
def names : Contract Op Op.Out Exc (List UUID) where
  guard
    | .write w, own => Within w.keys own ∧ w.Resolves
    | _, _ => True
  possible := fun _ _ _ => True

/-- The identifiers that a program has drawn for its transaction. -/
def draw : (o : Op) → Except Exc o.Out → List UUID → List UUID
  | .uuid4, .ok id, own => id :: own
  | .commit, .ok _, _ => []
  | _, _, own => own

/-- After it has drawn `own`, the program keeps the contract, and `Q` holds of what it returns and
of what it has drawn then. -/
def Draws (own : List UUID) {α : Type} (p : Program α) (Q : α → List UUID → Prop) : Prop :=
  names.wp draw p Q (fun _ _ => True) own

/-- Whatever it has drawn, the program keeps the contract. -/
def Named {α : Type} (p : Program α) : Prop := ∀ own, Draws own p fun _ _ => True

/-- The operation neither draws an identifier nor inserts a row. -/
def Op.Nameless : Op → Bool
  | .uuid4 => false
  | .write _ => false
  | _ => true

section Rules

variable {α β : Type} {own : List UUID} {p : Program α} {f : α → Program β}

/-- Returning draws nothing. -/
theorem draws_pure {a : α} {Q : α → List UUID → Prop} (h : Q a own) :
    Draws own (pure a : Program α) Q :=
  (Contract.wp_pure _ _ _).mpr h

/-- Raising draws nothing. -/
theorem draws_throw (e : Exc) {Q : α → List UUID → Prop} : Draws own (throw e : Program α) Q :=
  (Contract.wp_throw _ _ _).mpr trivial

/-- What follows may use what was drawn before. -/
theorem draws_bind {Q : β → List UUID → Prop}
    (h : Draws own p fun a own' => Draws own' (f a) Q) : Draws own (p >>= f) Q :=
  (Contract.wp_bind _ _ _ _).mpr h

/-- The clock draws nothing. -/
theorem draws_now {Q : Time → List UUID → Prop} (h : ∀ t, Q t own) : Draws own now Q :=
  (Contract.wp_perform _ _ Op.now).mpr ⟨trivial, fun t _ => h t, fun _ _ => trivial⟩

/-- A drawn identifier can be used from then on. -/
theorem draws_uuid4 {Q : UUID → List UUID → Prop} (h : ∀ id, Q id (id :: own)) :
    Draws own uuid4 Q :=
  (Contract.wp_perform _ _ Op.uuid4).mpr ⟨trivial, fun id _ => h id, fun _ _ => trivial⟩

/-- A statement inserts under what was drawn. -/
theorem draws_write {w : Write} {Q : Unit → List UUID → Prop} (h : Within w.keys own ∧ w.Resolves)
    (hQ : Q () own) : Draws own (write w) Q :=
  (Contract.wp_perform _ _ (Op.write w)).mpr ⟨h, fun _ _ => hQ, fun _ _ => trivial⟩

/-- All statements of a flush insert under what was drawn. -/
theorem draws_flush {ws : List Write} {Q : Unit → List UUID → Prop}
    (h : ∀ w ∈ ws, Within w.keys own ∧ w.Resolves) (hQ : Q () own) : Draws own (flush ws) Q := by
  induction ws with
  | nil => exact draws_pure hQ
  | cons w ws ih =>
      exact draws_bind (draws_write (h w List.mem_cons_self)
        (ih fun w' hw' => h w' (List.mem_cons_of_mem _ hw')))

/-- Publishing an event draws the primary key of its row. -/
theorem draws_publishEvent {topic eventType : String} {payload : EventPayload}
    {actorId : Option UUID} {Q : OutboxRow → List UUID → Prop}
    (h : ∀ row eventId, Q row (row.id :: eventId :: own)) :
    Draws own (publishEvent topic eventType payload actorId) Q :=
  draws_bind <| draws_uuid4 fun eventId => draws_bind <| draws_now fun _ =>
    draws_bind <| draws_uuid4 fun id => draws_pure (h { id := id, .. } eventId)

/-- What a program has drawn at its end need not be known. -/
theorem Draws.named {Q : α → List UUID → Prop} (h : Draws own p Q) :
    Draws own p fun _ _ => True :=
  Contract.wp_mono _ _ (fun _ _ _ => trivial) (fun _ _ h => h) h

/-- Returning keeps the contract. -/
theorem named_pure (a : α) : Named (pure a : Program α) := fun _ => draws_pure trivial

/-- Raising keeps the contract. -/
theorem named_throw (e : Exc) : Named (throw e : Program α) := fun _ => draws_throw e

/-- Programs that keep the contract can be run one after the other. -/
theorem Named.bind (hp : Named p) (hf : ∀ a, Named (f a)) : Named (p >>= f) := fun own =>
  draws_bind (Contract.wp_mono _ _ (fun a own' _ => hf a own') (fun _ _ h => h) (hp own))

/-- A handler that keeps the contract may catch what the body raises. -/
theorem Named.tryCatch {h : Exc → Program α} (hp : Named p) (hh : ∀ e, Named (h e)) :
    Named (tryCatch p h) := fun own =>
  Contract.wp_tryCatch_of_forall _ _ (hp own) fun e own' => hh e own'

/-- An operation that neither draws nor writes keeps the contract. -/
theorem named_plain {o : Op} (ho : o.Nameless = true) : Named (perform o) := by
  refine fun own => (Contract.wp_perform _ _ o).mpr ⟨?_, fun _ _ => trivial, fun _ _ => trivial⟩
  cases o <;> trivial

/-- A block that commits at its end keeps the contract if its body does. -/
theorem named_begin {body : Program α} (h : Named body) : Named (begin body) := by
  unfold begin
  exact .tryCatch (.bind h fun a => .bind (named_plain rfl) fun _ => named_pure a) fun e =>
    .bind (named_plain rfl) fun _ => named_throw e

/-- Updates have no primary keys. -/
theorem named_set (id : UUID) (set : WithdrawalSet) : Named (flush [.setWithdrawal id set]) :=
  fun _ => draws_flush (by simp [Write.keys, Write.Resolves]) trivial

/-- A handler that keeps the contract completes a body that keeps it. -/
theorem draws_tryCatch {h : Exc → Program α} {Q : α → List UUID → Prop} (hp : Draws own p Q)
    (hh : ∀ e own', Draws own' (h e) Q) : Draws own (tryCatch p h) Q :=
  Contract.wp_tryCatch_of_forall _ _ hp hh

/-- What follows does not insert rows under identifiers that were drawn before. -/
theorem Draws.thenNamed {Q : α → List UUID → Prop} (hp : Draws own p Q) (hf : ∀ a, Named (f a)) :
    Draws own (p >>= f) fun _ _ => True :=
  draws_bind (Contract.wp_mono _ _ (fun a own' _ => hf a own') (fun _ _ h => h) hp)

end Rules

/-! ## The programs -/

section Programs

variable {sha256 : String → String}

/-- The account has the identifier that was drawn for it. -/
theorem named_openAccount (userId : UUID) : Named (openAccount userId) := by
  intro own
  unfold openAccount
  refine draws_bind <| draws_now fun t => draws_bind <| draws_uuid4 fun id => draws_bind <|
    draws_publishEvent fun event eventId =>
      (draws_tryCatch (Q := fun _ _ => True) ?_ fun e => ?_).thenNamed
      fun _ => .bind (named_plain rfl) fun account => ?_
  · refine draws_bind (draws_flush ?_ (named_plain rfl _))
    simp [Write.keys, Row.keys, Write.Resolves]
  · split
    · exact Named.bind (named_plain rfl) fun _ => named_throw _
    · exact named_throw _
  · split
    · exact named_pure _
    · exact named_throw _

/-- The handler of a refused seed inserts nothing. -/
theorem named_resolveSeed (q : SeedRequest) (e : Exc) : Named (resolveSeed q e) := by
  unfold resolveSeed
  split
  · refine .bind (named_plain rfl) fun _ => .bind (named_plain rfl) fun existing => ?_
    split
    · exact named_throw _
    · split
      · exact named_throw _
      · exact named_pure _
  · exact named_throw _

/-- Both legs of a seed and its event have identifiers that were drawn for them. -/
theorem named_seed (q : SeedRequest) : Named (seed q) := by
  refine .bind (named_plain rfl) fun account => ?_
  split
  · exact named_throw _
  · intro own
    refine draws_bind <| draws_now fun t => draws_bind <| draws_uuid4 fun txnId => draws_bind <|
      draws_uuid4 fun debitId => draws_bind <| draws_uuid4 fun creditId => draws_bind <|
        draws_publishEvent fun event eventId =>
          (draws_tryCatch (Q := fun _ _ => True) ?_ fun e => named_resolveSeed q e).thenNamed
            fun _ => .bind (named_plain rfl) fun _ => named_pure _
    refine draws_bind (draws_flush ?_ (Named.bind (named_plain rfl) (fun _ => named_pure _) _))
    simp [Write.keys, Row.keys, Write.Resolves]

/-- Locking accounts inserts nothing. -/
theorem named_lockAccounts (ids : List UUID) : Named (lockAccounts ids) := by
  induction ids with
  | nil => exact named_pure _
  | cons id ids ih =>
      refine .bind (named_plain rfl) fun account => ?_
      split
      · exact named_throw _
      · exact ih

/-- A transfer, its legs and its event have identifiers that were drawn for them. -/
theorem named_attemptTransfer (q : TransferRequest) : Named (attemptTransfer q) := by
  refine .bind (named_lockAccounts _) fun _ => .bind (named_plain rfl) fun balance => ?_
  split
  · intro own
    refine draws_bind <| draws_now fun t => draws_bind <| draws_uuid4 fun id => draws_bind <|
      draws_publishEvent fun event eventId => draws_bind (draws_flush ?_
        (Named.bind (named_plain rfl) (fun _ => named_throw _) _))
    simp [Write.keys, Row.keys, Write.Resolves]
  · intro own
    refine draws_bind <| draws_now fun t => draws_bind <| draws_uuid4 fun txnId => draws_bind <|
      draws_uuid4 fun id => draws_bind <| draws_uuid4 fun debitId => draws_bind <|
        draws_uuid4 fun creditId => draws_bind <| draws_publishEvent fun event eventId =>
          draws_bind (draws_flush ?_ (Named.bind (named_plain rfl) (fun _ => named_pure _) _))
    simp [Write.keys, Row.keys, Write.Resolves]

/-- A request for a transfer keeps the contract, also when its key is taken. -/
theorem named_transfer (q : TransferRequest) : Named (transfer sha256 q) := by
  refine .bind (named_plain rfl) fun cached => ?_
  -- an entry in Redis is returned or refused, and nothing is drawn
  split
  · split
    · exact named_throw _
    · unfold CacheEntry.transferResponse
      split
      · exact named_pure _
      · exact named_throw _
  · refine .bind (.tryCatch (named_attemptTransfer q) fun e => ?_) fun _ =>
      .bind (named_plain rfl) fun _ => named_pure _
    unfold resolveTransfer
    -- the handler of the unique key draws nothing either
    split
    · refine .bind (named_plain rfl) fun _ => ?_
      split
      · refine .bind (named_plain rfl) fun existing => ?_
        split
        · exact named_throw _
        · split
          · exact named_throw _
          · split
            · exact named_throw _
            · exact named_pure _
      · exact named_throw _
    · exact named_throw _

/-- Validating a deposit inserts nothing. -/
theorem named_validateDeposit (q : DepositRequest) : Named (validateDeposit q) := by
  unfold validateDeposit
  split
  · exact named_pure _
  · refine .bind (named_plain rfl) fun account => ?_
    split
    · exact named_pure _
    · split <;> exact named_pure _

/-- A rejected deposit gets its reason. -/
theorem named_rejectDeposit (d : Deposit Decimal) (reason : String) (at_ : Time) :
    Named (rejectDeposit d reason at_) := by
  intro own
  refine draws_bind <| draws_publishEvent fun event eventId => draws_bind (draws_flush ?_
    (Named.bind (named_plain rfl) (fun _ => named_pure _) _))
  simp [Write.keys, Row.keys, Write.Resolves]

/-- A completed deposit has no reason, and its legs have identifiers that were drawn for them. -/
theorem named_completeDeposit (d : Deposit Decimal) (at_ : Time) :
    Named (completeDeposit d at_) := by
  intro own
  refine draws_bind <| draws_uuid4 fun txnId => draws_bind <| draws_uuid4 fun creditId =>
    draws_bind <| draws_uuid4 fun debitId => draws_bind <| draws_publishEvent fun event eventId =>
      draws_bind (draws_flush ?_ (Named.bind (named_plain rfl) (fun _ => named_pure _) _))
  simp [Write.keys, Row.keys, Write.Resolves]

/-- The webhook keeps the contract. -/
theorem named_simulateDeposit (q : DepositRequest) : Named (simulateDeposit q) := by
  intro own
  refine draws_bind <| draws_now fun t => draws_bind <| draws_uuid4 fun id =>
    (draws_tryCatch (Q := fun _ _ => True) ?_ fun e => ?_).thenNamed fun existing => ?_
  · refine draws_bind (draws_write ?_ (named_pure _ _))
    -- the identifier of the new row is the one that was drawn
    simp [Write.keys, Row.keys, Write.Resolves]
  · split
    · refine Named.bind (named_plain rfl) fun _ => ?_
      -- a duplicate: from here on nothing is inserted
      split
      · refine .bind (named_plain rfl) fun existing => ?_
        split
        · exact named_pure _
        · exact named_throw _
      · exact named_throw _
    · exact named_throw _
  · split
    · exact named_pure _
    · refine .bind (named_validateDeposit q) fun reason => ?_
      split
      · exact named_rejectDeposit _ _ _
      · exact named_completeDeposit _ _

/-! ### Withdrawals -/

/-- Asking whether the cooldown has passed inserts nothing. -/
theorem named_cooldownElapsed (cb : CircuitBreaker) : Named cb.cooldownElapsed := by
  refine .bind (named_plain (o := .breaker .getLastFailureAt) rfl) fun last => ?_
  split
  · exact named_pure _
  · exact .bind (named_plain rfl) fun _ => named_pure _

/-- The preflight check inserts nothing. -/
theorem named_isCallAllowed (cb : CircuitBreaker) : Named cb.isCallAllowed := by
  refine .bind (named_plain (o := .breaker .getState) rfl) fun state => ?_
  split
  · exact named_pure _
  · exact named_cooldownElapsed cb
  · exact .bind (named_plain (o := .breaker .probeExists) rfl) fun _ => named_pure _

/-- Entering the circuit breaker inserts nothing. -/
theorem named_enter (cb : CircuitBreaker) : Named cb.enter := by
  have hclaimed (claimed : Bool) :
      Named (if claimed then pure () else throw .circuitOpen : Program Unit) := by
    split
    · exact named_pure _
    · exact named_throw _
  refine .bind (named_plain (o := .breaker .getState) rfl) fun state => ?_
  split
  · exact named_pure _
  · refine .bind (named_cooldownElapsed cb) fun elapsed => ?_
    split
    · exact .bind (named_plain (o := .breaker (.claimProbe _)) rfl) hclaimed
    · exact named_throw _
  · refine .bind (named_plain (o := .breaker .probeExists) rfl) fun probeActive => ?_
    split
    · exact named_throw _
    · exact .bind (named_plain (o := .breaker (.setProbe _)) rfl) hclaimed

/-- Calling the rail and reporting the outcome inserts nothing. -/
theorem named_callRailOutcome (circuitBreaker : Option CircuitBreaker) (w : Withdrawal Decimal) :
    Named (callRailOutcome circuitBreaker w) := by
  have hsend : Named (sendWithdrawal w.id w.amount w.destinationDetails) := named_plain rfl
  unfold callRailOutcome
  refine .tryCatch (.bind ?_ fun _ => named_pure _) fun e => ?_
  · unfold callRail
    split
    · refine .bind (named_enter _) fun _ => .tryCatch (.bind hsend fun _ =>
        .bind (named_plain (o := .breaker .recordSuccess) rfl) fun _ => named_pure _) fun e => ?_
      split
      · refine .bind ?_ fun _ => named_throw _
        exact .bind (named_plain rfl) fun _ =>
          .bind (named_plain (o := .breaker (.recordFailure _ _)) rfl) fun _ => named_pure _
      · exact named_throw _
    · exact hsend
  · split
    · exact named_pure _
    · exact named_throw _

/-- Submitting a withdrawal is an update. -/
theorem named_submitWithdrawal (w : Withdrawal Decimal) : Named (submitWithdrawal w) :=
  named_begin <| .bind (named_plain rfl) fun _ => .bind (named_plain rfl) fun _ =>
    .bind (named_set _ _) fun _ => named_pure _

/-- Completing a withdrawal inserts its event only. -/
theorem named_completeWithdrawal (w : Withdrawal Decimal) (reference : String)
    (actorUserId : Option UUID) : Named (completeWithdrawal w reference actorUserId) := by
  refine named_begin fun own => draws_bind <| draws_now fun t => draws_bind <|
    draws_publishEvent fun event eventId => draws_bind <| draws_now fun t' =>
      draws_bind (draws_flush ?_ (named_pure _ _))
  simp [Write.keys, Row.keys, Write.Resolves]

/-- The legs of a compensation have identifiers that were drawn for them. -/
theorem named_compensateWithdrawal (w : Withdrawal Decimal) (code : String)
    (actorUserId : Option UUID) : Named (compensateWithdrawal w code actorUserId) := by
  refine .bind (named_plain rfl) fun _ => named_begin fun own => draws_bind <|
    draws_uuid4 fun txnId => draws_bind <| draws_uuid4 fun debitId => draws_bind <|
      draws_uuid4 fun creditId => draws_bind <| draws_publishEvent fun event eventId =>
        draws_bind <| draws_now fun t' => draws_bind (draws_flush ?_ (named_pure _ _))
  simp [Write.keys, Row.keys, Write.Resolves]

/-- The legs of a reservation have identifiers that were drawn for them. -/
theorem named_reserveFunds (q : WithdrawalRequest) (w : Withdrawal Decimal) (at_ : Time) :
    Named (reserveFunds q w at_) := by
  intro own
  refine draws_bind <| draws_uuid4 fun txnId => draws_bind <| draws_uuid4 fun debitId =>
    draws_bind <| draws_uuid4 fun creditId => draws_bind <| draws_publishEvent fun event eventId =>
      draws_bind (draws_flush ?_ (named_plain rfl _))
  simp [Write.keys, Row.keys, Write.Resolves]

/-- The saga keeps the contract after its withdrawal is inserted. -/
theorem named_runSaga (q : WithdrawalRequest) (w : Withdrawal Decimal) :
    Named (runSaga sha256 q w) := by
  refine .bind (named_plain rfl) fun _ => .bind (named_submitWithdrawal w) fun submitted =>
    .bind (named_callRailOutcome _ _) fun outcome => ?_
  split
  · exact .bind (named_compensateWithdrawal _ _ _) fun _ => named_pure _
  · exact .bind (named_completeWithdrawal _ _ _) fun _ => named_pure _

/-- A new withdrawal has the identifier that was drawn for it. -/
theorem named_startWithdrawal (q : WithdrawalRequest) : Named (startWithdrawal sha256 q) := by
  unfold startWithdrawal
  split
  · exact named_throw _
  · refine .bind (named_plain rfl) fun account => ?_
    split
    · exact named_throw _
    · refine .bind (named_plain rfl) fun balance => ?_
      split
      · exact named_throw _
      · intro own
        refine draws_bind <| draws_now fun t => draws_bind <| draws_uuid4 fun id =>
          (draws_tryCatch (Q := fun _ _ => True) ?_ fun e => ?_).thenNamed fun existing => ?_
        · refine draws_bind (draws_write ?_ (named_pure _ _))
          -- the identifier of the new row is the one that was drawn
          simp [Write.keys, Row.keys, Write.Resolves]
        · split
          · -- a duplicate: from here on nothing is inserted
            refine Named.bind (named_plain rfl) fun _ => .bind (named_plain rfl) fun existing => ?_
            split
            · exact named_pure _
            · exact named_throw _
          · exact named_throw _
        · split
          · exact named_pure _
          · exact .bind (named_reserveFunds _ _ _) fun _ => named_runSaga _ _

/-- A request for a withdrawal keeps the contract, also when its key is taken. -/
theorem named_createWithdrawal (q : WithdrawalRequest) : Named (createWithdrawal sha256 q) := by
  refine .bind (named_plain rfl) fun cached => ?_
  split
  · split
    · exact named_throw _
    · unfold CacheEntry.withdrawalResponse
      split
      · exact named_pure _
      · exact named_throw _
  · exact named_startWithdrawal q

/-! ### Reading a record -/

/-- Looking a transfer up inserts nothing. -/
theorem named_getTransfer (id account : UUID) : Named (getTransfer id account) := by
  refine .bind (named_plain rfl) fun record => ?_
  split
  · exact named_throw _
  · split
    · exact named_throw _
    · exact named_pure _

/-- Looking a deposit up inserts nothing. -/
theorem named_getDeposit (id account : UUID) : Named (getDeposit id account) := by
  refine .bind (named_plain rfl) fun deposit => ?_
  split
  · exact named_throw _
  · split
    · exact named_throw _
    · exact named_pure _

/-- Looking a withdrawal up inserts nothing. -/
theorem named_getWithdrawal (id account : UUID) : Named (getWithdrawal id account) := by
  refine .bind (named_plain rfl) fun withdrawal => ?_
  split
  · exact named_throw _
  · split
    · exact named_throw _
    · exact named_pure _

/-! ### Recovery -/

namespace SagaRecovery

/-- The compensation of the sweep draws the identifiers of its legs. -/
theorem named_compensate (w : Withdrawal Decimal) (code : String) : Named (compensate w code) := by
  intro own
  refine draws_bind <| draws_uuid4 fun txnId => draws_bind <| draws_now fun t => draws_bind <|
    draws_uuid4 fun debitId => draws_bind <| draws_uuid4 fun creditId => draws_bind <|
      draws_publishEvent fun event eventId => draws_bind <| draws_now fun t' =>
        draws_flush ?_ trivial
  simp [Write.keys, Row.keys, Write.Resolves]

/-- The completion of the sweep inserts its event only. -/
theorem named_complete (w : Withdrawal Decimal) (reference : String) :
    Named (complete w reference) := by
  intro own
  refine draws_bind <| draws_now fun t => draws_bind <| draws_publishEvent fun event eventId =>
    draws_bind <| draws_now fun t' => draws_flush ?_ trivial
  simp [Write.keys, Row.keys, Write.Resolves]

/-- Recovering a pending withdrawal keeps the contract, whatever the rail answers. -/
theorem named_recoverPending (cb : CircuitBreaker) (w : Withdrawal Decimal) :
    Named (recoverPending cb w) := by
  refine .bind (named_isCallAllowed cb) fun allowed => ?_
  split
  · refine .bind (named_plain rfl) fun _ => .bind (named_plain rfl) fun _ =>
      .bind (named_set _ _) fun _ => .bind (named_callRailOutcome _ _) fun outcome => ?_
    split
    · exact named_complete _ _
    · exact named_compensate _ _
  · exact named_compensate _ _

/-- Recovering a submitted withdrawal keeps the contract. -/
theorem named_recoverSubmitted (w : Withdrawal Decimal) : Named (recoverSubmitted w) := by
  have hquery (reference : String) : Named (tryQueryStatus reference) :=
    .tryCatch (.bind (named_plain rfl) fun _ => named_pure _) fun _ => named_pure _
  have htimeout (cutoff : Time) : Named (if w.updatedAt < cutoff then compensate w "TIMEOUT"
      else pure () : Program Unit) := by
    split
    · exact named_compensate _ _
    · exact named_pure _
  unfold recoverSubmitted
  refine .bind (named_plain rfl) fun _ => ?_
  split
  · refine .bind (hquery _) fun status => ?_
    split
    · split
      · exact named_complete _ _
      · split
        · exact named_compensate _ _
        · exact named_pure _
    · exact htimeout _
  · exact htimeout _

/-- Resolving one withdrawal keeps the contract. -/
theorem named_resolveOne (cb : CircuitBreaker) (id : UUID) : Named (resolveOne cb id) := by
  refine named_begin (.bind (named_plain rfl) fun row => ?_)
  split
  · exact named_pure _
  · split
    · exact named_recoverPending _ _
    · exact named_recoverSubmitted _
    · exact named_pure _
    · exact named_pure _

/-- Resolving all withdrawals of a batch keeps the contract. -/
theorem named_resolveAll (cb : CircuitBreaker) (ids : List UUID) : Named (resolveAll cb ids) := by
  induction ids with
  | nil => exact named_pure _
  | cons id ids ih =>
      exact .bind (.tryCatch (named_resolveOne cb id) fun _ => named_pure _) fun _ => ih

/-- The sweep keeps the contract. -/
theorem named_recoverStuckWithdrawals (cb : CircuitBreaker) :
    Named (recoverStuckWithdrawals cb) :=
  .bind (named_plain rfl) fun _ => .bind (named_begin (named_plain rfl)) fun ids =>
    named_resolveAll cb ids

end SagaRecovery

/-- Every program of the wallet draws the primary keys of the rows that it inserts. -/
theorem named_program (request : Request) : Named (request.program sha256) := by
  cases request with
  | openAccount userId => exact .bind (named_openAccount userId) fun _ => named_pure _
  | seed q => exact .bind (named_seed q) fun _ => named_pure _
  | transfer q => exact .bind (named_transfer q) fun _ => named_pure _
  | simulateDeposit q => exact .bind (named_simulateDeposit q) fun _ => named_pure _
  | createWithdrawal q => exact .bind (named_createWithdrawal q) fun _ => named_pure _
  | recoverStuckWithdrawals cb =>
      exact .bind (SagaRecovery.named_recoverStuckWithdrawals cb) fun _ => named_pure _
  | getTransfer id account => exact .bind (named_getTransfer id account) fun _ => named_pure _
  | getDeposit id account => exact .bind (named_getDeposit id account) fun _ => named_pure _
  | getWithdrawal id account => exact .bind (named_getWithdrawal id account) fun _ => named_pure _

end Programs

end MiniWallet
