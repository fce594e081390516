import MiniWallet.Ledger.Discipline

/-!
# The programs keep the discipline

Every program of the wallet, run on its own from an idle session, commits, calls the rail and fills
the cache only as `discipline` allows. The proofs run the programs symbolically, one lemma for each
part of the services; the parts of the saga say in addition what they leave behind.
-/

namespace MiniWallet

open Numeric Process Program

variable {sha256 : String → String} {σ : Session}

/-- The program keeps the discipline; nothing is said about how it ends. -/
abbrev Keeps (sha256 : String → String) {α : Type} (p : Program α) (σ : Session) : Prop :=
  Follows sha256 p (fun _ _ => True) (fun _ _ => True) σ

/-- Ending a transaction that has ended changes nothing. -/
@[simp]
theorem Session.ended_ended (σ : Session) : σ.ended.ended = σ.ended := rfl

/-! ## Parts that the services share -/

section Shared

variable {R : Exc → Session → Prop}

/-- Publishing an event draws identifiers and reads the clock. -/
theorem follows_publishEvent {topic eventType : String} {payload : EventPayload}
    {actorId : Option UUID} {Q : OutboxRow → Session → Prop} (htopic : topic = payload.topic)
    (htype : eventType = payload.eventType)
    (h : ∀ row ids t, row.Publishes (ids ++ σ.drawn) payload →
      Q row { σ with drawn := ids ++ σ.drawn, clockRead := some t }) :
    Follows sha256 (publishEvent topic eventType payload actorId) Q R σ := by
  simp only [publishEvent, Contract.wp_bind, follows_uuid4, follows_now, Contract.wp_pure]
  intro eventId t _ id
  refine h _ [id, eventId] t ⟨htopic, htype, htype, rfl, eventId, ?_, rfl⟩
  simp

/-- A block that commits at its end and rolls back after an exception. -/
theorem follows_begin {α : Type} {body : Program α} {Q : α → Session → Prop}
    (h : Follows sha256 body (fun a σ' => Committable σ' ∧ Q a σ'.commit ∧ ∀ e, R e σ'.ended)
      (fun _ σ' => ∀ e, R e σ'.ended) σ) :
    Follows sha256 (begin body) Q R σ := by
  simp only [begin, Contract.wp_tryCatch, Contract.wp_bind, follows_commit, follows_rollback,
    Contract.wp_pure, Contract.wp_throw, Session.ended_ended]
  refine Contract.wp_mono _ _ (fun a σ' ha => ?_) (fun e σ' he => ⟨he e, he⟩) h
  exact ⟨ha.1, ha.2.1, fun e => ⟨ha.2.2 e, ha.2.2⟩⟩

/-- Flushing a list of writes, where `I` holds as long as no write has failed. -/
theorem follows_flush_of {I : Session → Prop} {ws : List Write} {Q : Unit → Session → Prop}
    (hwrote : ∀ w σ', I σ' → I (σ'.wrote w))
    (hR : ∀ w e σ', I σ' → R e (σ'.afterWrite w (.error e))) (hI : I σ)
    (h : Q () (ws.foldl Session.wrote σ)) : Follows sha256 (flush ws) Q R σ := by
  induction ws generalizing σ with
  | nil => simpa [flush] using h
  | cons w ws ih =>
      simp only [flush, Contract.wp_bind, follows_write]
      exact ⟨ih (hwrote w σ hI) h, fun e => hR w e σ hI⟩

/-- Flushing a list of writes, when nothing is said about a failure. -/
theorem follows_flush {ws : List Write} {Q : Unit → Session → Prop}
    (hR : ∀ e σ', R e σ') (h : Q () (ws.foldl Session.wrote σ)) :
    Follows sha256 (flush ws) Q R σ :=
  follows_flush_of (I := fun _ => True) (fun _ _ _ => trivial) (fun _ _ _ _ => hR _ _) trivial h

end Shared

/-! ## Accounts -/

/-- Opening an account keeps the discipline. -/
theorem keeps_openAccount (userId : UUID) (hw : σ.writes = []) :
    Keeps sha256 (openAccount userId) σ := by
  simp only [openAccount, Contract.wp_bind, follows_uuid4, follows_now]
  intro t _ id
  refine follows_publishEvent rfl rfl fun event ids t' hevent => ?_
  refine Contract.wp_tryCatch_of_forall _ _ ?_ fun e σ' => ?_
  · simp only [Contract.wp_bind]
    refine follows_flush (fun _ _ => trivial) ?_
    simp only [List.foldl, Session.wrote, hw, List.nil_append, List.cons_append, follows_commit,
      follows_getAccountById, implies_true, and_true]
    refine ⟨⟨.opened _ event, rfl, .opened (by simp) rfl, .opened rfl hevent⟩, fun a => ?_⟩
    cases a <;> simp
  · split <;> simp

/-- The handler of a duplicate seed keeps the discipline. -/
theorem keeps_resolveSeed (q : SeedRequest) (e : Exc) (σ : Session) :
    Keeps sha256 (resolveSeed q e) σ := by
  unfold resolveSeed
  split
  · simp only [Contract.wp_bind, follows_rollback, follows_ledgerEntryByKey, implies_true, and_true]
    intro l
    cases l with
    | none => simp
    | some l =>
        dsimp only
        split <;> simp
  · simp

/-- Seeding an account keeps the discipline. -/
theorem keeps_seed (q : SeedRequest) (hw : σ.writes = []) : Keeps sha256 (seed q) σ := by
  simp only [seed, Contract.wp_bind, follows_getAccountById, implies_true, and_true]
  intro a
  cases a with
  | none => simp
  | some a =>
      simp only [Contract.wp_bind, follows_uuid4, follows_now]
      intro t _ txnId debitId creditId
      refine follows_publishEvent rfl rfl fun event ids t' hevent => ?_
      refine Contract.wp_tryCatch_of_forall _ _ ?_ fun e σ' => ?_
      · -- the two legs and the event are the writes of one transaction
        simp only [Contract.wp_bind]
        refine follows_flush (fun _ _ => trivial) ?_
        simp only [List.foldl, Session.wrote, hw, List.nil_append, List.cons_append, follows_commit,
          Contract.wp_pure, follows_getBalance, implies_true, and_true]
        refine ⟨.seeded ⟨_, _, ⟨⟨systemAccountId, q.accountId, q.amount⟩, .seed, none, "USD"⟩, ?_⟩
          event, rfl, .seeded ?_ rfl rfl rfl rfl rfl, .seeded rfl hevent⟩
        · constructor <;> rfl
        · simp [Entry.transactionId]
      · -- after an exception the handler takes over
        exact Contract.wp_mono _ _ (fun id σ'' _ => by simp) (fun _ _ _ => trivial)
          (keeps_resolveSeed q e σ')

/-! ## Transfers -/

/-- Locking accounts adds their locks to the session. -/
theorem follows_lockAccounts {ids : List UUID} {Q : Unit → Session → Prop}
    (h : Q () { σ with locks := (ids.map .account).reverse ++ σ.locks }) :
    Follows sha256 (lockAccounts ids) Q (fun _ _ => True) σ := by
  induction ids generalizing σ with
  | nil => simpa [lockAccounts] using h
  | cons id ids ih =>
      simp only [lockAccounts, Contract.wp_bind, follows_lockAccount, implies_true, and_true,
        Contract.wp_throw, true_and]
      intro a
      refine ih ?_
      simpa [Session.lock] using h

/-- Both accounts of a transfer get locked. -/
theorem mem_lockOrder (a b : UUID) : a ∈ lockOrder a b := by
  unfold lockOrder
  split <;> simp

/-- The transfer is the answer that may be cached for the request. -/
def CachesTransfer (sha256 : String → String) (q : TransferRequest) (t : Transfer Decimal)
    (σ : Session) : Prop :=
  Cacheable sha256 σ (transferCacheKey q.idempotencyKey)
    { requestHash := q.hash sha256, response := .transfer (transferToResponse t) }

/-- Recording a transfer that the balance does not cover keeps the discipline. It never returns. -/
theorem follows_recordInsufficientBalance (q : TransferRequest) (hw : σ.writes = []) :
    Follows sha256 (recordInsufficientBalance q) (CachesTransfer sha256 q) (fun _ _ => True) σ := by
  simp only [recordInsufficientBalance, Contract.wp_bind, follows_uuid4, follows_now]
  intro t _ id
  refine follows_publishEvent rfl rfl fun event ids t' hevent => ?_
  refine follows_flush (fun _ _ => trivial) ?_
  simp only [List.foldl, Session.wrote, hw, List.nil_append, List.cons_append, follows_commit,
    implies_true, and_true, Contract.wp_throw]
  exact ⟨.transferFailed _ event, rfl, .transferFailed (by simp) rfl, .transferFailed rfl hevent⟩

/-- Moving the money of a transfer keeps the discipline. -/
theorem follows_recordTransfer (q : TransferRequest) (hw : σ.writes = [])
    (hcovers : σ.Covers q.fromAccountId q.amount) :
    Follows sha256 (recordTransfer q) (CachesTransfer sha256 q) (fun _ _ => True) σ := by
  simp only [recordTransfer, Contract.wp_bind, follows_uuid4, follows_now]
  intro t _ txnId id debitId creditId
  refine follows_publishEvent rfl rfl fun event ids t' hevent => ?_
  refine follows_flush (fun _ _ => trivial) ?_
  simp only [List.foldl, Session.wrote, hw, List.nil_append, List.cons_append, follows_commit,
    implies_true, and_true, Contract.wp_pure]
  refine ⟨⟨.transferred _ ⟨_, _, Transfer.movement _, ?_⟩ event, rfl,
    .transferred ?_ ?_ rfl rfl ⟨rfl, rfl⟩ hcovers, .transferred rfl hevent⟩, ?_⟩
  · constructor <;> rfl
  · simp
  · simp [Entry.transactionId]
  · refine Cacheable.transferred (t := { id := id, .. }) (List.mem_append_left _ ?_) rfl
    simp [Session.inserted]

/-- The transaction of a transfer keeps the discipline. -/
theorem follows_attemptTransfer (q : TransferRequest) (hw : σ.writes = []) :
    Follows sha256 (attemptTransfer q) (CachesTransfer sha256 q) (fun _ _ => True) σ := by
  simp only [attemptTransfer, Contract.wp_bind]
  refine follows_lockAccounts ?_
  simp only [follows_getBalance, implies_true, and_true]
  intro b
  have hlocked : Lock.account q.fromAccountId ∈
      ((lockOrder q.fromAccountId q.toAccountId).map Lock.account).reverse ++ σ.locks := by
    simp [mem_lockOrder]
  simp only [Session.learn, hlocked, hw, List.isEmpty_nil, and_self, if_true]
  split
  · exact follows_recordInsufficientBalance q rfl
  · next hle => exact follows_recordTransfer q rfl ⟨b, List.mem_cons_self .., hle⟩

/-- The handler of a duplicate transfer keeps the discipline. -/
theorem follows_resolveTransfer (q : TransferRequest) (e : Exc) (σ : Session) :
    Follows sha256 (resolveTransfer sha256 q e) (CachesTransfer sha256 q) (fun _ _ => True) σ := by
  unfold resolveTransfer
  -- only the violation of a unique key is handled, in a new transaction
  split
  · simp only [Contract.wp_bind, follows_rollback, implies_true, and_true]
    split
    · simp only [Contract.wp_bind, follows_transferByKey, implies_true, and_true]
      intro t ht
      cases t with
      | none => simp
      | some t =>
          have hkey : t.idempotencyKey = q.idempotencyKey := ht t rfl
          dsimp only
          split
          · simp
          · next hhash =>
              split
              · simp
              · next hstatus =>
                  -- a transfer that failed has raised, so the row that is cached is completed
                  have hcompleted : t.status = .completed := by
                    cases hs : t.status with
                    | completed => rfl
                    | failed => exact absurd hs hstatus
                  have hcacheable : Cacheable sha256
                      (σ.ended.learn (.transferByKey q.idempotencyKey) (some t))
                      (transferCacheKey t.idempotencyKey) (t.loaded.cacheEntry sha256) :=
                    .replayed (List.mem_cons_self ..) hcompleted
                  rw [Contract.wp_pure, CachesTransfer, ← hkey, ← not_ne_iff.mp hhash]
                  exact hcacheable
    · simp
  · simp

/-- A transfer keeps the discipline. -/
theorem keeps_transfer (q : TransferRequest) (hw : σ.writes = []) :
    Keeps sha256 (transfer sha256 q) σ := by
  simp only [transfer, Contract.wp_bind, follows_cacheGet, implies_true, and_true]
  intro entry
  cases entry with
  | some cached =>
      dsimp only
      split
      · simp
      · unfold CacheEntry.transferResponse
        split <;> simp
  | none =>
      simp only [Contract.wp_bind, follows_cacheSet, implies_true, and_true, Contract.wp_pure]
      exact Contract.wp_tryCatch_of_forall _ _ (follows_attemptTransfer q hw)
        (follows_resolveTransfer q)

/-! ## Deposits -/

/-- Inserting the pending deposit: it is the only write, or else an existing deposit is found. -/
theorem follows_insertDeposit {q : DepositRequest} {d : Deposit Decimal}
    {Q : Option (Deposit Ticks) → Session → Prop} (hnone : Q none (σ.wrote (.insert (.deposit d))))
    (hsome : ∀ existing σ', Q (some existing) σ') :
    Follows sha256 (insertDeposit q d) Q (fun _ _ => True) σ := by
  refine Contract.wp_tryCatch_of_forall _ _ ?_ fun e σ' => ?_
  · simpa using hnone
  · split
    · simp only [Contract.wp_bind, follows_rollback, implies_true, and_true]
      split
      · simp only [Contract.wp_bind, follows_depositByReference, implies_true, and_true]
        intro existing
        cases existing with
        | none => simp
        | some existing => simpa using hsome existing _
      · simp
    · simp

/-- A deposit that is not rejected before its account is loaded is to the account of a user, and in
a supported currency. -/
theorem rejectionReason_eq_none {q : DepositRequest} (h : rejectionReason q = none) :
    q.accountId ≠ systemAccountId ∧ q.currency ∈ supportedCurrencies := by
  unfold rejectionReason at h
  split at h
  · cases h
  · next hsystem =>
      split at h
      · cases h
      · split at h
        · cases h
        · next hcurrency => exact ⟨hsystem, not_not.mp hcurrency⟩

/-- Validating a deposit changes nothing but the locks. A deposit that passes is to the account of a
user, and in a supported currency. -/
theorem follows_validateDeposit {q : DepositRequest} {Q : Option String → Session → Prop}
    (h : ∀ reason locks,
      (reason = none → q.accountId ≠ systemAccountId ∧ q.currency ∈ supportedCurrencies) →
      Q reason { σ with locks := locks }) :
    Follows sha256 (validateDeposit q) Q (fun _ _ => True) σ := by
  unfold validateDeposit
  split
  · exact (Contract.wp_pure _ _ _).mpr (h _ σ.locks fun hnone => nomatch hnone)
  · next hreason =>
      have hpasses := rejectionReason_eq_none hreason
      simp only [Contract.wp_bind, follows_lockAccount, implies_true, and_true, Contract.wp_pure]
      refine ⟨h _ σ.locks fun _ => hpasses, fun a => ?_⟩
      split
      · exact (Contract.wp_pure _ _ _).mpr (h _ _ fun _ => hpasses)
      · exact (Contract.wp_pure _ _ _).mpr (h _ _ fun _ => hpasses)

/-- Rejecting a deposit keeps the discipline. -/
theorem keeps_rejectDeposit {d : Deposit Decimal} {reason : String} {at_ : Time}
    (hw : σ.writes = [.insert (.deposit d)]) (hd : d.id ∈ σ.drawn) :
    Keeps sha256 (rejectDeposit d reason at_) σ := by
  simp only [rejectDeposit, Contract.wp_bind]
  refine follows_publishEvent rfl rfl fun event ids t hevent => ?_
  refine follows_flush (fun _ _ => trivial) ?_
  simp only [List.foldl, Session.wrote, hw, List.nil_append, List.cons_append, follows_commit,
    implies_true, and_true, Contract.wp_pure]
  exact ⟨.depositRejected d _ event, rfl, .depositRejected (List.mem_append_right _ hd) rfl,
    .depositRejected rfl hevent⟩

/-- Completing a deposit keeps the discipline. -/
theorem keeps_completeDeposit {d : Deposit Decimal} {at_ : Time}
    (hw : σ.writes = [.insert (.deposit d)]) (hd : d.id ∈ σ.drawn)
    (hsystem : d.accountId ≠ systemAccountId) (hcurrency : d.currency ∈ supportedCurrencies) :
    Keeps sha256 (completeDeposit d at_) σ := by
  simp only [completeDeposit, Contract.wp_bind, follows_uuid4]
  intro transactionId creditId debitId
  refine follows_publishEvent rfl rfl fun event ids t hevent => ?_
  refine follows_flush (fun _ _ => trivial) ?_
  simp only [List.foldl, Session.wrote, hw, List.nil_append, List.cons_append, follows_commit,
    implies_true, and_true, Contract.wp_pure]
  refine ⟨.deposited d ⟨_, _, d.movement, ?_⟩ _ event, rfl,
    .deposited ?_ ?_ rfl rfl ⟨rfl, rfl⟩ hsystem, .deposited hcurrency hevent⟩
  · constructor <;> rfl
  · simp [hd]
  · simp [Entry.transactionId]

/-- A deposit keeps the discipline. -/
theorem keeps_simulateDeposit (q : DepositRequest) (hw : σ.writes = []) :
    Keeps sha256 (simulateDeposit q) σ := by
  simp only [simulateDeposit, Contract.wp_bind, follows_uuid4, follows_now]
  intro t _ id
  refine follows_insertDeposit ?_ fun existing σ' => by simp
  simp only [Contract.wp_bind]
  refine follows_validateDeposit fun reason locks hpasses => ?_
  cases reason with
  | some reason => exact keeps_rejectDeposit (by simp [Session.wrote, hw]) (List.mem_cons_self ..)
  | none =>
      exact keeps_completeDeposit (by simp [Session.wrote, hw]) (List.mem_cons_self ..)
        (hpasses rfl).1 (hpasses rfl).2

/-! ## The circuit breaker -/

section CircuitBreaker

variable {cb : CircuitBreaker} {R : Exc → Session → Prop}

/-- Looking at the cooldown changes nothing but the clock reading. -/
theorem follows_cooldownElapsed {Q : Bool → Session → Prop}
    (hQ : ∀ b c, Q b { σ with clockRead := c }) (hR : R .redisError σ) :
    Follows sha256 cb.cooldownElapsed Q R σ := by
  simp only [CircuitBreaker.cooldownElapsed, Contract.wp_bind, follows_getLastFailureAt]
  refine ⟨fun last => ?_, hR⟩
  cases last with
  | none => simpa using hQ true σ.clockRead
  | some last =>
      simp only [Contract.wp_bind, follows_now, Contract.wp_pure]
      exact fun t _ => hQ _ _

/-- The pre-flight check changes nothing but the clock reading. -/
theorem follows_isCallAllowed {Q : Bool → Session → Prop}
    (hQ : ∀ b c, Q b { σ with clockRead := c }) (hR : R .redisError σ) :
    Follows sha256 cb.isCallAllowed Q R σ := by
  simp only [CircuitBreaker.isCallAllowed, Contract.wp_bind, follows_getState]
  refine ⟨fun state => ?_, hR⟩
  split
  · exact (Contract.wp_pure _ _ _).mpr (hQ _ σ.clockRead)
  · exact follows_cooldownElapsed hQ hR
  · simp only [Contract.wp_bind, follows_probeExists, Contract.wp_pure]
    exact ⟨fun b => hQ _ σ.clockRead, hR⟩

/-- Admission to the circuit changes nothing but the clock reading. -/
theorem follows_enter {Q : Unit → Session → Prop} (hQ : ∀ c, Q () { σ with clockRead := c })
    (hR : ∀ e c, R e { σ with clockRead := c }) : Follows sha256 cb.enter Q R σ := by
  have hredis : R .redisError σ := hR _ σ.clockRead
  -- each branch of the state either admits the call or throws, and only the clock is read
  simp only [CircuitBreaker.enter, Contract.wp_bind, follows_getState]
  refine ⟨fun state => ?_, hredis⟩
  split
  · exact (Contract.wp_pure _ _ _).mpr (hQ σ.clockRead)
  · rw [Contract.wp_bind]
    refine follows_cooldownElapsed (fun b c => ?_) hredis
    cases b with
    | false => simpa using hR _ c
    | true =>
        simp only [if_true, Contract.wp_bind, follows_claimProbe]
        refine ⟨fun claimed => ?_, hR _ c⟩
        split
        · exact (Contract.wp_pure _ _ _).mpr (hQ c)
        · exact (Contract.wp_throw _ _ _).mpr (hR _ c)
  · -- half-open: the probe is free, or its key is claimed with `SET NX`
    simp only [Contract.wp_bind, follows_probeExists]
    refine ⟨fun active => ?_, hredis⟩
    split
    · exact (Contract.wp_throw _ _ _).mpr (hR _ σ.clockRead)
    · simp only [Contract.wp_bind, follows_setProbe]
      refine ⟨fun claimed => ?_, hredis⟩
      split
      · exact (Contract.wp_pure _ _ _).mpr (hQ σ.clockRead)
      · exact (Contract.wp_throw _ _ _).mpr (hR _ σ.clockRead)

/-- The call of the rail. It returns, or fails in Redis, after the rail has accepted; every other
exception means that the rail has not. -/
theorem follows_callRail {breaker : Option CircuitBreaker} {w : Withdrawal Decimal}
    {Q : String → Session → Prop} (hsend : ∀ c, Sendable { σ with clockRead := c } w.id)
    (hQ : ∀ reference c, Q reference { σ with accepted := w.id :: σ.accepted, clockRead := c })
    (hR : ∀ e c, R e { σ with clockRead := c })
    (hlost : ∀ c, R .redisError { σ with accepted := w.id :: σ.accepted, clockRead := c }) :
    Follows sha256 (callRail breaker w) Q R σ := by
  cases breaker with
  -- without a circuit breaker there is the rail alone
  | none =>
      simp only [callRail, follows_sendWithdrawal]
      exact ⟨hsend σ.clockRead, fun reference => hQ reference σ.clockRead,
        fun e => hR e σ.clockRead⟩
  | some cb =>
      simp only [callRail, CircuitBreaker.call, Contract.wp_bind]
      -- the circuit lets the call through or raises
      refine follows_enter (fun c => ?_) hR
      simp only [CircuitBreaker.onSuccess, CircuitBreaker.onFailure, Contract.wp_tryCatch,
        Contract.wp_bind, follows_sendWithdrawal, follows_recordSuccess, Contract.wp_pure,
        Contract.wp_throw]
      -- the reply of Redis can be lost after the rail has accepted
      refine ⟨hsend c, fun reference => ⟨fun _ => hQ reference c, hlost c⟩, fun e => ?_⟩
      split
      · simp only [Contract.wp_bind, follows_now, follows_recordFailure, Contract.wp_pure,
          Contract.wp_throw]
        exact fun t _ => ⟨fun _ => hR _ _, hR _ _⟩
      · exact (Contract.wp_throw _ _ _).mpr (hR _ c)

/-- The outcome of the call of the rail: a reference if it has accepted, a code only if it has
not. -/
theorem follows_callRailOutcome {breaker : Option CircuitBreaker} {w : Withdrawal Decimal}
    {Q : Except String String → Session → Prop}
    (hsend : ∀ c, Sendable { σ with clockRead := c } w.id)
    (hok : ∀ reference c,
      Q (.ok reference) { σ with accepted := w.id :: σ.accepted, clockRead := c })
    (herror : ∀ code c, Q (.error code) { σ with clockRead := c })
    (hR : ∀ e c, R e { σ with clockRead := c })
    (hlost : ∀ c, R .redisError { σ with accepted := w.id :: σ.accepted, clockRead := c }) :
    Follows sha256 (callRailOutcome breaker w) Q R σ := by
  simp only [callRailOutcome, Contract.wp_tryCatch, Contract.wp_bind, Contract.wp_pure]
  refine follows_callRail hsend hok (fun e c => ?_) fun c => ?_
  · split
    · exact (Contract.wp_pure _ _ _).mpr (herror _ c)
    · exact (Contract.wp_throw _ _ _).mpr (hR _ c)
  · exact (Contract.wp_throw _ _ _).mpr (hlost c)

end CircuitBreaker

/-! ## The saga of a withdrawal, in its request handler -/

/-- The process has created the withdrawal, has committed it as it is in memory, and has no open
transaction. -/
structure Owning (w : Withdrawal Decimal) (σ : Session) : Prop where
  owned : σ.owned = some w
  writes : σ.writes = []
  rows : σ.rows = []

/-- Marking the withdrawal as submitted. -/
theorem follows_submitWithdrawal {w : Withdrawal Decimal} (h : Owning w σ)
    (hstatus : w.status = .pending) (haccepted : w.id ∉ σ.accepted) :
    Follows sha256 (submitWithdrawal w)
      (fun w' σ' => Owning w' σ' ∧ w'.status = .submitted ∧ w'.id ∉ σ'.accepted)
      (fun _ _ => True) σ := by
  refine follows_begin ?_
  simp only [Contract.wp_bind, follows_now]
  intro submittedAt _ updatedAt hle
  refine follows_flush (fun _ _ _ => trivial) ?_
  simp only [List.foldl, Session.wrote, Session.lock, h.writes, List.nil_append, Contract.wp_pure,
    implies_true, and_true]
  refine ⟨⟨.submitted w.id _, rfl, .submitted h.owned h.rows hstatus haccepted ?_, .submitted⟩,
    ⟨?_, rfl, rfl⟩, rfl, haccepted⟩
  · exact ⟨rfl, rfl, submittedAt, rfl, hle submittedAt rfl⟩
  · simp [Session.commit, Session.ownedAfter, h.owned]

/-- Completing the withdrawal. -/
theorem keeps_completeWithdrawal {w : Withdrawal Decimal} {reference : String}
    {actor : Option UUID} (h : Owning w σ) (hstatus : w.status = .submitted)
    (haccepted : w.id ∈ σ.accepted) :
    Keeps sha256 (completeWithdrawal w reference actor) σ := by
  refine follows_begin ?_
  simp only [Contract.wp_bind, follows_now]
  intro completedAt _
  refine follows_publishEvent rfl rfl fun event ids t hevent => ?_
  intro updatedAt _
  refine follows_flush (fun _ _ _ => trivial) ?_
  simp only [List.foldl, Session.wrote, Session.lock, h.writes, List.nil_append, List.cons_append,
    Contract.wp_pure, implies_true, and_true]
  exact ⟨.completed w.id [] _ event, rfl, .completed h.owned h.rows hstatus haccepted rfl,
    .completed (.inl h.owned) rfl hevent⟩

/-- Compensating the withdrawal. -/
theorem keeps_compensateWithdrawal {w : Withdrawal Decimal} {code : String} {actor : Option UUID}
    (h : Owning w σ) (hstatus : w.status = .submitted) (haccepted : w.id ∉ σ.accepted) :
    Keeps sha256 (compensateWithdrawal w code actor) σ := by
  simp only [compensateWithdrawal, Contract.wp_bind, follows_now]
  intro t _
  refine follows_begin ?_
  simp only [Contract.wp_bind, follows_uuid4]
  intro txnId debitId creditId
  refine follows_publishEvent rfl rfl fun event ids t' hevent => ?_
  simp only [follows_now]
  intro updatedAt _
  refine follows_flush (fun _ _ _ => trivial) ?_
  simp only [List.foldl, Session.wrote, Session.lock, h.writes, List.nil_append, List.cons_append,
    Contract.wp_pure, implies_true, and_true]
  -- its writes are a compensation of the withdrawal that the process owns
  refine ⟨.compensated w.id [] ⟨_, _, w.reversal, ?_⟩ _ event, rfl,
    .compensated h.owned h.rows hstatus haccepted ?_ ⟨rfl, rfl, rfl⟩ ⟨rfl, rfl, rfl⟩,
    .compensated rfl hevent⟩
  · constructor <;> rfl
  · simp [Entry.transactionId]

/-- Inserting the pending withdrawal: it is the only write, or else an existing one is found. -/
theorem follows_insertWithdrawal {q : WithdrawalRequest} {w : Withdrawal Decimal}
    {Q : Option (Withdrawal Ticks) → Session → Prop}
    (hnone : Q none (σ.wrote (.insert (.withdrawal w))))
    (hsome : ∀ existing σ', Q (some existing) σ') :
    Follows sha256 (insertWithdrawal q w) Q (fun _ _ => True) σ := by
  refine Contract.wp_tryCatch_of_forall _ _ ?_ fun e σ' => ?_
  · simpa using hnone
  · split
    · simp only [Contract.wp_bind, follows_rollback, implies_true, and_true,
        follows_withdrawalByKey]
      intro existing
      cases existing with
      | none => simp
      | some existing => simpa using hsome existing _
    · simp

/-- The rest of the saga, once the reservation is committed. -/
theorem keeps_runSaga {q : WithdrawalRequest} {w : Withdrawal Decimal} (h : Owning w σ)
    (hstatus : w.status = .pending) (haccepted : w.id ∉ σ.accepted)
    (hcache : Cacheable sha256 σ (withdrawalCacheKey q.idempotencyKey)
      { requestHash := q.hash sha256, response := .withdrawal (withdrawalToResponse w) }) :
    Keeps sha256 (runSaga sha256 q w) σ := by
  simp only [runSaga, Contract.wp_bind, follows_cacheSet, implies_true, and_true]
  refine ⟨hcache, ?_⟩
  refine Contract.wp_mono _ _ (fun w' σ' h' => ?_) (fun _ _ _ => trivial)
    (follows_submitWithdrawal h hstatus haccepted)
  obtain ⟨howning, hsubmitted, hnot⟩ := h'
  refine follows_callRailOutcome (fun c => .owner howning.owned howning.rows hsubmitted hnot)
    (fun reference c => ?_) (fun code c => ?_) (fun _ _ => trivial) fun _ => trivial
  · simp only [Contract.wp_bind, Contract.wp_pure]
    exact keeps_completeWithdrawal ⟨howning.owned, howning.writes, howning.rows⟩ hsubmitted
      (List.mem_cons_self ..)
  · simp only [Contract.wp_bind, Contract.wp_pure]
    exact keeps_compensateWithdrawal ⟨howning.owned, howning.writes, howning.rows⟩ hsubmitted hnot

/-- Committing the reservation makes the process the owner of the withdrawal. -/
theorem follows_reserveFunds {q : WithdrawalRequest} {w : Withdrawal Decimal} {at_ : Time}
    (hw : σ.writes = [.insert (.withdrawal w)]) (hid : w.id ∈ σ.drawn) (howned : σ.owned = none)
    (hstatus : w.status = .pending) (hreference : w.externalReference = none)
    (hsystem : w.accountId ≠ systemAccountId) (hcovers : σ.Covers w.accountId w.amount)
    (haccount : w.accountId = q.accountId) (hamount : w.amount = q.amount)
    (hcurrency : w.currency = q.currency) (htype : w.destinationType = q.destinationType)
    (haccepted : σ.accepted = []) :
    Follows sha256 (reserveFunds q w at_)
      (fun _ σ' => Owning w σ' ∧ .withdrawal w ∈ σ'.committed ∧ w.id ∉ σ'.accepted)
      (fun _ _ => True) σ := by
  simp only [reserveFunds, Contract.wp_bind, follows_uuid4]
  -- the reservation and the event are written behind the row of the withdrawal, and then committed
  intro txnId debitId creditId
  refine follows_publishEvent rfl rfl fun event ids t hevent => ?_
  refine follows_flush (fun _ _ => trivial) ?_
  simp only [List.foldl, Session.wrote, hw, List.nil_append, List.cons_append, follows_commit,
    implies_true, and_true]
  -- the parts of the transaction: its entry, its names, its event, and what the owner knows then
  refine ⟨⟨.reserved w ⟨_, _, w.reservation, ?_⟩ event, rfl,
    .reserved ?_ ?_ hstatus hreference hsystem rfl ⟨rfl, rfl⟩ hcovers howned, ?_⟩, ⟨?_, rfl, rfl⟩,
    ?_, ?_⟩
  · constructor
    case debit_account | credit_account | debit_amount | credit_amount | debit_currency |
      credit_currency =>
        first | rfl | exact haccount.symm | exact hamount.symm | exact hcurrency.symm
    all_goals rfl
  · simp [hid]
  · simp [Entry.transactionId]
  · rw [← haccount, ← hamount, ← hcurrency, ← htype] at hevent
    exact .reserved hevent
  · simp [Session.commit, Session.ownedAfter]
  · simp [Session.commit, Session.inserted]
  · simp [Session.commit, Session.ended, haccepted]

/-- TX 1 and the rest of the saga keep the discipline. -/
theorem keeps_startWithdrawal (q : WithdrawalRequest) (hw : σ.writes = []) (howned : σ.owned = none)
    (haccepted : σ.accepted = []) : Keeps sha256 (startWithdrawal sha256 q) σ := by
  unfold startWithdrawal
  -- a withdrawal of the system account is refused
  split
  · simp
  · next hsystem =>
      simp only [Contract.wp_bind, follows_lockAccount, implies_true, and_true, Contract.wp_throw,
        true_and]
      intro a
      simp only [follows_getBalance, implies_true, and_true]
      intro b
      -- the balance is read under the lock of the account, so it is the one that counts
      have hlocked : Lock.account q.accountId ∈ (σ.lock (.account q.accountId)).locks :=
        List.mem_cons_self ..
      have hwrites : (σ.lock (.account q.accountId)).writes = [] := hw
      simp only [Session.learn, hlocked, hwrites, List.isEmpty_nil, and_self, if_true]
      split
      · simp
      · -- the funds suffice, so the row and the reservation follow in one transaction
        next hle =>
          simp only [Contract.wp_bind, follows_now, follows_uuid4]
          intro t _ id
          refine follows_insertWithdrawal ?_ fun existing σ' => by simp
          simp only [Contract.wp_bind]
          refine Contract.wp_mono _ _ (fun _ σ' h => ?_) (fun _ _ _ => trivial)
            (follows_reserveFunds (by simp [Session.wrote, Session.lock, hw])
              (List.mem_cons_self ..) howned rfl rfl hsystem ⟨b, List.mem_cons_self .., hle⟩ rfl rfl
              rfl rfl haccepted)
          exact keeps_runSaga h.1 rfl h.2.2 (.reserved h.2.1)

/-- A withdrawal keeps the discipline. -/
theorem keeps_createWithdrawal (q : WithdrawalRequest) (hw : σ.writes = [])
    (howned : σ.owned = none) (haccepted : σ.accepted = []) :
    Keeps sha256 (createWithdrawal sha256 q) σ := by
  simp only [createWithdrawal, Contract.wp_bind, follows_cacheGet, implies_true, and_true]
  intro entry
  cases entry with
  | some cached =>
      dsimp only
      split
      · simp
      · unfold CacheEntry.withdrawalResponse
        split <;> simp
  | none => exact keeps_startWithdrawal q hw howned haccepted

/-! ## Reading a record -/

/-- Looking a transfer up keeps the discipline. -/
theorem keeps_getTransfer (id account : UUID) : Keeps sha256 (getTransfer id account) σ := by
  simp only [getTransfer, Contract.wp_bind, follows_transferById, implies_true, and_true]
  intro record
  split
  · simp
  · split <;> simp

/-- Looking a deposit up keeps the discipline. -/
theorem keeps_getDeposit (id account : UUID) : Keeps sha256 (getDeposit id account) σ := by
  simp only [getDeposit, Contract.wp_bind, follows_depositById, implies_true, and_true]
  intro deposit
  split
  · simp
  · split <;> simp

/-- Looking a withdrawal up keeps the discipline. -/
theorem keeps_getWithdrawal (id account : UUID) : Keeps sha256 (getWithdrawal id account) σ := by
  simp only [getWithdrawal, Contract.wp_bind, follows_withdrawalById, implies_true, and_true]
  intro withdrawal
  split
  · simp
  · split <;> simp

/-! ## Recovery sweeps -/

namespace SagaRecovery

/-- What a sweep leaves behind after it has dealt with one withdrawal: it has created none, and the
rail has accepted no other one. -/
def Passed (old : List UUID) (id : UUID) (σ : Session) : Prop :=
  σ.owned = none ∧ ∀ x ∈ σ.accepted, x = id ∨ x ∈ old

/-- What a sweep has to reach before the commit. -/
def Resolved (old : List UUID) (id : UUID) (σ : Session) : Prop :=
  Committable σ ∧ Passed old id σ ∧ σ.commit.owned = none

/-- The sweep holds the row, and has flushed no more than a change of its status. -/
structure Holding (row : Withdrawal Ticks) (before : List WithdrawalSet) (σ : Session) : Prop where
  owned : σ.owned = none
  rows : row ∈ σ.rows
  writes : σ.writes = before.map (.setWithdrawal row.id)

variable {row : Withdrawal Ticks} {before : List WithdrawalSet} {old : List UUID}

/-- Writing changes neither what the process has created nor what the rail has accepted. -/
theorem Passed.wrote {id : UUID} (w : Write) (h : Passed old id σ) : Passed old id (σ.wrote w) := by
  cases w <;> exact h

/-- Nor does a write that Postgres refuses. -/
theorem Passed.afterWrite {id : UUID} (w : Write) (e : Exc) (h : Passed old id σ) :
    Passed old id (σ.afterWrite w (.error e)) := by
  unfold Session.afterWrite
  split <;> simp_all [Session.ended, Session.aborted, Passed]

/-- A sweep that has no more than updates of withdrawals to commit creates none. -/
theorem commit_owned_of_updates {id : UUID} {ws : List Write} (howned : σ.owned = none)
    (hw : σ.writes = before.map (.setWithdrawal id) ++ ws)
    (hws : ws.foldl Session.ownedAfter none = none) : σ.commit.owned = none := by
  have hbefore (before : List WithdrawalSet) :
      (before.map (Write.setWithdrawal id)).foldl Session.ownedAfter none = none := by
    induction before with
    | nil => rfl
    | cons s before ih => simpa [Session.ownedAfter] using ih
  simp only [Session.commit, Session.ended, howned, hw, List.foldl_append, hbefore, hws]

/-- The reasons for which a sweep compensates. -/
def Compensable (row : Withdrawal Ticks) (before : List WithdrawalSet) (code : String)
    (σ : Session) : Prop :=
  row.status = .pending ∧ row.id ∉ σ.accepted ∨
    row.status = .submitted ∧ row.externalReference ≠ none ∨
    row.status = .submitted ∧ before = [] ∧ code = "TIMEOUT" ∧
      ∃ t, σ.clockRead = some t ∧ row.updatedAt + minutes hardTimeoutMinutes < t

variable {R : Exc → Session → Prop}

/-- Compensating a withdrawal in a sweep. -/
theorem follows_compensate {w : Withdrawal Decimal} {code : String} (h : Holding row before σ)
    (hreversal : w.reversal = row.loaded.reversal) (hid : w.id = row.id)
    (hreason : Compensable row before code σ) (hpassed : Passed old row.id σ)
    (hR : ∀ e σ', Passed old row.id σ' → R e σ') :
    Follows sha256 (compensate w code) (fun _ => Resolved old row.id) R σ := by
  simp only [compensate, hid, Contract.wp_bind, follows_uuid4, follows_now]
  intro txnId t ht debitId creditId
  -- every failure before the commit leaves the transaction without effect
  refine follows_publishEvent rfl rfl fun event ids t' hevent => ?_
  intro updatedAt _
  refine follows_flush_of (I := Passed old row.id) (fun w _ => Passed.wrote w)
    (fun w e σ' hσ' => hR e _ (hσ'.afterWrite w e)) hpassed ?_
  simp only [List.foldl, Session.wrote, Session.lock, h.writes, List.append_assoc, List.cons_append,
    List.nil_append]
  refine ⟨⟨.compensated row.id before ⟨_, _, w.reversal, ?_⟩ _ event, rfl,
    .recoveredCompensated h.owned h.rows ?_ ⟨hreversal, rfl, rfl⟩ ⟨rfl, rfl, rfl⟩ ?_,
    .compensated rfl hevent⟩, hpassed, commit_owned_of_updates h.owned rfl rfl⟩
  · -- the legs are those of the reservation, the other way round
    constructor
    case debit_reference | credit_reference => exact congrArg some hid.symm
    all_goals rfl
  · simp [Entry.transactionId]
  · -- the reason is one of the three that permit a refund
    rcases hreason with hpending | hknown | ⟨hsubmitted, hbefore, hcode, t₀, ht₀, hlt⟩
    · exact .inl hpending
    · exact .inr (.inl hknown)
    · exact .inr (.inr ⟨hsubmitted, hbefore, congrArg some hcode, t, rfl,
        hlt.trans_le (ht t₀ ht₀)⟩)

/-- Completing a withdrawal in a sweep. -/
theorem follows_complete {w : Withdrawal Decimal} {reference : String} (h : Holding row before σ)
    (hreservation : w.reservation = row.loaded.reservation) (hid : w.id = row.id)
    (hreason : row.status = .pending ∧ row.id ∈ σ.accepted ∨
      row.status = .submitted ∧ row.externalReference ≠ none)
    (hpassed : Passed old row.id σ) (hR : ∀ e σ', Passed old row.id σ' → R e σ') :
    Follows sha256 (complete w reference) (fun _ => Resolved old row.id) R σ := by
  simp only [complete, hid, Contract.wp_bind, follows_now]
  intro t _
  refine follows_publishEvent rfl rfl fun event ids t' hevent => ?_
  intro updatedAt _
  -- a statement that fails leaves the transaction to be rolled back
  refine follows_flush_of (I := Passed old row.id) (fun w _ => Passed.wrote w)
    (fun w e σ' hσ' => hR e _ (hσ'.afterWrite w e)) hpassed ?_
  simp only [List.foldl, Session.wrote, Session.lock, h.writes, List.append_assoc, List.cons_append,
    List.nil_append]
  -- the writes of the sweep, those before included, are a completion
  refine ⟨⟨.completed row.id before _ event, rfl,
    .recoveredCompleted h.owned h.rows rfl hreason, ?_⟩, hpassed,
    commit_owned_of_updates h.owned rfl rfl⟩
  rw [← hid] at hevent ⊢
  exact .completed (.inr ⟨row, h.rows, hreservation⟩) rfl hevent

/-- Nothing to commit. -/
theorem Resolved.nothing (hw : σ.writes = []) (hpassed : Passed old row.id σ) :
    Resolved old row.id σ :=
  ⟨⟨.empty, hw, .empty, .empty⟩, hpassed, by simp [Session.commit, hw, hpassed.1]⟩

/-- Recovery of a pending withdrawal. -/
theorem follows_recoverPending {cb : CircuitBreaker} (h : Holding row [] σ)
    (hstatus : row.status = .pending) (haccepted : row.id ∉ σ.accepted)
    (hpassed : Passed old row.id σ) (hR : ∀ e σ', Passed old row.id σ' → R e σ') :
    Follows sha256 (recoverPending cb row.loaded) (fun _ => Resolved old row.id) R σ := by
  simp only [recoverPending, Contract.wp_bind]
  refine follows_isCallAllowed (fun b c => ?_) (hR _ _ hpassed)
  -- the circuit is open: the withdrawal is refunded without a call
  cases b with
  | false =>
      exact follows_compensate ⟨h.owned, h.rows, h.writes⟩ rfl rfl (.inl ⟨hstatus, haccepted⟩)
        hpassed hR
  | true =>
      simp only [if_true, Contract.wp_bind, follows_now]
      intro submittedAt _ updatedAt _
      refine follows_flush_of (I := Passed old row.id) (fun w _ => Passed.wrote w)
        (fun w e σ' hσ' => hR e _ (hσ'.afterWrite w e)) hpassed ?_
      -- the update to submitted is flushed, and the row is still held
      have hholding (c : Option Time) (accepted : List UUID) (set : WithdrawalSet) :
          Holding row [set]
            { σ.wrote (.setWithdrawal row.id set) with accepted := accepted, clockRead := c } :=
        ⟨h.owned, h.rows, by simp [Session.wrote, h.writes]⟩
      -- an acceptance is noted for this withdrawal only
      have haccept (c : Option Time) (σ' : Session) (hσ' : Passed old row.id σ') :
          Passed old row.id
            { σ' with accepted := row.id :: σ'.accepted, clockRead := c } := by
        refine ⟨hσ'.1, fun x hx => ?_⟩
        rcases List.mem_cons.mp hx with rfl | hx
        · exact .inl rfl
        · exact hσ'.2 x hx
      -- the rail is asked while the row is held, which is when its answer counts
      refine follows_callRailOutcome (fun c => ?_) (fun reference c => ?_) (fun code c => ?_)
        (fun e c => hR e _ hpassed) fun c => hR _ _ (haccept c _ hpassed)
      · exact .sweep h.owned h.rows hstatus haccepted
      · exact follows_complete (hholding c _ _) rfl rfl (.inl ⟨hstatus, List.mem_cons_self ..⟩)
          (haccept c _ hpassed) hR
      · exact follows_compensate (hholding c _ _) rfl rfl (.inl ⟨hstatus, haccepted⟩) hpassed hR

/-- A text that is there is not `None`. -/
theorem ne_none_of_nonEmpty? {s : Option String} {t : String} (h : nonEmpty? s = some t) :
    s ≠ none := by
  rintro rfl
  cases h

/-- Recovery of a submitted withdrawal. -/
theorem follows_recoverSubmitted (h : Holding row [] σ) (hstatus : row.status = .submitted)
    (hpassed : Passed old row.id σ) (hR : ∀ e σ', Passed old row.id σ' → R e σ') :
    Follows sha256 (recoverSubmitted row.loaded) (fun _ => Resolved old row.id) R σ := by
  simp only [recoverSubmitted, Contract.wp_bind, follows_now]
  intro t _
  -- without an answer of the rail the age of the row decides
  have htimeout : Follows sha256
      (if row.loaded.updatedAt < t - minutes hardTimeoutMinutes then compensate row.loaded "TIMEOUT"
        else pure ()) (fun _ => Resolved old row.id) R { σ with clockRead := some t } := by
    split
    · next hlt =>
        exact follows_compensate ⟨h.owned, h.rows, h.writes⟩ rfl rfl
          (.inr (.inr ⟨hstatus, rfl, rfl, t, rfl, lt_sub_iff_add_lt.mp hlt⟩)) hpassed hR
    · exact (Contract.wp_pure _ _ _).mpr (.nothing h.writes hpassed)
  -- a reference is asked for; a row without one can only time out
  split
  · next reference href =>
      have hknown : row.status = .submitted ∧ row.externalReference ≠ none :=
        ⟨hstatus, ne_none_of_nonEmpty? href⟩
      -- an exception of the rail counts as no answer
      simp only [tryQueryStatus, Contract.wp_bind, Contract.wp_tryCatch, follows_queryStatus,
        Contract.wp_pure]
      refine ⟨fun status => ?_, fun e => htimeout⟩
      split
      · exact follows_complete ⟨h.owned, h.rows, h.writes⟩ rfl rfl (.inr hknown) hpassed hR
      · split
        · exact follows_compensate ⟨h.owned, h.rows, h.writes⟩ rfl rfl (.inr (.inl hknown)) hpassed
            hR
        · exact (Contract.wp_pure _ _ _).mpr (.nothing h.writes hpassed)
  · exact htimeout

/-- Resolving one withdrawal keeps the discipline and leaves the transaction closed. -/
theorem follows_resolveOne {cb : CircuitBreaker} {id : UUID} (hw : σ.writes = [])
    (howned : σ.owned = none) (haccepted : id ∉ σ.accepted) :
    Follows sha256 (resolveOne cb id)
      (fun _ σ' => σ'.writes = [] ∧ Passed σ.accepted id σ')
      (fun _ σ' => σ'.writes = [] ∧ Passed σ.accepted id σ') σ := by
  -- nothing has been accepted in this transaction yet
  have hpassed : Passed σ.accepted id σ := ⟨howned, fun x hx => .inr hx⟩
  refine follows_begin ?_
  refine Contract.wp_mono _ _ (Q := fun _ => Resolved σ.accepted id)
    (R := fun _ => Passed σ.accepted id) (fun _ σ' h => ?_) (fun e σ' h => fun _ => ⟨rfl, h⟩) ?_
  · exact ⟨h.1, ⟨rfl, h.2.2, h.2.1.2⟩, fun _ => ⟨rfl, h.2.1⟩⟩
  · simp only [Contract.wp_bind, follows_lockWithdrawal, Contract.wp_pure]
    refine ⟨⟨?_, fun row hid => ?_⟩, fun e => hpassed⟩
    · -- the withdrawal is locked by another sweep, or gone
      exact ⟨⟨.empty, hw, .empty, .empty⟩, hpassed, by simp [Session.commit, hw, howned]⟩
    · subst hid
      -- nothing was written before, so the row is read as it was committed
      have hreadAgain : σ.readAgain row =
          { σ.lock (.withdrawal row.id) with rows := row :: σ.rows } := by
        simp [Session.readAgain, hw]
      have hholding : Holding row [] (σ.readAgain row) := by
        rw [hreadAgain]
        exact ⟨howned, List.mem_cons_self .., hw⟩
      have hpassed' : Passed σ.accepted row.id (σ.readAgain row) := by
        rw [hreadAgain]
        exact hpassed
      cases hstatus : row.status with
      | pending =>
          refine follows_recoverPending hholding hstatus ?_ hpassed' fun _ _ h => h
          rw [hreadAgain]
          exact haccepted
      | submitted => exact follows_recoverSubmitted hholding hstatus hpassed' fun _ _ h => h
      -- a row that has been resolved meanwhile is left alone
      | completed => exact (Contract.wp_pure _ _ _).mpr (.nothing hholding.writes hpassed')
      | failed => exact (Contract.wp_pure _ _ _).mpr (.nothing hholding.writes hpassed')

/-- Resolving withdrawals in turn keeps the discipline. -/
theorem keeps_resolveAll {cb : CircuitBreaker} {ids : List UUID} (hids : ids.Nodup)
    (hw : σ.writes = []) (howned : σ.owned = none) (haccepted : ∀ id ∈ ids, id ∉ σ.accepted) :
    Keeps sha256 (resolveAll cb ids) σ := by
  induction ids generalizing σ with
  | nil => simp [resolveAll]
  | cons id ids ih =>
      rw [List.nodup_cons] at hids
      -- what one withdrawal leaves behind is a good start for the next
      have hnext {σ' : Session} (h : σ'.writes = [] ∧ Passed σ.accepted id σ') :
          Keeps sha256 (resolveAll cb ids) σ' := by
        refine ih hids.2 h.1 h.2.1 fun x hx hx' => ?_
        rcases h.2.2 x hx' with rfl | hold
        · exact hids.1 hx
        · exact haccepted x (List.mem_cons_of_mem _ hx) hold
      simp only [resolveAll, Contract.wp_bind, Contract.wp_tryCatch, Contract.wp_pure]
      exact Contract.wp_mono _ _ (fun _ _ h => hnext h) (fun _ _ h => hnext h)
        (follows_resolveOne hw howned (haccepted id (List.mem_cons_self ..)))

/-- A sweep keeps the discipline. -/
theorem keeps_recoverStuckWithdrawals (cb : CircuitBreaker) (hw : σ.writes = [])
    (howned : σ.owned = none) (haccepted : σ.accepted = []) :
    Keeps sha256 (recoverStuckWithdrawals cb) σ := by
  simp only [recoverStuckWithdrawals, Contract.wp_bind, follows_now]
  intro t _
  refine follows_begin ?_
  simp only [follows_claimStuck, implies_true, and_true]
  intro ids hids
  refine ⟨⟨.empty, hw, .empty, .empty⟩, keeps_resolveAll hids rfl ?_ ?_⟩
  · simp [Session.commit, hw, howned]
  · simp [Session.commit, Session.ended, haccepted]

end SagaRecovery

/-- Every program of the wallet keeps the discipline from an idle session. -/
theorem keeps_program (request : Request) : Keeps sha256 (request.program sha256) {} := by
  cases request with
  | openAccount userId =>
      simpa [Request.program] using keeps_openAccount userId rfl
  | seed q => simpa [Request.program] using keeps_seed q rfl
  | transfer q => simpa [Request.program] using keeps_transfer q rfl
  | simulateDeposit q => simpa [Request.program] using keeps_simulateDeposit q rfl
  | createWithdrawal q => simpa [Request.program] using keeps_createWithdrawal q rfl rfl rfl
  | recoverStuckWithdrawals cb =>
      simpa [Request.program] using SagaRecovery.keeps_recoverStuckWithdrawals cb rfl rfl rfl
  | getTransfer id account => simpa [Request.program] using keeps_getTransfer id account
  | getDeposit id account => simpa [Request.program] using keeps_getDeposit id account
  | getWithdrawal id account => simpa [Request.program] using keeps_getWithdrawal id account

end MiniWallet
