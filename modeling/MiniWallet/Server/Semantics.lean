import MiniWallet.Process.Interleaving
import MiniWallet.Server.Operations

/-!
# What the operations do

Postgres runs every transaction at `READ COMMITTED`: a statement sees the committed rows and the
writes of its own transaction. A lock taken with `FOR UPDATE`, or by an `UPDATE`, is held until the
transaction ends, and an `INSERT` waits while another open transaction has inserted the same unique
key. The constraints of the tables are checked statement by statement.

* `Session`: the open transaction of a process, and what the process has learned so far. Only
  `writes` and `locks` have an influence on what happens; the other fields record it.
* `Shared`: the committed tables, Redis, the clock, and the record of what went on outside.
* `reply`: how an operation ends. What the environment decides is an explicit `Choice`, so that the
  semantics can be run.
* `after`, `effect`: what an operation that has ended does to the session and to the shared state.

An operation that fails after it has taken effect does not have an outcome of its own: to everyone
else it looks like an operation that succeeded in a process that then stopped.
-/

namespace MiniWallet

open Numeric Process

/-! ## Sessions and the shared state -/

/-- What a transaction can lock. -/
inductive Lock
  | account (id : UUID)
  | withdrawal (id : UUID)
deriving DecidableEq, Repr

/-- The session of a process. -/
structure Session where
  /-- The writes of the open transaction, in order. -/
  writes : List Write := []
  /-- The row locks of the open transaction. -/
  locks : List Lock := []
  /-- The identifiers drawn since the last commit. -/
  drawn : List UUID := []
  /-- The balances read in the open transaction, of accounts that were locked. -/
  balances : List (UUID × Ticks) := []
  /-- The withdrawals read again, under lock, in the open transaction. -/
  rows : List (Withdrawal Ticks) := []
  /-- The withdrawals that the rail has accepted when this process called it. -/
  accepted : List UUID := []
  /-- The withdrawal that this process has created, as it was last committed here. -/
  owned : Option (Withdrawal Decimal) := none
  /-- The objects that this process has inserted and committed. -/
  committed : List (Row Decimal) := []
  /-- The transfers that this process has read outside its own writes. -/
  seen : List (Transfer Ticks) := []
  /-- The last answer of Redis to the look-up of an idempotency key. -/
  cacheRead : Option (Option CacheEntry) := none
  /-- The last balance read. -/
  balanceRead : Option Ticks := none
  /-- The last time read. -/
  clockRead : Option Time := none

/-- A payment that the rail has accepted. -/
structure Payout where
  withdrawalId : UUID
  amount : Decimal
  reference : String

/-- What all processes share. -/
structure Shared where
  /-- The committed rows. -/
  db : Database
  /-- The idempotency keys in Redis. -/
  redis : String → Option CacheEntry := fun _ => none
  /-- The circuit breaker's keys in Redis. -/
  breaker : Breaker := {}
  clock : Time := 0
  /-- The identifiers that have been handed out. -/
  issued : List UUID
  /-- The objects ever inserted and committed, with their amounts as they were requested. -/
  history : List (Row Decimal) := []
  /-- The payments that the rail has accepted. -/
  payouts : List Payout := []
  /-- The withdrawals that have been read again under lock. -/
  reread : List UUID := []
  /-- The withdrawals that a process other than their creator has changed. -/
  overtaken : List UUID := []

/-- The shared state and the sessions. -/
abbrev State := World Shared Session

namespace Session

/-- The unique keys that the open transaction has taken. -/
def keys (σ : Session) : List UniqueKey := σ.writes.flatMap Write.keys

/-- The withdrawals that the open transaction updates. -/
def changes (σ : Session) : List UUID :=
  σ.writes.filterMap fun
    | .setWithdrawal id _ => some id
    | _ => none

/-- The objects that the open transaction inserts. -/
def inserted (σ : Session) : List (Row Decimal) :=
  σ.writes.filterMap fun
    | .insert row => some row
    | _ => none

/-- The process has created the withdrawal with this identifier. -/
def owns (σ : Session) (id : UUID) : Bool := (σ.owned.map (·.id)) == some id

/-- The session after its transaction has ended without a commit. -/
def ended (σ : Session) : Session :=
  { σ with writes := [], locks := [], balances := [], rows := [] }

/-- The session after a statement has failed: the transaction can only be rolled back. -/
def aborted (σ : Session) : Session := { σ with writes := [] }

/-- What a write means for the withdrawal that the process has created. -/
def ownedAfter (o : Option (Withdrawal Decimal)) : Write → Option (Withdrawal Decimal)
  | .insert (.withdrawal w) => some w
  | .setWithdrawal id set => o.map fun w => if w.id = id then set.apply w else w
  | _ => o

/-- The session after a commit. -/
def commit (σ : Session) : Session :=
  { σ.ended with
    drawn := []
    owned := σ.writes.foldl ownedAfter σ.owned
    committed := σ.inserted ++ σ.committed }

/-- The session after a lock has been taken. -/
def lock (σ : Session) (l : Lock) : Session := { σ with locks := l :: σ.locks }

/-- The session after a query has been answered. What is read behind own writes is not recorded as
a fact about committed rows. -/
def learn (σ : Session) : (q : Query) → q.Result → Session
  | .balance a, b =>
      if .account a ∈ σ.locks ∧ σ.writes.isEmpty then
        { σ with balances := (a, b) :: σ.balances, balanceRead := some b }
      else { σ with balanceRead := some b }
  | .transferByKey _, t =>
      if σ.writes.isEmpty then { σ with seen := t.toList ++ σ.seen } else σ
  | _, _ => σ

/-- The session after a withdrawal has been read again under lock. -/
def readAgain (σ : Session) (w : Withdrawal Ticks) : Session :=
  if σ.writes.isEmpty then { σ.lock (.withdrawal w.id) with rows := w :: σ.rows }
  else σ.lock (.withdrawal w.id)

/-- The session after a write. An `UPDATE` locks its row. -/
def wrote (σ : Session) (w : Write) : Session :=
  match w with
  | .setWithdrawal id _ => { σ.lock (.withdrawal id) with writes := σ.writes ++ [w] }
  | _ => { σ with writes := σ.writes ++ [w] }

end Session

/-! ## How operations end -/

/-- What the environment decides about the end of an operation. -/
inductive Choice
  /-- The operation ends as the state of the servers has it. -/
  | proceed
  /-- The server fails. -/
  | fail
  /-- The identifier to hand out. -/
  | fresh (id : UUID)
  /-- The rows to claim. -/
  | claim (ids : List UUID)
  /-- The rail accepts, with its reference. -/
  | accept (reference : String)
  /-- The rail rejects, with a code. -/
  | reject (code : String)
  /-- The rail cannot be reached, or its answer is lost. -/
  | disconnect
  /-- The answer to a status query. -/
  | status (s : RailStatus)

namespace State

variable (w : State) (i : ℕ)

/-- The rows that a statement of process `i` sees. -/
def view : Database := w.shared.db.applyAll (w.sess i).writes

/-- Another process holds the lock. -/
def LockedByOther (l : Lock) : Prop := ∃ j < w.size, j ≠ i ∧ l ∈ (w.sess j).locks

/-- Whether another transaction holds a lock is decidable. -/
instance (l : Lock) : Decidable (LockedByOther w i l) :=
  inferInstanceAs (Decidable (∃ j < _, _))

/-- The open transaction of another process has taken one of the unique keys. -/
def TakenByOther (ks : List UniqueKey) : Prop :=
  ∃ j < w.size, j ≠ i ∧ ∃ k ∈ ks, k ∈ (w.sess j).keys

/-- Whether another transaction has inserted one of the keys is decidable. -/
instance (ks : List UniqueKey) : Decidable (TakenByOther w i ks) :=
  inferInstanceAs (Decidable (∃ j < _, _))

/-- The row is one that the search for stuck withdrawals can return. -/
def Stuck (cutoff : Time) (r : Withdrawal Ticks) : Prop :=
  ¬ r.status.Terminal ∧ r.updatedAt < cutoff ∧ ¬ LockedByOther w i (.withdrawal r.id)

/-- Whether a withdrawal is stuck, and free, is decidable. -/
instance (cutoff : Time) (r : Withdrawal Ticks) : Decidable (Stuck w i cutoff r) :=
  inferInstanceAs (Decidable (_ ∧ _ ∧ _))

/-- `ids` is an answer to the search for stuck withdrawals: matching rows, as many as the limit
allows. -/
def Claimable (cutoff : Time) (limit : ℕ) (ids : List UUID) : Prop :=
  let stuck := ((view w i).withdrawals.filter fun r => Stuck w i cutoff r).map (·.id)
  ids.Nodup ∧ (∀ id ∈ ids, id ∈ stuck) ∧ ids.length ≤ limit ∧
    (ids.length < limit → ∀ id ∈ stuck, id ∈ ids)

/-- Whether these are identifiers that a sweep may claim is decidable. -/
instance (cutoff : Time) (limit : ℕ) (ids : List UUID) :
    Decidable (Claimable w i cutoff limit ids) :=
  inferInstanceAs (Decidable (_ ∧ _ ∧ _ ∧ _))

/-- How a write ends, or `none` while it has to wait. -/
def verdict : Write → Option (Except Exc Unit)
  | .insert row =>
      if !row.fits then some (.error .dataError)
      -- the order of PostgreSQL: `CHECK` constraints, unique ones, and the foreign keys after the
      -- row
      else match row.stored.failedCheck? with
        | some c => some (.error (.integrityError c))
        | none =>
            match row.keys.find? (· ∈ (view w i).keys) with
            | some k => some (.error (.integrityError k.constraint))
            | none =>
                -- another transaction is about to insert the key: its end decides
                if TakenByOther w i row.keys then none
                else match row.foreignKeys.find? fun fk => ((view w i).accountById fk.1).isNone with
                  | some (_, c) => some (.error (.integrityError c))
                  | none => some (.ok ())
  | .setDeposit id _ =>
      if ((view w i).deposits.any (·.id = id)) then some (.ok ()) else some (.error .staleData)
  | .setWithdrawal id set =>
      if !set.fits then some (.error .dataError)
      -- an UPDATE waits for the lock of its row
      else if LockedByOther w i (.withdrawal id) then none
      else if ((view w i).withdrawalById id).isNone then some (.error .staleData)
      else some (.ok ())

end State

namespace Choice

variable {α : Type}

/-- An operation that cannot fail. -/
def sure (choice : Choice) (a : α) : Option (Except Exc α) :=
  match choice with
  | proceed => some (.ok a)
  | _ => none

/-- An operation of a server: it ends as the server has it, unless the server fails. -/
def server (choice : Choice) (failure : Exc) (answer : Option (Except Exc α)) :
    Option (Except Exc α) :=
  match choice with
  | proceed => answer
  | fail => some (.error failure)
  | _ => none

/-- The fresh identifier that was chosen. -/
def unissued (choice : Choice) (issued : List UUID) : Option (Except Exc UUID) :=
  match choice with
  | fresh id => if id ∈ issued then none else some (.ok id)
  | _ => none

/-- The rows that were chosen, if they can be claimed. -/
def claimed (choice : Choice) (claimable : List UUID → Prop) [DecidablePred claimable] :
    Option (Except Exc (List UUID)) :=
  match choice with
  | claim ids => if claimable ids then some (.ok ids) else none
  | fail => some (.error .operationalError)
  | _ => none

/-- The failures of a call of the rail. -/
def railFailure (choice : Choice) : Option (Except Exc α) :=
  match choice with
  | reject code => some (.error (.railError code))
  | disconnect => some (.error .connectionError)
  | _ => none

/-- The answer of the rail to a payment. -/
def payment (choice : Choice) : Option (Except Exc String) :=
  match choice with
  | accept reference => some (.ok reference)
  | _ => choice.railFailure

/-- The answer of the rail to a status query. -/
def railStatus (choice : Choice) : Option (Except Exc RailStatus) :=
  match choice with
  | status s => some (.ok s)
  | _ => choice.railFailure

end Choice

open State in
/-- How the operation of process `i` ends, or `none` if it does not end this way. -/
def reply (choice : Choice) (i : ℕ) (w : State) : (o : Op) → Option (Except Exc o.Out)
  | .now => choice.sure w.shared.clock
  | .uuid4 => choice.unissued w.shared.issued
  | .cacheGet key => choice.server .redisError (some (.ok (w.shared.redis key)))
  | .cacheSet _ _ => choice.server .redisError (some (.ok ()))
  | .breaker c =>
      choice.server .redisError (some (.ok (c.reply w.shared.breaker w.shared.clock)))
  | .select q => choice.server .operationalError (some (.ok (q.eval (view w i))))
  | .lockAccount id =>
      -- `FOR UPDATE` waits while another transaction has locked the row
      choice.server .operationalError
        (if LockedByOther w i (.account id) then none else some (.ok ((view w i).accountById id)))
  | .lockWithdrawal id =>
      choice.server .operationalError
        (if LockedByOther w i (.withdrawal id) then none
          else some (.ok ((view w i).withdrawalById id)))
  -- `SKIP LOCKED`: the search never waits
  | .claimStuck cutoff limit => choice.claimed (Claimable w i cutoff limit)
  | .write wr => choice.server .operationalError (verdict w i wr)
  | .commit => choice.server .operationalError (some (.ok ()))
  | .rollback => choice.server .operationalError (some (.ok ()))
  | .sendWithdrawal _ _ _ => choice.payment
  | .queryStatus _ => choice.railStatus

/-- The operation of process `i` can end with result `r`. -/
def Ends (w : State) (i : ℕ) (o : Op) (r : Except Exc o.Out) : Prop :=
  ∃ choice, reply choice i w o = some r

/-! ## What operations change -/

/-- The session after a statement: a failed one ends the transaction. -/
def Session.settle {α : Type} (σ : Session) (f : α → Session) : Except Exc α → Session
  | .ok a => f a
  | .error _ => σ.ended

/-- The session after an operation outside the transaction: a failed one changes nothing. -/
def Session.onOk {α : Type} (σ : Session) (f : α → Session) : Except Exc α → Session
  | .ok a => f a
  | .error _ => σ

/-- The session after a write. A statement that is refused aborts the transaction, and a lost
connection ends it. -/
def Session.afterWrite (σ : Session) (w : Write) : Except Exc Unit → Session
  | .ok _ => σ.wrote w
  | .error .operationalError => σ.ended
  | .error _ => σ.aborted

/-- The session of a process after its operation has ended. -/
def after : (o : Op) → Except Exc o.Out → Session → Session
  | .now, r, σ => σ.onOk (fun t => { σ with clockRead := some t }) r
  | .uuid4, r, σ => σ.onOk (fun id => { σ with drawn := id :: σ.drawn }) r
  | .cacheGet _, r, σ => σ.onOk (fun entry => { σ with cacheRead := some entry }) r
  | .cacheSet _ _, _, σ => σ
  | .breaker _, _, σ => σ
  | .select q, r, σ => σ.settle (σ.learn q) r
  -- `FOR UPDATE` locks nothing where there is no row
  | .lockAccount id, r, σ => σ.settle (fun a => if a.isSome then σ.lock (.account id) else σ) r
  | .lockWithdrawal _, r, σ => σ.settle (fun row => row.elim σ σ.readAgain) r
  | .claimStuck _ _, r, σ =>
      σ.settle (fun ids => { σ with locks := ids.map .withdrawal ++ σ.locks }) r
  | .write w, r, σ => σ.afterWrite w r
  | .commit, r, σ => σ.settle (fun _ => σ.commit) r
  | .rollback, _, σ => σ.ended
  | .sendWithdrawal id _ _, r, σ => σ.onOk (fun _ => { σ with accepted := id :: σ.accepted }) r
  | .queryStatus _, _, σ => σ

/-- The shared state after a commit. -/
def Shared.commit (s : Shared) (σ : Session) : Shared :=
  { s with
    db := s.db.applyAll σ.writes
    history := σ.inserted ++ s.history
    overtaken := (σ.changes.filter fun id => !σ.owns id) ++ s.overtaken }

/-- The shared state after an operation: a failed one changes nothing. -/
def Shared.onOk {α : Type} (s : Shared) (f : α → Shared) : Except Exc α → Shared
  | .ok a => f a
  | .error _ => s

/-- The shared state after an operation has ended. -/
def effect : (o : Op) → Except Exc o.Out → Session → Shared → Shared
  | .uuid4, r, _, s => s.onOk (fun id => { s with issued := id :: s.issued }) r
  | .cacheSet key entry, r, _, s =>
      s.onOk (fun _ => { s with redis := Function.update s.redis key (some entry) }) r
  | .breaker c, r, _, s => s.onOk (fun _ => { s with breaker := c.effect s.breaker s.clock }) r
  | .lockWithdrawal _, r, _, s =>
      s.onOk (fun row => { s with reread := (row.map Withdrawal.id).toList ++ s.reread }) r
  | .commit, r, σ, s => s.onOk (fun _ => s.commit σ) r
  | .sendWithdrawal id amount _, r, _, s =>
      s.onOk (fun reference => { s with payouts := ⟨id, amount, reference⟩ :: s.payouts }) r
  | _, _, _, s => s

/-- What happens by itself: time passes, and entries of Redis expire or are evicted. -/
def env (s s' : Shared) : Prop :=
  ∃ clock redis, s' = { s with clock := clock, redis := redis } ∧ s.clock ≤ clock ∧
    ∀ key, redis key = s.redis key ∨ redis key = none

/-- The tables after the migrations: the system account and nothing else. -/
def Database.migrated (created : Time) : Database :=
  ⟨[.account ⟨systemAccountId, none, "active", created, created⟩]⟩

/-- The shared state before the first request. -/
def Shared.initial (clock : Time) : Shared where
  db := .migrated clock
  clock := clock
  issued := [systemAccountId]

end MiniWallet
