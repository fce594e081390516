import MiniWallet.Ledger.Transactions

/-!
# The discipline of a process

`discipline` is the contract that every program of the wallet keeps: it commits, calls the rail and
fills the cache only under the conditions of `Committable`, `Sendable` and `Cacheable`. The rules
say what awaiting each operation means for it. They are in the simp set, so that simp runs a program
symbolically.
-/

namespace MiniWallet

open Numeric Process Program

/-- What holds of the result of a query, apart from what it says about the tables. -/
def Query.Expected : (q : Query) → q.Result → Prop
  | .transferByKey key => fun t : Option (Transfer Ticks) => ∀ r ∈ t, r.idempotencyKey = key
  | _ => fun _ => True

/-- What a process may expect of the value that an operation returns. -/
def expected : (o : Op) → o.Out → Session → Prop
  | .now => fun (t : Time) σ => ∀ t' ∈ σ.clockRead, t' ≤ t
  | .select q => fun x _ => q.Expected x
  | .lockWithdrawal id => fun (r : Option (Withdrawal Ticks)) _ => ∀ w ∈ r, w.id = id
  | .claimStuck _ _ => fun (ids : List UUID) _ => ids.Nodup
  | _ => fun _ _ => True

/-- The exceptions that a process has to expect of an operation. -/
def expectedError : Op → Exc → Prop
  | .now, _ => False
  | .uuid4, _ => False
  | .breaker _, e => e = .redisError
  | _, _ => True

/-- What a process owes before its operations, and what it may expect of their results. -/
def discipline (sha256 : String → String) : Contract Op Op.Out Exc Session where
  guard
    | .commit, σ => Committable σ
    | .sendWithdrawal id _ _, σ => Sendable σ id
    | .cacheSet key entry, σ => Cacheable sha256 σ key entry
    | _, _ => True
  possible o r σ :=
    match r with
    | .ok a => expected o a σ
    | .error e => expectedError o e

/-- `Follows sha256 p Q R σ`: from session `σ` the program `p` keeps the discipline, and ends in `Q`
if it returns and in `R` if it raises. -/
abbrev Follows (sha256 : String → String) {α : Type} (p : Program α) (Q : α → Session → Prop)
    (R : Exc → Session → Prop) (σ : Session) : Prop :=
  (discipline sha256).wp after p Q R σ

section Rules

variable {sha256 : String → String} {R : Exc → Session → Prop} {σ : Session}

/-- Awaiting an operation: the guard holds, and both ways in which it can end lead on. -/
theorem follows_perform (o : Op) {Q : o.Out → Session → Prop} :
    Follows sha256 (perform o) Q R σ ↔
      (discipline sha256).guard o σ ∧ (∀ a, expected o a σ → Q a (after o (.ok a) σ)) ∧
        ∀ e, expectedError o e → R e (after o (.error e) σ) :=
  Contract.wp_perform _ _ o

/-- Awaiting an operation for which nothing is owed and of which nothing is expected. -/
theorem follows_plain {o : Op} {Q : o.Out → Session → Prop}
    (hguard : (discipline sha256).guard o σ) (hexpected : ∀ a, expected o a σ)
    (herror : ∀ e, expectedError o e) :
    Follows sha256 (perform o) Q R σ ↔
      (∀ a, Q a (after o (.ok a) σ)) ∧ ∀ e, R e (after o (.error e) σ) := by
  rw [follows_perform]
  exact ⟨fun h => ⟨fun a => h.2.1 a (hexpected a), fun e => h.2.2 e (herror e)⟩,
    fun h => ⟨hguard, fun a _ => h.1 a, fun e _ => h.2 e⟩⟩

/-- The clock does not go back. -/
@[simp]
theorem follows_now {Q : Time → Session → Prop} :
    Follows sha256 now Q R σ ↔
      ∀ t, (∀ t' ∈ σ.clockRead, t' ≤ t) → Q t { σ with clockRead := some t } :=
  (follows_perform Op.now).trans
    ⟨fun h => h.2.1, fun h => ⟨trivial, h, fun _ he => he.elim⟩⟩

/-- The session remembers what was drawn. -/
@[simp]
theorem follows_uuid4 {Q : UUID → Session → Prop} :
    Follows sha256 uuid4 Q R σ ↔ ∀ id, Q id { σ with drawn := id :: σ.drawn } :=
  (follows_perform Op.uuid4).trans
    ⟨fun h id => h.2.1 id trivial, fun h => ⟨trivial, fun id _ => h id, fun _ he => he.elim⟩⟩

/-- The session remembers what Redis had under the key. -/
@[simp]
theorem follows_cacheGet {key : String} {Q : Option CacheEntry → Session → Prop} :
    Follows sha256 (cacheGet key) Q R σ ↔
      (∀ entry, Q entry { σ with cacheRead := some entry }) ∧ ∀ e, R e σ :=
  follows_plain (o := Op.cacheGet key) trivial (fun _ => trivial) fun _ => trivial

/-- What is put into Redis has to describe an object that was committed or seen. -/
@[simp]
theorem follows_cacheSet {key : String} {entry : CacheEntry} {Q : Unit → Session → Prop} :
    Follows sha256 (cacheSet key entry) Q R σ ↔
      Cacheable sha256 σ key entry ∧ Q () σ ∧ ∀ e, R e σ :=
  (follows_perform (Op.cacheSet key entry)).trans
    ⟨fun h => ⟨h.1, h.2.1 () trivial, fun e => h.2.2 e trivial⟩,
      fun h => ⟨h.1, fun _ _ => h.2.1, fun e _ => h.2.2 e⟩⟩

/-- A command of the circuit breaker changes nothing in the session; it can only fail in Redis. -/
theorem follows_breaker (c : BreakerCommand) {Q : c.Reply → Session → Prop} :
    Follows sha256 (perform (.breaker c)) Q R σ ↔ (∀ x, Q x σ) ∧ R .redisError σ :=
  (follows_perform (Op.breaker c)).trans
    ⟨fun h => ⟨fun x => h.2.1 x trivial, h.2.2 _ rfl⟩,
      fun h => ⟨trivial, fun x _ => h.1 x, fun e he => (he : e = .redisError) ▸ h.2⟩⟩

/-- Nothing is known about the state of the circuit that is read. -/
@[simp]
theorem follows_getState {Q : Option CircuitState → Session → Prop} :
    Follows sha256 getState Q R σ ↔ (∀ x, Q x σ) ∧ R .redisError σ :=
  follows_breaker .getState

/-- Nothing is known about the time of the last failure. -/
@[simp]
theorem follows_getLastFailureAt {Q : Option Time → Session → Prop} :
    Follows sha256 getLastFailureAt Q R σ ↔ (∀ x, Q x σ) ∧ R .redisError σ :=
  follows_breaker .getLastFailureAt

/-- Nothing is known about the probe of another call. -/
@[simp]
theorem follows_probeExists {Q : Bool → Session → Prop} :
    Follows sha256 probeExists Q R σ ↔ (∀ x, Q x σ) ∧ R .redisError σ :=
  follows_breaker .probeExists

/-- The claim of a probe can succeed or not. -/
@[simp]
theorem follows_claimProbe {ttl : ℤ} {Q : Bool → Session → Prop} :
    Follows sha256 (claimProbe ttl) Q R σ ↔ (∀ x, Q x σ) ∧ R .redisError σ :=
  follows_breaker (.claimProbe ttl)

/-- Setting the probe can succeed or not. -/
@[simp]
theorem follows_setProbe {ttl : ℤ} {Q : Bool → Session → Prop} :
    Follows sha256 (setProbe ttl) Q R σ ↔ (∀ x, Q x σ) ∧ R .redisError σ :=
  follows_breaker (.setProbe ttl)

/-- A success may be reported at any time. -/
@[simp]
theorem follows_recordSuccess {Q : Unit → Session → Prop} :
    Follows sha256 recordSuccess Q R σ ↔ (∀ x, Q x σ) ∧ R .redisError σ :=
  follows_breaker .recordSuccess

/-- A failure may be reported at any time. -/
@[simp]
theorem follows_recordFailure {threshold : ℤ} {t : Time} {Q : CircuitState → Session → Prop} :
    Follows sha256 (recordFailure threshold t) Q R σ ↔ (∀ x, Q x σ) ∧ R .redisError σ :=
  follows_breaker (.recordFailure threshold t)

/-- Reading an account leaves no trace, but a failure ends the transaction. -/
@[simp]
theorem follows_getAccountById {id : UUID} {Q : Option Account → Session → Prop} :
    Follows sha256 (getAccountById id) Q R σ ↔ (∀ a, Q a σ) ∧ ∀ e, R e σ.ended :=
  follows_plain (o := Op.select (.accountById id)) trivial (fun _ => trivial) fun _ => trivial

/-- The session remembers the balance. -/
@[simp]
theorem follows_getBalance {a : UUID} {Q : Ticks → Session → Prop} :
    Follows sha256 (getBalance a) Q R σ ↔
      (∀ b, Q b (σ.learn (.balance a) b)) ∧ ∀ e, R e σ.ended :=
  follows_plain (o := Op.select (.balance a)) trivial (fun _ => trivial) fun _ => trivial

/-- The session remembers the transfer, which has the key. -/
@[simp]
theorem follows_transferByKey {key : String} {Q : Option (Transfer Ticks) → Session → Prop} :
    Follows sha256 (transferByKey key) Q R σ ↔
      (∀ t, (∀ r ∈ t, r.idempotencyKey = key) → Q t (σ.learn (.transferByKey key) t)) ∧
        ∀ e, R e σ.ended :=
  (follows_perform (Op.select (.transferByKey key))).trans
    ⟨fun h => ⟨h.2.1, fun e => h.2.2 e trivial⟩, fun h => ⟨trivial, h.1, fun e _ => h.2 e⟩⟩

/-- Nothing is remembered about a withdrawal that is looked up by its key. -/
@[simp]
theorem follows_withdrawalByKey {key : String} {Q : Option (Withdrawal Ticks) → Session → Prop} :
    Follows sha256 (withdrawalByKey key) Q R σ ↔ (∀ w, Q w σ) ∧ ∀ e, R e σ.ended :=
  follows_plain (o := Op.select (.withdrawalByKey key)) trivial (fun _ => trivial) fun _ => trivial

/-- Nothing is remembered about a deposit that is looked up by its reference. -/
@[simp]
theorem follows_depositByReference {ref : String} {Q : Option (Deposit Ticks) → Session → Prop} :
    Follows sha256 (depositByReference ref) Q R σ ↔ (∀ d, Q d σ) ∧ ∀ e, R e σ.ended :=
  follows_plain (o := Op.select (.depositByReference ref)) trivial (fun _ => trivial)
    fun _ => trivial

/-- Nothing is remembered about a leg that is looked up by its key. -/
@[simp]
theorem follows_ledgerEntryByKey {key : String}
    {Q : Option (LedgerEntry Ticks) → Session → Prop} :
    Follows sha256 (ledgerEntryByKey key) Q R σ ↔ (∀ l, Q l σ) ∧ ∀ e, R e σ.ended :=
  follows_plain (o := Op.select (.ledgerEntryByKey key)) trivial (fun _ => trivial) fun _ => trivial

/-- Nothing is remembered about a transfer that is looked up. -/
@[simp]
theorem follows_transferById {id : UUID} {Q : Option (Transfer Ticks) → Session → Prop} :
    Follows sha256 (transferById id) Q R σ ↔ (∀ t, Q t σ) ∧ ∀ e, R e σ.ended :=
  follows_plain (o := Op.select (.transferById id)) trivial (fun _ => trivial) fun _ => trivial

/-- Nothing is remembered about a withdrawal that is looked up. -/
@[simp]
theorem follows_withdrawalById {id : UUID} {Q : Option (Withdrawal Ticks) → Session → Prop} :
    Follows sha256 (withdrawalById id) Q R σ ↔ (∀ w, Q w σ) ∧ ∀ e, R e σ.ended :=
  follows_plain (o := Op.select (.withdrawalById id)) trivial (fun _ => trivial) fun _ => trivial

/-- Nothing is remembered about a deposit that is looked up. -/
@[simp]
theorem follows_depositById {id : UUID} {Q : Option (Deposit Ticks) → Session → Prop} :
    Follows sha256 (depositById id) Q R σ ↔ (∀ d, Q d σ) ∧ ∀ e, R e σ.ended :=
  follows_plain (o := Op.select (.depositById id)) trivial (fun _ => trivial) fun _ => trivial

/-- An account that exists is locked until the transaction ends. -/
@[simp]
theorem follows_lockAccount {id : UUID} {Q : Option Account → Session → Prop} :
    Follows sha256 (lockAccount id) Q R σ ↔
      (Q none σ ∧ ∀ a, Q (some a) (σ.lock (.account id))) ∧ ∀ e, R e σ.ended :=
  (follows_plain (o := Op.lockAccount id) trivial (fun _ => trivial) fun _ => trivial).trans
    (and_congr_left fun _ => Option.forall)

/-- A withdrawal that exists is locked, and the session remembers the row as it was read under the
lock. -/
@[simp]
theorem follows_lockWithdrawal {id : UUID} {Q : Option (Withdrawal Ticks) → Session → Prop} :
    Follows sha256 (lockWithdrawal id) Q R σ ↔
      (Q none σ ∧ ∀ r, r.id = id → Q (some r) (σ.readAgain r)) ∧ ∀ e, R e σ.ended := by
  refine (follows_perform (Op.lockWithdrawal id)).trans ⟨fun h => ⟨⟨?_, ?_⟩, ?_⟩, fun h => ?_⟩
  · exact h.2.1 none fun w hw => nomatch hw
  · exact fun r hr => h.2.1 (some r) fun w hw => Option.some.inj hw ▸ hr
  · exact fun e => h.2.2 e trivial
  · refine ⟨trivial, fun r hr => ?_, fun e _ => h.2 e⟩
    cases r with
    | none => exact h.1.1
    | some r => exact h.1.2 r (hr r rfl)

/-- The withdrawals of a batch are locked, and none is in it twice. -/
@[simp]
theorem follows_claimStuck {cutoff : Time} {limit : ℕ} {Q : List UUID → Session → Prop} :
    Follows sha256 (claimStuck cutoff limit) Q R σ ↔
      (∀ ids, ids.Nodup → Q ids { σ with locks := ids.map .withdrawal ++ σ.locks }) ∧
        ∀ e, R e σ.ended :=
  (follows_perform (Op.claimStuck cutoff limit)).trans
    ⟨fun h => ⟨h.2.1, fun e => h.2.2 e trivial⟩, fun h => ⟨trivial, h.1, fun e _ => h.2 e⟩⟩

/-- The session remembers the statement, also if Postgres refuses it. -/
@[simp]
theorem follows_write {w : Write} {Q : Unit → Session → Prop} :
    Follows sha256 (write w) Q R σ ↔
      Q () (σ.wrote w) ∧ ∀ e, R e (σ.afterWrite w (.error e)) :=
  (follows_plain (o := Op.write w) trivial (fun _ => trivial) fun _ => trivial).trans
    (and_congr_left fun _ => ⟨fun h => h (), fun h _ => h⟩)

/-- A commit is allowed if the statements are those of a transaction. -/
@[simp]
theorem follows_commit {Q : Unit → Session → Prop} :
    Follows sha256 commit Q R σ ↔ Committable σ ∧ Q () σ.commit ∧ ∀ e, R e σ.ended :=
  (follows_perform Op.commit).trans
    ⟨fun h => ⟨h.1, h.2.1 () trivial, fun e => h.2.2 e trivial⟩,
      fun h => ⟨h.1, fun _ _ => h.2.1, fun e _ => h.2.2 e⟩⟩

/-- A rollback forgets the statements and the locks. -/
@[simp]
theorem follows_rollback {Q : Unit → Session → Prop} :
    Follows sha256 rollback Q R σ ↔ Q () σ.ended ∧ ∀ e, R e σ.ended :=
  (follows_plain (o := Op.rollback) trivial (fun _ => trivial) fun _ => trivial).trans
    (and_congr_left fun _ => ⟨fun h => h (), fun h _ => h⟩)

/-- A withdrawal has to be sendable, and the session remembers that the rail has accepted it. -/
@[simp]
theorem follows_sendWithdrawal {id : UUID} {amount : Decimal} {destination : Json}
    {Q : String → Session → Prop} :
    Follows sha256 (sendWithdrawal id amount destination) Q R σ ↔
      Sendable σ id ∧ (∀ reference, Q reference { σ with accepted := id :: σ.accepted }) ∧
        ∀ e, R e σ :=
  (follows_perform (Op.sendWithdrawal id amount destination)).trans
    ⟨fun h => ⟨h.1, fun x => h.2.1 x trivial, fun e => h.2.2 e trivial⟩,
      fun h => ⟨h.1, fun x _ => h.2.1 x, fun e _ => h.2.2 e⟩⟩

/-- The rail may report any status. -/
@[simp]
theorem follows_queryStatus {ref : String} {Q : RailStatus → Session → Prop} :
    Follows sha256 (queryStatus ref) Q R σ ↔ (∀ s, Q s σ) ∧ ∀ e, R e σ :=
  follows_plain (o := Op.queryStatus ref) trivial (fun _ => trivial) fun _ => trivial

end Rules

end MiniWallet
