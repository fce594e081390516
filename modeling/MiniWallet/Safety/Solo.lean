import MiniWallet.Process.Solo
import MiniWallet.Safety.Registry
import MiniWallet.Safety.Replay

/-!
# A request alone

What a process of the wallet does while no other one has an open transaction or acts. Then nothing
has to wait, and the only answers that are left open are the time, the fresh identifiers and whether
an entry of Redis is still there.

* `Solo`: what the process works on; `solo`: the contract of its operations, with one rule for each
  of them.
* `simulates_solo`: the contract describes a process of the wallet that is alone.
* `Quiet`, `Wallet.Alone`: a new process that runs a program alone.
* `alone_of_solo`: what the rules prove of a program holds of such a process.
-/

namespace MiniWallet

open Numeric Process System State Program

/-! ## Statements that do not wait -/

/-- How a statement ends on tables that no other transaction is about to change. -/
def Database.verdict (db : Database) : Write → Except Exc Unit
  | .insert row =>
      if !row.fits then .error .dataError
      -- the order of PostgreSQL: `CHECK` constraints, unique ones, and the foreign keys after the
      -- row
      else match row.stored.failedCheck? with
        | some c => .error (.integrityError c)
        | none =>
            match row.keys.find? (· ∈ db.keys) with
            | some k => .error (.integrityError k.constraint)
            | none =>
                match row.foreignKeys.find? fun fk => (db.accountById fk.1).isNone with
                | some (_, c) => .error (.integrityError c)
                | none => .ok ()
  | .setDeposit id _ => if db.deposits.any (·.id = id) then .ok () else .error .staleData
  | .setWithdrawal id set =>
      if !set.fits then .error .dataError
      -- the UPDATE has matched no row
      else if (db.withdrawalById id).isNone then .error .staleData
      else .ok ()

namespace Database

/-- The tables accept the row. -/
structure Admits (db : Database) (row : Row Decimal) : Prop where
  fits : row.fits = true
  checks : row.stored.failedCheck? = none
  unique : ∀ k ∈ row.keys, k ∉ db.keys
  accounts : db.Refers row

variable {db : Database} {row : Row Decimal}

/-- A row that the tables admit is inserted. -/
theorem verdict_of_admits (h : db.Admits row) : db.verdict (.insert row) = .ok () := by
  have hunique : row.keys.find? (· ∈ db.keys) = none :=
    List.find?_eq_none.mpr fun k hk => by simpa using h.unique k hk
  have haccounts : (row.foreignKeys.find? fun fk => (db.accountById fk.1).isNone) = none :=
    List.find?_eq_none.mpr fun fk hfk => by
      simpa [Option.isSome_iff_ne_none] using h.accounts fk hfk
  simp only [verdict, h.fits, Bool.not_true, Bool.false_eq_true, if_false, h.checks, hunique,
    haccounts]

/-- A value that does not fit its column is refused. -/
theorem verdict_of_not_fits (h : row.fits = false) :
    db.verdict (.insert row) = .error .dataError := by
  simp [verdict, h]

/-- A row that violates a `CHECK` constraint is refused. -/
theorem verdict_of_check (hfits : row.fits = true) {c : Constraint}
    (h : row.stored.failedCheck? = some c) :
    db.verdict (.insert row) = .error (.integrityError c) := by
  simp only [verdict, hfits, Bool.not_true, Bool.false_eq_true, if_false, h]

/-- A row with a key that is taken is refused, with the first such key if nothing else is wrong. -/
theorem verdict_of_taken (hfits : row.fits = true) (hchecks : row.stored.failedCheck? = none)
    {k : UniqueKey} (h : row.keys.find? (· ∈ db.keys) = some k) :
    db.verdict (.insert row) = .error (.integrityError k.constraint) := by
  simp only [verdict, hfits, Bool.not_true, Bool.false_eq_true, if_false, hchecks, h]

/-- The statements are accepted one after the other. -/
def Accepts : Database → List Write → Prop
  | _, [] => True
  | db, w :: ws => db.verdict w = .ok () ∧ (w.apply db).Accepts ws

/-- The last statement is accepted on the tables that the others leave. -/
theorem accepts_concat {ws : List Write} {w : Write} (h : db.Accepts ws)
    (hw : (db.applyAll ws).verdict w = .ok ()) : db.Accepts (ws ++ [w]) := by
  induction ws generalizing db with
  | nil => exact ⟨hw, trivial⟩
  | cons w' ws ih => exact ⟨h.1, ih h.2 hw⟩

end Database

/-- A fresh identifier is not a primary key of the tables. -/
theorem not_mem_of_within {keys : List UniqueKey} {ids : List UUID} (h : Within keys ids)
    {t : Table}
    {id : UUID} (hid : id ∉ ids) : .pkey t id ∉ keys :=
  fun hmem => hid (h t id hmem)

namespace Database

variable {db : Database}

/-- The ledger accepts a leg under a fresh identifier, to an account that exists, unless its
idempotency key is taken. -/
theorem admits_leg {e : LedgerEntry Decimal} (hamount : amountFits e.amount = true)
    (hpositive : 0 < Ticks.ofDecimal e.amount) (hcurrency : varchar 3 e.currency = true)
    (hkey : ∀ key ∈ e.idempotencyKey,
      varchar 255 key = true ∧ .ledgerIdempotencyKey key ∉ db.keys)
    (hid : .pkey .ledgerEntries e.id ∉ db.keys) (haccount : (db.accountById e.accountId).isSome) :
    db.Admits (.ledger e) where
  fits := by
    cases hk : e.idempotencyKey with
    | none => simp [Row.fits, hamount, hcurrency, hk]
    | some key => simp [Row.fits, hamount, hcurrency, hk, (hkey key hk).1]
  checks := if_pos hpositive
  unique := by
    intro k hk
    rcases List.mem_cons.mp hk with rfl | hk
    · exact hid
    · obtain ⟨key, hkey', rfl⟩ := List.mem_map.mp (Option.toList_map .. ▸ hk)
      exact (hkey key (Option.mem_toList.mp hkey')).2
  accounts := List.forall_mem_singleton.mpr haccount

/-- The outbox accepts an event under a fresh identifier. -/
theorem admits_event {o : OutboxRow} (hid : .pkey .outbox o.id ∉ db.keys) :
    db.Admits (.outbox o) where
  fits := rfl
  checks := rfl
  unique := List.forall_mem_singleton.mpr hid
  accounts := fun _ hfk => nomatch hfk

/-- An account that exists is not affected by a write. -/
theorem accountById_apply {w : Write} {id : UUID} (h : (db.accountById id).isSome) :
    ((w.apply db).accountById id).isSome :=
  show ((db.applyAll [w]).accountById id).isSome from db.accountById_applyAll h

end Database

/-- Without other transactions, a statement ends as it ends on the tables that the process sees. -/
theorem verdict_eq {w : State} {i : ℕ} (hlocks : ∀ j ≠ i, (w.sess j).locks = [])
    (hwrites : ∀ j ≠ i, (w.sess j).writes = []) (wr : Write) :
    State.verdict w i wr = some ((view w i).verdict wr) := by
  -- there is nobody who could have taken a key or hold a lock
  have hfree (ks : List UniqueKey) : ¬ TakenByOther w i ks := by
    rintro ⟨j, -, hj, k, -, hk⟩
    rw [Session.keys, hwrites j hj] at hk
    cases hk
  have hunlocked (l : Lock) : ¬ LockedByOther w i l := by
    rintro ⟨j, -, hj, hl⟩
    rw [hlocks j hj] at hl
    cases hl
  cases wr with
  | insert row =>
      simp only [State.verdict, Database.verdict, hfree, if_false]
      by_cases hfits : row.fits = true
      · -- the checks come in the order of the database: values, unique keys, foreign keys
        simp only [hfits, Bool.not_true, Bool.false_eq_true, if_false]
        cases row.stored.failedCheck? with
        | some c => rfl
        | none =>
            dsimp only
            cases row.keys.find? (· ∈ (view w i).keys) with
            | some k => rfl
            | none =>
                dsimp only
                cases row.foreignKeys.find? fun fk => ((view w i).accountById fk.1).isNone <;> rfl
      · simp [hfits]
  | setDeposit id set =>
      simp only [State.verdict, Database.verdict]
      split <;> rfl
  | setWithdrawal id set =>
      simp only [State.verdict, Database.verdict, hunlocked, if_false]
      split
      · rfl
      · split <;> rfl

/-! ## The process and its surroundings -/

/-- What a process that is alone works on. -/
structure Solo where
  /-- The committed tables. -/
  db : Database
  /-- The writes of its open transaction. -/
  writes : List Write := []
  /-- The identifiers that have been handed out. -/
  issued : List UUID
  /-- The entries of Redis, some of which may be gone. -/
  redis : String → Option CacheEntry

namespace Solo

/-- The tables that the process sees. -/
def view (st : Solo) : Database := st.db.applyAll st.writes

/-- What process `i` works on in world `w`, in which no other transaction is open. -/
structure At (i : ℕ) (st : Solo) (w : State) : Prop where
  db : w.shared.db = st.db
  writes : (w.sess i).writes = st.writes
  issued : w.shared.issued = st.issued
  redis : ∀ key, w.shared.redis key = st.redis key ∨ w.shared.redis key = none
  locks : ∀ j ≠ i, (w.sess j).locks = []
  others : ∀ j ≠ i, (w.sess j).writes = []

/-- The answers that the process can get. -/
def Answers (st : Solo) : (o : Op) → Except Exc o.Out → Prop
  | .now, r => ∃ t : Time, r = .ok t
  | .uuid4, r => ∃ id : UUID, id ∉ st.issued ∧ r = .ok id
  | .cacheGet key, r => r = .ok (st.redis key) ∨ r = .ok (none : Option CacheEntry)
  | .cacheSet _ _, r => r = .ok ()
  | .select q, r => r = .ok (q.eval st.view)
  | .lockAccount id, r => r = .ok (st.view.accountById id)
  | .lockWithdrawal id, r => r = .ok (st.view.withdrawalById id)
  | .write wr, r => r = st.view.verdict wr
  | .commit, r => r = .ok ()
  | .rollback, r => r = .ok ()
  | _, _ => False

/-- What the process works on after an operation. -/
def after (st : Solo) : (o : Op) → Except Exc o.Out → Solo
  | .uuid4, .ok id => { st with issued := id :: st.issued }
  | .cacheSet key entry, .ok _ =>
      { st with redis := Function.update st.redis key (some entry) }
  | .write wr, .ok _ => { st with writes := st.writes ++ [wr] }
  | .write _, .error _ => { st with writes := [] }
  | .commit, .ok _ => { st with db := st.view, writes := [] }
  | .rollback, _ => { st with writes := [] }
  | _, _ => st

end Solo

/-- The operations of a request to the database and to Redis. -/
def Op.Solitary : Op → Prop
  | .breaker _ | .claimStuck _ _ | .sendWithdrawal _ _ _ | .queryStatus _ => False
  | _ => True

/-- The contract of a process that is alone. -/
def solo : Contract Op Op.Out Exc Solo where
  guard o st := o.Solitary ∧ (o = .uuid4 → ∃ id, id ∉ st.issued)
  possible o r st := st.Answers o r

/-- Reading writes nothing. -/
theorem Session.writes_learn (σ : Session) (q : Query) (x : q.Result) :
    (σ.learn q x).writes = σ.writes := by
  cases q <;> simp only [Session.learn] <;> split <;> rfl

namespace Solo

variable {i : ℕ} {st : Solo} {w : State} {o : Op} {r : Except Exc o.Out}

/-- A process that runs alone sees what its abstract state says. -/
theorem At.view_eq (h : st.At i w) : State.view w i = st.view := by
  rw [State.view, Solo.view, h.db, h.writes]

/-- Nothing is locked by others. -/
theorem At.unlocked (h : st.At i w) (l : Lock) : ¬ LockedByOther w i l := by
  rintro ⟨j, -, hj, hl⟩
  rw [h.locks j hj] at hl
  cases hl

/-- The answers of the wallet are the ones that the process can get. -/
theorem At.answers (h : st.At i w) (ho : o.Solitary) (hends : Ends w i o r)
    (hanswered : Answered i w (.call i o r)) : st.Answers o r := by
  -- a server that does not fail has answered
  have hserver : r ≠ .error .operationalError ∧ r ≠ .error .redisError := by
    constructor <;> rintro rfl
    · exact hanswered rfl (.inl rfl)
    · exact hanswered rfl (.inr rfl)
  cases o with
  | now => exact ⟨_, ends_now hends⟩
  | uuid4 =>
      obtain ⟨id, hid, hr⟩ := ends_uuid4 hends
      exact ⟨id, h.issued ▸ hid, hr⟩
  | cacheGet key =>
      rcases ends_cacheGet hends with hr | hr
      · -- the entry may have expired in the meantime
        rcases h.redis key with hkey | hkey
        · exact .inl (hkey ▸ hr)
        · exact .inr (hkey ▸ hr)
      · exact absurd hr hserver.2
  | select q =>
      rcases ends_select hends with hr | hr
      · rw [h.view_eq] at hr
        exact hr
      · exact absurd hr hserver.1
  | lockAccount id =>
      rcases ends_lockAccount hends with ⟨hr, -⟩ | hr
      · rw [h.view_eq] at hr
        exact hr
      · exact absurd hr hserver.1
  | lockWithdrawal id =>
      rcases ends_lockWithdrawal hends with ⟨hr, -⟩ | hr
      · rw [h.view_eq] at hr
        exact hr
      · exact absurd hr hserver.1
  | write wr =>
      rcases ends_write hends with hr | hr
      · rw [verdict_eq h.locks h.others, h.view_eq] at hr
        exact (Option.some.inj hr).symm
      · exact absurd hr hserver.1
  | cacheSet key entry | commit | rollback =>
      obtain ⟨choice, hends⟩ := hends
      rcases Choice.server_eq_some hends with hr | hr
      · exact (Option.some.inj hr).symm
      · first | exact absurd hr hserver.1 | exact absurd hr hserver.2
  | _ => exact ho.elim

/-- The process goes on in the world after its operation. -/
theorem At.of_call (sha256 : String → String) {st' : Solo} (h : st.At i w)
    (hdb : (effect o r (w.sess i) w.shared).db = st'.db)
    (hwrites : (MiniWallet.after o r (w.sess i)).writes = st'.writes)
    (hissued : (effect o r (w.sess i) w.shared).issued = st'.issued)
    (hredis : ∀ key, (effect o r (w.sess i) w.shared).redis key = st'.redis key ∨
      (effect o r (w.sess i) w.shared).redis key = none) :
    st'.At i ((wallet sha256).afterCall w i o r) where
  db := hdb
  writes := by
    rw [← hwrites]
    exact congrArg Session.writes (Function.update_self ..)
  issued := hissued
  redis := hredis
  locks := fun j hj => (congrArg Session.locks (Function.update_of_ne hj ..)).trans (h.locks j hj)
  others := fun j hj => (congrArg Session.writes (Function.update_of_ne hj ..)).trans
    (h.others j hj)

/-- What the process works on keeps up with the world. -/
theorem At.after (sha256 : String → String) (h : st.At i w) (ho : o.Solitary)
    (hanswers : st.Answers o r) : (st.after o r).At i ((wallet sha256).afterCall w i o r) := by
  cases o with
  | now =>
      obtain ⟨t, rfl⟩ := hanswers
      exact h.of_call sha256 h.db h.writes h.issued h.redis
  | uuid4 =>
      obtain ⟨id, -, rfl⟩ := hanswers
      exact h.of_call sha256 h.db h.writes (congrArg (id :: ·) h.issued) h.redis
  | cacheGet key =>
      rcases hanswers with rfl | rfl <;> exact h.of_call sha256 h.db h.writes h.issued h.redis
  | cacheSet key entry =>
      cases hanswers
      refine h.of_call sha256 h.db h.writes h.issued fun key' => ?_
      dsimp only [effect, Shared.onOk, Solo.after]
      -- the entry is written under this key, and the others are as before
      by_cases hkey : key' = key
      · simp [hkey]
      · simpa [hkey] using h.redis key'
  | select q =>
      cases hanswers
      refine h.of_call sha256 h.db ?_ h.issued h.redis
      exact (Session.writes_learn _ q _).trans h.writes
  | lockAccount id =>
      cases hanswers
      refine h.of_call sha256 h.db ?_ h.issued h.redis
      dsimp only [MiniWallet.after, Session.settle]
      split <;> exact h.writes
  | lockWithdrawal id =>
      -- reading a row does not change the writes of the transaction
      cases hanswers
      refine h.of_call sha256 h.db ?_ h.issued h.redis
      dsimp only [MiniWallet.after, Session.settle]
      cases st.view.withdrawalById id with
      | none => exact h.writes
      | some row =>
          change ((w.sess i).readAgain row).writes = st.writes
          unfold Session.readAgain
          split <;> exact h.writes
  | write wr =>
      -- the statement joins the transaction, or ends it
      cases r with
      | ok u =>
          refine h.of_call sha256 h.db ?_ h.issued h.redis
          change ((w.sess i).wrote wr).writes = st.writes ++ [wr]
          rw [← h.writes]
          cases wr <;> rfl
      | error e =>
          refine h.of_call sha256 h.db ?_ h.issued h.redis
          change ((w.sess i).afterWrite wr (.error e)).writes = []
          unfold Session.afterWrite
          split
          · next heq => cases heq
          · rfl
          · rfl
  | commit =>
      cases hanswers
      -- the tables become what the process has seen
      refine h.of_call sha256 ?_ rfl h.issued h.redis
      change w.shared.db.applyAll (w.sess i).writes = st.view
      rw [h.db, h.writes, Solo.view]
  | rollback =>
      cases hanswers
      exact h.of_call sha256 h.db rfl h.issued h.redis
  | _ => exact ho.elim

/-- The wallet gives an answer. -/
theorem At.ends (h : st.At i w) (hguard : solo.guard o st) :
    ∃ r, Ends w i o r ∧ Answered i w (.call i o r) := by
  obtain ⟨ho, hfresh⟩ := hguard
  cases o with
  -- an identifier is left
  | uuid4 =>
      obtain ⟨id, hid⟩ := hfresh rfl
      exact ⟨.ok id, ⟨.fresh id, if_neg (h.issued ▸ hid)⟩, trivial⟩
  | now | cacheGet key | cacheSet key entry | select q | commit | rollback =>
      exact ⟨_, ⟨.proceed, rfl⟩, trivial⟩
  -- no other process holds a lock
  | lockAccount id => exact ⟨_, ⟨.proceed, if_neg (h.unlocked _)⟩, trivial⟩
  | lockWithdrawal id => exact ⟨_, ⟨.proceed, if_neg (h.unlocked _)⟩, trivial⟩
  | write wr =>
      -- no other process is about to insert a key, so that the verdict is there at once
      have hverdict := verdict_eq h.locks h.others wr
      refine ⟨_, ⟨.proceed, hverdict⟩, ?_⟩
      cases hr : (State.view w i).verdict wr with
      | ok u => trivial
      | error e =>
          rw [hr] at hverdict
          exact fun _ => verdict_answered hverdict
  | _ => exact ho.elim

end Solo

/-- The contract describes a process of the wallet that is alone. -/
theorem simulates_solo (sha256 : String → String) (i : ℕ) :
    (wallet sha256).Simulates (Answered i) i solo (fun o r st => st.after o r) (Solo.At i) where
  env := by
    rintro st w _ h ⟨clock, redis, rfl, -, hredis⟩
    refine { h with redis := fun key => ?_ }
    rcases hredis key with hkey | hkey
    · exact (h.redis key).imp hkey.trans hkey.trans
    · exact .inr hkey
  ends := fun h hguard => h.ends hguard
  possible := fun h hguard hends hanswered => h.answers hguard.1 hends hanswered
  after := fun h hguard hends hanswered =>
    h.after sha256 hguard.1 (h.answers hguard.1 hends hanswered)

/-! ## Identifiers -/

/-- There are enough fresh identifiers for a request. -/
def IdentifiersLeft (s : Shared) : Prop := s.issued.length + 8 ≤ 2 ^ 128

/-- A list that is too short for all identifiers leaves one out. -/
theorem exists_fresh {issued : List UUID} (h : issued.length < 2 ^ 128) : ∃ id, id ∉ issued := by
  by_contra hall
  have hmem : ∀ id, id ∈ issued := fun id => by_contra fun hid => hall ⟨id, hid⟩
  -- as numbers, the identifiers of the list are all the numbers below `2 ^ 128`
  have hsubset : List.range (2 ^ 128) ⊆ issued.map fun id => id.bits.toNat := by
    intro n hn
    refine List.mem_map.mpr ⟨⟨BitVec.ofNat 128 n⟩, hmem _, ?_⟩
    exact (BitVec.toNat_ofNat n 128).trans (Nat.mod_eq_of_lt (List.mem_range.mp hn))
  have hle := (List.subperm_of_subset List.nodup_range hsubset).length_le
  rw [List.length_range, List.length_map] at hle
  omega

/-! ## Rules -/

/-- `Solos p Q R st`: from `st` the program `p`, alone, ends in `Q` if it returns and in `R` if it
raises. -/
abbrev Solos {α : Type} (p : Program α) (Q : α → Solo → Prop) (R : Exc → Solo → Prop) (st : Solo) :
    Prop :=
  solo.wp (fun o r st => st.after o r) p Q R st

section Rules

variable {st : Solo} {R : Exc → Solo → Prop}

/-- One program after the other. -/
theorem solos_bind {α β : Type} {p : Program α} {f : α → Program β} {Q : β → Solo → Prop} :
    Solos (p >>= f) Q R st ↔ Solos p (fun a st' => Solos (f a) Q R st') R st :=
  Contract.wp_bind _ _ p f

/-- Awaiting an operation that has one answer. -/
theorem solos_perform {o : Op} {Q : o.Out → Solo → Prop} (ho : o.Solitary) (hid : o ≠ .uuid4)
    {a : o.Out} (hanswers : ∀ r, st.Answers o r ↔ r = .ok a) :
    Solos (perform o) Q R st ↔ Q a (st.after o (.ok a)) := by
  refine (Contract.wp_perform _ _ o).trans ⟨fun h => h.2.1 a ((hanswers _).mpr rfl), fun h => ?_⟩
  refine ⟨⟨ho, fun heq => absurd heq hid⟩, fun x hx => ?_, fun e he => ?_⟩
  · cases (hanswers _).mp hx
    exact h
  · cases (hanswers _).mp he

/-- The clock can show any time. -/
@[simp]
theorem solos_now {Q : Time → Solo → Prop} : Solos now Q R st ↔ ∀ t, Q t st := by
  refine (Contract.wp_perform _ _ Op.now).trans ⟨fun h t => h.2.1 t ⟨t, rfl⟩, fun h => ?_⟩
  refine ⟨⟨trivial, fun heq => (nomatch heq)⟩, fun t _ => h t, fun e he => ?_⟩
  obtain ⟨t, ht⟩ := he
  cases ht

/-- Any identifier that was not issued can be drawn, and there is one. -/
@[simp]
theorem solos_uuid4 {Q : UUID → Solo → Prop} :
    Solos uuid4 Q R st ↔ (∃ id, id ∉ st.issued) ∧
      ∀ id, id ∉ st.issued → Q id { st with issued := id :: st.issued } := by
  refine (Contract.wp_perform _ _ Op.uuid4).trans ⟨fun h => ?_, fun h => ?_⟩
  · exact ⟨h.1.2 rfl, fun id hid => h.2.1 id ⟨id, hid, rfl⟩⟩
  · refine ⟨⟨trivial, fun _ => h.1⟩, fun id hid => ?_, fun e he => ?_⟩
    · obtain ⟨id', hid, heq⟩ := hid
      cases heq
      exact h.2 _ hid
    · obtain ⟨id, -, heq⟩ := he
      cases heq

/-- Drawing an identifier while there are some left. -/
theorem solos_draw {n : ℕ} {Q : UUID → Solo → Prop} (hleft : st.issued.length + (n + 1) ≤ 2 ^ 128)
    (h : ∀ id, id ∉ st.issued → (id :: st.issued).length + n ≤ 2 ^ 128 →
      Q id { st with issued := id :: st.issued }) : Solos uuid4 Q R st := by
  refine solos_uuid4.mpr ⟨exists_fresh (by omega), fun id hid => h id hid ?_⟩
  rw [List.length_cons]
  omega

/-- Publishing an event draws its identifier and the primary key of its row. -/
theorem solos_publishEvent {n : ℕ} {topic eventType : String} {payload : EventPayload}
    {actorId : Option UUID} {Q : OutboxRow → Solo → Prop}
    (hleft : st.issued.length + (n + 2) ≤ 2 ^ 128) (htopic : topic = payload.topic)
    (htype : eventType = payload.eventType)
    (h : ∀ event eventId, event.Publishes [eventId] payload → eventId ∉ st.issued →
      event.id ∉ eventId :: st.issued → (event.id :: eventId :: st.issued).length + n ≤ 2 ^ 128 →
      Q event { st with issued := event.id :: eventId :: st.issued }) :
    Solos (publishEvent topic eventType payload actorId) Q R st := by
  refine solos_bind.mpr (solos_draw hleft fun eventId hevent hleft => ?_)
  refine solos_bind.mpr (solos_now.mpr fun t => ?_)
  refine solos_bind.mpr (solos_draw hleft fun id hid hleft => ?_)
  exact (Contract.wp_pure _ _ _).mpr (h { id := id, .. } eventId
    ⟨htopic, htype, htype, rfl, eventId, List.mem_singleton.mpr rfl, rfl⟩ hevent hid hleft)

/-- The entry may be gone. -/
@[simp]
theorem solos_cacheGet {key : String} {Q : Option CacheEntry → Solo → Prop} :
    Solos (cacheGet key) Q R st ↔ Q (st.redis key) st ∧ Q none st := by
  refine (Contract.wp_perform _ _ (Op.cacheGet key)).trans ⟨fun h => ?_, fun h => ?_⟩
  · exact ⟨h.2.1 _ (.inl rfl), h.2.1 _ (.inr rfl)⟩
  · refine ⟨⟨trivial, fun heq => (nomatch heq)⟩, fun x hx => ?_, fun e he => ?_⟩
    · rcases hx with hx | hx
      · cases hx
        exact h.1
      · cases hx
        exact h.2
    · rcases he with he | he <;> cases he

/-- Redis has the entry from then on. -/
@[simp]
theorem solos_cacheSet {key : String} {entry : CacheEntry} {Q : Unit → Solo → Prop} :
    Solos (cacheSet key entry) Q R st ↔
      Q () { st with redis := Function.update st.redis key (some entry) } :=
  solos_perform (o := .cacheSet key entry) (a := ()) trivial (fun h => nomatch h) fun _ => Iff.rfl

/-- An account is read as it stands. -/
@[simp]
theorem solos_getAccountById {id : UUID} {Q : Option Account → Solo → Prop} :
    Solos (getAccountById id) Q R st ↔ Q (st.view.accountById id) st :=
  solos_perform (o := .select (.accountById id)) (a := st.view.accountById id) trivial
    (fun h => nomatch h) fun _ => Iff.rfl

/-- A balance is read as it stands. -/
@[simp]
theorem solos_getBalance {a : UUID} {Q : Ticks → Solo → Prop} :
    Solos (getBalance a) Q R st ↔ Q (st.view.getBalance a) st :=
  solos_perform (o := .select (.balance a)) (a := st.view.getBalance a) trivial
    (fun h => nomatch h) fun _ => Iff.rfl

/-- An account is locked without waiting. -/
@[simp]
theorem solos_lockAccount {id : UUID} {Q : Option Account → Solo → Prop} :
    Solos (lockAccount id) Q R st ↔ Q (st.view.accountById id) st :=
  solos_perform (o := .lockAccount id) (a := st.view.accountById id) trivial
    (fun h => nomatch h) fun _ => Iff.rfl

/-- A commit makes what was written the tables. -/
@[simp]
theorem solos_commit {Q : Unit → Solo → Prop} :
    Solos commit Q R st ↔ Q () { st with db := st.view, writes := [] } :=
  solos_perform (o := .commit) (a := ()) trivial (fun h => nomatch h) fun _ => Iff.rfl

/-- A rollback forgets what was written. -/
@[simp]
theorem solos_rollback {Q : Unit → Solo → Prop} :
    Solos rollback Q R st ↔ Q () { st with writes := [] } :=
  solos_perform (o := .rollback) (a := ()) trivial (fun h => nomatch h) fun _ => Iff.rfl

/-- A statement that is accepted. -/
theorem solos_write {wr : Write} {Q : Unit → Solo → Prop} (h : st.view.verdict wr = .ok ()) :
    Solos (write wr) Q R st ↔ Q () { st with writes := st.writes ++ [wr] } :=
  solos_perform (o := .write wr) (a := ()) trivial (fun h => nomatch h)
    fun _ => ⟨fun hr => hr.trans h, fun hr => hr.trans h.symm⟩

/-- A statement that is refused. -/
theorem solos_write_error {wr : Write} {e : Exc} {Q : Unit → Solo → Prop}
    (h : st.view.verdict wr = .error e) :
    Solos (write wr) Q R st ↔ R e { st with writes := [] } := by
  refine (Contract.wp_perform _ _ (Op.write wr)).trans ⟨fun hwp => hwp.2.2 e h.symm, fun hR => ?_⟩
  refine ⟨⟨trivial, fun heq => (nomatch heq)⟩, fun u hu => ?_, fun e' he' => ?_⟩
  · cases hu.trans h
  · cases he'.trans h
    exact hR

/-- Statements that are accepted one after the other. -/
theorem solos_flush {ws : List Write} {Q : Unit → Solo → Prop} (h : st.view.Accepts ws) :
    Solos (flush ws) Q R st ↔ Q () { st with writes := st.writes ++ ws } := by
  induction ws generalizing st with
  | nil => simp [flush]
  | cons w ws ih =>
      have hview : ({ st with writes := st.writes ++ [w] } : Solo).view = w.apply st.view := by
        rw [Solo.view, Solo.view, Database.applyAll_append]
        rfl
      rw [flush, solos_bind, solos_write h.1, ih (by rw [hview]; exact h.2)]
      simp

/-- Statements of which one is refused. -/
theorem solos_flush_error (ws ws' : List Write) {wr : Write} {e : Exc} {Q : Unit → Solo → Prop}
    (h : st.view.Accepts ws) (hwr : (st.view.applyAll ws).verdict wr = .error e) :
    Solos (flush (ws ++ wr :: ws')) Q R st ↔ R e { st with writes := [] } := by
  induction ws generalizing st with
  | nil => rw [List.nil_append, flush, solos_bind, solos_write_error hwr]
  | cons w ws ih =>
      have hview : ({ st with writes := st.writes ++ [w] } : Solo).view = w.apply st.view := by
        rw [Solo.view, Solo.view, Database.applyAll_append]
        rfl
      rw [List.cons_append, flush, solos_bind, solos_write h.1,
        ih (by rw [hview]; exact h.2) (by rw [hview]; exact hwr)]

/-- A block that commits at its end and rolls back after an exception. -/
@[simp]
theorem solos_begin {α : Type} {body : Program α} {Q : α → Solo → Prop} :
    Solos (begin body) Q R st ↔
      Solos body (fun a st' => Q a { st' with db := st'.view, writes := [] })
        (fun e st' => R e { st' with writes := [] }) st := by
  simp only [begin, Contract.wp_tryCatch, Contract.wp_bind, solos_commit, solos_rollback,
    Contract.wp_pure, Contract.wp_throw]

end Rules

/-! ## A new process -/

/-- No transaction is open. -/
structure Quiet (c : Wallet) : Prop where
  locks : ∀ i, (c.sess i).locks = []
  writes : ∀ i, (c.sess i).writes = []

/-- Processes that have not been started have no transaction. -/
theorem quiet_of_lt {sha256 : String → String} {c : Wallet} (h : Reaches sha256 c)
    (hquiet : ∀ i < c.size, (c.sess i).locks = [] ∧ (c.sess i).writes = []) : Quiet c := by
  obtain ⟨t₀, h⟩ := h
  have hidle (i : ℕ) (hi : c.size ≤ i) : c.sess i = {} := (h.fresh (fresh_initial _)).sess_idle i hi
  refine ⟨fun i => ?_, fun i => ?_⟩
  · rcases lt_or_ge i c.size with hi | hi
    · exact (hquiet i hi).1
    · rw [hidle i hi]
  · rcases lt_or_ge i c.size with hi | hi
    · exact (hquiet i hi).2
    · rw [hidle i hi]

/-- `Wallet.Alone sha256 c p P`: a new process that runs `p` in configuration `c`, while no other
process acts and the servers do not fail, comes to its end, with an outcome and in a state that
satisfy `P`. -/
def Wallet.Alone (sha256 : String → String) {α : Type} (c : Wallet) (p : Program α)
    (P : Except Exc α → State → Prop) : Prop :=
  (wallet sha256).Alone (Answered c.size) c.size p P { c.toWorld with size := c.size + 1 }

/-- What a new process works on. -/
def Wallet.solo (c : Wallet) : Solo where
  db := c.shared.db
  issued := c.shared.issued
  redis := c.shared.redis

/-- What the rules prove of a program holds of a new process that is alone. -/
theorem alone_of_solos {sha256 : String → String} {c : Wallet} {α : Type} {p : Program α}
    (Post : Except Exc α → Solo → Prop) (h : Reaches sha256 c) (hquiet : Quiet c)
    (hp : Solos p (fun a => Post (.ok a)) (fun e => Post (.error e)) c.solo) :
    Wallet.Alone sha256 c p fun out w => ∃ st, Solo.At c.size st w ∧ Post out st := by
  obtain ⟨t₀, h⟩ := h
  have hidle : c.sess c.size = {} := (h.fresh (fresh_initial _)).sess_idle _ le_rfl
  refine (simulates_solo sha256 c.size).alone Post hp ?_
  exact
    { db := rfl
      writes := by rw [hidle]; rfl
      issued := rfl
      redis := fun _ => .inl rfl
      locks := fun j _ => hquiet.locks j
      others := fun j _ => hquiet.writes j }

end MiniWallet
