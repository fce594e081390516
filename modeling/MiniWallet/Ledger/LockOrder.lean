import MiniWallet.App
import MiniWallet.Schema.Identifiers

/-!
# The order of account locks

An account is locked by `SELECT … FOR UPDATE`, and, in a weaker mode, by every `INSERT` of a row
that references it. `orderly` is the contract on the order in which a process asks for these locks:
it asks for an account that it has locked already, for a reference to the system account, or for one
that comes after everything that it holds.

* `Op.requests`, `Session.HasLocked`: the account locks that an operation asks for and a session
  holds.
* `Maintains`: programs that ask in order, between two conditions on the session.
* `orderly_program`: every program of the wallet asks in order.
-/

namespace MiniWallet

open Numeric Process Program

/-! ## Locks of accounts -/

/-- The modes in which the row of an account is locked. -/
inductive LockMode
  /-- `FOR KEY SHARE`, by an insert that references the row. -/
  | keyShare
  /-- `FOR UPDATE`. -/
  | forUpdate
deriving DecidableEq, Repr

/-- Two modes that different transactions cannot hold at the same time. -/
def LockMode.Conflicts (m m' : LockMode) : Prop := m = .forUpdate ∨ m' = .forUpdate

/-- Whether two modes conflict is decidable. -/
instance (m m' : LockMode) : Decidable (m.Conflicts m') :=
  inferInstanceAs (Decidable (_ ∨ _))

/-- The accounts that a row references. -/
def Row.references {α : Type} (row : Row α) : List UUID := row.foreignKeys.map Prod.fst

/-- The accounts that a write references. -/
def Write.references : Write → List UUID
  | .insert row => row.references
  | _ => []

/-- The account locks that an operation asks for. -/
def Op.requests : Op → List (UUID × LockMode)
  | .lockAccount id => [(id, .forUpdate)]
  | .write w => w.references.map fun id => (id, .keyShare)
  | _ => []

/-- The open transaction of the session holds a lock of the account. -/
def Session.HasLocked (σ : Session) (x : UUID) : LockMode → Prop
  | .forUpdate => .account x ∈ σ.locks
  | .keyShare => ∃ row ∈ σ.inserted, x ∈ row.references

/-- Whether a session has locked an account in some mode is decidable. -/
instance (σ : Session) (x : UUID) (m : LockMode) : Decidable (σ.HasLocked x m) :=
  match m with
  | .forUpdate => inferInstanceAs (Decidable (_ ∈ _))
  | .keyShare => inferInstanceAs (Decidable (∃ row ∈ σ.inserted, _))

/-- The session holds no lock of an account. -/
def Session.Free (σ : Session) : Prop := ∀ x m, ¬ σ.HasLocked x m

/-- The session has locked the accounts for update. -/
def Session.Locked (accounts : List UUID) (σ : Session) : Prop :=
  ∀ x ∈ accounts, σ.HasLocked x .forUpdate

namespace Session

variable {σ : Session} {x : UUID} {m : LockMode}

/-- A session whose transaction has ended holds nothing. -/
theorem free_ended (σ : Session) : σ.ended.Free := by
  intro x m
  cases m with
  | forUpdate => exact List.not_mem_nil
  | keyShare =>
      rintro ⟨row, hrow, -⟩
      cases hrow

/-- A session that has committed holds nothing. -/
theorem free_commit (σ : Session) : σ.commit.Free := σ.free_ended

/-- Two sessions with the same writes and locks hold the same. -/
theorem HasLocked.congr {σ' : Session} (h : σ'.HasLocked x m) (hwrites : σ'.writes = σ.writes)
    (hlocks : ∀ l ∈ σ'.locks, l ∈ σ.locks ∨ ∃ id, l = .withdrawal id) : σ.HasLocked x m := by
  cases m with
  | forUpdate =>
      rcases hlocks _ h with hmem | ⟨id, hid⟩
      · exact hmem
      · cases hid
  | keyShare =>
      obtain ⟨row, hrow, hx⟩ := h
      refine ⟨row, ?_, hx⟩
      rwa [inserted, ← hwrites]

/-- A write adds the references of the row that it inserts. -/
theorem HasLocked.of_wrote {w : Write} (h : (σ.wrote w).HasLocked x m) :
    σ.HasLocked x m ∨ (x, m) ∈ (Op.write w).requests := by
  cases m with
  -- no write locks an account for update
  | forUpdate =>
      refine .inl ?_
      cases w with
      | setWithdrawal id set =>
          rcases List.mem_cons.mp h with h | h
          · cases h
          · exact h
      | insert row => exact h
      | setDeposit id set => exact h
  -- a reference is to a row that was inserted before or is inserted now
  | keyShare =>
      obtain ⟨row, hrow, hx⟩ := h
      cases w with
      | insert row' =>
          simp only [wrote, inserted, List.filterMap_append, List.mem_append] at hrow
          rcases hrow with hrow | hrow
          · exact .inl ⟨row, hrow, hx⟩
          · obtain rfl : row = row' := by simpa using hrow
            exact .inr (List.mem_map.mpr ⟨x, hx, rfl⟩)
      | setWithdrawal id set | setDeposit id set =>
          simp only [wrote, lock, inserted, List.filterMap_append, List.mem_append] at hrow
          rcases hrow with hrow | hrow
          · exact .inl ⟨row, hrow, hx⟩
          · cases hrow

end Session

/-- What a session holds after an operation it has held before, or the operation has asked for it
and has got it. -/
theorem holds_after {σ : Session} {o : Op} {r : Except Exc o.Out} {x : UUID} {m : LockMode}
    (h : (after o r σ).HasLocked x m) :
    σ.HasLocked x m ∨ ((x, m) ∈ o.requests ∧ ∃ a, r = .ok a) := by
  cases o with
  -- locking an account is the only way to hold it for update
  | lockAccount id =>
      cases r with
      | error e => exact absurd h (σ.free_ended x m)
      | ok a =>
          cases a with
          | none => exact .inl h
          | some account =>
              cases m with
              | forUpdate =>
                  rcases List.mem_cons.mp h with h | h
                  · cases h
                    exact .inr ⟨List.mem_singleton_self _, _, rfl⟩
                  · exact .inl h
              | keyShare => exact .inl h
  -- a write that fails takes no reference
  | write w =>
      cases r with
      | ok u =>
          rcases Session.HasLocked.of_wrote h with h | h
          · exact .inl h
          · exact .inr ⟨h, _, rfl⟩
      | error e =>
          refine .inl ?_
          change (σ.afterWrite w (.error e)).HasLocked x m at h
          unfold Session.afterWrite at h
          split at h
          · next heq => cases heq
          · exact absurd h (σ.free_ended x m)
          · cases m with
            | forUpdate => exact h
            | keyShare =>
                obtain ⟨row, hrow, -⟩ := h
                cases hrow
  -- the locks of withdrawals are not locks of accounts
  | lockWithdrawal id =>
      cases r with
      | error e => exact absurd h (σ.free_ended x m)
      | ok row =>
          cases row with
          | none => exact .inl h
          | some row =>
              refine .inl (h.congr ?_ ?_)
              · change (σ.readAgain row).writes = _
                unfold Session.readAgain
                split <;> rfl
              · intro l hl
                change l ∈ (σ.readAgain row).locks at hl
                unfold Session.readAgain at hl
                have hl : l ∈ Lock.withdrawal row.id :: σ.locks := by split at hl <;> exact hl
                rcases List.mem_cons.mp hl with rfl | hl
                · exact .inr ⟨_, rfl⟩
                · exact .inl hl
  | claimStuck cutoff limit =>
      cases r with
      | error e => exact absurd h (σ.free_ended x m)
      | ok ids =>
          refine .inl (h.congr rfl fun l hl => ?_)
          rcases List.mem_append.mp hl with hl | hl
          · obtain ⟨id, -, rfl⟩ := List.mem_map.mp hl
            exact .inr ⟨_, rfl⟩
          · exact .inl hl
  | select q =>
      cases r with
      | error e => exact absurd h (σ.free_ended x m)
      | ok result =>
          refine .inl (h.congr ?_ fun l hl => .inl ?_)
          · change (σ.learn q result).writes = _
            cases q <;> simp only [Session.learn] <;> split <;> rfl
          · change l ∈ (σ.learn q result).locks at hl
            cases q <;> simp only [Session.learn] at hl <;>
              first | exact hl | (split at hl <;> exact hl)
  -- what ends the transaction releases everything
  | commit =>
      cases r with
      | ok u => exact absurd h (σ.free_commit x m)
      | error e => exact absurd h (σ.free_ended x m)
  | rollback => exact absurd h (σ.free_ended x m)
  | cacheSet key entry | breaker command | queryStatus ref => exact .inl h
  | now | uuid4 | cacheGet key | sendWithdrawal id amount destination =>
      cases r <;> exact .inl h

/-! ## The contract -/

/-- The session may ask for the lock: it refers to the system account, it has locked the account, or
the account comes after everything that it holds. -/
def Session.MayRequest (σ : Session) (y : UUID) (m : LockMode) : Prop :=
  (y = systemAccountId ∧ m = .keyShare) ∨ σ.HasLocked y .forUpdate ∨
    ∀ x m', σ.HasLocked x m' → x.str < y.str

/-- A process asks for the locks of accounts in order. -/
def orderly : Contract Op Op.Out Exc Session where
  guard o σ := ∀ p ∈ o.requests, σ.MayRequest p.1 p.2
  possible := fun _ _ _ => True

/-- The program asks in order, and holds nothing in the end if it holds nothing in the beginning. -/
def Roams {α : Type} (p : Program α) : Prop :=
  ∀ σ, σ.Free → orderly.wp after p (fun _ => Session.Free) (fun _ => Session.Free) σ

/-- From a session with `I` the program asks in order, and ends in `Q` if it returns. -/
def Leads (I : Session → Prop) {α : Type} (p : Program α) (Q : α → Session → Prop) : Prop :=
  ∀ σ, I σ → orderly.wp after p Q (fun _ _ => True) σ

/-- No condition on the session. -/
def Anything : Session → Prop := fun _ => True

section Rules

variable {α β : Type} {p : Program α} {f : α → Program β} {I : Session → Prop}

/-- An operation that asks for nothing, in a session that holds nothing. -/
theorem roams_perform {o : Op} (h : o.requests = []) : Roams (perform o) := by
  have hfree {σ : Session} (hσ : σ.Free) (r : Except Exc o.Out) : (after o r σ).Free := by
    intro x m hx
    rcases holds_after hx with hx | ⟨hx, -⟩
    · exact hσ x m hx
    · rw [h] at hx
      cases hx
  intro σ hσ
  refine (Contract.wp_perform _ _ o).mpr ⟨?_, fun a _ => hfree hσ _, fun e _ => hfree hσ _⟩
  intro request hrequest
  rw [h] at hrequest
  cases hrequest

/-- Returning asks for nothing. -/
theorem roams_pure (a : α) : Roams (pure a : Program α) :=
  fun _ hσ => (Contract.wp_pure _ _ _).mpr hσ

/-- Raising asks for nothing. -/
theorem roams_throw (e : Exc) : Roams (throw e : Program α) :=
  fun _ hσ => (Contract.wp_throw _ _ _).mpr hσ

/-- Programs that roam can be run one after the other. -/
theorem Roams.bind (hp : Roams p) (hf : ∀ a, Roams (f a)) : Roams (p >>= f) := fun σ hσ =>
  (Contract.wp_bind _ _ _ _).mpr
    (Contract.wp_mono _ _ (fun a σ' hσ' => hf a σ' hσ') (fun _ _ h => h) (hp σ hσ))

/-- A handler that roams may catch what the body raises. -/
theorem Roams.tryCatch {h : Exc → Program α} (hp : Roams p) (hh : ∀ e, Roams (h e)) :
    Roams (tryCatch p h) := fun σ hσ =>
  (Contract.wp_tryCatch _ _ _ _).mpr
    (Contract.wp_mono _ _ (fun _ _ h => h) (fun e σ' hσ' => hh e σ' hσ') (hp σ hσ))

/-- A program that roams leads from a session that holds nothing to another one. -/
theorem Roams.leads (hp : Roams p) : Leads Session.Free p fun _ => Session.Free := fun σ hσ =>
  Contract.wp_mono _ _ (fun _ _ h => h) (fun _ _ _ => trivial) (hp σ hσ)

variable {Q : α → Session → Prop} {R : β → Session → Prop}

/-- Returning stays in the session. -/
theorem leads_pure {a : α} (h : ∀ σ, I σ → Q a σ) : Leads I (pure a : Program α) Q :=
  fun σ hσ => (Contract.wp_pure _ _ _).mpr (h σ hσ)

/-- A program that raises need not lead anywhere. -/
theorem leads_throw (e : Exc) : Leads I (throw e : Program α) Q :=
  fun _ _ => (Contract.wp_throw _ _ _).mpr trivial

/-- What follows starts where the first program has led to. -/
theorem Leads.bind (hp : Leads I p Q) (hf : ∀ a, Leads (Q a) (f a) R) : Leads I (p >>= f) R :=
  fun σ hσ => (Contract.wp_bind _ _ _ _).mpr
    (Contract.wp_mono _ _ (fun a σ' hσ' => hf a σ' hσ') (fun _ _ h => h) (hp σ hσ))

/-- A handler runs in a session of which nothing is known. -/
theorem Leads.tryCatch {h : Exc → Program α} (hp : Leads I p Q)
    (hh : ∀ e, Leads Anything (h e) Q) : Leads I (tryCatch p h) Q := fun σ hσ =>
  Contract.wp_tryCatch_of_forall _ _ (hp σ hσ) fun e σ' => hh e σ' trivial

/-- More may be known about the start, and less about the end. -/
theorem Leads.mono {I' : Session → Prop} {Q' : α → Session → Prop} (h : Leads I p Q)
    (hI : ∀ σ, I' σ → I σ) (hQ : ∀ a σ, Q a σ → Q' a σ) : Leads I' p Q' := fun σ hσ =>
  Contract.wp_mono _ _ hQ (fun _ _ h => h) (h σ (hI σ hσ))

/-- An operation under its guard. -/
theorem leads_perform {o : Op} {Q : o.Out → Session → Prop}
    (hguard : ∀ σ, I σ → orderly.guard o σ) (hok : ∀ a σ, I σ → Q a (after o (.ok a) σ)) :
    Leads I (perform o) Q := fun σ hσ =>
  (Contract.wp_perform _ _ o).mpr ⟨hguard σ hσ, fun a _ => hok a σ hσ, fun _ _ => trivial⟩

/-- An operation that asks for nothing, in any session. -/
theorem leads_any {o : Op} (h : o.requests = []) :
    Leads Anything (perform o) fun _ => Anything := by
  refine leads_perform (fun σ _ request hrequest => ?_) fun _ _ _ => trivial
  rw [h] at hrequest
  cases hrequest

/-- The operation ends the transaction even if it succeeds. -/
def Op.isEnding : Op → Bool
  | .commit => true
  | .rollback => true
  | _ => false

/-- Until a transaction ends, what it has locked for update stays locked. -/
theorem locked_after {accounts : List UUID} {o : Op} (hend : o.isEnding = false) (a : o.Out)
    {σ : Session} (hσ : σ.Locked accounts) : (after o (.ok a) σ).Locked accounts := by
  intro x hx
  have hlock : Lock.account x ∈ σ.locks := hσ x hx
  change Lock.account x ∈ (after o (.ok a) σ).locks
  cases o with
  | commit | rollback => cases hend
  | lockAccount id =>
      -- the list of locks only grows
      cases a with
      | none => exact hlock
      | some account => exact List.mem_cons_of_mem _ hlock
  | lockWithdrawal id =>
      cases a with
      | none => exact hlock
      | some row =>
          change Lock.account x ∈ (σ.readAgain row).locks
          unfold Session.readAgain
          split <;> exact List.mem_cons_of_mem _ hlock
  | claimStuck cutoff limit => exact List.mem_append_right _ hlock
  | select q =>
      change Lock.account x ∈ (σ.learn q a).locks
      cases q <;> simp only [Session.learn] <;> first | exact hlock | (split <;> exact hlock)
  | write w =>
      change Lock.account x ∈ (σ.wrote w).locks
      cases w with
      | setWithdrawal id set => exact List.mem_cons_of_mem _ hlock
      | insert row => exact hlock
      | setDeposit id set => exact hlock
  | now | uuid4 | cacheGet _ | cacheSet _ _ | breaker _ | sendWithdrawal _ _ _ | queryStatus _ =>
      exact hlock

/-- An operation that asks for nothing, in a session that has locked some accounts. -/
theorem leads_locked {accounts : List UUID} {o : Op} (h : o.requests = [])
    (hend : o.isEnding = false) :
    Leads (Session.Locked accounts) (perform o) fun _ => Session.Locked accounts := by
  refine leads_perform (fun σ _ request hrequest => ?_) fun a _ hσ => locked_after hend a hσ
  rw [h] at hrequest
  cases hrequest

end Rules

/-! ## Parts of programs -/

section Parts

/-- Publishing an event only reads the clock and draws identifiers. -/
theorem roams_publishEvent (topic eventType : String) (payload : EventPayload)
    (actorId : Option UUID) : Roams (publishEvent topic eventType payload actorId) :=
  .bind (roams_perform rfl) fun _ => .bind (roams_perform rfl) fun _ =>
    .bind (roams_perform rfl) fun _ => roams_pure _

/-- Publishing an event keeps the accounts that are locked. -/
theorem locked_publishEvent {accounts : List UUID} (topic eventType : String)
    (payload : EventPayload) (actorId : Option UUID) :
    Leads (Session.Locked accounts) (publishEvent topic eventType payload actorId)
      fun _ => Session.Locked accounts :=
  .bind (leads_locked rfl rfl) fun _ => .bind (leads_locked rfl rfl) fun _ =>
    .bind (leads_locked rfl rfl) fun _ => leads_pure fun _ h => h

/-- Publishing an event asks for nothing, whatever is locked. -/
theorem any_publishEvent (topic eventType : String) (payload : EventPayload)
    (actorId : Option UUID) :
    Leads Anything (publishEvent topic eventType payload actorId) fun _ => Anything :=
  .bind (leads_any rfl) fun _ => .bind (leads_any rfl) fun _ => .bind (leads_any rfl) fun _ =>
    leads_pure fun _ h => h

/-- A write that references no account asks for nothing. -/
theorem requests_write {w : Write} (h : w.references = []) : (Op.write w).requests = [] := by
  rw [Op.requests, h, List.map_nil]

/-- A flush of rows that reference no account asks for nothing. -/
theorem roams_flush {ws : List Write} (h : ∀ w ∈ ws, w.references = []) : Roams (flush ws) := by
  induction ws with
  | nil => exact roams_pure _
  | cons w ws ih =>
      exact .bind (roams_perform (requests_write (h w List.mem_cons_self))) fun _ =>
        ih fun w' hw' => h w' (List.mem_cons_of_mem _ hw')

/-- This is so whatever is locked. -/
theorem any_flush {ws : List Write} (h : ∀ w ∈ ws, w.references = []) :
    Leads Anything (flush ws) fun _ => Anything := by
  induction ws with
  | nil => exact leads_pure fun _ h => h
  | cons w ws ih =>
      exact .bind (leads_any (requests_write (h w List.mem_cons_self))) fun _ =>
        ih fun w' hw' => h w' (List.mem_cons_of_mem _ hw')

/-- Writes may reference the accounts that are locked, and the system account. -/
theorem locked_flush {accounts : List UUID} {ws : List Write}
    (h : ∀ w ∈ ws, ∀ x ∈ w.references, x = systemAccountId ∨ x ∈ accounts) :
    Leads (Session.Locked accounts) (flush ws) fun _ => Session.Locked accounts := by
  induction ws with
  | nil => exact leads_pure fun _ h => h
  | cons w ws ih =>
      refine .bind (leads_perform (fun σ hσ request hrequest => ?_) fun a _ hσ =>
        locked_after rfl a hσ) fun _ => ih fun w' hw' => h w' (List.mem_cons_of_mem _ hw')
      obtain ⟨x, hx, rfl⟩ := List.mem_map.mp hrequest
      rcases h w List.mem_cons_self x hx with hsystem | hmem
      · exact .inl ⟨hsystem, rfl⟩
      · exact .inr (.inl (hσ x hmem))

/-- Two legs, the first of them on the system account, are written by a session that holds
nothing. -/
theorem free_flush {debit credit : LedgerEntry Decimal} {ws : List Write}
    (hdebit : debit.accountId = systemAccountId) (hws : ∀ w ∈ ws, w.references = []) :
    Leads Session.Free (flush (.insert (.ledger debit) :: .insert (.ledger credit) :: ws))
      fun _ => Anything := by
  -- after the first leg the session holds nothing but the system account
  refine .bind (Q := fun _ σ => ∀ x m, σ.HasLocked x m → x = systemAccountId)
    (leads_perform (fun σ hσ request hrequest => ?_) fun a σ hσ x m hx => ?_) fun _ => ?_
  · obtain rfl := List.mem_singleton.mp hrequest
    exact .inl ⟨hdebit, rfl⟩
  · rcases holds_after hx with hx | ⟨hx, -⟩
    · exact absurd hx (hσ x m)
    · cases List.mem_singleton.mp hx
      exact hdebit
  · refine .bind (Q := fun _ => Anything)
      (leads_perform (fun σ hσ request hrequest => ?_) fun _ _ _ => trivial) fun _ => any_flush hws
    obtain rfl := List.mem_singleton.mp hrequest
    by_cases hcredit : credit.accountId = systemAccountId
    · exact .inl ⟨hcredit, rfl⟩
    · refine .inr (.inr fun x m hx => ?_)
      rw [hσ x m hx]
      exact systemAccountId_str_lt hcredit

/-- A transaction block releases all locks at its end, whatever its body has done. -/
theorem roams_begin {α : Type} {body : Program α} {Q : α → Session → Prop}
    (h : Leads Session.Free body Q) : Roams (begin body) := by
  intro σ hσ
  refine Contract.wp_tryCatch_of_forall _ _ ?_ fun e σ' => ?_
  · refine (Contract.wp_bind _ _ _ _).mpr (Contract.wp_mono _ _ (fun a σ₁ _ => ?_)
      (fun _ _ h => h) (h σ hσ))
    rw [Contract.wp_bind]
    refine (Contract.wp_perform _ _ Op.commit).mpr
      ⟨fun _ hp => (nomatch hp), fun _ _ => ?_, fun _ _ => trivial⟩
    exact (Contract.wp_pure _ _ _).mpr σ₁.free_commit
  · rw [Contract.wp_bind]
    refine (Contract.wp_perform _ _ Op.rollback).mpr
      ⟨fun _ hp => (nomatch hp), fun _ _ => ?_, fun _ _ => σ'.free_ended⟩
    exact (Contract.wp_throw _ _ _).mpr σ'.free_ended

/-- Committing releases all locks. -/
theorem leads_commit {I : Session → Prop} : Leads I commit fun _ => Session.Free :=
  leads_perform (fun _ _ _ hp => (nomatch hp)) fun _ σ _ => σ.free_commit

end Parts

/-! ## The programs -/

section Programs

variable {sha256 : String → String}

/-- Opening an account asks for no account that is there. -/
theorem orderly_openAccount (userId : UUID) :
    Leads Anything (openAccount userId) fun _ => Anything := by
  unfold openAccount
  refine .bind (leads_any rfl) fun _ => .bind (leads_any rfl) fun _ =>
    .bind (any_publishEvent _ _ _ _) fun event => .bind (.tryCatch ?_ fun e => ?_) fun _ =>
      .bind (leads_any rfl) fun account => ?_
  · exact .bind (any_flush (by simp [Write.references, Row.references, Row.foreignKeys]))
      fun _ => leads_any rfl
  · split
    · exact .bind (leads_any rfl) fun _ => leads_throw _
    · exact leads_throw _
  · split
    · exact leads_pure fun _ h => h
    · exact leads_throw _

/-- A seed locks no account; its two legs reference the system account and then the other one. -/
theorem orderly_seed (q : SeedRequest) : Leads Session.Free (seed q) fun _ => Anything := by
  unfold seed
  refine .bind (roams_perform rfl).leads fun account => ?_
  split
  · exact leads_throw _
  · refine .bind (roams_perform rfl).leads fun _ => .bind (roams_perform rfl).leads fun _ =>
      .bind (roams_perform rfl).leads fun _ => .bind (roams_perform rfl).leads fun _ =>
        .bind (roams_publishEvent _ _ _ _).leads fun event =>
          .bind (Q := fun _ => Anything) (.tryCatch ?_ fun e => ?_) fun _ =>
            .bind (leads_any rfl) fun _ => leads_pure fun _ h => h
    · -- the legs refer to the system account and then to the other one
      refine .bind (free_flush rfl ?_) fun _ => .bind (leads_any rfl) fun _ =>
        leads_pure fun _ h => h
      simp [Write.references, Row.references, Row.foreignKeys]
    · unfold resolveSeed
      -- after a duplicate key only reads and errors follow
      split
      · refine .bind (leads_any rfl) fun _ => .bind (leads_any rfl) fun existing => ?_
        split
        · exact leads_throw _
        · split
          · exact leads_throw _
          · exact leads_pure fun _ h => h
      · exact leads_throw _

/-- Both accounts of a transfer are locked in the order of their texts. -/
theorem orderly_lockAccounts (a b : UUID) :
    Leads Session.Free (lockAccounts (lockOrder a b)) fun _ => Session.Locked [a, b] := by
  -- the second account is locked while only the first one is held
  have hboth (first second : UUID) (hle : first = second ∨ first.str < second.str) :
      Leads Session.Free (lockAccounts [first, second]) fun _ =>
        Session.Locked [first, second] := by
    refine .bind (Q := fun found σ => found.isSome →
        σ.Locked [first] ∧ ∀ x m, σ.HasLocked x m → x = first)
      (leads_perform (fun σ hσ p hp => ?_) fun found σ hσ hsome => ?_) fun found => ?_
    · -- nothing is held before the first lock
      exact .inr (.inr fun x m hx => absurd hx (hσ x m))
    · obtain ⟨account, rfl⟩ := Option.isSome_iff_exists.mp hsome
      refine ⟨fun x hx => ?_, fun x m hx => ?_⟩
      · obtain rfl := List.mem_singleton.mp hx
        exact List.mem_cons_self
      · rcases holds_after hx with hx | ⟨hx, -⟩
        · exact absurd hx (hσ x m)
        · cases List.mem_singleton.mp hx
          rfl
    · cases found with
      | none => exact leads_throw _
      | some account =>
          refine .bind (Q := fun found σ => found.isSome → σ.Locked [first, second])
            (leads_perform (fun σ hσ p hp => ?_) fun found σ hσ hsome => ?_) fun found => ?_
          · -- the first account is held and comes first in the order
            obtain ⟨hlocked, honly⟩ := hσ rfl
            obtain rfl := List.mem_singleton.mp hp
            rcases hle with rfl | hlt
            · exact .inr (.inl (hlocked _ (List.mem_singleton_self _)))
            · refine .inr (.inr fun x m hx => ?_)
              rw [honly x m hx]
              exact hlt
          · obtain ⟨account', rfl⟩ := Option.isSome_iff_exists.mp hsome
            have hfirst := (hσ rfl).1 first (List.mem_singleton_self _)
            intro x hx
            rcases List.mem_cons.mp hx with rfl | hx
            · exact List.mem_cons_of_mem _ hfirst
            · obtain rfl := List.mem_singleton.mp hx
              exact List.mem_cons_self
          · cases found with
            | none => exact leads_throw _
            | some account' => exact leads_pure fun σ h => h rfl
  unfold lockOrder
  split
  · -- which of the two texts is the smaller one decides the order
    next hlt =>
      refine (hboth b a (.inr hlt)).mono (fun _ h => h) fun _ σ hσ x hx => hσ x ?_
      simp only [List.mem_cons, List.not_mem_nil, or_false] at hx ⊢
      exact hx.symm
  · next hle =>
      refine hboth a b ?_
      by_cases heq : a = b
      · exact .inl heq
      · refine .inr (String.not_le.mp fun hge => heq (UUID.str_injective ?_))
        exact String.le_antisymm (String.not_lt.mp hle) hge

/-- A transfer locks its accounts in order, before the rows that reference them. -/
theorem orderly_attemptTransfer (q : TransferRequest) :
    Leads Session.Free (attemptTransfer q) fun _ => Anything := by
  unfold attemptTransfer
  refine .bind (orderly_lockAccounts _ _) fun _ => .bind (leads_locked rfl rfl) fun balance => ?_
  split
  · unfold recordInsufficientBalance
    refine .bind (leads_locked rfl rfl) fun _ => .bind (leads_locked rfl rfl) fun _ =>
      .bind (locked_publishEvent _ _ _ _) fun event => .bind (locked_flush ?_) fun _ =>
        .bind leads_commit fun _ => leads_throw _
    simp [Write.references, Row.references, Row.foreignKeys]
  · unfold recordTransfer
    refine .bind (leads_locked rfl rfl) fun _ => .bind (leads_locked rfl rfl) fun _ =>
      .bind (leads_locked rfl rfl) fun _ => .bind (leads_locked rfl rfl) fun _ =>
        .bind (leads_locked rfl rfl) fun _ => .bind (locked_publishEvent _ _ _ _) fun event =>
          .bind (locked_flush ?_) fun _ => .bind leads_commit fun _ => leads_pure fun _ _ => trivial
    simp [Write.references, Row.references, Row.foreignKeys]

/-- A transfer asks for nothing after it has locked both accounts but references to them. -/
theorem orderly_transfer (q : TransferRequest) :
    Leads Session.Free (transfer sha256 q) fun _ => Anything := by
  unfold transfer
  refine .bind (roams_perform rfl).leads fun cached => ?_
  split
  · -- an entry in Redis answers without any lock
    split
    · exact leads_throw _
    · unfold CacheEntry.transferResponse
      split
      · exact leads_pure fun _ _ => trivial
      · exact leads_throw _
  · refine .bind (.tryCatch (orderly_attemptTransfer q) fun e => ?_) fun _ =>
      .bind (leads_any rfl) fun _ => leads_pure fun _ h => h
    unfold resolveTransfer
    -- the handler of the unique key reads in a new transaction and locks nothing
    split
    · refine .bind (leads_any rfl) fun _ => ?_
      split
      · refine .bind (leads_any rfl) fun existing => ?_
        split
        · exact leads_throw _
        · split
          · exact leads_throw _
          · split
            · exact leads_throw _
            · exact leads_pure fun _ h => h
      · exact leads_throw _
    · exact leads_throw _

/-- The pending record of a deposit references no account. -/
theorem roams_insertDeposit (q : DepositRequest) (d : Deposit Decimal) :
    Roams (insertDeposit q d) := by
  refine .tryCatch (.bind (roams_perform rfl) fun _ => roams_pure _) fun e => ?_
  split
  · refine .bind (roams_perform rfl) fun _ => ?_
    split
    · refine .bind (roams_perform rfl) fun existing => ?_
      split
      · exact roams_pure _
      · exact roams_throw _
    · exact roams_throw _
  · exact roams_throw _

/-- A deposit that passes has locked its account. -/
theorem orderly_validateDeposit (q : DepositRequest) :
    Leads Session.Free (validateDeposit q) fun reason σ =>
      reason = none → σ.Locked [q.accountId] := by
  unfold validateDeposit
  split
  · exact leads_pure fun _ _ hnone => nomatch hnone
  · refine .bind (Q := fun found σ => found.isSome → σ.Locked [q.accountId])
      (leads_perform (fun σ hσ _ _ => .inr (.inr fun x m hx => absurd hx (hσ x m)))
        fun found σ _ hsome => ?_) fun found => ?_
    · obtain ⟨account, rfl⟩ := Option.isSome_iff_exists.mp hsome
      intro x hx
      obtain rfl := List.mem_singleton.mp hx
      exact List.mem_cons_self
    · split
      · exact leads_pure fun _ _ hnone => nomatch hnone
      · split
        · exact leads_pure fun _ _ hnone => nomatch hnone
        · exact leads_pure fun _ hσ _ => hσ rfl

/-- The webhook asks for its account, and after it for the system account. -/
theorem orderly_simulateDeposit (q : DepositRequest) :
    Leads Session.Free (simulateDeposit q) fun _ => Anything := by
  unfold simulateDeposit
  refine .bind (roams_perform rfl).leads fun _ => .bind (roams_perform rfl).leads fun _ =>
    .bind (roams_insertDeposit _ _).leads fun existing => ?_
  split
  · exact leads_pure fun _ _ => trivial
  · refine .bind (orderly_validateDeposit q) fun reason => ?_
    split
    · unfold rejectDeposit
      -- the writes of a rejection refer to no account
      refine Leads.mono (.bind (any_publishEvent _ _ _ _) fun event => .bind (any_flush ?_) fun _ =>
        .bind (leads_any rfl) fun _ => leads_pure fun _ h => h) (fun _ _ => trivial) fun _ _ h => h
      simp [Write.references, Row.references, Row.foreignKeys]
    · unfold completeDeposit
      -- the account of the deposit is locked by now, and the legs reference it and the system
      -- account
      refine Leads.mono (I := Session.Locked [q.accountId]) (.bind (leads_locked rfl rfl) fun _ =>
        .bind (leads_locked rfl rfl) fun _ => .bind (leads_locked rfl rfl) fun _ =>
          .bind (locked_publishEvent _ _ _ _) fun event => .bind (locked_flush ?_) fun _ =>
            .bind leads_commit fun _ => leads_pure fun _ _ => trivial)
        (fun _ hσ => hσ rfl) fun _ _ h => h
      simp [Write.references, Row.references, Row.foreignKeys]

/-! ### Withdrawals -/

/-- Asking whether the cooldown has passed asks for no account. -/
theorem roams_cooldownElapsed (cb : CircuitBreaker) : Roams cb.cooldownElapsed := by
  refine .bind (roams_perform rfl) fun last => ?_
  split
  · exact roams_pure _
  · exact .bind (roams_perform rfl) fun _ => roams_pure _

/-- The preflight check asks for no account. -/
theorem roams_isCallAllowed (cb : CircuitBreaker) : Roams cb.isCallAllowed := by
  refine .bind (roams_perform rfl) fun state => ?_
  split
  · exact roams_pure _
  · exact roams_cooldownElapsed cb
  · exact .bind (roams_perform rfl) fun _ => roams_pure _

/-- Entering the circuit breaker asks for no account. -/
theorem roams_enter (cb : CircuitBreaker) : Roams cb.enter := by
  have hclaimed (claimed : Bool) :
      Roams (if claimed then pure () else throw .circuitOpen : Program Unit) := by
    split
    · exact roams_pure _
    · exact roams_throw _
  refine .bind (roams_perform rfl) fun state => ?_
  split
  · exact roams_pure _
  · refine .bind (roams_cooldownElapsed cb) fun elapsed => ?_
    split
    · exact .bind (roams_perform rfl) hclaimed
    · exact roams_throw _
  · refine .bind (roams_perform rfl) fun probeActive => ?_
    split
    · exact roams_throw _
    · exact .bind (roams_perform rfl) hclaimed

/-- Calling the rail asks for no account. -/
theorem roams_callRailOutcome (circuitBreaker : Option CircuitBreaker) (w : Withdrawal Decimal) :
    Roams (callRailOutcome circuitBreaker w) := by
  have hsend : Roams (sendWithdrawal w.id w.amount w.destinationDetails) := roams_perform rfl
  refine .tryCatch (.bind ?_ fun _ => roams_pure _) fun e => ?_
  · unfold callRail
    split
    · refine .bind (roams_enter _) fun _ => .tryCatch
        (.bind hsend fun _ => .bind (roams_perform rfl) fun _ => roams_pure _) fun e => ?_
      split
      · refine .bind ?_ fun _ => roams_throw _
        exact .bind (roams_perform rfl) fun _ => .bind (roams_perform rfl) fun _ => roams_pure _
      · exact roams_throw _
    · exact hsend
  · split
    · exact roams_pure _
    · exact roams_throw _

/-- Marking a withdrawal as submitted references no account. -/
theorem roams_submitWithdrawal (w : Withdrawal Decimal) : Roams (submitWithdrawal w) := by
  refine roams_begin (Q := fun _ => Session.Free) (.bind (roams_perform rfl).leads fun _ =>
    .bind (roams_perform rfl).leads fun _ => .bind (roams_flush ?_).leads fun _ =>
      leads_pure fun _ h => h)
  simp [Write.references]

/-- Completing a withdrawal asks for no account. -/
theorem roams_completeWithdrawal (w : Withdrawal Decimal) (reference : String)
    (actorUserId : Option UUID) : Roams (completeWithdrawal w reference actorUserId) := by
  refine roams_begin (Q := fun _ => Session.Free) (.bind (roams_perform rfl).leads fun _ =>
    .bind (roams_publishEvent _ _ _ _).leads fun event => .bind (roams_perform rfl).leads fun _ =>
      .bind (roams_flush ?_).leads fun _ => leads_pure fun _ h => h)
  simp [Write.references, Row.references, Row.foreignKeys]

/-- The reversal references the system account and then the account of the withdrawal. -/
theorem roams_compensateWithdrawal (w : Withdrawal Decimal) (code : String)
    (actorUserId : Option UUID) : Roams (compensateWithdrawal w code actorUserId) := by
  refine .bind (roams_perform rfl) fun _ => roams_begin (Q := fun _ => Anything)
    (.bind (roams_perform rfl).leads fun _ => .bind (roams_perform rfl).leads fun _ =>
      .bind (roams_perform rfl).leads fun _ => .bind (roams_publishEvent _ _ _ _).leads fun event =>
        .bind (roams_perform rfl).leads fun _ => .bind (free_flush rfl ?_) fun _ =>
          leads_pure fun _ h => h)
  simp [Write.references, Row.references, Row.foreignKeys]

/-- Between its transactions the saga holds no account. -/
theorem roams_runSaga (q : WithdrawalRequest) (w : Withdrawal Decimal) :
    Roams (runSaga sha256 q w) := by
  refine .bind (roams_perform rfl) fun _ => .bind (roams_submitWithdrawal w) fun submitted =>
    .bind (roams_callRailOutcome _ _) fun outcome => ?_
  split
  · exact .bind (roams_compensateWithdrawal _ _ _) fun _ => roams_pure _
  · exact .bind (roams_completeWithdrawal _ _ _) fun _ => roams_pure _

/-- The first transaction of a withdrawal locks its account, and then references it and the system
account. -/
theorem orderly_startWithdrawal (q : WithdrawalRequest) :
    Leads Session.Free (startWithdrawal sha256 q) fun _ => Anything := by
  unfold startWithdrawal
  split
  · exact leads_throw _
  · -- first the account is locked
    refine .bind (Q := fun found σ => found.isSome → σ.Locked [q.accountId])
      (leads_perform (fun σ hσ _ _ => .inr (.inr fun x m hx => absurd hx (hσ x m)))
        fun found σ _ hsome => ?_) fun found => ?_
    · obtain ⟨account, rfl⟩ := Option.isSome_iff_exists.mp hsome
      intro x hx
      obtain rfl := List.mem_singleton.mp hx
      exact List.mem_cons_self
    · split
      · exact leads_throw _
      · -- from here on the account is locked until the commit
        refine Leads.mono (I := Session.Locked [q.accountId]) (.bind (leads_locked rfl rfl)
          fun balance => ?_) (fun _ hσ => hσ rfl) fun _ _ h => h
        split
        · exact leads_throw _
        · refine .bind (leads_locked rfl rfl) fun _ => .bind (leads_locked rfl rfl) fun _ =>
            .bind (Q := fun existing σ => existing = none → σ.Locked [q.accountId]) ?_
              fun existing =>
              ?_
          · -- inserting the withdrawal references the account, or the key is taken and nothing is
            -- held
            refine .tryCatch (.bind (Q := fun _ => Session.Locked [q.accountId])
              (leads_perform (fun σ hσ request hrequest => ?_) fun a σ hσ => locked_after rfl a hσ)
              fun _ => leads_pure fun _ hσ _ => hσ) fun e => ?_
            · obtain rfl := List.mem_singleton.mp hrequest
              exact .inr (.inl (hσ _ (List.mem_singleton_self _)))
            · split
              · refine .bind (leads_any rfl) fun _ => .bind (leads_any rfl) fun existing => ?_
                split
                · exact leads_pure fun _ _ hnone => nomatch hnone
                · exact leads_throw _
              · exact leads_throw _
          · split
            · exact leads_pure fun _ _ => trivial
            · -- the legs and the event reference the account and the system account, and the commit
              -- releases them
              refine Leads.mono (I := Session.Locked [q.accountId]) (.bind (Q := fun _ =>
                Session.Free) ?_ fun _ => (roams_runSaga q _).leads) (fun _ hσ => hσ rfl)
                fun _ _ _ => trivial
              refine .bind (leads_locked rfl rfl) fun _ => .bind (leads_locked rfl rfl) fun _ =>
                .bind (leads_locked rfl rfl) fun _ => .bind (locked_publishEvent _ _ _ _)
                  fun event => .bind (locked_flush ?_) fun _ => leads_commit
              simp [Write.references, Row.references, Row.foreignKeys]

/-- A withdrawal asks for its account, and after it for the system account. -/
theorem orderly_createWithdrawal (q : WithdrawalRequest) :
    Leads Session.Free (createWithdrawal sha256 q) fun _ => Anything := by
  unfold createWithdrawal
  refine .bind (roams_perform rfl).leads fun cached => ?_
  split
  · split
    · exact leads_throw _
    · unfold CacheEntry.withdrawalResponse
      split
      · exact leads_pure fun _ _ => trivial
      · exact leads_throw _
  · exact orderly_startWithdrawal q

/-! ### Reading a record -/

/-- Looking a transfer up asks for no account. -/
theorem roams_getTransfer (id account : UUID) : Roams (getTransfer id account) := by
  refine .bind (roams_perform rfl) fun record => ?_
  split
  · exact roams_throw _
  · split
    · exact roams_throw _
    · exact roams_pure _

/-- Looking a deposit up asks for no account. -/
theorem roams_getDeposit (id account : UUID) : Roams (getDeposit id account) := by
  refine .bind (roams_perform rfl) fun deposit => ?_
  split
  · exact roams_throw _
  · split
    · exact roams_throw _
    · exact roams_pure _

/-- Looking a withdrawal up asks for no account. -/
theorem roams_getWithdrawal (id account : UUID) : Roams (getWithdrawal id account) := by
  refine .bind (roams_perform rfl) fun withdrawal => ?_
  split
  · exact roams_throw _
  · split
    · exact roams_throw _
    · exact roams_pure _

/-! ### Recovery -/

namespace SagaRecovery

/-- A compensation by the sweep asks for the account of the withdrawal and for the system account.
-/
theorem orderly_compensate (w : Withdrawal Decimal) (code : String) :
    Leads Session.Free (compensate w code) fun _ => Anything := by
  unfold compensate
  refine .bind (roams_perform rfl).leads fun _ => .bind (roams_perform rfl).leads fun _ =>
    .bind (roams_perform rfl).leads fun _ => .bind (roams_perform rfl).leads fun _ =>
      .bind (roams_publishEvent _ _ _ _).leads fun event => .bind (roams_perform rfl).leads fun _ =>
        free_flush rfl ?_
  simp [Write.references, Row.references, Row.foreignKeys]

/-- A completion by the sweep asks for no account. -/
theorem orderly_complete (w : Withdrawal Decimal) (reference : String) :
    Leads Session.Free (complete w reference) fun _ => Anything := by
  unfold complete
  refine Leads.mono (.bind (roams_perform rfl).leads fun _ => .bind
    (roams_publishEvent _ _ _ _).leads fun event => .bind (roams_perform rfl).leads fun _ =>
      (roams_flush ?_).leads) (fun _ h => h) fun _ _ _ => trivial
  simp [Write.references, Row.references, Row.foreignKeys]

/-- Recovering a pending withdrawal asks in order. -/
theorem orderly_recoverPending (cb : CircuitBreaker) (w : Withdrawal Decimal) :
    Leads Session.Free (recoverPending cb w) fun _ => Anything := by
  unfold recoverPending
  refine .bind (roams_isCallAllowed cb).leads fun allowed => ?_
  split
  · refine .bind (roams_perform rfl).leads fun _ => .bind (roams_perform rfl).leads fun _ =>
      .bind (roams_flush ?_).leads fun _ => .bind (roams_callRailOutcome _ _).leads fun outcome =>
        ?_
    · simp [Write.references]
    · split
      · exact orderly_complete _ _
      · exact orderly_compensate _ _
  · exact orderly_compensate _ _

/-- Recovering a submitted withdrawal asks in order. -/
theorem orderly_recoverSubmitted (w : Withdrawal Decimal) :
    Leads Session.Free (recoverSubmitted w) fun _ => Anything := by
  have hquery (reference : String) : Roams (tryQueryStatus reference) :=
    .tryCatch (.bind (roams_perform rfl) fun _ => roams_pure _) fun _ => roams_pure _
  have hnothing : Leads Session.Free (pure () : Program Unit) fun _ => Anything :=
    leads_pure fun _ _ => trivial
  unfold recoverSubmitted
  refine .bind (roams_perform rfl).leads fun _ => ?_
  split
  · refine .bind (hquery _).leads fun status => ?_
    -- each branch completes, compensates or does nothing
    split
    · split
      · exact orderly_complete _ _
      · split
        · exact orderly_compensate _ _
        · exact hnothing
    · split
      · exact orderly_compensate _ _
      · exact hnothing
  · dsimp only
    split
    · exact orderly_compensate _ _
    · exact hnothing

/-- Resolving one withdrawal ends its transaction, and with it the locks. -/
theorem roams_resolveOne (cb : CircuitBreaker) (id : UUID) : Roams (resolveOne cb id) := by
  refine roams_begin (Q := fun _ => Anything) (.bind (roams_perform rfl).leads fun row => ?_)
  have hnothing : Leads Session.Free (pure () : Program Unit) fun _ => Anything :=
    leads_pure fun _ _ => trivial
  split
  · exact hnothing
  · split
    · exact orderly_recoverPending _ _
    · exact orderly_recoverSubmitted _
    · exact hnothing
    · exact hnothing

/-- A sweep holds no account between two withdrawals. -/
theorem roams_recoverStuckWithdrawals (cb : CircuitBreaker) :
    Roams (recoverStuckWithdrawals cb) := by
  have hall (ids : List UUID) : Roams (resolveAll cb ids) := by
    induction ids with
    | nil => exact roams_pure _
    | cons id ids ih =>
        exact .bind (.tryCatch (roams_resolveOne cb id) fun _ => roams_pure _) fun _ => ih
  exact .bind (roams_perform rfl) fun _ => .bind (roams_begin (roams_perform rfl).leads) fun ids =>
    hall ids

end SagaRecovery

/-- Every program of the wallet asks for the locks of accounts in order. -/
theorem orderly_program (request : Request) :
    Leads Session.Free (request.program sha256) fun _ => Anything := by
  cases request with
  | openAccount userId =>
      exact Leads.mono (.bind (orderly_openAccount userId) fun _ => leads_pure fun _ h => h)
        (fun _ _ => trivial) fun _ _ h => h
  | seed q => exact .bind (orderly_seed q) fun _ => leads_pure fun _ h => h
  | transfer q => exact .bind (orderly_transfer q) fun _ => leads_pure fun _ h => h
  | simulateDeposit q => exact .bind (orderly_simulateDeposit q) fun _ => leads_pure fun _ h => h
  | createWithdrawal q => exact .bind (orderly_createWithdrawal q) fun _ => leads_pure fun _ h => h
  | recoverStuckWithdrawals cb =>
      exact .bind (SagaRecovery.roams_recoverStuckWithdrawals cb).leads fun _ =>
        leads_pure fun _ _ => trivial
  | getTransfer id account =>
      exact .bind (roams_getTransfer id account).leads fun _ => leads_pure fun _ _ => trivial
  | getDeposit id account =>
      exact .bind (roams_getDeposit id account).leads fun _ => leads_pure fun _ _ => trivial
  | getWithdrawal id account =>
      exact .bind (roams_getWithdrawal id account).leads fun _ => leads_pure fun _ _ => trivial

end Programs

/-- The wallet abides by the order of account locks. -/
theorem abides_orderly (sha256 : String → String) (s : Shared) :
    (wallet sha256).Abides orderly s where
  possible := fun _ _ => trivial
  safe := by
    rintro p ⟨request, rfl⟩
    refine .of_wp _ _ (orderly_program request {} fun x m hx => ?_)
    cases m with
    | forUpdate => cases hx
    | keyShare =>
        obtain ⟨row, hrow, -⟩ := hx
        cases hrow

end MiniWallet
