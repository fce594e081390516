import MiniWallet.Ledger.LockOrder
import MiniWallet.Process.WaitFor
import MiniWallet.Safety.Refunds

/-!
# Deadlock

Transfers lock both accounts in the order of their identifiers. The other operations lock at most
one account, and everybody references the system account. Nobody waits for a reference to it, unless
a transfer has locked it for update: the system account comes first in the order, but a withdrawal
references it while it holds the account of its user.

* `accountWaits`: the wait-for graph on the rows of `accounts`.
* `Granted`: the assumption that Postgres does not grant conflicting locks.
* `SparesSystemRow`: the condition on steps, that nobody locks the system account for update, as
  only a transfer with the system account as a party does.
* `no_deadlock`: under the condition the graph has no cycle.
* `transfer_deadlocks`: a transfer to the system account and a withdrawal wait for each other.
-/

namespace MiniWallet

open Numeric Process System State

variable {sha256 : String → String} {t₀ : Time} {c : Wallet}

/-! ## The wait-for graph -/

/-- The modes in which the session has locked the account. -/
def Session.modes (σ : Session) (x : UUID) : List LockMode :=
  [.keyShare, .forUpdate].filter fun m => σ.HasLocked x m

/-- A mode of the session is one that it holds. -/
theorem Session.mem_modes {σ : Session} {x : UUID} {m : LockMode} :
    m ∈ σ.modes x ↔ σ.HasLocked x m := by
  cases m <;> simp [modes]

/-- The account locks that a process is waiting to get. -/
def requests (c : Wallet) (i : ℕ) : List (UUID × LockMode) :=
  match c.pool i with
  | some (.call o _) => o.requests
  | _ => []

/-- The wait-for graph on the rows of `accounts`: process `i` asks for a lock of account `x` that
conflicts with one that process `j` holds. -/
def accountWaits (c : Wallet) : WaitFor ℕ UUID := fun i x j =>
  j ≠ i ∧ ∃ p ∈ requests c i, p.1 = x ∧ ∃ m ∈ (c.sess j).modes x, p.2.Conflicts m

/-- Whether one process waits for another one at an account is decidable. -/
instance (i j : ℕ) (x : UUID) : Decidable (accountWaits c i x j) :=
  inferInstanceAs (Decidable (_ ∧ ∃ p ∈ requests c i, _))

/-- No other process holds a lock that conflicts with one that the operation asks for. -/
def Grantable (w : State) (i : ℕ) (o : Op) : Prop :=
  ∀ p ∈ o.requests, ∀ j < w.size, j ≠ i → ∀ m ∈ (w.sess j).modes p.1, ¬ p.2.Conflicts m

/-- Whether the locks of an operation can be granted is decidable. -/
instance (w : State) (i : ℕ) (o : Op) : Decidable (Grantable w i o) :=
  inferInstanceAs (Decidable (∀ p ∈ o.requests, _))

/-- What Postgres does: an operation returns only when its locks can be granted. -/
def Granted (w : State) : Event → Prop
  | .call i o (.ok _) => Grantable w i o
  | _ => True

/-- Whether the locks of a step were granted is decidable. -/
instance (w : State) (l : Event) : Decidable (Granted w l) :=
  match l with
  | .call i o (.ok _) => inferInstanceAs (Decidable (Grantable w i o))
  | .call _ _ (.error _) | .spawn | .stop _ | .env => inferInstanceAs (Decidable True)

/-- The step does not lock the system account for update. -/
def SparesSystemRow (_ : State) : Event → Prop
  | .call _ (.lockAccount id) _ => id ≠ systemAccountId
  | _ => True

/-- Whether a step leaves the row of the system account unlocked is decidable. -/
instance (w : State) (l : Event) : Decidable (SparesSystemRow w l) :=
  match l with
  | .call _ (.lockAccount id) _ => inferInstanceAs (Decidable (id ≠ systemAccountId))
  | .call _ .now _ | .call _ .uuid4 _ | .call _ (.cacheGet _) _ | .call _ (.cacheSet _ _) _
  | .call _ (.breaker _) _ | .call _ (.select _) _ | .call _ .commit _
  | .call _ (.lockWithdrawal _) _ | .call _ (.claimStuck _ _) _ | .call _ (.write _) _
  | .call _ .rollback _ | .call _ (.sendWithdrawal _ _ _) _ | .call _ (.queryStatus _) _
  | .spawn | .stop _ | .env => inferInstanceAs (Decidable True)

/-! ## What is held in a run -/

/-- Two sessions hold no conflicting locks. -/
def Compatible (σ σ' : Session) : Prop :=
  ∀ x m m', σ.HasLocked x m → σ'.HasLocked x m' → ¬ m.Conflicts m'

/-- A session that has just started holds nothing. -/
theorem free_idle : Session.Free {} := by
  intro x m hx
  cases m with
  | forUpdate => cases hx
  | keyShare =>
      obtain ⟨row, hrow, -⟩ := hx
      cases hrow

/-- No two processes hold conflicting locks. -/
theorem compatible {ok : State → Event → Prop} (hok : ∀ w l, ok w l → Granted w l)
    (h : WalletRun sha256 t₀ ok c) {i j : ℕ} (hij : i ≠ j) :
    Compatible (c.sess i) (c.sess j) := by
  have hsymm {m m' : LockMode} (h : m.Conflicts m') : m'.Conflicts m := h.symm
  refine h.pairwise (abides_orderly sha256 _) (K := Compatible) ?_ ?_ ?_ hij
  · exact fun hK x m m' hm hm' hconflict => hK x m' m hm' hm (hsymm hconflict)
  · exact fun σ x m _ hm => absurd hm (free_idle x m)
  · intro c i j o r hcall hj hK x m m' hm hm' hconflict
    rcases holds_after hm with hm | ⟨hrequest, a, rfl⟩
    · exact hK x m m' hm hm' hconflict
    · -- what is new was granted
      have hgrantable : Grantable c.toWorld i o := hok _ _ hcall.allowed
      by_cases hsize : j < c.size
      · exact hgrantable _ hrequest j hsize hj m' (Session.mem_modes.mpr hm') hconflict
      · have hidle := (hcall.run.fresh (fresh_initial _)).sess_idle j (not_lt.mp hsize)
        rw [hidle] at hm'
        exact free_idle x m' hm'

/-- Under the condition nobody has locked the system account for update. -/
theorem system_not_locked {ok : State → Event → Prop}
    (hok : ∀ w l, ok w l → SparesSystemRow w l) (h : WalletRun sha256 t₀ ok c) (i : ℕ) :
    ¬ (c.sess i).HasLocked systemAccountId .forUpdate := by
  refine h.each (abides_orderly sha256 _)
    (J := fun _ σ => ¬ σ.HasLocked systemAccountId .forUpdate) ?_ i
  refine { init := free_idle _ _, own := ?_, other := fun _ hJ _ => hJ _, env := fun _ hJ _ => hJ }
  intro c i o r hcall hJ hheld
  rcases holds_after hheld with hheld | ⟨hrequest, -⟩
  · exact hJ i hheld
  · have hspares := hok _ _ hcall.allowed
    cases o with
    | lockAccount id =>
        cases List.mem_singleton.mp hrequest
        exact hspares rfl
    | write w =>
        -- a reference is not a lock for update
        obtain ⟨x, -, hx⟩ := List.mem_map.mp hrequest
        cases hx
    | _ => cases hrequest

/-! ## Absence of deadlock -/

/-- The order of accounts by the texts of their identifiers is strict. -/
instance : IsStrictOrder UUID fun x y => x.str < y.str where
  irrefl _ := String.lt_irrefl _
  trans _ _ _ := String.lt_trans

/-- What a process waits for comes after what others wait for it to release. -/
theorem accountWaits_ordered
    (h : WalletRun sha256 t₀ (fun w l => Granted w l ∧ SparesSystemRow w l) c) :
    (accountWaits c).Ordered fun x y => x.str < y.str := by
  rintro i x j y k ⟨hij, p, -, rfl, m, hheld, -⟩ ⟨hjk, q, hrequest, rfl, m', hm', hconflict⟩
  rw [Session.mem_modes] at hheld hm'
  -- process `j` asks for its lock under the guard of the contract
  have hmay : (c.sess j).MayRequest q.1 q.2 := by
    unfold requests at hrequest
    split at hrequest
    · next o next hpool =>
        have hsafe := h.safe (abides_orderly sha256 _) hpool
        exact ((Contract.wp_call _ _).mp hsafe).1 q hrequest
    · cases hrequest
  rcases hmay with ⟨hsystem, hmode⟩ | hlocked | hordered
  · -- nobody can make it wait for a reference to the system account
    rcases hconflict with hupdate | hupdate
    · rw [hmode] at hupdate
      cases hupdate
    · rw [hsystem, hupdate] at hm'
      exact absurd hm' (system_not_locked (fun _ _ h => h.2) h k)
  · exact absurd (.inl rfl)
      (compatible (fun _ _ h => h.1) h hjk.symm _ _ _ hlocked hm')
  · exact hordered _ _ hheld

/-- In every run in which nobody locks the system account for update, no processes wait for each
other in a circle. -/
theorem no_deadlock
    (h : ReachesUnder sha256 (fun w l => Granted w l ∧ SparesSystemRow w l) c) :
    ¬ (accountWaits c).Deadlocked := by
  obtain ⟨t₀, h⟩ := h
  exact WaitFor.not_deadlocked (accountWaits_ordered h)

/-! ## Explicit schedules -/

/-- Two users send each other money: the second transfer waits for an account that the first one has
locked. -/
theorem no_deadlock_bidirectional :
    ∃ c, ReachesUnder Sha256.hexdigest (fun w l => Granted w l ∧ SparesSystemRow w l) c ∧
      accountWaits c 4 ⟨1⟩ 3 ∧ ¬ (accountWaits c).Deadlocked := by
  obtain ⟨c, hc, hwaits⟩ := reachesUnder_of_played (P := fun c => accountWaits c 4 ⟨1⟩ 3)
    (show (played (fun w l => Granted w l ∧ SparesSystemRow w l) (seededSchedule ++
      [.spawn (.request (.openAccount ⟨1001⟩))] ++ steps 2 9 ++
      [.spawn (.request (.transfer (transferOf ⟨false, 40, 0⟩))),
        .spawn (.request (.transfer { transferOf ⟨false, 40, 0⟩ with
          fromAccountId := ⟨9⟩, toAccountId := ⟨1⟩ }))] ++
      steps 3 2 ++ steps 4 1)).any _ = true by decide +kernel)
  exact ⟨c, hc, hwaits, no_deadlock hc⟩

/-- Without the condition, a transfer to the system account has locked it and waits for the account
of its sender, which a withdrawal has locked that is about to reference the system account. -/
theorem transfer_deadlocks :
    ¬ ∀ c, ReachesUnder Sha256.hexdigest Granted c → ¬ (accountWaits c).Deadlocked := by
  intro hfree
  obtain ⟨c, hc, hsender, hsystem⟩ := reachesUnder_of_played
    (P := fun c => accountWaits c 2 ⟨1⟩ 3 ∧ accountWaits c 3 systemAccountId 2)
    (show (played Granted (seededSchedule ++
      [.spawn (.request (.transfer { transferOf ⟨false, 40, 0⟩ with toAccountId := ⟨0⟩ })),
        .spawn (.request (.createWithdrawal withdrawalOf40))] ++
      steps 2 2 ++ steps 3 12)).any _ = true by decide +kernel)
  exact hfree c hc ⟨2, .tail (.single ⟨_, hsender⟩) ⟨_, hsystem⟩⟩

end MiniWallet
