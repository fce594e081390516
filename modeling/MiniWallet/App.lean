import MiniWallet.Numeric.Sha256
import MiniWallet.Server.Semantics
import MiniWallet.Services.Account
import MiniWallet.Services.Deposit
import MiniWallet.Services.Transfer
import MiniWallet.Workers.SagaRecovery

/-!
# The wallet as a system

Any number of requests and recovery sweeps run at the same time, each in its own process. A process
may stop at every point of its program, which is how a crash looks from outside, and whenever it
stops its open transaction is rolled back.
-/

namespace MiniWallet

open Numeric Process

/-- What a process can be started with. -/
inductive Request
  | openAccount (userId : UUID)
  | seed (q : SeedRequest)
  | transfer (q : TransferRequest)
  | simulateDeposit (q : DepositRequest)
  | createWithdrawal (q : WithdrawalRequest)
  | recoverStuckWithdrawals (circuitBreaker : CircuitBreaker)
  | getTransfer (transferId requestingAccountId : UUID)
  | getDeposit (depositId requestingAccountId : UUID)
  | getWithdrawal (withdrawalId requestingAccountId : UUID)

/-- What a process returns. -/
inductive Response
  | account (a : Account)
  | seed (r : SeedResponse)
  | transfer (r : TransferResponse)
  | deposit (r : DepositResponse)
  | withdrawal (r : WithdrawalResponse)
  | done

/-- The program that handles a request. -/
def Request.program (sha256 : String → String) : Request → Program Response
  | openAccount userId => do return .account (← MiniWallet.openAccount userId)
  | seed q => do return .seed (← MiniWallet.seed q)
  | transfer q => do return .transfer (← MiniWallet.transfer sha256 q)
  | simulateDeposit q => do return .deposit (← MiniWallet.simulateDeposit q)
  | createWithdrawal q => do return .withdrawal (← MiniWallet.createWithdrawal sha256 q)
  | recoverStuckWithdrawals circuitBreaker => do
      SagaRecovery.recoverStuckWithdrawals circuitBreaker
      return .done
  | getTransfer id account => do return .transfer (← MiniWallet.getTransfer id account)
  | getDeposit id account => do return .deposit (← MiniWallet.getDeposit id account)
  | getWithdrawal id account => do return .withdrawal (← MiniWallet.getWithdrawal id account)

/-- The wallet: its operations, and the programs that can be started. -/
def wallet (sha256 : String → String) : System Op Op.Out Exc Response Shared Session where
  idle := {}
  enabled := fun i o r w => Ends w i o r
  after := after
  effect := effect
  env := env
  start := fun p => ∃ request : Request, p = request.program sha256

/-- A configuration of the wallet. -/
abbrev Wallet := Config Op Op.Out Exc Response Shared Session

/-- What happens in a step of the wallet. -/
abbrev Event := Label Op Op.Out Exc

/-- `WalletRun sha256 t₀ ok c`: the wallet gets from the migrated database at time `t₀` to `c`, by
some interleaving of requests, sweeps and crashes whose steps all satisfy `ok`. -/
abbrev WalletRun (sha256 : String → String) (t₀ : Time) (ok : State → Event → Prop) (c : Wallet) :
    Prop :=
  (wallet sha256).Run ok ((wallet sha256).initial (.initial t₀)) c

/-- `Reaches sha256 c`: the wallet gets to `c` by some run. -/
def Reaches (sha256 : String → String) (c : Wallet) : Prop :=
  ∃ t₀, WalletRun sha256 t₀ System.anyStep c

/-- `ReachesUnder sha256 ok c`: the wallet gets to `c` by a run whose steps all satisfy `ok`. -/
def ReachesUnder (sha256 : String → String) (ok : State → Event → Prop) (c : Wallet) : Prop :=
  ∃ t₀, WalletRun sha256 t₀ ok c

/-! ## Explicit schedules -/

/-- What settles the open choices of a schedule. -/
inductive Hint
  /-- The request to start a process with. -/
  | request (r : Request)
  /-- The choice to make for an operation. -/
  | choose (choice : Choice)
  /-- Nothing fails, and identifiers are numbered in the order in which they are drawn. -/
  | auto
  /-- Time passes. -/
  | wait (duration : ℕ)
  /-- An entry of Redis is evicted. -/
  | evict (key : String)

/-- The choice that a hint makes for an operation. -/
def Hint.choice (hint : Hint) (s : Shared) (o : Op) : Choice :=
  match hint, o with
  | .choose choice, _ => choice
  | _, .uuid4 => .fresh ⟨BitVec.ofNat 128 s.issued.length⟩
  | _, _ => .proceed

/-- The change of the surroundings that a hint asks for. -/
def Hint.change (hint : Hint) (s : Shared) : Option { s' : Shared // env s s' } :=
  match hint with
  | .wait duration =>
      some ⟨{ s with clock := s.clock + duration },
        _, s.redis, rfl, Int.le_add_of_nonneg_right (Int.natCast_nonneg _), fun _ => .inl rfl⟩
  | .evict key =>
      some ⟨{ s with redis := fun k => if k = key then none else s.redis k },
        s.clock, _, rfl, le_rfl, fun k => by by_cases h : k = key <;> simp [h]⟩
  | _ => none

/-- How the hints of a schedule choose among the steps of the wallet. -/
def player (sha256 : String → String) : (wallet sha256).Player Hint where
  spawn
    | .request r => some ⟨r.program sha256, r, rfl⟩
    | _ => none
  call hint i o w :=
    match h : reply (hint.choice w.shared o) i w o with
    | some r => some ⟨r, _, h⟩
    | none => none
  env := Hint.change

/-- A schedule for the wallet. -/
abbrev Schedule := List (System.Move Hint)

/-- The next `n` operations of process `i`, none of which fails. -/
def steps (i n : ℕ) : Schedule := List.replicate n (.call i .auto)

/-- The wallet, with the hash function that it uses, after the moves of a schedule. -/
def played (ok : State → Event → Prop) [∀ w l, Decidable (ok w l)] (ms : Schedule) :
    Option Wallet :=
  System.play ok (player Sha256.hexdigest) ((wallet Sha256.hexdigest).initial (.initial 0)) ms

/-- What a schedule that can be played ends in is reached. -/
theorem reachesUnder_of_played {ok : State → Event → Prop} [∀ w l, Decidable (ok w l)]
    {ms : Schedule} {P : Wallet → Prop} [DecidablePred P]
    (h : (played ok ms).any (fun c => decide (P c)) = true) :
    ∃ c, ReachesUnder Sha256.hexdigest ok c ∧ P c := by
  obtain ⟨c, hc, hP⟩ := (Option.any_eq_true _ _).mp h
  exact ⟨c, ⟨0, System.run_of_play hc⟩, of_decide_eq_true hP⟩

/-- A schedule in two parts gives a configuration that is reached and a later one. -/
theorem reachesUnder_then_of_played {ok : State → Event → Prop} [∀ w l, Decidable (ok w l)]
    {ms ms' : Schedule} {P : Wallet → Wallet → Prop} [∀ c, DecidablePred (P c)]
    (h : (played ok ms).any (fun c =>
      (System.play ok (player Sha256.hexdigest) c ms').any fun c' => decide (P c c')) = true) :
    ∃ c c', ReachesUnder Sha256.hexdigest ok c ∧ (wallet Sha256.hexdigest).Run ok c c' ∧
    P c c' := by
  obtain ⟨c, hc, h⟩ := (Option.any_eq_true _ _).mp h
  obtain ⟨c', hc', hP⟩ := (Option.any_eq_true _ _).mp h
  exact ⟨c, c', ⟨0, System.run_of_play hc⟩, System.run_of_play hc', of_decide_eq_true hP⟩

/-- What a schedule without a condition ends in is reached. -/
theorem reaches_of_played {ms : Schedule} {P : Wallet → Prop} [DecidablePred P]
    (h : (played System.anyStep ms).any (fun c => decide (P c)) = true) :
    ∃ c, Reaches Sha256.hexdigest c ∧ P c :=
  reachesUnder_of_played h

end MiniWallet
