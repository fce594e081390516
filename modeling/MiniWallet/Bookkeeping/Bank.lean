import Mathlib.Data.Set.Insert
import Mathlib.Logic.Function.Basic
import MiniWallet.Bookkeeping.Journal

/-!
# An abstract bank

What a payment service is for, with nothing about how it is built: accounts with balances, requests
that are identified by keys, and payouts that are reserved before they leave. Every action of the
bank happens at once. Money enters and leaves through one account, which stands for the world
outside.

* `Bank`, `Bank.Action`: the states, and what can be done.
* `Bank.Allows`, `Bank.perform`, `Bank.after`: when an action can be done, and what it does.
* `Bank.Leads`: what a sequence of actions leads to; `Leads.after` goes on with it.
* `Leads.keys_nodup`: no key is used by two actions.
* `Allows.owned`, `Leads.owned_ne`: an owner keeps the account, and no one owns the outside.
* `Leads.refunds`: a refund gives back what was reserved.
* `Leads.still`: where no money comes in from outside, there is none.
-/

namespace Bookkeeping

/-- Money that has been taken from an account for a payout. -/
structure Hold (Account Amount : Type) where
  /-- The account that it was taken from. -/
  account : Account
  amount : Amount
  /-- It has been given back. -/
  refunded : Bool

/-- The state of a bank. -/
@[ext]
structure Bank (Owner Account Key Claim Amount : Type) where
  /-- The accounts that exist. -/
  opened : Set Account
  /-- The account of each owner. -/
  owned : Owner → Option Account
  balance : Account → Amount
  /-- The keys of the requests that have been answered for good. -/
  used : Set Key
  /-- The payouts, by the claims that were made for them. -/
  held : Claim → Option (Hold Account Amount)

namespace Bank

/-- What a bank can do. -/
inductive Action (Owner Account Key Claim Amount : Type)
  | openAccount (owner : Owner) (account : Account)
  /-- A request is turned down, and its key is used up. -/
  | decline (key : Key)
  /-- Money comes in from outside. -/
  | issue (key : Key) (target : Account) (amount : Amount)
  /-- Money goes from one account to another. -/
  | move (key : Key) (source target : Account) (amount : Amount)
  /-- Money is taken from an account for a payout. -/
  | reserve (key : Key) (claim : Claim) (source : Account) (amount : Amount)
  /-- The money of a payout is given back. -/
  | refund (key : Key) (claim : Claim) (target : Account) (amount : Amount)

section Bank

variable {Owner Account Key Claim Amount : Type}

namespace Action

/-- The key that an action uses up. -/
def key? : Action Owner Account Key Claim Amount → Option Key
  | openAccount _ _ => none
  | decline key | issue key _ _ | move key _ _ _ | reserve key _ _ _ | refund key _ _ _ => some key

/-- The posting that an action makes; `outside` is the account that stands for the outside. -/
def posting? (outside : Account) :
    Action Owner Account Key Claim Amount → Option (Posting Account Amount)
  | openAccount _ _ | decline _ => none
  | issue _ target amount => some ⟨outside, target, amount⟩
  | move _ source target amount => some ⟨source, target, amount⟩
  | reserve _ _ source amount => some ⟨source, outside, amount⟩
  | refund _ _ target amount => some ⟨outside, target, amount⟩

/-- The account that an action takes money from at the request of its owner. -/
def debits? : Action Owner Account Key Claim Amount → Option Account
  | move _ source _ _ | reserve _ _ source _ => some source
  | _ => none

/-- The action brings no money in from outside. -/
def Inside (outside : Account) : Action Owner Account Key Claim Amount → Prop
  | issue _ _ _ => False
  | move _ source _ _ => source ≠ outside
  | _ => True

end Action

variable [DecidableEq Owner] [DecidableEq Account] [DecidableEq Claim] [AddCommGroup Amount]
  (outside : Account) (b : Bank Owner Account Key Claim Amount)

/-- The bank in which nothing has happened yet: only the account of the outside exists. -/
def empty : Bank Owner Account Key Claim Amount where
  opened := {outside}
  owned := fun _ => none
  balance := fun _ => 0
  used := ∅
  held := fun _ => none

/-- What an action does to the payouts. -/
def heldAfter : Action Owner Account Key Claim Amount → Claim → Option (Hold Account Amount)
  | .reserve _ claim source amount => Function.update b.held claim (some ⟨source, amount, false⟩)
  | .refund _ claim target amount => Function.update b.held claim (some ⟨target, amount, true⟩)
  | _ => b.held

/-- The bank after an action. -/
def perform (action : Action Owner Account Key Claim Amount) :
    Bank Owner Account Key Claim Amount where
  opened :=
    match action with
    | .openAccount _ account => insert account b.opened
    | _ => b.opened
  owned :=
    match action with
    | .openAccount owner account => Function.update b.owned owner (some account)
    | _ => b.owned
  balance := fun a => ((action.posting? outside).map (·.effect a)).getD 0 + b.balance a
  used := {key | action.key? = some key} ∪ b.used
  held := b.heldAfter action

/-- The bank after an action, or after none. -/
def after (action? : Option (Action Owner Account Key Claim Amount)) :
    Bank Owner Account Key Claim Amount :=
  action?.elim b (b.perform outside)

section After

variable (action? : Option (Action Owner Account Key Claim Amount))

/-- The keys that are used after an action, or after none. -/
theorem after_used :
    (b.after outside action?).used = {key | action?.bind Action.key? = some key} ∪ b.used := by
  cases action? with
  | none =>
      ext key
      simp [after]
  | some action => rfl

/-- The balances after an action, or after none. -/
theorem after_balance (a : Account) :
    (b.after outside action?).balance a =
      ((action?.bind (Action.posting? outside)).map (·.effect a)).getD 0 + b.balance a := by
  cases action? with
  | none => exact (zero_add _).symm
  | some action => rfl

end After

variable [LinearOrder Amount]

/-- The action can be done. -/
def Allows : Action Owner Account Key Claim Amount → Prop
  | .openAccount owner account => account ∉ b.opened ∧ b.owned owner = none
  | .decline key => key ∉ b.used
  | .issue key target amount => key ∉ b.used ∧ target ∈ b.opened ∧ 0 < amount
  | .move key source target amount =>
      key ∉ b.used ∧ source ∈ b.opened ∧ target ∈ b.opened ∧ source ≠ target ∧ 0 < amount ∧
        (source = outside ∨ amount ≤ b.balance source)
  | .reserve key claim source amount =>
      key ∉ b.used ∧ b.held claim = none ∧ source ∈ b.opened ∧ source ≠ outside ∧ 0 < amount ∧
        amount ≤ b.balance source
  | .refund key claim target amount => key ∉ b.used ∧ b.held claim = some ⟨target, amount, false⟩

/-- `Leads outside history b`: the actions of `history`, of which the last is the first in the list,
lead from the empty bank to `b`, and each of them is allowed where it is done. -/
inductive Leads (outside : Account) : List (Action Owner Account Key Claim Amount) →
    Bank Owner Account Key Claim Amount → Prop
  | empty : Leads outside [] (.empty outside)
  | perform {history : List (Action Owner Account Key Claim Amount)}
      {b : Bank Owner Account Key Claim Amount} {action : Action Owner Account Key Claim Amount} :
      Leads outside history b →
      b.Allows outside action → Leads outside (action :: history) (b.perform outside action)

variable {outside b} {history : List (Action Owner Account Key Claim Amount)}

/-- A history goes on with an action that is allowed, or with none. -/
theorem Leads.after (h : Leads outside history b)
    {action? : Option (Action Owner Account Key Claim Amount)}
    (hallows : ∀ action ∈ action?, b.Allows outside action) :
    Leads outside (action?.toList ++ history) (b.after outside action?) := by
  cases action? with
  | none => exact h
  | some action => exact .perform h (hallows action rfl)

omit [DecidableEq Owner] [DecidableEq Account] [DecidableEq Claim] in
/-- An action that is allowed uses a new key. -/
theorem Allows.fresh {action : Action Owner Account Key Claim Amount} (h : b.Allows outside action)
    {key : Key} (hkey : action.key? = some key) : key ∉ b.used := by
  cases action with
  | openAccount owner account => cases hkey
  | decline _ =>
      cases hkey
      exact h
  | issue _ _ _ | move _ _ _ _ | reserve _ _ _ _ | refund _ _ _ _ =>
      cases hkey
      exact h.1

/-- The keys that are used are those of the actions. -/
theorem Leads.mem_used (h : Leads outside history b) {key : Key} :
    key ∈ b.used ↔ key ∈ history.filterMap Action.key? := by
  induction h with
  | empty => simp [Bank.empty]
  | @perform history b action _ _ ih =>
      rw [List.filterMap_cons]
      change action.key? = some key ∨ key ∈ b.used ↔ _
      cases action.key? with
      | none => simpa using ih
      | some key' => simp [ih, eq_comm]

/-- No key is used by two actions. -/
theorem Leads.keys_nodup (h : Leads outside history b) :
    (history.filterMap Action.key?).Nodup := by
  induction h with
  | empty => exact .nil
  | @perform history b action hb hallows ih =>
      rw [List.filterMap_cons]
      cases hkey : action.key? with
      | none => exact ih
      | some key =>
          -- the guard of the action says that its key is new
          have hfresh : key ∉ b.used := hallows.fresh hkey
          exact List.nodup_cons.mpr ⟨fun hmem => hfresh (hb.mem_used.mpr hmem), ih⟩

/-- An owner keeps the account. -/
theorem Allows.owned {action : Action Owner Account Key Claim Amount} (h : b.Allows outside action)
    {owner : Owner} {account : Account} (howned : b.owned owner = some account) :
    (b.perform outside action).owned owner = some account := by
  cases action with
  | openAccount owner' account' =>
      -- an account is opened only for those who have none
      have hne : owner ≠ owner' := by
        rintro rfl
        cases howned.symm.trans h.2
      exact (Function.update_of_ne hne _ _).trans howned
  | decline _ | issue _ _ _ | move _ _ _ _ | reserve _ _ _ _ | refund _ _ _ _ => exact howned

/-- The account of the outside exists, and no one owns it. -/
theorem Leads.owned_ne (h : Leads outside history b) :
    outside ∈ b.opened ∧ ∀ owner account, b.owned owner = some account → account ≠ outside := by
  induction h with
  | empty => exact ⟨rfl, fun _ _ howned => nomatch howned⟩
  | @perform history b action _ hallows ih =>
      cases action with
      | openAccount owner account =>
          refine ⟨Set.mem_insert_of_mem _ ih.1, fun owner' account' howned => ?_⟩
          change Function.update b.owned owner (some account) owner' = some account' at howned
          by_cases heq : owner' = owner
          · rw [heq, Function.update_self] at howned
            cases howned
            rintro rfl
            exact hallows.1 ih.1
          · rw [Function.update_of_ne heq] at howned
            exact ih.2 owner' account' howned
      | decline _ | issue _ _ _ | move _ _ _ _ | reserve _ _ _ _ | refund _ _ _ _ => exact ih

/-- What is held for a payout was reserved for its claim. -/
theorem Leads.reserved (h : Leads outside history b) {claim : Claim} {hold : Hold Account Amount}
    (hhold : b.held claim = some hold) :
    ∃ key, .reserve key claim hold.account hold.amount ∈ history := by
  induction h generalizing hold with
  | empty => cases hhold
  | @perform history b action _ hallows ih =>
      have hold_of {hold : Hold Account Amount} (hheld : b.held claim = some hold) :
          ∃ key, .reserve key claim hold.account hold.amount ∈ action :: history :=
        (ih hheld).imp fun _ hmem => List.mem_cons_of_mem _ hmem
      change b.heldAfter action claim = some hold at hhold
      cases action with
      | reserve key claim' source amount =>
          rw [heldAfter] at hhold
          by_cases hclaim : claim = claim'
          · subst hclaim
            rw [Function.update_self] at hhold
            cases hhold
            exact ⟨key, List.mem_cons_self⟩
          · rw [Function.update_of_ne hclaim] at hhold
            exact hold_of hhold
      | refund key claim' target amount =>
          rw [heldAfter] at hhold
          by_cases hclaim : claim = claim'
          · -- a refund gives back what was held for the same claim
            subst hclaim
            rw [Function.update_self] at hhold
            cases hhold
            have hreserved := hold_of hallows.2
            exact hreserved
          · rw [Function.update_of_ne hclaim] at hhold
            exact hold_of hhold
      | openAccount _ _ | decline _ | issue _ _ _ | move _ _ _ _ => exact hold_of hhold

/-- A refund gives back what was reserved for its claim, to the account that it was taken from. -/
theorem Leads.refunds (h : Leads outside history b) {key : Key} {claim : Claim} {target : Account}
    {amount : Amount} (hmem : .refund key claim target amount ∈ history) :
    ∃ key', .reserve key' claim target amount ∈ history := by
  induction h with
  | empty => cases hmem
  | perform hb hallows ih =>
      rcases List.mem_cons.mp hmem with rfl | hmem
      · exact (hb.reserved hallows.2).imp fun _ hreserve => List.mem_cons_of_mem _ hreserve
      · exact (ih hmem).imp fun _ hreserve => List.mem_cons_of_mem _ hreserve

/-- Where no money comes in from outside, there is none, and nothing is held for a payout. -/
theorem Leads.still (h : Leads outside history b)
    (hinside : ∀ action ∈ history, action.Inside outside) :
    (∀ a, b.balance a = 0) ∧ ∀ claim, b.held claim = none := by
  induction h with
  | empty => exact ⟨fun _ => rfl, fun _ => rfl⟩
  | @perform history b action _ hallows ih =>
      obtain ⟨hbalance, hheld⟩ := ih fun a ha => hinside a (List.mem_cons_of_mem _ ha)
      have hinside := hinside action List.mem_cons_self
      cases action with
      | openAccount _ _ | decline _ => exact ⟨fun a => (zero_add _).trans (hbalance a), hheld⟩
      | issue _ _ _ => exact hinside.elim
      | move key source target amount =>
          -- there is nothing that could be moved
          obtain ⟨-, -, -, -, hpositive, hsource | hcover⟩ := hallows
          · exact absurd hsource hinside
          · rw [hbalance] at hcover
            exact absurd hpositive (not_lt.mpr hcover)
      | reserve key claim source amount =>
          obtain ⟨-, -, -, -, hpositive, hcover⟩ := hallows
          rw [hbalance] at hcover
          exact absurd hpositive (not_lt.mpr hcover)
      | refund key claim target amount =>
          have hclaim := hallows.2
          rw [hheld] at hclaim
          cases hclaim

end Bank

end Bank

end Bookkeeping
