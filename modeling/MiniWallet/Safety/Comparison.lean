import MiniWallet.Safety.Fingerprint
import MiniWallet.Safety.Responses
import MiniWallet.Safety.TransferReplay
import MiniWallet.Safety.WithdrawalReplay

/-!
# Comparing requests by their hashes

Both services take a request whose key is taken for the same one as before if the hash is the same.
Where the hashed texts do not collide, this compares the parts from which the texts are made: the
amount of a transfer as it is printed with four places, and the amount of a withdrawal with all its
digits.

* `transferReplayable_iff`, `transferReplayable_entry_iff`: when a transfer is replayable, without
  and with its entry in Redis.
* `rendersAs_stored_iff`, `rendersAs_of_repeats`: the same request is recognised by the stored row
  exactly if its amount is rounded alike, and always by the entry of the original answer.
* `transferReplayable_of_exact`: amounts with at most four places are compared as they should be.
* `withdrawalReplayable_entry_iff`: when a withdrawal with an entry in Redis is replayable.
* `rendersAs_iff_of_matches`: the same request is recognised exactly if its amount is written alike.
-/

namespace MiniWallet

open Numeric Process System State

variable {sha256 : String → String} {c : Wallet}

/-! ## Transfers -/

/-- The parts of the request have the texts of the parts of the transfer. -/
structure TransferRequest.RendersAs (q : TransferRequest) (t : Transfer Decimal) : Prop where
  source : q.fromAccountId = t.fromAccountId
  target : q.toAccountId = t.toAccountId
  amount : money q.amount = money t.amount

section Transfer

variable {t : Transfer Decimal} {q : TransferRequest}

/-- The text of a transfer determines its parts. -/
theorem transferFingerprint_eq_iff {a a' b b' : UUID} {amount amount' : Decimal} :
    transferFingerprint a b amount = transferFingerprint a' b' amount' ↔
      a = a' ∧ b = b' ∧ money amount = money amount' := by
  constructor
  · intro h
    have hchars := congrArg String.toList h
    simp only [transferFingerprint, String.toList_append, List.append_assoc,
      show ":".toList = [':'] from rfl, List.cons_append, List.nil_append] at hchars
    have hlength (u v : UUID) : u.str.toList.length = v.str.toList.length := by
      rw [String.length_toList, String.length_toList, length_uuid, length_uuid]
    obtain ⟨hsource, hchars⟩ := List.append_inj hchars (hlength a a')
    obtain ⟨htarget, hchars⟩ := List.append_inj (List.cons.inj hchars).2 (hlength b b')
    exact ⟨UUID.str_injective (String.toList_injective hsource),
      UUID.str_injective (String.toList_injective htarget),
      String.toList_injective (List.cons.inj hchars).2⟩
  · rintro ⟨rfl, rfl, hamount⟩
    rw [transferFingerprint, transferFingerprint, hamount]

/-- The hashes agree exactly if the parts have the same texts. -/
theorem transferHash_eq_iff
    (hsha : sha256 (transferFingerprint t.fromAccountId t.toAccountId t.amount) =
        sha256 (transferFingerprint q.fromAccountId q.toAccountId q.amount) →
      transferFingerprint t.fromAccountId t.toAccountId t.amount =
        transferFingerprint q.fromAccountId q.toAccountId q.amount) :
    t.hash sha256 = q.hash sha256 ↔ q.RendersAs t := by
  constructor
  · intro h
    obtain ⟨hsource, htarget, hamount⟩ := transferFingerprint_eq_iff.mp (hsha h)
    exact ⟨hsource.symm, htarget.symm, hamount.symm⟩
  · rintro ⟨hsource, htarget, hamount⟩
    exact congrArg sha256
      (transferFingerprint_eq_iff.mpr ⟨hsource.symm, htarget.symm, hamount.symm⟩)

/-- Without an entry in Redis, the request is compared with the stored row, part by part. -/
theorem transferReplayable_iff (ht : .transfer t ∈ c.shared.history)
    (hsha : (Request.transfer q).Distinguished sha256 c.shared.history) :
    TransferReplayable sha256 t q none ↔
      q.Storable ∧ (q.RendersAs t.stored.loaded ↔ q.Repeats t) := by
  have hhash : t.stored.loaded.hash sha256 = q.hash sha256 ↔ q.RendersAs t.stored.loaded :=
    transferHash_eq_iff (hsha _ rfl _ ht _ (List.mem_cons_of_mem _ List.mem_cons_self))
  rw [TransferReplayable, hhash]

/-- An entry in Redis, of the original answer or of a later one, is compared with the request, part
by part. -/
theorem transferReplayable_entry_iff (ht : .transfer t ∈ c.shared.history)
    (hsha : (Request.transfer q).Distinguished sha256 c.shared.history) {t' : Transfer Decimal}
    (ht' : t' = t ∨ t' = t.stored.loaded) :
    TransferReplayable sha256 t q (some (t'.cacheEntry sha256)) ↔
      (q.RendersAs t' ↔ q.Repeats t) := by
  have hhash : t'.hash sha256 = q.hash sha256 ↔ q.RendersAs t' := by
    refine transferHash_eq_iff (hsha _ rfl _ ht _ ?_)
    rcases ht' with rfl | rfl
    · exact List.mem_cons_self
    · exact List.mem_cons_of_mem _ List.mem_cons_self
  rw [TransferReplayable, Transfer.cacheEntry, hhash]

/-- Amounts without a minus sign are printed alike exactly if they are rounded to the same one. -/
theorem money_eq_iff {d d' : Decimal} (hd : d.negative = false) (hd' : d'.negative = false) :
    money d = money d' ↔ d.roundHalfEven moneyPlaces = d'.roundHalfEven moneyPlaces := by
  rw [money, money, Python.formatFixed_eq_iff (by decide)]
  simp [hd, hd', Decimal.roundHalfEven, Decimal.sign]

/-- What is rounded to a positive amount has no minus sign. -/
theorem negative_of_ofDecimal_pos {d : Decimal} (h : 0 < Ticks.ofDecimal d) :
    d.negative = false := by
  cases hd : d.negative with
  | false => rfl
  | true =>
      rw [Ticks.ofDecimal, Decimal.roundHalfAway, Decimal.sign, hd, if_pos rfl] at h
      generalize (_ / _ : ℕ) = magnitude at h
      replace h : (0 : ℤ) < -1 * (magnitude : ℤ) := h
      omega

/-- A stored amount is printed as it is. -/
theorem roundHalfEven_toDecimal (n : Ticks) :
    (Ticks.toDecimal n).roundHalfEven moneyPlaces = n := by
  rw [Decimal.roundHalfEven_eq_roundHalfAway]
  · exact Ticks.ofDecimal_toDecimal n
  · simp [Decimal.RoundsAlike, Ticks.toDecimal, Decimal.ofScaled, Decimal.den, Nat.mod_one]

/-- The amount of a transfer on record is positive. -/
theorem transfer_positive (h : Reaches sha256 c) (ht : .transfer t ∈ c.shared.history) :
    0 < Ticks.ofDecimal t.amount := by
  obtain ⟨t₀, h₀⟩ := h
  have hchecks := ((recorded h₀).accepted _ ht).2
  simp only [Row.stored, Row.map, Row.failedCheck?, Transfer.map] at hchecks
  split at hchecks
  · cases hchecks
  · split at hchecks
    · next hpositive => exact hpositive
    · cases hchecks

/-- A request is printed like the stored row exactly if its amount is rounded to the stored one. -/
theorem rendersAs_stored_iff_rounded (hq : 0 < Ticks.ofDecimal q.amount)
    (ht : 0 < Ticks.ofDecimal t.amount) :
    q.RendersAs t.stored.loaded ↔ q.fromAccountId = t.fromAccountId ∧
      q.toAccountId = t.toAccountId ∧
        q.amount.roundHalfEven moneyPlaces = Ticks.ofDecimal t.amount := by
  have hamount : money q.amount = money t.stored.loaded.amount ↔
      q.amount.roundHalfEven moneyPlaces = Ticks.ofDecimal t.amount := by
    have hstored : t.stored.loaded.amount.negative = false := by
      refine negative_of_ofDecimal_pos ?_
      exact (Ticks.ofDecimal_toDecimal (Ticks.ofDecimal t.amount)).symm ▸ ht
    rw [money_eq_iff (negative_of_ofDecimal_pos hq) hstored]
    exact iff_of_eq (congrArg _ (roundHalfEven_toDecimal _))
  rw [← hamount]
  exact ⟨fun h => ⟨h.source, h.target, h.amount⟩, fun h => ⟨h.1, h.2.1, h.2.2⟩⟩

/-- The same request is for the amount that was stored. -/
theorem ticks_of_repeats (h : q.Repeats t) : Ticks.ofDecimal q.amount = Ticks.ofDecimal t.amount :=
  Decimal.roundHalfAway_congr h.amount

/-- The same request is recognised by the stored row exactly if the two roundings of its amount
agree. -/
theorem rendersAs_stored_iff (hq : 0 < Ticks.ofDecimal q.amount) (h : q.Repeats t) :
    q.RendersAs t.stored.loaded ↔ q.amount.RoundsAlike moneyPlaces := by
  have hsame := ticks_of_repeats h
  rw [rendersAs_stored_iff_rounded hq (hsame ▸ hq), ← hsame,
    ← Decimal.roundHalfEven_eq_roundHalfAway_iff]
  exact ⟨fun hparts => hparts.2.2, fun halike => ⟨h.source, h.target, halike⟩⟩

/-- The same request is always recognised by the entry of the original answer. -/
theorem rendersAs_of_repeats (hq : 0 < Ticks.ofDecimal q.amount) (h : q.Repeats t) :
    q.RendersAs t := by
  refine ⟨h.source, h.target, ?_⟩
  rw [money, money, Python.formatFixed_eq_iff (by decide), negative_of_ofDecimal_pos hq,
    negative_of_ofDecimal_pos (ticks_of_repeats h ▸ hq)]
  exact ⟨rfl, Decimal.roundHalfEvenAbs_congr h.amount⟩

/-- The column stores the amount as it is. -/
def Ticks.Exact (d : Decimal) : Prop := d.value = (Ticks.toDecimal (Ticks.ofDecimal d)).value

/-- Whether the column stores an amount as it is is decidable. -/
instance (d : Decimal) : Decidable (Ticks.Exact d) :=
  inferInstanceAs (Decidable (_ = _))

/-- Such an amount is rounded to itself in both ways. -/
theorem Ticks.Exact.roundsAlike {d : Decimal} (h : Ticks.Exact d) : d.RoundsAlike moneyPlaces :=
  Decimal.roundsAlike_of_value (h.trans (Decimal.value_ofScaled _ _))

/-- While Redis has no entry, a request with an amount of at most four places is answered as it
should be, if the original one was of that kind. -/
theorem transferReplayable_of_exact (h : Reaches sha256 c) (ht : .transfer t ∈ c.shared.history)
    (hsha : (Request.transfer q).Distinguished sha256 c.shared.history) (hq : q.Storable)
    (hqexact : Ticks.Exact q.amount) (htexact : Ticks.Exact t.amount) :
    TransferReplayable sha256 t q none := by
  refine (transferReplayable_iff ht hsha).mpr ⟨hq, ?_⟩
  rw [rendersAs_stored_iff_rounded hq.positive (transfer_positive h ht),
    Decimal.roundHalfEven_eq_roundHalfAway hqexact.roundsAlike]
  constructor
  · rintro ⟨hsource, htarget, hamount⟩
    refine ⟨hsource, htarget, ?_⟩
    rw [hqexact, htexact]
    exact congrArg (fun n => (Ticks.toDecimal n).value) hamount
  · rintro ⟨hsource, htarget, hamount⟩
    exact ⟨hsource, htarget, Decimal.roundHalfAway_congr hamount⟩

end Transfer

/-! ## Withdrawals -/

/-- The parts of the request have the texts of the parts of the withdrawal. -/
structure WithdrawalRequest.RendersAs (q : WithdrawalRequest) (w : Withdrawal Decimal) : Prop where
  account : q.accountId = w.accountId
  /-- With all its digits. -/
  amount : q.amount = w.amount
  currency : q.currency = w.currency
  destinationType : q.destinationType = w.destinationType
  destinationDetails : q.destinationDetails.dumps = w.destinationDetails.dumps

/-- The type is one that the service accepts, and the details are a JSON object. -/
structure Addressed (destinationType : String) (destinationDetails : Json) : Prop where
  allowed : destinationType ∈ allowedDestinationTypes
  object : ∃ items, destinationDetails = .obj items
  numerals : destinationDetails.numerals

section Withdrawal

variable {w : Withdrawal Decimal} {q : WithdrawalRequest}

/-- The text of a withdrawal determines its parts. -/
theorem withdrawalFingerprint_eq_iff (hq : Addressed q.destinationType q.destinationDetails)
    (hw : Addressed w.destinationType w.destinationDetails) :
    withdrawalFingerprint w.accountId w.amount w.currency w.destinationType w.destinationDetails =
        withdrawalFingerprint q.accountId q.amount q.currency q.destinationType
          q.destinationDetails ↔
      q.RendersAs w := by
  constructor
  · intro h
    -- both texts end in a JSON object, which is how they are taken apart
    obtain ⟨items, hitems⟩ := hq.object
    obtain ⟨items', hitems'⟩ := hw.object
    have hnumerals := hq.numerals
    have hnumerals' := hw.numerals
    rw [hitems] at h hnumerals
    rw [hitems'] at h hnumerals'
    rw [← hashInput_finite, ← hashInput_finite] at h
    obtain ⟨haccount, hamount, hcurrency, htype, hdetails⟩ :=
      eq_of_hashInput hw.allowed hq.allowed hnumerals' hnumerals h
    exact {
      account := (UUID.str_injective haccount).symm
      amount := (Python.str_injective hamount).symm
      currency := hcurrency.symm
      destinationType := htype.symm
      destinationDetails := by rw [hitems, hitems', hdetails] }
  · intro h
    rw [withdrawalFingerprint, withdrawalFingerprint, h.account, h.amount, h.currency,
      h.destinationType, h.destinationDetails]

/-- The entry of a withdrawal is compared with the request, part by part. -/
theorem withdrawalReplayable_entry_iff {row : Withdrawal Ticks} {balance : Option Ticks}
    (hw : .withdrawal w ∈ c.shared.history)
    (hsha : (Request.createWithdrawal q).Distinguished sha256 c.shared.history)
    (hqaddressed : Addressed q.destinationType q.destinationDetails)
    (hwaddressed : Addressed w.destinationType w.destinationDetails) :
    WithdrawalReplayable sha256 row q (some (w.cacheEntry sha256)) balance ↔
      (q.RendersAs w ↔ q.Matches row) := by
  have hhash : (w.cacheEntry sha256).requestHash = q.hash sha256 ↔ q.RendersAs w := by
    rw [← withdrawalFingerprint_eq_iff hqaddressed hwaddressed]
    exact ⟨hsha _ rfl _ hw _ List.mem_cons_self, congrArg sha256⟩
  rw [WithdrawalReplayable, hhash]
  rfl

/-- The same request is recognised exactly if its amount is written with the same digits. -/
theorem rendersAs_iff_of_matches {row : Withdrawal Ticks}
    (hrow : w.stored.asCreated = row.asCreated) (h : q.Matches row) :
    q.RendersAs w ↔ q.amount = w.amount := by
  obtain ⟨haccount, -, hcurrency, htype, hdetails, -⟩ := Withdrawal.columns_of_asCreated hrow
  refine ⟨fun hrenders => hrenders.amount, fun hamount => ?_⟩
  exact {
    account := h.account.trans haccount.symm
    amount := hamount
    currency := h.currency.trans hcurrency.symm
    destinationType := h.destinationType.trans htype.symm
    destinationDetails := congrArg Json.dumps (h.destinationDetails.trans hdetails.symm) }

end Withdrawal

end MiniWallet
