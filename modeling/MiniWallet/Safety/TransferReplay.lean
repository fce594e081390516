import MiniWallet.Safety.Registry
import MiniWallet.Safety.Replay

/-!
# Replaying a transfer

A request for a transfer whose idempotency key is taken. `TransferReplayed` is what it should do:
the same request gets the transfer, or is told that its key was consumed if the transfer has failed,
and a different request is refused. `TransferReplayable` is when it does so. Requests are compared
by the hash of their text, in which the amount is rounded half to even, with the hash of the stored
row, in which it was rounded half away from zero; and the entry of a withdrawal in Redis can be
taken for that of a transfer.

* `transfer_replay`: the request changes nothing, and it is answered as it should be exactly if it
  is replayable.
-/

namespace MiniWallet

open Numeric Process System State Program

variable {sha256 : String → String}

/-! ## What a replay should do, and when it does -/

/-- The request repeats the one that the transfer was made for, the amounts compared as numbers. -/
structure TransferRequest.Repeats (q : TransferRequest) (t : Transfer Decimal) : Prop where
  source : q.fromAccountId = t.fromAccountId
  target : q.toAccountId = t.toAccountId
  amount : q.amount.value = t.amount.value

/-- The outcome of a request whose key belongs to `t` is as it should be. -/
structure TransferReplayed (t : Transfer Decimal) (q : TransferRequest)
    (out : Except Exc Response) : Prop where
  /-- The same request gets the transfer. -/
  completed : q.Repeats t → t.status = .completed →
    ∃ r, out = .ok (.transfer r) ∧ r.transferId = t.id.str
  /-- If the transfer has failed, its key cannot be used again. -/
  failed : q.Repeats t → t.status = .failed → out = .error .idempotencyKeyConsumed
  /-- A different request is refused. -/
  different : ¬ q.Repeats t → out = .error .idempotencyConflict

/-- The table of transfers takes the request: the accounts differ, and the amount is positive and
fits its column once it is rounded. -/
structure TransferRequest.Storable (q : TransferRequest) : Prop where
  accounts : q.fromAccountId ≠ q.toAccountId
  positive : 0 < Ticks.ofDecimal q.amount
  fits : amountFits q.amount = true

/-- When a request whose key belongs to `t` is answered as it should be, given what Redis holds
under its key when it is looked up. -/
def TransferReplayable (sha256 : String → String) (t : Transfer Decimal) (q : TransferRequest)
    (cached : Option CacheEntry) : Prop :=
  match cached with
  | none => q.Storable ∧ (t.stored.loaded.hash sha256 = q.hash sha256 ↔ q.Repeats t)
  | some entry =>
      match entry.response with
      | .transfer _ => entry.requestHash = q.hash sha256 ↔ q.Repeats t
      -- the entry of a withdrawal, if the key begins with `withdrawal:`
      | .withdrawal _ => entry.requestHash ≠ q.hash sha256 ∧ ¬ q.Repeats t

section Outcomes

variable {t : Transfer Decimal} {q : TransferRequest}

/-- Refusing a request is right exactly if it is a different one. -/
theorem transferReplayed_conflict :
    TransferReplayed t q (.error .idempotencyConflict) ↔ ¬ q.Repeats t := by
  refine ⟨fun h hrepeats => ?_, fun hne => ⟨fun hrepeats => absurd hrepeats hne,
    fun hrepeats => absurd hrepeats hne, fun _ => rfl⟩⟩
  cases hstatus : t.status with
  | completed =>
      obtain ⟨r, hr, -⟩ := h.completed hrepeats hstatus
      cases hr
  | failed => cases h.failed hrepeats hstatus

/-- Answering with the transfer is right exactly if the request is the same. -/
theorem transferReplayed_response {r : TransferResponse} (hstatus : t.status = .completed)
    (hr : r.transferId = t.id.str) :
    TransferReplayed t q (.ok (.transfer r)) ↔ q.Repeats t := by
  refine ⟨fun h => ?_, fun hrepeats => ⟨fun _ _ => ⟨r, rfl, hr⟩, fun _ hfailed => ?_,
    fun hne => absurd hrepeats hne⟩⟩
  · by_contra hne
    cases h.different hne
  · rw [hstatus] at hfailed
    cases hfailed

/-- Saying that the key was consumed is right exactly if the request is the same. -/
theorem transferReplayed_consumed (hstatus : t.status = .failed) :
    TransferReplayed t q (.error .idempotencyKeyConsumed) ↔ q.Repeats t := by
  refine ⟨fun h => ?_, fun hrepeats => ⟨fun _ hcompleted => ?_, fun _ _ => rfl,
    fun hne => absurd hrepeats hne⟩⟩
  · by_contra hne
    cases h.different hne
  · rw [hstatus] at hcompleted
    cases hcompleted

/-- Any other exception is wrong. -/
theorem not_transferReplayed_error {e : Exc} (hconflict : e ≠ .idempotencyConflict)
    (hconsumed : e ≠ .idempotencyKeyConsumed) : ¬ TransferReplayed t q (.error e) := by
  intro h
  by_cases hrepeats : q.Repeats t
  · cases hstatus : t.status with
    | completed =>
        obtain ⟨r, hr, -⟩ := h.completed hrepeats hstatus
        cases hr
    | failed =>
        cases h.failed hrepeats hstatus
        exact hconsumed rfl
  · cases h.different hrepeats
    exact hconflict rfl

end Outcomes

/-! ## The state around the request -/

/-- What a request of process `i` relies on while the key of `t` is taken. -/
structure TransferTaken (t : Transfer Decimal) (q : TransferRequest) (i : ℕ) (w : State) :
    Prop where
  /-- The transfer is there. -/
  stands : t.stored ∈ w.shared.db.transfers
  /-- No other transfer has its key. -/
  unique : ∀ row ∈ w.shared.db.transfers, row.idempotencyKey = t.idempotencyKey → row = t.stored
  /-- An answer in Redis to a transfer is that of this one, which has completed. -/
  cached : ∀ entry r, w.shared.redis (transferCacheKey t.idempotencyKey) = some entry →
    entry.response = .transfer r → t.status = .completed ∧ r.transferId = t.id.str
  /-- The accounts of the request exist. -/
  accounts : ∀ id ∈ lockOrder q.fromAccountId q.toAccountId, (w.shared.db.accountById id).isSome
  /-- The identifiers that the process has drawn have been handed out. -/
  issued : ∀ id ∈ (w.sess i).drawn, id ∈ w.shared.issued
  /-- The identifiers that the process has drawn are new. -/
  fresh : ∀ id ∈ (w.sess i).drawn, ∀ table, table ≠ .accounts → .pkey table id ∉ w.shared.db.keys

/-- The table of transfers among the rows of the database. -/
theorem Database.mem_transfers {db : Database} {t : Transfer Ticks} :
    t ∈ db.transfers ↔ .transfer t ∈ db.rows := by
  simp only [Database.transfers, List.mem_filterMap]
  refine ⟨fun ⟨r, hr, heq⟩ => ?_, fun hr => ⟨_, hr, rfl⟩⟩
  cases r <;> cases heq
  exact hr

/-- Both accounts of a transfer are locked, and no others. -/
theorem mem_lockOrder_iff {a b id : UUID} : id ∈ lockOrder a b ↔ id = a ∨ id = b := by
  unfold lockOrder
  split <;> simp [or_comm]

/-- Once a transfer is committed and the accounts exist, this holds in the rest of the run. -/
theorem transferTaken {t₀ : Time} {c₀ c : Wallet} (h₀ : WalletRun sha256 t₀ anyStep c₀)
    {t : Transfer Decimal} (ht : t.stored ∈ c₀.shared.db.transfers) {q : TransferRequest} (i : ℕ)
    (hsource : (c₀.shared.db.accountById q.fromAccountId).isSome)
    (htarget : (c₀.shared.db.accountById q.toAccountId).isSome)
    (hrun : (wallet sha256).Run anyStep c₀ c) : TransferTaken t q i c.toWorld := by
  have h : WalletRun sha256 t₀ anyStep c := h₀.trans hrun
  have hpersists := persists h₀ hrun
  have hstands := hpersists.transfers _ ht
  -- keys are unique, so no other row has this one
  have hunique : ∀ row ∈ c.shared.db.transfers, row.idempotencyKey = t.idempotencyKey →
      row = t.stored := fun row hrow hkey =>
    List.inj_on_of_nodup_map (unique_columns h).transfer_key hrow hstands hkey
  refine
    { stands := hstands
      unique := hunique
      cached := ?_
      accounts := ?_
      issued := issued_of_drawn h i
      fresh := fun id hid _ => fresh_key_of_drawn h hid }
  · -- an entry under the key of a transfer comes from a transfer with this key
    intro entry r hentry hresponse
    have hfrom := cachedFrom h hentry
    generalize hk : transferCacheKey t.idempotencyKey = key at hfrom
    cases hfrom with
    | @transfer t' ht' hstatus =>
        have hkey : t.idempotencyKey = t'.idempotencyKey := (String.append_right_inj _).mp hk
        have hsame := hunique t'.stored ht' hkey.symm
        have hid : t'.id = t.id := congrArg (fun row : Transfer Ticks => row.id) hsame
        have hstatus' : t'.status = t.status :=
          congrArg (fun row : Transfer Ticks => row.status) hsame
        injection hresponse with hr
        rw [← hr, ← hstatus', ← hid]
        exact ⟨hstatus, rfl⟩
    | withdrawal _ => cases hresponse
  · -- accounts are never deleted
    intro id hid
    have hexists : (c₀.shared.db.accountById id).isSome := by
      rcases mem_lockOrder_iff.mp hid with rfl | rfl
      · exact hsource
      · exact htarget
    obtain ⟨a, ha, haid⟩ := c₀.shared.db.accountById_isSome.mp hexists
    exact c.shared.db.accountById_isSome.mpr ⟨a, hpersists.accounts a ha, haid⟩

/-! ## The request -/

section Request

variable {t : Transfer Decimal} {q : TransferRequest} {i : ℕ} {σ : Session}

/-- Locking accounts that exist. -/
theorem replays_lockAccounts {P : State → Prop} {ids : List UUID} {Q : Unit → Session → Prop}
    {R : Exc → Session → Prop}
    (hexist : ∀ w, P w → ∀ id ∈ ids, (w.shared.db.accountById id).isSome) (hwrites : σ.writes = [])
    (h : ∀ σ', σ'.cacheRead = σ.cacheRead → σ'.writes = [] → Q () σ') :
    Replays sha256 P i (lockAccounts ids) Q R σ := by
  induction ids generalizing σ with
  | nil => exact replays_pure (h σ rfl hwrites)
  | cons id ids ih =>
      unfold lockAccounts
      refine replays_bind (replays_lockAccount hwrites (fun w hw _ hnone => ?_) fun a => ?_)
      · have hsome := hexist w hw id (List.mem_cons_self ..)
        rw [hnone] at hsome
        cases hsome
      · exact ih (fun w hw id' hid' => hexist w hw id' (List.mem_cons_of_mem _ hid')) hwrites h

/-- The object that a request inserts into the table of transfers. -/
structure TransferRequest.Makes (q : TransferRequest) (record : Transfer Decimal) : Prop where
  source : record.fromAccountId = q.fromAccountId
  target : record.toAccountId = q.toAccountId
  amount : record.amount = q.amount
  key : record.idempotencyKey = q.idempotencyKey

/-- The table takes a request exactly if its object passes the checks, given that its key fits. -/
theorem storable_iff {record : Transfer Decimal} (hrecord : q.Makes record)
    (hkey : varchar 255 q.idempotencyKey = true) :
    q.Storable ↔ (Row.transfer record).fits = true ∧
      (Row.transfer record).stored.failedCheck? = none := by
  have hfits : (Row.transfer record).fits = amountFits q.amount := by
    simp only [Row.fits, hrecord.key, hkey, hrecord.amount, Bool.and_true]
  simp only [hfits, Row.stored, Row.map, Transfer.map, Row.failedCheck?, hrecord.source,
    hrecord.target, hrecord.amount]
  constructor
  · rintro ⟨haccounts, hpositive, hamount⟩
    exact ⟨hamount, by rw [if_neg haccounts, if_pos hpositive]⟩
  · rintro ⟨hamount, hcheck⟩
    split at hcheck
    · cases hcheck
    · next haccounts =>
      split at hcheck
      · next hpositive => exact ⟨haccounts, hpositive, hamount⟩
      · cases hcheck

/-- The checks of a transfer are not about its key. -/
theorem failedCheck_mentions {row : Transfer Ticks} {c : Constraint}
    (h : (Row.transfer row).failedCheck? = some c) : c.mentions "idempotency_key" = false := by
  simp only [Row.failedCheck?] at h
  split at h
  · cases h
    decide
  · split at h
    · cases h
    · cases h
      decide

/-- How the attempt to insert a second transfer with the same key fails. -/
inductive TransferRefused (q : TransferRequest) : Exc → Prop
  /-- A value does not fit its column. -/
  | misfit : ¬ q.Storable → TransferRefused q .dataError
  /-- A check fails that is not about the key. -/
  | check {c : Constraint} : ¬ q.Storable → c.mentions "idempotency_key" = false →
      TransferRefused q (.integrityError c)
  /-- The key is taken. -/
  | taken : q.Storable → TransferRefused q (.integrityError .transferIdempotencyKey)

/-- The statements of the open transaction add their keys to those of the tables. -/
theorem mem_keys_view {w : State} {k : UniqueKey} :
    k ∈ (view w i).keys ↔ k ∈ (w.sess i).keys ∨ k ∈ w.shared.db.keys := by
  rw [view, (w.shared.db.keys_applyAll _).mem_iff, List.mem_append]
  rfl

/-- Inserting a row under a primary key that was drawn for it, between accounts of the request. -/
theorem replays_insertDrawn {row : Row Decimal} (table : Table) (id : UUID)
    {Q : Unit → Session → Prop} {R : Exc → Session → Prop} (hrow : row.keys = [.pkey table id])
    (htable : table ≠ .accounts) (hid : id ∈ σ.drawn) (hown : .pkey table id ∉ σ.keys)
    (haccounts : ∀ fk ∈ row.foreignKeys, fk.1 ∈ lockOrder q.fromAccountId q.toAccountId)
    (hok : Q () (σ.wrote (.insert row))) (herror : ∀ e, row.Refuses e → R e σ.aborted) :
    Replays sha256 (TransferTaken t q i) i (write (.insert row)) Q R σ := by
  refine replays_insertNew (fun w hw hσ => ?_) (fun w hw _ fk hfk => ?_) hok herror
  · rw [hrow, List.forall_mem_singleton, mem_keys_view, not_or, hσ]
    exact ⟨hown, hw.fresh id (hσ ▸ hid) table htable⟩
  · exact Database.accountById_applyAll _ (hw.accounts _ (haccounts fk hfk))

/-- Inserting a transfer under a key that is taken fails. -/
theorem replays_insertTransfer {record : Transfer Decimal} (ht : (Row.transfer t).fits = true)
    (hkey : q.idempotencyKey = t.idempotencyKey) (hrecord : q.Makes record)
    (hid : record.id ∈ σ.drawn) (hown : .pkey .transfers record.id ∉ σ.keys)
    {Q : Unit → Session → Prop} {R : Exc → Session → Prop}
    (h : ∀ e, TransferRefused q e → R e σ.aborted) :
    Replays sha256 (TransferTaken t q i) i (write (.insert (.transfer record))) Q R σ := by
  have hkeyfits : varchar 255 q.idempotencyKey = true := by
    rw [hkey]
    exact (Bool.and_eq_true_iff.mp ht).2
  have hstorable := storable_iff hrecord hkeyfits
  refine replays_insert fun w r hw hσ hverdict => ?_
  have htaken : .transferIdempotencyKey record.idempotencyKey ∈ (view w i).keys := by
    rw [mem_keys_view, hrecord.key, hkey]
    exact .inr (List.mem_flatMap.mpr
      ⟨_, Database.mem_transfers.mp hw.stands, by simp [Row.keys, Transfer.map]⟩)
  rcases verdict_of_taken (by simp [Row.keys]) htaken hverdict with
    ⟨hmisfit, rfl⟩ | ⟨-, c, hc, rfl⟩ | ⟨hfit, hnone, k, hk, hktaken, rfl⟩
  · refine ⟨_, rfl, h _ (.misfit fun hstored => ?_)⟩
    rw [(hstorable.mp hstored).1] at hmisfit
    cases hmisfit
  · refine ⟨_, rfl, h _ (.check (fun hstored => ?_) (failedCheck_mentions hc))⟩
    rw [(hstorable.mp hstored).2] at hc
    cases hc
  · -- the identifier is new, so it is the key that is taken
    simp only [Row.keys, List.mem_cons, List.not_mem_nil, or_false] at hk
    rcases hk with rfl | rfl
    · rw [mem_keys_view, hσ] at hktaken
      refine absurd hktaken (not_or.mpr ⟨hown, ?_⟩)
      exact hw.fresh record.id (hσ ▸ hid) .transfers (by decide)
    · exact ⟨_, rfl, h _ (.taken (hstorable.mpr ⟨hfit, hnone⟩))⟩

/-- A leg of the transfer is refused only if the table of transfers does not take the request. -/
theorem transferRefused_leg {leg : LedgerEntry Decimal} (hamount : leg.amount = q.amount)
    (hcurrency : leg.currency = "USD") (hkey : leg.idempotencyKey = none) {e : Exc}
    (he : (Row.ledger leg).Refuses e) : TransferRefused q e := by
  cases he with
  | misfit hfits =>
      refine .misfit fun hstored => ?_
      have hvarchar : varchar 3 "USD" = true := by decide +kernel
      simp [Row.fits, hamount, hcurrency, hkey, hstored.fits, hvarchar] at hfits
  | @check c hc =>
      simp only [Row.stored, Row.map, LedgerEntry.map, Row.failedCheck?, hamount] at hc
      split at hc
      · cases hc
      · next hpositive =>
        cases hc
        exact .check (fun hstored => hpositive hstored.positive) (by decide)

/-- The outbox refuses nothing. -/
theorem not_refuses_outbox {event : OutboxRow} {e : Exc} : ¬ (Row.outbox event).Refuses e := by
  rintro (hfits | hcheck)
  · cases hfits
  · cases hcheck

/-- An event is made without a statement to Postgres. -/
theorem replays_publishEvent {P : State → Prop} {topic eventType : String} {payload : EventPayload}
    {actorId : Option UUID} {Q : OutboxRow → Session → Prop} {R : Exc → Session → Prop}
    (h : ∀ event eventId time,
      Q event { σ with drawn := event.id :: eventId :: σ.drawn, clockRead := some time }) :
    Replays sha256 P i (publishEvent topic eventType payload actorId) Q R σ :=
  replays_bind (replays_uuid4 fun eventId => replays_bind (replays_now fun time =>
    replays_bind (replays_uuid4 fun id => replays_pure (h { id := id, .. } eventId time))))

/-- Recording a second transfer with the same key as failed is refused. -/
theorem replays_recordInsufficientBalance (ht : (Row.transfer t).fits = true)
    (hkey : q.idempotencyKey = t.idempotencyKey) (hwrites : σ.writes = [])
    {Q : Transfer Decimal → Session → Prop} {R : Exc → Session → Prop}
    (h : ∀ e σ', TransferRefused q e → σ'.cacheRead = σ.cacheRead → σ'.writes = [] → R e σ') :
    Replays sha256 (TransferTaken t q i) i (recordInsufficientBalance q) Q R σ := by
  unfold recordInsufficientBalance
  refine replays_bind (replays_now fun time => replays_bind (replays_uuid4 fun id => ?_))
  refine replays_bind (replays_publishEvent fun event eventId time' => ?_)
  refine replays_bind (replays_bind (replays_insertDrawn .outbox event.id rfl
    (by decide) List.mem_cons_self ?_ (fun _ hfk => absurd hfk List.not_mem_nil) ?_ fun e he =>
      absurd he not_refuses_outbox))
  · simp [Session.keys, hwrites]
  · refine replays_bind (replays_insertTransfer ht hkey ⟨rfl, rfl, rfl, rfl⟩ ?_ ?_ fun e he =>
      h e _ he rfl rfl)
    · simp [Session.wrote]
    · simp [Session.keys, Session.wrote, hwrites, Write.keys, Row.keys]

/-- Making a second transfer with the same key is refused. -/
theorem replays_recordTransfer (ht : (Row.transfer t).fits = true)
    (hkey : q.idempotencyKey = t.idempotencyKey) (hwrites : σ.writes = [])
    {Q : Transfer Decimal → Session → Prop} {R : Exc → Session → Prop}
    (h : ∀ e σ', TransferRefused q e → σ'.cacheRead = σ.cacheRead → σ'.writes = [] → R e σ') :
    Replays sha256 (TransferTaken t q i) i (recordTransfer q) Q R σ := by
  unfold recordTransfer
  refine replays_bind (replays_now fun time => replays_bind (replays_uuid4 fun txnId => ?_))
  refine replays_bind (replays_uuid4 fun id => replays_bind (replays_uuid4 fun debitId => ?_))
  refine replays_bind (replays_draw (fun w hw => hw.issued) fun creditId hcredit => ?_)
  simp only [List.mem_cons, not_or] at hcredit
  refine replays_bind (replays_publishEvent fun event eventId time' => ?_)
  -- the legs and the event come first; each is taken, or refused as the transfer would be
  refine replays_bind (replays_bind (replays_insertDrawn .ledgerEntries debitId
    rfl (by decide) ?_ ?_ ?_ ?_ fun e he => h e _ (transferRefused_leg rfl rfl rfl he) rfl rfl))
  · simp
  · simp [Session.keys, hwrites]
  · simp [Row.foreignKeys, mem_lockOrder_iff]
  refine replays_bind (replays_insertDrawn .ledgerEntries creditId
    rfl (by decide) ?_ ?_ ?_ ?_ fun e he => h e _ (transferRefused_leg rfl rfl rfl he) rfl rfl)
  · simp [Session.wrote]
  · simp [Session.keys, Session.wrote, hwrites, Write.keys, Row.keys, hcredit.1]
  · simp [Row.foreignKeys, mem_lockOrder_iff]
  refine replays_bind (replays_insertDrawn .outbox event.id rfl (by decide)
    ?_ ?_ (fun _ hfk => absurd hfk List.not_mem_nil) ?_ fun e he => absurd he not_refuses_outbox)
  · simp [Session.wrote]
  · simp [Session.keys, Session.wrote, hwrites, Write.keys, Row.keys]
  refine replays_bind (replays_insertTransfer ht hkey ⟨rfl, rfl, rfl, rfl⟩ ?_ ?_ fun e he =>
    h e _ he rfl rfl)
  · simp [Session.wrote]
  · simp [Session.keys, Session.wrote, hwrites, Write.keys, Row.keys]

/-- The attempt to make the transfer a second time fails and leaves the look-up in Redis on
record. -/
theorem replays_attemptTransfer (ht : (Row.transfer t).fits = true)
    (hkey : q.idempotencyKey = t.idempotencyKey) (hwrites : σ.writes = [])
    {Q : Transfer Decimal → Session → Prop} {R : Exc → Session → Prop}
    (h : ∀ e σ', TransferRefused q e → σ'.cacheRead = σ.cacheRead → σ'.writes = [] → R e σ') :
    Replays sha256 (TransferTaken t q i) i (attemptTransfer q) Q R σ := by
  unfold attemptTransfer
  refine replays_bind (replays_lockAccounts (fun w hw => hw.accounts) hwrites
    fun σ₁ hcache₁ hwrites₁ => ?_)
  refine replays_bind (replays_getBalance hwrites₁ fun b σ₂ _ hcache₂ hwrites₂ => ?_)
  have hrefused : ∀ e σ', TransferRefused q e → σ'.cacheRead = σ₂.cacheRead → σ'.writes = [] →
      R e σ' := fun e σ' he hcache' => h e σ' he (hcache'.trans (hcache₂.trans hcache₁))
  split
  · exact replays_recordInsufficientBalance ht hkey hwrites₂ hrefused
  · exact replays_recordTransfer ht hkey hwrites₂ hrefused

/-- The outcome is as it should be exactly if the request is replayable. -/
def TransferOutcome (sha256 : String → String) (t : Transfer Decimal) (q : TransferRequest)
    (out : Except Exc Response) (σ : Session) : Prop :=
  TransferReplayed t q out ↔ TransferReplayable sha256 t q σ.cacheRead.join

/-- Without an entry in Redis, an exception that is not about the key is wrong. -/
theorem transferOutcome_unstorable {e : Exc} (hq : ¬ q.Storable) (hcache : σ.cacheRead = some none)
    (hconflict : e ≠ .idempotencyConflict) (hconsumed : e ≠ .idempotencyKeyConsumed) :
    TransferOutcome sha256 t q (.error e) σ := by
  refine iff_of_false (not_transferReplayed_error hconflict hconsumed) ?_
  rw [hcache]
  exact fun h => hq h.1

/-- Without an entry in Redis, the hash of the stored transfer decides. -/
theorem transferReplayable_of_storable (hq : q.Storable) :
    TransferReplayable sha256 t q none ↔
      (t.stored.loaded.hash sha256 = q.hash sha256 ↔ q.Repeats t) :=
  ⟨fun h => h.2, fun h => ⟨hq, h⟩⟩

/-- Looking the key up gives the transfer that has it. -/
theorem transferByKey_of_taken {w : State} (h : TransferTaken t q i w) :
    w.shared.db.transferByKey t.idempotencyKey = some t.stored := by
  have hsome : (w.shared.db.transferByKey t.idempotencyKey).isSome := by
    rw [Database.transferByKey, List.find?_isSome]
    exact ⟨t.stored, h.stands, by simp [Transfer.map]⟩
  obtain ⟨existing, hexisting⟩ := Option.isSome_iff_exists.mp hsome
  rw [hexisting, h.unique existing (List.mem_of_find?_eq_some hexisting)
    (by simpa using List.find?_some hexisting)]

/-- The handler of the refused attempt. -/
theorem replays_resolveTransfer (hkey : q.idempotencyKey = t.idempotencyKey) {e : Exc}
    (he : TransferRefused q e) (hcache : σ.cacheRead = some none) :
    Replays sha256 (TransferTaken t q i) i (resolveTransfer sha256 q e)
      (fun record => TransferOutcome sha256 t q (.ok (.transfer (transferToResponse record))))
      (fun e => TransferOutcome sha256 t q (.error e)) σ := by
  cases he with
  -- the values do not fit, or a check refuses them, whatever was stored before
  | misfit hq =>
      exact replays_throw (transferOutcome_unstorable hq hcache (by simp) (by simp))
  | check hq hmentions =>
      unfold resolveTransfer
      refine replays_bind (replays_rollback ?_)
      rw [hmentions]
      exact replays_throw (transferOutcome_unstorable hq hcache (by simp) (by simp))
  -- the key is taken: the row is read in a new transaction
  | taken hq =>
      unfold resolveTransfer
      refine replays_bind (replays_rollback ?_)
      rw [show Constraint.transferIdempotencyKey.mentions "idempotency_key" = true by decide]
      refine replays_bind (replays_select rfl fun w hw _ => ?_)
      have hanswer : (Query.transferByKey q.idempotencyKey).eval w.shared.db = some t.stored := by
        rw [hkey]
        exact transferByKey_of_taken hw
      rw [hanswer]
      have hreplayable : TransferReplayable sha256 t q none ↔ _ := transferReplayable_of_storable hq
      rw [← show σ.cacheRead.join = none by rw [hcache]; rfl] at hreplayable
      dsimp only
      split
      · -- the hashes differ
        next hhash =>
        exact replays_throw (transferReplayed_conflict.trans (Iff.trans (by simp [hhash])
          hreplayable.symm))
      · next hhash =>
        replace hhash : t.stored.loaded.hash sha256 = q.hash sha256 := not_not.mp hhash
        have hrepeats : q.Repeats t ↔ TransferReplayable sha256 t q σ.cacheRead.join := by
          rw [hreplayable]
          simp [hhash]
        -- they agree, and the stored transfer has failed or is completed
        split
        · next hfailed => exact replays_throw ((transferReplayed_consumed hfailed).trans hrepeats)
        · next hfailed =>
          have hcompleted : t.status = .completed := by
            cases hstatus : t.status with
            | completed => rfl
            | failed => exact absurd hstatus hfailed
          have hid : (transferToResponse t.stored.loaded).transferId = t.id.str := by
            simp only [transferToResponse, Transfer.map]
          exact replays_pure ((transferReplayed_response hcompleted hid).trans hrepeats)

/-- The request, from its start. -/
theorem replays_transfer (ht : (Row.transfer t).fits = true)
    (hkey : q.idempotencyKey = t.idempotencyKey) :
    Replays sha256 (TransferTaken t q i) i (transfer sha256 q)
      (fun r => TransferOutcome sha256 t q (.ok (.transfer r)))
      (fun e => TransferOutcome sha256 t q (.error e)) {} := by
  unfold transfer
  refine replays_bind (replays_cacheGet fun w hw _ => ?_)
  cases hentry : w.shared.redis (transferCacheKey q.idempotencyKey) with
  | none =>
      refine replays_bind (replays_tryCatch (replays_attemptTransfer ht hkey rfl
        fun e σ' he hcache hwrites => ?_))
      refine Contract.wp_mono _ _ (fun record σ'' hrecord => ?_) (fun _ _ he => he)
        (replays_resolveTransfer hkey he hcache)
      exact replays_bind (replays_cacheSet (replays_pure hrecord))
  | some entry =>
      dsimp only
      split
      · next hhash =>
        -- the hashes differ
        refine replays_throw (transferReplayed_conflict.trans ?_)
        change _ ↔ TransferReplayable sha256 t q (some entry)
        cases hresponse : entry.response with
        | withdrawal r => simp [TransferReplayable, hresponse, hhash]
        | transfer r => simp [TransferReplayable, hresponse, hhash]
      · next hhash =>
        -- the hashes agree, and the entry is read as a transfer
        unfold CacheEntry.transferResponse
        cases hresponse : entry.response with
        | transfer r =>
            rw [hkey] at hentry
            obtain ⟨hcompleted, hid⟩ := hw.cached entry r hentry hresponse
            refine replays_pure ((transferReplayed_response hcompleted hid).trans ?_)
            change _ ↔ TransferReplayable sha256 t q (some entry)
            simp only [TransferReplayable, hresponse]
            exact ⟨fun hrepeats => iff_of_true (not_not.mp hhash) hrepeats,
              fun h => h.mp (not_not.mp hhash)⟩
        | withdrawal r =>
            refine replays_throw (iff_of_false (not_transferReplayed_error (by simp) (by simp)) ?_)
            change ¬ TransferReplayable sha256 t q (some entry)
            simp only [TransferReplayable, hresponse]
            exact fun h => hhash h.1

end Request

/-! ## The result -/

/-- Replay of a transfer: a request whose key belongs to a transfer in the tables moves no money and
adds no row, whatever the other processes do and whatever is left in Redis. Every such transfer was
made for one request, and the new one is answered as it should be exactly if it is replayable. -/
theorem transfer_replay {c₀ c : Wallet} {row : Transfer Ticks} {q : TransferRequest}
    (h : Reaches sha256 c₀) (hrow : row ∈ c₀.shared.db.transfers)
    (hkey : q.idempotencyKey = row.idempotencyKey)
    (hsource : (c₀.shared.db.accountById q.fromAccountId).isSome)
    (htarget : (c₀.shared.db.accountById q.toAccountId).isSome)
    (hrun : (wallet sha256).Run (Answered c₀.size)
      (spawned c₀ ((Request.transfer q).program sha256)) c) :
    (wallet sha256).Run (Harmless c₀.size) (spawned c₀ ((Request.transfer q).program sha256)) c ∧
      Proceeds c c₀.size ∧
      ∃ t, .transfer t ∈ c₀.shared.history ∧ t.stored = row ∧
        ∀ out, Wallet.outcome? c c₀.size = some out →
          (TransferReplayed t q out ↔
            TransferReplayable sha256 t q (c.sess c₀.size).cacheRead.join) := by
  obtain ⟨t₀, h₀⟩ := id h
  obtain ⟨t, ht, rfl⟩ := (recorded h₀).transfer_origin row hrow
  -- the request is started in a state that the wallet reaches
  have hspawn : (wallet sha256).Step c₀ .spawn
      (spawned c₀ ((Request.transfer q).program sha256)) := .spawn ⟨_, rfl⟩
  obtain ⟨hharmless, hproceeds, hout⟩ := follow_request (TransferOutcome sha256 t q)
    (P := TransferTaken t q c₀.size) h
    (fun hrun => transferTaken h₀ hrow _ hsource htarget
      ((Run.step .refl trivial hspawn).trans hrun.any))
    -- the service replays, and the route passes its outcome on
    (replays_bind (Contract.wp_mono _ _ (fun r σ' hr => replays_pure hr) (fun _ _ he => he)
      (replays_transfer ((recorded h₀).accepted _ ht).1 hkey))) hrun
  exact ⟨hharmless, hproceeds, t, ht, rfl, hout⟩

/-- The same request again, for 10 dollars. -/
theorem transfer_replay_same :
    ∃ c₀ c, Reaches Sha256.hexdigest c₀ ∧ (Wallet.outcome? c c₀.size).isSome ∧
      (wallet Sha256.hexdigest).Run (Harmless c₀.size)
        (spawned c₀ ((Request.transfer (transferOf ⟨false, 10, 0⟩)).program Sha256.hexdigest)) c ∧
      ∃ t, .transfer t ∈ c₀.shared.history ∧
        ∀ out, Wallet.outcome? c c₀.size = some out →
          (TransferReplayed t (transferOf ⟨false, 10, 0⟩) out ↔
            TransferReplayable Sha256.hexdigest t (transferOf ⟨false, 10, 0⟩)
              (c.sess c₀.size).cacheRead.join) := by
  obtain ⟨c₀, c, hc₀, hrun, ⟨row, hrow, hkey⟩, hsource, htarget, hended⟩ := answered_of_played
    (.transfer (transferOf ⟨false, 10, 0⟩))
    (P := fun c₀ c => (∃ row ∈ c₀.shared.db.transfers, "transfer" = row.idempotencyKey) ∧
      (c₀.shared.db.accountById ⟨1⟩).isSome ∧ (c₀.shared.db.accountById ⟨9⟩).isSome ∧
      (Wallet.outcome? c c₀.size).isSome)
    (show (played anyStep (transferredSchedule ⟨false, 10, 0⟩)).any
      (fun c₀ => (play (Answered c₀.size) (player Sha256.hexdigest) _ (steps 4 19)).any _) = true by
        decide +kernel)
  -- the theorem is applied to the run that was played
  obtain ⟨hharmless, -, t, ht, -, hout⟩ := transfer_replay hc₀ hrow hkey hsource htarget hrun
  exact ⟨c₀, c, hc₀, hended, hharmless, t, ht, hout⟩

/-- An amount that lies in the middle between two amounts with four places. -/
def halfway : Decimal := ⟨false, 100005, -5⟩

/-- A process ends with the exception. -/
def Wallet.Raises (c : Wallet) (i : ℕ) (e : Exc) : Prop :=
  match Wallet.outcome? c i with
  | some (.error e') => e' = e
  | _ => False

/-- Whether a process ends with the exception is decidable. -/
instance (c : Wallet) (i : ℕ) (e : Exc) : Decidable (Wallet.Raises c i e) := by
  unfold Wallet.Raises
  split <;> infer_instance

/-- Raising is ending with the exception. -/
theorem outcome_of_raises {c : Wallet} {i : ℕ} {e : Exc} (h : Wallet.Raises c i e) :
    Wallet.outcome? c i = some (.error e) := by
  unfold Wallet.Raises at h
  split at h
  · next e' he' => rw [he', h]
  · cases h

/-- While Redis has no entry, the same request for an amount that is rounded in two ways is taken
for a different one. -/
theorem transfer_replay_halfway :
    ∃ c₀ c t out, Reaches Sha256.hexdigest c₀ ∧ .transfer t ∈ c₀.shared.history ∧
      t.stored ∈ c₀.shared.db.transfers ∧
      (transferOf halfway).idempotencyKey = t.idempotencyKey ∧
      (c₀.shared.db.accountById (transferOf halfway).fromAccountId).isSome ∧
      (c₀.shared.db.accountById (transferOf halfway).toAccountId).isSome ∧
      (wallet Sha256.hexdigest).Run (Answered c₀.size)
        (spawned c₀ ((Request.transfer (transferOf halfway)).program Sha256.hexdigest)) c ∧
      Wallet.outcome? c c₀.size = some out ∧ ¬ TransferReplayed t (transferOf halfway) out := by
  obtain ⟨c₀, c, hc₀, hrun, ⟨t, ht, hsame⟩, hsource, htarget, hraises⟩ := answered_of_played
    (.transfer (transferOf halfway))
    -- the transfer is on record as it was requested, and the second request raises
    (P := fun c₀ c => (∃ t ∈ c₀.shared.history.filterMap Row.transfer?,
        t.fromAccountId = ⟨1⟩ ∧ t.toAccountId = ⟨9⟩ ∧ t.amount = halfway ∧
          "transfer" = t.idempotencyKey) ∧
      (c₀.shared.db.accountById ⟨1⟩).isSome ∧ (c₀.shared.db.accountById ⟨9⟩).isSome ∧
      Wallet.Raises c c₀.size .idempotencyConflict)
    (show (played anyStep (transferredSchedule halfway)).any
      (fun c₀ => (play (Answered c₀.size) (player Sha256.hexdigest) _ (steps 4 18)).any _) = true by
        decide +kernel)
  obtain ⟨row, hrow, hrowt⟩ := List.mem_filterMap.mp ht
  obtain rfl : row = .transfer t := by
    cases row <;> cases hrowt
    rfl
  obtain ⟨t₀, h₀⟩ := id hc₀
  -- the request is the same, and is refused nevertheless
  obtain ⟨hfrom, hto, hamount, hkey⟩ := hsame
  have hrepeats : (transferOf halfway).Repeats t :=
    ⟨hfrom.symm, hto.symm, by rw [hamount]; rfl⟩
  have hout : Wallet.outcome? c c₀.size = some (.error .idempotencyConflict) :=
    outcome_of_raises hraises
  exact ⟨c₀, c, t, _, hc₀, hrow, (recorded h₀).transfer_stored t hrow, hkey, hsource, htarget, hrun,
    hout, fun hreplayed => transferReplayed_conflict.mp hreplayed hrepeats⟩

end MiniWallet
