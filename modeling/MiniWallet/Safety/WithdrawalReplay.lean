import MiniWallet.Safety.Refunds
import MiniWallet.Safety.Replay

/-!
# Replaying a withdrawal

A request for a withdrawal whose idempotency key is taken. `WithdrawalReplayed` is what it should
do: answer with the withdrawal that has the key if the request is the same, and refuse it otherwise.
`WithdrawalReplayable` is when it does so. If Redis has no entry, the checks of a new withdrawal
come first and nothing compares the requests; if Redis has one, texts are compared instead of
numbers.

* `withdrawal_replay`: the request changes nothing, and it is answered as it should be exactly if it
  is replayable.
-/

namespace MiniWallet

open Numeric Process System State Program

variable {sha256 : String → String}

/-! ## What a replay should do, and when it does -/

/-- The request asks for what the row holds, the amounts compared as numbers. -/
structure WithdrawalRequest.Matches (q : WithdrawalRequest) (row : Withdrawal Ticks) : Prop where
  account : q.accountId = row.accountId
  amount : q.amount.value = row.loaded.amount.value
  currency : q.currency = row.currency
  destinationType : q.destinationType = row.destinationType
  destinationDetails : q.destinationDetails = row.destinationDetails

/-- The response is that of the withdrawal, at some stage of its saga. -/
def WithdrawalResponse.Describes (r : WithdrawalResponse) (row : Withdrawal Ticks) : Prop :=
  ∃ w : Withdrawal Decimal, w.stored.asCreated = row.asCreated ∧ r = withdrawalToResponse w

/-- The outcome of a request whose key belongs to `row` is as it should be. -/
structure WithdrawalReplayed (row : Withdrawal Ticks) (q : WithdrawalRequest)
    (out : Except Exc Response) : Prop where
  /-- The same request gets the withdrawal. -/
  same : q.Matches row → ∃ r, out = .ok (.withdrawal r) ∧ r.Describes row
  /-- A different request is refused. -/
  different : ¬ q.Matches row → out = .error .idempotencyConflict

/-- When a request whose key belongs to `row` is answered as it should be, given what Redis holds
under its key when it is looked up, and the balance that is checked. -/
def WithdrawalReplayable (sha256 : String → String) (row : Withdrawal Ticks) (q : WithdrawalRequest)
    (cached : Option CacheEntry) (balance : Option Ticks) : Prop :=
  match cached with
  | none => q.Matches row ∧ ∃ b ∈ balance, ¬ q.amount.Exceeds moneyPlaces b
  | some entry =>
      match entry.response with
      | .withdrawal _ => entry.requestHash = q.hash sha256 ↔ q.Matches row
      -- the entry of a transfer whose key begins with `withdrawal:`
      | .transfer _ => entry.requestHash ≠ q.hash sha256 ∧ ¬ q.Matches row

section Outcomes

variable {row : Withdrawal Ticks} {q : WithdrawalRequest}

/-- Refusing a request is right exactly if it is a different one. -/
theorem replayed_conflict :
    WithdrawalReplayed row q (.error .idempotencyConflict) ↔ ¬ q.Matches row := by
  refine ⟨fun h hmatches => ?_, fun hne => ⟨fun hmatches => absurd hmatches hne, fun _ => rfl⟩⟩
  obtain ⟨r, hr, -⟩ := h.same hmatches
  cases hr

/-- Answering with the withdrawal is right exactly if the request is the same. -/
theorem replayed_response {r : WithdrawalResponse} (hr : r.Describes row) :
    WithdrawalReplayed row q (.ok (.withdrawal r)) ↔ q.Matches row := by
  refine ⟨fun h => ?_, fun hmatches => ⟨fun _ => ⟨r, rfl, hr⟩, fun hne => absurd hmatches hne⟩⟩
  by_contra hne
  cases h.different hne

/-- Any other exception is wrong. -/
theorem not_replayed_error {e : Exc} (he : e ≠ .idempotencyConflict) :
    ¬ WithdrawalReplayed row q (.error e) := by
  intro h
  by_cases hmatches : q.Matches row
  · obtain ⟨r, hr, -⟩ := h.same hmatches
    cases hr
  · cases h.different hmatches
    exact he rfl

end Outcomes

/-! ## The state around the request -/

/-- What a request relies on while the key of `row` is taken. -/
structure WithdrawalTaken (sha256 : String → String) (row : Withdrawal Ticks) (w : State) :
    Prop where
  /-- The withdrawal is there, at whatever stage of its saga. -/
  stands : ∃ row' ∈ w.shared.db.withdrawals, row'.asCreated = row.asCreated
  /-- No other withdrawal has its key. -/
  unique : ∀ row' ∈ w.shared.db.withdrawals, row'.idempotencyKey = row.idempotencyKey →
    row'.asCreated = row.asCreated
  /-- An answer in Redis to a withdrawal describes this one. -/
  cached : ∀ entry r, w.shared.redis (withdrawalCacheKey row.idempotencyKey) = some entry →
    entry.response = .withdrawal r → r.Describes row
  /-- Its account exists. -/
  account : (w.shared.db.accountById row.accountId).isSome

/-- What was checked when the withdrawal was inserted. -/
structure Withdrawal.Accepted (row : Withdrawal Ticks) : Prop where
  /-- Its account is that of a user. -/
  user : row.accountId ≠ systemAccountId
  /-- Its values fit their columns. -/
  fits : ∃ o : Withdrawal Decimal, (Row.withdrawal o).fits = true ∧
    o.stored.asCreated = row.asCreated

/-- Every withdrawal in the tables passed these checks. -/
theorem withdrawal_accepted {t₀ : Time} {ok : State → Event → Prop} {c : Wallet}
    (h : WalletRun sha256 t₀ ok c) {row : Withdrawal Ticks} (hrow : row ∈ c.shared.db.withdrawals) :
    row.Accepted := by
  obtain ⟨js, hjs⟩ := books_kept h
  obtain ⟨o, ho, hsame⟩ := (recorded h).withdrawal_origin row hrow
  exact ⟨hjs.accounts row hrow, o, ((recorded h).accepted _ ho).1, hsame⟩

/-- Once a withdrawal is committed, this holds in the rest of the run. -/
theorem withdrawalTaken {t₀ : Time} {c₀ c : Wallet} (h₀ : WalletRun sha256 t₀ anyStep c₀)
    {row : Withdrawal Ticks} (hrow : row ∈ c₀.shared.db.withdrawals)
    (hrun : (wallet sha256).Run anyStep c₀ c) : WithdrawalTaken sha256 row c.toWorld := by
  have h : WalletRun sha256 t₀ anyStep c := h₀.trans hrun
  obtain ⟨row', hrow', hsame⟩ := (persists h₀ hrun).withdrawals row hrow
  obtain ⟨haccount, -, -, -, -, hkey⟩ := Withdrawal.columns_of_asCreated hsame
  -- keys are unique, so every row with this one was created alike
  have hunique : ∀ row'' ∈ c.shared.db.withdrawals, row''.idempotencyKey = row.idempotencyKey →
      row''.asCreated = row.asCreated := by
    intro row'' hrow'' hkey''
    have heq := List.inj_on_of_nodup_map (unique_columns h).withdrawal_key hrow'' hrow'
      (hkey''.trans hkey.symm)
    rw [heq, hsame]
  refine { stands := ⟨row', hrow', hsame⟩, unique := hunique, cached := ?_, account := ?_ }
  · -- an entry under the key of a withdrawal comes from a withdrawal with this key
    intro entry r hentry hresponse
    have hfrom := cachedFrom h hentry
    generalize hk : withdrawalCacheKey row.idempotencyKey = key at hfrom
    cases hfrom with
    | transfer _ _ => cases hresponse
    | @withdrawal w hw =>
        obtain ⟨row'', hrow'', hsame''⟩ := (recorded h).withdrawal_stored w hw
        obtain ⟨-, -, -, -, -, hkey''⟩ := Withdrawal.columns_of_asCreated hsame''
        have hw' : row.idempotencyKey = w.idempotencyKey := (String.append_right_inj _).mp hk
        have hdescribes := hunique row'' hrow'' (hkey''.trans hw'.symm)
        injection hresponse with hr
        exact ⟨w, hsame''.symm.trans hdescribes, hr.symm⟩
  · -- the foreign key of the row
    have hrefers := (refers h 0).2 _ (Database.mem_withdrawals.mp hrow')
    rw [← haccount]
    exact hrefers _ (List.mem_singleton_self _)

/-! ## The request -/

section Request

variable {row : Withdrawal Ticks} {q : WithdrawalRequest} {i : ℕ} {σ : Session}

/-- The withdrawal that a request for the same as `row` would insert fits its columns. -/
theorem fits_of_matches (h : row.Accepted) (hmatches : q.Matches row)
    (hkey : q.idempotencyKey = row.idempotencyKey) {withdrawal : Withdrawal Decimal}
    (hamount : withdrawal.amount = q.amount) (hcurrency : withdrawal.currency = q.currency)
    (htype : withdrawal.destinationType = q.destinationType)
    (hdetails : withdrawal.destinationDetails = q.destinationDetails)
    (hkey' : withdrawal.idempotencyKey = q.idempotencyKey) :
    (Row.withdrawal withdrawal).fits = true := by
  -- the row was created from an object that fits
  obtain ⟨o, hfits, hsame⟩ := h.fits
  obtain ⟨-, ho, hocurrency, hotype, hodetails, hokey⟩ := Withdrawal.columns_of_asCreated hsame
  -- the two amounts are stored as the same one
  have hstored : Ticks.ofDecimal q.amount = Ticks.ofDecimal o.amount := by
    calc Ticks.ofDecimal q.amount = Ticks.ofDecimal row.loaded.amount :=
          Decimal.roundHalfAway_congr hmatches.amount
      _ = row.amount := Ticks.ofDecimal_toDecimal row.amount
      _ = Ticks.ofDecimal o.amount := ho.symm
  have hofields : o.currency = q.currency ∧ o.destinationType = q.destinationType ∧
      o.destinationDetails = q.destinationDetails ∧ o.idempotencyKey = q.idempotencyKey :=
    ⟨hocurrency.trans hmatches.currency.symm, hotype.trans hmatches.destinationType.symm,
      hodetails.trans hmatches.destinationDetails.symm, hokey.trans hkey.symm⟩
  simp only [Row.fits, amountFits, hamount, hcurrency, htype, hdetails, hkey', hstored]
  simpa only [Row.fits, amountFits, hofields] using hfits

/-- Looking the key up gives the withdrawal that has it. -/
theorem withdrawalByKey_of_taken {w : State} (h : WithdrawalTaken sha256 row w) :
    ∃ existing, w.shared.db.withdrawalByKey row.idempotencyKey = some existing ∧
      existing.asCreated = row.asCreated := by
  obtain ⟨row', hrow', hsame⟩ := h.stands
  obtain ⟨-, -, -, -, -, hkey⟩ := Withdrawal.columns_of_asCreated hsame
  have hsome : (w.shared.db.withdrawalByKey row.idempotencyKey).isSome := by
    rw [Database.withdrawalByKey, List.find?_isSome]
    exact ⟨row', hrow', by simpa using hkey⟩
  obtain ⟨existing, hexisting⟩ := Option.isSome_iff_exists.mp hsome
  refine ⟨existing, hexisting, h.unique existing (List.mem_of_find?_eq_some hexisting) ?_⟩
  simpa using List.find?_some hexisting

/-- Inserting a withdrawal under a key that is taken gives the withdrawal that has the key, unless a
value does not fit its column. -/
theorem replays_insertWithdrawal {withdrawal : Withdrawal Decimal} (hwrites : σ.writes = [])
    (hkey : q.idempotencyKey = row.idempotencyKey)
    (hkey' : withdrawal.idempotencyKey = q.idempotencyKey)
    {Q : Option (Withdrawal Ticks) → Session → Prop} {R : Exc → Session → Prop}
    (hfound : ∀ existing, existing.asCreated = row.asCreated → Q (some existing) σ.aborted.ended)
    (hmisfit : (Row.withdrawal withdrawal).fits = false → R .dataError σ.aborted) :
    Replays sha256 (WithdrawalTaken sha256 row) i (insertWithdrawal q withdrawal) Q R σ := by
  unfold insertWithdrawal
  refine replays_tryCatch (replays_bind (replays_insert fun w r hw hσ hverdict => ?_))
  have hview : view w i = w.shared.db := by rw [view, hσ, hwrites, Database.applyAll_nil]
  have htaken : .withdrawalIdempotencyKey withdrawal.idempotencyKey ∈ (view w i).keys := by
    obtain ⟨row', hrow', hsame⟩ := hw.stands
    obtain ⟨-, -, -, -, -, hrowkey⟩ := Withdrawal.columns_of_asCreated hsame
    rw [hview, hkey', hkey, ← hrowkey]
    exact List.mem_flatMap.mpr ⟨_, Database.mem_withdrawals.mp hrow', by simp [Row.keys]⟩
  rcases verdict_of_taken (by simp [Row.keys]) htaken hverdict with
    ⟨hfits, rfl⟩ | ⟨-, c, -, rfl⟩ | ⟨-, -, k, -, -, rfl⟩
  · exact ⟨_, rfl, replays_throw (hmisfit hfits)⟩
  -- whichever constraint is violated, the handler looks the key up
  all_goals
    refine ⟨_, rfl, replays_bind (replays_rollback
      (replays_bind (replays_select rfl fun w hw _ => ?_)))⟩
    obtain ⟨existing, hexisting, hsame⟩ := withdrawalByKey_of_taken hw
    have hanswer : (Query.withdrawalByKey q.idempotencyKey).eval w.shared.db = some existing := by
      rw [hkey]
      exact hexisting
    rw [hanswer]
    exact replays_pure (hfound existing hsame)

/-- The outcome is as it should be exactly if the request is replayable. -/
def WithdrawalOutcome (sha256 : String → String) (row : Withdrawal Ticks) (q : WithdrawalRequest)
    (out : Except Exc Response) (σ : Session) : Prop :=
  WithdrawalReplayed row q out ↔ WithdrawalReplayable sha256 row q σ.cacheRead.join σ.balanceRead

/-- Without an entry in Redis, an exception is wrong and comes from a different request or from a
balance that does not cover the amount. -/
theorem withdrawalOutcome_error {e : Exc} (he : e ≠ .idempotencyConflict)
    (hcache : σ.cacheRead = some none)
    (h : q.Matches row → ∀ b ∈ σ.balanceRead, q.amount.Exceeds moneyPlaces b) :
    WithdrawalOutcome sha256 row q (.error e) σ := by
  refine iff_of_false (not_replayed_error he) ?_
  rw [hcache]
  rintro ⟨hmatches, b, hb, hcovers⟩
  exact hcovers (h hmatches b hb)

/-- The request after a look-up in Redis without success. -/
theorem replays_startWithdrawal (hrow : row.Accepted) (hkey : q.idempotencyKey = row.idempotencyKey)
    (hwrites : σ.writes = []) (hcache : σ.cacheRead = some none) :
    Replays sha256 (WithdrawalTaken sha256 row) i (startWithdrawal sha256 q)
      (fun r => WithdrawalOutcome sha256 row q (.ok (.withdrawal r)))
      (fun e => WithdrawalOutcome sha256 row q (.error e)) σ := by
  unfold startWithdrawal
  split
  · next hsystem =>
    refine replays_throw (withdrawalOutcome_error (by simp) hcache fun hmatches => ?_)
    exact absurd (hmatches.account.symm.trans hsystem) hrow.user
  refine replays_bind (replays_lockAccount hwrites (fun w hw _ hnone => ?_) fun a => ?_)
  · refine replays_throw (withdrawalOutcome_error (by simp) hcache fun hmatches => ?_)
    have haccount := hw.account
    rw [← hmatches.account, hnone] at haccount
    cases haccount
  · refine replays_bind (replays_getBalance hwrites fun b σ' hread hcache' hwrites' => ?_)
    replace hcache' := hcache'.trans hcache
    split
    · next hexceeds =>
      refine replays_throw (withdrawalOutcome_error (by simp) hcache' fun _ b' hb' => ?_)
      rw [hread] at hb'
      exact Option.some.inj hb' ▸ hexceeds
    · next hcovers =>
      refine replays_bind (replays_now fun t => replays_bind (replays_uuid4 fun id => ?_))
      refine replays_bind (replays_insertWithdrawal (by exact hwrites') hkey rfl
        (fun existing hsame => ?_) ?_)
      · -- the withdrawal that has the key is answered, whatever was asked for
        refine replays_pure ?_
        have hdescribes : (withdrawalToResponse existing.loaded).Describes row :=
          ⟨existing.loaded, by simpa [Withdrawal.map] using hsame, rfl⟩
        refine (replayed_response hdescribes).trans ?_
        change _ ↔ WithdrawalReplayable sha256 row q σ'.cacheRead.join σ'.balanceRead
        rw [hcache']
        exact ⟨fun hmatches => ⟨hmatches, b, hread, hcovers⟩, fun h => h.1⟩
      · intro hmisfit
        refine withdrawalOutcome_error (by simp) hcache' fun hmatches => ?_
        rw [fits_of_matches hrow hmatches hkey rfl rfl rfl rfl rfl] at hmisfit
        cases hmisfit

/-- The request, from its start. -/
theorem replays_createWithdrawal (hrow : row.Accepted)
    (hkey : q.idempotencyKey = row.idempotencyKey) :
    Replays sha256 (WithdrawalTaken sha256 row) i (createWithdrawal sha256 q)
      (fun r => WithdrawalOutcome sha256 row q (.ok (.withdrawal r)))
      (fun e => WithdrawalOutcome sha256 row q (.error e)) {} := by
  unfold createWithdrawal
  refine replays_bind (replays_cacheGet fun w hw _ => ?_)
  cases hentry : w.shared.redis (withdrawalCacheKey q.idempotencyKey) with
  | none => exact replays_startWithdrawal hrow hkey rfl rfl
  | some entry =>
      dsimp only
      split
      · next hhash =>
        -- the hashes differ
        refine replays_throw (replayed_conflict.trans ?_)
        change _ ↔ WithdrawalReplayable sha256 row q (some entry) none
        cases hresponse : entry.response with
        | withdrawal r => simp [WithdrawalReplayable, hresponse, hhash]
        | transfer r => simp [WithdrawalReplayable, hresponse, hhash]
      · next hhash =>
        -- the hashes agree, and the entry is read as a withdrawal
        unfold CacheEntry.withdrawalResponse
        cases hresponse : entry.response with
        | withdrawal r =>
            refine replays_pure ((replayed_response ?_).trans ?_)
            · rw [hkey] at hentry
              exact hw.cached entry r hentry hresponse
            · change _ ↔ WithdrawalReplayable sha256 row q (some entry) none
              simp only [WithdrawalReplayable, hresponse]
              exact ⟨fun hmatches => iff_of_true (not_not.mp hhash) hmatches,
                fun h => h.mp (not_not.mp hhash)⟩
        | transfer r =>
            refine replays_throw (iff_of_false (not_replayed_error (by simp)) ?_)
            change ¬ WithdrawalReplayable sha256 row q (some entry) none
            simp only [WithdrawalReplayable, hresponse]
            exact fun h => hhash h.1

end Request

/-! ## The result -/

/-- Replay of a withdrawal: a request whose key belongs to a withdrawal in the tables changes
nothing and pays nothing, whatever the other processes do. It is answered as it should be exactly if
it is replayable. -/
theorem withdrawal_replay {c₀ c : Wallet} {row : Withdrawal Ticks} {q : WithdrawalRequest}
    (h : Reaches sha256 c₀) (hrow : row ∈ c₀.shared.db.withdrawals)
    (hkey : q.idempotencyKey = row.idempotencyKey)
    (hrun : (wallet sha256).Run (Answered c₀.size)
      (spawned c₀ ((Request.createWithdrawal q).program sha256)) c) :
    (wallet sha256).Run (Harmless c₀.size)
        (spawned c₀ ((Request.createWithdrawal q).program sha256)) c ∧
      Proceeds c c₀.size ∧
      ∀ out, Wallet.outcome? c c₀.size = some out →
        (WithdrawalReplayed row q out ↔
          WithdrawalReplayable sha256 row q (c.sess c₀.size).cacheRead.join
            (c.sess c₀.size).balanceRead) := by
  obtain ⟨t₀, h₀⟩ := id h
  have hspawn : (wallet sha256).Step c₀ .spawn
      (spawned c₀ ((Request.createWithdrawal q).program sha256)) := .spawn ⟨_, rfl⟩
  -- what the key belongs to stays there while the request runs
  refine follow_request (WithdrawalOutcome sha256 row q) h
    (fun hrun => withdrawalTaken h₀ hrow ?_) ?_ hrun
  · exact (Run.step .refl trivial hspawn).trans hrun.any
  · refine replays_bind (Contract.wp_mono _ _ (fun r σ' hr => ?_) (fun _ _ he => he)
      (replays_createWithdrawal (withdrawal_accepted h₀ hrow) hkey))
    exact replays_pure hr

/-- The same request again, before Redis has the entry of the first one. -/
theorem withdrawal_replay_same :
    ∃ c₀ c row, Reaches Sha256.hexdigest c₀ ∧ row ∈ c₀.shared.db.withdrawals ∧
      (Wallet.outcome? c c₀.size).isSome ∧
      (wallet Sha256.hexdigest).Run (Harmless c₀.size)
        (spawned c₀ ((Request.createWithdrawal withdrawalOf40).program Sha256.hexdigest)) c ∧
      ∀ out, Wallet.outcome? c c₀.size = some out →
        (WithdrawalReplayed row withdrawalOf40 out ↔
          WithdrawalReplayable Sha256.hexdigest row withdrawalOf40 (c.sess c₀.size).cacheRead.join
            (c.sess c₀.size).balanceRead) := by
  obtain ⟨c₀, c, hc₀, hrun, ⟨row, hrow, hkey⟩, hended⟩ := answered_of_played
    (.createWithdrawal withdrawalOf40)
    (P := fun c₀ c => (∃ row ∈ c₀.shared.db.withdrawals, "withdrawal" = row.idempotencyKey) ∧
      (Wallet.outcome? c c₀.size).isSome)
    (show (played anyStep reservedSchedule).any
      (fun c₀ => (play (Answered c₀.size) (player Sha256.hexdigest) _ (steps 3 8)).any _) = true by
        decide +kernel)
  obtain ⟨hharmless, -, hout⟩ := withdrawal_replay hc₀ hrow hkey hrun
  exact ⟨c₀, c, row, hc₀, hrow, hended, hharmless, hout⟩

/-- A withdrawal of 30 dollars under the key of the withdrawal of 40 dollars. -/
def withdrawalOf30 : WithdrawalRequest := { withdrawalOf40 with amount := ⟨false, 30, 0⟩ }

/-- While Redis has no entry, a different request gets the withdrawal that has the key. -/
theorem withdrawal_replay_other :
    ∃ c₀ c row out, Reaches Sha256.hexdigest c₀ ∧ row ∈ c₀.shared.db.withdrawals ∧
      withdrawalOf30.idempotencyKey = row.idempotencyKey ∧
      (wallet Sha256.hexdigest).Run (Answered c₀.size)
        (spawned c₀ ((Request.createWithdrawal withdrawalOf30).program Sha256.hexdigest)) c ∧
      Wallet.outcome? c c₀.size = some out ∧ ¬ WithdrawalReplayed row withdrawalOf30 out := by
  obtain ⟨c₀, c, hc₀, hrun, ⟨row, hrow, hkey, hamount⟩, hok⟩ := answered_of_played
    (.createWithdrawal withdrawalOf30)
    (P := fun c₀ c => (∃ row ∈ c₀.shared.db.withdrawals, "withdrawal" = row.idempotencyKey ∧
      row.amount = 400000) ∧ (Wallet.outcome? c c₀.size).any Except.isOk)
    (show (played anyStep reservedSchedule).any
      (fun c₀ => (play (Answered c₀.size) (player Sha256.hexdigest) _ (steps 3 8)).any _) = true by
        decide +kernel)
  obtain ⟨out, hout, hisOk⟩ := (Option.any_eq_true _ _).mp hok
  refine ⟨c₀, c, row, out, hc₀, hrow, hkey, hrun, hout, fun hreplayed => ?_⟩
  -- the amounts are different numbers, so the request had to be refused
  have hne : ¬ withdrawalOf30.Matches row := by
    intro hmatches
    have hrequest : withdrawalOf30.amount.value = 30 := by
      norm_num [withdrawalOf30, Decimal.value, Decimal.sign]
    have hstored : row.loaded.amount.value = 40 := by
      change (Decimal.ofScaled 4 row.amount).value = 40
      rw [Decimal.value_ofScaled, hamount]
      norm_num
    have hvalue := hmatches.amount
    rw [hrequest, hstored] at hvalue
    norm_num at hvalue
  rw [hreplayed.different hne] at hisOk
  cases hisOk

end MiniWallet
