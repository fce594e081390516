import MiniWallet.Safety.Registry
import MiniWallet.Safety.Resolution
import MiniWallet.Safety.TransferReplay
import MiniWallet.Safety.Webhook

/-!
# Deposits and duplicate webhooks

A deposit is inserted as pending and gets its outcome in the same transaction, so nobody else ever
sees it pending. The rail may announce a payment several times, also at the same time: then the
second insert waits for the first one and is refused once that has been committed.

* `Deposit.Accounted`: what the status of a deposit says about its reason and its legs.
* `deposits_accounted`: it holds of every deposit in every run.
-/

namespace MiniWallet

open Numeric Bookkeeping Process System State Program

variable {sha256 : String → String} {t₀ : Time} {ok : State → Event → Prop} {c : Wallet}

/-! ## Committed deposits -/

/-- The deposit has an outcome, and its columns and the legs of the ledger agree with it. -/
inductive Deposit.Accounted (db : Database) (d : Deposit Ticks) : Prop
  | completed {debit credit : LedgerEntry Ticks} : d.status = .completed →
      d.rejectionReason = none → db.legsOf d.id = [debit, credit] →
      DoubleEntry debit credit d.movement → Accounted db d
  | rejected {reason : String} : d.status = .rejected → d.rejectionReason = some reason →
      d.completedAt = none → db.legsOf d.id = [] → Accounted db d

/-- What a leg refers to is a row of a domain table. -/
theorem Books.known_of_reference {db : Database} {js : List (Entry Ticks)} (h : Books db js)
    {l : LedgerEntry Ticks} (hl : l ∈ db.ledgerEntries) {id : UUID}
    (href : l.referenceId = some id) :
    id ∈ db.names := by
  obtain ⟨e, he, hle⟩ := List.mem_flatMap.mp (h.ledger.mem_iff.mp hl)
  rw [Entry.reference_of_mem hle] at href
  have hmem {kind : EntryType} (hkind : e.movement.kind = kind) : e.movement ∈ movements js kind :=
    List.mem_filter.mpr ⟨List.mem_map_of_mem he, decide_eq_true hkind⟩
  simp only [Database.names, List.mem_append, List.mem_map]
  cases hkind : e.movement.kind with
  -- the legs of seeds refer to nothing
  | seed =>
      rw [(h.seeds e he hkind).2.1] at href
      cases href
  | transfer =>
      obtain ⟨t, ht, hmove⟩ := List.mem_map.mp (h.transfers.mem_iff.mp (hmem hkind))
      rw [← hmove] at href
      exact .inr (.inl ⟨t, (List.mem_filter.mp ht).1, Option.some.inj href⟩)
  | deposit =>
      obtain ⟨d, hd, hmove⟩ := List.mem_map.mp (h.deposits.mem_iff.mp (hmem hkind))
      rw [← hmove] at href
      exact .inr (.inr (.inl ⟨d, (List.mem_filter.mp hd).1, Option.some.inj href⟩))
  | withdrawal =>
      obtain ⟨w, hw, hmove⟩ := List.mem_map.mp (h.reservations.mem_iff.mp (hmem hkind))
      rw [← hmove] at href
      exact .inr (.inr (.inr ⟨w, hw, Option.some.inj href⟩))
  -- a reversal refers to the withdrawal that it gives back
  | withdrawalReversal =>
      obtain ⟨w, hw, hrev⟩ := h.reversals e he hkind
      rw [hrev.1] at href
      exact .inr (.inr (.inr ⟨w, hw, Option.some.inj href⟩))

/-- The outcome of a deposit that a transaction inserts, with its entry if money moves. -/
inductive Transaction.Resolves (T : Transaction) (d : Deposit Decimal) : Prop
  | completed {e : Entry Decimal} : d.status = .completed → d.rejectionReason = none →
      T.writes.flatMap Write.legs = [e.credit.stored, e.debit.stored] → e.movement = d.movement →
      Resolves T d
  | rejected {reason : String} : d.status = .rejected → d.rejectionReason = some reason →
      d.completedAt = none → T.writes.flatMap Write.legs = [] → Resolves T d

/-- A transaction that inserts a deposit also gives it its outcome. -/
theorem Commits.resolves {i : ℕ} {T : Transaction} (hT : Commits sha256 t₀ ok c i T)
    {d : Deposit Decimal} (hd : d ∈ T.deposits) : T.Resolves d := by
  -- every write of a deposit already says how the deposit ends
  have hwrites (wr : Write) (hwr : wr ∈ T.writes) : wr.Resolves := by
    rw [← hT.writes] at hwr
    exact resolves_writes ⟨t₀, hT.run.any⟩ hwr
  cases hT.justified with
  | @depositRejected d₀ set event _ hstatus =>
      -- the event of a rejection
      obtain rfl := List.mem_singleton.mp hd
      obtain ⟨-, -, hnone⟩ := hwrites (.insert (.deposit d₀)) (by simp [Transaction.writes])
      rcases hwrites (.setDeposit d₀.id set) (by simp [Transaction.writes]) with
        ⟨hcompleted, -⟩ | ⟨-, hreason, hset⟩
      · rw [hstatus] at hcompleted
        cases hcompleted
      · obtain ⟨reason, hreason⟩ := Option.isSome_iff_exists.mp hreason
        have hrejected : (set.apply d₀).rejectionReason = some reason := by
          simp [DepositSet.apply, hreason]
        refine .rejected hstatus hrejected ?_ rfl
        · simp [DepositSet.apply, hset, hnone]
  | @deposited d₀ e set event _ _ hstatus hmove =>
      -- the event of a completed deposit, with its legs
      obtain rfl := List.mem_singleton.mp hd
      obtain ⟨-, hnone, -⟩ := hwrites (.insert (.deposit d₀)) (by simp [Transaction.writes])
      rcases hwrites (.setDeposit d₀.id set) (by simp [Transaction.writes]) with
        ⟨-, hset⟩ | ⟨hrejected, -⟩
      · refine .completed (e := e) hstatus ?_ rfl hmove
        simp [DepositSet.apply, hset, hnone]
      · rw [hstatus] at hrejected
        cases hrejected
  | _ => cases hd

/-- The legs of a deposit depend on the ledger only. -/
theorem Deposit.Accounted.congr {db db' : Database} {d : Deposit Ticks} (h : d.Accounted db)
    (hlegs : db'.legsOf d.id = db.legsOf d.id) : d.Accounted db' := by
  cases h with
  | completed hstatus hreason hpair hdouble =>
      exact .completed hstatus hreason (hlegs.trans hpair) hdouble
  | rejected hstatus hreason hat hnone => exact .rejected hstatus hreason hat (hlegs.trans hnone)

/-- In every run every deposit has an outcome that its columns and its legs agree with. -/
theorem deposits_accounted (h : WalletRun sha256 t₀ ok c) :
    ∀ d ∈ c.shared.db.deposits, d.Accounted c.shared.db := by
  refine database_invariant (P := fun db => ∀ d ∈ db.deposits, d.Accounted db)
    (fun d hd => nomatch hd) ?_ h
  rintro c i T hT hold row hrow
  obtain ⟨js, hjs⟩ := books_kept hT.run
  rw [Database.deposits_post _ T hT.new_deposit, List.mem_append] at hrow
  rcases hrow with hrow | hrow
  · -- nothing has referred to the new deposit before
    obtain ⟨d, hd, rfl⟩ := List.mem_map.mp hrow
    have hfresh : d.id ∉ c.shared.db.names :=
      fresh_of_drawn hT.run (hT.justified.drawn _ (by simp [Transaction.names]; grind))
    have hbefore : c.shared.db.legsOf d.id = [] :=
      List.filter_eq_nil_iff.mpr fun l hl href =>
        hfresh (hjs.known_of_reference hl (by simpa using href))
    have hlegs : (c.shared.db.applyAll T.writes).legsOf d.id =
        (T.writes.flatMap Write.legs).reverse.filter (·.referenceId = some d.id) := by
      rw [Database.legsOf, Database.ledgerEntries_applyAll, List.filter_append]
      exact (congrArg _ hbefore).trans (List.append_nil _)
    cases hT.resolves hd with
    | @completed e hstatus hreason hwrites hmove =>
        have hdouble := e.stored.double
        rw [show e.stored.movement = d.stored.movement from
          congrArg Movement.stored hmove] at hdouble
        refine .completed hstatus hreason (hlegs.trans ?_) hdouble
        have hdebit : e.debit.stored.referenceId = some d.id := hdouble.debit_reference
        have hcredit : e.credit.stored.referenceId = some d.id := hdouble.credit_reference
        rw [hwrites]
        simp [hdebit, hcredit]
        exact ⟨rfl, rfl⟩
    | rejected hstatus hreason hat hwrites =>
        refine .rejected hstatus hreason hat (hlegs.trans ?_)
        rw [hwrites]
        rfl
  · -- an older one is not referred to any more
    refine (hold row hrow).congr (hT.legsOf_of_known ?_ fun hchange => ?_)
    · simp only [Database.names, List.mem_append]
      exact .inr (.inr (.inl (List.mem_map_of_mem hrow)))
    · obtain ⟨w, hw, hid⟩ := hT.known_of_changes hchange
      exact (hjs.distinct w hw).2 row hrow hid.symm

/-- A committed deposit stays as it is. -/
theorem deposits_persist (h : WalletRun sha256 t₀ ok c) {c' : Wallet}
    (hrun : (wallet sha256).Run ok c c') :
    ∀ d ∈ c.shared.db.deposits, d ∈ c'.shared.db.deposits := by
  refine database_monotone (R := fun db db' => ∀ d ∈ db.deposits, d ∈ db'.deposits)
    (fun _ _ hd => hd) (fun h h' d hd => h' d (h d hd)) (fun {c i T} hT d hd => ?_) h hrun
  rw [Database.deposits_post _ T hT.new_deposit]
  exact List.mem_append_right _ hd

/-! ## Duplicate webhooks -/

/-- Process `i` ends a statement that changes a table. -/
def WritesBy (i : ℕ) : Event → Prop
  | .call j (.write _) _ => j = i
  | _ => False

/-- Whether a step is a statement of the process is decidable. -/
instance (i : ℕ) (l : Event) : Decidable (WritesBy i l) := by
  unfold WritesBy
  split <;> infer_instance

/-- Nothing stops process `i`, the servers answer it, and when its first statement ends a deposit
with the reference has been committed. -/
def Duplicated (i : ℕ) (ref : String) (w : State) (l : Event) : Prop :=
  Answered i w l ∧ (WritesBy i l → ∃ d ∈ w.shared.db.deposits, d.externalReference = ref)

/-- Whether a step is one of a duplicate of the deposit is decidable. -/
instance (i : ℕ) (ref : String) (w : State) (l : Event) : Decidable (Duplicated i ref w l) :=
  inferInstanceAs (Decidable (_ ∧ (_ → _)))

/-- What a duplicate webhook has gone through. -/
structure Duplicate where
  /-- Its session. -/
  σ : Session
  /-- Its insert has ended. -/
  ended : Bool := false
  /-- The committed deposit that it has looked up. -/
  found : Option (Deposit Ticks) := none

namespace Duplicate

/-- The webhook goes on. -/
def after (o : Op) (r : Except Exc o.Out) (a : Duplicate) : Duplicate where
  σ := MiniWallet.after o r a.σ
  ended :=
    match o with
    | .write _ => true
    | _ => a.ended
  found :=
    match o, r with
    | .select (.depositByReference _), .ok (some row) =>
        if a.σ.writes.isEmpty then some row else a.found
    | _, _ => a.found

/-- The world agrees with what the webhook has gone through. -/
structure At (i : ℕ) (ref : String) (a : Duplicate) (w : State) : Prop where
  sess : w.sess i = a.σ
  ended : a.ended = true → ∃ d ∈ w.shared.db.deposits, d.externalReference = ref
  found : ∀ d ∈ a.found, d ∈ w.shared.db.deposits
  fresh : ∀ id ∈ (w.sess i).drawn, id ∉ w.shared.db.names

variable {i : ℕ} {ref : String} {a : Duplicate} {c' : Wallet} {l : Event}

/-- The session in it follows the steps of the run. -/
theorem advance_σ (l : Event) :
    (l.advance i after a).σ = l.advance i MiniWallet.after a.σ := by
  cases l with
  | call j o r =>
      by_cases hj : j = i
      · subst hj
        rw [Label.advance_call, Label.advance_call]
        rfl
      · rw [Label.advance_of_ne hj, Label.advance_of_ne hj]
  | _ => rfl

/-- It agrees with the world all along a run. -/
theorem At.advance {c₀ : Wallet} (h₀ : Reaches sha256 c₀)
    (hrun : (wallet sha256).Run (Duplicated i ref) c₀ c)
    (hl : Duplicated i ref c.toWorld l) (hs : (wallet sha256).Step c l c')
    (h : a.At i ref c.toWorld) :
    (l.advance i after a).At i ref c'.toWorld := by
  obtain ⟨t₀, h₀⟩ := h₀
  have hc : WalletRun sha256 t₀ anyStep c := h₀.trans hrun.any
  have hstep : (wallet sha256).Run anyStep c c' := .step .refl trivial hs
  have hpersist := deposits_persist hc hstep
  have hstop : ∀ w, ¬ Duplicated i ref w (.stop i) := fun _ hstop => hstop.1 rfl
  have hsess : c'.sess i = (l.advance i after a).σ := by
    rw [advance_σ]
    exact (hrun.advance_sess (P := fun _ => True) (fun _ => trivial) hstop hl hs
      ⟨trivial, h.sess⟩).2
  refine { sess := hsess, ended := ?_, found := ?_, fresh := ?_ }
  · intro hended
    suffices ∃ d ∈ c.shared.db.deposits, d.externalReference = ref by
      obtain ⟨d, hd, href⟩ := this
      exact ⟨d, hpersist d hd, href⟩
    cases l with
    | call j o r =>
        by_cases hj : j = i
        · subst hj
          rw [Label.advance_call] at hended
          cases o with
          | write wr => exact hl.2 rfl
          | _ => exact h.ended hended
        · rw [Label.advance_of_ne hj] at hended
          exact h.ended hended
    | _ => exact h.ended hended
  · intro d hd
    refine hpersist d ?_
    cases hs with
    | @call j o next r hj hends =>
        by_cases hj : j = i
        · subst hj
          rw [Label.advance_call] at hd
          unfold after at hd
          dsimp only at hd
          split at hd
          · next row =>
            split at hd
            · next hempty =>
              -- the look-up was answered from the committed tables
              cases hd
              have hview : State.view c.toWorld j = c.shared.db := by
                rw [State.view, h.sess, List.isEmpty_iff.mp hempty, Database.applyAll_nil]
              rcases ends_select hends with heq | heq
              · rw [hview] at heq
                exact List.mem_of_find?_eq_some (Except.ok.inj heq).symm
              · cases heq
            · exact h.found d hd
          · exact h.found d hd
        · rw [Label.advance_of_ne hj] at hd
          exact h.found d hd
    | _ => exact h.found d hd
  · exact fun id hid => fresh_of_drawn (hc.trans hstep) hid

end Duplicate

section Request

variable {i : ℕ} {ref : String} {a : Duplicate} {q : DepositRequest}

/-- `Repeating sha256 i ref p Q R a`: the program `p` of a duplicate that has gone through `a` only
calls operations of a replay, and ends in `Q` if it returns and in `R` if it raises. -/
abbrev Repeating (sha256 : String → String) (i : ℕ) (ref : String) {α : Type} (p : Program α)
    (Q : α → Duplicate → Prop) (R : Exc → Duplicate → Prop) (a : Duplicate) : Prop :=
  ((wallet sha256).alongside (Duplicated i ref) (Duplicate.At i ref) i Op.Plain).wp Duplicate.after
    p Q R a

/-- Awaiting an operation: what holds in every world in which it ends. -/
theorem repeating_perform {o : Op} {Q : o.Out → Duplicate → Prop} {R : Exc → Duplicate → Prop}
    (hplain : o.Plain)
    (hok : ∀ w x, a.At i ref w → Ends w i o (.ok x) → Duplicated i ref w (.call i o (.ok x)) →
      Q x (a.after o (.ok x)))
    (herror : ∀ w e, a.At i ref w → Ends w i o (.error e) →
      Duplicated i ref w (.call i o (.error e)) → ¬ e.Infrastructure → R e (a.after o (.error e))) :
    Repeating sha256 i ref (perform o) Q R a := by
  refine (Contract.wp_perform _ _ o).mpr ⟨hplain, fun x ⟨w, hat, hends, hl⟩ => ?_,
    fun e ⟨w, hat, hends, hl⟩ => ?_⟩
  · exact hok w x hat hends hl
  · exact herror w e hat hends hl (hl.1 rfl)

/-- A primary key of the table of deposits belongs to a deposit. -/
theorem deposit_of_pkey {db : Database} {id : UUID} (h : .pkey .deposits id ∈ db.keys) :
    ∃ d ∈ db.deposits, d.id = id := by
  obtain ⟨row, hrow, hkey⟩ := List.mem_flatMap.mp h
  cases row with
  | deposit d => exact ⟨d, Database.mem_deposits.mpr hrow, by simpa [Row.keys, eq_comm] using hkey⟩
  | account a => cases huser : a.userId <;> simp [Row.keys, huser] at hkey
  | _ => simp [Row.keys] at hkey

/-- How the insert of a duplicate is refused. -/
inductive DepositRefused (q : DepositRequest) : Exc → Prop
  /-- A value does not fit its column. -/
  | misfit : ¬ q.Storable → DepositRefused q .dataError
  /-- A check fails that is not about the reference. -/
  | check {k : Constraint} : ¬ q.Storable → k.mentions "external_reference" = false →
      DepositRefused q (.integrityError k)
  /-- The reference is taken. -/
  | taken : q.Storable → DepositRefused q (.integrityError .depositExternalReference)

/-- The insert of a duplicate is refused. -/
theorem repeating_write {d : Deposit Decimal} (hd : q.Makes d) (href : q.externalReference = ref)
    (hid : d.id ∈ a.σ.drawn) (hwrites : a.σ.writes = []) {Q : Unit → Duplicate → Prop}
    {R : Exc → Duplicate → Prop}
    (h : ∀ e, DepositRefused q e → R e { a with σ := a.σ.aborted, ended := true }) :
    Repeating sha256 i ref (write (.insert (.deposit d))) Q R a := by
  have hrefused {w : State} {r : Except Exc Unit} (hat : a.At i ref w)
      (hl : Duplicated i ref w (.call i (.write (.insert (.deposit d))) r))
      (hverdict : State.verdict w i (.insert (.deposit d)) = some r) :
      ∃ e, r = .error e ∧ DepositRefused q e := by
    have hview : view w i = w.shared.db := by
      rw [view, hat.sess, hwrites, Database.applyAll_nil]
    have htaken : .depositExternalReference d.externalReference ∈ (view w i).keys := by
      rw [hview, hd.externalReference, href, Database.mem_depositKeys]
      exact hl.2 rfl
    rcases verdict_of_taken (by simp [Row.keys]) htaken hverdict with
      ⟨hmisfit, rfl⟩ | ⟨-, k, hk, rfl⟩ | ⟨hfits, hnone, k, hk, hktaken, rfl⟩
    · refine ⟨_, rfl, .misfit fun hq => ?_⟩
      rw [(hd.storable_iff.mp hq).1] at hmisfit
      cases hmisfit
    · refine ⟨_, rfl, .check (fun hq => ?_) (depositCheck_mentions hk)⟩
      rw [(hd.storable_iff.mp hq).2] at hk
      cases hk
    · -- the identifier is new, so it is the reference that is taken
      simp only [Row.keys, List.mem_cons, List.not_mem_nil, or_false] at hk
      rcases hk with rfl | rfl
      · rw [hview] at hktaken
        obtain ⟨d', hd', hid'⟩ := deposit_of_pkey hktaken
        refine absurd ?_ (hat.fresh d.id (hat.sess ▸ hid))
        simp only [Database.names, List.mem_append]
        exact .inr (.inr (.inl (List.mem_map.mpr ⟨d', hd', hid'⟩)))
      · exact ⟨_, rfl, .taken (hd.storable_iff.mpr ⟨hfits, hnone⟩)⟩
  refine repeating_perform (o := .write (.insert (.deposit d))) trivial
    (fun w x hat hends hl => ?_) fun w e hat hends hl hserver => ?_
  · rcases ends_write hends with hverdict | heq
    · obtain ⟨e, heq, -⟩ := hrefused hat hl hverdict
      cases heq
    · cases heq
  · rcases ends_write hends with hverdict | heq
    · obtain ⟨e', heq, he⟩ := hrefused hat hl hverdict
      cases heq
      have haborted := afterWrite_error (.insert (.deposit d)) (σ := a.σ) hserver
      have hafter : a.after (.write (.insert (.deposit d))) (.error e) =
          { a with σ := a.σ.aborted, ended := true } := by
        rw [← haborted]
        rfl
      rw [hafter]
      exact h e he
    · cases heq
      exact absurd (.inl rfl) hserver

/-- The insert of a duplicate: if its parameters are storable it finds the deposit that is there,
and otherwise it raises. -/
theorem repeating_insertDeposit {d : Deposit Decimal} (hd : q.Makes d)
    (href : q.externalReference = ref) (hid : d.id ∈ a.σ.drawn) (hwrites : a.σ.writes = []) :
    Repeating sha256 i ref (insertDeposit q d)
      (fun existing a' => q.Storable ∧
        ∃ row, existing = some row ∧ a'.found = some row ∧ row.externalReference = ref)
      (fun _ _ => ¬ q.Storable) a := by
  refine (Contract.wp_tryCatch _ _ _ _).mpr ((Contract.wp_bind _ _ _ _).mpr ?_)
  refine repeating_write hd href hid hwrites fun e he => ?_
  have hrollback {Q : Unit → Duplicate → Prop} {R : Exc → Duplicate → Prop} {a : Duplicate}
      (h : Q () { a with σ := a.σ.ended }) : Repeating sha256 i ref rollback Q R a := by
    refine repeating_perform (o := .rollback) trivial (fun _ _ _ _ _ => h)
      fun w e _ hends _ hserver => ?_
    obtain ⟨choice, hends⟩ := hends
    rcases Choice.server_eq_some hends with heq | heq
    · cases heq
    · cases heq
      exact absurd (.inl rfl) hserver
  cases he with
  | misfit hq => exact (Contract.wp_throw _ _ _).mpr hq
  | check hq hmentions =>
      refine (Contract.wp_bind _ _ _ _).mpr (hrollback ?_)
      rw [hmentions]
      exact (Contract.wp_throw _ _ _).mpr hq
  | taken hq =>
      refine (Contract.wp_bind _ _ _ _).mpr (hrollback ?_)
      rw [show Constraint.depositExternalReference.mentions "external_reference" = true by decide]
      refine (Contract.wp_bind _ _ _ _).mpr ?_
      refine repeating_perform (o := .select (.depositByReference q.externalReference)) trivial
        (fun w x hat hends _ => ?_) fun w e _ hends _ hserver => ?_
      · -- the look-up finds a deposit, as one has been committed
        have hview : view w i = w.shared.db := by
          rw [view, hat.sess]
          exact Database.applyAll_nil _
        obtain ⟨d', hd', href'⟩ := hat.ended rfl
        have hsome : (w.shared.db.depositByReference q.externalReference).isSome :=
          List.find?_isSome.mpr ⟨d', hd', decide_eq_true (href'.trans href.symm)⟩
        obtain ⟨row, hrow⟩ := Option.isSome_iff_exists.mp hsome
        rcases ends_select hends with heq | heq
        · rw [hview] at heq
          obtain rfl : x = some row := (Except.ok.inj heq).trans hrow
          refine (Contract.wp_pure _ _ _).mpr ⟨hq, row, rfl, rfl, ?_⟩
          exact (of_decide_eq_true (List.find?_some
            (p := fun d : Deposit Ticks => decide (d.externalReference = _)) hrow)).trans href
        · cases heq
      · rcases ends_select hends with heq | heq
        · cases heq
        · cases heq
          exact absurd (.inl rfl) hserver

/-- A duplicate, from its start. -/
theorem repeating_simulateDeposit (href : q.externalReference = ref) :
    Repeating sha256 i ref (simulateDeposit q)
      (fun r a => q.Storable ∧ ∃ row, a.found = some row ∧ row.externalReference = ref ∧
        r = depositToResponse row.loaded)
      (fun _ _ => ¬ q.Storable) { σ := {} } := by
  refine (Contract.wp_bind _ _ _ _).mpr (repeating_perform (o := .now) trivial
    (fun _ at_ _ _ _ => ?_) fun w e _ hends _ _ => (nomatch ends_now hends))
  refine (Contract.wp_bind _ _ _ _).mpr (repeating_perform (o := .uuid4) trivial
    (fun _ id _ _ _ => ?_) fun w e _ hends _ _ => ?_)
  · refine (Contract.wp_bind _ _ _ _).mpr (Contract.wp_mono _ _ (fun existing a' hfound => ?_)
      (fun _ _ hq => hq) (repeating_insertDeposit (q.makes_pending id at_) href ?_ rfl))
    · obtain ⟨hq, row, rfl, hfound, hrow⟩ := hfound
      exact (Contract.wp_pure _ _ _).mpr ⟨hq, row, hfound, hrow, rfl⟩
    · exact List.mem_cons_self ..
  · obtain ⟨id, -, heq⟩ := ends_uuid4 hends
    cases heq

end Request

/-! ## The result -/

/-- The outcome of a webhook is the state of the deposit that carries its reference. -/
def ReturnsDeposit (db : Database) (ref : String) (out : Except Exc Response) : Prop :=
  ∃ row ∈ db.deposits, row.externalReference = ref ∧
    out = .ok (.deposit (depositToResponse row.loaded))

/-- How a duplicate ends. -/
def Duplicate.Ends (q : DepositRequest) (out : Except Exc Response) (a : Duplicate) : Prop :=
  match out with
  | .ok r => q.Storable ∧ ∃ row, a.found = some row ∧
      row.externalReference = q.externalReference ∧ r = .deposit (depositToResponse row.loaded)
  | .error _ => ¬ q.Storable

/-- In every run every deposit has an outcome that its columns and its legs agree with. A webhook
whose insert ends after a deposit with its reference has been committed changes nothing and does not
get stuck, whatever the other processes do, and when it ends it has returned the state of that
deposit exactly if its own parameters are storable. -/
theorem deposit_state_machine {c₀ : Wallet} (h : Reaches sha256 c₀) :
    (∀ d ∈ c₀.shared.db.deposits, d.Accounted c₀.shared.db) ∧
      ∀ (q : DepositRequest) (c : Wallet),
        (wallet sha256).Run (Duplicated c₀.size q.externalReference)
            (spawned c₀ ((Request.simulateDeposit q).program sha256)) c →
          (wallet sha256).Run (Harmless c₀.size)
              (spawned c₀ ((Request.simulateDeposit q).program sha256)) c ∧
            Proceeds c c₀.size ∧
            ∀ out, Wallet.outcome? c c₀.size = some out →
              (ReturnsDeposit c.shared.db q.externalReference out ↔ q.Storable) := by
  obtain ⟨t₀, h₀⟩ := id h
  refine ⟨deposits_accounted h₀, fun q c hrun => ?_⟩
  -- the webhook is one more process, which has done nothing yet
  have hfresh₀ := h₀.fresh (fresh_initial _)
  have hspawn : (wallet sha256).Step c₀ .spawn
      (spawned c₀ ((Request.simulateDeposit q).program sha256)) := .spawn ⟨_, rfl⟩
  have hspawned : Reaches sha256 (spawned c₀ ((Request.simulateDeposit q).program sha256)) :=
    ⟨t₀, h₀.step trivial hspawn⟩
  have hidle : c₀.sess c₀.size = {} := hfresh₀.sess_idle _ le_rfl
  have hat : Duplicate.At c₀.size q.externalReference { σ := {} }
      (spawned c₀ ((Request.simulateDeposit q).program sha256)).toWorld :=
    { sess := hidle
      ended := fun hended => nomatch hended
      found := fun d hd => nomatch hd
      fresh := fun id hid => by
        rw [show (spawned c₀ ((Request.simulateDeposit q).program sha256)).sess c₀.size = {} from
          hidle] at hid
        cases hid }
  -- alone with the other deposit, its program ends as stated
  have hwp : Repeating sha256 c₀.size q.externalReference
      ((Request.simulateDeposit q).program sha256) (fun r => Duplicate.Ends q (.ok r))
      (fun e => Duplicate.Ends q (.error e)) { σ := {} } := by
    refine (Contract.wp_bind _ _ _ _).mpr (Contract.wp_mono _ _ (fun r a hr => ?_)
      (fun _ _ hq => hq) (repeating_simulateDeposit rfl))
    obtain ⟨hq, row, hfound, href, rfl⟩ := hr
    exact (Contract.wp_pure _ _ _).mpr ⟨hq, row, hfound, href, rfl⟩
  have hstop : ∀ w, ¬ Duplicated c₀.size q.externalReference w (.stop c₀.size) :=
    fun _ hstop => hstop.1 rfl
  have hpool : (spawned c₀ ((Request.simulateDeposit q).program sha256)).pool c₀.size = some _ :=
    Function.update_self ..
  -- it is followed through the run, whatever the others do
  obtain ⟨p, a, hp, ha, hwp'⟩ := hrun.track
    (fun hrun hl hs hat => hat.advance hspawned hrun hl hs) hstop
      (hfresh₀.step hspawn) hpool hat hwp
  refine ⟨?_, ?_, fun out hout => ?_⟩
  · -- none of its steps changes a table
    refine (hrun.track_guarded (fun hrun hl hs hat => hat.advance hspawned hrun hl hs) hstop
      (hfresh₀.step hspawn) hpool hat hwp).mono ?_
    exact fun w l hl => harmless_of_plain hl.2
  · -- whatever it awaits next can end
    exact proceeds_of_plain hp fun o next heq => by
      subst heq
      exact ((Contract.wp_call _ _).mp hwp').1
  · -- what it has returned is what its program ends with
    rw [Wallet.outcome?, hp] at hout
    have hpost : Duplicate.Ends q out a := Contract.wp_outcome _ _ hwp' hout
    cases out with
    | ok r =>
        obtain ⟨hq, row, hfound, href, rfl⟩ := hpost
        exact iff_of_true ⟨row, ha.found row hfound, href, rfl⟩ hq
    | error e =>
        refine iff_of_false ?_ hpost
        rintro ⟨row, -, -, heq⟩
        cases heq

/-- A deposit of 10 dollars. -/
def announcedSchedule : Schedule :=
  seededSchedule ++ [.spawn (.request (.simulateDeposit (paymentOf ⟨false, 10, 0⟩ "USD")))] ++
    steps 2 15

/-- The same webhook again, after the deposit has been committed. -/
theorem deposit_state_machine_same : ∃ c₀ c, Reaches Sha256.hexdigest c₀ ∧
    (∃ d ∈ c₀.shared.db.deposits, d.Accounted c₀.shared.db) ∧
      ∃ out, Wallet.outcome? c c₀.size = some out ∧ ReturnsDeposit c.shared.db "rail" out := by
  obtain ⟨c₀, c, hc₀, hrun, hsome, hended⟩ := followed_of_played
    (fun i => Duplicated i "rail")
    (.simulateDeposit (paymentOf ⟨false, 10, 0⟩ "USD"))
    (P := fun c₀ c => c₀.shared.db.deposits ≠ [] ∧ (Wallet.outcome? c c₀.size).isSome)
    (show (played anyStep announcedSchedule).any
      (fun c₀ => (play (Duplicated c₀.size "rail") (player Sha256.hexdigest) _ (steps 3 5)).any _) =
        true by decide +kernel)
  obtain ⟨haccounted, hduplicate⟩ := deposit_state_machine hc₀
  obtain ⟨d, hd⟩ := List.exists_mem_of_ne_nil _ hsome
  obtain ⟨out, hout⟩ := Option.isSome_iff_exists.mp hended
  obtain ⟨-, -, hreturns⟩ := hduplicate (paymentOf ⟨false, 10, 0⟩ "USD") c hrun
  exact ⟨c₀, c, hc₀, ⟨d, hd, haccounted d hd⟩, out, hout, (hreturns out hout).mpr
    ⟨by decide +kernel, by decide +kernel, by decide +kernel, by decide +kernel, by decide +kernel⟩⟩

/-- The same webhook again, with a currency whose name is too long, does not return the state of the
deposit. -/
theorem duplicate_refused : ¬ ∀ c₀, Reaches Sha256.hexdigest c₀ →
    ∀ (q : DepositRequest) (c : Wallet),
    (wallet Sha256.hexdigest).Run (Duplicated c₀.size q.externalReference)
        (spawned c₀ ((Request.simulateDeposit q).program Sha256.hexdigest)) c →
      ∀ out, Wallet.outcome? c c₀.size = some out →
        ReturnsDeposit c.shared.db q.externalReference out := by
  intro hclaim
  obtain ⟨c₀, c, hc₀, hrun, hraises⟩ := followed_of_played
    (fun i => Duplicated i "rail") (.simulateDeposit (paymentOf ⟨false, 10, 0⟩ "EURO"))
    (P := fun c₀ c => Wallet.Raises c c₀.size .dataError)
    (show (played anyStep announcedSchedule).any
      (fun c₀ => (play (Duplicated c₀.size "rail") (player Sha256.hexdigest) _ (steps 3 3)).any _) =
        true by decide +kernel)
  have hout : Wallet.outcome? c c₀.size = some (.error .dataError) := outcome_of_raises hraises
  obtain ⟨row, -, -, heq⟩ := hclaim c₀ hc₀ (paymentOf ⟨false, 10, 0⟩ "EURO") c hrun _ hout
  cases heq

end MiniWallet
