import MiniWallet.Ledger.Envelopes
import MiniWallet.Safety.DepositReplay
import MiniWallet.Safety.Settlement

/-!
# Whose records are shown

A request is made on behalf of an account, and the record that the response describes should be one
to which this account is a party. The getters check it. A transfer and a withdrawal can also answer
with a record that is there already: what Redis holds is compared by the hash of the request, and so
is a transfer that is found by its key, but a withdrawal that is found by its key is not compared
with anything.

* `Response.ShownTo`: the response describes a record to which an account is a party.
* `Reader`: what is known of a process that follows a request: its session, and the records that its
  queries have found.
* `responses_isolated`: an account is shown its own records only, as long as it does not look up the
  key of another account's withdrawal.
* `withdrawal_shown_to_other`: otherwise it may be shown that withdrawal.
-/

namespace MiniWallet

open Numeric Process System State Program

variable {sha256 : String → String} {t₀ : Time}

/-! ## Records and their parties -/

/-- The account on whose behalf a request is made. -/
def Request.onBehalfOf : Request → Option UUID
  | .transfer q => some q.fromAccountId
  | .createWithdrawal q => some q.accountId
  | .getTransfer _ account | .getDeposit _ account | .getWithdrawal _ account => some account
  | .openAccount _ | .seed _ | .simulateDeposit _ | .recoverStuckWithdrawals _ => none

/-- The response describes a record of the tables, whose parties are listed. A withdrawal may since
have gone on in its saga. -/
inductive Response.Describes (db : Database) : Response → List UUID → Prop
  | transfer {t : Transfer Decimal} : t.stored ∈ db.transfers →
      Describes db (.transfer (transferToResponse t)) [t.fromAccountId, t.toAccountId]
  | withdrawal {w : Withdrawal Decimal} {row : Withdrawal Ticks} : row ∈ db.withdrawals →
      w.stored.asCreated = row.asCreated →
      Describes db (.withdrawal (withdrawalToResponse w)) [row.accountId]
  | deposit {d : Deposit Decimal} : d.stored ∈ db.deposits →
      Describes db (.deposit (depositToResponse d)) [d.accountId]

/-- The response describes a record to which the account is a party. -/
def Response.ShownTo (response : Response) (account : UUID) (db : Database) : Prop :=
  ∃ parties, response.Describes db parties ∧ account ∈ parties

/-- A withdrawal stays described while it goes on in its saga. -/
theorem describes_withdrawal {db db' : Database} {w : Withdrawal Decimal} {row : Withdrawal Ticks}
    (hpersists : Persists db db') (hrow : row ∈ db.withdrawals)
    (hsame : w.stored.asCreated = row.asCreated) :
    Response.Describes db' (.withdrawal (withdrawalToResponse w)) [row.accountId] := by
  obtain ⟨row', hrow', hsame'⟩ := hpersists.withdrawals row hrow
  have haccount : row'.accountId = row.accountId := (Withdrawal.columns_of_asCreated hsame').1
  rw [← haccount]
  exact .withdrawal hrow' (hsame.trans hsame'.symm)

/-- A record stays described while nothing is removed. -/
theorem Response.Describes.mono {db db' : Database} {response : Response} {parties : List UUID}
    (h : response.Describes db parties) (hpersists : Persists db db')
    (hdeposits : ∀ d ∈ db.deposits, d ∈ db'.deposits) : response.Describes db' parties := by
  cases h with
  | transfer ht => exact .transfer (hpersists.transfers _ ht)
  | withdrawal hrow hsame => exact describes_withdrawal hpersists hrow hsame
  | deposit hd => exact .deposit (hdeposits _ hd)

/-! ## Hashed texts -/

/-- The text by whose hash a request is compared with what is there already. -/
def Request.text? : Request → Option String
  | .transfer q => some (transferFingerprint q.fromAccountId q.toAccountId q.amount)
  | .createWithdrawal q => some (withdrawalFingerprint q.accountId q.amount q.currency
      q.destinationType q.destinationDetails)
  | _ => none

/-- The texts by whose hashes an object is compared with a request. A transfer is hashed as it was
inserted or as it is loaded again. -/
def Row.texts : Row Decimal → List String
  | .transfer t =>
      [transferFingerprint t.fromAccountId t.toAccountId t.amount,
        transferFingerprint t.fromAccountId t.toAccountId t.stored.loaded.amount]
  | .withdrawal w =>
      [withdrawalFingerprint w.accountId w.amount w.currency w.destinationType w.destinationDetails]
  | _ => []

/-- No text of an object has the hash of the request, unless it is the text of the request. -/
def Request.Distinguished (sha256 : String → String) (request : Request)
    (history : List (Row Decimal)) : Prop :=
  ∀ text ∈ request.text?, ∀ row ∈ history, ∀ s ∈ row.texts, sha256 s = sha256 text → s = text

/-- Whether the hash of a request is that of its own text only is decidable. -/
instance (request : Request) (history : List (Row Decimal)) :
    Decidable (request.Distinguished sha256 history) := by
  unfold Request.Distinguished
  infer_instance

/-- A text begins with the account of the request. -/
def Concerns (text : String) (account : UUID) : Prop := ∃ rest, text = account.str ++ rest

/-- The text of a transfer begins with the account that pays. -/
theorem concerns_transferFingerprint (source target : UUID) (amount : Decimal) :
    Concerns (transferFingerprint source target amount) source := by
  refine ⟨":" ++ target.str ++ ":" ++ money amount, ?_⟩
  simp only [transferFingerprint, String.append_assoc]

/-- The text of a withdrawal begins with its account. -/
theorem concerns_withdrawalFingerprint (account : UUID) (amount : Decimal)
    (currency destinationType : String) (destinationDetails : Json) :
    Concerns (withdrawalFingerprint account amount currency destinationType destinationDetails)
      account := by
  refine ⟨":" ++ amount.str ++ ":" ++ currency ++ ":" ++ destinationType ++ ":" ++
    destinationDetails.dumps, ?_⟩
  simp only [withdrawalFingerprint, String.append_assoc]

/-- The text of a request is about one account. -/
theorem Concerns.unique {text : String} {a b : UUID} (ha : Concerns text a) (hb : Concerns text b) :
    a = b := by
  obtain ⟨rest, rfl⟩ := ha
  obtain ⟨rest', heq⟩ := hb
  have hchars := congrArg String.toList heq
  rw [String.toList_append, String.toList_append] at hchars
  have hlength : a.str.toList.length = b.str.toList.length := by
    rw [String.length_toList, String.length_toList, length_uuid, length_uuid]
  exact UUID.str_injective (String.toList_injective (List.append_inj hchars hlength).1)

/-- The text of a request is about the account on whose behalf it is made. -/
theorem Request.concerns {request : Request} {account : UUID} {text : String}
    (haccount : request.onBehalfOf = some account) (htext : request.text? = some text) :
    Concerns text account := by
  cases request with
  | transfer q =>
      obtain rfl := Option.some.inj haccount
      obtain rfl := Option.some.inj htext
      exact concerns_transferFingerprint _ _ _
  | createWithdrawal q =>
      obtain rfl := Option.some.inj haccount
      obtain rfl := Option.some.inj htext
      exact concerns_withdrawalFingerprint _ _ _ _ _
  | _ => cases htext

/-! ## Entries of Redis -/

/-- The response in an entry of Redis. -/
def CachedResponse.response : CachedResponse → Response
  | .transfer r => .transfer r
  | .withdrawal r => .withdrawal r

/-- What Redis can hold is never about a deposit, so it stays described while nothing is removed. -/
theorem CachedResponse.describes_mono {db db' : Database} {cached : CachedResponse}
    {parties : List UUID} (h : cached.response.Describes db parties) (hpersists : Persists db db') :
    cached.response.Describes db' parties := by
  generalize hresponse : cached.response = response at h ⊢
  cases h with
  | transfer ht => exact .transfer (hpersists.transfers _ ht)
  | withdrawal hrow hsame => exact describes_withdrawal hpersists hrow hsame
  | deposit _ => cases cached <;> cases hresponse

/-- An entry of Redis has the hash of a text of an object, and its response describes the record of
an account that the text is about. -/
inductive Recalls (sha256 : String → String) (db : Database) (history : List (Row Decimal))
    (entry : CacheEntry) : Prop
  | intro {row : Row Decimal} {text : String} {account : UUID} {parties : List UUID} :
      row ∈ history → text ∈ row.texts → entry.requestHash = sha256 text → Concerns text account →
      entry.response.response.Describes db (account :: parties) → Recalls sha256 db history entry

/-- An entry keeps describing what it describes. -/
theorem Recalls.mono {db db' : Database} {history history' : List (Row Decimal)}
    {entry : CacheEntry}
    (h : Recalls sha256 db history entry) (hpersists : Persists db db')
    (hhistory : ∀ r ∈ history, r ∈ history') : Recalls sha256 db' history' entry := by
  obtain ⟨hrow, htext, hhash, hconcerns, hdescribes⟩ := h
  exact .intro (hhistory _ hrow) htext hhash hconcerns
    (CachedResponse.describes_mono hdescribes hpersists)

/-- What a process may put into Redis recalls an object. -/
theorem Cacheable.recalls {c : Wallet} {ok : State → Event → Prop} {i : ℕ} {key : String}
    {entry : CacheEntry} (h : WalletRun sha256 t₀ ok c)
    (hcacheable : Cacheable sha256 (c.sess i) key entry) :
    Recalls sha256 c.shared.db c.shared.history entry := by
  obtain ⟨hcommitted, hseen⟩ := known_to_session h i
  cases hcacheable with
  | @transferred t ht hstatus =>
      -- the transfer that the process has committed itself
      have hmem := hcommitted _ ht
      exact .intro hmem (List.mem_cons_self ..) rfl (concerns_transferFingerprint _ _ _)
        (.transfer ((recorded h).transfer_stored t hmem))
  | @replayed t ht hstatus =>
      -- the transfer that it has found under the key, as it is stored
      obtain ⟨t', hmem, rfl⟩ := (recorded h).transfer_origin t (hseen t ht)
      refine .intro hmem (List.mem_cons_of_mem _ (List.mem_cons_self ..)) rfl
        (concerns_transferFingerprint _ _ _) (.transfer (t := t'.stored.loaded) ?_)
      simpa [Transfer.map] using hseen _ ht
  | @reserved w hw =>
      -- the withdrawal that it has reserved, whatever has become of it since
      have hmem := hcommitted _ hw
      obtain ⟨row, hrow, hsame⟩ := (recorded h).withdrawal_stored w hmem
      have haccount : row.accountId = w.accountId := (Withdrawal.columns_of_asCreated hsame).1
      have hdescribes : Response.Describes c.shared.db (.withdrawal (withdrawalToResponse w))
          [w.accountId] := by
        rw [← haccount]
        exact .withdrawal hrow hsame.symm
      exact .intro hmem (List.mem_cons_self ..) rfl (concerns_withdrawalFingerprint _ _ _ _ _)
        hdescribes

/-- In every run what Redis holds recalls an object. -/
theorem recalls {c : Wallet} {ok : State → Event → Prop} (h : WalletRun sha256 t₀ ok c)
    {key : String}
    {entry : CacheEntry} (hentry : c.shared.redis key = some entry) :
    Recalls sha256 c.shared.db c.shared.history entry :=
  redis_invariant (P := fun db history _ entry => Recalls sha256 db history entry)
    (fun hrecalls hpersists hhistory => hrecalls.mono hpersists hhistory)
    (fun hrun hcacheable => hcacheable.recalls hrun) h hentry

/-! ## What a process has found -/

/-- The records that the answer of a query shows, with their parties. -/
def shown : (o : Op) → Except Exc o.Out → List (Response × List UUID)
  | .select (.withdrawalByKey _), .ok (row : Option (Withdrawal Ticks))
  | .select (.withdrawalById _), .ok (row : Option (Withdrawal Ticks)) =>
      row.toList.map fun w => (.withdrawal (withdrawalToResponse w.loaded), [w.accountId])
  | .select (.transferById _), .ok (row : Option (Transfer Ticks)) =>
      row.toList.map fun t =>
        (.transfer (transferToResponse t.loaded), [t.fromAccountId, t.toAccountId])
  | .select (.depositById _), .ok (row : Option (Deposit Ticks)) =>
      row.toList.map fun d => (.deposit (depositToResponse d.loaded), [d.accountId])
  | _, _ => []

/-- What is known of a process. -/
structure Reader where
  /-- Its session. -/
  sess : Session
  /-- The records that it has found, with their parties. -/
  found : List (Response × List UUID) := []

/-- The process after one of its operations. Queries in a transaction that has written something may
find what is not committed. -/
def Reader.step (o : Op) (r : Except Exc o.Out) (x : Reader) : Reader where
  sess := after o r x.sess
  found := if x.sess.writes.isEmpty then shown o r ++ x.found else x.found

/-- What is known of process `i` is true in the state. -/
structure Reader.At (sha256 : String → String) (t₀ : Time) (i : ℕ) (x : Reader) (w : State) :
    Prop where
  reached : ∃ c, WalletRun sha256 t₀ anyStep c ∧ c.toWorld = w
  sess : w.sess i = x.sess
  /-- What it has read in Redis recalls an object. -/
  cached : ∀ entry, x.sess.cacheRead = some (some entry) →
    Recalls sha256 w.shared.db w.shared.history entry
  /-- The records that it has found are in the tables. -/
  found : ∀ p ∈ x.found, p.1.Describes w.shared.db p.2

/-- The records that a query shows are in the tables, if the transaction has not written
anything. -/
theorem describes_of_shown {w : State} {i : ℕ} {o : Op} {r : Except Exc o.Out} (h : Ends w i o r)
    (hwrites : (w.sess i).writes = []) :
    ∀ p ∈ shown o r, p.1.Describes w.shared.db p.2 := by
  have hview : view w i = w.shared.db := by rw [view, hwrites, Database.applyAll_nil]
  -- only queries show records
  cases o with
  | select q =>
      rcases ends_select h with rfl | rfl
      · rw [hview]
        -- each query shows the record that it finds, with the parties of it
        cases q with
        | withdrawalByKey key =>
            intro p hp
            obtain ⟨row, hrow, rfl⟩ := List.mem_map.mp hp
            have hmem := List.mem_of_find?_eq_some (Option.mem_toList.mp hrow)
            exact .withdrawal (w := row.loaded) hmem (by simp [Withdrawal.map])
        | withdrawalById id =>
            intro p hp
            obtain ⟨row, hrow, rfl⟩ := List.mem_map.mp hp
            have hmem := List.mem_of_find?_eq_some (Option.mem_toList.mp hrow)
            exact .withdrawal (w := row.loaded) hmem (by simp [Withdrawal.map])
        | transferById id =>
            intro p hp
            obtain ⟨row, hrow, rfl⟩ := List.mem_map.mp hp
            have hmem := List.mem_of_find?_eq_some (Option.mem_toList.mp hrow)
            exact .transfer (t := row.loaded) (by simpa [Transfer.map] using hmem)
        | depositById id =>
            intro p hp
            obtain ⟨row, hrow, rfl⟩ := List.mem_map.mp hp
            have hmem := List.mem_of_find?_eq_some (Option.mem_toList.mp hrow)
            exact .deposit (d := row.loaded) (by simpa [Deposit.map] using hmem)
        | _ => rintro p ⟨⟩
      · cases q <;> rintro p ⟨⟩
  | _ => rintro p ⟨⟩

/-- The sessions agree in the last answer of Redis and in what they have committed. -/
def Session.Recollects (σ σ' : Session) : Prop :=
  σ'.cacheRead = σ.cacheRead ∧ σ'.committed = σ.committed

/-- A session that has read something knows what it knew. -/
theorem Session.recollects_learn (σ : Session) (q : Query) (x : q.Result) :
    σ.Recollects (σ.learn q x) := by
  cases q with
  | balance _ | transferByKey _ =>
      simp only [Session.learn]
      split <;> exact ⟨rfl, rfl⟩
  | _ => exact ⟨rfl, rfl⟩

/-- So does one that has read a withdrawal under its lock. -/
theorem Session.recollects_readAgain (σ : Session) (row : Withdrawal Ticks) :
    σ.Recollects (σ.readAgain row) := by
  unfold Session.readAgain
  split <;> exact ⟨rfl, rfl⟩

/-- So does one that has written. -/
theorem Session.recollects_afterWrite (σ : Session) (wr : Write) (r : Except Exc Unit) :
    σ.Recollects (σ.afterWrite wr r) := by
  unfold Session.afterWrite
  split
  · cases wr <;> exact ⟨rfl, rfl⟩
  · exact ⟨rfl, rfl⟩
  · exact ⟨rfl, rfl⟩

/-- Only a look-up in Redis and a commit change them. -/
theorem Session.recollects_after {o : Op} (hget : ∀ key, o ≠ .cacheGet key) (hcommit : o ≠ .commit)
    (r : Except Exc o.Out) (σ : Session) : σ.Recollects (after o r σ) := by
  cases o with
  | cacheGet key => exact absurd rfl (hget key)
  | commit => exact absurd rfl hcommit
  | write wr => exact σ.recollects_afterWrite wr r
  | cacheSet | breaker | rollback | queryStatus => exact ⟨rfl, rfl⟩
  -- a query remembers rows, not answers
  | select q =>
      cases r with
      | ok x => exact σ.recollects_learn q x
      | error e => exact ⟨rfl, rfl⟩
  | lockAccount id =>
      cases r with
      | ok a => cases a <;> exact ⟨rfl, rfl⟩
      | error e => exact ⟨rfl, rfl⟩
  -- rereading a row is not an answer either
  | lockWithdrawal id =>
      cases r with
      | ok row =>
          cases row with
          | none => exact ⟨rfl, rfl⟩
          | some row => exact σ.recollects_readAgain row
      | error e => exact ⟨rfl, rfl⟩
  | now | uuid4 | claimStuck | sendWithdrawal => cases r <;> exact ⟨rfl, rfl⟩

/-- What a process has committed stays on its list. -/
theorem committed_after {o : Op} {r : Except Exc o.Out} {σ : Session} {row : Row Decimal}
    (h : row ∈ σ.committed) : row ∈ (after o r σ).committed := by
  by_cases hget : ∃ key, o = .cacheGet key
  · obtain ⟨key, rfl⟩ := hget
    cases r <;> exact h
  by_cases hcommit : o = .commit
  · subst hcommit
    cases r with
    | ok u => exact List.mem_append_right _ h
    | error e => exact h
  · rw [(Session.recollects_after (fun key heq => hget ⟨key, heq⟩) hcommit r σ).2]
    exact h

/-- The last answer of Redis after an operation is the last one before it, or recalls an object. -/
theorem cacheRead_after {c : Wallet} {ok : State → Event → Prop} (h : WalletRun sha256 t₀ ok c)
    {i : ℕ}
    {o : Op} {r : Except Exc o.Out} (hends : Ends c.toWorld i o r) {entry : CacheEntry}
    (hread : (after o r (c.sess i)).cacheRead = some (some entry)) :
    (c.sess i).cacheRead = some (some entry) ∨
      Recalls sha256 c.shared.db c.shared.history entry := by
  by_cases hget : ∃ key, o = .cacheGet key
  · obtain ⟨key, rfl⟩ := hget
    rcases ends_cacheGet hends with rfl | rfl
    · exact .inr (recalls h (Option.some.inj hread))
    · exact .inl hread
  by_cases hcommit : o = .commit
  · subst hcommit
    cases r <;> exact .inl hread
  · rw [(Session.recollects_after (fun key heq => hget ⟨key, heq⟩) hcommit r _).1] at hread
    exact .inl hread

/-- A step of a run keeps what is there. -/
theorem grows_of_step {c c' : Wallet} {l : Event} (h : WalletRun sha256 t₀ anyStep c)
    (hs : (wallet sha256).Step c l c') :
    Persists c.shared.db c'.shared.db ∧ ∀ r ∈ c.shared.history, r ∈ c'.shared.history := by
  cases hs with
  | spawn _ | stop _ => exact ⟨.refl _, fun _ hr => hr⟩
  | call hp hr => exact (WalletStep.of_call (h.call (abides sha256 t₀) hp hr trivial)).grows
  | env he =>
      obtain ⟨clock, redis, rfl, -⟩ := he
      exact ⟨.refl _, fun _ hr => hr⟩

/-- What is known of a process that is not stopped stays true, and so does what it finds. -/
theorem Reader.At.next {c c' : Wallet} {l : Event} {i : ℕ} {x : Reader}
    (h : WalletRun sha256 t₀ anyStep c) (hl : l ≠ .stop i) (hs : (wallet sha256).Step c l c')
    (hx : x.At sha256 t₀ i c.toWorld) : (l.advance i Reader.step x).At sha256 t₀ i c'.toWorld := by
  have hnext := h.step trivial hs
  obtain ⟨hpersists, hhistory⟩ := grows_of_step h hs
  have hdeposits := deposits_persist h (.step .refl trivial hs)
  have hcached : ∀ entry, x.sess.cacheRead = some (some entry) →
      Recalls sha256 c'.shared.db c'.shared.history entry :=
    fun entry hread => (hx.cached entry hread).mono hpersists hhistory
  have hfound : ∀ p ∈ x.found, p.1.Describes c'.shared.db p.2 :=
    fun p hp => (hx.found p hp).mono hpersists hdeposits
  -- the steps of the others leave what is known as it is
  have hother (hsess : c'.sess i = c.sess i) : x.At sha256 t₀ i c'.toWorld :=
    { reached := ⟨c', hnext, rfl⟩
      sess := hsess.trans hx.sess
      cached := hcached
      found := hfound }
  cases hs with
  | spawn _ | env _ => exact hother rfl
  | @stop j p hj =>
      have hij : i ≠ j := fun heq => hl (congrArg Label.stop heq.symm)
      exact hother (Function.update_of_ne hij _ _)
  | @call j o next r hj hr =>
      by_cases hij : j = i
      · subst hij
        rw [Label.advance_call]
        have hends : Ends c.toWorld j o r := hr
        refine { reached := ⟨_, hnext, rfl⟩, sess := ?_, cached := fun entry hread => ?_,
                 found := fun p hp => ?_ }
        · exact (Function.update_self ..).trans (congrArg (after o r) hx.sess)
        · rw [Reader.step, ← hx.sess] at hread
          rcases cacheRead_after h hends hread with hbefore | hrecalls
          · exact hcached entry (hx.sess ▸ hbefore)
          · exact hrecalls.mono hpersists hhistory
        · simp only [Reader.step] at hp
          split at hp
          · next hempty =>
            rcases List.mem_append.mp hp with hp | hp
            · have hwrites : (c.sess j).writes = [] := by
                rw [hx.sess]
                exact List.isEmpty_iff.mp hempty
              exact (describes_of_shown hends hwrites p hp).mono hpersists hdeposits
            · exact hfound p hp
          · exact hfound p hp
      · rw [Label.advance_of_ne hij]
        exact hother (Function.update_of_ne (Ne.symm hij) _ _)

/-! ## Programs -/

/-- When process `i` looks a key up in the table of withdrawals, it is not the key of a withdrawal
of another account than `account`. -/
def OwnKey (account : UUID) (i : ℕ) (w : State) : Event → Prop
  | .call j (.select (.withdrawalByKey key)) _ =>
      j = i → ∀ row ∈ w.shared.db.withdrawals, row.idempotencyKey = key → row.accountId = account
  | _ => True

/-- The same, and process `i` is not stopped. -/
def Attended (account : UUID) (i : ℕ) (w : State) (l : Event) : Prop :=
  OwnKey account i w l ∧ l ≠ .stop i

/-- `Reads sha256 t₀ a i p Q x`: the program `p`, run by process `i` of which `x` is known in runs
that are attended, returns in `Q`, if it returns. -/
abbrev Reads (sha256 : String → String) (t₀ : Time) (account : UUID) (i : ℕ) {α : Type}
    (p : Program α) (Q : α → Reader → Prop) (x : Reader) : Prop :=
  ((wallet sha256).alongside (Attended account i) (Reader.At sha256 t₀ i) i fun _ => True).wp
    Reader.step p Q (fun _ _ => True) x

section Rules

variable {account : UUID} {i : ℕ} {α : Type} {x : Reader}

/-- Returning. -/
theorem reads_pure {a : α} {Q : α → Reader → Prop} (h : Q a x) :
    Reads sha256 t₀ account i (pure a : Program α) Q x :=
  (Contract.wp_pure _ _ _).mpr h

/-- Raising. -/
theorem reads_throw (e : Exc) {Q : α → Reader → Prop} :
    Reads sha256 t₀ account i (throw e : Program α) Q x :=
  (Contract.wp_throw _ _ _).mpr trivial

/-- One program after the other. -/
theorem reads_bind {β : Type} {p : Program α} {f : α → Program β} {Q : β → Reader → Prop}
    (h : Reads sha256 t₀ account i p (fun a x' => Reads sha256 t₀ account i (f a) Q x') x) :
    Reads sha256 t₀ account i (p >>= f) Q x :=
  (Contract.wp_bind _ _ _ _).mpr h

/-- Awaiting an operation. -/
theorem reads_perform {o : Op} {Q : o.Out → Reader → Prop}
    (h : ∀ a w, x.At sha256 t₀ i w → Ends w i o (.ok a) → OwnKey account i w (.call i o (.ok a)) →
      Q a (x.step o (.ok a))) :
    Reads sha256 t₀ account i (perform o) Q x :=
  (Contract.wp_perform _ _ o).mpr
    ⟨trivial, fun a ⟨w, hx, hends, hown, _⟩ => h a w hx hends hown, fun _ _ => trivial⟩

/-- What the discipline says about the session of a process. -/
theorem reads_of_follows {p : Program α} {Q : α → Session → Prop} {R : Exc → Session → Prop}
    (h : Follows sha256 p Q R x.sess) :
    Reads sha256 t₀ account i p (fun a x' => Q a x'.sess) x := by
  refine Contract.wp_mono _ _ (fun _ _ ha => ha) (fun _ _ _ => trivial)
    (Contract.wp_lift _ _ (f := Reader.sess) (fun _ _ _ => trivial) ?_ (fun _ _ _ => rfl) h)
  rintro o r y ⟨w, hy, hends, -⟩
  obtain ⟨c, hc, rfl⟩ := hy.reached
  rw [← hy.sess]
  exact expected_of_ends hc hends

/-- What a program returns, whatever its session is. -/
theorem reads_of_yields {p : Program α} {Q : α → Prop} (h : Yields (fun _ => True) p Q) :
    Reads sha256 t₀ account i p (fun a _ => Q a) x := by
  refine Contract.wp_mono _ _ (fun _ _ ha => ha) (fun _ _ _ => trivial)
    (Contract.wp_lift _ _ (f := Reader.sess) (fun _ _ _ => trivial) (fun o r _ _ => ?_)
      (fun _ _ _ => rfl) (h x.sess))
  cases o <;> cases r <;> trivial

/-- What a process has committed stays on record. -/
theorem Reads.committed {p : Program α} {Q : α → Reader → Prop} {row : Row Decimal}
    (h : Reads sha256 t₀ account i p Q x) (hrow : row ∈ x.sess.committed) :
    Reads sha256 t₀ account i p (fun a x' => Q a x' ∧ row ∈ x'.sess.committed) x := by
  refine Contract.wp_mono _ _ (fun _ _ ha => ha) (fun _ _ _ => trivial)
    (Contract.wp_with _ _ (I := fun x : Reader => row ∈ x.sess.committed) ?_ h hrow)
  exact fun o r y _ hy => committed_after hy

end Rules

/-- Where the response to a request of the account comes from. -/
inductive Sourced (sha256 : String → String) (request : Request) (account : UUID) (x : Reader) :
    Response → Prop
  /-- From Redis, where it has the hash of the request. -/
  | cached {text : String} {entry : CacheEntry} : request.text? = some text →
      x.sess.cacheRead = some (some entry) → entry.requestHash = sha256 text →
      Sourced sha256 request account x entry.response.response
  /-- From what may be put into Redis, with the hash of the request. -/
  | cacheable {text key : String} {entry : CacheEntry} : request.text? = some text →
      Cacheable sha256 x.sess key entry → entry.requestHash = sha256 text →
      Sourced sha256 request account x entry.response.response
  /-- From a record that was found, and to which the account is a party. -/
  | found {response : Response} {parties : List UUID} : (response, parties) ∈ x.found →
      account ∈ parties → Sourced sha256 request account x response
  /-- From a withdrawal of the account that the process has made, and its updates. -/
  | made {w : Withdrawal Decimal} (sets : List WithdrawalSet) : .withdrawal w ∈ x.sess.committed →
      w.accountId = account → Sourced sha256 request account x
        (.withdrawal (withdrawalToResponse (sets.foldl (fun w set => set.apply w) w)))

section Programs

variable {account : UUID} {i : ℕ} {x : Reader}

/-- A transfer answers with what Redis holds or may hold under the hash of the request. -/
theorem follows_transfer (q : TransferRequest) {σ : Session} (hw : σ.writes = []) :
    Follows sha256 (transfer sha256 q)
      (fun r σ' => (∃ entry, σ'.cacheRead = some (some entry) ∧ entry.requestHash = q.hash sha256 ∧
          entry.response = .transfer r) ∨
        Cacheable sha256 σ' (transferCacheKey q.idempotencyKey)
          { requestHash := q.hash sha256, response := .transfer r }) (fun _ _ => True) σ := by
  simp only [transfer, Contract.wp_bind, follows_cacheGet, implies_true, and_true]
  intro entry
  cases entry with
  | some cached =>
      dsimp only
      -- the entry belongs to another request, or its response is returned
      split
      · simp
      · next hhash =>
        unfold CacheEntry.transferResponse
        split
        · next r hresponse =>
          exact (Contract.wp_pure _ _ _).mpr (.inl ⟨cached, rfl, not_not.mp hhash, hresponse⟩)
        · simp
  | none =>
      simp only [Contract.wp_bind, follows_cacheSet, implies_true, and_true, Contract.wp_pure]
      refine Contract.wp_tryCatch_of_forall _ _ ?_ fun e σ' => ?_
      · -- the attempt has made the transfer
        exact Contract.wp_mono _ _ (fun t σ' ht => ⟨ht, .inr ht⟩) (fun _ _ h => h)
          (follows_attemptTransfer q hw)
      · -- the handler of the unique key has found it
        exact Contract.wp_mono _ _ (fun t σ' ht => ⟨ht, .inr ht⟩) (fun _ _ h => h)
          (follows_resolveTransfer q e σ')

/-- What a transfer answers comes from a record of its account. -/
theorem reads_transfer (q : TransferRequest) (hw : x.sess.writes = []) :
    Reads sha256 t₀ account i (transfer sha256 q)
      (fun r x' => Sourced sha256 (.transfer q) account x' (.transfer r)) x := by
  refine Contract.wp_mono _ _ (fun r x' hr => ?_) (fun _ _ _ => trivial)
    (reads_of_follows (follows_transfer q hw))
  rcases hr with ⟨entry, hread, hhash, hresponse⟩ | hcacheable
  · have hr : entry.response.response = .transfer r := congrArg CachedResponse.response hresponse
    rw [← hr]
    exact .cached rfl hread hhash
  · exact Sourced.cacheable rfl hcacheable rfl

/-- A query before the process has written anything shows what it finds. -/
theorem reads_query {q : Query} {Q : q.Result → Reader → Prop} (hw : x.sess.writes = [])
    (h : ∀ a w x', x.At sha256 t₀ i w → a = q.eval w.shared.db →
      OwnKey account i w (.call i (.select q) (.ok a)) →
      x'.found = shown (.select q) (.ok a) ++ x.found → Q a x') :
    Reads sha256 t₀ account i (perform (.select q)) Q x := by
  refine reads_perform fun a w hx hends hown => h a w _ hx ?_ hown ?_
  · have hview : view w i = w.shared.db := by
      rw [view, hx.sess, hw, Database.applyAll_nil]
    rcases ends_select hends with heq | heq
    · rw [← hview]
      exact Except.ok.inj heq
    · cases heq
  · simp only [Reader.step, hw, List.isEmpty_nil, if_true]

/-- The getters show a record only to its parties. -/
theorem reads_getTransfer (id : UUID) (hw : x.sess.writes = []) :
    Reads sha256 t₀ account i (getTransfer id account)
      (fun r x' => Sourced sha256 (.getTransfer id account) account x' (.transfer r)) x := by
  refine reads_bind (reads_query hw fun row w x' _ _ _ hfound => ?_)
  cases row with
  | none => exact reads_throw _
  | some record =>
      dsimp only
      split
      · exact reads_throw _
      · next hparty =>
        have hmem : (.transfer (transferToResponse record.loaded),
            [record.fromAccountId, record.toAccountId]) ∈ x'.found := by
          rw [hfound]
          exact List.mem_append_left _ (List.mem_singleton_self _)
        refine reads_pure (.found hmem ?_)
        rw [not_and_or, not_not, not_not] at hparty
        simpa [eq_comm] using hparty

/-- A deposit is shown to its account only. -/
theorem reads_getDeposit (id : UUID) (hw : x.sess.writes = []) :
    Reads sha256 t₀ account i (getDeposit id account)
      (fun r x' => Sourced sha256 (.getDeposit id account) account x' (.deposit r)) x := by
  refine reads_bind (reads_query hw fun row w x' _ _ _ hfound => ?_)
  cases row with
  | none => exact reads_throw _
  | some deposit =>
      dsimp only
      split
      · exact reads_throw _
      · next hparty =>
        have hmem : (.deposit (depositToResponse deposit.loaded),
            [deposit.accountId]) ∈ x'.found := by
          rw [hfound]
          exact List.mem_append_left _ (List.mem_singleton_self _)
        refine reads_pure (.found hmem ?_)
        rw [not_not.mp hparty]
        exact List.mem_singleton_self _

/-- A withdrawal is shown to its account only. -/
theorem reads_getWithdrawal (id : UUID) (hw : x.sess.writes = []) :
    Reads sha256 t₀ account i (getWithdrawal id account)
      (fun r x' => Sourced sha256 (.getWithdrawal id account) account x' (.withdrawal r)) x := by
  refine reads_bind (reads_query hw fun row w x' _ _ _ hfound => ?_)
  cases row with
  | none => exact reads_throw _
  | some withdrawal =>
      dsimp only
      split
      · exact reads_throw _
      · next hparty =>
        have hmem : (.withdrawal (withdrawalToResponse withdrawal.loaded),
            [withdrawal.accountId]) ∈ x'.found := by
          rw [hfound]
          exact List.mem_append_left _ (List.mem_singleton_self _)
        refine reads_pure (.found hmem ?_)
        rw [not_not.mp hparty]
        exact List.mem_singleton_self _

/-- Inserting the withdrawal, or else finding a withdrawal of the account. -/
theorem reads_insertWithdrawal (q : WithdrawalRequest) (withdrawal : Withdrawal Decimal)
    {Q : Option (Withdrawal Ticks) → Reader → Prop}
    (hnone : ∀ x' : Reader, x'.sess = x.sess.wrote (.insert (.withdrawal withdrawal)) → Q none x')
    (hsome : ∀ (x' : Reader) (existing : Withdrawal Ticks),
      (.withdrawal (withdrawalToResponse existing.loaded), [existing.accountId]) ∈ x'.found →
      existing.accountId = account → Q (some existing) x') :
    Reads sha256 t₀ account i (insertWithdrawal q withdrawal) Q x := by
  refine Contract.wp_tryCatch_of_forall _ _ ?_ fun e x' => ?_
  · exact reads_bind (reads_perform fun _ _ _ _ _ => reads_pure (hnone _ rfl))
  · split
    · refine reads_bind (reads_perform fun _ _ _ _ _ => ?_)
      refine reads_bind (reads_query rfl fun row w x'' _ hrow hown hfound => ?_)
      cases row with
      | none => exact reads_throw _
      | some existing =>
          refine reads_pure (hsome x'' existing ?_ ?_)
          · rw [hfound]
            exact List.mem_append_left _ (List.mem_singleton_self _)
          · -- the key that is looked up is one of the account
            have hfind : w.shared.db.withdrawalByKey q.idempotencyKey = some existing := hrow.symm
            exact hown rfl existing (List.mem_of_find?_eq_some hfind)
              (by simpa using List.find?_some hfind)
    · exact reads_throw _

/-- The saga answers with the withdrawal that it has made. -/
theorem reads_runSaga (q : WithdrawalRequest) {w : Withdrawal Decimal}
    (haccount : w.accountId = account) (hw : .withdrawal w ∈ x.sess.committed) :
    Reads sha256 t₀ account i (runSaga sha256 q w)
      (fun r x' => Sourced sha256 (.createWithdrawal q) account x' (.withdrawal r)) x := by
  refine Contract.wp_mono _ _ (fun r x' hr => ?_) (fun _ _ _ => trivial)
    ((reads_of_yields (yields_runSaga q w)).committed hw)
  obtain ⟨⟨sets, rfl⟩, hcommitted⟩ := hr
  exact .made sets hcommitted haccount

/-- The request after a look-up in Redis without success. -/
theorem reads_startWithdrawal (q : WithdrawalRequest) (haccount : q.accountId = account)
    (hw : x.sess.writes = []) (howned : x.sess.owned = none) (haccepted : x.sess.accepted = []) :
    Reads sha256 t₀ account i (startWithdrawal sha256 q)
      (fun r x' => Sourced sha256 (.createWithdrawal q) account x' (.withdrawal r)) x := by
  unfold startWithdrawal
  split
  · exact reads_throw _
  next hsystem =>
  refine reads_bind (reads_perform fun a _ _ _ _ => ?_)
  cases a with
  | none => exact reads_throw _
  | some a =>
      refine reads_bind (reads_perform fun b _ _ _ _ => ?_)
      -- the balance is read under the lock of the account, before anything is written
      have hlearn : after (.select (.balance q.accountId)) (.ok b)
          (x.sess.lock (.account q.accountId)) =
          { x.sess.lock (.account q.accountId) with
            balances := (q.accountId, b) :: x.sess.balances, balanceRead := some b } := by
        have hguard : Lock.account q.accountId ∈ (x.sess.lock (.account q.accountId)).locks ∧
            (x.sess.lock (.account q.accountId)).writes.isEmpty :=
          ⟨List.mem_cons_self .., List.isEmpty_iff.mpr hw⟩
        exact if_pos hguard
      split
      · exact reads_throw _
      · next hcovers =>
        refine reads_bind (reads_perform fun t _ _ _ _ => ?_)
        refine reads_bind (reads_perform fun id _ _ _ _ => ?_)
        refine reads_bind (reads_insertWithdrawal q _ (fun x' hx' => ?_)
          fun x' existing hfound hparty => ?_)
        · replace hx' := hx'.trans (congrArg (fun σ => Session.wrote
            (after .uuid4 (.ok id) (after .now (.ok t) σ)) _) hlearn)
          refine reads_bind (Contract.wp_mono _ _ (fun _ x'' h => ?_) (fun _ _ _ => trivial)
            (reads_of_follows
              (follows_reserveFunds ?_ ?_ ?_ rfl rfl hsystem ?_ rfl rfl rfl rfl ?_)))
          · exact reads_runSaga q haccount h.2.1
          · rw [hx']
            exact congrArg (· ++ _) hw
          · rw [hx']
            exact List.mem_cons_self ..
          · rw [hx']
            exact howned
          · rw [hx']
            exact ⟨b, List.mem_cons_self .., hcovers⟩
          · rw [hx']
            exact haccepted
        · refine reads_pure (.found hfound ?_)
          rw [hparty]
          exact List.mem_singleton_self _

/-- A request for a withdrawal. -/
theorem reads_createWithdrawal (q : WithdrawalRequest) (haccount : q.accountId = account)
    (hw : x.sess.writes = []) (howned : x.sess.owned = none) (haccepted : x.sess.accepted = []) :
    Reads sha256 t₀ account i (createWithdrawal sha256 q)
      (fun r x' => Sourced sha256 (.createWithdrawal q) account x' (.withdrawal r)) x := by
  refine reads_bind (reads_perform fun cached _ _ _ _ => ?_)
  cases cached with
  | none => exact reads_startWithdrawal q haccount hw howned haccepted
  | some entry =>
      -- the entry of another request is a conflict
      dsimp only
      split
      · exact reads_throw _
      · next hhash =>
        unfold CacheEntry.withdrawalResponse
        split
        · -- the answer that was cached for the same request
          next r hresponse =>
          refine reads_pure ?_
          have hr : entry.response.response = .withdrawal r :=
            congrArg CachedResponse.response hresponse
          rw [← hr]
          exact .cached rfl rfl (not_not.mp hhash)
        · exact reads_throw _

/-- Every request that is made on behalf of an account. -/
theorem reads_program (request : Request) (haccount : request.onBehalfOf = some account) :
    Reads sha256 t₀ account i (request.program sha256)
      (fun response x' => Sourced sha256 request account x' response) { sess := {} } := by
  cases request with
  -- each route passes on what its service returns
  | transfer q =>
      exact reads_bind (Contract.wp_mono _ _ (fun _ _ hr => reads_pure hr) (fun _ _ h => h)
        (reads_transfer q rfl))
  | createWithdrawal q =>
      exact reads_bind (Contract.wp_mono _ _ (fun _ _ hr => reads_pure hr) (fun _ _ h => h)
        (reads_createWithdrawal q (Option.some.inj haccount) rfl rfl rfl))
  | getTransfer id a =>
      obtain rfl := Option.some.inj haccount
      exact reads_bind (Contract.wp_mono _ _ (fun _ _ hr => reads_pure hr) (fun _ _ h => h)
        (reads_getTransfer id rfl))
  | getDeposit id a =>
      obtain rfl := Option.some.inj haccount
      exact reads_bind (Contract.wp_mono _ _ (fun _ _ hr => reads_pure hr) (fun _ _ h => h)
        (reads_getDeposit id rfl))
  | getWithdrawal id a =>
      obtain rfl := Option.some.inj haccount
      exact reads_bind (Contract.wp_mono _ _ (fun _ _ hr => reads_pure hr) (fun _ _ h => h)
        (reads_getWithdrawal id rfl))
  | _ => cases haccount

end Programs

/-! ## The result -/

/-- Updates do not touch the amount. -/
theorem stored_foldl (sets : List WithdrawalSet) (w : Withdrawal Decimal) :
    (sets.foldl (fun w set => set.apply w) w).stored =
      sets.foldl (fun w set => set.apply w) w.stored := by
  induction sets generalizing w with
  | nil => rfl
  | cons set sets ih => exact ih (set.apply w)

/-- A response that comes from where it should describes a record to which the account is a
party. -/
theorem Sourced.shownTo {request : Request} {account : UUID} {i : ℕ} {x : Reader} {w : State}
    {response : Response} (h : Sourced sha256 request account x response)
    (haccount : request.onBehalfOf = some account) (hx : x.At sha256 t₀ i w)
    (hhash : request.Distinguished sha256 w.shared.history) :
    response.ShownTo account w.shared.db := by
  obtain ⟨c, hc, rfl⟩ := hx.reached
  -- equal hashes are those of equal texts, which are about one account
  have hrecalls {text : String} {entry : CacheEntry} (htext : request.text? = some text)
      (hentry : Recalls sha256 c.shared.db c.shared.history entry)
      (hsame : entry.requestHash = sha256 text) :
      entry.response.response.ShownTo account c.shared.db := by
    obtain ⟨hrow, hmem, hhashed, hconcerns, hdescribes⟩ := hentry
    obtain rfl := hhash text htext _ hrow _ hmem (hhashed.symm.trans hsame)
    obtain rfl := hconcerns.unique (Request.concerns haccount htext)
    exact ⟨_, hdescribes, List.mem_cons_self ..⟩
  cases h with
  | cached htext hread hsame => exact hrecalls htext (hx.cached _ hread) hsame
  | cacheable htext hcacheable hsame =>
      rw [← hx.sess] at hcacheable
      exact hrecalls htext (hcacheable.recalls hc) hsame
  | found hfound hparty => exact ⟨_, hx.found _ hfound, hparty⟩
  | @made w sets hcommitted howner =>
      rw [← hx.sess] at hcommitted
      obtain ⟨row, hrow, hsame⟩ :=
        (recorded hc).withdrawal_stored w ((known_to_session hc i).1 _ hcommitted)
      have hrowAccount : row.accountId = account :=
        (Withdrawal.columns_of_asCreated hsame).1.trans howner
      refine ⟨_, .withdrawal hrow ?_, ?_⟩
      · rw [hsame, stored_foldl, foldl_apply_asCreated]
      · rw [hrowAccount]
        exact List.mem_singleton_self _

/-- Account isolation of responses: in every run, whatever a request is answered that is made on
behalf of an account describes a record to which the account is a party, as long as the request does
not look up the key of a withdrawal of another account, and no other text has its hash. -/
theorem responses_isolated {c₀ c : Wallet} {request : Request} {account : UUID}
    {response : Response} (h : Reaches sha256 c₀) (haccount : request.onBehalfOf = some account)
    (hrun : (wallet sha256).Run (OwnKey account c₀.size) (spawned c₀ (request.program sha256)) c)
    (hhash : request.Distinguished sha256 c.shared.history)
    (hout : Wallet.outcome? c c₀.size = some (.ok response)) :
    response.ShownTo account c.shared.db := by
  obtain ⟨t₀, h₀⟩ := h
  have hspawn : (wallet sha256).Step c₀ .spawn (spawned c₀ (request.program sha256)) :=
    .spawn ⟨request, rfl⟩
  have hstart := h₀.step trivial hspawn
  obtain ⟨p, hp, hreturned⟩ := Option.bind_eq_some_iff.mp hout
  -- the process was not stopped, as it has an outcome
  have hrun' : (wallet sha256).Run (Attended account c₀.size)
      (spawned c₀ (request.program sha256)) c :=
    hrun.unstopped (Nat.lt_succ_self _) (by rw [hp]; rfl)
  -- what it has looked up is followed along the run
  have hknown : Reader.At sha256 t₀ c₀.size { sess := {} }
      (spawned c₀ (request.program sha256)).toWorld :=
    { reached := ⟨_, hstart, rfl⟩
      sess := (h₀.fresh (fresh_initial _)).sess_idle _ le_rfl
      cached := fun _ hread => nomatch hread
      found := fun _ hfound => nomatch hfound }
  obtain ⟨p', x, hp', hx, hwp⟩ := hrun'.track
    (fun hrun hl hs hx => hx.next (hstart.trans hrun.any) hl.2 hs) (fun _ hl => hl.2 rfl)
    (hstart.fresh (fresh_initial _)) (Function.update_self ..) hknown
    (reads_program request haccount)
  -- its program is at its end, so what it leads to is what it has returned
  obtain rfl := Option.some.inj (hp.symm.trans hp')
  cases p with
  | pure a =>
      obtain rfl := Except.ok.inj (Option.some.inj hreturned)
      exact ((Contract.wp_pure _ _ _).mp hwp).shownTo haccount hx hhash
  | raise e => cases hreturned
  | call o next => cases hreturned

/-! ### Explicit requests -/

/-- Whether a process looks up a key of its own is decidable. -/
instance (account : UUID) (i : ℕ) (w : State) (l : Event) : Decidable (OwnKey account i w l) :=
  match l with
  | .call j (.select (.withdrawalByKey key)) _ =>
      inferInstanceAs (Decidable (j = i → ∀ row ∈ w.shared.db.withdrawals,
        row.idempotencyKey = key → row.accountId = account))
  | .call _ (.select (.accountById _)) _ | .call _ (.select (.balance _)) _
  | .call _ (.select (.transferByKey _)) _ | .call _ (.select (.depositByReference _)) _
  | .call _ (.select (.ledgerEntryByKey _)) _ | .call _ (.select (.transferById _)) _
  | .call _ (.select (.withdrawalById _)) _ | .call _ (.select (.depositById _)) _
  | .call _ .now _ | .call _ .uuid4 _ | .call _ (.cacheGet _) _ | .call _ (.cacheSet _ _) _
  | .call _ (.breaker _) _ | .call _ (.lockAccount _) _ | .call _ (.lockWithdrawal _) _
  | .call _ (.claimStuck _ _) _ | .call _ (.write _) _ | .call _ .commit _ | .call _ .rollback _
  | .call _ (.sendWithdrawal _ _ _) _ | .call _ (.queryStatus _) _ | .spawn | .stop _ | .env =>
      inferInstanceAs (Decidable True)

/-- The account asks for its withdrawal again, before Redis has the answer. -/
theorem responses_isolated_again :
    ∃ c₀ c response, Reaches Sha256.hexdigest c₀ ∧
      (wallet Sha256.hexdigest).Run (OwnKey ⟨1⟩ c₀.size)
        (spawned c₀ ((Request.createWithdrawal withdrawalOf40).program Sha256.hexdigest)) c ∧
      Wallet.outcome? c c₀.size = some (.ok response) ∧
      response.ShownTo withdrawalOf40.accountId c.shared.db := by
  obtain ⟨c₀, c, hc₀, hrun, hhash, hok⟩ := followed_of_played (OwnKey ⟨1⟩)
    (.createWithdrawal withdrawalOf40)
    (P := fun c₀ c => (Request.createWithdrawal withdrawalOf40).Distinguished Sha256.hexdigest
      c.shared.history ∧ (Wallet.outcome? c c₀.size).any Except.isOk)
    (show (played anyStep reservedSchedule).any
      (fun c₀ => (play (OwnKey ⟨1⟩ c₀.size) (player Sha256.hexdigest) _ (steps 3 8)).any _) =
        true by
        decide +kernel)
  -- the request has an answer
  obtain ⟨out, hout, hisOk⟩ := (Option.any_eq_true _ _).mp hok
  cases out with
  | ok response =>
      exact ⟨c₀, c, response, hc₀, hrun, hout, responses_isolated hc₀ rfl hrun hhash hout⟩
  | error e => cases hisOk

/-- A withdrawal is shown to its account. -/
theorem Response.ShownTo.accountId {r : WithdrawalResponse} {account : UUID} {db : Database}
    (h : (Response.withdrawal r).ShownTo account db) : r.accountId = account.str := by
  obtain ⟨parties, hdescribes, hparty⟩ := h
  generalize hresponse : Response.withdrawal r = response at hdescribes
  cases hdescribes with
  | @withdrawal w row hrow hsame =>
      injection hresponse with hr
      have haccount : w.accountId = row.accountId := (Withdrawal.columns_of_asCreated hsame).1
      rw [hr, List.mem_singleton.mp hparty, ← haccount]
      rfl
  | transfer _ | deposit _ => cases hresponse

/-- Both accounts have a balance, and the first one has made a withdrawal under a key that the
second one uses as well. -/
def sharedKeySchedule : Schedule :=
  twoAccountsSchedule ++
    [.spawn (.request (.seed ⟨⟨9⟩, ⟨false, 100, 0⟩, "second seed", ⟨1001⟩⟩))] ++ steps 3 13 ++
    [.spawn (.request (.createWithdrawal withdrawalOf40))] ++ steps 4 16

/-- The outcome is a withdrawal of another account. -/
def ofOtherAccount (account : UUID) : Except Exc Response → Bool
  | .ok (.withdrawal r) => r.accountId ≠ account.str
  | _ => false

/-- The second account asks for a withdrawal and is shown that of the first one. -/
theorem withdrawal_shown_to_other :
    ¬ ∀ (c₀ c : Wallet) (request : Request) (account : UUID) (response : Response),
      Reaches Sha256.hexdigest c₀ → request.onBehalfOf = some account →
      (wallet Sha256.hexdigest).Run anyStep
        (spawned c₀ (request.program Sha256.hexdigest)) c →
      Wallet.outcome? c c₀.size = some (.ok response) →
      response.ShownTo account c.shared.db := by
  intro hisolated
  let other : WithdrawalRequest :=
    { withdrawalOf40 with accountId := ⟨9⟩, actorUserId := some ⟨1001⟩ }
  -- the request of the other account, under the key of the first one
  obtain ⟨c₀, c, hc₀, hrun, hother⟩ := followed_of_played (fun _ => anyStep)
    (.createWithdrawal other)
    (P := fun c₀ c => (Wallet.outcome? c c₀.size).any (ofOtherAccount ⟨9⟩))
    (show (played anyStep sharedKeySchedule).any
      (fun c₀ => (play anyStep (player Sha256.hexdigest) _ (steps 5 8)).any _) = true by
        decide +kernel)
  obtain ⟨out, hout, hne⟩ := (Option.any_eq_true _ _).mp hother
  unfold ofOtherAccount at hne
  split at hne
  · next r =>
    have hshown := hisolated c₀ c _ ⟨9⟩ _ hc₀ rfl hrun hout
    exact absurd hshown.accountId (of_decide_eq_true hne)
  · cases hne

end MiniWallet
