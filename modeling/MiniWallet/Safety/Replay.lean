import MiniWallet.Safety.Cache

/-!
# Following one request

A request that finds its idempotency key taken should answer and do nothing else. To say what it
does, one process is followed through a run in which nothing stops it and the servers answer it; the
other processes do what they like.

* `Answered`, `Harmless`: the two conditions on steps, the first assumed and the second proved.
* `Proceeds`: the process has ended, can take its next step, or waits for another transaction.
* `Replays`: the weakest precondition of a program in the worlds of such a run, with one rule for
  each operation.
* `follow_request`: a program that satisfies it leads the process to its postcondition.
-/

namespace MiniWallet

open Numeric Process System State Program

variable {sha256 : String → String}

/-! ## Conditions on steps -/

/-- Nothing stops process `i`, and neither Postgres nor Redis fails it. -/
def Answered (i : ℕ) (_ : State) : Event → Prop
  | .stop j => j ≠ i
  | .call j _ (.error e) => j = i → ¬ e.Infrastructure
  | _ => True

/-- Whether a step answers the process or is another one's is decidable. -/
instance (i : ℕ) (w : State) (l : Event) : Decidable (Answered i w l) :=
  match l with
  | .stop j => inferInstanceAs (Decidable (j ≠ i))
  | .call j _ (.error e) => inferInstanceAs (Decidable (j = i → ¬ e.Infrastructure))
  | .call _ _ (.ok _) => inferInstanceAs (Decidable True)
  | .spawn => inferInstanceAs (Decidable True)
  | .env => inferInstanceAs (Decidable True)

/-- The operations by which a process changes the tables or pays out. -/
def Op.Lasting : Op → Prop
  | .commit => True
  | .sendWithdrawal _ _ _ => True
  | _ => False

/-- Process `i` neither commits a transaction nor calls the rail. -/
def Harmless (i : ℕ) (_ : State) : Event → Prop
  | .call j o _ => j = i → ¬ o.Lasting
  | _ => True

/-- The operations of a request that replays. -/
def Op.Plain : Op → Prop
  | .now | .uuid4 | .cacheGet _ | .cacheSet _ _ | .select _ | .lockAccount _ | .write _
  | .rollback => True
  | _ => False

/-- The operation of process `i` has to wait: for a lock or a unique key that another transaction
holds, or for a fresh identifier when none is left. -/
def Waits (w : State) (i : ℕ) : Op → Prop
  | .uuid4 => ∀ id, id ∈ w.shared.issued
  | .lockAccount id => LockedByOther w i (.account id)
  | .write wr => verdict w i wr = none
  | _ => False

/-- A write that does not have to wait ends without a failure of the server. -/
theorem verdict_answered {w : State} {i : ℕ} {wr : Write} {e : Exc}
    (h : verdict w i wr = some (.error e)) : ¬ e.Infrastructure := by
  -- the errors that a verdict names are those of constraints and of column types
  have hcases : (∃ c, e = .integrityError c) ∨ e = .dataError ∨ e = .staleData := by
    cases wr <;> simp only [verdict] at h
    all_goals
      repeat' split at h
      all_goals
        cases h
        try simp
  rcases hcases with ⟨c, rfl⟩ | rfl | rfl <;> simp [Exc.Infrastructure]

/-- An `INSERT` under a unique key that is taken is refused, for one of three reasons. -/
theorem verdict_of_taken {w : State} {i : ℕ} {row : Row Decimal} {k : UniqueKey}
    {r : Except Exc Unit} (hk : k ∈ row.keys) (htaken : k ∈ (view w i).keys)
    (h : verdict w i (.insert row) = some r) :
    (row.fits = false ∧ r = .error .dataError) ∨
      (row.fits = true ∧ ∃ c, row.stored.failedCheck? = some c ∧ r = .error (.integrityError c)) ∨
      (row.fits = true ∧ row.stored.failedCheck? = none ∧
        ∃ k' ∈ row.keys, k' ∈ (view w i).keys ∧ r = .error (.integrityError k'.constraint)) := by
  simp only [verdict] at h
  split at h
  · next hfits => exact .inl ⟨by simpa using hfits, (Option.some.inj h).symm⟩
  · next hfits =>
    have hfits : row.fits = true := by simpa using hfits
    split at h
    · next c hc => exact .inr (.inl ⟨hfits, c, hc, (Option.some.inj h).symm⟩)
    · next hchecks =>
      split at h
      · next k' hfound =>
        have htaken' : k' ∈ (view w i).keys := by simpa using List.find?_some hfound
        exact .inr (.inr ⟨hfits, hchecks, k', List.mem_of_find?_eq_some hfound, htaken',
          (Option.some.inj h).symm⟩)
      · next hnone =>
        -- the search for a key that is taken finds at least `k`
        exact absurd htaken (by simpa using List.find?_eq_none.mp hnone k hk)

/-- How a row is refused for its values, whatever the tables hold. -/
inductive Row.Refuses (row : Row Decimal) : Exc → Prop
  /-- A value does not fit its column. -/
  | misfit : row.fits = false → row.Refuses .dataError
  /-- A check fails. -/
  | check {c : Constraint} : row.stored.failedCheck? = some c → row.Refuses (.integrityError c)

/-- An `INSERT` with new unique keys that refers to accounts that exist is refused for its values
only. -/
theorem verdict_of_new {w : State} {i : ℕ} {row : Row Decimal} {r : Except Exc Unit}
    (hkeys : ∀ k ∈ row.keys, k ∉ (view w i).keys) (haccounts : (view w i).Refers row)
    (h : verdict w i (.insert row) = some r) : r = .ok () ∨ ∃ e, row.Refuses e ∧ r = .error e := by
  simp only [verdict] at h
  split at h
  · -- a value does not fit
    next hfits => exact .inr ⟨_, .misfit (by simpa using hfits), (Option.some.inj h).symm⟩
  · split at h
    · next c hc => exact .inr ⟨_, .check hc, (Option.some.inj h).symm⟩
    · split at h
      · -- a key is taken, but all are new
        next k hfound =>
        exact absurd (by simpa using List.find?_some hfound)
          (hkeys k (List.mem_of_find?_eq_some hfound))
      · -- another transaction is about to insert a key, or nobody is
        split at h
        · cases h
        · -- an account is missing, but all exist
          split at h
          · next fk c hfound =>
            have hsome := haccounts _ (List.mem_of_find?_eq_some hfound)
            have hnone := List.find?_some hfound
            rw [Option.isNone_iff_eq_none.mp hnone] at hsome
            cases hsome
          · exact .inl (Option.some.inj h).symm

/-- An operation of a request that replays ends, or has to wait. -/
theorem Op.Plain.ends_or_waits {o : Op} (h : o.Plain) (w : State) (i : ℕ) :
    Waits w i o ∨ ∃ r, Ends w i o r ∧ Answered i w (.call i o r) := by
  cases o with
  | now => exact .inr ⟨_, ⟨.proceed, rfl⟩, trivial⟩
  | uuid4 =>
      -- there may be no identifier left
      by_cases hleft : ∃ id, id ∉ w.shared.issued
      · obtain ⟨id, hid⟩ := hleft
        exact .inr ⟨_, ⟨.fresh id, if_neg hid⟩, trivial⟩
      · exact .inl fun id => not_not.mp fun hid => hleft ⟨id, hid⟩
  | cacheGet key | cacheSet key entry | select q | rollback =>
      exact .inr ⟨_, ⟨.proceed, rfl⟩, trivial⟩
  | lockAccount id =>
      -- the row may be locked
      by_cases hlocked : LockedByOther w i (.account id)
      · exact .inl hlocked
      · exact .inr ⟨_, ⟨.proceed, if_neg hlocked⟩, trivial⟩
  | write wr =>
      -- the statement may have to wait for another transaction
      cases hverdict : verdict w i wr with
      | none => exact .inl hverdict
      | some r =>
          refine .inr ⟨r, ⟨.proceed, hverdict⟩, ?_⟩
          cases r with
          | ok u => trivial
          | error e => exact fun _ => verdict_answered hverdict
  | _ => exact h.elim

/-- How process `i` has ended, if it has. -/
def Wallet.outcome? (c : Wallet) (i : ℕ) : Option (Except Exc Response) :=
  (c.pool i).bind Prog.outcome?

/-- Process `i` has ended, can take its next step, or waits for another transaction. -/
def Proceeds (c : Wallet) (i : ℕ) : Prop :=
  (Wallet.outcome? c i).isSome ∨
    ∃ o next, c.pool i = some (.call o next) ∧
      (Waits c.toWorld i o ∨ ∃ r, Ends c.toWorld i o r ∧ Answered i c.toWorld (.call i o r))

/-- The operations of a request that replays are harmless. -/
theorem harmless_of_plain {i : ℕ} {w : State} {l : Event}
    (h : ∀ o r, l = .call i o r → o.Plain) : Harmless i w l := by
  cases l with
  | call j o r =>
      rintro rfl
      have hplain := h o r rfl
      cases o <;> first | exact fun hlasting => hlasting | exact hplain.elim
  | _ => trivial

/-- A process that awaits operations of a replay only does not get stuck. -/
theorem proceeds_of_plain {c : Wallet} {i : ℕ} {p : Program Response} (hp : c.pool i = some p)
    (hplain : ∀ o next, p = .call o next → o.Plain) : Proceeds c i := by
  cases p with
  | pure a => exact .inl (by rw [Wallet.outcome?, hp]; rfl)
  | raise e => exact .inl (by rw [Wallet.outcome?, hp]; rfl)
  | call o next => exact .inr ⟨o, next, hp, (hplain o next rfl).ends_or_waits c.toWorld _⟩

/-! ## Rules -/

/-- `Replays sha256 P i p Q R σ`: from session `σ` of process `i` the program `p`, run in worlds
that satisfy `P`, only calls operations of a replay, and ends in `Q` if it returns and in `R` if it
raises. -/
abbrev Replays (sha256 : String → String) (P : State → Prop) (i : ℕ) {α : Type} (p : Program α)
    (Q : α → Session → Prop) (R : Exc → Session → Prop) (σ : Session) : Prop :=
  ((wallet sha256).within (Answered i) P i Op.Plain).wp after p Q R σ

section Rules

variable {P : State → Prop} {i : ℕ} {R : Exc → Session → Prop} {σ : Session}

/-- Returning. -/
theorem replays_pure {α : Type} {a : α} {Q : α → Session → Prop} (h : Q a σ) :
    Replays sha256 P i (pure a) Q R σ :=
  (Contract.wp_pure _ _ a).mpr h

/-- Raising. -/
theorem replays_throw {α : Type} {e : Exc} {Q : α → Session → Prop} (h : R e σ) :
    Replays sha256 P i (throw e : Program α) Q R σ :=
  (Contract.wp_throw _ _ e).mpr h

/-- One program after the other. -/
theorem replays_bind {α β : Type} {p : Program α} {f : α → Program β} {Q : β → Session → Prop}
    (h : Replays sha256 P i p (fun a => Replays sha256 P i (f a) Q R) R σ) :
    Replays sha256 P i (p >>= f) Q R σ :=
  (Contract.wp_bind _ _ p f).mpr h

/-- A handler goes on where its body has raised. -/
theorem replays_tryCatch {α : Type} {p : Program α} {handler : Exc → Program α}
    {Q : α → Session → Prop}
    (h : Replays sha256 P i p Q (fun e => Replays sha256 P i (handler e) Q R) σ) :
    Replays sha256 P i (tryCatch p handler) Q R σ :=
  (Contract.wp_tryCatch _ _ p handler).mpr h

/-- Awaiting an operation: what holds in every world in which it ends. -/
theorem replays_perform {o : Op} {Q : o.Out → Session → Prop} (hplain : o.Plain)
    (hok : ∀ w a, P w → w.sess i = σ → Ends w i o (.ok a) → Q a (after o (.ok a) σ))
    (herror : ∀ w e, P w → w.sess i = σ → Ends w i o (.error e) → ¬ e.Infrastructure →
      R e (after o (.error e) σ)) :
    Replays sha256 P i (perform o) Q R σ := by
  refine (Contract.wp_perform _ _ o).mpr ⟨hplain, fun a ⟨w, hP, hσ, hends, _⟩ => ?_,
    fun e ⟨w, hP, hσ, hends, hanswered⟩ => ?_⟩
  · exact hok w a hP hσ hends
  · exact herror w e hP hσ hends (hanswered rfl)

/-- Redis returns what it has under the key at that moment. -/
theorem replays_cacheGet {key : String} {Q : Option CacheEntry → Session → Prop}
    (h : ∀ w, P w → w.sess i = σ →
      Q (w.shared.redis key) { σ with cacheRead := some (w.shared.redis key) }) :
    Replays sha256 P i (cacheGet key) Q R σ := by
  refine replays_perform (o := .cacheGet key) trivial (fun w a hP hσ hends => ?_)
    fun w e hP hσ hends hserver => ?_
  · rcases ends_cacheGet hends with heq | heq
    · cases heq
      exact h w hP hσ
    · cases heq
  · rcases ends_cacheGet hends with heq | heq
    · cases heq
    · cases heq
      exact absurd (.inr rfl) hserver

/-- Putting an entry into Redis does not concern the request that is followed. -/
theorem replays_cacheSet {key : String} {entry : CacheEntry} {Q : Unit → Session → Prop}
    (h : Q () σ) : Replays sha256 P i (cacheSet key entry) Q R σ := by
  refine replays_perform (o := .cacheSet key entry) trivial (fun _ _ _ _ _ => h)
    fun w e hP hσ hends hserver => ?_
  obtain ⟨choice, hends⟩ := hends
  rcases Choice.server_eq_some hends with heq | heq
  · cases heq
  · cases heq
    exact absurd (.inr rfl) hserver

/-- The clock can show any time. -/
theorem replays_now {Q : Time → Session → Prop} (h : ∀ t, Q t { σ with clockRead := some t }) :
    Replays sha256 P i now Q R σ := by
  refine replays_perform (o := .now) trivial (fun _ t _ _ _ => h t) fun w e hP hσ hends _ => ?_
  cases ends_now hends

/-- Any identifier can be drawn. -/
theorem replays_uuid4 {Q : UUID → Session → Prop}
    (h : ∀ id, Q id { σ with drawn := id :: σ.drawn }) :
    Replays sha256 P i uuid4 Q R σ := by
  refine replays_perform (o := .uuid4) trivial (fun _ id _ _ _ => h id) fun w e hP hσ hends _ => ?_
  obtain ⟨id, -, heq⟩ := ends_uuid4 hends
  cases heq

/-- The identifier that is drawn differs from those that the process has drawn before, if these have
all been handed out. -/
theorem replays_draw {Q : UUID → Session → Prop}
    (hissued : ∀ w, P w → ∀ id ∈ (w.sess i).drawn, id ∈ w.shared.issued)
    (h : ∀ id, id ∉ σ.drawn → Q id { σ with drawn := id :: σ.drawn }) :
    Replays sha256 P i uuid4 Q R σ := by
  refine replays_perform (o := .uuid4) trivial (fun w id hP hσ hends => ?_)
    fun w e hP hσ hends _ => ?_
  · obtain ⟨id', hid', heq⟩ := ends_uuid4 hends
    cases heq
    exact h id fun hmem => hid' (hissued w hP id (hσ ▸ hmem))
  · obtain ⟨id, -, heq⟩ := ends_uuid4 hends
    cases heq

/-- A query is answered from the tables, as long as the transaction has not written anything. -/
theorem replays_select {q : Query} {Q : q.Result → Session → Prop} (hwrites : σ.writes = [])
    (h : ∀ w, P w → w.sess i = σ → Q (q.eval w.shared.db) (σ.learn q (q.eval w.shared.db))) :
    Replays sha256 P i (perform (.select q)) Q R σ := by
  refine replays_perform (o := .select q) trivial (fun w a hP hσ hends => ?_)
    fun w e hP hσ hends hserver => ?_
  · have hview : view w i = w.shared.db := by rw [view, hσ, hwrites, Database.applyAll_nil]
    rcases ends_select hends with heq | heq
    · cases heq
      rw [hview]
      exact h w hP hσ
    · cases heq
  · rcases ends_select hends with heq | heq
    · cases heq
    · cases heq
      exact absurd (.inl rfl) hserver

/-- Reading a balance, before anything was written. -/
theorem replays_getBalance {a : UUID} {Q : Ticks → Session → Prop} (hwrites : σ.writes = [])
    (h : ∀ b σ', σ'.balanceRead = some b → σ'.cacheRead = σ.cacheRead → σ'.writes = [] → Q b σ') :
    Replays sha256 P i (getBalance a) Q R σ := by
  refine replays_select hwrites fun w _ _ => ?_
  change Q _ (σ.learn (.balance a) (w.shared.db.getBalance a))
  simp only [Session.learn]
  split
  · exact h _ _ rfl rfl hwrites
  · exact h _ _ rfl rfl hwrites

/-- While nothing is written the account is locked as it stands in the tables, or it is not there.
-/
theorem replays_lockAccount {id : UUID} {Q : Option Account → Session → Prop}
    (hwrites : σ.writes = [])
    (hnone : ∀ w, P w → w.sess i = σ → w.shared.db.accountById id = none → Q none σ)
    (hsome : ∀ a, Q (some a) (σ.lock (.account id))) :
    Replays sha256 P i (lockAccount id) Q R σ := by
  refine replays_perform (o := .lockAccount id) trivial (fun w a hP hσ hends => ?_)
    fun w e hP hσ hends hserver => ?_
  · have hview : view w i = w.shared.db := by rw [view, hσ, hwrites, Database.applyAll_nil]
    rcases ends_lockAccount hends with ⟨heq, -⟩ | heq
    · cases heq
      cases hfound : (view w i).accountById id with
      | none => exact hnone w hP hσ (hview ▸ hfound)
      | some a => exact hsome a
    · cases heq
  · rcases ends_lockAccount hends with ⟨heq, -⟩ | heq
    · cases heq
    · cases heq
      exact absurd (.inl rfl) hserver

/-- A statement that Postgres refuses aborts the transaction. Only a lost connection would end it
instead. -/
theorem afterWrite_error (wr : Write) {e : Exc} (hserver : ¬ e.Infrastructure) :
    σ.afterWrite wr (.error e) = σ.aborted := by
  unfold Session.afterWrite
  split
  · next heq => cases heq
  · next heq =>
      cases heq
      exact absurd (.inl rfl) hserver
  · rfl

/-- An `INSERT` with new unique keys that refers to accounts that exist. -/
theorem replays_insertNew {row : Row Decimal} {Q : Unit → Session → Prop}
    (hkeys : ∀ w, P w → w.sess i = σ → ∀ k ∈ row.keys, k ∉ (view w i).keys)
    (haccounts : ∀ w, P w → w.sess i = σ → (view w i).Refers row)
    (hok : Q () (σ.wrote (.insert row))) (herror : ∀ e, row.Refuses e → R e σ.aborted) :
    Replays sha256 P i (write (.insert row)) Q R σ := by
  have hverdict : ∀ w r, P w → w.sess i = σ → verdict w i (.insert row) = some r →
      r = .ok () ∨ ∃ e, row.Refuses e ∧ r = .error e := fun w _ hw hσ =>
    verdict_of_new (hkeys w hw hσ) (haccounts w hw hσ)
  refine replays_perform (o := .write (.insert row)) trivial (fun _ _ _ _ _ => hok)
    fun w e hP hσ hends hserver => ?_
  -- the verdict can only refuse the values of the row
  rcases ends_write hends with hv | heq
  · obtain heq | ⟨e', he', heq⟩ := hverdict w _ hP hσ hv
    · cases heq
    · cases heq
      change R e (σ.afterWrite (.insert row) (.error e))
      rw [afterWrite_error _ hserver]
      exact herror e he'
  · -- a failure of the server is not an answer
    cases heq
    exact absurd (.inl rfl) hserver

/-- An `INSERT` that Postgres refuses. -/
theorem replays_insert {row : Row Decimal} {Q : Unit → Session → Prop}
    (h : ∀ w r, P w → w.sess i = σ → verdict w i (.insert row) = some r →
      ∃ e, r = .error e ∧ R e σ.aborted) :
    Replays sha256 P i (write (.insert row)) Q R σ := by
  refine replays_perform (o := .write (.insert row)) trivial (fun w a hP hσ hends => ?_)
    fun w e hP hσ hends hserver => ?_
  · rcases ends_write hends with hverdict | heq
    · obtain ⟨e, heq, -⟩ := h w _ hP hσ hverdict
      cases heq
    · cases heq
  · rcases ends_write hends with hverdict | heq
    · obtain ⟨e', heq, hR⟩ := h w _ hP hσ hverdict
      cases heq
      change R e (σ.afterWrite (.insert row) (.error e))
      rwa [afterWrite_error _ hserver]
    · cases heq
      exact absurd (.inl rfl) hserver

/-- A rollback ends the transaction. -/
theorem replays_rollback {Q : Unit → Session → Prop} (h : Q () σ.ended) :
    Replays sha256 P i rollback Q R σ := by
  refine replays_perform (o := .rollback) trivial (fun _ _ _ _ _ => h)
    fun w e hP hσ hends hserver => ?_
  obtain ⟨choice, hends⟩ := hends
  rcases Choice.server_eq_some hends with heq | heq
  · cases heq
  · cases heq
    exact absurd (.inl rfl) hserver

end Rules

/-! ## The request in a run -/

/-- A request that replays does nothing lasting, does not get stuck, and ends in its
postcondition. -/
theorem follow_request {c₀ c : Wallet} {request : Request} {P : State → Prop}
    (Post : Except Exc Response → Session → Prop) (h : Reaches sha256 c₀)
    (hP : ∀ {c : Wallet}, (wallet sha256).Run (Answered c₀.size)
      (spawned c₀ (request.program sha256)) c → P c.toWorld)
    (hwp : Replays sha256 P c₀.size (request.program sha256) (fun a => Post (.ok a))
      (fun e => Post (.error e)) {})
    (hrun : (wallet sha256).Run (Answered c₀.size) (spawned c₀ (request.program sha256)) c) :
    (wallet sha256).Run (Harmless c₀.size) (spawned c₀ (request.program sha256)) c ∧
      Proceeds c c₀.size ∧
      ∀ out, Wallet.outcome? c c₀.size = some out → Post out (c.sess c₀.size) := by
  obtain ⟨t₀, h⟩ := h
  have hfresh₀ := h.fresh (fresh_initial _)
  have hspawn : (wallet sha256).Step c₀ .spawn (spawned c₀ (request.program sha256)) :=
    .spawn ⟨request, rfl⟩
  have hfresh := hfresh₀.step hspawn
  have hidle : (spawned c₀ (request.program sha256)).sess c₀.size = {} :=
    hfresh₀.sess_idle _ le_rfl
  have hpool : (spawned c₀ (request.program sha256)).pool c₀.size = some (request.program sha256) :=
    Function.update_self ..
  -- the process is not stopped, as this would leave it without an answer
  have hstop : ∀ w, ¬ Answered c₀.size w (.stop c₀.size) := fun _ hne => hne rfl
  rw [← hidle] at hwp
  refine ⟨?_, ?_, fun out hout => ?_⟩
  · -- each of its operations is harmless, as its weakest precondition says
    exact (hrun.guarded hP hstop hfresh hpool hwp).mono fun w l hl => harmless_of_plain hl.2
  · -- what it awaits next can end
    obtain ⟨p, hp, hwp'⟩ := hrun.follow hP hstop hfresh hpool hwp
    refine proceeds_of_plain hp fun o next heq => ?_
    subst heq
    exact ((Contract.wp_call _ _).mp hwp').1
  · -- what it has ended with satisfies the postcondition
    obtain ⟨p, hp, hwp'⟩ := hrun.follow hP hstop hfresh hpool hwp
    rw [Wallet.outcome?, hp] at hout
    exact Contract.wp_outcome _ _ hwp' hout

/-- A schedule, and then a request that is followed through a second one, whose steps satisfy a
condition on the new process. -/
theorem followed_of_played (ok : ℕ → State → Event → Prop) [∀ i w l, Decidable (ok i w l)]
    {ms ms' : Schedule} (request : Request) {P : Wallet → Wallet → Prop} [∀ c, DecidablePred (P c)]
    (h : (played anyStep ms).any (fun c₀ =>
      (play (ok c₀.size) (player Sha256.hexdigest)
        (spawned c₀ (request.program Sha256.hexdigest)) ms').any fun c => decide (P c₀ c)) = true) :
    ∃ c₀ c, Reaches Sha256.hexdigest c₀ ∧
      (wallet Sha256.hexdigest).Run (ok c₀.size)
        (spawned c₀ (request.program Sha256.hexdigest)) c ∧ P c₀ c := by
  obtain ⟨c₀, hc₀, h⟩ := (Option.any_eq_true _ _).mp h
  obtain ⟨c, hc, hP⟩ := (Option.any_eq_true _ _).mp h
  exact ⟨c₀, c, ⟨0, run_of_play hc₀⟩, run_of_play hc, of_decide_eq_true hP⟩

/-- A schedule, and then a request that is answered through a second one. -/
theorem answered_of_played {ms ms' : Schedule} (request : Request) {P : Wallet → Wallet → Prop}
    [∀ c, DecidablePred (P c)]
    (h : (played anyStep ms).any (fun c₀ =>
      (play (Answered c₀.size) (player Sha256.hexdigest)
        (spawned c₀ (request.program Sha256.hexdigest)) ms').any fun c => decide (P c₀ c)) = true) :
    ∃ c₀ c, Reaches Sha256.hexdigest c₀ ∧
      (wallet Sha256.hexdigest).Run (Answered c₀.size)
        (spawned c₀ (request.program Sha256.hexdigest)) c ∧ P c₀ c :=
  followed_of_played Answered request h

end MiniWallet
