import MiniWallet.Process.Observer
import MiniWallet.Safety.Backfill

/-!
# What the queries of a backfill return

A run of the command inserts a row for everything that its queries have returned, and it does so
after the query, in transactions of their own. So what a query returns decides what the run inserts,
unless the run is cut short.

* `Returned`: the entities whose rows are in the result of a query.
* `logged_of_returned`: a run that has come to its end has inserted a row for each of them.
* `clerk`: the observer that keeps a log of every run.
* `covered_of_returned`: the same for one of many runs, while the tables change around them.
-/

namespace MiniWallet

open Numeric Process

namespace BackfillEvents

variable {uuid5 : String → UUID} {force : Bool}

/-! ## One run -/

/-- What a run has awaited, and how that ended. -/
abbrev RunLog := List ((o : Op) × Except Exc o.Out)

/-- The row of the entity is in the result of the query. -/
def Returned : (o : Op) → Except Exc o.Out → Entity → Prop
  | .accountRows, .ok (rows : List Account), .account a => a ∈ rows
  | .transferRows, .ok (rows : List (Transfer Decimal)), .transfer t => t.loaded ∈ rows
  | .seedRows, .ok (rows : List (LedgerEntry Decimal × Option UUID)), .seed e owner =>
      (e.loaded, owner) ∈ rows
  | _, _, _ => False

/-- A query returns the rows of all the entities that it finds. -/
theorem returned_of_ends {s : Shared} {o : Op} {a : o.Out} (h : Ends s o (.ok a)) {x : Entity}
    (hx : x ∈ s.db.selected o) : Returned o (.ok a) x := by
  cases o with
  | accountRows =>
      have hquery : Query s.db.userAccounts (·.createdAt) a := h
      obtain ⟨account, haccount, rfl⟩ := List.mem_map.mp hx
      exact hquery.perm.mem_iff.mpr haccount
  | transferRows =>
      obtain ⟨stored, hquery, rfl⟩ := h
      obtain ⟨t, ht, rfl⟩ := List.mem_map.mp hx
      exact List.mem_map_of_mem (hquery.perm.mem_iff.mpr ht)
  | seedRows =>
      obtain ⟨stored, hquery, rfl⟩ := h
      obtain ⟨e, he, rfl⟩ := List.mem_map.mp hx
      exact List.mem_map.mpr ⟨e, hquery.perm.mem_iff.mpr he, rfl⟩
  | _ => cases hx

/-- The operation is not one of the queries for the entities. -/
def Op.NotQuery : Op → Prop
  | .accountRows | .transferRows | .seedRows => False
  | _ => True

/-- What is not a query returns no entity. -/
theorem not_returned {o : Op} {r : Except Exc o.Out} (h : o.NotQuery) (x : Entity) :
    ¬ Returned o r x := by
  cases o with
  | accountRows | transferRows | seedRows => exact absurd h id
  | _ => exact id

/-- The guard is not a query for entities. -/
theorem awaits_preflight : (preflight force).Awaits Op.NotQuery := by
  unfold preflight
  split
  · exact trivial
  · refine .bind (Prog.awaits_perform trivial) fun count => ?_
    split <;> exact trivial

/-- Publishing an event queries nothing. -/
theorem awaits_publishEvent (topic eventType : String) (payload : EventPayload)
    (actorId : Option UUID) (eventId : String) :
    (publishEvent topic eventType payload actorId eventId).Awaits Op.NotQuery :=
  .bind (Prog.awaits_perform trivial) fun _ => .bind (Prog.awaits_perform trivial) fun _ =>
    Prog.awaits_perform trivial

/-- A loop queries nothing if its body does not. -/
theorem awaits_forEach {α : Type} {body : α → Program Unit}
    (h : ∀ row, (body row).Awaits Op.NotQuery)
    (rows : List α) : (forEach body rows).Awaits Op.NotQuery := by
  induction rows with
  | nil => exact trivial
  | cons row rows ih => exact .bind (h row) fun _ => ih

/-- The log has the insertion of a row about the entity. -/
def Logged (uuid5 : String → UUID) (log : RunLog) (x : Entity) : Prop :=
  ∃ id t, ⟨.insert (x.row uuid5 id t), .ok ()⟩ ∈ log

variable {log : RunLog} {x : Entity}

/-- Whoever has published the event of an entity has inserted a row about it. -/
theorem logged_of_publish (h : (x.publish uuid5).Executes log (.pure ())) : Logged uuid5 log x := by
  obtain ⟨t, now, rest, rfl, -, hrest⟩ := h.of_bind
  obtain ⟨id, uuid4, insert, rfl, -, hinsert⟩ := hrest.of_bind
  refine ⟨id, t, List.mem_append_right _ (List.mem_append_right _ ?_)⟩
  exact hinsert.of_perform ▸ List.mem_singleton.mpr rfl

/-- A loop that has come to its end has gone through its body for every row. -/
theorem executes_forEach {α : Type} {body : α → Program Unit} {rows : List α}
    (h : (forEach body rows).Executes log (.pure ())) :
    ∀ row ∈ rows, ∃ part ⊆ log, (body row).Executes part (.pure ()) := by
  induction rows generalizing log with
  | nil => exact fun row hrow => nomatch hrow
  | cons row rows ih =>
      obtain ⟨_, first, rest, rfl, hfirst, hrest⟩ := h.of_bind
      refine List.forall_mem_cons.mpr ⟨⟨first, List.subset_append_left _ _, hfirst⟩,
        fun row' hrow' => ?_⟩
      obtain ⟨part, hpart, hbody⟩ := ih hrest row' hrow'
      exact ⟨part, List.subset_append_of_subset_right _ hpart, hbody⟩

/-- What the log of a part has inserted, the log of the whole has. -/
theorem Logged.mono {part : RunLog} (h : Logged uuid5 part x) (hsub : part ⊆ log) :
    Logged uuid5 log x := by
  obtain ⟨id, t, hentry⟩ := h
  exact ⟨id, t, hsub hentry⟩

/-- A query and the loop over its result, in which the run inserts a row for everything that the
query has returned. -/
theorem logged_of_query (query : Op) {loop : query.Out → Program Unit}
    {rest : Program Unit} (hloop : ∀ a, (loop a).Awaits Op.NotQuery)
    (hwrites : ∀ {a part}, (loop a).Executes part (.pure ()) → Returned query (.ok a) x →
      Logged uuid5 part x)
    (hrest : ∀ {part : RunLog} {o r}, rest.Executes part (.pure ()) → ⟨o, r⟩ ∈ part →
      Returned o r x → Logged uuid5 part x)
    (h : (do let a ← Prog.perform query
             loop a
             rest : Program Unit).Executes log (.pure ())) {o : Op} {r : Except Exc o.Out}
    (hentry : ⟨o, r⟩ ∈ log) (hx : Returned o r x) : Logged uuid5 log x := by
  -- the log consists of the query, the loop and the rest
  obtain ⟨a, asked, after, rfl, hasked, hnext⟩ := h.of_bind
  obtain rfl := hasked.of_perform
  obtain ⟨_, looped, rested, rfl, hlooped, hrested⟩ := hnext.of_bind
  rcases List.mem_append.mp hentry with hentry | hentry
  · -- the entry is that of the query: the loop inserts the row
    cases List.mem_singleton.mp hentry
    exact (hwrites hlooped hx).mono fun _ hmem =>
      List.mem_append_right _ (List.mem_append_left _ hmem)
  · rcases List.mem_append.mp hentry with hentry | hentry
    · -- the loop makes no query
      exact absurd hx (not_returned (hlooped.awaits (hloop a) _ hentry) x)
    · -- the entry belongs to the rest
      exact (hrest hrested hentry hx).mono fun _ hmem =>
        List.mem_append_right _ (List.mem_append_right _ hmem)

/-- The loop over the accounts inserts their rows. -/
theorem logged_accounts {rows : List Account}
    (h : (forEach (publishAccount uuid5) rows).Executes log (.pure ()))
    (hx : Returned .accountRows (.ok rows) x) : Logged uuid5 log x := by
  cases x with
  | account a =>
      obtain ⟨part, hpart, hbody⟩ := executes_forEach h a hx
      exact (logged_of_publish (publishAccount_eq a ▸ hbody)).mono hpart
  | transfer _ | seed _ _ => exact absurd hx id

/-- The loop over the transfers inserts their rows. -/
theorem logged_transfers {rows : List (Transfer Decimal)}
    (h : (forEach (publishTransfer uuid5) rows).Executes log (.pure ()))
    (hx : Returned .transferRows (.ok rows) x) : Logged uuid5 log x := by
  cases x with
  | transfer t =>
      obtain ⟨part, hpart, hbody⟩ := executes_forEach h t.loaded hx
      exact (logged_of_publish (publishTransfer_eq t ▸ hbody)).mono hpart
  | account _ | seed _ _ => exact absurd hx id

/-- The loop over the seeds inserts their rows. -/
theorem logged_seeds {rows : List (LedgerEntry Decimal × Option UUID)}
    (h : (forEach (publishSeed uuid5) rows).Executes log (.pure ()))
    (hx : Returned .seedRows (.ok rows) x) : Logged uuid5 log x := by
  cases x with
  | seed e owner =>
      obtain ⟨part, hpart, hbody⟩ := executes_forEach h (e.loaded, owner) hx
      exact (logged_of_publish (publishSeed_eq e owner ▸ hbody)).mono hpart
  | account _ | transfer _ => exact absurd hx id

/-- A run that has come to its end has inserted a row for everything that its queries have
returned. -/
theorem logged_of_returned (h : (backfill uuid5 force).Executes log (.pure ())) {o : Op}
    {r : Except Exc o.Out} (hentry : ⟨o, r⟩ ∈ log) (hx : Returned o r x) : Logged uuid5 log x := by
  obtain ⟨_, guarded, queried, rfl, hguarded, hqueried⟩ := h.of_bind
  rcases List.mem_append.mp hentry with hentry | hentry
  · exact absurd hx (not_returned (hguarded.awaits awaits_preflight _ hentry) x)
  refine Logged.mono ?_ (List.subset_append_right _ _)
  refine logged_of_query .accountRows (fun rows => awaits_forEach (fun _ => ?_) rows)
    logged_accounts (fun hrest hentry hx => ?_) hqueried hentry hx
  · exact awaits_publishEvent ..
  refine logged_of_query .transferRows (fun rows => awaits_forEach (fun row => ?_) rows)
    logged_transfers (fun hrest hentry hx => ?_) hrest hentry hx
  · unfold publishTransfer
    split <;> exact awaits_publishEvent ..
  -- nothing follows the loop over the seeds
  obtain ⟨rows, asked, looped, rfl, hasked, hlooped⟩ := hrest.of_bind
  obtain rfl := hasked.of_perform
  rcases List.mem_append.mp hentry with hentry | hentry
  · cases List.mem_singleton.mp hentry
    exact (logged_seeds hlooped hx).mono (List.subset_append_right _ _)
  · have hloop : (forEach (publishSeed uuid5) rows).Awaits Op.NotQuery :=
      awaits_forEach (fun _ => awaits_publishEvent ..) rows
    exact absurd hx (not_returned (hlooped.awaits hloop _ hentry) x)

/-! ## All runs -/

/-- The observer that keeps a log of every run. -/
def clerk : Observer Op Op.Out Exc Shared (List OutboxRow) (ℕ → RunLog) where
  start := fun _ => []
  next := fun _ l logs => l.log logs

/-- The record of the clerk is the logs. -/
theorem clerk_logs : clerk.Logs id where
  start := fun _ => rfl
  next := fun _ _ _ => rfl

variable {s : Shared} {logs : ℕ → RunLog}

/-- The runs, as the clerk observes them. -/
abbrev Observed (uuid5 : String → UUID) (s : Shared) (logs : ℕ → RunLog)
    (c : Config Op Op.Out Exc Unit Shared (List OutboxRow)) : Prop :=
  Observes clerk (backfills uuid5 false fun s s' => s'.inserted = s.inserted) anyObserved s logs c

variable {c : Config Op Op.Out Exc Unit Shared (List OutboxRow)}

/-- A row whose insertion is in a log is on record. -/
theorem inserted_of_logged (h : Observed uuid5 s logs c) {i : ℕ} {row : OutboxRow}
    (hentry : ⟨.insert row, .ok ()⟩ ∈ logs i) : row ∈ c.shared.inserted := by
  refine Observes.invariant (System.abides_any s)
    (I := fun logs w => ∀ i row, ⟨.insert row, .ok ()⟩ ∈ logs i → row ∈ w.shared.inserted)
    { init := fun _ _ hentry => absurd hentry List.not_mem_nil
      spawn := fun hI => hI
      call := ?_
      stop := fun hI => hI
      env := fun hI he i row hentry => he ▸ hI i row hentry } h i row hentry
  intro logs c i o r _ _ hI j row hentry
  dsimp only [System.afterCall, clerk, Label.log] at hentry ⊢
  -- the entry is new only if the run is the one that takes the step
  by_cases hj : j = i
  · subst hj
    rw [Function.update_self] at hentry
    rcases List.mem_append.mp hentry with hentry | hentry
    · exact inserted_effect o r _ (hI j row hentry)
    · cases List.mem_singleton.mp hentry
      exact List.mem_cons_self
  · rw [Function.update_of_ne hj] at hentry
    exact inserted_effect o r _ (hI j row hentry)

/-- What the queries of a run have returned is on record once the run has come to its end. -/
theorem covered_of_returned (h : Observed uuid5 s logs c) {i : ℕ}
    (hdone : c.pool i = some (pure ())) {o : Op} {r : Except Exc o.Out} (hentry : ⟨o, r⟩ ∈ logs i)
    (hx : Returned o r x) : Covered uuid5 c.shared.inserted x := by
  have hlt := (h.run.fresh (System.fresh_initial s)).lt_size hdone
  obtain ⟨p, p', hstart, hexecutes, hrest⟩ := h.executes clerk_logs i hlt
  obtain rfl := hstart
  obtain rfl := hrest _ hdone
  obtain ⟨id, t, hlogged⟩ := logged_of_returned hexecutes hentry hx
  exact ⟨id, t, inserted_of_logged h hlogged⟩

end BackfillEvents

end MiniWallet
