import MiniWallet.Management.BackfillEvents
import MiniWallet.Safety.AuditTrail
import MiniWallet.Safety.History

/-!
# The backfill is exact

Any number of backfill runs, which may crash at any point, leave rows for entities of the database
in the outbox, in any mixture of prefixes and with different times. What the consumers make of them
depends on none of this: they tell the events apart by their identifiers, and these are the names of
the entities.

* `reports`, `reports_backfill`: a run inserts rows for the entities it finds, and a run that
  completes has inserted one for each of them.
* `reported_of_finds`, `covered_of_finds`: the same for all runs together, whatever happens to them
  and while the tables change around them.
* `inserted_reported`, `covered_of_completed`: the same over tables that stay as they are.
-/

namespace MiniWallet

open Numeric Process System Python

namespace BackfillEvents

variable {uuid5 : String → UUID} {force : Bool} {P All : Entity → Prop}

/-! ## One run -/

/-- The row is about one of the entities. -/
def Reported (uuid5 : String → UUID) (P : Entity → Prop) (row : OutboxRow) : Prop :=
  ∃ x, P x ∧ ∃ id t, InDatetime t ∧ row = x.row uuid5 id t

/-- One of the rows is about the entity. -/
def Covered (uuid5 : String → UUID) (rows : List OutboxRow) (x : Entity) : Prop :=
  ∃ id t, x.row uuid5 id t ∈ rows

/-- The queries find only entities in `P`, among them all those in `All`, and a run inserts rows for
entities in `P`. -/
def reports (uuid5 : String → UUID) (P All : Entity → Prop) :
    Contract Op Op.Out Exc (List OutboxRow) where
  guard := fun o _ =>
    match o with
    | .insert row => Reported uuid5 P row
    | _ => True
  possible := fun o r _ =>
    match o, r with
    | .accountRows, .ok rows => ∃ stored : List Account, rows = stored ∧
        (∀ a ∈ stored, P (.account a)) ∧ ∀ a, All (.account a) → a ∈ stored
    | .transferRows, .ok rows => ∃ stored : List (Transfer Ticks),
        rows = stored.map Transfer.loaded ∧
        (∀ t ∈ stored, P (.transfer t)) ∧ ∀ t, All (.transfer t) → t ∈ stored
    | .seedRows, .ok rows => ∃ stored : List (LedgerEntry Ticks × Option UUID),
        rows = stored.map (fun p => (p.1.loaded, p.2)) ∧
        (∀ p ∈ stored, P (.seed p.1 p.2)) ∧ ∀ e owner, All (.seed e owner) → (e, owner) ∈ stored
    | .now, .ok t => InDatetime t
    | _, _ => True

/-- The program keeps to the contract, and if it returns, then in `Q`. -/
abbrev Leads (C : Contract Op Op.Out Exc (List OutboxRow)) {α : Type} (p : Program α)
    (Q : α → List OutboxRow → Prop) (σ : List OutboxRow) : Prop :=
  C.wp after p Q (fun _ _ => True) σ

/-- `Leads` for the contract `reports`. -/
abbrev Reports (uuid5 : String → UUID) (P All : Entity → Prop) {α : Type} (p : Program α)
    (Q : α → List OutboxRow → Prop) (σ : List OutboxRow) : Prop :=
  Leads (reports uuid5 P All) p Q σ

section Rules

variable {α β : Type} {C : Contract Op Op.Out Exc (List OutboxRow)} {σ : List OutboxRow}

/-- Returning. -/
theorem leads_pure {a : α} {Q : α → List OutboxRow → Prop} (h : Q a σ) : Leads C (pure a) Q σ :=
  (C.wp_pure after a).mpr h

/-- One program after the other. -/
theorem leads_bind {p : Program α} {f : α → Program β} {Q : β → List OutboxRow → Prop}
    (h : Leads C p (fun a σ' => Leads C (f a) Q σ') σ) : Leads C (p >>= f) Q σ :=
  (C.wp_bind after p f).mpr h

/-- A result may be described more weakly. -/
theorem leads_mono {p : Program α} {Q Q' : α → List OutboxRow → Prop} (h : Leads C p Q σ)
    (hQ : ∀ a σ', Q a σ' → Q' a σ') : Leads C p Q' σ :=
  C.wp_mono after hQ (fun _ _ h => h) h

/-- An operation under its guard. -/
theorem leads_perform {o : Op} {Q : o.Out → List OutboxRow → Prop} (hguard : C.guard o σ)
    (h : ∀ a, C.possible o (.ok a) σ → Q a (after o (.ok a) σ)) : Leads C (Prog.perform o) Q σ :=
  (C.wp_perform after o).mpr ⟨hguard, h, fun _ _ => trivial⟩

/-- A loop keeps an invariant that speaks of the rows it has gone through. It gets the rows as a
query loads them. -/
theorem leads_forEach {body : β → Program Unit} (load : α → β) {I : List α → List OutboxRow → Prop}
    {rows done : List α} (h : I done σ) (hbody : ∀ a ∈ rows, ∀ done σ, I done σ →
      Leads C (body (load a)) (fun _ σ' => I (done ++ [a]) σ') σ) :
    Leads C (forEach body (rows.map load)) (fun _ σ' => I (done ++ rows) σ') σ := by
  induction rows generalizing σ done with
  | nil =>
      rw [List.append_nil]
      exact leads_pure h
  | cons row rows ih =>
      refine leads_bind (leads_mono (hbody row List.mem_cons_self done σ h) fun _ σ₁ h₁ => ?_)
      refine leads_mono (ih h₁ fun a ha => hbody a (List.mem_cons_of_mem _ ha)) fun _ σ₂ h₂ => ?_
      rwa [List.append_assoc, List.singleton_append] at h₂

end Rules

variable {σ : List OutboxRow}

variable (uuid5) in
/-- Publish the event of an entity. -/
def Entity.publish (x : Entity) : Program Unit :=
  publishEvent x.payload.topic x.payload.eventType x.payload none (uuid5 x.name).str

/-- The body of the loop over the accounts. -/
theorem publishAccount_eq (a : Account) :
    publishAccount uuid5 a = (Entity.account a).publish uuid5 := rfl

/-- The body of the loop over the transfers. -/
theorem publishTransfer_eq (t : Transfer Ticks) :
    publishTransfer uuid5 t.loaded = (Entity.transfer t).publish uuid5 := by
  unfold publishTransfer Entity.publish Entity.name Entity.payload
  cases hstatus : t.status <;> simp only [Transfer.loaded, Transfer.map, hstatus] <;> rfl

/-- The body of the loop over the seeds. -/
theorem publishSeed_eq (e : LedgerEntry Ticks) (owner : Option UUID) :
    publishSeed uuid5 (e.loaded, owner) = (Entity.seed e owner).publish uuid5 := by
  unfold publishSeed Entity.publish Entity.name Entity.payload
  rfl

/-- Publishing the event of an entity inserts a row for it. -/
theorem reports_publish {x : Entity} (hx : P x) :
    Reports uuid5 P All (x.publish uuid5) (fun _ σ' => σ ⊆ σ' ∧ Covered uuid5 σ' x) σ := by
  refine leads_bind (leads_perform trivial fun t ht => ?_)
  refine leads_bind (leads_perform trivial fun id _ => ?_)
  refine leads_perform ⟨x, hx, id, t, ht, rfl⟩ fun _ _ => ?_
  exact ⟨List.subset_cons_self _ _, id, t, List.mem_cons_self⟩

/-- An entity stays covered when more rows are inserted. -/
theorem Covered.mono {σ' : List OutboxRow} {x : Entity} (h : Covered uuid5 σ x) (hsub : σ ⊆ σ') :
    Covered uuid5 σ' x := by
  obtain ⟨id, t, hmem⟩ := h
  exact ⟨id, t, hsub hmem⟩

/-- A loop inserts a row for each entity that it goes through. It gets the rows of the entities as a
query loads them. -/
theorem reports_forEach {α β : Type} {body : β → Program Unit} (load : α → β) (entity : α → Entity)
    {rows : List α} (hbody : ∀ a ∈ rows, ∀ σ, Reports uuid5 P All (body (load a))
      (fun _ σ' => σ ⊆ σ' ∧ Covered uuid5 σ' (entity a)) σ) :
    Reports uuid5 P All (forEach body (rows.map load))
      (fun _ σ' => σ ⊆ σ' ∧ ∀ a ∈ rows, Covered uuid5 σ' (entity a)) σ := by
  let I (done : List α) (σ' : List OutboxRow) := σ ⊆ σ' ∧ ∀ a ∈ done, Covered uuid5 σ' (entity a)
  have hinit : I [] σ := ⟨List.Subset.refl _, fun a ha => absurd ha List.not_mem_nil⟩
  refine leads_forEach load hinit fun a ha done σ₁ h => ?_
  obtain ⟨hsub, hcovered⟩ := h
  refine leads_mono (hbody a ha σ₁) fun _ σ₂ h₂ => ?_
  obtain ⟨hsub', hrow⟩ := h₂
  refine ⟨List.Subset.trans hsub hsub', List.forall_mem_append.mpr ⟨fun b hb => ?_,
    List.forall_mem_singleton.mpr hrow⟩⟩
  exact (hcovered b hb).mono hsub'

/-- The guard inserts nothing. -/
theorem reports_preflight : Reports uuid5 P All (preflight force) (fun _ _ => True) σ := by
  unfold preflight
  split
  · exact leads_pure trivial
  · refine leads_bind (leads_perform trivial fun count _ => ?_)
    split
    · exact ((reports uuid5 P All).wp_throw after _).mpr trivial
    · exact leads_pure trivial

/-- The loop over the accounts. -/
theorem reports_accounts {accounts : List Account} (h : ∀ a ∈ accounts, P (.account a)) :
    Reports uuid5 P All (forEach (publishAccount uuid5) accounts)
      (fun _ σ' => σ ⊆ σ' ∧ ∀ a ∈ accounts, Covered uuid5 σ' (.account a)) σ := by
  have hloop : Reports uuid5 P All (forEach (publishAccount uuid5) (accounts.map id))
      (fun _ σ' => σ ⊆ σ' ∧ ∀ a ∈ accounts, Covered uuid5 σ' (.account a)) σ :=
    reports_forEach id Entity.account fun a ha σ => reports_publish (h a ha)
  rwa [List.map_id] at hloop

/-- The loop over the transfers. -/
theorem reports_transfers {transfers : List (Transfer Ticks)}
    (h : ∀ t ∈ transfers, P (.transfer t)) :
    Reports uuid5 P All (forEach (publishTransfer uuid5) (transfers.map Transfer.loaded))
      (fun _ σ' => σ ⊆ σ' ∧ ∀ t ∈ transfers, Covered uuid5 σ' (.transfer t)) σ :=
  reports_forEach Transfer.loaded Entity.transfer fun t ht _ =>
    publishTransfer_eq t ▸ reports_publish (h t ht)

/-- What the query for the seeds loads. -/
def loadSeed (p : LedgerEntry Ticks × Option UUID) : LedgerEntry Decimal × Option UUID :=
  (p.1.loaded, p.2)

/-- The loop over the seeds. -/
theorem reports_seeds {seeds : List (LedgerEntry Ticks × Option UUID)}
    (h : ∀ p ∈ seeds, P (.seed p.1 p.2)) :
    Reports uuid5 P All (forEach (publishSeed uuid5) (seeds.map loadSeed))
      (fun _ σ' => σ ⊆ σ' ∧ ∀ p ∈ seeds, Covered uuid5 σ' (.seed p.1 p.2)) σ := by
  let entity (p : LedgerEntry Ticks × Option UUID) := Entity.seed p.1 p.2
  refine reports_forEach loadSeed entity fun p hp σ => ?_
  exact publishSeed_eq p.1 p.2 ▸ reports_publish (h p hp)

/-- A run that completes has inserted a row for everything in `All`. -/
theorem reports_backfill :
    Reports uuid5 P All (backfill uuid5 force) (fun _ σ' => ∀ x, All x → Covered uuid5 σ' x) σ := by
  -- after the preflight the three queries follow, each with its loop
  refine leads_bind (leads_mono reports_preflight fun _ σ₀ _ => ?_)
  refine leads_bind (leads_perform trivial ?_)
  rintro _ ⟨accounts, rfl, hP, hAll⟩
  refine leads_bind (leads_mono (reports_accounts hP) ?_)
  rintro _ σ₁ ⟨-, hcovered⟩
  refine leads_bind (leads_perform trivial ?_)
  rintro _ ⟨transfers, rfl, hP', hAll'⟩
  refine leads_bind (leads_mono (reports_transfers hP') ?_)
  rintro _ σ₂ ⟨hsub, hcovered'⟩
  refine leads_bind (leads_perform trivial ?_)
  rintro _ ⟨seeds, rfl, hP'', hAll''⟩
  refine leads_mono (reports_seeds hP'') ?_
  rintro _ σ₃ ⟨hsub', hcovered''⟩ x hx
  -- what an earlier loop has inserted is kept by the later ones
  cases x with
  | account a => exact (hcovered a (hAll a hx)).mono (List.Subset.trans hsub hsub')
  | transfer t => exact (hcovered' t (hAll' t hx)).mono hsub'
  | seed e owner => exact hcovered'' (e, owner) (hAll'' e owner hx)

/-! ## Runs beside other changes -/

/-- The queries of the runs find only entities in `P`. -/
def Selects (P : Entity → Prop) : World Shared (List OutboxRow) → Label Op Op.Out Exc → Prop
  | w, .call _ o (.ok _) => ∀ x ∈ w.shared.db.selected o, P x
  | _, _ => True

/-- The queries find only entities in `P`, and the tables hold all those in `All`. -/
def Finds (P All : Entity → Prop) (w : World Shared (List OutboxRow)) (l : Label Op Op.Out Exc) :
    Prop :=
  Selects P w l ∧ ∀ x, All x → x ∈ w.shared.db.entities

/-- A query finds entities of the database. -/
theorem selected_subset (db : Database) (o : Op) : db.selected o ⊆ db.entities := by
  intro x hx
  cases o with
  | accountRows => exact List.mem_append_left _ (List.mem_append_left _ hx)
  | transferRows => exact List.mem_append_left _ (List.mem_append_right _ hx)
  | seedRows => exact List.mem_append_right _ hx
  | _ => cases hx

/-- The command leaves the tables of the services alone. -/
@[simp]
theorem effect_db (o : Op) (r : Except Exc o.Out) (s : Shared) : (effect o r s).db = s.db := by
  unfold effect
  split <;> rfl

/-- The runs leave the clock alone. -/
theorem effect_clock (o : Op) (r : Except Exc o.Out) (s : Shared) :
    (effect o r s).clock = s.clock := by
  unfold effect
  split <;> rfl

/-- An operation keeps what has been inserted. -/
theorem inserted_effect (o : Op) (r : Except Exc o.Out) (s : Shared) :
    s.inserted ⊆ (effect o r s).inserted := by
  unfold effect
  split
  · exact List.subset_cons_self _ _
  · exact List.Subset.refl _

/-- What the queries return is what they find. -/
theorem possible_of_ends {w : World Shared (List OutboxRow)} {i : ℕ} {o : Op} {r : Except Exc o.Out}
    (h : Ends w.shared o r) (hfinds : Finds P All w (.call i o r)) (σ : List OutboxRow) :
    (reports uuid5 P All).possible o r σ := by
  -- an operation that fails promises nothing
  cases r with
  | error e => cases o <;> trivial
  | ok a =>
      obtain ⟨hP, hAll⟩ := hfinds
      cases o with
      | accountRows =>
          have hquery : Query w.shared.db.userAccounts (·.createdAt) a := h
          refine ⟨a, rfl, fun x hx => hP _ ?_, fun x hx => ?_⟩
          · exact List.mem_map_of_mem (hquery.perm.mem_iff.mp hx)
          · simpa [hquery.perm.mem_iff, Database.entities] using hAll _ hx
      | transferRows =>
          obtain ⟨stored, hquery, rfl⟩ := h
          refine ⟨stored, rfl, fun x hx => hP _ ?_, fun x hx => ?_⟩
          · exact List.mem_map_of_mem (hquery.perm.mem_iff.mp hx)
          · simpa [hquery.perm.mem_iff, Database.entities] using hAll _ hx
      -- a seed is loaded together with the owner of its account
      | seedRows =>
          obtain ⟨stored, hquery, rfl⟩ := h
          refine ⟨stored.map fun e => (e, w.shared.db.owner e.accountId), ?_, fun x hx => hP _ ?_,
            fun e owner hx => ?_⟩
          · rw [List.map_map]
            rfl
          · obtain ⟨e, he, rfl⟩ := List.mem_map.mp hx
            exact List.mem_map.mpr ⟨e, hquery.perm.mem_iff.mp he, rfl⟩
          · simpa [hquery.perm.mem_iff, Database.entities] using hAll _ hx
      | now => exact h
      | countAccountOpened => trivial
      | uuid4 => trivial
      | insert _ => trivial

/-- An operation under its guard inserts rows for entities in `P` only. -/
theorem forall_inserted_effect {o : Op} {r : Except Exc o.Out} {σ : List OutboxRow} {s : Shared}
    (hguard : (reports uuid5 P All).guard o σ) (h : ∀ row ∈ s.inserted, Reported uuid5 P row) :
    ∀ row ∈ (effect o r s).inserted, Reported uuid5 P row := by
  unfold effect
  split
  · exact List.forall_mem_cons.mpr ⟨hguard, h⟩
  · exact h

/-- A run knows only rows that have been inserted. -/
theorem after_subset_effect (o : Op) (r : Except Exc o.Out) {σ : List OutboxRow} {s : Shared}
    (h : σ ⊆ s.inserted) : after o r σ ⊆ (effect o r s).inserted := by
  cases o with
  | insert row =>
      cases r with
      | ok _ => exact List.cons_subset_cons _ h
      | error _ => exact h
  | _ => exact h

section Beside

variable {env : Shared → Shared → Prop} {s₀ : Shared}
  {c : Config Op Op.Out Exc Unit Shared (List OutboxRow)}

/-- Whatever happens around the runs, every row that has been inserted is about an entity that a
query has found, and a run knows its rows. -/
theorem reported_of_finds (All : Entity → Prop) (henv : ∀ s s', env s s' → s'.inserted = s.inserted)
    (hs₀ : s₀.inserted = [])
    (h : (backfills uuid5 force env).Run (Finds P All) ((backfills uuid5 force env).initial s₀) c) :
    (∀ row ∈ c.shared.inserted, Reported uuid5 P row) ∧ ∀ i, c.sess i ⊆ c.shared.inserted := by
  have habides : ((backfills uuid5 force env).under (Finds P All)).Abides
    (reports uuid5 P All) s₀ :=
    { possible := fun _ ⟨hends, hfinds⟩ => possible_of_ends hends hfinds _
      safe := fun hp => by
        obtain rfl := hp
        exact Contract.wp_mono _ after (fun _ _ _ => trivial) (fun _ _ h => h) reports_backfill }
  refine h.under.invariant habides
    (I := fun w => (∀ row ∈ w.shared.inserted, Reported uuid5 P row) ∧
      ∀ i, w.sess i ⊆ w.shared.inserted)
    { init := ⟨fun row hrow => ?_, fun _ => List.nil_subset _⟩
      spawn := fun _ hI => hI
      call := ?_
      stop := ?_
      env := ?_ }
  · -- nothing has been inserted at the start
    have hrow' : row ∈ s₀.inserted := hrow
    rw [hs₀] at hrow'
    cases hrow'
  · intro c i o r hcall ⟨hreported, hsess⟩
    dsimp only [afterCall]
    refine ⟨?_, fun j => ?_⟩
    · -- what is inserted now is about an entity that the run has been given
      exact forall_inserted_effect hcall.guard hreported
    · by_cases hj : j = i
      · subst hj
        rw [Function.update_self]
        exact after_subset_effect o r (hsess j)
      · rw [Function.update_of_ne hj]
        exact List.Subset.trans (hsess j) (inserted_effect o r _)
  · intro c i _ ⟨hreported, hsess⟩ _
    refine ⟨hreported, fun j => ?_⟩
    dsimp only [afterStop]
    by_cases hj : j = i
    · subst hj
      rw [Function.update_self]
      exact List.nil_subset _
    · rw [Function.update_of_ne hj]
      exact hsess j
  · intro c s' _ ⟨hreported, hsess⟩ he
    dsimp only
    rw [henv _ _ he]
    exact ⟨hreported, hsess⟩

/-- A run that has completed has inserted a row for everything that was always there. -/
theorem covered_of_finds (All : Entity → Prop) (henv : ∀ s s', env s s' → s'.inserted = s.inserted)
    (hs₀ : s₀.inserted = [])
    (h : (backfills uuid5 force env).Run (Finds P All) ((backfills uuid5 force env).initial s₀) c)
    {i : ℕ} (hdone : c.pool i = some (pure ())) {x : Entity} (hx : All x) :
    Covered uuid5 c.shared.inserted x := by
  have hpost := h.wp (C := reports uuid5 P All) (Q := fun _ σ => ∀ x, All x → Covered uuid5 σ x)
    (R := fun _ _ => True)
    (fun _ hfinds hends => possible_of_ends hends hfinds _)
    (fun hp => by
      obtain rfl := hp
      exact reports_backfill) hdone
  exact (((reports uuid5 P All).wp_pure after ()).mp hpost x hx).mono
    ((reported_of_finds All henv hs₀ h).2 i)

end Beside

/-! ## Runs over fixed tables -/

/-- What happens around the runs leaves the other tables alone. The relay only updates and deletes
rows of the outbox. -/
structure Quiet (s s' : Shared) : Prop where
  db : s'.db = s.db
  inserted : s'.inserted = s.inserted
  outbox : ∀ row ∈ s'.outbox, ∃ row' ∈ s.outbox, row.toOutboxRow = row'.toOutboxRow

/-- The state before the first run: no events were ever published. -/
def Shared.before (db : Database) (t₀ : Time) : Shared where
  db := db
  clock := t₀

section Runs

variable {db : Database} {t₀ : Time}
  {c c' : Config Op Op.Out Exc Unit Shared (List OutboxRow)}
  {ok : World Shared (List OutboxRow) → Label Op Op.Out Exc → Prop}

/-- The command, while nothing else changes the other tables. -/
abbrev quietBackfills (uuid5 : String → UUID) (force : Bool) := backfills uuid5 force Quiet

/-- The state before the first run of the command. -/
abbrev historicalStart (uuid5 : String → UUID) (force : Bool) (db : Database) (t₀ : Time) :=
  (quietBackfills uuid5 force).initial (.before db t₀)

/-- The runs leave the other tables alone. -/
theorem db_eq (h : (quietBackfills uuid5 force).Run ok (historicalStart uuid5 force db t₀) c) :
    c.shared.db = db := by
  induction h with
  | refl => rfl
  | step _ _ hs ih =>
      cases hs with
      | call _ _ => exact (effect_db _ _ _).trans ih
      | spawn _ => exact ih
      | stop _ => exact ih
      | env henv => exact henv.db.trans ih

/-- What has been inserted stays among the inserted rows. -/
theorem inserted_mono (h : (quietBackfills uuid5 force).Run ok c c') :
    c.shared.inserted ⊆ c'.shared.inserted := by
  induction h with
  | refl => exact List.Subset.refl _
  | step _ _ hs ih =>
      refine List.Subset.trans ih ?_
      cases hs with
      | call _ _ => exact inserted_effect _ _ _
      | spawn _ => exact List.Subset.refl _
      | stop _ => exact List.Subset.refl _
      | env henv => exact henv.inserted ▸ List.Subset.refl _

/-- The runs find the entities of the database, and nothing else. -/
theorem finds_entities
    (h : (quietBackfills uuid5 force).Run ok (historicalStart uuid5 force db t₀) c) :
    (quietBackfills uuid5 force).Run (Finds (· ∈ db.entities) (· ∈ db.entities))
      (historicalStart uuid5 force db t₀) c := by
  refine h.imp fun {c l} hrun _ => ?_
  have hdb : c.shared.db = db := db_eq hrun
  refine ⟨?_, fun x hx => hdb.symm ▸ hx⟩
  unfold Selects
  split
  · exact fun x hx => hdb ▸ selected_subset _ _ hx
  · trivial

/-- Every row that has been inserted is about an entity of the database, and a run knows its
rows. -/
theorem inserted_reported
    (h : (quietBackfills uuid5 force).Run ok (historicalStart uuid5 force db t₀) c) :
    (∀ row ∈ c.shared.inserted, Reported uuid5 (· ∈ db.entities) row) ∧
      ∀ i, c.sess i ⊆ c.shared.inserted :=
  reported_of_finds _ (fun _ _ he => he.inserted) rfl (finds_entities h)

/-- A run that has completed has inserted a row for each entity of the database. -/
theorem covered_of_completed
    (h : (quietBackfills uuid5 force).Run ok (historicalStart uuid5 force db t₀) c) {i : ℕ}
    (hdone : c.pool i = some (pure ())) {x : Entity} (hx : x ∈ db.entities) :
    Covered uuid5 c.shared.inserted x :=
  covered_of_finds _ (fun _ _ he => he.inserted) rfl (finds_entities h) hdone hx

end Runs

end BackfillEvents

end MiniWallet
