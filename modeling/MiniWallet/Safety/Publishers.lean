import MiniWallet.Safety.Batches
import MiniWallet.Safety.Delivery

/-!
# One publisher for each row

When no relay crashes and no recovery resets a row, the relays share the work exactly. The
observer's list of sends and the rows themselves tell the same story: a row has been acknowledged
once if it is published and otherwise not at all, and its retry count is the number of failed sends.

* `Orderly`: the steps of relays that do not crash.
* `Exact`, `exact`: the invariant about the numbers of sends.
* `OnePublisher`, `one_publisher`: the guarantee for every run.
-/

namespace MiniWallet

open Process System OutboxRelay

namespace OutboxRelay

/-- No relay crashes, sending fails only with `KafkaError`, and `recover_stuck_rows` finds nothing
to reset. -/
def Orderly (_ : Tally) (w : World Shared Session) : Label Op Op.Out Exc → Prop
  | .call _ (.recoverStuckRows cutoff) (.ok _) =>
      ∀ row ∈ w.shared.table, OutboxTable.isStuck cutoff row = false
  | .call _ (.sendAndWait _) (.error e) => e = .kafkaError
  | .call _ _ (.error _) => False
  | .stop _ => False
  | _ => True

/-- Whether a step is orderly is decidable. -/
instance (g : Tally) (w : World Shared Session) (l : Label Op Op.Out Exc) :
    Decidable (Orderly g w l) :=
  match l with
  | .call _ (.recoverStuckRows cutoff) (.ok _) => inferInstanceAs (Decidable
      (∀ row ∈ w.shared.table, OutboxTable.isStuck cutoff row = false))
  | .call _ (.sendAndWait _) (.error e) => inferInstanceAs (Decidable (e = .kafkaError))
  | .stop _ | .call _ .monotonic (.error _) | .call _ .now (.error _)
  | .call _ (.sleep _) (.error _) | .call _ .claim (.error _) | .call _ (.confirm _) (.error _)
  | .call _ (.recoverStuckRows _) (.error _) | .call _ (.cleanupPublishedRows _ _) (.error _) =>
      inferInstanceAs (Decidable False)
  | .spawn | .env | .call _ .monotonic (.ok _) | .call _ .now (.ok _) | .call _ (.sleep _) (.ok _)
  | .call _ .claim (.ok _) | .call _ (.confirm _) (.ok _)
  | .call _ (.cleanupPublishedRows _ _) (.ok _) | .call _ (.sendAndWait _) (.ok _) =>
      inferInstanceAs (Decidable True)

/-- A recovery that resets nothing takes no row away from anybody. -/
theorem Orderly.considerate {g : Tally} {w : World Shared Session} {l : Label Op Op.Out Exc}
    (h : Orderly g w l) : Considerate g w l := by
  unfold Considerate
  split
  · intro row hrow hstuck
    rw [h row hrow] at hstuck
    cases hstuck
  · trivial

/-- How many times sending the row has succeeded. -/
def acks (sends : List (QueuedRow × Bool)) (id : UUID) : ℕ :=
  sends.countP fun p => p.1.id = id && p.2

/-- How many times sending the row has failed. -/
def failures (sends : List (QueuedRow × Bool)) (id : UUID) : ℕ :=
  sends.countP fun p => p.1.id = id && !p.2

/-- No relay holds the row. -/
def Free (work : ℕ → Work) (row : QueuedRow) : Prop :=
  ∀ i, ∀ held ∈ (work i).rows, held.id ≠ row.id

section Update

variable {β : Type} {work : ℕ → Work} {i j : ℕ} {w : Work} {row : QueuedRow}

/-- What a relay holds after a step of relay `i` is what `i` holds now or what it held before. -/
theorem mem_update {f : Work → List β} {a : β} (h : a ∈ f (Function.update work i w j)) :
    (j = i ∧ a ∈ f w) ∨ (j ≠ i ∧ a ∈ f (work j)) := by
  by_cases hj : j = i
  · subst hj
    rw [Function.update_self] at h
    exact .inl ⟨rfl, h⟩
  · rw [Function.update_of_ne hj] at h
    exact .inr ⟨hj, h⟩

/-- A row that is free after a step of relay `i` was free before, if `i` did not hold it. -/
theorem Free.before (h : Free (Function.update work i w) row)
    (hi : ∀ held ∈ (work i).rows, held.id ≠ row.id) : Free work row := by
  intro j
  by_cases hj : j = i
  · rw [hj]
    exact hi
  · have := h j
    rwa [Function.update_of_ne hj] at this

/-- A row that is free after a step of relay `i` is not held by `i`. -/
theorem Free.self (h : Free (Function.update work i w) row) :
    ∀ held ∈ w.rows, held.id ≠ row.id := by
  have := h i
  rwa [Function.update_self] at this

end Update

section Counts

variable {sends : List (QueuedRow × Bool)} {row : QueuedRow} {id : UUID}

/-- Sending a row counts for this row, -/
theorem counts_self (success : Bool) :
    acks ((row, success) :: sends) row.id = acks sends row.id + (if success then 1 else 0) ∧
      failures ((row, success) :: sends) row.id =
        failures sends row.id + (if success then 0 else 1) := by
  cases success <;> simp [acks, failures]

/-- and for no other row. -/
theorem counts_of_ne (h : row.id ≠ id) (success : Bool) :
    acks ((row, success) :: sends) id = acks sends id ∧
      failures ((row, success) :: sends) id = failures sends id := by
  simp [acks, failures, h]

/-- A row that has not been sent has no sends. -/
theorem counts_of_not_mem (h : ∀ p ∈ sends, p.1.id ≠ id) :
    acks sends id = 0 ∧ failures sends id = 0 := by
  constructor <;> refine List.countP_eq_zero.mpr fun p hp => ?_ <;> simp [h p hp]

end Counts

/-- The rows against the numbers of sends. -/
structure Exact (work : ℕ → Work) (sends : List (QueuedRow × Bool)) (cleaned : List QueuedRow)
    (s : Shared) : Prop where
  /-- A row that nobody holds is acknowledged if and only if it is published. -/
  free : ∀ row ∈ s.table, Free work row → row.status ≠ .publishing ∧
    failures sends row.id = row.retryCount ∧
    acks sends row.id = if row.status = .published then 1 else 0
  /-- A row that is still to be sent is not acknowledged. -/
  todo : ∀ i, ∀ row ∈ (work i).todo, failures sends row.id = row.retryCount ∧ acks sends row.id = 0
  /-- A row whose turn has been has one more send than its batch knows of. -/
  sent : ∀ i, ∀ p ∈ (work i).sent,
    failures sends p.1.id = p.1.retryCount + (if p.2 then 0 else 1) ∧
    acks sends p.1.id = if p.2 then 1 else 0
  /-- A row that was cleaned up has been acknowledged at most once. -/
  once : ∀ row ∈ cleaned, acks sends row.id ≤ 1
  known : ∀ p ∈ sends, p.1.id ∈ s.committed.map (·.id)
  /-- A committed row is in the table until it is cleaned up. -/
  present : ∀ event ∈ s.committed,
    event.id ∈ s.table.map (·.id) ∨ event.id ∈ cleaned.map (·.id)

namespace Exact

variable {work : ℕ → Work} {sends : List (QueuedRow × Bool)} {cleaned : List QueuedRow} {s : Shared}
  {i : ℕ}

/-- The head of a batch is sent. -/
theorem send (h : Exact work sends cleaned s) (hheld : Held work cleaned s) {row : QueuedRow}
    {rest : List QueuedRow} (htodo : (work i).todo = row :: rest) (success : Bool) :
    Exact (Function.update work i ((work i).send success)) ((row, success) :: sends) cleaned s := by
  have hsend : (work i).send success = ⟨rest, (row, success) :: (work i).sent⟩ := by
    rw [Work.send, htodo]
  have hmem : row ∈ (work i).rows := by
    rw [Work.rows, htodo]
    exact List.mem_append_right _ List.mem_cons_self
  have htable := (hheld.held i row hmem).1
  -- the row occurs once in the batch
  have hdistinct := hheld.distinct i
  rw [Work.rows, htodo, List.map_append, List.map_cons, List.nodup_append] at hdistinct
  obtain ⟨-, hrest, hsent⟩ := hdistinct
  have hrest' : ∀ r ∈ rest, row.id ≠ r.id := fun r hr hid =>
    (List.nodup_cons.mp hrest).1 (hid ▸ List.mem_map_of_mem hr)
  have hsent' : ∀ p ∈ (work i).sent, row.id ≠ p.1.id := fun p hp hid =>
    hsent _ (List.mem_map_of_mem (List.mem_map_of_mem hp)) _ List.mem_cons_self hid.symm
  have hothers : ∀ j, j ≠ i → ∀ r ∈ (work j).rows, row.id ≠ r.id := fun j hj r hr =>
    hheld.apart i j (Ne.symm hj) row hmem r hr
  refine ⟨fun r hr hfree => ?_, fun j r hr => ?_, fun j p hp => ?_, fun r hr => ?_, fun p hp => ?_,
    h.present⟩
  · -- what nobody holds now, nobody held before
    have hfree' : Free work r := hfree.before fun held hmem' =>
      hfree.self held (((work i).send_perm success).symm.subset hmem')
    rw [(counts_of_ne (hfree' i row hmem) success).1, (counts_of_ne (hfree' i row hmem) success).2]
    exact h.free r hr hfree'
  · rcases mem_update (f := Work.todo) hr with ⟨rfl, hr⟩ | ⟨hj, hr⟩
    · rw [hsend] at hr
      rw [(counts_of_ne (hrest' r hr) success).1, (counts_of_ne (hrest' r hr) success).2]
      exact h.todo j r (htodo ▸ List.mem_cons_of_mem _ hr)
    · have hne := hothers j hj r (List.mem_append_right _ hr)
      rw [(counts_of_ne hne success).1, (counts_of_ne hne success).2]
      exact h.todo j r hr
  · rcases mem_update (f := Work.sent) hp with ⟨rfl, hp⟩ | ⟨hj, hp⟩
    · rw [hsend] at hp
      rcases List.mem_cons.mp hp with rfl | hp
      · obtain ⟨hfailures, hacks⟩ := h.todo j row (htodo ▸ List.mem_cons_self)
        rw [(counts_self success).1, (counts_self success).2, hfailures, hacks]
        exact ⟨rfl, Nat.zero_add _⟩
      · rw [(counts_of_ne (hsent' p hp) success).1, (counts_of_ne (hsent' p hp) success).2]
        exact h.sent j p hp
    · have hne := hothers j hj p.1 (List.mem_append_left _ (List.mem_map_of_mem hp))
      rw [(counts_of_ne hne success).1, (counts_of_ne hne success).2]
      exact h.sent j p hp
  · have hne : row.id ≠ r.id := fun hid =>
      (hheld.cleaned r hr).2 (hid ▸ List.mem_map_of_mem htable)
    rw [(counts_of_ne hne success).1]
    exact h.once r hr
  · rcases List.mem_cons.mp hp with rfl | hp
    · exact hheld.known row htable
    · exact h.known p hp

/-- A relay with empty hands claims rows. -/
theorem claim (h : Exact work sends cleaned s) (hheld : Held work cleaned s) (hi : work i = {})
    {rows : List QueuedRow} {limit : ℕ} (hrows : s.table.Claimable rows limit) :
    Exact (Function.update work i ⟨rows.map OutboxTable.claimed, []⟩) sends cleaned
      { s with table := s.table.claim rows } := by
  -- a pending row is free and has not been acknowledged
  have hpending : ∀ r ∈ rows, failures sends r.id = r.retryCount ∧ acks sends r.id = 0 := by
    intro r hr
    obtain ⟨hmem, hstatus⟩ := hrows.pending r hr
    have hfree : Free work r := hheld.not_held hmem (by rw [hstatus]; decide)
    obtain ⟨-, hfailures, hacks⟩ := h.free r hmem hfree
    rw [hstatus] at hacks
    exact ⟨hfailures, hacks⟩
  refine ⟨fun r hr hfree => ?_, fun j r hr => ?_, fun j p hp => ?_, h.once, h.known, ?_⟩
  · rcases OutboxTable.mem_claim hr with ⟨hmem, -⟩ | ⟨r', hr', hid, rfl⟩
    · refine h.free r hmem (hfree.before fun held hheld' => ?_)
      rw [hi] at hheld'
      exact absurd hheld' List.not_mem_nil
    · -- the row has just been claimed
      obtain ⟨row, hrow, hid⟩ := List.mem_map.mp hid
      exact absurd hid (hfree.self (OutboxTable.claimed row) (List.mem_map_of_mem hrow))
  · rcases mem_update (f := Work.todo) hr with ⟨-, hr⟩ | ⟨-, hr⟩
    · obtain ⟨row, hrow, rfl⟩ := List.mem_map.mp hr
      exact hpending row hrow
    · exact h.todo j r hr
  · rcases mem_update (f := Work.sent) hp with ⟨-, hp⟩ | ⟨-, hp⟩
    · exact absurd hp List.not_mem_nil
    · exact h.sent j p hp
  · dsimp only
    rw [OutboxTable.map_id_claim]
    exact h.present

/-- A row is written back with what the sends say about it. -/
theorem settle {sent : QueuedRow × Bool} {row : QueuedRow} (hsettles : Settles sent row)
    (hsent : failures sends sent.1.id = sent.1.retryCount + (if sent.2 then 0 else 1) ∧
      acks sends sent.1.id = if sent.2 then 1 else 0) :
    row.status ≠ .publishing ∧ failures sends row.id = row.retryCount ∧
      acks sends row.id = if row.status = .published then 1 else 0 := by
  rw [hsettles.id_eq, hsent.1, hsent.2]
  unfold Settles at hsettles
  split at hsettles
  · next hsuccess =>
      obtain ⟨publishedAt, rfl⟩ := hsettles
      simp [hsuccess]
  · next hfailure =>
      rw [hsettles, sendFailed]
      dsimp only
      split <;> simp

/-- A relay confirms its batch. -/
theorem confirm (h : Exact work sends cleaned s) (hheld : Held work cleaned s)
    {rows : List QueuedRow} (hguard : batches.guard (.confirm rows) (work i)) :
    Exact (Function.update work i {}) sends cleaned { s with table := s.table.confirm rows } := by
  have hids := hheld.mem_ids fun r hr => exists_held_of_confirm hguard hr
  have hdistinct := nodup_of_confirm hguard (hheld.distinct i)
  refine ⟨fun r hr hfree => ?_, fun j r hr => ?_, fun j p hp => ?_, h.once, h.known, ?_⟩
  · -- a row after the confirmation is a copy of the batch, or it is not among the batch
    rcases (OutboxTable.mem_confirm hids hdistinct).mp hr with hrow | ⟨hmem, hid⟩
    · obtain ⟨p, hp, hsettles⟩ := exists_settles hguard.2 hrow
      exact settle hsettles (h.sent i p (List.mem_reverse.mp hp))
    · refine h.free r hmem (hfree.before fun held hheld' heq => hid ?_)
      rw [map_id_of_confirm hguard, List.mem_reverse, ← heq]
      exact List.mem_map_of_mem hheld'
  · -- the relay has no work in hand any more
    rcases mem_update (f := Work.todo) hr with ⟨-, hr⟩ | ⟨-, hr⟩
    · exact absurd hr List.not_mem_nil
    · exact h.todo j r hr
  · rcases mem_update (f := Work.sent) hp with ⟨-, hp⟩ | ⟨-, hp⟩
    · exact absurd hp List.not_mem_nil
    · exact h.sent j p hp
  · dsimp only
    rw [OutboxTable.map_id_confirm hids]
    exact h.present

/-- A cleanup deletes rows that are published or failed. -/
theorem cleanupPublishedRows (h : Exact work sends cleaned s) (hheld : Held work cleaned s)
    (publishedCutoff failedCutoff : Time) (dropped : List QueuedRow) :
    Exact work sends
      (cleanedBy s.table (.cleanupPublishedRows publishedCutoff failedCutoff) (.ok ()) ++ cleaned)
      { s with
        table := s.table.cleanupPublishedRows publishedCutoff failedCutoff
        dropped := dropped } := by
  refine ⟨fun r hr hfree => ?_, h.todo, h.sent, fun r hr => ?_, h.known, fun event he => ?_⟩
  · exact h.free r (OutboxTable.mem_cleanupPublishedRows.mp hr).1 hfree
  · rcases List.mem_append.mp hr with hr | hr
    · -- a row that is deleted was settled, so its message was acknowledged as often as it should be
      obtain ⟨hmem, hold⟩ := List.mem_filter.mp hr
      have hstatus : r.status ≠ .publishing := by
        intro hstatus
        simp [OutboxTable.isOldPublished, OutboxTable.isOldFailed, hstatus] at hold
      obtain ⟨-, -, hacks⟩ := h.free r hmem (hheld.not_held hmem hstatus)
      rw [hacks]
      split <;> omega
    · exact h.once r hr
  · rcases h.present event he with hid | hid
    · -- an event whose row is deleted now is among the rows that were cleaned
      obtain ⟨r, hr, hid⟩ := List.mem_map.mp hid
      by_cases hold : (OutboxTable.isOldPublished publishedCutoff r ||
          OutboxTable.isOldFailed failedCutoff r) = true
      · exact .inr (hid ▸ List.mem_map_of_mem
          (List.mem_append_left _ (List.mem_filter.mpr ⟨hr, hold⟩)))
      · rw [Bool.not_eq_true, Bool.or_eq_false_iff] at hold
        exact .inl (hid ▸ List.mem_map_of_mem
          (OutboxTable.mem_cleanupPublishedRows.mpr ⟨hr, hold⟩))
    · rw [List.map_append]
      exact .inr (List.mem_append_right _ hid)

/-- A service commits a new row. -/
theorem insert (h : Exact work sends cleaned s) {s' : Shared} (hs' : Inserts s s') :
    Exact work sends cleaned s' := by
  obtain ⟨event, createdAt, hfresh, rfl⟩ := hs'
  refine ⟨fun r hr hfree => ?_, h.todo, h.sent, h.once, fun p hp => ?_, fun e he => ?_⟩
  · rcases List.mem_append.mp hr with hr | hr
    · exact h.free r hr hfree
    · rw [List.mem_singleton.mp hr]
      have hunsent : ∀ p ∈ sends, p.1.id ≠ event.id := fun p hp hid =>
        hfresh (hid ▸ h.known p hp)
      obtain ⟨hacks, hfailures⟩ := counts_of_not_mem hunsent
      exact ⟨fun hstatus => (nomatch hstatus), hfailures, hacks⟩
  · exact List.mem_cons_of_mem _ (h.known p hp)
  · rw [List.map_append, List.mem_append]
    rcases List.mem_cons.mp he with rfl | he
    · exact .inl (.inr List.mem_cons_self)
    · exact (h.present e he).imp_left .inl

/-- Acknowledgements do not matter. -/
theorem acknowledge (h : Exact work sends cleaned s) (acked : List KafkaMessage) :
    Exact work sends cleaned { s with acked := acked } :=
  ⟨h.free, h.todo, h.sent, h.once, h.known, h.present⟩

/-- A step of a relay that does not crash keeps the numbers. -/
theorem effect {g : Tally} {w : World Shared Session} (h : Exact g.work g.sends g.cleaned w.shared)
    (hheld : Held g.work g.cleaned w.shared) {i : ℕ} {o : Op} {r : Except Exc o.Out}
    (hguard : batches.guard o (g.work i)) (hends : Ends w.shared o r)
    (hok : Orderly g w (.call i o r)) :
    Exact (Function.update g.work i (Work.step o r (g.work i)))
      (Work.sending o r (g.work i) ++ g.sends) (cleanedBy w.shared.table o r ++ g.cleaned)
      (OutboxRelay.effect o r w.shared) := by
  have hsame : Exact (Function.update g.work i (g.work i)) g.sends g.cleaned w.shared := by
    rwa [Function.update_eq_self]
  have hheld' : Held (Function.update g.work i (g.work i)) g.cleaned w.shared := by
    rwa [Function.update_eq_self]
  cases r with
  | error e =>
      cases o with
      | sendAndWait message =>
          -- without crashes a send that fails raises a `KafkaError`
          cases hok
          obtain ⟨row, rest, htodo, -⟩ := exists_todo hguard
          have hsent := h.send hheld htodo false
          rw [show Work.sending (.sendAndWait message) (.error .kafkaError) (g.work i) =
            [(row, false)] by rw [Work.sending, htodo]; rfl]
          exact hsent
      | _ => cases hok
  | ok a =>
      cases o with
      -- the send succeeds, and Kafka acknowledges the message
      | sendAndWait message =>
          obtain ⟨row, rest, htodo, -⟩ := exists_todo hguard
          have hsent := h.send hheld htodo true
          rw [show Work.sending (.sendAndWait message) (.ok a) (g.work i) = [(row, true)] by
            rw [Work.sending, htodo]; rfl]
          exact hsent.acknowledge _
      | claim => exact h.claim hheld hguard hends
      | confirm rows => exact h.confirm hheld hguard
      -- in time there is nothing to recover
      | recoverStuckRows cutoff =>
          have htable : w.shared.table.recoverStuckRows cutoff = w.shared.table :=
            OutboxTable.recoverStuckRows_eq hok
          dsimp only [OutboxRelay.effect]
          rw [htable]
          exact hsame
      | cleanupPublishedRows publishedCutoff failedCutoff =>
          exact hsame.cleanupPublishedRows hheld' publishedCutoff failedCutoff _
      | monotonic | now | sleep _ => exact hsame

/-- No row is acknowledged twice. -/
theorem acks_le (h : Exact work sends cleaned s) (id : UUID) : acks sends id ≤ 1 := by
  by_cases hid : id ∈ s.committed.map (·.id)
  · obtain ⟨event, hevent, rfl⟩ := List.mem_map.mp hid
    rcases h.present event hevent with hrow | hrow
    · obtain ⟨row, hrow, hid⟩ := List.mem_map.mp hrow
      rw [← hid]
      by_cases hfree : Free work row
      · rw [(h.free row hrow hfree).2.2]
        split <;> omega
      · -- the row is in somebody's batch
        simp only [Free, not_forall, not_not] at hfree
        obtain ⟨i, held, hheld, hid⟩ := hfree
        rw [← hid]
        rcases List.mem_append.mp hheld with hheld | hheld
        · obtain ⟨p, hp, rfl⟩ := List.mem_map.mp hheld
          rw [(h.sent i p hp).2]
          split <;> omega
        · rw [(h.todo i held hheld).2]
          omega
    · obtain ⟨row, hrow, hid⟩ := List.mem_map.mp hrow
      exact hid ▸ h.once row hrow
  · have hunsent : ∀ p ∈ sends, p.1.id ≠ id := fun p hp heq => hid (heq ▸ h.known p hp)
    rw [(counts_of_not_mem hunsent).1]
    omega

end Exact

/-- The numbers are right in every run of relays that do not crash. -/
theorem exact {s : Shared} (hs : Tidy s) (hinit : Exact (fun _ => {}) [] [] s) {g : Tally}
    {c : Config Op Op.Out Exc Unit Shared Session} (h : Observes tally relay Orderly s g c) :
    Exact g.work g.sends g.cleaned c.shared := by
  have hheld : ∀ {g : Tally} {c : Config Op Op.Out Exc Unit Shared Session},
      Observes tally relay Orderly s g c → Held g.work g.cleaned c.shared :=
    fun h => held hs (h.mono fun _ _ _ => Orderly.considerate)
  refine h.sustained (I := fun g w => Exact g.work g.sends g.cleaned w.shared)
    (tally_follows Orderly) ⟨?_, ?_, ?_, ?_⟩ hinit
  · exact fun _ _ hexact => hexact
  · intro g c i o r hcall hexact
    exact hexact.effect (hheld hcall.observes) hcall.guard hcall.enabled hcall.allowed
  · exact fun _ hok _ => hok.elim
  · exact fun _ _ hexact hs' => hexact.insert hs'

end OutboxRelay

/-- What the relays have done to the rows, each of them alone. -/
structure OnePublisher (g : Tally) (s : OutboxRelay.Shared) : Prop where
  /-- No two relays hold the same row between claim and confirmation. -/
  apart : ∀ i j, i ≠ j → ∀ row ∈ (g.work i).rows, ∀ row' ∈ (g.work j).rows, row.id ≠ row'.id
  /-- Kafka has acknowledged the messages of the rows that were sent with success, -/
  acked : s.acked = (g.sends.filter (·.2)).map (·.1.message)
  /-- and none of these rows twice. -/
  once : ∀ id, acks g.sends id ≤ 1
  /-- The retry count of a row that nobody holds is the number of its failed sends, -/
  retryCount : ∀ row ∈ s.table, Free g.work row → row.retryCount = failures g.sends row.id
  /-- and so is that of a row whose turn in the batch is still to come. -/
  todo : ∀ i, ∀ row ∈ (g.work i).todo,
    row ∈ s.table ∧ row.retryCount = failures g.sends row.id
  /-- A row whose turn has been is one behind if it failed, until its relay confirms the batch. -/
  sent : ∀ i, ∀ p ∈ (g.work i).sent,
    p.1 ∈ s.table ∧ p.1.retryCount + (if p.2 then 0 else 1) = failures g.sends p.1.id
  /-- A row that nobody holds is published exactly when Kafka has acknowledged it. -/
  published : ∀ row ∈ s.table, Free g.work row →
    (row.status = .published ↔ acks g.sends row.id = 1)

/-- In every run in which no relay crashes and no recovery resets a row, each row has one
publisher. -/
theorem one_publisher {g : Tally}
    {c : Config OutboxRelay.Op OutboxRelay.Op.Out OutboxRelay.Exc Unit
      OutboxRelay.Shared OutboxRelay.Session}
    (h : Observes tally relay Orderly {} g c) : OnePublisher g c.shared := by
  have hs : Tidy {} := ⟨List.nodup_nil, fun row hrow => absurd hrow List.not_mem_nil⟩
  have hinit : Exact (fun _ => {}) [] [] ({} : OutboxRelay.Shared) := by
    constructor <;> intros <;> contradiction
  have hheld := held hs (h.mono fun _ _ _ => Orderly.considerate)
  have hexact := exact hs hinit h
  refine ⟨hheld.apart, acked_eq rfl h, hexact.acks_le, fun row hrow hfree => ?_,
    fun i row hrow => ⟨?_, ?_⟩, fun i p hp => ⟨?_, ?_⟩, fun row hrow hfree => ?_⟩
  · exact (hexact.free row hrow hfree).2.1.symm
  · exact (hheld.held i row (List.mem_append_right _ hrow)).1
  · exact (hexact.todo i row hrow).1.symm
  · exact (hheld.held i p.1 (List.mem_append_left _ (List.mem_map_of_mem hp))).1
  · exact (hexact.sent i p hp).1.symm
  · rw [(hexact.free row hrow hfree).2.2]
    split <;> simp_all

/-- Two relays at work: Kafka accepts the first row of one of them and refuses the second one, and
that relay confirms its batch, while the other one holds a third row. -/
def sharedWork : List (Move ClockHint) :=
  [.env (.plain (.insert (sampleEvent 1))), .env (.plain (.insert (sampleEvent 2))),
    .spawn (.loops 1), .call 0 (.seconds 0), .call 0 .auto,
    .env (.plain (.insert (sampleEvent 3))), .spawn (.loops 1), .call 1 (.seconds 0), .call 1 .auto,
    .call 0 .auto, .call 0 .auto, .call 0 .refused, .call 0 .auto]

/-- Two relays that share the rows of the outbox. -/
theorem one_publisher_sharedWork :
    ∃ (g : Tally) (c : Config OutboxRelay.Op OutboxRelay.Op.Out OutboxRelay.Exc Unit
      OutboxRelay.Shared OutboxRelay.Session),
      Observes tally relay Orderly {} g c ∧ (g.work 1).rows ≠ [] ∧
      (∃ row ∈ c.shared.table, row.status = .published) ∧
      (∃ row ∈ c.shared.table, row.status = .pending ∧ row.retryCount = 1) ∧
      OnePublisher g c.shared := by
  have hplay : (observe tally Orderly clockPlayer {} (relay.initial {}) sharedWork).any (fun p =>
      decide ((p.1.work 1).rows ≠ [] ∧ (∃ row ∈ p.2.shared.table, row.status = .published) ∧
        ∃ row ∈ p.2.shared.table, row.status = .pending ∧ row.retryCount = 1)) = true := by
    decide +kernel
  obtain ⟨⟨g, c⟩, hc, hP⟩ := (Option.any_eq_true _ _).mp hplay
  obtain ⟨hheld, hpublished, hpending⟩ := of_decide_eq_true hP
  have h := observes_of_observe .start hc
  exact ⟨g, c, h, hheld, hpublished, hpending, one_publisher h⟩

end MiniWallet
