import MiniWallet.App
import MiniWallet.Management.BackfillEvents
import MiniWallet.Workers.ActivityConsumer

/-!
# A deployment with a backfill

The wallet at the time when its services begin to publish events. What was there before was written
by the services too, but nothing of it has an event. From then on the services, the relays, the runs
of the backfill command and the activity consumer work side by side: the services and the runs
insert rows into the outbox, the relays claim, confirm and delete them, and the consumer is given
the events in any order and any number of times.

* `Deployment`: the wallet, the outbox with its workers, and the read model.
* `DeploymentRun`: the interleavings. The runs are those without `force`.
-/

namespace MiniWallet

open Process Numeric

/-- The identifiers that `uuid4` returns are not of version 5. -/
def Unnamed : State → Event → Prop
  | _, .call _ .uuid4 (.ok id) => UUID.version id ≠ 5
  | _, _ => True

/-- Whether a step draws an identifier of version 5 is decidable. -/
instance (w : State) (l : Event) : Decidable (Unnamed w l) :=
  match l with
  | .call _ .uuid4 (.ok id) => inferInstanceAs (Decidable (UUID.version id ≠ 5))
  | .call _ .uuid4 (.error _) | .call _ .now _ | .call _ (.cacheGet _) _ | .call _ (.cacheSet _ _) _
  | .call _ (.breaker _) _ | .call _ (.select _) _ | .call _ (.lockAccount _) _
  | .call _ (.lockWithdrawal _) _ | .call _ (.claimStuck _ _) _ | .call _ (.write _) _
  | .call _ .commit _ | .call _ .rollback _ | .call _ (.sendWithdrawal _ _ _) _
  | .call _ (.queryStatus _) _ | .spawn | .stop _ | .env => inferInstanceAs (Decidable True)

/-- The relays, each a process of its own. -/
abbrev Relays := Config OutboxRelay.Op OutboxRelay.Op.Out OutboxRelay.Exc Unit OutboxRelay.Shared
  OutboxRelay.Session

namespace BackfillEvents

/-- The runs of the command, each a process of its own. -/
abbrev Runs := Config Op Op.Out Exc Unit Shared (List OutboxRow)

/-- What a run reads and writes, and how that ends. -/
abbrev RunEvent := Label Op Op.Out Exc

/-- The runs while the other tables and the outbox may change in any way. -/
abbrev openBackfills (uuid5 : String → UUID) :=
  backfills uuid5 false fun s s' => s'.inserted = s.inserted

end BackfillEvents

/-- The wallet with its outbox, the workers on it, and the read model. -/
structure Deployment where
  wallet : Wallet
  /-- The table `outbox`. -/
  outbox : OutboxTable := []
  relays : Relays
  runs : BackfillEvents.Runs
  /-- The events that the services have published since the deploy. -/
  published : List OutboxRow := []
  /-- The table `transaction_activity`. -/
  table : ActivityConsumer.Table := []
  /-- The events that the consumer has processed, duplicates included. -/
  delivered : List EventEnvelope := []

namespace Deployment

/-- The services begin to publish events when the wallet is in `c₀`. -/
def start (uuid5 : String → UUID) (c₀ : Wallet) : Deployment where
  wallet := c₀
  relays := relay.initial {}
  runs := (BackfillEvents.openBackfills uuid5).initial { db := c₀.shared.db }

variable (d : Deployment)

/-- The relays, with the table that they work on. -/
def relayView : Relays :=
  { d.relays with shared := { d.relays.shared with table := d.outbox } }

/-- The runs of the command, with the tables that they work on. -/
def runView : BackfillEvents.Runs :=
  { d.runs with
    shared :=
      { d.runs.shared with
        db := d.wallet.shared.db
        outbox := d.outbox
        clock := d.wallet.shared.clock } }

/-- Every event since the deploy: those of the services, and those that runs have made up. -/
def events : List OutboxRow := d.published ++ d.runs.shared.inserted

/-- The services commit some events, or none. Their rows have the defaults of the columns. -/
def serve (c' : Wallet) (new : List OutboxRow) : Deployment :=
  { d with
    wallet := c'
    outbox := d.outbox ++ new.map fun row => { toOutboxRow := row, createdAt := c'.shared.clock }
    published := new ++ d.published }

/-- The relays have changed the outbox. -/
def relayed (relays' : Relays) : Deployment :=
  { d with relays := relays', outbox := relays'.shared.table }

/-- The runs have changed the outbox. -/
def backfilled (runs' : BackfillEvents.Runs) : Deployment :=
  { d with runs := runs', outbox := runs'.shared.outbox }

/-- The consumer has processed an event. -/
def consumed (e : EventEnvelope) (table : ActivityConsumer.Table) : Deployment :=
  { d with table := table, delivered := e :: d.delivered }

end Deployment

open Deployment in
/-- `DeploymentRun sha256 uuid5 c₀ ok d`: the deployment gets from the wallet `c₀` to `d`, by any
interleaving of the services, the relays, the runs of the command and the consumer, in which the
steps of the runs all satisfy `ok`. -/
inductive DeploymentRun (sha256 : String → String) (uuid5 : String → UUID) (c₀ : Wallet)
    (ok : World BackfillEvents.Shared (List OutboxRow) → BackfillEvents.RunEvent → Prop) :
    Deployment → Prop
  | start {t₀ : Time} : WalletRun sha256 t₀ Unnamed c₀ →
      DeploymentRun sha256 uuid5 c₀ ok (.start uuid5 c₀)
  | serve {d : Deployment} {l : Event} {c' : Wallet} {new : List OutboxRow} :
      DeploymentRun sha256 uuid5 c₀ ok d → Unnamed d.wallet.toWorld l →
      (wallet sha256).Step d.wallet l c' →
      c'.shared.db.outbox = new ++ d.wallet.shared.db.outbox →
      DeploymentRun sha256 uuid5 c₀ ok (d.serve c' new)
  -- the environment of a relay or of a run is the rest of the deployment, so that their own steps
  -- of it are left out
  | relay {d : Deployment} {l : Label OutboxRelay.Op OutboxRelay.Op.Out OutboxRelay.Exc}
      {relays' : Relays} : DeploymentRun sha256 uuid5 c₀ ok d →
      MiniWallet.relay.Step d.relayView l relays' → l ≠ .env →
      DeploymentRun sha256 uuid5 c₀ ok (d.relayed relays')
  | backfill {d : Deployment} {l : BackfillEvents.RunEvent} {runs' : BackfillEvents.Runs} :
      DeploymentRun sha256 uuid5 c₀ ok d → ok d.runView.toWorld l →
      (BackfillEvents.openBackfills uuid5).Step d.runView l runs' → l ≠ .env →
      DeploymentRun sha256 uuid5 c₀ ok (d.backfilled runs')
  | consume {d : Deployment} {o : OutboxRow} {table : ActivityConsumer.Table} :
      DeploymentRun sha256 uuid5 c₀ ok d → o ∈ d.events →
      ActivityConsumer.process d.wallet.shared.db d.table o.payload = .ok table →
      DeploymentRun sha256 uuid5 c₀ ok (d.consumed o.payload table)

/-! ## Explicit schedules -/

namespace Deployment

/-- A move of a schedule: of a part of the deployment, or the delivery of the event at a
position. -/
inductive Move
  | serve (m : System.Move Hint)
  | relay (m : System.Move RelayHint)
  | backfill (m : System.Move ℕ)
  | consume (position : ℕ)

/-- Whether a step is one of the surroundings. -/
def isEnv {Op ε : Type} {Out : Op → Type} : Label Op Out ε → Bool
  | .env => true
  | _ => false

/-- A step that is not one of the surroundings. -/
theorem ne_env {Op ε : Type} {Out : Op → Type} {l : Label Op Out ε} (h : isEnv l = false) :
    l ≠ .env := by
  rintro rfl
  cases h

/-- The deployment after a move, if it can be made. The steps of the runs are to satisfy `ok`. -/
def playMove (uuid5 : String → UUID)
    (ok : World BackfillEvents.Shared (List OutboxRow) → BackfillEvents.RunEvent → Prop)
    [∀ w l, Decidable (ok w l)] (d : Deployment) : Move → Option Deployment
  | .serve m =>
      match System.playMove (player Sha256.hexdigest) d.wallet m with
      | some (l, c') =>
          -- the services may only add events, which the relays and consumers then see
          let old := d.wallet.shared.db.outbox
          let new := c'.shared.db.outbox.take (c'.shared.db.outbox.length - old.length)
          if Unnamed d.wallet.toWorld l ∧ c'.shared.db.outbox = new ++ old then
            some (d.serve c' new)
          else none
      | none => none
  | .relay m =>
      match System.playMove relayPlayer d.relayView m with
      | some (l, relays') => if isEnv l = false then some (d.relayed relays') else none
      | none => none
  | .backfill m =>
      match System.playMove (BackfillEvents.player uuid5 false fun s s' => s'.inserted = s.inserted)
          d.runView m with
      -- the runs keep the part of the world that they share with the services
      | some (l, runs') =>
          if ok d.runView.toWorld l ∧ isEnv l = false then some (d.backfilled runs') else none
      | none => none
  | .consume position =>
      match d.events[position]? with
      | some o =>
          match ActivityConsumer.process d.wallet.shared.db d.table o.payload with
          | .ok table => some (d.consumed o.payload table)
          | .error _ => none
      | none => none

/-- The deployment after the moves of a schedule. -/
def play (uuid5 : String → UUID)
    (ok : World BackfillEvents.Shared (List OutboxRow) → BackfillEvents.RunEvent → Prop)
    [∀ w l, Decidable (ok w l)] (d : Deployment) : List Move → Option Deployment
  | [] => some d
  | m :: ms => (d.playMove uuid5 ok m).bind fun d' => d'.play uuid5 ok ms

end Deployment

/-- The steps of the runs satisfy some condition. -/
theorem DeploymentRun.any {sha256 : String → String} {uuid5 : String → UUID} {c₀ : Wallet}
    {ok : World BackfillEvents.Shared (List OutboxRow) → BackfillEvents.RunEvent → Prop}
    {d : Deployment} (h : DeploymentRun sha256 uuid5 c₀ ok d) :
    DeploymentRun sha256 uuid5 c₀ System.anyStep d := by
  induction h with
  | start h₀ => exact .start h₀
  | serve _ hl hs hnew ih => exact .serve ih hl hs hnew
  | relay _ hs hl ih => exact .relay ih hs hl
  | backfill _ _ hs hl ih => exact .backfill ih trivial hs hl
  | consume _ ho hprocess ih => exact .consume ih ho hprocess

section Play

variable {uuid5 : String → UUID} {c₀ : Wallet} {d d' : Deployment}
  {ok : World BackfillEvents.Shared (List OutboxRow) → BackfillEvents.RunEvent → Prop}
  [∀ w l, Decidable (ok w l)]

/-- A move that can be made is a step. -/
theorem DeploymentRun.playMove (h : DeploymentRun Sha256.hexdigest uuid5 c₀ ok d)
    {m : Deployment.Move} (hmove : d.playMove uuid5 ok m = some d') :
    DeploymentRun Sha256.hexdigest uuid5 c₀ ok d' := by
  cases m with
  | serve m =>
      -- in each case the move has been checked and played
      simp only [Deployment.playMove] at hmove
      split at hmove
      · next l c' hplay =>
          split at hmove
          · next hok =>
              cases hmove
              exact .serve h hok.1 (System.playMove_step hplay) hok.2
          · cases hmove
      · cases hmove
  | relay m =>
      simp only [Deployment.playMove] at hmove
      split at hmove
      · next l relays' hplay =>
          split at hmove
          · next hl =>
              cases hmove
              exact .relay h (System.playMove_step hplay) (Deployment.ne_env hl)
          · cases hmove
      · cases hmove
  | backfill m =>
      simp only [Deployment.playMove] at hmove
      split at hmove
      · next l runs' hplay =>
          split at hmove
          · next hl =>
              cases hmove
              exact .backfill h hl.1 (System.playMove_step hplay) (Deployment.ne_env hl.2)
          · cases hmove
      · cases hmove
  | consume position =>
      simp only [Deployment.playMove] at hmove
      split at hmove
      · next o ho =>
          split at hmove
          · next table hprocess =>
              cases hmove
              exact .consume h (List.mem_of_getElem? ho) hprocess
          · cases hmove
      · cases hmove

/-- What a schedule of a deployment ends in is reached. -/
theorem DeploymentRun.play (h : DeploymentRun Sha256.hexdigest uuid5 c₀ ok d)
    {ms : List Deployment.Move} (hplay : d.play uuid5 ok ms = some d') :
    DeploymentRun Sha256.hexdigest uuid5 c₀ ok d' := by
  induction ms generalizing d with
  | nil =>
      cases hplay
      exact h
  | cons m ms ih =>
      obtain ⟨d₁, hmove, hrest⟩ := Option.bind_eq_some_iff.mp hplay
      exact ih (h.playMove hmove) hrest

/-- A schedule of the wallet before the deploy, and one of the deployment. -/
theorem deploymentRun_of_played (uuid5 : String → UUID)
    (ok : Wallet → World BackfillEvents.Shared (List OutboxRow) → BackfillEvents.RunEvent → Prop)
    [∀ c₀ w l, Decidable (ok c₀ w l)] {before : Schedule} {ms : List Deployment.Move}
    {P : Wallet → Deployment → Prop} [∀ c₀, DecidablePred (P c₀)]
    (h : (played Unnamed before).any (fun c₀ =>
      ((Deployment.start uuid5 c₀).play uuid5 (ok c₀) ms).any fun d => decide (P c₀ d)) = true) :
    ∃ c₀ d, DeploymentRun Sha256.hexdigest uuid5 c₀ (ok c₀) d ∧ P c₀ d := by
  obtain ⟨c₀, hc₀, h⟩ := (Option.any_eq_true _ _).mp h
  obtain ⟨d, hd, hP⟩ := (Option.any_eq_true _ _).mp h
  exact ⟨c₀, d, (DeploymentRun.start (System.run_of_play hc₀)).play hd, of_decide_eq_true hP⟩

end Play

end MiniWallet
