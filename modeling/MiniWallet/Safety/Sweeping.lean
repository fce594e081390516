import MiniWallet.Safety.Compensation

/-!
# A sweep alone

What a sweep does while no other process acts. In addition to the database it works with the circuit
breaker, whose state can be any, with the rail, and with the rows that the database chooses for it.

* `Surroundings`: what the clock, the rail and the database may answer.
* `sweeping`: the contract of the operations of a sweep; `sweeps_of_solos` takes over what is known
  of a process that does not use the rail.
* `simulates_sweeping`: the contract describes a sweep of the wallet that is alone.
* `sweeps_callRailOutcome`, `sweeps_recoverPending`, …: one rule for each part of the worker.
-/

namespace MiniWallet

open Numeric Process System State Program SagaRecovery

/-! ## The surroundings -/

/-- What the surroundings of a sweep may answer. -/
structure Surroundings where
  /-- The times that the clock can show. -/
  time : Time → Prop
  /-- The rows that the database can choose. -/
  batch : List UUID → Prop
  /-- The answers of the rail to a payment: its reference, or the code of a rejection. -/
  payment : Except String String → Prop
  /-- The answers of the rail to a status query. -/
  status : RailStatus → Prop

/-- Every answer of the rail fits its column, and nothing else is known of the surroundings but the
time from which on they are considered. -/
def Surroundings.answering (t : Time) : Surroundings where
  time t' := t ≤ t'
  batch _ := True
  payment
    | .ok reference => varchar 255 reference = true
    | .error code => varchar 50 code = true
  status _ := True

/-- The step is one that the surroundings allow. -/
def Surroundings.Allows (E : Surroundings) : Event → Prop
  | .call _ (.claimStuck _ _) r => ∀ ids : List UUID, r = .ok ids → E.batch ids
  | .call _ (.sendWithdrawal _ _ _) r => ∃ x, E.payment x ∧ r = x.mapError Exc.railError
  | .call _ (.queryStatus _) r => ∃ s : RailStatus, E.status s ∧ r = .ok s
  | _ => True

/-- The identifiers of the rows that the search for stuck withdrawals can choose from. -/
def Database.stuckIds (db : Database) (cutoff : Time) : List UUID :=
  (db.withdrawals.filter fun r => ¬ r.status.Terminal ∧ r.updatedAt < cutoff).map (·.id)

/-- `ids` is an answer to the search for stuck withdrawals, if no row is locked. -/
structure Database.Claims (db : Database) (cutoff : Time) (limit : ℕ) (ids : List UUID) : Prop where
  nodup : ids.Nodup
  stuck : ∀ id ∈ ids, id ∈ db.stuckIds cutoff
  length : ids.length ≤ limit
  all : ids.length < limit → ∀ id ∈ db.stuckIds cutoff, id ∈ ids

/-- Rows can be chosen. -/
theorem Database.exists_claims {db : Database} (hids : (db.withdrawals.map (·.id)).Nodup)
    (cutoff : Time) (limit : ℕ) : ∃ ids, db.Claims cutoff limit ids := by
  have hnodup : (db.stuckIds cutoff).Nodup := hids.sublist (List.filter_sublist.map _)
  refine ⟨(db.stuckIds cutoff).take limit, hnodup.sublist (List.take_sublist _ _),
    fun id hid => List.mem_of_mem_take hid, List.length_take_le _ _, fun hlt id hid => ?_⟩
  rw [List.length_take] at hlt
  rwa [List.take_of_length_le (by omega)]

/-! ## The contract -/

/-- The contract of a sweep that is alone. -/
def sweeping (E : Surroundings) : Contract Op Op.Out Exc Solo where
  guard
    | .uuid4, st => ∃ id, id ∉ st.issued
    | .claimStuck cutoff limit, st => ∃ ids, st.view.Claims cutoff limit ids ∧ E.batch ids
    | .sendWithdrawal _ _ _, _ => ∃ x, E.payment x
    | .queryStatus _, _ => ∃ s, E.status s
    | _, _ => True
  possible
    | .now, r, _ => ∃ t : Time, E.time t ∧ r = .ok t
    | .breaker c, r, _ => ∃ x : c.Reply, r = .ok x
    -- the database chooses the batch
    | .claimStuck cutoff limit, r, st =>
        ∃ ids : List UUID, st.view.Claims cutoff limit ids ∧ E.batch ids ∧ r = .ok ids
    | .sendWithdrawal _ _ _, r, _ => ∃ x, E.payment x ∧ r = x.mapError Exc.railError
    | .queryStatus _, r, _ => ∃ s : RailStatus, E.status s ∧ r = .ok s
    | o, r, st => st.Answers o r

/-- A sweep works on what a request works on, while the clock shows an admissible time. -/
def Surroundings.At (E : Surroundings) (i : ℕ) (st : Solo) (w : State) : Prop :=
  st.At i w ∧ E.time w.shared.clock

section Simulation

variable {E : Surroundings} {i : ℕ} {st : Solo} {w : State} {o : Op} {r : Except Exc o.Out}

/-- Without other transactions the search finds the rows of the tables that the process sees. -/
theorem claimable_iff (h : st.At i w) {cutoff : Time} {limit : ℕ} {ids : List UUID} :
    Claimable w i cutoff limit ids ↔ st.view.Claims cutoff limit ids := by
  have hstuck : ((State.view w i).withdrawals.filter fun r => Stuck w i cutoff r).map (·.id) =
      st.view.stuckIds cutoff := by
    rw [Database.stuckIds, h.view_eq]
    refine congrArg (List.map _) (List.filter_congr fun r _ => decide_eq_decide.mpr ?_)
    simp only [Stuck, h.unlocked, not_false_eq_true, and_true]
  simp only [Claimable, hstuck]
  exact ⟨fun ⟨h₁, h₂, h₃, h₄⟩ => ⟨h₁, h₂, h₃, h₄⟩, fun ⟨h₁, h₂, h₃, h₄⟩ => ⟨h₁, h₂, h₃, h₄⟩⟩

/-- The answers of the wallet are the ones that the sweep can get. -/
theorem Surroundings.At.possible (h : E.At i st w) (hends : Ends w i o r)
    (hanswered : Answered i w (.call i o r)) (hallows : E.Allows (.call i o r)) :
    (sweeping E).possible o r st := by
  have hserver : r ≠ .error .operationalError ∧ r ≠ .error .redisError := by
    constructor <;> rintro rfl
    · exact hanswered rfl (.inl rfl)
    · exact hanswered rfl (.inr rfl)
  cases o with
  | now => exact ⟨_, h.2, ends_now hends⟩
  | breaker c => exact ⟨_, (ends_breaker hends).resolve_right hserver.2⟩
  | claimStuck cutoff limit =>
      obtain ⟨ids, rfl, hids⟩ := (ends_claimStuck hends).resolve_right hserver.1
      exact ⟨ids, (claimable_iff h.1).mp hids, hallows ids rfl, rfl⟩
  | sendWithdrawal id amount destination => exact hallows
  | queryStatus reference => exact hallows
  | _ => exact h.1.answers (by exact trivial) hends hanswered

/-- An operation that a request makes as well, and that draws no identifier, ends. -/
theorem Surroundings.At.ends_of_solitary (h : E.At i st w) (ho : o.Solitary) (hid : o ≠ .uuid4)
    (hallows : ∀ r, E.Allows (.call i o r)) :
    ∃ r, Ends w i o r ∧ Answered i w (.call i o r) ∧ E.Allows (.call i o r) := by
  obtain ⟨r, hends, hanswered⟩ := h.1.ends ⟨ho, fun heq => absurd heq hid⟩
  exact ⟨r, hends, hanswered, hallows r⟩

/-- The wallet gives an answer. -/
theorem Surroundings.At.ends (h : E.At i st w) (hguard : (sweeping E).guard o st) :
    ∃ r, Ends w i o r ∧ Answered i w (.call i o r) ∧ E.Allows (.call i o r) := by
  cases o with
  -- an identifier that has not been issued can be drawn
  | uuid4 =>
      obtain ⟨r, hends, hanswered⟩ := h.1.ends (o := .uuid4) ⟨trivial, fun _ => hguard⟩
      exact ⟨r, hends, hanswered, trivial⟩
  | breaker c => exact ⟨_, ⟨.proceed, rfl⟩, trivial, trivial⟩
  | claimStuck cutoff limit =>
      -- the batch is one that the query may return
      obtain ⟨ids, hids, hbatch⟩ := hguard
      refine ⟨.ok ids, ⟨.claim ids, if_pos ((claimable_iff h.1).mpr hids)⟩, trivial, ?_⟩
      rintro _ heq
      cases heq
      exact hbatch
  | sendWithdrawal id amount destination =>
      -- the rail answers as the environment allows it
      obtain ⟨x, hx⟩ := hguard
      cases x with
      | ok reference => exact ⟨.ok reference, ⟨.accept reference, rfl⟩, trivial, _, hx, rfl⟩
      | error code =>
          refine ⟨.error (.railError code), ⟨.reject code, rfl⟩, fun _ he => ?_, _, hx, rfl⟩
          rcases he with he | he <;> cases he
  | queryStatus reference =>
      obtain ⟨s, hs⟩ := hguard
      exact ⟨.ok s, ⟨.status s, rfl⟩, trivial, s, hs, rfl⟩
  | now | cacheGet key | cacheSet key entry | select q | lockAccount id | lockWithdrawal id
  | write wr | commit | rollback =>
      exact h.ends_of_solitary (by exact trivial) (by simp) fun r => trivial

/-- What the sweep works on keeps up with the world. -/
theorem Surroundings.At.after (sha256 : String → String) (h : E.At i st w)
    (hpossible : (sweeping E).possible o r st) :
    E.At i (st.after o r) ((wallet sha256).afterCall w i o r) := by
  obtain ⟨h, htime⟩ := h
  refine ⟨?_, ?_⟩
  · -- the circuit, the rail and the search change nothing of what the sweep sees
    cases o with
    | now =>
        obtain ⟨t, -, rfl⟩ := hpossible
        exact h.after sha256 trivial ⟨t, rfl⟩
    | breaker c =>
        obtain ⟨x, rfl⟩ := hpossible
        exact h.of_call sha256 h.db h.writes h.issued h.redis
    | claimStuck cutoff limit =>
        obtain ⟨ids, -, -, rfl⟩ := hpossible
        exact h.of_call sha256 h.db h.writes h.issued h.redis
    | sendWithdrawal id amount destination =>
        obtain ⟨x, -, rfl⟩ := hpossible
        cases x <;> exact h.of_call sha256 h.db h.writes h.issued h.redis
    | queryStatus reference => exact h.of_call sha256 h.db h.writes h.issued h.redis
    | _ => exact h.after sha256 (by exact trivial) hpossible
  · -- the clock does not move with an operation of the sweep
    have hclock : (effect o r (w.sess i) w.shared).clock = w.shared.clock := by
      cases o <;> cases r <;> rfl
    exact hclock ▸ htime

end Simulation

/-- The contract describes a sweep that is alone, in the wallet and in other systems with the same
operations, if the surroundings change no more than that. -/
theorem simulates_sweeping (sha256 : String → String) {E : Surroundings}
    (env' : Shared → Shared → Prop) (henv : ∀ s s', env' s s' → env s s')
    (htime : ∀ s s', env' s s' → E.time s.clock → E.time s'.clock) (i : ℕ) :
    ({ wallet sha256 with env := env' } : System Op Op.Out Exc Response Shared Session).Simulates
      (fun w l => Answered i w l ∧ E.Allows l) i (sweeping E) (fun o r st => st.after o r)
      (E.At i) where
  env := fun h hs =>
    ⟨(simulates_solo sha256 i).env h.1 (henv _ _ hs), htime _ _ hs h.2⟩
  ends := fun h hguard => h.ends hguard
  possible := fun h _ hends hl => h.possible hends hl.1 hl.2
  after := fun h _ hends hl => h.after sha256 (h.possible hends hl.1 hl.2)

/-! ## Rules -/

/-- `Sweeps E p Q R st`: from `st` the program `p`, alone, ends in `Q` if it returns and in `R` if
it raises. -/
abbrev Sweeps (E : Surroundings) {α : Type} (p : Program α) (Q : α → Solo → Prop)
    (R : Exc → Solo → Prop) (st : Solo) : Prop :=
  (sweeping E).wp (fun o r st => st.after o r) p Q R st

section Rules

variable {E : Surroundings} {st : Solo} {R : Exc → Solo → Prop}

/-- What a program does alone without the rail it also does in a sweep. -/
theorem sweeps_of_solos {α : Type} {p : Program α} {Q : α → Solo → Prop} (h : Solos p Q R st) :
    Sweeps E p Q R st := by
  refine Contract.wp_of_stronger _ _ ?_ ?_ h
  · rintro o st ⟨ho, hfresh⟩
    cases o with
    | uuid4 => exact hfresh rfl
    | breaker | claimStuck | sendWithdrawal | queryStatus => exact ho.elim
    | _ => trivial
  · rintro o r st ⟨ho, -⟩ hr
    cases o with
    | now =>
        obtain ⟨t, -, rfl⟩ := hr
        exact ⟨t, rfl⟩
    | breaker | claimStuck | sendWithdrawal | queryStatus => exact ho.elim
    | _ => exact hr

/-- One program after the other. -/
theorem sweeps_bind {α β : Type} {p : Program α} {f : α → Program β} {Q : β → Solo → Prop} :
    Sweeps E (p >>= f) Q R st ↔ Sweeps E p (fun a st' => Sweeps E (f a) Q R st') R st :=
  Contract.wp_bind _ _ p f

/-- A handler goes on where its body has raised. -/
theorem sweeps_try {α : Type} {p : Program α} {f : Exc → Program α} {Q : α → Solo → Prop} :
    Sweeps E (tryCatch p f) Q R st ↔ Sweeps E p Q (fun e st' => Sweeps E (f e) Q R st') st :=
  Contract.wp_tryCatch _ _ p f

/-- Returning. -/
@[simp]
theorem sweeps_pure {α : Type} {a : α} {Q : α → Solo → Prop} :
    Sweeps E (pure a) Q R st ↔ Q a st :=
  Contract.wp_pure _ _ a

/-- Raising. -/
@[simp]
theorem sweeps_throw {α : Type} {e : Exc} {Q : α → Solo → Prop} :
    Sweeps E (throw e : Program α) Q R st ↔ R e st :=
  Contract.wp_throw _ _ e

/-- The clock shows an admissible time. -/
theorem sweeps_now {Q : Time → Solo → Prop} (h : ∀ t, E.time t → Q t st) : Sweeps E now Q R st := by
  refine (Contract.wp_perform _ _ Op.now).mpr ⟨trivial, fun t ht => ?_, fun e he => ?_⟩
  · obtain ⟨_, ht, heq⟩ := ht
    cases heq
    exact h _ ht
  · obtain ⟨_, -, heq⟩ := he
    cases heq

/-- A command to the circuit breaker can have any answer. -/
theorem sweeps_breaker {c : BreakerCommand} {Q : c.Reply → Solo → Prop} (h : ∀ x, Q x st) :
    Sweeps E (perform (.breaker c)) Q R st := by
  refine (Contract.wp_perform _ _ (Op.breaker c)).mpr ⟨trivial, fun x _ => h x, fun e he => ?_⟩
  obtain ⟨_, heq⟩ := he
  cases heq

/-- The database chooses the rows. -/
theorem sweeps_claimStuck {cutoff : Time} {limit : ℕ} {Q : List UUID → Solo → Prop}
    (hsome : ∃ ids, st.view.Claims cutoff limit ids ∧ E.batch ids)
    (h : ∀ ids, st.view.Claims cutoff limit ids → E.batch ids → Q ids st) :
    Sweeps E (claimStuck cutoff limit) Q R st := by
  refine (Contract.wp_perform _ _ (Op.claimStuck cutoff limit)).mpr
    ⟨hsome, fun ids hids => ?_, fun e he => ?_⟩
  · obtain ⟨_, hclaims, hbatch, heq⟩ := hids
    cases heq
    exact h _ hclaims hbatch
  · obtain ⟨_, -, -, heq⟩ := he
    cases heq

/-- The rail accepts or rejects the payment. -/
theorem sweeps_sendWithdrawal {id : UUID} {amount : Decimal} {destination : Json}
    {Q : String → Solo → Prop} (hsome : ∃ x, E.payment x)
    (hok : ∀ reference, E.payment (.ok reference) → Q reference st)
    (herror : ∀ code, E.payment (.error code) → R (.railError code) st) :
    Sweeps E (sendWithdrawal id amount destination) Q R st := by
  refine (Contract.wp_perform _ _ (Op.sendWithdrawal id amount destination)).mpr
    ⟨hsome, fun reference hr => ?_, fun e he => ?_⟩
  · -- the two kinds of answers of the rail
    obtain ⟨x, hx, heq⟩ := hr
    cases x with
    | ok reference' =>
        cases heq
        exact hok _ hx
    | error code => cases heq
  · obtain ⟨x, hx, heq⟩ := he
    cases x with
    | ok reference => cases heq
    | error code =>
        cases heq
        exact herror _ hx

/-- The rail answers a status query. -/
theorem sweeps_queryStatus {reference : String} {Q : RailStatus → Solo → Prop}
    (hsome : ∃ s, E.status s) (h : ∀ s, E.status s → Q s st) :
    Sweeps E (queryStatus reference) Q R st := by
  refine (Contract.wp_perform _ _ (Op.queryStatus reference)).mpr
    ⟨hsome, fun s hs => ?_, fun e he => ?_⟩
  · obtain ⟨_, hs, heq⟩ := hs
    cases heq
    exact h _ hs
  · obtain ⟨_, -, heq⟩ := he
    cases heq

/-- A block that commits at its end and rolls back after an exception. -/
theorem sweeps_begin {α : Type} {body : Program α} {Q : α → Solo → Prop}
    (h : Sweeps E body (fun a st' => Q a { st' with db := st'.view, writes := [] })
      (fun e st' => R e { st' with writes := [] }) st) : Sweeps E (begin body) Q R st := by
  refine sweeps_try.mpr (sweeps_bind.mpr (Contract.wp_mono _ _ (fun a st' hQ => ?_)
    (fun e st' hR => ?_) h))
  · exact sweeps_bind.mpr (sweeps_of_solos (solos_commit.mpr (sweeps_pure.mpr hQ)))
  · exact sweeps_bind.mpr (sweeps_of_solos (solos_rollback.mpr (sweeps_throw.mpr hR)))

/-! ## The circuit breaker and the rail -/

variable {cb : CircuitBreaker}

/-- Either answer about the cooldown is possible. -/
theorem sweeps_cooldownElapsed {Q : Bool → Solo → Prop} (h : ∀ b, Q b st) :
    Sweeps E cb.cooldownElapsed Q R st := by
  refine sweeps_bind.mpr (sweeps_breaker fun last => ?_)
  cases (last : Option Time) with
  | none => exact sweeps_pure.mpr (h true)
  | some t => exact sweeps_bind.mpr (sweeps_now fun t' _ => sweeps_pure.mpr (h _))

/-- The circuit breaker allows a call or not. -/
theorem sweeps_isCallAllowed {Q : Bool → Solo → Prop} (h : ∀ b, Q b st) :
    Sweeps E cb.isCallAllowed Q R st := by
  refine sweeps_bind.mpr (sweeps_breaker fun state => ?_)
  cases (state : Option CircuitState).getD .closed with
  | closed => exact sweeps_pure.mpr (h true)
  | «open» => exact sweeps_cooldownElapsed h
  | halfOpen => exact sweeps_bind.mpr (sweeps_breaker fun b => sweeps_pure.mpr (h _))

/-- A call goes through or finds the circuit open. -/
theorem sweeps_enter {Q : Unit → Solo → Prop} (h : Q () st) (hopen : R .circuitOpen st) :
    Sweeps E cb.enter Q R st := by
  -- the claim of the probe may fail
  have hclaimed (b : Bool) :
      Sweeps E (if b = true then pure () else throw .circuitOpen) Q R st := by
    cases b with
    | true => exact sweeps_pure.mpr h
    | false => exact sweeps_throw.mpr hopen
  refine sweeps_bind.mpr (sweeps_breaker fun state => ?_)
  cases (state : Option CircuitState).getD .closed with
  | closed => exact sweeps_pure.mpr h
  -- OPEN: the cooldown, then the claim
  | «open» =>
      refine sweeps_bind.mpr (sweeps_cooldownElapsed fun b => ?_)
      cases b with
      | true => exact sweeps_bind.mpr (sweeps_breaker hclaimed)
      | false => exact sweeps_throw.mpr hopen
  -- HALF_OPEN: the key, then the claim
  | halfOpen =>
      refine sweeps_bind.mpr (sweeps_breaker fun b => ?_)
      cases (b : Bool) with
      | true => exact sweeps_throw.mpr hopen
      | false => exact sweeps_bind.mpr (sweeps_breaker hclaimed)

/-- Reporting a failure leaves the tables alone. -/
theorem sweeps_onFailure {Q : Unit → Solo → Prop} (h : Q () st) : Sweeps E cb.onFailure Q R st :=
  sweeps_bind.mpr
    (sweeps_now fun _ _ => sweeps_bind.mpr (sweeps_breaker fun _ => sweeps_pure.mpr h))

/-- The call of the rail has an outcome: the circuit is open, or the rail accepts or rejects. -/
theorem sweeps_callRailOutcome {w : Withdrawal Decimal} {Q : Except String String → Solo → Prop}
    (hsome : ∃ x, E.payment x) (hopen : Q (.error "CIRCUIT_OPEN") st)
    (h : ∀ x, E.payment x → Q x st) : Sweeps E (callRailOutcome (some cb) w) Q R st := by
  refine sweeps_try.mpr (sweeps_bind.mpr (sweeps_bind.mpr (sweeps_enter ?_ ?_)))
  · refine sweeps_try.mpr (sweeps_bind.mpr (sweeps_sendWithdrawal hsome (fun reference hok => ?_)
      fun code herror => ?_))
    · refine sweeps_bind.mpr (sweeps_breaker fun _ => ?_)
      exact sweeps_pure.mpr (sweeps_pure.mpr (h _ hok))
    · refine sweeps_bind.mpr (sweeps_onFailure (sweeps_throw.mpr ?_))
      exact sweeps_pure.mpr (h _ herror)
  · exact sweeps_pure.mpr hopen

end Rules

end MiniWallet
