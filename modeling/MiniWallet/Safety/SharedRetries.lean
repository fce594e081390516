import MiniWallet.Bookkeeping.Generations
import MiniWallet.Consumers.SharedTopic
import MiniWallet.Safety.Retries

/-!
# Retries on a shared topic

A retry is a new message on the source topic, so every group gets it, also those that have processed
the event already. The copies form a tree: a copy is published by the handling of another copy, at
most one by each handling, and only by a handling that failed.

* `contract`, `keeps_consume`: what a consumer does with a message that it was handed.
* `Lineage`: where the copies come from.
* `retries_shared`: how often a group processes the event, and how often it sends it to its
  dead-letter topic, in terms of the number of groups that fail.
* `retries_not_isolated`: a group that has processed the event has to process it again after another
  group has failed.
-/

namespace MiniWallet

open Process System
open Python hiding Exn
open BaseConsumer hiding Op Program contract

namespace SharedTopic

variable {limit : ℕ} {sub : Subscription} {groupId : String} {k : ℕ} {message : ConsumerRecord}
  {σ : Session}

/-! ## One message -/

/-- What a consumer publishes while it handles a message; `failed` tells whether something has
failed in this handling. -/
inductive Sends (limit : ℕ) (groupId : String) (message : ConsumerRecord) (failed : Bool) :
    ConsumerRecord → Prop
  | malformed : loads limit message.value = .error .jsonDecodeError →
      Sends limit groupId message failed ⟨dlqTopic groupId, message.value, []⟩
  | exhausted {count : ℤ} : retryCount message.headers = .ok count → maxRetries ≤ count →
      Sends limit groupId message failed ⟨dlqTopic groupId, message.value, []⟩
  | retry {event : JsonValue} {count : ℤ} {value : Bytes} : failed = true →
      loads limit message.value = .ok event → retryCount message.headers = .ok count →
      count < maxRetries → renderCount (count + 1) = .ok value →
      Sends limit groupId message failed
        ⟨message.topic, message.value, retryHeaders message.headers value⟩

/-- A consumer with session `σ` may call the operation: it processes a message once, and publishes
at most one message for it. -/
def Allowed (limit : ℕ) (groupId : String) : BaseConsumer.Op → Session → Prop
  | .process _, σ => σ.invoked = false ∧ ∃ k message, σ.current = some ((groupId, k), message)
  | .sendAndWait topic value headers, σ => σ.sent = false ∧ ∃ k message,
      σ.current = some ((groupId, k), message) ∧
        Sends limit groupId message σ.failed ⟨topic, value, headers⟩
  | .commit, σ => ∃ k message, σ.current = some ((groupId, k), message)

/-- The contract of the consumers. -/
def contract (limit : ℕ) (sub : Subscription) : Contract Op Op.Out Exn Session where
  guard
    | .poll groupId, _ => groupId ∈ sub.groups
    | .await groupId o, σ => Allowed limit groupId o σ
  possible := fun _ _ _ => True

/-- The contract of one message. -/
def handling (limit : ℕ) (groupId : String) :
    Contract BaseConsumer.Op (fun _ => Unit) Exn Session where
  guard := Allowed limit groupId
  possible := fun _ _ _ => True

/-- The session after an operation of one message. -/
def handlingAfter (groupId : String) (o : BaseConsumer.Op) (r : Except Exn Unit) (σ : Session) :
    Session :=
  after (.await groupId o) r σ

/-- What holds of the coroutine of one message holds of it in the loop. -/
theorem wp_lift {p : BaseConsumer.Program Unit} {Q : Unit → Session → Prop}
    {R : Exn → Session → Prop}
    (h : (handling limit groupId).wp (handlingAfter groupId) p Q R σ) :
    (contract limit sub).wp after (lift groupId p) Q R σ := by
  induction p generalizing σ with
  | pure a => exact (Contract.wp_pure _ _ _).mpr ((Contract.wp_pure _ _ _).mp h)
  | raise e => exact (Contract.wp_raise _ _ _).mpr ((Contract.wp_raise _ _ _).mp h)
  | call o next ih =>
      obtain ⟨hguard, hnext⟩ := (Contract.wp_call _ _).mp h
      exact (Contract.wp_call _ _).mpr ⟨hguard, fun r _ => ih r (hnext r trivial)⟩

/-- From session `σ` the coroutine keeps to the contract. -/
def Keeps (limit : ℕ) (groupId : String) (p : BaseConsumer.Program Unit) (σ : Session) : Prop :=
  (handling limit groupId).wp (handlingAfter groupId) p (fun _ _ => True) (fun _ _ => True) σ

/-- Publish one message, and commit. -/
theorem keeps_send {topic : String} {value : Option Bytes} {headers : List (Bytes × Bytes)}
    (hcurrent : σ.current = some ((groupId, k), message)) (hsent : σ.sent = false)
    (h : Sends limit groupId message σ.failed ⟨topic, value, headers⟩) :
    Keeps limit groupId (do
      Prog.perform (BaseConsumer.Op.sendAndWait topic value headers)
      Prog.perform BaseConsumer.Op.commit) σ := by
  refine (Contract.wp_bind _ _ _ _).mpr ((Contract.wp_perform _ _ _).mpr
    ⟨⟨hsent, k, message, hcurrent, h⟩, fun _ _ => ?_, fun _ _ => trivial⟩)
  exact (Contract.wp_perform _ _ _).mpr ⟨⟨k, message, hcurrent⟩, fun _ _ => trivial,
    fun _ _ => trivial⟩

/-- The branch for failures keeps the contract. -/
theorem keeps_onFailure {event : JsonValue} {count : ℤ}
    (hevent : loads limit message.value = .ok event)
    (hcount : retryCount message.headers = .ok count)
    (hcurrent : σ.current = some ((groupId, k), message)) (hsent : σ.sent = false)
    (hfailed : σ.failed = true) (e : Exn) :
    Keeps limit groupId (onFailure groupId message count e) σ := by
  unfold onFailure
  split
  · exact (Contract.wp_throw _ _ _).mpr trivial
  · split
    · exact (Contract.wp_throw _ _ _).mpr trivial
    · split
      · -- the retries are exhausted
        next hge => exact keeps_send hcurrent hsent (.exhausted hcount hge)
      · -- the message is published again with the next count
        next hlt =>
        refine (Contract.wp_bind _ _ _ _).mpr ?_
        cases hvalue : renderCount (count + 1) with
        | error e => exact (Contract.wp_throw _ _ _).mpr trivial
        | ok value =>
            refine (Contract.wp_pure _ _ _).mpr (keeps_send hcurrent hsent ?_)
            exact .retry hfailed hevent hcount (not_le.mp hlt) hvalue

/-- Handling a copy keeps the contract. -/
theorem keeps_handleMessage (hcurrent : σ.current = some ((groupId, k), message))
    (hinvoked : σ.invoked = false) (hsent : σ.sent = false) :
    Keeps limit groupId (handleMessage limit groupId message) σ := by
  unfold handleMessage
  refine (Contract.wp_bind _ _ _ _).mpr ?_
  cases hcount : retryCount message.headers with
  | error e => exact (Contract.wp_throw _ _ _).mpr trivial
  | ok count =>
      refine (Contract.wp_pure _ _ _).mpr ?_
      split
      · next hmalformed => exact keeps_send hcurrent hsent (.malformed hmalformed)
      · exact (Contract.wp_throw _ _ _).mpr trivial
      · next event hevent =>
        refine (Contract.wp_tryCatch _ _ _ _).mpr ?_
        -- the handler runs after `process` or `commit` has raised
        have hhandler : ∀ e σ', σ'.current = some ((groupId, k), message) → σ'.sent = false →
            σ'.failed = true → Keeps limit groupId (onFailure groupId message count e) σ' :=
          fun e σ' hcurrent' hsent' hfailed' =>
            keeps_onFailure hevent hcount hcurrent' hsent' hfailed' e
        refine (Contract.wp_bind _ _ _ _).mpr ((Contract.wp_perform _ _ _).mpr
          ⟨⟨hinvoked, k, message, hcurrent⟩, fun _ _ => ?_, fun e _ => ?_⟩)
        · exact (Contract.wp_perform _ _ _).mpr ⟨⟨k, message, hcurrent⟩, fun _ _ => trivial,
            fun e _ => hhandler e _ hcurrent hsent rfl⟩
        · exact hhandler e _ hcurrent hsent rfl

/-- The loop keeps to the contract. -/
theorem safe_consume (hgroup : groupId ∈ sub.groups) (n : ℕ) :
    (contract limit sub).Safe after (consume limit groupId n) σ := by
  induction n generalizing σ with
  | zero => exact (Contract.wp_pure _ _ _).mpr trivial
  | succ n ih =>
      refine (Contract.wp_bind _ _ _ _).mpr ((Contract.wp_perform _ _ _).mpr
        ⟨hgroup, fun polled _ => ?_, fun _ _ => trivial⟩)
      obtain ⟨k, message⟩ := polled
      refine (Contract.wp_bind _ _ _ _).mpr ?_
      have hhandled : Keeps limit groupId (handleMessage limit groupId message)
          (after (.poll groupId) (.ok (k, message)) σ) := keeps_handleMessage rfl rfl rfl
      exact Contract.wp_mono _ _ (fun _ _ _ => ih) (fun _ _ _ => trivial) (wp_lift hhandled)

/-- Every member of every group keeps the contract. -/
theorem abides (sub : Subscription) (s : Shared) :
    (sharedTopic limit sub).Abides (contract limit sub) s where
  possible := fun _ _ => trivial
  safe := by
    rintro p ⟨groupId, hgroup, n, rfl⟩
    exact safe_consume hgroup n

/-! ## Who handles what -/

/-- A message that a consumer handles was handed to its group. -/
structure Held (sub : Subscription) (s : Shared) (σ : Session) : Prop where
  stored : ∀ h message, σ.current = some (h, message) →
    ∃ copy, s.copies[h.2]? = some copy ∧ copy.record = message
  taken : ∀ h message, σ.current = some (h, message) → h ∈ s.taken
  group : ∀ h message, σ.current = some (h, message) → h.1 ∈ sub.groups
  failed : ∀ h message, σ.current = some (h, message) → σ.failed = true → h ∈ s.failed

/-- Messages and records are only added. -/
structure Grows (s s' : Shared) : Prop where
  copies : s.copies <+: s'.copies
  taken : s.taken ⊆ s'.taken
  failed : s.failed ⊆ s'.failed

/-- Nothing is lost without a step. -/
theorem Grows.refl (s : Shared) : Grows s s :=
  ⟨List.prefix_refl _, fun _ h => h, fun _ h => h⟩

/-- Publishing a copy loses nothing. -/
theorem grows_publish (topic : String) (h : Handling) (message : ConsumerRecord) (s : Shared) :
    Grows s (publish topic h message s) := by
  unfold publish
  split
  · exact ⟨List.prefix_append _ _, fun _ h => h, fun _ h => h⟩
  · split
    · exact ⟨List.prefix_refl _, fun _ h => h, fun _ h => h⟩
    · exact .refl s

/-- What a consumer awaits loses nothing. -/
theorem grows_carryOut (topic : String) (h : Handling) (o : BaseConsumer.Op) (r : Except Exn Unit)
    (s : Shared) : Grows s (carryOut topic h o r s) := by
  cases o with
  | process event =>
      cases r with
      | ok u => exact ⟨List.prefix_refl _, fun _ h => h, fun _ h => h⟩
      | error e => exact ⟨List.prefix_refl _, fun _ h => h, fun _ h => List.mem_cons_of_mem _ h⟩
  | sendAndWait topic' value headers =>
      cases r with
      | ok u => exact grows_publish _ _ _ _
      | error e => exact .refl s
  | commit =>
      cases r with
      | ok u => exact .refl s
      | error e => exact ⟨List.prefix_refl _, fun _ h => h, fun _ h => List.mem_cons_of_mem _ h⟩

/-- The effect of an operation that belongs to the handling of a message. -/
theorem effect_await {topic groupId : String} {o : BaseConsumer.Op}
    {r : Except Exn (Op.await groupId o).Out} {s : Shared} {h : Handling}
    (hcurrent : σ.current = some (h, message)) :
    effect topic (.await groupId o) r σ s = carryOut topic h o r s := by
  simp [effect, hcurrent]

/-- No operation loses anything. -/
theorem grows_effect (topic : String) (o : Op) (r : Except Exn o.Out) (σ : Session) (s : Shared) :
    Grows s (effect topic o r σ s) := by
  cases o with
  | poll groupId =>
      cases r with
      | ok polled => exact ⟨List.prefix_refl _, fun _ h => List.mem_cons_of_mem _ h, fun _ h => h⟩
      | error e => exact .refl s
  | await groupId o =>
      cases hcurrent : σ.current with
      | none =>
          simp only [effect, hcurrent]
          exact .refl s
      | some held =>
          obtain ⟨h, message⟩ := held
          rw [effect_await hcurrent]
          exact grows_carryOut topic h o r s

/-- A copy keeps its place in the topic. -/
theorem Grows.getElem? {s s' : Shared} (h : Grows s s') {k : ℕ} {copy : Copy}
    (hk : s.copies[k]? = some copy) : s'.copies[k]? = some copy := by
  obtain ⟨rest, hrest⟩ := h.copies
  rw [← hrest, List.getElem?_append_left (List.getElem?_eq_some_iff.mp hk).1]
  exact hk

/-- What a member holds it holds while nothing is lost. -/
theorem Held.mono {s s' : Shared} (h : Held sub s σ) (hgrows : Grows s s') : Held sub s' σ where
  stored := by
    intro handling message hcurrent
    obtain ⟨copy, hcopy, hrecord⟩ := h.stored handling message hcurrent
    exact ⟨copy, hgrows.getElem? hcopy, hrecord⟩
  taken := fun handling message hcurrent => hgrows.taken (h.taken handling message hcurrent)
  group := h.group
  failed := fun handling message hcurrent hfailed =>
    hgrows.failed (h.failed handling message hcurrent hfailed)

/-- An operation of a message leaves the message in place. -/
theorem after_current (groupId : String) (o : BaseConsumer.Op)
    (r : Except Exn (Op.await groupId o).Out) (σ : Session) :
    (after (.await groupId o) r σ).current = σ.current := by
  cases o <;> cases r <;> rfl

/-- Only what has been recorded as failed is remembered as failed. -/
theorem failed_of_after {topic : String} {groupId : String} {o : BaseConsumer.Op}
    {r : Except Exn (Op.await groupId o).Out} {s : Shared} {h : Handling}
    (hcurrent : σ.current = some (h, message)) (hσ : σ.failed = true → h ∈ s.failed)
    (hfailed : (after (.await groupId o) r σ).failed = true) :
    h ∈ (effect topic (.await groupId o) r σ s).failed := by
  rw [effect_await hcurrent]
  have hkept := (grows_carryOut topic h o r s).failed
  cases o with
  | process event =>
      cases r with
      | ok u => exact hkept (hσ hfailed)
      | error e => exact List.mem_cons_self
  | sendAndWait topic' value headers => cases r <;> exact hkept (hσ hfailed)
  | commit =>
      cases r with
      | ok u => exact hkept (hσ hfailed)
      | error e => exact List.mem_cons_self

/-- Every step keeps what the members hold. -/
theorem preserves_held (limit : ℕ) (sub : Subscription) (s : Shared) :
    (sharedTopic limit sub).PreservesEach (contract limit sub) anyStep s (Held sub) where
  init := by
    constructor <;> intro h message hcurrent <;> cases hcurrent
  own := by
    intro c i o r hcall hJ
    cases o with
    | poll groupId =>
        cases r with
        | error e => exact hJ i
        | ok polled =>
            -- a poll hands out a stored message that the group has not taken before
            obtain ⟨k, message⟩ := polled
            obtain ⟨hstored, hfresh⟩ := hcall.enabled
            refine ⟨?_, ?_, ?_, ?_⟩ <;> intro h message' hcurrent <;> cases hcurrent
            · exact hstored
            · exact List.mem_cons_self
            · exact hcall.guard
            · exact fun hfailed => by cases hfailed
    -- while a message is handled it stays the current one
    | await groupId o =>
        have hheld := (hJ i).mono (grows_effect sub.topic _ r (c.sess i) c.shared)
        refine ⟨?_, ?_, ?_, ?_⟩ <;> intro h message hcurrent <;>
          have hcurrent' : (c.sess i).current = some (h, message) := by
            rw [← after_current groupId o r]
            exact hcurrent
        · exact hheld.stored h message hcurrent'
        · exact hheld.taken h message hcurrent'
        · exact hheld.group h message hcurrent'
        · exact failed_of_after hcurrent' ((hJ i).failed h message hcurrent')
  other := fun hcall hJ _ => (hJ _).mono (grows_effect sub.topic _ _ _ _)
  env := fun _ _ he => he.elim

/-- No message is handled by two consumers of a group. -/
theorem holders_distinct {s : Shared} {c} (hrun : (sharedTopic limit sub).Run anyStep
    ((sharedTopic limit sub).initial s) c) {i j : ℕ} (hij : i ≠ j) {h : Handling}
    {m m' : ConsumerRecord} (hi : (c.sess i).current = some (h, m)) :
    (c.sess j).current ≠ some (h, m') := by
  have hpair := hrun.pairwise (abides sub s) (K := fun σ σ' => ∀ h m m',
      σ.current = some (h, m) → σ'.current ≠ some (h, m'))
    (fun hK h m m' hcurrent hcurrent' => hK h m' m hcurrent' hcurrent)
    (fun σ h m m' hcurrent => by cases hcurrent) ?_ hij
  · exact hpair h m m' hi
  · intro c i j o r hcall hji hK h m m' hcurrent hcurrent'
    cases o with
    | poll groupId =>
        cases r with
        | error e => exact hK h m m' hcurrent hcurrent'
        | ok polled =>
            cases hcurrent
            -- the other consumer's message was handed out before
            have htaken := (hcall.run.each (abides sub s) (preserves_held limit sub s) j).taken
              _ _ hcurrent'
            exact hcall.enabled.2 htaken
    | await groupId o =>
        refine hK h m m' ?_ hcurrent'
        rw [← after_current groupId o r]
        exact hcurrent

/-! ## Where the copies come from -/

/-- A copy was published by a failed handling of a copy with the count before. -/
structure Descended (sub : Subscription) (limit : ℕ) (s : Shared) (copy : Copy) (h : Handling) :
    Prop where
  failed : h ∈ s.failed
  taken : h ∈ s.taken
  group : h.1 ∈ sub.groups
  readable : ∃ event, loads limit copy.record.value = .ok event
  parent : ∃ parent count, s.copies[h.2]? = some parent ∧
    retryCount parent.record.headers = .ok count ∧ retryCount copy.record.headers = .ok (count + 1)

/-- The message was sent to the dead-letter topic because it is malformed or had its last retry. -/
def Exhausted (limit : ℕ) (value : Option Bytes) (s : Shared) (h : Handling) : Prop :=
  loads limit value = .error .jsonDecodeError ∨
    ∃ copy, s.copies[h.2]? = some copy ∧ retryCount copy.record.headers = .ok maxRetries

/-- The invariant of the topic. -/
structure Lineage (sub : Subscription) (limit : ℕ) (value : Option Bytes) (s : Shared) : Prop where
  topic : ∀ copy ∈ s.copies, copy.record.topic = sub.topic
  content : ∀ copy ∈ s.copies, copy.record.value = value
  count : ∀ copy ∈ s.copies, ∃ count, retryCount copy.record.headers = .ok count ∧ 0 ≤ count ∧
    count ≤ maxRetries
  ancestor : ∀ (k : ℕ) (copy : Copy), s.copies[k]? = some copy → copy.publisher = none →
    k = 0 ∧ retryCount copy.record.headers = .ok 0
  descended : ∀ copy ∈ s.copies, ∀ h, copy.publisher = some h → Descended sub limit s copy h
  distinct : ∀ (k k' : ℕ) (copy copy' : Copy) (h : Handling), s.copies[k]? = some copy →
    s.copies[k']? = some copy' → copy.publisher = some h → copy'.publisher = some h → k = k'
  taken : ∀ h ∈ s.taken, h.2 < s.copies.length
  -- a handling invokes the handler at most once, and only for a copy that it has taken
  invoked : s.invoked.Nodup ∧ s.invoked ⊆ s.taken
  dead : s.dead.Nodup ∧ s.dead ⊆ s.taken
  exhausted : ∀ h ∈ s.dead, Exhausted limit value s h

/-- What a consumer has not done yet for its message, nobody has done for it. -/
structure Unspent (s : Shared) (σ : Session) : Prop where
  invoked : ∀ h message, σ.current = some (h, message) → σ.invoked = false → h ∉ s.invoked
  dead : ∀ h message, σ.current = some (h, message) → σ.sent = false → h ∉ s.dead
  copies : ∀ h message, σ.current = some (h, message) → σ.sent = false →
    ∀ copy ∈ s.copies, copy.publisher ≠ some h

variable {value : Option Bytes} {s : Shared} {h : Handling}

/-- A copy keeps its parent. -/
theorem Descended.mono {s s' : Shared} {copy : Copy} (hd : Descended sub limit s copy h)
    (hgrows : Grows s s') : Descended sub limit s' copy h where
  failed := hgrows.failed hd.failed
  taken := hgrows.taken hd.taken
  group := hd.group
  readable := hd.readable
  parent := by
    obtain ⟨parent, count, hparent, hcounts⟩ := hd.parent
    exact ⟨parent, count, hgrows.getElem? hparent, hcounts⟩

/-- A copy stays one after which there is no retry. -/
theorem Exhausted.mono {s s' : Shared} (he : Exhausted limit value s h) (hgrows : Grows s s') :
    Exhausted limit value s' h := by
  refine he.imp_right ?_
  rintro ⟨copy, hcopy, hcount⟩
  exact ⟨copy, hgrows.getElem? hcopy, hcount⟩

/-- A step that leaves the messages of the topic alone. -/
theorem Lineage.of_grows {s' : Shared} (hl : Lineage sub limit value s) (hgrows : Grows s s')
    (hcopies : s'.copies = s.copies) (htaken : ∀ h ∈ s'.taken, h.2 < s.copies.length)
    (hinvoked : s'.invoked.Nodup ∧ s'.invoked ⊆ s'.taken)
    (hdead : s'.dead.Nodup ∧ s'.dead ⊆ s'.taken)
    (hexhausted : ∀ h ∈ s'.dead, Exhausted limit value s h) :
    Lineage sub limit value s' where
  topic := hcopies ▸ hl.topic
  content := hcopies ▸ hl.content
  count := hcopies ▸ hl.count
  ancestor := hcopies ▸ hl.ancestor
  descended := fun copy hcopy h hpublisher =>
    (hl.descended copy (hcopies ▸ hcopy) h hpublisher).mono hgrows
  distinct := hcopies ▸ hl.distinct
  taken := hcopies ▸ htaken
  invoked := hinvoked
  dead := hdead
  exhausted := fun h hh => (hexhausted h hh).mono hgrows

/-- A member takes a copy. -/
theorem Lineage.take (hl : Lineage sub limit value s) {copy : Copy}
    (hcopy : s.copies[h.2]? = some copy) :
    Lineage sub limit value { s with taken := h :: s.taken } := by
  have hcons : s.taken ⊆ h :: s.taken := fun _ hh => List.mem_cons_of_mem _ hh
  refine hl.of_grows ⟨List.prefix_refl _, hcons, fun _ hh => hh⟩ rfl (fun h' hh' => ?_)
    ⟨hl.invoked.1, fun _ hh => hcons (hl.invoked.2 hh)⟩
    ⟨hl.dead.1, fun _ hh => hcons (hl.dead.2 hh)⟩ hl.exhausted
  rcases List.mem_cons.mp hh' with rfl | hh'
  · exact (List.getElem?_eq_some_iff.mp hcopy).1
  · exact hl.taken h' hh'

/-- A handling fails. -/
theorem Lineage.fail (hl : Lineage sub limit value s) (h : Handling) :
    Lineage sub limit value { s with failed := h :: s.failed } :=
  hl.of_grows ⟨List.prefix_refl _, fun _ hh => hh, fun _ hh => List.mem_cons_of_mem _ hh⟩ rfl
    hl.taken hl.invoked hl.dead hl.exhausted

/-- A copy that was taken is processed for the first time. -/
theorem Lineage.invoke (hl : Lineage sub limit value s) (htaken : h ∈ s.taken)
    (hfresh : h ∉ s.invoked) (succeeded : List Handling) :
    Lineage sub limit value { s with invoked := h :: s.invoked, succeeded := succeeded } := by
  refine hl.of_grows ⟨List.prefix_refl _, fun _ hh => hh, fun _ hh => hh⟩ rfl hl.taken
    ⟨List.nodup_cons.mpr ⟨hfresh, hl.invoked.1⟩, ?_⟩ hl.dead
    hl.exhausted
  exact List.cons_subset.mpr ⟨htaken, hl.invoked.2⟩

/-- A copy after which there is no retry is sent to the dead letters. -/
theorem Lineage.bury (hl : Lineage sub limit value s) (htaken : h ∈ s.taken) (hfresh : h ∉ s.dead)
    (hexhausted : Exhausted limit value s h) :
    Lineage sub limit value { s with dead := h :: s.dead } := by
  refine hl.of_grows ⟨List.prefix_refl _, fun _ hh => hh, fun _ hh => hh⟩ rfl hl.taken hl.invoked
    ⟨List.nodup_cons.mpr ⟨hfresh, hl.dead.1⟩, List.cons_subset.mpr ⟨htaken, hl.dead.2⟩⟩
      fun h' hh' => ?_
  rcases List.mem_cons.mp hh' with rfl | hh'
  · exact hexhausted
  · exact hl.exhausted h' hh'

/-- A copy of the message is published. -/
theorem Lineage.retry (hl : Lineage sub limit value s) {copy : Copy}
    (hpublisher : copy.publisher = some h) (hfresh : ∀ c ∈ s.copies, c.publisher ≠ some h)
    (htopic : copy.record.topic = sub.topic) (hvalue : copy.record.value = value)
    (hdescended : Descended sub limit s copy h)
    (hcount : ∃ count, retryCount copy.record.headers = .ok count ∧ 0 ≤ count ∧
      count ≤ maxRetries) :
    Lineage sub limit value { s with copies := s.copies ++ [copy] } := by
  have hgrows : Grows s { s with copies := s.copies ++ [copy] } :=
    ⟨List.prefix_append _ _, fun _ hh => hh, fun _ hh => hh⟩
  -- an index of the longer list is an old one, or that of the new copy
  have hcases : ∀ k c, (s.copies ++ [copy])[k]? = some c →
      s.copies[k]? = some c ∨ (k = s.copies.length ∧ c = copy) := by
    intro k c hk
    by_cases hlt : k < s.copies.length
    · exact .inl (by rwa [List.getElem?_append_left hlt] at hk)
    · rw [List.getElem?_append_right (not_lt.mp hlt)] at hk
      obtain ⟨hk', hc⟩ := List.getElem?_eq_some_iff.mp hk
      simp only [List.length_singleton] at hk'
      simp only [List.getElem_singleton] at hc
      exact .inr ⟨by omega, hc.symm⟩
  have hmem : ∀ c ∈ s.copies ++ [copy], c ∈ s.copies ∨ c = copy := fun c hc =>
    (List.mem_append.mp hc).imp_right List.mem_singleton.mp
  refine ⟨fun c hc => ?_, fun c hc => ?_, fun c hc => ?_, fun k c hk hnone => ?_,
    fun c hc h' hpub => ?_, fun k k' c c' h' hk hk' hc hc' => ?_, fun h' hh' => ?_, hl.invoked,
      hl.dead,
    fun h' hh' => (hl.exhausted h' hh').mono hgrows⟩
  · rcases hmem c hc with hc | rfl
    · exact hl.topic c hc
    · exact htopic
  · rcases hmem c hc with hc | rfl
    · exact hl.content c hc
    · exact hvalue
  · rcases hmem c hc with hc | rfl
    · exact hl.count c hc
    · exact hcount
  · rcases hcases k c hk with hk | ⟨-, rfl⟩
    · exact hl.ancestor k c hk hnone
    · rw [hpublisher] at hnone
      cases hnone
  · rcases hmem c hc with hc | rfl
    · exact (hl.descended c hc h' hpub).mono hgrows
    · rw [hpublisher] at hpub
      cases hpub
      exact hdescended.mono hgrows
  · rcases hcases k c hk with hold | ⟨rfl, rfl⟩ <;> rcases hcases k' c' hk' with hold' | ⟨rfl, rfl⟩
    · exact hl.distinct k k' c c' h' hold hold' hc hc'
    · rw [hpublisher] at hc'
      cases hc'
      exact absurd hc (hfresh c (List.mem_of_getElem? hold))
    · rw [hpublisher] at hc
      cases hc
      exact absurd hc' (hfresh c' (List.mem_of_getElem? hold'))
    · rfl
  · rw [List.length_append]
    exact Nat.lt_add_right _ (hl.taken h' hh')

/-! ## Steps -/

/-- What is new after an operation belongs to the handling that did it. -/
theorem mem_carryOut (topic : String) (h : Handling) (o : BaseConsumer.Op) (r : Except Exn Unit)
    (s : Shared) :
    (∀ h' ∈ (carryOut topic h o r s).invoked, h' ∈ s.invoked ∨
      (h' = h ∧ ∃ event, o = .process event)) ∧
    (∀ h' ∈ (carryOut topic h o r s).dead, h' ∈ s.dead ∨
      (h' = h ∧ r = .ok () ∧ ∃ topic value headers, o = .sendAndWait topic value headers)) ∧
    ∀ copy ∈ (carryOut topic h o r s).copies, copy ∈ s.copies ∨
      (copy.publisher = some h ∧ r = .ok () ∧
        ∃ topic value headers, o = .sendAndWait topic value headers) := by
  cases o with
  -- an invocation of `process` is noted for this handling
  | process event =>
      cases r <;> refine ⟨fun h' hh' => ?_, fun _ hh => .inl hh, fun _ hc => .inl hc⟩ <;>
        exact (List.mem_cons.mp hh').symm.imp_right fun heq => ⟨heq, event, rfl⟩
  | commit => cases r <;> exact ⟨fun _ hh => .inl hh, fun _ hh => .inl hh, fun _ hc => .inl hc⟩
  | sendAndWait topic' value headers =>
      cases r with
      | error e => exact ⟨fun _ hh => .inl hh, fun _ hh => .inl hh, fun _ hc => .inl hc⟩
      | ok u =>
          simp only [carryOut, publish]
          split
          · -- the topic of the event gets a new copy
            refine ⟨fun _ hh => .inl hh, fun _ hh => .inl hh, fun copy hc => ?_⟩
            refine (List.mem_append.mp hc).imp_right fun hc => ?_
            rw [List.mem_singleton.mp hc]
            exact ⟨rfl, trivial, topic', value, headers, rfl⟩
          · -- the dead-letter topic of the group gets the message
            split
            · refine ⟨fun _ hh => .inl hh, fun h' hh' => ?_, fun _ hc => .inl hc⟩
              exact (List.mem_cons.mp hh').symm.imp_right
                fun heq => ⟨heq, trivial, topic', value, headers, rfl⟩
            · exact ⟨fun _ hh => .inl hh, fun _ hh => .inl hh, fun _ hc => .inl hc⟩

/-- The consumer that does the operation has spent what it did. -/
theorem Unspent.own (hu : Unspent s σ) {o : BaseConsumer.Op} {r : Except Exn Unit} {topic : String}
    (groupId : String) : Unspent (carryOut topic h o r s) (after (.await groupId o) r σ) := by
  obtain ⟨hinvoked, hdead, hcopies⟩ := mem_carryOut topic h o r s
  have hafter := after_current groupId o r σ
  refine ⟨fun h' m' hc hflag hmem => ?_, fun h' m' hc hflag hmem => ?_,
    fun h' m' hc hflag copy hmem hpub => ?_⟩ <;> rw [hafter] at hc
  · rcases hinvoked h' hmem with hold | ⟨-, event, rfl⟩
    · refine hu.invoked h' m' hc ?_ hold
      cases o <;> cases r <;> first | exact hflag | cases hflag
    · cases r <;> cases hflag
  · rcases hdead h' hmem with hold | ⟨-, rfl, topic', value, headers, rfl⟩
    · refine hu.dead h' m' hc ?_ hold
      cases o <;> cases r <;> first | exact hflag | cases hflag
    · cases hflag
  · rcases hcopies copy hmem with hold | ⟨-, rfl, topic', value, headers, rfl⟩
    · refine hu.copies h' m' hc ?_ copy hold hpub
      cases o <;> cases r <;> first | exact hflag | cases hflag
    · cases hflag

/-- The other consumers have not spent anything. -/
theorem Unspent.other (hu : Unspent s σ) {o : BaseConsumer.Op} {r : Except Exn Unit}
    {topic : String}
    (hne : ∀ m, σ.current ≠ some (h, m)) : Unspent (carryOut topic h o r s) σ := by
  obtain ⟨hinvoked, hdead, hcopies⟩ := mem_carryOut topic h o r s
  refine ⟨fun h' m' hc hflag hmem => ?_, fun h' m' hc hflag hmem => ?_,
    fun h' m' hc hflag copy hmem hpub => ?_⟩
  · rcases hinvoked h' hmem with hold | ⟨rfl, -⟩
    · exact hu.invoked h' m' hc hflag hold
    · exact hne m' hc
  · rcases hdead h' hmem with hold | ⟨rfl, -⟩
    · exact hu.dead h' m' hc hflag hold
    · exact hne m' hc
  · rcases hcopies copy hmem with hold | ⟨hpub', -⟩
    · exact hu.copies h' m' hc hflag copy hold hpub
    · rw [hpub] at hpub'
      cases hpub'
      exact hne m' hc

/-- What a consumer publishes continues the lineage. -/
theorem Lineage.publish (hl : Lineage sub limit value s) (hheld : Held sub s σ) (hu : Unspent s σ)
    (hcurrent : σ.current = some (h, message)) (hsent : σ.sent = false) {record : ConsumerRecord}
    (hsends : Sends limit h.1 message σ.failed record) :
    Lineage sub limit value (publish sub.topic h record s) := by
  obtain ⟨parent, hparent, rfl⟩ := hheld.stored h message hcurrent
  have hmem : parent ∈ s.copies := List.mem_of_getElem? hparent
  have htaken := hheld.taken h _ hcurrent
  have hseparate := sub.separate h.1 (hheld.group h _ hcurrent)
  have hdead := hu.dead h _ hcurrent hsent
  cases hsends with
  -- the document is malformed, which is the same for every copy
  | malformed hmalformed =>
      rw [SharedTopic.publish, if_neg hseparate, if_pos rfl]
      exact hl.bury htaken hdead (.inl (by rw [← hl.content parent hmem]; exact hmalformed))
  -- the retries are exhausted, so the count is the last one
  | exhausted hcount hge =>
      rw [SharedTopic.publish, if_neg hseparate, if_pos rfl]
      refine hl.bury htaken hdead (.inr ⟨parent, hparent, ?_⟩)
      obtain ⟨count', hcount', -, hle⟩ := hl.count parent hmem
      rw [hcount] at hcount'
      cases hcount'
      rw [hcount, le_antisymm hle hge]
  -- a retry: the copy is of the next generation
  | retry hfailed hevent hcount hlt hvalue =>
      rw [SharedTopic.publish, if_pos (hl.topic parent hmem)]
      obtain ⟨count', hcount', hnonneg, -⟩ := hl.count parent hmem
      rw [hcount] at hcount'
      cases hcount'
      have hnext := (retryCount_retryHeaders parent.record.headers _).trans
        (parseCount_renderCount hvalue)
      refine hl.retry rfl (hu.copies h _ hcurrent hsent) (hl.topic parent hmem)
        (hl.content parent hmem) ?_ ⟨_, hnext, by omega, by omega⟩
      exact ⟨hheld.failed h _ hcurrent hfailed, htaken, hheld.group h _ hcurrent, ⟨_, hevent⟩,
        parent, _, hparent, hcount, hnext⟩

/-- Whatever a consumer awaits keeps the lineage. -/
theorem Lineage.carryOut (hl : Lineage sub limit value s) (hheld : Held sub s σ) (hu : Unspent s σ)
    {o : BaseConsumer.Op} (hallowed : Allowed limit groupId o σ)
    (hcurrent : σ.current = some (h, message)) (r : Except Exn Unit) :
    Lineage sub limit value (carryOut sub.topic h o r s) := by
  have htaken := hheld.taken h _ hcurrent
  cases o with
  -- the handler is invoked, for the first time in this handling
  | process event =>
      have hinvoked := hl.invoke htaken (hu.invoked h _ hcurrent hallowed.1)
      cases r with
      | ok u => exact hinvoked _
      | error e => exact (hinvoked s.succeeded).fail h
  | commit =>
      cases r with
      | ok u => exact hl
      | error e => exact hl.fail h
  -- a message is published in the name of the handling
  | sendAndWait topic' value' headers =>
      cases r with
      | error e => exact hl
      | ok u =>
          obtain ⟨hsent, k, message', hcurrent', hsends⟩ := hallowed
          -- the copy that is published descends from the one in hand
          rw [hcurrent] at hcurrent'
          cases hcurrent'
          exact hl.publish hheld hu hcurrent hsent hsends

/-- Whatever belongs to a message is done while the message is handled. -/
theorem exists_current {o : BaseConsumer.Op} (h : Allowed limit groupId o σ) :
    ∃ k message, σ.current = some ((groupId, k), message) := by
  cases o with
  | process event => exact h.2
  | sendAndWait topic value headers =>
      obtain ⟨-, k, message, hcurrent, -⟩ := h
      exact ⟨k, message, hcurrent⟩
  | commit => exact h

/-- An operation continues the lineage. -/
theorem Lineage.effect {c} {i : ℕ} {o : Op} {r : Except Exn o.Out}
    (hcall : (sharedTopic limit sub).Call (contract limit sub) anyStep
      (published sub value) c i o r)
    (hl : Lineage sub limit value c.shared) (hu : Unspent c.shared (c.sess i)) :
    Lineage sub limit value ((sharedTopic limit sub).effect o r (c.sess i) c.shared) := by
  have hheld := hcall.run.each (abides sub _) (preserves_held limit sub _) i
  cases o with
  -- a copy is taken
  | poll groupId =>
      cases r with
      | error e => exact hl
      | ok polled =>
          obtain ⟨k, message⟩ := polled
          obtain ⟨⟨copy, hcopy, -⟩, -⟩ := hcall.enabled
          exact hl.take (h := (groupId, k)) hcopy
  -- something is awaited for the copy in hand
  | await groupId o =>
      obtain ⟨k, message, hcurrent⟩ := exists_current hcall.guard
      have heffect : (sharedTopic limit sub).effect (.await groupId o) r (c.sess i) c.shared =
          SharedTopic.carryOut sub.topic (groupId, k) o r c.shared := effect_await hcurrent
      rw [heffect]
      exact hl.carryOut hheld hu hcall.guard hcurrent r

/-- The topic that has the event once. -/
theorem lineage_published (limit : ℕ) (sub : Subscription) (value : Option Bytes) :
    Lineage sub limit value (published sub value) where
  topic := by simp [published]
  content := by simp [published]
  count := by
    intro copy hcopy
    rw [List.mem_singleton.mp hcopy]
    exact ⟨0, rfl, le_rfl, by decide⟩
  ancestor := by
    -- the only copy is the ancestor
    intro k copy hk _
    obtain ⟨hlt, rfl⟩ := List.getElem?_eq_some_iff.mp hk
    obtain rfl : k = 0 := Nat.lt_one_iff.mp hlt
    exact ⟨rfl, rfl⟩
  descended := by
    intro copy hcopy h hpublisher
    rw [List.mem_singleton.mp hcopy] at hpublisher
    cases hpublisher
  distinct := by
    intro k k' copy copy' h hk _ hpublisher _
    rw [List.mem_singleton.mp (List.mem_of_getElem? hk)] at hpublisher
    cases hpublisher
  taken := fun h hh => absurd hh List.not_mem_nil
  invoked := ⟨List.nodup_nil, fun _ hh => hh⟩
  dead := ⟨List.nodup_nil, fun _ hh => hh⟩
  exhausted := fun h hh => absurd hh List.not_mem_nil

/-- The invariants of a run. -/
theorem preserves_lineage (limit : ℕ) (sub : Subscription) (value : Option Bytes) :
    (sharedTopic limit sub).PreservesEach (contract limit sub) anyStep (published sub value)
      fun s σ => Lineage sub limit value s ∧ Unspent s σ where
  init := by
    refine ⟨lineage_published limit sub value, ?_, ?_, ?_⟩ <;> intro h message hcurrent <;>
      cases hcurrent
  own := by
    intro c i o r hcall hJ
    obtain ⟨hl, hu⟩ := hJ i
    refine ⟨hl.effect hcall hu, ?_⟩
    cases o with
    | poll groupId =>
        cases r with
        | error e => exact hu
        | ok polled =>
            obtain ⟨k, message⟩ := polled
            have hfresh := hcall.enabled.2
            -- nothing has been done yet about a message that was just taken
            refine ⟨?_, ?_, ?_⟩ <;> intro h' m' hcurrent _ <;> cases hcurrent
            · exact fun hmem => hfresh (hl.invoked.2 hmem)
            · exact fun hmem => hfresh (hl.dead.2 hmem)
            · exact fun copy hmem hpub => hfresh (hl.descended copy hmem _ hpub).taken
    | await groupId o =>
        -- the effect is that of the handling of this message
        obtain ⟨k, message, hcurrent⟩ := exists_current hcall.guard
        have heffect : (sharedTopic limit sub).effect (.await groupId o) r (c.sess i) c.shared =
            SharedTopic.carryOut sub.topic (groupId, k) o r c.shared := effect_await hcurrent
        rw [heffect]
        exact hu.own groupId
  other := by
    intro c i o r j hcall hJ hji
    refine ⟨(hJ i).1.effect hcall (hJ i).2, ?_⟩
    cases o with
    | poll groupId =>
        obtain ⟨hinvoked, hdead, hcopies⟩ := (hJ j).2
        cases r <;> exact ⟨hinvoked, hdead, hcopies⟩
    | await groupId o =>
        -- two members never handle the same message for one group
        obtain ⟨k, message, hcurrent⟩ := exists_current hcall.guard
        have heffect : (sharedTopic limit sub).effect (.await groupId o) r (c.sess i) c.shared =
            SharedTopic.carryOut sub.topic (groupId, k) o r c.shared := effect_await hcurrent
        rw [heffect]
        exact (hJ j).2.other fun m' => holders_distinct hcall.run (Ne.symm hji) hcurrent
  env := fun _ _ he => he.elim

/-! ## Counting -/

/-- The retry count of the message at an offset. -/
def generation (s : Shared) (k : ℕ) : ℕ :=
  match s.copies[k]? with
  | some copy =>
      match retryCount copy.record.headers with
      | .ok count => count.toNat
      | .error _ => 0
  | none => 0

/-- The handling that published the message at an offset. -/
def origin (s : Shared) (k : ℕ) : Handling :=
  match s.copies[k]? with
  | some copy => copy.publisher.getD ("", 0)
  | none => ("", 0)

/-- The groups that have published copies. -/
def retrying (s : Shared) : Finset String :=
  ((s.copies.filterMap Copy.publisher).map Prod.fst).toFinset

/-- The generation of a copy is the count in its headers. -/
theorem generation_eq {copy : Copy} {count : ℤ} (hk : s.copies[k]? = some copy)
    (hcount : retryCount copy.record.headers = .ok count) : generation s k = count.toNat := by
  simp [generation, hk, hcount]

/-- A copy with a positive count has a publisher. -/
theorem Lineage.publisher (hl : Lineage sub limit value s) {copy : Copy}
    (hk : s.copies[k]? = some copy) (hpos : 0 < generation s k) :
    ∃ h, copy.publisher = some h ∧ origin s k = h ∧ h.1 ∈ retrying s ∧ h.2 < s.copies.length ∧
      generation s h.2 + 1 = generation s k := by
  have hmem := List.mem_of_getElem? hk
  cases hpublisher : copy.publisher with
  -- an original has the count zero
  | none =>
      rw [generation_eq hk (hl.ancestor k copy hk hpublisher).2] at hpos
      cases hpos
  -- a retry has the count of its parent and one
  | some h =>
      obtain ⟨parent, count, hparent, hcount, hnext⟩ := (hl.descended copy hmem h hpublisher).parent
      obtain ⟨count', hcount', hnonneg, -⟩ := hl.count parent (List.mem_of_getElem? hparent)
      rw [hcount] at hcount'
      cases hcount'
      refine ⟨h, rfl, by simp [origin, hk, hpublisher], ?_, ?_, ?_⟩
      · simp only [retrying, List.mem_toFinset, List.mem_map, List.mem_filterMap]
        exact ⟨h, ⟨copy, hmem, hpublisher⟩, rfl⟩
      · exact (List.getElem?_eq_some_iff.mp hparent).1
      · rw [generation_eq hparent hcount, generation_eq hk hnext]
        omega

/-- The copies are generations of one message. -/
theorem Lineage.descends (hl : Lineage sub limit value s) :
    Bookkeeping.Descends (Finset.range s.copies.length) (generation s) (origin s) (retrying s) := by
  have hget : ∀ k ∈ Finset.range s.copies.length, ∃ copy, s.copies[k]? = some copy := fun k hk =>
    ⟨_, List.getElem?_eq_getElem (Finset.mem_range.mp hk)⟩
  refine ⟨?_, fun k hk hpos => ?_, fun k hk hpos => ?_, fun k hk k' hk' hpos hpos' heq => ?_⟩
  · -- a copy that has a publisher has a positive count
    refine Finset.card_le_one.mpr fun k hk k' hk' => ?_
    have hzero : ∀ k ∈ (Finset.range s.copies.length).filter fun k => generation s k = 0,
      k = 0 := by
      intro k hk
      obtain ⟨hk, hgeneration⟩ := Finset.mem_filter.mp hk
      obtain ⟨copy, hcopy⟩ := hget k hk
      cases hpublisher : copy.publisher with
      | none => exact (hl.ancestor k copy hcopy hpublisher).1
      | some h =>
          obtain ⟨parent, count, hparent, hcount, hnext⟩ :=
            (hl.descended copy (List.mem_of_getElem? hcopy) h hpublisher).parent
          obtain ⟨count', hcount', hnonneg, -⟩ := hl.count parent (List.mem_of_getElem? hparent)
          rw [hcount] at hcount'
          cases hcount'
          rw [generation_eq hcopy hnext] at hgeneration
          omega
    rw [hzero k hk, hzero k' hk']
  · obtain ⟨copy, hcopy⟩ := hget k hk
    obtain ⟨h, -, horigin, hretrying, -⟩ := hl.publisher hcopy hpos
    rwa [horigin]
  · obtain ⟨copy, hcopy⟩ := hget k hk
    obtain ⟨h, -, horigin, -, hlt, hgeneration⟩ := hl.publisher hcopy hpos
    rw [horigin]
    exact ⟨Finset.mem_range.mpr hlt, hgeneration⟩
  · obtain ⟨copy, hcopy⟩ := hget k hk
    obtain ⟨copy', hcopy'⟩ := hget k' hk'
    obtain ⟨h, hpublisher, horigin, -⟩ := hl.publisher hcopy hpos
    obtain ⟨h', hpublisher', horigin', -⟩ := hl.publisher hcopy' hpos'
    rw [horigin, horigin'] at heq
    subst heq
    exact hl.distinct k k' copy copy' h hcopy hcopy' hpublisher hpublisher'

/-- A group handles at most as many messages as there are offsets in `S`, if those it handles lie
there. -/
theorem length_filter_le_card {hs : List Handling} (hnodup : hs.Nodup) (groupId : String)
    {S : Finset ℕ} (hS : ∀ h ∈ hs, h.1 = groupId → h.2 ∈ S) :
    (hs.filter fun h => h.1 = groupId).length ≤ S.card := by
  rw [← List.toFinset_card_of_nodup (hnodup.filter _)]
  refine Finset.card_le_card_of_injOn Prod.snd (fun h hh => ?_) fun h hh h' hh' heq => ?_
  · have hmem := List.mem_filter.mp (List.mem_toFinset.mp hh)
    exact hS h hmem.1 (of_decide_eq_true hmem.2)
  · have hmem := List.mem_filter.mp (List.mem_toFinset.mp hh)
    have hmem' := List.mem_filter.mp (List.mem_toFinset.mp hh')
    exact Prod.ext ((of_decide_eq_true hmem.2).trans (of_decide_eq_true hmem'.2).symm) heq

/-- The number of times that a group has processed the event. -/
def invocations (s : Shared) (groupId : String) : ℕ :=
  (s.invoked.filter fun h => h.1 = groupId).length

/-- The number of times that a group has sent the event to its dead-letter topic. -/
def deadLetters (s : Shared) (groupId : String) : ℕ :=
  (s.dead.filter fun h => h.1 = groupId).length

/-- No copy has more retries behind it than the consumer allows. -/
theorem Lineage.generation_le (hl : Lineage sub limit value s) :
    ∀ k ∈ Finset.range s.copies.length, generation s k ≤ maxRetries.toNat := by
  intro k hk
  have hcopy := List.getElem?_eq_getElem (Finset.mem_range.mp hk)
  obtain ⟨count, hcount, hnonneg, hle⟩ := hl.count _ (List.mem_of_getElem? hcopy)
  rw [generation_eq hcopy hcount]
  exact Int.toNat_le_toNat hle

/-- How often a group processes the event. -/
theorem Lineage.invocations_le (hl : Lineage sub limit value s) (groupId : String) :
    invocations s groupId ≤ ∑ r ∈ Finset.range (maxRetries.toNat + 1), (retrying s).card ^ r := by
  calc invocations s groupId
      ≤ (Finset.range s.copies.length).card :=
        length_filter_le_card hl.invoked.1 groupId fun h hh _ =>
          Finset.mem_range.mpr (hl.taken h (hl.invoked.2 hh))
    _ ≤ _ := hl.descends.card_le hl.generation_le

/-- How often a group sends the event to its dead letters. -/
theorem Lineage.deadLetters_le (hl : Lineage sub limit value s) (groupId : String) :
    deadLetters s groupId ≤ max 1 ((retrying s).card ^ maxRetries.toNat) := by
  by_cases hmalformed : loads limit value = .error .jsonDecodeError
  · -- a malformed event is never published again
    refine le_max_of_le_left (length_filter_le_card hl.dead.1 groupId (S := {0}) fun h hh _ => ?_)
    obtain ⟨copy, hcopy⟩ : ∃ copy, s.copies[h.2]? = some copy :=
      ⟨_, List.getElem?_eq_getElem (hl.taken h (hl.dead.2 hh))⟩
    have hmem := List.mem_of_getElem? hcopy
    cases hpublisher : copy.publisher with
    | none => exact Finset.mem_singleton.mpr (hl.ancestor _ _ hcopy hpublisher).1
    | some h' =>
        obtain ⟨event, hevent⟩ := (hl.descended _ hmem h' hpublisher).readable
        rw [hl.content _ hmem, hmalformed] at hevent
        cases hevent
  · refine le_max_of_le_right (le_trans (length_filter_le_card hl.dead.1 groupId fun h hh _ => ?_)
      (hl.descends.card_generation_le maxRetries.toNat))
    rcases hl.exhausted h hh with habsurd | ⟨copy, hcopy, hcount⟩
    · exact absurd habsurd hmalformed
    · refine Finset.mem_filter.mpr ⟨Finset.mem_range.mpr (hl.taken h (hl.dead.2 hh)), ?_⟩
      exact generation_eq hcopy hcount

end SharedTopic

open SharedTopic

/-- With `f` groups that publish the event again, a group processes it at most `1 + f + ⋯` times, up
to the power of the number of retries, and sends it to its dead-letter topic at most as often as
there are copies with the last count. With one such group these are the bounds of a single consumer.
Only a group in which something failed publishes the event again. -/
theorem retries_shared {limit : ℕ} {sub : Subscription} {value : Option Bytes} {c}
    (h : (sharedTopic limit sub).Run anyStep
      ((sharedTopic limit sub).initial (published sub value)) c)
    (groupId : String) :
    invocations c.shared groupId ≤
        ∑ r ∈ Finset.range (maxRetries.toNat + 1), (retrying c.shared).card ^ r ∧
      deadLetters c.shared groupId ≤ max 1 ((retrying c.shared).card ^ maxRetries.toNat) ∧
      ((retrying c.shared).card ≤ 1 → invocations c.shared groupId ≤ maxRetries + 1 ∧
        deadLetters c.shared groupId ≤ 1) ∧
      ∀ copy ∈ c.shared.copies, ∀ handling, copy.publisher = some handling →
        handling ∈ c.shared.failed ∧ handling.1 ∈ sub.groups := by
  have hl := (h.each (abides sub _) (preserves_lineage limit sub value) 0).1
  have hinvocations := hl.invocations_le groupId
  have hdead := hl.deadLetters_le groupId
  refine ⟨hinvocations, hdead, fun hone => ?_, fun copy hcopy handling hpublisher => ?_⟩
  · -- with at most one group that retries, every generation has at most one copy
    have hpow : ∀ r, (retrying c.shared).card ^ r ≤ 1 := fun r => pow_le_one' hone r
    have hsum : ∑ r ∈ Finset.range (maxRetries.toNat + 1), (retrying c.shared).card ^ r ≤
        (Finset.range (maxRetries.toNat + 1)).card • 1 :=
      Finset.sum_le_card_nsmul _ _ 1 fun r _ => hpow r
    rw [Finset.card_range, nsmul_eq_mul, Nat.cast_id, mul_one] at hsum
    refine ⟨?_, hdead.trans (max_le le_rfl (hpow _))⟩
    have hle := hinvocations.trans hsum
    have hmax : ((maxRetries.toNat + 1 : ℕ) : ℤ) = maxRetries + 1 := rfl
    omega
  · have hdescended := hl.descended copy hcopy handling hpublisher
    exact ⟨hdescended.failed, hdescended.group⟩

/-- Two groups on one topic. -/
def twoGroups : Subscription where
  topic := "transfer.events"
  groups := ["minibank.audit-consumer", "minibank.notification-consumer"]
  separate := by decide

/-- What a schedule of the consumers settles. -/
inductive ConsumerHint
  /-- Start a consumer of the group, for `n` messages. -/
  | start (groupId : String) (n : ℕ)
  /-- The message at the offset is handed out. -/
  | offset (k : ℕ)
  | ok
  | fail

/-- The schedules of the consumers. -/
def consumerPlayer (limit : ℕ) (sub : Subscription) :
    (sharedTopic limit sub).Player ConsumerHint where
  spawn := fun
    | .start groupId n =>
        if h : groupId ∈ sub.groups then
          some ⟨consume limit groupId n, groupId, h, n, rfl⟩
        else none
    | _ => none
  call := fun hint _ o w =>
    match hint, o with
    | .offset k, .poll groupId =>
        match hk : w.shared.copies[k]? with
        | some copy =>
            if h : (groupId, k) ∈ w.shared.taken then none
            else some ⟨.ok (k, copy.record), ⟨copy, hk, rfl⟩, h⟩
        | none => none
    | .ok, .await _ _ => some ⟨.ok (), trivial⟩
    | .fail, .await _ _ => some ⟨.error (.raised true (some "")), trivial⟩
    | _, _ => none
  env := fun _ _ => none

/-- The second group processes the event; the first one fails, and publishes it again; the second
one processes it again. -/
def retriedByOther : List (Move ConsumerHint) :=
  [.spawn (.start "minibank.audit-consumer" 1), .spawn (.start "minibank.notification-consumer" 2),
    .call 1 (.offset 0), .call 1 .ok, .call 1 .ok,
    .call 0 (.offset 0), .call 0 .fail, .call 0 .ok,
    .call 1 (.offset 1), .call 1 .ok]

/-- A group that has processed the event processes it again, because another group has failed. -/
theorem retries_not_isolated :
    ∃ c, (sharedTopic 10 twoGroups).Run anyStep
        ((sharedTopic 10 twoGroups).initial (published twoGroups (some (asciiBytes "[]")))) c ∧
      ("minibank.notification-consumer", 0) ∈ c.shared.succeeded ∧
      ("minibank.notification-consumer", 1) ∈ c.shared.invoked ∧
      ("minibank.notification-consumer", 0) ∉ c.shared.failed ∧
      (c.shared.copies[1]?.bind Copy.publisher) = some ("minibank.audit-consumer", 0) := by
  have hplay : (play anyStep (consumerPlayer 10 twoGroups)
      ((sharedTopic 10 twoGroups).initial (published twoGroups (some (asciiBytes "[]"))))
      retriedByOther).any (fun c => decide (
        ("minibank.notification-consumer", 0) ∈ c.shared.succeeded ∧
        ("minibank.notification-consumer", 1) ∈ c.shared.invoked ∧
        ("minibank.notification-consumer", 0) ∉ c.shared.failed ∧
        (c.shared.copies[1]?.bind Copy.publisher) = some ("minibank.audit-consumer", 0))) =
          true := by
    decide +kernel
  obtain ⟨c, hc, hP⟩ := (Option.any_eq_true _ _).mp hplay
  exact ⟨c, run_of_play hc, of_decide_eq_true hP⟩

/-- Every group fails on every copy that it is handed. -/
def failedByBoth : List (Move ConsumerHint) :=
  [.spawn (.start "minibank.audit-consumer" 15),
    .spawn (.start "minibank.notification-consumer" 15)] ++
    (List.range 15).flatMap fun k =>
      [.call 0 (.offset k), .call 0 .fail, .call 0 .ok, .call 0 .ok,
        .call 1 (.offset k), .call 1 .fail, .call 1 .ok, .call 1 .ok]

/-- Two groups that always fail attain the bounds: each processes the event 15 times, and sends it
to its dead-letter topic 8 times. -/
theorem retries_attained :
    ∃ c, (sharedTopic 10 twoGroups).Run anyStep
        ((sharedTopic 10 twoGroups).initial (published twoGroups (some (asciiBytes "[]")))) c ∧
      ∀ groupId ∈ twoGroups.groups,
        invocations c.shared groupId = 15 ∧ deadLetters c.shared groupId = 8 := by
  have hplay : (play anyStep (consumerPlayer 10 twoGroups)
      ((sharedTopic 10 twoGroups).initial (published twoGroups (some (asciiBytes "[]"))))
      failedByBoth).any (fun c => decide (∀ groupId ∈ twoGroups.groups,
        invocations c.shared groupId = 15 ∧ deadLetters c.shared groupId = 8)) = true := by
    decide +kernel
  obtain ⟨c, hc, hP⟩ := (Option.any_eq_true _ _).mp hplay
  exact ⟨c, run_of_play hc, of_decide_eq_true hP⟩

/-- In the run in which only the first group fails, the bounds of a single consumer hold. -/
theorem retries_shared_two_groups :
    ∃ c, (sharedTopic 10 twoGroups).Run anyStep
        ((sharedTopic 10 twoGroups).initial (published twoGroups (some (asciiBytes "[]")))) c ∧
      invocations c.shared "minibank.notification-consumer" = 2 ∧
      invocations c.shared "minibank.notification-consumer" ≤ maxRetries + 1 := by
  have hplay : (play anyStep (consumerPlayer 10 twoGroups)
      ((sharedTopic 10 twoGroups).initial (published twoGroups (some (asciiBytes "[]"))))
      retriedByOther).any (fun c => decide (
        invocations c.shared "minibank.notification-consumer" = 2 ∧
        (retrying c.shared).card ≤ 1)) = true := by
    decide +kernel
  obtain ⟨c, hc, hP⟩ := (Option.any_eq_true _ _).mp hplay
  obtain ⟨htwo, hone⟩ := of_decide_eq_true hP
  have hbounds := retries_shared (run_of_play hc) "minibank.notification-consumer"
  exact ⟨c, run_of_play hc, htwo, (hbounds.2.2.1 hone).1⟩

end MiniWallet
