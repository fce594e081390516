import MiniWallet.Safety.Retries
import MiniWallet.Schema.JsonText

/-!
# What a consumer sends after processing

The commit of the offset stands in the same `try` block as the call of `process`, so that its
exceptions are taken for failures of `process`.

* `processed_not_resent_iff`: a message that was processed is not sent again, to its own topic or to
  the dead-letter topic, exactly if the commit that follows does not raise such an exception.
-/

namespace MiniWallet

open Process Python

namespace BaseConsumer

variable {limit : ℕ} {groupId : String} {message : ConsumerRecord}

/-! ## The handler of the exceptions -/

/-- The operation sends to the topic of the message or to the dead-letter topic. -/
def Op.Resends (groupId : String) (message : ConsumerRecord) : Op → Prop
  | .sendAndWait topic _ _ => topic = message.topic ∨ topic = dlqTopic groupId
  | _ => False

/-- The operation is not a call of `process`. -/
def Op.NotProcess : Op → Prop
  | .process _ => False
  | _ => True

/-- The dead-letter branch does not process the event. -/
theorem awaits_deadLetter : (deadLetter groupId message).Awaits Op.NotProcess := by
  refine ⟨trivial, fun r => ?_⟩
  cases r with
  | error e => exact trivial
  | ok a => exact ⟨trivial, fun r => by cases r <;> exact trivial⟩

/-- The retry branch does not process the event. -/
theorem awaits_republish (count : ℤ) : (republish message count).Awaits Op.NotProcess := by
  unfold republish
  cases renderCount count with
  | error e => exact trivial
  | ok value =>
      refine ⟨trivial, fun r => ?_⟩
      cases r with
      | error e => exact trivial
      | ok a => exact ⟨trivial, fun r => by cases r <;> exact trivial⟩

/-- Nothing processes the event after its failure. -/
theorem awaits_onFailure (count : ℤ) (e : Exn) :
    (onFailure groupId message count e).Awaits Op.NotProcess := by
  unfold onFailure
  split
  · exact trivial
  · split
    · exact trivial
    · split
      · exact awaits_deadLetter
      · exact awaits_republish _

/-- A program that does not call `process` is not the one that processed the message. -/
theorem not_processed {p rest : Program Unit} {log : Log} {event : JsonValue}
    (hp : p.Awaits Op.NotProcess) (h : p.Executes log rest) :
    ⟨.process event, .ok ()⟩ ∉ log :=
  fun hmem => h.awaits hp _ hmem

/-- The handler of an exception that it can deal with sends the message first of all. -/
theorem onFailure_sends {count : ℤ} (hcount : retryCount message.headers = .ok count) {e : Exn}
    (he : e.Handled) {log : Log} {rest : Program Unit} {out : Except Exn Unit}
    (h : (onFailure groupId message count e).Executes log rest) (hend : rest.outcome? = some out) :
    ∃ o r log', log = ⟨o, r⟩ :: log' ∧ o.Resends groupId message := by
  obtain ⟨hexception, hprintable⟩ := he
  unfold onFailure at h
  rw [if_neg (not_not.mpr hexception), if_neg (not_not.mpr hprintable)] at h
  split at h
  · obtain ⟨r, log', rfl, -⟩ := h.exists_result hend
    exact ⟨_, r, log', rfl, .inr rfl⟩
  · next hlt =>
    obtain ⟨value, hvalue⟩ := renderCount_succ (natAbs_lt_of_retryCount hcount) (not_le.mp hlt)
    unfold republish at h
    rw [hvalue] at h
    obtain ⟨r, log', rfl, -⟩ := h.exists_result hend
    exact ⟨_, r, log', rfl, .inl rfl⟩

/-- Other exceptions are raised again. -/
theorem onFailure_raises (groupId : String) (message : ConsumerRecord) (count : ℤ) {e : Exn}
    (he : ¬ e.Handled) :
    ∃ e', onFailure groupId message count e = .raise e' := by
  unfold onFailure
  by_cases hexception : e.isException
  · rw [if_neg (not_not.mpr hexception), if_pos fun hprintable => he ⟨hexception, hprintable⟩]
    exact ⟨_, rfl⟩
  · rw [if_pos hexception]
    exact ⟨_, rfl⟩

/-- An execution in which `process` returns goes on with the commit, and with the handler if the
commit raises. -/
theorem executes_of_processed {log : Log} {rest : Program Unit} {out : Except Exn Unit}
    {event : JsonValue} (h : (handleMessage limit groupId message).Executes log rest)
    (hend : rest.outcome? = some out) (hprocessed : ⟨.process event, .ok ()⟩ ∈ log) :
    ∃ count r log', retryCount message.headers = .ok count ∧
      log = ⟨.process event, .ok ()⟩ :: ⟨.commit, r⟩ :: log' ∧
      (r = .ok () → log' = []) ∧
      ∀ e, r = .error e → (onFailure groupId message count e).Executes log' rest := by
  unfold handleMessage at h
  cases hcount : retryCount message.headers with
  | error e =>
      rw [hcount] at h
      rw [h.eq_nil rfl] at hprocessed
      cases hprocessed
  | ok count =>
      rw [hcount] at h
      simp only [convert] at h
      split at h
      · -- the document is malformed, so nothing is processed
        exact absurd hprocessed (not_processed awaits_deadLetter h)
      · rw [h.eq_nil rfl] at hprocessed
        cases hprocessed
      · obtain ⟨r, log', rfl, hnext⟩ := h.exists_result hend
        cases r with
        | error e =>
            -- the handler does not process
            rcases List.mem_cons.mp hprocessed with heq | hmem
            · cases heq
            · exact absurd hmem (not_processed (awaits_onFailure _ _) hnext)
        | ok a =>
            obtain ⟨r, log', rfl, hlast⟩ := hnext.exists_result hend
            have hlog : r = .ok () → log' = [] := by
              rintro rfl
              exact hlast.eq_nil rfl
            have hrest : ∀ e, r = .error e →
                (onFailure groupId message count e).Executes log' rest := by
              rintro e rfl
              exact hlast
            rcases List.mem_cons.mp hprocessed with heq | hmem
            · cases heq
              exact ⟨count, r, log', rfl, rfl, hlog, hrest⟩
            · rcases List.mem_cons.mp hmem with heq | hlater
              · cases heq
              · cases r with
                | ok a => exact absurd (hlog rfl ▸ hlater) List.not_mem_nil
                | error e =>
                    exact absurd hlater (not_processed (awaits_onFailure _ _) (hrest e rfl))

end BaseConsumer

open BaseConsumer

/-- Once `process` has returned, nothing is sent for the message exactly if the commit that follows
does not raise an exception that the handler of `except Exception` deals with. -/
theorem processed_not_resent_iff {limit : ℕ} {groupId : String} {message : ConsumerRecord}
    {log : Log} {rest : BaseConsumer.Program Unit} {out : Except BaseConsumer.Exn Unit}
    {event : JsonValue} (h : (handleMessage limit groupId message).Executes log rest)
    (hend : rest.outcome? = some out) (hprocessed : ⟨.process event, .ok ()⟩ ∈ log) :
    (∀ entry ∈ log, ¬ entry.1.Resends groupId message) ↔
      ∀ e, [⟨.process event, .ok ()⟩, ⟨.commit, .error e⟩] <+: log → ¬ e.Handled := by
  obtain ⟨count, r, log', hcount, rfl, hreturned, hraised⟩ :=
    executes_of_processed h hend hprocessed
  constructor
  · -- if the commit raised such an exception, the handler has sent the message on
    rintro hsilent e ⟨_, heq⟩ he
    cases heq
    obtain ⟨o, r, log'', rfl, hresends⟩ := onFailure_sends hcount he (hraised e rfl) hend
    exact hsilent ⟨o, r⟩ (by simp) hresends
  · intro hhandled
    -- otherwise the handler ends with the commit, or passes its exception on
    have hlog : log' = [] := by
      cases r with
      | ok a => exact hreturned rfl
      | error e =>
          obtain ⟨e', hraise⟩ :=
            onFailure_raises groupId message count (hhandled e ⟨log', rfl⟩)
          have hexec := hraised e rfl
          rw [hraise] at hexec
          exact hexec.eq_nil rfl
    rw [hlog]
    simp [Op.Resends]

/-- The event of a new account. -/
def accountOpenedEvent : Json :=
  .obj [("event_id", .str "6f9619ff-8b86-4d01-b42d-00cf4fc964ff"),
    ("event_type", .str "account.opened"),
    ("occurred_at", .str "2026-01-05T12:00:00+00:00"), ("version", .str "1.0"), ("actor_id", .null),
    ("payload", .obj [("account_id", .str "0b7e3c7e-52a5-4c5f-9f5e-2d1f0a6c1b11"),
      ("user_id", .str "c0ffee00-1c2d-4e3f-8a4b-5c6d7e8f9a0b"), ("status", .str "active")])]

/-- The message that carries it. -/
def accountOpenedMessage : ConsumerRecord where
  topic := "account.events"
  value := some (asciiBytes accountOpenedEvent.dumps)
  headers := []

/-- The group has been rebalanced while the notification consumer processed the message. -/
def rebalanced : BaseConsumer.Exn :=
  .raised true (some "CommitFailedError: Commit cannot be completed since the group has rebalanced")

/-- The message of the example is a JSON document. -/
theorem loads_accountOpened : ∃ event, loads 1000 accountOpenedMessage.value = .ok event := by
  have hvalue : accountOpenedEvent.textValue.isSome = true := by decide
  obtain ⟨event, hevent⟩ := Option.isSome_iff_exists.mp hvalue
  exact ⟨event, loads_dumps hevent (by decide)⟩

/-- The message is handled. -/
theorem processed_not_resent_iff_accountOpened : ∃ event,
    (∀ entry ∈ ([⟨.process event, .ok ()⟩, ⟨.commit, .ok ()⟩] : Log),
      ¬ entry.1.Resends "minibank.notification-consumer" accountOpenedMessage) := by
  obtain ⟨event, hevent⟩ := loads_accountOpened
  refine ⟨event, ?_⟩
  have hexec : (handleMessage 1000 "minibank.notification-consumer" accountOpenedMessage).Executes
      [⟨.process event, .ok ()⟩, ⟨.commit, .ok ()⟩] (.pure ()) := by
    unfold handleMessage
    rw [hevent]
    exact .call (.call .refl)
  refine (processed_not_resent_iff hexec rfl List.mem_cons_self).mpr fun e hprefix => ?_
  obtain ⟨_, heq⟩ := hprefix
  cases heq

/-- The notification was sent, and the commit raises: the message is published again, so that it
will be processed once more. -/
theorem processed_resent : ¬ ∀ (limit : ℕ) (groupId : String) (message : ConsumerRecord) (log : Log)
    (rest : BaseConsumer.Program Unit) (out : Except BaseConsumer.Exn Unit) (event : JsonValue),
    (handleMessage limit groupId message).Executes log rest → rest.outcome? = some out →
      ⟨.process event, .ok ()⟩ ∈ log → ∀ entry ∈ log, ¬ entry.1.Resends groupId message := by
  intro hclaim
  obtain ⟨event, hevent⟩ := loads_accountOpened
  let headers : List (Bytes × Bytes) := [(retryHeader, asciiBytes "1")]
  have hexec : (handleMessage 1000 "minibank.notification-consumer" accountOpenedMessage).Executes
      [⟨.process event, .ok ()⟩, ⟨.commit, .error rebalanced⟩,
        ⟨.sendAndWait "account.events" accountOpenedMessage.value headers, .ok ()⟩,
        ⟨.commit, .ok ()⟩] (.pure ()) := by
    unfold handleMessage
    rw [hevent]
    exact .call (.call (.call (.call .refl)))
  exact hclaim _ _ _ _ _ _ event hexec rfl List.mem_cons_self
    ⟨.sendAndWait "account.events" accountOpenedMessage.value headers, .ok ()⟩ (by simp) (.inl rfl)

end MiniWallet
