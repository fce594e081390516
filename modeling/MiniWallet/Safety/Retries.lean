import MiniWallet.Consumers.ConsumerBase

/-!
# What a consumer does with a message

* `Justified`: the message may be committed, because it was processed, because it is in the
  dead-letter topic, or because a copy with the next retry count is in the source topic.
* `retry_chain`: a message is committed only then, whatever fails; and a message whose processing
  always fails reaches the dead-letter topic after the retries that its count leaves.
* `no_poison`: on which messages the consumer makes progress. The others make it raise, and it will
  receive them again.
-/

namespace MiniWallet

open Process Python

namespace BaseConsumer

variable {limit : ℕ} {groupId : String} {message : ConsumerRecord}

/-! ## Retry counts -/

/-- A count that was written is read back. -/
theorem parseCount_renderCount {count : ℤ} {value : Bytes} (h : renderCount count = .ok value) :
    parseCount value = .ok count := by
  unfold renderCount at h
  split at h
  · next text htext =>
    cases h
    rw [parseCount, decode_encodeAscii (ascii_of_strInt htext)]
    dsimp only
    rw [int_strInt htext]
  · cases h

/-- The next count can be written, since it has no more digits than the one that was read. -/
theorem renderCount_succ {count : ℤ} (hcount : count.natAbs < 10 ^ maxStrDigits)
    (hlt : count < maxRetries) : ∃ value, renderCount (count + 1) = .ok value := by
  have hpow : 10 ≤ 10 ^ maxStrDigits := Nat.le_self_pow (by decide) 10
  have hsucc : (count + 1).natAbs < 10 ^ maxStrDigits := by
    unfold maxRetries at hlt
    omega
  obtain ⟨text, htext⟩ := Option.isSome_iff_exists.mp (strInt_isSome hsucc)
  exact ⟨encodeAscii text, by rw [renderCount, htext]⟩

/-- A count that is parsed has no more digits than Python reads. -/
theorem natAbs_lt_of_parseCount {value : Bytes} {count : ℤ} (h : parseCount value = .ok count) :
    count.natAbs < 10 ^ maxStrDigits := by
  unfold parseCount at h
  split at h
  · cases h
  · split at h
    · cases h
    · next hint =>
      cases h
      exact natAbs_lt_of_int hint

/-- So has the count of a message, which is 0 without the header. -/
theorem natAbs_lt_of_retryCount {headers : List (Bytes × Bytes)} {count : ℤ}
    (h : retryCount headers = .ok count) : count.natAbs < 10 ^ maxStrDigits := by
  induction headers with
  | nil =>
      cases h
      exact Nat.pow_pos (by decide)
  | cons header headers ih =>
      unfold retryCount at h
      split at h
      · exact natAbs_lt_of_parseCount h
      · exact ih h

/-- Only the first retry header counts, and it is the new one if the others are taken out. -/
theorem retryCount_retryHeaders (headers : List (Bytes × Bytes)) (value : Bytes) :
    retryCount (retryHeaders headers value) = parseCount value := by
  unfold retryHeaders
  induction headers with
  | nil => simp [retryCount]
  | cons header headers ih =>
      by_cases hkey : header.1 = retryHeader
      · simpa [hkey] using ih
      · simpa [hkey, retryCount] using ih

/-- Headers of a copy: the retry count is one more, and the other headers are the same. -/
structure Continues (message : ConsumerRecord) (headers : List (Bytes × Bytes)) : Prop where
  others : headers.filter (fun (key, _) => key ≠ retryHeader) =
    message.headers.filter fun (key, _) => key ≠ retryHeader
  counted : ∃ count value, retryCount message.headers = .ok count ∧
    headers.filter (fun (key, _) => key = retryHeader) = [(retryHeader, value)] ∧
    parseCount value = .ok (count + 1)

/-- The headers of a retry continue those of the message. -/
theorem continues_retryHeaders {count : ℤ} {value : Bytes}
    (hcount : retryCount message.headers = .ok count)
    (hvalue : renderCount (count + 1) = .ok value) :
    Continues message (retryHeaders message.headers value) where
  others := by simp [retryHeaders, List.filter_append, List.filter_filter]
  counted := by
    refine ⟨count, value, hcount, ?_, parseCount_renderCount hvalue⟩
    simp [retryHeaders, List.filter_append, List.filter_filter]

/-! ## When a message is committed -/

/-- What has been awaited, and how it ended. -/
abbrev Log := List ((_ : Op) × Except Exn Unit)

/-- What has happened allows to commit the message. -/
inductive Justified (limit : ℕ) (groupId : String) (message : ConsumerRecord) (log : Log) : Prop
  | processed {event : JsonValue} : loads limit message.value = .ok event →
      ⟨.process event, .ok ()⟩ ∈ log → Justified limit groupId message log
  | deadLettered : ⟨.sendAndWait (dlqTopic groupId) message.value [], .ok ()⟩ ∈ log →
      Justified limit groupId message log
  | republished {headers : List (Bytes × Bytes)} : Continues message headers →
      ⟨.sendAndWait message.topic message.value headers, .ok ()⟩ ∈ log →
      Justified limit groupId message log

/-- The contract of a consumer that handles the message. -/
def contract (limit : ℕ) (groupId : String) (message : ConsumerRecord) :
    Contract Op (fun _ => Unit) Exn Log where
  guard
    | .commit, log => Justified limit groupId message log
    | _, _ => True
  possible := fun _ _ _ => True

/-- The log after an operation. -/
def record (o : Op) (r : Except Exn Unit) (log : Log) : Log := log ++ [⟨o, r⟩]

/-- From a given log the program commits only what it may commit. -/
def Commits (limit : ℕ) (groupId : String) (message : ConsumerRecord) (p : Program Unit)
    (log : Log) :
    Prop :=
  (contract limit groupId message).Safe record p log

/-- Send, and commit if that succeeded. -/
theorem commits_send {topic : String} {value : Option Bytes} {headers : List (Bytes × Bytes)}
    (h : ∀ log : Log, ⟨.sendAndWait topic value headers, .ok ()⟩ ∈ log →
      Justified limit groupId message log) (log : Log) :
    Commits limit groupId message (do
      Prog.perform (Op.sendAndWait topic value headers)
      Prog.perform Op.commit) log := by
  refine (Contract.wp_bind _ _ _ _).mpr ((Contract.wp_perform _ _ _).mpr
    ⟨trivial, fun _ _ => ?_, fun _ _ => trivial⟩)
  exact (Contract.wp_perform _ _ _).mpr ⟨h _ (by simp [record]), fun _ _ => trivial,
    fun _ _ => trivial⟩

/-- The dead-letter message is sent before the commit. -/
theorem commits_deadLetter (log : Log) :
    Commits limit groupId message (deadLetter groupId message) log :=
  commits_send (fun _ hmem => .deadLettered hmem) log

/-- The retry is sent before the commit. -/
theorem commits_republish {count : ℤ} (hcount : retryCount message.headers = .ok count)
    (log : Log) : Commits limit groupId message (republish message (count + 1)) log := by
  refine (Contract.wp_bind _ _ _ _).mpr ?_
  cases hvalue : renderCount (count + 1) with
  | error e => exact (Contract.wp_throw _ _ _).mpr trivial
  | ok value =>
      refine (Contract.wp_pure _ _ _).mpr (commits_send (fun _ hmem => ?_) log)
      exact .republished (continues_retryHeaders hcount hvalue) hmem

/-- After a failure one of the two is sent before the commit. -/
theorem commits_onFailure {count : ℤ} (hcount : retryCount message.headers = .ok count) (e : Exn)
    (log : Log) : Commits limit groupId message (onFailure groupId message count e) log := by
  unfold onFailure
  split
  · exact (Contract.wp_throw _ _ _).mpr trivial
  · split
    · exact (Contract.wp_throw _ _ _).mpr trivial
    · split
      · exact commits_deadLetter log
      · exact commits_republish hcount log

/-- Whatever becomes of a message, something that justifies the commit comes before it. -/
theorem commits_handleMessage (log : Log) :
    Commits limit groupId message (handleMessage limit groupId message) log := by
  unfold handleMessage
  refine (Contract.wp_bind _ _ _ _).mpr ?_
  cases hcount : retryCount message.headers with
  | error e => exact (Contract.wp_throw _ _ _).mpr trivial
  | ok count =>
      refine (Contract.wp_pure _ _ _).mpr ?_
      split
      · exact commits_deadLetter log
      · exact (Contract.wp_throw _ _ _).mpr trivial
      · next event hevent =>
        refine Contract.wp_tryCatch_of_forall _ _ ?_ fun e log' => commits_onFailure hcount e log'
        refine (Contract.wp_bind _ _ _ _).mpr ((Contract.wp_perform _ _ _).mpr
          ⟨trivial, fun _ _ => ?_, fun _ _ => trivial⟩)
        exact (Contract.wp_perform _ _ _).mpr ⟨.processed hevent (by simp [record]),
          fun _ _ => trivial, fun _ _ => trivial⟩

/-- The log of an execution is what its operations recorded. -/
theorem foldl_record (log log₀ : Log) :
    log.foldl (fun σ e => record e.1 e.2 σ) log₀ = log₀ ++ log := by
  induction log generalizing log₀ with
  | nil => simp
  | cons e log ih =>
      rw [List.foldl_cons, ih]
      simp [record]

/-- In every execution a message is committed only if that is justified. -/
theorem justified_of_commit {log : Log} {r : Except Exn Unit} {rest : Program Unit}
    (h : (handleMessage limit groupId message).Executes (log ++ [⟨.commit, r⟩]) rest) :
    Justified limit groupId message log := by
  have hguard := Contract.Safe.guard _ _ (commits_handleMessage []) (fun _ _ _ => trivial) h
  rw [foldl_record, List.nil_append] at hguard
  exact hguard

/-! ## One message, with given outcomes -/

section Outcomes

variable {answer : Op → Except Exn Unit}

/-- Sending and committing succeed, and processing does what it does. -/
def obliging (process : JsonValue → Except Exn Unit) : Op → Except Exn Unit
  | .process event => process event
  | _ => .ok ()

variable {process : JsonValue → Except Exn Unit}

/-- A run of the dead-letter branch. -/
@[simp]
theorem runWith_deadLetter : (deadLetter groupId message).runWith (obliging process) =
    ([.sendAndWait (dlqTopic groupId) message.value [], .commit], .ok ()) := by
  simp [deadLetter, Prog.runWith_bind, obliging]

/-- A run of the retry branch. -/
theorem runWith_republish {count : ℤ} {value : Bytes} (h : renderCount count = .ok value) :
    (republish message count).runWith (obliging process) =
      ([.sendAndWait message.topic message.value (retryHeaders message.headers value), .commit],
        .ok ()) := by
  simp [republish, h, convert, Prog.runWith_bind, obliging]

/-- An exception that leads to a retry or to the dead-letter topic. -/
def Exn.Handled (e : Exn) : Prop := e.isException ∧ e.printable

/-- What the handler does with an exception. -/
theorem runWith_onFailure (groupId : String) (message : ConsumerRecord)
    (process : JsonValue → Except Exn Unit) {count : ℤ}
    (hcount : count.natAbs < 10 ^ maxStrDigits) {e : Exn} (he : e.Handled) :
    (maxRetries ≤ count ∧ (onFailure groupId message count e).runWith (obliging process) =
      ([.sendAndWait (dlqTopic groupId) message.value [], .commit], .ok ())) ∨
    (count < maxRetries ∧ ∃ value, renderCount (count + 1) = .ok value ∧
      (onFailure groupId message count e).runWith (obliging process) =
        ([.sendAndWait message.topic message.value (retryHeaders message.headers value), .commit],
          .ok ())) := by
  obtain ⟨hexception, hprintable⟩ := he
  by_cases hge : maxRetries ≤ count
  · left
    simp [onFailure, hexception, hprintable, hge]
  · right
    have hlt : count < maxRetries := not_le.mp hge
    obtain ⟨value, hvalue⟩ := renderCount_succ hcount hlt
    refine ⟨hlt, value, hvalue, ?_⟩
    simp [onFailure, hexception, hprintable, hge, runWith_republish hvalue]

/-- Without a readable retry count, nothing is awaited. -/
theorem runWith_of_count_error {e : Python.Exn} (h : retryCount message.headers = .error e) :
    (handleMessage limit groupId message).runWith (obliging process) =
      ([], .error (.builtin e)) := by
  simp [handleMessage, h, convert, Prog.runWith_bind]

/-- A malformed document goes to the dead-letter topic. -/
theorem runWith_of_malformed {count : ℤ} (hcount : retryCount message.headers = .ok count)
    (h : loads limit message.value = .error .jsonDecodeError) :
    (handleMessage limit groupId message).runWith (obliging process) =
      ([.sendAndWait (dlqTopic groupId) message.value [], .commit], .ok ()) := by
  simp [handleMessage, hcount, convert, h, Prog.runWith_bind]

/-- Any other exception of `json.loads` is raised. -/
theorem runWith_of_loads_error {count : ℤ} (hcount : retryCount message.headers = .ok count)
    {e : Python.Exn} (h : loads limit message.value = .error e) (hne : e ≠ .jsonDecodeError) :
    (handleMessage limit groupId message).runWith (obliging process) =
      ([], .error (.builtin e)) := by
  cases e <;> first | exact absurd rfl hne | simp [handleMessage, hcount, convert, h,
    Prog.runWith_bind]

/-- A run in which the event is processed. -/
theorem runWith_of_processed {count : ℤ} (hcount : retryCount message.headers = .ok count)
    {event : JsonValue} (h : loads limit message.value = .ok event) (hok : process event = .ok ()) :
    (handleMessage limit groupId message).runWith (obliging process) =
      ([.process event, .commit], .ok ()) := by
  simp [handleMessage, hcount, convert, h, Prog.runWith_bind, Prog.runWith_tryCatch, obliging, hok]

/-- A run in which processing raises goes on with the branch for failures. -/
theorem runWith_of_failed {count : ℤ} (hcount : retryCount message.headers = .ok count)
    {event : JsonValue} (h : loads limit message.value = .ok event) {e : Exn}
    (herror : process event = .error e) :
    (handleMessage limit groupId message).runWith (obliging process) =
      (.process event :: ((onFailure groupId message count e).runWith (obliging process)).1,
        ((onFailure groupId message count e).runWith (obliging process)).2) := by
  simp [handleMessage, hcount, convert, h, Prog.runWith_bind, Prog.runWith_tryCatch, obliging,
    herror]

end Outcomes

/-! ## The chain of copies -/

/-- Handling the message, while its processing fails, publishes `copy` on the source topic. -/
structure Republishes (limit : ℕ) (groupId : String) (failure : JsonValue → Exn)
    (message copy : ConsumerRecord) : Prop where
  topic : copy.topic = message.topic
  value : copy.value = message.value
  headers : Continues message copy.headers
  handled : ∃ event, (handleMessage limit groupId message).runWith
    (obliging fun event => .error (failure event)) =
      ([.process event, .sendAndWait copy.topic copy.value copy.headers, .commit], .ok ())

/-- Handling the message, while its processing fails, sends it to the dead-letter topic. -/
def DeadLetters (limit : ℕ) (groupId : String) (failure : JsonValue → Exn)
    (message : ConsumerRecord) : Prop :=
  ∃ event, (handleMessage limit groupId message).runWith
    (obliging fun event => .error (failure event)) =
      ([.process event, .sendAndWait (dlqTopic groupId) message.value [], .commit], .ok ())

/-- Following the copies of a message through `n` re-publications. The processing of the first one
fails with `failures k`, that of the next one with `failures (k + 1)`, and so on. -/
inductive Retried (limit : ℕ) (groupId : String) (failures : ℕ → JsonValue → Exn) :
    ℕ → ℕ → ConsumerRecord → ConsumerRecord → Prop
  | refl {k : ℕ} {message : ConsumerRecord} : Retried limit groupId failures k 0 message message
  | step {k n : ℕ} {message copy last : ConsumerRecord} :
      Republishes limit groupId (failures k) message copy →
      Retried limit groupId failures (k + 1) n copy last →
      Retried limit groupId failures k (n + 1) message last

/-- From a message with count `count`, the dead-letter topic is reached after the retries that are
left. -/
theorem deadLetters_of_count {failures : ℕ → JsonValue → Exn}
    (hfailures : ∀ k event, (failures k event).Handled) {event : JsonValue} {count : ℤ} (k : ℕ)
    (hcount : retryCount message.headers = .ok count)
    (hevent : loads limit message.value = .ok event) :
    ∃ last, Retried limit groupId failures k (maxRetries - count).toNat message last ∧
      DeadLetters limit groupId (failures (k + (maxRetries - count).toNat)) last := by
  -- the number of retries that are left decreases with every copy
  induction hn : (maxRetries - count).toNat generalizing message count k with
  | zero =>
      rcases runWith_onFailure groupId message (fun event => .error (failures k event))
        (natAbs_lt_of_retryCount hcount) (hfailures k event) with ⟨hge, hrun⟩ | ⟨hlt, -⟩
      · refine ⟨message, .refl, event, ?_⟩
        rw [Nat.add_zero, runWith_of_failed hcount hevent rfl, hrun]
      · omega
  | succ n ih =>
      rcases runWith_onFailure groupId message (fun event => .error (failures k event))
        (natAbs_lt_of_retryCount hcount) (hfailures k event) with
        ⟨hge, -⟩ | ⟨hlt, value, hvalue, hrun⟩
      · omega
      · let copy : ConsumerRecord := { message with headers := retryHeaders message.headers value }
        have hcopy : retryCount copy.headers = .ok (count + 1) := by
          rw [retryCount_retryHeaders, parseCount_renderCount hvalue]
        have hstep : Republishes limit groupId (failures k) message copy := by
          refine ⟨rfl, rfl, continues_retryHeaders hcount hvalue, event, ?_⟩
          rw [runWith_of_failed hcount hevent rfl, hrun]
        obtain ⟨last, hretried, hdead⟩ := ih (k + 1) hcopy hevent (by omega)
        refine ⟨last, .step hstep hretried, ?_⟩
        rwa [Nat.add_right_comm] at hdead

/-- If all retry headers can be read, there is a retry count. -/
theorem exists_retryCount {headers : List (Bytes × Bytes)}
    (h : ∀ header ∈ headers, header.1 = retryHeader → ∃ count, parseCount header.2 = .ok count) :
    ∃ count, retryCount headers = .ok count := by
  induction headers with
  | nil => exact ⟨0, rfl⟩
  | cons header headers ih =>
      unfold retryCount
      split
      · next hkey => exact h header List.mem_cons_self hkey
      · exact ih fun header hmem => h header (List.mem_cons_of_mem _ hmem)

end BaseConsumer

open BaseConsumer

/-- A message whose retry headers and value can be read is committed only after it was processed, or
has been acknowledged in the dead-letter topic or, with the next retry count, in its own topic. If
processing fails every time, with any exceptions that are handled, it reaches the dead-letter topic
after the retries that its count leaves. -/
theorem retry_chain {limit : ℕ} {groupId : String} {message : ConsumerRecord}
    (hcounts : ∀ header ∈ message.headers, header.1 = retryHeader →
      ∃ count, parseCount header.2 = .ok count)
    (hvalue : ∃ event, loads limit message.value = .ok event) :
    (∀ (log : Log) (r : Except BaseConsumer.Exn Unit) (rest : BaseConsumer.Program Unit),
      (handleMessage limit groupId message).Executes (log ++ [⟨.commit, r⟩]) rest →
        Justified limit groupId message log) ∧
      ∃ count, retryCount message.headers = .ok count ∧
        ∀ failures : ℕ → JsonValue → BaseConsumer.Exn, (∀ k event, (failures k event).Handled) →
          ∃ last, Retried limit groupId failures 0 (maxRetries - count).toNat message last ∧
            DeadLetters limit groupId (failures (maxRetries - count).toNat) last := by
  obtain ⟨event, hevent⟩ := hvalue
  obtain ⟨count, hcount⟩ := exists_retryCount hcounts
  refine ⟨fun log r rest h => justified_of_commit h, count, hcount, fun failures hfailures => ?_⟩
  have hchain : ∃ last, Retried limit groupId failures 0 (maxRetries - count).toNat message last ∧
      DeadLetters limit groupId (failures (0 + (maxRetries - count).toNat)) last :=
    deadLetters_of_count hfailures 0 hcount hevent
  rwa [Nat.zero_add] at hchain

/-- A message with several retry headers. -/
def retriedTwice : ConsumerRecord where
  topic := "transfer.events"
  value := some (asciiBytes "[]")
  headers := [(retryHeader, asciiBytes " 2"), (asciiBytes "trace", asciiBytes "7"),
    (retryHeader, asciiBytes "0")]

/-- The first of the headers leaves one retry. -/
theorem retry_chain_retriedTwice :
    ∃ count, retryCount retriedTwice.headers = .ok count ∧
      ∀ failures : ℕ → JsonValue → BaseConsumer.Exn, (∀ k event, (failures k event).Handled) →
        ∃ last, Retried 10 "minibank.audit-consumer" failures 0 (maxRetries - count).toNat
          retriedTwice last ∧
        DeadLetters 10 "minibank.audit-consumer" (failures (maxRetries - count).toNat) last := by
  refine (@retry_chain 10 "minibank.audit-consumer" retriedTwice ?_ ⟨.list [], ?_⟩).2
  · intro header hmem _
    simp only [retriedTwice, List.mem_cons, List.not_mem_nil, or_false] at hmem
    rcases hmem with rfl | rfl | rfl
    · exact ⟨2, by decide +kernel⟩
    · exact ⟨7, by decide +kernel⟩
    · exact ⟨0, by decide +kernel⟩
  · rfl

/-! ## Progress -/

/-- With sending and committing successful, the handler returns, the message is committed, and it
was processed, published again or sent to the dead-letter topic. -/
structure Settles (limit : ℕ) (groupId : String)
    (process : JsonValue → Except BaseConsumer.Exn Unit)
    (message : ConsumerRecord) : Prop where
  returns : ((handleMessage limit groupId message).runWith (obliging process)).2 = .ok ()
  commits : .commit ∈ ((handleMessage limit groupId message).runWith (obliging process)).1
  disposed :
    (∃ event,
      .process event ∈ ((handleMessage limit groupId message).runWith (obliging process)).1 ∧
      process event = .ok ()) ∨
    (∃ headers, .sendAndWait message.topic message.value headers ∈
      ((handleMessage limit groupId message).runWith (obliging process)).1) ∨
    .sendAndWait (dlqTopic groupId) message.value [] ∈
      ((handleMessage limit groupId message).runWith (obliging process)).1

/-- The first retry header is a text that `int` reads; `json.loads` returns or raises a
`JSONDecodeError`; and processing the document raises nothing but exceptions that the handler of
`except Exception` can deal with. -/
structure Digestible (limit : ℕ) (process : JsonValue → Except BaseConsumer.Exn Unit)
    (message : ConsumerRecord) : Prop where
  headers : ∀ header, message.headers.find? (fun (key, _) => key = retryHeader) = some header →
    ∃ text count, decode header.2 = some text ∧ int text = some count
  value : ∀ e, loads limit message.value = .error e → e = .jsonDecodeError
  process : ∀ event e, loads limit message.value = .ok event → process event = .error e → e.Handled

namespace BaseConsumer

/-- The retry count is what the first retry header says. -/
theorem retryCount_eq (headers : List (Bytes × Bytes)) :
    retryCount headers =
      match headers.find? fun (key, _) => key = retryHeader with
      | some (_, value) => parseCount value
      | none => .ok 0 := by
  induction headers with
  | nil => rfl
  | cons header headers ih =>
      by_cases hkey : header.1 = retryHeader
      · simp [retryCount, hkey]
      · simp [retryCount, hkey, ih]

/-- A count is parsed if the value is UTF-8 and `int` reads it. -/
theorem parseCount_isOk_iff {value : Bytes} :
    (∃ count, parseCount value = .ok count) ↔
      ∃ text count, decode value = some text ∧ int text = some count := by
  unfold parseCount
  cases hdecode : decode value with
  | none => simp
  | some text =>
      dsimp only
      cases hint : int text with
      | none => simp [hint]
      | some count => simp [hint]

/-- There is a retry count if the first retry header can be read. -/
theorem retryCount_isOk_iff {headers : List (Bytes × Bytes)} :
    (∃ count, retryCount headers = .ok count) ↔
      ∀ header, headers.find? (fun (key, _) => key = retryHeader) = some header →
        ∃ text count, decode header.2 = some text ∧ int text = some count := by
  rw [retryCount_eq]
  cases hfind : headers.find? fun (key, _) => key = retryHeader with
  | none => simp
  | some header => simpa using parseCount_isOk_iff

end BaseConsumer

/-- The consumer makes progress on a message exactly if it is digestible. -/
theorem no_poison (limit : ℕ) (groupId : String)
    (process : JsonValue → Except BaseConsumer.Exn Unit)
    (message : ConsumerRecord) :
    Settles limit groupId process message ↔ Digestible limit process message := by
  constructor
  · intro h
    obtain ⟨count, hcount⟩ : ∃ count, retryCount message.headers = .ok count := by
      cases hcount : retryCount message.headers with
      | ok count => exact ⟨count, rfl⟩
      | error e =>
          have hreturns := h.returns
          rw [runWith_of_count_error hcount] at hreturns
          cases hreturns
    refine ⟨retryCount_isOk_iff.mp ⟨count, hcount⟩, fun e he => ?_, fun event e hevent he => ?_⟩
    · by_contra hne
      have hreturns := h.returns
      rw [runWith_of_loads_error hcount he hne] at hreturns
      cases hreturns
    · have hreturns := h.returns
      rw [runWith_of_failed hcount hevent he] at hreturns
      -- an exception that is not handled is raised again
      by_contra hhandled
      unfold onFailure at hreturns
      split at hreturns
      · cases hreturns
      · split at hreturns
        · cases hreturns
        · next hexception hprintable =>
          exact hhandled ⟨not_not.mp hexception, not_not.mp hprintable⟩
  · intro h
    obtain ⟨count, hcount⟩ := retryCount_isOk_iff.mpr h.headers
    cases hloads : loads limit message.value with
    | error e =>
        obtain rfl := h.value e hloads
        have hrun : (handleMessage limit groupId message).runWith (obliging process) = _ :=
          runWith_of_malformed hcount hloads
        exact ⟨by rw [hrun], by simp [hrun], .inr (.inr (by simp [hrun]))⟩
    | ok event =>
        cases hprocess : process event with
        | ok u =>
            have hrun : (handleMessage limit groupId message).runWith (obliging process) = _ :=
              runWith_of_processed hcount hloads hprocess
            exact ⟨by rw [hrun], by simp [hrun], .inl ⟨event, by simp [hrun], hprocess⟩⟩
        | error e =>
            have hrun : (handleMessage limit groupId message).runWith (obliging process) = _ :=
              runWith_of_failed hcount hloads hprocess
            rcases runWith_onFailure groupId message process (natAbs_lt_of_retryCount hcount)
              (h.process event e hloads hprocess) with ⟨-, hfail⟩ | ⟨-, value, -, hfail⟩
            · rw [hfail] at hrun
              exact ⟨by rw [hrun], by simp [hrun], .inr (.inr (by simp [hrun]))⟩
            · rw [hfail] at hrun
              exact ⟨by rw [hrun], by simp [hrun],
                .inr (.inl ⟨retryHeaders message.headers value, by simp [hrun]⟩)⟩

/-- A message that is not UTF-8. -/
def undecodable : ConsumerRecord := ⟨"transfer.events", some [0xFF], []⟩

/-- The consumer raises a `UnicodeDecodeError`, and commits nothing. -/
theorem poison_undecodable :
    ¬ Settles 1000 "minibank.audit-consumer" (fun _ => .ok ()) undecodable := by
  intro h
  have hreturns := h.returns
  have hcount : retryCount undecodable.headers = .ok 0 := rfl
  have hloads : loads 1000 undecodable.value = .error .unicodeDecodeError := rfl
  rw [runWith_of_loads_error hcount hloads (by decide)] at hreturns
  cases hreturns

end MiniWallet
