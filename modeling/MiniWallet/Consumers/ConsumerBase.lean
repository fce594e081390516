import MiniWallet.Process.Prog
import MiniWallet.Python.Json

/-!
# Consumers

How every consumer handles a message from Kafka: decode it, process it, and on failure publish it
again with a larger retry count or send it to the dead-letter topic of the consumer's group.

The keys and values of headers are byte strings, as the source has them. A message is committed at
its offset; the offset itself, and what is logged, are left out.
-/

namespace MiniWallet

open Process Python

/-- `MAX_RETRIES`. -/
def maxRetries : ℤ := 3

/-- A message as a consumer receives it. -/
structure ConsumerRecord where
  topic : String
  /-- The bytes of the message, or `None`. -/
  value : Option Bytes
  headers : List (Bytes × Bytes)

namespace BaseConsumer

/-- `b"x-retry-count"`. -/
def retryHeader : Bytes := asciiBytes "x-retry-count"

/-- The exceptions that a consumer can meet. -/
inductive Exn
  /-- An exception of a conversion. -/
  | builtin (e : Python.Exn)
  /-- An exception of an awaited operation: whether it is an `Exception` (or only a `BaseException`,
  such as a cancellation), and its text, if it can be asked for its text. -/
  | raised (isException : Bool) (text : Option String)
deriving DecidableEq, Repr

/-- `except Exception` catches it. -/
def Exn.isException : Exn → Bool
  | builtin _ => true
  | raised isException _ => isException

/-- `str(e)` returns. -/
def Exn.printable : Exn → Bool
  | builtin _ => true
  | raised _ text => text.isSome

/-- What a consumer awaits. -/
inductive Op
  | process (event : JsonValue)
  | sendAndWait (topic : String) (value : Option Bytes) (headers : List (Bytes × Bytes))
  | commit

/-- A coroutine of a consumer. -/
abbrev Program := Prog Op (fun _ => Unit) Exn

/-- A conversion, which raises its exception. -/
def convert {α : Type} : Except Python.Exn α → Program α
  | .ok a => pure a
  | .error e => throw (.builtin e)

/-- `int(value.decode())`. -/
def parseCount (value : Bytes) : Except Python.Exn ℤ :=
  match decode value with
  | none => .error .unicodeDecodeError
  | some text =>
      match int text with
      | none => .error .valueError
      | some count => .ok count

/-- The value of the first retry header, and `0` without one. -/
def retryCount : List (Bytes × Bytes) → Except Python.Exn ℤ
  | [] => .ok 0
  | (key, value) :: headers => if key = retryHeader then parseCount value else retryCount headers

/-- `str(count).encode()`. -/
def renderCount (count : ℤ) : Except Python.Exn Bytes :=
  match strInt count with
  | some text => .ok (encodeAscii text)
  | none => .error .valueError

/-- The headers with one retry header. -/
def retryHeaders (headers : List (Bytes × Bytes)) (count : Bytes) : List (Bytes × Bytes) :=
  (headers.filter fun (key, _) => key ≠ retryHeader) ++ [(retryHeader, count)]

/-- The dead-letter topic of a group. -/
def dlqTopic (groupId : String) : String := groupId ++ ".dlq"

/-- Send the message to the dead-letter topic. -/
def deadLetter (groupId : String) (message : ConsumerRecord) : Program Unit := do
  Prog.perform (Op.sendAndWait (dlqTopic groupId) message.value [])
  Prog.perform Op.commit

/-- Publish the message again, with the given retry count. -/
def republish (message : ConsumerRecord) (count : ℤ) : Program Unit := do
  let count ← convert (renderCount count)
  Prog.perform (Op.sendAndWait message.topic message.value (retryHeaders message.headers count))
  Prog.perform Op.commit

/-- The handler of `except Exception as e`. -/
def onFailure (groupId : String) (message : ConsumerRecord) (count : ℤ) (e : Exn) : Program Unit :=
  if ¬ e.isException then throw e
  -- the log entry asks for `str(e)`
  else if ¬ e.printable then throw (.raised true none)
  else if count ≥ maxRetries then deadLetter groupId message
  else republish message (count + 1)

/-- `handle_message`. -/
def handleMessage (limit : ℕ) (groupId : String) (message : ConsumerRecord) : Program Unit := do
  let count ← convert (retryCount message.headers)
  match loads limit message.value with
  | .error .jsonDecodeError => deadLetter groupId message
  | .error e => throw (.builtin e)
  | .ok event =>
      tryCatch
        (do
          Prog.perform (Op.process event)
          Prog.perform Op.commit)
        (onFailure groupId message count)

end BaseConsumer

end MiniWallet
