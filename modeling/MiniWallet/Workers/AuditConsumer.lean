import MiniWallet.Schema.Printable
import MiniWallet.Workers.ActivityConsumer

/-!
# Audit consumer

The consumer that keeps the events of its topics in the table `audit_events`. The identifier of an
event is unique in the table. A violated constraint is taken for a duplicate and ignored; every
other exception is raised.

The primary key of a row is random and is left out.

* `EventEnvelope.Auditable`: the events that the consumer can keep.
* `process_auditable`: such an event is kept once, whatever the table holds.
-/

namespace MiniWallet

open Python (Str JsonValue ascii codePoints InDatetime)
open ActivityConsumer (Exn toUUID toInstant)

/-- A row of `audit_events`. -/
structure AuditEvent where
  eventId : UUID
  eventType : String
  actorId : Option UUID
  resourceId : Option UUID
  resourceType : Option String
  /-- The whole message. -/
  payload : JsonValue
  occurredAt : Time

/-- A text that JSONB can store. -/
def storableText (s : Str) : Bool := s.all fun c => c != 0 && c.isValidChar

mutual

/-- A value that a JSONB column can store: its texts have neither null characters nor surrogates,
and its numbers are finite. Whether a literal is too large for a float is left out. -/
def storable : JsonValue → Bool
  | .str s => storableText s
  | .float literal => !(["NaN", "Infinity", "-Infinity"].any fun name => literal == ascii name)
  | .list xs => storableElements xs
  | .dict items => storableItems items
  | _ => true

/-- `storable` for every element of a list. -/
def storableElements : List JsonValue → Bool
  | [] => true
  | x :: xs => storable x && storableElements xs

/-- `storable` for every key and value of a dictionary. -/
def storableItems : List (Str × JsonValue) → Bool
  | [] => true
  | (k, v) :: items => storableText k && storable v && storableItems items

end

/-- Every value of the row fits the type of its column. -/
def AuditEvent.fits (r : AuditEvent) : Bool :=
  varchar 100 r.eventType && (r.resourceType.map (varchar 50)).getD true && storable r.payload

namespace AuditConsumer

/-- The topics that the consumer subscribes to. -/
def topics : List String := ["transfer.events", "account.events"]

/-- `_RESOURCE_TYPE`. -/
def resourceTypes : List (String × String) :=
  [("transfer.completed", "transfer"), ("transfer.failed", "transfer"),
    ("account.opened", "account"), ("seed.completed", "account")]

/-- `getattr(payload, name, None)`, without an empty text. The attributes of a model are its fields,
and a dictionary has none. -/
def attr (envelope : RawEnvelope) (payload : ParsedPayload) (name : String) : Option String :=
  let value :=
    match payload with
    | some p => p.modelDump.lookup name
    | none =>
        match paymentFields envelope.eventType with
        | some names =>
            if name ∈ names then (stringFields envelope.payload).lookup name else none
        | none => none
  value.filter (· ≠ "")

/-- `uuid.UUID(text)` of a text that is there and not empty. -/
def toUUID? (text : Option String) : Except Exn (Option UUID) := (text.filter (· ≠ "")).mapM toUUID

/-- The table of the audit trail. -/
abbrev Table := List AuditEvent

/-- `INSERT` of one row, with the constraints of the table. -/
def insert (table : Table) (row : AuditEvent) : Except Exn Table :=
  if !row.fits then .error .dataError
  else if row.eventId ∈ table.map (·.eventId) then .error .integrityError
  else .ok (row :: table)

/-- The transaction of an event. -/
def transaction (table : Table) (event : JsonValue) (envelope : RawEnvelope)
    (resourceId : Option UUID) : Except Exn Table := do
  let eventId ← toUUID envelope.eventId
  let actorId ← toUUID? envelope.actorId
  let occurredAt ← toInstant envelope.occurredAt
  insert table
    { eventId := eventId
      eventType := envelope.eventType
      actorId := actorId
      resourceId := resourceId
      resourceType := resourceTypes.lookup envelope.eventType
      payload := event
      occurredAt := occurredAt }

/-- `process`: the table after the event. -/
def process (table : Table) (event : JsonValue) : Except Exn Table :=
  match parseMessage event with
  | none => .error .validationError
  | some (envelope, payload) => do
      let resourceId ← toUUID? (attr envelope payload "transfer_id" <|>
        attr envelope payload "account_id")
      match transaction table event envelope resourceId with
      -- the transaction is rolled back, and the event is ignored
      | .error .integrityError => .ok table
      | result => result

end AuditConsumer

/-! ## What can be stored -/

/-- The items of a dictionary can be stored one by one. -/
theorem storableItems_iff {items : List (Str × JsonValue)} :
    storableItems items = true ↔
      ∀ item ∈ items, storableText item.1 = true ∧ storable item.2 = true := by
  induction items with
  | nil => simp [storableItems]
  | cons item items ih =>
      obtain ⟨k, v⟩ := item
      simp only [storableItems, Bool.and_eq_true, ih, List.forall_mem_cons]

/-- A text without a null character can be stored. -/
theorem storableText_codePoints {s : String} (h : hasNull s = false) :
    storableText (codePoints s) = true := by
  refine List.all_eq_true.mpr fun n hn => ?_
  obtain ⟨c, hc, rfl⟩ := List.mem_map.mp hn
  have hne : c ≠ Char.ofNat 0 := by
    rintro rfl
    rw [hasNull, List.contains_iff_mem.mpr hc] at h
    cases h
  have hzero : c.toNat ≠ 0 := fun h0 => hne (Char.toNat_inj.mp (h0.trans (by decide)))
  have hvalid : c.toNat.isValidChar := c.valid
  rw [Bool.and_eq_true]
  exact ⟨by simpa using hzero, decide_eq_true hvalid⟩

/-- The text of an instant can be stored. -/
theorem storableText_isoText (t : Time) : storableText (codePoints (isoText t)) = true := by
  rw [codePoints_isoText]
  refine List.all_eq_true.mpr fun n hn => ?_
  have hn := Python.isoformat_printable hn
  have hvalid : n.isValidChar := .inl (by omega)
  have hzero : n ≠ 0 := by omega
  simp [hzero, hvalid]

/-- The event types of the payloads. -/
def EventPayload.eventTypes : List String :=
  ["transfer.completed", "transfer.failed", "account.opened", "seed.completed",
    "deposit.completed", "deposit.rejected", "withdrawal.initiated", "withdrawal.completed",
    "withdrawal.failed"]

/-- Every payload has one of the event types. -/
theorem EventPayload.eventType_mem (p : EventPayload) : p.eventType ∈ eventTypes := by
  cases p <;> simp [eventType, eventTypes]

/-- The names of the fields of the payloads. -/
def EventPayload.fieldNames : List String :=
  ["transfer_id", "from_account_id", "to_account_id", "account_id", "user_id", "deposit_id",
    "withdrawal_id", "amount", "currency", "status", "source_type", "destination_type",
    "entry_type", "idempotency_key", "external_reference", "failure_code", "rejection_reason"]

/-- Every field of a payload has one of the names. -/
theorem EventPayload.key_mem {p : EventPayload} {field : String × String}
    (h : field ∈ p.modelDump) : field.1 ∈ fieldNames := by
  have hkeys : ∀ key ∈ p.modelDump.map Prod.fst, key ∈ fieldNames := by
    cases p <;> simp [modelDump, fieldNames]
  exact hkeys _ (List.mem_map_of_mem h)

/-- The accounts and transfers that a payload names as its resource. -/
def EventPayload.resource (p : EventPayload) : Option String :=
  (p.modelDump.lookup "transfer_id").or (p.modelDump.lookup "account_id")

/-- The consumer can keep the event. -/
structure EventEnvelope.Auditable (e : EventEnvelope) : Prop where
  eventType : e.eventType = e.payload.eventType
  eventId : ∃ id : UUID, e.eventId = id.str
  actorId : ∃ actor : Option UUID, e.actorId = actor.map UUID.str
  version : hasNull e.version = false
  occurredAt : InDatetime e.occurredAt
  /-- The texts of the payload contain no null character. -/
  payload : ∀ field ∈ e.payload.modelDump, hasNull field.2 = false
  /-- The payload names its resource by an identifier. -/
  resource : ∀ name ∈ ["transfer_id", "account_id"], ∀ text ∈ e.payload.modelDump.lookup name,
    ∃ id : UUID, text = id.str

/-- The row keeps the whole event. -/
structure AuditEvent.Records (r : AuditEvent) (e : EventEnvelope) : Prop where
  eventId : e.eventId = r.eventId.str
  eventType : e.eventType = r.eventType
  actorId : e.actorId = r.actorId.map UUID.str
  resourceId : e.payload.resource = r.resourceId.map UUID.str
  occurredAt : e.occurredAt = r.occurredAt
  payload : e.Decodes r.payload

namespace EventEnvelope

variable {e : EventEnvelope} {event : JsonValue}

/-- The message of an event can be stored. -/
theorem Auditable.storable (h : e.Auditable) (hdecodes : e.Decodes event) :
    storable event = true := by
  obtain ⟨items, fields, rfl, hitems, hfields⟩ := hdecodes.dict
  have htype : hasNull e.eventType = false := by
    have htypes : ∀ s ∈ EventPayload.eventTypes, hasNull s = false := by decide +kernel
    rw [h.eventType]
    exact htypes _ e.payload.eventType_mem
  -- the identifiers are texts of UUIDs
  have hid : hasNull e.eventId = false := by
    obtain ⟨id, hid⟩ := h.eventId
    rw [hid]
    exact hasNull_uuid id
  have hactor : MiniWallet.storable
      (e.actorId.elim .none fun actor => .str (codePoints actor)) = true := by
    obtain ⟨actor, hactor⟩ := h.actorId
    rw [hactor]
    cases actor with
    | none => rfl
    | some u => exact storableText_codePoints (hasNull_uuid u)
  -- the payload, with its keys
  have hpayload : storableItems fields = true := by
    refine storableItems_iff.mpr fun item hitem => ?_
    obtain ⟨field, hfield, rfl⟩ := List.mem_map.mp (hfields.mem_iff.mp hitem)
    have hnames : ∀ s ∈ EventPayload.fieldNames, hasNull s = false := by decide +kernel
    have hkey := hnames field.1 (EventPayload.key_mem hfield)
    exact ⟨storableText_codePoints hkey, storableText_codePoints (h.payload field hfield)⟩
  have hkeys : ∀ key ∈ ["event_id", "event_type", "occurred_at", "version", "actor_id", "payload"],
      hasNull key = false := by decide +kernel
  rw [MiniWallet.storable, storableItems_iff]
  intro item hitem
  obtain ⟨entry, hentry, rfl⟩ := List.mem_map.mp (hitems.mem_iff.mp hitem)
  simp only [List.mem_cons, List.not_mem_nil, or_false] at hentry
  refine ⟨storableText_codePoints (hkeys _ ?_), ?_⟩
  · rcases hentry with rfl | rfl | rfl | rfl | rfl | rfl <;> simp
  · -- the six items of the document
    rcases hentry with rfl | rfl | rfl | rfl | rfl | rfl
    · exact storableText_codePoints hid
    · exact storableText_codePoints htype
    · exact storableText_isoText _
    · exact storableText_codePoints h.version
    · exact hactor
    · exact hpayload

end EventEnvelope

namespace AuditConsumer

/-- An identifier is no empty text. -/
theorem str_ne_empty (u : UUID) : u.str ≠ "" := by
  intro hempty
  have hparse := UUID.parse_str u
  rw [hempty, show UUID.parse "" = none by decide +kernel] at hparse
  cases hparse

/-- An identifier that is written out is read back. -/
theorem toUUID_str (u : UUID) : toUUID u.str = .ok u := by
  rw [toUUID, UUID.parse_str]

/-- Reading back a written identifier, or none. -/
theorem toUUID?_str (u : Option UUID) : toUUID? (u.map UUID.str) = .ok u := by
  cases u with
  | none => rfl
  | some u =>
      have hfilter : (some u.str).filter (· ≠ "") = some u.str := by
        rw [Option.filter_some, if_pos (by simpa using str_ne_empty u)]
      rw [toUUID?, Option.map_some, hfilter, Option.mapM_some, toUUID_str]
      rfl

variable {e : EventEnvelope} {event : JsonValue}

/-- The resource of an event, as the consumer determines it. -/
theorem resource_eq (h : e.Auditable) (raw : RawEnvelope) :
    (attr raw (some e.payload) "transfer_id" <|> attr raw (some e.payload) "account_id") =
      e.payload.resource := by
  have hattr : ∀ name ∈ ["transfer_id", "account_id"],
      attr raw (some e.payload) name = e.payload.modelDump.lookup name := by
    intro name hname
    cases htext : e.payload.modelDump.lookup name with
    | none => rw [attr, htext]; rfl
    | some text =>
        obtain ⟨u, rfl⟩ := h.resource name hname text htext
        rw [attr, htext, Option.filter_some, if_pos (by simpa using str_ne_empty u)]
  rw [hattr _ (by simp), hattr _ (by simp), EventPayload.resource]
  cases e.payload.modelDump.lookup "transfer_id" <;> rfl

/-- The resource of an event is an identifier, if it has one. -/
theorem resource_id (h : e.Auditable) :
    ∃ resourceId : Option UUID, e.payload.resource = resourceId.map UUID.str := by
  have hlookup : ∀ name ∈ ["transfer_id", "account_id"],
      ∃ id : Option UUID, e.payload.modelDump.lookup name = id.map UUID.str := by
    intro name hname
    cases htext : e.payload.modelDump.lookup name with
    | none => exact ⟨none, rfl⟩
    | some text =>
        obtain ⟨u, rfl⟩ := h.resource name hname text htext
        exact ⟨some u, rfl⟩
  obtain ⟨transfer, htransfer⟩ := hlookup "transfer_id" (by simp)
  obtain ⟨account, haccount⟩ := hlookup "account_id" (by simp)
  rw [EventPayload.resource, htransfer, haccount]
  cases transfer with
  | none => exact ⟨account, rfl⟩
  | some u => exact ⟨some u, rfl⟩

/-- The message of an event that the consumer can keep is kept once, whatever the table holds. -/
theorem process_auditable (h : e.Auditable) (hdecodes : e.Decodes event) :
    ∃ row : AuditEvent, row.Records e ∧ ∀ table, process table event =
      .ok (if row.eventId ∈ table.map (·.eventId) then table else row :: table) := by
  obtain ⟨raw, hparse, hraw⟩ := parseMessage_decodes hdecodes h.eventType
  obtain ⟨id, hid⟩ := h.eventId
  obtain ⟨actor, hactor⟩ := h.actorId
  obtain ⟨resourceId, hresource⟩ := resource_id h
  let row : AuditEvent :=
    { eventId := id
      eventType := e.eventType
      actorId := actor
      resourceId := resourceId
      resourceType := resourceTypes.lookup e.eventType
      payload := event
      occurredAt := e.occurredAt }
  -- every type of event has a resource type that fits
  have hfits : row.fits = true := by
    have htexts : ∀ s ∈ EventPayload.eventTypes, (varchar 100 s &&
        ((resourceTypes.lookup s).map (varchar 50)).getD true) = true := by decide +kernel
    rw [AuditEvent.fits, h.storable hdecodes, Bool.and_true]
    dsimp only [row]
    rw [h.eventType]
    exact htexts _ e.payload.eventType_mem
  refine ⟨row, ⟨hid, rfl, hactor, hresource, rfl, hdecodes⟩, fun table => ?_⟩
  -- the transaction inserts the row, unless the event is there already
  have htransaction : transaction table event raw resourceId = insert table row := by
    rw [transaction, hraw.eventId, hraw.actorId, hraw.occurredAt, hraw.eventType, hid, toUUID_str,
      hactor, toUUID?_str, ActivityConsumer.toInstant_isoText h.occurredAt]
    rfl
  rw [process, hparse]
  dsimp only
  rw [resource_eq h, hresource, toUUID?_str]
  dsimp only [bind, Except.bind]
  rw [htransaction, insert, hfits]
  simp only [Bool.not_true, Bool.false_eq_true, if_false]
  by_cases hknown : row.eventId ∈ table.map (·.eventId)
  · rw [if_pos hknown, if_pos hknown]
  · rw [if_neg hknown, if_neg hknown]

end AuditConsumer

end MiniWallet
