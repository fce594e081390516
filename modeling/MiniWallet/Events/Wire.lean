import Mathlib.Data.List.Sort
import MiniWallet.Events.Parsing
import MiniWallet.Python.Datetime
import MiniWallet.Schema.JsonText

/-!
# Events on the wire

`publish_event` puts an event into the outbox as a dictionary, in a JSONB column. The relay loads
the column, prints it with `json.dumps` and sends the bytes. A consumer decodes them with
`json.loads` and validates the result with `parse_event`.

* `EventEnvelope.document`, `EventEnvelope.message`: the dictionary of an event, and its message.
* `parseMessage`: what a consumer makes of a decoded message.
* `decoded_message`: a message is decoded to the dictionary of its event.
* `parseMessage_decodes`: from there, the envelope and the payload are read back.
-/

namespace MiniWallet

open Python

/-! ## What is sent -/

/-- `dt.isoformat()`. -/
def isoText (t : Time) : String := String.ofList ((isoformat t).map Char.ofNat)

namespace Json

/-- The order in which JSONB keeps the keys of an object: by length, and then by bytes. -/
def keyLe (a b : String) : Bool :=
  a.utf8ByteSize < b.utf8ByteSize || (a.utf8ByteSize == b.utf8ByteSize && !decide (b < a))

mutual

/-- The document that is loaded from a JSONB column after `j` has been stored. The keys of an object
are distinct. -/
def jsonb : Json → Json
  | arr xs => arr (jsonbElements xs)
  | obj items => obj ((jsonbItems items).insertionSort fun a b => keyLe a.1 b.1)
  | j => j

/-- `jsonb` for the elements of an array. -/
def jsonbElements : List Json → List Json
  | [] => []
  | x :: xs => jsonb x :: jsonbElements xs

/-- `jsonb` for the values of an object. -/
def jsonbItems : List (String × Json) → List (String × Json)
  | [] => []
  | (k, v) :: items => (k, jsonb v) :: jsonbItems items

end

end Json

/-- A dictionary of texts. -/
def Json.ofFields (fields : Fields) : Json :=
  .obj (fields.map fun field => (field.1, .str field.2))

namespace EventEnvelope

/-- The dictionary that `publish_event` stores. -/
def document (e : EventEnvelope) : Json :=
  .obj
    [("event_id", .str e.eventId), ("event_type", .str e.eventType),
      ("occurred_at", .str (isoText e.occurredAt)), ("version", .str e.version),
      ("actor_id", e.actorId.elim .null .str),
      ("payload", .ofFields e.payload.modelDump)]

/-- `json.dumps(row.payload).encode()`. -/
def message (e : EventEnvelope) : Bytes := asciiBytes e.document.jsonb.dumps

end EventEnvelope

/-- The code points of the text of an instant. -/
theorem codePoints_isoText (t : Time) : codePoints (isoText t) = isoformat t := by
  rw [isoText, codePoints_ofList, List.map_map]
  refine (List.map_congr_left fun c hc => ?_).trans (List.map_id' _)
  have hc := isoformat_printable hc
  have hvalid : c.isValidChar := .inl (by omega)
  rw [Function.comp_apply, Char.ofNat, dif_pos hvalid]
  exact UInt32.toNat_ofNatLT

/-! ## What is read -/

/-- The text with the given code points. A surrogate does not stand for a character. -/
def ofCodePoints (s : Str) : Option String :=
  if s.all (·.isValidChar) then some (String.ofList (s.map Char.ofNat)) else none

/-- A field of type `str`. -/
def textOf : JsonValue → Option String
  | .str s => ofCodePoints s
  | _ => none

/-- A field of type `str | None`. -/
def textOrNone : JsonValue → Option (Option String)
  | .none => some none
  | v => (textOf v).map some

/-- The items of a field of type `dict`. -/
def itemsOf : JsonValue → Option (List (Str × JsonValue))
  | .dict items => some items
  | _ => none

/-- The envelope as a consumer validates it. -/
structure RawEnvelope where
  eventId : String
  eventType : String
  occurredAt : String
  version : String
  actorId : Option String
  payload : List (Str × JsonValue)

/-- `EventEnvelope(**raw)`; `none` is a `ValidationError`, or a `TypeError` if `raw` is not a
dictionary. -/
def parseEnvelope (event : JsonValue) : Option RawEnvelope := do
  let items ← itemsOf event
  let field (name : String) : Option JsonValue := items.lookup (codePoints name)
  return {
    eventId := ← (field "event_id").bind textOf
    eventType := ← (field "event_type").bind textOf
    occurredAt := ← (field "occurred_at").bind textOf
    version := ← (field "version").bind textOf
    actorId := ← (field "actor_id").bind textOrNone
    payload := ← (field "payload").bind itemsOf }

/-- An item of a dictionary whose value is a string. -/
def textItem (item : Str × JsonValue) : Option (String × String) := do
  return (← ofCodePoints item.1, ← textOf item.2)

/-- The items of a dictionary that are strings. The models have no other fields. -/
def stringFields (items : List (Str × JsonValue)) : Fields := items.filterMap textItem

/-- `parse_event`; `none` is an exception. -/
def parseMessage (event : JsonValue) : Option (RawEnvelope × ParsedPayload) := do
  let envelope ← parseEnvelope event
  let payload ← parsePayload envelope.eventType (stringFields envelope.payload)
  return (envelope, payload)

/-! ## Dictionaries -/

/-- The values of the fields of a payload. -/
def fieldValues (fields : Fields) : List (Str × JsonValue) :=
  fields.map fun field => (codePoints field.1, .str (codePoints field.2))

/-- Looking up a key does not depend on the order of the items. -/
theorem lookup_perm {α β : Type} [BEq α] [LawfulBEq α] {l l' : List (α × β)} (h : l.Perm l')
    (hnodup : (l.map Prod.fst).Nodup) (k : α) : l.lookup k = l'.lookup k := by
  induction h with
  | nil => rfl
  | cons x _ ih =>
      rw [List.lookup_cons, List.lookup_cons, ih (List.nodup_cons.mp hnodup).2]
  | swap x y l =>
      have hne : y.1 ≠ x.1 := fun heq => (List.nodup_cons.mp hnodup).1 (heq ▸ List.mem_cons_self)
      rw [List.lookup_cons, List.lookup_cons, List.lookup_cons, List.lookup_cons]
      by_cases hx : k == x.1
      · have hy : (k == y.1) = false := by
          rw [eq_of_beq hx]
          exact beq_eq_false_iff_ne.mpr hne.symm
        rw [hx, hy]
      · rw [Bool.eq_false_iff.mpr hx]
  | trans h₁ _ ih₁ ih₂ =>
      exact (ih₁ hnodup).trans (ih₂ ((h₁.map Prod.fst).nodup_iff.mp hnodup))

/-- Looking up a text among keys that are given by their code points. -/
theorem lookup_codePoints {β γ : Type} (f : β → γ) (items : List (String × β)) (name : String) :
    (items.map fun item => (codePoints item.1, f item.2)).lookup (codePoints name) =
      (items.lookup name).map f := by
  induction items with
  | nil => rfl
  | cons item items ih =>
      have hkey : (codePoints name == codePoints item.1) = (name == item.1) := by
        rw [Bool.eq_iff_iff, beq_iff_eq, beq_iff_eq, codePoints_injective.eq_iff]
      rw [List.map_cons, List.lookup_cons, List.lookup_cons, hkey, ih]
      cases name == item.1 <;> rfl

/-- A text is given by its code points. -/
theorem ofCodePoints_codePoints (s : String) : ofCodePoints (codePoints s) = some s := by
  have hvalid : (codePoints s).all (·.isValidChar) = true := by
    rw [List.all_eq_true]
    intro c hc
    obtain ⟨d, -, rfl⟩ := List.mem_map.mp hc
    exact decide_eq_true d.valid
  have hchars : (codePoints s).map Char.ofNat = s.toList := by
    rw [codePoints, List.map_map]
    exact (List.map_congr_left fun c _ => Char.ofNat_toNat c).trans (List.map_id' _)
  rw [ofCodePoints, if_pos hvalid, hchars, String.ofList_toList]

namespace Json

/-- The values of the items of an object, for another order of the items. -/
theorem textItems_perm {items items' : List (String × Json)} (h : items.Perm items')
    {values : List (Str × JsonValue)} (hvalues : textItems items = some values) :
    ∃ values', textItems items' = some values' ∧ values.Perm values' := by
  induction h generalizing values with
  | nil => exact ⟨values, hvalues, .refl _⟩
  | cons item _ ih =>
      obtain ⟨k, v⟩ := item
      simp only [textItems, Option.bind_eq_bind, Option.bind_eq_some_iff] at hvalues ⊢
      obtain ⟨value, hvalue, rest, hrest, heq⟩ := hvalues
      obtain ⟨rest', hrest', hperm⟩ := ih hrest
      cases heq
      exact ⟨_, ⟨value, hvalue, rest', hrest', rfl⟩, hperm.cons _⟩
  -- the values of the first two items are exchanged like the items
  | swap item item' items =>
      obtain ⟨k, v⟩ := item
      obtain ⟨k', v'⟩ := item'
      simp only [textItems, Option.bind_eq_bind, Option.bind_eq_some_iff] at hvalues ⊢
      obtain ⟨value', hvalue', rest', ⟨value, hvalue, rest, hrest, heq⟩, heq'⟩ := hvalues
      cases heq
      cases heq'
      exact ⟨_, ⟨value, hvalue, _, ⟨value', hvalue', rest, hrest, rfl⟩, rfl⟩, .swap _ _ _⟩
  | trans _ _ ih₁ ih₂ =>
      obtain ⟨values₁, hvalues₁, hperm₁⟩ := ih₁ hvalues
      obtain ⟨values₂, hvalues₂, hperm₂⟩ := ih₂ hvalues₁
      exact ⟨values₂, hvalues₂, hperm₁.trans hperm₂⟩

/-- The value of an object whose items have been put into JSONB's order. -/
theorem textValue_sorted {items : List (String × Json)} {values : List (Str × JsonValue)}
    (hvalues : textItems items = some values) (hnodup : (items.map Prod.fst).Nodup) :
    ∃ values', (obj (items.insertionSort fun a b => keyLe a.1 b.1)).textValue =
      some (.dict values') ∧ values'.Perm values := by
  have hperm := List.perm_insertionSort (fun a b : String × Json => keyLe a.1 b.1) items
  obtain ⟨values', hvalues', hsame⟩ := textItems_perm hperm.symm hvalues
  refine ⟨values', ?_, hsame.symm⟩
  rw [textValue, hvalues']
  exact if_pos ((hperm.map Prod.fst).nodup_iff.mpr hnodup)

/-- The depth of an object, in terms of its values. -/
theorem depthItems_le_iff {items : List (String × Json)} {n : ℕ} :
    depthItems items ≤ n ↔ ∀ item ∈ items, item.2.depth ≤ n := by
  induction items with
  | nil => simp [depthItems]
  | cons item items ih => rw [depthItems, max_le_iff, ih, List.forall_mem_cons]

/-- An object whose items have been put into JSONB's order is as deep as its values are. -/
theorem depth_sorted_le {items : List (String × Json)} {n : ℕ}
    (h : ∀ item ∈ items, item.2.depth ≤ n) :
    (obj (items.insertionSort fun a b => keyLe a.1 b.1)).depth ≤ n + 1 := by
  have hperm := List.perm_insertionSort (fun a b : String × Json => keyLe a.1 b.1) items
  have hdepth := depthItems_le_iff.mpr fun item hitem => h item (hperm.mem_iff.mp hitem)
  rw [depth]
  omega

/-- Storing texts changes nothing but their order. -/
theorem jsonbItems_texts (fields : Fields) :
    jsonbItems (fields.map fun field => (field.1, .str field.2)) =
      fields.map fun field => (field.1, .str field.2) := by
  induction fields with
  | nil => rfl
  | cons field fields ih =>
      rw [List.map_cons, jsonbItems, ih]
      rfl

/-- The values of the fields of a payload. -/
theorem textItems_texts (fields : Fields) :
    textItems (fields.map fun field => (field.1, .str field.2)) = some (fieldValues fields) := by
  induction fields with
  | nil => rfl
  | cons field fields ih =>
      rw [List.map_cons, textItems, ih]
      rfl

/-- The value of a dictionary of texts that has been stored. -/
theorem textValue_ofFields {fields : Fields} (hnodup : (fields.map Prod.fst).Nodup) :
    ∃ values, (ofFields fields).jsonb.textValue = some (.dict values) ∧
      values.Perm (fieldValues fields) := by
  rw [ofFields, jsonb, jsonbItems_texts]
  refine textValue_sorted (textItems_texts fields) ?_
  rw [List.map_map]
  exact hnodup

/-- The depth of a dictionary of texts that has been stored. -/
theorem depth_ofFields_le (fields : Fields) : (ofFields fields).jsonb.depth ≤ 1 := by
  rw [ofFields, jsonb, jsonbItems_texts]
  refine depth_sorted_le fun item hitem => ?_
  obtain ⟨field, -, rfl⟩ := List.mem_map.mp hitem
  exact le_rfl

end Json

/-- The fields of a payload are the strings of its dictionary. -/
theorem stringFields_texts (fields : Fields) :
    stringFields (fieldValues fields) = fields := by
  induction fields with
  | nil => rfl
  | cons field fields ih =>
      have hfield : textItem (codePoints field.1, .str (codePoints field.2)) = some field := by
        rw [textItem, textOf, ofCodePoints_codePoints, ofCodePoints_codePoints]
        rfl
      rw [fieldValues, List.map_cons, stringFields, List.filterMap_cons_some hfield,
        ← stringFields, ← fieldValues, ih]

/-- What a model makes of a dictionary depends only on the values under each name. -/
theorem parsePayload_congr (eventType : String) {fields fields' : Fields}
    (h : ∀ name, fields.lookup name = fields'.lookup name) :
    parsePayload eventType fields = parsePayload eventType fields' := by
  simp only [parsePayload, h]

/-! ## The way there and back -/

/-- The fields of a payload have different names. -/
theorem EventPayload.modelDump_nodup (p : EventPayload) : (p.modelDump.map Prod.fst).Nodup := by
  cases p <;> exact of_decide_eq_true rfl

namespace EventEnvelope

/-- The items of the dictionary of an event, as they are decoded. -/
def items (e : EventEnvelope) (fields : List (Str × JsonValue)) : List (Str × JsonValue) :=
  [("event_id", .str (codePoints e.eventId)), ("event_type", .str (codePoints e.eventType)),
    ("occurred_at", .str (codePoints (isoText e.occurredAt))),
    ("version", .str (codePoints e.version)),
    ("actor_id", e.actorId.elim .none fun actor => .str (codePoints actor)),
    ("payload", .dict fields)].map fun item => (codePoints item.1, item.2)

/-- The value is the dictionary of the event, with its items in any order. -/
structure Decodes (e : EventEnvelope) (event : JsonValue) : Prop where
  intro ::
  dict : ∃ items fields, event = .dict items ∧ items.Perm (e.items fields) ∧
    fields.Perm (fieldValues e.payload.modelDump)

/-- A message is decoded to the dictionary of its event. -/
theorem decoded_message (e : EventEnvelope) {limit : ℕ} (hlimit : 2 ≤ limit) :
    ∃ event, loads limit (some e.message) = .ok event ∧ e.Decodes event := by
  let payload := (Json.ofFields e.payload.modelDump).jsonb
  obtain ⟨fields, hpayload, hfieldsPerm⟩ := Json.textValue_ofFields e.payload.modelDump_nodup
  have hactor : (e.actorId.elim Json.null Json.str).textValue =
      some (e.actorId.elim .none fun actor => .str (codePoints actor)) := by
    cases e.actorId <;> rfl
  have hjsonb : (e.actorId.elim Json.null Json.str).jsonb = e.actorId.elim .null .str := by
    cases e.actorId <;> rfl
  -- the items of the document in the order in which they are written
  let items : List (String × Json) :=
    [("event_id", .str e.eventId), ("event_type", .str e.eventType),
      ("occurred_at", .str (isoText e.occurredAt)), ("version", .str e.version),
      ("actor_id", e.actorId.elim .null .str), ("payload", payload)]
  have hitems : Json.textItems items = some (e.items fields) := by
    simp only [items, payload, Json.textItems, Json.textValue, hactor, hpayload]
    rfl
  -- the column sorts the keys, which changes the order of the items only
  obtain ⟨values, hvalues, hvaluesPerm⟩ := Json.textValue_sorted hitems (of_decide_eq_true rfl)
  have hdocument : e.document.jsonb =
      .obj (items.insertionSort fun a b => Json.keyLe a.1 b.1) := by
    simp only [document, Json.jsonb, Json.jsonbItems, hjsonb]
    rfl
  refine ⟨.dict values, ?_, ⟨values, fields, rfl, hvaluesPerm, hfieldsPerm⟩⟩
  refine loads_dumps (hdocument ▸ hvalues) (le_trans ?_ hlimit)
  -- the document is one level deeper than its payload
  have hactorDepth : (e.actorId.elim Json.null Json.str).depth ≤ 1 := by
    cases e.actorId <;> exact Nat.zero_le 1
  rw [hdocument]
  refine Json.depth_sorted_le fun item hitem => ?_
  simp only [items, List.mem_cons, List.not_mem_nil, or_false] at hitem
  rcases hitem with rfl | rfl | rfl | rfl | rfl | rfl
  · exact Nat.zero_le 1
  · exact Nat.zero_le 1
  · exact Nat.zero_le 1
  · exact Nat.zero_le 1
  · exact hactorDepth
  · exact Json.depth_ofFields_le _

/-- An item of the dictionary of an event. -/
theorem lookup_items {e : EventEnvelope} {values fields : List (Str × JsonValue)}
    (h : values.Perm (e.items fields)) (name : String) :
    values.lookup (codePoints name) =
      ([("event_id", .str (codePoints e.eventId)), ("event_type", .str (codePoints e.eventType)),
        ("occurred_at", .str (codePoints (isoText e.occurredAt))),
        ("version", .str (codePoints e.version)),
        ("actor_id", e.actorId.elim .none fun actor => .str (codePoints actor)),
        ("payload", .dict fields)] : List (String × JsonValue)).lookup name := by
  have hkeys : (e.items fields).map Prod.fst = ["event_id", "event_type", "occurred_at", "version",
      "actor_id", "payload"].map codePoints := by
    simp [EventEnvelope.items]
  have hnodup : (values.map Prod.fst).Nodup := by
    rw [(h.map Prod.fst).nodup_iff, hkeys]
    exact List.Nodup.map codePoints_injective (by decide)
  rw [lookup_perm h hnodup, EventEnvelope.items]
  exact (lookup_codePoints (f := id) _ name).trans (Option.map_id_apply)

end EventEnvelope

/-- The envelope that a consumer has read is that of the event. -/
structure RawEnvelope.Carries (raw : RawEnvelope) (e : EventEnvelope) : Prop where
  eventId : raw.eventId = e.eventId
  eventType : raw.eventType = e.eventType
  occurredAt : raw.occurredAt = isoText e.occurredAt
  version : raw.version = e.version
  actorId : raw.actorId = e.actorId
  payload : (stringFields raw.payload).Perm e.payload.modelDump

/-- The envelope of an event is read back from its dictionary. -/
theorem EventEnvelope.Decodes.parseEnvelope {e : EventEnvelope} {event : JsonValue}
    (h : e.Decodes event) : ∃ raw, parseEnvelope event = some raw ∧ raw.Carries e := by
  obtain ⟨items, fields, rfl, hitems, hfields⟩ := h.dict
  have hactor : textOrNone (e.actorId.elim .none fun actor => .str (codePoints actor)) =
      some e.actorId := by
    cases e.actorId with
    | none => rfl
    | some actor =>
        change (ofCodePoints (codePoints actor)).map some = _
        rw [ofCodePoints_codePoints]
        rfl
  refine ⟨⟨e.eventId, e.eventType, isoText e.occurredAt, e.version, e.actorId, fields⟩, ?_,
    rfl, rfl, rfl, rfl, rfl, ?_⟩
  · -- each key of the envelope is found whatever the order of the items
    have hfield := lookup_items hitems
    have htext (s : String) : textOf (.str (codePoints s)) = some s := ofCodePoints_codePoints s
    simp only [MiniWallet.parseEnvelope, itemsOf, Option.bind_eq_bind, Option.bind_some, hfield]
    simp only [List.lookup_cons, String.reduceBEq, htext, hactor, Option.bind_some, itemsOf]
    rfl
  · -- the texts of the payload are a permutation of its fields
    have hperm := hfields.filterMap textItem
    rwa [← stringFields, ← stringFields, stringFields_texts] at hperm

/-- An event is read back from its dictionary, by the model that is registered for its type. -/
theorem parseMessage_decodes {e : EventEnvelope} {event : JsonValue} (h : e.Decodes event)
    (htype : e.eventType = e.payload.eventType) :
    ∃ raw, parseMessage event = some (raw, some e.payload) ∧ raw.Carries e := by
  obtain ⟨raw, hparse, hraw⟩ := h.parseEnvelope
  have hnodup := ((hraw.payload.map Prod.fst).nodup_iff.mpr e.payload.modelDump_nodup)
  have hpayload : parsePayload raw.eventType (stringFields raw.payload) =
      some (some e.payload) := by
    rw [hraw.eventType, htype, parsePayload_congr _ (lookup_perm hraw.payload hnodup),
      parsePayload_modelDump]
  refine ⟨raw, ?_, hraw⟩
  rw [parseMessage, hparse]
  simp only [Option.bind_eq_bind, Option.bind_some, hpayload]
  rfl

end MiniWallet
