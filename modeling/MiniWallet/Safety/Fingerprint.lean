import MiniWallet.Schema.JsonLexer
import MiniWallet.Schema.Printable
import MiniWallet.Services.Withdrawal

/-!
# The fingerprint of a withdrawal request

The text that `_hash_request` hashes puts a currency, which can be any text, between colons and
before a JSON object. The identifier has a fixed length and the amount has no colon. If two requests
with the same text had different currencies, then one of the two objects would have the separator
and the other object at its end. The separator can only stand inside of a string, so the other
object would be read from inside of a string; but then it ends inside of one.

* `AnyDecimal`: the amounts of requests, the special values included.
* `eq_of_tail`: currency, type and details are determined by their text.
* `eq_of_hashInput`: and so are all five parts.
* `fingerprint_unambiguous`: two requests have the same text exactly if they agree in these parts.
-/

namespace MiniWallet

open Numeric Lexer

/-- A `Decimal`, the special values included. -/
inductive AnyDecimal
  | finite (d : Decimal)
  | infinity (negative : Bool)
  /-- With the digits of its diagnostic, which is empty for zero. -/
  | nan (negative signaling : Bool) (diagnostic : ℕ)

/-- `str` of a `Decimal`. -/
def AnyDecimal.str : AnyDecimal → String
  | finite d => d.str
  | infinity negative => (if negative then "-" else "") ++ "Infinity"
  | nan negative signaling diagnostic =>
      (if negative then "-" else "") ++ (if signaling then "sNaN" else "NaN") ++
        (if diagnostic = 0 then "" else String.ofList (Nat.toDigits 10 diagnostic))

/-- `_ALLOWED_DESTINATION_TYPES`. -/
def allowedDestinationTypes : List String := ["bank_transfer", "card_withdrawal"]

/-- What `_hash_request` hashes. -/
def hashInput (accountId : UUID) (amount : AnyDecimal) (currency destinationType : String)
    (destinationDetails : Json) : String :=
  accountId.str ++ ":" ++ amount.str ++ ":" ++ currency ++ ":" ++ destinationType ++ ":" ++
    destinationDetails.dumps

/-- For a finite amount this is the text that `create_withdrawal` hashes. -/
theorem hashInput_finite (accountId : UUID) (amount : Decimal) (currency destinationType : String)
    (destinationDetails : Json) :
    hashInput accountId (.finite amount) currency destinationType destinationDetails =
      withdrawalFingerprint accountId amount currency destinationType destinationDetails := rfl

/-! ## Amounts -/

/-- The digits of a number contain no colon. -/
theorem toDigits_ne_colon (n : ℕ) : ∀ c ∈ Nat.toDigits 10 n, c ≠ ':' := by
  rintro c hc rfl
  have hdigit := Python.isDigit_of_mem_digitsOf (List.mem_map_of_mem (f := Char.toNat) hc)
  exact absurd hdigit (by decide)

/-- The text of an amount contains no colon. -/
theorem AnyDecimal.str_ne_colon (d : AnyDecimal) : ∀ c ∈ d.str.toList, c ≠ ':' := by
  cases d with
  | finite d => exact forall_mem_str toDigits_ne_colon (by simp) d
  | infinity negative =>
      unfold AnyDecimal.str
      cases negative <;> simp
  | nan negative signaling diagnostic =>
      have hsign : ∀ negative signaling : Bool, ∀ c ∈ ((if negative then "-" else "") ++
          if signaling then "sNaN" else "NaN").toList, c ≠ ':' := by
        rintro (_ | _) (_ | _) <;> simp
      rw [AnyDecimal.str, String.toList_append, List.forall_mem_append]
      refine ⟨hsign negative signaling, ?_⟩
      split
      · exact fun c hc => nomatch hc
      · rw [String.toList_ofList]
        exact toDigits_ne_colon diagnostic

/-! ## Currency, type and details -/

/-- What stands between the currency and the details. -/
def separator (destinationType : String) : List Char := ':' :: (destinationType.toList ++ [':'])

/-- A separator is not read outside of strings, and it does not leave a string. -/
theorem scan_separator {t : String} (ht : t ∈ allowedDestinationTypes) (s : Lexer) {s' : Lexer}
    (h : s.scan (separator t) = some s') : s' = inside := by
  have hall : ∀ t ∈ allowedDestinationTypes, outside.scan (separator t) = none ∧
      inside.scan (separator t) = some inside ∧ escaped.scan (separator t) = some inside := by
    decide +kernel
  obtain ⟨houtside, hinside, hescaped⟩ := hall t ht
  cases s with
  | outside => cases houtside.symm.trans h
  | inside => exact (Option.some.inj (hinside.symm.trans h)).symm
  | escaped => exact (Option.some.inj (hescaped.symm.trans h)).symm

/-- A text that is read from outside to outside does not have a separator and another such text at
its end. -/
theorem not_scan_separator {t : String} (ht : t ∈ allowedDestinationTypes) {cs ds : List Char}
    (hds : outside.scan ds = some outside) :
    outside.scan (cs ++ (separator t ++ ds)) ≠ some outside := by
  intro h
  rw [scan_append, Option.bind_eq_some_iff] at h
  obtain ⟨s, -, h⟩ := h
  rw [scan_append, Option.bind_eq_some_iff] at h
  obtain ⟨s', hsep, h⟩ := h
  obtain rfl := scan_separator ht s hsep
  have hopposite : Opposite outside outside := Opposite.scan (.inl ⟨rfl, rfl⟩) hds h
  rcases hopposite with ⟨-, h⟩ | ⟨h, -⟩ <;> cases h

/-- The details do not start earlier. -/
theorem tail_not_longer {c c' : List Char} {t t' : String} {d d' s : List Char}
    (ht' : t' ∈ allowedDestinationTypes) (hd : outside.scan d = some outside)
    (hd' : outside.scan d' = some outside) (hbrace : ∀ x ∈ d.head?, x = '{')
    (hbefore : c' ++ separator t' = (c ++ separator t) ++ s) (hafter : d = s ++ d') : s = [] := by
  cases s with
  | nil => rfl
  | cons x s =>
      have hx : x = '{' := hbrace x (by rw [hafter]; rfl)
      subst hx
      exfalso
      rcases List.append_eq_append_iff.mp hbefore with ⟨a, ha, hsep⟩ | ⟨a, ha, hsep⟩
      · -- the rest is part of the separator, which has no brace
        have hbraces : ∀ t ∈ allowedDestinationTypes, '{' ∉ separator t := by decide +kernel
        refine hbraces t' ht' ?_
        rw [hsep]
        exact List.mem_append_right _ List.mem_cons_self
      · -- the rest has the separator
        rw [hafter, hsep, List.append_assoc] at hd
        exact not_scan_separator ht' hd' hd

/-- The type is determined by what stands before the details. -/
theorem eq_of_separator {c c' : List Char} {t t' : String} (ht : t ∈ allowedDestinationTypes)
    (ht' : t' ∈ allowedDestinationTypes) (h : c ++ separator t = c' ++ separator t') :
    c = c' ∧ t = t' := by
  have hlast : ∀ t ∈ allowedDestinationTypes, ∀ t' ∈ allowedDestinationTypes,
      (separator t).reverse.take 2 = (separator t').reverse.take 2 → t = t' := by decide +kernel
  have hlong : ∀ t ∈ allowedDestinationTypes, 2 ≤ (separator t).reverse.length := by decide +kernel
  have hreverse := congrArg (fun cs => cs.reverse.take 2) h
  rw [List.reverse_append, List.reverse_append, List.take_append_of_le_length (hlong t ht),
    List.take_append_of_le_length (hlong t' ht')] at hreverse
  obtain rfl := hlast t ht t' ht' hreverse
  exact ⟨List.append_cancel_right h, rfl⟩

/-- Currency, type and details are determined by their text. -/
theorem eq_of_tail {c c' : List Char} {t t' : String} {d d' : List Char}
    (ht : t ∈ allowedDestinationTypes) (ht' : t' ∈ allowedDestinationTypes)
    (hd : outside.scan d = some outside) (hd' : outside.scan d' = some outside)
    (hbrace : ∀ x ∈ d.head?, x = '{') (hbrace' : ∀ x ∈ d'.head?, x = '{')
    (h : (c ++ separator t) ++ d = (c' ++ separator t') ++ d') : c = c' ∧ t = t' ∧ d = d' := by
  have hsplit : c ++ separator t = c' ++ separator t' ∧ d = d' := by
    rcases List.append_eq_append_iff.mp h with ⟨s, hbefore, hafter⟩ | ⟨s, hbefore, hafter⟩
    · obtain rfl := tail_not_longer ht' hd hd' hbrace hbefore hafter
      exact ⟨by rw [hbefore, List.append_nil], hafter⟩
    · obtain rfl := tail_not_longer ht hd' hd hbrace' hbefore hafter
      exact ⟨by rw [hbefore, List.append_nil], hafter.symm⟩
  obtain ⟨hc, ht⟩ := eq_of_separator ht ht' hsplit.1
  exact ⟨hc, ht, hsplit.2⟩

/-- A text up to the first colon is determined. -/
theorem eq_of_colon {as bs cs ds : List Char} (ha : ∀ c ∈ as, c ≠ ':') (hb : ∀ c ∈ bs, c ≠ ':')
    (h : as ++ ':' :: cs = bs ++ ':' :: ds) : as = bs ∧ cs = ds := by
  induction as generalizing bs with
  | nil =>
      cases bs with
      | nil => exact ⟨rfl, (List.cons.inj h).2⟩
      | cons b bs => exact absurd (List.cons.inj h).1.symm (hb b List.mem_cons_self)
  | cons a as ih =>
      cases bs with
      | nil => exact absurd (List.cons.inj h).1 (ha a List.mem_cons_self)
      | cons b bs =>
          obtain ⟨rfl, hrest⟩ := List.cons.inj h
          obtain ⟨rfl, htail⟩ := ih (fun c hc => ha c (List.mem_cons_of_mem _ hc))
            (fun c hc => hb c (List.mem_cons_of_mem _ hc)) hrest
          exact ⟨rfl, htail⟩

/-- The five parts of a request with an allowed type and a JSON object as details, whatever its
currency, are determined by the text that is hashed. -/
theorem eq_of_hashInput {a a' : UUID} {amount amount' : AnyDecimal}
    {currency currency' t t' : String} {items items' : List (String × Json)}
    (ht : t ∈ allowedDestinationTypes) (ht' : t' ∈ allowedDestinationTypes)
    (hitems : (Json.obj items).numerals) (hitems' : (Json.obj items').numerals)
    (h : hashInput a amount currency t (.obj items) =
      hashInput a' amount' currency' t' (.obj items')) :
    a.str = a'.str ∧ amount.str = amount'.str ∧ currency = currency' ∧ t = t' ∧
      (Json.obj items).dumps = (Json.obj items').dumps := by
  have hchars := congrArg String.toList h
  simp only [hashInput, String.toList_append, Json.dumps, String.toList_ofList, List.append_assoc]
    at hchars
  -- the identifier has a fixed length, and the amount ends at the first colon
  have hlength : a.str.toList.length = a'.str.toList.length := by
    rw [String.length_toList, String.length_toList, length_uuid, length_uuid]
  obtain ⟨haccount, hchars⟩ := List.append_inj hchars hlength
  obtain ⟨hamount, hchars⟩ := eq_of_colon amount.str_ne_colon amount'.str_ne_colon
    (List.cons.inj hchars).2
  have htail : (currency.toList ++ separator t) ++ (Json.obj items).render =
      (currency'.toList ++ separator t') ++ (Json.obj items').render := by
    simpa [separator] using hchars
  -- what follows the type starts with a brace, which no type does
  have hbrace : ∀ items, ∀ x ∈ (Json.obj items).render.head?, x = '{' := by
    intro items x hx
    rw [Json.render] at hx
    exact (Option.some.inj hx).symm
  obtain ⟨hcurrency, htype, hdetails⟩ := eq_of_tail ht ht' (scan_render _ hitems)
    (scan_render _ hitems') (hbrace items) (hbrace items') htail
  refine ⟨String.toList_injective haccount, String.toList_injective hamount,
    String.toList_injective hcurrency, htype, ?_⟩
  rw [Json.dumps, Json.dumps, hdetails]

/-- For any two requests with an allowed type and JSON objects as details, whatever their
currencies: the texts that are hashed are equal only if all five parts are. -/
theorem fingerprint_unambiguous {a a' : UUID} {amount amount' : AnyDecimal}
    {currency currency' t t' : String} {items items' : List (String × Json)}
    (ht : t ∈ allowedDestinationTypes) (ht' : t' ∈ allowedDestinationTypes)
    (hitems : (Json.obj items).numerals) (hitems' : (Json.obj items').numerals) :
    hashInput a amount currency t (.obj items) = hashInput a' amount' currency' t' (.obj items') ↔
      a.str = a'.str ∧ amount.str = amount'.str ∧ currency = currency' ∧ t = t' ∧
        (Json.obj items).dumps = (Json.obj items').dumps := by
  refine ⟨eq_of_hashInput ht ht' hitems hitems', ?_⟩
  rintro ⟨haccount, hamount, rfl, rfl, hdetails⟩
  rw [hashInput, hashInput, haccount, hamount, hdetails]

/-- The currency of one request imitates the type and the start of the details of the other one,
whose details imitate the rest. -/
theorem fingerprint_unambiguous_imitated :
    hashInput ⟨1⟩ (.finite ⟨false, 100, -1⟩) "USD" "bank_transfer"
        (.obj [("a", .str ":card_withdrawal:\x7b"), ("n", .num "-1.5e+20")]) ≠
      hashInput ⟨1⟩ (.finite ⟨false, 100, -1⟩) "USD:bank_transfer:\x7b\"a\": \"" "card_withdrawal"
        (.obj [(", ", .str "n")]) := by
  intro h
  have hparts := (fingerprint_unambiguous (by decide) (by decide) (by decide +kernel)
    (by decide +kernel)).mp h
  exact absurd hparts.2.2.2.1 (by decide)

end MiniWallet
