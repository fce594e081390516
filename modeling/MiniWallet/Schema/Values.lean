import MiniWallet.Numeric.Render

/-!
# Values of the columns

The types that the tables, the events and the requests are made of: identifiers, instants, the
states of the domain objects, and the JSON documents that a withdrawal carries as its destination.
Amounts of money appear in two forms. A request and an object in memory hold a `Decimal`; a row in a
`NUMERIC(19,4)` column holds an integer number of ten-thousandths.
-/

namespace MiniWallet

open Numeric

/-- A 128-bit identifier. -/
structure UUID where
  /-- The bits of the identifier. -/
  bits : BitVec 128
deriving DecidableEq, Repr

/-- The lowest `k` hexadecimal digits of `n`, most significant first. -/
def hexDigits : ℕ → ℕ → List Char
  | 0, _ => []
  | k + 1, n => hexDigits k (n / 16) ++ [Nat.digitChar (n % 16)]

/-- The canonical text of an identifier: groups of 8, 4, 4, 4 and 12 hexadecimal digits. -/
def UUID.str (u : UUID) : String :=
  let h := hexDigits 32 u.bits.toNat
  String.ofList (h.take 8 ++ '-' :: ((h.drop 8).take 4 ++ '-' :: ((h.drop 12).take 4 ++
    '-' :: ((h.drop 16).take 4 ++ '-' :: h.drop 20))))

/-- The account on the other side of everything that enters or leaves the system. -/
def systemAccountId : UUID := ⟨0⟩

/-- An instant, in microseconds. -/
abbrev Time := ℤ

/-- `n` minutes in microseconds. -/
def minutes (n : ℤ) : ℤ := n * 60 * 1000000

/-- An amount as a `NUMERIC(19,4)` column holds it: a number of ten-thousandths. -/
abbrev Ticks := ℤ

/-- The number of places of the `NUMERIC(19,4)` columns. -/
def moneyPlaces : ℕ := 4

/-- Storing an amount rounds it half away from zero. -/
def Ticks.ofDecimal (d : Decimal) : Ticks := d.roundHalfAway moneyPlaces

/-- Loading an amount gives a decimal with four places. -/
def Ticks.toDecimal (n : Ticks) : Decimal := Decimal.ofScaled moneyPlaces n

/-- A stored amount that is read is stored as itself again. -/
@[simp]
theorem Ticks.ofDecimal_toDecimal (n : Ticks) : Ticks.ofDecimal (Ticks.toDecimal n) = n :=
  Decimal.roundHalfAway_ofScaled moneyPlaces n

/-- `f"{amount:.4f}"`. -/
def money (d : Decimal) : String := d.formatFixed moneyPlaces

/-- The side of a ledger leg. -/
inductive Direction
  | debit
  | credit
deriving DecidableEq, Repr

/-- What a ledger leg was written for. -/
inductive EntryType
  | seed
  | transfer
  | deposit
  | withdrawal
  | withdrawalReversal
deriving DecidableEq, Repr

/-- The entry type as the events and the read model spell it. -/
def EntryType.str : EntryType → String
  | seed => "seed"
  | transfer => "transfer"
  | deposit => "deposit"
  | withdrawal => "withdrawal"
  | withdrawalReversal => "withdrawal_reversal"

/-- The states of a transfer. -/
inductive TransferStatus
  | completed
  | failed
deriving DecidableEq, Repr

/-- The transfer state as responses spell it. -/
def TransferStatus.str : TransferStatus → String
  | completed => "completed"
  | failed => "failed"

/-- The states of a deposit. -/
inductive DepositStatus
  | pending
  | completed
  | rejected
deriving DecidableEq, Repr

/-- The deposit state as responses spell it. -/
def DepositStatus.str : DepositStatus → String
  | pending => "pending"
  | completed => "completed"
  | rejected => "rejected"

/-- The states of a withdrawal. -/
inductive WithdrawalStatus
  | pending
  | submitted
  | completed
  | failed
deriving DecidableEq, Repr

/-- The withdrawal state as responses spell it. -/
def WithdrawalStatus.str : WithdrawalStatus → String
  | pending => "pending"
  | submitted => "submitted"
  | completed => "completed"
  | failed => "failed"

/-- The two states in which a withdrawal is not supposed to change any more. -/
def WithdrawalStatus.Terminal (s : WithdrawalStatus) : Prop := s = completed ∨ s = failed

/-- Whether a status is terminal is decidable. -/
instance (s : WithdrawalStatus) : Decidable s.Terminal :=
  inferInstanceAs (Decidable (_ ∨ _))

/-- The text contains the null character, which no text column can store. -/
def hasNull (s : String) : Bool := s.toList.contains (Char.ofNat 0)

/-! ## JSON documents -/

/-- A JSON value. An object lists its items in key order: neither the equality of dictionaries nor
the JSONB column nor `json.dumps` with sorted keys sees another order. A number is kept as the
literal that it is printed with. -/
inductive Json
  | null
  | bool (b : Bool)
  | num (literal : String)
  | str (s : String)
  | arr (xs : List Json)
  | obj (items : List (String × Json))

namespace Json

/-- A `\uXXXX` escape. -/
def unicodeEscape (n : ℕ) : List Char := '\\' :: 'u' :: hexDigits 4 n

/-- One character inside a JSON string, everything outside printable ASCII escaped. -/
def escapeChar (c : Char) : List Char :=
  if c = '"' then ['\\', '"']
  else if c = '\\' then ['\\', '\\']
  else if c = '\n' then ['\\', 'n']
  else if c = '\r' then ['\\', 'r']
  else if c = '\t' then ['\\', 't']
  else if c.toNat = 12 then ['\\', 'f']
  else if c.toNat = 8 then ['\\', 'b']
  else if 32 ≤ c.toNat ∧ c.toNat ≤ 126 then [c]
  else if c.toNat < 65536 then unicodeEscape c.toNat
  else
    -- a surrogate pair
    let v := c.toNat - 65536
    unicodeEscape (55296 + v / 1024) ++ unicodeEscape (56320 + v % 1024)

/-- A JSON string with its quotes. -/
def quote (s : String) : List Char := '"' :: (s.toList.flatMap escapeChar ++ ['"'])

mutual

/-- `json.dumps` with sorted keys and the default separators. -/
def render : Json → List Char
  | null => ['n', 'u', 'l', 'l']
  | bool true => ['t', 'r', 'u', 'e']
  | bool false => ['f', 'a', 'l', 's', 'e']
  | num literal => literal.toList
  | str s => quote s
  | arr xs => '[' :: (renderElements xs ++ [']'])
  | obj items => '{' :: (renderItems items ++ ['}'])

/-- The elements of an array, separated by a comma and a space. -/
def renderElements : List Json → List Char
  | [] => []
  | [x] => render x
  | x :: y :: xs => render x ++ ',' :: ' ' :: renderElements (y :: xs)

/-- The items of an object, separated by a comma and a space. -/
def renderItems : List (String × Json) → List Char
  | [] => []
  | [(k, v)] => quote k ++ ':' :: ' ' :: render v
  | (k, v) :: item :: items =>
      quote k ++ ':' :: ' ' :: (render v ++ ',' :: ' ' :: renderItems (item :: items))

end

/-- `json.dumps(x, sort_keys=True)`. -/
def dumps (x : Json) : String := String.ofList x.render

mutual

/-- No string of the document contains the null character, which JSONB cannot store. -/
def nullFree : Json → Bool
  | str s => !hasNull s
  | arr xs => nullFreeElements xs
  | obj items => nullFreeItems items
  | _ => true

/-- `nullFree` for every element of an array. -/
def nullFreeElements : List Json → Bool
  | [] => true
  | x :: xs => nullFree x && nullFreeElements xs

/-- `nullFree` for every key and value of an object. -/
def nullFreeItems : List (String × Json) → Bool
  | [] => true
  | (k, v) :: items => !hasNull k && nullFree v && nullFreeItems items

end

end Json

end MiniWallet
