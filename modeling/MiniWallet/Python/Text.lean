import Mathlib.Algebra.Order.Ring.Int
import Mathlib.Tactic.Common
import Mathlib.Tactic.Ring

/-!
# Python's texts and integers

Byte strings, the texts they decode to, and the conversions between texts and integers, as CPython
has them. A text is a list of code points, which may be surrogates.

* `decodeUtf8`, `decodeUtf16`, `decodeUtf32`: `bytes.decode`, with the error handler `strict` or
  `surrogatepass`.
* `int`, `strInt`: `int(text)` and `str(n)`, with the limit on the number of digits.
* `int_strInt`: reading back a written integer.
-/

namespace Python

/-- A byte string. -/
abbrev Bytes := List UInt8

/-- A text: a list of code points. -/
abbrev Str := List ℕ

/-- The code points of an ASCII text that is given literally. -/
def ascii (s : String) : Str := s.toList.map Char.toNat

/-- The bytes of an ASCII text that is given literally. -/
def asciiBytes (s : String) : Bytes := s.toList.map fun c => UInt8.ofNat c.toNat

/-! ## Decoding -/

/-- A continuation byte of UTF-8. -/
def isContinuation (b : ℕ) : Bool := 0x80 ≤ b && b ≤ 0xBF

/-- The two bytes are a character of UTF-8. -/
def isPair (a b : ℕ) : Bool := 0xC2 ≤ a && a ≤ 0xDF && isContinuation b

/-- The three bytes are a character of UTF-8; with `surrogatepass` they may be a surrogate. -/
def isTriple (surrogatepass : Bool) (a b c : ℕ) : Bool :=
  0xE0 ≤ a && a ≤ 0xEF && isContinuation b && isContinuation c &&
    (a != 0xE0 || 0xA0 ≤ b) && (a != 0xED || b ≤ 0x9F || surrogatepass)

/-- The four bytes are a character of UTF-8. -/
def isQuadruple (a b c d : ℕ) : Bool :=
  0xF0 ≤ a && a ≤ 0xF4 && isContinuation b && isContinuation c && isContinuation d &&
    (a != 0xF0 || 0x90 ≤ b) && (a != 0xF4 || b ≤ 0x8F)

/-- Decode UTF-8; `none` is a `UnicodeDecodeError`. -/
def decodeUtf8 (surrogatepass : Bool) : List ℕ → Option Str
  | [] => some []
  | a :: as =>
      -- one byte for ASCII, otherwise as many as the first byte says
      if a < 0x80 then (decodeUtf8 surrogatepass as).map (a :: ·)
      else
        match as with
        | [] => none
        | b :: bs =>
            if isPair a b then
              (decodeUtf8 surrogatepass bs).map ((a % 32 * 64 + b % 64) :: ·)
            else
              match bs with
              | [] => none
              | c :: cs =>
                  if isTriple surrogatepass a b c then
                    (decodeUtf8 surrogatepass cs).map
                      ((a % 16 * 4096 + b % 64 * 64 + c % 64) :: ·)
                  else
                    match cs with
                    | [] => none
                    | d :: ds =>
                        if isQuadruple a b c d then
                          (decodeUtf8 surrogatepass ds).map
                            ((a % 8 * 262144 + b % 64 * 4096 + c % 64 * 64 + d % 64) :: ·)
                        else none

/-- The first half of a surrogate pair. -/
def isHighSurrogate (c : ℕ) : Bool := 0xD800 ≤ c && c ≤ 0xDBFF

/-- The second half of a surrogate pair. -/
def isLowSurrogate (c : ℕ) : Bool := 0xDC00 ≤ c && c ≤ 0xDFFF

/-- The character that a surrogate pair stands for. -/
def surrogatePair (high low : ℕ) : ℕ := 0x10000 + (high - 0xD800) * 1024 + (low - 0xDC00)

/-- The units of UTF-16; `none` if a byte is left over. -/
def units16 (bigEndian : Bool) : List ℕ → Option (List ℕ)
  | [] => some []
  | [_] => none
  | a :: b :: rest =>
      (units16 bigEndian rest).map ((if bigEndian then a * 256 + b else b * 256 + a) :: ·)

/-- Join the surrogate pairs of UTF-16. Lone surrogates stay, as with `surrogatepass`. -/
def joinSurrogates : List ℕ → Str
  | [] => []
  | [u] => [u]
  | u :: v :: rest =>
      if isHighSurrogate u && isLowSurrogate v then surrogatePair u v :: joinSurrogates rest
      else u :: joinSurrogates (v :: rest)

/-- Decode UTF-16 with `surrogatepass`. -/
def decodeUtf16 (bigEndian : Bool) (bytes : List ℕ) : Option Str :=
  (units16 bigEndian bytes).map joinSurrogates

/-- Decode UTF-32 with `surrogatepass`. -/
def decodeUtf32 (bigEndian : Bool) : List ℕ → Option Str
  | [] => some []
  | a :: b :: c :: d :: rest =>
      let u := if bigEndian then ((a * 256 + b) * 256 + c) * 256 + d
        else ((d * 256 + c) * 256 + b) * 256 + a
      if u ≤ 0x10FFFF then (decodeUtf32 bigEndian rest).map (u :: ·) else none
  | _ => none

/-- `value.decode()`. -/
def decode (bytes : Bytes) : Option Str := decodeUtf8 false (bytes.map UInt8.toNat)

/-! ## Integers -/

/-- The zeros of the decimal digits of Unicode. Each is followed by the digits from one to nine. -/
def decimalZeros : List ℕ :=
  [0x30, 0x660, 0x6F0, 0x7C0, 0x966, 0x9E6, 0xA66, 0xAE6, 0xB66, 0xBE6, 0xC66, 0xCE6, 0xD66, 0xDE6,
    0xE50, 0xED0, 0xF20, 0x1040, 0x1090, 0x17E0, 0x1810, 0x1946, 0x19D0, 0x1A80, 0x1A90, 0x1B50,
    0x1BB0, 0x1C40, 0x1C50, 0xA620, 0xA8D0, 0xA900, 0xA9D0, 0xA9F0, 0xAA50, 0xABF0, 0xFF10, 0x104A0,
    0x10D30, 0x11066, 0x110F0, 0x11136, 0x111D0, 0x112F0, 0x11450, 0x114D0, 0x11650, 0x116C0,
    0x11730, 0x118E0, 0x11950, 0x11C50, 0x11D50, 0x11DA0, 0x11F50, 0x16A60, 0x16AC0, 0x16B50,
    0x1D7CE, 0x1D7D8, 0x1D7E2, 0x1D7EC, 0x1D7F6, 0x1E140, 0x1E2F0, 0x1E4F0, 0x1E950, 0x1FBF0]

/-- The white space of Unicode outside ASCII. -/
def wideSpaces : List ℕ :=
  [0x85, 0xA0, 0x1680, 0x2000, 0x2001, 0x2002, 0x2003, 0x2004, 0x2005, 0x2006, 0x2007, 0x2008,
    0x2009, 0x200A, 0x2028, 0x2029, 0x202F, 0x205F, 0x3000]

/-- What a number is read from: decimal digits and white space of all scripts become those of ASCII,
and everything else outside ASCII becomes a question mark. -/
def toAscii (c : ℕ) : ℕ :=
  if c < 127 then c
  else if wideSpaces.contains c then 32
  else
    match decimalZeros.find? fun z => z ≤ c && c ≤ z + 9 with
    | some z => 48 + (c - z)
    | none => 63

/-- White space around a number. -/
def isSpace (c : ℕ) : Bool := c == 32 || (9 ≤ c && c ≤ 13)

/-- An ASCII digit. -/
def isDigit (c : ℕ) : Bool := 48 ≤ c && c ≤ 57

/-- The value of a hexadecimal digit. -/
def hexValue (c : ℕ) : Option ℕ :=
  if isDigit c then some (c - 48)
  else if 97 ≤ c && c ≤ 102 then some (c - 87)
  else if 65 ≤ c && c ≤ 70 then some (c - 55)
  else none

/-- The digits at the front of a text, with single underscores between them, and what follows. -/
def takeDigits : List ℕ → Option (List ℕ × List ℕ)
  | [] => none
  | [c] => if isDigit c then some ([c - 48], []) else none
  | c :: u :: rest =>
      if isDigit c then
        if u = 95 then (takeDigits rest).map fun (ds, rest) => ((c - 48) :: ds, rest)
        else if isDigit u then
          (takeDigits (u :: rest)).map fun (ds, rest) => ((c - 48) :: ds, rest)
        else some ([c - 48], u :: rest)
      else none

/-- The number with the given decimal digits. -/
def ofDigits (ds : List ℕ) : ℕ := ds.foldl (fun n d => 10 * n + d) 0

/-- The limit on the number of digits in conversions between texts and integers. -/
def maxStrDigits : ℕ := 4300

/-- A sign and what follows it. -/
def takeSign : List ℕ → Bool × List ℕ
  | [] => (false, [])
  | c :: cs => if c = 45 then (true, cs) else if c = 43 then (false, cs) else (false, c :: cs)

/-- `int(text)`; `none` is a `ValueError`. -/
def int (text : Str) : Option ℤ :=
  let (negative, body) := takeSign ((text.map toAscii).dropWhile isSpace)
  match takeDigits body with
  | some (ds, rest) =>
      if rest.all isSpace && ds.length ≤ maxStrDigits then
        some (if negative then -(ofDigits ds : ℤ) else ofDigits ds)
      else none
  | none => none

/-- The decimal digits of a number as code points. -/
def digitsOf (n : ℕ) : Str := (Nat.toDigits 10 n).map Char.toNat

/-- `str(n)`; `none` is a `ValueError`. -/
def strInt (n : ℤ) : Option Str :=
  if (Nat.toDigits 10 n.natAbs).length ≤ maxStrDigits then
    some ((if n < 0 then [45] else []) ++ digitsOf n.natAbs)
  else none

/-- `text.encode()`, for an ASCII text. -/
def encodeAscii (text : Str) : Bytes := text.map UInt8.ofNat

example : int (ascii " -1_000 ") = some (-1000) := by decide +kernel

example : int [0x663, 0x2003] = some 3 := by decide +kernel

example : int (ascii "1__0") = none := by decide +kernel

/-! ## Reading back what was written -/

/-- A written number consists of digits. -/
theorem isDigit_of_mem_digitsOf {n c : ℕ} (h : c ∈ digitsOf n) : isDigit c := by
  obtain ⟨ch, hch, rfl⟩ := List.mem_map.mp h
  have hdigit := Nat.isDigit_of_mem_toDigits (by decide) (by decide) hch
  simp only [Char.isDigit, ge_iff_le, Bool.and_eq_true, decide_eq_true_eq] at hdigit
  simp only [isDigit, Bool.and_eq_true, decide_eq_true_eq]
  exact ⟨hdigit.1, hdigit.2⟩

/-- A written number has a digit. -/
theorem digitsOf_ne_nil (n : ℕ) : digitsOf n ≠ [] := by
  simp [digitsOf]

/-- A text of digits is read to its end. -/
theorem takeDigits_of_digits {cs : List ℕ} (hne : cs ≠ []) (h : ∀ c ∈ cs, isDigit c) :
    takeDigits cs = some (cs.map (· - 48), []) := by
  induction cs with
  | nil => exact absurd rfl hne
  | cons c cs ih =>
      have hc := h c List.mem_cons_self
      cases cs with
      | nil => simp [takeDigits, hc]
      | cons u us =>
          have hu := h u (List.mem_cons_of_mem _ List.mem_cons_self)
          have hrest := ih (List.cons_ne_nil _ _) fun c hc => h c (List.mem_cons_of_mem _ hc)
          have hne95 : u ≠ 95 := by
            rintro rfl
            simp [isDigit] at hu
          simp [takeDigits, hc, hu, hne95, hrest]

/-- The digits of a number give the number. -/
theorem ofDigits_digitsOf (n : ℕ) : ofDigits ((digitsOf n).map (· - 48)) = n := by
  have h := Nat.ofDigitChars_ten_toDigits (n := n)
  rw [Nat.ofDigitChars_eq_foldl] at h
  rw [ofDigits, digitsOf, List.map_map, List.foldl_map]
  exact h

/-- A digit is neither space nor a sign, and stays as it is. -/
theorem digit_facts {c : ℕ} (h : isDigit c) :
    toAscii c = c ∧ isSpace c = false ∧ c ≠ 45 ∧ c ≠ 43 := by
  simp only [isDigit, Bool.and_eq_true, decide_eq_true_eq] at h
  refine ⟨?_, ?_, by omega, by omega⟩
  · rw [toAscii, if_pos (by omega)]
  · simp only [isSpace, Bool.or_eq_false_iff, beq_eq_false_iff_ne, Bool.and_eq_false_iff,
      decide_eq_false_iff_not]
    omega

/-- An optional sign, followed by digits, is read as it stands. -/
theorem int_of_digits {cs : List ℕ} (hne : cs ≠ []) (h : ∀ c ∈ cs, isDigit c)
    (hlen : cs.length ≤ maxStrDigits) (negative : Bool) :
    int ((if negative then [45] else []) ++ cs) =
      some (if negative then -(ofDigits (cs.map (· - 48)) : ℤ)
        else ofDigits (cs.map (· - 48))) := by
  have hmap : cs.map toAscii = cs := List.map_congr_left (g := id)
    (fun c hc => (digit_facts (h c hc)).1) |>.trans (List.map_id cs)
  obtain ⟨c, cs, rfl⟩ := List.exists_cons_of_ne_nil hne
  obtain ⟨-, hspace, hminus, hplus⟩ := digit_facts (h c List.mem_cons_self)
  have hdigits := takeDigits_of_digits hne h
  cases negative with
  | true =>
      have hsign : toAscii 45 = 45 := rfl
      have h45 : isSpace 45 = false := rfl
      simpa [int, hmap, hsign, h45, takeSign, hdigits] using hlen
  | false => simpa [int, hmap, hspace, takeSign, hminus, hplus, hdigits] using hlen

/-- Reading back a written integer. -/
theorem int_strInt {n : ℤ} {text : Str} (h : strInt n = some text) : int text = some n := by
  unfold strInt at h
  split at h
  · next hlen =>
    cases h
    have hread := int_of_digits (digitsOf_ne_nil n.natAbs) (fun c hc => isDigit_of_mem_digitsOf hc)
      (by simpa [digitsOf] using hlen) (decide (n < 0))
    rw [ofDigits_digitsOf] at hread
    simp only [decide_eq_true_eq] at hread
    rw [hread]
    congr 1
    split <;> omega
  · cases h

/-- What is read as digits are digits. -/
theorem lt_ten_of_takeDigits {cs ds rest : List ℕ} (h : takeDigits cs = some (ds, rest)) :
    ∀ d ∈ ds, d < 10 := by
  have hlt : ∀ {c : ℕ}, isDigit c → c - 48 < 10 := by
    intro c hc
    simp only [isDigit, Bool.and_eq_true, decide_eq_true_eq] at hc
    omega
  -- an underscore is skipped, every other character has to be a digit
  fun_induction takeDigits cs generalizing ds rest with
  | case1 => cases h
  | case2 c hc =>
      cases h
      intro d hd
      rw [List.mem_singleton.mp hd]
      exact hlt hc
  | case3 => cases h
  | case4 c cs hc ih | case5 c u cs hc _ _ ih =>
      obtain ⟨⟨ds', rest'⟩, hds, heq⟩ := Option.map_eq_some_iff.mp h
      cases heq
      intro d hd
      rcases List.mem_cons.mp hd with rfl | hd
      · exact hlt hc
      · exact ih hds d hd
  | case6 c u rest hc =>
      cases h
      intro d hd
      rw [List.mem_singleton.mp hd]
      exact hlt hc
  | case7 => cases h

/-- A number with `k` digits is less than `10 ^ k`. -/
theorem ofDigits_lt {ds : List ℕ} (h : ∀ d ∈ ds, d < 10) : ofDigits ds < 10 ^ ds.length := by
  have hfold : ∀ (ds : List ℕ) (n : ℕ), (∀ d ∈ ds, d < 10) →
      ds.foldl (fun n d => 10 * n + d) n < (n + 1) * 10 ^ ds.length := by
    intro ds
    induction ds with
    | nil => intro n _; simp
    | cons d ds ih =>
        intro n h
        have hd := h d List.mem_cons_self
        calc (d :: ds).foldl (fun n d => 10 * n + d) n
            < (10 * n + d + 1) * 10 ^ ds.length :=
              ih _ fun d hd => h d (List.mem_cons_of_mem _ hd)
          _ ≤ (10 * (n + 1)) * 10 ^ ds.length := Nat.mul_le_mul_right _ (by omega)
          _ = (n + 1) * 10 ^ (d :: ds).length := by rw [List.length_cons, pow_succ]; ring
  simpa [ofDigits] using hfold ds 0 h

/-- An integer that was read has no more digits than a written integer can have. -/
theorem natAbs_lt_of_int {n : ℤ} {text : Str} (h : int text = some n) :
    n.natAbs < 10 ^ maxStrDigits := by
  unfold int at h
  dsimp only at h
  split at h
  · next ds rest hds =>
    split at h
    · next hlen =>
      simp only [Bool.and_eq_true, decide_eq_true_eq] at hlen
      have hlt : ofDigits ds < 10 ^ maxStrDigits :=
        (ofDigits_lt (lt_ten_of_takeDigits hds)).trans_le (Nat.pow_le_pow_right (by omega) hlen.2)
      have habs : n.natAbs = ofDigits ds := by
        rw [← Option.some.inj h]
        split <;> simp
      rwa [habs]
    · cases h
  · cases h

/-- An integer below the limit can be written. -/
theorem strInt_isSome {n : ℤ} (h : n.natAbs < 10 ^ maxStrDigits) : (strInt n).isSome := by
  have hlen :=
    (Nat.length_toDigits_le_iff (b := 10) (by decide) (by decide : 0 < maxStrDigits)).mpr h
  rw [strInt, if_pos hlen]
  rfl

/-- ASCII bytes decode to themselves. -/
theorem decode_encodeAscii {text : Str} (h : ∀ c ∈ text, c < 128) :
    decode (encodeAscii text) = some text := by
  unfold decode encodeAscii
  rw [List.map_map]
  induction text with
  | nil => rfl
  | cons c text ih =>
      have hc := h c List.mem_cons_self
      have hbyte : (UInt8.ofNat c).toNat = c := by
        rw [UInt8.toNat_ofNat']
        exact Nat.mod_eq_of_lt (by omega)
      have hrest := ih fun c hc => h c (List.mem_cons_of_mem _ hc)
      rw [List.map_cons, Function.comp_apply, hbyte, decodeUtf8.eq_def]
      dsimp only
      rw [if_pos (by omega), hrest]
      rfl

/-- A written integer is ASCII. -/
theorem ascii_of_strInt {n : ℤ} {text : Str} (h : strInt n = some text) : ∀ c ∈ text, c < 128 := by
  unfold strInt at h
  split at h
  · cases h
    intro c hc
    rcases List.mem_append.mp hc with hc | hc
    · split at hc
      · rw [List.mem_singleton.mp hc]
        decide
      · cases hc
    · have hdigit := isDigit_of_mem_digitsOf hc
      simp only [isDigit, Bool.and_eq_true, decide_eq_true_eq] at hdigit
      omega
  · cases h

end Python
