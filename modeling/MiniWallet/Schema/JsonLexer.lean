import MiniWallet.Schema.JsonText

/-!
# Where the strings of a JSON text are

Reading a text from the left, a quote opens or closes a string, and inside of a string a backslash
protects the next character. Outside of strings only few characters can stand.

* `Lexer.scan`: the state after a text, and `none` if a character stands outside that cannot.
* `Opposite.scan`: a text cannot be read from outside of strings and from inside of one so that both
  readings end outside.
* `scan_render`: a document is read from outside to outside.
-/

namespace MiniWallet

/-! ## The states of a reader -/

/-- Whether a reader is outside of strings or inside of one. -/
inductive Lexer
  | outside
  | inside
  /-- After a backslash inside of a string. -/
  | escaped
deriving DecidableEq, Repr

/-- The characters that stand outside of strings: those of brackets, separators, numbers and
constants. -/
def bareChars : List Char := "{}[],: 0123456789+-.eEtrufalsnNIiy".toList

namespace Lexer

/-- The state after one more character. -/
def next : Lexer → Char → Option Lexer
  | outside, c =>
      if c = '"' then some inside else if c ∈ bareChars then some outside else none
  | inside, c =>
      if c = '"' then some outside else if c = '\\' then some escaped else some inside
  | escaped, _ => some inside

/-- The state after a text. -/
def scan (s : Lexer) (cs : List Char) : Option Lexer := cs.foldlM next s

/-- Nothing is left to scan. -/
@[simp]
theorem scan_nil (s : Lexer) : s.scan [] = some s := rfl

/-- The characters are scanned one after the other. -/
@[simp]
theorem scan_cons (s : Lexer) (c : Char) (cs : List Char) :
    s.scan (c :: cs) = (s.next c).bind fun s' => s'.scan cs :=
  List.foldlM_cons

/-- A text is scanned in two parts. -/
@[simp]
theorem scan_append (s : Lexer) (cs ds : List Char) :
    s.scan (cs ++ ds) = (s.scan cs).bind fun s' => s'.scan ds :=
  List.foldlM_append

/-- Characters that can stand outside of strings leave the reader there. -/
theorem scan_bare {cs : List Char} (h : ∀ c ∈ cs, c ∈ bareChars) :
    outside.scan cs = some outside := by
  induction cs with
  | nil => rfl
  | cons c cs ih =>
      obtain ⟨hc, hcs⟩ := List.forall_mem_cons.mp h
      have hquote : c ≠ '"' := by
        rintro rfl
        exact absurd hc (by decide)
      rw [scan_cons, next, if_neg hquote, if_pos hc, Option.bind_some, ih hcs]

/-- Characters other than quotes and backslashes leave the reader inside of a string. -/
theorem scan_plain {cs : List Char} (h : ∀ c ∈ cs, c ≠ '"' ∧ c ≠ '\\') :
    inside.scan cs = some inside := by
  induction cs with
  | nil => rfl
  | cons c cs ih =>
      obtain ⟨⟨hquote, hbackslash⟩, hcs⟩ := List.forall_mem_cons.mp h
      rw [scan_cons, next, if_neg hquote, if_neg hbackslash, Option.bind_some, ih hcs]

/-- One reader is outside of strings where the other one is inside. -/
def Opposite (s s' : Lexer) : Prop := (s = outside ∧ s' = inside) ∨ (s = inside ∧ s' = outside)

/-- Being opposite is symmetric. -/
theorem Opposite.symm {s s' : Lexer} (h : Opposite s s') : Opposite s' s := by
  rcases h with ⟨rfl, rfl⟩ | ⟨rfl, rfl⟩
  · exact .inr ⟨rfl, rfl⟩
  · exact .inl ⟨rfl, rfl⟩

/-- A quote takes both readers to the other side. A backslash cannot stand outside, and any other
character leaves both where they are. -/
theorem Opposite.next {s s' t t' : Lexer} {c : Char} (h : Opposite s s') (ht : s.next c = some t)
    (ht' : s'.next c = some t') : Opposite t t' := by
  have hside {t t' : Lexer} (ht : outside.next c = some t) (ht' : inside.next c = some t') :
      Opposite t t' := by
    have hbackslash : '\\' ∉ bareChars := by decide
    simp only [Lexer.next] at ht ht'
    split_ifs at ht ht' with hquote hbare hescape
    · cases ht
      cases ht'
      exact .inr ⟨rfl, rfl⟩
    · exact absurd (hescape ▸ hbare) hbackslash
    · cases ht
      cases ht'
      exact .inl ⟨rfl, rfl⟩
  rcases h with ⟨rfl, rfl⟩ | ⟨rfl, rfl⟩
  · exact hside ht ht'
  · exact (hside ht' ht).symm

/-- Two readers of one text that start on different sides end on different sides. -/
theorem Opposite.scan {s s' t t' : Lexer} {cs : List Char} (h : Opposite s s')
    (ht : s.scan cs = some t) (ht' : s'.scan cs = some t') : Opposite t t' := by
  induction cs generalizing s s' with
  | nil =>
      cases ht
      cases ht'
      exact h
  | cons c cs ih =>
      rw [scan_cons, Option.bind_eq_some_iff] at ht ht'
      obtain ⟨u, hu, ht⟩ := ht
      obtain ⟨u', hu', ht'⟩ := ht'
      exact ih (h.next hu hu') ht ht'

end Lexer

/-! ## Documents -/

/-- The text is one that `json.dumps` writes for a number. Nothing is lost by allowing more texts
made of the same characters. -/
def isNumeral (literal : String) : Bool :=
  ["NaN", "Infinity", "-Infinity"].contains literal ||
    literal.toList.all fun c => c.isDigit || ['+', '-', '.', 'e', 'E'].contains c

namespace Json

mutual

/-- Every number of the document is written as a number. -/
def numerals : Json → Bool
  | num literal => isNumeral literal
  | arr xs => numeralsElements xs
  | obj items => numeralsItems items
  | _ => true

/-- `numerals` for every element of an array. -/
def numeralsElements : List Json → Bool
  | [] => true
  | x :: xs => numerals x && numeralsElements xs

/-- `numerals` for every value of an object. -/
def numeralsItems : List (String × Json) → Bool
  | [] => true
  | (_, v) :: items => numerals v && numeralsItems items

end

end Json

open Lexer

/-- The characters of a number can stand outside of strings. -/
theorem isNumeral_bare {literal : String} (h : isNumeral literal) :
    ∀ c ∈ literal.toList, c ∈ bareChars := by
  rw [isNumeral, Bool.or_eq_true] at h
  -- a constant
  rcases h with h | h
  · have hconstants : ["NaN", "Infinity", "-Infinity"].all (fun s =>
        s.toList.all (bareChars.contains ·)) = true := by decide
    have hliteral := List.all_eq_true.mp hconstants literal (List.contains_iff_mem.mp h)
    exact fun c hc => List.contains_iff_mem.mp (List.all_eq_true.mp hliteral c hc)
  · -- or characters that are digits or marks
    intro c hc
    have hc := List.all_eq_true.mp h c hc
    rw [Bool.or_eq_true] at hc
    rcases hc with hdigit | hmark
    · have hdigits : ∀ n < 10, Char.ofNat (48 + n) ∈ bareChars := by decide
      obtain ⟨hlow, hhigh⟩ : 48 ≤ c.toNat ∧ c.toNat ≤ 57 := by
        simpa [Char.isDigit, UInt32.le_iff_toNat_le] using hdigit
      -- a digit is one of ten characters
      have hc : c = Char.ofNat (48 + (c.toNat - 48)) := by
        rw [Nat.add_sub_cancel' hlow, Char.ofNat_toNat]
      exact hc ▸ hdigits _ (by omega)
    · have hmarks : ['+', '-', '.', 'e', 'E'].all (bareChars.contains ·) = true := by decide
      exact List.contains_iff_mem.mp
        (List.all_eq_true.mp hmarks c (List.contains_iff_mem.mp hmark))

/-- Hexadecimal digits are no quotes or backslashes. -/
theorem hexDigits_plain (k n : ℕ) : ∀ c ∈ hexDigits k n, c ≠ '"' ∧ c ≠ '\\' := by
  induction k generalizing n with
  | zero => exact fun c hc => nomatch hc
  | succ k ih =>
      have hdigit : ∀ d < 16, Nat.digitChar d ≠ '"' ∧ Nat.digitChar d ≠ '\\' := by decide
      rw [hexDigits, List.forall_mem_append]
      exact ⟨ih _, List.forall_mem_singleton.mpr (hdigit _ (Nat.mod_lt _ (by decide)))⟩

/-- An escape does not leave the string. -/
theorem scan_escape (e : Char) (cs : List Char) :
    inside.scan ('\\' :: e :: cs) = inside.scan cs := by
  have hquote : '\\' ≠ '"' := by decide
  rw [scan_cons, Lexer.next, if_neg hquote, if_pos rfl, Option.bind_some, scan_cons, Lexer.next,
    Option.bind_some]

/-- An escaped code unit is read inside of a string. -/
theorem scan_unicodeEscape (n : ℕ) : inside.scan (Json.unicodeEscape n) = some inside := by
  rw [Json.unicodeEscape, scan_escape]
  exact scan_plain (hexDigits_plain 4 n)

/-- A character of a string is read inside of it. -/
theorem scan_escapeChar (c : Char) : inside.scan (Json.escapeChar c) = some inside := by
  unfold Json.escapeChar
  split_ifs with hquote hbackslash
  · exact scan_escape _ []
  · exact scan_escape _ []
  · exact scan_escape _ []
  · exact scan_escape _ []
  · exact scan_escape _ []
  · exact scan_escape _ []
  · exact scan_escape _ []
  · exact scan_plain (List.forall_mem_singleton.mpr ⟨hquote, hbackslash⟩)
  · exact scan_unicodeEscape _
  · rw [scan_append, scan_unicodeEscape, Option.bind_some, scan_unicodeEscape]

/-- A string is read from outside to outside. -/
theorem scan_quote (s : String) : outside.scan (Json.quote s) = some outside := by
  have hchars (cs : List Char) : inside.scan (cs.flatMap Json.escapeChar) = some inside := by
    induction cs with
    | nil => rfl
    | cons c cs ih => rw [List.flatMap_cons, scan_append, scan_escapeChar, Option.bind_some, ih]
  rw [Json.quote, scan_cons]
  dsimp only [Lexer.next]
  rw [if_pos rfl, Option.bind_some, scan_append, hchars]
  rfl

/-- A character that stands outside of strings, before a text that is read from outside. -/
theorem scan_bare_cons {c : Char} (h : c ∈ bareChars) (cs : List Char) :
    outside.scan (c :: cs) = outside.scan cs := by
  rw [← List.singleton_append, scan_append, scan_bare (List.forall_mem_singleton.mpr h),
    Option.bind_some]

mutual

/-- A document is read from outside to outside. -/
theorem scan_render : ∀ (j : Json), j.numerals → outside.scan j.render = some outside
  | .null, _ | .bool true, _ | .bool false, _ => rfl
  | .num literal, h => scan_bare (isNumeral_bare h)
  | .str s, _ => scan_quote s
  | .arr xs, h => by
      rw [Json.render, scan_bare_cons (by decide), scan_append, scan_renderElements xs h]
      rfl
  | .obj items, h => by
      rw [Json.render, scan_bare_cons (by decide), scan_append, scan_renderItems items h]
      rfl

/-- The elements of an array are read from outside to outside. -/
theorem scan_renderElements : ∀ (xs : List Json), Json.numeralsElements xs →
    outside.scan (Json.renderElements xs) = some outside
  | [], _ => rfl
  | [x], h => by
      rw [Json.numeralsElements, Bool.and_eq_true] at h
      exact scan_render x h.1
  | x :: y :: xs, h => by
      rw [Json.numeralsElements, Bool.and_eq_true] at h
      rw [Json.renderElements, scan_append, scan_render x h.1, Option.bind_some,
        scan_bare_cons (by decide), scan_bare_cons (by decide)]
      exact scan_renderElements (y :: xs) h.2

/-- The items of an object are read from outside to outside. -/
theorem scan_renderItems : ∀ (items : List (String × Json)), Json.numeralsItems items →
    outside.scan (Json.renderItems items) = some outside
  | [], _ => rfl
  | [(k, v)], h => by
      rw [Json.numeralsItems, Bool.and_eq_true] at h
      rw [Json.renderItems, scan_append, scan_quote, Option.bind_some, scan_bare_cons (by decide),
        scan_bare_cons (by decide)]
      exact scan_render v h.1
  | (k, v) :: item :: items, h => by
      rw [Json.numeralsItems, Bool.and_eq_true] at h
      rw [Json.renderItems, scan_append, scan_quote, Option.bind_some, scan_bare_cons (by decide),
        scan_bare_cons (by decide), scan_append, scan_render v h.1, Option.bind_some,
        scan_bare_cons (by decide), scan_bare_cons (by decide)]
      exact scan_renderItems (item :: items) h.2

end

end MiniWallet
