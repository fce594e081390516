import MiniWallet.Schema.JsonText

/-!
# Printable texts

A text of printable characters contains no null character, so every text column and every JSONB
document can store it. What the wallet writes out itself, identifiers and amounts, is printable.

* `hasNull_uuid`, `hasNull_money`, `hasNull_str`: such texts contain no null character.
-/

namespace MiniWallet

open Numeric Python

/-- Every character of the list is printable. -/
def Printable (cs : List Char) : Prop := ∀ c ∈ cs, 32 ≤ c.toNat

namespace Printable

variable {cs ds : List Char}

/-- A printable character before a printable text. -/
theorem cons {c : Char} (hc : 32 ≤ c.toNat) (h : Printable cs) : Printable (c :: cs) :=
  List.forall_mem_cons.mpr ⟨hc, h⟩

/-- Two printable texts. -/
theorem append (h : Printable cs) (h' : Printable ds) : Printable (cs ++ ds) :=
  List.forall_mem_append.mpr ⟨h, h'⟩

/-- A part of a printable text. -/
theorem sublist (h : Printable cs) (hsub : List.Sublist ds cs) : Printable ds :=
  fun c hc => h c (hsub.subset hc)

/-- A printable text contains no null character. -/
theorem hasNull (h : Printable cs) : hasNull (String.ofList cs) = false := by
  have hnull : Char.ofNat 0 ∉ cs := by
    intro hmem
    have hzero : 32 ≤ (Char.ofNat 0).toNat := h _ hmem
    revert hzero
    decide
  rw [MiniWallet.hasNull, String.toList_ofList]
  simpa using hnull

end Printable

/-- Decimal digits are printable. -/
theorem printable_toDigits (n : ℕ) : Printable (Nat.toDigits 10 n) := by
  intro c hc
  have hdigit := isDigit_of_mem_digitsOf (List.mem_map_of_mem (f := Char.toNat) hc)
  have hbounds : 48 ≤ c.toNat ∧ c.toNat ≤ 57 := by
    simpa [isDigit] using hdigit
  omega

/-- Zeros are printable. -/
theorem printable_zeros (k : ℕ) : Printable (List.replicate k '0') := by
  intro c hc
  obtain rfl := List.eq_of_mem_replicate hc
  decide

/-- The sign of a decimal is printable. -/
theorem printable_signChars (d : Decimal) : Printable d.signChars := by
  unfold Decimal.signChars
  split
  · exact .cons (by decide) fun c hc => nomatch hc
  · exact fun c hc => nomatch hc

/-- The text of an identifier contains no null character. -/
theorem hasNull_uuid (u : UUID) : hasNull u.str = false := by
  have hdigits : Printable (hexDigits 32 u.bits.toNat) := fun c hc =>
    (hexDigits_printable _ _ c hc).1
  have hdash : 32 ≤ ('-' : Char).toNat := by decide
  have hgroup (k n : ℕ) : Printable (((hexDigits 32 u.bits.toNat).drop k).take n) :=
    hdigits.sublist ((List.take_sublist _ _).trans (List.drop_sublist _ _))
  exact ((hdigits.sublist (List.take_sublist _ _)).append <| .cons hdash <| (hgroup 8 4).append <|
    .cons hdash <| (hgroup 12 4).append <| .cons hdash <| (hgroup 16 4).append <|
    .cons hdash (hdigits.sublist (List.drop_sublist _ _))).hasNull

/-- An amount that is printed with four places contains no null character. -/
theorem hasNull_money (d : Decimal) : hasNull (money d) = false :=
  ((printable_signChars d).append (printable_toDigits _) |>.append <| .cons (by decide) <|
    (printable_zeros _).append (printable_toDigits _)).hasNull

/-- The characters of an amount that is printed as it is. -/
theorem forall_mem_str {P : Char → Prop} (hdigits : ∀ n, ∀ c ∈ Nat.toDigits 10 n, P c)
    (hmarks : ∀ c ∈ ['0', '.', '-', '+', 'E'], P c) (d : Decimal) : ∀ c ∈ d.str.toList, P c := by
  have hzeros (k : ℕ) : ∀ c ∈ List.replicate k '0', P c := fun c hc =>
    List.eq_of_mem_replicate hc ▸ hmarks '0' (by decide)
  have hint := hdigits d.digits
  unfold Decimal.str
  dsimp only
  -- where the point stands does not matter
  generalize (if d.exponent ≤ 0 ∧ -6 < d.exponent + ((Nat.toDigits 10 d.digits).length : ℤ) then
    d.exponent + ((Nat.toDigits 10 d.digits).length : ℤ) else 1) = dotPlace
  rw [String.toList_ofList, List.forall_mem_append, List.forall_mem_append]
  refine ⟨⟨?_, ?_⟩, ?_⟩
  · unfold Decimal.signChars
    split
    · exact List.forall_mem_singleton.mpr (hmarks '-' (by decide))
    · exact fun c hc => nomatch hc
  · split
    · exact List.forall_mem_cons.mpr ⟨hmarks '0' (by decide), List.forall_mem_cons.mpr
        ⟨hmarks '.' (by decide), List.forall_mem_append.mpr ⟨hzeros _, hint⟩⟩⟩
    · split
      · exact List.forall_mem_append.mpr ⟨hint, hzeros _⟩
      · exact List.forall_mem_append.mpr ⟨fun c hc => hint c (List.mem_of_mem_take hc),
          List.forall_mem_cons.mpr ⟨hmarks '.' (by decide), fun c hc =>
            hint c (List.mem_of_mem_drop hc)⟩⟩
  · split
    · exact fun c hc => nomatch hc
    · refine List.forall_mem_cons.mpr ⟨hmarks 'E' (by decide), List.forall_mem_cons.mpr
        ⟨?_, hdigits _⟩⟩
      split
      · exact hmarks '-' (by decide)
      · exact hmarks '+' (by decide)

/-- An amount that is printed as it is contains no null character. -/
theorem hasNull_str (d : Decimal) : hasNull d.str = false := by
  have hprintable : Printable d.str.toList := forall_mem_str printable_toDigits (by simp) d
  rw [← String.ofList_toList (s := d.str)]
  exact hprintable.hasNull

end MiniWallet
