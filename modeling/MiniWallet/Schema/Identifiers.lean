import Mathlib.Tactic.IntervalCases
import MiniWallet.Python.Numbers
import MiniWallet.Schema.Values

/-!
# Identifiers as text

Events carry identifiers as text, and consumers read them back with `uuid.UUID`. The constructor
accepts more than the canonical form; what matters is that it reads the canonical form back.

* `UUID.parse_str`: reading the canonical text of an identifier gives the identifier.
* `UUID.str_injective`: different identifiers have different texts.
* `systemAccountId_str_lt`: the system account comes first in the order of the texts.
-/

namespace MiniWallet

open Numeric Python

namespace UUID

/-- `uuid.UUID(text)`, for a text given by its code points. -/
def ofText (text : Str) : Option UUID :=
  let bare := remove (ascii "uuid:") (remove (ascii "urn:") text)
  let hex := remove (ascii "-") (stripped (fun c => c == 123 || c == 125) bare)
  if hex.length ≠ 32 then none
  else (int16 hex).bind fun n =>
    if 0 ≤ n ∧ n < 2 ^ 128 then some ⟨BitVec.ofInt 128 n⟩ else none

/-- `uuid.UUID(text)`; `none` is a `ValueError`. -/
def parse (text : String) : Option UUID := ofText (codePoints text)

end UUID

/-- The value of a hexadecimal digit that was written. -/
theorem hexValue_digitChar {d : ℕ} (h : d < 16) : hexValue (Nat.digitChar d).toNat = some d := by
  interval_cases d <;> rfl

/-- The values of the hexadecimal digits of a number give the number. -/
theorem hexDigits_values (k n : ℕ) :
    ∃ ds : List ℕ, ((hexDigits k n).map Char.toNat).map hexValue = ds.map some ∧
      ds.foldl (fun m d => 16 * m + d) 0 = n % 16 ^ k := by
  induction k generalizing n with
  | zero => exact ⟨[], rfl, (Nat.mod_one n).symm⟩
  | succ k ih =>
      obtain ⟨ds, hvalues, hfold⟩ := ih (n / 16)
      refine ⟨ds ++ [n % 16], ?_, ?_⟩
      · simp only [hexDigits, List.map_append, hvalues, List.map_cons, List.map_nil]
        rw [hexValue_digitChar (Nat.mod_lt _ (by decide))]
      · rw [List.foldl_append, hfold, List.foldl_cons, List.foldl_nil, pow_succ', Nat.mod_mul,
          add_comm]

/-- A written number has as many digits as it is given. -/
@[simp]
theorem length_hexDigits (k n : ℕ) : (hexDigits k n).length = k := by
  induction k generalizing n with
  | zero => rfl
  | succ k ih => simp [hexDigits, ih]

/-- The groups of a canonical text put together again. -/
theorem append_groups {α : Type} (h : List α) :
    h.take 8 ++ ((h.drop 8).take 4 ++ ((h.drop 12).take 4 ++ ((h.drop 16).take 4 ++ h.drop 20))) =
      h := by
  have hnext (k : ℕ) : (h.drop k).take 4 ++ h.drop (k + 4) = h.drop k := by
    rw [← List.drop_drop, List.take_append_drop]
  rw [hnext 16, hnext 12, hnext 8, List.take_append_drop]

namespace UUID

/-- Reading the canonical text of an identifier gives the identifier. -/
theorem parse_str (u : UUID) : parse u.str = some u := by
  obtain ⟨ds, hvalues, hfold⟩ := hexDigits_values 32 u.bits.toNat
  let hex := (hexDigits 32 u.bits.toNat).map Char.toNat
  have hlen : hex.length = 32 := by simp [hex]
  have hsome : ∀ c ∈ hex, (hexValue c).isSome := by
    intro c hc
    have hmem : hexValue c ∈ ds.map some := hvalues ▸ List.mem_map_of_mem hc
    obtain ⟨d, -, hd⟩ := List.mem_map.mp hmem
    simp [← hd]
  -- the text consists of these digits and hyphens
  have htext : codePoints u.str = hex.take 8 ++ 45 :: ((hex.drop 8).take 4 ++ 45 ::
      ((hex.drop 12).take 4 ++ 45 :: ((hex.drop 16).take 4 ++ 45 :: hex.drop 20))) := by
    rw [str, codePoints_ofList]
    simp [hex, List.map_take, List.map_drop]
  have hmem : ∀ c ∈ codePoints u.str, c ∈ hex ∨ c = 45 := by
    intro c hc
    rw [htext] at hc
    simp only [List.mem_append, List.mem_cons] at hc
    rcases hc with hc | rfl | hc | rfl | hc | rfl | hc | rfl | hc
    · exact .inl (List.mem_of_mem_take hc)
    · exact .inr rfl
    · exact .inl (List.mem_of_mem_drop (List.mem_of_mem_take hc))
    · exact .inr rfl
    · exact .inl (List.mem_of_mem_drop (List.mem_of_mem_take hc))
    · exact .inr rfl
    · exact .inl (List.mem_of_mem_drop (List.mem_of_mem_take hc))
    · exact .inr rfl
    · exact .inl (List.mem_of_mem_drop hc)
  have hsmall : ∀ c ∈ codePoints u.str, c < 117 := by
    intro c hc
    rcases hmem c hc with hc | rfl
    · exact (hex_facts (hsome c hc)).2.2.2.2.2.2.2
    · decide
  have hdigits : remove [45] (codePoints u.str) = hex := by
    have hkeep : ∀ l : List ℕ, (∀ c ∈ l, c ∈ hex) → l.filter (· ≠ 45) = l := by
      intro l hl
      refine List.filter_eq_self.mpr fun c hc => ?_
      simpa using (hex_facts (hsome c (hl c hc))).2.2.2.1
    rw [remove_singleton, htext]
    simp only [List.filter_append, List.filter_cons, ne_eq, not_true_eq_false, decide_false,
      Bool.false_eq_true, if_false]
    simp only [← ne_eq]
    rw [hkeep _ fun c hc => List.mem_of_mem_take hc,
      hkeep _ fun c hc => List.mem_of_mem_drop (List.mem_of_mem_take hc),
      hkeep _ fun c hc => List.mem_of_mem_drop (List.mem_of_mem_take hc),
      hkeep _ fun c hc => List.mem_of_mem_drop (List.mem_of_mem_take hc),
      hkeep _ fun c hc => List.mem_of_mem_drop hc, append_groups]
  have hclean : remove (ascii "uuid:") (remove (ascii "urn:") (codePoints u.str)) =
      codePoints u.str := by
    have hnot : 117 ∉ codePoints u.str := fun hc => absurd (hsmall 117 hc) (by decide)
    rw [show ascii "urn:" = 117 :: ascii "rn:" from rfl, remove_of_not_mem hnot,
      show ascii "uuid:" = 117 :: ascii "uid:" from rfl, remove_of_not_mem hnot]
  have hstripped : stripped (fun c => c == 123 || c == 125) (codePoints u.str) =
      codePoints u.str := by
    refine stripped_of_forall fun c hc => ?_
    have := hsmall c hc
    simp only [Bool.or_eq_false_iff, beq_eq_false_iff_ne]
    omega
  have hne : hex ≠ [] := List.ne_nil_of_length_pos (by omega)
  have hbits : u.bits.toNat % 16 ^ 32 = u.bits.toNat := Nat.mod_eq_of_lt u.bits.isLt
  have hread : int16 hex = some (u.bits.toNat : ℤ) := by
    rw [int16_hex hne hvalues, hfold, hbits]
  have hlt : (u.bits.toNat : ℤ) < 2 ^ 128 := by exact_mod_cast u.bits.isLt
  rw [parse, ofText, hclean, hstripped, show ascii "-" = [45] from rfl, hdigits]
  rw [if_neg (not_not_intro hlen), hread, Option.bind_some,
    if_pos ⟨Int.natCast_nonneg _, hlt⟩, BitVec.ofInt_natCast, BitVec.ofNat_toNat,
    BitVec.setWidth_eq]

/-- Different identifiers have different texts. -/
theorem str_injective : Function.Injective str := by
  intro u v h
  have hparse := congrArg parse h
  rw [parse_str, parse_str] at hparse
  exact Option.some.inj hparse

end UUID

/-- The text of an identifier has 36 characters. -/
theorem length_uuid (id : UUID) : id.str.length = 36 := by
  have hdigits := length_hexDigits 32 id.bits.toNat
  rw [UUID.str]
  generalize hexDigits 32 id.bits.toNat = digits at hdigits ⊢
  rw [String.length_ofList]
  simp only [List.length_append, List.length_cons, List.length_take, List.length_drop, hdigits]
  rfl

/-! ## The order of the texts -/

/-- A text that is nowhere above another one is not after it. -/
theorem not_lt_of_forall₂ {as bs : List Char} (h : List.Forall₂ (fun a b => ¬ b < a) as bs) :
    ¬ bs < as := by
  induction h with
  | nil => exact List.not_lt_nil _
  | cons hhead _ ih =>
      rw [List.cons_lt_cons_iff]
      rintro (hlt | ⟨-, hlt⟩)
      · exact hhead hlt
      · exact ih hlt

/-- No digit is before zero. -/
theorem not_digitChar_lt {d : ℕ} (h : d < 16) : ¬ Nat.digitChar d < '0' := by
  interval_cases d <;> decide

/-- The digits of zero are nowhere above those of another number. -/
theorem forall₂_hexDigits_zero (k n : ℕ) :
    List.Forall₂ (fun a b => ¬ b < a) (hexDigits k 0) (hexDigits k n) := by
  induction k generalizing n with
  | zero => exact .nil
  | succ k ih =>
      refine List.rel_append (ih (n / 16)) (.cons ?_ .nil)
      exact not_digitChar_lt (Nat.mod_lt _ (by decide))

/-- The system account comes first in the order of the texts. -/
theorem systemAccountId_str_lt {u : UUID} (h : u ≠ systemAccountId) :
    systemAccountId.str < u.str := by
  have hdigits := forall₂_hexDigits_zero 32 u.bits.toNat
  have hnot : ¬ u.str < systemAccountId.str := by
    rw [String.lt_iff, UUID.str, UUID.str, String.toList_ofList, String.toList_ofList]
    refine not_lt_of_forall₂ ?_
    have hhyphen : ¬ '-' < '-' := by decide
    have htake := List.forall₂_take 4 (List.forall₂_drop 8 hdigits)
    have htake' := List.forall₂_take 4 (List.forall₂_drop 12 hdigits)
    have htake'' := List.forall₂_take 4 (List.forall₂_drop 16 hdigits)
    exact List.rel_append (List.forall₂_take 8 hdigits) (.cons hhyphen (List.rel_append htake
      (.cons hhyphen (List.rel_append htake' (.cons hhyphen (List.rel_append htake''
        (.cons hhyphen (List.forall₂_drop 20 hdigits))))))))
  refine String.not_le.mp fun hle => h (UUID.str_injective ?_)
  exact String.le_antisymm hle (String.not_lt.mp hnot)

end MiniWallet
