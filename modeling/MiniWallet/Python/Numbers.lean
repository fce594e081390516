import Mathlib.Data.List.DropRight
import MiniWallet.Numeric.Render
import MiniWallet.Python.Text

/-!
# Reading numbers

Texts that an event carries are turned back into numbers: hexadecimal integers, as `int(text, 16)`
reads them, and decimals, as `Decimal(text)` does.

* `int16_hex`: the hexadecimal digits of a number are read as that number.
* `decimal_str`: reading what `str` wrote gives back the decimal itself.
* `decimal_formatFixed`: reading what `formatFixed` printed gives the decimal rounded half to even.
-/

namespace Python

open Numeric

/-- The code points of a text. -/
def codePoints (s : String) : Str := s.toList.map Char.toNat

/-! ## Texts -/

/-- `text.replace(pattern, "")`, for a pattern that is not empty. The first argument is the number
of characters that are left of an occurrence of the pattern. -/
def removeFrom (pattern : Str) : ℕ → Str → Str
  | _, [] => []
  | n + 1, _ :: cs => removeFrom pattern n cs
  | 0, c :: cs =>
      if pattern.isPrefixOf (c :: cs) then removeFrom pattern (pattern.length - 1) cs
      else c :: removeFrom pattern 0 cs

/-- `text.replace(pattern, "")`. -/
def remove (pattern text : Str) : Str := removeFrom pattern 0 text

/-- A text without the characters at its ends that satisfy `p`. -/
def stripped (p : ℕ → Bool) (text : Str) : Str := (text.dropWhile p).rdropWhile p

/-! ## Hexadecimal integers -/

/-- The hexadecimal digits at the front of a text, with single underscores between them, and what
follows. -/
def takeHexDigits : List ℕ → Option (List ℕ × List ℕ)
  | [] => none
  | [c] => (hexValue c).map fun d => ([d], [])
  | c :: u :: rest =>
      match hexValue c with
      | none => none
      | some d =>
          if u = 95 then (takeHexDigits rest).map fun (ds, rest) => (d :: ds, rest)
          else if (hexValue u).isSome then
            (takeHexDigits (u :: rest)).map fun (ds, rest) => (d :: ds, rest)
          else some ([d], u :: rest)

/-- Drop the marker of a hexadecimal number, and one underscore behind it. -/
def dropHexMarker : List ℕ → List ℕ
  | 48 :: x :: rest =>
      if x = 120 ∨ x = 88 then
        match rest with
        | 95 :: rest => rest
        | rest => rest
      else 48 :: x :: rest
  | cs => cs

/-- `int(text, 16)`; `none` is a `ValueError`. -/
def int16 (text : Str) : Option ℤ :=
  let (negative, body) := takeSign ((text.map toAscii).dropWhile isSpace)
  match takeHexDigits (dropHexMarker body) with
  | some (ds, rest) =>
      let n : ℕ := ds.foldl (fun n d => 16 * n + d) 0
      if rest.all isSpace then some (if negative then -(n : ℤ) else n) else none
  | none => none

/-! ## Decimals -/

/-- What `str.strip` and the decimal constructor take for white space. -/
def isWhite (c : ℕ) : Bool := isSpace c || (28 ≤ c && c ≤ 31) || wideSpaces.contains c

/-- The digits before and after the point of a number without exponent. -/
def mantissa (cs : List ℕ) : Option (List ℕ × List ℕ) :=
  match cs.dropWhile isDigit with
  | [] => some (cs, [])
  | c :: fraction =>
      if c = 46 ∧ fraction.all isDigit then some (cs.takeWhile isDigit, fraction) else none

/-- The exponent of a number, from its marker on. -/
def exponent : List ℕ → Option ℤ
  | [] => some 0
  | _ :: cs =>
      let (negative, digits) := takeSign cs
      if digits ≠ [] ∧ digits.all isDigit then
        some (if negative then -(ofDigits (digits.map (· - 48)) : ℤ)
          else ofDigits (digits.map (· - 48)))
      else none

/-- `Decimal(text)`, for the text of a finite number; `none` for every other text. -/
def decimal (text : Str) : Option Decimal :=
  let cs := ((stripped isWhite text).filter (· ≠ 95)).map toAscii
  let (negative, body) := takeSign cs
  let isMarker (c : ℕ) : Bool := c == 69 || c == 101
  match mantissa (body.takeWhile fun c => !isMarker c),
      exponent (body.dropWhile fun c => !isMarker c) with
  | some (whole, fraction), some e =>
      if whole ++ fraction = [] then none
      else some ⟨negative, ofDigits ((whole ++ fraction).map (· - 48)), e - fraction.length⟩
  | _, _ => none

/-- Whether `Decimal(text)` is infinite, and then whether it is negative. -/
def infinity (text : Str) : Option Bool :=
  let cs := ((stripped isWhite text).filter (· ≠ 95)).map toAscii
  let (negative, body) := takeSign cs
  let lower := body.map fun c => if 65 ≤ c ∧ c ≤ 90 then c + 32 else c
  if lower = codePoints "inf" ∨ lower = codePoints "infinity" then some negative else none

/-! ## Texts that stay as they are -/

/-- Nothing is removed from a text without the first character of the pattern. -/
theorem remove_of_not_mem {p : ℕ} {ps text : Str} (h : p ∉ text) :
    remove (p :: ps) text = text := by
  unfold remove
  induction text with
  | nil => rfl
  | cons c cs ih =>
      rw [List.mem_cons, not_or] at h
      have hstart : (p :: ps).isPrefixOf (c :: cs) = false := by
        simp [List.isPrefixOf, h.1]
      rw [removeFrom, if_neg (by simp [hstart]), ih h.2]

/-- Removing a single character. -/
theorem remove_singleton (p : ℕ) (text : Str) : remove [p] text = text.filter (· ≠ p) := by
  unfold remove
  induction text with
  | nil => rfl
  | cons c cs ih =>
      by_cases hc : p = c
      · subst hc
        simpa [removeFrom, List.isPrefixOf] using ih
      · simp [removeFrom, List.isPrefixOf, hc, Ne.symm hc, ih]

/-- Nothing is stripped from a text without the characters in question. -/
theorem stripped_of_forall {p : ℕ → Bool} {text : Str} (h : ∀ c ∈ text, p c = false) :
    stripped p text = text := by
  have hdrop : text.dropWhile p = text := by
    cases text with
    | nil => rfl
    | cons c cs => exact List.dropWhile_cons_of_neg (by simp [h c List.mem_cons_self])
  rw [stripped, hdrop, List.rdropWhile_eq_self_iff]
  intro hne
  simp [h _ (List.getLast_mem hne)]

/-! ## Reading back hexadecimal digits -/

/-- A hexadecimal digit is an ASCII character, and none of those with a meaning of their own. -/
theorem hex_facts {c : ℕ} (h : (hexValue c).isSome) :
    toAscii c = c ∧ isSpace c = false ∧ c ≠ 43 ∧ c ≠ 45 ∧ c ≠ 95 ∧ c ≠ 88 ∧ c ≠ 120 ∧ c < 117 := by
  have hrange : 48 ≤ c ∧ c ≤ 57 ∨ 97 ≤ c ∧ c ≤ 102 ∨ 65 ≤ c ∧ c ≤ 70 := by
    unfold hexValue isDigit at h
    split at h
    · next hd => simp_all
    · split at h
      · next hd => exact .inr (.inl (by simpa using hd))
      · split at h
        · next hd => exact .inr (.inr (by simpa using hd))
        · cases h
  refine ⟨?_, ?_, ?_⟩
  · rw [toAscii, if_pos (by omega)]
  · simp only [isSpace, Bool.or_eq_false_iff, beq_eq_false_iff_ne, Bool.and_eq_false_iff,
      decide_eq_false_iff_not]
    omega
  · omega

/-- A text of hexadecimal digits is read to its end. -/
theorem takeHexDigits_of_digits {cs ds : List ℕ} (hne : cs ≠ [])
    (h : cs.map hexValue = ds.map some) : takeHexDigits cs = some (ds, []) := by
  induction cs generalizing ds with
  | nil => exact absurd rfl hne
  | cons c cs ih =>
      obtain ⟨d, ds, rfl⟩ : ∃ d ds', ds = d :: ds' := by
        cases ds with
        | nil => cases h
        | cons d ds => exact ⟨d, ds, rfl⟩
      simp only [List.map_cons, List.cons.injEq] at h
      cases cs with
      -- the last digit
      | nil =>
          obtain rfl : ds = [] := by simpa using h.2.symm
          simp [takeHexDigits, h.1]
      -- another digit follows, so there is no underscore here
      | cons u rest =>
          have hu : (hexValue u).isSome := by
            cases ds with
            | nil => simp at h
            | cons d' ds' => simp [(List.cons.inj h.2).1]
          obtain ⟨-, -, -, -, hunderscore, -⟩ := hex_facts hu
          rw [takeHexDigits, h.1]
          simp only [hunderscore, if_false, hu, if_true]
          rw [ih (List.cons_ne_nil _ _) h.2]
          rfl

/-- The hexadecimal digits of a number are read as that number. -/
theorem int16_hex {cs ds : List ℕ} (hne : cs ≠ []) (h : cs.map hexValue = ds.map some) :
    int16 cs = some ((ds.foldl (fun n d => 16 * n + d) 0 : ℕ) : ℤ) := by
  have hsome : ∀ c ∈ cs, (hexValue c).isSome := by
    intro c hc
    have hmem : hexValue c ∈ ds.map some := h ▸ List.mem_map_of_mem hc
    obtain ⟨d, -, hd⟩ := List.mem_map.mp hmem
    simp [← hd]
  -- hexadecimal digits are ASCII, so no other digits have to be mapped
  have hmap : cs.map toAscii = cs := List.map_congr_left (g := id)
    (fun c hc => (hex_facts (hsome c hc)).1) |>.trans (List.map_id cs)
  have hread := takeHexDigits_of_digits hne h
  -- there is nothing to strip: no space, no sign and no `0x`
  have hspaces : cs.dropWhile isSpace = cs := by
    cases cs with
    | nil => rfl
    | cons c cs =>
        exact List.dropWhile_cons_of_neg (by simp [(hex_facts (hsome c List.mem_cons_self)).2.1])
  have hsign : takeSign cs = (false, cs) := by
    cases cs with
    | nil => rfl
    | cons c cs =>
        obtain ⟨-, -, hplus, hminus, -⟩ := hex_facts (hsome c List.mem_cons_self)
        rw [takeSign, if_neg hminus, if_neg hplus]
  have hmarker : dropHexMarker cs = cs := by
    rcases cs with _ | ⟨c, _ | ⟨x, rest⟩⟩
    · rfl
    · unfold dropHexMarker
      split <;> simp_all
    · obtain ⟨-, -, -, -, -, hupper, hlower, -⟩ :=
        hex_facts (hsome x (List.mem_cons_of_mem _ List.mem_cons_self))
      unfold dropHexMarker
      split
      · next heq =>
        cases heq
        rw [if_neg (by simp [hupper, hlower])]
      · rfl
  simp only [int16, hmap, hspaces, hsign, hmarker, hread]
  simp

/-! ## Reading back decimals -/

/-- The characters that numbers are written with. -/
def isPlain (c : ℕ) : Bool := isDigit c || c == 43 || c == 45 || c == 46 || c == 69

/-- The characters of a number are read as they stand. -/
theorem plain_facts {c : ℕ} (h : isPlain c) : isWhite c = false ∧ c ≠ 95 ∧ toAscii c = c := by
  have hrange : 43 ≤ c ∧ c ≤ 69 := by
    simp only [isPlain, isDigit, Bool.or_eq_true, Bool.and_eq_true, decide_eq_true_eq,
      beq_iff_eq] at h
    omega
  refine ⟨?_, by omega, ?_⟩
  · have hwide : wideSpaces.contains c = false := by
      rw [List.contains_eq_mem, decide_eq_false_iff_not]
      intro hmem
      have hlow : ∀ z ∈ wideSpaces, 70 ≤ z := by decide
      have := hlow c hmem
      omega
    simp only [isWhite, isSpace, hwide, Bool.or_false, Bool.or_eq_false_iff, beq_eq_false_iff_ne,
      Bool.and_eq_false_iff, decide_eq_false_iff_not]
    omega
  · rw [toAscii, if_pos (by omega)]

/-- A text of such characters is read as it stands. -/
theorem plain_text {text : Str} (h : ∀ c ∈ text, isPlain c) :
    ((stripped isWhite text).filter (· ≠ 95)).map toAscii = text := by
  rw [stripped_of_forall fun c hc => (plain_facts (h c hc)).1,
    List.filter_eq_self.mpr fun c hc => by simp [(plain_facts (h c hc)).2.1]]
  exact (List.map_congr_left fun c hc => (plain_facts (h c hc)).2.2).trans (List.map_id' text)

/-- The digits before and after the point; without a point there is nothing behind it. -/
theorem mantissa_read {whole point fraction : List ℕ} (hwhole : ∀ c ∈ whole, isDigit c)
    (hfraction : ∀ c ∈ fraction, isDigit c)
    (hpoint : point = [] ∧ fraction = [] ∨ point = [46]) :
    mantissa (whole ++ (point ++ fraction)) = some (whole, fraction) := by
  rcases hpoint with ⟨rfl, rfl⟩ | rfl
  · have hdrop : whole.dropWhile isDigit = [] := List.dropWhile_eq_nil_iff.mpr hwhole
    simp [mantissa, hdrop]
  · have hdrop : (whole ++ 46 :: fraction).dropWhile isDigit = 46 :: fraction := by
      rw [List.dropWhile_append_of_pos hwhole]
      rfl
    have htake : (whole ++ 46 :: fraction).takeWhile isDigit = whole := by
      rw [List.takeWhile_append_of_pos hwhole]
      simp [isDigit]
    have hall : fraction.all isDigit = true := List.all_eq_true.mpr hfraction
    simp [mantissa, hdrop, htake, hall]

/-- The exponent of a number, if it has one. -/
inductive WrittenExponent : List ℕ → ℤ → Prop
  | absent : WrittenExponent [] 0
  | present (n : ℤ) : WrittenExponent (69 :: (if n < 0 then 45 else 43) :: digitsOf n.natAbs) n

/-- Reading back a written exponent. -/
theorem exponent_read {marks : List ℕ} {e : ℤ} (h : WrittenExponent marks e) :
    exponent marks = some e := by
  cases h with
  | absent => rfl
  | present =>
      have hall : (digitsOf e.natAbs).all isDigit = true :=
        List.all_eq_true.mpr fun c hc => isDigit_of_mem_digitsOf hc
      have hne := digitsOf_ne_nil e.natAbs
      have hsign : takeSign ((if e < 0 then 45 else 43) :: digitsOf e.natAbs) =
          (decide (e < 0), digitsOf e.natAbs) := by
        by_cases he : e < 0 <;> simp [takeSign, he]
      rw [exponent, hsign]
      simp only [ne_eq, hne, not_false_eq_true, hall, and_self, if_true, ofDigits_digitsOf,
        decide_eq_true_eq, Option.some.injEq]
      split <;> omega

/-- A written number is read as it stands. -/
theorem decimal_read {negative : Bool} {whole point fraction marks : List ℕ} {e : ℤ}
    (hwhole : ∀ c ∈ whole, isDigit c) (hne : whole ≠ []) (hfraction : ∀ c ∈ fraction, isDigit c)
    (hpoint : point = [] ∧ fraction = [] ∨ point = [46]) (hmarks : WrittenExponent marks e) :
    decimal ((if negative then [45] else []) ++ (whole ++ (point ++ fraction)) ++ marks) =
      some ⟨negative, ofDigits ((whole ++ fraction).map (· - 48)), e - fraction.length⟩ := by
  -- the characters of the body are neither a sign nor the mark of an exponent
  have hdigit : ∀ c, isDigit c → isPlain c ∧ (c == 69 || c == 101) = false := by
    intro c hc
    simp only [isDigit, Bool.and_eq_true, decide_eq_true_eq] at hc
    simp only [isPlain, isDigit, Bool.or_eq_true, Bool.and_eq_true, decide_eq_true_eq,
      Bool.or_eq_false_iff, beq_eq_false_iff_ne]
    omega
  have hpoint' : ∀ c ∈ point, isPlain c ∧ (c == 69 || c == 101) = false := by
    rcases hpoint with ⟨rfl, -⟩ | rfl
    · rintro c ⟨⟩
    · decide
  have hbody : ∀ c ∈ whole ++ (point ++ fraction), isPlain c ∧ (c == 69 || c == 101) = false := by
    simp only [List.mem_append]
    rintro c (hc | hc | hc)
    · exact hdigit c (hwhole c hc)
    · exact hpoint' c hc
    · exact hdigit c (hfraction c hc)
  have hmarks' : ∀ c ∈ marks, isPlain c := by
    cases hmarks with
    | absent => rintro c ⟨⟩
    | present =>
        intro c hc
        rcases List.mem_cons.mp hc with rfl | hc
        · rfl
        · rcases List.mem_cons.mp hc with rfl | hc
          · split <;> rfl
          · exact (hdigit c (isDigit_of_mem_digitsOf hc)).1
  -- no character is outside of what `Decimal` accepts
  have htext : ∀ c ∈ (if negative then [45] else []) ++ (whole ++ (point ++ fraction)) ++ marks,
      isPlain c := by
    intro c hc
    rcases List.mem_append.mp hc with hc | hc
    · rcases List.mem_append.mp hc with hc | hc
      · cases negative with
        | true =>
            obtain rfl := List.mem_singleton.mp hc
            rfl
        | false => cases hc
      · exact (hbody c hc).1
    · exact hmarks' c hc
  have hsign : takeSign
    ((if negative then [45] else []) ++ (whole ++ (point ++ fraction)) ++ marks) =
      (negative, whole ++ (point ++ fraction) ++ marks) := by
    cases negative with
    | true => simp [takeSign]
    | false =>
        obtain ⟨c, cs, rfl⟩ := List.exists_cons_of_ne_nil hne
        obtain ⟨-, -, hminus, hplus⟩ := digit_facts (hwhole c List.mem_cons_self)
        simp [takeSign, hminus, hplus]
  -- the text is cut in front of the exponent
  have htake : (whole ++ (point ++ fraction) ++ marks).takeWhile
      (fun c => !(c == 69 || c == 101)) = whole ++ (point ++ fraction) := by
    rw [List.takeWhile_append_of_pos fun c hc => by simp only [(hbody c hc).2, Bool.not_false]]
    cases hmarks <;> simp
  have hdrop : (whole ++ (point ++ fraction) ++ marks).dropWhile
      (fun c => !(c == 69 || c == 101)) = marks := by
    rw [List.dropWhile_append_of_pos fun c hc => by simp only [(hbody c hc).2, Bool.not_false]]
    cases hmarks <;> simp
  simp only [decimal, plain_text htext, hsign, htake, hdrop, exponent_read hmarks,
    mantissa_read hwhole hfraction hpoint]
  rw [if_neg (by simp [hne])]

/-- Leading zeros do not change a number. -/
theorem ofDigits_zeros (k : ℕ) (ds : List ℕ) :
    ofDigits (List.replicate k 0 ++ ds) = ofDigits ds := by
  have hzeros : (List.replicate k 0).foldl (fun n d => 10 * n + d) 0 = 0 := by
    induction k with
    | zero => rfl
    | succ k ih => exact ih
  rw [ofDigits, List.foldl_append, hzeros, ofDigits]

/-- The digits of one number behind those of another. -/
theorem ofDigits_append (ds es : List ℕ) :
    ofDigits (ds ++ es) = ofDigits ds * 10 ^ es.length + ofDigits es := by
  have hfold : ∀ (n : ℕ), es.foldl (fun n d => 10 * n + d) n =
      n * 10 ^ es.length + es.foldl (fun n d => 10 * n + d) 0 := by
    induction es with
    | nil => simp
    | cons e es ih =>
        intro n
        rw [List.foldl_cons, List.foldl_cons, ih (10 * n + e), ih (10 * 0 + e), List.length_cons]
        ring
  rw [ofDigits, List.foldl_append, hfold]
  rfl

/-- The code points of a text that is given by its characters. -/
theorem codePoints_ofList (cs : List Char) : codePoints (String.ofList cs) = cs.map Char.toNat := by
  rw [codePoints, String.toList_ofList]

/-- The characters of a sign. -/
theorem signChars_codePoints (d : Decimal) :
    d.signChars.map Char.toNat = if d.negative then [45] else [] := by
  unfold Decimal.signChars
  split <;> rfl

/-- The exponent that `str` writes. -/
theorem writtenExponent (n : ℤ) :
    WrittenExponent ((if n = 0 then [] else 'E' :: Decimal.signedDigits n).map Char.toNat) n := by
  split
  · next hn =>
      subst hn
      exact .absent
  · have hsigned : (Decimal.signedDigits n).map Char.toNat =
        (if n < 0 then 45 else 43) :: digitsOf n.natAbs := by
      rw [Decimal.signedDigits, List.map_cons]
      split <;> rfl
    rw [List.map_cons, hsigned]
    exact .present n

section Str

variable (negative : Bool) (n : ℕ)

/-- A number whose point stands `k` zeros before its digits. -/
theorem decimal_small (k : ℕ) :
    decimal ((if negative then [45] else []) ++
        ([48] ++ ([46] ++ (List.replicate k 48 ++ digitsOf n))) ++ []) =
      some ⟨negative, n, -(k + (digitsOf n).length : ℕ)⟩ := by
  have hfraction : ∀ c ∈ List.replicate k 48 ++ digitsOf n, isDigit c := by
    intro c hc
    rcases List.mem_append.mp hc with hc | hc
    · rw [List.eq_of_mem_replicate hc]
      rfl
    · exact isDigit_of_mem_digitsOf hc
  have hvalue : ofDigits (([48] ++ (List.replicate k 48 ++ digitsOf n)).map (· - 48)) = n := by
    have hzeros := ofDigits_zeros (k + 1) ((digitsOf n).map (· - 48))
    rw [ofDigits_digitsOf] at hzeros
    refine Eq.trans ?_ hzeros
    simp [List.replicate_succ]
  rw [decimal_read (by decide) (by simp) hfraction (.inr rfl) .absent, hvalue]
  simp

/-- A number whose point stands behind the first `k` of its digits, or which has no point. -/
theorem decimal_split {k : ℕ} (hk : 0 < k) {point marks : List ℕ} {e : ℤ}
    (hpoint : point = [] ∧ (digitsOf n).length ≤ k ∨ point = [46])
    (hmarks : WrittenExponent marks e) :
    decimal ((if negative then [45] else []) ++
        ((digitsOf n).take k ++ (point ++ (digitsOf n).drop k)) ++ marks) =
      some ⟨negative, n, e - ((digitsOf n).length - k : ℕ)⟩ := by
  have hdigit : ∀ c ∈ digitsOf n, isDigit c := fun c hc => isDigit_of_mem_digitsOf hc
  have hne : (digitsOf n).take k ≠ [] := by
    have := List.length_pos_of_ne_nil (digitsOf_ne_nil n)
    rw [← List.length_pos_iff, List.length_take]
    omega
  rw [decimal_read (fun c hc => hdigit c (List.mem_of_mem_take hc)) hne
    (fun c hc => hdigit c (List.mem_of_mem_drop hc))
    (hpoint.imp_left fun h => ⟨h.1, List.drop_eq_nil_of_le h.2⟩) hmarks, List.take_append_drop,
    ofDigits_digitsOf, List.length_drop]

/-- A number with its point behind the first `k` digits, as `str` writes it. -/
theorem decimal_pointed {k : ℕ} (hk : 0 < k) (e : ℤ)
    (hle : (digitsOf n).length ≤ k → (digitsOf n).length = k) :
    decimal ((if negative then [45] else []) ++
        (if ((digitsOf n).length : ℤ) ≤ k then
          Nat.toDigits 10 n ++ List.replicate ((k : ℤ) - (digitsOf n).length).toNat '0'
        else (Nat.toDigits 10 n).take (k : ℤ).toNat ++
          '.' :: (Nat.toDigits 10 n).drop (k : ℤ).toNat).map Char.toNat ++
        (if e = 0 then [] else 'E' :: Decimal.signedDigits e).map Char.toNat) =
      some ⟨negative, n, e - ((digitsOf n).length - k : ℕ)⟩ := by
  by_cases hlong : (digitsOf n).length ≤ k
  · have hlong' : ((digitsOf n).length : ℤ) ≤ k := by exact_mod_cast hlong
    have hread := decimal_split negative n hk (.inl ⟨rfl, hlong⟩) (writtenExponent e)
    rw [List.take_of_length_le hlong, List.drop_eq_nil_of_le hlong] at hread
    rw [← hread, if_pos hlong', hle hlong, sub_self]
    simp [digitsOf]
  · have hlong' : ¬ ((digitsOf n).length : ℤ) ≤ k := by exact_mod_cast hlong
    rw [← decimal_split negative n hk (.inr rfl) (writtenExponent e), if_neg hlong']
    simp [digitsOf, List.map_take, List.map_drop]

end Str

/-- Reading what `str` wrote gives back the decimal itself. -/
theorem decimal_str (d : Decimal) : decimal (codePoints d.str) = some d := by
  obtain ⟨negative, n, exponent⟩ := d
  have hpos := List.length_pos_of_ne_nil (digitsOf_ne_nil n)
  have hlen : (digitsOf n).length = (Nat.toDigits 10 n).length := by simp [digitsOf]
  have hsign := signChars_codePoints ⟨negative, n, exponent⟩
  rw [Decimal.str, codePoints_ofList, List.map_append, List.map_append, hsign]
  dsimp only
  rw [← hlen]
  -- the place of the point, as in `Decimal.__str__`
  by_cases hplain : exponent ≤ 0 ∧ -6 < exponent + (digitsOf n).length
  · rw [if_pos hplain, if_pos rfl]
    by_cases hleft : exponent + (digitsOf n).length ≤ 0
    · have hread := decimal_small negative n (-(exponent + (digitsOf n).length)).toNat
      rw [show -(((-(exponent + (digitsOf n).length)).toNat + (digitsOf n).length : ℕ) : ℤ) =
        exponent by omega] at hread
      rw [if_pos hleft, ← hread]
      simp [digitsOf]
    · obtain ⟨k, hk⟩ := Int.eq_ofNat_of_zero_le (le_of_not_ge hleft)
      rw [if_neg hleft, hk]
      have hread := decimal_pointed negative n (by omega : 0 < k) 0 (by omega)
      rw [if_pos rfl, show (0 : ℤ) - ((digitsOf n).length - k : ℕ) = exponent by omega] at hread
      exact hread
  · rw [if_neg hplain, if_neg (by decide : ¬ (1 : ℤ) ≤ 0)]
    have hread := decimal_pointed negative n one_pos (exponent + (digitsOf n).length - 1) (by omega)
    rw [show exponent + (digitsOf n).length - 1 - ((digitsOf n).length - 1 : ℕ) = exponent by omega]
      at hread
    simp only [sub_eq_zero] at hread
    exact hread

/-- `str` tells all decimals apart. -/
theorem str_injective : Function.Injective Decimal.str := by
  intro d d' h
  have hread := decimal_str d
  rw [h, decimal_str] at hread
  exact (Option.some.inj hread).symm

/-- Reading what `formatFixed` printed gives the decimal rounded half to even. -/
theorem decimal_formatFixed {places : ℕ} (hplaces : 0 < places) (d : Decimal) :
    decimal (codePoints (d.formatFixed places)) =
      some ⟨d.negative, d.roundHalfEvenAbs places, -places⟩ := by
  -- the digits before and after the point are those of the quotient by `10 ^ places`
  let q := d.roundHalfEvenAbs places
  let r := q % 10 ^ places
  let fraction := List.replicate (places - (digitsOf r).length) 48 ++ digitsOf r
  have hr : r < 10 ^ places := Nat.mod_lt _ (by positivity)
  have hlen : (digitsOf r).length ≤ places := by
    rw [digitsOf, List.length_map]
    exact (Nat.length_toDigits_le_iff (by decide) hplaces).mpr hr
  have hfraction : ∀ c ∈ fraction, isDigit c := by
    intro c hc
    rcases List.mem_append.mp hc with hc | hc
    · rw [List.eq_of_mem_replicate hc]
      rfl
    · exact isDigit_of_mem_digitsOf hc
  have hlength : fraction.length = places := by
    rw [List.length_append, List.length_replicate]
    omega
  -- together they are the digits of the number itself
  have hvalue : ofDigits ((digitsOf (q / 10 ^ places) ++ fraction).map (· - 48)) = q := by
    have hzeros := ofDigits_zeros (places - (digitsOf r).length) ((digitsOf r).map (· - 48))
    rw [ofDigits_digitsOf] at hzeros
    have hfractionValue : ofDigits (fraction.map (· - 48)) = r := by
      rw [List.map_append, List.map_replicate]
      exact hzeros
    rw [List.map_append, ofDigits_append, ofDigits_digitsOf, hfractionValue, List.length_map,
      hlength]
    exact Nat.div_add_mod' q (10 ^ places)
  have htext : codePoints (d.formatFixed places) = (if d.negative then [45] else []) ++
      (digitsOf (q / 10 ^ places) ++ ([46] ++ fraction)) ++ [] := by
    rw [Decimal.formatFixed, codePoints_ofList, List.map_append, List.map_append,
      signChars_codePoints]
    simp [fraction, r, q, digitsOf, Decimal.paddedDigits]
  rw [htext, decimal_read (fun c hc => isDigit_of_mem_digitsOf hc) (digitsOf_ne_nil _) hfraction
    (.inr rfl) .absent, hvalue, hlength, zero_sub]

/-- `formatFixed` keeps the sign and the rounded magnitude. -/
theorem formatFixed_eq_iff {places : ℕ} (hplaces : 0 < places) (d d' : Decimal) :
    d.formatFixed places = d'.formatFixed places ↔
      d.negative = d'.negative ∧ d.roundHalfEvenAbs places = d'.roundHalfEvenAbs places := by
  constructor
  · intro h
    have hread := decimal_formatFixed hplaces d
    rw [h, decimal_formatFixed hplaces] at hread
    obtain ⟨hsign, hmagnitude, -⟩ := Decimal.mk.inj (Option.some.inj hread)
    exact ⟨hsign.symm, hmagnitude.symm⟩
  · rintro ⟨hsign, hmagnitude⟩
    rw [Decimal.formatFixed, Decimal.formatFixed, Decimal.signChars, Decimal.signChars, hsign,
      hmagnitude]

example : int16 (ascii " 0x_fF ") = some 255 := by decide +kernel

example : decimal (ascii " -1_0.50e+2") = some ⟨true, 1050, 0⟩ := by decide +kernel

example : decimal (ascii "1.2.3") = none := by decide +kernel

end Python
