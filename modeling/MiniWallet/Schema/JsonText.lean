import MiniWallet.Python.Json
import MiniWallet.Schema.Identifiers

/-!
# JSON documents as text

What `json.dumps` writes for a document of strings, `null` and objects, `json.loads` reads back.

* `Json.textValue`: the value that such a document stands for.
* `scanString_escaped`: reading back the inside of a string.
* `scanOnce_render`: reading back a document, whatever follows it.
* `loads_dumps`: reading back the bytes of a document.
-/

namespace MiniWallet

open Python

namespace Json

mutual

/-- The value of a document of strings, `null` and objects with distinct keys, and `none` for other
documents. -/
def textValue : Json → Option JsonValue
  | null => some .none
  | str s => some (.str (codePoints s))
  | obj items => do
      let values ← textItems items
      if (items.map Prod.fst).Nodup then some (.dict values) else none
  | _ => none

/-- The values of the items of an object. -/
def textItems : List (String × Json) → Option (List (Str × JsonValue))
  | [] => some []
  | (k, v) :: items => do
      let value ← textValue v
      let values ← textItems items
      return (codePoints k, value) :: values

end

mutual

/-- How many containers are inside each other. -/
def depth : Json → ℕ
  | arr xs => depthElements xs + 1
  | obj items => depthItems items + 1
  | _ => 0

/-- The greatest depth of an element. -/
def depthElements : List Json → ℕ
  | [] => 0
  | x :: xs => max (depth x) (depthElements xs)

/-- The greatest depth of a value. -/
def depthItems : List (String × Json) → ℕ
  | [] => 0
  | (_, v) :: items => max (depth v) (depthItems items)

end

end Json

/-- The code points of a list of characters. -/
def chars (cs : List Char) : Str := cs.map Char.toNat

/-- The empty text. -/
@[simp]
theorem chars_nil : chars [] = [] := rfl

/-- The first character of a text. -/
@[simp]
theorem chars_cons (c : Char) (cs : List Char) : chars (c :: cs) = c.toNat :: chars cs := rfl

/-- A text in two parts. -/
@[simp]
theorem chars_append (cs cs' : List Char) : chars (cs ++ cs') = chars cs ++ chars cs' :=
  List.map_append

/-! ## Strings -/

/-- A written code unit is read back. -/
theorem hexQuad_hexDigits {n : ℕ} (h : n < 65536) (rest : Str) :
    hexQuad (chars (hexDigits 4 n) ++ rest) = some (n, rest) := by
  have hdigits : hexDigits 4 n = [Nat.digitChar (n / 16 / 16 / 16 % 16),
      Nat.digitChar (n / 16 / 16 % 16), Nat.digitChar (n / 16 % 16), Nat.digitChar (n % 16)] := rfl
  have hvalue : ∀ k, hexValue (Nat.digitChar (k % 16)).toNat = some (k % 16) :=
    fun k => hexValue_digitChar (Nat.mod_lt _ (by decide))
  simp only [hdigits, chars_cons, chars_nil, List.cons_append, List.nil_append, hexQuad, hvalue]
  congr 2
  omega

/-- An escaped code unit that is not the first half of a surrogate pair is read back. -/
theorem scanEscape_unicodeEscape {n : ℕ} (h : n < 65536) (hhigh : isHighSurrogate n = false)
    (rest : Str) : scanEscape ((chars (Json.unicodeEscape n)).tail ++ rest) = some (n, rest) := by
  have hread := hexQuad_hexDigits h rest
  simp only [Json.unicodeEscape, chars_cons, List.tail_cons, List.cons_append]
  have hu : 'u'.toNat = 117 := rfl
  rw [hu, scanEscape, if_pos rfl, hread]
  dsimp only
  split
  · rw [hhigh]
    rfl
  · rfl

/-- An escaped surrogate pair is read back as its character. -/
theorem scanEscape_pair {high low : ℕ} (hhigh : isHighSurrogate high) (hlow : isLowSurrogate low)
    (rest : Str) :
    scanEscape
      ((chars (Json.unicodeEscape high)).tail ++ (chars (Json.unicodeEscape low) ++ rest)) =
      some (surrogatePair high low, rest) := by
  have hh : high < 65536 := by
    simp only [isHighSurrogate, Bool.and_eq_true, decide_eq_true_eq] at hhigh
    omega
  have hl : low < 65536 := by
    simp only [isLowSurrogate, Bool.and_eq_true, decide_eq_true_eq] at hlow
    omega
  have hu : 'u'.toNat = 117 := rfl
  have hbackslash : '\\'.toNat = 92 := rfl
  simp only [Json.unicodeEscape, chars_cons, List.tail_cons, List.cons_append, hu, hbackslash]
  rw [scanEscape, if_pos rfl, hexQuad_hexDigits hh]
  simp only [hhigh, if_true, hexQuad_hexDigits hl, hlow]

/-- A character that is not escaped is read as it stands. -/
theorem scanString_plain {c : ℕ} (hlow : 32 ≤ c) (hquote : c ≠ 34) (hbackslash : c ≠ 92) (fuel : ℕ)
    (rest : Str) : scanString (fuel + 1) (c :: rest) =
      (scanString fuel rest).map fun (s, rest) => (c :: s, rest) := by
  rw [scanString, if_neg hquote, if_neg hbackslash, if_neg (by omega)]

/-- An escaped character is read as what it stands for. -/
theorem scanString_escape {c : ℕ} {text rest : Str} (h : scanEscape text = some (c, rest))
    (fuel : ℕ) : scanString (fuel + 1) (92 :: text) =
      (scanString fuel rest).map fun (s, rest) => (c :: s, rest) := by
  rw [scanString, if_neg (by decide), if_pos rfl, h]

/-- The code point of a character is not a surrogate. -/
theorem codePoint_bounds (c : Char) :
    c.toNat < 55296 ∨ 57343 < c.toNat ∧ c.toNat < 1114112 := c.valid

/-- One written character is read back. -/
theorem scanString_escapeChar (c : Char) (fuel : ℕ) (rest : Str) :
    scanString (fuel + 1) (chars (Json.escapeChar c) ++ rest) =
      (scanString fuel rest).map fun (s, rest) => (c.toNat :: s, rest) := by
  unfold Json.escapeChar
  split_ifs with hquote hbackslash hnewline hreturn htab hfeed hback hprintable hbmp
  · subst hquote
    exact scanString_escape rfl fuel
  · subst hbackslash
    exact scanString_escape rfl fuel
  · subst hnewline
    exact scanString_escape rfl fuel
  · subst hreturn
    exact scanString_escape rfl fuel
  · subst htab
    exact scanString_escape rfl fuel
  · rw [hfeed]
    exact scanString_escape rfl fuel
  · rw [hback]
    exact scanString_escape rfl fuel
  · have hne : ∀ d : Char, c ≠ d → c.toNat ≠ d.toNat := fun d hd heq => hd (Char.toNat_inj.mp heq)
    exact scanString_plain hprintable.1 (hne '"' hquote) (hne '\\' hbackslash) fuel rest
  · -- a character is not a surrogate
    have hhigh : isHighSurrogate c.toNat = false := by
      have hbounds := codePoint_bounds c
      simp only [isHighSurrogate, Bool.and_eq_false_iff, decide_eq_false_iff_not]
      omega
    exact scanString_escape (scanEscape_unicodeEscape hbmp hhigh rest) fuel
  · have hbounds := codePoint_bounds c
    have hhigh : isHighSurrogate (55296 + (c.toNat - 65536) / 1024) := by
      simp only [isHighSurrogate, Bool.and_eq_true, decide_eq_true_eq]
      omega
    have hlow : isLowSurrogate (56320 + (c.toNat - 65536) % 1024) := by
      simp only [isLowSurrogate, Bool.and_eq_true, decide_eq_true_eq]
      omega
    have hpair : surrogatePair (55296 + (c.toNat - 65536) / 1024)
        (56320 + (c.toNat - 65536) % 1024) = c.toNat := by
      unfold surrogatePair
      omega
    have hread := scanString_escape (scanEscape_pair hhigh hlow rest) fuel
    rw [hpair] at hread
    simpa [Json.unicodeEscape] using hread

/-- The inside of a written string is read back, up to the closing quote. -/
theorem scanString_escaped (cs : List Char) {fuel : ℕ} (h : cs.length < fuel) (rest : Str) :
    scanString fuel (chars (cs.flatMap Json.escapeChar) ++ 34 :: rest) = some (chars cs, rest) := by
  induction cs generalizing fuel with
  | nil =>
      obtain ⟨fuel, rfl⟩ : ∃ k, fuel = k + 1 := ⟨fuel - 1, by simp at h; omega⟩
      rfl
  | cons c cs ih =>
      obtain ⟨fuel, rfl⟩ : ∃ k, fuel = k + 1 := ⟨fuel - 1, by simp at h; omega⟩
      rw [List.flatMap_cons, chars_append, List.append_assoc, scanString_escapeChar,
        ih (by simpa using h)]
      rfl

/-- Escaping makes a text no shorter. -/
theorem length_le_escaped (cs : List Char) : cs.length ≤ (cs.flatMap Json.escapeChar).length := by
  induction cs with
  | nil => exact le_rfl
  | cons c cs ih =>
      have hpos : 1 ≤ (Json.escapeChar c).length := by
        unfold Json.escapeChar
        split_ifs <;> simp [Json.unicodeEscape]
      rw [List.flatMap_cons, List.length_append, List.length_cons]
      omega

/-- A written string is read back, after its opening quote. -/
theorem scanstring_quote (s : String) (rest : Str) :
    scanstring (chars (s.toList.flatMap Json.escapeChar) ++ 34 :: rest) =
      .ok (codePoints s, rest) := by
  have hfuel : s.toList.length <
      (chars (s.toList.flatMap Json.escapeChar) ++ 34 :: rest).length + 1 := by
    have hle := length_le_escaped s.toList
    simp only [chars, List.length_append, List.length_map]
    omega
  rw [scanstring, scanString_escaped s.toList hfuel]
  rfl

/-! ## Documents -/

/-- White space at the front of a text that does not begin with any. -/
theorem skipSpace_cons {c : ℕ} (h : isJsonSpace c = false) (rest : Str) :
    skipSpace (c :: rest) = c :: rest := by
  rw [skipSpace, List.dropWhile_cons_of_neg (by simp [h])]

/-- The space after a separator is skipped. -/
theorem skipSpace_space {c : ℕ} (h : isJsonSpace c = false) (rest : Str) :
    skipSpace (32 :: c :: rest) = c :: rest := by
  rw [skipSpace, List.dropWhile_cons_of_pos (by decide), ← skipSpace, skipSpace_cons h]

/-- `null` is read back. -/
theorem scanAtom_null (rest : Str) :
    scanAtom (chars ['n', 'u', 'l', 'l'] ++ rest) = .ok (.none, rest) := rfl

/-- A string is read back. -/
theorem scanAtom_quote (s : String) (rest : Str) :
    scanAtom (chars (Json.quote s) ++ rest) = .ok (.str (codePoints s), rest) := by
  have htext : chars (Json.quote s) ++ rest =
      34 :: (chars (s.toList.flatMap Json.escapeChar) ++ 34 :: rest) := by
    simp [Json.quote]
  have hconstant : constants.find? (fun entry =>
      (34 :: (chars (s.toList.flatMap Json.escapeChar) ++ 34 :: rest)).take entry.1.length ==
        entry.1) = none := by
    simp [constants, ascii]
  rw [htext, scanAtom]
  split
  · next hfound => cases hconstant.symm.trans hfound
  · rw [scanstring_quote]
    rfl

/-- The first character of a document of strings is neither white space nor the end of a
container. -/
theorem render_head {j : Json} {v : JsonValue} (h : j.textValue = some v) :
    ∃ c cs, chars j.render = c :: cs ∧ isJsonSpace c = false ∧ c ≠ 125 := by
  cases j with
  | null => exact ⟨_, _, rfl, rfl, by decide⟩
  | str s => exact ⟨_, _, rfl, rfl, by decide⟩
  | obj items => exact ⟨_, _, rfl, rfl, by decide⟩
  | bool b | num literal | arr xs => cases h

/-- An atom is read the same whatever the limit is. -/
theorem scanOnce_atom {limit c : ℕ} {rest : Str} (hobj : c ≠ 123) (harr : c ≠ 91) :
    scanOnce limit (c :: rest) = scanAtom (c :: rest) := by
  cases limit with
  | zero =>
      rw [scanOnce]
      · rintro rest' heq
        exact hobj (List.cons.inj heq).1
      · rintro rest' heq
        exact harr (List.cons.inj heq).1
  | succ limit =>
      rw [scanOnce]
      · rintro rest' heq
        exact hobj (List.cons.inj heq).1
      · rintro rest' heq
        exact harr (List.cons.inj heq).1

/-- A dictionary of pairs with distinct keys has the pairs in their order. -/
theorem ofPairs_of_nodup {pairs : List (Str × JsonValue)} (h : (pairs.map Prod.fst).Nodup) :
    ofPairs pairs = pairs := by
  -- with the items that have been read before, by induction on the pairs
  have hfold : ∀ (pairs items : List (Str × JsonValue)),
      ((items ++ pairs).map Prod.fst).Nodup →
      pairs.foldl (fun items pair =>
        if (items.map Prod.fst).contains pair.1 then
          items.map fun item => if item.1 = pair.1 then (pair.1, pair.2) else item
        else items ++ [(pair.1, pair.2)]) items = items ++ pairs := by
    intro pairs
    induction pairs with
    | nil => simp
    | cons pair pairs ih =>
        intro items hnodup
        -- the key has not been seen, so the pair is appended
        have hnew : ¬ (items.map Prod.fst).contains pair.1 := by
          rw [List.contains_iff_mem]
          rw [List.map_append, List.map_cons] at hnodup
          exact fun hmem => List.disjoint_of_nodup_append hnodup hmem List.mem_cons_self
        rw [List.foldl_cons, if_neg hnew, ih _ (by simpa using hnodup)]
        simp
  exact hfold pairs [] (by simpa using h)

/-- The keys of the items of an object. -/
theorem textItems_keys {items : List (String × Json)} {values : List (Str × JsonValue)}
    (h : Json.textItems items = some values) :
    values.map Prod.fst = (items.map Prod.fst).map codePoints := by
  induction items generalizing values with
  | nil =>
      cases h
      rfl
  | cons item items ih =>
      obtain ⟨k, v⟩ := item
      simp only [Json.textItems, Option.bind_eq_bind, Option.bind_eq_some_iff] at h
      obtain ⟨value, -, rest, hrest, heq⟩ := h
      cases heq
      simp [ih hrest]

/-- Different texts have different code points. -/
theorem codePoints_injective : Function.Injective codePoints := by
  intro s t h
  have hchars : s.toList = t.toList :=
    List.map_injective_iff.mpr (fun _ _ h => Char.toNat_inj.mp h) h
  exact String.toList_inj.mp hchars

/-- Every item takes at least one character. -/
theorem length_le_renderItems (items : List (String × Json)) :
    items.length ≤ (Json.renderItems items).length := by
  induction items with
  | nil => exact Nat.zero_le _
  | cons item items ih =>
      obtain ⟨k, v⟩ := item
      cases items with
      | nil =>
          simp only [Json.renderItems, List.length_append, List.length_cons, List.length_nil]
          omega
      | cons item items =>
          simp only [Json.renderItems, List.length_append, List.length_cons] at ih ⊢
          omega

section Items

variable {scan : Scanner} {k : String} {value : JsonValue} {text rest : Str} {c : ℕ} {cs : Str}

/-- The last item of an object is read back. -/
theorem scanItems_last (htext : text = c :: cs) (hspace : isJsonSpace c = false)
    (hvalue : scan text = .ok (value, 125 :: rest)) (fuel : ℕ) :
    scanItems scan (fuel + 1) (chars (k.toList.flatMap Json.escapeChar) ++ 34 :: 58 :: 32 :: text) =
      .ok ([(codePoints k, value)], rest) := by
  have hskip : skipSpace (32 :: text) = text := by
    rw [htext, skipSpace_space hspace]
  rw [scanItems]
  simp only [scanstring_quote, bind, Except.bind, skipSpace_cons (c := 58) rfl, hskip, hvalue,
    skipSpace_cons (c := 125) rfl]
  rfl

/-- Another item of an object is read back, and then the items after it. -/
theorem scanItems_next (htext : text = c :: cs) (hspace : isJsonSpace c = false)
    (hvalue : scan text = .ok (value, 44 :: 32 :: 34 :: rest)) (fuel : ℕ) :
    scanItems scan (fuel + 1) (chars (k.toList.flatMap Json.escapeChar) ++ 34 :: 58 :: 32 :: text) =
      (scanItems scan fuel rest).map fun (items, rest) =>
        ((codePoints k, value) :: items, rest) := by
  have hskip : skipSpace (32 :: text) = text := by
    rw [htext, skipSpace_space hspace]
  rw [scanItems]
  simp only [scanstring_quote, bind, Except.bind, skipSpace_cons (c := 58) rfl, hskip, hvalue,
    skipSpace_cons (c := 44) rfl, skipSpace_space (c := 34) rfl]
  cases scanItems scan fuel rest <;> rfl

end Items

mutual

/-- A document of strings is read back, whatever follows it. -/
theorem scanOnce_render : ∀ (j : Json) {v : JsonValue} {limit : ℕ}, j.textValue = some v →
    j.depth ≤ limit → ∀ rest, scanOnce limit (chars j.render ++ rest) = .ok (v, rest)
  | .null, v, limit, h, _, rest => by
      cases h
      exact (scanOnce_atom (by decide) (by decide)).trans (scanAtom_null rest)
  | .str s, v, limit, h, _, rest => by
      cases h
      exact (scanOnce_atom (by decide) (by decide)).trans (scanAtom_quote s rest)
  | .obj items, v, limit, h, hlimit, rest => by
      obtain ⟨limit, rfl⟩ : ∃ k, limit = k + 1 := ⟨limit - 1, by simp [Json.depth] at hlimit; omega⟩
      have hdepth : Json.depthItems items ≤ limit := by simpa [Json.depth] using hlimit
      simp only [Json.textValue, Option.bind_eq_bind, Option.bind_eq_some_iff] at h
      obtain ⟨values, hvalues, h⟩ := h
      split at h
      · -- the keys differ, so no value replaces another one
        next hnodup =>
        cases h
        have hkeys : (values.map Prod.fst).Nodup := by
          rw [textItems_keys hvalues]
          exact hnodup.map codePoints_injective
        have htext : chars (Json.render (.obj items)) ++ rest =
            123 :: (chars (Json.renderItems items) ++ 125 :: rest) := by
          simp [Json.render]
        rw [htext, scanOnce, parseObject]
        cases items with
        | nil =>
            cases hvalues
            rfl
        -- the fuel of the loop is enough: there are fewer items than characters
        | cons item items =>
            obtain ⟨body, hbody, hread⟩ :=
              scanItems_render (item :: items) (List.cons_ne_nil _ _) hvalues hdepth
            rw [hbody, List.cons_append, skipSpace_cons rfl]
            have hfuel : (item :: items).length ≤ (body ++ 125 :: rest).length + 1 := by
              have hle := length_le_renderItems (item :: items)
              have hlen : (chars (Json.renderItems (item :: items))).length = body.length + 1 := by
                rw [hbody, List.length_cons]
              simp only [chars, List.length_map] at hlen
              simp only [List.length_append, List.length_cons] at hle ⊢
              omega
            simp only [hread hfuel rest, Except.map, ofPairs_of_nodup hkeys]
      · cases h
  | .bool _, _, _, h, _, _ => nomatch h
  | .num _, _, _, h, _, _ => nomatch h
  | .arr _, _, _, h, _, _ => nomatch h

/-- The items of an object are read back, after the opening quote of the first key. -/
theorem scanItems_render : ∀ (items : List (String × Json)), items ≠ [] →
    ∀ {values : List (Str × JsonValue)} {limit : ℕ}, Json.textItems items = some values →
    Json.depthItems items ≤ limit → ∃ body, chars (Json.renderItems items) = 34 :: body ∧
      ∀ {fuel : ℕ}, items.length ≤ fuel → ∀ rest,
        scanItems (scanOnce limit) fuel (body ++ 125 :: rest) = .ok (values, rest)
  | [], hne, _, _, _, _ => absurd rfl hne
  -- the last item is followed by the closing brace
  | [(k, v)], _, values, limit, h, hlimit => by
      simp only [Json.textItems, Option.bind_eq_bind, Option.bind_eq_some_iff] at h
      obtain ⟨value, hvalue, rest, hrest, heq⟩ := h
      cases hrest
      cases heq
      obtain ⟨c, cs, hhead, hspace, -⟩ := render_head hvalue
      have hdepth : v.depth ≤ limit := by simpa [Json.depthItems] using hlimit
      refine ⟨chars (k.toList.flatMap Json.escapeChar) ++ 34 :: 58 :: 32 :: chars v.render, ?_,
        fun {fuel} hfuel rest => ?_⟩
      · simp [Json.renderItems, Json.quote]
      · obtain ⟨fuel, rfl⟩ : ∃ n, fuel = n + 1 := ⟨fuel - 1, by simp at hfuel; omega⟩
        have hread := scanItems_last (k := k) (congrArg (· ++ 125 :: rest) hhead) hspace
          (scanOnce_render v hvalue hdepth (125 :: rest)) fuel
        have htext : chars (k.toList.flatMap Json.escapeChar) ++ 34 :: 58 :: 32 :: chars v.render ++
            125 :: rest = chars (k.toList.flatMap Json.escapeChar) ++
              34 :: 58 :: 32 :: (chars v.render ++ 125 :: rest) := by simp
        rw [htext, hread]
  -- after any other one comes a comma and the next key
  | (k, v) :: item :: items, _, values, limit, h, hlimit => by
      rw [Json.textItems] at h
      simp only [Option.bind_eq_bind, Option.bind_eq_some_iff] at h
      obtain ⟨value, hvalue, values, hvalues, heq⟩ := h
      cases heq
      obtain ⟨c, cs, hhead, hspace, -⟩ := render_head hvalue
      rw [Json.depthItems] at hlimit
      have hdepth : v.depth ≤ limit := le_trans (le_max_left _ _) hlimit
      obtain ⟨body, hbody, hrest⟩ := scanItems_render (item :: items) (List.cons_ne_nil _ _) hvalues
        (le_trans (le_max_right _ _) hlimit)
      refine ⟨chars (k.toList.flatMap Json.escapeChar) ++
        34 :: 58 :: 32 :: (chars v.render ++ 44 :: 32 :: 34 :: body), ?_,
          fun {fuel} hfuel rest => ?_⟩
      · simp [Json.renderItems, Json.quote, hbody]
      · obtain ⟨fuel, rfl⟩ : ∃ n, fuel = n + 1 := ⟨fuel - 1, by simp at hfuel; omega⟩
        have hread := scanItems_next (k := k)
          (congrArg (· ++ 44 :: 32 :: 34 :: (body ++ 125 :: rest)) hhead) hspace
          (scanOnce_render v hvalue hdepth (44 :: 32 :: 34 :: (body ++ 125 :: rest))) fuel
        have htext : chars (k.toList.flatMap Json.escapeChar) ++
            34 :: 58 :: 32 :: (chars v.render ++ 44 :: 32 :: 34 :: body) ++ 125 :: rest =
            chars (k.toList.flatMap Json.escapeChar) ++
              34 :: 58 :: 32 :: (chars v.render ++ 44 :: 32 :: 34 :: (body ++ 125 :: rest)) := by
          simp
        rw [htext, hread, hrest (by simpa using hfuel)]
        rfl

end

/-! ## Bytes -/

/-- A hexadecimal digit is printable. -/
theorem digitChar_printable {d : ℕ} (h : d < 16) :
    32 ≤ (Nat.digitChar d).toNat ∧ (Nat.digitChar d).toNat ≤ 126 := by
  interval_cases d <;> decide

/-- Hexadecimal digits are printable. -/
theorem hexDigits_printable (k n : ℕ) :
    ∀ c ∈ hexDigits k n, 32 ≤ c.toNat ∧ c.toNat ≤ 126 := by
  induction k generalizing n with
  | zero => exact fun c hc => nomatch hc
  | succ k ih =>
      intro c hc
      rcases List.mem_append.mp hc with hc | hc
      · exact ih _ c hc
      · rw [List.mem_singleton.mp hc]
        exact digitChar_printable (Nat.mod_lt _ (by decide))

/-- Escaped characters are printable. -/
theorem escapeChar_printable (c : Char) :
    ∀ d ∈ Json.escapeChar c, 32 ≤ d.toNat ∧ d.toNat ≤ 126 := by
  -- an escape consists of a backslash, a `u` and hexadecimal digits
  have hunicode : ∀ n, ∀ d ∈ Json.unicodeEscape n, 32 ≤ d.toNat ∧ d.toNat ≤ 126 := by
    intro n d hd
    simp only [Json.unicodeEscape, List.mem_cons] at hd
    rcases hd with rfl | rfl | hd
    · decide
    · decide
    · exact hexDigits_printable 4 n d hd
  intro d hd
  -- short escapes
  have hshort : ∀ e : Char, 32 ≤ e.toNat ∧ e.toNat ≤ 126 → d ∈ ['\\', e] →
      32 ≤ d.toNat ∧ d.toNat ≤ 126 := by
    intro e he hd
    simp only [List.mem_cons, List.not_mem_nil, or_false] at hd
    rcases hd with rfl | rfl
    · decide
    · exact he
  unfold Json.escapeChar at hd
  split_ifs at hd with _ _ _ _ _ _ _ hprintable _
  · exact hshort _ (by decide) hd
  · exact hshort _ (by decide) hd
  · exact hshort _ (by decide) hd
  · exact hshort _ (by decide) hd
  · exact hshort _ (by decide) hd
  · exact hshort _ (by decide) hd
  · exact hshort _ (by decide) hd
  · -- a printable character stands for itself
    rw [List.mem_singleton.mp hd]
    exact hprintable
  · exact hunicode _ d hd
  · exact (List.mem_append.mp hd).elim (hunicode _ d) (hunicode _ d)

/-- A written string is printable. -/
theorem quote_printable (s : String) : ∀ c ∈ Json.quote s, 32 ≤ c.toNat ∧ c.toNat ≤ 126 := by
  intro c hc
  simp only [Json.quote, List.mem_cons, List.mem_append, List.not_mem_nil, or_false] at hc
  rcases hc with rfl | hc | rfl
  · decide
  · obtain ⟨d, -, hd⟩ := List.mem_flatMap.mp hc
    exact escapeChar_printable d c hd
  · decide

mutual

/-- A written document of strings is printable. -/
theorem render_printable : ∀ (j : Json) {v : JsonValue}, j.textValue = some v →
    ∀ c ∈ j.render, 32 ≤ c.toNat ∧ c.toNat ≤ 126
  | .null, _, _, c, hc => by
      have hall : ∀ c ∈ ['n', 'u', 'l', 'l'], 32 ≤ c.toNat ∧ c.toNat ≤ 126 := by simp
      exact hall c hc
  | .str s, _, _, c, hc => quote_printable s c hc
  | .obj items, v, h, c, hc => by
      simp only [Json.textValue, Option.bind_eq_bind, Option.bind_eq_some_iff] at h
      obtain ⟨values, hvalues, -⟩ := h
      simp only [Json.render, List.mem_cons, List.mem_append, List.not_mem_nil, or_false] at hc
      rcases hc with rfl | hc | rfl
      · decide
      · exact renderItems_printable items hvalues c hc
      · decide
  | .bool _, _, h, _, _ => nomatch h
  | .num _, _, h, _, _ => nomatch h
  | .arr _, _, h, _, _ => nomatch h

/-- The written items of an object are printable. -/
theorem renderItems_printable : ∀ (items : List (String × Json)) {values : List (Str × JsonValue)},
    Json.textItems items = some values →
    ∀ c ∈ Json.renderItems items, 32 ≤ c.toNat ∧ c.toNat ≤ 126
  | [], _, _, _, hc => nomatch hc
  -- the last item: its key, a colon, a space and its value
  | [(k, v)], _, h, c, hc => by
      simp only [Json.textItems, Option.bind_eq_bind, Option.bind_eq_some_iff] at h
      obtain ⟨value, hvalue, -⟩ := h
      simp only [Json.renderItems, List.mem_append, List.mem_cons] at hc
      rcases hc with hc | rfl | rfl | hc
      · exact quote_printable k c hc
      · decide
      · decide
      · exact render_printable v hvalue c hc
  -- after any other one come a comma, a space and the rest
  | (k, v) :: item :: items, _, h, c, hc => by
      rw [Json.textItems] at h
      simp only [Option.bind_eq_bind, Option.bind_eq_some_iff] at h
      obtain ⟨value, hvalue, values, hvalues, -⟩ := h
      rw [Json.renderItems] at hc
      simp only [List.mem_append, List.mem_cons] at hc
      rcases hc with hc | rfl | rfl | hc | rfl | rfl | hc
      · exact quote_printable k c hc
      · decide
      · decide
      · exact render_printable v hvalue c hc
      · decide
      · decide
      · exact renderItems_printable (item :: items) hvalues c hc

end

/-- Printable text is decoded as it stands. -/
theorem decodeUtf8_printable {flag : Bool} {text : Str} (h : ∀ c ∈ text, 32 ≤ c ∧ c ≤ 126) :
    decodeUtf8 flag text = some text := by
  induction text with
  | nil => rfl
  | cons c text ih =>
      have hc := h c List.mem_cons_self
      have hrest := ih fun c hc => h c (List.mem_cons_of_mem _ hc)
      rw [decodeUtf8.eq_def]
      dsimp only
      rw [if_pos (by omega), hrest]
      rfl

/-- Printable text is taken for UTF-8. -/
theorem decodeDetected_printable {text : Str} (h : ∀ c ∈ text, 32 ≤ c ∧ c ≤ 126) :
    decodeDetected text = some text := by
  have hutf8 : decodeUtf8 true text = some text := decodeUtf8_printable h
  -- a byte order mark and the other encodings begin with bytes that are not printable
  unfold decodeDetected
  split
  · exact absurd (h 0 List.mem_cons_self) (by decide)
  · exact absurd (h 255 List.mem_cons_self) (by decide)
  · exact absurd (h 254 List.mem_cons_self) (by decide)
  · exact absurd (h 255 List.mem_cons_self) (by decide)
  · exact absurd (h 239 List.mem_cons_self) (by decide)
  · next b₀ b₁ b₂ b₃ rest _ _ _ _ _ =>
    have h₀ := h b₀ List.mem_cons_self
    have h₁ := h b₁ (List.mem_cons_of_mem _ List.mem_cons_self)
    rw [if_neg (by omega), if_neg (by omega), hutf8]
  · next b₀ b₁ _ _ =>
    have h₀ := h b₀ List.mem_cons_self
    have h₁ := h b₁ (List.mem_cons_of_mem _ List.mem_cons_self)
    rw [if_neg (by omega), if_neg (by omega), hutf8]
  · exact hutf8

/-- Reading back the bytes of a document of strings. -/
theorem loads_dumps {j : Json} {v : JsonValue} {limit : ℕ} (h : j.textValue = some v)
    (hlimit : j.depth ≤ limit) : loads limit (some (asciiBytes j.dumps)) = .ok v := by
  have hprintable := render_printable j h
  -- the bytes are the characters of the text, which are printable
  have hbytes : (asciiBytes j.dumps).map UInt8.toNat = chars j.render := by
    rw [asciiBytes, Json.dumps, String.toList_ofList, List.map_map]
    refine List.map_congr_left fun c hc => ?_
    have hc := hprintable c hc
    rw [Function.comp_apply, UInt8.toNat_ofNat']
    exact Nat.mod_eq_of_lt (by omega)
  -- they are decoded as UTF-8
  have hdecoded : decodeDetected (chars j.render) = some (chars j.render) := by
    refine decodeDetected_printable fun c hc => ?_
    obtain ⟨d, hd, rfl⟩ := List.mem_map.mp hc
    exact hprintable d hd
  -- scanned to their end
  have hscan := scanOnce_render j h hlimit []
  rw [List.append_nil] at hscan
  obtain ⟨c, cs, hhead, hspace, -⟩ := render_head h
  -- and the text begins with no space
  have hskip : skipSpace (chars j.render) = chars j.render := by
    rw [hhead, skipSpace_cons hspace]
  rw [loads, hbytes, hdecoded]
  dsimp only
  rw [decodeDocument, hskip, hscan]
  rfl

end MiniWallet
