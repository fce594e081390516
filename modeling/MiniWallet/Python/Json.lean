import MiniWallet.Python.Text

/-!
# Python's `json.loads`

The decoder of CPython: it finds out the encoding, decodes the bytes, and scans one document. It
accepts more than JSON (`NaN`, `Infinity`, lone surrogates), and it can fail in ways other than with
a `JSONDecodeError`: on a value that is not bytes, on bytes that do not decode, on an integer with
too many digits and on documents that are nested too deeply. The first problem from the left
decides.

* `loads limit value`: `json.loads(value)`, where `limit` is how many containers can be nested
  before the interpreter's stack is used up.
-/

namespace Python

/-- A decoded document. A float is kept as its literal. -/
inductive JsonValue
  | none
  | bool (b : Bool)
  | int (n : ℤ)
  | float (literal : Str)
  | str (s : Str)
  | list (xs : List JsonValue)
  | dict (items : List (Str × JsonValue))

/-- The exceptions of the conversions. `JSONDecodeError` and `UnicodeDecodeError` are kinds of
`ValueError`; that one stands for the others, such as an integer with too many digits. -/
inductive Exn
  | jsonDecodeError
  | unicodeDecodeError
  | valueError
  | typeError
  | recursionError
deriving DecidableEq, Repr

/-- A scanner of one value: the value, and the text after it. -/
abbrev Scanner := Str → Except Exn (JsonValue × Str)

/-! ## Literals -/

/-- White space between the tokens. -/
def isJsonSpace (c : ℕ) : Bool := c == 32 || c == 9 || c == 10 || c == 13

/-- The text without the white space at its front. -/
def skipSpace (s : Str) : Str := s.dropWhile isJsonSpace

/-- The code unit of a `\uXXXX` escape, after the `u`. -/
def hexQuad : Str → Option (ℕ × Str)
  | a :: b :: c :: d :: rest =>
      match hexValue a, hexValue b, hexValue c, hexValue d with
      | some a, some b, some c, some d => some (((a * 16 + b) * 16 + c) * 16 + d, rest)
      | _, _, _, _ => none
  | _ => none

/-- The character of a short escape. -/
def shortEscape (c : ℕ) : Option ℕ :=
  if c = 34 || c = 92 || c = 47 then some c
  else if c = 98 then some 8
  else if c = 102 then some 12
  else if c = 110 then some 10
  else if c = 114 then some 13
  else if c = 116 then some 9
  else none

/-- The character of an escape, after the backslash. A high surrogate takes a low one along. -/
def scanEscape : Str → Option (ℕ × Str)
  | [] => none
  | c :: rest =>
      if c = 117 then
        match hexQuad rest with
        | none => none
        | some (high, rest) =>
            match rest with
            | 92 :: 117 :: more =>
                -- only a low surrogate right after a high one is joined with it
                if isHighSurrogate high then
                  match hexQuad more with
                  | none => none
                  | some (low, after) =>
                      if isLowSurrogate low then some (surrogatePair high low, after)
                      else some (high, rest)
                else some (high, rest)
            | _ => some (high, rest)
      else (shortEscape c).map fun c => (c, rest)

/-- The rest of a string, after the opening quote, and the text after the closing one. Every turn
takes at least one character, so the length of the text is enough fuel. -/
def scanString : ℕ → Str → Option (Str × Str)
  | 0, _ => none
  | _ + 1, [] => none
  | fuel + 1, c :: rest =>
      if c = 34 then some ([], rest)
      else if c = 92 then
        match scanEscape rest with
        | some (c, rest) => (scanString fuel rest).map fun (s, rest) => (c :: s, rest)
        | none => none
      else if c < 32 then none
      else (scanString fuel rest).map fun (s, rest) => (c :: s, rest)

/-- A string, after the opening quote. -/
def scanstring (s : Str) : Except Exn (Str × Str) :=
  match scanString (s.length + 1) s with
  | some result => .ok result
  | none => .error .jsonDecodeError

/-- The integer part of a number, without its sign: `0`, or digits that do not start with `0`. -/
def integerPart : Str → Option (Str × Str)
  | [] => none
  | c :: rest =>
      if c = 48 then some ([48], rest)
      else if isDigit c then some (c :: rest.takeWhile isDigit, rest.dropWhile isDigit)
      else none

/-- The fraction of a number, if there is one. -/
def fractionPart : Str → Str × Str
  | 46 :: c :: rest =>
      if isDigit c then (46 :: c :: rest.takeWhile isDigit, rest.dropWhile isDigit)
      else ([], 46 :: c :: rest)
  | s => ([], s)

/-- The exponent of a number, if there is one. -/
def exponentPart : Str → Str × Str
  | e :: c :: rest =>
      if e = 101 || e = 69 then
        if isDigit c then (e :: c :: rest.takeWhile isDigit, rest.dropWhile isDigit)
        else if c = 43 || c = 45 then
          match rest with
          | d :: rest' =>
              if isDigit d then (e :: c :: d :: rest'.takeWhile isDigit, rest'.dropWhile isDigit)
              else ([], e :: c :: rest)
          -- a sign without a digit is no exponent
          | [] => ([], e :: c :: rest)
        else ([], e :: c :: rest)
      else ([], e :: c :: rest)
  | s => ([], s)

/-- A number. -/
def scanNumber (s : Str) : Except Exn (JsonValue × Str) :=
  let sign : Str := if s.head? = some 45 then [45] else []
  match integerPart (s.drop sign.length) with
  | none => .error .jsonDecodeError
  | some (integer, rest) =>
      let (fraction, rest) := fractionPart rest
      let (exponent, rest) := exponentPart rest
      if fraction.isEmpty && exponent.isEmpty then
        -- a number with too many digits raises `ValueError`, which is no `JSONDecodeError`
        match Python.int (sign ++ integer) with
        | some n => .ok (.int n, rest)
        | none => .error .valueError
      else .ok (.float (sign ++ integer ++ fraction ++ exponent), rest)

/-- The names that stand for a value. -/
def constants : List (Str × JsonValue) :=
  [(ascii "null", .none), (ascii "true", .bool true), (ascii "false", .bool false),
    (ascii "NaN", .float (ascii "NaN")), (ascii "Infinity", .float (ascii "Infinity")),
    (ascii "-Infinity", .float (ascii "-Infinity"))]

/-- Everything but a container. -/
def scanAtom (s : Str) : Except Exn (JsonValue × Str) :=
  match constants.find? fun (name, _) => s.take name.length == name with
  | some (name, value) => .ok (value, s.drop name.length)
  | none =>
      match s with
      | 34 :: rest => (scanstring rest).map fun (s, rest) => (.str s, rest)
      | _ => scanNumber s

/-! ## Containers -/

/-- The elements of an array, with `scanOnce` for each of them. -/
def scanElements (scanOnce : Scanner) : ℕ → Str → Except Exn (List JsonValue × Str)
  | 0, _ => .error .jsonDecodeError
  | fuel + 1, s => do
      let (value, s) ← scanOnce s
      match skipSpace s with
      | 93 :: rest => pure ([value], rest)
      | 44 :: rest => do
          let (values, rest) ← scanElements scanOnce fuel (skipSpace rest)
          pure (value :: values, rest)
      | _ => throw .jsonDecodeError

/-- An array, after the opening bracket. -/
def parseArray (scanOnce : Scanner) (s : Str) : Except Exn (JsonValue × Str) :=
  match skipSpace s with
  | 93 :: rest => .ok (.list [], rest)
  | s => (scanElements scanOnce (s.length + 1) s).map fun (values, rest) => (.list values, rest)

/-- The items of an object, with `scanOnce` for the values; the first key has its quote taken
off. -/
def scanItems (scanOnce : Scanner) : ℕ → Str → Except Exn (List (Str × JsonValue) × Str)
  | 0, _ => .error .jsonDecodeError
  | fuel + 1, s => do
      let (key, s) ← scanstring s
      match skipSpace s with
      -- 58 is `:`
      | 58 :: s => do
          let (value, s) ← scanOnce (skipSpace s)
          match skipSpace s with
          -- 125 is `}`
          | 125 :: rest => pure ([(key, value)], rest)
          -- 44 is `,`, and a key has to follow: 34 is its quote
          | 44 :: rest =>
              match skipSpace rest with
              | 34 :: rest => do
                  let (items, rest) ← scanItems scanOnce fuel rest
                  pure ((key, value) :: items, rest)
              | _ => throw .jsonDecodeError
          | _ => throw .jsonDecodeError
      | _ => throw .jsonDecodeError

/-- `dict(pairs)`: a key keeps its first place and gets its last value. -/
def ofPairs (pairs : List (Str × JsonValue)) : List (Str × JsonValue) :=
  pairs.foldl (fun items (key, value) =>
    if (items.map Prod.fst).contains key then
      items.map fun item => if item.1 = key then (key, value) else item
    else items ++ [(key, value)]) []

/-- An object, after the opening brace. -/
def parseObject (scanOnce : Scanner) (s : Str) : Except Exn (JsonValue × Str) :=
  match skipSpace s with
  | 125 :: rest => .ok (.dict [], rest)
  | 34 :: rest =>
      (scanItems scanOnce (rest.length + 1) rest).map fun (items, rest) =>
        (.dict (ofPairs items), rest)
  | _ => .error .jsonDecodeError

/-- One value, with at most `limit` containers inside each other. -/
def scanOnce : ℕ → Scanner
  | 0, s =>
      match s with
      | 123 :: _ => .error .recursionError
      | 91 :: _ => .error .recursionError
      | s => scanAtom s
  | limit + 1, s =>
      match s with
      | 123 :: rest => parseObject (scanOnce limit) rest
      | 91 :: rest => parseArray (scanOnce limit) rest
      | s => scanAtom s

/-- The decoder on a text: one value, with white space around it. -/
def decodeDocument (limit : ℕ) (s : Str) : Except Exn JsonValue := do
  let (value, rest) ← scanOnce limit (skipSpace s)
  if (skipSpace rest).isEmpty then pure value else throw .jsonDecodeError

/-! ## Bytes -/

/-- Decode the bytes in the encoding that `detect_encoding` finds, with `surrogatepass`. -/
def decodeDetected (b : List ℕ) : Option Str :=
  match b with
  -- the longer byte order marks come first, as `FF FE` begins two of them
  | 0 :: 0 :: 0xFE :: 0xFF :: rest => decodeUtf32 true rest
  | 0xFF :: 0xFE :: 0 :: 0 :: rest => decodeUtf32 false rest
  | 0xFE :: 0xFF :: rest => decodeUtf16 true rest
  | 0xFF :: 0xFE :: rest => decodeUtf16 false rest
  | 0xEF :: 0xBB :: 0xBF :: rest => decodeUtf8 true rest
  -- without a mark, the zeros among the first bytes tell the width and the order
  | b₀ :: b₁ :: b₂ :: b₃ :: _ =>
      if b₀ = 0 then if b₁ = 0 then decodeUtf32 true b else decodeUtf16 true b
      else if b₁ = 0 then
        if b₂ = 0 && b₃ = 0 then decodeUtf32 false b else decodeUtf16 false b
      else decodeUtf8 true b
  | [b₀, b₁] =>
      if b₀ = 0 then decodeUtf16 true b
      else if b₁ = 0 then decodeUtf16 false b
      else decodeUtf8 true b
  | _ => decodeUtf8 true b

/-- `json.loads(value)`, for bytes or `None`. -/
def loads (limit : ℕ) : Option Bytes → Except Exn JsonValue
  | none => .error .typeError
  | some bytes =>
      match decodeDetected (bytes.map UInt8.toNat) with
      | some s => decodeDocument limit s
      | none => .error .unicodeDecodeError

end Python
