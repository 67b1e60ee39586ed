import MiniBanking.Go.Text

/-!
# JSON of the Go standard library

`encoding/json`: the texts it accepts, how it decodes them into structures, and the texts it
writes. Names in a text may repeat and the last one counts; a name that is not a field in full
is one if it is up to case; `null` leaves a field as it is.

## Main definitions

* `Json`: values, with numbers as they are written and members in the order of the text
* `Json.parse`: `json.Valid` texts and the values they denote
* `Json.marshal`: `json.Marshal` of a decoded value
* `Json.intoString`, `Json.intoInt64`, `Json.intoBytes`, `Json.intoStrings`: decoding of a value
  into a field
* `Json.intoFields`: decoding of an object into a structure
-/

namespace Go

/-- A JSON value. -/
inductive Json where
  | null
  | bool (b : Bool)
  /-- A number as it is written. -/
  | number (literal : String)
  | string (s : String)
  | array (elems : List Json)
  /-- The members in the order of the text, where names may repeat. -/
  | object (members : List (String × Json))

namespace Json

/-! ## Texts -/

/-- `unicode.ReplacementChar`. -/
def replacement : Char := Char.ofNat 0xFFFD

/-- A byte that continues a rune. -/
def isTail (b : UInt8) : Bool := 0x80 ≤ b && b ≤ 0xBF

/-- `utf8.DecodeRune`: the first rune of some bytes, where a byte that starts no rune is read as
the replacement character. -/
def decodeRune (b : UInt8) (rest : List UInt8) : Char × List UInt8 :=
  let bad := (replacement, rest)
  if b < 0x80 then (Char.ofNat b.toNat, rest) else
  match rest with
  | b₁ :: rest₁ =>
    if 0xC2 ≤ b && b ≤ 0xDF then
      if isTail b₁ then (Char.ofNat ((b.toNat % 32) * 64 + b₁.toNat % 64), rest₁) else bad
    else match rest₁ with
    | b₂ :: rest₂ =>
      if 0xE0 ≤ b && b ≤ 0xEF then
        if isTail b₁ && isTail b₂ && (b != 0xE0 || 0xA0 ≤ b₁) && (b != 0xED || b₁ ≤ 0x9F) then
          (Char.ofNat ((b.toNat % 16) * 4096 + (b₁.toNat % 64) * 64 + b₂.toNat % 64), rest₂)
        else bad
      else match rest₂ with
      | b₃ :: rest₃ =>
        if 0xF0 ≤ b && b ≤ 0xF4 && isTail b₁ && isTail b₂ && isTail b₃ &&
            (b != 0xF0 || 0x90 ≤ b₁) && (b != 0xF4 || b₁ ≤ 0x8F) then
          (Char.ofNat ((b.toNat % 8) * 262144 + (b₁.toNat % 64) * 4096 + (b₂.toNat % 64) * 64 +
            b₃.toNat % 64), rest₃)
        else bad
      | [] => bad
    | [] => bad
  | [] => bad

/-- Four hexadecimal digits. -/
def hex4 : List UInt8 → Option (ℕ × List UInt8)
  | a :: b :: c :: d :: rest => do
    let digit (b : UInt8) := hexValue (Char.ofNat b.toNat)
    return ((← digit a) * 4096 + (← digit b) * 256 + (← digit c) * 16 + (← digit d), rest)
  | _ => none

/-- The character of `\u` and a code unit: of a pair of surrogates, if the other one follows, and
the replacement character for one alone. -/
def codeUnit (u : ℕ) (rest : List UInt8) : Char × List UInt8 :=
  if u < 0xD800 || 0xDFFF < u then (Char.ofNat u, rest) else
  match rest with
  | 92 :: 117 :: rest' =>
    match hex4 rest' with
    | some (v, rest'') =>
      if u < 0xDC00 && 0xDC00 ≤ v && v ≤ 0xDFFF then
        (Char.ofNat (0x10000 + (u - 0xD800) * 1024 + (v - 0xDC00)), rest'')
      else (replacement, rest)
    | none => (replacement, rest)
  | _ => (replacement, rest)

/-- What follows a backslash. -/
def escape : List UInt8 → Option (Char × List UInt8)
  | 34 :: rest => some ('"', rest)
  | 92 :: rest => some ('\\', rest)
  | 47 :: rest => some ('/', rest)
  | 98 :: rest => some (Char.ofNat 8, rest)
  | 102 :: rest => some (Char.ofNat 12, rest)
  | 110 :: rest => some ('\n', rest)
  | 114 :: rest => some ('\r', rest)
  | 116 :: rest => some ('\t', rest)
  | 117 :: rest => do
    let (u, rest) ← hex4 rest
    return codeUnit u rest
  | _ => none

/-- A string after its opening quote. -/
def stringBody : ℕ → List UInt8 → Option (List Char × List UInt8)
  | 0, _ => none
  | _, [] => none
  | fuel + 1, b :: rest =>
    if b = 34 then some ([], rest)
    else if b = 92 then do
      let (c, rest) ← escape rest
      let (cs, rest) ← stringBody fuel rest
      return (c :: cs, rest)
    else if b < 0x20 then none
    else do
      let (c, rest) := decodeRune b rest
      let (cs, rest) ← stringBody fuel rest
      return (c :: cs, rest)

/-- A digit. -/
def isDigit (b : UInt8) : Bool := 48 ≤ b && b ≤ 57

/-- One digit or more. -/
def digits (bytes : List UInt8) : Option (List UInt8 × List UInt8) :=
  match bytes.span isDigit with
  | ([], _) => none
  | r => some r

/-- The integer part of a number: no digit follows a leading zero. -/
def integer : List UInt8 → Option (List UInt8 × List UInt8)
  | 48 :: rest => some ([48], rest)
  | bytes => digits bytes

/-- The fraction of a number, which may be missing. -/
def fractionPart : List UInt8 → Option (List UInt8 × List UInt8)
  | 46 :: rest => do
    let (ds, rest) ← digits rest
    return (46 :: ds, rest)
  | bytes => some ([], bytes)

/-- The exponent of a number, which may be missing. -/
def exponentPart : List UInt8 → Option (List UInt8 × List UInt8)
  | e :: rest =>
    if e = 101 || e = 69 then do
      let (sign, rest) : List UInt8 × List UInt8 := match rest with
        | 43 :: rest => ([43], rest)
        | 45 :: rest => ([45], rest)
        | rest => ([], rest)
      let (ds, rest) ← digits rest
      return (e :: sign ++ ds, rest)
    else some ([], e :: rest)
  | [] => some ([], [])

/-- A number. -/
def numberText (bytes : List UInt8) : Option (String × List UInt8) := do
  let (sign, bytes) : List UInt8 × List UInt8 := match bytes with
    | 45 :: rest => ([45], rest)
    | bytes => ([], bytes)
  let (int, bytes) ← integer bytes
  let (frac, bytes) ← fractionPart bytes
  let (exp, bytes) ← exponentPart bytes
  return (String.ofList ((sign ++ int ++ frac ++ exp).map fun b => Char.ofNat b.toNat), bytes)

/-- White space between tokens. -/
def skipSpace (bytes : List UInt8) : List UInt8 :=
  bytes.dropWhile fun b => b = 32 || b = 9 || b = 10 || b = 13

mutual

/-- A value, with white space before it. -/
def value : ℕ → ℕ → List UInt8 → Option (Json × List UInt8)
  | 0, _, _ => none
  | fuel + 1, depth, bytes =>
    match skipSpace bytes with
    | 110 :: 117 :: 108 :: 108 :: rest => some (.null, rest)
    | 116 :: 114 :: 117 :: 101 :: rest => some (.bool true, rest)
    | 102 :: 97 :: 108 :: 115 :: 101 :: rest => some (.bool false, rest)
    | 34 :: rest => do
      let (cs, rest) ← stringBody (rest.length + 1) rest
      return (.string (String.ofList cs), rest)
    | 91 :: rest =>
      match depth with
      | 0 => none
      | depth + 1 =>
        match skipSpace rest with
        | 93 :: rest => some (.array [], rest)
        | rest => do
          let (elems, rest) ← elements fuel depth rest
          return (.array elems, rest)
    | 123 :: rest =>
      match depth with
      | 0 => none
      | depth + 1 =>
        match skipSpace rest with
        | 125 :: rest => some (.object [], rest)
        | rest => do
          let (ms, rest) ← members fuel depth rest
          return (.object ms, rest)
    | bytes => do
      let (literal, rest) ← numberText bytes
      return (.number literal, rest)

/-- The elements of an array, up to its end. -/
def elements : ℕ → ℕ → List UInt8 → Option (List Json × List UInt8)
  | 0, _, _ => none
  | fuel + 1, depth, bytes => do
    let (v, rest) ← value fuel depth bytes
    match skipSpace rest with
    | 44 :: rest =>
      let (vs, rest) ← elements fuel depth rest
      return (v :: vs, rest)
    | 93 :: rest => return ([v], rest)
    | _ => none

/-- The members of an object, up to its end. -/
def members : ℕ → ℕ → List UInt8 → Option (List (String × Json) × List UInt8)
  | 0, _, _ => none
  | fuel + 1, depth, bytes =>
    match skipSpace bytes with
    | 34 :: rest => do
      let (cs, rest) ← stringBody (rest.length + 1) rest
      match skipSpace rest with
      | 58 :: rest =>
        let (v, rest) ← value fuel depth rest
        match skipSpace rest with
        | 44 :: rest =>
          let (ms, rest) ← members fuel depth rest
          return ((String.ofList cs, v) :: ms, rest)
        | 125 :: rest => return ([(String.ofList cs, v)], rest)
        | _ => none
      | _ => none
    | _ => none

end

/-- The value of a whole text, nested at most ten thousand deep. Every nested call comes after a
byte of the text, so its length is fuel enough. -/
def parse (bytes : List UInt8) : Option Json := do
  let (v, rest) ← value (bytes.length + 1) 10000 bytes
  if (skipSpace rest).isEmpty then some v else none

/-! ## Writing -/

/-- A character of a string as `json.Marshal` writes it, safe inside HTML. -/
def quoteChar (c : Char) : List Char :=
  let n := c.toNat
  if c = '"' || c = '\\' then ['\\', c]
  else if n = 8 then ['\\', 'b']
  else if n = 12 then ['\\', 'f']
  else if n = 10 then ['\\', 'n']
  else if n = 13 then ['\\', 'r']
  else if n = 9 then ['\\', 't']
  else if n < 0x20 || c = '<' || c = '>' || c = '&' then
    ['\\', 'u', '0', '0', hexDigit (n / 16), hexDigit (n % 16)]
  else if n = 0x2028 || n = 0x2029 then ['\\', 'u', '2', '0', '2', hexDigit (n % 16)]
  else [c]

/-- A string as `json.Marshal` writes it. -/
def quote (s : String) : List Char := '"' :: s.toList.flatMap quoteChar ++ ['"']

/-- `m[name] = v` on a map that is kept in the order of its names. -/
def insertMember {α : Type} (name : String) (v : α) : List (String × α) → List (String × α)
  | [] => [(name, v)]
  | (name', v') :: rest =>
    if name = name' then (name, v) :: rest
    else if name.toList < name'.toList then (name, v) :: (name', v') :: rest
    else (name', v') :: insertMember name v rest

/-- Texts with commas between them. -/
def commas : List (List Char) → List Char
  | [] => []
  | [t] => t
  | t :: ts => t ++ ',' :: commas ts

mutual

/-- The text of a value: members in the order of their names, of which the last one counts. -/
def text : Json → List Char
  | null => "null".toList
  | bool b => if b then "true".toList else "false".toList
  | number literal => literal.toList
  | string s => quote s
  | array elems => '[' :: commas (texts elems) ++ [']']
  | object ms =>
    '{' :: commas ((memberTexts ms []).map fun (name, t) => quote name ++ ':' :: t) ++ ['}']

/-- The texts of values. -/
def texts : List Json → List (List Char)
  | [] => []
  | v :: vs => text v :: texts vs

/-- The texts of members, put into a map. -/
def memberTexts : List (String × Json) → List (String × List Char) → List (String × List Char)
  | [], m => m
  | (name, v) :: ms, m => memberTexts ms (insertMember name (text v) m)

end

/-- `json.Marshal` of a decoded value. -/
def marshal (v : Json) : List UInt8 := utf8 (String.ofList (text v))

example :
    (parse (utf8 "\x7b\"b\": [1.50, \"\\u0041<\\ud83d\\ude00\"], \"a\": null, \"b\": [0]\x7d")).map
      marshal = some (utf8 "\x7b\"a\":null,\"b\":[0]\x7d") := by decide +kernel

/-! ## Decoding into structures -/

/-- A value into a field of type `string`. -/
def intoString (v : Json) (old : String) : Option String :=
  match v with
  | null => some old
  | string s => some s
  | _ => none

/-- `strconv.ParseInt(literal, 10, 64)`. -/
def parseInt64 (literal : String) : Option Int64 :=
  let (sign, ds) : ℤ × List Char := match literal.toList with
    | '-' :: ds => (-1, ds)
    | ds => (1, ds)
  if ds.isEmpty || ds.any fun c => c < '0' || '9' < c then none
  else
    let n := sign * ds.foldl (fun n c => 10 * n + (c.toNat - 48 : ℕ)) 0
    if -2 ^ 63 ≤ n && n < 2 ^ 63 then some (.ofInt n) else none

/-- A value into a field of type `int64`. -/
def intoInt64 (v : Json) (old : Int64) : Option Int64 :=
  match v with
  | null => some old
  | number literal => parseInt64 literal
  | _ => none

/-- The elements of an array into a slice, over the elements it had. -/
def intoSlice {α : Type} (into : Json → α → Option α) (zero : α) : List Json → List α →
    Option (List α)
  | [], _ => some []
  | v :: vs, old => do
    return (← into v (old.headD zero)) :: (← intoSlice into zero vs old.tail)

/-- A value into a field of type `[]string`. -/
def intoStrings (v : Json) (old : List String) : Option (List String) :=
  match v with
  | null => some []
  | array elems => intoSlice intoString "" elems old
  | _ => none

/-- A value into an element of type `byte`. -/
def intoByte (v : Json) (old : UInt8) : Option UInt8 :=
  match v with
  | null => some old
  | number literal => do
    let n ← parseInt64 literal
    if 0 ≤ n && n ≤ 255 && literal.toList.head? != some '-' then some (.ofNat n.toInt.toNat)
    else none
  | _ => none

/-- A value into a field of type `[]byte`: base64, or an array of numbers. -/
def intoBytes (v : Json) (old : List UInt8) : Option (List UInt8) :=
  match v with
  | null => some []
  | string s => decodeBase64 s
  | array elems => intoSlice intoByte 0 elems old
  | _ => none

/-- The smallest character that is the same up to case, for names in ASCII. -/
def foldChar (c : Char) : Char :=
  if 'a' ≤ c && c ≤ 'z' then Char.ofNat (c.toNat - 32)
  else if c.toNat = 0x17F then 'S'
  else if c.toNat = 0x212A then 'K'
  else c

/-- The field with a name, or else the first one whose name is the same up to case. -/
def field? {α : Type} (fields : List (String × α)) (name : String) : Option α :=
  match fields.lookup name with
  | some f => some f
  | none =>
    (fields.find? fun (n, _) => n.toList.map foldChar = name.toList.map foldChar).map (·.2)

/-- `json.Unmarshal` into a structure with the given fields: members that are no field are left
out, and one that does not fit its field is an error. -/
def intoFields {σ : Type} (fields : List (String × (Json → σ → Option σ))) (v : Json) (zero : σ) :
    Option σ :=
  match v with
  | null => some zero
  | object ms => ms.foldlM (fun s (name, v) =>
      match field? fields name with
      | some into => into v s
      | none => some s) zero
  | _ => none

end Json

end Go
