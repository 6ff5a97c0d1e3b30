import Mathlib.Data.List.TakeWhile

/-! JSON text as Python's `json` module writes and reads it. `dumps` is
    `json.dumps(value, separators=(",", ":"))`: no blanks, everything outside printable ASCII escaped.
    `loads` is `json.loads`: one value with blanks around its tokens, and nothing after it.

    A string is the list of its UTF-16 units, which is what its escapes are about: a character above
    the basic plane is two units and is written as two escapes, and reading joins nothing. A number is
    the literal that stands for it, so that a value and its text determine each other. -/

namespace Json

/-! ### Values -/

/-- A string as its UTF-16 units. -/
abbrev Text := List (Fin 65536)

/-- The units of one character. -/
def unitsOf (c : Char) : Text :=
  if c.toNat < 65536 then [Fin.ofNat 65536 c.toNat]
  else
    let v := c.toNat - 65536
    [Fin.ofNat 65536 (0xd800 + v / 1024), Fin.ofNat 65536 (0xdc00 + v % 1024)]

def text (s : String) : Text := s.toList.flatMap unitsOf

/-- A run of decimal digits. -/
structure Digits where
  chars : List Char
  ne_nil : chars ≠ []
  digit : ∀ c ∈ chars, c.isDigit = true

/-- A number literal; it is an integer when it has neither fraction nor exponent. The flag of the
    exponent is its minus sign. -/
structure Number where
  negative : Bool
  whole : Nat
  fraction : Option Digits
  exponent : Option (Bool × Digits)

end Json

/-- What Python's `json` reads and writes. An object keeps its pairs in order; the constants `NaN`,
    `Infinity` and `-Infinity` are Python's own. -/
inductive Json where
  | null
  | bool (b : Bool)
  | nan
  | infinity (negative : Bool)
  | number (n : Json.Number)
  | string (s : Json.Text)
  | array (items : List Json)
  | object (fields : List (Json.Text × Json))

namespace Json

def Number.ofNat (n : Nat) : Number := ⟨false, n, none, none⟩

/-- `dict.get`: of several pairs with one key the last counts. -/
def get? (key : Text) : Json → Option Json
  | .object fields => (fields.reverse.find? fun f => f.1 = key).map Prod.snd
  | _ => none

/-! ### Writing -/

/-- A four-digit escape. -/
def unicodeEscape (n : Nat) : List Char :=
  ['\\', 'u', (n / 4096 % 16).digitChar, (n / 256 % 16).digitChar, (n / 16 % 16).digitChar,
    (n % 16).digitChar]

def shortEscape? : Nat → Option Char
  | 0x22 => some '"'
  | 0x5c => some '\\'
  | 0x08 => some 'b'
  | 0x0c => some 'f'
  | 0x0a => some 'n'
  | 0x0d => some 'r'
  | 0x09 => some 't'
  | _ => none

def escapeUnit (u : Fin 65536) : List Char :=
  match shortEscape? u.val with
  | some c => ['\\', c]
  | none => if 0x20 ≤ u.val ∧ u.val ≤ 0x7e then [Char.ofNat u.val] else unicodeEscape u.val

def dumpsString (s : Text) : List Char := '"' :: s.flatMap escapeUnit ++ ['"']

def dumpsFraction (f : Option Digits) : List Char := f.elim [] fun d => '.' :: d.chars

def dumpsExponent (e : Option (Bool × Digits)) : List Char :=
  e.elim [] fun e => 'e' :: (if e.1 then '-' else '+') :: e.2.chars

/-- A number without its sign. -/
def dumpsMagnitude (n : Number) : List Char :=
  Nat.toDigits 10 n.whole ++ (dumpsFraction n.fraction ++ dumpsExponent n.exponent)

def dumpsNumber (n : Number) : List Char :=
  if n.negative then '-' :: dumpsMagnitude n else dumpsMagnitude n

mutual
/-- `json.dumps` with the compact separators. -/
def dumps : Json → List Char
  | .null => "null".toList
  | .bool true => "true".toList
  | .bool false => "false".toList
  | .nan => "NaN".toList
  | .infinity false => "Infinity".toList
  | .infinity true => "-Infinity".toList
  | .number n => dumpsNumber n
  | .string s => dumpsString s
  | .array items => '[' :: dumpsItems items ++ [']']
  | .object fields => '{' :: dumpsFields fields ++ ['}']

/-- The items of an array, with their commas. -/
def dumpsItems : List Json → List Char
  | [] => []
  | [v] => dumps v
  | v :: w :: rest => dumps v ++ ',' :: dumpsItems (w :: rest)

/-- The pairs of an object, with their commas. -/
def dumpsFields : List (Text × Json) → List Char
  | [] => []
  | [(k, v)] => dumpsString k ++ ':' :: dumps v
  | (k, v) :: f :: rest => dumpsString k ++ ':' :: dumps v ++ ',' :: dumpsFields (f :: rest)
end

/-! ### Reading -/

/-- The blanks between tokens. -/
def isBlank (c : Char) : Bool := c = ' ' || c = '\t' || c = '\n' || c = '\r'

def skipBlanks (cs : List Char) : List Char := cs.dropWhile isBlank

/-- The rest of the text after a word. -/
def word? : List Char → List Char → Option (List Char)
  | [], cs => some cs
  | w :: ws, c :: cs => if c = w then word? ws cs else none
  | _ :: _, [] => none

def hexValue? (c : Char) : Option Nat :=
  if '0' ≤ c ∧ c ≤ '9' then some (c.toNat - '0'.toNat)
  else if 'a' ≤ c ∧ c ≤ 'f' then some (c.toNat - 'a'.toNat + 10)
  else if 'A' ≤ c ∧ c ≤ 'F' then some (c.toNat - 'A'.toNat + 10)
  else none

/-- What follows a backslash: one unit, and the rest of the text. -/
def readEscape : List Char → Option (Fin 65536 × List Char)
  | 'u' :: a :: b :: c :: d :: rest => do
    let a ← hexValue? a
    let b ← hexValue? b
    let c ← hexValue? c
    let d ← hexValue? d
    return (Fin.ofNat 65536 (a * 4096 + b * 256 + c * 16 + d), rest)
  | '"' :: rest => some (0x22, rest)
  | '\\' :: rest => some (0x5c, rest)
  | '/' :: rest => some (0x2f, rest)
  | 'b' :: rest => some (0x08, rest)
  | 'f' :: rest => some (0x0c, rest)
  | 'n' :: rest => some (0x0a, rest)
  | 'r' :: rest => some (0x0d, rest)
  | 't' :: rest => some (0x09, rest)
  | _ => none

/-- What follows the opening quote, up to the closing one. The fuel bounds the units. -/
def readString : Nat → List Char → Option (Text × List Char)
  | fuel + 1, c :: cs =>
    if c = '"' then some ([], cs)
    else if c = '\\' then do
      let (u, cs) ← readEscape cs
      let (s, rest) ← readString fuel cs
      return (u :: s, rest)
    else if c.toNat < 0x20 then none
    else do
      let (s, rest) ← readString fuel cs
      return (unitsOf c ++ s, rest)
  | _, _ => none

/-- The digits the text starts with. -/
def readDigits? (cs : List Char) : Option (Digits × List Char) :=
  if h : cs.takeWhile Char.isDigit ≠ [] then
    some (⟨cs.takeWhile Char.isDigit, h, fun _ hc => List.mem_takeWhile_imp hc⟩,
      cs.dropWhile Char.isDigit)
  else none

/-- `0`, or digits that do not start with it. -/
def readWhole : List Char → Option (Nat × List Char)
  | '0' :: rest => some (0, rest)
  | cs => (readDigits? cs).map fun d => (Nat.ofDigitChars 10 d.1.chars 0, d.2)

def readFraction : List Char → Option Digits × List Char
  | '.' :: rest =>
    match readDigits? rest with
    | some (d, rest) => (some d, rest)
    | none => (none, '.' :: rest)
  | cs => (none, cs)

/-- The sign of an exponent: a minus, or nothing or a plus. -/
def readSign : List Char → Bool × List Char
  | '-' :: rest => (true, rest)
  | '+' :: rest => (false, rest)
  | cs => (false, cs)

def readExponent : List Char → Option (Bool × Digits) × List Char
  | c :: rest =>
    if c = 'e' ∨ c = 'E' then
      match readDigits? (readSign rest).2 with
      | some (d, rest') => (some ((readSign rest).1, d), rest')
      | none => (none, c :: rest)
    else (none, c :: rest)
  | [] => (none, [])

/-- The number after its sign. -/
def readNumber (negative : Bool) (cs : List Char) : Option (Number × List Char) := do
  let (whole, cs) ← readWhole cs
  let (fraction, cs) := readFraction cs
  let (exponent, cs) := readExponent cs
  return (⟨negative, whole, fraction, exponent⟩, cs)

/-- The items of an array after the first bracket, with `value` reading an item. -/
def readItems (value : List Char → Option (Json × List Char)) :
    Nat → List Char → Option (List Json × List Char)
  | 0, _ => none
  | fuel + 1, cs => do
    let (v, cs) ← value cs
    match skipBlanks cs with
    | ',' :: cs =>
      let (vs, rest) ← readItems value fuel (skipBlanks cs)
      return (v :: vs, rest)
    | ']' :: rest => return ([v], rest)
    | _ => none

/-- The pairs of an object after the first quote. -/
def readFields (value : List Char → Option (Json × List Char)) :
    Nat → List Char → Option (List (Text × Json) × List Char)
  | 0, _ => none
  | fuel + 1, cs => do
    let (k, cs) ← readString fuel cs
    match skipBlanks cs with
    | ':' :: cs =>
      let (v, cs) ← value (skipBlanks cs)
      match skipBlanks cs with
      | ',' :: cs =>
        match skipBlanks cs with
        | '"' :: cs =>
          let (fs, rest) ← readFields value fuel cs
          return ((k, v) :: fs, rest)
        | _ => none
      | '}' :: rest => return ([(k, v)], rest)
      | _ => none
    | _ => none

/-- What follows an opening brace. -/
def readObject (value : List Char → Option (Json × List Char)) (fuel : Nat) (cs : List Char) :
    Option (Json × List Char) :=
  match skipBlanks cs with
  | '}' :: rest => some (.object [], rest)
  | '"' :: cs => (readFields value fuel cs).map fun r => (.object r.1, r.2)
  | _ => none

/-- What follows an opening bracket. -/
def readArray (value : List Char → Option (Json × List Char)) (fuel : Nat) (cs : List Char) :
    Option (Json × List Char) :=
  match skipBlanks cs with
  | ']' :: rest => some (.array [], rest)
  | cs => (readItems value fuel cs).map fun r => (.array r.1, r.2)

/-- The constants by their first letter: the rest of the word, and the value. -/
def constant? : Char → Option (List Char × Json)
  | 'n' => some ("ull".toList, .null)
  | 't' => some ("rue".toList, .bool true)
  | 'f' => some ("alse".toList, .bool false)
  | 'N' => some ("aN".toList, .nan)
  | 'I' => some ("nfinity".toList, .infinity false)
  | _ => none

/-- What follows a minus sign. -/
def readNegative (cs : List Char) : Option (Json × List Char) :=
  match word? "Infinity".toList cs with
  | some rest => some (.infinity true, rest)
  | none => (readNumber true cs).map fun r => (.number r.1, r.2)

/-- One value at the start of the text. The fuel bounds the length of the text. -/
def readValue : Nat → List Char → Option (Json × List Char)
  | fuel + 1, c :: cs =>
    if c = '"' then (readString fuel cs).map fun r => (.string r.1, r.2)
    else if c = '{' then readObject (readValue fuel) fuel cs
    else if c = '[' then readArray (readValue fuel) fuel cs
    else if c = '-' then readNegative cs
    else match constant? c with
      | some (w, v) => (word? w cs).map fun r => (v, r)
      | none => (readNumber false (c :: cs)).map fun r => (.number r.1, r.2)
  | _, _ => none

/-- `none` is `JSONDecodeError`. -/
def loads (cs : List Char) : Option Json :=
  match readValue (cs.length + 1) (skipBlanks cs) with
  | some (v, rest) => if skipBlanks rest = [] then some v else none
  | none => none

end Json
