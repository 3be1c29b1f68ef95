import Refract.Json.Text

namespace refract.json

/-- The decimal digits of a natural number. -/
def digits (n : Nat) : List Char :=
  if n < 10 then [Nat.digitChar n] else digits (n / 10) ++ [Nat.digitChar (n % 10)]

def printInt : Int → List Char
  | .ofNat n => digits n
  | .negSucc n => '-' :: digits (n + 1)

/-- A number is written as its integer literal, or as mantissa and exponent. -/
def Number.print : Number → List Char
  | .int i => printInt i
  | .float mantissa exponent => printInt mantissa ++ 'e' :: printInt exponent

def hexDigit (n : Nat) : Char := Nat.digitChar n

/-- Quotes, backslashes and control characters are escaped; every other
    character stands for itself. -/
def escape (c : Char) : List Char :=
  if c = '"' then ['\\', '"']
  else if c = '\\' then ['\\', '\\']
  else if c.toNat < 0x20 then
    ['\\', 'u', '0', '0', hexDigit (c.toNat / 16), hexDigit (c.toNat % 16)]
  else [c]

def printString (s : String) : List Char := '"' :: s.toList.flatMap escape ++ ['"']

mutual

/-- The compact text of a document. -/
def Value.print : Value → List Char
  | .null => "null".toList
  | .bool true => "true".toList
  | .bool false => "false".toList
  | .number n => n.print
  | .string s => printString s
  | .array [] => ['[', ']']
  | .array (v :: items) => '[' :: v.print ++ printItems items
  | .object [] => ['{', '}']
  | .object ((k, v) :: map) => '{' :: printString k ++ ':' :: v.print ++ printMembers map

/-- The items after the first, with the closing bracket. -/
def printItems : List Value → List Char
  | [] => [']']
  | v :: items => ',' :: v.print ++ printItems items

/-- The members after the first, with the closing brace. -/
def printMembers : List (String × Value) → List Char
  | [] => ['}']
  | (k, v) :: map => ',' :: printString k ++ ':' :: v.print ++ printMembers map

end

mutual

/-- The nesting and length of a document, a bound for the reader's fuel. -/
def Value.size : Value → Nat
  | .array [] => 1
  | .array (v :: items) => 1 + v.size + sizeItems items
  | .object [] => 1
  | .object ((_, v) :: map) => 1 + v.size + sizeMembers map
  | _ => 1

def sizeItems : List Value → Nat
  | [] => 1
  | v :: items => 1 + v.size + sizeItems items

def sizeMembers : List (String × Value) → Nat
  | [] => 1
  | (_, v) :: map => 1 + v.size + sizeMembers map

end

def isDigit (c : Char) : Bool := 48 ≤ c.toNat && c.toNat ≤ 57

def skipSpace : List Char → List Char
  | [] => []
  | c :: cs => if c = ' ' ∨ c = '\n' ∨ c = '\r' ∨ c = '\t' then skipSpace cs else c :: cs

/-- Splits off the longest prefix of digits. -/
def spanDigits : List Char → List Char × List Char
  | [] => ([], [])
  | c :: cs =>
    if isDigit c then
      let (ds, rest) := spanDigits cs
      (c :: ds, rest)
    else ([], c :: cs)

def ofDigits (ds : List Char) : Nat := ds.foldl (fun n c => 10 * n + (c.toNat - 48)) 0

/-- A nonempty run of digits. -/
def readDigits (cs : List Char) : Option (List Char × List Char) :=
  match spanDigits cs with
  | ([], _) => none
  | (ds, rest) => some (ds, rest)

def readSign : List Char → Bool × List Char
  | '-' :: cs => (true, cs)
  | cs => (false, cs)

/-- The digits after a decimal point, none without one. -/
def readFraction : List Char → Option (List Char × List Char)
  | '.' :: cs => readDigits cs
  | cs => some ([], cs)

/-- The signed exponent after an `e`, absent without one. -/
def readExponent : List Char → Option (Option Int × List Char)
  | c :: cs =>
    if c = 'e' ∨ c = 'E' then
      let (negative, cs) := readSign (if cs.head? = some '+' then cs.tail else cs)
      (readDigits cs).map fun (ds, rest) =>
        (some (if negative then -(ofDigits ds : Int) else ofDigits ds), rest)
    else some (none, c :: cs)
  | [] => some (none, [])

/-- A number literal. Without fraction and exponent it is an integer. -/
def readNumber (cs : List Char) : Option (Number × List Char) := do
  let (negative, cs) := readSign cs
  let (whole, cs) ← readDigits cs
  if whole.head? = some '0' ∧ 1 < whole.length then none
  let (fraction, cs) ← readFraction cs
  let (exponent, cs) ← readExponent cs
  let signed (n : Nat) : Int := if negative then -(n : Int) else n
  match fraction, exponent with
  | [], none => some (.int (signed (ofDigits whole)), cs)
  | _, _ => some (.float (signed (ofDigits (whole ++ fraction))) (exponent.getD 0 - fraction.length), cs)

def hexValue (c : Char) : Option Nat :=
  let n := c.toNat
  if 48 ≤ n ∧ n ≤ 57 then some (n - 48)
  else if 97 ≤ n ∧ n ≤ 102 then some (n - 87)
  else if 65 ≤ n ∧ n ≤ 70 then some (n - 55)
  else none

def readHex (a b c d : Char) : Option Nat := do
  some (((← hexValue a) * 16 + (← hexValue b)) * 256 + (← hexValue c) * 16 + (← hexValue d))

/-- The character after a backslash, for the escapes of one letter. -/
def unescape (c : Char) : Option Char :=
  if c = '"' ∨ c = '\\' ∨ c = '/' then some c
  else if c = 'b' then some (Char.ofNat 8)
  else if c = 'f' then some (Char.ofNat 12)
  else if c = 'n' then some '\n'
  else if c = 'r' then some '\r'
  else if c = 't' then some '\t'
  else none

def isHighSurrogate (code : Nat) : Bool := 0xD800 ≤ code && code < 0xDC00

def isLowSurrogate (code : Nat) : Bool := 0xDC00 ≤ code && code < 0xE000

/-- The characters of a string up to its closing quote. An escaped high
    surrogate is kept pending until the low one that must follow it. -/
def readString (pending : Option Nat) : List Char → Option (List Char × List Char)
  | [] => none
  | c :: rest =>
    if c = '\\' then
      match rest with
      | [] => none
      | e :: rest =>
        if e = 'u' then
          match rest with
          | h₁ :: h₂ :: h₃ :: h₄ :: rest =>
            match readHex h₁ h₂ h₃ h₄, pending with
            | none, _ => none
            | some code, none =>
              if isHighSurrogate code then readString (some code) rest
              else if isLowSurrogate code then none
              else (readString none rest).map fun (cs, rest) => (Char.ofNat code :: cs, rest)
            | some code, some high =>
              if isLowSurrogate code then
                (readString none rest).map fun (cs, rest) =>
                  (Char.ofNat (0x10000 + (high - 0xD800) * 1024 + (code - 0xDC00)) :: cs, rest)
              else none
          | _ => none
        else
          match unescape e, pending with
          | some e, none => (readString none rest).map fun (cs, rest) => (e :: cs, rest)
          | _, _ => none
    else if pending.isSome ∨ c.toNat < 0x20 then none
    else if c = '"' then some ([], rest)
    else (readString none rest).map fun (cs, rest) => (c :: cs, rest)

/-- Removes a literal word from the front. -/
def readWord (word : List Char) (v : Value) (cs : List Char) : Option (Value × List Char) :=
  if word.isPrefixOf cs then some (v, cs.drop word.length) else none

mutual

/-- Reads one document; the fuel bounds its nesting and length. -/
def readValue : Nat → List Char → Option (Value × List Char)
  | 0, _ => none
  | fuel + 1, cs =>
    match skipSpace cs with
    | [] => none
    | c :: cs =>
      if c = 'n' then readWord "ull".toList .null cs
      else if c = 't' then readWord "rue".toList (.bool true) cs
      else if c = 'f' then readWord "alse".toList (.bool false) cs
      else if c = '"' then (readString none cs).map fun (s, rest) => (.string (String.ofList s), rest)
      else if c = '[' then
        if (skipSpace cs).head? = some ']' then some (.array [], (skipSpace cs).tail)
        else do
          let (v, rest) ← readValue fuel cs
          let (items, rest) ← readItems fuel rest
          some (.array (v :: items), rest)
      else if c = '{' then
        if (skipSpace cs).head? = some '}' then some (.object [], (skipSpace cs).tail)
        else do
          let (entry, rest) ← readMember fuel cs
          let (map, rest) ← readMembers fuel rest
          some (.object ((entry :: map).foldl (fun map entry => Map.insert map entry.1 entry.2) []), rest)
      else (readNumber (c :: cs)).map fun (n, rest) => (.number n, rest)

def readItems : Nat → List Char → Option (List Value × List Char)
  | 0, _ => none
  | fuel + 1, cs =>
    match skipSpace cs with
    | ',' :: cs => do
      let (v, rest) ← readValue fuel cs
      let (items, rest) ← readItems fuel rest
      some (v :: items, rest)
    | ']' :: rest => some ([], rest)
    | _ => none

def readMember : Nat → List Char → Option ((String × Value) × List Char)
  | 0, _ => none
  | fuel + 1, cs =>
    match skipSpace cs with
    | '"' :: cs => do
      let (key, rest) ← readString none cs
      match skipSpace rest with
      | ':' :: cs => do
        let (v, rest) ← readValue fuel cs
        some ((String.ofList key, v), rest)
      | _ => none
    | _ => none

def readMembers : Nat → List Char → Option (List (String × Value) × List Char)
  | 0, _ => none
  | fuel + 1, cs =>
    match skipSpace cs with
    | ',' :: cs => do
      let (entry, rest) ← readMember fuel cs
      let (map, rest) ← readMembers fuel rest
      some (entry :: map, rest)
    | '}' :: rest => some ([], rest)
    | _ => none

end

/-- Reads a whole text, allowing whitespace around the document. -/
def read (cs : List Char) : Option Value :=
  match readValue (2 * cs.length + 1) cs with
  | some (v, rest) => if skipSpace rest = [] then some v else none
  | none => none

/-- A concrete reader and writer of JSON text. -/
def Serde.compact : Serde where
  from_str s := read s.toList
  to_string v := String.ofList v.print

end refract.json
