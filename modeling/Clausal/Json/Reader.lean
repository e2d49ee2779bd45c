import Clausal.Json.Document
import Clausal.Number.Rounding

/-!
# Reading JSON texts

The grammar of JSON, with one value in a text and blanks around it. What the grammar admits but no
value can hold becomes a faulty part of the document.

A number without fraction and exponent is an integer when it fits 64 bits, with or without a sign;
a negative zero and all other numbers are floating-point numbers.
-/

namespace Clausal.Document

/-- The blanks of JSON. -/
def isSpace (c : Char) : Bool := c = ' ' || c = '\n' || c = '\t' || c = '\r'

def skipSpaces (cs : List Char) : List Char := cs.dropWhile isSpace

/-- The value of decimal digits, most significant first. -/
def digitsValue (cs : List Char) : Nat := cs.foldl (fun n c => 10 * n + (c.toNat - '0'.toNat)) 0

/-- The digits at the start, if there is one, and the rest. -/
def readDigits (cs : List Char) : Option (List Char × List Char) :=
  match cs.takeWhile Char.isDigit with
  | [] => none
  | ds => some (ds, cs.dropWhile Char.isDigit)

/-- The digits before the point: a leading zero stands alone. -/
def readWhole (cs : List Char) : Option (List Char × List Char) := do
  let (ds, rest) ← readDigits cs
  if ds.head? = some '0' ∧ 1 < ds.length then none else some (ds, rest)

/-- The digits after a point, when there is one. -/
def readFraction : List Char → Option (Option (List Char) × List Char)
  | '.' :: cs => do
    let (ds, rest) ← readDigits cs
    some (some ds, rest)
  | cs => some (none, cs)

/-- The exponent, when there is one. -/
def readExponent : List Char → Option (Option Int × List Char)
  | 'e' :: cs | 'E' :: cs =>
    match cs with
    | '-' :: cs => do
      let (ds, rest) ← readDigits cs
      some (some (-(digitsValue ds : Int)), rest)
    | '+' :: cs => do
      let (ds, rest) ← readDigits cs
      some (some (digitsValue ds), rest)
    | cs => do
      let (ds, rest) ← readDigits cs
      some (some (digitsValue ds), rest)
  | cs => some (none, cs)

/-- A floating-point number, unless it is too large. -/
def ofFloat (x : Binary64) : Document :=
  if x.isFinite then .num (.float x) else .fault .numberTooLarge

/-- A number without fraction and exponent. -/
def ofInteger (negative : Bool) (n : Nat) : Document :=
  if negative then
    if n = 0 ∨ -(n : Int) < Int64.minValue.toInt then ofFloat (.ofDecimal true n 0)
    else .num (.int (-n))
  else if n < UInt64.size then .num (.int n)
  else ofFloat (.ofDecimal false n 0)

/-- A number after its sign. -/
def readUnsigned (negative : Bool) (cs : List Char) : Option (Document × List Char) := do
  let (whole, rest) ← readWhole cs
  let (fraction, rest) ← readFraction rest
  let (exponent, rest) ← readExponent rest
  if fraction.isNone && exponent.isNone then
    some (ofInteger negative (digitsValue whole), rest)
  else
    let places := fraction.getD []
    let x := Binary64.ofDecimal negative (digitsValue (whole ++ places))
      (exponent.getD 0 - places.length)
    some (ofFloat x, rest)

def readNumber : List Char → Option (Document × List Char)
  | '-' :: cs => readUnsigned true cs
  | cs => readUnsigned false cs

def hexValue? (c : Char) : Option Nat :=
  if '0' ≤ c ∧ c ≤ '9' then some (c.toNat - '0'.toNat)
  else if 'a' ≤ c ∧ c ≤ 'f' then some (c.toNat - 'a'.toNat + 10)
  else if 'A' ≤ c ∧ c ≤ 'F' then some (c.toNat - 'A'.toNat + 10)
  else none

/-- A character of a string, or a code unit that is written in hex. -/
inductive StringPart
  | char (c : Char)
  | codeUnit (n : Nat)

/-- The character of a one-letter escape. -/
def escaped? : Char → Option Char
  | '"' => some '"'
  | '\\' => some '\\'
  | '/' => some '/'
  | 'b' => some (Char.ofNat 8)
  | 'f' => some (Char.ofNat 12)
  | 'n' => some '\n'
  | 'r' => some '\r'
  | 't' => some '\t'
  | _ => none

/-- The parts of a string up to its closing quote, and what follows the quote. -/
def readParts : List Char → Option (List StringPart × List Char)
  | [] => none
  | '"' :: rest => some ([], rest)
  | '\\' :: 'u' :: a :: b :: c :: d :: rest => do
    let high := 16 * (← hexValue? a) + (← hexValue? b)
    let n := (16 * high + (← hexValue? c)) * 16 + (← hexValue? d)
    let (parts, rest) ← readParts rest
    some (.codeUnit n :: parts, rest)
  | '\\' :: c :: rest => do
    let e ← escaped? c
    let (parts, rest) ← readParts rest
    some (.char e :: parts, rest)
  | c :: rest =>
    if c.toNat < 32 then none
    else do
      let (parts, rest) ← readParts rest
      some (.char c :: parts, rest)

def isHighSurrogate (n : Nat) : Bool := 0xD800 ≤ n && n ≤ 0xDBFF

def isLowSurrogate (n : Nat) : Bool := 0xDC00 ≤ n && n ≤ 0xDFFF

/-- The characters that parts stand for, when every surrogate is one of a pair. -/
def joinParts : List StringPart → Option (List Char)
  | [] => some []
  | .char c :: rest => (joinParts rest).map (c :: ·)
  | .codeUnit n :: tail =>
    if isHighSurrogate n then
      match tail with
      | .codeUnit m :: rest =>
        if isLowSurrogate m then
          (joinParts rest).map (Char.ofNat (0x10000 + (n - 0xD800) * 0x400 + (m - 0xDC00)) :: ·)
        else none
      | _ => none
    else if isLowSurrogate n then none
    else (joinParts tail).map (Char.ofNat n :: ·)

/-- A string after its opening quote; its characters are missing when a surrogate is unpaired. -/
def readString (cs : List Char) : Option (Option String × List Char) := do
  let (parts, rest) ← readParts cs
  some ((joinParts parts).map String.ofList, rest)

/-- A fixed word at the start. -/
def readWord (word : String) (d : Document) (cs : List Char) : Option (Document × List Char) :=
  if word.toList.isPrefixOf cs then some (d, cs.drop word.length) else none

/-- An array or object, unless it is too deep. -/
def atDepth (room : Nat) (d : Document) : Document := if room = 0 then .fault .tooDeep else d

/-- An object, unless one of its keys is faulty. -/
def ofKeyed (members : List (Option String × Document)) : Document :=
  match members.mapM fun m => m.1.map (·, m.2) with
  | some ms => .obj ms
  | none => .fault .unpairedSurrogate

mutual

/-- A value, inside which `room` more arrays and objects may be nested. -/
def readValue : Nat → Nat → List Char → Option (Document × List Char)
  | 0, _, _ => none
  | fuel + 1, room, cs =>
    match skipSpaces cs with
    | '"' :: rest => do
      let (s, rest) ← readString rest
      some (s.elim (.fault .unpairedSurrogate) .str, rest)
    | '[' :: rest =>
      match skipSpaces rest with
      | ']' :: rest => some (atDepth room (.arr []), rest)
      | rest => do
        let (items, rest) ← readItems fuel (room - 1) rest
        some (atDepth room (.arr items), rest)
    | '\x7b' :: rest =>
      match skipSpaces rest with
      | '\x7d' :: rest => some (atDepth room (.obj []), rest)
      | rest => do
        let (members, rest) ← readMembers fuel (room - 1) rest
        some (atDepth room (ofKeyed members), rest)
    | 'n' :: rest => readWord "null" .null ('n' :: rest)
    | 't' :: rest => readWord "true" (.bool true) ('t' :: rest)
    | 'f' :: rest => readWord "false" (.bool false) ('f' :: rest)
    | rest => readNumber rest

/-- The items of an array up to its closing bracket. -/
def readItems : Nat → Nat → List Char → Option (List Document × List Char)
  | 0, _, _ => none
  | fuel + 1, room, cs => do
    let (item, rest) ← readValue fuel room cs
    match skipSpaces rest with
    | ']' :: rest => some ([item], rest)
    | ',' :: rest =>
      let (items, rest) ← readItems fuel room rest
      some (item :: items, rest)
    | _ => none

/-- The members of an object up to its closing brace; a faulty key is missing. -/
def readMembers : Nat → Nat → List Char → Option (List (Option String × Document) × List Char)
  | 0, _, _ => none
  | fuel + 1, room, cs =>
    match skipSpaces cs with
    | '"' :: rest => do
      let (key, rest) ← readString rest
      match skipSpaces rest with
      | ':' :: rest =>
        let (value, rest) ← readValue fuel room rest
        match skipSpaces rest with
        | '\x7d' :: rest => some ([(key, value)], rest)
        | ',' :: rest =>
          let (members, rest) ← readMembers fuel room rest
          some ((key, value) :: members, rest)
        | _ => none
      | _ => none
    | _ => none

end

/-- The document of the characters of a text. Each step of the reader either takes a character or
goes from a bracket to what stands in it, so two steps a character are enough. -/
def readChars (cs : List Char) : Option Document := do
  let (d, rest) ← readValue (2 * cs.length + 2) depthLimit cs
  match skipSpaces rest with
  | [] => some d
  | _ => none

def read (s : String) : Option Document := readChars s.toList

end Clausal.Document

namespace Clausal.Json

/-- The value of a text without faulty parts. -/
def read (s : String) : Option Json := Document.read s >>= Document.value?

end Clausal.Json
