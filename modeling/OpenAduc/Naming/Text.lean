import OpenAduc.Lib.Runs

namespace OpenAduc.Naming

/-- A string of the source: its UTF-16 code units. -/
abbrev Text := List UInt16

instance : LawfulBEq Text := inferInstance

def unit (c : Char) : UInt16 := UInt16.ofNat c.toNat

def unitsOf (c : Char) : Text :=
  if c.toNat < 0x10000 then [unit c]
  else [UInt16.ofNat (0xd800 + (c.toNat - 0x10000) / 0x400),
    UInt16.ofNat (0xdc00 + (c.toNat - 0x10000) % 0x400)]

def text (s : String) : Text := s.toList.flatMap unitsOf

def decimal (n : Nat) : Text := (Nat.toDigits 10 n).map unit

/-- The number digits write. -/
def decimalOf (digits : Text) : Nat := digits.foldl (fun n c => 10 * n + (c - unit '0').toNat) 0

def quoted (t : Text) : Text := [unit '"'] ++ t ++ [unit '"']

def join (separator : Text) (texts : List Text) : Text := separator.intercalate texts

/-- Words in a sentence: "a", "a and b", "a, b and c". -/
def andList (words : List Text) : Text :=
  if words.length ≤ 1 then join [] words
  else join (text ", ") words.dropLast ++ text " and " ++ words.getLast?.getD []

def lowerUnit (c : UInt16) : UInt16 := if unit 'A' ≤ c ∧ c ≤ unit 'Z' then c + 32 else c

def upperUnit (c : UInt16) : UInt16 := if unit 'a' ≤ c ∧ c ≤ unit 'z' then c - 32 else c

/-- What the code takes from the language's Unicode tables and from the schema library:
case, normalization and character classes, and the library's text for an empty string. -/
structure Platform where
  lower : Text → Text
  nfc : Text → Text
  nfd : Text → Text
  nfkc : Text → Text
  isFormat : Nat → Bool
  isMark : Nat → Bool
  isLetter : Nat → Bool
  tooSmall : Text
  lower_ascii : ∀ t : Text, (∀ c ∈ t, c < 128) → lower t = t.map lowerUnit
  normal_ascii : ∀ t : Text, (∀ c ∈ t, c < 128) → nfc t = t ∧ nfd t = t ∧ nfkc t = t

/-- The platform on text in ASCII, where normalization changes nothing. -/
def Platform.ascii : Platform where
  lower t := t.map lowerUnit
  nfc t := t
  nfd t := t
  nfkc t := t
  isFormat _ := false
  isMark _ := false
  isLetter c := decide (65 ≤ c ∧ c ≤ 90 ∨ 97 ≤ c ∧ c ≤ 122)
  tooSmall := text "Too small: expected string to have >=1 characters"
  lower_ascii _ _ := rfl
  normal_ascii _ _ := ⟨rfl, rfl, rfl⟩

/-- `\s`: the characters `trim` takes off an end. -/
def isSpace (c : UInt16) : Bool :=
  (9 ≤ c ∧ c ≤ 13) ∨ (0x2000 ≤ c ∧ c ≤ 0x200a) ∨
    c ∈ ([0x20, 0xa0, 0x1680, 0x2028, 0x2029, 0x202f, 0x205f, 0x3000, 0xfeff] : List UInt16)

def isControl (c : UInt16) : Bool := c ≤ 0x1f ∨ c = 0x7f

def isLower (c : UInt16) : Bool := unit 'a' ≤ c ∧ c ≤ unit 'z'

def isUpper (c : UInt16) : Bool := unit 'A' ≤ c ∧ c ≤ unit 'Z'

def isDigit (c : UInt16) : Bool := unit '0' ≤ c ∧ c ≤ unit '9'

def isSeparator (c : UInt16) : Bool := c = unit '.' ∨ c = unit '_' ∨ c = unit '-'

def trimEnd (t : Text) : Text := t.rdropWhile isSpace

def trim (t : Text) : Text := Runs.strip isSpace t

/-- `slice(0, last)`, where a negative end counts from the back. -/
def sliceTo (t : Text) (last : Int) : Text :=
  if 0 ≤ last then t.take last.toNat else t.take (t.length - last.natAbs)

def lastIndexOf (c : UInt16) : Text → Option Nat
  | [] => none
  | x :: rest =>
    match lastIndexOf c rest with
    | some i => some (i + 1)
    | none => if x = c then some 0 else none

/-- `replace(/\s+/g, ' ')`. -/
def collapseSpaces (t : Text) : Text :=
  Runs.squeeze isSpace (t.map fun c => if isSpace c then unit ' ' else c)

def isHigh (c : UInt16) : Bool := 0xd800 ≤ c ∧ c ≤ 0xdbff

def isLow (c : UInt16) : Bool := 0xdc00 ≤ c ∧ c ≤ 0xdfff

/-- `Array.from`: one text a code point, an unpaired surrogate by itself. -/
def points : Text → List Text
  | [] => []
  | [c] => [[c]]
  | a :: b :: rest => if isHigh a && isLow b then [a, b] :: points rest else [a] :: points (b :: rest)

def codePoint : Text → Nat
  | [a, b] => 0x10000 + (a.toNat - 0xd800) * 0x400 + (b.toNat - 0xdc00)
  | [c] => c.toNat
  | _ => 0

end OpenAduc.Naming
