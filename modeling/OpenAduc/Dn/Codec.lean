import OpenAduc.Naming.Normalize

namespace OpenAduc.Dn
open Naming

def BACKSLASH : UInt16 := 0x5c

/-- The characters escaped anywhere, NUL among them. -/
def isSpecial (c : UInt16) : Bool := c = 0 ∨ c ∈ (text ",+\"\\<>;=")

def escaped (value : Text) : Text := value.flatMap fun c => if isSpecial c then [BACKSLASH, c] else [c]

/-- A `#` or a space at the start is escaped. -/
def escapeFirst (out : Text) : Text :=
  if out.head? = some (unit '#') ∨ out.head? = some (unit ' ') then BACKSLASH :: out else out

/-- A space at the end is escaped, but where a backslash is before it. -/
def escapeLast (out : Text) : Text :=
  if 1 < out.length ∧ out.getLast? = some (unit ' ') ∧ out.dropLast.getLast? ≠ some BACKSLASH then
    out.dropLast ++ [BACKSLASH, unit ' ']
  else out

/-- Strict RFC 4514 escaping of an RDN value: spaces in the middle are left alone. -/
def escapeRdnValueRfc (value : Text) : Text :=
  if value = [] then value else escapeLast (escapeFirst (escaped value))

/-- The DN of a new child. -/
def childDn (type value parent : Text) : Text :=
  type ++ [unit '='] ++ escapeRdnValueRfc value ++ [unit ','] ++ parent

/-- Its value unescaped. -/
structure Rdn where
  type : Text
  value : Text
  deriving DecidableEq

def isOid (t : Text) : Bool := (t.splitOn (unit '.')).all fun part => part ≠ [] && part.all isDigit

def isTypeName : Text → Bool
  | [] => false
  | c :: rest => isLatin c && rest.all fun c => isLatin c || isDigit c || c = unit '-'

/-- `ATTRIBUTE_TYPE`: a name, or numbers with dots between. -/
def isAttributeType (t : Text) : Bool := isTypeName t || isOid t

/-- A hex digit's value. -/
def hexDigit (c : UInt16) : Option Nat :=
  if isDigit c then some (c.toNat - 48)
  else if 65 ≤ c ∧ c ≤ 70 then some (c.toNat - 55)
  else if 97 ≤ c ∧ c ≤ 102 then some (c.toNat - 87)
  else none

/-- `HEX_PAIR`, with the byte it stands for. -/
def hexPair : Text → Option Nat
  | [a, b] => (hexDigit a).bind fun high => (hexDigit b).map fun low => 16 * high + low
  | _ => none

def unitsOfPoint (n : Nat) : Text :=
  if n < 0x10000 then [UInt16.ofNat n]
  else [UInt16.ofNat (0xd800 + (n - 0x10000) / 0x400), UInt16.ofNat (0xdc00 + (n - 0x10000) % 0x400)]

/-- How many bytes follow a first one, the bits it gives, and the least and the greatest its second may be. -/
def leadByte (b : Nat) : Option (Nat × Nat × Nat × Nat) :=
  if b < 0x80 then some (0, b, 0, 0)
  else if b < 0xc2 then none
  else if b < 0xe0 then some (1, b - 0xc0, 0x80, 0xbf)
  else if b = 0xe0 then some (2, 0, 0xa0, 0xbf)
  else if b = 0xed then some (2, 0xd, 0x80, 0x9f)
  else if b < 0xf0 then some (2, b - 0xe0, 0x80, 0xbf)
  else if b = 0xf0 then some (3, 0, 0x90, 0xbf)
  else if b < 0xf4 then some (3, b - 0xf0, 0x80, 0xbf)
  else if b = 0xf4 then some (3, 4, 0x80, 0x8f)
  else none

/-- The rest of a character, then those after it: `left` bytes to come, the next within bounds. -/
def decodeFrom : Nat → Nat → Nat → Nat → List Nat → Option Text
  | 0, _, _, _, [] => some []
  | _ + 1, _, _, _, [] => none
  | 0, _, _, _, b :: rest =>
    match leadByte b with
    | none => none
    | some (0, point, _, _) => (decodeFrom 0 0 0 0 rest).map (unitsOfPoint point ++ ·)
    | some (left, bits, low, high) => decodeFrom left bits low high rest
  | left + 1, bits, low, high, b :: rest =>
    if low ≤ b ∧ b ≤ high then
      let point := 64 * bits + (b - 0x80)
      match left with
      | 0 => (decodeFrom 0 0 0 0 rest).map (unitsOfPoint point ++ ·)
      | left + 1 => decodeFrom (left + 1) point 0x80 0xbf rest
    else none

/-- `decodeURIComponent` of escaped bytes: UTF-8, or an error. -/
def decodeURIComponent (bytes : List Nat) : Option Text := decodeFrom 0 0 0 0 bytes

/-- The value with the bytes collected since. -/
def flush (value : Text) (bytes : List Nat) : Option Text :=
  if bytes = [] then some value else (decodeURIComponent bytes).map (value ++ ·)

/-- An RDN's value up to the comma that ends it, and what comes after one; nothing where it isn't
one. `passed` is how many of the next characters an escape has taken. -/
def scanValue : Nat → Text → List Nat → Text → Option (Text × Option Text)
  | _, value, bytes, [] => (flush value bytes).map (·, none)
  | passed + 1, value, bytes, _ :: rest => scanValue passed value bytes rest
  | 0, value, bytes, ch :: rest =>
    if ch = unit ',' then (flush value bytes).map (·, some rest)
    else if ch = BACKSLASH then
      match hexPair (rest.take 2) with
      | some byte => scanValue 2 value (bytes ++ [byte]) rest
      | none =>
        match rest.head? with
        | none => none
        | some escapee =>
          match flush value bytes with
          | none => none
          | some value => scanValue 1 (value ++ [escapee]) [] rest
    else if ch ∈ (text "\";<>") then none
    else
      match flush value bytes with
      | none => none
      | some value => scanValue 0 (value ++ [ch]) [] rest

/-- What is before the first of a character, and what is after it. -/
def splitAt (c : UInt16) : Text → Option (Text × Text)
  | [] => none
  | x :: rest => if x = c then some ([], rest) else (splitAt c rest).map fun (before, after) =>
    (x :: before, after)

/-- The RDNs of what is left of a DN, leftmost first; the outer `none` is a loop that has not ended
after so many turns. -/
def parseRdns : Nat → Text → Option (Option (List Rdn))
  | 0, _ => none
  | fuel + 1, t =>
    match splitAt (unit '=') t with
    | none => some none
    | some (before, after) =>
      if !isAttributeType (trim before) then some none
      else
        match scanValue 0 [] [] after with
        | none => some none
        | some (value, rest) =>
          if trim value = [] then some none
          else
            let rdn : Rdn := ⟨trim before, trim value⟩
            match rest with
            | none => some (some [rdn])
            | some rest => (parseRdns fuel rest).map (·.map (rdn :: ·))

/-- Parse a DN into its RDNs, leftmost first, or null when it isn't one. -/
def parseDn (dn : Text) : Option (List Rdn) :=
  if trim dn = [] then none else (parseRdns (dn.length + 1) dn).join

section
variable (u : Platform)

def rdnKey (r : Rdn) : Text := u.lower r.type ++ [unit '='] ++ u.lower r.value

/-- Whether `dn` is `base` or somewhere under it. False when either isn't a DN. -/
def isDnWithin (dn base : Text) : Bool :=
  match parseDn dn, parseDn base with
  | some inner, some outer =>
    outer.length ≤ inner.length &&
      ((inner.drop (inner.length - outer.length)).zip outer).all fun (r, o) => rdnKey u r = rdnKey u o
  | _, _ => false

end
end OpenAduc.Dn
