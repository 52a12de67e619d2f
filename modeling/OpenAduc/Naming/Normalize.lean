import OpenAduc.Naming.Names

namespace OpenAduc.Naming
variable (u : Platform)

/-- Latin letters that decomposition doesn't split into a base letter and a mark. -/
def TRANSLITERATIONS : List (Text × Text) :=
  [([0xdf], text "ss"), ([0xe6], text "ae"), ([0x153], text "oe"), ([0xf8], text "o"), ([0x142], text "l"),
    ([0x111], text "d"), ([0xf0], text "d"), ([0xfe], text "th"), ([0x131], text "i"), ([0x127], text "h"),
    ([0x167], text "t"), ([0x140], text "l"), ([0x14b], text "n"), ([0x138], text "k")]

def transliterate (c : Text) : Text :=
  match TRANSLITERATIONS.lookup (u.lower c) with
  | none => c
  | some mapped => if c = u.lower c then mapped else (mapped.take 1).map upperUnit ++ mapped.drop 1

/-- Format characters, and control characters other than whitespace. -/
def isInvisible (c : Text) : Bool :=
  u.isFormat (codePoint c) || codePoint c ≤ 8 || (0xe ≤ codePoint c ∧ codePoint c ≤ 0x1f) ||
    (0x7f ≤ codePoint c ∧ codePoint c ≤ 0x9f)

def isApostrophe (c : UInt16) : Bool := c ∈ ([0x27, 0x2019, 0x2018, 0x2bc, 0x2bb, 0x60, 0xb4] : List UInt16)

def isDash (c : UInt16) : Bool := 0x2010 ≤ c ∧ c ≤ 0x2014

def isLatin (c : UInt16) : Bool := isLower c || isUpper c

def isLatinPoint (c : Text) : Bool := c.length = 1 && c.all isLatin

/-- The marks right after a Latin letter go; `after` says one has just been read. -/
def dropMarks : Bool → List Text → List Text
  | _, [] => []
  | after, c :: rest =>
    if after && u.isMark (codePoint c) then dropMarks true rest else c :: dropMarks (isLatinPoint c) rest

structure Normalized where
  value : Text
  deviations : List NamingDeviation

def RULE_REASON : NormalizationRule → Text
  | .invisible => text "Invisible characters are removed"
  | .letterforms => text "Letter forms are simplified"
  | .diacritics => text "Accents are removed"
  | .apostrophes => text "Apostrophes are removed"
  | .periods => text "Periods are removed"
  | .spaces => text "Spaces are removed"

/-- A step's reason: what it leaves of the value before it. -/
def becomes (lead before after : Text) : Text :=
  if after ≠ [] then lead ++ text ": " ++ quoted before ++ text " becomes " ++ quoted after ++ text "."
  else lead ++ text " from " ++ quoted before ++ text ", leaving nothing."

def step (field : NameField) (rule : NormalizationRule) (next : Text → Text) (changed : Text → Bool)
    (n : Normalized) : Normalized :=
  { value := next n.value
    deviations := if changed n.value
      then n.deviations ++
        [.normalized field rule n.value (next n.value) (becomes (RULE_REASON rule) n.value (next n.value))]
      else n.deviations }

def stepIfNew (field : NameField) (rule : NormalizationRule) (next : Text → Text) : Normalized → Normalized :=
  step field rule next fun v => next v ≠ v

def removeInvisible (v : Text) : Text := ((points v).filter (!isInvisible u ·)).flatten

/-- Only Latin letters lose their accents; other scripts are dropped whole later. -/
def removeAccents (v : Text) : Text :=
  u.nfc ((points (dropMarks u false (points (u.nfd v))).flatten).flatMap (transliterate u))

def isKept (c : UInt16) : Bool := isLatin c || c = unit '-'

/-- The characters a username can't hold, each once, and whether they are letters. -/
def droppedFrom (v : Text) (what : Dropped) : List Text :=
  ((points v).filter fun c =>
    !(c.length = 1 && c.all isKept) && (u.isLetter (codePoint c) == (what == .letters))).eraseDups

def Dropped.lead : Dropped → Text
  | .letters => text "Letters outside the Latin alphabet are dropped"
  | .characters => text "Characters a username can't use are dropped"

def drop (field : NameField) (what : Dropped) (characters : List Text) (n : Normalized) : Normalized :=
  if characters = [] then n
  else
    let next := ((points n.value).filter (· ∉ characters)).flatten
    { value := next
      deviations := n.deviations ++
        [.dropped field what characters n.value next (becomes what.lead n.value next)] }

/-- A name part as a username can hold it: Latin letters and hyphens, lowercase, with
each step that changes it reported. -/
def normalizePart (field : NameField) (raw : Text) : Normalized :=
  let n := stepIfNew field .invisible (removeInvisible u) { value := trim raw, deviations := [] }
  let n := step field .letterforms u.nfkc (fun v => u.nfkc v ≠ u.nfc v) n
  let n := stepIfNew field .diacritics (removeAccents u) n
  let n := stepIfNew field .apostrophes (·.filter (!isApostrophe ·)) n
  let n := stepIfNew field .periods (·.filter (· ≠ unit '.')) n
  let n := stepIfNew field .spaces (·.filter (!isSpace ·)) n
  let v := n.value.map fun c => if isDash c then unit '-' else c
  let shown := drop field .characters (droppedFrom u v .characters)
    (drop field .letters (droppedFrom u v .letters) { n with value := v })
  { value := Runs.strip (· = unit '-') (Runs.squeeze (· = unit '-') (u.lower (v.filter isKept)))
    deviations := shown.deviations }

def NameField.label : NameField → Text
  | .first => text "first name"
  | .last => text "last name"

def PersonName.part (name : PersonName) : NameField → Text
  | .first => name.first
  | .last => name.last

/-- The token that takes all of a field, and the one that takes its initial. -/
def NameField.tokens : NameField → NamingToken × NamingToken
  | .first => (.first, .f)
  | .last => (.last, .l)

def cutText (value : Text) (limit : Nat) (tail : Text) : Text :=
  if value.length + tail.length ≤ limit then value ++ tail
  else trimEnd (sliceTo value (limit - tail.length)) ++ tail

/-- A person's username before any uniqueness check, and what differs from what the
pattern asked for; `fullDisplayName` is before the 256-character cut. -/
structure Prepared where
  segments : List Segment
  values : TokenValues
  username : Text
  fullDisplayName : Text
  displayName : Text
  deviations : List NamingDeviation

def uses (segments : List Segment) (t : NamingToken) : Bool := segments.any (· = .token t)

/-- A field the pattern only takes an initial from is reported only when nothing is
left to take it from. -/
def partDeviations (segments : List Segment) (name : PersonName) (field : NameField) : List NamingDeviation :=
  let part := normalizePart u field (name.part field)
  if !uses segments field.tokens.1 && !(uses segments field.tokens.2 && part.value = []) then []
  else if part.value = [] then
    part.deviations ++
      [.unusable (some field) none (text "Nothing is left of the " ++ field.label ++ text " " ++
      quoted (trim (name.part field)) ++ text " to build a username from. Enter it in Latin letters.")]
  else part.deviations

def fullDisplayName (name : PersonName) : Text :=
  let displayFirst := (name.preferredFirst.map trim).filter (· ≠ []) |>.getD (trim name.first)
  trim (collapseSpaces (displayFirst ++ text " " ++ trim name.last))

def tokenValues (name : PersonName) : TokenValues where
  first := (normalizePart u .first name.first).value
  last := (normalizePart u .last name.last).value
  mi := ((normalizePart u .first (name.middleInitial.getD [])).value.filter (· ≠ unit '-')).take 1

def prepare (name : PersonName) (pattern : Text) : Except Text Prepared :=
  match parsePattern pattern with
  | .error problem => .error (text "invalid naming pattern: " ++ problem)
  | .ok segments => .ok {
      segments
      values := tokenValues u name
      username := render segments (tokenValues u name)
      fullDisplayName := fullDisplayName name
      displayName := cutText (fullDisplayName name) (NAME_LIMITS .displayName) []
      deviations := partDeviations u segments name .first ++ partDeviations u segments name .last }

/-- Drops hyphenated surname parts from the right while the name is too long; each
turn takes a part off, so their number is fuel enough. -/
def dropParts (segments : List Segment) (budget : Nat) : Nat → List Text → TokenValues → TokenValues
  | 0, _, v => v
  | fuel + 1, parts, v =>
    if 1 < parts.length ∧ budget < (render segments v).length then
      dropParts segments budget fuel parts.dropLast { v with last := join [unit '-'] parts.dropLast }
    else v

def TokenValues.part (v : TokenValues) : NameField → Text
  | .first => v.first
  | .last => v.last

def TokenValues.setPart (v : TokenValues) (field : NameField) (value : Text) : TokenValues :=
  match field with
  | .first => { v with first := value }
  | .last => { v with last := value }

/-- Trims one field, down to its initial; each turn takes a letter off. -/
def trimPart (segments : List Segment) (budget : Nat) (field : NameField) : Nat → TokenValues → TokenValues
  | 0, v => v
  | fuel + 1, v =>
    if budget < (render segments v).length ∧ 1 < (v.part field).length then
      trimPart segments budget field fuel (v.setPart field (v.part field).dropLast)
    else v

/-- Shortens the username to the budget: keeps the first name, drops hyphenated surname
parts from the right, then trims the surname, then the first name. -/
def fit (p : Prepared) (budget : Nat) : Text :=
  if (render p.segments p.values).length ≤ budget then render p.segments p.values
  else
    let parts := p.values.last.splitOn (unit '-')
    let v := dropParts p.segments budget parts.length parts p.values
    let v := trimPart p.segments budget .last v.last.length v
    let v := trimPart p.segments budget .first v.first.length v
    ((render p.segments v).take budget).rdropWhile isSeparator

def tailOf (suffix : Nat) : Text := if 1 < suffix then decimal suffix else []

def samWith (p : Prepared) (suffix : Nat) : Text :=
  fit p (NAME_LIMITS .samAccountName - (tailOf suffix).length) ++ tailOf suffix

def upnLocalWith (p : Prepared) (suffix : Nat) : Text :=
  fit p (NAME_LIMITS .userPrincipalName - (tailOf suffix).length) ++ tailOf suffix

end OpenAduc.Naming
