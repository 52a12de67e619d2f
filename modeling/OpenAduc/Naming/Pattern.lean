import OpenAduc.Naming.Text

namespace OpenAduc.Naming

inductive NamingToken
  | first
  | last
  | f
  | l
  | mi
  deriving DecidableEq, Repr

def NAMING_TOKENS : List NamingToken := [.first, .last, .f, .l, .mi]

def NamingToken.name : NamingToken → Text
  | .first => text "first"
  | .last => text "last"
  | .f => text "f"
  | .l => text "l"
  | .mi => text "mi"

def NAMING_PATTERN_MAX : Nat := 64

inductive Segment
  | token (token : NamingToken)
  | literal (literal : Text)
  deriving DecidableEq, Repr

/-- One match of `SEGMENT`: braces around a token, text without braces, or a brace by itself. -/
inductive Matched
  | token (token : Text)
  | literal (literal : Text)
  | brace (brace : UInt16)

def isBrace (c : UInt16) : Bool := c = unit '\x7b' ∨ c = unit '\x7d'

/-- Every match takes at least one character, so the pattern's length is fuel enough. -/
def matchSegments : Nat → Text → List Matched
  | 0, _ => []
  | _, [] => []
  | fuel + 1, c :: rest =>
    if c = unit '\x7b' then
      match rest.dropWhile (!isBrace ·) with
      | d :: after =>
        if d = unit '\x7d' then .token (rest.takeWhile (!isBrace ·)) :: matchSegments fuel after
        else .brace c :: matchSegments fuel rest
      | [] => .brace c :: matchSegments fuel rest
    else if c = unit '\x7d' then .brace c :: matchSegments fuel rest
    else .literal (c :: rest.takeWhile (!isBrace ·)) :: matchSegments fuel (rest.dropWhile (!isBrace ·))

/-- `LITERAL`'s characters. -/
def isLiteral (c : UInt16) : Bool := isLower c || isDigit c || isSeparator c

/-- The first run of two or more separators. -/
def doubledIn : Text → Option Text
  | a :: b :: rest =>
    if isSeparator a && isSeparator b then some (a :: b :: rest.takeWhile isSeparator)
      else doubledIn (b :: rest)
  | _ => none

def segmentOf : Matched → Except Text Segment
  | .token token =>
    match NAMING_TOKENS.find? fun t => t.name = token with
    | some t => .ok (.token t)
    | none => .error (text "\x7b" ++ token ++ text "\x7d isn't a token. Use " ++
        join (text ", ") (NAMING_TOKENS.map fun t => text "\x7b" ++ t.name ++ text "\x7d") ++ text ".")
  | .literal literal =>
    if literal.all isLiteral then
      match doubledIn literal with
      | some doubled =>
        .error (quoted doubled ++ text ": use one separator at a time. A username can't hold two in a row.")
      | none => .ok (.literal literal)
    else .error (quoted literal ++ text
      " can't go in a username. Between tokens, use lowercase letters, digits, dots, hyphens or underscores.")
  | .brace brace =>
    .error (quoted [brace] ++
      text
      " can't go in a username. Between tokens, use lowercase letters, digits, dots, hyphens or underscores.")

/-- Every token but the middle initial names the person. -/
def Segment.named : Segment → Bool
  | .token t => t ≠ .mi
  | .literal _ => false

def Segment.startsWith (p : UInt16 → Bool) : Segment → Bool
  | .token _ => false
  | .literal value => value.head?.any p

def Segment.endsWith (p : UInt16 → Bool) : Segment → Bool
  | .token _ => false
  | .literal value => value.getLast?.any p

/-- The pattern's segments, or its problem. -/
def parsePattern (pattern : Text) : Except Text (List Segment) := do
  let segments ← (matchSegments pattern.length pattern).mapM segmentOf
  if !segments.any Segment.named then
    throw (text "The pattern needs a first or last name token.")
  if segments.head?.any (Segment.startsWith isSeparator) ||
    segments.getLast?.any (Segment.endsWith isSeparator) then
    throw (text "The pattern can't start or end with a separator.")
  if segments.getLast?.any (Segment.endsWith isDigit) then
    throw
      (text
      "The pattern can't end in a digit: a taken name gets a number on the end, so \"smith1\" would become \"smith12\".")
  return segments

/-- Why a naming pattern can't be used, or none when it can. -/
def namingPatternProblem (pattern : Text) : Option Text :=
  if NAMING_PATTERN_MAX < pattern.length then
    some (text "Keep the pattern to " ++ decimal NAMING_PATTERN_MAX ++ text " characters.")
  else
    match parsePattern pattern with
    | .error problem => some problem
    | .ok _ => none

theorem exists_segments {pattern : Text} (valid : namingPatternProblem pattern = none) :
    ∃ segments, parsePattern pattern = .ok segments := by
  unfold namingPatternProblem at valid
  split at valid
  · cases valid
  · split at valid
    · cases valid
    · exact ⟨_, by assumption⟩

/-- A pattern that parses is read segment by segment, and takes a first or last name. -/
theorem parsePattern_ok {pattern : Text} {segments : List Segment}
    (parsed : parsePattern pattern = .ok segments) :
    (matchSegments pattern.length pattern).mapM segmentOf = .ok segments ∧ ∃ s ∈ segments, s.named := by
  unfold parsePattern at parsed
  cases matched : (matchSegments pattern.length pattern).mapM segmentOf with
  | error problem => simp [matched, bind, Except.bind] at parsed
  | ok found =>
    simp only [matched, bind, Except.bind] at parsed
    split at parsed
    · cases parsed
    next named =>
      have same : found = segments := by
        split at parsed
        · cases parsed
        · split at parsed
          · cases parsed
          · exact Except.ok.inj parsed
      subst same
      exact ⟨rfl, by simpa using named⟩

structure TokenValues where
  first : Text
  last : Text
  mi : Text
  deriving DecidableEq, Repr

def TokenValues.at (v : TokenValues) : NamingToken → Text
  | .first => v.first
  | .last => v.last
  | .f => v.first.take 1
  | .l => v.last.take 1
  | .mi => v.mi

def Segment.shown (v : TokenValues) : Segment → Text
  | .literal value => value
  | .token t => v.at t

/-- An empty token leaves its separators touching: one of them stays, and none at an end. -/
def render (segments : List Segment) (v : TokenValues) : Text :=
  Runs.strip isSeparator (Runs.squeeze isSeparator (segments.flatMap (Segment.shown v)))

end OpenAduc.Naming
