import OpenAduc.Lib.Accumulate
import OpenAduc.Naming.Normalize

namespace OpenAduc.Naming
variable (u : Platform)

structure AccountNames where
  samAccountName : Text
  upnLocal : Text
  upn : Text
  mail : Text
  deriving DecidableEq

def accountNames (samAccountName upnLocal upnSuffix : Text) : AccountNames :=
  { samAccountName, upnLocal, upn := upnLocal ++ [unit '@'] ++ upnSuffix,
    mail := upnLocal ++ [unit '@'] ++ upnSuffix }

def valueOf (names : AccountNames) : NamingAttribute → Text
  | .samAccountName => names.samAccountName
  | .userPrincipalName => names.upn
  | .mail => names.mail

def truncation (attr : LimitedAttribute) (start result note : Text) : List NamingDeviation :=
  let what := match attr with
    | .userPrincipalName =>
      text "The UPN and email are limited to " ++ decimal (NAME_LIMITS .userPrincipalName) ++
        text " characters before the @"
    | .samAccountName =>
      text "sAMAccountName is limited to " ++ decimal (NAME_LIMITS .samAccountName) ++ text " characters"
    | .cn => text "The CN is limited to " ++ decimal (NAME_LIMITS .cn) ++ text " characters"
    | .displayName =>
      text "The display name is limited to " ++ decimal (NAME_LIMITS .displayName) ++ text " characters"
  if start = result then []
  else [.truncated attr start result
    (what ++ text ", so " ++ quoted start ++ text " becomes " ++ quoted result ++ text "." ++
    if note ≠ [] then text " " ++ note else [])]

structure TypedUpn where
  localPart : Text
  suffix : Text
  deriving DecidableEq

structure TypedNames where
  samAccountName : Option Text
  upn : Option TypedUpn
  displayName : Option Text
  deviations : List NamingDeviation

def clean (v : Option Text) : Option Text := (v.map trim).filter (· ≠ [])

/-- `UPN_LOCAL`'s characters: Entra ID's for a UPN's local part. -/
def isUpnLocal (c : UInt16) : Bool :=
  isLatin c || isDigit c || c ∈ (text "'._!#^~-")

def SAM_FORBIDDEN : Text := text "\"/\\[]:;|=,+*?<>@"

/-- The library's check of a sAMAccountName: the first of its messages. Its length limit
is checked before it is asked. -/
def samAccountNameProblem (samAccountName : Text) : Option Text :=
  let v := trim samAccountName
  if v = [] then some u.tooSmall
  else if v.any (· ∈ SAM_FORBIDDEN) then some (text "cannot contain \" / \\ [ ] : ; | = , + * ? < > @")
  else if v.any isControl then some (text "cannot contain control characters")
  else if v.all (fun c => c = unit '.' ∨ c = unit ' ') then some (text "cannot be only dots and spaces")
  else if v.getLast? = some (unit '.') then some (text "cannot end with a dot")
  else none

/-- Dots that Entra ID refuses in a local part: at either end, or two in a row. -/
def misplacedDot (t : Text) : Bool :=
  t.head? = some (unit '.') || t.getLast? = some (unit '.') || (t.zip t.tail).any fun x =>
    x.1 = unit '.' && x.2 = unit '.'

def typedUpn (upnTyped : Text) : TypedUpn :=
  match lastIndexOf (unit '@') upnTyped with
  | none => { localPart := upnTyped, suffix := upnTyped }
  | some i => { localPart := upnTyped.take i, suffix := upnTyped.drop (i + 1) }

def typedUpnProblem (upnSuffixes : Option (List Text)) (upnTyped : Text) : Option Text :=
  let upn := typedUpn upnTyped
  if (lastIndexOf (unit '@') upnTyped).all (· = 0) ∨ upn.suffix = [] then
    some (text "The UPN " ++ quoted upnTyped ++ text " needs a suffix: name@domain.")
  else if NAME_LIMITS .userPrincipalName < upn.localPart.length then
    some (text "The UPN " ++ quoted upnTyped ++ text " has " ++ decimal upn.localPart.length ++
      text " characters before the @; Entra ID allows " ++
        decimal (NAME_LIMITS .userPrincipalName) ++ text ".")
  else if upn.localPart = [] ∨ !upn.localPart.all isUpnLocal ∨ misplacedDot upn.localPart ∨
      upn.suffix.any (fun c => isSpace c ∨ c = unit '@') ∨ upn.suffix.any isControl then
    some (text "The UPN " ++ quoted upnTyped ++
      text
      " won't sync to Entra ID: before the @, use letters, digits and ' . - _ ! # ^ ~, with no dot at either end or two in a row.")
  else match upnSuffixes with
    | none => none
    | some suffixes =>
      if suffixes.any (fun x => u.lower x = u.lower upn.suffix) then none
      else some (quoted upn.suffix ++ text " isn't one of this domain's UPN suffixes (" ++
        join (text ", ") suffixes ++ text ").")

/-- The sAMAccountName a typed UPN gives. -/
def samOfUpn (upn : TypedUpn) : Text :=
  (upn.localPart.take (NAME_LIMITS .samAccountName)).rdropWhile isSeparator

def typedSamProblem (samAccountName : Text) : Option Text :=
  if NAME_LIMITS .samAccountName < samAccountName.length then
    some (text "The sAMAccountName " ++ quoted samAccountName ++ text " is " ++
      decimal samAccountName.length ++
      text " characters; AD allows " ++ decimal (NAME_LIMITS .samAccountName) ++ text ".")
  else (samAccountNameProblem u samAccountName).map fun message =>
    text "The sAMAccountName " ++ quoted samAccountName ++ text " " ++ message ++ text "."

def unusableOf (attr : NamingAttribute) (problem : Option Text) : List NamingDeviation :=
  problem.toList.map fun reason => .unusable none (some attr) reason

/-- The typed names, checked; a typed UPN without a typed sAMAccountName gives it. -/
def typedNames (overrides : Option NameOverrides) (upnSuffixes : Option (List Text)) : TypedNames :=
  let upnTyped := clean (overrides.bind (·.userPrincipalName))
  let samTyped := clean (overrides.bind (·.samAccountName))
  let upn := upnTyped.map typedUpn
  let samAccountName := samTyped.or (upn.map samOfUpn)
  { samAccountName
    upn
    displayName := clean (overrides.bind (·.displayName))
    deviations :=
      unusableOf .userPrincipalName (upnTyped.bind (typedUpnProblem u upnSuffixes)) ++
      (if samTyped.isNone then
        upn.toList.flatMap fun upn =>
          truncation .samAccountName upn.localPart (samOfUpn upn)
            (text "The UPN and email keep the full name.")
       else []) ++
      unusableOf .samAccountName (samAccountName.bind (typedSamProblem u)) }

/-- Whitespace around a comma goes; `after` says the last character kept was a comma. -/
def squeezeCommas : Bool → Text → Text
  | _, [] => []
  | after, c :: rest =>
    if isSpace c && (after || (rest.dropWhile isSpace).head? = some (unit ',')) then squeezeCommas after rest
    else c :: squeezeCommas (c = unit ',') rest

def dnKey (dn : Text) : Text := squeezeCommas false (u.lower dn)

def cnKey (name : OuName) : Text := dnKey u name.ouDn ++ [10] ++ u.lower name.cn

/-- Names held already, as the keys they are compared by. -/
structure NameSet where
  directory : List Text
  batch : List Text

def NameSet.new (values : List Text) : NameSet := { directory := values.map u.lower, batch := [] }

def NameSet.holder (names : NameSet) (value : Text) : Option Holder :=
  if names.directory.contains (u.lower value) then some .directory
  else if names.batch.contains (u.lower value) then some .batch
  else none

def NameSet.claim (names : NameSet) (value : Text) : NameSet :=
  { names with batch := names.batch ++ [u.lower value] }

structure Held where
  samAccountName : NameSet
  userPrincipalName : NameSet
  mail : NameSet
  cns : NameSet

def Held.of (held : Held) : NamingAttribute → NameSet
  | .samAccountName => held.samAccountName
  | .userPrincipalName => held.userPrincipalName
  | .mail => held.mail

def Held.new (taken : TakenNames) : Held where
  samAccountName := .new u taken.samAccountNames
  userPrincipalName := .new u taken.userPrincipalNames
  mail := .new u taken.mailAddresses
  cns := .new u (taken.cns.map (cnKey u))

def Held.claim (held : Held) (names : AccountNames) : Held :=
  { held with
    samAccountName := held.samAccountName.claim u names.samAccountName
    userPrincipalName := held.userPrincipalName.claim u names.upn
    mail := held.mail.claim u names.mail }

def Held.claimCn (held : Held) (name : OuName) : Held := { held with cns := held.cns.claim u (cnKey u name) }

@[simp] theorem Held.of_claimCn (held : Held) (name : OuName) (a : NamingAttribute) :
    (held.claimCn u name).of a = held.of a := by
  cases a <;> rfl

@[simp] theorem Held.of_claim (held : Held) (names : AccountNames) (a : NamingAttribute) :
    (held.claim u names).of a = (held.of a).claim u (valueOf names a) := by
  cases a <;> rfl

@[simp] theorem Held.cns_claim (held : Held) (names : AccountNames) :
    (held.claim u names).cns = held.cns := rfl

@[simp] theorem Held.cns_claimCn (held : Held) (name : OuName) :
    (held.claimCn u name).cns = held.cns.claim u (cnKey u name) := rfl

structure Clash where
  attr : NamingAttribute
  source : Holder
  deriving DecidableEq

def clashesOf (held : Held) (names : AccountNames) (attrs : List NamingAttribute) : List Clash :=
  attrs.flatMap fun attr => ((held.of attr).holder u (valueOf names attr)).toList.map fun source =>
    { attr, source }

def ALL_ATTRIBUTES : List NamingAttribute := [.samAccountName, .userPrincipalName, .mail]

def NamingAttribute.label : NamingAttribute → Text
  | .samAccountName => text "sAMAccountName"
  | .userPrincipalName => text "UPN"
  | .mail => text "email"

def Holder.place : Holder → Text
  | .directory => text "used in the directory"
  | .batch => text "taken by another person in this list"

def takenBy (attr : NamingAttribute) (value : Text) (source : Holder) : NamingDeviation :=
  .taken attr source value
    (text "The " ++ attr.label ++ text " " ++ quoted value ++ text " is already " ++ source.place ++ text ".")

def collision (base names : AccountNames) (suffix : Nat) (clashes : List Clash)
    (addressesClash samFree : Bool) :
    NamingDeviation :=
  let source := if clashes.any (·.source = .directory) then Holder.directory else .batch
  let values := andList (clashes.map fun c => c.attr.label ++ text " " ++ quoted (valueOf base c.attr))
  let taken := text "The " ++ values ++ (if 1 < clashes.length then text " are" else text " is") ++
    text " already " ++
    source.place ++ text "."
  let addresses := text "With " ++ decimal suffix ++ text " added, the UPN and email become " ++
    quoted names.upn
  .collision source (clashes.map (·.attr))
    (if addressesClash then
      if samFree then [.samAccountName, .userPrincipalName, .mail] else [.userPrincipalName, .mail]
     else [.samAccountName])
    suffix
    (if addressesClash then base.upnLocal else base.samAccountName)
    (if addressesClash then names.upnLocal else names.samAccountName)
    (if addressesClash then
      if samFree then taken ++ text " " ++ addresses ++ text " and the sAMAccountName " ++
        quoted names.samAccountName ++ text "."
      else taken ++ text " " ++ addresses ++ text "."
     else taken ++ text " With " ++ decimal suffix ++ text " added it becomes " ++
       quoted names.samAccountName ++
      text "; the UPN and email are free and stay " ++ quoted names.upn ++ text ".")

/-- What the pattern still builds; the rest is as typed. -/
def freeAttributes (typed : TypedNames) : List NamingAttribute :=
  (if typed.samAccountName.isNone then [.samAccountName] else []) ++
    if typed.upn.isNone then [.userPrincipalName, .mail] else []

def candidate (settings : NamingSettings) (p : Prepared) (typed : TypedNames) (n : Nat)
    (suffixSam suffixAddresses : Bool) : AccountNames :=
  accountNames (typed.samAccountName.getD (samWith p (if suffixSam then n else 1)))
    ((typed.upn.map (·.localPart)).getD (upnLocalWith p (if suffixAddresses then n else 1)))
    ((typed.upn.map (·.suffix)).getD settings.upnSuffix)

/-- What is known of a request's names before they are made unique: the typed ones
that are held already block it. -/
def firstDeviations (held : Held) (p : Prepared) (typed : TypedNames) (base : AccountNames) :
    List NamingDeviation :=
  let samNote := if base.upnLocal = p.username then text "The UPN and email keep the full name." else []
  (if typed.upn.isNone then p.deviations else []) ++ typed.deviations ++
    (if typed.samAccountName.isNone then truncation .samAccountName p.username base.samAccountName
      samNote else []) ++
    (if typed.upn.isNone then truncation .userPrincipalName p.username base.upnLocal [] else []) ++
    (if typed.displayName.isNone then truncation .displayName p.fullDisplayName p.displayName [] else []) ++
    (clashesOf u held base (ALL_ATTRIBUTES.filter (· ∉ freeAttributes typed))).map
      fun c => takenBy c.attr (valueOf base c.attr) c.source

/-- The names, suffixed where the pattern's are held, and what to say of it; or why none is free. -/
def suffixed (held : Held) (settings : NamingSettings) (p : Prepared) (typed : TypedNames) :
    Except NamingDeviation (AccountNames × List NamingDeviation) :=
  let base := candidate settings p typed 1 false false
  let clashes := clashesOf u held base (freeAttributes typed)
  if clashes = [] then .ok (base, [])
  else
    let addressesClash := clashes.any (·.attr ≠ .samAccountName)
    let checked := (freeAttributes typed).filter fun a => addressesClash || a = .samAccountName
    let next := fun n => candidate settings p typed n true addressesClash
    match (List.range' 2 (MAX_SUFFIX - 1)).find? fun n => clashesOf u held (next n) checked = [] with
    | none => .error (.unusable none none
      (text "Every suffix up to " ++ decimal MAX_SUFFIX ++ text " is taken for " ++
        quoted p.username ++ text ". Enter a different username."))
    | some n => .ok (next n, [collision base (next n) n clashes addressesClash typed.samAccountName.isNone])

/-- The CN in its OU: one held already gets the sAMAccountName in brackets. `intended`
is what it would be without the 64-character cut. -/
structure Placed where
  cn : Text
  intended : Text
  deviations : List NamingDeviation

def placeCn (held : Held) (ou : Option Text) (displayName samAccountName : Text) : Placed :=
  let cn := cutText displayName (NAME_LIMITS .cn) []
  match ou.bind fun ouDn => (held.cns.holder u (cnKey u ⟨ouDn, cn⟩)).map fun source => (ouDn, source) with
  | none => { cn, intended := displayName, deviations := [] }
  | some (ouDn, source) =>
    let tail := text " (" ++ samAccountName ++ text ")"
    let fallback := cutText displayName (NAME_LIMITS .cn) tail
    let alsoTaken := (held.cns.holder u (cnKey u ⟨ouDn, fallback⟩)).isSome
    { cn := fallback
      intended := displayName ++ tail
      deviations := [.cnCollision source cn fallback alsoTaken
        (if alsoTaken then quoted cn ++ text " and " ++ quoted fallback ++
            text " both already exist in this OU. Enter a different name for the account."
         else quoted cn ++ text " already exists in this OU, so the account is named " ++
           quoted fallback ++ text ".")] }

def resultOf (names : AccountNames) (cn displayName : Text) (deviations : List NamingDeviation) :
    NamingSuggestion :=
  { samAccountName := names.samAccountName, upnLocal := names.upnLocal, upn := names.upn, mail := names.mail,
    cn, displayName, deviations }

/-- One request's suggestion, and what is held after it. -/
def resolveName (settings : NamingSettings) (upnSuffixes : Option (List Text)) (held : Held)
    (request : NamingRequest) :
    Except Text (NamingSuggestion × Held) := do
  let p ← prepare u request.name settings.pattern
  let typed := typedNames u request.overrides upnSuffixes
  let displayName := typed.displayName.getD p.displayName
  let base := candidate settings p typed 1 false false
  let deviations := firstDeviations u held p typed base
  let unplaced := cutText displayName (NAME_LIMITS .cn) []
  if Blocked deviations then return (resultOf base unplaced displayName deviations, held)
  match suffixed u held settings p typed with
  | .error unusable => return (resultOf base unplaced displayName (deviations ++ [unusable]), held)
  | .ok (names, collisions) =>
    let placed := placeCn u held request.ou displayName names.samAccountName
    let held := held.claim u names
    let held := match request.ou with
      | none => held
      | some ouDn => held.claimCn u ⟨ouDn, placed.cn⟩
    return (resultOf names placed.cn displayName (deviations ++ collisions ++ placed.deviations ++
      truncation .cn placed.intended placed.cn (text "The display name keeps the full name.")), held)

/-- Suggests names for each request in order, making each unique against the directory
and against the requests before it. -/
def resolveNames (requests : List NamingRequest) (settings : NamingSettings) (taken : TakenNames)
    (upnSuffixes : Option (List Text)) : Except Text (List NamingSuggestion) :=
  Accumulate.outputs (resolveName u settings upnSuffixes) (.new u taken) requests

end OpenAduc.Naming
