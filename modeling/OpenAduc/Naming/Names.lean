import OpenAduc.Naming.Pattern

namespace OpenAduc.Naming

inductive LimitedAttribute
  | samAccountName
  | userPrincipalName
  | cn
  | displayName
  deriving DecidableEq, Repr

/-- AD's and Entra's hard limits; the UPN's is before the `@`. -/
def NAME_LIMITS : LimitedAttribute → Nat
  | .samAccountName => 20
  | .userPrincipalName => 64
  | .cn => 64
  | .displayName => 256

def MAX_SUFFIX : Nat := 999

/-- The first name feeds the username, the preferred one only the display name and CN. -/
structure PersonName where
  first : Text
  last : Text
  middleInitial : Option Text
  preferredFirst : Option Text
  deriving DecidableEq

structure NamingSettings where
  pattern : Text
  upnSuffix : Text
  deriving DecidableEq

/-- A CN within an OU: the CN is unique among the OU's children. -/
structure OuName where
  ouDn : Text
  cn : Text
  deriving DecidableEq

inductive NameField
  | first
  | last
  deriving DecidableEq, Repr

inductive NormalizationRule
  | invisible
  | letterforms
  | diacritics
  | apostrophes
  | periods
  | spaces
  deriving DecidableEq, Repr

inductive NamingAttribute
  | samAccountName
  | userPrincipalName
  | mail
  deriving DecidableEq, Repr

inductive NamingApproval
  | none
  | together
  | individual
  | blocked
  deriving DecidableEq, Repr

/-- Who holds a name already. -/
inductive Holder
  | directory
  | batch
  deriving DecidableEq, Repr

/-- What a `dropped` deviation took: letters outside the Latin alphabet, or others. -/
inductive Dropped
  | letters
  | characters
  deriving DecidableEq, Repr

/-- `start` and `result` are the values either side of the one step it describes. -/
inductive NamingDeviation
  | normalized (field : NameField) (rule : NormalizationRule) (start result : Text) (reason : Text)
  | dropped (field : NameField) (what : Dropped) (characters : List Text) (start result : Text)
    (reason : Text)
  | truncated (attr : LimitedAttribute) (start result : Text) (reason : Text)
  | collision (source : Holder) (taken changed : List NamingAttribute) (suffix : Nat) (start result : Text)
      (reason : Text)
  | cnCollision (source : Holder) (start result : Text) (alsoTaken : Bool) (reason : Text)
  | taken (attr : NamingAttribute) (source : Holder) (value : Text) (reason : Text)
  | unusable (field : Option NameField) (attr : Option NamingAttribute) (reason : Text)
  deriving DecidableEq

/-- How a deviation is cleared; one that is blocked can't be approved. -/
def NamingDeviation.approval : NamingDeviation → NamingApproval
  | .normalized .. => .none
  | .dropped .. => .individual
  | .truncated .. => .together
  | .collision .. => .individual
  | .cnCollision _ _ _ alsoTaken _ => if alsoTaken then .blocked else .none
  | .taken .. => .blocked
  | .unusable .. => .blocked

def Blocked (deviations : List NamingDeviation) : Bool :=
  deviations.any fun d => d.approval = .blocked

structure NamingSuggestion where
  samAccountName : Text
  upnLocal : Text
  upn : Text
  mail : Text
  cn : Text
  displayName : Text
  deviations : List NamingDeviation
  deriving DecidableEq

/-- Names the operator typed in place of the pattern's. -/
structure NameOverrides where
  samAccountName : Option Text
  userPrincipalName : Option Text
  displayName : Option Text
  deriving DecidableEq

structure NamingRequest where
  name : PersonName
  ouDn : Option Text
  overrides : Option NameOverrides
  deriving DecidableEq

/-- Values already held in the directory. -/
structure TakenNames where
  samAccountNames : List Text
  userPrincipalNames : List Text
  mailAddresses : List Text
  cns : List OuName

def TakenNames.of (taken : TakenNames) : NamingAttribute → List Text
  | .samAccountName => taken.samAccountNames
  | .userPrincipalName => taken.userPrincipalNames
  | .mail => taken.mailAddresses

/-- The OU, where the request gives one: an empty DN is none. -/
def NamingRequest.ou (r : NamingRequest) : Option Text := r.ouDn.filter (· ≠ [])

end OpenAduc.Naming
