import OpenAduc.Dates.Iso
import OpenAduc.Lib.Dialogue
import OpenAduc.Privilege.Groups

namespace OpenAduc.TemporaryAccessPass
open Naming (Text text unit isDigit isLower isUpper isHigh isLow points codePoint)
open Privilege (GroupLike)

/-- What a call throws: a `GraphPermissionError`, or anything else. -/
inductive Thrown
  | graphPermission (graphCode hint : Option Text)
  | other (message : Text)
  deriving DecidableEq

structure GraphPolicy where
  state : Text
  defaultLifetimeInMinutes : Int
  minimumLifetimeInMinutes : Int
  maximumLifetimeInMinutes : Int
  isUsableOnce : Bool
  /-- The targets' ids. -/
  includeTargets : Option (List Text)
  excludeTargets : Option (List Text)
  deriving DecidableEq

/-- A pass as Entra lists it; the value itself is never given again. -/
structure TapMethod where
  id : Option Text
  createdDateTime : Option Text
  startDateTime : Option Text
  lifetimeInMinutes : Option Int
  isUsableOnce : Option Bool
  isUsable : Option Bool
  methodUsabilityReason : Option Text
  deriving DecidableEq

structure CreatedPass where
  id : Option Text
  temporaryAccessPass : Text
  createdDateTime : Option Text
  startDateTime : Option Text
  lifetimeInMinutes : Int
  isUsableOnce : Bool
  filled : temporaryAccessPass ≠ []

structure Membership where
  id : Text
  odataType : Option Text
  deriving DecidableEq

structure Page (α : Type) where
  value : List α
  nextLink : Option Text
  deriving DecidableEq

structure TapGroup extends GroupLike where
  name : Option Text
  deriving DecidableEq

/-- The user's security groups, nested ones included: every SID, and the groups found for them. -/
structure UserTokenGroups where
  sids : List Text
  groups : List TapGroup
  deriving DecidableEq

/-- A policy, and when it was read. -/
structure CachedPolicy where
  policy : GraphPolicy
  readAt : Int
  deriving DecidableEq

/-- What a list is of: the schema its page is read with. -/
inductive Item
  | target
  | membership
  | principal
  | pass
  deriving DecidableEq

abbrev Item.Read : Item → Type
  | target => Text
  | membership => Membership
  | principal => Text
  | pass => TapMethod

inductive Schema
  | policy
  | listOf (item : Item)
  /-- The first organization's `onPremisesLastSyncDateTime`. -/
  | organization
  deriving DecidableEq

abbrev Schema.Read : Schema → Type
  | policy => GraphPolicy
  | listOf item => Page item.Read
  | organization => Option Text

abbrev Headers := List (Text × Text)

/-- The body of the request that creates a pass. -/
structure PassRequest where
  startDateTime : Option Text
  lifetimeInMinutes : Int
  isUsableOnce : Bool
  deriving DecidableEq

/-- What is asked: AD for the user's token groups, Graph by `getJson` and `postJson`, and the
process's own `policyCache`, which other requests read and set too. -/
inductive Question
  | tokenGroups
  | cachedPolicy
  | keepPolicy (cached : CachedPolicy)
  | getJson (path : Text) (headers : Headers) (schema : Schema)
  | postJson (path : Text) (body : PassRequest)
  deriving DecidableEq

/-- What is read of an answer; one that the schema doesn't accept is thrown. -/
abbrev Question.Answer : Question → Type
  | tokenGroups => Option UserTokenGroups
  | cachedPolicy => Option CachedPolicy
  | keepPolicy _ => Unit
  | getJson _ _ schema => schema.Read
  | postJson _ _ => CreatedPass

abbrev Asking := Dialogue Question Question.Answer Thrown

abbrev Said := Dialogue.Exchange Question Question.Answer Thrown

def getJson (path : Text) (headers : Headers) (schema : Schema) : Asking schema.Read :=
  Dialogue.call (Question.getJson path headers schema)

def getPage (path : Text) (headers : Headers) (item : Item) : Asking (Page item.Read) :=
  getJson path headers (.listOf item)

def MAX_PAGES : Nat := 50

/-- A link there is: an empty one is none. -/
def linked (next : Option Text) : Option Text := next.filter (· ≠ [])

def pagesFrom (headers : Headers) (item : Item) : Nat → Option Text → List item.Read →
    Asking (Option (List item.Read))
  | _, none, items => pure (some items)
  | 0, some _, _ => pure none
  | more + 1, some next, items => do
    let page ← getPage next headers item
    pagesFrom headers item more (linked page.nextLink) (items ++ page.value)

/-- Every item across a nextLink chain; none past MAX_PAGES. -/
def allPages (first : Text) (item : Item) (headers : Headers) : Asking (Option (List item.Read)) :=
  pagesFrom headers item MAX_PAGES (linked (some first)) []

def usersBySidPath (sid : Text) : Text :=
  text "/users?$filter=onPremisesSecurityIdentifier eq '" ++ sid ++ text "'&$select=id&$count=true"

def LOOKUP_HEADERS : Headers := [(text "ConsistencyLevel", text "eventual")]

/-- The Entra user synced from the AD user with this SID; none when there's none yet. -/
def findEntraUser (sid : Text) : Asking (Option Text) := do
  let page ← getPage (usersBySidPath sid) LOOKUP_HEADERS .target
  return page.value.head?

/-- The farthest from 1970 a date is, in milliseconds. -/
def MAX_TIME : Int := 8640000000000000

/-- A `Date` of so many milliseconds, where it is one. -/
def dateOf (ms : Int) : Option Int := if ms.natAbs ≤ MAX_TIME.natAbs then some ms else none

/-- What the code takes from the language: how text is lowered, and what instant `new Date`
makes of a text, if any. -/
structure Locale where
  lower : Text → Text
  date : Text → Option Int

section
variable (locale : Locale)

/-- `new Date(at).toISOString()`, which throws on no date. -/
def isoDate (date : Option Int) : Except Thrown Text :=
  match date with
  | some ms => .ok (Dates.toISOString ms)
  | none => .error (.other (text "Invalid time value"))

/-- When the tenant last synced from AD; none when it never has or Graph won't say. -/
def tenantLastSync : Asking (Option Text) :=
  tryCatch (do
    let synced ← getJson (text "/organization?$select=onPremisesLastSyncDateTime") [] .organization
    match linked synced with
    | none => return none
    | some at_ =>
      let shown ← .done (isoDate (locale.date at_))
      return some shown) fun _ => return none

end

def hexDigits : Text := text "0123456789ABCDEF"

def percent (byte : Nat) : Text := unit '%' :: [hexDigits.getD (byte / 16) 0, hexDigits.getD (byte % 16) 0]

/-- A code point's UTF-8 bytes. -/
def utf8 (c : Nat) : List Nat :=
  if c < 0x80 then [c]
  else if c < 0x800 then [0xc0 + c / 0x40, 0x80 + c % 0x40]
  else if c < 0x10000 then [0xe0 + c / 0x1000, 0x80 + c / 0x40 % 0x40, 0x80 + c % 0x40]
  else [0xf0 + c / 0x40000, 0x80 + c / 0x1000 % 0x40, 0x80 + c / 0x40 % 0x40, 0x80 + c % 0x40]

def isUnreserved (c : UInt16) : Bool := isUpper c || isLower c || isDigit c || c ∈ text "-_.!~*'()"

/-- A code point as it is written in a path; none for a surrogate by itself. -/
def encodePoint (point : Text) : Option Text :=
  match point with
  | [c] =>
    if isUnreserved c then some [c]
    else if isHigh c || isLow c then none
    else some ((utf8 (codePoint [c])).flatMap percent)
  | point => some ((utf8 (codePoint point)).flatMap percent)

/-- Throws on a surrogate by itself. -/
def encodeURIComponent (t : Text) : Except Thrown Text :=
  match (points t).mapM encodePoint with
  | some encoded => .ok encoded.flatten
  | none => .error (.other (text "URI malformed"))

def passesPath (entraUserId : Text) : Except Thrown Text := do
  let encoded ← encodeURIComponent entraUserId
  return text "/users/" ++ encoded ++ text "/authentication/temporaryAccessPassMethods"

def membershipsPath (entraUserId : Text) : Except Thrown Text := do
  let encoded ← encodeURIComponent entraUserId
  return text "/users/" ++ encoded ++ text "/transitiveMemberOf"

end OpenAduc.TemporaryAccessPass
