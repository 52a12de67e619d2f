import OpenAduc.Ldap.Filters
import OpenAduc.Lib.Assoc
import OpenAduc.Naming.Lookups

namespace OpenAduc.Ldap
open Naming Dn

def USER_FILTER_BASE : Text := text "(&(objectCategory=person)(objectClass=user)(!(objectClass=computer)))"

def GROUP_FILTER_BASE : Text := text "(objectClass=group)"

def OU_FILTER_BASE : Text := text "(objectClass=organizationalUnit)"

def COMPUTER_FILTER_BASE : Text := text "(&(objectCategory=computer)(objectClass=computer))"

def GPO_FILTER_BASE : Text := text "(objectClass=groupPolicyContainer)"

def ANY_OBJECT : Text := text "(objectClass=*)"

/-- `(attr=value)`, for a value escaped. -/
def clause (attr : String) (value : Text) : Text := OPEN :: text attr ++ unit '=' :: value ++ [CLOSE]

/-- `(attr=*value*)`. -/
def contains (attr : String) (value : Text) : Text := clause attr (STAR :: value ++ [STAR])

/-- `(attr=value*)`. -/
def startsWith (attr : String) (value : Text) : Text := clause attr (value ++ [STAR])

/-- `(&…)`. -/
def allOf (clauses : List Text) : Text := OPEN :: unit '&' :: clauses.flatten ++ [CLOSE]

/-- `(|…)`. -/
def anyOf (clauses : List Text) : Text := OPEN :: unit '|' :: clauses.flatten ++ [CLOSE]

def DISABLED : Text := text "(userAccountControl:1.2.840.113556.1.4.803:=2)"

structure DirectoryUserSearchQuery where
  text : Option Text
  enabled : Option Bool
  locked : Option Bool

structure DirectoryComputerSearchQuery where
  text : Option Text
  enabled : Option Bool
  operatingSystem : Option Text

/-- A text that is given, the empty one not being. -/
def given (t : Option Text) : Option Text := t.filter (· ≠ [])

def enabledClauses : Option Bool → List Text
  | some true => [OPEN :: unit '!' :: DISABLED ++ [CLOSE]]
  | some false => [DISABLED]
  | none => []

def lockedClauses : Option Bool → List Text
  | some true => [text "(&(lockoutTime=*)(!(lockoutTime=0)))"]
  | some false => [text "(|(!(lockoutTime=*))(lockoutTime=0))"]
  | none => []

/-- One clause as it is, more of them joined. -/
def conjoined (clauses : List Text) : Text :=
  if clauses.length = 1 then clauses.headD [] else allOf clauses

/-- Any of the attributes containing a text. -/
def anyContains (attrs : List String) (t : Option Text) : List Text :=
  (given t).toList.map fun t => anyOf (attrs.map fun attr => contains attr (escapeLdapFilter t))

def USER_TEXT_ATTRS : List String := ["displayName", "sAMAccountName", "userPrincipalName", "mail"]

def COMPUTER_TEXT_ATTRS : List String := ["cn", "sAMAccountName", "dNSHostName", "description"]

def buildUserFilter (query : DirectoryUserSearchQuery) : Text :=
  conjoined (USER_FILTER_BASE :: anyContains USER_TEXT_ATTRS query.text ++
    enabledClauses query.enabled ++ lockedClauses query.locked)

def buildComputerFilter (query : DirectoryComputerSearchQuery) : Text :=
  conjoined (COMPUTER_FILTER_BASE :: anyContains COMPUTER_TEXT_ATTRS query.text ++
    enabledClauses query.enabled ++
    (given query.operatingSystem).toList.map fun os => clause "operatingSystem" (escapeLdapFilter os))

def searchGroupsFilter (t : Option Text) : Text :=
  match given t with
  | some t => allOf [GROUP_FILTER_BASE,
    anyOf (["cn", "sAMAccountName", "description"].map fun attr => contains attr (escapeLdapFilter t))]
  | none => GROUP_FILTER_BASE

def searchDeletedUsersFilter (t : Option Text) : Text :=
  allOf ([text "(isDeleted=TRUE)", text "(!(isRecycled=TRUE))", text "(objectClass=user)",
    text "(!(objectClass=computer))"] ++
    anyContains ["displayName", "sAMAccountName", "userPrincipalName", "mail", "cn"] t)

def searchDeletedComputersFilter (t : Option Text) : Text :=
  allOf ([text "(isDeleted=TRUE)", text "(!(isRecycled=TRUE))", text "(objectClass=computer)"] ++
    anyContains ["cn", "sAMAccountName", "dNSHostName", "operatingSystem"] t)

inductive ObjectBase
  | user
  | group
  | computer
  | ou
  | groupPolicy
  | any
  deriving DecidableEq, Repr

def ObjectBase.filter : ObjectBase → Text
  | .user => USER_FILTER_BASE
  | .group => GROUP_FILTER_BASE
  | .computer => COMPUTER_FILTER_BASE
  | .ou => OU_FILTER_BASE
  | .groupPolicy => GPO_FILTER_BASE
  | .any => ANY_OBJECT

/-- The identifiers a filter's text holds; an objectGUID goes as a filter object. -/
inductive TextIdentifier
  | distinguishedName (value : Text)
  | samAccountName (value : Text)
  | userPrincipalName (value : Text)
  deriving DecidableEq, Repr

def TextIdentifier.clause : TextIdentifier → Text
  | .distinguishedName value => Ldap.clause "distinguishedName" (escapeLdapFilter value)
  | .samAccountName value => Ldap.clause "sAMAccountName" (escapeLdapFilter value)
  | .userPrincipalName value => Ldap.clause "userPrincipalName" (escapeLdapFilter value)

def identifierToFilter (identifier : TextIdentifier) (base : ObjectBase) : Text :=
  allOf [base.filter, identifier.clause]

/-- A Date's UTC fields. -/
structure UtcTime where
  year : Nat
  month : Nat
  day : Nat
  hours : Nat
  minutes : Nat
  seconds : Nat

/-- `padStart(2, '0')`. -/
def pad (n : Nat) : Text := if (decimal n).length < 2 then unit '0' :: decimal n else decimal n

def formatGeneralizedTime (d : UtcTime) : Text :=
  decimal d.year ++ pad d.month ++ pad d.day ++ pad d.hours ++ pad d.minutes ++ pad d.seconds ++ text ".0Z"

def syncFilter (base : ObjectBase) : Option UtcTime → Text
  | some since =>
      allOf [base.filter, OPEN :: text "whenChanged" ++
        unit '>' :: unit '=' :: formatGeneralizedTime since ++ [CLOSE]]
  | none => base.filter

/-- The objects at these DNs, which some are. -/
def atDns (base : ObjectBase) (dns : List Text) : Text :=
  allOf [base.filter, anyOf (dns.map fun dn => clause "distinguishedName" (escapeLdapFilter dn))]

inductive ClashAttribute
  | samAccountName
  | userPrincipalName
  | email
  | cn
  deriving DecidableEq, Repr

/-- Holders of a name, of a value already escaped. -/
def clashFilter : ClashAttribute → Text → Text
  | .samAccountName, v => clause "sAMAccountName" v
  | .userPrincipalName, v => clause "userPrincipalName" v
  | .email, v => anyOf [clause "mail" v, clause "proxyAddresses" (text "smtp:" ++ v)]
  | .cn, v => clause "cn" v

def looksLikeUpn (s : Text) : Bool := s.contains (unit '@') && !s.contains (unit '=')

/-- The filters a sign-in looks its user up by, in order. -/
def signInFilters (username : Text) : List Text :=
  let candidates :=
    if looksLikeUpn username then
      clause "userPrincipalName" (escapeLdapFilter username) ::
        (given (some (username.takeWhile (· ≠ unit '@')))).toList.map fun sam =>
          clause "sAMAccountName" (escapeLdapFilter sam)
    else [clause "sAMAccountName" (escapeLdapFilter username)]
  candidates.map fun c => allOf [USER_FILTER_BASE, c]

/-- Pieces of at most this many, in order. -/
def chunksOf {α : Type} (n : Nat) : Nat → List α → List (List α)
  | 0, _ => []
  | fuel + 1, l => if l.isEmpty then [] else l.take n :: chunksOf n fuel (l.drop n)

/-- Everything matching any of `clauses` (and `within`, when given), in bounded filters. -/
def searchAnyFilters (clauses : List Text) (within : Option Text) : List Text :=
  (chunksOf 50 clauses.length clauses).map fun some_ =>
    match within with
    | some within => allOf [within, anyOf some_]
    | none => anyOf some_

def samPrefixClause (p : Text) : Text := startsWith "sAMAccountName" (escapeLdapFilter p)

def addressPrefixClause (p : Text) : Text :=
  let v := escapeLdapFilter p
  startsWith "userPrincipalName" v ++ startsWith "mail" v ++ startsWith "proxyAddresses" (text "smtp:" ++ v)

/-- A clause more for an OU. -/
def want (byOu : List (Text × List Text)) (ouDn clause : Text) : List (Text × List Text) :=
  Assoc.set byOu ouDn ((Assoc.get byOu ouDn).getD [] ++ [clause])

def clausesByOu (lookups : NamingLookups) : List (Text × List Text) :=
  lookups.cnPrefixes.foldl (fun byOu n => want byOu n.ouDn (startsWith "cn" (escapeLdapFilter n.cn)))
    (lookups.cns.foldl (fun byOu n => want byOu n.ouDn (clause "cn" (escapeLdapFilter n.cn))) [])

def employeeClause (v : Text) : Text := clause "employeeID" (escapeLdapFilter v)

def identifierClause (v : Text) : Text :=
  let e := escapeLdapFilter v
  clause "mail" e ++ clause "proxyAddresses" (text "smtp:" ++ e) ++ clause "userPrincipalName" e ++
    clause "sAMAccountName" e

/-- What the provider looks for with text somebody gave. -/
inductive Search
  | users (query : DirectoryUserSearchQuery)
  | computers (query : DirectoryComputerSearchQuery)
  | groups (t : Option Text)
  | deletedUsers (t : Option Text)
  | deletedComputers (t : Option Text)
  | identified (identifier : TextIdentifier) (base : ObjectBase)
  | changed (base : ObjectBase) (since : Option UtcTime)
  | groupMembers (groupDn : Text)
  /-- The groups an account is in, or the users in a group, which are some. -/
  | objectsAt (base : ObjectBase) (dn : Text) (dns : List Text)
  | membership (memberDn : Text)
  | nameClash (of : ClashAttribute) (value : Text)
  | signIn (username : Text)
  | samPrefixes (lookups : NamingLookups)
  | addressPrefixes (lookups : NamingLookups)
  | cns (lookups : NamingLookups) (ouDn : Text)
  | people (employeeIds identifiers : List Text)
  | objects (dns : List Text)
  | schemaAttribute (ldapDisplayName : Text)

def Search.filters : Search → List Text
  | .users query => [buildUserFilter query]
  | .computers query => [buildComputerFilter query]
  | .groups t => [searchGroupsFilter t]
  | .deletedUsers t => [searchDeletedUsersFilter t]
  | .deletedComputers t => [searchDeletedComputersFilter t]
  | .identified identifier base => [identifierToFilter identifier base]
  | .changed base since => [syncFilter base since]
  | .groupMembers groupDn => [allOf [USER_FILTER_BASE, clause "memberOf" (escapeLdapFilter groupDn)]]
  | .objectsAt base dn dns => [atDns base (dn :: dns)]
  | .membership memberDn => [clause "member" (escapeLdapFilter memberDn)]
  | .nameClash of value => (given (some (trim value))).toList.map fun v => clashFilter of (escapeLdapFilter v)
  | .signIn username => signInFilters username
  | .samPrefixes lookups => searchAnyFilters (lookups.samAccountNamePrefixes.map samPrefixClause) none
  | .addressPrefixes lookups => searchAnyFilters (lookups.upnLocalPrefixes.map addressPrefixClause) none
  | .cns lookups ouDn => searchAnyFilters ((Assoc.get (clausesByOu lookups) ouDn).getD []) none
  | .people employeeIds identifiers =>
    searchAnyFilters (employeeIds.map employeeClause ++ identifiers.map identifierClause)
      (some USER_FILTER_BASE)
  | .objects dns => searchAnyFilters (dns.map fun dn => clause "distinguishedName" (escapeLdapFilter dn)) none
  | .schemaAttribute ldapDisplayName =>
    [allOf [text "(objectClass=attributeSchema)",
      clause "lDAPDisplayName" (escapeLdapFilter ldapDisplayName)]]

end OpenAduc.Ldap
