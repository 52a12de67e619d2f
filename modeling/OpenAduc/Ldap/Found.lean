import OpenAduc.Ldap.Searches

namespace OpenAduc.Ldap
open Naming Dn

mutual

/-- Whether an entry matches, by which conditions it meets. -/
def Filter.Holds (meets : Condition → Prop) : Filter → Prop
  | .item c => meets c
  | .all fs => HoldAll meets fs
  | .any fs => HoldAny meets fs
  | .not f => ¬f.Holds meets

def HoldAll (meets : Condition → Prop) : List Filter → Prop
  | [] => True
  | f :: fs => f.Holds meets ∧ HoldAll meets fs

def HoldAny (meets : Condition → Prop) : List Filter → Prop
  | [] => False
  | f :: fs => f.Holds meets ∨ HoldAny meets fs

end

section
variable (meets : Condition → Prop)

def Is (attr : String) (value : Text) : Prop := meets (.equal (text attr) value)

def HasContaining (attr : String) (value : Text) : Prop := meets (.substrings (text attr) [] [value] [])

/-- An attribute starting with a text: any that has it, where the text is empty. -/
def startCondition (attr : String) (value : Text) : Condition :=
  if value = [] then .present (text attr) else .substrings (text attr) value [] []

def HasStarting (attr : String) (value : Text) : Prop := meets (startCondition attr value)

def ObjectBase.Of : ObjectBase → Prop
  | .user =>
      Is meets "objectCategory" (text "person") ∧ Is meets "objectClass" (text "user") ∧
      ¬Is meets "objectClass" (text "computer")
  | .group => Is meets "objectClass" (text "group")
  | .computer => Is meets "objectCategory" (text "computer") ∧ Is meets "objectClass" (text "computer")
  | .ou => Is meets "objectClass" (text "organizationalUnit")
  | .groupPolicy => Is meets "objectClass" (text "groupPolicyContainer")
  | .any => meets (.present (text "objectClass"))

def AnyContains (attrs : List String) (t : Option Text) : Prop :=
  ∀ v, given t = some v → ∃ attr ∈ attrs, HasContaining meets attr v

def Disabled : Prop :=
  meets (.extensible (text "userAccountControl") (text "1.2.840.113556.1.4.803") (text "2"))

def EnabledIs : Option Bool → Prop
  | some true => ¬Disabled meets
  | some false => Disabled meets
  | none => True

def LockedIs : Option Bool → Prop
  | some true => meets (.present (text "lockoutTime")) ∧ ¬Is meets "lockoutTime" (text "0")
  | some false => ¬meets (.present (text "lockoutTime")) ∨ Is meets "lockoutTime" (text "0")
  | none => True

def TextIdentifier.Names : TextIdentifier → Prop
  | .distinguishedName value => Is meets "distinguishedName" value
  | .samAccountName value => Is meets "sAMAccountName" value
  | .userPrincipalName value => Is meets "userPrincipalName" value

def ClashAttribute.Holds : ClashAttribute → Text → Prop
  | .samAccountName, v => Is meets "sAMAccountName" v
  | .userPrincipalName, v => Is meets "userPrincipalName" v
  | .email, v => Is meets "mail" v ∨ Is meets "proxyAddresses" (text "smtp:" ++ v)
  | .cn, v => Is meets "cn" v

/-- Which entries a search is for, of those where it looks. -/
def Search.Wants : Search → Prop
  | .users query =>
    ObjectBase.user.Of meets ∧ AnyContains meets USER_TEXT_ATTRS query.text ∧
      EnabledIs meets query.enabled ∧ LockedIs meets query.locked
  | .computers query =>
    ObjectBase.computer.Of meets ∧ AnyContains meets COMPUTER_TEXT_ATTRS query.text ∧
      EnabledIs meets query.enabled ∧
      ∀ os, given query.operatingSystem = some os → Is meets "operatingSystem" os
  | .groups t => ObjectBase.group.Of meets ∧ AnyContains meets ["cn", "sAMAccountName", "description"] t
  | .deletedUsers t =>
    (Is meets "isDeleted" (text "TRUE") ∧ ¬Is meets "isRecycled" (text "TRUE") ∧
      Is meets "objectClass" (text "user") ∧
      ¬Is meets "objectClass" (text "computer")) ∧ AnyContains meets ["displayName",
        "sAMAccountName", "userPrincipalName", "mail", "cn"] t
  | .deletedComputers t =>
    (Is meets "isDeleted" (text "TRUE") ∧ ¬Is meets "isRecycled" (text "TRUE") ∧
      Is meets "objectClass" (text "computer")) ∧
      AnyContains meets ["cn", "sAMAccountName", "dNSHostName", "operatingSystem"] t
  | .identified identifier base => base.Of meets ∧ identifier.Names meets
  | .changed base since =>
    base.Of meets ∧ ∀ at_, since = some at_ →
      meets (.greaterOrEqual (text "whenChanged") (formatGeneralizedTime at_))
  | .groupMembers groupDn => ObjectBase.user.Of meets ∧ Is meets "memberOf" groupDn
  | .objectsAt base dn dns => base.Of meets ∧ ∃ d ∈ dn :: dns, Is meets "distinguishedName" d
  | .membership memberDn => Is meets "member" memberDn
  | .nameClash of value => trim value ≠ [] ∧ of.Holds meets (trim value)
  | .signIn username =>
    ObjectBase.user.Of meets ∧
      if looksLikeUpn username then
        Is meets "userPrincipalName" username ∨
          ∃ sam, given (some (username.takeWhile (· ≠ unit '@'))) = some sam ∧ Is meets "sAMAccountName" sam
      else Is meets "sAMAccountName" username
  | .samPrefixes lookups => ∃ p ∈ lookups.samAccountNamePrefixes, HasStarting meets "sAMAccountName" p
  | .addressPrefixes lookups => ∃ p ∈ lookups.upnLocalPrefixes,
      HasStarting meets "userPrincipalName" p ∨ HasStarting meets "mail" p ∨
        HasStarting meets "proxyAddresses" (text "smtp:" ++ p)
  | .cns lookups ouDn =>
    (∃ n ∈ lookups.cns, n.ouDn = ouDn ∧ Is meets "cn" n.cn) ∨ ∃ n ∈ lookups.cnPrefixes,
      n.ouDn = ouDn ∧ HasStarting meets "cn" n.cn
  | .people employeeIds identifiers =>
    ObjectBase.user.Of meets ∧ ((∃ v ∈ employeeIds, Is meets "employeeID" v) ∨
      ∃ v ∈ identifiers, Is meets "mail" v ∨ Is meets "proxyAddresses" (text "smtp:" ++ v) ∨
        Is meets "userPrincipalName" v ∨
        Is meets "sAMAccountName" v)
  | .objects dns => ∃ dn ∈ dns, Is meets "distinguishedName" dn
  | .schemaAttribute ldapDisplayName =>
    Is meets "objectClass" (text "attributeSchema") ∧ Is meets "lDAPDisplayName" ldapDisplayName

end

section
variable {meets : Condition → Prop} {t u : Text} {f : Filter} {fs gs : List Filter} {attr : String} {v : Text}

theorem holdAll_iff : HoldAll meets fs ↔ ∀ f ∈ fs, f.Holds meets := by
  induction fs with
  | nil => simp [HoldAll]
  | cons f fs ih => simp [HoldAll, ih]

theorem holdAny_iff : HoldAny meets fs ↔ ∃ f ∈ fs, f.Holds meets := by
  induction fs with
  | nil => simp [HoldAny]
  | cons f fs ih => simp [HoldAny, ih]

@[simp] theorem holds_item {c : Condition} : (Filter.item c).Holds meets ↔ meets c := Iff.rfl

@[simp] theorem holds_all : (Filter.all fs).Holds meets ↔ ∀ f ∈ fs, f.Holds meets := holdAll_iff

@[simp] theorem holds_any : (Filter.any fs).Holds meets ↔ ∃ f ∈ fs, f.Holds meets := holdAny_iff

@[simp] theorem holds_not : (Filter.not f).Holds meets ↔ ¬f.Holds meets := Iff.rfl

/-- A text that writes a filter. -/
structure Writes (t : Text) (f : Filter) : Prop where
  is : t = f.print
  plain : f.Plain

/-- A text that writes filters one after another. -/
structure WritesMany (t : Text) (fs : List Filter) : Prop where
  is : t = printMany fs
  plain : PlainMany fs

theorem Writes.read (writes : Writes t f) : readFilter t = some f := by
  rw [writes.is]
  exact readFilter_print f writes.plain

theorem WritesMany.nil : WritesMany [] [] := ⟨rfl, trivial⟩

theorem Writes.cons (first : Writes t f) (rest : WritesMany u fs) : WritesMany (t ++ u) (f :: fs) :=
  ⟨by rw [first.is, rest.is, printMany], first.plain, rest.plain⟩

theorem WritesMany.append (first : WritesMany t fs) (rest : WritesMany u gs) :
    WritesMany (t ++ u) (fs ++ gs) := by
  induction fs generalizing t with
  | nil =>
    rw [first.is]
    exact rest
  | cons f fs ih =>
    have more : WritesMany (printMany fs ++ u) (fs ++ gs) := ih ⟨rfl, first.plain.2⟩
    rw [first.is, printMany, List.append_assoc]
    exact Writes.cons ⟨rfl, first.plain.1⟩ more

theorem Writes.many (writes : Writes t f) : WritesMany t [f] := by
  have one := writes.cons .nil
  rwa [List.append_nil] at one

theorem writes_allOf {clauses : List Text} (inside : WritesMany clauses.flatten fs) (some_ : fs ≠ []) :
    Writes (allOf clauses) (.all fs) :=
  ⟨by rw [allOf, inside.is, Filter.print], some_, inside.plain⟩

theorem writes_anyOf {clauses : List Text} (inside : WritesMany clauses.flatten fs) (some_ : fs ≠ []) :
    Writes (anyOf clauses) (.any fs) :=
  ⟨by rw [anyOf, inside.is, Filter.print], some_, inside.plain⟩

theorem writes_clause (described : isDescription (text attr) = true) (v : Text) :
    Writes (clause attr (escapeLdapFilter v)) (.item (.equal (text attr) v)) :=
  ⟨by simp [clause, Filter.print, Condition.print], described⟩

theorem escape_append : escapeLdapFilter (v ++ u) = escapeLdapFilter v ++ escapeLdapFilter u :=
  List.flatMap_append

theorem writes_smtp (described : isDescription (text attr) = true) (v : Text) :
    Writes (clause attr (text "smtp:" ++ escapeLdapFilter v))
      (.item (.equal (text attr) (text "smtp:" ++ v))) := by
  have plain : escapeLdapFilter (text "smtp:") = text "smtp:" := by decide
  rw [← plain, ← escape_append, plain]
  exact writes_clause described _

theorem writes_contains (described : isDescription (text attr) = true) (some_ : v ≠ []) :
    Writes (contains attr (escapeLdapFilter v)) (.item (.substrings (text attr) [] [v] [])) := by
  have empty : escapeLdapFilter [] = [] := rfl
  refine ⟨by simp [contains, clause, Filter.print,
    Condition.print, empty], described, fun piece member => ?_, .inr (.inl (by simp))⟩
  exact List.mem_singleton.mp member ▸ some_

theorem writes_startsWith (described : isDescription (text attr) = true) (v : Text) :
    Writes (startsWith attr (escapeLdapFilter v)) (.item (startCondition attr v)) := by
  have empty : escapeLdapFilter [] = [] := rfl
  unfold startCondition
  split
  next none_ =>
    rw [none_]
    exact ⟨by simp [startsWith, clause, Filter.print, Condition.print, empty], described⟩
  next some_ =>
    exact ⟨by simp [startsWith, clause, Filter.print, Condition.print, empty], described, by simp, .inl some_⟩

theorem writes_startsSmtp (described : isDescription (text attr) = true) (v : Text) :
    Writes (startsWith attr (text "smtp:" ++ escapeLdapFilter v))
      (.item (startCondition attr (text "smtp:" ++ v))) := by
  have plain : escapeLdapFilter (text "smtp:") = text "smtp:" := by decide
  rw [← plain, ← escape_append, plain]
  exact writes_startsWith described _

end

/-- A text that writes a filter, and which entries it finds. -/
def Means (t : Text) (wants : (Condition → Prop) → Prop) : Prop :=
  ∃ f, Writes t f ∧ ∀ meets, f.Holds meets ↔ wants meets

/-- Clauses of which an entry has to match all. -/
def Conj (clauses : List Text) (wants : (Condition → Prop) → Prop) : Prop :=
  ∃ fs, List.Forall₂ Writes clauses fs ∧ ∀ meets, (∀ f ∈ fs, f.Holds meets) ↔ wants meets

/-- A text of filters one after another of which an entry has to match any. -/
def Disj (t : Text) (wants : (Condition → Prop) → Prop) : Prop :=
  ∃ fs, WritesMany t fs ∧ fs ≠ [] ∧ ∀ meets, (∃ f ∈ fs, f.Holds meets) ↔ wants meets

section
variable {t u : Text} {attr : String} {v : Text} {clauses more : List Text}
    {wants wants' : (Condition → Prop) → Prop}

theorem Means.mono (means : Means t wants) (same : ∀ meets, wants meets ↔ wants' meets) : Means t wants' := by
  obtain ⟨f, writes, holds⟩ := means
  exact ⟨f, writes, fun meets => (holds meets).trans (same meets)⟩

theorem Means.conj (means : Means t wants) : Conj [t] wants := by
  obtain ⟨f, writes, holds⟩ := means
  exact ⟨[f], .cons writes .nil, fun meets => by simpa using holds meets⟩

theorem Means.disj (means : Means t wants) : Disj t wants := by
  obtain ⟨f, writes, holds⟩ := means
  exact ⟨[f], writes.many, by simp, fun meets => by simpa using holds meets⟩

theorem Conj.nil : Conj [] fun _ => True := ⟨[], .nil, by simp⟩

theorem Conj.append (first : Conj clauses wants) (rest : Conj more wants') :
    Conj (clauses ++ more) fun meets => wants meets ∧ wants' meets := by
  obtain ⟨fs, writes, holds⟩ := first
  obtain ⟨gs, writes', holds'⟩ := rest
  refine ⟨fs ++ gs, List.rel_append writes writes', fun meets => ?_⟩
  simp only [List.mem_append, or_imp, forall_and, holds, holds']

theorem writesMany_flatten {fs : List Filter} (writes : List.Forall₂ Writes clauses fs) :
    WritesMany clauses.flatten fs := by
  induction writes with
  | nil => exact .nil
  | cons first _ ih => exact first.cons ih

theorem Conj.allOf (conj : Conj clauses wants) (some_ : clauses ≠ []) : Means (allOf clauses) wants := by
  obtain ⟨fs, writes, holds⟩ := conj
  have filters : fs ≠ [] := by
    rintro rfl
    cases writes
    exact some_ rfl
  exact ⟨.all fs, writes_allOf (writesMany_flatten writes) filters, fun meets =>
    holds_all.trans (holds meets)⟩

theorem Conj.conjoined (conj : Conj clauses wants) (some_ : clauses ≠ []) :
    Means (conjoined clauses) wants := by
  unfold Ldap.conjoined
  split
  next one =>
    obtain ⟨t, rfl⟩ := List.length_eq_one_iff.mp one
    obtain ⟨fs, writes, holds⟩ := conj
    cases writes with
    | cons first rest =>
      cases rest
      exact ⟨_, first, fun meets => by simpa using holds meets⟩
  next => exact conj.allOf some_

theorem Disj.append (first : Disj t wants) (rest : Disj u wants') : Disj (t ++ u) fun meets =>
    wants meets ∨ wants' meets := by
  obtain ⟨fs, writes, some_, holds⟩ := first
  obtain ⟨gs, writes', _, holds'⟩ := rest
  refine ⟨fs ++ gs, writes.append writes', by simp [some_], fun meets => ?_⟩
  simp only [List.mem_append, or_and_right, exists_or, holds, holds']

/-- Alternatives written one after another ask for one of them. -/
theorem Disj.flatten {α : Type} {items : List α} {write : α → Text}
    {want : α → (Condition → Prop) → Prop} (some_ : items ≠ [])
    (each : ∀ x ∈ items, Disj (write x) (want x)) : Disj (items.map write).flatten fun meets =>
      ∃ x ∈ items, want x meets := by
  induction items with
  | nil => exact absurd rfl some_
  | cons x items ih =>
    obtain ⟨fs, writes, filters, holds⟩ := each x List.mem_cons_self
    by_cases last : items = []
    · rw [last]
      refine ⟨fs, ?_, filters, fun meets => by simpa using holds meets⟩
      rw [List.map_singleton, List.flatten_singleton]
      exact writes
    · obtain ⟨gs, writes', _, holds'⟩ := ih last fun y member => each y (List.mem_cons_of_mem _ member)
      refine ⟨fs ++ gs, writes.append writes', by simp [filters], fun meets => ?_⟩
      simp only [List.mem_append, or_and_right, exists_or, holds, holds', List.mem_cons, exists_eq_left]

theorem Disj.anyOf (disj : Disj clauses.flatten wants) : Means (anyOf clauses) wants := by
  obtain ⟨fs, writes, some_, holds⟩ := disj
  exact ⟨.any fs, writes_anyOf writes some_, fun meets => holds_any.trans (holds meets)⟩

theorem means_clause (described : isDescription (text attr) = true) (v : Text) :
    Means (clause attr (escapeLdapFilter v)) fun meets => Is meets attr v :=
  ⟨_, writes_clause described v, fun _ => Iff.rfl⟩

theorem means_smtp (described : isDescription (text attr) = true) (v : Text) :
    Means (clause attr (text "smtp:" ++ escapeLdapFilter v)) fun meets => Is meets attr (text "smtp:" ++ v) :=
  ⟨_, writes_smtp described v, fun _ => Iff.rfl⟩

theorem means_startsWith (described : isDescription (text attr) = true) (v : Text) :
    Means (startsWith attr (escapeLdapFilter v)) fun meets => HasStarting meets attr v :=
  ⟨_, writes_startsWith described v, fun _ => Iff.rfl⟩

theorem means_startsSmtp (described : isDescription (text attr) = true) (v : Text) :
    Means (startsWith attr (text "smtp:" ++ escapeLdapFilter v)) fun meets =>
      HasStarting meets attr (text "smtp:" ++ v) :=
  ⟨_, writes_startsSmtp described v, fun _ => Iff.rfl⟩

theorem means_containing {attrs : List String} (some_ : attrs ≠ [])
    (described : ∀ attr ∈ attrs, isDescription (text attr) = true)
    (given_ : v ≠ []) : Means (anyOf (attrs.map fun attr => contains attr (escapeLdapFilter v))) fun meets =>
      ∃ attr ∈ attrs, HasContaining meets attr v :=
  Disj.anyOf (Disj.flatten some_ fun attr member =>
    Means.disj ⟨_, writes_contains (described attr member) given_, fun _ => Iff.rfl⟩)

theorem given_ne {o : Option Text} (is : given o = some v) : v ≠ [] := by
  have kept := Option.filter_eq_some_iff.mp is
  simpa using kept.2

theorem conj_anyContains {attrs : List String} (some_ : attrs ≠ [])
    (described : ∀ attr ∈ attrs, isDescription (text attr) = true)
    (t : Option Text) : Conj (anyContains attrs t) fun meets => AnyContains meets attrs t := by
  unfold anyContains AnyContains
  cases is : given t with
  | none => exact ⟨[], .nil, by simp⟩
  | some v =>
    obtain ⟨fs, writes, holds⟩ := (means_containing some_ described (given_ne is)).conj
    exact ⟨fs, writes, fun meets =>
      (holds meets).trans ⟨fun any w same => Option.some.inj same ▸ any, fun all => all v rfl⟩⟩

def only (attr value : String) : Filter := .item (.equal (text attr) (text value))

theorem only_plain {value : String} (described : isDescription (text attr) = true) :
    (only attr value).Plain := described

theorem holds_only {meets : Condition → Prop} {value : String} : (only attr value).Holds meets ↔
    Is meets attr (text value) := Iff.rfl

/-- A kind's filter is met by its objects only. -/
theorem means_base (base : ObjectBase) : Means base.filter fun meets => base.Of meets := by
  cases base with
  | user =>
    refine ⟨.all [only "objectCategory" "person", only "objectClass" "user",
      .not (only "objectClass" "computer")], ⟨by decide, ?_⟩, ?_⟩
    · exact ⟨by simp, only_plain (by decide), only_plain (by decide), only_plain (by decide), trivial⟩
    · intro meets
      simp [holds_only, ObjectBase.Of]
  | computer =>
    refine ⟨.all [only "objectCategory" "computer", only "objectClass" "computer"], ⟨by decide, ?_⟩, ?_⟩
    · exact ⟨by simp, only_plain (by decide), only_plain (by decide), trivial⟩
    · intro meets
      simp [holds_only, ObjectBase.Of]
  | group => exact ⟨only "objectClass" "group", ⟨by decide, only_plain (by decide)⟩, fun _ => Iff.rfl⟩
  | ou => exact ⟨only "objectClass" "organizationalUnit", ⟨by decide, only_plain (by decide)⟩,
    fun _ => Iff.rfl⟩
  | groupPolicy =>
    exact ⟨only "objectClass" "groupPolicyContainer", ⟨by decide, only_plain (by decide)⟩, fun _ => Iff.rfl⟩
  | any => exact ⟨.item (.present (text "objectClass")),
    ⟨by decide, (by decide : isDescription (text "objectClass") = true)⟩, fun _ => Iff.rfl⟩

theorem only_means {value : String} {t : Text} (same : t = (only attr value).print)
    (described : isDescription (text attr) = true) :
    Means t fun meets => Is meets attr (text value) :=
  ⟨only attr value, ⟨same, only_plain described⟩, fun _ => Iff.rfl⟩

theorem not_means {value : String} {t : Text} (same : t = (Filter.not (only attr value)).print)
    (described : isDescription (text attr) = true) :
    Means t fun meets => ¬Is meets attr (text value) :=
  ⟨.not (only attr value), ⟨same, only_plain described⟩, fun _ => Iff.rfl⟩

def disabledCondition : Condition :=
  .extensible (text "userAccountControl") (text "1.2.840.113556.1.4.803") (text "2")

theorem disabled_plain : (Filter.item disabledCondition).Plain :=
  ⟨by decide, by decide⟩

theorem conj_enabled (enabled : Option Bool) : Conj (enabledClauses enabled) fun meets =>
    EnabledIs meets enabled := by
  match enabled with
  | none => exact .nil
  | some true =>
    exact Means.conj ⟨.not (.item disabledCondition), ⟨by decide, disabled_plain⟩, fun _ => Iff.rfl⟩
  | some false => exact Means.conj ⟨.item disabledCondition, ⟨by decide, disabled_plain⟩, fun _ => Iff.rfl⟩

def anyLockout : Filter := .item (.present (text "lockoutTime"))

theorem conj_locked (locked : Option Bool) : Conj (lockedClauses locked) fun meets =>
    LockedIs meets locked := by
  have plain : anyLockout.Plain := (by decide : isDescription (text "lockoutTime") = true)
  match locked with
  | none => exact .nil
  | some true =>
    refine Means.conj ⟨.all [anyLockout, .not (only "lockoutTime" "0")],
      ⟨by decide, by simp, plain, only_plain (by decide), trivial⟩, ?_⟩
    intro meets
    simp [anyLockout, holds_only, LockedIs]
  | some false =>
    refine Means.conj ⟨.any [.not anyLockout, only "lockoutTime" "0"],
      ⟨by decide, by simp, plain, only_plain (by decide), trivial⟩, ?_⟩
    intro meets
    simp [anyLockout, holds_only, LockedIs]

/-- Texts that write filters, and which entries any of them finds. -/
def Finds (ts : List Text) (wants : (Condition → Prop) → Prop) : Prop :=
  ∃ fs, List.Forall₂ Writes ts fs ∧ ∀ meets, (∃ f ∈ fs, f.Holds meets) ↔ wants meets

theorem Means.finds {t : Text} (means : Means t wants) : Finds [t] wants := by
  obtain ⟨f, writes, holds⟩ := means
  exact ⟨[f], .cons writes .nil, fun meets => by simpa using holds meets⟩

theorem Finds.mono {ts : List Text} (finds : Finds ts wants)
    (same : ∀ meets, wants meets ↔ wants' meets) : Finds ts wants' := by
  obtain ⟨fs, writes, holds⟩ := finds
  exact ⟨fs, writes, fun meets => (holds meets).trans (same meets)⟩

theorem Finds.map {α : Type} {items : List α} {write : α → Text} {want : α → (Condition → Prop) → Prop}
    (each : ∀ x ∈ items, Means (write x) (want x)) : Finds (items.map write) fun meets =>
      ∃ x ∈ items, want x meets := by
  induction items with
  | nil => exact ⟨[], .nil, by simp⟩
  | cons x items ih =>
    obtain ⟨f, writes, holds⟩ := each x List.mem_cons_self
    obtain ⟨fs, writes', holds'⟩ := ih fun y member => each y (List.mem_cons_of_mem _ member)
    refine ⟨f :: fs, .cons writes writes', fun meets => ?_⟩
    simp only [List.mem_cons, exists_eq_or_imp, holds, holds']

theorem chunksOf_map {α β : Type} (g : α → β) (n fuel : Nat) (l : List α) :
    chunksOf n fuel (l.map g) = (chunksOf n fuel l).map (List.map g) := by
  induction fuel generalizing l with
  | zero => rfl
  | succ fuel ih =>
    unfold chunksOf
    rw [List.isEmpty_map]
    split
    · rfl
    · rw [← List.map_take, ← List.map_drop, ih, List.map_cons]

/-- Pieces hold everything, and none is empty. -/
theorem mem_chunksOf {α : Type} {n fuel : Nat} {l : List α} (some_ : 0 < n) (enough : l.length ≤ fuel) :
    (∀ c ∈ chunksOf n fuel l, c ≠ []) ∧ ∀ x, (∃ c ∈ chunksOf n fuel l, x ∈ c) ↔ x ∈ l := by
  induction fuel generalizing l with
  | zero =>
    have none_ : l = [] := List.eq_nil_of_length_eq_zero (Nat.le_zero.mp enough)
    simp [chunksOf, none_]
  | succ fuel ih =>
    unfold chunksOf
    split
    next empty =>
      have none_ : l = [] := List.isEmpty_iff.mp empty
      simp [none_]
    next full =>
      have left : l ≠ [] := fun none_ => full (List.isEmpty_iff.mpr none_)
      have shorter : (l.drop n).length ≤ fuel := by
        rw [List.length_drop]
        omega
      obtain ⟨filled, covers⟩ := ih shorter
      refine ⟨fun c member => ?_, fun x => ?_⟩
      · rcases List.mem_cons.mp member with rfl | later
        · simp [left, Nat.ne_of_gt some_]
        · exact filled c later
      · simp only [List.mem_cons, exists_eq_or_imp, covers]
        conv_rhs => rw [← List.take_append_drop n l]
        exact List.mem_append.symm

/-- What some piece holds, the whole does. -/
theorem exists_chunk {α : Type} {l : List α} {P : Prop} {Q : α → Prop} :
    (∃ c ∈ chunksOf 50 l.length l, P ∧ ∃ x ∈ c, Q x) ↔ P ∧ ∃ x ∈ l, Q x := by
  obtain ⟨_, covers⟩ := mem_chunksOf (l := l) (by decide : 0 < 50) (Nat.le_refl _)
  constructor
  · rintro ⟨c, member, of, x, inside, wanted⟩
    exact ⟨of, x, (covers x).mp ⟨c, member, inside⟩, wanted⟩
  · rintro ⟨of, x, member, wanted⟩
    obtain ⟨c, inChunks, inside⟩ := (covers x).mpr member
    exact ⟨c, inChunks, of, x, inside, wanted⟩

theorem means_chunk {α : Type} {items : List α} {write : α → Text} {want : α → (Condition → Prop) → Prop}
    (each : ∀ x ∈ items, Disj (write x) (want x)) (c : List α) (member : c ∈ chunksOf 50 items.length items) :
    Means (anyOf (c.map write)) fun meets => ∃ x ∈ c, want x meets := by
  obtain ⟨filled, covers⟩ := mem_chunksOf (l := items) (by decide : 0 < 50) (Nat.le_refl _)
  exact Disj.anyOf (Disj.flatten (filled c member) fun x inside => each x ((covers x).mp ⟨c, member, inside⟩))

/-- All the clauses are asked for, in filters of at most 50. -/
theorem finds_searchAny {α : Type} {items : List α} {write : α → Text} {want : α → (Condition → Prop) → Prop}
    (each : ∀ x ∈ items, Disj (write x) (want x)) :
    Finds (searchAnyFilters (items.map write) none) fun meets => ∃ x ∈ items, want x meets := by
  unfold searchAnyFilters
  rw [List.length_map, chunksOf_map, List.map_map]
  refine (Finds.map (means_chunk each)).mono fun meets => ?_
  simpa only [true_and] using exists_chunk (P := True) (Q := (want · meets))

theorem finds_searchAnyWithin {α : Type} {items : List α} {write : α → Text}
    {want : α → (Condition → Prop) → Prop} (base : ObjectBase)
    (each : ∀ x ∈ items, Disj (write x) (want x)) :
    Finds (searchAnyFilters (items.map write) (some base.filter)) fun meets =>
      base.Of meets ∧ ∃ x ∈ items, want x meets := by
  unfold searchAnyFilters
  rw [List.length_map, chunksOf_map, List.map_map]
  have chunk : ∀ c ∈ chunksOf 50 items.length items,
    Means (allOf [base.filter, anyOf (c.map write)]) fun meets =>
      base.Of meets ∧ ∃ x ∈ c, want x meets := fun c member =>
    Conj.allOf ((means_base base).conj.append (means_chunk each c member).conj) (by simp)
  exact (Finds.map chunk).mono fun _ => exists_chunk

/-- Each OU's clauses, in the order they were wanted. -/
theorem get_want {α : Type} (items : List α) (ou write : α → Text) (byOu : List (Text × List Text))
    (k : Text) :
    (Assoc.get (items.foldl (fun m x => want m (ou x) (write x)) byOu) k).getD [] =
      (Assoc.get byOu k).getD [] ++ (items.filter (ou · = k)).map write := by
  induction items generalizing byOu with
  | nil => simp
  | cons x items ih =>
    rw [List.foldl_cons, ih]
    by_cases here : ou x = k
    · simp [want, here]
    · simp [want, here, Ne.symm here]

/-- The lookup of names in an OU finds what holds one there. -/
theorem finds_cns (lookups : NamingLookups) (ouDn : Text) :
    Finds (Search.cns lookups ouDn).filters (Search.cns lookups ouDn).Wants := by
  let write : OuName ⊕ OuName → Text :=
    Sum.elim (fun n => clause "cn" (escapeLdapFilter n.cn)) fun n => startsWith "cn" (escapeLdapFilter n.cn)
  let wanted : OuName ⊕ OuName → (Condition → Prop) → Prop :=
    Sum.elim (fun n meets => Is meets "cn" n.cn) fun n meets => HasStarting meets "cn" n.cn
  have clauses : (Assoc.get (clausesByOu lookups) ouDn).getD [] =
      ((lookups.cns.filter fun n : OuName => n.ouDn = ouDn).map Sum.inl ++
        (lookups.cnPrefixes.filter fun n : OuName => n.ouDn = ouDn).map Sum.inr).map write := by
    unfold clausesByOu
    rw [get_want lookups.cnPrefixes (·.ouDn) fun n => startsWith "cn" (escapeLdapFilter n.cn)]
    rw [get_want lookups.cns (·.ouDn) fun n => clause "cn" (escapeLdapFilter n.cn)]
    simp [write, Function.comp_def]
  rw [Search.filters, clauses]
  have each : ∀ x : OuName ⊕ OuName, Disj (write x) (wanted x) := by
    intro x
    cases x with
    | inl n => exact (means_clause (by decide) n.cn).disj
    | inr n => exact (means_startsWith (by decide) n.cn).disj
  refine (finds_searchAny fun x _ => each x).mono fun meets => ?_
  simp only [List.mem_append, List.mem_map, List.mem_filter, decide_eq_true_eq, or_and_right,
    exists_or, exists_exists_and_eq_and,
    wanted, Sum.elim_inl, Sum.elim_inr, Search.Wants]
  simp only [and_assoc]

/-- The lookup of people finds those with an ID or an identifier asked for. -/
theorem finds_people (employeeIds identifiers : List Text) :
    Finds (Search.people employeeIds identifiers).filters (Search.people employeeIds identifiers).Wants := by
  let wanted : Text ⊕ Text → (Condition → Prop) → Prop :=
    Sum.elim (fun v meets => Is meets "employeeID" v) fun v meets =>
      ((Is meets "mail" v ∨ Is meets "proxyAddresses" (text "smtp:" ++ v)) ∨
        Is meets "userPrincipalName" v) ∨ Is meets "sAMAccountName" v
  have clauses : employeeIds.map employeeClause ++ identifiers.map identifierClause =
      (employeeIds.map Sum.inl ++ identifiers.map Sum.inr).map
        (Sum.elim employeeClause identifierClause) := by
    simp [Function.comp_def]
  rw [Search.filters, clauses]
  have each : ∀ x : Text ⊕ Text, Disj (Sum.elim employeeClause identifierClause x) (wanted x) := by
    intro x
    cases x with
    | inl v => exact (means_clause (by decide) v).disj
    | inr v =>
      exact (((means_clause (by decide) v).disj.append (means_smtp (by decide) v).disj).append
        (means_clause (by decide) v).disj).append
        (means_clause (by decide) v).disj
  refine (finds_searchAnyWithin .user fun x _ => each x).mono fun meets => ?_
  simp only [List.mem_append, List.mem_map, or_and_right, exists_or, exists_exists_and_eq_and,
    wanted, Sum.elim_inl, Sum.elim_inr,
    Search.Wants, or_assoc]

theorem means_within {t : Text} (base : ObjectBase) (means : Means t wants) :
    Means (allOf [base.filter, t]) fun meets => base.Of meets ∧ wants meets :=
  Conj.allOf ((means_base base).conj.append means.conj) (by simp)

/-- The sign-in's filter finds the account of that name. -/
theorem finds_signIn (username : Text) : Finds (signInFilters username) fun meets =>
    (Search.signIn username).Wants meets := by
  have sam (v : Text) :
    Means (allOf [USER_FILTER_BASE, clause "sAMAccountName" (escapeLdapFilter v)]) fun meets =>
      ObjectBase.user.Of meets ∧ Is meets "sAMAccountName" v :=
        means_within .user (means_clause (by decide) v)
  have upn : Means
    (allOf [USER_FILTER_BASE, clause "userPrincipalName" (escapeLdapFilter username)]) fun meets =>
      ObjectBase.user.Of meets ∧ Is meets "userPrincipalName" username :=
        means_within .user (means_clause (by decide) username)
  unfold signInFilters Search.Wants
  cases looks : looksLikeUpn username with
  | false =>
    simp only [Bool.false_eq_true, if_false, List.map_cons, List.map_nil, looks]
    exact (sam username).finds
  | true =>
    simp only [if_true, List.map_cons]
    cases part : given (some (username.takeWhile (· ≠ unit '@'))) with
    | none => exact upn.finds.mono fun meets => by simp [looks]
    | some v =>
      obtain ⟨f, writes, holds⟩ := upn
      obtain ⟨g, writes', holds'⟩ := sam v
      refine ⟨[f, g], .cons writes (.cons writes' .nil), fun meets => ?_⟩
      simp [holds, holds', and_or_left, looks]

theorem means_clash (of : ClashAttribute) (v : Text) :
    Means (clashFilter of (escapeLdapFilter v)) fun meets => of.Holds meets v := by
  cases of with
  | samAccountName | userPrincipalName | cn => exact means_clause (by decide) v
  | email =>
    have mail : Disj (clause "mail" (escapeLdapFilter v)) fun meets => Is meets "mail" v :=
      (means_clause (by decide) v).disj
    have proxy : Disj (clause "proxyAddresses" (text "smtp:" ++ escapeLdapFilter v)) fun meets =>
        Is meets "proxyAddresses" (text "smtp:" ++ v) := (means_smtp (by decide) v).disj
    have both := mail.append proxy
    have flat : [clause "mail" (escapeLdapFilter v),
      clause "proxyAddresses" (text "smtp:" ++ escapeLdapFilter v)].flatten =
        clause "mail" (escapeLdapFilter v) ++ clause "proxyAddresses"
          (text "smtp:" ++ escapeLdapFilter v) := by simp
    rw [← flat] at both
    exact both.anyOf

/-- A name of blanks is searched for by no filter. -/
theorem finds_nameClash (of : ClashAttribute) (value : Text) :
    Finds (Search.nameClash of value).filters fun meets => (Search.nameClash of value).Wants meets := by
  rw [Search.filters]
  cases is : given (some (trim value)) with
  | none =>
    refine ⟨[], .nil, fun meets => ⟨by simp, fun wants => ?_⟩⟩
    have blank : trim value = [] := by simpa [given, Option.filter] using is
    exact absurd blank wants.1
  | some v =>
    obtain ⟨same, some_⟩ := Option.filter_eq_some_iff.mp is
    rw [← Option.some.inj same] at some_ ⊢
    have named : trim value ≠ [] := of_decide_eq_true some_
    exact (means_clash of (trim value)).finds.mono fun meets =>
      ⟨fun holds => ⟨named, holds⟩, fun wants => wants.2⟩

/-- A time's digits hold nothing to escape. -/
theorem escape_time (d : UtcTime) : escapeLdapFilter (formatGeneralizedTime d) = formatGeneralizedTime d := by
  have digits : ∀ n, ∀ c ∈ decimal n, isFilterSpecial c = false := by
    intro n c member
    have digit := decimal_digits n c member
    by_contra special
    have all : [BACKSLASH, STAR, OPEN, CLOSE, 0].all (fun c => isDigit c = false) = true := by decide
    have other := of_decide_eq_true
      (List.all_eq_true.mp all c (isFilterSpecial_iff.mp (eq_true_of_ne_false special)))
    rw [other] at digit
    cases digit
  have padded : ∀ n, ∀ c ∈ pad n, isFilterSpecial c = false := by
    intro n c member
    unfold pad at member
    split at member
    · rcases List.mem_cons.mp member with rfl | inside
      · decide
      · exact digits n c inside
    · exact digits n c member
  have plain : ∀ t : Text, (∀ c ∈ t, isFilterSpecial c = false) → escapeLdapFilter t = t := by
    intro t all
    induction t with
    | nil => rfl
    | cons c t ih =>
      rw [escape_cons_plain (all c List.mem_cons_self), ih fun x member =>
        all x (List.mem_cons_of_mem _ member)]
  have ending : escapeLdapFilter (text ".0Z") = text ".0Z" := by decide
  unfold formatGeneralizedTime
  simp only [escape_append, plain _ (digits _), plain _ (padded _), ending]

theorem means_changed (base : ObjectBase) (since : Option UtcTime) :
    Means (syncFilter base since) fun meets =>
    base.Of meets ∧ ∀ at_, since = some at_ →
      meets (.greaterOrEqual (text "whenChanged") (formatGeneralizedTime at_)) := by
  cases since with
  | none => exact (means_base base).mono fun meets => by simp
  | some d =>
    have changed :
      Means (OPEN :: text "whenChanged" ++ unit '>' :: unit '=' :: formatGeneralizedTime d ++
      [CLOSE]) fun meets =>
        meets (.greaterOrEqual (text "whenChanged") (formatGeneralizedTime d)) := by
      refine ⟨.item (.greaterOrEqual (text "whenChanged") (formatGeneralizedTime d)), ⟨?_, ?_⟩,
        fun _ => Iff.rfl⟩
      · simp [Filter.print, Condition.print, escape_time]
      · exact (by decide : isDescription (text "whenChanged") = true)
    exact (means_within base changed).mono fun meets => by simp

theorem means_groups (t : Option Text) : Means (searchGroupsFilter t) fun meets =>
    ObjectBase.group.Of meets ∧ AnyContains meets ["cn", "sAMAccountName", "description"] t := by
  unfold searchGroupsFilter AnyContains
  cases is : given t with
  | none => exact (means_base .group).mono fun meets => by simp
  | some v =>
    exact (means_within .group (means_containing (by simp) (by decide) (given_ne is))).mono
      fun meets => by simp

theorem means_users (query : DirectoryUserSearchQuery) :
    Means (buildUserFilter query) (Search.users query).Wants := by
  have contains_ : Conj (anyContains USER_TEXT_ATTRS query.text) fun meets =>
    AnyContains meets USER_TEXT_ATTRS query.text :=
    conj_anyContains (by decide) (by decide) query.text
  have clauses :=
    (((means_base .user).conj.append contains_).append (conj_enabled query.enabled)).append
    (conj_locked query.locked)
  exact (Conj.conjoined clauses (by simp)).mono fun meets => by simp only [Search.Wants, and_assoc]

theorem means_computers (query : DirectoryComputerSearchQuery) :
    Means (buildComputerFilter query) (Search.computers query).Wants := by
  have os : Conj ((given query.operatingSystem).toList.map fun os =>
    clause "operatingSystem" (escapeLdapFilter os)) fun meets =>
      ∀ os, given query.operatingSystem = some os → Is meets "operatingSystem" os := by
    cases is : given query.operatingSystem with
    | none => exact ⟨[], .nil, by simp⟩
    | some v =>
      have named : Means (clause "operatingSystem" (escapeLdapFilter v)) fun meets =>
        Is meets "operatingSystem" v := means_clause (by decide) v
      obtain ⟨fs, writes, holds⟩ := named.conj
      exact ⟨fs, writes, fun meets => (holds meets).trans (by simp)⟩
  have contains_ : Conj (anyContains COMPUTER_TEXT_ATTRS query.text) fun meets =>
    AnyContains meets COMPUTER_TEXT_ATTRS query.text :=
    conj_anyContains (by decide) (by decide) query.text
  have clauses :=
    (((means_base .computer).conj.append contains_).append (conj_enabled query.enabled)).append os
  exact (Conj.conjoined clauses (by simp)).mono fun meets => by simp only [Search.Wants, and_assoc]

theorem means_deletedUsers (t : Option Text) :
    Means (searchDeletedUsersFilter t) (Search.deletedUsers t).Wants := by
  have contains_ :
    Conj (anyContains ["displayName", "sAMAccountName", "userPrincipalName", "mail", "cn"] t) fun meets =>
      AnyContains meets ["displayName", "sAMAccountName", "userPrincipalName", "mail", "cn"] t :=
        conj_anyContains (by decide) (by decide) t
  have deleted : Means (text "(isDeleted=TRUE)") fun meets => Is meets "isDeleted" (text "TRUE") :=
    only_means (by decide) (by decide)
  have kept : Means (text "(!(isRecycled=TRUE))") fun meets =>
    ¬Is meets "isRecycled" (text "TRUE") := not_means (by decide) (by decide)
  have user : Means (text "(objectClass=user)") fun meets => Is meets "objectClass" (text "user") :=
    only_means (by decide) (by decide)
  have person : Means (text "(!(objectClass=computer))") fun meets =>
    ¬Is meets "objectClass" (text "computer") :=
    not_means (by decide) (by decide)
  have clauses := (deleted.conj.append (kept.conj.append (user.conj.append person.conj))).append contains_
  exact Conj.allOf clauses (by simp)

theorem means_deletedComputers (t : Option Text) :
    Means (searchDeletedComputersFilter t) (Search.deletedComputers t).Wants := by
  have contains_ : Conj (anyContains ["cn", "sAMAccountName", "dNSHostName", "operatingSystem"] t)
    fun meets =>
      AnyContains meets ["cn", "sAMAccountName", "dNSHostName", "operatingSystem"] t :=
        conj_anyContains (by decide) (by decide) t
  have deleted : Means (text "(isDeleted=TRUE)") fun meets => Is meets "isDeleted" (text "TRUE") :=
    only_means (by decide) (by decide)
  have kept : Means (text "(!(isRecycled=TRUE))") fun meets =>
    ¬Is meets "isRecycled" (text "TRUE") := not_means (by decide) (by decide)
  have computer : Means (text "(objectClass=computer)") fun meets =>
    Is meets "objectClass" (text "computer") :=
    only_means (by decide) (by decide)
  have clauses := (deleted.conj.append (kept.conj.append computer.conj)).append contains_
  exact Conj.allOf clauses (by simp)

theorem means_identifier (identifier : TextIdentifier) : Means identifier.clause fun meets =>
    identifier.Names meets := by
  cases identifier <;> exact means_clause (by decide) _

theorem means_atDns (base : ObjectBase) (dn : Text) (dns : List Text) :
    Means (atDns base (dn :: dns)) fun meets =>
    base.Of meets ∧ ∃ d ∈ dn :: dns, Is meets "distinguishedName" d :=
  means_within base (Disj.anyOf (Disj.flatten (by simp) fun d _ => (means_clause (by decide) d).disj))

theorem finds_addresses (lookups : NamingLookups) :
    Finds (Search.addressPrefixes lookups).filters fun meets =>
      (Search.addressPrefixes lookups).Wants meets := by
  refine (finds_searchAny fun p _ => ?_).mono fun meets => Iff.rfl
  unfold addressPrefixClause
  dsimp only
  rw [List.append_assoc]
  exact (means_startsWith (by decide) p).disj.append
    ((means_startsWith (by decide) p).disj.append (means_startsSmtp (by decide) p).disj)

/-- The filters of a search find the entries it is for. -/
theorem finds_search (q : Search) : Finds q.filters fun meets => q.Wants meets := by
  cases q with
  | users query => exact (means_users query).finds
  | computers query => exact (means_computers query).finds
  | groups t => exact (means_groups t).finds
  | deletedUsers t => exact (means_deletedUsers t).finds
  | deletedComputers t => exact (means_deletedComputers t).finds
  | identified identifier base => exact (means_within base (means_identifier identifier)).finds
  | changed base since => exact (means_changed base since).finds
  | groupMembers groupDn => exact (means_within .user (means_clause (by decide) groupDn)).finds
  | objectsAt base dn dns => exact (means_atDns base dn dns).finds
  | membership memberDn => exact (means_clause (by decide) memberDn).finds
  | nameClash of value => exact finds_nameClash of value
  | signIn username => exact finds_signIn username
  | samPrefixes lookups => exact finds_searchAny fun p _ => (means_startsWith (by decide) p).disj
  | addressPrefixes lookups => exact finds_addresses lookups
  | cns lookups ouDn => exact finds_cns lookups ouDn
  | people employeeIds identifiers => exact finds_people employeeIds identifiers
  | objects dns => exact finds_searchAny fun dn _ => (means_clause (by decide) dn).disj
  | schemaAttribute ldapDisplayName =>
    have schema : Means (text "(objectClass=attributeSchema)") fun meets =>
      Is meets "objectClass" (text "attributeSchema") :=
      only_means (by decide) (by decide)
    have named : Means (clause "lDAPDisplayName" (escapeLdapFilter ldapDisplayName)) fun meets =>
      Is meets "lDAPDisplayName" ldapDisplayName :=
      means_clause (by decide) ldapDisplayName
    exact (Conj.allOf (schema.conj.append named.conj) (by simp)).finds

/-- Whatever text a search is given, each filter it sends is one filter as RFC 4515 reads it, and
they find just the entries it is for: nothing in the text is read as part of the filter. -/
theorem search_exact (q : Search) (meets : Condition → Prop) :
    (∀ t ∈ q.filters, (readFilter t).isSome) ∧
      ((∃ t ∈ q.filters, ∃ f, readFilter t = some f ∧ f.Holds meets) ↔ q.Wants meets) := by
  obtain ⟨fs, writes, holds⟩ := finds_search q
  have reads : List.Forall₂ (fun t f => readFilter t = some f) q.filters fs :=
    writes.imp fun _ _ each => each.read
  have same : ∀ {ts gs}, List.Forall₂ (fun t f => readFilter t = some f) ts gs →
    (∀ t ∈ ts, (readFilter t).isSome) ∧
      ((∃ t ∈ ts, ∃ f, readFilter t = some f ∧ f.Holds meets) ↔ ∃ f ∈ gs, f.Holds meets) := by
    intro ts gs all
    induction all with
    | nil => simp
    | cons read _ ih =>
      refine ⟨fun t member => ?_, ?_⟩
      · rcases List.mem_cons.mp member with rfl | later
        · rw [read]
          rfl
        · exact ih.1 t later
      · simp only [List.mem_cons, exists_eq_or_imp, read, Option.some.injEq, exists_eq_left', ih.2]
  exact ⟨(same reads).1, (same reads).2.trans (holds meets)⟩

end
end OpenAduc.Ldap
