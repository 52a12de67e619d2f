import OpenAduc.Lib.Attempt
import OpenAduc.Lib.Table
import OpenAduc.Provider.Names

namespace OpenAduc.Provider
open Naming (Text text unit)

inductive ObjectKind
  | user
  | computer
  | other
deriving DecidableEq, Repr

/-- A flags attribute as an entry returns it. -/
inductive FlagsValue
  | absent
  | number (bits : BitVec 32)
  | unparseable
deriving DecidableEq, Repr

/-- The attributes these writes change or read. -/
structure Attributes where
  userAccountControl : FlagsValue
  isCriticalSystemObject : Bool
  accountExpires : Option Int
  givenName : Option Text
  sn : Option Text
  displayName : Option Text
  sAMAccountName : Option Text
  userPrincipalName : Option Text
  mail : Option Text
  proxyAddresses : List Text
deriving DecidableEq, Repr

/-- An object: its name is its own part under its parent, and its `cn` that part's value. -/
structure Entry where
  objectGuid : Guid
  kind : ObjectKind
  rdn : Rdn
  parent : Container
  attributes : Attributes
deriving DecidableEq

def Entry.name (e : Entry) : Rdn × Container := (e.rdn, e.parent)

/-- Its `distinguishedName`, as AD writes it. -/
def Entry.dn (ad : Spelling) (e : Entry) : Text := ad.rdn e.rdn ++ unit ',' :: e.parent.dn

def Entry.cn (e : Entry) : Text := e.rdn.value

def Entry.named (e : Entry) (rdn : Rdn) (parent : Container) : Entry :=
  { e with rdn := rdn, parent := parent }

def Entry.changed (e : Entry) (change : Attributes → Attributes) : Entry :=
  { e with attributes := change e.attributes }

/-- Accounts and the like, in the containers they are in: no two have one GUID or one name. -/
structure Directory where
  entries : List Entry
  containers : Containers
  guids : Table.Keyed Entry.objectGuid entries
  names : Table.Keyed Entry.name entries
  places : ∀ e ∈ entries, containers.find e.parent.dn = some e.parent

namespace Directory

theorem ext {a b : Directory} (entries : a.entries = b.entries)
    (containers : a.containers = b.containers) : a = b := by
  cases a
  cases b
  simp_all

def empty (containers : Containers) : Directory where
  entries := []
  containers := containers
  guids := List.nodup_nil
  names := List.nodup_nil
  places := fun _ member => absurd member List.not_mem_nil

def find (d : Directory) (kind : ObjectKind) (guid : Guid) : Option Entry :=
  (Table.find Entry.objectGuid guid d.entries).filter fun e => e.kind = kind

def guidAt (d : Directory) (dn : Text) : Option Guid := (d.containers.find dn).map Container.guid

def holds (d : Directory) (name : Rdn × Container) : Prop := ∃ e ∈ d.entries, e.name = name

instance (d : Directory) (name : Rdn × Container) : Decidable (d.holds name) :=
  inferInstanceAs (Decidable (∃ e ∈ _, _))

def withAttributes (d : Directory) (name : Rdn × Container) (change : Attributes → Attributes) :
    Directory where
  entries := Table.update (fun e => e.name = name) (fun e => e.changed change) d.entries
  containers := d.containers
  guids := d.guids.update fun _ _ => rfl
  names := d.names.update fun _ _ => rfl
  places := Table.forall_update.mpr fun e inside => ⟨fun _ => d.places e inside, fun _ => d.places e inside⟩

/-- The object of one name given another that nothing else has. -/
def withName (d : Directory) (name : Rdn × Container) (rdn : Rdn) (place : d.containers.Place)
    (free : name = (rdn, place.1) ∨ ¬d.holds (rdn, place.1)) : Directory where
  entries := Table.update (fun e => e.name = name) (fun e => e.named rdn place.1) d.entries
  containers := d.containers
  guids := d.guids.update fun _ _ => rfl
  names := d.names.rekey (fun _ _ => rfl) (free.imp_right fun none e inside here => none ⟨e, inside, here⟩)
  places := Table.forall_update.mpr fun e inside => ⟨fun _ => place.2, fun _ => d.places e inside⟩

/-- What AD makes of a modification of what `dn` names. -/
def modified (d : Directory) (dn : Text) (change : Attributes → Attributes) : Option Directory :=
  (d.containers.readName dn).bind fun (rdn, place) =>
    if d.holds (rdn, place.1) then some (d.withAttributes (rdn, place.1) change) else none

/-- Why AD refuses a new name. -/
inductive RenameRefusal
  | noSuchObject
  | invalidDn
  | alreadyExists
deriving DecidableEq, Repr

/-- What AD makes of a change of DN: a new name of one part keeps the parent. -/
def renamed (d : Directory) (dn newDn : Text) : Except RenameRefusal Directory :=
  match d.containers.readName dn with
  | none => .error .noSuchObject
  | some (rdn, place) =>
    if d.holds (rdn, place.1) then
      match d.containers.newName place newDn with
      | none => .error .invalidDn
      | some (rdn', place') =>
        if free : (rdn, place.1) = (rdn', place'.1) ∨ ¬d.holds (rdn', place'.1) then
          .ok (d.withName (rdn, place.1) rdn' place' free)
        else .error .alreadyExists
    else .error .noSuchObject

variable {d : Directory} {kind : ObjectKind} {guid : Guid} {e : Entry}

/-- Where an object of the directory is. -/
def placeOf (inside : e ∈ d.entries) : d.containers.Place := ⟨e.parent, d.places e inside⟩

theorem find_eq_some : d.find kind guid = some e ↔
    Table.find Entry.objectGuid guid d.entries = some e ∧ e.kind = kind := by
  simp [find, Option.filter_eq_some_iff]

theorem mem_of_find (found : d.find kind guid = some e) : e ∈ d.entries :=
  (Table.find_mem (find_eq_some.mp found).1).1

/-- What AD wrote for an object's name it reads as the object's. -/
theorem readName_dn (ad : Spelling) (inside : e ∈ d.entries) :
    d.containers.readName (e.dn ad) = some (e.rdn, placeOf inside) := by
  rw [Entry.dn, Containers.readName_cut (one_rdn ad e.rdn), readRdn_rdn, Option.bind_some,
    show d.containers.place e.parent.dn = some (placeOf inside) from Containers.place_dn (placeOf inside)]
  rfl

theorem find_withAttributes (found : d.find kind guid = some e) (change : Attributes → Attributes) :
    (d.withAttributes e.name change).find kind guid = some (e.changed change) := by
  obtain ⟨here, isKind⟩ := find_eq_some.mp found
  have changed : Table.find Entry.objectGuid guid (d.withAttributes e.name change).entries =
      some (if e.name = e.name then e.changed change else e) := d.guids.find_update here fun _ _ => rfl
  rw [if_pos rfl] at changed
  exact find_eq_some.mpr ⟨changed, isKind⟩

variable {rdn : Rdn} {place : d.containers.Place}

theorem find_withName (found : d.find kind guid = some e) (place : d.containers.Place)
    (free : e.name = (rdn, place.1) ∨ ¬d.holds (rdn, place.1)) :
    (d.withName e.name rdn place free).find kind guid = some (e.named rdn place.1) := by
  obtain ⟨here, isKind⟩ := find_eq_some.mp found
  have changed : Table.find Entry.objectGuid guid (d.withName e.name rdn place free).entries =
      some (if e.name = e.name then e.named rdn place.1 else e) := d.guids.find_update here fun _ _ => rfl
  rw [if_pos rfl] at changed
  exact find_eq_some.mpr ⟨changed, isKind⟩

/-- A change leaves the directory as it is just where it leaves the entry. -/
theorem withAttributes_eq_self {change : Attributes → Attributes} (found : d.find kind guid = some e) :
    d.withAttributes e.name change = d ↔ change e.attributes = e.attributes := by
  constructor
  · intro same
    have again := find_withAttributes found change
    rw [same, found] at again
    exact (congrArg Entry.attributes (Option.some.inj again)).symm
  · intro same
    refine ext ((List.map_congr_left fun x inside => ?_).trans (List.map_id _)) rfl
    split
    next here =>
      cases d.names.eq_of_key inside (mem_of_find found) here
      exact congrArg (fun a => { e with attributes := a }) same
    next => rfl

/-- The names there are once an object has another. -/
theorem holds_withName (inside : e ∈ d.entries) (free : e.name = (rdn, place.1) ∨ ¬d.holds (rdn, place.1))
    (name : Rdn × Container) :
    (d.withName e.name rdn place free).holds name ↔ name = (rdn, place.1) ∨ name ≠ e.name ∧ d.holds name := by
  constructor
  · rintro ⟨y, member, rfl⟩
    obtain ⟨x, isThere, rfl⟩ := Table.mem_update.mp member
    by_cases here : x.name = e.name
    · rw [if_pos here]
      exact Or.inl rfl
    · rw [if_neg here]
      exact Or.inr ⟨here, x, isThere, rfl⟩
  · rintro (rfl | ⟨other, x, isThere, rfl⟩)
    · exact ⟨_, Table.mem_update.mpr ⟨e, inside, if_pos rfl⟩, rfl⟩
    · exact ⟨x, Table.mem_update.mpr ⟨x, isThere, if_neg other⟩, rfl⟩

/-- The name an object gave up is free for it to take back, and then the directory is as it was. -/
theorem withName_back (free : e.name = (rdn, place.1) ∨ ¬d.holds (rdn, place.1)) (inside : e ∈ d.entries) :
    ∃ back, (d.withName e.name rdn place free).withName (rdn, place.1) e.rdn
      ⟨e.parent, d.places e inside⟩ back = d := by
  have back : (rdn, place.1) = e.name ∨ ¬(d.withName e.name rdn place free).holds e.name := by
    refine Decidable.or_iff_not_imp_left.mpr fun other taken => ?_
    rcases (holds_withName inside free e.name).mp taken with same | ⟨differs, _⟩
    · exact other same.symm
    · exact differs rfl
  refine ⟨back, ext ?_ rfl⟩
  show Table.update _ _ (Table.update _ _ d.entries) = d.entries
  rw [Table.update, Table.update, List.map_map]
  refine (List.map_congr_left fun x member => ?_).trans (List.map_id _)
  rw [Function.comp_apply]
  by_cases here : x.name = e.name
  · rw [if_pos here]
    cases d.names.eq_of_key member inside here
    exact if_pos rfl
  · rw [if_neg here]
    refine if_neg fun taken => ?_
    rcases free with own | free
    · exact here (taken.trans own.symm)
    · exact free ⟨x, member, taken⟩

theorem parentDn_dn (ad : Spelling) (inside : e ∈ d.entries) : Dn.parentDn (e.dn ad) = some e.parent.dn := by
  have trimmed := d.containers.bare (d.places e inside)
  rw [Dn.parentDn, Dn.splitDnHead, Entry.dn, Dn.firstComma_cut (one_rdn ad e.rdn)]
  show (if Naming.trim e.parent.dn = [] then none else some (Naming.trim e.parent.dn)) = _
  rw [trimmed, if_neg (d.containers.shown (d.places e inside))]

theorem leafRdn_dn (ad : Spelling) (e : Entry) : Dn.leafRdn (e.dn ad) = Naming.trim (ad.rdn e.rdn) := by
  rw [Dn.leafRdn, Dn.splitDnHead, Entry.dn, Dn.firstComma_cut (one_rdn ad e.rdn)]

variable {dn newDn : Text}

theorem modified_eq (inside : e ∈ d.entries) (reads : d.containers.readName dn = some (e.rdn, placeOf inside))
    (change : Attributes → Attributes) : d.modified dn change = some (d.withAttributes e.name change) := by
  rw [modified, reads]
  exact if_pos ⟨e, inside, rfl⟩

theorem renamed_eq (inside : e ∈ d.entries)
    (reads : d.containers.readName dn = some (e.rdn, placeOf inside)) :
    d.renamed dn newDn =
      match d.containers.newName (placeOf inside) newDn with
      | none => .error .invalidDn
      | some (rdn', place') =>
        if free : e.name = (rdn', place'.1) ∨ ¬d.holds (rdn', place'.1) then
          .ok (d.withName e.name rdn' place' free)
        else .error .alreadyExists := by
  rw [renamed, reads]
  exact if_pos ⟨e, inside, rfl⟩

theorem renamed_ok (inside : e ∈ d.entries) (reads : d.containers.readName dn = some (e.rdn, placeOf inside))
    (asks : d.containers.newName (placeOf inside) newDn = some (rdn, place))
    (free : e.name = (rdn, place.1) ∨ ¬d.holds (rdn, place.1)) :
    d.renamed dn newDn = .ok (d.withName e.name rdn place free) := by
  rw [renamed_eq inside reads, asks]
  exact dif_pos free

/-- What was renamed has the name that was read. -/
theorem renamed_inv {d' : Directory} (inside : e ∈ d.entries)
    (reads : d.containers.readName dn = some (e.rdn, placeOf inside))
    (made : d.renamed dn newDn = .ok d') :
    ∃ rdn place, d.containers.newName (placeOf inside) newDn = some (rdn, place) ∧
      ∃ free, d' = d.withName e.name rdn place free := by
  rw [renamed_eq inside reads] at made
  cases asks : d.containers.newName (placeOf inside) newDn with
  | none =>
    rw [asks] at made
    cases made
  | some name =>
    rw [asks] at made
    dsimp only at made
    split at made
    next free =>
      cases made
      exact ⟨name.1, name.2, rfl, free, rfl⟩
    next => cases made

/-- A name taken, or no name at all, is refused. -/
theorem renamed_refused (inside : e ∈ d.entries)
    (reads : d.containers.readName dn = some (e.rdn, placeOf inside))
    (other : ∀ rdn place, d.containers.newName (placeOf inside) newDn = some (rdn, place) →
      ¬(e.name = (rdn, place.1) ∨ ¬d.holds (rdn, place.1))) : ∃ why, d.renamed dn newDn = .error why := by
  rw [renamed_eq inside reads]
  cases asks : d.containers.newName (placeOf inside) newDn with
  | none => exact ⟨_, rfl⟩
  | some name => exact ⟨_, dif_neg (other name.1 name.2 asks)⟩

end Directory
end OpenAduc.Provider
