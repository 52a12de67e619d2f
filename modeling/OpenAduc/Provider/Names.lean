import OpenAduc.Dn.Escaping
import OpenAduc.Dn.Splitting

namespace OpenAduc.Provider
open Naming (Text text unit)

/-- An objectGUID, as its bits. -/
abbrev Guid := BitVec 128

/-- One part of a name, as AD keeps it. -/
abbrev Rdn := { r : Dn.Rdn // Dn.isAttributeType r.type = true }

def Rdn.type (r : Rdn) : Text := r.1.type

def Rdn.value (r : Rdn) : Text := r.1.value

theorem isType_cn : Dn.isAttributeType (text "CN") = true := by decide

def cnOf (value : Text) : Rdn := ⟨⟨text "CN", value⟩, isType_cn⟩

@[simp] theorem value_cnOf (value : Text) : (cnOf value).value = value := rfl

def isBlank (c : UInt16) : Bool := c = unit ' '

/-- A part's text as AD reads it, spaces around its type and its value dropped unless escaped. -/
def readRdn (t : Text) : Option Rdn :=
  match Dn.splitAt (unit '=') t with
  | none => none
  | some (before, value) =>
    if isType : Dn.isAttributeType (Runs.strip isBlank before) = true then
      (Dn.decodeRfc value).map fun value => ⟨⟨Runs.strip isBlank before, value⟩, isType⟩
    else none

/-- How AD writes the values in its names: with no bare comma, and read again they are what they were. -/
structure Spelling where
  value : Text → Text
  one : ∀ v, Dn.OneRdn (value v)
  reads : ∀ v, Dn.decodeRfc (value v) = some v

/-- A part's text as AD writes it. -/
def Spelling.rdn (ad : Spelling) (r : Rdn) : Text := r.type ++ unit '=' :: ad.value r.value

section
variable {t v : Text} {r : Rdn}

theorem bare_type (isType : Dn.isAttributeType t = true) : Runs.strip isBlank t = t := by
  have visible : ∀ c ∈ t, isBlank c = false := by
    intro c member
    have visible := (Dn.visible_of_mem isType member).1
    refine decide_eq_false fun blank => ?_
    rw [blank] at visible
    exact absurd visible (by decide)
  exact Runs.Bare.strip_eq ⟨fun c first => visible c (List.mem_of_mem_head? first),
    fun c last => visible c (List.mem_of_mem_getLast? last)⟩

/-- A type, written as it is, and a value are read apart. -/
theorem readRdn_typed (r : Rdn) (t : Text) :
    readRdn (r.type ++ unit '=' :: t) = (Dn.decodeRfc t).map fun v => ⟨⟨r.type, v⟩, r.2⟩ := by
  have absent : unit '=' ∉ r.type := fun member => (Dn.visible_of_mem r.2 member).2 rfl
  have same : Runs.strip isBlank r.type = r.type := bare_type r.2
  have isType : Dn.isAttributeType r.type = true := r.2
  simp only [readRdn, Dn.splitAt_append absent, same, dif_pos isType]

variable (ad : Spelling)

theorem one_rdn (r : Rdn) : Dn.OneRdn (ad.rdn r) := Dn.oneRdn_typed r.2 (ad.one r.value)

/-- What AD writes it reads. -/
@[simp] theorem readRdn_rdn (r : Rdn) : readRdn (ad.rdn r) = some r := by
  rw [Spelling.rdn, readRdn_typed, ad.reads]
  rfl

/-- The new name a rename sends is read as it was meant, with no space at its end. -/
theorem readRdn_newRdn (bare : v.getLast? ≠ some (unit ' ')) :
    readRdn (text "CN=" ++ Dn.escapeRdnValueRfc v) = some (cnOf v) := by
  have shape : text "CN=" ++ Dn.escapeRdnValueRfc v =
    (cnOf v).type ++ unit '=' :: Dn.escapeRdnValueRfc v := by
    have typed : text "CN=" = text "CN" ++ [unit '='] := by decide
    rw [typed, List.append_assoc]
    rfl
  rw [shape, readRdn_typed, Dn.decodeRfc_bare bare]
  rfl

end

/-- Values with what separates parts, and a space or a hash at an end, escaped. -/
def rfcSpelling : Spelling where
  value v :=
    if v.getLast? = some (unit ' ') ∧ v.dropLast ≠ [] then
      Dn.escapeFirst (Dn.escaped v.dropLast) ++ [Dn.BACKSLASH, unit ' ']
    else Dn.escapeRdnValueRfc v
  one v := by
    split
    next => exact (Dn.oneRdn_escapeFirst _).append (.pair .nil)
    next => exact Dn.oneRdn_escapeRdnValueRfc v
  reads v := by
    split
    next ends =>
      obtain ⟨w, rfl⟩ := List.getLast?_eq_some_iff.mp ends.1
      rw [List.dropLast_concat] at ends ⊢
      exact Dn.decodeRfc_escapedSpace ends.2
    next plain =>
      by_cases space : v.getLast? = some (unit ' ')
      · obtain ⟨w, rfl⟩ := List.getLast?_eq_some_iff.mp space
        rw [List.dropLast_concat] at plain
        rw [show w = [] from by_contra fun more => plain ⟨space, more⟩]
        decide
      · exact Dn.decodeRfc_bare space

/-- A container by its DN, as AD writes it. -/
structure Container where
  dn : Text
  guid : Guid
deriving DecidableEq, Repr

/-- The containers AD finds, by whatever text names them: each has its own DN, which ends in its
domain's, so in no space. -/
structure Containers where
  /-- The domain's own DN. -/
  root : Text
  find : Text → Option Container
  own : ∀ {t c}, find t = some c → find c.dn = some c
  shown : ∀ {t c}, find t = some c → c.dn ≠ []
  bare : ∀ {t c}, find t = some c → Naming.trim c.dn = c.dn

namespace Containers

/-- These containers, each found by its own DN. -/
def listed (root : Text) (all : List Container)
    (named : ∀ c ∈ all, c.dn ≠ [] ∧ Naming.trim c.dn = c.dn) : Containers where
  root := root
  find t := all.find? fun c => c.dn = t
  own found := by
    have same := List.find?_some found
    rw [of_decide_eq_true same]
    exact found
  shown found := (named _ (List.mem_of_find?_eq_some found)).1
  bare found := (named _ (List.mem_of_find?_eq_some found)).2

variable (containers : Containers)

/-- A container that is there. -/
abbrev Place := { c : Container // containers.find c.dn = some c }

def place (t : Text) : Option containers.Place :=
  (containers.find t).attach.map fun c => ⟨c.1, containers.own c.2⟩

/-- An object's DN as AD reads it: its own part, and its parent. -/
def readName (dn : Text) : Option (Rdn × containers.Place) :=
  match Dn.firstComma dn with
  | (_, none) => none
  | (head, some rest) => (readRdn head).bind fun rdn => (containers.place rest).map (rdn, ·)

def named (dn : Text) : Option (Rdn × Container) :=
  (containers.readName dn).map fun name => (name.1, name.2.1)

/-- The name a change of DN asks for, of an object under `parent`: a text of one part keeps the parent. -/
def newName (parent : containers.Place) (newDn : Text) : Option (Rdn × containers.Place) :=
  match Dn.firstComma newDn with
  | (head, none) => (readRdn head).map (·, parent)
  | (_, some _) => containers.readName newDn

variable {containers} {t head rest : Text} {place parent : containers.Place}

theorem place_eq_some : containers.place t = some place ↔ containers.find t = some place.1 := by
  unfold Containers.place
  constructor
  · intro same
    obtain ⟨⟨c, found⟩, _, rfl⟩ := Option.map_eq_some_iff.mp same
    exact found
  · intro found
    have attached : (containers.find t).attach = some ⟨place.1, found⟩ := by simp [found]
    rw [attached]
    rfl

/-- A container is found by its own DN. -/
theorem place_dn (place : containers.Place) : containers.place place.1.dn = some place :=
  place_eq_some.mpr place.2

theorem readName_cut (one : Dn.OneRdn head) :
    containers.readName (head ++ unit ',' :: rest) = (readRdn head).bind fun rdn =>
      (containers.place rest).map (rdn, ·) := by
  rw [readName, Dn.firstComma_cut one]

theorem newName_cut (one : Dn.OneRdn head) :
    containers.newName parent (head ++ unit ',' :: rest) =
      (readRdn head).bind fun rdn => (containers.place rest).map (rdn, ·) := by
  rw [newName, Dn.firstComma_cut one]
  exact readName_cut one

/-- A whole DN is the name asked for. -/
theorem newName_of_readName {name : Rdn × containers.Place} (reads : containers.readName t = some name) :
    containers.newName parent t = some name := by
  have whole := reads
  unfold readName at reads
  unfold newName
  split at reads
  · cases reads
  · exact whole

/-- A text with no comma to cut at only renames. -/
theorem newName_one (none : Dn.firstComma t = (t, none)) :
    containers.newName parent t = (readRdn t).map (·, parent) := by
  rw [newName, none]

end Containers
end OpenAduc.Provider
