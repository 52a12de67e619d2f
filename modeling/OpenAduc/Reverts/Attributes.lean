import Mathlib.Data.List.Sort
import Mathlib.Data.List.Lex
import OpenAduc.Provider.Writes

namespace OpenAduc.Reverts
open Naming (Text text trim)

/-- Text with something in it and no space at either end: what `text` leaves of a value. -/
structure Trimmed where
  value : Text
  left : value ≠ []
  bare : Runs.Bare Naming.isSpace value
deriving DecidableEq

def Trimmed.of (raw : Text) : Option Trimmed :=
  if left : trim raw ≠ [] then some ⟨trim raw, left, Runs.bare_strip⟩ else none

theorem Trimmed.of_value (t : Trimmed) : Trimmed.of t.value = some t := by
  have same : trim t.value = t.value := t.bare.strip_eq
  unfold Trimmed.of
  rw [dif_pos (by rw [same]; exact t.left)]
  cases t
  simp_all

/-- The value of a single-valued attribute, nothing where it is blank. -/
def valueOf (raw : Option Text) : Option Trimmed := raw.bind Trimmed.of

@[simp] theorem valueOf_some (value : Option Trimmed) : valueOf (value.map Trimmed.value) = value := by
  cases value with
  | none => rfl
  | some t => exact t.of_value

inductive TextAttribute
  | title
  | department
  | company
  | physicalDeliveryOfficeName
  | description
  | streetAddress
  | l
  | st
  | postalCode
deriving DecidableEq, Repr

inductive BulkAttributeField
  | text (attr : TextAttribute)
  | manager
  | postOfficeBox
  | country
deriving DecidableEq, Repr

def BULK_ATTRIBUTE_FIELDS : List BulkAttributeField :=
  [.text .title, .text .department, .text .company, .text .physicalDeliveryOfficeName, .manager,
    .text .description,
    .text .streetAddress, .postOfficeBox, .text .l, .text .st, .text .postalCode, .country]

theorem mem_fields (f : BulkAttributeField) : f ∈ BULK_ATTRIBUTE_FIELDS := by
  cases f with
  | text attr => cases attr <;> decide
  | manager | postOfficeBox | country => decide

def COUNTRY_NONE : Text := text "0"

/-- A country as compared and written: by code and number; the name goes along. -/
structure Country where
  c : Option Trimmed
  co : Option Trimmed
  countryCode : Option Trimmed
  numbered : ∀ code, countryCode = some code → code.value ≠ COUNTRY_NONE
deriving DecidableEq

/-- The order strings sort in. -/
def sorts (a b : Trimmed) : Bool := a.value.map UInt16.toNat ≤ b.value.map UInt16.toNat

structure PoBoxes where
  boxes : List Trimmed
  sorted : boxes.Pairwise fun a b => sorts a b = true
deriving DecidableEq

/-- A field's attributes as the directory has them. -/
abbrev Raw : BulkAttributeField → Type
  | .text _ => Option Text
  | .manager => Option Text
  | .postOfficeBox => List Text
  | .country => Option Text × Option Text × Option Text

/-- A field's value, as compared. -/
abbrev FieldValue : BulkAttributeField → Type
  | .text _ => Option Trimmed
  | .manager => Option Text
  | .postOfficeBox => PoBoxes
  | .country => Country

def countryOf (c co countryCode : Option Text) : Country where
  c := valueOf c
  co := valueOf co
  countryCode := (valueOf countryCode).filter fun code => code.value ≠ COUNTRY_NONE
  numbered code is := by simpa using (Option.filter_eq_some_iff.mp is).2

def poBoxes (raw : List Text) : PoBoxes where
  boxes := (raw.filterMap Trimmed.of).mergeSort sorts
  sorted := by
    refine List.pairwise_mergeSort (fun a b c ab bc => ?_) (fun a b => ?_) _
    · exact decide_eq_true (le_trans (of_decide_eq_true ab) (of_decide_eq_true bc))
    · simpa [sorts] using le_total (a.value.map UInt16.toNat) (b.value.map UInt16.toNat)

/-- The field as just read. -/
def live : (f : BulkAttributeField) → Raw f → FieldValue f
  | .text _, raw => valueOf raw
  | .manager, raw => raw
  | .postOfficeBox, raw => poBoxes raw
  | .country, (c, co, countryCode) => countryOf c co countryCode

def countryPatch (value : Country) : Raw .country :=
  (value.c.map Trimmed.value, value.co.map Trimmed.value,
    (value.countryCode.map Trimmed.value).orElse fun _ => some COUNTRY_NONE)

/-- What writing the value leaves in the field's attributes. -/
def patch : (f : BulkAttributeField) → FieldValue f → Raw f
  | .text _, value => value.map Trimmed.value
  | .manager, value => value
  | .postOfficeBox, value => value.boxes.map Trimmed.value
  | .country, value => countryPatch value

/-- Whether two of a field's values are the same, as a bulk edit compares them: a country's
name isn't compared. -/
def sameValue (lower : Text → Text) : (f : BulkAttributeField) → FieldValue f → FieldValue f → Bool
  | .text _ => fun (a b : Option Trimmed) => a = b
  | .manager => fun (a b : Option Text) => a.map lower = b.map lower
  | .postOfficeBox => fun (a b : PoBoxes) => a.boxes = b.boxes
  | .country => fun (a b : Country) => a.c = b.c ∧ a.countryCode = b.countryCode

theorem sameValue_self (lower : Text → Text) (f : BulkAttributeField) (v : FieldValue f) :
    sameValue lower f v v = true := by
  cases f with
  | text attr | manager | postOfficeBox => exact decide_eq_true rfl
  | country => exact decide_eq_true ⟨rfl, rfl⟩

theorem poBoxes_patch (value : PoBoxes) : poBoxes (value.boxes.map Trimmed.value) = value := by
  have read : (value.boxes.map Trimmed.value).filterMap Trimmed.of = value.boxes := by
    rw [List.filterMap_map]
    have each : Trimmed.of ∘ Trimmed.value = some := funext Trimmed.of_value
    rw [each, List.filterMap_some]
  have sorted : value.boxes.mergeSort sorts = value.boxes := List.mergeSort_of_pairwise value.sorted
  cases value
  simp_all [poBoxes]

theorem countryOf_patch (value : Country) :
    countryOf (countryPatch value).1 (countryPatch value).2.1 (countryPatch value).2.2 = value := by
  obtain ⟨c, co, countryCode, numbered⟩ := value
  have code : (valueOf ((countryCode.map Trimmed.value).orElse fun _ => some COUNTRY_NONE)).filter
      (fun code => code.value ≠ COUNTRY_NONE) = countryCode := by
    cases countryCode with
    | none => decide +kernel
    | some code =>
      have read : valueOf (some code.value) = some code := code.of_value
      show (valueOf (some code.value)).filter _ = some code
      rw [read]
      exact if_pos (decide_eq_true (numbered code rfl))
  simp only [countryOf, countryPatch, valueOf_some, code]

/-- A value written reads back as itself. -/
theorem live_patch (f : BulkAttributeField) (value : FieldValue f) : live f (patch f value) = value := by
  cases f with
  | text attr => exact valueOf_some value
  | manager => rfl
  | postOfficeBox => exact poBoxes_patch value
  | country => exact countryOf_patch value

end OpenAduc.Reverts
