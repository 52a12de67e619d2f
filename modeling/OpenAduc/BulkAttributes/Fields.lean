import OpenAduc.Lib.Assoc
import OpenAduc.Reverts.Attributes

namespace OpenAduc.BulkAttributes
open Naming (Text text trim Platform)
open Reverts (Trimmed valueOf TextAttribute BulkAttributeField BULK_ATTRIBUTE_FIELDS COUNTRY_NONE
  Country countryOf PoBoxes
  poBoxes)

/-- What an attribute, a patch or a snapshot holds under a name: nothing, a text or several. -/
inductive RawValue
  | null
  | text (t : Text)
  | texts (ts : List Text)
  deriving DecidableEq

abbrev AttributeRecord := List (String × RawValue)

/-- A single value (the last one wins). -/
def rawScalarValue : RawValue → Option Text
  | .null => none
  | .text t => if t = [] then none else some t
  | .texts ts => ts.getLast?.filter (· ≠ [])

def rawArrayValues : RawValue → List Text
  | .null => []
  | .text t => if t = [] then [] else [t]
  | .texts ts => ts.filter (· ≠ [])

def textOf (v : Option RawValue) : Option Trimmed := valueOf (v.bind rawScalarValue)

def poBoxesOf (v : Option RawValue) : PoBoxes := poBoxes ((v.map rawArrayValues).getD [])

/-- `Object.assign`. -/
def assign (target source : AttributeRecord) : AttributeRecord :=
  source.foldl (fun m e => Assoc.set m e.1 e.2) target

def attributeName : TextAttribute → String
  | .title => "title"
  | .department => "department"
  | .company => "company"
  | .physicalDeliveryOfficeName => "physicalDeliveryOfficeName"
  | .description => "description"
  | .streetAddress => "streetAddress"
  | .l => "l"
  | .st => "st"
  | .postalCode => "postalCode"

/-- A field's value, as compared: the manager by DN, the PO boxes sorted. -/
abbrev FieldValue : BulkAttributeField → Type
  | .text _ => Option Trimmed
  | .manager => Option Trimmed
  | .postOfficeBox => PoBoxes
  | .country => Country

/-- A user's values; a field that hasn't been read is missing. What a bulk edit sets has the same
shape: a field it doesn't name is missing. -/
abbrev AttributeValues := (f : BulkAttributeField) → Option (FieldValue f)

/-- The field as read from the user's attributes. -/
def live : (f : BulkAttributeField) → AttributeRecord → FieldValue f
  | .text attr, user => textOf (Assoc.get user (attributeName attr))
  | .manager, user => textOf (Assoc.get user "manager")
  | .postOfficeBox, user => poBoxesOf (Assoc.get user "postOfficeBox")
  | .country, user =>
    countryOf ((Assoc.get user "c").bind rawScalarValue) ((Assoc.get user "co").bind rawScalarValue)
      ((Assoc.get user "countryCode").bind rawScalarValue)

def same (u : Platform) : (f : BulkAttributeField) → FieldValue f → FieldValue f → Bool
  | .text _ => fun (a b : Option Trimmed) => a = b
  | .manager => fun (a b : Option Trimmed) =>
    a.map (fun dn => u.lower dn.value) = b.map (fun dn => u.lower dn.value)
  | .postOfficeBox => fun (a b : PoBoxes) => a.boxes = b.boxes
  | .country => fun (a b : Country) => a.c = b.c ∧ a.countryCode = b.countryCode

def orNull (value : Option Trimmed) : RawValue := (value.map fun t => RawValue.text t.value).getD .null

def countryAttributes (v : Country) : AttributeRecord :=
  [("c", orNull v.c), ("co", orNull v.co),
    ("countryCode", .text ((v.countryCode.map Trimmed.value).getD COUNTRY_NONE))]

def patch : (f : BulkAttributeField) → FieldValue f → AttributeRecord
  | .text attr, value => [(attributeName attr, orNull value)]
  | .manager, dn => [("managerDn", orNull dn)]
  | .postOfficeBox, values =>
    [("postOfficeBox", if values.boxes ≠ [] then .texts (values.boxes.map Trimmed.value) else .null)]
  | .country, v => countryAttributes v

/-- By attribute, as the job's row keeps it. -/
def snapshot : (f : BulkAttributeField) → FieldValue f → AttributeRecord
  | .text attr, value => [(attributeName attr, orNull value)]
  | .manager, dn => [("managerDn", orNull dn)]
  | .postOfficeBox, values => [("postOfficeBox", .texts (values.boxes.map Trimmed.value))]
  | .country, v => countryAttributes v

/-- The value a row's snapshot holds, where it holds the field. -/
def fromSnapshot : (f : BulkAttributeField) → AttributeRecord → Option (FieldValue f)
  | .text attr, s => (Assoc.get s (attributeName attr)).map fun v => textOf (some v)
  | .manager, s => (Assoc.get s "managerDn").map fun v => textOf (some v)
  | .postOfficeBox, s => (Assoc.get s "postOfficeBox").map fun v => poBoxesOf (some v)
  | .country, s => (Assoc.get s "countryCode").map fun code =>
      countryOf ((Assoc.get s "c").bind rawScalarValue) ((Assoc.get s "co").bind rawScalarValue)
        (rawScalarValue code)

structure FieldChange where
  field : BulkAttributeField
  before : FieldValue field
  after : FieldValue field

structure FieldChanges where
  changes : List FieldChange
  unread : List BulkAttributeField

/-- What a field named and known would change. -/
def changeOf (u : Platform) (values changes : AttributeValues) (f : BulkAttributeField) :
    Option FieldChange :=
  match changes f, values f with
  | some after, some before => if same u f before after then none else some ⟨f, before, after⟩
  | _, _ => none

/-- The fields `changes` would change for a user with these values, in field order, and those it
names that aren't known for the user. -/
def fieldChanges (u : Platform) (values changes : AttributeValues) : FieldChanges where
  changes := BULK_ATTRIBUTE_FIELDS.filterMap (changeOf u values changes)
  unread := BULK_ATTRIBUTE_FIELDS.filter fun f => (changes f).isSome && (values f).isNone

/-- One record of all the changes'. -/
def assigned (encode : FieldChange → AttributeRecord) (changes : List FieldChange) : AttributeRecord :=
  changes.foldl (fun m c => assign m (encode c)) []

/-- The provider patch that makes these changes. -/
def patchFor (changes : List FieldChange) : AttributeRecord :=
  assigned (fun c => patch c.field c.after) changes

structure RowSnapshots where
  before : AttributeRecord
  after : AttributeRecord

/-- A row's before and after, by attribute, for the job to keep. -/
def rowSnapshots (changes : List FieldChange) : RowSnapshots where
  before := assigned (fun c => snapshot c.field c.before) changes
  after := assigned (fun c => snapshot c.field c.after) changes

/-- The fields a row's before or after snapshot holds, as compared. -/
def snapshotValues (s : AttributeRecord) : AttributeValues := fun f => fromSnapshot f s

/-- `PATCH_ATTRIBUTE_MAP` and `PATCH_MULTI_ATTRIBUTE_MAP`, of the fields' attributes: a patch's
names for them, and AD's. -/
def PATCH_ATTRIBUTE_MAP : List (String × String) :=
  [("title", "title"), ("department", "department"), ("streetAddress", "streetAddress"),
    ("description", "description"),
    ("company", "company"), ("c", "c"), ("co", "co"), ("l", "l"), ("st", "st"), ("postalCode", "postalCode"),
    ("countryCode", "countryCode"), ("physicalDeliveryOfficeName", "physicalDeliveryOfficeName"),
      ("managerDn", "manager"),
    ("postOfficeBox", "postOfficeBox")]

/-- What an attribute is replaced with: trimmed values, and nothing where they are blank. -/
def replacement : RawValue → RawValue
  | .null => .null
  | .text t => if trim t = [] then .null else .text (trim t)
  | .texts ts => if (ts.map trim).filter (· ≠ []) = [] then .null else .texts ((ts.map trim).filter (· ≠ []))

def writeAttribute (given : AttributeRecord) (user : AttributeRecord) (entry : String × String) :
    AttributeRecord :=
  match Assoc.get given entry.1 with
  | none => user
  | some value => Assoc.set user entry.2 (replacement value)

/-- The user's attributes once a patch is written. -/
def writeUserAttributes (user given : AttributeRecord) : AttributeRecord :=
  PATCH_ATTRIBUTE_MAP.foldl (writeAttribute given) user

/-- The user's values, of the fields that have been read: all of them live, the cache's may lack some. -/
def readValues (known : BulkAttributeField → Bool) (user : AttributeRecord) : AttributeValues :=
  fun f => if known f then some (live f user) else none

end OpenAduc.BulkAttributes
