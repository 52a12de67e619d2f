import OpenAduc.BulkAttributes.Fields

namespace OpenAduc.BulkAttributes
open Naming (Text text trim Platform)
open Reverts (Trimmed valueOf TextAttribute BulkAttributeField BULK_ATTRIBUTE_FIELDS COUNTRY_NONE
  Country countryOf PoBoxes
  poBoxes)

@[simp] theorem rawScalarValue_orNull (value : Option Trimmed) :
    rawScalarValue (orNull value) = value.map Trimmed.value := by
  cases value with
  | none => rfl
  | some t => simp [orNull, rawScalarValue, t.left]

theorem rawScalarValue_text {t : Text} (left : t ≠ []) : rawScalarValue (.text t) = some t := if_neg left

@[simp] theorem replacement_orNull (value : Option Trimmed) : replacement (orNull value) = orNull value := by
  cases value with
  | none => rfl
  | some t =>
    have trimmed : trim t.value = t.value := t.bare.strip_eq
    simp [orNull, replacement, trimmed, t.left]

@[simp] theorem textOf_orNull (value : Option Trimmed) : textOf (some (orNull value)) = value := by
  simp [textOf]

theorem trimmed_values (boxes : List Trimmed) :
    ((boxes.map Trimmed.value).map trim).filter (· ≠ []) = boxes.map Trimmed.value ∧
      (boxes.map Trimmed.value).filter (· ≠ []) = boxes.map Trimmed.value := by
  have trimmed : trim ∘ Trimmed.value = Trimmed.value := funext fun t => t.bare.strip_eq
  have left : ∀ t ∈ boxes.map Trimmed.value, decide (t ≠ []) = true := by
    intro t member
    obtain ⟨box, _, rfl⟩ := List.mem_map.mp member
    simp [box.left]
  rw [List.map_map, trimmed]
  exact ⟨List.filter_eq_self.mpr left, List.filter_eq_self.mpr left⟩

theorem poBoxesOf_texts (values : PoBoxes) :
    poBoxesOf (some (.texts (values.boxes.map Trimmed.value))) = values := by
  simp only [poBoxesOf, Option.map_some, Option.getD_some, rawArrayValues, (trimmed_values _).2]
  exact Reverts.poBoxes_patch values

theorem poBoxesOf_replacement (values : PoBoxes) :
    poBoxesOf
      (some
        (replacement (if values.boxes ≠ [] then
          .texts (values.boxes.map Trimmed.value) else .null))) = values := by
  split
  next some_ =>
    have kept : values.boxes.map Trimmed.value ≠ [] := by simpa using some_
    simp only [replacement, (trimmed_values _).1, if_neg kept]
    exact poBoxesOf_texts values
  next empty =>
    have none_left : values.boxes = [] := not_not.mp empty
    have read := Reverts.poBoxes_patch values
    rw [none_left] at read
    exact read

theorem numberAttribute_left (v : Country) : (v.countryCode.map Trimmed.value).getD COUNTRY_NONE ≠ [] := by
  cases v.countryCode with
  | none => decide
  | some code => exact code.left

theorem numberAttribute_trim (v : Country) :
    trim ((v.countryCode.map Trimmed.value).getD COUNTRY_NONE) =
      (v.countryCode.map Trimmed.value).getD COUNTRY_NONE := by
  cases v.countryCode with
  | none => decide
  | some code => exact code.bare.strip_eq

theorem countryOf_attributes (v : Country) :
    countryOf (v.c.map Trimmed.value) (v.co.map Trimmed.value)
      (some ((v.countryCode.map Trimmed.value).getD COUNTRY_NONE)) = v := by
  have read := Reverts.countryOf_patch v
  have number : ((v.countryCode.map Trimmed.value).orElse fun _ => some COUNTRY_NONE) =
      some ((v.countryCode.map Trimmed.value).getD COUNTRY_NONE) := by
    cases v.countryCode <;> rfl
  simpa only [Reverts.countryPatch, number] using read

/-- A field's names in a patch and in a snapshot. -/
def keysOf : BulkAttributeField → List String
  | .text attr => [attributeName attr]
  | .manager => ["managerDn"]
  | .postOfficeBox => ["postOfficeBox"]
  | .country => ["c", "co", "countryCode"]

def ownerOf (k : String) : Option BulkAttributeField := BULK_ATTRIBUTE_FIELDS.find? fun f => k ∈ keysOf f

theorem ownerOf_mem {k : String} {f : BulkAttributeField} (member : k ∈ keysOf f) : ownerOf k = some f := by
  cases f with
  | text attr =>
    cases List.mem_singleton.mp member
    cases attr <;> decide
  | manager | postOfficeBox =>
    cases List.mem_singleton.mp member
    decide
  | country =>
    simp only [keysOf, List.mem_cons, List.not_mem_nil, or_false] at member
    rcases member with rfl | rfl | rfl <;> decide

/-- No two fields share a name. -/
theorem keysOf_disjoint {k : String} {f g : BulkAttributeField} (here : k ∈ keysOf f)
    (there : k ∈ keysOf g) : f = g :=
  Option.some.inj ((ownerOf_mem here).symm.trans (ownerOf_mem there))

theorem keysOf_nodup (f : BulkAttributeField) : (keysOf f).Nodup := by
  cases f with
  | text attr => exact List.nodup_singleton _
  | manager | postOfficeBox | country => decide

theorem patch_keys (f : BulkAttributeField) (value : FieldValue f) :
    (patch f value).map Prod.fst = keysOf f := by
  cases f <;> rfl

theorem snapshot_keys (f : BulkAttributeField) (value : FieldValue f) :
    (snapshot f value).map Prod.fst = keysOf f := by
  cases f <;> rfl

theorem get_assign {target source : AttributeRecord} (keyed : (source.map Prod.fst).Nodup) (k : String) :
    Assoc.get (assign target source) k = (Assoc.get source k).or (Assoc.get target k) := by
  unfold assign
  induction source generalizing target with
  | nil => simp
  | cons e source ih =>
    obtain ⟨fresh, keyed⟩ := List.nodup_cons.mp keyed
    rw [List.foldl_cons, ih keyed, Assoc.get_set, Assoc.get_cons]
    by_cases here : e.1 = k
    · have absent : Assoc.get source k = none := Assoc.get_eq_none.mpr (here ▸ fresh)
      simp [here, absent]
    · simp [here, Ne.symm here]

section
variable (encode : FieldChange → AttributeRecord) {changes : List FieldChange}

/-- What no change's field has a name for keeps its value. -/
theorem get_assigned_of_absent (keys : ∀ c, (encode c).map Prod.fst = keysOf c.field) {k : String}
    (start : AttributeRecord)
    (absent : ∀ c ∈ changes, k ∉ keysOf c.field) :
    Assoc.get (changes.foldl (fun m c => assign m (encode c)) start) k = Assoc.get start k := by
  induction changes generalizing start with
  | nil => rfl
  | cons c changes ih =>
    have nowhere : Assoc.get (encode c) k = none :=
      Assoc.get_eq_none.mpr (keys c ▸ absent c List.mem_cons_self)
    rw [List.foldl_cons, ih _ fun d member => absent d (List.mem_cons_of_mem _ member),
      get_assign (keys c ▸ keysOf_nodup c.field), nowhere, Option.none_or]

/-- A change's own names hold what it is encoded as. -/
theorem get_assigned_of_mem (keys : ∀ c, (encode c).map Prod.fst = keysOf c.field) {k : String}
    (start : AttributeRecord)
    (distinct : (changes.map (·.field)).Nodup) {c : FieldChange} (member : c ∈ changes)
    (named : k ∈ keysOf c.field) :
    Assoc.get (changes.foldl (fun m c => assign m (encode c)) start) k = Assoc.get (encode c) k := by
  induction changes generalizing start with
  | nil => cases member
  | cons d changes ih =>
    obtain ⟨fresh, distinct⟩ := List.nodup_cons.mp distinct
    rw [List.foldl_cons]
    rcases List.mem_cons.mp member with rfl | member
    · have absent : ∀ e ∈ changes, k ∉ keysOf e.field := by
        intro e inside also
        exact fresh (List.mem_map.mpr ⟨e, inside, keysOf_disjoint also named⟩)
      have held : (Assoc.get (encode c) k).isSome := Assoc.get_isSome.mpr (keys c ▸ named)
      obtain ⟨value, got⟩ := Option.isSome_iff_exists.mp held
      rw [get_assigned_of_absent encode keys _ absent, get_assign (keys c ▸ keysOf_nodup c.field),
        got, Option.some_or]
    · exact ih _ distinct member

end

section
variable {user given : AttributeRecord}

theorem get_writeAttribute {entry : String × String} {name : String} :
    Assoc.get (writeAttribute given user entry) name =
      if name = entry.2 then ((Assoc.get given entry.1).map replacement).or (Assoc.get user name)
      else Assoc.get user name := by
  unfold writeAttribute
  cases Assoc.get given entry.1 with
  | none => simp
  | some value => by_cases here : name = entry.2 <;> simp [here]

/-- Each attribute once in the map: it is what the patch has under its name there, or as it was. -/
theorem get_written {map : List (String × String)} (distinct : (map.map Prod.snd).Nodup)
    {entry : String × String}
    (member : entry ∈ map) :
    Assoc.get (map.foldl (writeAttribute given) user) entry.2 =
      ((Assoc.get given entry.1).map replacement).or (Assoc.get user entry.2) := by
  have elsewhere : ∀ (rest : List (String × String)) (start : AttributeRecord) (name : String),
    name ∉ rest.map Prod.snd →
      Assoc.get (rest.foldl (writeAttribute given) start) name = Assoc.get start name := by
    intro rest
    induction rest with
    | nil => intro _ _ _; rfl
    | cons e rest ih =>
      intro start name absent
      obtain ⟨other, absent⟩ := not_or.mp (fun h => absent (List.mem_cons.mpr h))
      rw [List.foldl_cons, ih _ _ absent, get_writeAttribute, if_neg other]
  induction map generalizing user with
  | nil => cases member
  | cons e map ih =>
    obtain ⟨fresh, distinct⟩ := List.nodup_cons.mp distinct
    rw [List.foldl_cons]
    rcases List.mem_cons.mp member with rfl | member
    · rw [elsewhere _ _ _ fresh, get_writeAttribute, if_pos rfl]
    · have other : entry.2 ≠ e.2 := fun same => fresh (same ▸ List.mem_map_of_mem member)
      rw [ih distinct member, get_writeAttribute, if_neg other]

theorem get_writeUserAttributes {key name : String} (member : (key, name) ∈ PATCH_ATTRIBUTE_MAP) :
    Assoc.get (writeUserAttributes user given) name = ((Assoc.get given key).map replacement).or
      (Assoc.get user name) :=
  get_written (by decide) member

theorem attributeName_mapped (attr : TextAttribute) :
    (attributeName attr, attributeName attr) ∈ PATCH_ATTRIBUTE_MAP := by
  cases attr <;> decide

theorem country_mapped :
    ("c", "c") ∈ PATCH_ATTRIBUTE_MAP ∧ ("co", "co") ∈ PATCH_ATTRIBUTE_MAP ∧
      ("countryCode", "countryCode") ∈ PATCH_ATTRIBUTE_MAP := by
  decide

/-- A field none of whose names the patch has is as it was. -/
theorem live_write_of_absent {f : BulkAttributeField} (absent : ∀ k ∈ keysOf f, Assoc.get given k = none) :
    live f (writeUserAttributes user given) = live f user := by
  cases f with
  | text attr =>
    have here := absent _ (List.mem_singleton.mpr rfl)
    simp [live, get_writeUserAttributes (attributeName_mapped attr), here]
  | manager =>
    have here := absent "managerDn" (List.mem_singleton.mpr rfl)
    have mapped : ("managerDn", "manager") ∈ PATCH_ATTRIBUTE_MAP := by decide
    simp [live, get_writeUserAttributes mapped, here]
  | postOfficeBox =>
    have here := absent "postOfficeBox" (List.mem_singleton.mpr rfl)
    have mapped : ("postOfficeBox", "postOfficeBox") ∈ PATCH_ATTRIBUTE_MAP := by decide
    simp [live, get_writeUserAttributes mapped, here]
  | country =>
    obtain ⟨c, co, number⟩ := country_mapped
    have noC := absent "c" (by decide)
    have noCo := absent "co" (by decide)
    have noNumber := absent "countryCode" (by decide)
    simp [live, get_writeUserAttributes c, get_writeUserAttributes co,
      get_writeUserAttributes number, noC, noCo, noNumber]

/-- A field whose names the patch has as its own patch does has the value written. -/
theorem live_write_of_patch {f : BulkAttributeField} {value : FieldValue f}
    (held : ∀ k ∈ keysOf f, Assoc.get given k = Assoc.get (patch f value) k) :
    live f (writeUserAttributes user given) = value := by
  cases f with
  | text attr =>
    have here := held _ (List.mem_singleton.mpr rfl)
    simp [live, get_writeUserAttributes (attributeName_mapped attr), here, patch, Assoc.get_cons]
  | manager =>
    have here := held "managerDn" (List.mem_singleton.mpr rfl)
    have mapped : ("managerDn", "manager") ∈ PATCH_ATTRIBUTE_MAP := by decide
    simp [live, get_writeUserAttributes mapped, here, patch, Assoc.get_cons]
  | postOfficeBox =>
    have here := held "postOfficeBox" (List.mem_singleton.mpr rfl)
    have mapped : ("postOfficeBox", "postOfficeBox") ∈ PATCH_ATTRIBUTE_MAP := by decide
    simp only [live, get_writeUserAttributes mapped, here, patch, Assoc.get_cons, if_true,
      Option.map_some, Option.some_or]
    exact poBoxesOf_replacement value
  | country =>
    obtain ⟨c, co, number⟩ := country_mapped
    have hasC := held "c" (by decide)
    have hasCo := held "co" (by decide)
    have hasNumber := held "countryCode" (by decide)
    have kept : replacement (.text ((value.countryCode.map Trimmed.value).getD COUNTRY_NONE)) =
        .text ((value.countryCode.map Trimmed.value).getD COUNTRY_NONE) := by
      simp only [replacement, numberAttribute_trim, if_neg (numberAttribute_left value)]
    simp only [live, get_writeUserAttributes c, get_writeUserAttributes co,
      get_writeUserAttributes number, hasC, hasCo,
      hasNumber, patch, countryAttributes, Assoc.get_cons]
    simpa [kept, rawScalarValue_text (numberAttribute_left value)] using countryOf_attributes value

end

/-- A snapshot that has a field's names as the field's own has its value. -/
theorem fromSnapshot_of_snapshot {f : BulkAttributeField} {value : FieldValue f} {s : AttributeRecord}
    (held : ∀ k ∈ keysOf f, Assoc.get s k = Assoc.get (snapshot f value) k) :
    fromSnapshot f s = some value := by
  cases f with
  | text attr =>
    have here := held _ (List.mem_singleton.mpr rfl)
    simp [fromSnapshot, here, snapshot, Assoc.get_cons]
  | manager =>
    have here := held "managerDn" (List.mem_singleton.mpr rfl)
    simp [fromSnapshot, here, snapshot, Assoc.get_cons]
  | postOfficeBox =>
    have here := held "postOfficeBox" (List.mem_singleton.mpr rfl)
    simp only [fromSnapshot, here, snapshot, Assoc.get_cons, if_true, Option.map_some]
    exact congrArg some (poBoxesOf_texts value)
  | country =>
    have hasC := held "c" (by decide)
    have hasCo := held "co" (by decide)
    have hasNumber := held "countryCode" (by decide)
    simp only [fromSnapshot, hasC, hasCo, hasNumber, snapshot, countryAttributes, Assoc.get_cons]
    simpa [rawScalarValue_text (numberAttribute_left value)] using countryOf_attributes value

/-- A field none of whose keys a record has is read back as none. -/
theorem fromSnapshot_of_absent {f : BulkAttributeField} {s : AttributeRecord}
    (absent : ∀ k ∈ keysOf f, Assoc.get s k = none) :
    fromSnapshot f s = none := by
  cases f with
  | text attr =>
    have here := absent _ (List.mem_singleton.mpr rfl)
    simp [fromSnapshot, here]
  | manager =>
    have here := absent "managerDn" (List.mem_singleton.mpr rfl)
    simp [fromSnapshot, here]
  | postOfficeBox =>
    have here := absent "postOfficeBox" (List.mem_singleton.mpr rfl)
    simp [fromSnapshot, here]
  | country =>
    have here := absent "countryCode" (by decide)
    simp [fromSnapshot, here]

theorem same_refl (u : Platform) (f : BulkAttributeField) (v : FieldValue f) : same u f v v = true := by
  cases f with
  | text attr | manager | postOfficeBox => exact decide_eq_true rfl
  | country => exact decide_eq_true ⟨rfl, rfl⟩

theorem same_comm (u : Platform) (f : BulkAttributeField) (v w : FieldValue f) :
    same u f v w = same u f w v := by
  cases f with
  | text attr | manager | postOfficeBox => exact decide_eq_decide.mpr eq_comm
  | country => exact decide_eq_decide.mpr (and_congr eq_comm eq_comm)

section
variable {u : Platform} {V C : AttributeValues} {cs : List FieldChange}

/-- A field is changed where it is asked for and its value is another one. -/
theorem changeOf_eq_some {f : BulkAttributeField} {c : FieldChange} :
    changeOf u V C f = some c ↔
      c.field = f ∧ V c.field = some c.before ∧ C c.field = some c.after ∧
      same u c.field c.before c.after = false := by
  unfold changeOf
  constructor
  · intro changed
    split at changed
    next after before isAfter isBefore =>
      split at changed
      · cases changed
      next differ =>
        cases changed
        exact ⟨rfl, isBefore, isAfter, eq_false_of_ne_true differ⟩
    next => cases changed
  · rintro ⟨rfl, isBefore, isAfter, differ⟩
    simp [isBefore, isAfter, differ]

theorem mem_changes {c : FieldChange} :
    c ∈ (fieldChanges u V C).changes ↔
      V c.field = some c.before ∧ C c.field = some c.after ∧ same u c.field c.before c.after = false := by
  simp only [fieldChanges, List.mem_filterMap, changeOf_eq_some]
  constructor
  · rintro ⟨f, _, rfl, changed⟩
    exact changed
  · intro changed
    exact ⟨c.field, Reverts.mem_fields _, rfl, changed⟩

theorem fields_of_changes :
    (fieldChanges u V C).changes.map (·.field) = BULK_ATTRIBUTE_FIELDS.filter fun f =>
      (changeOf u V C f).isSome := by
  have kept : ∀ fields : List BulkAttributeField,
      (fields.filterMap (changeOf u V C)).map (·.field) = fields.filter fun f =>
        (changeOf u V C f).isSome := by
    intro fields
    induction fields with
    | nil => rfl
    | cons f fields ih =>
      cases changed : changeOf u V C f with
      | none => simp [changed, ih]
      | some c => simp [changed, ih, (changeOf_eq_some.mp changed).1]
  exact kept _

theorem fields_nodup : ((fieldChanges u V C).changes.map (·.field)).Nodup := by
  rw [fields_of_changes]
  exact List.Nodup.filter _ (by decide)

theorem changeOf_eq_none {f : BulkAttributeField} (absent : ∀ c ∈ (fieldChanges u V C).changes, c.field ≠ f) :
    changeOf u V C f = none := by
  cases changed : changeOf u V C f with
  | none => rfl
  | some c =>
    obtain ⟨here, change⟩ := changeOf_eq_some.mp changed
    exact absurd here (absent c (mem_changes.mpr change))

section
variable {known : BulkAttributeField → Bool} {user : AttributeRecord}

/-- Writing changes leaves each of their fields as it was to become. -/
theorem readValues_changed (distinct : (cs.map (·.field)).Nodup) {c : FieldChange} (member : c ∈ cs)
    (isKnown : known c.field = true) :
    readValues known (writeUserAttributes user (patchFor cs)) c.field = some c.after := by
  have held : ∀ k ∈ keysOf c.field, Assoc.get (patchFor cs) k =
    Assoc.get (patch c.field c.after) k := fun _ named =>
    get_assigned_of_mem (fun c => patch c.field c.after) (fun c => patch_keys c.field c.after) []
      distinct member named
  rw [readValues, if_pos isKnown, live_write_of_patch held]

theorem patchFor_absent {f : BulkAttributeField} (absent : ∀ c ∈ cs, c.field ≠ f) :
    ∀ k ∈ keysOf f, Assoc.get (patchFor cs) k = none := by
  intro k named
  exact get_assigned_of_absent (fun c => patch c.field c.after) (fun c => patch_keys c.field c.after) []
    fun c member also => absent c member (keysOf_disjoint also named)

theorem readValues_unchanged {f : BulkAttributeField} (absent : ∀ c ∈ cs, c.field ≠ f) :
    readValues known (writeUserAttributes user (patchFor cs)) f = readValues known user f := by
  rw [readValues, live_write_of_absent (patchFor_absent absent), readValues]

theorem snapshotValues_changed (distinct : (cs.map (·.field)).Nodup) {c : FieldChange} (member : c ∈ cs) :
    snapshotValues (rowSnapshots cs).before c.field = some c.before := by
  have held : ∀ k ∈ keysOf c.field,
      Assoc.get (rowSnapshots cs).before k = Assoc.get (snapshot c.field c.before) k := fun _ named =>
    get_assigned_of_mem (fun c => snapshot c.field c.before)
      (fun c => snapshot_keys c.field c.before) [] distinct member named
  exact fromSnapshot_of_snapshot held

theorem snapshotValues_unchanged {f : BulkAttributeField} (absent : ∀ c ∈ cs, c.field ≠ f) :
    snapshotValues (rowSnapshots cs).before f = none := by
  refine fromSnapshot_of_absent fun k named => ?_
  exact get_assigned_of_absent (fun c => snapshot c.field c.before)
    (fun c => snapshot_keys c.field c.before) []
    fun c member also => absent c member (keysOf_disjoint also named)

end
end

/-- Any values are those of some attributes, as far as they have been read. -/
theorem exists_readValues (V : AttributeValues) : ∃ known user, readValues known user = V := by
  let changeTo : BulkAttributeField → Option FieldChange := fun f => (V f).map fun v => ⟨f, v, v⟩
  have fields : ∀ l : List BulkAttributeField, (l.filterMap changeTo).map (·.field) =
    l.filter fun f => (V f).isSome := by
    intro l
    induction l with
    | nil => rfl
    | cons f l ih => cases held : V f <;> simp [changeTo, held, ih]
  have distinct : ((BULK_ATTRIBUTE_FIELDS.filterMap changeTo).map (·.field)).Nodup := by
    rw [fields]
    exact List.Nodup.filter _ (by decide)
  refine ⟨fun f => (V f).isSome, writeUserAttributes []
    (patchFor (BULK_ATTRIBUTE_FIELDS.filterMap changeTo)), ?_⟩
  funext f
  cases held : V f with
  | none => simp [readValues, held]
  | some v =>
    have member : (⟨f, v, v⟩ : FieldChange) ∈ BULK_ATTRIBUTE_FIELDS.filterMap changeTo :=
      List.mem_filterMap.mpr ⟨f, Reverts.mem_fields f, by simp [changeTo, held]⟩
    exact readValues_changed distinct member (by simp [held])

section
variable {u : Platform} {known : BulkAttributeField → Bool} {user : AttributeRecord} {C : AttributeValues}

/-- A field is one of a change's, or of none. -/
theorem changed_or_not (cs : List FieldChange) (f : BulkAttributeField) :
    (∃ c ∈ cs, c.field = f) ∨ ∀ c ∈ cs, c.field ≠ f := by
  by_cases changed : ∃ c ∈ cs, c.field = f
  · exact .inl changed
  · exact .inr fun c member here => changed ⟨c, member, here⟩

theorem known_of_change {c : FieldChange} (member : c ∈ (fieldChanges u (readValues known user) C).changes) :
    known c.field = true := by
  obtain ⟨isBefore, _⟩ := mem_changes.mp member
  by_contra unknown
  simp [readValues, unknown] at isBefore

theorem changeOf_congr {V W : AttributeValues} {f : BulkAttributeField} (here : V f = W f) :
    changeOf u V C f = changeOf u W C f := by
  unfold changeOf
  rw [here]

/-- Once the edit is made there is nothing left of it to make. -/
theorem changes_edited :
    (fieldChanges u
      (readValues known
        (writeUserAttributes user (patchFor (fieldChanges u (readValues known user) C).changes)))
      C).changes = [] := by
  refine List.filterMap_eq_nil_iff.mpr fun f _ => ?_
  rcases changed_or_not (fieldChanges u (readValues known user) C).changes f with ⟨c, member, rfl⟩ | absent
  · obtain ⟨_, isAfter, _⟩ := mem_changes.mp member
    have isKnown : known c.field = true := known_of_change member
    have edited : readValues known
        (writeUserAttributes user (patchFor (fieldChanges u (readValues known user) C).changes))
          c.field = some c.after :=
      readValues_changed fields_nodup member isKnown
    simp [changeOf, edited, isAfter, same_refl]
  · rw [changeOf_congr (readValues_unchanged absent)]
    exact changeOf_eq_none absent

end

/-- A bulk edit and its revert: the edit leaves nothing to change and only changes its own fields,
and setting the fields its snapshot keeps to what they were changes just those, and gives back the
values. -/
theorem bulkEdit_reverted (u : Platform) :
    (∀ V : AttributeValues, ∃ known user, readValues known user = V) ∧
    ∀ (known : BulkAttributeField → Bool) (user : AttributeRecord) (C : AttributeValues),
      let V := readValues known user
      let cs := (fieldChanges u V C).changes
      let edited := writeUserAttributes user (patchFor cs)
      let back := (fieldChanges u (readValues known edited) (snapshotValues (rowSnapshots cs).before)).changes
      let reverted := writeUserAttributes edited (patchFor back)
      (fieldChanges u (readValues known edited) C).changes = [] ∧
      (∀ f, f ∉ cs.map (·.field) →
        readValues known edited f = V f ∧ ∀ k ∈ keysOf f, Assoc.get (patchFor cs) k = none) ∧
      back.map (·.field) = cs.map (·.field) ∧
      readValues known reverted = V := by
  refine ⟨exists_readValues, fun known user C => ?_⟩
  intro V cs edited back reverted
  have distinct : (cs.map (·.field)).Nodup := fields_nodup
  have edit : ∀ c ∈ cs, readValues known edited c.field = some c.after := fun c member =>
    readValues_changed distinct member (known_of_change member)
  have target : ∀ c ∈ cs, snapshotValues (rowSnapshots cs).before c.field = some c.before := fun c member =>
    snapshotValues_changed distinct member
  have turned : ∀ c ∈ cs, (⟨c.field, c.after, c.before⟩ : FieldChange) ∈ back := by
    intro c member
    obtain ⟨_, _, differ⟩ := mem_changes.mp member
    exact mem_changes.mpr ⟨edit c member, target c member, (same_comm ..).trans differ⟩
  have only : ∀ d ∈ back, ∃ c ∈ cs, c.field = d.field := by
    intro d member
    rcases changed_or_not cs d.field with changed | absent
    · exact changed
    · obtain ⟨_, isTarget, _⟩ := mem_changes.mp member
      simp [snapshotValues_unchanged absent] at isTarget
  refine ⟨changes_edited, ?_, ?_, ?_⟩
  · intro f outside
    have absent : ∀ c ∈ cs, c.field ≠ f := fun c member here => outside (List.mem_map.mpr ⟨c, member, here⟩)
    exact ⟨readValues_unchanged absent, patchFor_absent absent⟩
  · have fieldsOf : ∀ (V C : AttributeValues) (f : BulkAttributeField),
        (changeOf u V C f).isSome = true ↔ f ∈ (fieldChanges u V C).changes.map (·.field) := by
      intro V C f
      rw [fields_of_changes]
      simp [Reverts.mem_fields]
    have sameFields : ∀ f,
      (changeOf u (readValues known edited) (snapshotValues (rowSnapshots cs).before) f).isSome =
        (changeOf u V C f).isSome := by
      intro f
      rw [Bool.eq_iff_iff, fieldsOf, fieldsOf]
      constructor
      · intro changed
        obtain ⟨d, member, rfl⟩ := List.mem_map.mp changed
        obtain ⟨c, inside, here⟩ := only d member
        exact List.mem_map.mpr ⟨c, inside, here⟩
      · intro changed
        obtain ⟨c, member, rfl⟩ := List.mem_map.mp changed
        exact List.mem_map.mpr ⟨_, turned c member, rfl⟩
    show back.map _ = cs.map _
    rw [fields_of_changes, fields_of_changes]
    simp only [sameFields]
  · funext f
    rcases changed_or_not cs f with ⟨c, member, rfl⟩ | absent
    · obtain ⟨isBefore, _⟩ := mem_changes.mp member
      have isKnown : known c.field = true := known_of_change member
      have restored : readValues known reverted c.field = some c.before :=
        readValues_changed fields_nodup (turned c member) isKnown
      exact restored.trans isBefore.symm
    · have alone : ∀ d ∈ back, d.field ≠ f := by
        rintro d member rfl
        obtain ⟨c, inside, here⟩ := only d member
        exact absent c inside here
      exact (readValues_unchanged alone).trans (readValues_unchanged absent)

end OpenAduc.BulkAttributes
