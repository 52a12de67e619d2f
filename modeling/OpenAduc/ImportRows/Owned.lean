import OpenAduc.ImportRows.Accounts
import OpenAduc.ImportRows.Reads
import OpenAduc.Lib.Outside

namespace OpenAduc.ImportRows
open BulkJobs (RowOutcome)
open UserCreation (UserCreateStep)
open Relation (ReflTransGen)

variable {set : Setting} {w w' w₁ w₂ : World}

/-- The account a run names is one created for the row: by its GUID where it has one, at a DN one had. -/
structure World.Owns (w : World) (id : Option String) (dn : String) : Prop where
  some_ : w.made ≠ []
  id : ∀ guid, id = some guid → guid ∈ w.made
  place : dn ∈ w.places

/-- A run's progress: of an account created for the row, with every step recorded or stored so far. -/
structure World.Owned (w : World) (progress : ImportRowProgress) : Prop where
  owns : w.Owns progress.id progress.distinguishedName
  recorded : ∀ step ∈ w.recorded, accountStep step ∈ progress.completed
  stored : ∀ step ∈ w.stored, step ∈ progress.completed

/-- An account read as one created for the row. -/
structure World.Mine (w : World) (u : DirectoryUser) : Prop where
  made : u.objectGuid ∈ w.made
  place : u.distinguishedName ∈ w.places

/-- Nothing says the row has an account. -/
structure World.Unrecorded (w : World) : Prop where
  after : w.row.after = none
  events : w.events = []
  recorded : w.recorded = []
  stored : w.stored = []

/-- What holds of the accounts, the events and the stored progress between any two questions. -/
structure World.Linked (w : World) : Prop where
  placed : ∀ u ∈ w.accounts, u.objectGuid ∈ w.made → u.distinguishedName ∈ w.places
  events : ∀ e ∈ w.events, e.targetDn = plannedDn w.row.input ∧ w.Owns e.targetId e.targetDn
  progress : ∀ progress, w.row.after = some progress → w.Owned progress
  stored : w.row.after = none → w.stored = []
  recorded : w.row.after = none → ∀ step ∈ w.recorded, ∃ e, w.events.getLast? = some e ∧ step ∈ e.completed

/-- No account of anyone else can be taken for the row's: none is adoptable, and once the row has
one, none holds its logon name and UPN, nor a DN the row's has had. -/
def World.Apart (set : Setting) (w : World) : Prop :=
  ∀ u ∈ w.accounts, u.objectGuid ∉ w.made →
    adoptable set.lower u (set.whenCreated u.objectGuid) w.row.input set.jobCreatedAt = false ∧
      (w.made ≠ [] → (same set.lower u.samAccountName w.row.input.samAccountName &&
          same set.lower u.userPrincipalName w.row.input.userPrincipalName) = false ∧
        ∀ place ∈ w.places, set.lower u.distinguishedName ≠ set.lower place)

/-- What every question is asked under: no account of anyone else can be taken for the row's, and
the database lowers the DN planned for it as the code does. -/
structure World.Settled (set : Setting) (w : World) : Prop where
  apart : w.Apart set
  alike : set.databaseLower (plannedDn w.row.input) = set.lower (plannedDn w.row.input)

/-- An account made for the row that no record tells of still holds one of the names planned, or
someone else does. -/
def World.Held (set : Setting) (w : World) : Prop :=
  w.made ≠ [] → w.row.after = none → w.events = [] → ∃ u ∈ w.accounts,
    u.named set.lower (plannedDn w.row.input) w.row.input.samAccountName w.row.input.userPrincipalName = true

/-- All a run relies on is as it was, and the row's accounts have had the DNs they had. -/
structure World.Grows (w w' : World) : Prop where
  row : w'.row = w.row
  events : w'.events = w.events
  made : w'.made = w.made
  recorded : w'.recorded = w.recorded
  stored : w'.stored = w.stored
  places : ∀ place ∈ w.places, place ∈ w'.places

theorem World.Grows.refl (w : World) : w.Grows w := ⟨rfl, rfl, rfl, rfl, rfl, fun _ => id⟩

theorem World.Grows.trans (first : w.Grows w₁) (rest : w₁.Grows w₂) : w.Grows w₂ where
  row := rest.row.trans first.row
  events := rest.events.trans first.events
  made := rest.made.trans first.made
  recorded := rest.recorded.trans first.recorded
  stored := rest.stored.trans first.stored
  places place member := rest.places place (first.places place member)

theorem World.Owns.grows {id : Option String} {dn : String} (owns : w.Owns id dn)
    (grows : w.Grows w') : w'.Owns id dn where
  some_ := grows.made ▸ owns.some_
  id guid has := grows.made ▸ owns.id guid has
  place := grows.places _ owns.place

theorem World.Owned.grows {progress : ImportRowProgress} (owned : w.Owned progress)
    (grows : w.Grows w') : w'.Owned progress where
  owns := owned.owns.grows grows
  recorded := grows.recorded ▸ owned.recorded
  stored := grows.stored ▸ owned.stored

theorem World.Mine.grows {u : DirectoryUser} (mine : w.Mine u) (grows : w.Grows w') : w'.Mine u where
  made := grows.made ▸ mine.made
  place := grows.places _ mine.place

theorem World.Unrecorded.grows (unrecorded : w.Unrecorded) (grows : w.Grows w') : w'.Unrecorded where
  after := grows.row ▸ unrecorded.after
  events := grows.events.trans unrecorded.events
  recorded := grows.recorded.trans unrecorded.recorded
  stored := grows.stored.trans unrecorded.stored

/-- What someone else's change does. -/
theorem changed_cases {c : Change} (changed : w.changed set c = some w') :
    (∃ u : DirectoryUser, w' = { w with
        accounts := w.accounts ++ [u]
        places := if u.objectGuid ∈ w.made then w.places ++ [u.distinguishedName] else w.places }) ∨
      (∃ u : DirectoryUser, w' = { w with
        accounts := w.accounts.map fun v => if v.objectGuid = u.objectGuid then u else v
        places := if u.objectGuid ∈ w.made then w.places ++ [u.distinguishedName] else w.places }) ∨
      ∃ guid, w' = { w with accounts := w.accounts.filter fun v => v.objectGuid ≠ guid } := by
  cases c with
  | appears u =>
    simp only [World.changed, Option.ite_none_right_eq_some, Option.some.injEq] at changed
    exact .inl ⟨u, changed.2.symm⟩
  | changes u =>
    simp only [World.changed, Option.ite_none_right_eq_some, Option.some.injEq] at changed
    exact .inr (.inl ⟨u, changed.2.symm⟩)
  | goes guid => exact .inr (.inr ⟨guid, (Option.some.inj changed).symm⟩)

theorem mem_places {u : DirectoryUser} {place : String} (member : place ∈ w.places) :
    place ∈ if u.objectGuid ∈ w.made then w.places ++ [u.distinguishedName] else w.places := by
  split
  · exact List.mem_append_left _ member
  · exact member

theorem place_mem {u : DirectoryUser} (made : u.objectGuid ∈ w.made) :
    u.distinguishedName ∈ if u.objectGuid ∈ w.made then w.places ++ [u.distinguishedName] else w.places := by
  rw [if_pos made]
  exact List.mem_append_right _ List.mem_cons_self

theorem grows_of_changed {c : Change} (changed : w.changed set c = some w') : w.Grows w' := by
  rcases changed_cases changed with ⟨u, rfl⟩ | ⟨u, rfl⟩ | ⟨guid, rfl⟩
  · exact ⟨rfl, rfl, rfl, rfl, rfl, fun _ => mem_places⟩
  · exact ⟨rfl, rfl, rfl, rfl, rfl, fun _ => mem_places⟩
  · exact ⟨rfl, rfl, rfl, rfl, rfl, fun _ => id⟩

theorem other_of_fresh {guid : String} (fresh : w.fresh guid = true) {u : DirectoryUser}
    (member : u ∈ w.accounts) :
    u.objectGuid ≠ guid :=
  of_decide_eq_true (List.all_eq_true.mp (Bool.and_eq_true_iff.mp fresh).2 u member)

/-- Everyone else's changes leave what holds. -/
theorem World.Linked.changed {c : Change} (linked : w.Linked)
    (changed : w.changed set c = some w') : w'.Linked := by
  have grows := grows_of_changed changed
  refine ⟨?_, fun e member => ?_, fun p stored => ?_, fun none_ => ?_, fun none_ => ?_⟩
  · rcases changed_cases changed with ⟨u, rfl⟩ | ⟨u, rfl⟩ | ⟨guid, rfl⟩
    · intro v member made
      rcases List.mem_append.mp member with old | new
      · exact grows.places _ (linked.placed v old made)
      · rw [List.mem_singleton.mp new] at made ⊢
        exact place_mem made
    · intro v member made
      obtain ⟨old, held, same⟩ := List.mem_map.mp member
      split at same
      · rw [← same] at made ⊢
        exact place_mem made
      · rw [← same] at made ⊢
        exact grows.places _ (linked.placed old held made)
    · exact fun v member => linked.placed v (List.mem_filter.mp member).1
  · rw [grows.events] at member
    rw [grows.row]
    exact ⟨(linked.events e member).1, (linked.events e member).2.grows grows⟩
  · rw [grows.row] at stored
    exact (linked.progress p stored).grows grows
  · rw [grows.row] at none_
    exact grows.stored.trans (linked.stored none_)
  · rw [grows.row] at none_
    rw [grows.recorded, grows.events]
    exact linked.recorded none_

/-- What is asked, and when: a create only of a row no record tells of, under its own names; its
event only then; steps not recorded, groups and manager only of an account made for the row. -/
def Guard (w : World) : Question → Prop
  | .createUser input _ _ _ => w.Unrecorded ∧ input.dn = plannedDn w.row.input ∧
      input.samAccountName = w.row.input.samAccountName ∧ input.userPrincipalName =
        w.row.input.userPrincipalName
  | .recordEvent event => ∀ create, event.createRecord = some create →
      w.Unrecorded ∧ create.targetDn = plannedDn w.row.input ∧ w.Owns create.targetId create.targetDn
  | .finishUserCreate guid steps _ _ => guid ∈ w.made ∧ ∀ step ∈ steps, step ∉ w.recorded
  | .writeMembership _ guid _ | .updateManager guid _ => guid ∈ w.made
  | _ => True

/-- An account made where there was room for it. -/
structure World.Making (set : Setting) (w : World) (u : DirectoryUser) : Prop where
  guard : w.Unrecorded
  dn : u.distinguishedName = plannedDn w.row.input
  sam : u.samAccountName = some w.row.input.samAccountName
  upn : u.userPrincipalName = some w.row.input.userPrincipalName
  fresh : w.fresh u.objectGuid = true
  free : w.free set u = true

/-- What a create does: nothing, or the account is made, and what's said of it is of that one. -/
theorem created_cases {input : UserCreateInput} {steps : List UserCreateStep} {password : String}
    {mustChange : Bool}
    {x : Except Thrown UserCreateResult} {made : Option DirectoryUser} {stored : Bool}
    (answered : w.answered set (.createUser input steps password mustChange) x made stored = some w') :
    (w' = w ∧ ∀ result, x = .ok result → .create ∉ result.completed) ∨
      ∃ u, w' = w.makes u ∧ w.admits set input u = true ∧ ∀ result, x = .ok result →
      World.tells result u = true := by
  cases x with
  | ok result =>
    cases made with
    | some u =>
      simp only [World.answered, Option.ite_none_right_eq_some, Option.some.injEq] at answered
      exact .inr ⟨u, answered.2.symm, answered.1.1, fun _ same => Except.ok.inj same ▸ answered.1.2⟩
    | none =>
      simp only [World.answered, Option.ite_none_left_eq_some, Option.some.injEq] at answered
      exact .inl ⟨answered.2.symm, fun _ same => Except.ok.inj same ▸ answered.1⟩
  | error e =>
    cases made with
    | some u =>
      simp only [World.answered, Option.ite_none_right_eq_some, Option.some.injEq] at answered
      exact .inr ⟨u, answered.2.symm, answered.1, fun _ same => nomatch same⟩
    | none =>
      simp only [World.answered, Option.ite_none_right_eq_some, Option.some.injEq] at answered
      exact .inl ⟨answered.2.symm, fun _ same => nomatch same⟩

theorem notes_of_none {event : AuditEvent} (none_ : event.createRecord = none) : w.notes event = w := by
  unfold World.notes
  rw [none_]

theorem notes_of_some {event : AuditEvent} {create : CreateRecord} (is : event.createRecord = some create) :
    w.notes event =
      { w with events := w.events ++ [create], recorded := w.recorded ++ create.completed } := by
  unfold World.notes
  rw [is]

theorem recorded_cases {event : AuditEvent} {x : Except Thrown Unit} {made : Option DirectoryUser}
    {stored : Bool}
    (answered : w.answered set (.recordEvent event) x made stored = some w') :
    w' = w ∨ w' = w.notes event := by
  cases x with
  | ok => exact .inr (Option.some.inj answered).symm
  | error e =>
    cases stored with
    | true => exact .inr (Option.some.inj answered).symm
    | false => exact .inl (Option.some.inj answered).symm

/-- A question that neither creates nor records leaves the world, which backs the answer. -/
theorem backed_of_answered {q : Question} {x : Except Thrown q.Answer} {made : Option DirectoryUser}
    {stored : Bool}
    (creates : ∀ input steps password mustChange, q ≠ .createUser input steps password mustChange)
    (records : ∀ event, q ≠ .recordEvent event) (answered : w.answered set q x made stored = some w') :
    w' = w ∧ w.backs set q x = true := by
  cases q with
  | createUser input steps password mustChange => exact absurd rfl (creates input steps password mustChange)
  | recordEvent event => exact absurd rfl (records event)
  | _ =>
    simp only [World.answered, Option.ite_none_right_eq_some, Option.some.injEq] at answered
    exact ⟨answered.2.symm, answered.1⟩

/-- What an answer does: nothing, or an account is made, or the create's event recorded. -/
theorem answered_cases {q : Question} {x : Except Thrown q.Answer} {made : Option DirectoryUser}
    {stored : Bool} (guard : Guard w q)
    (answered : w.answered set q x made stored = some w') :
    w' = w ∨ (∃ u, w' = w.makes u ∧ w.Making set u) ∨
      ∃ event create, q = .recordEvent event ∧ event.createRecord = some create ∧ w' = w.notes event := by
  cases q with
  | createUser input steps password mustChange =>
    obtain ⟨unrecorded, dn, sam, upn⟩ := guard
    rcases created_cases answered with ⟨same, _⟩ | ⟨u, same, admits, _⟩
    · exact .inl same
    · simp only [World.admits, Bool.and_eq_true, decide_eq_true_eq] at admits
      obtain ⟨⟨⟨⟨dn', sam'⟩, upn'⟩, fresh⟩, free⟩ := admits
      exact .inr (.inl ⟨u, same, unrecorded, dn'.trans dn, sam'.trans (by rw [sam]),
        upn'.trans (by rw [upn]), fresh, free⟩)
  | recordEvent event =>
    rcases recorded_cases answered with same | same
    · exact .inl same
    · cases create : event.createRecord with
      | none => exact .inl (same.trans (notes_of_none create))
      | some create => exact .inr (.inr ⟨event, _, rfl, by assumption, same⟩)
  | _ => exact .inl (backed_of_answered (by intros; nofun) (by intros; nofun) answered).1

/-- A run's answers leave what holds. -/
theorem World.Linked.answered {q : Question} {x : Except Thrown q.Answer}
    {made : Option DirectoryUser} {stored : Bool}
    (linked : w.Linked) (guard : Guard w q) (answered : w.answered set q x made stored = some w') :
    w'.Linked := by
  rcases answered_cases guard answered with rfl | ⟨u, rfl, making⟩ | ⟨event, create, rfl, is, rfl⟩
  · exact linked
  · refine ⟨fun v member made => ?_, fun e member => ?_, fun p stored => ?_, fun _ =>
      making.guard.stored, fun _ step member => ?_⟩
    · rcases List.mem_append.mp member with old | new
      · rcases List.mem_append.mp made with before | now
        · exact List.mem_append_left _ (linked.placed v old before)
        · exact absurd (List.mem_singleton.mp now) (other_of_fresh making.fresh old)
      · rw [List.mem_singleton.mp new]
        exact List.mem_append_right _ List.mem_cons_self
    · exact nomatch (making.guard.events ▸ member : e ∈ ([] : List CreateRecord))
    · exact nomatch making.guard.after.symm.trans stored
    · exact nomatch (making.guard.recorded ▸ member : step ∈ ([] : List UserCreateStep))
  · obtain ⟨unrecorded, dn, owns⟩ := guard create is
    rw [notes_of_some is, unrecorded.events, unrecorded.recorded]
    refine ⟨linked.placed, fun e member => ?_, fun p stored => ?_, fun _ =>
      unrecorded.stored, fun _ step member => ⟨create, rfl, member⟩⟩
    · rw [List.mem_singleton.mp member]
      exact ⟨dn, owns.some_, owns.id, owns.place⟩
    · exact nomatch unrecorded.after.symm.trans stored

end OpenAduc.ImportRows
