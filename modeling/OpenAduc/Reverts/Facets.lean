import OpenAduc.BulkJobs.Membership
import OpenAduc.Reverts.Attributes

namespace OpenAduc.Reverts
open Naming (Text text)
open Provider (Guid)
open BulkJobs (GroupChange JobId)

/-- An action a job of it can be reverted; the source's names for them stand in `BulkJobKind`. -/
inductive BulkRevertableAction
  | userDisable
  | userEnable
  | userGroupAdd
  | userGroupRemove
  | userUpdate
  | userMove
  | userAccountExpirySet
  | userPasswordMustChangeSet
  | userPasswordNeverExpiresClear
deriving DecidableEq, Repr

/-- An object a row names, an OU or a manager: by DN, and by GUID where it was kept. -/
structure Ref where
  dn : Option Text
  guid : Option Guid
deriving DecidableEq

/-- By GUID it is the same object however it has been renamed or moved. -/
def sameRef (lower : Text → Text) (x y : Ref) : Bool :=
  match x.guid, y.guid with
  | some g, some h => g = h
  | _, _ => x.dn.map lower = y.dn.map lower

/-- An expiry date AD can hold and give back. -/
structure ExpiryDate where
  ms : Int
  after : 0 < ms + Provider.FILETIME_TO_UNIX_EPOCH_DIFF_MS
  held : Provider.dateToFiletime ms < Provider.FILETIME_MAX
deriving DecidableEq

/-- A row's before or after snapshot: each key it holds. -/
structure Snapshot where
  enabled : Option Bool
  passwordMustChange : Option Bool
  passwordNeverExpires : Option Bool
  accountExpiresAt : Option (Option ExpiryDate)
  parentDn : Option Text
  parentGuid : Option Guid
  fields : (f : BulkAttributeField) → Option (FieldValue f)
  managerGuid : Option Guid
  groups : List GroupChange
  uSNChanged : Option String

def Snapshot.empty : Snapshot where
  enabled := none
  passwordMustChange := none
  passwordNeverExpires := none
  accountExpiresAt := none
  parentDn := none
  parentGuid := none
  fields _ := none
  managerGuid := none
  groups := []
  uSNChanged := none

def parentRef (s : Snapshot) : Ref := ⟨s.parentDn, s.parentGuid⟩

def managerRef (s : Snapshot) : Ref := ⟨(s.fields .manager).join, s.managerGuid⟩

/-- What a revert compares an account with. -/
structure AccountNow where
  enabled : Bool
  parent : Ref
  accountExpiresAt : Option Int
  passwordMustChange : Bool
  passwordNeverExpires : Bool
  attributes : (f : BulkAttributeField) → Option (FieldValue f)
  manager : Option Ref
  /-- Direct groups by id; none when not read. -/
  groupIds : Option (List String)
  uSNChanged : Option String

/-- One thing a row of the job changed: what it was before, what the job left (nothing when the
job's own re-read failed), and what it is now (nothing when it isn't known). -/
structure Facet where
  Value : Type
  groupId : Option String
  before : Value
  after : Option Value
  read : AccountNow → Option Value
  same : Value → Value → Bool

namespace Facet

/-- Known, and as it was before. -/
def Back (f : Facet) (now : AccountNow) : Prop :=
  ∃ value, f.read now = some value ∧ f.same value f.before = true

/-- Not known, or as it was before, or as the job left it where that is known. -/
def Untouched (f : Facet) (now : AccountNow) : Prop :=
  ∀ value, f.read now = some value →
    f.same value f.before = true ∨ f.after = none ∨ ∃ left, f.after = some left ∧ f.same value left = true

end Facet

/-- An on/off setting the job flipped. -/
def flagFacet (key : Snapshot → Option Bool) (read : AccountNow → Bool)
    (before after : Snapshot) : Facet where
  Value := Bool
  groupId := none
  before := key before = some true
  after := (key after).map (· = true)
  read now := some (read now)
  same a b := a = b

def moveFacet (lower : Text → Text) (before after : Snapshot) : Facet where
  Value := Ref
  groupId := none
  before := parentRef before
  after := some (parentRef after)
  read now := some now.parent
  same := sameRef lower

def expiryFacet (before after : Snapshot) : Facet where
  Value := Option Int
  groupId := none
  before := before.accountExpiresAt.join.map (·.ms)
  after := after.accountExpiresAt.map (·.map (·.ms))
  read now := some now.accountExpiresAt
  same a b := a = b

def managerFacet (lower : Text → Text) (before after : Snapshot) : Facet where
  Value := Ref
  groupId := none
  before := managerRef before
  after := some (managerRef after)
  read now := now.manager
  same := sameRef lower

def valueFacet (lower : Text → Text) (f : BulkAttributeField) (was : FieldValue f)
    (left : Option (FieldValue f)) : Facet where
  Value := FieldValue f
  groupId := none
  before := was
  after := left
  read now := now.attributes f
  same := sameValue lower f

def attributeFacet (lower : Text → Text) (before after : Snapshot) (f : BulkAttributeField) : Option Facet :=
  match before.fields f, after.fields f with
  | some was, some left =>
    some (if f = .manager then managerFacet lower before after else valueFacet lower f was (some left))
  | _, _ => none

def groupFacet (g : GroupChange) : Facet where
  Value := Bool
  groupId := some g.id.toLower
  before := !g.isMember
  after := some g.isMember
  read now := now.groupIds.map fun ids => ids.contains g.id.toLower
  same a b := a = b

/-- What each action's rows changed. -/
def facets (lower : Text → Text) (action : BulkRevertableAction) (before after : Snapshot) : List Facet :=
  match action with
  | .userDisable | .userEnable => [flagFacet Snapshot.enabled AccountNow.enabled before after]
  | .userPasswordMustChangeSet =>
    [flagFacet Snapshot.passwordMustChange AccountNow.passwordMustChange before after]
  | .userPasswordNeverExpiresClear =>
    [flagFacet Snapshot.passwordNeverExpires AccountNow.passwordNeverExpires before after]
  | .userMove => [moveFacet lower before after]
  | .userAccountExpirySet => [expiryFacet before after]
  | .userUpdate => BULK_ATTRIBUTE_FIELDS.filterMap (attributeFacet lower before after)
  | .userGroupAdd | .userGroupRemove => after.groups.map groupFacet

/-- The audit actions that change what the job changed. -/
def auditActions : BulkRevertableAction → List String
  | .userDisable | .userEnable => ["user.enable", "user.disable"]
  | .userPasswordMustChangeSet =>
    ["user.passwordMustChange.set", "user.passwordMustChange.clear", "user.password.reset"]
  | .userPasswordNeverExpiresClear => ["user.passwordNeverExpires.set", "user.passwordNeverExpires.clear"]
  | .userMove => ["user.move"]
  | .userAccountExpirySet => ["user.accountExpiry.set"]
  | .userUpdate => ["user.update"]
  | .userGroupAdd | .userGroupRemove => ["user.group.add", "user.group.remove"]

inductive VerdictKind
  | revert
  | modified
  | unchanged
deriving DecidableEq, Repr

structure Verdict (τ : Type) where
  kind : VerdictKind
  pending : List Facet
  drift : List Facet
  changedSince : Option τ

/-- Where one facet stands. -/
inductive Standing
  | back
  | pending
  | drift
deriving DecidableEq, Repr

def Facet.standing (f : Facet) (now : AccountNow) : Standing :=
  match f.read now with
  | none => .pending
  | some value =>
    if f.same value f.before then .back
    else
      match f.after with
      | none => .pending
      | some left => if f.same value left then .pending else .drift

/-- Where a row stands now. Anything back as it was before is done. A row with something changed
to another value since, or `touched`, is modified; one with something still as the job left it, or
unknown, is reverted. -/
def judge {τ : Type} (facets : List Facet) (now : AccountNow) (touched : Option τ) : Verdict τ :=
  let pending := facets.filter fun f => f.standing now = .pending
  let drift := facets.filter fun f => f.standing now = .drift
  if 0 < drift.length then ⟨.modified, pending, drift, none⟩
  else if pending.length = 0 then ⟨.unchanged, pending, drift, none⟩
  else
    match touched with
    | some reason => ⟨.modified, pending, drift, some reason⟩
    | none => ⟨.revert, pending, drift, none⟩

variable {f : Facet} {now : AccountNow}

theorem standing_back : f.standing now = .back ↔ f.Back now := by
  unfold Facet.standing Facet.Back
  cases f.read now with
  | none => simp
  | some value =>
    by_cases same : f.same value f.before = true
    · simp [same]
    · cases f.after with
      | none => simp [same]
      | some left =>
        by_cases kept : f.same value left = true <;> simp [same, kept]

theorem standing_drift : f.standing now = .drift ↔ ¬f.Untouched now := by
  unfold Facet.standing Facet.Untouched
  cases f.read now with
  | none => simp
  | some value =>
    by_cases same : f.same value f.before = true
    · simp [same]
    · cases f.after with
      | none => simp [same]
      | some left =>
        by_cases kept : f.same value left = true <;> simp [same, kept]

section Judge
variable {τ : Type} {facets : List Facet} {touched : Option τ}

theorem not_drift : ¬0 < (facets.filter fun f => f.standing now = .drift).length ↔
    ∀ f ∈ facets, f.Untouched now := by
  rw [Nat.not_lt, Nat.le_zero, List.length_eq_zero_iff, List.filter_eq_nil_iff]
  simp [standing_drift]

theorem not_pending : (facets.filter fun f => f.standing now = .pending).length = 0 ↔
    ∀ f ∈ facets, f.standing now ≠ .pending := by
  rw [List.length_eq_zero_iff, List.filter_eq_nil_iff]
  simp

/-- The verdict is "unchanged" exactly when every facet is known and back as it was. -/
theorem judge_unchanged : (judge facets now touched).kind = .unchanged ↔ ∀ f ∈ facets, f.Back now := by
  have all : (∀ f ∈ facets, f.Back now) ↔
      (∀ f ∈ facets, f.Untouched now) ∧ ∀ f ∈ facets, f.standing now ≠ .pending := by
    rw [← forall₂_and]
    refine forall₂_congr fun f _ => ?_
    rw [← standing_back, ← not_not (a := f.Untouched now), ← standing_drift]
    cases f.standing now <;> simp
  rw [all, ← not_drift, ← not_pending]
  unfold judge
  by_cases drifts : 0 < (facets.filter fun f => f.standing now = .drift).length
  · dsimp only
    rw [if_pos drifts]
    exact iff_of_false (by simp) fun kept => kept.1 drifts
  · dsimp only
    rw [if_neg drifts]
    by_cases none : (facets.filter fun f => f.standing now = .pending).length = 0
    · rw [if_pos none]
      exact iff_of_true rfl ⟨drifts, none⟩
    · rw [if_neg none]
      refine iff_of_false ?_ fun kept => none kept.2
      cases touched <;> simp

/-- The verdict is "revert" only where nothing drifted, something isn't known to be back, and
the account wasn't written again. -/
theorem judge_revert : (judge facets now touched).kind = .revert ↔
    (∀ f ∈ facets, f.Untouched now) ∧ (∃ f ∈ facets, ¬f.Back now) ∧ touched = none := by
  have notBack : (∃ f ∈ facets, ¬f.Back now) ↔ (judge facets now touched).kind ≠ .unchanged := by
    rw [Ne, judge_unchanged]
    simp
  rw [notBack, ← not_drift]
  unfold judge
  dsimp only
  by_cases drifts : 0 < (facets.filter fun f => f.standing now = .drift).length
  · rw [if_pos drifts]
    exact iff_of_false (by simp) fun kept => kept.1 drifts
  · rw [if_neg drifts]
    by_cases none : (facets.filter fun f => f.standing now = .pending).length = 0
    · rw [if_pos none]
      exact iff_of_false (by simp) fun kept => kept.2.1 rfl
    · rw [if_neg none]
      cases touched with
      | none => exact iff_of_true rfl ⟨drifts, by simp, rfl⟩
      | some reason => exact iff_of_false (by simp) fun kept => by simpa using kept.2.2

end Judge

end OpenAduc.Reverts
