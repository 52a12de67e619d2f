import OpenAduc.BulkJobs.Store

namespace OpenAduc.BulkJobs

inductive BulkMembershipOp
  | add
  | remove
  deriving DecidableEq, Repr

/-- What `membershipState` reads of a group's SID. -/
structure Sid where
  isDomainSid : Bool
  ridOf : Option Nat
  deriving DecidableEq, Repr

structure CachedGroup where
  id : String
  name : String
  sid : Option Sid
  deriving DecidableEq, Repr

inductive MembershipState
  | direct
  | primary
  | nested
  | none
  deriving DecidableEq, Repr

/-- How the user is in the group; a membership job never asks after nested groups. -/
def membershipState (group : CachedGroup) (primaryGroupId : Option String) (direct : Bool) :
    MembershipState :=
  if direct then .direct
  else
    match group.sid with
    | some ⟨true, some rid⟩ => if primaryGroupId = some (toString rid) then .primary else .none
    | _ => .none

/-- Whether a membership job leaves this user alone. -/
def alreadyAsAsked (op : BulkMembershipOp) (state : MembershipState) : Bool :=
  match op with
  | .add => state = .direct ∨ state = .primary
  | .remove => state ≠ .direct

/-- An entry of a membership row's snapshots: a group, and whether the user is in it. -/
structure GroupChange where
  id : String
  name : String
  isMember : Bool
  deriving DecidableEq, Repr

/-- `before_json` and `after_json`: a membership row's groups, or another job's snapshot. -/
inductive RowSnapshot
  | membership (groups : List GroupChange)
  | other (json : String)
  deriving DecidableEq, Repr

/-- `input_json`: a membership row's groups, or another job's input. -/
inductive RowInput
  | membership (groupIds : List String)
  | other (json : String)
  deriving DecidableEq, Repr

/-- The groups a membership row's after-snapshot says it changed. -/
def changedGroups : Option RowSnapshot → List GroupChange
  | some (.membership groups) => groups
  | _ => []

/-- `changes.set`: an entry keeps its place, a new one goes last. -/
def setChange (changes : List GroupChange) (change : GroupChange) : List GroupChange :=
  if ∃ g ∈ changes, g.id = change.id then changes.map fun g => if g.id = change.id then change else g
  else changes ++ [change]

/-- How one group's write ended; `isMember` is whether the user was in it before. -/
inductive WriteAnswer
  | ok (isMember : Bool)
  | refused (errorCode : Option RowErrorCode) (errorMessage : Option String)
  | unavailable
  | threw
  deriving DecidableEq, Repr

/-- What a row's run is answered about one group; `audited` is whether its event is stored. -/
structure GroupAnswer where
  write : WriteAnswer
  audited : Bool
  deriving DecidableEq, Repr

/-- How the live read of the user ended. -/
inductive RefreshAnswer
  | found (primaryGroupId : Option String)
  | gone
  | unavailable
  | threw
  deriving DecidableEq, Repr

/-- Everything a membership row's run is answered: the live read, the groups the
cache holds (none where reading it threw), each group's write, and whether
the cache could be brought up to date. -/
structure MembershipEnv where
  refresh : RefreshAnswer
  groups : Option (String → Option CachedGroup)
  answer : String → GroupAnswer
  refreshed : Bool

def notDone : BulkMembershipOp → String
  | .add => "Not added to"
  | .remove => "Not removed from"

/-- Why one group's change in a membership row failed, naming the group. -/
def membershipFailure (op : BulkMembershipOp) (groupName : String) (code : RowErrorCode)
    (detail : Option String) : String :=
  let head := notDone op ++ " " ++ groupName
  let reason := (detail.filter (· ≠ "")).elim "." (": " ++ ·)
  match code with
  | .notFound => head ++ ": the group or the account is no longer in the directory."
  | .other "conflict" => head ++ ": the directory refused it as a conflict" ++ reason
  | .permissionDenied | .other "policy_violation" => head ++ ": the directory refused the change" ++ reason
  | .directoryUnavailable => head ++ ": no domain controller could be reached."
  | _ => head ++ ": the change failed" ++ reason

/-- What a row's run has come to so far. -/
structure Changes where
  changes : List GroupChange
  changedNow : List String
  failures : List (RowErrorCode × String)
  deriving DecidableEq, Repr

namespace Changes

def fail (c : Changes) (code : RowErrorCode) (text : String) : Changes :=
  { c with failures := c.failures ++ [(code, text)] }

def change (c : Changes) (op : BulkMembershipOp) (group : CachedGroup) : Changes :=
  { c with
    changes := setChange c.changes { id := group.id, name := group.name, isMember := op = .add }
    changedNow := c.changedNow ++ [group.name] }

end Changes

/-- How one group of a row ended: the loop goes on, or breaks; an error says
whether it was audited. -/
abbrev GroupResult := Except Bool (Changes × Bool)

/-- One group's change, audited. -/
def changeGroup (op : BulkMembershipOp) (primaryGroupId : Option String)
    (cached : String → Option CachedGroup)
    (answer : String → GroupAnswer) (c : Changes) (groupId : String) : GroupResult :=
  match cached groupId with
  | none =>
    if (answer groupId).audited then
      .ok (c.fail .notFound (notDone op ++ " a group that’s no longer in the directory."), false)
    else .error false
  | some group =>
    if op = .add ∧ membershipState group primaryGroupId false = .primary then
      if (answer groupId).audited then .ok (c, false) else .error false
    else if !(answer groupId).audited then .error false
    else
      match (answer groupId).write with
      | .threw => .error true
      | .unavailable =>
        .ok (c.fail .directoryUnavailable (membershipFailure op group.name .directoryUnavailable none), true)
      | .refused errorCode errorMessage =>
        let code := errorCode.getD (.other "directory_error")
        .ok (c.fail code (membershipFailure op group.name code errorMessage), false)
      | .ok isMember =>
        if alreadyAsAsked op (membershipState group primaryGroupId isMember) then .ok (c, false)
        else .ok (c.change op group, false)

/-- The row's groups in order, up to one no domain controller answers for. -/
def changeGroups (op : BulkMembershipOp) (primaryGroupId : Option String)
    (cached : String → Option CachedGroup)
    (answer : String → GroupAnswer) : Changes → List String → Except Bool Changes
  | c, [] => .ok c
  | c, groupId :: rest =>
    match changeGroup op primaryGroupId cached answer c groupId with
    | .error audited => .error audited
    | .ok (c', true) => .ok c'
    | .ok (c', false) => changeGroups op primaryGroupId cached answer c' rest

/-- The snapshots of the changes kept, and none where there are none. -/
def beforeOf (merged : List GroupChange) : Option RowSnapshot :=
  if merged = [] then none else some (.membership (merged.map fun g => { g with isMember := !g.isMember }))

def afterOf (merged : List GroupChange) : Option RowSnapshot :=
  if merged = [] then none else some (.membership merged)

def membershipOutcome (op : BulkMembershipOp) (c : Changes) : RowOutcome RowSnapshot :=
  let merged := c.changes
  match c.failures with
  | [] => .ok (merged = []) none (beforeOf merged) (afterOf merged) none
  | (code, _) :: _ =>
    let done := if merged = [] then "" else
      (match op with | .add => "Added to " | .remove => "Removed from ") ++
        ", ".intercalate (merged.map (·.name)) ++ ". "
    .failed code none (some (done ++ " ".intercalate (c.failures.map (·.2)))) (merged ≠ []) true
      (beforeOf merged) (afterOf merged) none

/-- Add the user, as just read live, to these groups or remove them. A retry
keeps what earlier runs changed. -/
def membershipRow (op : BulkMembershipOp) (after : Option RowSnapshot) (groupIds : List String)
    (primaryGroupId : Option String) (env : MembershipEnv) : RowResult RowSnapshot :=
  match env.groups with
  | none => .threw false
  | some cached =>
    match changeGroups op primaryGroupId cached env.answer
      { changes := (changedGroups after).foldl setChange [], changedNow := [], failures := [] } groupIds with
    | .error audited => .threw audited
    | .ok c => if c.changedNow ≠ [] ∧ !env.refreshed then .threw false else .returned (membershipOutcome op c)

/-- `groupMembershipHandler(op).run`, its input parsed first. -/
def groupMembershipRun (op : BulkMembershipOp) (row : RowRecord RowInput RowSnapshot) (env : MembershipEnv) :
    RowResult RowSnapshot :=
  match row.input with
  | .other _ => .threw false
  | .membership groupIds =>
    match env.refresh with
    | .unavailable => .threwUnavailable false
    | .threw => .threw false
    | .gone => .returned (.failed .notFound none none false false none none none)
    | .found primaryGroupId => membershipRow op row.after groupIds primaryGroupId env

/-- `groupMembershipHandler(op).rows`. -/
def groupMembershipRows (ids groupIds : List String) : List (BulkJobRowInput RowInput) :=
  ids.map fun id =>
    { targetId := some id.toLower, input := .membership (groupIds.map (·.toLower)), after := none }

theorem groupMembershipRows_target {ids groupIds : List String} :
    ∀ row ∈ groupMembershipRows ids groupIds, row.targetId.isSome := by
  intro row member
  obtain ⟨id, _, rfl⟩ := List.mem_map.mp member
  rfl

/-- The operation of a bulk membership job; a revert is none. -/
def membershipOp : BulkJobKind × Option JobId → Option BulkMembershipOp
  | (.userGroupAdd, none) => some .add
  | (.userGroupRemove, none) => some .remove
  | _ => none

/-- Every entry says what the operation makes of it. -/
def Consistent (op : BulkMembershipOp) (groups : List GroupChange) : Prop :=
  ∀ g ∈ groups, g.isMember = decide (op = .add)

/-- A list that has an entry for each of another's groups, saying the same of it. -/
def Keeps (old new : List GroupChange) : Prop :=
  ∀ g ∈ old, ∃ h ∈ new, h.id = g.id ∧ h.isMember = g.isMember

instance (old new : List GroupChange) : Decidable (Keeps old new) :=
  inferInstanceAs (Decidable (∀ _ ∈ _, _))

/-- A row's snapshots: its changes, and their exact negation. -/
def Snapshots (op : BulkMembershipOp) (before after : Option RowSnapshot) : Prop :=
  ∃ merged, Consistent op merged ∧ before = beforeOf merged ∧ after = afterOf merged

/-- An outcome that carries a row's earlier changes on, in a row a revert judges. -/
structure Carries (op : BulkMembershipOp) (old : List GroupChange)
    (outcome : RowOutcome RowSnapshot) : Prop where
  snapshots : Snapshots op outcome.before outcome.after
  keeps : Keeps old (changedGroups outcome.after)
  judged : changedGroups outcome.after ≠ [] → outcome.status ∈ [BulkJobRowStatus.succeeded, .partially]

theorem Keeps.refl (groups : List GroupChange) : Keeps groups groups :=
  fun g member => ⟨g, member, rfl, rfl⟩

theorem Keeps.trans {a b c : List GroupChange} (first : Keeps a b) (second : Keeps b c) : Keeps a c := by
  intro g member
  obtain ⟨h, memberH, sameId, same⟩ := first g member
  obtain ⟨i, memberI, sameId', same'⟩ := second h memberH
  exact ⟨i, memberI, sameId'.trans sameId, same'.trans same⟩

@[simp] theorem changedGroups_afterOf {merged : List GroupChange} :
    changedGroups (afterOf merged) = merged := by
  unfold afterOf
  split
  next none => exact none.symm
  next => rfl

theorem Snapshots.consistent {op : BulkMembershipOp} {before after : Option RowSnapshot}
    (snapshots : Snapshots op before after) : Consistent op (changedGroups after) := by
  obtain ⟨merged, consistent, _, rfl⟩ := snapshots
  rwa [changedGroups_afterOf]

theorem Snapshots.nothing {op : BulkMembershipOp} : Snapshots op none none :=
  ⟨[], by simp [Consistent], rfl, rfl⟩

/-- Where a row holds changes, it holds both snapshots of them. -/
theorem Snapshots.both {op : BulkMembershipOp} {before after : Option RowSnapshot}
    (snapshots : Snapshots op before after) (some : changedGroups after ≠ []) :
    before.isSome ∧ after.isSome := by
  obtain ⟨merged, _, rfl, rfl⟩ := snapshots
  rw [changedGroups_afterOf] at some
  simp [beforeOf, afterOf, some]

variable {op : BulkMembershipOp} {changes : List GroupChange} {change : GroupChange}

/-- Between consistent lists, keeping a group's entry is keeping what it says. -/
theorem keeps_of_ids {old new : List GroupChange} (before : Consistent op old) (after : Consistent op new)
    (ids : ∀ g ∈ old, ∃ h ∈ new, h.id = g.id) : Keeps old new := by
  intro g member
  obtain ⟨h, memberH, same⟩ := ids g member
  exact ⟨h, memberH, same, (after h memberH).trans (before g member).symm⟩

/-- A group's new entry agrees with the operation, so the list still does. -/
theorem consistent_setChange (consistent : Consistent op changes)
    (new : change.isMember = decide (op = .add)) :
    Consistent op (setChange changes change) := by
  intro g member
  unfold setChange at member
  split at member
  next =>
    obtain ⟨h, memberH, rfl⟩ := List.mem_map.mp member
    split
    next => exact new
    next => exact consistent h memberH
  next =>
    rcases List.mem_append.mp member with old | added
    · exact consistent g old
    · rw [List.mem_singleton.mp added]
      exact new

/-- Setting an entry leaves every group one, and gives its group one. -/
theorem id_setChange {id : String} :
    (∃ h ∈ setChange changes change, h.id = id) ↔ (∃ h ∈ changes, h.id = id) ∨ change.id = id := by
  unfold setChange
  split
  next has =>
    obtain ⟨g, member, same⟩ := has
    constructor
    · rintro ⟨h, memberH, rfl⟩
      obtain ⟨i, memberI, rfl⟩ := List.mem_map.mp memberH
      split
      next => exact .inr rfl
      next => exact .inl ⟨i, memberI, rfl⟩
    · rintro (⟨h, memberH, rfl⟩ | rfl)
      · refine ⟨_, List.mem_map_of_mem memberH, ?_⟩
        split
        next set => exact set.symm
        next => rfl
      · refine ⟨_, List.mem_map_of_mem member, ?_⟩
        rw [if_pos same]
  next => simp only [List.mem_append, List.mem_singleton, or_and_right, exists_or, exists_eq_left]

/-- The map an earlier run's changes are read into has each of them. -/
theorem foldl_setChange {old base : List GroupChange} (before : Consistent op old)
    (start : Consistent op base) :
    Consistent op (old.foldl setChange base) ∧
      (∀ g ∈ base, ∃ h ∈ old.foldl setChange base, h.id = g.id) ∧
        ∀ g ∈ old, ∃ h ∈ old.foldl setChange base, h.id = g.id := by
  induction old generalizing base with
  | nil => exact ⟨start, fun g member => ⟨g, member, rfl⟩, by simp⟩
  | cons c rest ih =>
    have first := consistent_setChange start (before c List.mem_cons_self)
    obtain ⟨consistent, kept, all⟩ := ih (fun g member => before g (List.mem_cons_of_mem _ member)) first
    have onwards : ∀ {id}, (∃ h ∈ setChange base c, h.id = id) →
      ∃ h ∈ rest.foldl setChange (setChange base c), h.id = id := by
      rintro _ ⟨h, member, rfl⟩
      exact kept h member
    refine ⟨consistent, fun g member => onwards (id_setChange.mpr (.inl ⟨g, member, rfl⟩)),
      fun g member => ?_⟩
    rcases List.mem_cons.mp member with rfl | later
    · exact onwards (id_setChange.mpr (.inr rfl))
    · exact all g later

section Run
variable {primaryGroupId : Option String} {cached : String → Option CachedGroup}
    {answer : String → GroupAnswer}

/-- One group's change loses no earlier one. -/
theorem changeGroup_keeps {c c' : Changes} {groupId : String} {stop : Bool}
    (ended : changeGroup op primaryGroupId cached answer c groupId = .ok (c', stop))
    (consistent : Consistent op c.changes) :
    Consistent op c'.changes ∧ ∀ g ∈ c.changes, ∃ h ∈ c'.changes, h.id = g.id := by
  have same : Consistent op c.changes ∧ ∀ g ∈ c.changes, ∃ h ∈ c.changes, h.id = g.id :=
    ⟨consistent, fun g member => ⟨g, member, rfl⟩⟩
  unfold changeGroup at ended
  split at ended
  next =>
    split at ended <;> cases ended
    exact same
  next =>
    split at ended
    next =>
      split at ended <;> cases ended
      exact same
    next =>
      split at ended
      · cases ended
      · split at ended
        next => cases ended
        next =>
          cases ended
          exact same
        next =>
          cases ended
          exact same
        next =>
          split at ended <;> cases ended
          · exact same
          · exact ⟨consistent_setChange consistent rfl,
              fun g member => id_setChange.mpr (.inl ⟨g, member, rfl⟩)⟩

/-- The loop over the groups drops no entry it was given, and each says what the operation makes of
it. -/
theorem changeGroups_keeps {c c' : Changes} {groupIds : List String}
    (ended : changeGroups op primaryGroupId cached answer c groupIds = .ok c')
    (consistent : Consistent op c.changes) :
    Consistent op c'.changes ∧ ∀ g ∈ c.changes, ∃ h ∈ c'.changes, h.id = g.id := by
  induction groupIds generalizing c with
  | nil =>
    cases ended
    exact ⟨consistent, fun g member => ⟨g, member, rfl⟩⟩
  | cons groupId rest ih =>
    unfold changeGroups at ended
    split at ended
    next => cases ended
    next one =>
      cases ended
      exact changeGroup_keeps one consistent
    next mid one =>
      obtain ⟨first, kept⟩ := changeGroup_keeps one consistent
      obtain ⟨last, kept'⟩ := ih ended first
      refine ⟨last, fun g member => ?_⟩
      obtain ⟨h, memberH, same⟩ := kept g member
      obtain ⟨i, memberI, same'⟩ := kept' h memberH
      exact ⟨i, memberI, same'.trans same⟩

end Run

theorem membershipOutcome_after {c : Changes} : (membershipOutcome op c).after = afterOf c.changes := by
  unfold membershipOutcome
  split <;> rfl

theorem membershipOutcome_carries {c : Changes} (consistent : Consistent op c.changes)
    {old : List GroupChange}
    (keeps : Keeps old c.changes) : Carries op old (membershipOutcome op c) := by
  have before : (membershipOutcome op c).before = beforeOf c.changes := by
    unfold membershipOutcome
    split <;> rfl
  refine ⟨⟨c.changes, consistent, before, membershipOutcome_after⟩, ?_, fun some => ?_⟩
  · rwa [membershipOutcome_after, changedGroups_afterOf]
  · rw [membershipOutcome_after, changedGroups_afterOf] at some
    unfold membershipOutcome
    split <;> simp [RowOutcome.status, some]

/-- A row that finds its account and throws nothing carries its earlier changes on. -/
theorem groupMembershipRun_carries {row : RowRecord RowInput RowSnapshot} {env : MembershipEnv}
    {outcome : RowOutcome RowSnapshot} (snapshots : Snapshots op row.before row.after)
    (found : env.refresh ≠ .gone)
    (ran : groupMembershipRun op row env = .returned outcome) :
    Carries op (changedGroups row.after) outcome := by
  unfold groupMembershipRun at ran
  split at ran
  next => cases ran
  next groupIds _ =>
    split at ran
    next => cases ran
    next => cases ran
    next gone => exact absurd gone found
    next primaryGroupId _ =>
      unfold membershipRow at ran
      split at ran
      next => cases ran
      next cached _ =>
        have none : Consistent op [] := by simp [Consistent]
        obtain ⟨start, _, all⟩ := foldl_setChange snapshots.consistent none
        split at ran
        next => cases ran
        next c ended =>
          split at ran
          · cases ran
          · cases ran
            obtain ⟨consistent, kept⟩ := changeGroups_keeps ended start
            exact membershipOutcome_carries consistent
              ((keeps_of_ids snapshots.consistent start all).trans (keeps_of_ids start consistent kept))

/-- An outcome without snapshots carries on a row that holds no changes. -/
theorem carries_nothing {outcome : RowOutcome RowSnapshot} (before : outcome.before = none)
    (after : outcome.after = none) : Carries op [] outcome := by
  refine ⟨?_, by simp [Keeps], ?_⟩
  · rw [before, after]
    exact .nothing
  · simp [after, changedGroups]

end OpenAduc.BulkJobs
