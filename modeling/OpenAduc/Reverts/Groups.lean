import OpenAduc.Reverts.Effects

namespace OpenAduc.Reverts
open Naming (Text text)
open BulkJobs (GroupChange BulkMembershipOp CachedGroup Changes)
open Attempt (exec exec_bind)

section Memberships
variable {env : Env} {op : BulkMembershipOp} {primaryGroupId : Option String}

/-- The user is in the group as their primary one. -/
def Env.Primary (env : Env) (user : DirectoryUser) (id : String) : Prop :=
  ∃ group, env.groups.get id = some group ∧ BulkJobs.membershipState group user.rest.primaryGroupID
    false = .primary

/-- As the operation makes it: a primary group counts as one the user is in. -/
def AsAsked (env : Env) (op : BulkMembershipOp) (primaryGroupId : Option String)
    (memberOf : List String) (id : String) : Prop :=
  match op with
  | .remove => id ∉ memberOf
  | .add => id ∈ memberOf ∨
      ∃ group, env.groups.get id = some group ∧ BulkJobs.membershipState group primaryGroupId false = .primary

/-- One operation's changes all go one way. -/
def Toward (op : BulkMembershipOp) (memberOf memberOf' : List String) : Prop :=
  match op with
  | .remove => ∀ id ∈ memberOf', id ∈ memberOf
  | .add => ∀ id ∈ memberOf, id ∈ memberOf'

theorem Toward.refl (memberOf : List String) : Toward op memberOf memberOf := by
  cases op <;> exact fun _ member => member

theorem Toward.trans {a b c : List String} (first : Toward op a b) (second : Toward op b c) :
    Toward op a c := by
  cases op with
  | add => exact fun id member => second id (first id member)
  | remove => exact fun id member => first id (second id member)

theorem AsAsked.toward {memberOf memberOf' : List String} {id : String}
    (asked : AsAsked env op primaryGroupId memberOf id)
    (toward : Toward op memberOf memberOf') : AsAsked env op primaryGroupId memberOf' id := by
  cases op with
  | add => exact asked.imp_left (toward id)
  | remove => exact fun member => asked (toward id member)

/-- What one group's change comes to: it touches that group only, toward what is asked; where the
row goes on with no failure the group is as asked, and where nothing changed it was so before. -/
structure GroupStep (env : Env) (op : BulkMembershipOp) (primaryGroupId : Option String)
    (c : Changes) (memberOf : List String)
    (ids : List String) (ended : Except Bool Changes) (memberOf' : List String) : Prop where
  others : ∀ id ∉ ids, (id ∈ memberOf' ↔ id ∈ memberOf)
  toward : Toward op memberOf memberOf'
  failures : ∀ c', ended = .ok c' → c.failures ≠ [] → c'.failures ≠ []
  changes : ∀ c', ended = .ok c' → c.changes ≠ [] → c'.changes ≠ []
  done : ∀ c', ended = .ok c' → c'.failures = [] → ∀ id ∈ ids, AsAsked env op primaryGroupId memberOf' id
  nothing : ∀ c', ended = .ok c' → c'.failures = [] → c'.changes = [] → memberOf' = memberOf

theorem setChange_ne_nil {changes : List GroupChange} {change : GroupChange} :
    BulkJobs.setChange changes change ≠ [] := by
  unfold BulkJobs.setChange
  split
  next has =>
    obtain ⟨g, member, _⟩ := has
    simpa using List.ne_nil_of_mem member
  next => simp

/-- A membership's write goes towards what was asked, of that group only. -/
theorem writeMember_toward {groupId : String} {memberOf : List String} :
    Toward op memberOf (writeMember env op groupId memberOf).2 ∧
      ∀ id, id ≠ groupId → (id ∈ (writeMember env op groupId memberOf).2 ↔ id ∈ memberOf) := by
  unfold writeMember
  cases env.member groupId with
  | some fault => cases fault <;> exact ⟨.refl _, fun _ _ => Iff.rfl⟩
  | none =>
    cases op with
    | add =>
      dsimp only
      split
      · exact ⟨.refl _, fun _ _ => Iff.rfl⟩
      · exact ⟨fun _ member => List.mem_append_left _ member, fun id other => by simp [other]⟩
    | remove => exact ⟨fun _ member => (List.mem_filter.mp member).1, fun id other => by simp [other]⟩

/-- The user's groups once one group has been dealt with. -/
def groupsAfter (env : Env) (op : BulkMembershipOp) (primaryGroupId : Option String)
    (groupId : String) (memberOf : List String) :
    List String :=
  if writes env op primaryGroupId groupId then (writeMember env op groupId memberOf).2 else memberOf

variable (env op primaryGroupId) in
theorem groupsAfter_toward (groupId : String) (memberOf : List String) :
    Toward op memberOf (groupsAfter env op primaryGroupId groupId memberOf) ∧
      ∀ id, id ≠ groupId → (id ∈ groupsAfter env op primaryGroupId groupId memberOf ↔ id ∈ memberOf) := by
  unfold groupsAfter
  split
  · exact writeMember_toward
  · exact ⟨.refl _, fun _ _ => Iff.rfl⟩

variable (primaryGroupId) in
/-- A write that was made leaves the group as asked; where the user was so already it leaves
their groups alone. -/
theorem writeMember_ok {groupId : String} {memberOf : List String} {isMember : Bool}
    (ok : (writeMember env op groupId memberOf).1.write = .ok isMember) :
    AsAsked env op primaryGroupId (writeMember env op groupId memberOf).2 groupId ∧
      isMember = memberOf.contains groupId ∧
      (isMember = decide (op = .add) → (writeMember env op groupId memberOf).2 = memberOf) := by
  unfold writeMember at *
  cases answered : env.member groupId with
  | some fault =>
    simp only [answered] at ok
    cases fault <;> cases ok
  | none =>
    simp only [answered] at ok
    cases ok
    cases op with
    | add =>
      dsimp only
      by_cases inside : memberOf.contains groupId = true
      · rw [if_pos inside]
        exact ⟨Or.inl (List.contains_iff_mem.mp inside), rfl, fun _ => rfl⟩
      · rw [if_neg inside]
        exact ⟨Or.inl (by simp), rfl, fun same => absurd same inside⟩
    | remove =>
      refine ⟨?_, rfl, fun outside => List.filter_eq_self.mpr fun id member => ?_⟩
      · show groupId ∉ memberOf.filter _
        simp
      · have differs : groupId ∉ memberOf := by simpa using outside
        simpa using fun same : id = groupId => differs (same ▸ member)

/-- What is left alone was as asked: in its member list for an add, out of it for a removal. -/
theorem isMember_of_alreadyAsAsked {group : CachedGroup} {isMember : Bool}
    (kept : BulkJobs.alreadyAsAsked op (BulkJobs.membershipState group primaryGroupId isMember) = true)
    (notPrimary : ¬(op = .add ∧ BulkJobs.membershipState group primaryGroupId false = .primary)) :
    isMember = decide (op = .add) := by
  cases isMember with
  | true =>
    have direct : BulkJobs.membershipState group primaryGroupId true = .direct := rfl
    rw [direct] at kept
    cases op with
    | add => rfl
    | remove => cases kept
  | false =>
    cases op with
    | remove => rfl
    | add =>
      have state : BulkJobs.membershipState group primaryGroupId false = .direct ∨
          BulkJobs.membershipState group primaryGroupId false = .primary := of_decide_eq_true kept
      rcases state with direct | primary
      · unfold BulkJobs.membershipState at direct
        simp only [Bool.false_eq_true, if_false] at direct
        split at direct
        · split at direct <;> cases direct
        · cases direct
      · exact absurd ⟨rfl, primary⟩ notPrimary

/-- A group's turn fails, finds nothing to do, or writes the one membership. -/
theorem changeGroup_step {groupId : String} {memberOf : List String} {c c' : Changes} {stop : Bool}
    (ended : BulkJobs.changeGroup op primaryGroupId env.groups.get
      (fun _ => (writeMember env op groupId memberOf).1) c groupId =
      .ok (c', stop)) :
    (c'.failures ≠ [] ∧ c'.changes = c.changes) ∨
      (stop = false ∧ c'.failures = c.failures ∧
        AsAsked env op primaryGroupId (groupsAfter env op primaryGroupId groupId memberOf) groupId ∧
        ((c'.changes = c.changes ∧ groupsAfter env op primaryGroupId groupId memberOf = memberOf) ∨
          c'.changes ≠ [])) := by
  have failed : ∀ code text, (c.fail code text).failures ≠ [] ∧ (c.fail code text).changes = c.changes := by
    intro code text
    exact ⟨by simp [Changes.fail], rfl⟩
  unfold BulkJobs.changeGroup at ended
  split at ended
  next =>
    split at ended <;> cases ended
    exact Or.inl (failed _ _)
  next group cached =>
    split at ended
    next primary =>
      split at ended <;> cases ended
      have same : groupsAfter env op primaryGroupId groupId memberOf = memberOf := by
        unfold groupsAfter writes
        simp [cached, primary]
      refine Or.inr ⟨rfl, rfl, ?_, Or.inl ⟨rfl, same⟩⟩
      rw [primary.1]
      exact Or.inr ⟨group, cached, primary.2⟩
    next notPrimary =>
      have made : groupsAfter env op primaryGroupId groupId memberOf =
        (writeMember env op groupId memberOf).2 := by
        unfold groupsAfter writes
        simp only [cached]
        exact if_pos (decide_eq_true notPrimary)
      rw [made]
      split at ended
      · cases ended
      · split at ended
        next => cases ended
        next =>
          cases ended
          exact Or.inl (failed _ _)
        next =>
          cases ended
          exact Or.inl (failed _ _)
        next isMember ok =>
          obtain ⟨asked, was, already⟩ := writeMember_ok primaryGroupId ok
          split at ended
          next kept =>
            cases ended
            exact Or.inr ⟨rfl, rfl, asked, Or.inl ⟨rfl, already (isMember_of_alreadyAsAsked kept notPrimary)⟩⟩
          next =>
            cases ended
            exact Or.inr ⟨rfl, rfl, asked, Or.inr setChange_ne_nil⟩

theorem writeGroups_cons {groupId : String} {rest : List String} {c : Changes} {memberOf : List String} :
    writeGroups env op primaryGroupId c memberOf (groupId :: rest) =
      match BulkJobs.changeGroup op primaryGroupId env.groups.get
      (fun _ => (writeMember env op groupId memberOf).1) c groupId with
      | .error audited => (.error audited, groupsAfter env op primaryGroupId groupId memberOf)
      | .ok (c', true) => (.ok c', groupsAfter env op primaryGroupId groupId memberOf)
      | .ok (c', false) =>
        writeGroups env op primaryGroupId c' (groupsAfter env op primaryGroupId groupId memberOf) rest := rfl

/-- What the row's groups come to, in order. -/
theorem writeGroups_step {ids : List String} {c : Changes} {memberOf : List String} :
    GroupStep env op primaryGroupId c memberOf ids (writeGroups env op primaryGroupId c memberOf ids).1
      (writeGroups env op primaryGroupId c memberOf ids).2 := by
  induction ids generalizing c memberOf with
  | nil =>
    refine ⟨fun _ _ => Iff.rfl, .refl _, ?_, ?_, ?_, ?_⟩
    · intro c' same failed
      cases same
      exact failed
    · intro c' same changed
      cases same
      exact changed
    · intro c' same none id member
      exact nomatch member
    · intro c' same none none'
      rfl
  | cons groupId rest ih =>
    obtain ⟨toward, others⟩ := groupsAfter_toward env op primaryGroupId groupId memberOf
    have one : ∀ id ∉ groupId :: rest,
      (id ∈ groupsAfter env op primaryGroupId groupId memberOf ↔ id ∈ memberOf) := by
      intro id outside
      exact others id fun same => outside (same ▸ List.mem_cons_self)
    rw [writeGroups_cons]
    split
    next audited ended => exact ⟨one, toward, fun _ same => (nomatch same), fun _ same => (nomatch same),
        fun _ same => (nomatch same), fun _ same => (nomatch same)⟩
    next c' ended =>
      obtain ⟨failed, same⟩ := (changeGroup_step ended).resolve_right fun other => Bool.noConfusion other.1
      refine ⟨one, toward, ?_, ?_, ?_, ?_⟩
      · rintro _ ⟨⟩ _
        exact failed
      · rintro _ ⟨⟩ changed
        rwa [same]
      · rintro _ ⟨⟩ none
        exact absurd none failed
      · rintro _ ⟨⟩ none
        exact absurd none failed
    next c' ended =>
      have later : GroupStep env op primaryGroupId c'
        (groupsAfter env op primaryGroupId groupId memberOf) rest _ _ := ih
      have step := changeGroup_step ended
      refine ⟨fun id outside => ?_, toward.trans later.toward, fun _ same failed =>
        ?_, fun _ same changed => ?_,
        fun _ same none id member => ?_, fun _ same none none' => ?_⟩
      · exact (later.others id fun inside => outside (List.mem_cons_of_mem _ inside)).trans (one id outside)
      · refine later.failures _ same ?_
        rcases step with ⟨failed', _⟩ | ⟨_, kept, _⟩
        · exact failed'
        · rwa [kept]
      · refine later.changes _ same ?_
        rcases step with ⟨_, kept⟩ | ⟨_, _, _, ⟨kept, _⟩ | changed'⟩
        · rwa [kept]
        · rwa [kept]
        · exact changed'
      · have going : c'.failures = [] := by
          by_contra failed
          exact later.failures _ same failed none
        obtain ⟨_, _, asked, _⟩ := step.resolve_left fun failed => failed.1 going
        rcases List.mem_cons.mp member with rfl | inside
        · exact asked.toward later.toward
        · exact later.done _ same none id inside
      · have going : c'.failures = [] := by
          by_contra failed
          exact later.failures _ same failed none
        have still : c'.changes = [] := by
          by_contra changed
          exact later.changes _ same changed none'
        obtain ⟨_, _, _, ⟨_, kept⟩ | changed⟩ := step.resolve_left fun failed => failed.1 going
        · exact (later.nothing _ same none none').trans kept
        · exact absurd still changed

theorem membershipOutcome_ok {c : Changes} {unchanged : Bool}
    {reason : Option (BulkJobs.RowErrorCode × Text)} {b a : Option Snapshot}
    (same : membershipOutcome op c = .ok unchanged reason b a) :
    c.failures = [] ∧ reason = none ∧ (unchanged = true → c.changes = []) := by
  unfold membershipOutcome BulkJobs.membershipOutcome at same
  cases failed : c.failures with
  | nil =>
    simp only [failed] at same
    cases same
    exact ⟨rfl, rfl, of_decide_eq_true⟩
  | cons first rest =>
    obtain ⟨code, text⟩ := first
    simp only [failed] at same
    cases same

/-- The world once a membership row's groups have been written. -/
def World.withGroups (w : World) (id : BitVec 128) (memberOf : List String) : World :=
  { w with rest := Function.update w.rest id { w.rest id with memberOf } }

/-- How a membership row ends. -/
structure MembershipRow (env : Env) (op : BulkMembershipOp) (groupIds : List String)
    (user : DirectoryUser) (w : World)
    (answer : Except Thrown RevertOutcome) (w' : World) : Prop where
  world : w' = w ∧ (∀ outcome, answer ≠ .ok outcome) ∨ ∃ c ended memberOf,
    GroupStep env op user.rest.primaryGroupID c (w.rest user.entry.objectGuid).memberOf groupIds
      ended memberOf ∧
    w' = w.withGroups user.entry.objectGuid memberOf ∧
    ∀ unchanged reason b a, answer = .ok (.ok unchanged reason b a) →
      ∃ c', ended = .ok c' ∧ c'.failures = [] ∧ reason = none ∧ (unchanged = true → c'.changes = [])

/-- A membership row moves the user towards what was asked, and tells what it moved. -/
theorem exec_membershipRow {after : Option Snapshot} {groupIds : List String} {user : DirectoryUser}
    {w w' : World}
    {answer : Except Thrown RevertOutcome}
    (ran : exec (membershipRow env op after groupIds user) w = (answer, w')) :
    MembershipRow env op groupIds user w answer w' := by
  unfold membershipRow at ran
  rw [exec_bind] at ran
  rcases exec_atSite_pure env .groupCache () w with read | ⟨thrown, read⟩
  · rw [read] at ran
    dsimp only at ran
    rw [exec_bind, exec_made] at ran
    dsimp only at ran
    refine ⟨Or.inr ⟨startChanges after, _, _, writeGroups_step, ?_⟩⟩
    split at ran
    next audited ended =>
      cases ran
      exact ⟨rfl, fun _ _ _ _ same => nomatch same⟩
    next c ended =>
      split at ran
      · cases ran
        exact ⟨rfl, fun _ _ _ _ same => nomatch same⟩
      · cases ran
        refine ⟨rfl, fun unchanged reason b a same => ?_⟩
        obtain ⟨none, noReason, nothing⟩ := membershipOutcome_ok (Except.ok.inj same)
        exact ⟨c, ended, none, noReason, nothing⟩
  · rw [read] at ran
    cases ran
    exact ⟨Or.inl ⟨rfl, fun _ same => nomatch same⟩⟩

end Memberships

end OpenAduc.Reverts
