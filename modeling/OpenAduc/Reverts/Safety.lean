import OpenAduc.Reverts.Groups

namespace OpenAduc.Reverts
open Naming (Text text)
open Provider (Guid Entry)
open BulkJobs (GroupChange BulkMembershipOp RowErrorCode)
open Attempt (exec exec_bind)

def rowFacets (env : Env) (action : BulkRevertableAction) (row : RevertRow) : List Facet :=
  facets env.lower action row.input.before row.input.after

/-- Back as it was, the account's groups read too; a primary group put back counts as a group
the user is in. -/
def InPlace (env : Env) (action : BulkRevertableAction) (user : DirectoryUser) (f : Facet) : Prop :=
  f.Back (accountKnown env user) ∨ action = .userGroupRemove ∧ ∃ id, f.groupId = some id ∧ env.Primary user id

def selfManager : RowErrorCode × Text := (.other "self_manager", SELF_MANAGER_MESSAGE)

/-- A row that moves an account back sends names that are read as they were meant: the account's own
part of its name has no white space at its ends, and the OU's DN is as AD writes it. -/
def MovesAsNamed (env : Env) (action : BulkRevertableAction) (row : RevertRow) (w : World) : Prop :=
  action = .userMove → ∀ user, w.getUser row.targetId = some user →
    Naming.trim (env.spelling.rdn user.entry.rdn) = env.spelling.rdn user.entry.rdn ∧
    ∀ ou, originOf env row.input.before = some ou → Written env w.directory.containers ou.distinguishedName

/-- What putting a row back comes to. -/
structure Restored (env : Env) (action : BulkRevertableAction) (row : RevertRow)
    (user : DirectoryUser) (w : World)
    (answer : Except Thrown RevertOutcome) (w' : World) : Prop where
  wrote : MovesAsNamed env action row w → (w' ≠ w ∨ ∃ reason b a, answer = .ok (.ok false reason b a)) →
    ∃ user', w'.getUser row.targetId = some user' ∧ OnlyFacets action row.input.after user user' ∧
    (action.isMembership = false → ∀ f ∈ rowFacets env action row, f.Back (accountKnown env user')) ∧
    ∀ f ∈ rowFacets env action row, f.Back (accountKnown env user) → f.Back (accountKnown env user')
  done : ∀ unchanged b a, (unchanged = false → MovesAsNamed env action row w) →
    answer = .ok (.ok unchanged none b a) →
    ∃ user', w'.getUser row.targetId = some user' ∧ ∀ f ∈ rowFacets env action row, InPlace env action user' f
  unchanged : ∀ reason b a, answer = .ok (.ok true reason b a) →
    w' = w ∧ (reason = none ∨ action = .userUpdate ∧ reason = some selfManager)

section Restored
variable {env : Env} {action : BulkRevertableAction} {row : RevertRow} {user : DirectoryUser} {w w' : World}
  {answer : Except Thrown RevertOutcome}

/-- A row that wrote nothing and says so. -/
theorem Restored.nothing (failed : ∀ unchanged reason b a, answer ≠ .ok (.ok unchanged reason b a)) :
    Restored env action row user w answer w where
  wrote _ wrote := by
    rcases wrote with moved | ⟨reason, b, a, same⟩
    · exact absurd rfl moved
    · exact absurd same (failed false reason b a)
  done unchanged b a _ same := absurd same (failed unchanged none b a)
  unchanged reason b a same := absurd same (failed true reason b a)

/-- A row that is one account write, whose "as asked" means its facets are back and whose write
puts them back. -/
theorem Restored.of_account {account : AccountWrite} (found : w.getUser row.targetId = some user)
    (asked : (account.asAsked user).isSome → ∀ f ∈ rowFacets env action row, f.Back (accountKnown env user))
    (effect : MovesAsNamed env action row w →
      ((account.write w).2 ≠ w ∨ (account.write w).1.ok = true) → ∃ user',
      (account.write w).2.getUser row.targetId = some user' ∧ OnlyFacets action row.input.after user user' ∧
      ∀ f ∈ rowFacets env action row, f.Back (accountKnown env user'))
    (ran : exec (accountRow env row.targetId row.before row.after account) w = (answer, w')) :
    Restored env action row user w answer w' := by
  cases exec_accountRow ran with
  | threw thrown => exact .nothing fun _ _ _ _ same => nomatch same
  | gone => exact .nothing fun _ _ _ _ same => nomatch same
  | asAsked user₂ found₂ isAsked =>
    cases found.symm.trans found₂
    refine ⟨fun _ wrote => ?_, fun _ _ _ _ _ =>
      ⟨user, found, fun f member => Or.inl (asked isAsked f member)⟩,
      fun reason b a same => ?_⟩
    · rcases wrote with moved | ⟨reason, b, a, same⟩
      · exact absurd rfl moved
      · cases same
    · cases same
      exact ⟨rfl, Or.inl rfl⟩
  | made user₂ answer found₂ notAsked told =>
    cases found.symm.trans found₂
    refine ⟨fun named wrote => ?_, fun unchanged b a named same => ?_, fun reason b a same => ?_⟩
    · have written : (account.write w).2 ≠ w ∨ (account.write w).1.ok = true := by
        rcases wrote with moved | ⟨reason, b, a, same⟩
        · exact Or.inl moved
        · exact Or.inr (told false reason b a same).2
      obtain ⟨user', found', only, back⟩ := effect named written
      exact ⟨user', found', only, fun _ => back, fun f member _ => back f member⟩
    · obtain ⟨isWrite, ok⟩ := told unchanged none b a same
      obtain ⟨user', found', _, back⟩ := effect (named isWrite) (Or.inr ok)
      exact ⟨user', found', fun f member => Or.inl (back f member)⟩
    · exact Bool.noConfusion (told true reason b a same).1

theorem flag_back {key : Snapshot → Option Bool} {read : AccountNow → Bool}
    {before after : Snapshot} {now : AccountNow} :
    (flagFacet key read before after).Back now ↔ read now = decide (key before = some true) := by
  unfold Facet.Back flagFacet
  simp

theorem expiry_back {before after : Snapshot} {now : AccountNow} :
    (expiryFacet before after).Back now ↔ now.accountExpiresAt = before.accountExpiresAt.join.map (·.ms) := by
  unfold Facet.Back expiryFacet
  simp

theorem group_back {g : GroupChange} : (groupFacet g).Back (accountKnown env user) ↔
    user.rest.memberOf.contains g.id.toLower = !g.isMember := by
  unfold Facet.Back groupFacet accountKnown
  simp

/-- Enabling or disabling puts the flag back as it was. -/
theorem restored_flags (found : w.getUser row.targetId = some user)
    (flips : action = .userDisable ∨ action = .userEnable)
    (ran : exec (accountRow env row.targetId row.before row.after
      (flagWrite (ENABLE_USER env row.targetId) (DISABLE_USER env row.targetId)
        row.input.before.enabled)) w = (answer, w')) :
    Restored env action row user w answer w' := by
  rw [ENABLE_USER, DISABLE_USER, flagWrite_eq (setEnabled env row.targetId)] at ran
  have only : ∀ user', OnlyFacets .userDisable .empty user user' →
    OnlyFacets action row.input.after user user' := by
    intro user' only
    rcases flips with rfl | rfl <;> exact only
  have facets : rowFacets env action row =
    [flagFacet Snapshot.enabled AccountNow.enabled row.input.before row.input.after] := by
    rcases flips with rfl | rfl <;> rfl
  refine .of_account found (fun isAsked => Bool.noConfusion isAsked) (fun _ wrote => ?_) ran
  obtain ⟨user', found', set, rest⟩ := setEnabled_effect found wrote
  refine ⟨user', found', only user' rest, ?_⟩
  rw [facets]
  intro f member
  rw [List.mem_singleton.mp member, flag_back]
  exact set

/-- The password's must-change is put back as it was. -/
theorem restored_mustChange (found : w.getUser row.targetId = some user)
    (ran : exec (restore env .userPasswordMustChangeSet row user) w = (answer, w')) :
    Restored env .userPasswordMustChangeSet row user w answer w' := by
  rw [restore, REQUIRE_PASSWORD_CHANGE, CLEAR_PASSWORD_MUST_CHANGE,
    flagWrite_eq (setPasswordMustChange env row.targetId)] at ran
  refine .of_account found (fun isAsked f member => ?_) (fun _ wrote => ?_) ran
  · rw [List.mem_singleton.mp member, flag_back]
    by_contra differs
    have none : (setPasswordMustChange env row.targetId
      (decide (row.input.before.passwordMustChange = some true))).asAsked user = none :=
      if_neg differs
    rw [none] at isAsked
    cases isAsked
  · obtain ⟨user', found', set, only⟩ := setPasswordMustChange_effect found wrote
    refine ⟨user', found', only, fun f member => ?_⟩
    rw [List.mem_singleton.mp member, flag_back]
    exact set

/-- The password's never-expires is put back as it was. -/
theorem restored_neverExpires (found : w.getUser row.targetId = some user)
    (ran : exec (restore env .userPasswordNeverExpiresClear row user) w = (answer, w')) :
    Restored env .userPasswordNeverExpiresClear row user w answer w' := by
  rw [restore, SET_PASSWORD_NEVER_EXPIRES, CLEAR_PASSWORD_NEVER_EXPIRES,
    flagWrite_eq (setPasswordNeverExpires env row.targetId)] at ran
  refine .of_account found (fun isAsked f member => ?_) (fun _ wrote => ?_) ran
  · rw [List.mem_singleton.mp member, flag_back]
    by_contra differs
    have none : (setPasswordNeverExpires env row.targetId
      (decide (row.input.before.passwordNeverExpires = some true))).asAsked user = none :=
      if_neg differs
    rw [none] at isAsked
    cases isAsked
  · obtain ⟨user', found', set, only⟩ := setPasswordNeverExpires_effect found wrote
    refine ⟨user', found', only, fun f member => ?_⟩
    rw [List.mem_singleton.mp member, flag_back]
    exact set

theorem restored_expiry (found : w.getUser row.targetId = some user)
    (ran : exec (restore env .userAccountExpirySet row user) w = (answer, w')) :
    Restored env .userAccountExpirySet row user w answer w' := by
  refine .of_account found (fun isAsked f member => ?_) (fun _ wrote => ?_) ran
  · rw [List.mem_singleton.mp member, expiry_back]
    by_contra differs
    have none : (expireAccountAt env row.targetId row.input.before.accountExpiresAt.join).asAsked
      user = none := if_neg differs
    rw [none] at isAsked
    cases isAsked
  · obtain ⟨user', found', set, only⟩ := expireAccountAt_effect found wrote
    refine ⟨user', found', only, fun f member => ?_⟩
    rw [List.mem_singleton.mp member, expiry_back]
    exact set

/-- The object a reference is to, by what it is called now: the one with its GUID, or of its name
where it has none. -/
def Names (env : Env) (kept : Ref) (dn : Text) : Prop :=
  (∃ guid o, kept.guid = some guid ∧ env.objects.byGuid guid = some o ∧
    env.lower dn = env.lower o.distinguishedName) ∨
    kept.guid = none ∧ kept.dn.map env.lower = some (env.lower dn)

/-- A reference by a name it still has is the same one. -/
theorem sameRef_of_names {kept : Ref} {dn : Text} (names : Names env kept dn) :
    sameRef env.lower (refNow env (some dn)) kept = true := by
  rcases names with ⟨guid, o, isGuid, found, named⟩ | ⟨none, named⟩
  · have byDn : env.objects.byDn dn = some o := (env.objects.caseless named).trans (env.objects.named found)
    have now : (refNow env (some dn)).guid = some guid := by
      show (env.objects.byDn dn).map _ = _
      rw [byDn]
      exact congrArg some (env.objects.guid found)
    unfold sameRef
    rw [now, isGuid]
    simp
  · unfold sameRef
    rw [none, named]
    cases (refNow env (some dn)).guid <;> simp [refNow]

/-- The OU found is the one the row kept, whatever the case its DN is written in. -/
theorem names_originOf {before : Snapshot} {ou : CachedOu} (found : originOf env before = some ou) {dn : Text}
    (named : env.lower dn = env.lower ou.distinguishedName) : Names env (parentRef before) dn := by
  unfold originOf at found
  cases guid : before.parentGuid with
  | some g =>
    simp only [guid] at found
    obtain ⟨o, isOu, rfl⟩ := Option.map_eq_some_iff.mp found
    exact Or.inl ⟨g, o, guid, (Option.filter_eq_some_iff.mp isOu).1, named⟩
  | none =>
    simp only [guid] at found
    obtain ⟨kept, parent, isOu⟩ := Option.bind_eq_some_iff.mp found
    have same := List.find?_some isOu
    refine Or.inr ⟨guid, ?_⟩
    show before.parentDn.map _ = _
    rw [parent]
    exact congrArg some ((of_decide_eq_true same).symm.trans named.symm)

/-- The OU a user came from is found in the cache, with nothing written. -/
theorem exec_findOu (env : Env) (before : Snapshot) (w : World) :
    (∃ thrown, exec (findOu env before) w = (.error thrown, w)) ∨ exec (findOu env before) w =
      (.ok (originOf env before), w) := by
  unfold findOu originOf
  cases before.parentGuid with
  | some g =>
    dsimp only
    rw [exec_bind]
    rcases exec_atSite_pure env .lookup (env.objects.byGuid g) w with read | ⟨thrown, read⟩
    · rw [read]
      exact Or.inr rfl
    · rw [read]
      exact Or.inl ⟨thrown, rfl⟩
  | none =>
    cases before.parentDn with
    | none => exact Or.inr rfl
    | some dn => exact (exec_atSite_pure env .cachedOu _ w).symm

/-- A move has an OU to go back to, or is refused, with nothing written. -/
theorem exec_originOu (env : Env) (before : Snapshot) (w : World) :
    (∃ thrown, exec (originOu env before) w = (.error thrown, w)) ∨
    (∃ refused, exec (originOu env before) w = (.ok (.error refused), w)) ∨
      ∃ ou, exec (originOu env before) w = (.ok (.ok ou), w) ∧ originOf env before = some ou := by
  unfold originOu
  rw [exec_bind]
  rcases exec_findOu env before w with ⟨thrown, read⟩ | read
  · rw [read]
    exact Or.inl ⟨thrown, rfl⟩
  · rw [read]
    cases originOf env before with
    | none => exact Or.inr (Or.inl ⟨_, rfl⟩)
    | some ou =>
      dsimp only
      split
      next refused _ => exact Or.inr (Or.inl ⟨refused, rfl⟩)
      next => exact Or.inr (Or.inr ⟨ou, rfl, rfl⟩)

/-- An account under the OU the row kept is back. -/
theorem move_back {before after : Snapshot} {dn : Text}
    (parent : Dn.parentDn (user.distinguishedName env) = some dn)
    (names : Names env (parentRef before) dn) :
    (moveFacet env.lower before after).Back (accountKnown env user) := by
  refine ⟨_, rfl, ?_⟩
  show sameRef env.lower (refNow env (Dn.parentDn (user.distinguishedName env))) _ = true
  rw [parent]
  exact sameRef_of_names names

/-- A move puts the user back in the OU they came from. -/
theorem restored_move (found : w.getUser row.targetId = some user)
    (ran : exec (restore env .userMove row user) w = (answer, w')) :
    Restored env .userMove row user w answer w' := by
  unfold restore at ran
  dsimp only at ran
  rw [exec_bind] at ran
  rcases exec_originOu env row.input.before w with ⟨thrown, read⟩ | ⟨refused, read⟩ | ⟨ou, read, origin⟩
  · rw [read] at ran
    cases ran
    exact .nothing fun _ _ _ _ same => nomatch same
  · rw [read] at ran
    cases ran
    exact .nothing fun _ _ _ _ same => nomatch same
  · rw [read] at ran
    refine .of_account found (fun isAsked f member => ?_) (fun named wrote => ?_) ran
    · rw [List.mem_singleton.mp member]
      unfold moveUserTo at isAsked
      dsimp only at isAsked
      split at isAsked
      next parent isParent =>
        split at isAsked
        next same => exact move_back isParent (names_originOf origin (of_decide_eq_true same))
        next => cases isAsked
      next => cases isAsked
    · obtain ⟨bare, written⟩ := named rfl user found
      obtain ⟨user', found', parent, only⟩ := moveUserTo_effect found bare (written ou origin) wrote
      refine ⟨user', found', only, fun f member => ?_⟩
      rw [List.mem_singleton.mp member]
      have inside := Provider.Directory.mem_of_find (World.getUser_eq_some.mp found').1
      exact move_back (Provider.Directory.parentDn_dn env.spelling inside) (names_originOf origin parent)

/-- A reference kept without a GUID is to whoever has its name. -/
theorem sameRef_of_dn {kept : Ref} {now : Option Text} (none : kept.guid = none)
    (named : now.map env.lower = kept.dn.map env.lower) : sameRef env.lower (refNow env now) kept = true := by
  unfold sameRef
  rw [none]
  cases (refNow env now).guid <;> exact decide_eq_true named

/-- The values a row is put back to: those it kept, its manager by the name they have now. -/
structure RestoreTarget (env : Env) (before : Snapshot) (target : FieldValues) : Prop where
  fields : ∀ f, (target f).isSome = (before.fields f).isSome
  others : ∀ f, f ≠ .manager → target f = before.fields f
  manager : ∀ dn now, target .manager = some dn → sameValue env.lower .manager now dn = true →
    sameRef env.lower (refNow env now) (managerRef before) = true

/-- The manager put back is the object the row kept, as it is called now. -/
theorem exec_restoredManager (env : Env) (before : Snapshot) (w : World) :
    (∃ thrown, exec (restoredManager env before) w = (.error thrown, w)) ∨
      exec (restoredManager env before) w = (.ok none, w) ∨
      ∃ target, exec (restoredManager env before) w = (.ok (some target), w) ∧
      RestoreTarget env before target := by
  unfold restoredManager
  have asKept : (before.fields .manager).isSome → before.managerGuid = none →
    RestoreTarget env before before.fields := by
    intro _ noGuid
    refine ⟨fun _ => rfl, fun _ _ => rfl, fun dn now same named => sameRef_of_dn noGuid ?_⟩
    have kept : (managerRef before).dn = dn := by
      show (before.fields .manager).join = dn
      rw [same]
      rfl
    rw [kept]
    exact of_decide_eq_true named
  cases manager : before.fields .manager with
  | none =>
    refine Or.inr (Or.inr ⟨before.fields, rfl, fun _ => rfl, fun _ _ => rfl, fun dn now same => ?_⟩)
    rw [manager] at same
    cases same
  | some value =>
    cases guid : before.managerGuid with
    | none => exact Or.inr (Or.inr ⟨before.fields, rfl, asKept (by simp [manager]) guid⟩)
    | some g =>
      dsimp only
      rw [exec_bind]
      rcases exec_atSite_pure env .lookup (env.objects.byGuid g) w with read | ⟨thrown, read⟩
      · rw [read]
        cases found : env.objects.byGuid g with
        | none => exact Or.inr (Or.inl rfl)
        | some o =>
          refine Or.inr
            (Or.inr ⟨Function.update before.fields .manager (some (some o.distinguishedName)), rfl,
            fun f => ?_,
            fun f other => Function.update_of_ne other .., fun dn now same named => ?_⟩)
          · by_cases isManager : f = .manager
            · subst isManager
              simp [manager]
            · rw [Function.update_of_ne isManager]
          · rw [Function.update_self] at same
            cases same
            have named' : now.map env.lower = some (env.lower o.distinguishedName) := of_decide_eq_true named
            obtain ⟨dn, rfl, folded⟩ := Option.map_eq_some_iff.mp named'
            exact sameRef_of_names (Or.inl ⟨g, o, guid, found, folded⟩)
      · rw [read]
        exact Or.inl ⟨thrown, rfl⟩

/-- An account whose fields are as the target has them is back. -/
theorem attributes_back {target : FieldValues} (kept : RestoreTarget env row.input.before target)
    (set : ∀ f value, target f = some value → sameValue env.lower f (liveValues user f) value = true) :
    ∀ f ∈ rowFacets env .userUpdate row, f.Back (accountKnown env user) := by
  intro facet member
  obtain ⟨f, _, isFacet⟩ := List.mem_filterMap.mp member
  unfold attributeFacet at isFacet
  split at isFacet
  next was left wasKept _ =>
    obtain ⟨value, isTarget⟩ :=
      Option.isSome_iff_exists.mp (show (target f).isSome by rw [kept.fields, wasKept]; rfl)
    cases isFacet
    by_cases isManager : f = .manager
    · subst isManager
      rw [if_pos rfl]
      exact ⟨_, rfl, kept.manager value _ isTarget (set _ _ isTarget)⟩
    · rw [if_neg isManager]
      rw [kept.others f isManager, wasKept] at isTarget
      cases isTarget
      refine ⟨_, rfl, set f was ?_⟩
      rw [kept.others f isManager, wasKept]
  next => cases isFacet

/-- An edit that is made puts every field of the row back, and touches no other. -/
theorem updateUserAttributes_effect {target : FieldValues}
    (recorded : Recorded .userUpdate row.input.before row.input.after)
    (kept : RestoreTarget env row.input.before target) (found : w.getUser row.targetId = some user)
    (edits : fieldChanges env (liveValues user) target ≠ [])
    (wrote : (updateUserAttributes env row.targetId (fieldChanges env (liveValues user) target) w).2 ≠ w ∨
      (updateUserAttributes env row.targetId (fieldChanges env (liveValues user) target) w).1.ok = true) :
    ∃ user', (updateUserAttributes env row.targetId
      (fieldChanges env (liveValues user) target) w).2.getUser row.targetId = some user' ∧
      OnlyFacets .userUpdate row.input.after user user' ∧ ∀ f ∈ rowFacets env .userUpdate row,
      f.Back (accountKnown env user') := by
  have changes : (fieldChanges env (liveValues user) target).isEmpty = false := by simpa using edits
  unfold updateUserAttributes at *
  rw [changes] at wrote ⊢
  have found' := changeRest_effect (fun err => rfl) found wrote
  have raw : ∀ f, withChanges user.rest.raw (fieldChanges env (liveValues user) target) f =
      editedRaw env (liveValues user) target user.rest.raw f := fun f => withChanges_fieldChanges
  refine ⟨_, found', ⟨rfl, _, rfl, fun f none => ?_⟩, attributes_back kept fun f value asked => ?_⟩
  · have notAsked : target f = Option.none := by
      have same := (kept.fields f).trans (recorded.fields f)
      rw [none] at same
      simpa using same
    rw [raw, editedRaw, notAsked]
  · show sameValue env.lower f (live f (withChanges user.rest.raw _ f)) value = true
    rw [raw]
    exact live_editedRaw asked

/-- An edit's fields are put back as they were. -/
theorem restored_update (recorded : Recorded .userUpdate row.input.before row.input.after)
    (found : w.getUser row.targetId = some user)
    (ran : exec (restore env .userUpdate row user) w = (answer, w')) :
    Restored env .userUpdate row user w answer w' := by
  unfold restore at ran
  dsimp only at ran
  rw [exec_bind] at ran
  rcases exec_restoredManager env row.input.before w with ⟨thrown, read⟩ | read | ⟨target, read, kept⟩
  · rw [read] at ran
    cases ran
    exact .nothing fun _ _ _ _ same => nomatch same
  · rw [read] at ran
    cases ran
    exact .nothing fun _ _ _ _ same => nomatch same
  · rw [read] at ran
    obtain ⟨world, told⟩ := exec_attributesRow ran
    rw [objectGuid_of_getUser found] at world told
    have unedited : fieldChanges env (liveValues user) target = [] →
        (updateUserAttributes env row.targetId (fieldChanges env (liveValues user) target) w).2 = w ∧
          ∀ f ∈ rowFacets env .userUpdate row, f.Back (accountKnown env user) := by
      intro none
      refine ⟨?_, attributes_back kept fun f value asked => same_of_no_changes none asked⟩
      rw [none]
      exact changeRest_none
    have edited := fun edits wrote => updateUserAttributes_effect recorded kept found edits wrote
    refine ⟨fun _ wrote => ?_, fun unchanged b a _ same => ?_, fun reason b a same => ?_⟩
    · have made : fieldChanges env (liveValues user) target ≠ [] ∧
          w' = (updateUserAttributes env row.targetId (fieldChanges env (liveValues user) target) w).2 ∧
          ((updateUserAttributes env row.targetId (fieldChanges env (liveValues user) target) w).2 ≠ w ∨
            (updateUserAttributes env row.targetId
              (fieldChanges env (liveValues user) target) w).1.ok = true) := by
        rcases wrote with moved | ⟨reason, b, a, same⟩
        · have after := world.resolve_left moved
          rw [after] at moved
          exact ⟨fun none => moved (unedited none).1, after, Or.inl moved⟩
        · obtain ⟨_, changed, ok, after⟩ :=
            (told false reason b a same).resolve_right fun self => Bool.noConfusion self.1
          exact ⟨fun none => Bool.noConfusion (changed.mpr none), after, Or.inr ok⟩
      obtain ⟨edits, rfl, written⟩ := made
      obtain ⟨user', found', only, back⟩ := edited edits written
      exact ⟨user', found', only, fun _ => back, fun f member _ => back f member⟩
    · obtain ⟨_, _, ok, rfl⟩ := (told unchanged none b a same).resolve_right fun self => nomatch self.2.1
      by_cases none : fieldChanges env (liveValues user) target = []
      · rw [(unedited none).1]
        exact ⟨user, found, fun f member => Or.inl ((unedited none).2 f member)⟩
      · obtain ⟨user', found', _, back⟩ := edited none (Or.inr ok)
        exact ⟨user', found', fun f member => Or.inl (back f member)⟩
    · rcases told true reason b a same with ⟨rfl, none, _, rfl⟩ | ⟨_, rfl, rfl⟩
      · exact ⟨(unedited (none.mp rfl)).1, Or.inl rfl⟩
      · exact ⟨rfl, Or.inr ⟨rfl, rfl⟩⟩

/-- The operation that puts a membership row back. -/
def revertOp (action : BulkRevertableAction) : BulkMembershipOp :=
  if action = .userGroupAdd then .remove else .add

theorem getUser_withGroups (found : w.getUser row.targetId = some user) (memberOf : List String) :
    (w.withGroups row.targetId memberOf).getUser row.targetId =
      some ⟨user.entry, { user.rest with memberOf }⟩ := by
  obtain ⟨here, rest⟩ := World.getUser_eq_some.mp found
  refine World.getUser_eq_some.mpr ⟨here, ?_⟩
  show Function.update w.rest row.targetId _ row.targetId = _
  rw [Function.update_self, rest]

theorem withGroups_self (found : w.getUser row.targetId = some user) :
    w.withGroups row.targetId user.rest.memberOf = w := by
  obtain ⟨_, rest⟩ := World.getUser_eq_some.mp found
  have same : { w.rest row.targetId with memberOf := user.rest.memberOf } =
    w.rest row.targetId := by rw [rest]
  unfold World.withGroups
  rw [same, Function.update_eq_self]

/-- A group is back when the user is out of one the job added them to, or in one it took them out of. -/
theorem group_back_iff {g : GroupChange} (recorded : g.isMember = decide (action = .userGroupAdd)) :
    (groupFacet g).Back (accountKnown env user) ↔
      (if action = .userGroupAdd then g.id.toLower ∉ user.rest.memberOf
        else g.id.toLower ∈ user.rest.memberOf) := by
  rw [group_back, recorded]
  by_cases added : action = .userGroupAdd
  · simp [added]
  · simp [added]

theorem group_toward {g : GroupChange} {memberOf : List String}
    (recorded : g.isMember = decide (action = .userGroupAdd))
    (toward : Toward (revertOp action) user.rest.memberOf memberOf)
    (back : (groupFacet g).Back (accountKnown env user)) :
    (groupFacet g).Back (accountKnown env ⟨user.entry, { user.rest with memberOf }⟩) := by
  rw [group_back_iff recorded] at back ⊢
  unfold revertOp at toward
  by_cases added : action = .userGroupAdd
  · rw [if_pos added] at back toward ⊢
    exact fun member => back (toward _ member)
  · rw [if_neg added] at back toward ⊢
    exact toward _ back

/-- A group that is as the revert asks is in place. -/
theorem group_inPlace {g : GroupChange} (membership : action.isMembership = true)
    (recorded : g.isMember = decide (action = .userGroupAdd))
    (asked : AsAsked env (revertOp action) user.rest.primaryGroupID user.rest.memberOf g.id.toLower) :
    InPlace env action user (groupFacet g) := by
  unfold revertOp at asked
  by_cases added : action = .userGroupAdd
  · rw [if_pos added] at asked
    refine Or.inl ((group_back_iff recorded).mpr ?_)
    rw [if_pos added]
    exact asked
  · rw [if_neg added] at asked
    have removed : action = .userGroupRemove := (of_decide_eq_true membership).resolve_left added
    rcases asked with inside | primary
    · refine Or.inl ((group_back_iff recorded).mpr ?_)
      rw [if_neg added]
      exact inside
    · exact Or.inr ⟨removed, _, rfl, primary⟩

/-- Memberships are put back group by group. -/
theorem restored_groups (membership : action.isMembership = true)
    (recorded : Recorded action row.input.before row.input.after)
    (found : w.getUser row.targetId = some user)
    (ran : exec (membershipRow env (revertOp action) row.after
      (row.input.after.groups.map (·.id.toLower)) user) w = (answer, w')) :
    Restored env action row user w answer w' := by
  have facets : rowFacets env action row = row.input.after.groups.map groupFacet := by
    rcases of_decide_eq_true membership with rfl | rfl <;> rfl
  have rest := (World.getUser_eq_some.mp found).2
  obtain ⟨⟨rfl, threw⟩ | ⟨c, ended, memberOf, step, rfl, told⟩⟩ := exec_membershipRow ran
  · exact .nothing fun _ _ _ _ => threw _
  · rw [objectGuid_of_getUser found, rest] at step
    rw [objectGuid_of_getUser found] at *
    have found' := getUser_withGroups found memberOf
    refine ⟨fun _ _ => ⟨_, found', ?_, fun single => ?_, fun f member back => ?_⟩,
      fun unchanged b a _ same => ?_,
      fun reason b a same => ?_⟩
    · rcases of_decide_eq_true membership with rfl | rfl <;> exact ⟨rfl, memberOf, rfl, step.others⟩
    · exact Bool.noConfusion (single.symm.trans membership)
    · rw [facets] at member
      obtain ⟨g, inside, rfl⟩ := List.mem_map.mp member
      exact group_toward (recorded.members g inside) step.toward back
    · obtain ⟨c', isEnded, none, _, _⟩ := told unchanged _ b a same
      refine ⟨_, found', fun f member => ?_⟩
      rw [facets] at member
      obtain ⟨g, inside, rfl⟩ := List.mem_map.mp member
      have asked := step.done c' isEnded none _ (List.mem_map_of_mem inside)
      exact group_inPlace membership (recorded.members g inside) asked
    · obtain ⟨c', isEnded, none, noReason, nothing⟩ := told true reason b a same
      rw [step.nothing c' isEnded none (nothing rfl)]
      exact ⟨withGroups_self found, Or.inl noReason⟩

/-- Putting a row back, whatever its action. -/
theorem exec_restore (recorded : Recorded action row.input.before row.input.after)
    (found : w.getUser row.targetId = some user)
    (ran : exec (restore env action row user) w = (answer, w')) :
    Restored env action row user w answer w' := by
  cases action with
  | userDisable => exact restored_flags found (Or.inl rfl) ran
  | userEnable => exact restored_flags found (Or.inr rfl) ran
  | userPasswordMustChangeSet => exact restored_mustChange found ran
  | userPasswordNeverExpiresClear => exact restored_neverExpires found ran
  | userMove => exact restored_move found ran
  | userAccountExpirySet => exact restored_expiry found ran
  | userUpdate => exact restored_update recorded found ran
  | userGroupAdd => exact restored_groups rfl recorded found ran
  | userGroupRemove => exact restored_groups rfl recorded found ran

end Restored

/-- What an unforced revert may overwrite, and what any revert leaves. -/
structure Safe (env : Env) (action : BulkRevertableAction) (row : RevertRow) (w : World)
    (answer : Except Thrown RevertOutcome) (w' : World) : Prop where
  /-- Unforced, it writes only where every facet is unknown, back or as the job left it, one isn't
  known to be back, and the account wasn't written again. -/
  guarded : row.input.force = false → w' ≠ w → ∃ user, w.getUser row.targetId = some user ∧
    (∀ f ∈ rowFacets env action row, f.Untouched (accountNow env user)) ∧
    (∃ f ∈ rowFacets env action row, ¬f.Back (accountNow env user)) ∧
    touched env action row (rowFacets env action row) (accountNow env user).uSNChanged = none
  /-- Where every facet is known and back, it writes nothing, forced or not, and says so. -/
  back : ∀ user, w.getUser row.targetId = some user →
    (∀ f ∈ rowFacets env action row, f.Back (accountNow env user)) →
    w' = w ∧ ∀ outcome, answer = .ok outcome → outcome = .ok true none row.before row.after
  /-- It says a row is unchanged where its facets are back; changed since, and left alone; or would
  make the account its own manager. -/
  unchanged : ∀ reason b a, answer = .ok (.ok true reason b a) → w' = w ∧ ∃ user,
    w.getUser row.targetId = some user ∧
    (reason = none ∧ (∀ f ∈ rowFacets env action row, InPlace env action user f) ∨
      reason = some CHANGED_SINCE ∧ row.input.force = false ∧
        ¬((∀ f ∈ rowFacets env action row, f.Untouched (accountNow env user)) ∧
          touched env action row (rowFacets env action row) (accountNow env user).uSNChanged = none) ∨
      action = .userUpdate ∧ reason = some selfManager)
  /-- Whatever it changed is the row's facets, and a single write is whole; no group moves the other way. -/
  changed : MovesAsNamed env action row w → w' ≠ w → ∃ user user', w.getUser row.targetId =
    some user ∧ w'.getUser row.targetId = some user' ∧
    OnlyFacets action row.input.after user user' ∧
    (action.isMembership = false → ∀ f ∈ rowFacets env action row, f.Back (accountKnown env user')) ∧
    ∀ f ∈ rowFacets env action row, f.Back (accountKnown env user) → f.Back (accountKnown env user')
  /-- Where it says the write was made, every facet is back as before. -/
  done : MovesAsNamed env action row w → ∀ b a, answer = .ok (.ok false none b a) →
    ∃ user', w'.getUser row.targetId = some user' ∧ ∀ f ∈ rowFacets env action row, InPlace env action user' f

section Safe
variable {env : Env} {action : BulkRevertableAction} {row : RevertRow} {user : DirectoryUser} {w w' : World}
  {answer : Except Thrown RevertOutcome}

/-- What is back without its groups being read is back with them. -/
theorem back_known {f : Facet} (member : f ∈ rowFacets env action row) (back : f.Back (accountNow env user)) :
    f.Back (accountKnown env user) := by
  have same : f.read (accountKnown env user) = f.read (accountNow env user) ∨
    f.read (accountNow env user) = none := by
    unfold rowFacets at member
    cases action with
    | userUpdate =>
      obtain ⟨field, _, isFacet⟩ := List.mem_filterMap.mp member
      unfold attributeFacet at isFacet
      split at isFacet
      next =>
        by_cases isManager : field = .manager
        · rw [if_pos isManager] at isFacet
          cases isFacet
          exact Or.inl rfl
        · rw [if_neg isManager] at isFacet
          cases isFacet
          exact Or.inl rfl
      next => cases isFacet
    | userGroupAdd | userGroupRemove =>
      obtain ⟨g, _, rfl⟩ := List.mem_map.mp member
      exact Or.inr rfl
    | _ =>
      rw [List.mem_singleton.mp member]
      exact Or.inl rfl
  obtain ⟨value, read, isBack⟩ := back
  rcases same with same | none
  · exact ⟨value, same.trans read, isBack⟩
  · rw [none] at read
    cases read

theorem exec_touchedSince (env : Env) (action : BulkRevertableAction) (row : RevertRow)
    (facets : List Facet) (usn : Option String) (w : World) :
    exec (touchedSince env action row facets usn) w = (.ok (touched env action row facets usn), w) ∨
      ∃ thrown, exec (touchedSince env action row facets usn) w = (.error thrown, w) := by
  unfold touchedSince
  dsimp only
  split
  · exact exec_atSite_pure env .events _ w
  · exact Or.inl rfl

/-- A row that threw before its verdict, or found no account. -/
theorem Safe.unread
    (told : ∀ outcome, answer = .ok outcome → outcome = .notFound ∧ w.getUser row.targetId = none) :
    Safe env action row w answer w := by
  refine ⟨fun _ moved => absurd rfl moved, fun user found _ =>
    ⟨rfl, fun outcome same => ?_⟩, fun reason b a same => ?_,
    fun _ moved => absurd rfl moved, fun _ b a same => ?_⟩
  · have gone := (told outcome same).2
    rw [found] at gone
    cases gone
  · cases (told _ same).1
  · cases (told _ same).1

/-- Acting on the verdict is safe. -/
theorem actOn_safe (recorded : Recorded action row.input.before row.input.after)
    (found : w.getUser row.targetId = some user)
    {why : Option Touched}
    (isWhy : touched env action row (rowFacets env action row) (accountNow env user).uSNChanged = why)
    (ran : exec (actOn env action row user
      (judge (rowFacets env action row) (accountNow env user) why).kind) w = (answer, w')) :
    Safe env action row w answer w' := by
  have unchanged : (judge (rowFacets env action row) (accountNow env user) why).kind = .unchanged ↔
      ∀ f ∈ rowFacets env action row, f.Back (accountNow env user) := judge_unchanged
  have revert : (judge (rowFacets env action row) (accountNow env user) why).kind = .revert ↔
      (∀ f ∈ rowFacets env action row, f.Untouched (accountNow env user)) ∧
        (∃ f ∈ rowFacets env action row, ¬f.Back (accountNow env user)) ∧ why = none := judge_revert
  generalize (judge (rowFacets env action row) (accountNow env user) why).kind = kind at ran unchanged revert
  subst isWhy
  unfold actOn at ran
  split at ran
  next skips =>
    -- Changed since, and not forced: left alone.
    obtain ⟨rfl, unforced⟩ := skips
    cases ran
    have notBack : ¬∀ f ∈ rowFacets env action row, f.Back (accountNow env user) :=
      fun back => nomatch unchanged.mpr back
    refine ⟨fun _ moved => absurd rfl moved, fun user' found' back => ?_, fun reason b a same =>
      ?_, fun _ moved => absurd rfl moved,
      fun _ b a same => nomatch same⟩
    · cases found.symm.trans found'
      exact absurd back notBack
    · cases same
      refine ⟨rfl, user, found, Or.inr (Or.inl ⟨rfl, by simpa using unforced, fun kept => ?_⟩)⟩
      obtain ⟨f, member, differs⟩ : ∃ f ∈ rowFacets env action row,
        ¬f.Back (accountNow env user) := by simpa using notBack
      exact nomatch revert.mpr ⟨kept.1, ⟨f, member, differs⟩, kept.2⟩
  next goesOn =>
    split at ran
    next isUnchanged =>
      cases ran
      have back := unchanged.mp isUnchanged
      refine ⟨fun _ moved => absurd rfl moved, fun _ _ _ =>
        ⟨rfl, fun outcome same => ?_⟩, fun reason b a same => ?_,
        fun _ moved => absurd rfl moved, fun _ b a same => nomatch same⟩
      · exact (Except.ok.inj same).symm
      · cases same
        exact ⟨rfl, user, found, Or.inl ⟨rfl, fun f member => Or.inl (back_known member (back f member))⟩⟩
    next notUnchanged =>
      have restored := exec_restore recorded found ran
      refine ⟨fun unforced moved => ⟨user, found, revert.mp ?_⟩, fun user' found' back =>
        ?_, fun reason b a same => ?_,
        fun named moved => ?_, fun named b a same => ?_⟩
      · cases kind with
        | revert => rfl
        | modified => exact absurd ⟨rfl, by simp [unforced]⟩ goesOn
        | unchanged => exact absurd rfl notUnchanged
      · cases found.symm.trans found'
        exact absurd (unchanged.mpr back) notUnchanged
      · obtain ⟨rfl, told⟩ := restored.unchanged reason b a same
        refine ⟨rfl, user, found, ?_⟩
        rcases told with rfl | ⟨isUpdate, rfl⟩
        · obtain ⟨user', found', inPlace⟩ := restored.done true b a nofun same
          cases found.symm.trans found'
          exact Or.inl ⟨rfl, inPlace⟩
        · exact Or.inr (Or.inr ⟨isUpdate, rfl⟩)
      · obtain ⟨user', found', only, back, toward⟩ := restored.wrote named (Or.inl moved)
        exact ⟨user, user', found, found', only, back, toward⟩
      · exact restored.done false b a (fun _ => named) same

/-- A revert's row changes nothing of a user changed since, gone or guarded, and puts the rest back
as it was, or tells why not. -/
theorem revertRunner_safe (env : Env) (action : BulkRevertableAction) (row : RevertRow) (w : World)
    (recorded : Recorded action row.input.before row.input.after) :
    Safe env action row w (exec (revertRunner env action row) w).1
      (exec (revertRunner env action row) w).2 := by
  unfold revertRunner
  rw [exec_bind]
  rcases exec_atSite_read env .refresh (World.getUser · row.targetId) w with read | ⟨thrown, read⟩
  · rw [read]
    cases found : w.getUser row.targetId with
    | none =>
      refine .unread fun outcome same => ⟨?_, found⟩
      cases same
      rfl
    | some user =>
      dsimp only
      rw [exec_bind]
      rcases exec_atSite_pure env .lookup () w with read | ⟨thrown, read⟩
      · rw [read]
        dsimp only
        rw [exec_bind]
        rcases exec_touchedSince env action row (rowFacets env action row)
          (accountNow env user).uSNChanged w with read | ⟨thrown, read⟩
        · rw [show exec
            (touchedSince env action row
            (facets env.lower action row.input.before row.input.after) _) w = _ from read]
          exact actOn_safe recorded found rfl rfl
        · rw [show exec
            (touchedSince env action row
            (facets env.lower action row.input.before row.input.after) _) w = _ from read]
          exact .unread fun _ same => nomatch same
      · rw [read]
        exact .unread fun _ same => nomatch same
  · rw [read]
    exact .unread fun _ same => nomatch same

end Safe

theorem setField_fields {changes : List FieldChange} {s t : Snapshot}
    (same : ∀ f, (s.fields f).isSome = (t.fields f).isSome) (f : BulkAttributeField) :
    ((changes.foldl (fun s c => setField s c.field c.before) s).fields f).isSome =
      ((changes.foldl (fun s c => setField s c.field c.after) t).fields f).isSome := by
  induction changes generalizing s t with
  | nil => exact same f
  | cons c rest ih =>
    refine ih fun g => ?_
    by_cases here : g = c.field
    · subst here
      simp [setField]
    · simp [setField, Function.update_of_ne here, same g]

theorem setField_groups {changes : List FieldChange} {s : Snapshot} :
    (changes.foldl (fun s c => setField s c.field c.after) s).groups = s.groups := by
  induction changes generalizing s with
  | nil => rfl
  | cons c rest ih => exact ih

/-- An edit's row holds the same fields before and after. -/
theorem rowSnapshots_recorded (changes : List FieldChange) (beforeGuid afterGuid : Option Guid)
    (refreshed : Option DirectoryUser) :
    Recorded .userUpdate { (rowSnapshots changes).1 with managerGuid := beforeGuid }
      (changeStamp refreshed { (rowSnapshots changes).2 with managerGuid := afterGuid }) where
  fields f := setField_fields (fun _ => rfl) f
  members g member := by
    have none : (rowSnapshots changes).2.groups = [] := setField_groups
    have inside : g ∈ (rowSnapshots changes).2.groups := member
    rw [none] at inside
    cases inside

/-- A membership job's row says of each group what the job made of it. -/
theorem membership_recorded {op : BulkMembershipOp} {changes : List GroupChange}
    (consistent : BulkJobs.Consistent op changes) :
    Recorded (match op with | .add => .userGroupAdd | .remove => .userGroupRemove) .empty
      { Snapshot.empty with groups := changes } where
  fields f := rfl
  members g member := by
    rw [consistent g member]
    cases op <;> rfl

def pupil : Entry where
  objectGuid := 1
  kind := .user
  rdn := Provider.cnOf (text "pupil")
  parent := ⟨text "OU=Pupils,DC=school", 2⟩
  attributes := {
    userAccountControl := .number 512
    isCriticalSystemObject := false
    accountExpires := none
    givenName := none
    sn := none
    displayName := none
    sAMAccountName := none
    userPrincipalName := none
    mail := none
    proxyAddresses := [] }

def blankRaw : (f : BulkAttributeField) → Raw f
  | .text _ | .manager => none
  | .postOfficeBox => []
  | .country => (none, none, none)

/-- A user put in two groups by a job, and out of both, one or neither since. -/
def pupilIn (memberOf : List String) : World where
  directory := {
    entries := [pupil]
    containers := .listed (text "DC=school") [⟨text "OU=Pupils,DC=school", 2⟩] (by decide)
    guids := List.nodup_singleton _
    names := List.nodup_singleton _
    places := fun e member => by cases List.mem_singleton.mp member; rfl }
  rest _ :=
    { pwdLastSet := 1, raw := blankRaw, memberOf, primaryGroupID := some "513", uSNChanged := some "8" }

/-- Every group is in the cache, "users" as the primary group; the directory refuses the ones named. -/
def groupsRefused (refused : List String) : Env where
  lower t := t
  spelling := Provider.rfcSpelling
  objects := .none
  cachedOus := []
  groups := {
    get := fun id => some ⟨id, id, if id = "users" then some ⟨true, some 513⟩ else none⟩
    ids := fun _ _ same => by cases same; rfl }
  events := []
  now := 1
  clock := by decide
  faults _ := none
  provider := ⟨none, fun _ => none⟩
  member id := if refused.contains id then some (.refused none none) else none
  groupAudited _ := true
  cacheRefreshed := true

def revertOf (before after : Snapshot) : RevertRow where
  targetId := 1
  input := { jobId := 1, before, after, ranAt := none, force := false }
  before := none
  after := none

def putIn : RevertRow :=
  revertOf .empty { Snapshot.empty with groups := [⟨"a", "a", true⟩, ⟨"b", "b", true⟩] }

def takenOut : RevertRow := revertOf .empty { Snapshot.empty with groups := [⟨"users", "users", false⟩] }

def enabledBefore : RevertRow :=
  revertOf { Snapshot.empty with enabled := some false }
    { Snapshot.empty with enabled := some true, uSNChanged := some "7" }

theorem putIn_recorded : Recorded .userGroupAdd putIn.input.before putIn.input.after where
  fields _ := rfl
  members := by decide

def said : Except Thrown RevertOutcome → Option (Bool × Option (RowErrorCode × Text))
  | .ok (.ok unchanged reason _ _) => some (unchanged, reason)
  | _ => none

/-- A row is said to be unchanged though none of its memberships was known, or though it is left
alone as changed since; one whose second group is refused leaves that group as the job made it, and
a primary group isn't put back among the groups. -/
theorem unread_skipped_partly_back :
    (∃ user, said (exec (revertRunner (groupsRefused []) .userGroupAdd putIn) (pupilIn [])).1 =
        some (true, none) ∧
      (pupilIn []).getUser 1 = some user ∧
        ¬∀ f ∈ rowFacets (groupsRefused []) .userGroupAdd putIn,
          f.Back (accountNow (groupsRefused []) user)) ∧
    (∃ user, said (exec (revertRunner (groupsRefused []) .userEnable enabledBefore) (pupilIn [])).1 =
        some (true, some CHANGED_SINCE) ∧
      (pupilIn []).getUser 1 = some user ∧
        ¬∀ f ∈ rowFacets (groupsRefused []) .userEnable enabledBefore,
          f.Back (accountNow (groupsRefused []) user)) ∧
    (∃ user', (exec (revertRunner (groupsRefused ["b"]) .userGroupAdd putIn)
      (pupilIn ["a", "b"])).2.getUser 1 = some user' ∧
      user'.rest.memberOf = ["b"] ∧
        ¬∀ f ∈ rowFacets (groupsRefused ["b"]) .userGroupAdd putIn,
          f.Back (accountKnown (groupsRefused ["b"]) user')) ∧
    ∃ user', said (exec (revertRunner (groupsRefused []) .userGroupRemove takenOut) (pupilIn [])).1 =
        some (true, none) ∧
      (exec (revertRunner (groupsRefused []) .userGroupRemove takenOut) (pupilIn [])).2.getUser 1 =
        some user' ∧
      ¬∀ f ∈ rowFacets (groupsRefused []) .userGroupRemove takenOut,
        f.Back (accountKnown (groupsRefused []) user') := by
  have still : ((exec (revertRunner (groupsRefused []) .userGroupRemove takenOut)
      (pupilIn [])).2.getUser 1).map (·.rest.memberOf) = some [] := by decide +kernel
  obtain ⟨put, found', none'⟩ := Option.map_eq_some_iff.mp still
  have partly : ((exec (revertRunner (groupsRefused ["b"]) .userGroupAdd putIn)
      (pupilIn ["a", "b"])).2.getUser 1).map (·.rest.memberOf) = some ["b"] := by decide +kernel
  obtain ⟨left, found, inB⟩ := Option.map_eq_some_iff.mp partly
  refine ⟨⟨_, by decide +kernel, rfl, fun back => ?_⟩, ⟨_, by decide +kernel, rfl, fun back => ?_⟩,
    ⟨left, found, inB, fun back => ?_⟩, put, by decide +kernel, found', fun back => ?_⟩
  · obtain ⟨value, read, _⟩ := back _ List.mem_cons_self
    cases read
  · obtain ⟨value, read, same⟩ := back _ List.mem_cons_self
    cases read
    revert same
    decide
  · have outside := group_back.mp (back _ (List.mem_cons_of_mem _ List.mem_cons_self))
    rw [inB] at outside
    revert outside
    decide +kernel
  · have inside := group_back.mp (back _ List.mem_cons_self)
    rw [none'] at inside
    cases inside

theorem revertRunner_safe_putIn : Safe (groupsRefused ["b"]) .userGroupAdd putIn (pupilIn ["a", "b"])
    (exec (revertRunner (groupsRefused ["b"]) .userGroupAdd putIn) (pupilIn ["a", "b"])).1
    (exec (revertRunner (groupsRefused ["b"]) .userGroupAdd putIn) (pupilIn ["a", "b"])).2 :=
  revertRunner_safe _ _ _ _ putIn_recorded

end OpenAduc.Reverts
