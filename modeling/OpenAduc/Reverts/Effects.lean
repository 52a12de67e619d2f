import OpenAduc.Reverts.Restoring

namespace OpenAduc.Reverts
open Naming (Text text)
open Provider (Guid Entry ControlWrite Containers)
open BulkJobs (GroupChange BulkMembershipOp CachedGroup Changes)
open Attempt (exec exec_bind)

def BulkRevertableAction.isMembership (action : BulkRevertableAction) : Bool :=
  action = .userGroupAdd ∨ action = .userGroupRemove

/-- The two snapshots of a row a job of the action recorded: of the same fields, and each group as
the job left it. -/
structure Recorded (action : BulkRevertableAction) (before after : Snapshot) : Prop where
  fields : ∀ f, (before.fields f).isSome = (after.fields f).isSome
  members : ∀ g ∈ after.groups, g.isMember = decide (action = .userGroupAdd)

/-- The account as a revert compares it, its groups too. -/
def accountKnown (env : Env) (user : DirectoryUser) : AccountNow :=
  { accountNow env user with groupIds := some user.rest.memberOf }

variable (env : Env) in
/-- The OU a row was moved from, as it is named now. -/
def originOf (before : Snapshot) : Option CachedOu :=
  match before.parentGuid with
  | some guid =>
    ((env.objects.byGuid guid).filter (·.isOu)).map fun o =>
      ⟨o.distinguishedName, o.name, o.isCriticalSystemObject⟩
  | none => before.parentDn.bind fun dn => env.cachedOus.find? fun ou =>
    sameDn env.lower ou.distinguishedName dn

/-- A container's DN as AD writes it, but for case: it is no other's. -/
def Written (env : Env) (containers : Containers) (dn : Text) : Prop :=
  Naming.trim dn = dn ∧ ∀ c, containers.find dn = some c → env.lower c.dn = env.lower dn

/-- Nothing of the account changes but what the row's facets are of. -/
def OnlyFacets (action : BulkRevertableAction) (after : Snapshot) (user user' : DirectoryUser) : Prop :=
  match action with
  | .userDisable | .userEnable => user'.rest = user.rest ∧
      (∃ value, user'.entry = user.entry.changed fun a => { a with userAccountControl := value }) ∧
      user'.control &&& ~~~Provider.ACCOUNTDISABLE = user.control &&& ~~~Provider.ACCOUNTDISABLE
  | .userPasswordNeverExpiresClear => user'.rest = user.rest ∧
      (∃ value, user'.entry = user.entry.changed fun a => { a with userAccountControl := value }) ∧
      user'.control &&& ~~~Provider.DONT_EXPIRE_PASSWORD = user.control &&& ~~~Provider.DONT_EXPIRE_PASSWORD
  | .userPasswordMustChangeSet =>
    user'.entry = user.entry ∧ ∃ time, user'.rest = { user.rest with pwdLastSet := time }
  | .userMove => user'.rest = user.rest ∧ user'.entry = user.entry.named user.entry.rdn user'.entry.parent
  | .userAccountExpirySet => user'.rest = user.rest ∧
      ∃ value, user'.entry = user.entry.changed fun a => { a with accountExpires := value }
  | .userUpdate => user'.entry = user.entry ∧ ∃ raw, user'.rest = { user.rest with raw } ∧
      ∀ f, after.fields f = none → raw f = user.rest.raw f
  | .userGroupAdd | .userGroupRemove =>
    user'.entry = user.entry ∧ ∃ memberOf, user'.rest = { user.rest with memberOf } ∧
      ∀ id, id ∉ after.groups.map (·.id.toLower) → (id ∈ memberOf ↔ id ∈ user.rest.memberOf)

section AccountWrites
variable {env : Env} {id : Guid} {w : World} {user user' : DirectoryUser}

theorem control_asked {write : ControlWrite} (asked : Provider.ControlAsked write user.entry user'.entry) :
    (∃ value, user'.entry = user.entry.changed fun a => { a with userAccountControl := value }) ∧
      user'.control &&& ~~~write.flag = user.control &&& ~~~write.flag ∧
      user'.control &&& write.flag = if write.on then write.flag else 0 := by
  obtain ⟨uac, was, now⟩ := asked.bit
  have control : user.control = uac := by rw [DirectoryUser.control, was, Option.getD_some]
  have control' : user'.control = Provider.nextUac write uac := by
    rw [DirectoryUser.control, now, Option.getD_some]
  refine ⟨?_, ?_, ?_⟩
  · rcases asked.only with same | changed
    · exact ⟨user.entry.attributes.userAccountControl, same⟩
    · exact changed
  · rw [control, control', Provider.nextUac_others]
  · rw [control', Provider.nextUac_flag]

def enabledControl (enabled : Bool) : ControlWrite where
  flag := Provider.ACCOUNTDISABLE
  on := !enabled
  snapshot uac := uac &&& Provider.ACCOUNTDISABLE = 0
  refuse := if Provider.ObjectKind.user = .computer ∧ (!enabled) = true then
    Provider.protectedComputer else fun _ => none

def neverExpiresControl (never : Bool) : ControlWrite where
  flag := Provider.DONT_EXPIRE_PASSWORD
  on := never
  snapshot uac := uac &&& Provider.DONT_EXPIRE_PASSWORD ≠ 0
  refuse _ := none

theorem setEnabled_effect {enabled : Bool} (found : w.getUser id = some user)
    (wrote : ((setEnabled env id enabled).write w).2 ≠ w ∨
      ((setEnabled env id enabled).write w).1.ok = true) :
    ∃ user', ((setEnabled env id enabled).write w).2.getUser id = some user' ∧ user'.enabled = enabled ∧
      OnlyFacets .userDisable .empty user user' := by
  have effect : ∃ user', ((setEnabled env id enabled).write w).2.getUser id = some user' ∧
      user'.rest = user.rest ∧ Provider.ControlAsked (enabledControl enabled) user.entry user'.entry :=
    onDirectory_effect
      (Provider.setAccountControlFlag_effect env.spelling env.provider .user id _ _) found wrote
  obtain ⟨user', found', rest, asked⟩ := effect
  obtain ⟨only, others, flag⟩ := control_asked asked
  refine ⟨user', found', ?_, rest, only, others⟩
  rw [DirectoryUser.enabled, show user'.control &&& Provider.ACCOUNTDISABLE = _ from flag]
  cases enabled <;> decide

theorem setPasswordNeverExpires_effect {never : Bool} (found : w.getUser id = some user)
    (wrote : ((setPasswordNeverExpires env id never).write w).2 ≠ w ∨
      ((setPasswordNeverExpires env id never).write w).1.ok = true) :
    ∃ user', ((setPasswordNeverExpires env id never).write w).2.getUser id = some user' ∧
      user'.passwordNeverExpires = never ∧
      OnlyFacets .userPasswordNeverExpiresClear .empty user user' := by
  have effect : ∃ user',
      ((setPasswordNeverExpires env id never).write w).2.getUser id = some user' ∧
      user'.rest = user.rest ∧ Provider.ControlAsked (neverExpiresControl never) user.entry user'.entry :=
    onDirectory_effect
      (Provider.setAccountControlFlag_effect env.spelling env.provider .user id _ _) found wrote
  obtain ⟨user', found', rest, asked⟩ := effect
  obtain ⟨only, others, flag⟩ := control_asked asked
  refine ⟨user', found', ?_, rest, only, others⟩
  rw [DirectoryUser.passwordNeverExpires, show user'.control &&& Provider.DONT_EXPIRE_PASSWORD = _ from flag]
  cases never <;> decide

theorem setPasswordMustChange_effect {mustChange : Bool} (found : w.getUser id = some user)
    (wrote : ((setPasswordMustChange env id mustChange).write w).2 ≠ w ∨
      ((setPasswordMustChange env id mustChange).write w).1.ok = true) :
    ∃ user', ((setPasswordMustChange env id mustChange).write w).2.getUser id = some user' ∧
      user'.passwordMustChange = mustChange ∧ OnlyFacets .userPasswordMustChangeSet .empty user user' := by
  have found' := changeRest_effect Provider.classifyWriteError_ok found wrote
  refine ⟨_, found', ?_, rfl, _, rfl⟩
  have clock := env.clock
  cases mustChange with
  | true => rfl
  | false => exact decide_eq_false (show ¬env.now = 0 by omega)

theorem expireAccountAt_effect {expiresAt : Option ExpiryDate} (found : w.getUser id = some user)
    (wrote : ((expireAccountAt env id expiresAt).write w).2 ≠ w ∨
      ((expireAccountAt env id expiresAt).write w).1.ok = true) :
    ∃ user', ((expireAccountAt env id expiresAt).write w).2.getUser id = some user' ∧
      user'.accountExpiresAt = expiresAt.map (·.ms) ∧ OnlyFacets .userAccountExpirySet .empty user user' := by
  have effect : ∃ user',
      ((expireAccountAt env id expiresAt).write w).2.getUser id = some user' ∧ user'.rest = user.rest ∧
      Provider.ExpiryAsked (expiresAt.map (·.ms)) user.entry user'.entry :=
    onDirectory_effect (Provider.setAccountExpiry_effect env.spelling env.provider id _ _) found wrote
  obtain ⟨user', found', rest, asked⟩ := effect
  refine ⟨user', found', ?_, rest, _, asked.only⟩
  cases expiresAt with
  | none => exact asked.never rfl
  | some date => exact asked.date date.ms rfl date.after date.held

/-- A move puts the user under the OU and touches nothing else. -/
theorem moveUserTo_effect {ou : CachedOu} (found : w.getUser id = some user)
    (bare : Naming.trim (env.spelling.rdn user.entry.rdn) = env.spelling.rdn user.entry.rdn)
    (written : Written env w.directory.containers ou.distinguishedName)
    (wrote : ((moveUserTo env id ou).write w).2 ≠ w ∨ ((moveUserTo env id ou).write w).1.ok = true) :
    ∃ user', ((moveUserTo env id ou).write w).2.getUser id = some user' ∧
      env.lower user'.entry.parent.dn = env.lower ou.distinguishedName ∧
      OnlyFacets .userMove .empty user user' := by
  obtain ⟨here, _⟩ := World.getUser_eq_some.mp found
  have kept : ¬Provider.MoveLost env.lower env.spelling env.provider .user id ou.distinguishedName
    w.directory := by
    refine Provider.not_moveLost_of_bare fun e isThere => ?_
    cases here.symm.trans isThere
    exact bare
  have effect : ∃ user', ((moveUserTo env id ou).write w).2.getUser id = some user' ∧ user'.rest = user.rest ∧
      Provider.MoveAsked env.lower w.directory.containers ou.distinguishedName user.entry user'.entry :=
    onDirectory_effect (Provider.moveAccount_effect kept) found wrote
  obtain ⟨user', found', rest, asked⟩ := effect
  refine ⟨user', found', ?_, rest, asked.only⟩
  have parent := asked.parent
  rw [written.1] at parent
  exact parent.elim (fun same => same) (written.2 _)

end AccountWrites

section Attributes
variable {env : Env} {raw : (f : BulkAttributeField) → Raw f}
    {values : (f : BulkAttributeField) → FieldValue f}
  {target : FieldValues} {f : BulkAttributeField}

/-- What a field's attributes come to. -/
def editedRaw (env : Env) (values : (f : BulkAttributeField) → FieldValue f) (target : FieldValues)
    (raw : (f : BulkAttributeField) → Raw f) (f : BulkAttributeField) : Raw f :=
  match target f with
  | none => raw f
  | some value => if sameValue env.lower f (values f) value then raw f else patch f value

/-- A field among the changes has its new raw value, any other its old. -/
theorem withChanges_filterMap {fields : List BulkAttributeField} (once : fields.Nodup) :
    withChanges raw (fields.filterMap (fieldChange env values target)) f =
      if f ∈ fields then editedRaw env values target raw f else raw f := by
  induction fields generalizing raw with
  | nil => rfl
  | cons g rest ih =>
    obtain ⟨fresh, once⟩ := List.nodup_cons.mp once
    cases changed : fieldChange env values target g with
    | none =>
      rw [List.filterMap_cons_none changed, ih once]
      by_cases here : f = g
      · subst here
        have kept : editedRaw env values target raw f = raw f := by
          unfold fieldChange at changed
          unfold editedRaw
          cases asked : target f with
          | none => rfl
          | some value =>
            simp only [asked] at changed
            split at changed
            next same => exact if_pos same
            next => cases changed
        simp [fresh, kept]
      · simp [here]
    | some c =>
      rw [List.filterMap_cons_some changed]
      show withChanges (withChange raw c) _ f = _
      rw [ih once]
      unfold fieldChange at changed
      cases asked : target g with
      | none =>
        simp only [asked] at changed
        cases changed
      | some value =>
        simp only [asked] at changed
        split at changed
        next => cases changed
        next differs =>
          cases changed
          by_cases here : f = g
          · subst here
            have edited : editedRaw env values target raw f = patch f value := by
              unfold editedRaw
              simp only [asked, if_neg differs]
            simp [fresh, edited, withChange]
          · have same : withChange raw ⟨g, values g, value⟩ f = raw f := Function.update_of_ne here ..
            have edited : editedRaw env values target (withChange raw ⟨g, values g, value⟩) f =
              editedRaw env values target raw f := by
              unfold editedRaw
              rw [same]
            simp [here, same, edited]

theorem withChanges_fieldChanges : withChanges raw (fieldChanges env values target) f =
    editedRaw env values target raw f := by
  have once : BULK_ATTRIBUTE_FIELDS.Nodup := by decide
  rw [fieldChanges, withChanges_filterMap once, if_pos (mem_fields f)]

/-- An edited field reads as what it was set to. -/
theorem live_editedRaw {value : FieldValue f} (asked : target f = some value) :
    sameValue env.lower f (live f (editedRaw env (fun f => live f (raw f)) target raw f)) value = true := by
  unfold editedRaw
  simp only [asked]
  split
  next same => exact same
  next =>
    rw [live_patch]
    exact sameValue_self env.lower f value

/-- Where nothing is to change, every field asked for is already so. -/
theorem same_of_no_changes (none : fieldChanges env values target = []) {value : FieldValue f}
    (asked : target f = some value) :
    sameValue env.lower f (values f) value = true := by
  have unchanged := List.filterMap_eq_nil_iff.mp none f (mem_fields f)
  unfold fieldChange at unchanged
  simp only [asked] at unchanged
  split at unchanged
  next same => exact same
  next => cases unchanged

/-- How an edit's row ends. -/
structure AttributesRow (env : Env) (user : DirectoryUser) (target : FieldValues) (w : World)
    (answer : Except Thrown RevertOutcome) (w' : World) : Prop where
  world : w' = w ∨
    w' = (updateUserAttributes env user.entry.objectGuid (fieldChanges env (liveValues user) target) w).2
  told : ∀ unchanged reason b a, answer = .ok (.ok unchanged reason b a) →
    (reason = none ∧ (unchanged = true ↔ fieldChanges env (liveValues user) target = []) ∧
      (updateUserAttributes env user.entry.objectGuid
        (fieldChanges env (liveValues user) target) w).1.ok = true ∧
      w' = (updateUserAttributes env user.entry.objectGuid (fieldChanges env (liveValues user) target) w).2) ∨
      unchanged = true ∧ reason = some (.other "self_manager", SELF_MANAGER_MESSAGE) ∧ w' = w

theorem AttributesRow.read {user : DirectoryUser} {w : World} {answer : Except Thrown RevertOutcome}
    (failed : ∀ unchanged reason b a, answer ≠ .ok (.ok unchanged reason b a)) :
    AttributesRow env user target w answer w :=
  ⟨Or.inl rfl, fun unchanged reason b a same => absurd same (failed unchanged reason b a)⟩

variable (env) in
/-- A manager is refused or not, with nothing written. -/
theorem exec_managerRefusal (user : DirectoryUser) (manager : Option Text)
    (before after : Option Snapshot) (w : World) :
    exec (managerRefusal env user manager before after) w = (.ok none, w) ∨
      (∃ thrown, exec (managerRefusal env user manager before after) w = (.error thrown, w)) ∨
      exec (managerRefusal env user manager before after) w = (.ok (some managerGone), w) ∨
      exec (managerRefusal env user manager before after) w =
        (.ok (some (.ok true (some (.other "self_manager", SELF_MANAGER_MESSAGE)) before after)), w) := by
  unfold managerRefusal
  cases manager with
  | none => exact Or.inl rfl
  | some dn =>
    dsimp only
    split
    · exact Or.inr (Or.inr (Or.inr rfl))
    · rw [exec_bind]
      rcases exec_atSite_pure env .manager (env.objects.byDn dn) w with read | ⟨thrown, read⟩
      · rw [read]
        dsimp only
        split
        · exact Or.inl rfl
        · exact Or.inr (Or.inr (Or.inl rfl))
      · rw [read]
        exact Or.inr (Or.inl ⟨thrown, rfl⟩)

section Edit
variable {before after : Option Snapshot} {changes : List FieldChange} {refreshed : Option DirectoryUser}

theorem reads_atSite {α : Type} {site : Site} (f : World → α) :
    Attempt.Reads (atSite env site (Attempt.read f)) :=
  Attempt.reads_call (Attempt.reads_read f)

theorem reads_guidOf {dn : Option Text} : Attempt.Reads (guidOf env dn) := by
  cases dn with
  | none => exact Attempt.reads_pure _
  | some dn => exact Attempt.reads_call (Attempt.reads_pure _)

theorem reads_editOutcome : Attempt.Reads (editOutcome env before after changes refreshed) := by
  unfold editOutcome
  split
  · exact Attempt.reads_pure _
  · dsimp only
    split
    · exact Attempt.reads_bind reads_guidOf fun _ => Attempt.reads_bind reads_guidOf fun _ =>
        Attempt.reads_pure _
    · exact Attempt.reads_pure _

/-- Only an edit without changes says that nothing changed. -/
theorem yields_editOutcome : Attempt.Yields
    (fun o => ∀ unchanged reason b a, o = .ok unchanged reason b a → reason = none ∧
      (unchanged = true ↔ changes = []))
    (editOutcome env before after changes refreshed) := by
  unfold editOutcome
  split
  next none =>
    refine Attempt.yields_pure fun unchanged reason b a same => ?_
    cases same
    exact ⟨rfl, iff_of_true rfl (List.isEmpty_iff.mp none)⟩
  next some =>
    have changed : (false = true ↔ changes = []) := by simpa using some
    dsimp only
    split
    · refine Attempt.yields_bind fun _ => Attempt.yields_bind fun _ =>
        Attempt.yields_pure fun unchanged reason b a same => ?_
      cases same
      exact ⟨rfl, changed⟩
    · refine Attempt.yields_pure fun unchanged reason b a same => ?_
      cases same
      exact ⟨rfl, changed⟩

variable {id : Guid} {result : Provider.MutationResult Snapshot}

theorem reads_recordEdit : Attempt.Reads (recordEdit env before after id changes result) := by
  refine Attempt.reads_bind (Attempt.reads_call (Attempt.reads_pure _)) fun _ => ?_
  split
  · exact Attempt.reads_pure _
  · split
    · exact reads_editOutcome
    · exact Attempt.reads_bind (reads_atSite _) fun _ => reads_editOutcome

/-- An edit is recorded as unchanged just where nothing was to change. -/
theorem yields_recordEdit : Attempt.Yields
    (fun o => ∀ unchanged reason b a, o = .ok unchanged reason b a →
      reason = none ∧ (unchanged = true ↔ changes = []) ∧ result.ok = true)
    (recordEdit env before after id changes result) := by
  refine Attempt.yields_bind fun _ => ?_
  split
  next => exact Attempt.yields_pure fun _ _ _ _ same => nomatch same
  next ok =>
    have isOk : result.ok = true := by simpa using ok
    have outcome : ∀ refreshed, Attempt.Yields
      (fun o => ∀ unchanged reason b a, o = .ok unchanged reason b a →
        reason = none ∧ (unchanged = true ↔ changes = []) ∧ result.ok = true)
        (editOutcome env before after changes refreshed) := by
      intro refreshed s o ended unchanged reason b a same
      obtain ⟨noReason, changed⟩ := yields_editOutcome s o ended unchanged reason b a same
      exact ⟨noReason, changed, isOk⟩
    split
    · exact outcome none
    · exact Attempt.yields_bind fun _ => outcome _

end Edit

/-- An edit's row leaves the world, or writes its changes, and tells which. -/
theorem exec_attributesRow {user : DirectoryUser} {before after : Option Snapshot} {w w' : World}
    {answer : Except Thrown RevertOutcome}
    (ran : exec (attributesRow env before after user target) w = (answer, w')) :
    AttributesRow env user target w answer w' := by
  unfold attributesRow at ran
  dsimp only at ran
  rw [exec_bind] at ran
  rcases exec_managerRefusal env user (managerOf (fieldChanges env (liveValues user) target)).join
    before after w with
    none | ⟨thrown, threw⟩ | gone | self
  · rw [none] at ran
    dsimp only at ran
    rw [exec_bind, exec_made] at ran
    dsimp only at ran
    have after := (congrArg Prod.snd ran).symm.trans (reads_recordEdit _)
    refine ⟨Or.inr after, fun unchanged reason b a same => ?_⟩
    obtain ⟨noReason, changed, ok⟩ :=
      yields_recordEdit _ _ ((congrArg Prod.fst ran).trans same) unchanged reason b a rfl
    exact Or.inl ⟨noReason, changed, ok, after⟩
  · rw [threw] at ran
    cases ran
    exact .read fun _ _ _ _ same => nomatch same
  · rw [gone] at ran
    cases ran
    exact .read fun _ _ _ _ same => nomatch same
  · rw [self] at ran
    cases ran
    refine ⟨Or.inl rfl, fun unchanged reason b a same => ?_⟩
    cases same
    exact Or.inr ⟨rfl, rfl, rfl⟩

end Attributes

end OpenAduc.Reverts
