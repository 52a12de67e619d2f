import OpenAduc.ImportRows.Quiet

namespace OpenAduc.ImportRows
open BulkJobs (RowOutcome RowSnapshot GroupChange Changes Consistent consistent_setChange
  id_setChange foldl_setChange
  membershipState alreadyAsAsked changedGroups membershipOutcome membershipOutcome_after
    changedGroups_afterOf)
open Dialogue (Keeps keeps_pure keeps_throw keeps_call)

section
variable {may : Prop} {past : List Said} {α β : Type} {R : α → Prop} {Q : List (String × String) → α → Prop}
  {S : List (String × String) → β → Prop} {m : Asking α} {f : α → Asking β}

/-- It writes memberships only where `may` holds, and what it returns meets `Q` of those made by then. -/
def Adds (may : Prop) (Q : List (String × String) → α → Prop) (past : List Said) (m : Asking α) : Prop :=
  Keeps (Asks may) (fun later r => ∀ a, r = .ok a → Q (added later) a) past m

theorem adds_pure {a : α} (meets : Q (added past) a) : Adds may Q past (pure a) :=
  keeps_pure fun _ same => Except.ok.inj same ▸ meets

theorem adds_throw {e : Thrown} : Adds may Q past (throw e) := keeps_throw fun _ same => nomatch same

theorem Adds.bind (first : Adds may Q past m)
    (rest : ∀ more a, Q (added (past ++ more)) a → Adds may S (past ++ more) (f a)) :
    Adds may S past (m >>= f) :=
  first.chain (fun more a held => rest more a (held a rfl)) fun _ _ _ _ same => nomatch same

theorem Quiet.adds (quiet : Quiet R m) (meets : ∀ a, R a → Q (added past) a) : Adds may Q past m := by
  refine quiet.keeps (fun more a none_ held b same => ?_) fun _ _ _ _ same => nomatch same
  rw [← Except.ok.inj same, none_]
  exact meets a held

/-- What comes first adds nothing. -/
theorem Quiet.addsThen (quiet : Quiet R m)
    (rest : ∀ later a, added later = added past → R a → Adds may S later (f a)) :
    Adds may S past (m >>= f) := by
  have first : Keeps (Asks may) (fun later r => added later = added past ∧ ∀ a, r = .ok a → R a) past m :=
    quiet.keeps (fun more a none_ held => ⟨none_, fun _ same => Except.ok.inj same ▸ held⟩)
      fun more e none_ => ⟨none_, fun _ same => nomatch same⟩
  exact first.chain (fun more a held => rest _ a held.1 (held.2 a rfl)) fun _ _ _ _ same => nomatch same

/-- What a program ends in, its error kept apart: nothing is thrown. -/
theorem keeps_attempt {P : List Said → Except Thrown α → Prop} (kept : Keeps (Asks may) P past m) :
    Keeps (Asks may) (fun later r => ∃ a, r = .ok a ∧ P later a) past (attempt m) := by
  have ended : Keeps (Asks may) (fun later (r : Except Thrown (Except Thrown α)) =>
      match r with
      | .ok x => P later x
      | .error e => P later (.error e)) past (Except.ok <$> m) :=
    kept.chain (fun _ _ held => keeps_pure held) fun _ _ held => held
  exact ended.catching (fun more x held => ⟨x, rfl, held⟩) fun more e held => keeps_pure ⟨.error e, rfl, held⟩

end

section
variable {lower : Lower} {may : Prop} {past : List Said} {base : List (String × String)}
    {user : DirectoryUser}

/-- The list has an entry for the group of each of these gains, and only entries of members. -/
structure Lists (groups : List GroupChange) (gains : List (String × String)) : Prop where
  consistent : Consistent .add groups
  entry : ∀ x ∈ gains, ∃ c ∈ groups, c.id = x.2

/-- What's said of the write, and recorded: only an error of the recording leaves open what was added. -/
def Written (before : List (String × String)) (user : DirectoryUser) (group : ImportGroup)
    (now : List (String × String)) :
    Except Thrown MembershipResult → Prop
  | .ok result => now = before ++ Said.adds ⟨.writeMembership .add user.objectGuid group, .ok result⟩
  | .error (.unavailable _) => now = before
  | .error _ => True

theorem keeps_recordEvent (event : AuditEvent) :
    Keeps (Asks may) (fun later r => added later = added past ∧ ∀ audited,
      r ≠ .error (.unavailable audited)) past
      (Asking.recordEvent event) := by
  have asked : Keeps (Asks may) (fun later _ => added later = added past) past
    (Dialogue.call (Question.recordEvent event)) :=
    keeps_call (fun writes => nomatch writes) fun x => by
      rw [added_append]
      exact List.append_nil _
  refine asked.catching (fun more a same => ⟨same, fun _ => nofun⟩) fun more err same =>
    keeps_throw ⟨same, fun audited threw => ?_⟩
  cases err <;> cases threw

theorem written_error {group : ImportGroup} {before now : List (String × String)} {e : Thrown}
    (other : ∀ audited, (.error e : Except Thrown Unit) ≠ .error (.unavailable audited)) :
    Written before user group now (.error e) := by
  cases e with
  | unavailable audited => exact absurd rfl (other audited)
  | _ => trivial

/-- A membership written is the one the group and the user have. -/
theorem adds_write (allowed : may) (group : ImportGroup) :
    Adds may (Written (added past) user group) past (attempt (writeGroupMembership .add user group)) := by
  have asked : Keeps (Asks may)
    (fun later r => added later = added past ++ Said.adds ⟨.writeMembership .add user.objectGuid group, r⟩)
      past (Asking.writeMembership .add user.objectGuid group) :=
    keeps_call (fun _ => allowed) fun x => by rw [added_append, added, added, List.flatMap_singleton]
  have recorded : Keeps (Asks may) (fun later r => Written (added past) user group (added later) r) past
      (writeGroupMembership .add user group) := by
    refine (keeps_attempt asked).chain (fun more r held => ?_) fun more e held => ?_
    case refine_2 =>
      obtain ⟨x, same, _⟩ := held
      cases same
    obtain ⟨x, same, held⟩ := held
    rw [Except.ok.inj same]
    cases x with
    | ok result =>
      exact (keeps_recordEvent _).chain (fun more _ recorded => keeps_pure (recorded.1.trans held))
        fun more e recorded => written_error recorded.2
    | error err =>
      refine (keeps_recordEvent _).chain (fun more _ recorded => keeps_throw ?_)
        fun more e recorded => written_error recorded.2
      cases err with
      | unavailable audited => exact recorded.1.trans (held.trans (List.append_nil _))
      | _ => trivial
  exact (keeps_attempt recorded).mono (fun _ _ => id) fun more r held a same => by
    obtain ⟨x, ended, held⟩ := held
    rwa [← Except.ok.inj (ended.symm.trans same)]

/-- A group that isn't their primary one has them already only as the write says. -/
theorem direct_of_already {group : BulkJobs.CachedGroup} {primaryGroupId : Option String} {direct : Bool}
    (secondary : membershipState group primaryGroupId false ≠ .primary)
    (already : alreadyAsAsked .add (membershipState group primaryGroupId direct) = true) : direct = true := by
  cases direct with
  | true => rfl
  | false =>
    have other : membershipState group primaryGroupId false ≠ .direct := by
      unfold membershipState
      split
      next direct => cases direct
      next => split <;> [split; skip] <;> exact fun same => nomatch same
    rw [alreadyAsAsked, decide_eq_true_eq] at already
    exact (already.elim other secondary).elim

theorem adds_none {group : ImportGroup} {result : MembershipResult}
    (none_ : ¬(result.ok = true ∧ result.isMember ≠ some true)) :
    Said.adds ⟨.writeMembership .add user.objectGuid group, .ok result⟩ = [] := if_neg none_

/-- One group's change lists what it adds. -/
theorem adds_changeGroup (allowed : may) (groups : String → Option ImportGroup) (c : Changes)
    (groupId : String)
    (lists : Lists c.changes (base ++ added past)) :
    Adds may (fun now r => Lists r.1.changes (base ++ now)) past
      (changeGroup .add user groups c groupId) := by
  unfold changeGroup
  dsimp only
  split
  · exact (quiet_askDatabase rfl).addsThen fun later _ same _ => adds_pure (same ▸ lists)
  next group _ =>
    split
    · exact (quiet_askDatabase rfl).addsThen fun later _ same _ => adds_pure (same ▸ lists)
    next secondary =>
      refine (adds_write allowed group).bind fun more r written => ?_
      split
      · exact adds_pure (written ▸ lists)
      · exact adds_throw
      next result =>
        have written : added (past ++ more) =
            added past ++ Said.adds ⟨.writeMembership .add user.objectGuid group, .ok result⟩ := written
        split
        next refused =>
          rw [adds_none fun both => absurd both.1 (by rw [refused]; nofun), List.append_nil] at written
          exact adds_pure (written ▸ lists)
        next =>
          split
          next already =>
            have member := direct_of_already (fun primary => secondary ⟨rfl, primary⟩) already
            rw [adds_none fun both => both.2 (of_decide_eq_true member), List.append_nil] at written
            exact adds_pure (written ▸ lists)
          next =>
            refine adds_pure ⟨consistent_setChange lists.consistent rfl, fun x gained => id_setChange.mpr ?_⟩
            rw [written, ← List.append_assoc] at gained
            refine (List.mem_append.mp gained).imp (lists.entry x) fun now => ?_
            unfold Said.adds at now
            dsimp only at now
            split at now
            · rw [List.mem_singleton.mp now]
            · cases now

theorem adds_changeGroups (allowed : may) (groups : String → Option ImportGroup) (c : Changes)
    (groupIds : List String)
    (lists : Lists c.changes (base ++ added past)) :
    Adds may (fun now c => Lists c.changes (base ++ now)) past
      (changeGroups .add user groups c groupIds) := by
  induction groupIds generalizing c past with
  | nil => exact adds_pure lists
  | cons groupId rest ih =>
    refine (adds_changeGroup allowed groups c groupId lists).bind fun more r lists => ?_
    obtain ⟨c', stopped⟩ := r
    dsimp only
    split
    · exact adds_pure lists
    · exact ih c' lists

/-- What a membership row lists of earlier runs it keeps, and lists what it adds. -/
theorem adds_membershipRow (allowed : may) (earlier : List GroupChange) (groupIds : List String)
    (lists : Lists earlier (base ++ added past)) :
    Adds may (fun now outcome => Lists (changedGroups outcome.after) (base ++ now)) past
      (membershipRow lower .add earlier groupIds user) := by
  refine (quiet_findCachedGroups groupIds).addsThen fun later cached same _ => ?_
  have nothing : Consistent .add [] := fun _ none_ => nomatch none_
  obtain ⟨consistent, _, all⟩ := foldl_setChange lists.consistent nothing
  have start : Lists (earlier.foldl BulkJobs.setChange []) (base ++ added later) := by
    refine ⟨consistent, fun x gained => ?_⟩
    rw [same] at gained
    obtain ⟨c, member, id⟩ := lists.entry x gained
    obtain ⟨h, member, id'⟩ := all c member
    exact ⟨h, member, id'.trans id⟩
  refine (adds_changeGroups allowed _ _ groupIds start).bind fun more c lists => ?_
  have outcome : Lists (changedGroups (membershipOutcome .add c).after) (base ++ added (later ++ more)) := by
    rwa [membershipOutcome_after, changedGroups_afterOf]
  split
  · exact (quiet_refreshMembershipCache user.objectGuid).addsThen fun _ _ same _ => adds_pure (same ▸ outcome)
  · exact adds_pure outcome

/-- After the groups step its list has every membership made. -/
theorem adds_groupsStep (allowed : may) (progress : ImportRowProgress) (input : RowInput)
    (lists : Lists progress.groups (base ++ added past)) :
    Adds may (fun now r => Lists r.1.groups (base ++ now)) past (groupsStep lower progress input user) := by
  refine (adds_membershipRow allowed progress.groups _ lists).bind fun more outcome changed => ?_
  have kept : Lists (keptGroups progress outcome.after).groups (base ++ added (past ++ more)) := by
    cases after : outcome.after with
    | some after => 
      rw [after] at changed
      exact changed
    | none =>
      rw [after] at changed
      exact ⟨lists.consistent, fun x gained => nomatch (changed.entry x gained).choose_spec.1⟩
  cases outcome with
  | ok => exact adds_pure kept
  | failed => exact adds_pure kept

/-- What a row stores lists these gains, or there are none. -/
def Stores (after : Option ImportRowProgress) (gains : List (String × String)) : Prop :=
  match after with
  | some progress => Lists progress.groups gains
  | none => gains = []

theorem stores_outcomeOf {progress : ImportRowProgress} {failures : List Failure}
    {gains : List (String × String)}
    (lists : Lists progress.groups gains) : Stores (outcomeOf progress failures).after gains := by
  unfold outcomeOf
  split <;> exact lists

/-- Groups and manager: memberships are written only where the groups step isn't done. -/
theorem adds_lastSteps (input : RowInput) (progress : ImportRowProgress) (failures : List Failure)
    (allowed : .groups ∉ progress.completed → may) (lists : Lists progress.groups (base ++ added past)) :
    Adds may (fun now outcome => Stores outcome.after (base ++ now))
      past (lastSteps lower input user progress failures) := by
  have grouped : Adds may (fun now r => Lists r.1.groups (base ++ now)) past
    (groupsIfLeft lower input user progress failures) := by
    unfold groupsIfLeft
    split
    · exact adds_pure lists
    next left =>
      exact (adds_groupsStep (allowed left) progress input lists).bind fun _ r lists => adds_pure lists
  refine grouped.bind fun more r lists => ?_
  have managed : Quiet (fun outcome => Stores outcome.after (base ++ added (past ++ more)))
    (managerIfLeft lower input user r.1 r.2) := by
    unfold managerIfLeft
    split
    · exact quiet_pure (stores_outcomeOf lists)
    · refine (quiet_setManager user input).then fun failure => ?_
      cases failure with
      | some failure => exact quiet_pure (stores_outcomeOf lists)
      | none => exact quiet_pure (stores_outcomeOf lists)
  exact managed.adds fun _ => id

/-- What a run stores lists every membership it made. -/
theorem adds_followUp (row : Row) (standing : Standing)
    (allowed : .groups ∉ standing.progress.completed → may)
    (lists : Lists standing.progress.groups (base ++ added past)) :
    Adds may (fun now outcome => Stores outcome.after (base ++ now)) past (followUp lower row standing) := by
  have same : (withNothingToDo row.input standing.progress).groups = standing.progress.groups := by
    unfold withNothingToDo
    split <;> split <;> rfl
  have done : .groups ∈ standing.progress.completed →
    .groups ∈ (withNothingToDo row.input standing.progress).completed := by
    intro done
    unfold withNothingToDo
    split <;> split <;> simp [mem_mergeSteps, done]
  refine (quiet_accountOf standing.user _ row.input).addsThen fun later user none_ _ => ?_
  refine (quiet_readLive user).addsThen fun later' live none_' _ => ?_
  rw [← same, ← none_, ← none_'] at lists
  cases live with
  | none => exact adds_pure (stores_outcomeOf lists)
  | some live => exact adds_lastSteps row.input _ _ (fun left => allowed fun has => left (done has)) lists

/-- A run may write memberships: the row's stored progress isn't done with them. -/
def Undone (row : Row) : Prop := ∀ progress, row.after = some progress → .groups ∉ progress.completed

/-- A run of a row that stores what was gained stores it, and what the run adds. -/
theorem adds_runImportRow (row : Row) (correlationId : Option String) (stores : Stores row.after base) :
    Adds (Undone row) (fun now outcome => Stores outcome.after (base ++ now)) []
      (runImportRow lower row correlationId) := by
  refine (quiet_askDatabase rfl).addsThen fun afterJob job none_ _ => ?_
  refine (quiet_earlierRuns row job).addsThen fun afterFound found none_' held => ?_
  have nothing : added afterFound = [] := none_'.trans none_
  cases found with
  | none =>
    have fresh : base = [] := by
      rw [show row.after = none from held] at stores
      exact stores
    refine (quiet_createAccount row _ job correlationId).addsThen fun afterCreate created same ungrouped => ?_
    have none_ : base ++ added afterCreate = [] := by rw [fresh, same, nothing]; rfl
    cases created with
    | refused outcome =>
      refine adds_pure ?_
      rw [none_, show outcome.after = none from ungrouped]
      rfl
    | ok progress user failure =>
      refine adds_followUp row _ (fun _ _ stored => nomatch held.symm.trans stored) ?_
      rw [none_, show progress.groups = [] from ungrouped]
      exact ⟨fun _ none_ => (nomatch none_), fun _ none_ => nomatch none_⟩
  | some progress =>
    refine (quiet_resume row job progress).addsThen fun afterResume found same kept => ?_
    have nothing : added afterResume = [] := same.trans nothing
    cases found with
    | none =>
      refine adds_pure ?_
      rw [nothing, List.append_nil]
      exact stores
    | some standing =>
      obtain ⟨groups, completed⟩ := kept standing rfl
      refine adds_followUp row standing (fun left p stored done => ?_) ?_
      · rcases held with stored' | ⟨stored', _⟩
        · rw [stored, Option.some.injEq] at stored'
          exact left (completed _ (stored' ▸ done))
        · exact nomatch stored.symm.trans stored'
      · rw [nothing, List.append_nil, groups]
        rcases held with stored | ⟨stored, none_⟩
        · rw [stored] at stores
          exact stores
        · rw [stored] at stores
          rw [none_, show base = [] from stores]
          exact ⟨fun _ none_ => (nomatch none_), fun _ none_ => nomatch none_⟩

end

end OpenAduc.ImportRows
