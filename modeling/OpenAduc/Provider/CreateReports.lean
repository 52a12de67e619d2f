import OpenAduc.Provider.UserCreate

namespace OpenAduc.Provider.UserCreate
open Naming (Text text decimal decimalOf)
open UserCreation (UserCreateStep)

/-- AD's order. -/
def USER_CREATE_STEPS : List UserCreateStep := [.create, .password, .groups, .enable]

/-- The step's write went through; of the groups, each that there is took the account. -/
def Applied (t : List Event) : UserCreateStep → Prop
  | .groups => .began .groups ∈ t ∧ ∀ dn err, .group dn (some err) ∈ t → err.kind = .noSuchObject
  | s => .answered s none ∈ t

def IsMember (key : Text → Text) (objects : Text → Option Object) (groupDn dn : Text) : Prop :=
  ∃ o, objects (key groupDn) = some o ∧ holdsMember key o dn

def Enabled (key : Text → Text) (objects : Text → Option Object) (dn : Text) : Prop :=
  ∃ o, objects (key dn) = some o ∧ ∃ v, o USER_ACCOUNT_CONTROL = [v] ∧ decimalOf v &&& ACCOUNTDISABLE = 0

/-- How the steps asked ended: all done, stopped at one that failed, or none begun. -/
inductive Ends (asked : List UserCreateStep) (r : UserCreateResult) : Prop
  | all (ok : r.ok = true) (none : r.failedStep = none) (done : r.completed = asked)
  | failed (s : UserCreateStep) (rest : List UserCreateStep) (ok : r.ok = false)
    (here : r.failedStep = some s)
      (done : asked = r.completed ++ s :: rest)
  | notBegun (ok : r.ok = false) (none : r.failedStep = none) (done : r.completed = [])

def GroupsStepResult.parts (g : GroupsStepResult) : List Text :=
  g.added ++ g.failed.map FailedGroup.dn ++ g.missing

/-- The groups the account was added to. -/
def addedTo (groups : Option GroupsStepResult) : List Text := (groups.map GroupsStepResult.added).getD []

/-- What is reported of steps, against what was done, to the objects as they were before. -/
structure Tells (key : Text → Text) (dn : Text) (groupDns : List Text)
    (before : Text → Option Object) (completed : List UserCreateStep)
    (failedStep : Option UserCreateStep) (groups : Option GroupsStepResult) (w : World) : Prop where
  applied : ∀ s, s ∈ completed ↔ Applied w.trail s
  attempted : ∀ s, .began s ∈ w.trail → s ∈ completed ∨ failedStep = some s
  account : .create ∈ completed → (w.objects (key dn)).isSome
  /-- A step's write is sent in the step. -/
  only : ∀ s refused, .answered s refused ∈ w.trail → s = .create ∨ .began s ∈ w.trail
  silent : ∀ group refused, .group group refused ∈ w.trail → .began .groups ∈ w.trail
  run : groups.isSome ↔ .began .groups ∈ w.trail
  enabled : .enable ∉ completed → Enabled key w.objects dn → Enabled key before dn
  parts : ∀ g, groups = some g → g.parts.Perm groupDns
  members : ∀ group ∈ addedTo groups, IsMember key w.objects group dn
  others : ∀ k, k ≠ key dn → (∀ group ∈ addedTo groups, key group ≠ k) → w.objects k = before k

/-- The whole report of steps asked. -/
structure Reports (key : Text → Text) (dn : Text) (asked : List UserCreateStep) (finish : UserCreateFinish)
    (before : Text → Option Object) (out : UserCreateResult × World) : Prop
    extends Tells key dn finish.groups before out.1.completed out.1.failedStep out.1.groups out.2 where
  ends : Ends asked out.1
  /-- Never enabled in a call whose own password step was not applied. -/
  guarded : .password ∈ asked → ¬Applied out.2.trail .password →
    ¬Applied out.2.trail .enable ∧ (Enabled key out.2.objects dn → Enabled key before dn)

section
variable {key : Text → Text} {outcomes : Outcomes} {w w' : World} {dn groupDn : Text} {o : Object}
    {changes : List Change}

@[simp] theorem exec_emit (e : Event) : Attempt.exec (emit e) w = (.ok (), w.noted e) := rfl

@[simp] theorem exec_liftM {α : Type} (read : Except LdapError α) :
    Attempt.exec (liftM read : Ldap α) w = (read, w) := by
  cases read with
  | ok a => rfl
  | error err => rfl

theorem exec_send {event : Option LdapError → Event} {refused : Option LdapError} {act : Ldap Unit} :
    Attempt.exec (send event refused act) w =
      match refused with
      | some err => (.error err, w.noted (event refused))
      | none => Attempt.exec act (w.noted (event refused)) := by
  unfold send
  rw [Attempt.exec_bind]
  cases refused with
  | some err => rfl
  | none => rfl

/-- A modify is refused, or changes the object that is there. -/
theorem exec_modifyAt (key : Text → Text) (w : World) (event : Option LdapError → Event)
    (fault : Option LdapError) (dn : Text) (changes : List Change) :
    (∃ err, Attempt.exec (modifyAt key event fault dn changes) w = (.error err, w.noted (event (some err)))) ∨
      ∃ o, w.objects (key dn) = some o ∧ Attempt.exec (modifyAt key event fault dn changes) w =
        (.ok (), (w.noted (event none)).put (key dn) (changes.foldl Object.changed o)) := by
  unfold modifyAt
  rw [Attempt.exec_bind, Attempt.exec_get]
  dsimp only
  cases here : w.objects (key dn) with
  | none => exact .inl ⟨_, exec_send⟩
  | some o =>
    cases fault with
    | some err => exact .inl ⟨err, exec_send⟩
    | none => exact .inr ⟨o, rfl, exec_send⟩

theorem changed_other {c : Change} {name : Text} (other : name ≠ c.type) :
    o.changed c name = o name := if_neg other

theorem changes_other {name : Text} (other : ∀ c ∈ changes, name ≠ c.type) :
    changes.foldl Object.changed o name = o name := by
  induction changes generalizing o with
  | nil => rfl
  | cons c rest next =>
    obtain ⟨here, later⟩ := List.forall_mem_cons.mp other
    rw [List.foldl_cons, next later, changed_other here]

theorem objects_put_same (name : Text) : (w.put name o).objects name = some o := if_pos rfl

theorem objects_put_other {name k : Text} (other : k ≠ name) :
    (w.put name o).objects k = w.objects k := if_neg other

/-- Members stay members. -/
def Keeps (key : Text → Text) (before after : Text → Option Object) (dn : Text) : Prop :=
  ∀ group, IsMember key before group dn → IsMember key after group dn

theorem keeps_put {memberDn : Text} (here : w.objects (key dn) = some o)
    (kept : ∀ v ∈ o MEMBER, v ∈ changes.foldl Object.changed o MEMBER) :
    Keeps key w.objects (w.put (key dn) (changes.foldl Object.changed o)).objects memberDn := by
  rintro group ⟨held, there, member⟩
  by_cases same : key group = key dn
  · rw [same, here] at there
    cases there
    obtain ⟨v, inside, named⟩ := List.any_eq_true.mp member
    exact ⟨_, by rw [same]; exact objects_put_same _, List.any_eq_true.mpr ⟨v, kept v inside, named⟩⟩
  · exact ⟨held, (objects_put_other same).trans there, member⟩

/-- An account's flags are as they were where the changes are to other attributes. -/
theorem enabled_put {name : Text} (here : w.objects name = some o)
    (other : ∀ c ∈ changes, USER_ACCOUNT_CONTROL ≠ c.type)
    (enabled : Enabled key (w.put name (changes.foldl Object.changed o)).objects dn) :
    Enabled key w.objects dn := by
  obtain ⟨held, there, v, flags, on⟩ := enabled
  by_cases same : key dn = name
  · rw [same, objects_put_same] at there
    cases there
    rw [changes_other other] at flags
    exact ⟨o, same ▸ here, v, flags, on⟩
  · exact ⟨held, (objects_put_other same).symm.trans there, v, flags, on⟩

theorem exec_isMember_none (outcomes : Outcomes) (place : Nat) (dn : Text)
    (absent : w.objects (key groupDn) = none) :
    ∃ err, Attempt.exec (setMember key outcomes place groupDn dn true) w =
      (.error err, w.noted (.group groupDn (some err))) := by
  unfold setMember
  rw [Attempt.exec_bind, Attempt.exec_get]
  dsimp only
  rw [absent, Attempt.exec_bind, exec_send]
  cases outcomes.search place with
  | none => exact ⟨_, rfl⟩
  | some err => exact ⟨err, rfl⟩

theorem flags_not_member : USER_ACCOUNT_CONTROL ≠ MEMBER := by decide

/-- Asking fails, adding fails, or the account is a member. -/
theorem exec_setMember (key : Text → Text) (outcomes : Outcomes) (w : World) (place : Nat)
    (groupDn dn : Text) :
    (∃ err events, Attempt.exec (setMember key outcomes place groupDn dn true) w =
      (.error err, ⟨w.objects, w.trail ++ events⟩) ∧
      (∀ e ∈ events, e = .group groupDn none ∨ e = .group groupDn (some err)) ∧
      .group groupDn (some err) ∈ events) ∨
    ∃ was w' events, Attempt.exec (setMember key outcomes place groupDn dn true) w = (.ok was, w') ∧
      w'.trail = w.trail ++ events ∧ (∀ e ∈ events, e = .group groupDn none) ∧
      IsMember key w'.objects groupDn dn ∧
      Keeps key w.objects w'.objects dn ∧ (∀ name, Enabled key w'.objects name → Enabled key w.objects name) ∧
      ∀ k, k ≠ key groupDn → w'.objects k = w.objects k := by
  cases here : w.objects (key groupDn) with
  | none =>
    obtain ⟨err, ran⟩ := exec_isMember_none outcomes place dn here
    exact .inl ⟨err, [.group groupDn (some err)], ran, by simp, by simp⟩
  | some o =>
    unfold setMember
    rw [Attempt.exec_bind, Attempt.exec_get]
    dsimp only
    rw [here, Attempt.exec_bind, exec_send]
    cases outcomes.search place with
    | some err => exact .inl ⟨err, [.group groupDn (some err)], rfl, by simp, by simp⟩
    | none =>
      simp only [Option.isNone_some, Bool.false_eq_true, if_false, Option.none_or,
        Attempt.exec_pure, Option.any_some]
      by_cases member : holdsMember key o dn = true
      · refine .inr ⟨true, w.noted (.group groupDn none), [.group groupDn none], ?_,
          rfl, by simp, ⟨o, here, member⟩,
          fun group held => held, fun name on => on, fun k other => rfl⟩
        simp [member]
      · have added := exec_modifyAt key (w.noted (.group groupDn none)) (.group groupDn)
          (outcomes.member place)
          groupDn [⟨.add, MEMBER, [dn]⟩]
        simp only [member, Bool.false_eq_true, ne_eq, not_false_eq_true, if_true, Attempt.exec_bind]
        rcases added with ⟨err, ran⟩ | ⟨o', there, ran⟩
        · refine .inl ⟨err, [.group groupDn none, .group groupDn (some err)], ?_, by simp, by simp⟩
          rw [ran]
          simp [World.noted]
        · cases here.symm.trans there
          refine .inr ⟨false, _,
            [.group groupDn none, .group groupDn none], by rw [ran]; rfl, by simp [World.noted, World.put],
            by simp, ?_, ?_, ?_, ?_⟩
          · refine ⟨_, objects_put_same _, ?_⟩
            simp [holdsMember, Object.changed, Object.put]
          · exact keeps_put (w := (w.noted (.group groupDn none)).noted (.group groupDn none)) here
              fun v inside => by
              simp [Object.changed, Object.put, inside]
          · intro name
            exact enabled_put (w := (w.noted (.group groupDn none)).noted (.group groupDn none)) here
              (List.forall_mem_singleton.mpr flags_not_member)
          · intro k other
            exact objects_put_other other

/-- What some groups' part came to, from what was done before them. -/
structure Joined (key : Text → Text) (dn : Text) (list : List Text) (done : GroupsStepResult) (w : World)
    (done' : GroupsStepResult) (w' : World) : Prop where
  trail : ∃ events, w'.trail = w.trail ++ events ∧ (∀ e ∈ events, ∃ group refused, e = .group group refused) ∧
    (done'.failed = [] ↔ done.failed = [] ∧ ∀ group err, .group group (some err) ∈ events →
      err.kind = .noSuchObject)
  parts : done'.parts.Perm (done.parts ++ list)
  added : ∀ group ∈ done'.added, group ∈ done.added ∨ IsMember key w'.objects group dn
  grows : ∀ group ∈ done.added, group ∈ done'.added
  keeps : Keeps key w.objects w'.objects dn
  flags : ∀ name, Enabled key w'.objects name → Enabled key w.objects name
  others : ∀ k, (∀ group ∈ done'.added, key group ≠ k) → w'.objects k = w.objects k

/-- The groups joined first and those joined then are the groups joined. -/
theorem Joined.trans {first second : List Text} {done done₁ done₂ : GroupsStepResult} {w₁ w₂ : World}
    (left : Joined key dn first done w done₁ w₁) (right : Joined key dn second done₁ w₁ done₂ w₂) :
    Joined key dn (first ++ second) done w done₂ w₂ where
  trail := by
    obtain ⟨events, trail, grouped, failed⟩ := left.trail
    obtain ⟨events', trail', grouped', failed'⟩ := right.trail
    refine ⟨events ++ events', by rw [trail', trail, List.append_assoc], ?_, ?_⟩
    · intro e inside
      exact (List.mem_append.mp inside).elim (grouped e) (grouped' e)
    · rw [failed', failed, and_assoc]
      refine and_congr_right fun _ => ⟨?_, ?_⟩
      · rintro ⟨before, after⟩ group err inside
        exact (List.mem_append.mp inside).elim (before group err) (after group err)
      · intro refused
        exact ⟨fun group err inside => refused group err (List.mem_append_left _ inside),
          fun group err inside => refused group err (List.mem_append_right _ inside)⟩
  parts := by
    rw [← List.append_assoc]
    exact right.parts.trans (left.parts.append_right _)
  added group inside := by
    rcases right.added group inside with before | member
    · rcases left.added group before with before | member
      · exact .inl before
      · exact .inr (right.keeps group member)
    · exact .inr member
  grows group inside := right.grows group (left.grows group inside)
  keeps group member := right.keeps group (left.keeps group member)
  flags name on := left.flags name (right.flags name on)
  others k free :=
    (right.others k free).trans (left.others k fun group inside => free group (right.grows group inside))

theorem joined_nil (done : GroupsStepResult) : Joined key dn [] done w done w where
  trail := ⟨[], by simp⟩
  parts := by simp
  added group inside := .inl inside
  grows group inside := inside
  keeps group member := member
  flags name on := on
  others k free := rfl

/-- One group's part. -/
theorem exec_addToGroup (key : Text → Text) (outcomes : Outcomes) (w : World) (place : Nat)
    (done : GroupsStepResult) (groupDn dn : Text) :
    ∃ done' w', Attempt.exec (tryCatch
        (do
          let _ ← setMember key outcomes place groupDn dn true
          return { done with added := done.added ++ [groupDn] })
        fun err =>
          if err.kind = .noSuchObject then return { done with missing := done.missing ++ [groupDn] }
          else
            let refused := refusalOf err
            return { done with failed := done.failed ++
              [⟨groupDn, refused.reason, refused.errorMessage⟩] } : Ldap _) w =
      (.ok done', w') ∧ Joined key dn [groupDn] done w done' w' := by
  rw [Attempt.exec_tryCatch, Attempt.exec_bind]
  rcases exec_setMember key outcomes w place groupDn dn with
    ⟨err, events, ran, only, here⟩ | ⟨was, w', events, ran, trail, only, member, keeps, flags, others⟩
  · rw [ran]
    have grouped : ∀ e ∈ events, ∃ group refused, e = .group group refused := by
      intro e inside
      rcases only e inside with same | same
      · exact ⟨_, _, same⟩
      · exact ⟨_, _, same⟩
    have same {group : Text} {err' : LdapError} (inside : .group group (some err') ∈ events) :
      err' = err := by
      rcases only _ inside with other | same
      · cases other
      · injection same with _ same
        exact Option.some.inj same
    by_cases missing : err.kind = .noSuchObject
    · dsimp only
      rw [if_pos missing]
      refine ⟨_, _, rfl, ⟨events, rfl, grouped, ?_⟩, ?_, fun group inside => .inl inside,
        fun group inside => inside, fun group held => held, fun name on => on, fun k free => rfl⟩
      · refine ⟨fun none => ⟨none, fun group err' inside => ?_⟩, And.left⟩
        rw [same inside]
        exact missing
      · simp [GroupsStepResult.parts]
    · dsimp only
      rw [if_neg missing]
      refine ⟨_, _, rfl, ⟨events, rfl, grouped, ?_⟩, ?_, fun group inside => .inl inside,
        fun group inside => inside, fun group held => held, fun name on => on, fun k free => rfl⟩
      · refine ⟨fun none => absurd none (by simp), fun passed => absurd (passed.2 groupDn err here) missing⟩
      · simp only [GroupsStepResult.parts, List.map_append, List.map_cons, List.map_nil, List.append_assoc]
        exact (List.perm_append_comm.append_left _).append_left _
  · rw [ran]
    refine ⟨_, w', rfl, ⟨events, trail, ?_, ?_⟩, ?_, ?_, fun group inside =>
      List.mem_append_left _ inside, keeps, flags, ?_⟩
    · intro e inside
      exact ⟨_, _, only e inside⟩
    · refine ⟨fun none => ⟨none, fun group err inside => ?_⟩, And.left⟩
      cases only _ inside
    · simp only [GroupsStepResult.parts, List.append_assoc]
      have moved : ([groupDn] ++ (done.failed.map FailedGroup.dn ++ done.missing)).Perm
          (done.failed.map FailedGroup.dn ++ done.missing ++ [groupDn]) := List.perm_append_comm
      rw [List.append_assoc] at moved
      exact moved.append_left _
    · intro group inside
      rcases List.mem_append.mp inside with before | here
      · exact .inl before
      · cases List.mem_singleton.mp here
        exact .inr member
    · intro k free
      exact others k fun same => free groupDn (List.mem_append_right _ (List.mem_singleton_self _)) same.symm

theorem exec_addToGroups (key : Text → Text) (outcomes : Outcomes) (w : World) (place : Nat)
    (done : GroupsStepResult) (list : List Text) (dn : Text) :
    ∃ done' w', Attempt.exec (addToGroups key outcomes dn place done list) w = (.ok done', w') ∧
      Joined key dn list done w done' w' := by
  induction list generalizing place done w with
  | nil => exact ⟨done, w, rfl, joined_nil done⟩
  | cons groupDn rest next =>
    obtain ⟨done₁, w₁, ran, one⟩ := exec_addToGroup key outcomes w place done groupDn dn
    obtain ⟨done₂, w₂, ran', others⟩ := next w₁ (place + 1) done₁
    refine ⟨done₂, w₂, ?_, one.trans others⟩
    rw [addToGroups, Attempt.exec_bind, ran]
    exact ran'

/-- The account read back, where there is one, is one that can be made a user of. -/
def ReadsBack (outcomes : Outcomes) : Prop :=
  ∀ entry, outcomes.readUser = .ok (some entry) → ∃ user, normalizeUser entry = .ok user

/-- A read that leaves out what it can't read. -/
def orNone {α : Type} : Except LdapError (Option α) → Option α
  | .ok found => found
  | .error _ => none

theorem exec_orNone {α : Type} (read : Except LdapError (Option α)) :
    Attempt.exec (tryCatch (liftM read) fun _ => pure none : Ldap (Option α)) w = (.ok (orNone read), w) := by
  rw [Attempt.exec_tryCatch]
  cases read with
  | ok found => rfl
  | error err => rfl

theorem exec_leftAs : Attempt.exec (leftAs outcomes) w =
    (((orNone outcomes.readUser).mapM normalizeUser).map fun user =>
      (user, orNone (outcomes.readFingerprint.bind accountFingerprint)), w) := by
  unfold leftAs
  rw [Attempt.exec_bind, exec_orNone]
  dsimp only
  rw [Attempt.exec_bind, exec_orNone]
  dsimp only
  cases (orNone outcomes.readUser).mapM normalizeUser with
  | ok user => rfl
  | error err => rfl

/-- What is read back can be made a user of, where there is anything. -/
theorem readsBack_iff : ReadsBack outcomes ↔ ∃ user, (orNone outcomes.readUser).mapM normalizeUser =
    .ok user := by
  unfold ReadsBack
  cases outcomes.readUser with
  | error err => exact iff_of_true (fun entry read => nomatch read) ⟨none, rfl⟩
  | ok found =>
    cases found with
    | none => exact iff_of_true (fun entry read => nomatch read) ⟨none, rfl⟩
    | some entry =>
      constructor
      · intro readable
        obtain ⟨user, made⟩ := readable entry rfl
        exact ⟨some user, by simp [orNone, made]⟩
      · rintro ⟨user, made⟩ entry' read
        cases read
        cases came : normalizeUser entry with
        | ok user => exact ⟨user, rfl⟩
        | error err =>
          simp only [orNone, Option.mapM_some, came] at made
          cases made

theorem exec_reported (readable : ReadsBack outcomes) (refused : Option (UserCreateStep × Refusal))
    (completed : List UserCreateStep)
    (groups : Option GroupsStepResult) :
    ∃ r, Attempt.exec (reported outcomes refused completed groups) w = (.ok r, w) ∧ r.ok = refused.isNone ∧
      r.completed = completed ∧ r.failedStep = refused.map Prod.fst ∧ r.groups = groups := by
  obtain ⟨user, made⟩ := readsBack_iff.mp readable
  unfold reported
  rw [Attempt.exec_bind, exec_leftAs, made]
  exact ⟨_, rfl, rfl, rfl, rfl, rfl⟩

theorem exec_reported_error (unreadable : ¬ReadsBack outcomes) (refused : Option (UserCreateStep × Refusal))
    (completed : List UserCreateStep) (groups : Option GroupsStepResult) :
    ∃ err, Attempt.exec (reported outcomes refused completed groups) w = (.error err, w) := by
  unfold reported
  rw [Attempt.exec_bind, exec_leftAs]
  cases made : (orNone outcomes.readUser).mapM normalizeUser with
  | ok user => exact absurd (readsBack_iff.mpr ⟨user, made⟩) unreadable
  | error err => exact ⟨err, rfl⟩

/-- A step's own write is refused, having changed nothing, or goes through. -/
theorem exec_writeStep {step : UserCreateStep} (key : Text → Text) (outcomes : Outcomes) (w : World)
    (dn : Text) (finish : UserCreateFinish) (own : step = .password ∨ step = .enable) :
    (∃ err, Attempt.exec (writeStep key outcomes dn finish step) w =
      (.error err, w.noted (.answered step (some err)))) ∨
      ∃ w', Attempt.exec (writeStep key outcomes dn finish step) w = (.ok (), w') ∧
        w'.trail = w.trail ++ [.answered step none] ∧ Keeps key w.objects w'.objects dn ∧
        (step = .enable ∨ ¬Enabled key w'.objects dn) ∧ (w'.objects (key dn)).isSome ∧
        ∀ k, k ≠ key dn → w'.objects k = w.objects k := by
  have written (event : Option LdapError → Event) (fault : Option LdapError) (changes : List Change)
      (apart : ∀ c ∈ changes, MEMBER ≠ c.type)
        (disables : step = .enable ∨ ∀ o, changes.foldl Object.changed o USER_ACCOUNT_CONTROL =
        [decimal (NORMAL_ACCOUNT ||| ACCOUNTDISABLE)]) :
      (∃ err, Attempt.exec (modifyAt key event fault dn changes) w =
        (.error err, w.noted (event (some err)))) ∨
        ∃ w', Attempt.exec (modifyAt key event fault dn changes) w = (.ok (), w') ∧
          w'.trail = w.trail ++ [event none] ∧ Keeps key w.objects w'.objects dn ∧
          (step = .enable ∨ ¬Enabled key w'.objects dn) ∧ (w'.objects (key dn)).isSome ∧
          ∀ k, k ≠ key dn → w'.objects k = w.objects k := by
    rcases exec_modifyAt key w event fault dn changes with refused | ⟨o, here, ran⟩
    · exact .inl refused
    · refine .inr ⟨_, ran, rfl, ?_, ?_, by rw [objects_put_same]; rfl, fun k other => objects_put_other other⟩
      · refine keeps_put (w := w.noted (event none)) here fun v inside => ?_
        rw [changes_other apart]
        exact inside
      · refine disables.imp_right fun flags => ?_
        rintro ⟨held, there, v, same, on⟩
        rw [objects_put_same] at there
        cases there
        rw [flags o] at same
        cases List.cons.inj same |>.1
        exact absurd on (by decide)
  rcases own with rfl | rfl
  · refine written _ _ _ ?_ (.inr fun o => ?_)
    · cases finish.mustChange <;> simp [passwordChanges, accountControlChange] <;> decide
    · rw [List.foldl_append]
      simp [Object.changed, Object.put, accountControlChange]
  · exact written _ _ _ (List.forall_mem_singleton.mpr flags_not_member.symm) (.inl rfl)

/-- What a write's two events add to the steps applied. -/
theorem applied_write {t : List Event} {step s : UserCreateStep} {refused : Option LdapError}
    (own : step ≠ .groups) :
    Applied (t ++ [.began step] ++ [.answered step refused]) s ↔ Applied t s ∨ s = step ∧ refused = none := by
  cases s with
  | groups =>
    have other : UserCreateStep.groups ≠ step := own.symm
    simp [Applied, other]
  | create | password | enable => simp [Applied, eq_comm]

theorem applied_groups {t events : List Event} {s : UserCreateStep}
    (grouped : ∀ e ∈ events, ∃ group refused, e = .group group refused)
    (quiet : ∀ group refused, .group group refused ∉ t) :
    Applied (t ++ [.began .groups] ++ events) s ↔
      if s = .groups then ∀ group err, .group group (some err) ∈ events → err.kind = .noSuchObject
      else Applied t s := by
  have answered (s : UserCreateStep) (refused : Option LdapError) : .answered s refused ∉ events := by
    intro inside
    obtain ⟨group, refused', same⟩ := grouped _ inside
    cases same
  cases s with
  | groups => simp [Applied, quiet]
  | create | password | enable => simp [Applied, answered]

section Steps
variable {finish : UserCreateFinish} {before : Text → Option Object}
    {completed completed' : List UserCreateStep}
  {failedStep : Option UserCreateStep} {groups : Option GroupsStepResult} {step : UserCreateStep}

/-- A step's write, refused or not. -/
theorem Tells.wrote {refused : Option LdapError}
    (tells : Tells key dn finish.groups before completed none groups w)
    (own : step = .password ∨ step = .enable)
    (trail : w'.trail = w.trail ++ [.began step] ++ [.answered step refused])
    (now : ∀ s, s ∈ completed' ↔ s ∈ completed ∨ s = step ∧ refused = none)
    (stopped : step ∈ completed' ∨ failedStep = some step)
    (keeps : Keeps key w.objects w'.objects dn)
    (stays : (w.objects (key dn)).isSome → (w'.objects (key dn)).isSome)
    (flags : .enable ∉ completed' → Enabled key w'.objects dn → Enabled key w.objects dn)
    (others : ∀ k, k ≠ key dn → w'.objects k = w.objects k) :
    Tells key dn finish.groups before completed' failedStep groups w' where
  applied s := by
    have other : step ≠ .groups := by rcases own with rfl | rfl <;> decide
    rw [now, trail, applied_write other, tells.applied s]
  attempted s began := by
    simp only [trail, List.mem_append, List.mem_singleton, Event.began.injEq, reduceCtorEq, or_false] at began
    rcases began with began | rfl
    · rcases tells.attempted s began with done | none
      · exact .inl ((now s).mpr (.inl done))
      · cases none
    · exact stopped
  account made := by
    refine stays (tells.account (((now _).mp made).resolve_right ?_))
    rintro ⟨same, -⟩
    rcases own with rfl | rfl <;> cases same
  only s refused' answered := by
    simp only [trail, List.mem_append, List.mem_singleton, reduceCtorEq, or_false,
      Event.answered.injEq, Event.began.injEq]
      at answered ⊢
    rcases answered with answered | ⟨rfl, -⟩
    · exact (tells.only s refused' answered).imp_right .inl
    · exact .inr (.inr rfl)
  silent group refused' asked := by
    simp only [trail, List.mem_append, List.mem_singleton, reduceCtorEq, or_false] at asked ⊢
    exact .inl (tells.silent group refused' asked)
  run := by
    have other : UserCreateStep.groups ≠ step := by rcases own with rfl | rfl <;> decide
    simp only [trail, List.mem_append, List.mem_singleton, reduceCtorEq, or_false, Event.began.injEq, other]
    exact tells.run
  enabled off on := by
    refine tells.enabled (fun done => off ((now _).mpr (.inl done))) (flags off on)
  parts := tells.parts
  members group inside := keeps group (tells.members group inside)
  others k other free := (others k other).trans (tells.others k other free)

/-- The groups step, whatever came of it. -/
theorem Tells.joined {done : GroupsStepResult} {w₁ : World}
    (tells : Tells key dn finish.groups before completed none groups w)
    (fresh : .groups ∉ completed) (start : w₁ = w.noted (.began .groups))
    (joined : Joined key dn finish.groups ⟨[], [], []⟩ w₁ done w')
    (now : ∀ s, s ∈ completed' ↔ s ∈ completed ∨ s = .groups ∧ done.failed = [])
    (stopped : .groups ∈ completed' ∨ failedStep = some .groups) :
    Tells key dn finish.groups before completed' failedStep (some done) w' := by
  subst start
  obtain ⟨events, trail, grouped, failed⟩ := joined.trail
  have idle : .began .groups ∉ w.trail := by
    intro began
    rcases tells.attempted _ began with done | none
    · exact fresh done
    · cases none
  have none : groups = none := by
    cases groups with
    | none => rfl
    | some g => exact absurd (tells.run.mp rfl) idle
  subst none
  have trail : w'.trail = w.trail ++ [.began .groups] ++ events := trail
  refine ⟨fun s => ?_, fun s began => ?_, fun made => ?_, fun s refused answered =>
    ?_, fun group refused asked => ?_, ?_, fun off on => ?_, ?_, ?_, ?_⟩
  · rw [now, trail, applied_groups grouped fun group refused asked =>
      idle (tells.silent group refused asked), tells.applied s, failed]
    by_cases same : s = .groups
    · subst same
      simp [Applied, idle]
    · simp [same]
  · simp only [trail, List.mem_append, List.mem_singleton, Event.began.injEq] at began
    rcases began with (began | rfl) | inside
    · rcases tells.attempted s began with done | none
      · exact .inl ((now s).mpr (.inl done))
      · cases none
    · exact stopped
    · obtain ⟨group, refused, same⟩ := grouped _ inside
      cases same
  · have there := tells.account (((now _).mp made).resolve_right (by simp))
    by_cases here : ∃ group ∈ done.added, key group = key dn
    · obtain ⟨group, inside, same⟩ := here
      obtain ⟨o, held, -⟩ := (joined.added group inside).resolve_left List.not_mem_nil
      rw [← same, held]
      rfl
    · rw [joined.others (key dn) fun group inside same => here ⟨group, inside, same⟩]
      exact there
  · simp only [trail, List.mem_append, List.mem_singleton, reduceCtorEq, or_false] at answered ⊢
    rcases answered with answered | inside
    · exact (tells.only s refused answered).imp_right fun began => .inl (.inl began)
    · obtain ⟨group, refused', same⟩ := grouped _ inside
      cases same
  · simp [trail]
  · simp [trail]
  · exact tells.enabled (fun done => off ((now _).mpr (.inl done))) (joined.flags dn on)
  · rintro g ⟨⟩
    exact joined.parts.trans (by simp [GroupsStepResult.parts])
  · intro group inside
    exact (joined.added group inside).resolve_left List.not_mem_nil
  · intro k other free
    exact (joined.others k free).trans (tells.others k other (by simp [addedTo]))

/-- The steps asked that are still to do. -/
def stepsLeft (completed steps : List UserCreateStep) : List UserCreateStep :=
  steps.filter fun s => !completed.contains s

theorem stepsLeft_snoc {rest : List UserCreateStep} (fresh : step ∉ rest) :
    stepsLeft (completed ++ [step]) rest = stepsLeft completed rest := by
  refine List.filter_congr fun s inside => ?_
  have other : s ≠ step := fun same => fresh (same ▸ inside)
  simp [other]

/-- What a run of the steps comes to, from those completed before it. -/
def Ran (key : Text → Text) (dn : Text) (completed asked : List UserCreateStep) (finish : UserCreateFinish)
    (before : Text → Option Object) (out : Except LdapError UserCreateResult × World) : Prop :=
  ∃ r w, out = (.ok r, w) ∧ completed ⊆ r.completed ∧
    Tells key dn finish.groups before r.completed r.failedStep r.groups w ∧ Ends asked r

theorem Ran.after {asked : List UserCreateStep} {out : Except LdapError UserCreateResult × World}
    (ran : Ran key dn (completed ++ [step]) asked finish before out) :
    Ran key dn completed asked finish before out := by
  obtain ⟨r, w, same, kept, rest⟩ := ran
  exact ⟨r, w, same, fun s inside => kept (List.mem_append_left _ inside), rest⟩

theorem ran_done (readable : ReadsBack outcomes)
    (tells : Tells key dn finish.groups before completed none groups w) :
    Ran key dn completed completed finish before
      (Attempt.exec (reported outcomes none completed groups) w) := by
  obtain ⟨r, ran, ok, done, failed, same⟩ := exec_reported (w := w) readable none completed groups
  refine ⟨r, w, ran, by rw [done]; exact List.Subset.refl _, ?_, .all ok failed done⟩
  rw [done, failed, same]
  exact tells

theorem ran_failed {reason : Refusal} {rest : List UserCreateStep} (readable : ReadsBack outcomes)
    (tells : Tells key dn finish.groups before completed (some step) groups w) :
    Ran key dn completed (completed ++ step :: rest) finish before
      (Attempt.exec (reported outcomes (some (step, reason)) completed groups) w) := by
  obtain ⟨r, ran, ok, done, failed, same⟩ :=
    exec_reported (w := w) readable (some (step, reason)) completed groups
  refine ⟨r, w, ran, by rw [done]; exact List.Subset.refl _, ?_, .failed step rest ok failed (by rw [done])⟩
  rw [done, failed, same]
  exact tells

/-- The steps run tell of each what it came to, and stop at the first refused. -/
theorem ran_runCreateSteps (readable : ReadsBack outcomes) (steps : List UserCreateStep) (once : steps.Nodup)
    (created : .create ∈ steps → .create ∈ completed)
    (tells : Tells key dn finish.groups before completed none groups w) :
    Ran key dn completed (completed ++ stepsLeft completed steps) finish before
      (Attempt.exec (runCreateSteps key outcomes dn finish completed groups steps) w) := by
  induction steps generalizing completed groups w with
  | nil =>
    rw [runCreateSteps, stepsLeft, List.filter_nil, List.append_nil]
    exact ran_done readable tells
  | cons step rest next =>
    obtain ⟨apart, single⟩ := List.nodup_cons.mp once
    rw [runCreateSteps]
    by_cases done : completed.contains step = true
    · have skipped : stepsLeft completed (step :: rest) = stepsLeft completed rest :=
        List.filter_cons_of_neg (by rw [done]; decide)
      rw [if_pos done, skipped]
      exact next single (fun inside => created (List.mem_cons_of_mem _ inside)) tells
    · have kept : stepsLeft completed (step :: rest) = step :: stepsLeft completed rest :=
        List.filter_cons_of_pos (by simpa using done)
      have fresh : step ∉ completed := by simpa using done
      have later : .create ∈ rest → .create ∈ completed ++ [step] := fun inside =>
        List.mem_append_left _ (created (List.mem_cons_of_mem _ inside))
      have onwards : completed ++ step :: stepsLeft completed rest =
          completed ++ [step] ++ stepsLeft (completed ++ [step]) rest := by
        rw [stepsLeft_snoc apart, List.append_assoc, List.singleton_append]
      rw [if_neg done, kept, Attempt.exec_bind, exec_emit]
      dsimp only
      by_cases isGroups : step = .groups
      · subst isGroups
        obtain ⟨out, w', ran, joined⟩ :=
          exec_addToGroups key outcomes (w.noted (.began .groups)) 0 ⟨[], [], []⟩ finish.groups dn
        rw [if_pos rfl, Attempt.exec_bind, ran]
        dsimp only
        cases failed : out.failed with
        | nil =>
          rw [onwards]
          refine Ran.after (next single later ?_)
          refine (tells.joined fresh rfl joined (fun s => ?_) (.inl (by simp)))
          simp [failed]
        | cons first more =>
          refine ran_failed readable (tells.joined fresh rfl joined (fun s => ?_) (.inr rfl))
          simp [failed]
      · have own : step = .password ∨ step = .enable := by
          cases step with
          | password => exact .inl rfl
          | enable => exact .inr rfl
          | groups => exact absurd rfl isGroups
          | create => exact absurd (created List.mem_cons_self) fresh
        rw [if_neg isGroups, Attempt.exec_bind, Attempt.exec_tryCatch, Attempt.exec_bind]
        rcases exec_writeStep key outcomes (w.noted (.began step)) dn finish own with
          ⟨err, ran⟩ | ⟨w', ran, trail, keeps, flags, there, others⟩
        · rw [ran]
          refine ran_failed readable (tells.wrote own rfl (fun s => ?_) (.inr rfl) (fun group held => held) id
            (fun off on => on) fun k other => rfl)
          simp
        · rw [ran, onwards]
          refine Ran.after (next single later ?_)
          refine (tells.wrote own trail (fun s => ?_) (.inl (by simp)) keeps (fun _ => there) ?_ others)
          · simp
          · intro off on
            rcases flags with rfl | disabled
            · exact absurd (by simp) off
            · exact absurd on disabled

/-- A run whose account can't be made a user of throws, with what it did done. -/
theorem runCreateSteps_error (unreadable : ¬ReadsBack outcomes) (key : Text → Text) (dn : Text)
    (finish : UserCreateFinish)
    (completed : List UserCreateStep) (groups : Option GroupsStepResult)
    (steps : List UserCreateStep) (w : World)
    (created : .create ∈ steps → .create ∈ completed) :
    ∃ err w', Attempt.exec (runCreateSteps key outcomes dn finish completed groups steps) w =
      (.error err, w') ∧
      w.trail ⊆ w'.trail ∧ (steps = [] → w' = w) ∧ ∀ s rest, steps = s :: rest → s ∉ completed →
      .began s ∈ w'.trail := by
  induction steps generalizing completed groups w with
  | nil =>
    obtain ⟨err, ran⟩ := exec_reported_error (w := w) unreadable none completed groups
    exact ⟨err, w, ran, List.Subset.refl _, fun _ => rfl, fun s rest same => nomatch same⟩
  | cons step rest next =>
    rw [runCreateSteps]
    by_cases done : completed.contains step = true
    · obtain ⟨err, w', ran, grew, -, -⟩ := next completed groups w
        fun inside => created (List.mem_cons_of_mem _ inside)
      rw [if_pos done]
      refine ⟨err, w', ran, grew, List.cons_ne_nil _ _ |>.elim, ?_⟩
      rintro s rest' ⟨⟩ fresh
      exact absurd (by simpa using done) fresh
    · have later : .create ∈ rest → .create ∈ completed ++ [step] := fun inside =>
        List.mem_append_left _ (created (List.mem_cons_of_mem _ inside))
      -- the rest of the run, from a world that has the step begun
      have closes (w₁ : World) {out : Except LdapError UserCreateResult × World}
        (grown : (w.noted (.began step)).trail ⊆ w₁.trail)
          (ends : ∃ err w', out = (.error err, w') ∧ w₁.trail ⊆ w'.trail) :
          ∃ err w', out = (.error err, w') ∧ w.trail ⊆ w'.trail ∧ (step :: rest = [] → w' = w) ∧
            ∀ s rest', step :: rest = s :: rest' → s ∉ completed → .began s ∈ w'.trail := by
        obtain ⟨err, w', ran, grew⟩ := ends
        refine ⟨err, w', ran, fun e inside => grew (grown (List.mem_append_left _ inside)),
          List.cons_ne_nil _ _ |>.elim, ?_⟩
        rintro s rest' ⟨⟩ -
        exact grew (grown (List.mem_append_right _ (List.mem_singleton_self _)))
      rw [if_neg done, Attempt.exec_bind, exec_emit]
      dsimp only
      by_cases isGroups : step = .groups
      · subst isGroups
        obtain ⟨out, w₁, ran, joined⟩ :=
          exec_addToGroups key outcomes (w.noted (.began .groups)) 0 ⟨[], [], []⟩ finish.groups dn
        obtain ⟨events, trail, -⟩ := joined.trail
        rw [if_pos rfl, Attempt.exec_bind, ran]
        refine closes w₁ (by rw [trail]; exact List.subset_append_left _ _) ?_
        dsimp only
        cases out.failed with
        | nil =>
          obtain ⟨err, w', ended, grew, -⟩ := next (completed ++ [.groups]) (some out) w₁ later
          exact ⟨err, w', ended, grew⟩
        | cons first more =>
          obtain ⟨err, ended⟩ := exec_reported_error (w := w₁) unreadable
            (some (.groups, ⟨first.reason, groupsRefused (first :: more)⟩)) completed (some out)
          exact ⟨err, w₁, ended, List.Subset.refl _⟩
      · have own : step = .password ∨ step = .enable := by
          cases step with
          | password => exact .inl rfl
          | enable => exact .inr rfl
          | groups => exact absurd rfl isGroups
          | create => exact absurd (by simpa using created List.mem_cons_self) done
        rw [if_neg isGroups, Attempt.exec_bind, Attempt.exec_tryCatch, Attempt.exec_bind]
        rcases exec_writeStep key outcomes (w.noted (.began step)) dn finish own with
          ⟨err, ran⟩ | ⟨w₁, ran, trail, -⟩
        · rw [ran]
          refine closes ((w.noted (.began step)).noted (.answered step (some err)))
            (List.subset_append_left _ _) ?_
          obtain ⟨err', ended⟩ :=
            exec_reported_error (w := (w.noted (.began step)).noted (.answered step (some err))) unreadable
            (some (step, if step = .password then classifyPasswordError err else refusalOf err))
              completed groups
          exact ⟨err', _, ended, List.Subset.refl _⟩
        · rw [ran]
          refine closes w₁ (by rw [trail]; exact List.subset_append_left _ _) ?_
          obtain ⟨err, w', ended, grew, -⟩ := next (completed ++ [step]) groups w₁ later
          exact ⟨err, w', ended, grew⟩

end Steps

theorem putGiven_other {o : Object} {given : List (Text × Option Text)} {name : Text}
    (other : ∀ x ∈ given, name ≠ x.1) :
    o.putGiven given name = o name := by
  unfold Object.putGiven
  induction given generalizing o with
  | nil => rfl
  | cons x rest next =>
    obtain ⟨here, later⟩ := List.forall_mem_cons.mp other
    rw [List.foldl_cons, next later]
    cases x.2.filter (· ≠ []) with
    | none => rfl
    | some value => exact if_neg here

theorem organised_other {o : Object} {name : Text} (organisation : List (NewUserOrganisationField × Text))
    (other : ∀ field : NewUserOrganisationField, name ≠ field.attributeName) :
    organisation.foldl (fun o x => o.put x.1.attributeName [x.2]) o name = o name := by
  induction organisation generalizing o with
  | nil => rfl
  | cons x rest next =>
    rw [List.foldl_cons, next]
    exact if_neg (other x.1)

/-- A new account is disabled, whatever else it is given. -/
theorem newAttributes_flags (input : UserCreateInput) :
    newAttributes input USER_ACCOUNT_CONTROL = [decimal (NORMAL_ACCOUNT ||| ACCOUNTDISABLE)] := by
  have organisation (field : NewUserOrganisationField) : USER_ACCOUNT_CONTROL ≠ field.attributeName := by
    cases field <;> decide
  unfold newAttributes
  rw [putGiven_other (List.forall_mem_singleton.mpr (show USER_ACCOUNT_CONTROL ≠ text "manager" by decide)),
    organised_other _ organisation, putGiven_other]
  · exact if_pos rfl
  · simp only [List.forall_mem_cons]
    refine ⟨?_, ?_, ?_, ?_, ?_, ?_, ?_, ?_, fun x none => absurd none List.not_mem_nil⟩ <;> decide

/-- The add is refused, or makes the account where there was none. -/
theorem exec_add (key : Text → Text) (outcomes : Outcomes) (w : World) (dn : Text) (attrs : Object) :
    (∃ err, Attempt.exec (add key outcomes dn attrs) w =
      (.error err, w.noted (.answered .create (some err))) ∧
      ¬(outcomes.write .create = none ∧ w.objects (key dn) = none)) ∨
    outcomes.write .create = none ∧ w.objects (key dn) = none ∧
      Attempt.exec (add key outcomes dn attrs) w =
      (.ok (), (w.noted (.answered .create none)).put (key dn) attrs) := by
  unfold add
  rw [Attempt.exec_bind, Attempt.exec_get]
  dsimp only
  rw [exec_send]
  cases outcomes.write .create with
  | some err => exact .inl ⟨err, rfl, fun passed => nomatch passed.1⟩
  | none =>
    cases w.objects (key dn) with
    | some o => exact .inl ⟨_, rfl, fun passed => nomatch passed.2⟩
    | none => exact .inr ⟨rfl, rfl, rfl⟩

section
variable {finish : UserCreateFinish} {before : Text → Option Object} {asked steps : List UserCreateStep}

/-- A report of steps in AD's order. -/
theorem Tells.reports {r : UserCreateResult}
    (tells : Tells key dn finish.groups before r.completed r.failedStep r.groups w)
    (ends : Ends asked r) (order : asked.Sublist USER_CREATE_STEPS) :
    Reports key dn asked finish before (r, w) := by
  refine { tells with ends := ends, guarded := fun wanted left => ?_ }
  have undone : .password ∉ r.completed := fun done => left ((tells.applied _).mp done)
  have off : .enable ∉ r.completed := by
    intro enabled
    cases ends with
    | all _ _ done => exact undone (done ▸ wanted)
    | notBegun _ _ none => rw [none] at enabled; exact absurd enabled List.not_mem_nil
    | failed s rest _ _ done =>
      have last : USER_CREATE_STEPS.Pairwise fun a _ => a ≠ .enable := by decide
      have apart := (List.pairwise_append.mp (done ▸ last.sublist order)).2.2
      rcases List.mem_append.mp (done ▸ wanted) with before | later
      · exact undone before
      · exact apart _ enabled _ later rfl
  exact ⟨fun applied => off ((tells.applied _).mpr applied), tells.enabled off⟩

/-- Nothing was begun, and nothing is reported done. -/
theorem reports_notBegun {r : UserCreateResult} (none : ∃ reason message, r = notDone reason message)
    (trail : ∀ e ∈ w.trail, ∃ err, e = .answered .create (some err)) (same : w.objects = before)
    (order : asked.Sublist USER_CREATE_STEPS) : Reports key dn asked finish before (r, w) := by
  obtain ⟨reason, message, rfl⟩ := none
  subst same
  have idle (s : UserCreateStep) : .began s ∉ w.trail := by
    intro inside
    obtain ⟨err, same⟩ := trail _ inside
    cases same
  have unanswered (s : UserCreateStep) : .answered s none ∉ w.trail := by
    intro inside
    obtain ⟨err, same⟩ := trail _ inside
    cases same
  refine Tells.reports ⟨fun s => ?_, fun s began => absurd began (idle s), fun made =>
    absurd made List.not_mem_nil,
    fun s refused answered => ?_, fun group refused asked => ?_, ?_, fun _ on =>
      on, (fun g none => nomatch none),
    fun group inside => absurd inside List.not_mem_nil, fun k _ _ => rfl⟩ (.notBegun rfl rfl rfl) order
  · refine iff_of_false List.not_mem_nil fun applied => ?_
    cases s with
    | groups => exact idle _ applied.1
    | create | password | enable => exact unanswered _ applied
  · obtain ⟨err, same⟩ := trail _ answered
    cases same
    exact .inl rfl
  · obtain ⟨err, same⟩ := trail _ asked
    cases same
  · exact iff_of_false (by simp [notDone]) (idle .groups)

end

/-- A bind that fails reports nothing done. -/
theorem asOperator_bind {fault : BindFault} (body : Ldap UserCreateResult) (objects : Text → Option Object)
    (failed : outcomes.bind = some fault) :
    ∃ reason message, asOperator outcomes body objects = (notDone reason message, ⟨objects, []⟩) := by
  unfold asOperator
  rw [failed]
  cases fault with
  | refused => exact ⟨_, _, rfl⟩
  | unreachable message => exact ⟨_, _, rfl⟩

/-- Bound, what is thrown reports nothing done. -/
theorem asOperator_bound {body : Ldap UserCreateResult} {objects : Text → Option Object}
    (bound : outcomes.bind = none) :
    asOperator outcomes body objects =
      match Attempt.exec body ⟨objects, []⟩ with
      | (.ok r, w) => (r, w)
      | (.error err, w) => (notDone (refusalOf err).reason (refusalOf err).errorMessage, w) := by
  unfold asOperator Attempt.settle
  rw [bound]
  dsimp only
  split <;> simp_all

end

/-- What a create is asked: the add, then the steps. -/
def createSteps (steps : List UserCreateStep) : List UserCreateStep := .create :: stepsLeft [.create] steps

theorem createSteps_order {steps : List UserCreateStep} (order : steps.Sublist USER_CREATE_STEPS) :
    (createSteps steps).Sublist USER_CREATE_STEPS := by
  have kept := order.filter fun s => !([.create] : List UserCreateStep).contains s
  exact kept.cons_cons .create

/-- The report of a create, and that it names no step exactly where no account was added. -/
def CreateTold (key : Text → Text) (outcomes : Outcomes) (input : UserCreateInput)
    (steps : List UserCreateStep)
    (finish : UserCreateFinish) (objects : Text → Option Object) : Prop :=
  let out := createUser key outcomes input steps finish objects
  Reports key input.dn (createSteps steps) finish objects out ∧
    (out.1.completed = [] ↔ out.2.objects (key input.dn) = objects (key input.dn))

/-- The add is sent, and goes through. -/
def Adds (key : Text → Text) (outcomes : Outcomes) (input : UserCreateInput)
    (objects : Text → Option Object) : Prop :=
  outcomes.bind = none ∧ outcomes.clash = .ok none ∧ outcomes.write .create = none ∧
    objects (key input.dn) = none

/-- The account a finish is of. -/
def target (outcomes : Outcomes) : Option User :=
  match outcomes.bind, outcomes.find with
  | none, .ok (some entry) => (normalizeUser entry).toOption
  | _, _ => none

def FinishTold (key : Text → Text) (outcomes : Outcomes) (steps : List UserCreateStep)
    (finish : UserCreateFinish)
    (objects : Text → Option Object) : Prop :=
  Reports key (((target outcomes).map User.distinguishedName).getD []) steps finish objects
    (finishUserCreate key outcomes steps finish objects)

section
variable {key : Text → Text} {outcomes : Outcomes} {input : UserCreateInput}
    {steps : List UserCreateStep} {finish : UserCreateFinish}
  {objects : Text → Option Object}

/-- Of the add alone. -/
theorem tells_added (key : Text → Text) (objects : Text → Option Object) (input : UserCreateInput)
    (finish : UserCreateFinish) :
    Tells key input.dn finish.groups objects [.create] none none
      ((World.noted ⟨objects, []⟩ (.answered .create none)).put (key input.dn) (newAttributes input)) where
  applied s := by
    cases s <;> simp [Applied, World.noted, World.put]
  attempted s began := by simp [World.noted, World.put] at began
  account _ := by
    rw [objects_put_same]
    rfl
  only s refused answered := by
    simp only [World.noted, World.put, List.nil_append, List.mem_singleton, Event.answered.injEq] at answered
    exact .inl answered.1
  silent group refused asked := by simp [World.noted, World.put] at asked
  run := by simp [World.noted, World.put]
  enabled _ on := by
    obtain ⟨o, there, v, flags, on⟩ := on
    rw [objects_put_same] at there
    cases there
    rw [newAttributes_flags] at flags
    cases List.cons.inj flags |>.1
    exact absurd on (by decide)
  parts g none := by cases none
  members group inside := absurd inside List.not_mem_nil
  others k other _ := objects_put_other other

theorem tells_start (key : Text → Text) (objects : Text → Option Object) (dn : Text)
    (finish : UserCreateFinish) : Tells key dn finish.groups objects [] none none ⟨objects, []⟩ where
  applied s := by cases s <;> simp [Applied]
  attempted s began := absurd began List.not_mem_nil
  account made := absurd made List.not_mem_nil
  only s refused answered := absurd answered List.not_mem_nil
  silent group refused asked := absurd asked List.not_mem_nil
  run := by simp
  enabled _ on := on
  parts g none := by cases none
  members group inside := absurd inside List.not_mem_nil
  others k _ _ := rfl

/-- Nothing added. -/
theorem createTold_notBegun {reason : Reason} {message : Text} {w : World}
    (order : steps.Sublist USER_CREATE_STEPS)
    (came : createUser key outcomes input steps finish objects = (notDone reason message, w))
    (trail : ∀ e ∈ w.trail, ∃ err, e = .answered .create (some err)) (same : w.objects = objects) :
    CreateTold key outcomes input steps finish objects := by
  unfold CreateTold
  rw [came]
  exact ⟨reports_notBegun ⟨reason, message, rfl⟩ trail same (createSteps_order order),
    iff_of_true rfl (by rw [same])⟩

/-- Bound, with no name taken, it is the add that decides. -/
theorem createUser_bound (key : Text → Text) (input : UserCreateInput) (steps : List UserCreateStep)
    (finish : UserCreateFinish)
    (objects : Text → Option Object) (bound : outcomes.bind = none) (clear : outcomes.clash = .ok none) :
    (∃ err, createUser key outcomes input steps finish objects =
        (notDone (refusalOf err).reason (refusalOf err).errorMessage,
          World.noted ⟨objects, []⟩ (.answered .create (some err))) ∧
      ¬Adds key outcomes input objects) ∨
    Adds key outcomes input objects ∧ createUser key outcomes input steps finish objects =
      match Attempt.exec (runCreateSteps key outcomes input.dn finish [.create] none steps)
        ((World.noted ⟨objects, []⟩ (.answered .create none)).put (key input.dn) (newAttributes input)) with
      | (.ok r, w) => (r, w)
      | (.error err, w) => (notDone (refusalOf err).reason (refusalOf err).errorMessage, w) := by
  unfold createUser
  rw [asOperator_bound bound, clear, Attempt.exec_bind]
  rw [exec_liftM]
  dsimp only
  rw [Attempt.exec_bind, Attempt.exec_tryCatch, Attempt.exec_bind]
  rcases exec_add key outcomes ⟨objects, []⟩ input.dn (newAttributes input) with
    ⟨err, ran, fails⟩ | ⟨sent, free, ran⟩
  · rw [ran]
    exact .inl ⟨err, rfl, fun adds => fails ⟨adds.2.2.1, adds.2.2.2⟩⟩
  · rw [ran]
    exact .inr ⟨⟨bound, clear, sent, free⟩, rfl⟩

/-- A create tells what it did, but where it added an account it can't read. -/
theorem createUser_told (order : steps.Sublist USER_CREATE_STEPS) :
    CreateTold key outcomes input steps finish objects ↔
      (Adds key outcomes input objects → ReadsBack outcomes) := by
  cases bound : outcomes.bind with
  | some fault =>
    obtain ⟨reason, message, came⟩ := asOperator_bind _ objects bound
    exact iff_of_true (createTold_notBegun order came (by simp) rfl) fun adds =>
      absurd adds.1 (by simp [bound])
  | none =>
    cases clash : outcomes.clash with
    | error err =>
      have came : createUser key outcomes input steps finish objects =
          (notDone (refusalOf err).reason (refusalOf err).errorMessage, ⟨objects, []⟩) := by
        unfold createUser
        rw [asOperator_bound bound, clash]
        rfl
      exact iff_of_true (createTold_notBegun order came (by simp) rfl) fun adds =>
        absurd adds.2.1 (by simp [clash])
    | ok taken =>
      cases taken with
      | some message =>
        have came : createUser key outcomes input steps finish objects =
          (notDone .conflict message, ⟨objects, []⟩) := by
          unfold createUser
          rw [asOperator_bound bound, clash]
          rfl
        exact iff_of_true (createTold_notBegun order came (by simp) rfl) fun adds =>
          absurd adds.2.1 (by simp [clash])
      | none =>
        rcases createUser_bound key input steps finish objects bound
          clash with ⟨err, came, refused⟩ | ⟨adds, came⟩
        · exact iff_of_true (createTold_notBegun order came (by simp [World.noted]) rfl) fun adds =>
            absurd adds refused
        · have told : CreateTold key outcomes input steps finish objects ↔ ReadsBack outcomes := by
            unfold CreateTold
            rw [came]
            constructor
            · intro told
              by_contra unreadable
              obtain ⟨err, w', ran, grew, -⟩ :=
                runCreateSteps_error unreadable key input.dn finish [.create] none steps
                ((World.noted ⟨objects, []⟩ (.answered .create none)).put (key input.dn)
                  (newAttributes input)) fun _ => List.mem_singleton_self _
              rw [ran] at told
              have applied : Applied w'.trail .create :=
                grew (List.mem_append_right _ (List.mem_singleton_self _))
              exact absurd ((told.1.applied .create).mpr applied) List.not_mem_nil
            · intro readable
              have once : steps.Nodup := order.nodup (by decide)
              obtain ⟨r, w', ran, kept, tells, ends⟩ :=
                ran_runCreateSteps readable steps once (fun _ => List.mem_singleton_self _)
                (tells_added key objects input finish)
              rw [ran]
              have created : .create ∈ r.completed := kept (List.mem_singleton_self _)
              refine ⟨tells.reports ends (createSteps_order order), iff_of_false ?_ ?_⟩
              · intro none
                rw [none] at created
                exact absurd created List.not_mem_nil
              · intro same
                have there := tells.account created
                rw [same, adds.2.2.2] at there
                cases there
          exact told.trans ⟨fun readable _ => readable, fun readable => readable adds⟩

/-- Without an account to finish, nothing is begun. -/
theorem finishUserCreate_untargeted (key : Text → Text) (steps : List UserCreateStep)
    (finish : UserCreateFinish)
    (objects : Text → Option Object) (none : target outcomes = none) :
    ∃ reason message, finishUserCreate key outcomes steps finish objects =
      (notDone reason message, ⟨objects, []⟩) := by
  unfold target at none
  cases bound : outcomes.bind with
  | some fault => exact asOperator_bind _ objects bound
  | none =>
    unfold finishUserCreate
    rw [asOperator_bound bound, Attempt.exec_bind, exec_liftM]
    cases found : outcomes.find with
    | error err => exact ⟨_, _, rfl⟩
    | ok entry =>
      cases entry with
      | none => exact ⟨_, _, rfl⟩
      | some entry =>
        simp only [bound, found] at none
        cases came : normalizeUser entry with
        | ok user => rw [came] at none; cases none
        | error err =>
          dsimp only
          rw [Attempt.exec_bind, exec_liftM, came]
          exact ⟨_, _, rfl⟩

/-- A finish that finds its account runs the steps on it. -/
theorem finishUserCreate_targeted {user : User} (found : target outcomes = some user) :
    finishUserCreate key outcomes steps finish objects =
      match Attempt.exec (runCreateSteps key outcomes user.distinguishedName finish [] none steps)
      ⟨objects, []⟩ with
      | (.ok r, w) => (r, w)
      | (.error err, w) => (notDone (refusalOf err).reason (refusalOf err).errorMessage, w) := by
  unfold target at found
  cases bound : outcomes.bind with
  | some fault => simp [bound] at found
  | none =>
    cases read : outcomes.find with
    | error err => simp [bound, read] at found
    | ok entry =>
      cases entry with
      | none => simp [bound, read] at found
      | some entry =>
        simp only [bound, read] at found
        cases came : normalizeUser entry with
        | error err => rw [came] at found; cases found
        | ok made =>
          rw [came] at found
          cases Option.some.inj found
          unfold finishUserCreate
          rw [asOperator_bound bound, read, Attempt.exec_bind, exec_liftM]
          dsimp only
          rw [Attempt.exec_bind, exec_liftM, came]

/-- A finish tells what it did, but where it began on an account it can't read. -/
theorem finishUserCreate_told (order : steps.Sublist USER_CREATE_STEPS) (added : .create ∉ steps) :
    FinishTold key outcomes steps finish objects ↔
      ((target outcomes).isSome → steps ≠ [] → ReadsBack outcomes) := by
  unfold FinishTold
  cases found : target outcomes with
  | none =>
    obtain ⟨reason, message, came⟩ :=
      finishUserCreate_untargeted key steps finish objects found
    rw [came]
    exact iff_of_true (reports_notBegun ⟨reason, message, rfl⟩ (by simp) rfl order) fun none => by cases none
  | some user =>
    rw [finishUserCreate_targeted found]
    constructor
    · intro told _ some
      by_contra unreadable
      obtain ⟨step, rest, rfl⟩ := List.exists_cons_of_ne_nil some
      obtain ⟨err, w', ran, -, -, began⟩ :=
        runCreateSteps_error unreadable key user.distinguishedName finish []
        none (step :: rest) ⟨objects, []⟩ fun inside => absurd inside added
      rw [ran] at told
      rcases told.attempted step (began step rest rfl List.not_mem_nil) with done | failed
      · exact absurd done List.not_mem_nil
      · cases failed
    · intro readable
      by_cases read : ReadsBack outcomes
      · have once : steps.Nodup := order.nodup (by decide)
        obtain ⟨r, w', ran, -, tells, ends⟩ := ran_runCreateSteps read steps once
          (fun inside => absurd inside added) (tells_start key objects user.distinguishedName finish)
        rw [ran]
        have asked : stepsLeft [] steps = steps := List.filter_eq_self.mpr fun s _ => by simp
        rw [asked] at ends
        exact tells.reports ends order
      · have none : steps = [] := by_contra fun some => read (readable rfl some)
        subst none
        obtain ⟨err, w', ran, -, same, -⟩ :=
          runCreateSteps_error read key user.distinguishedName finish [] none []
          ⟨objects, []⟩ fun inside => absurd inside added
        rw [ran, same rfl]
        exact reports_notBegun ⟨_, _, rfl⟩ (by simp) rfl order

/-- A create or a finish tells exactly what it did, save where it began something and the account
read back then can't be made a user of. -/
theorem creates_told_iff (key : Text → Text) (outcomes : Outcomes) (input : UserCreateInput)
    (steps : List UserCreateStep)
    (finish : UserCreateFinish) (objects : Text → Option Object) (order : steps.Sublist USER_CREATE_STEPS) :
    (CreateTold key outcomes input steps finish objects ↔
      (Adds key outcomes input objects → ReadsBack outcomes)) ∧
      (.create ∉ steps →
        (FinishTold key outcomes steps finish objects ↔
          ((target outcomes).isSome → steps ≠ [] → ReadsBack outcomes))) :=
  ⟨createUser_told order, finishUserCreate_told order⟩

/-- An account of the directory's whose GUID may be seen can be made a user of, so all that was done
is told. -/
theorem told_of_shown (order : steps.Sublist USER_CREATE_STEPS)
    (shown : ∀ entry, outcomes.readUser = .ok (some entry) → ∃ ad account, entry.Shows ad account) :
    CreateTold key outcomes input steps finish objects ∧
      (.create ∉ steps → FinishTold key outcomes steps finish objects) := by
  have readable : ReadsBack outcomes := by
    intro entry read
    obtain ⟨ad, account, isShown⟩ := shown entry read
    obtain ⟨sid, made⟩ := normalizeUser_shows isShown
    exact ⟨_, made⟩
  exact ⟨(createUser_told order).mpr fun _ => readable, fun added =>
    (finishUserCreate_told order added).mpr fun _ _ => readable⟩

end

def jane : UserCreateInput where
  dn := text "CN=Jane,OU=Staff"
  cn := text "Jane"
  samAccountName := text "jane"
  userPrincipalName := text "jane"
  givenName := text "Jane"
  surname := text "Doe"
  displayName := text "Jane Doe"
  mail := none
  otherMailbox := none
  mobile := none
  telephoneNumber := none
  organisation := []
  manager := none
  initials := none
  employeeId := none
  description := none
  usageLocation := none

/-- Everything goes through; the account is read back as this. -/
def goesThrough (readBack : Option Entry) : Outcomes where
  bind := none
  clash := .ok none
  find := .ok readBack
  write _ := none
  search _ := none
  member _ := none
  readUser := .ok readBack
  readFingerprint := .ok readBack

def janeEntry (objectGUID : Option (List UInt8)) : Entry where
  objectGUID := objectGUID
  objectSid := none
  distinguishedName := some jane.dn
  whenCreated := none
  uSNChanged := none
  pwdLastSet := none
  lastLogonTimestamp := none

theorem readsBack_jane : ReadsBack (goesThrough (some (janeEntry (some (List.replicate 16 1))))) := by
  rintro entry ⟨⟩
  exact ⟨_, rfl⟩

theorem creates_told_jane :
    CreateTold id (goesThrough (some (janeEntry (some (List.replicate 16 1))))) jane
      [.create, .password, .enable]
        ⟨text "pw", true, []⟩ (fun _ => none) ∧
      FinishTold id (goesThrough (some (janeEntry (some (List.replicate 16 1))))) [.password, .enable]
        ⟨text "pw", true, []⟩ (fun _ => none) :=
  ⟨(creates_told_iff id _ jane [.create, .password, .enable] ⟨text "pw", true, []⟩ (fun _ => none)
    (by decide)).1.mpr
      fun _ => readsBack_jane,
    ((creates_told_iff id _ jane [.password, .enable] ⟨text "pw", true, []⟩ (fun _ => none)
      (by decide)).2 (by decide)).mpr
      fun _ _ => readsBack_jane⟩

/-- The account is there, with its password, and enabled, and nothing of it is reported. -/
theorem create_untold :
    (createUser id (goesThrough (some (janeEntry none))) jane [.create, .password, .enable]
      ⟨text "pw", true, []⟩
        fun _ => none).1.completed = [] ∧
      ((createUser id (goesThrough (some (janeEntry none))) jane [.create, .password, .enable]
        ⟨text "pw", true, []⟩
        fun _ => none).2.objects jane.dn).isSome ∧
      ¬CreateTold id (goesThrough (some (janeEntry none))) jane [.create, .password, .enable]
      ⟨text "pw", true, []⟩
        fun _ => none := by
  refine ⟨rfl, rfl, fun told => ?_⟩
  obtain ⟨user, made⟩ := (createUser_told (by decide)).mp told ⟨rfl, rfl, rfl, rfl⟩ _ rfl
  cases made

end OpenAduc.Provider.UserCreate
