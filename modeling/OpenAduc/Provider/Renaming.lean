import OpenAduc.Provider.Rename
import OpenAduc.Provider.Truthful

namespace OpenAduc.Provider
open Naming (Text text)
open Attempt (settle settle_bind)

/-- What a field of the request makes of an attribute. -/
def FieldAsked (f : Field) (old new : Option Text) : Prop :=
  match clean f with
  | .omitted => new = old
  | .cleared => new = none
  | .given value => new = some value

theorem wanted_asked (old : Option Text) (f : Field) : FieldAsked f old ((wanted old f).getD old) := by
  unfold FieldAsked wanted
  cases clean f with
  | omitted => rfl
  | cleared =>
    by_cases same : old = none
    · simp [same]
    · simp [same]
  | given value =>
    by_cases same : old = some value
    · simp [same]
    · simp [same]

/-- A value is only written where it is another one. -/
theorem wanted_differs {old new : Option Text} {f : Field} (wants : wanted old f = some new) : new ≠ old := by
  unfold wanted at wants
  split at wants
  · cases wants
  · split at wants
    · cases wants
    next other =>
      cases wants
      exact fun same => other same.symm
  · split at wants
    · cases wants
    next other =>
      cases wants
      exact fun same => other same.symm

theorem applyChange_scalar (a : Attributes) (name other : RenameAttribute) (value : Option Text) :
    other.current (applyChange a (.scalar name value)) = if name = other then value else other.current a := by
  cases name <;> cases other <;> rfl

/-- The attributes no scalar change touches. -/
theorem applyChange_scalar_kept (a : Attributes) (name : RenameAttribute) (value : Option Text) :
    let b := applyChange a (.scalar name value)
    b.mail = a.mail ∧ b.proxyAddresses = a.proxyAddresses ∧ b.userAccountControl = a.userAccountControl ∧
      b.isCriticalSystemObject = a.isCriticalSystemObject ∧ b.accountExpires = a.accountExpires := by
  cases name <;> exact ⟨rfl, rfl, rfl, rfl, rfl⟩

/-- Each name listed takes the value it wants; the others stay. -/
theorem applyChanges_scalars (wants : RenameAttribute → Option (Option Text))
    (names : List RenameAttribute) (a : Attributes) :
    let b := applyChanges (names.filterMap fun name => (wants name).map (.scalar name)) a
    (∀ other : RenameAttribute, other.current b =
      if other ∈ names then (wants other).getD (other.current a) else other.current a) ∧
    b.mail = a.mail ∧ b.proxyAddresses = a.proxyAddresses ∧ b.userAccountControl = a.userAccountControl ∧
      b.isCriticalSystemObject = a.isCriticalSystemObject ∧ b.accountExpires = a.accountExpires := by
  induction names generalizing a with
  | nil => exact ⟨fun other => by simp [applyChanges], rfl, rfl, rfl, rfl, rfl⟩
  | cons name names ih =>
    cases want : wants name with
    | none =>
      obtain ⟨values, rest⟩ := ih a
      simp only [List.filterMap_cons, want, Option.map_none]
      refine ⟨fun other => ?_, rest⟩
      rw [values other]
      by_cases same : other = name
      · subst same
        simp [want]
      · simp [same]
    | some value =>
      obtain ⟨values, mail, proxies, uac, critical, expires⟩ := ih (applyChange a (.scalar name value))
      obtain ⟨mail', proxies', uac', critical', expires'⟩ := applyChange_scalar_kept a name value
      simp only [List.filterMap_cons, want, Option.map_some]
      refine ⟨fun other => ?_, mail.trans mail', proxies.trans proxies', uac.trans uac',
        critical.trans critical',
        expires.trans expires'⟩
      refine (values other).trans ?_
      rw [applyChange_scalar]
      by_cases same : other = name
      · subst same
        simp [want]
      · simp [same, Ne.symm same]

theorem RenameAttribute.mem_all (name : RenameAttribute) : name ∈ RenameAttribute.all := by
  cases name <;> simp [RenameAttribute.all]

theorem applyChanges_scalarChanges (a : Attributes) (input : UserRenameInput) :
    let b := applyChanges (scalarChanges a input) a
    (∀ name : RenameAttribute, name.current b = (wanted (name.current a) (name.field input)).getD
      (name.current a)) ∧
    b.mail = a.mail ∧ b.proxyAddresses = a.proxyAddresses ∧ b.userAccountControl = a.userAccountControl ∧
      b.isCriticalSystemObject = a.isCriticalSystemObject ∧ b.accountExpires = a.accountExpires := by
  obtain ⟨values, rest⟩ :=
    applyChanges_scalars (fun name => wanted (name.current a) (name.field input)) RenameAttribute.all a
  exact ⟨fun name => (values name).trans (if_pos name.mem_all), rest⟩

theorem applyChanges_append (first rest : List AttributeChange) (a : Attributes) :
    applyChanges (first ++ rest) a = applyChanges rest (applyChanges first a) := List.foldl_append

/-- The addresses a new primary address leaves the account with. -/
structure ProxiesAsked (lower : Text → Text) (input : UserRenameInput) (old new : Attributes) : Prop where
  kept : new.mail = old.mail ∨ old.proxyAddresses = [] → new.proxyAddresses = old.proxyAddresses
  replaced : new.mail ≠ old.mail → old.proxyAddresses ≠ [] →
    new.proxyAddresses.Perm (nextProxyAddresses lower old.proxyAddresses new.mail input.keepOldEmailAsAlias)

/-- The name and attributes are as asked, and nothing else of the account has changed. -/
structure RenameAsked (lower : Text → Text) (input : UserRenameInput) (e e' : Entry) : Prop where
  scalars : ∀ name : RenameAttribute, FieldAsked (name.field input) (name.current e.attributes)
    (name.current e'.attributes)
  cn : ∀ cn, clean input.cn = .given cn → e'.cn = cn
  cnKept : (∀ cn, clean input.cn ≠ .given cn) → e'.rdn = e.rdn
  email : FieldAsked input.email e.attributes.mail e'.attributes.mail
  proxyAddresses : ProxiesAsked lower input e.attributes e'.attributes
  parent : e'.parent = e.parent
  others : e'.attributes.userAccountControl = e.attributes.userAccountControl ∧
    e'.attributes.isCriticalSystemObject = e.attributes.isCriticalSystemObject ∧
    e'.attributes.accountExpires = e.attributes.accountExpires

/-- The account as the plan's writes leave it. -/
def renamedEntry (lower : Text → Text) (e : Entry) (input : UserRenameInput) : Entry :=
  let plan := planUserRename lower e input
  (e.named ((plan.newCn.map cnOf).getD e.rdn) e.parent).changed (applyChanges plan.attributes)

/-- The mail and the proxy addresses come out as the plan has them. -/
theorem applyChanges_emailChanges (lower : Text → Text) (a b : Attributes) (input : UserRenameInput)
    (mail : b.mail = a.mail) (proxies : b.proxyAddresses = a.proxyAddresses) :
    let c := applyChanges (emailChanges lower a input) b
    (∀ name : RenameAttribute, name.current c = name.current b) ∧
      c.mail = (wanted a.mail input.email).getD a.mail ∧
      ProxiesAsked lower input a c ∧ c.userAccountControl = b.userAccountControl ∧
      c.isCriticalSystemObject = b.isCriticalSystemObject ∧ c.accountExpires = b.accountExpires := by
  unfold emailChanges
  cases wants : wanted a.mail input.email with
  | none => exact ⟨fun _ => rfl, mail, ⟨fun _ => proxies, fun changed => absurd mail changed⟩, rfl, rfl, rfl⟩
  | some email =>
    have differs := wanted_differs wants
    dsimp only
    split
    next writes =>
      refine ⟨fun name => by cases name <;> rfl, rfl, ⟨fun kept => ?_, fun _ _ => .refl _⟩, rfl, rfl, rfl⟩
      rcases kept with same | none
      · exact absurd same differs
      · exact absurd none writes.1
    next same =>
      refine ⟨fun name => by cases name <;> rfl, rfl, ⟨fun _ => proxies, fun _ listed => ?_⟩, rfl, rfl, rfl⟩
      have perm := List.isPerm_iff.mp (by_contra fun other => same ⟨listed, other⟩)
      show b.proxyAddresses.Perm _
      rw [proxies]
      exact perm.symm

theorem renamedEntry_attributes (lower : Text → Text) (e : Entry) (input : UserRenameInput) :
    (renamedEntry lower e input).attributes =
      applyChanges (emailChanges lower e.attributes input)
      (applyChanges (scalarChanges e.attributes input) e.attributes) :=
  applyChanges_append _ _ _

/-- The plan's changes are what the rename was asked for. -/
theorem renamedEntry_asked (lower : Text → Text) (e : Entry) (input : UserRenameInput) :
    RenameAsked lower input e (renamedEntry lower e input) := by
  obtain ⟨scalars, mail, proxies, uac, critical, expires⟩ := applyChanges_scalarChanges e.attributes input
  obtain ⟨kept, email, proxies', uac', critical', expires'⟩ :=
    applyChanges_emailChanges lower e.attributes _ input mail proxies
  have attributes := renamedEntry_attributes lower e input
  constructor
  case scalars =>
    intro name
    rw [attributes]
    rw [(kept name).trans (scalars name)]
    exact wanted_asked _ _
  case cn =>
    intro cn asks
    show ((wantedCn e.cn input.cn).map cnOf |>.getD e.rdn).value = cn
    by_cases same : cn = e.cn
    · simp [wantedCn, asks, same, Entry.cn]
    · simp [wantedCn, asks, same]
  case cnKept =>
    intro kept
    show ((wantedCn e.cn input.cn).map cnOf).getD e.rdn = e.rdn
    have none : wantedCn e.cn input.cn = none := by
      unfold wantedCn
      split
      next cn given => exact absurd given (kept cn)
      next => rfl
    simp [none]
  case email =>
    rw [attributes, email]
    exact wanted_asked _ _
  case proxyAddresses => exact attributes ▸ proxies'
  case parent => rfl
  case others =>
    rw [attributes]
    exact ⟨uac'.trans uac, critical'.trans critical, expires'.trans expires⟩

/-- A plan with something to write changes the account. -/
theorem plan_empty_of_renamedEntry {lower : Text → Text} {e : Entry} {input : UserRenameInput}
    (same : renamedEntry lower e input = e) :
    (planUserRename lower e input).attributes = [] ∧ (planUserRename lower e input).newCn = none := by
  obtain ⟨scalars, mail, proxies, _⟩ := applyChanges_scalarChanges e.attributes input
  obtain ⟨kept, email, _⟩ := applyChanges_emailChanges lower e.attributes _ input mail proxies
  have attributes := renamedEntry_attributes lower e input
  rw [same] at attributes
  have noScalar : scalarChanges e.attributes input = [] := by
    refine List.filterMap_eq_nil_iff.mpr fun name _ => ?_
    have value := (kept name).trans (scalars name)
    cases wants : wanted (name.current e.attributes) (name.field input) with
    | none => rfl
    | some new =>
      rw [wants] at value
      exact absurd ((congrArg name.current attributes).trans value).symm (wanted_differs wants)
  have noEmail : emailChanges lower e.attributes input = [] := by
    unfold emailChanges
    cases wants : wanted e.attributes.mail input.email with
    | none => rfl
    | some new =>
      rw [wants] at email
      exact absurd ((congrArg Attributes.mail attributes).trans email).symm (wanted_differs wants)
  refine ⟨by simp [planUserRename, noScalar, noEmail], ?_⟩
  show wantedCn e.cn input.cn = none
  have rdn : ((wantedCn e.cn input.cn).map cnOf).getD e.rdn = e.rdn := congrArg Entry.rdn same
  cases wants : wantedCn e.cn input.cn with
  | none => rfl
  | some cn =>
    rw [wants] at rdn
    have here : cn = e.cn := congrArg Rdn.value rdn
    unfold wantedCn at wants
    split at wants
    next value _ =>
      split at wants
      · cases wants
      next other =>
        cases wants
        exact absurd here other
    · cases wants

section Parts
variable {u : Naming.Platform} {ad : Spelling} {faults : Faults} {d d1 : Directory} {userId : Guid}
    {e : Entry} {dn : Text}
  {cn : Text}

theorem nameClashes_reads {baseDn domainRoot : Text} {parentDn : Option Text} {plan : RenamePlan}
    {except : Guid}
    (names : List ClashAttribute) :
    Attempt.Reads (nameClashes u ad faults baseDn domainRoot plan parentDn except names) := by
  induction names with
  | nil => exact Attempt.reads_pure _
  | cons a rest ih =>
    unfold nameClashes
    split
    · exact ih
    · exact ih
    · exact Attempt.reads_bind (Attempt.reads_call (Attempt.reads_read _)) fun _ =>
        Attempt.reads_bind ih fun _ => Attempt.reads_pure _

theorem findNameClash_reads {baseDn : Text} {parentDn : Option Text} {plan : RenamePlan} {except : Guid} :
    Attempt.Reads (findNameClash u ad faults baseDn plan parentDn except) :=
  Attempt.reads_bind (Attempt.reads_call (Attempt.reads_read _)) fun _ =>
    Attempt.reads_bind (nameClashes_reads CLASH_ORDER) fun _ => Attempt.reads_pure _

/-- The new name, if there is one, can be written. -/
def Renamable (faults : Faults) (d : Directory) (e : Entry) (newCn : Option Text) : Prop :=
  ∀ cn, newCn = some cn → faults.call .rename = none ∧
    (e.name = (cnOf cn, e.parent) ∨ ¬d.holds (cnOf cn, e.parent))

/-- The account under its new name, and the DN the write goes on with. -/
structure Named (d : Directory) (e : Entry) (userId : Guid) (newCn : Option Text) (d1 : Directory)
    (dn : Text) : Prop where
  found : d1.find .user userId = some (e.named ((newCn.map cnOf).getD e.rdn) e.parent)
  reads : d1.containers.readName dn =
    some ((newCn.map cnOf).getD e.rdn, Directory.placeOf (Directory.mem_of_find found))
  same : newCn = none → d1 = d
  renamed : ∀ cn, newCn = some cn → ∃ inside : e ∈ d.entries, ∃ free,
    d1 = d.withName e.name (cnOf cn) (Directory.placeOf inside) free

/-- A name as a plan has it: trimmed. -/
theorem newCn_bare {lower : Text → Text} {input : UserRenameInput}
    (given : (planUserRename lower e input).newCn = some cn) :
    cn.getLast? ≠ some (Naming.unit ' ') := by
  have trimmed : ∃ value, Naming.trim value = cn := by
    change wantedCn e.cn input.cn = some cn at given
    unfold wantedCn clean at given
    cases asked : input.cn with
    | omitted => simp [asked] at given
    | cleared => simp [asked] at given
    | given value =>
      simp only [asked] at given
      split at given
      next here =>
        split at here
        · cases here
        · cases here
          split at given
          · cases given
          · exact ⟨value, Option.some.inj given⟩
      next => cases given
  obtain ⟨value, rfl⟩ := trimmed
  intro space
  have visible := Runs.bare_strip.last _ space
  exact absurd visible (by decide)

theorem oneRdn_newRdn (cn : Text) : Dn.OneRdn (newRdn cn) := by
  have typed : newRdn cn = text "CN" ++ Naming.unit '=' :: Dn.escapeRdnValueRfc cn := by
    rw [newRdn, show text "CN=" = text "CN" ++ [Naming.unit '='] by decide, List.append_assoc]
    rfl
  rw [typed]
  exact Dn.oneRdn_typed isType_cn (Dn.oneRdn_escapeRdnValueRfc cn)

/-- The new name a rename sends keeps the parent. -/
theorem newName_newRdn {containers : Containers} {parent : containers.Place}
    (bare : cn.getLast? ≠ some (Naming.unit ' ')) :
    containers.newName parent (newRdn cn) = some (cnOf cn, parent) := by
  have alone := Dn.firstComma_append (t := []) (oneRdn_newRdn cn)
  rw [List.append_nil, Dn.firstComma, List.append_nil] at alone
  rw [Containers.newName_one alone, newRdn, readRdn_newRdn bare]
  rfl

/-- What a rename goes on with is read as the account's new name. -/
theorem readName_newRdn {containers : Containers} (parent : containers.Place)
    (bare : cn.getLast? ≠ some (Naming.unit ' ')) :
    containers.readName (newRdn cn ++ Naming.unit ',' :: parent.1.dn) = some (cnOf cn, parent) := by
  rw [Containers.readName_cut (oneRdn_newRdn cn), newRdn, readRdn_newRdn bare, Option.bind_some,
    Containers.place_dn]
  rfl

variable (ad faults) in
/-- A name that is written is there to be found, one that can't be is refused. -/
theorem exec_writeName (found : d.find .user userId = some e) {newCn : Option Text}
    (bare : ∀ cn, newCn = some cn → cn.getLast? ≠ some (Naming.unit ' ')) :
    (Renamable faults d e newCn ∧ ∃ d1 dn, Named d e userId newCn d1 dn ∧
      Attempt.exec (writeName faults (e.dn ad) newCn) d = (.ok dn, d1)) ∨
    (¬Renamable faults d e newCn ∧ ∃ err, Attempt.exec (writeName faults (e.dn ad) newCn) d =
      (.error err, d)) := by
  have inside := Directory.mem_of_find found
  have reads := Directory.readName_dn ad inside
  cases newCn with
  | none =>
    exact Or.inl ⟨fun _ given => (nomatch given), d, e.dn ad,
      ⟨found, reads, fun _ => rfl, fun _ given => (nomatch given)⟩, rfl⟩
  | some cn =>
    have asks : d.containers.newName (Directory.placeOf inside) (newRdn cn) =
      some (cnOf cn, Directory.placeOf inside) :=
      newName_newRdn (bare cn rfl)
    unfold writeName
    rw [Attempt.exec_bind]
    cases renames : faults.call .rename with
    | some err =>
      refine Or.inr ⟨fun able => ?_, err, by rw [exec_modifyDN_fault renames]⟩
      simpa [renames] using (able cn rfl).1
    | none =>
      by_cases free : e.name = (cnOf cn, e.parent) ∨ ¬d.holds (cnOf cn, e.parent)
      · refine Or.inl ⟨fun _ given => ?_, d.withName e.name (cnOf cn) (Directory.placeOf inside) free,
          newRdn cn ++ Naming.unit ',' :: e.parent.dn, ?_, ?_⟩
        · cases given
          exact ⟨renames, free⟩
        · have reads1 : d.containers.readName (newRdn cn ++ Naming.unit ',' :: e.parent.dn) =
              some (cnOf cn, Directory.placeOf inside) :=
                readName_newRdn (Directory.placeOf inside) (bare cn rfl)
          refine ⟨Directory.find_withName found _ free, reads1, fun given =>
            (nomatch given), fun _ given => ?_⟩
          cases given
          exact ⟨inside, free, rfl⟩
        · rw [exec_modifyDN (Directory.renamed_ok inside reads asks free) renames,
            Directory.parentDn_dn ad inside]
          rfl
      · obtain ⟨why, refused⟩ := Directory.renamed_refused inside reads fun rdn place given => by
          cases asks.symm.trans given
          exact free
        exact Or.inr ⟨fun able => free (able cn rfl).2, _, by rw [exec_modifyDN_refused refused renames]⟩

/-- The old name's text, as it is sent to undo the new one, is read as another name that is free. -/
def Misread (ad : Spelling) (d : Directory) (e : Entry) (cn : Text) : Prop :=
  ∃ rdn, readRdn (Dn.leafRdn (e.dn ad)) = some rdn ∧ rdn ≠ e.rdn ∧ (rdn = cnOf cn ∨ ¬d.holds (rdn, e.parent))

variable (ad) in
/-- What putting the old name back comes to: it is refused, or back, or where it is misread neither. -/
theorem renamed_back (found : d.find .user userId = some e) (named : Named d e userId (some cn) d1 dn) :
    (¬Misread ad d e cn ∧ ((∃ why, d1.renamed dn (Dn.leafRdn (e.dn ad)) = .error why) ∨
      d1.renamed dn (Dn.leafRdn (e.dn ad)) = .ok d)) ∨
    (Misread ad d e cn ∧ ∃ d2, d1.renamed dn (Dn.leafRdn (e.dn ad)) = .ok d2 ∧ d2 ≠ d) := by
  obtain ⟨inside, free, rfl⟩ := named.renamed cn rfl
  have inside1 := Directory.mem_of_find named.found
  have asks : (d.withName e.name (cnOf cn) (Directory.placeOf inside) free).containers.newName
    (Directory.placeOf inside1)
      (Dn.leafRdn (e.dn ad)) = (readRdn (Dn.leafRdn (e.dn ad))).map (·, Directory.placeOf inside1) := by
    rw [Directory.leafRdn_dn]
    exact Containers.newName_one (Dn.firstComma_trim (one_rdn ad e.rdn))
  have taken := fun rdn => Directory.holds_withName inside free (rdn, e.parent)
  cases read : readRdn (Dn.leafRdn (e.dn ad)) with
  | none =>
    refine Or.inl
      ⟨fun ⟨_, same, _⟩ => by simp [read] at same, Or.inl (Directory.renamed_refused inside1 named.reads ?_)⟩
    intro _ _ given
    rw [asks, read] at given
    cases given
  | some rdn =>
    rw [read] at asks
    by_cases own : rdn = e.rdn
    · subst own
      refine Or.inl ⟨fun ⟨_, same, other, _⟩ => other (Option.some.inj (same.symm.trans read)), Or.inr ?_⟩
      obtain ⟨back, restored⟩ := Directory.withName_back free inside
      exact (Directory.renamed_ok inside1 named.reads asks back).trans (congrArg _ restored)
    · by_cases open_ : rdn = cnOf cn ∨ ¬d.holds (rdn, e.parent)
      · refine Or.inr ⟨⟨rdn, read, own, open_⟩, ?_⟩
        have free1 : (e.named (cnOf cn) e.parent).name = (rdn, e.parent) ∨
            ¬(d.withName e.name (cnOf cn) (Directory.placeOf inside) free).holds (rdn, e.parent) := by
          rcases open_ with rfl | none
          · exact Or.inl rfl
          · refine Decidable.or_iff_not_imp_left.mpr fun differs held => ?_
            rcases (taken rdn).mp held with same | ⟨_, held⟩
            · exact differs same.symm
            · exact none held
        refine ⟨_, Directory.renamed_ok inside1 named.reads asks free1, fun same => ?_⟩
        have found2 := Directory.find_withName named.found (Directory.placeOf inside1) free1
        rw [show (Directory.withName _ _ _ _ free1) = d from same, found] at found2
        exact own (congrArg Entry.rdn (Option.some.inj found2)).symm
      · refine Or.inl ⟨fun ⟨_, same, _, isOpen⟩ =>
          ?_, Or.inl (Directory.renamed_refused inside1 named.reads ?_)⟩
        · cases read.symm.trans same
          exact open_ isOpen
        · intro rdn' place' given
          rw [asks] at given
          cases given
          rintro (same | none)
          · exact open_ (Or.inl (congrArg Prod.fst same).symm)
          · refine none ((taken rdn).mpr (Or.inr ⟨fun same => own (congrArg Prod.fst same), ?_⟩))
            exact by_contra fun notHeld => open_ (Or.inr notHeld)

/-- The refusal of the attributes, with what came of putting the name back. -/
def attributesRefused (err : LdapError) (message : Text) : MutationResult RenameSnapshot :=
  { (classifyWriteError err : MutationResult RenameSnapshot) with errorMessage := some message }

/-- The attributes are refused, and the name "put back" is another. -/
structure PutBackWrong (ad : Spelling) (faults : Faults) (plan : RenamePlan) (d : Directory)
    (e : Entry) : Prop where
  refused : plan.attributes ≠ [] ∧ faults.call .modify ≠ none
  undone : faults.call .undo = none
  misread : ∃ cn, plan.newCn = some cn ∧ Misread ad d e cn

/-- How the write of the attributes ends, the account renamed in `d1`. -/
inductive AttributesEnd (ad : Spelling) (faults : Faults) (plan : RenamePlan) (d : Directory)
    (e : Entry) (userId : Guid)
    (d1 : Directory) (dn : Text) : Except LdapError (Option (MutationResult RenameSnapshot)) ×
      Directory → Prop
  | written {d2 : Directory} : (plan.attributes ≠ [] → faults.call .modify = none) →
    d2.find .user userId =
      some ((e.named ((plan.newCn.map cnOf).getD e.rdn) e.parent).changed (applyChanges plan.attributes)) →
    AttributesEnd ad faults plan d e userId d1 dn (.ok none, d2)
  | refused (err : LdapError) : ¬(plan.attributes ≠ [] → faults.call .modify = none) →
    ¬PutBackWrong ad faults plan d e →
    AttributesEnd ad faults plan d e userId d1 dn (.error err, d)
  | back (err : LdapError) (message : Text) : ¬(plan.attributes ≠ [] → faults.call .modify = none) →
    ¬PutBackWrong ad faults plan d e →
    AttributesEnd ad faults plan d e userId d1 dn (.ok (some (attributesRefused err message)), d)
  | undoFailed (err : LdapError) (message : Text) : ¬(plan.attributes ≠ [] → faults.call .modify = none) →
    ¬PutBackWrong ad faults plan d e →
    AttributesEnd ad faults plan d e userId d1 dn
      (.ok (some (attributesRefused err (undoFailedMessage message dn))), d1)
  | wrong {d2 : Directory} (err : LdapError) (message : Text) : PutBackWrong ad faults plan d e → d2 ≠ d →
    AttributesEnd ad faults plan d e userId d1 dn
      (.ok (some (attributesRefused err (rolledBackMessage message))), d2)

variable (ad faults) in
/-- The attributes are written, or the name is put back, as far as the directory answers. -/
theorem exec_writeAttributes {plan : RenamePlan} (found : d.find .user userId = some e)
    (named : Named d e userId plan.newCn d1 dn) :
    AttributesEnd ad faults plan d e userId d1 dn
      (Attempt.exec (writeAttributes faults plan dn (Dn.leafRdn (e.dn ad))) d1) := by
  unfold writeAttributes
  by_cases nothing : plan.attributes = []
  · rw [if_pos nothing]
    refine .written (fun some => absurd nothing some) ?_
    rw [nothing]
    exact named.found
  · rw [if_neg nothing, Attempt.exec_tryCatch, Attempt.exec_bind]
    cases written : faults.call .modify with
    | none =>
      rw [exec_modify (Directory.modified_eq (Directory.mem_of_find named.found) named.reads _) written]
      exact .written (fun _ => written) (Directory.find_withAttributes named.found _)
    | some err =>
      have stopped : ¬(plan.attributes ≠ [] → faults.call .modify = none) :=
        fun able => by simpa [written] using able nothing
      rw [exec_modify_fault written]
      dsimp only
      cases new : plan.newCn with
      | none =>
        rw [if_pos rfl]
        have kept : d1 = d := named.same new
        rw [kept]
        exact .refused err stopped fun wrong => by simpa [new] using wrong.misread
      | some cn =>
        rw [if_neg (by simp), Attempt.exec_bind, Attempt.exec_tryCatch, Attempt.exec_bind]
        rw [new] at named
        cases undo : faults.call .undo with
        | some fault =>
          rw [exec_modifyDN_fault undo]
          exact .undoFailed err err.message stopped fun wrong => by simpa [undo] using wrong.undone
        | none =>
          have wrongIs : PutBackWrong ad faults plan d e → Misread ad d e cn := by
            intro wrong
            obtain ⟨cn', same, misread⟩ := wrong.misread
            cases new.symm.trans same
            exact misread
          rcases renamed_back ad found
            named with ⟨read, ⟨why, refused⟩ | restored⟩ | ⟨misread, d2, ok, differs⟩
          · rw [exec_modifyDN_refused refused undo]
            exact .undoFailed err err.message stopped fun wrong => read (wrongIs wrong)
          · rw [exec_modifyDN restored undo]
            exact .back err _ stopped fun wrong => read (wrongIs wrong)
          · rw [exec_modifyDN ok undo]
            exact .wrong err err.message ⟨⟨nothing, by simp [written]⟩, undo, cn, new, misread⟩ differs

end Parts

/-- The result tells that the account has its new name and the old attributes. -/
def SaysUndoFailed (r : MutationResult RenameSnapshot) : Prop :=
  ∃ message dn, r.errorMessage = some (undoFailedMessage message dn)

theorem rolledBack_ne_undoFailed (m message dn : Text) :
    rolledBackMessage m ≠ undoFailedMessage message dn := by
  intro same
  have first : text " (the name change was rolled back)" =
    text " (the name change was rolled bac" ++ text "k)" := by decide
  have second : text " but its attributes were not updated, and renaming it back failed)" =
      text " but its attributes were not updated, and renaming it back faile" ++ text "d)" := by decide
  rw [rolledBackMessage, undoFailedMessage, first, second, ← List.append_assoc, ← List.append_assoc] at same
  exact absurd (List.append_inj_right' same (by decide)) (by decide)

/-- The rename gets as far as its account's attributes. -/
structure ReachesAttributes (u : Naming.Platform) (ad : Spelling) (baseDn : Text) (faults : Faults)
    (input : UserRenameInput)
    (d : Directory) (e : Entry) : Prop where
  asks : ¬((planUserRename u.lower e input).attributes = [] ∧ (planUserRename u.lower e input).newCn = none)
  clear :
    (Attempt.exec (findNameClash u ad faults baseDn (planUserRename u.lower e input) (Dn.parentDn (e.dn ad))
    e.objectGuid) d).1 = .ok none
  renamable : Renamable faults d e (planUserRename u.lower e input).newCn

/-- Every write of the rename goes through, and the read after them throws, in words of its own. -/
structure RenameUnread (u : Naming.Platform) (ad : Spelling) (baseDn : Text) (faults : Faults) (userId : Guid)
    (input : UserRenameInput) (d : Directory) : Prop extends ReadBackLost faults where
  writes : ∃ e, d.find .user userId = some e ∧ ReachesAttributes u ad baseDn faults input d e ∧
    ((planUserRename u.lower e input).attributes ≠ [] → faults.call .modify = none)
  unsaid : ∀ err, faults.call .reread = some err → ∀ message dn, err.message ≠ undoFailedMessage message dn

/-- The attributes are refused, and the name put back is not the old one. -/
structure RenamePutBackWrong (u : Naming.Platform) (ad : Spelling) (baseDn : Text) (faults : Faults)
    (userId : Guid)
    (input : UserRenameInput) (d : Directory) : Prop where
  bound : faults.bind = none
  found : faults.call .find = none
  writes : ∃ e, d.find .user userId = some e ∧ ReachesAttributes u ad baseDn faults input d e ∧
    PutBackWrong ad faults (planUserRename u.lower e input) d e

/-- The two ways a rename is told falsely. -/
def RenameLost (u : Naming.Platform) (ad : Spelling) (baseDn : Text) (faults : Faults) (userId : Guid)
    (input : UserRenameInput) (d : Directory) : Prop :=
  RenameUnread u ad baseDn faults userId input d ∨ RenamePutBackWrong u ad baseDn faults userId input d

def ShowsRename (ad : Spelling) (_ : Directory) (e : Entry) (shown : RenameSnapshot) : Prop :=
  shown = renameSnapshot ad e

section Told
variable {u : Naming.Platform} {ad : Spelling} {baseDn : Text} {faults : Faults} {userId : Guid}
    {input : UserRenameInput}
  {d : Directory} {e : Entry}

/-- What a rename that is lost finds, its account being known. -/
theorem lost_of_found (found : d.find .user userId = some e)
    (lost : RenameLost u ad baseDn faults userId input d) :
    ReachesAttributes u ad baseDn faults input d e ∧
      (((planUserRename u.lower e input).attributes ≠ [] → faults.call .modify = none) ∧
          (∃ err, faults.call .reread = some err ∧ ∀ message dn, err.message ≠ undoFailedMessage message dn) ∨
        PutBackWrong ad faults (planUserRename u.lower e input) d e) := by
  rcases lost with unread | wrong
  · obtain ⟨e', read, reaches, written⟩ := unread.writes
    cases found.symm.trans read
    obtain ⟨err, thrown⟩ := Option.isSome_iff_exists.mp unread.lost
    exact ⟨reaches, Or.inl ⟨written, err, thrown, unread.unsaid err thrown⟩⟩
  · obtain ⟨e', read, reaches, wrong⟩ := wrong.writes
    cases found.symm.trans read
    exact ⟨reaches, Or.inr wrong⟩

theorem renameLost_iff (reaches : ReachesAttributes u ad baseDn faults input d e)
    (found : d.find .user userId = some e) (bound : faults.bind = none) (finds : faults.call .find = none) :
    RenameLost u ad baseDn faults userId input d ↔
      (((planUserRename u.lower e input).attributes ≠ [] → faults.call .modify = none) ∧
          (∃ err, faults.call .reread = some err ∧ ∀ message dn, err.message ≠ undoFailedMessage message dn) ∨
        PutBackWrong ad faults (planUserRename u.lower e input) d e) := by
  refine ⟨fun lost => (lost_of_found found lost).2, ?_⟩
  rintro (⟨written, err, thrown, unsaid⟩ | wrong)
  · refine Or.inl ⟨⟨bound, finds, by simp [thrown]⟩, ⟨e, found, reaches, written⟩, fun other again => ?_⟩
    cases thrown.symm.trans again
    exact unsaid
  · exact Or.inr ⟨bound, finds, e, found, reaches, wrong⟩

/-- Once everything is written a rename is told truly unless it can't be read back. -/
theorem truthful_reread (found : d.find .user userId = some e) {d2 : Directory}
    (asks : ¬((planUserRename u.lower e input).attributes = [] ∧
      (planUserRename u.lower e input).newCn = none))
    (found2 : d2.find .user userId = some (renamedEntry u.lower e input)) :
    Truthful .user userId (RenameAsked u.lower input) (ShowsRename ad) SaysUndoFailed d
        (settle classifyWriteError (findEntry faults .reread .user userId >>= fun afterEntry =>
          pure (succeeded (some (renameSnapshot ad e)) (afterEntry.map (renameSnapshot ad)))) d2) ↔
      ¬∃ err, faults.call .reread = some err ∧ ∀ message dn, err.message ≠ undoFailedMessage message dn := by
  rw [settle_bind]
  cases reread : faults.call .reread with
  | none =>
    rw [exec_findEntry reread, found2]
    exact iff_of_true (.succeeded found found2 (renamedEntry_asked u.lower e input) rfl rfl)
      fun ⟨_, thrown, _⟩ => nomatch thrown
  | some err =>
    rw [exec_findEntry_fault reread]
    have words : (classifyWriteError err : MutationResult RenameSnapshot).errorMessage = some err.message :=
      classifyWriteError_errorMessage err
    by_cases unsaid : ∀ message dn, err.message ≠ undoFailedMessage message dn
    · have changed : d2 ≠ d := by
        intro same
        rw [same, found] at found2
        exact asks (plan_empty_of_renamedEntry (Option.some.inj found2).symm)
      have silent : ¬SaysUndoFailed (classifyWriteError err) := by
        rintro ⟨message, dn, said⟩
        exact unsaid message dn (Option.some.inj (words.symm.trans said))
      exact iff_of_false (not_truthful (classifyWriteError_ok err) changed silent)
        (not_not.mpr ⟨err, rfl, unsaid⟩)
    · have told : SaysUndoFailed (classifyWriteError err) := by
        by_contra silent
        exact unsaid fun message dn same => silent ⟨message, dn, words.trans (congrArg some same)⟩
      refine iff_of_true (.excuses (classifyWriteError_ok err) told) fun ⟨other, thrown, words⟩ => unsaid ?_
      cases thrown
      exact words

/-- Once the name is written. -/
theorem truthful_named (found : d.find .user userId = some e) (bound : faults.bind = none)
    (finds : faults.call .find = none)
    (reaches : ReachesAttributes u ad baseDn faults input d e) {d1 : Directory} {dn : Text}
    (named : Named d e userId (planUserRename u.lower e input).newCn d1 dn) :
    Truthful .user userId (RenameAsked u.lower input) (ShowsRename ad) SaysUndoFailed d
        (settle classifyWriteError
          (writeAttributes faults (planUserRename u.lower e input) dn (Dn.leafRdn (e.dn ad)) >>=
          fun failed => match failed with
          | some failed => pure failed
          | none => findEntry faults .reread .user userId >>= fun afterEntry =>
            pure (succeeded (some (renameSnapshot ad e)) (afterEntry.map (renameSnapshot ad)))) d1) ↔
      ¬RenameLost u ad baseDn faults userId input d := by
  rw [renameLost_iff reaches found bound finds, settle_bind]
  have ends := exec_writeAttributes ad faults found named
  generalize Attempt.exec (writeAttributes _ _ _ _) d1 = ran at ends ⊢
  cases ends with
  | written able found2 =>
    refine (truthful_reread found reaches.asks found2).trans (not_congr ⟨fun lost => Or.inl ⟨able, lost⟩, ?_⟩)
    rintro (⟨_, lost⟩ | wrong)
    · exact lost
    · exact absurd (able wrong.refused.1) wrong.refused.2
  | refused err stopped kept =>
    exact iff_of_true (.unchanged (classifyWriteError_ok err)) fun lost =>
      lost.elim (fun unread => stopped unread.1) kept
  | back err message stopped kept =>
    exact iff_of_true (.unchanged (classifyWriteError_ok err)) fun lost =>
      lost.elim (fun unread => stopped unread.1) kept
  | undoFailed err message stopped kept =>
    exact iff_of_true (.excuses (classifyWriteError_ok err) ⟨message, dn, rfl⟩) fun lost =>
      lost.elim (fun unread => stopped unread.1) kept
  | wrong err message wrong differs =>
    have silent : ¬SaysUndoFailed (attributesRefused err (rolledBackMessage message)) := by
      rintro ⟨m, dn', said⟩
      exact rolledBack_ne_undoFailed _ _ _ (Option.some.inj said)
    exact iff_of_false (not_truthful (classifyWriteError_ok err) differs silent) (not_not.mpr (Or.inr wrong))

end Told

/-- A rename is told truly, but where it can't be read back or is put back wrong. -/
theorem renameUser_truthful (u : Naming.Platform) (ad : Spelling) (baseDn : Text) (faults : Faults)
    (userId : Guid)
    (input : UserRenameInput) (d : Directory) :
    Truthful .user userId (RenameAsked u.lower input) (ShowsRename ad) SaysUndoFailed d
        (renameUser u ad baseDn faults userId input d) ↔
      ¬RenameLost u ad baseDn faults userId input d := by
  refine truthful_of_found (fun lost => lost.elim (fun l => l.bound) (fun l => l.bound))
    (fun lost => lost.elim (fun l => l.found) (fun l => l.found)) fun bound found => ?_
  cases here : d.find .user userId with
  | none =>
    refine iff_of_true (.unchanged rfl) fun lost => ?_
    rcases lost with unread | wrong
    · obtain ⟨e, read, _⟩ := unread.writes
      simp [here] at read
    · obtain ⟨e, read, _⟩ := wrong.writes
      simp [here] at read
  | some e =>
    have lostIs (lost : RenameLost u ad baseDn faults userId input d) := lost_of_found here lost
    dsimp only
    by_cases nothing : (planUserRename u.lower e input).attributes = [] ∧
      (planUserRename u.lower e input).newCn = none
    · rw [if_pos nothing]
      have asked := renamedEntry_asked u.lower e input
      have same : renamedEntry u.lower e input = e := by
        simp [renamedEntry, nothing, applyChanges, Entry.named, Entry.changed]
      rw [same] at asked
      exact iff_of_true (.succeeded here here asked rfl rfl) fun lost => (lostIs lost).1.asks nothing
    · rw [if_neg nothing, settle_bind]
      have reads : Attempt.Reads
        (findNameClash u ad faults baseDn (planUserRename u.lower e input) (Dn.parentDn (e.dn ad))
        e.objectGuid) := findNameClash_reads
      obtain ⟨answer, clash⟩ :
        ∃ answer, Attempt.exec (findNameClash u ad faults baseDn (planUserRename u.lower e input)
          (Dn.parentDn (e.dn ad)) e.objectGuid) d = (answer, d) := ⟨_, Prod.ext rfl (reads d)⟩
      have clear : RenameLost u ad baseDn faults userId input d → answer = .ok none := by
        intro lost
        have := (lostIs lost).1.clear
        rwa [clash] at this
      rw [clash]
      match answer with
      | .error err =>
        exact iff_of_true (.unchanged (classifyWriteError_ok err)) fun lost => nomatch clear lost
      | .ok (some message) => exact iff_of_true (.unchanged rfl) fun lost => nomatch clear lost
      | .ok none =>
        dsimp only
        rw [settle_bind]
        rcases exec_writeName ad faults here fun cn => newCn_bare with
          ⟨able, d1, dn, named, ran⟩ | ⟨unable, err, ran⟩
        · rw [ran]
          exact truthful_named here bound found ⟨nothing, by rw [clash], able⟩ named
        · rw [ran]
          exact iff_of_true (.unchanged (classifyWriteError_ok err)) fun lost =>
            unable (lostIs lost).1.renamable

end OpenAduc.Provider
