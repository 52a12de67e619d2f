import OpenAduc.Provider.Writes

namespace OpenAduc.Provider
open Naming (Text text trim)
open Attempt (settle settle_bind)

/-- What a write's caller makes of its result. A failure changed nothing, unless `excused`; after a
success the asked change is in place, and before and after show the account either side of it. -/
structure Truthful {ν : Type} (kind : ObjectKind) (id : Guid) (asked : Entry → Entry → Prop)
    (shows : Directory → Entry → ν → Prop) (excused : MutationResult ν → Prop) (d : Directory)
    (ran : MutationResult ν × Directory) : Prop where
  failed : ran.1.ok = false → ran.2 = d ∨ excused ran.1
  done : ran.1.ok = true → ∃ e e' before after, d.find kind id = some e ∧ ran.2.find kind id =
    some e' ∧ asked e e' ∧
    ran.1.before = some before ∧ shows d e before ∧ ran.1.after = some after ∧ shows ran.2 e' after

@[simp] theorem classifyWriteError_ok {ν : Type} (err : LdapError) :
    (classifyWriteError err : MutationResult ν).ok = false := by
  unfold classifyWriteError
  split <;> rfl

@[simp] theorem classifyWriteError_errorMessage {ν : Type} (err : LdapError) :
    (classifyWriteError err : MutationResult ν).errorMessage = some err.message := by
  unfold classifyWriteError
  split <;> rfl

section Truthful
variable {ν : Type} {kind : ObjectKind} {id : Guid} {asked : Entry → Entry → Prop}
    {shows : Directory → Entry → ν → Prop}
  {excused : MutationResult ν → Prop} {d d' : Directory}

/-- A failure that left the directory as it was is told truly. -/
theorem Truthful.unchanged {r : MutationResult ν} (failed : r.ok = false) :
    Truthful kind id asked shows excused d (r, d) where
  failed _ := Or.inl rfl
  done ok := Bool.noConfusion (failed.symm.trans ok)

theorem Truthful.succeeded {e e' : Entry} {before after : ν} (found : d.find kind id = some e)
    (found' : d'.find kind id = some e') (inPlace : asked e e') (showsBefore : shows d e before)
    (showsAfter : shows d' e' after) :
    Truthful kind id asked shows excused d (succeeded (some before) (some after), d') where
  failed fails := Bool.noConfusion fails
  done _ := ⟨e, e', before, after, found, found', inPlace, rfl, showsBefore, rfl, showsAfter⟩

/-- A failure that tells of what it left behind is told truly. -/
theorem Truthful.excuses {r : MutationResult ν} (failed : r.ok = false)
    (excuse : excused r) : Truthful kind id asked shows excused d (r, d') where
  failed _ := Or.inr excuse
  done ok := Bool.noConfusion (failed.symm.trans ok)

/-- A failure told of a directory that did change, with no excuse, is told falsely. -/
theorem not_truthful {r : MutationResult ν} (failed : r.ok = false) (changed : d' ≠ d) (none : ¬excused r) :
    ¬Truthful kind id asked shows excused d (r, d') := by
  intro truth
  rcases truth.failed failed with same | excuse
  · exact changed same
  · exact none excuse

/-- Every write binds and then reads the account; a failure of either is told truly. -/
theorem truthful_of_found {faults : Faults} {lost : Prop} {rest : Option Entry → Session (MutationResult ν)}
    (bound : lost → faults.bind = none) (found : lost → faults.call .find = none)
    (told : faults.bind = none → faults.call .find = none →
      (Truthful kind id asked shows excused d
        (settle classifyWriteError (rest (d.find kind id)) d) ↔ ¬lost)) :
    Truthful kind id asked shows excused d
      (asOperator faults (findEntry faults .find kind id >>= rest) d) ↔ ¬lost := by
  unfold asOperator
  cases binds : faults.bind with
  | some fault =>
    have kept : ¬lost := fun l => by simp [bound l] at binds
    refine iff_of_true ?_ kept
    cases fault <;> exact .unchanged rfl
  | none =>
    show Truthful _ _ _ _ _ _ (settle _ _ _) ↔ _
    rw [settle_bind]
    cases finds : faults.call .find with
    | some err =>
      have kept : ¬lost := fun l => by simp [found l] at finds
      rw [exec_findEntry_fault finds]
      exact iff_of_true (.unchanged (classifyWriteError_ok err)) kept
    | none =>
      rw [exec_findEntry finds]
      exact told binds finds

end Truthful

/-- The account was read, and reading it back after the write throws. -/
structure ReadBackLost (faults : Faults) : Prop where
  bound : faults.bind = none
  found : faults.call .find = none
  lost : (faults.call .reread).isSome

/-- The date is the only change, and one AD can hold reads back as asked. -/
structure ExpiryAsked (expiresAt : Option Int) (e e' : Entry) : Prop where
  only : e' = e.changed fun a => { a with accountExpires := some (expiryValue expiresAt) }
  never : expiresAt = none → accountExpiresAt e' = none
  date : ∀ date, expiresAt = some date → 0 < date + FILETIME_TO_UNIX_EPOCH_DIFF_MS →
    dateToFiletime date < FILETIME_MAX →
    accountExpiresAt e' = some date

def ShowsExpiry (_ : Directory) (e : Entry) (shown : Option Int) : Prop := shown = accountExpiresAt e

theorem expiryAsked (expiresAt : Option Int) (e : Entry) :
    ExpiryAsked expiresAt e
      (e.changed fun a => { a with accountExpires := some (expiryValue expiresAt) }) where
  only := rfl
  never none := by
    subst none
    rfl
  date date given after held := by
    subst given
    exact filetimeToDate_dateToFiletime after held

/-- The write goes through and changes the date, and the read after it throws. -/
structure ExpiryLost (faults : Faults) (userId : Guid) (expiresAt : Option Int) (d : Directory) : Prop extends
    ReadBackLost faults where
  written : faults.call .modify = none
  changes : ∃ e, d.find .user userId = some e ∧ e.attributes.accountExpires ≠ some (expiryValue expiresAt)

/-- Setting the expiry tells the truth but where the re-read after it fails. -/
theorem setAccountExpiry_truthful (ad : Spelling) (faults : Faults) (userId : Guid)
    (expiresAt : Option Int) (d : Directory) :
    Truthful .user userId (ExpiryAsked expiresAt) ShowsExpiry (fun _ => False) d
        (setAccountExpiry ad faults userId expiresAt d) ↔
      ¬ExpiryLost faults userId expiresAt d := by
  refine truthful_of_found (fun lost => lost.bound) (fun lost => lost.found) fun bound found => ?_
  cases here : d.find .user userId with
  | none =>
    refine iff_of_true (.unchanged rfl) fun lost => ?_
    obtain ⟨e, read, _⟩ := lost.changes
    simp [here] at read
  | some e =>
    show Truthful _ _ _ _ _ _ (settle _ (modify _ _ _ _ >>= _) d) ↔ _
    rw [settle_bind]
    cases written : faults.call .modify with
    | some err =>
      rw [exec_modify_fault written]
      refine iff_of_true (.unchanged (classifyWriteError_ok err)) fun lost => ?_
      simp [lost.written] at written
    | none =>
      rw [exec_modify_found ad here _ written]
      show Truthful _ _ _ _ _ _ (settle _ (findEntry _ _ _ _ >>= _) _) ↔ _
      rw [settle_bind]
      cases reread : faults.call .reread with
      | none =>
        rw [exec_findEntry reread, Directory.find_withAttributes here _]
        refine iff_of_true
          (.succeeded here (Directory.find_withAttributes here _) (expiryAsked expiresAt e) rfl rfl)
          fun lost => ?_
        simpa [reread] using lost.lost
      | some err =>
        rw [exec_findEntry_fault reread]
        have unread : (faults.call .reread).isSome := by simp [reread]
        by_cases same : e.attributes.accountExpires = some (expiryValue expiresAt)
        · rw [(Directory.withAttributes_eq_self here).mpr (by rw [← same])]
          refine iff_of_true (.unchanged (classifyWriteError_ok err)) fun lost => ?_
          obtain ⟨e', read, differs⟩ := lost.changes
          cases here.symm.trans read
          exact differs same
        · refine iff_of_false (not_truthful (classifyWriteError_ok err) (fun kept => ?_) not_false)
            (not_not.mpr ⟨⟨bound, found, unread⟩, written, e, here, same⟩)
          exact same (congrArg Attributes.accountExpires
            ((Directory.withAttributes_eq_self here).mp kept)).symm

def ShowsControl (write : ControlWrite) (_ : Directory) (e : Entry) (shown : ControlSnapshot) : Prop :=
  ∃ uac, userAccountControlOf e = some uac ∧ shown = ⟨write.snapshot uac, uac⟩

/-- The bit is as asked, and nothing else of the account has changed. -/
structure ControlAsked (write : ControlWrite) (e e' : Entry) : Prop where
  bit : ∃ uac, userAccountControlOf e = some uac ∧ userAccountControlOf e' = some (nextUac write uac)
  only : e' = e ∨ ∃ value, e' = e.changed fun a => { a with userAccountControl := value }

/-- The write sets its own bit. -/
theorem nextUac_flag (write : ControlWrite) (uac : BitVec 32) :
    nextUac write uac &&& write.flag = if write.on then write.flag else 0 := by
  unfold nextUac
  ext i
  cases write.on
  · simp
  · simpa using Or.inr

/-- The write leaves the other bits alone. -/
theorem nextUac_others (write : ControlWrite) (uac : BitVec 32) :
    nextUac write uac &&& ~~~write.flag = uac &&& ~~~write.flag := by
  unfold nextUac
  ext i
  cases write.on
  · simp
  · simp
    grind

/-- The write goes through and changes the bit, and the read after it throws. -/
structure ControlLost (faults : Faults) (kind : ObjectKind) (id : Guid) (write : ControlWrite)
    (d : Directory) : Prop extends
    ReadBackLost faults where
  written : faults.call .modify = none
  changes : ∃ e uac, d.find kind id = some e ∧ write.refuse e = none ∧ userAccountControlOf e = some uac ∧
    nextUac write uac ≠ uac

/-- Setting the flag tells the truth but where the re-read after it fails. -/
theorem setAccountControlFlag_truthful (ad : Spelling) (faults : Faults) (kind : ObjectKind)
    (id : Guid) (write : ControlWrite)
    (d : Directory) :
    Truthful kind id (ControlAsked write) (ShowsControl write) (fun _ => False) d
        (setAccountControlFlag ad faults kind id write d) ↔ ¬ControlLost faults kind id write d := by
  refine truthful_of_found (fun lost => lost.bound) (fun lost => lost.found) fun bound found => ?_
  have lostIs : ∀ {e}, d.find kind id = some e → ControlLost faults kind id write d →
      ∃ uac, write.refuse e = none ∧ userAccountControlOf e = some uac ∧ nextUac write uac ≠ uac := by
    intro e here lost
    obtain ⟨e', uac, read, rest⟩ := lost.changes
    cases here.symm.trans read
    exact ⟨uac, rest⟩
  cases here : d.find kind id with
  | none =>
    refine iff_of_true (.unchanged rfl) fun lost => ?_
    obtain ⟨e, _, read, _⟩ := lost.changes
    simp [here] at read
  | some e =>
    dsimp only
    cases refuse : write.refuse e with
    | some refused =>
      refine iff_of_true (.unchanged rfl) fun lost => ?_
      obtain ⟨_, allowed, _⟩ := lostIs here lost
      simp [refuse] at allowed
    | none =>
      dsimp only
      cases value : userAccountControlOf e with
      | none =>
        refine iff_of_true (.unchanged rfl) fun lost => ?_
        obtain ⟨_, _, read, _⟩ := lostIs here lost
        simp [value] at read
      | some uac =>
        dsimp only
        by_cases same : nextUac write uac = uac
        · rw [if_pos same]
          refine iff_of_true
            (.succeeded here here ⟨⟨uac, value, by rw [same, value]⟩, Or.inl rfl⟩ ⟨uac, value, rfl⟩
            ⟨uac, value, rfl⟩) fun lost => ?_
          obtain ⟨uac', _, read, differs⟩ := lostIs here lost
          cases value.symm.trans read
          exact differs same
        · rw [if_neg same]
          rw [settle_bind]
          cases written : faults.call .modify with
          | some err =>
            rw [exec_modify_fault written]
            refine iff_of_true (.unchanged (classifyWriteError_ok err)) fun lost => ?_
            simp [lost.written] at written
          | none =>
            rw [exec_modify_found ad here _ written]
            dsimp only
            rw [settle_bind]
            have here' := Directory.find_withAttributes here fun a =>
              { a with userAccountControl := .number (nextUac write uac) }
            cases reread : faults.call .reread with
            | none =>
              rw [exec_findEntry reread, here']
              refine iff_of_true (.succeeded here here' ⟨⟨uac, value, rfl⟩, Or.inr ⟨_, rfl⟩⟩ ⟨uac, value, rfl⟩
                ⟨_, rfl, rfl⟩) fun lost => ?_
              simpa [reread] using lost.lost
            | some err =>
              rw [exec_findEntry_fault reread]
              have unread : (faults.call .reread).isSome := by simp [reread]
              have changed :
                (d.withAttributes e.name fun a =>
                  { a with userAccountControl := .number (nextUac write uac) }) ≠ d := by
                intro kept
                rw [kept, here] at here'
                have again : userAccountControlOf e = some (nextUac write uac) := by
                  rw [Option.some.inj here']
                  rfl
                exact same (Option.some.inj (again.symm.trans value))
              exact iff_of_false (not_truthful (classifyWriteError_ok err) changed not_false)
                (not_not.mpr ⟨⟨bound, found, unread⟩, written, e, uac, here, refuse, value, same⟩)

/-- The account is under the OU, and nothing else of it has changed. -/
structure MoveAsked (lower : Text → Text) (containers : Containers) (targetOuDn : Text)
    (e e' : Entry) : Prop where
  parent : lower e'.parent.dn = lower (trim targetOuDn) ∨ containers.find (trim targetOuDn) = some e'.parent
  only : e' = e.named e.rdn e'.parent

/-- The account and its OU are named as they are, with the OU's GUID where it could be read. -/
structure ShowsMove (d : Directory) (e : Entry) (shown : MoveSnapshot) : Prop where
  distinguishedName : d.containers.named shown.distinguishedName = some e.name
  parentDn : ∃ dn, shown.parentDn = some dn ∧ d.containers.find dn = some e.parent
  parentGuid : shown.parentGuid = none ∨ shown.parentGuid = some e.parent.guid

/-- The DN a move sends is read as the account's own part of its name, under the OU. -/
def ReadAsMoved (ad : Spelling) (d : Directory) (e : Entry) (targetOuDn : Text) : Prop :=
  ∃ place, d.containers.place (trim targetOuDn) = some place ∧
    d.containers.readName (Dn.movedDn (e.dn ad) targetOuDn) = some (e.rdn, place)

/-- The DN sent is read as another, and goes through. -/
structure MoveLost (lower : Text → Text) (ad : Spelling) (faults : Faults) (kind : ObjectKind)
    (id : Guid) (targetOuDn : Text)
    (d : Directory) : Prop where
  bound : faults.bind = none
  found : faults.call .find = none
  given : trim targetOuDn ≠ []
  written : faults.call .rename = none
  astray : ∃ e, d.find kind id = some e ∧ (kind = .computer → protectedComputer e = none) ∧
    lower e.parent.dn ≠ lower (trim targetOuDn) ∧
    (∃ d', d.renamed (e.dn ad) (Dn.movedDn (e.dn ad) targetOuDn) = .ok d') ∧ ¬ReadAsMoved ad d e targetOuDn

section Move
variable {ad : Spelling} {d : Directory} {e : Entry} {targetOuDn : Text}

theorem movedDn_dn (ad : Spelling) (e : Entry) (targetOuDn : Text) :
    Dn.movedDn (e.dn ad) targetOuDn = trim (ad.rdn e.rdn) ++ Naming.unit ',' :: trim targetOuDn := by
  rw [Dn.movedDn, Directory.leafRdn_dn, List.append_assoc]
  rfl

/-- With no white space at the ends of its part of its name, a move that goes through is read as it
was meant. -/
theorem readAsMoved_of_bare (bare : trim (ad.rdn e.rdn) = ad.rdn e.rdn) (inside : e ∈ d.entries)
    {d' : Directory}
    (made : d.renamed (e.dn ad) (Dn.movedDn (e.dn ad) targetOuDn) = .ok d') :
    ReadAsMoved ad d e targetOuDn := by
  obtain ⟨rdn, place, asks, _⟩ := Directory.renamed_inv inside (Directory.readName_dn ad inside) made
  unfold ReadAsMoved
  rw [movedDn_dn, bare] at asks ⊢
  rw [Containers.newName_cut (one_rdn ad e.rdn), readRdn_rdn, Option.bind_some] at asks
  rw [Containers.readName_cut (one_rdn ad e.rdn), readRdn_rdn, Option.bind_some]
  obtain ⟨there, found, _⟩ := Option.map_eq_some_iff.mp asks
  exact ⟨there, found, by rw [found]; rfl⟩

/-- An account as it is, as a move shows it. -/
theorem showsMove_dn (ad : Spelling) (inside : e ∈ d.entries) {guid : Option Guid}
    (read : guid = none ∨ guid = (Dn.parentDn (e.dn ad)).bind d.guidAt) :
    ShowsMove d e ⟨e.dn ad, Dn.parentDn (e.dn ad), guid⟩ where
  distinguishedName := by
    rw [Containers.named, Directory.readName_dn ad inside]
    rfl
  parentDn := ⟨e.parent.dn, Directory.parentDn_dn ad inside, d.places e inside⟩
  parentGuid := by
    rw [Directory.parentDn_dn ad inside, Option.bind_some, Directory.guidAt, d.places e inside] at read
    exact read

/-- An account moved, its OU's GUID read or not. -/
theorem truthful_moved {lower : Text → Text} {kind : ObjectKind} {id : Guid}
    {excused : MutationResult MoveSnapshot → Prop}
    (here : d.find kind id = some e) {d' : Directory} {before : MoveSnapshot}
    (showsBefore : ShowsMove d e before)
    (made : d.renamed (e.dn ad) (Dn.movedDn (e.dn ad) targetOuDn) = .ok d') {guid : Option Guid}
    (read : guid = none ∨ guid = d'.guidAt (trim targetOuDn)) :
    Truthful kind id (MoveAsked lower d.containers targetOuDn) ShowsMove excused d
        (succeeded (some before) (some ⟨Dn.movedDn (e.dn ad) targetOuDn, some (trim targetOuDn), guid⟩), d') ↔
      ReadAsMoved ad d e targetOuDn := by
  have inside := Directory.mem_of_find here
  obtain ⟨rdn, place, asks, free, rfl⟩ := Directory.renamed_inv inside (Directory.readName_dn ad inside) made
  constructor
  · intro truth
    obtain ⟨e1, e', _, after, found, _, asked, _, _, told, shows⟩ := truth.done rfl
    cases here.symm.trans found
    cases told
    obtain ⟨dn, same, isParent⟩ := shows.parentDn
    cases same
    have name : (d.containers.readName (Dn.movedDn (e.dn ad) targetOuDn)).map
      (fun n => (n.1, n.2.1)) = some e'.name :=
      shows.distinguishedName
    obtain ⟨⟨own, there⟩, reads, sameName⟩ := Option.map_eq_some_iff.mp name
    have kept : e'.rdn = e.rdn := by
      rw [asked.only]
      rfl
    have isOwn : own = e.rdn := (congrArg Prod.fst sameName).trans kept
    have isThere : there.1 = e'.parent := congrArg Prod.snd sameName
    refine ⟨there, Containers.place_eq_some.mpr (isParent.trans (congrArg some isThere.symm)), ?_⟩
    rw [reads, isOwn]
  · rintro ⟨there, found, reads⟩
    cases asks.symm.trans (Containers.newName_of_readName reads)
    have isThere := Containers.place_eq_some.mp found
    refine .succeeded here (Directory.find_withName here _ free) ⟨Or.inr isThere, rfl⟩ showsBefore
      ⟨?_, ⟨_, rfl, isThere⟩, ?_⟩
    · show (d.containers.readName _).map _ = _
      rw [reads]
      rfl
    · refine read.imp_right fun same => same.trans ?_
      show (d.containers.find _).map _ = _
      rw [isThere]
      rfl

end Move

/-- A move is told truly, but where the DN it sends is read as another and goes through: what it
reads after that can't fail it. -/
theorem moveAccount_truthful (lower : Text → Text) (ad : Spelling) (faults : Faults)
    (kind : ObjectKind) (id : Guid)
    (targetOuDn : Text) (d : Directory) :
    Truthful kind id (MoveAsked lower d.containers targetOuDn) ShowsMove (fun _ => False) d
        (moveAccount lower ad faults kind id targetOuDn d) ↔
      ¬MoveLost lower ad faults kind id targetOuDn d := by
  unfold moveAccount
  dsimp only
  split
  next blank => exact iff_of_true (.unchanged rfl) fun lost => lost.given blank
  next given =>
    refine truthful_of_found (fun lost => lost.bound) (fun lost => lost.found) fun bound found => ?_
    cases here : d.find kind id with
    | none =>
      refine iff_of_true (.unchanged rfl) fun lost => ?_
      obtain ⟨e, read, _⟩ := lost.astray
      simp [here] at read
    | some e =>
      have inside := Directory.mem_of_find here
      have lostIs : MoveLost lower ad faults kind id targetOuDn d →
          (kind = .computer → protectedComputer e = none) ∧ lower e.parent.dn ≠ lower (trim targetOuDn) ∧
          (∃ d', d.renamed (e.dn ad) (Dn.movedDn (e.dn ad) targetOuDn) = .ok d') ∧
            ¬ReadAsMoved ad d e targetOuDn := by
        intro lost
        obtain ⟨e', read, rest⟩ := lost.astray
        cases here.symm.trans read
        exact rest
      dsimp only
      split
      next refused =>
        refine iff_of_true (.unchanged rfl) fun lost => ?_
        split at refused
        next computer => simp [(lostIs lost).1 computer] at refused
        next => cases refused
      next allowed =>
        obtain ⟨parentGuid, read, guid⟩ := exec_parentGuidOf faults (Dn.parentDn (e.dn ad)) d
        have showsBefore := showsMove_dn ad inside guid
        rw [settle_bind, read]
        dsimp only
        split
        next already =>
          have same : lower e.parent.dn = lower (trim targetOuDn) := by
            rw [Directory.parentDn_dn ad inside] at already
            exact Option.some.inj already
          exact iff_of_true (.succeeded here here ⟨Or.inl same, rfl⟩ showsBefore showsBefore)
            fun lost => (lostIs lost).2.1 same
        next elsewhere =>
          have differs : lower e.parent.dn ≠ lower (trim targetOuDn) := by
            intro same
            rw [Directory.parentDn_dn ad inside] at elsewhere
            exact elsewhere (congrArg some same)
          rw [settle_bind]
          cases renames : faults.call .rename with
          | some err =>
            rw [exec_modifyDN_fault renames]
            refine iff_of_true (.unchanged (classifyWriteError_ok err)) fun lost => ?_
            simp [lost.written] at renames
          | none =>
            cases made : d.renamed (e.dn ad) (Dn.movedDn (e.dn ad) targetOuDn) with
            | error why =>
              rw [exec_modifyDN_refused made renames]
              refine iff_of_true (.unchanged (classifyWriteError_ok _)) fun lost => ?_
              obtain ⟨d', ok⟩ := (lostIs lost).2.2.1
              cases made.symm.trans ok
            | ok d' =>
              rw [exec_modifyDN made renames]
              dsimp only
              rw [settle_bind, exec_guidOf]
              refine (truthful_moved here showsBefore made ?_).trans
                ⟨fun reads lost => (lostIs lost).2.2.2 reads, fun kept => ?_⟩
              · split
                · exact Or.inr rfl
                · exact Or.inl rfl
              · by_contra astray
                refine kept ⟨bound, found, given, renames, e, here, fun computer =>
                  ?_, differs, ⟨d', made⟩, astray⟩
                rwa [if_pos computer] at allowed

/-- No move is lost of an account with no white space at the ends of its part of its name. -/
theorem not_moveLost_of_bare {lower : Text → Text} {ad : Spelling} {faults : Faults}
    {kind : ObjectKind} {id : Guid}
    {targetOuDn : Text} {d : Directory}
    (bare : ∀ e, d.find kind id = some e → trim (ad.rdn e.rdn) = ad.rdn e.rdn) :
    ¬MoveLost lower ad faults kind id targetOuDn d := by
  intro lost
  obtain ⟨e, here, _, _, ⟨d', made⟩, astray⟩ := lost.astray
  exact astray (readAsMoved_of_bare (bare e here) (Directory.mem_of_find here) made)

end OpenAduc.Provider
