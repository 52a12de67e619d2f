import OpenAduc.Provider.Truthful

namespace OpenAduc.Provider
open Naming (Text text)
open Attempt (settle settle_bind)

/-- However a write ends, the directory is as it was or the account has what was asked for; where it
says it is done, it has. -/
structure Effect {ν : Type} (kind : ObjectKind) (id : Guid) (asked : Entry → Entry → Prop) (d : Directory)
    (ran : MutationResult ν × Directory) : Prop where
  only : ran.2 = d ∨ ∃ e e', d.find kind id = some e ∧ ran.2.find kind id = some e' ∧ asked e e'
  done : ran.1.ok = true → ∃ e e', d.find kind id = some e ∧ ran.2.find kind id = some e' ∧ asked e e'

section Effect
variable {ν : Type} {kind : ObjectKind} {id : Guid} {asked : Entry → Entry → Prop}
    {d d' : Directory} {r : MutationResult ν}

theorem Effect.unchanged (failed : r.ok = false) : Effect kind id asked d (r, d) where
  only := Or.inl rfl
  done ok := Bool.noConfusion (failed.symm.trans ok)

theorem Effect.made {e e' : Entry} (found : d.find kind id = some e)
    (found' : d'.find kind id = some e') (inPlace : asked e e') :
    Effect kind id asked d (r, d') where
  only := Or.inr ⟨e, e', found, found', inPlace⟩
  done _ := ⟨e, e', found, found', inPlace⟩

/-- A write's effect is that of what it does with the entry it finds. -/
theorem effect_of_found {faults : Faults} {rest : Option Entry → Session (MutationResult ν)}
    (effect : Effect kind id asked d (settle classifyWriteError (rest (d.find kind id)) d)) :
    Effect kind id asked d (asOperator faults (findEntry faults .find kind id >>= rest) d) := by
  unfold asOperator
  cases faults.bind with
  | some fault => cases fault <;> exact .unchanged rfl
  | none =>
    show Effect _ _ _ _ (settle _ _ _)
    rw [settle_bind]
    cases finds : faults.call .find with
    | some err =>
      rw [exec_findEntry_fault finds]
      exact .unchanged (classifyWriteError_ok err)
    | none =>
      rw [exec_findEntry finds]
      exact effect

/-- A modification made, whatever comes of reading the account back. -/
theorem effect_of_modify {ad : Spelling} {faults : Faults} {e : Entry}
    (found : d.find kind id = some e) {change : Attributes → Attributes}
    (inPlace : asked e (e.changed change)) {rest : Option Entry → Session (MutationResult ν)}
    (reads : ∀ read s, ∃ r, settle classifyWriteError (rest read) s = (r, s)) :
    Effect kind id asked d
      (settle classifyWriteError (modify faults .modify (e.dn ad) change >>= fun _ =>
        findEntry faults .reread kind id >>= rest) d) := by
  rw [settle_bind]
  cases written : faults.call .modify with
  | some err =>
    rw [exec_modify_fault written]
    exact .unchanged (classifyWriteError_ok err)
  | none =>
    rw [exec_modify_found ad found change written]
    dsimp only
    have found' := Directory.find_withAttributes found change
    rw [settle_bind]
    cases reread : faults.call .reread with
    | some err =>
      rw [exec_findEntry_fault reread]
      exact .made found found' inPlace
    | none =>
      rw [exec_findEntry reread]
      dsimp only
      obtain ⟨r, same⟩ :=
        reads ((d.withAttributes e.name change).find kind id) (d.withAttributes e.name change)
      rw [same]
      exact .made found found' inPlace

end Effect

theorem setAccountExpiry_effect (ad : Spelling) (faults : Faults) (userId : Guid)
    (expiresAt : Option Int) (d : Directory) :
    Effect .user userId (ExpiryAsked expiresAt) d (setAccountExpiry ad faults userId expiresAt d) := by
  refine effect_of_found ?_
  cases here : d.find .user userId with
  | none => exact .unchanged rfl
  | some e => exact effect_of_modify here (expiryAsked expiresAt e) fun _ _ => ⟨_, rfl⟩

/-- The flag's write sets the one bit asked for, or nothing. -/
theorem setAccountControlFlag_effect (ad : Spelling) (faults : Faults) (kind : ObjectKind)
    (id : Guid) (write : ControlWrite)
    (d : Directory) : Effect kind id (ControlAsked write) d
      (setAccountControlFlag ad faults kind id write d) := by
  refine effect_of_found ?_
  cases here : d.find kind id with
  | none => exact .unchanged rfl
  | some e =>
    dsimp only
    cases write.refuse e with
    | some refused => exact .unchanged rfl
    | none =>
      dsimp only
      cases value : userAccountControlOf e with
      | none => exact .unchanged rfl
      | some uac =>
        dsimp only
        by_cases same : nextUac write uac = uac
        · rw [if_pos same]
          exact .made here here ⟨⟨uac, value, by rw [same, value]⟩, Or.inl rfl⟩
        · rw [if_neg same]
          exact effect_of_modify here ⟨⟨uac, value, rfl⟩, Or.inr ⟨_, rfl⟩⟩ fun _ _ => ⟨_, rfl⟩

/-- A move that isn't lost. -/
theorem moveAccount_effect {lower : Text → Text} {ad : Spelling} {faults : Faults}
    {kind : ObjectKind} {id : Guid}
    {targetOuDn : Text} {d : Directory} (kept : ¬MoveLost lower ad faults kind id targetOuDn d) :
    Effect kind id (MoveAsked lower d.containers targetOuDn) d
      (moveAccount lower ad faults kind id targetOuDn d) := by
  have truthful := (moveAccount_truthful lower ad faults kind id targetOuDn d).mpr kept
  have done : (moveAccount lower ad faults kind id targetOuDn d).1.ok = true → ∃ e e',
    d.find kind id = some e ∧
      (moveAccount lower ad faults kind id targetOuDn d).2.find kind id = some e' ∧
      MoveAsked lower d.containers targetOuDn e e' := by
    intro ok
    obtain ⟨e, e', _, _, found, found', asked, _⟩ := truthful.done ok
    exact ⟨e, e', found, found', asked⟩
  refine ⟨?_, done⟩
  cases ok : (moveAccount lower ad faults kind id targetOuDn d).1.ok with
  | true => exact Or.inr (done ok)
  | false => exact (truthful.failed ok).imp_right False.elim

end OpenAduc.Provider
