import OpenAduc.Provider.Effects
import OpenAduc.Reverts.Run

namespace OpenAduc.Reverts
open Naming (Text text)
open Provider (Guid Entry MutationResult Reason LdapError ControlWrite)
open BulkJobs (GroupChange BulkMembershipOp CachedGroup Changes)
open Attempt (exec exec_bind)

section Writes
variable {env : Env} {id : Guid} {w : World} {user : DirectoryUser}

theorem World.getUser_eq_some : w.getUser id = some user ↔
    w.directory.find .user id = some user.entry ∧ w.rest id = user.rest := by
  unfold World.getUser
  cases w.directory.find .user id with
  | none => simp
  | some e =>
    cases user
    simp

theorem objectGuid_of_getUser (found : w.getUser id = some user) : user.entry.objectGuid = id :=
  (Table.find_mem (Provider.Directory.find_eq_some.mp (World.getUser_eq_some.mp found).1).1).2

/-- A write of the directory's own that changes anything, or says it is done, makes the asked
change; the rest of the account it leaves alone. -/
theorem onDirectory_effect {ν : Type} {snapshot : ν → Snapshot} {asked : Entry → Entry → Prop}
    {write : Provider.Directory → MutationResult ν × Provider.Directory}
    (effect : Provider.Effect .user id asked w.directory (write w.directory))
    (found : w.getUser id = some user)
    (wrote : (onDirectory snapshot write w).2 ≠ w ∨ (onDirectory snapshot write w).1.ok = true) :
    ∃ user', (onDirectory snapshot write w).2.getUser id = some user' ∧ user'.rest = user.rest ∧
      asked user.entry user'.entry := by
  obtain ⟨here, rest⟩ := World.getUser_eq_some.mp found
  have after : (onDirectory snapshot write w).2 = { w with directory := (write w.directory).2 } := rfl
  have made : ∃ e e', w.directory.find .user id = some e ∧ (write w.directory).2.find .user id =
    some e' ∧ asked e e' := by
    rcases wrote with changed | ok
    · rcases effect.only with same | made
      · rw [after, same] at changed
        exact absurd rfl changed
      · exact made
    · exact effect.done ok
  obtain ⟨e, e', was, found', inPlace⟩ := made
  cases here.symm.trans was
  exact ⟨⟨e', user.rest⟩, World.getUser_eq_some.mpr ⟨found', rest⟩, rfl, inPlace⟩

/-- A change to the rest of an account is made whole or not at all. -/
theorem changeRest_effect {act : AccountRest → AccountRest} {snapshot : DirectoryUser → Snapshot}
    {classify : LdapError → MutationResult Snapshot} (failed : ∀ err, (classify err).ok = false)
    (found : w.getUser id = some user)
    (wrote : (changeRest env id (some act) snapshot classify w).2 ≠ w ∨
      (changeRest env id (some act) snapshot classify w).1.ok = true) :
    (changeRest env id (some act) snapshot classify w).2.getUser id = some ⟨user.entry, act user.rest⟩ := by
  obtain ⟨here, _⟩ := World.getUser_eq_some.mp found
  have changed : (World.mk w.directory (Function.update w.rest id (act user.rest))).getUser id =
      some ⟨user.entry, act user.rest⟩ :=
    World.getUser_eq_some.mpr ⟨here, Function.update_self ..⟩
  have refused : ∀ err, ((classify err, w).2 ≠ w ∨ (classify err, w).1.ok = true) → False := by
    rintro err (moved | ok)
    · exact moved rfl
    · exact Bool.noConfusion ((failed err).symm.trans ok)
  unfold changeRest at *
  cases bound : env.provider.bind with
  | some fault =>
    simp only [bound] at wrote
    cases fault <;> simp [Provider.refusal] at wrote
  | none =>
    simp only [bound, found] at wrote ⊢
    cases finds : env.provider.call .find with
    | some err =>
      simp only [finds] at wrote
      exact (refused err wrote).elim
    | none =>
      simp only [finds] at wrote ⊢
      cases written : env.provider.call .modify with
      | some err =>
        simp only [written] at wrote
        exact (refused err wrote).elim
      | none =>
        dsimp only
        split <;> exact changed

/-- No change is none, however the write ends. -/
theorem changeRest_none {snapshot : DirectoryUser → Snapshot}
    {classify : LdapError → MutationResult Snapshot} :
    (changeRest env id none snapshot classify w).2 = w := by
  unfold changeRest
  split
  · rfl
  · rfl
  · split <;> rfl

end Writes

section AccountRow
variable {env : Env} {id : Guid} {w w' : World} {before after : Option Snapshot} {account : AccountWrite}
  {answer : Except Thrown RevertOutcome}

theorem exec_made {α : Type} (write : World → α × World) (w : World) :
    exec (made write) w = (.ok (write w).1, (write w).2) := rfl

variable (env) in
/-- What a call out answers, or what it throws; it changes nothing. -/
theorem exec_atSite_read {α : Type} (site : Site) (f : World → α) (w : World) :
    exec (atSite env site (Attempt.read f)) w = (.ok (f w), w) ∨ ∃ thrown,
      exec (atSite env site (Attempt.read f)) w = (.error thrown, w) := by
  unfold atSite
  cases env.faults site with
  | none => exact Or.inl rfl
  | some thrown => exact Or.inr ⟨thrown, rfl⟩

variable (env) in
theorem exec_atSite_pure {α : Type} (site : Site) (a : α) (w : World) :
    exec (atSite env site (pure a)) w = (.ok a, w) ∨ ∃ thrown, exec (atSite env site (pure a)) w =
      (.error thrown, w) :=
  exec_atSite_read env site (fun _ => a) w

/-- How an account write's row ends: it threw or found no account, or the account was as asked, or
it made the write. -/
inductive AccountRow (env : Env) (id : Guid) (before after : Option Snapshot)
    (account : AccountWrite) (w : World) :
    Except Thrown RevertOutcome → World → Prop
  | threw (thrown : Thrown) : AccountRow env id before after account w (.error thrown) w
  | gone : w.getUser id = none → AccountRow env id before after account w (.ok .notFound) w
  | asAsked (user : DirectoryUser) : w.getUser id = some user → (account.asAsked user).isSome →
      AccountRow env id before after account w (.ok (.ok true none before after)) w
  | made (user : DirectoryUser) (answer : Except Thrown RevertOutcome) : w.getUser id = some user →
    account.asAsked user = none →
      (∀ unchanged reason b a, answer = .ok (.ok unchanged reason b a) → unchanged = false ∧
        (account.write w).1.ok = true) →
      AccountRow env id before after account w answer (account.write w).2

/-- An account's row finds it as asked, or writes, and tells which. -/
theorem exec_accountRow (ran : exec (accountRow env id before after account) w = (answer, w')) :
    AccountRow env id before after account w answer w' := by
  unfold accountRow at ran
  rw [exec_bind] at ran
  rcases exec_atSite_read env .reread (World.getUser · id) w with read | ⟨thrown, read⟩
  · rw [read] at ran
    cases found : w.getUser id with
    | none =>
      simp only [found, Attempt.exec_pure] at ran
      cases ran
      exact .gone found
    | some user =>
      simp only [found] at ran
      cases asked : account.asAsked user with
      | some snapshot =>
        simp only [asked] at ran
        rw [exec_bind] at ran
        rcases exec_atSite_pure env .audit () w with read | ⟨thrown, read⟩
        · rw [read] at ran
          cases ran
          exact .asAsked user found (by simp [asked])
        · rw [read] at ran
          cases ran
          exact .threw thrown
      | none =>
        simp only [asked] at ran
        rw [exec_bind, exec_made] at ran
        dsimp only at ran
        rw [exec_bind] at ran
        rcases exec_atSite_pure env .audit () (account.write w).2 with read | ⟨thrown, read⟩
        · rw [read] at ran
          dsimp only at ran
          split at ran
          next ok =>
            rw [exec_bind] at ran
            rcases exec_atSite_read env .refreshed (World.getUser · id) (account.write w).2
              with read | ⟨thrown, read⟩
            · rw [read] at ran
              cases ran
              refine .made user _ found asked fun _ _ _ _ same => ?_
              cases same
              exact ⟨rfl, ok⟩
            · rw [read] at ran
              cases ran
              exact .made user _ found asked fun _ _ _ _ same => nomatch same
          next =>
            cases ran
            exact .made user _ found asked fun _ _ _ _ same => nomatch same
        · rw [read] at ran
          cases ran
          exact .made user _ found asked fun _ _ _ _ same => nomatch same
  · rw [read] at ran
    cases ran
    exact .threw thrown

end AccountRow

end OpenAduc.Reverts
