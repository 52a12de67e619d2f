import OpenAduc.ImportRows.Run

namespace OpenAduc.ImportRows
open Dialogue (Only only_pure only_throw only_call)

def Question.writes : Question → Bool
  | .createUser .. | .finishUserCreate .. | .recordEvent _ | .writeMembership .. | .updateManager .. => true
  | _ => false

section
variable {α : Type} {may : Question → Prop} {R : α → Prop} {m : Asking α}

theorem only_askDatabase {q : Question} (allowed : may q) : Only may (fun _ => True) (askDatabase q) :=
  (only_call allowed).tryCatch fun _ => only_throw

theorem Only.attempt (only : Only may R m) : Only may (fun r => ∀ a, r = .ok a → R a) (attempt m) := by
  refine Only.tryCatch (only.bind fun a held => only_pure fun b same => ?_) fun e =>
    only_pure fun _ same => nomatch same
  exact Except.ok.inj same ▸ held

/-- A write that's audited, where its event may be recorded. -/
theorem Only.withAudit {base : AuditEvent} {of : α → WriteOpResult} (only : Only may R m)
    (records : ∀ event : AuditEvent, event.action = base.action → may (.recordEvent event)) :
    Only may R (withAudit base of m) := by
  refine (Only.attempt only).bind fun r held => ?_
  cases r with
  | ok result => exact (only_askDatabase (records _ (by rfl))).then fun _ => only_pure (held result rfl)
  | error err => exact (only_askDatabase (records _ (by rfl))).then fun _ => only_throw

/-- It asks nothing that writes. -/
abbrev Reads (m : Asking α) : Prop := Only (fun q => q.writes = false) (fun _ => True) m

theorem reads_call {q : Question} (reads : q.writes = false) : Reads (Dialogue.call q) := only_call reads

theorem reads_askDatabase {q : Question} (reads : q.writes = false) : Reads (askDatabase q) :=
  only_askDatabase reads

end

theorem reads_randomly (fallback : Bool) : Reads (randomly fallback) :=
  (reads_call rfl).then fun _ => only_pure trivial

/-- Finding the password only reads. -/
theorem reads_passwordFor (row : Row) (job : JobFacts) : Reads (passwordFor row job) := by
  unfold passwordFor
  dsimp only
  split
  · exact reads_randomly false
  · split
    · exact reads_randomly true
    · refine (reads_askDatabase rfl).then fun held => ?_
      cases held with
      | some held => exact only_pure trivial
      | none =>
        dsimp only
        split
        · exact reads_randomly true
        · exact (reads_call rfl).then fun _ => (reads_askDatabase rfl).then fun _ => only_pure trivial

theorem reads_usageLocationWritable (input : RowInput) : Reads (usageLocationWritable input) := by
  unfold usageLocationWritable
  split
  · exact reads_call rfl
  · exact only_pure trivial

theorem reads_passwordIfLeft (row : Row) (steps : List UserCreation.UserCreateStep)
    (job : JobFacts) : Reads (passwordIfLeft row steps job) := by
  unfold passwordIfLeft
  split
  · exact (reads_passwordFor row job).then fun _ => only_pure trivial
  · exact only_pure trivial

theorem reads_orRead {α : Type} {known : Option α} {m : Asking (Option α)} (reads : Reads m) :
    Reads (orRead known m) := by
  cases known with
  | some a => exact only_pure trivial
  | none => exact reads.tryCatch fun _ => only_pure trivial

theorem reads_readBack (r : UserCreateResult) (dn : String) : Reads (readBack r dn) := by
  unfold readBack
  split
  · exact only_pure trivial
  · have user : Reads (Asking.getUser (.distinguishedName dn)) := reads_call rfl
    have fingerprint : Reads (Asking.getAccountFingerprint (.distinguishedName dn)) := reads_call rfl
    exact (reads_orRead user).then fun _ => (reads_orRead fingerprint).then fun _ => only_pure trivial

theorem reads_refresh (objectGuid : String) : Reads (refresh objectGuid) := by
  refine (reads_call rfl).then fun live => ?_
  cases live with
  | none => exact (reads_askDatabase rfl).then fun _ => only_pure trivial
  | some live => exact (reads_askDatabase rfl).then fun _ => only_pure trivial

theorem reads_refreshMembershipCache (userId : String) : Reads (refreshMembershipCache userId) := by
  refine Only.tryCatch ((reads_refresh userId).then fun after => ?_) fun err => ?_
  · cases after with
    | none => exact only_pure trivial
    | some after => exact reads_askDatabase rfl
  · split
    · exact only_pure trivial
    · exact only_throw

theorem reads_findCachedGroups (ids : List String) : Reads (findCachedGroups ids) := by
  unfold findCachedGroups
  split
  · exact only_pure trivial
  · exact reads_askDatabase rfl

end OpenAduc.ImportRows
