import OpenAduc.LoginBackoff.Entries

namespace OpenAduc.LoginBackoff
open Naming

variable {u : Platform} {policy : Policy} {calls more : List Timed} {c : Timed} {k : Text}

/-- Every failure a run records meets its key's entry as the service means it to. -/
def SoundRun (u : Platform) (policy : Policy) (calls : List Timed) : Prop :=
  ∀ before c rest, calls = before ++ c :: rest → SoundAt u policy (after u policy before) c

theorem after_concat : after u policy (calls ++ [c]) = (play u policy (after u policy calls) c).2 := by
  simp [after]

/-- A run is sound call by call. -/
theorem soundRun_concat : SoundRun u policy (calls ++ [c]) ↔
    SoundRun u policy calls ∧ SoundAt u policy (after u policy calls) c := by
  constructor
  · intro sound
    refine ⟨fun before d rest split => sound before d (rest ++ [c]) ?_, sound calls c [] rfl⟩
    rw [split, List.append_assoc, List.cons_append]
  · rintro ⟨earlier, last⟩ before d rest split
    induction rest using List.reverseRecOn with
    | nil =>
      obtain ⟨rfl, same⟩ := List.append_inj' split rfl
      cases same
      exact last
    | append_singleton rest x _ =>
      rw [← List.cons_append, ← List.append_assoc] at split
      exact earlier before d rest (List.append_inj' split rfl).1

theorem SoundRun.before {rest : List Timed} (sound : SoundRun u policy (calls ++ rest)) :
    SoundRun u policy calls :=
  fun before d more split =>
    sound before d (more ++ rest) (by rw [split, List.append_assoc, List.cons_append])

theorem inOrder_concat : InOrder (calls ++ [c]) ↔ InOrder calls ∧ ∀ a ∈ calls, a.now ≤ c.now := by
  unfold InOrder
  rw [List.pairwise_append]
  simp

theorem soundAt_failure {attempts : Attempts} {ip username : Option Text} {now : Int}
    (sound : SoundAt u policy attempts c) (own : c.call.key u = some k)
    (failure : c.call = .recordFailure ip username)
    (at_ : c.now = now) : Sound policy now (attempts.get k) := by
  subst at_
  rw [failure] at own
  cases own
  unfold SoundAt at sound
  rw [failure] at sound
  exact sound

def recorded (policy : Policy) (e : Option Entry) (c : Timed) : Option Entry :=
  match c.call with
  | .recordFailure _ _ => some (failed policy c.now (counted policy c.now e))
  | .recordSuccess _ _ => none
  | _ => e

def expected (u : Platform) (policy : Policy) (k : Text) (calls : List Timed) : Option Entry :=
  calls.foldl (fun e c => if c.call.key u = some k then recorded policy e c else e) none

theorem expected_concat : expected u policy k (calls ++ [c]) =
    if c.call.key u = some k then recorded policy (expected u policy k calls) c
      else expected u policy k calls := by
  simp [expected]

/-- Calls that record nothing change nothing that is expected. -/
theorem expected_records : expected u policy k (calls.filter (·.call.records)) =
    expected u policy k calls := by
  induction calls using List.reverseRecOn with
  | nil => rfl
  | append_singleton calls c ih =>
    rw [List.filter_append, expected_concat, List.filter_singleton]
    cases records : c.call.records with
    | true => rw [cond_true, expected_concat, ih]
    | false =>
      have same : recorded policy (expected u policy k calls) c = expected u policy k calls := by
        obtain ⟨now, call⟩ := c
        cases call with
        | check ip username => rfl
        | sweep => rfl
        | recordFailure ip username => cases records
        | recordSuccess ip username => cases records
      rw [cond_false, List.append_nil, ih, same, ite_self]

/-- A sound call keeps what counts of an entry what it is meant to be. -/
theorem counted_effect {e e' : Option Entry} {later : Int} (le : c.now ≤ later)
    (sound : ∀ ip username, c.call = .recordFailure ip username → Sound policy c.now e)
    (same : counted policy c.now e = counted policy c.now e') :
    counted policy later (effect policy c.now c.call e) = counted policy later (recorded policy e' c) := by
  have kept : counted policy later e = counted policy later e' := by
    rw [← counted_counted le, same, counted_counted le]
  obtain ⟨now, call⟩ := c
  cases call with
  | check ip username =>
    show counted policy later (if RunOut now e then none else e) = counted policy later e'
    split
    next spent => rw [← kept, counted_of_runOut (spent.mono le), counted_none]
    next => exact kept
  | recordFailure ip username =>
    show counted policy later (some (failed policy now e)) =
      counted policy later (some (failed policy now (counted policy now e')))
    rw [← same, failed_counted (sound ip username rfl)]
  | recordSuccess ip username => rfl
  | sweep =>
    show counted policy later (counted policy now e) = counted policy later e'
    rw [counted_counted le, kept]

/-- After a sound run each key counts what the logins recorded make of it. -/
theorem counted_after (ordered : InOrder calls) (sound : SoundRun u policy calls) (k : Text) {now : Int}
    (past : ∀ a ∈ calls, a.now ≤ now) :
    counted policy now ((after u policy calls).get k) = counted policy now (expected u policy k calls) := by
  induction calls using List.reverseRecOn generalizing now with
  | nil => rfl
  | append_singleton calls c ih =>
    obtain ⟨ordered, before⟩ := inOrder_concat.mp ordered
    obtain ⟨sound, here⟩ := soundRun_concat.mp sound
    have le : c.now ≤ now := past c (by simp)
    have atCall := ih ordered sound before
    have atNow := ih ordered sound fun a member => past a (List.mem_append_left _ member)
    rw [after_concat, get_play, expected_concat]
    cases own : c.call.key u with
    | none =>
      have all : c.call.concerns u k = true := by simp [Call.concerns, own]
      obtain ⟨time, call⟩ := c
      cases call with
      | sweep =>
        rw [if_pos all, if_neg (by simp)]
        exact (counted_counted le).trans atNow
      | check ip username => cases own
      | recordFailure ip username => cases own
      | recordSuccess ip username => cases own
    | some k' =>
      by_cases mine : k' = k
      · subst mine
        rw [if_pos (by simp [Call.concerns, own]), if_pos rfl]
        exact counted_effect le (fun ip username failure => soundAt_failure here own failure rfl) atCall
      · rw [if_neg (by simp [Call.concerns, own, mine]), if_neg (by simp [mine])]
        exact atNow

/-- What a sound call after a sound run answers is what counts of its key says. -/
theorem answer_expected (ordered : InOrder (calls ++ [c])) (sound : SoundRun u policy (calls ++ [c]))
    (own : c.call.key u = some k) :
    answer u policy calls c = reply policy c.now c.call
      (counted policy c.now (expected u policy k calls)) := by
  obtain ⟨ordered, before⟩ := inOrder_concat.mp ordered
  obtain ⟨sound, here⟩ := soundRun_concat.mp sound
  rw [← counted_after ordered sound k before,
    reply_counted fun ip username failure => soundAt_failure here own failure rfl]
  exact play_answer own

/-- The answers of two sound runs that record the same logins are the same. -/
theorem answer_of_records (ordered : InOrder (calls ++ [c])) (sound : SoundRun u policy (calls ++ [c]))
    (ordered' : InOrder (more ++ [c])) (sound' : SoundRun u policy (more ++ [c]))
    (same : more.filter (·.call.records) = calls.filter (·.call.records)) :
    answer u policy more c = answer u policy calls c := by
  cases own : c.call.key u with
  | none => exact (play_sweep own).trans (play_sweep own).symm
  | some k => rw [answer_expected ordered sound own, answer_expected ordered' sound' own,
    ← expected_records, same, expected_records]

end OpenAduc.LoginBackoff
