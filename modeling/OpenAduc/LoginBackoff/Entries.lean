import OpenAduc.LoginBackoff.Service

namespace OpenAduc.LoginBackoff
open Naming

section
variable {policy : Policy} {now later : Int} {e : Option Entry} {k : Text}

def failuresOf (e : Option Entry) : List Int := (e.map (·.failures)).getD []

def lockOf (e : Option Entry) : Option Int := e.bind (·.lockedUntil)

/-- The key's lock has run out. -/
def RunOut (now : Int) (e : Option Entry) : Prop := ∃ lockedUntil ∈ lockOf e, lockedUntil ≤ now

instance : Decidable (RunOut now e) :=
  decidable_of_iff ((lockOf e).any (· ≤ now) = true) (by simp [RunOut, Option.any_eq_true])

/-- An entry as it counts: a lock that has run out is none, and takes its failures with it. -/
def counted (policy : Policy) (now : Int) (e : Option Entry) : Option Entry := e.bind (swept policy now)

/-- What a failure makes of its key's entry. -/
def failed (policy : Policy) (now : Int) (e : Option Entry) : Entry where
  failures := fresh policy now (failuresOf e) ++ [now]
  lockedUntil :=
    if policy.threshold ≤ (fresh policy now (failuresOf e) ++ [now]).length then
      some (now + policy.lockoutMs) else lockOf e

/-- What a call that concerns a key makes of its entry. -/
def effect (policy : Policy) (now : Int) (call : Call) (e : Option Entry) : Option Entry :=
  match call with
  | .check _ _ => if RunOut now e then none else e
  | .recordFailure _ _ => some (failed policy now e)
  | .recordSuccess _ _ => none
  | .sweep => counted policy now e

/-- What a lock is answered as. -/
def told (now : Int) : Option Int → Answer
  | some lockedUntil => .lockedFor (lockedUntil - now)
  | none => .unlocked

/-- What a call answers by its key's entry. -/
def reply (policy : Policy) (now : Int) (call : Call) (e : Option Entry) : Option Answer :=
  match call with
  | .check _ _ => some (told now (if RunOut now e then none else lockOf e))
  | .recordFailure _ _ => some (told now (failed policy now e).lockedUntil)
  | _ => none

/-- Whether a call is for a key or, a sweep, for all. -/
def Call.concerns (u : Platform) (k : Text) (call : Call) : Bool := (call.key u).all (· = k)

variable {u : Platform} {attempts : Attempts} {c : Timed}

/-- A check tells the lock, and forgets an entry that has run out. -/
theorem check_eq {ip username : Option Text} :
    check u attempts now ip username =
      (told now (if RunOut now (attempts.get (key u ip username)) then none
        else lockOf (attempts.get (key u ip username))),
        if RunOut now (attempts.get (key u ip username)) then attempts.delete (key u ip username)
        else attempts) := by
  unfold check
  cases held : attempts.get (key u ip username) with
  | none => simp [RunOut, lockOf, told]
  | some entry =>
    cases lock : entry.lockedUntil with
    | none => simp [RunOut, lockOf, lock, told]
    | some lockedUntil =>
      by_cases spent : lockedUntil ≤ now
      · simp [RunOut, lockOf, lock, spent, told]
      · simp [RunOut, lockOf, lock, spent, told]

/-- A failure is added to those still fresh, and locks where they are too many. -/
theorem recordFailure_eq {ip username : Option Text} :
    recordFailure u policy attempts now ip username =
      (told now (failed policy now (attempts.get (key u ip username))).lockedUntil,
        attempts.set (key u ip username) (failed policy now (attempts.get (key u ip username)))) := by
  have one : ∀ e : Option Entry, failed policy now e =
      { failures := fresh policy now (e.getD { failures := [], lockedUntil := none }).failures ++ [now]
        lockedUntil :=
          if policy.threshold ≤
            (fresh policy now (e.getD { failures := [], lockedUntil := none }).failures ++ [now]).length then
            some (now + policy.lockoutMs)
          else (e.getD { failures := [], lockedUntil := none }).lockedUntil } := by
    intro e
    cases e <;> rfl
  rw [one]
  unfold recordFailure
  dsimp only
  split
  next locked => rw [locked]; rfl
  next unlocked => rw [unlocked]; rfl

/-- A call changes the entries it concerns and no other. -/
theorem get_play : (play u policy attempts c).2.get k =
    if c.call.concerns u k then effect policy c.now c.call (attempts.get k) else attempts.get k := by
  obtain ⟨now, call⟩ := c
  cases call with
  | check ip username =>
    by_cases own : k = key u ip username
    · subst own
      by_cases spent : RunOut now (attempts.get (key u ip username)) <;>
        simp [play, check_eq, Call.concerns, Call.key, effect, spent]
    · by_cases spent : RunOut now (attempts.get (key u ip username)) <;>
        simp [play, check_eq, Call.concerns, Call.key, spent, own, Ne.symm own]
  | recordFailure ip username =>
    by_cases own : k = key u ip username
    · subst own
      simp [play, recordFailure_eq, Call.concerns, Call.key, effect]
    · simp [play, recordFailure_eq, Call.concerns, Call.key, own, Ne.symm own]
  | recordSuccess ip username =>
    by_cases own : k = key u ip username
    · subst own
      simp [play, recordSuccess, Call.concerns, Call.key, effect]
    · simp [play, recordSuccess, Call.concerns, Call.key, own, Ne.symm own]
  | sweep => simp [play, sweep, Call.concerns, Call.key, effect, counted]

/-- A call's answer is its own key's. -/
theorem play_answer (own : c.call.key u = some k) :
    (play u policy attempts c).1 = reply policy c.now c.call (attempts.get k) := by
  obtain ⟨now, call⟩ := c
  cases call with
  | check ip username =>
    cases own
    simp [play, check_eq, reply]
  | recordFailure ip username =>
    cases own
    simp [play, recordFailure_eq, reply]
  | recordSuccess ip username => rfl
  | sweep => cases own

theorem play_sweep (keyless : c.call.key u = none) : (play u policy attempts c).1 = none := by
  obtain ⟨now, call⟩ := c
  cases call with
  | sweep => rfl
  | check ip username => cases keyless
  | recordFailure ip username => cases keyless
  | recordSuccess ip username => cases keyless

end
section
variable {policy : Policy} {now later : Int} {e e' : Option Entry}

@[simp] theorem fresh_nil : fresh policy now [] = [] := rfl

theorem fresh_fresh (failures : List Int) (le : now ≤ later) :
    fresh policy later (fresh policy now failures) = fresh policy later failures := by
  unfold fresh
  rw [List.filter_filter]
  refine List.filter_congr fun t _ => ?_
  by_cases inside : later - t ≤ policy.observationWindowMs
  · have before : now - t ≤ policy.observationWindowMs := by omega
    simp [inside, before]
  · simp [inside]

theorem RunOut.mono (spent : RunOut now e) (le : now ≤ later) : RunOut later e := by
  obtain ⟨lockedUntil, lock, past⟩ := spent
  exact ⟨lockedUntil, lock, by omega⟩

theorem runOut_congr (lock : lockOf e' = lockOf e) : RunOut now e' ↔ RunOut now e := by
  unfold RunOut
  rw [lock]

@[simp] theorem not_runOut_none : ¬RunOut now none := by
  simp [RunOut, lockOf]

@[simp] theorem counted_none : counted policy now none = none := rfl

theorem counted_of_runOut (spent : RunOut now e) : counted policy now e = none := by
  obtain ⟨lockedUntil, lock, past⟩ := spent
  obtain ⟨entry, rfl, held⟩ := Option.bind_eq_some_iff.mp lock
  simp [counted, swept, held, past]

/-- An entry not run out counts its fresh failures and its lock. -/
theorem counted_of_standing (standing : ¬RunOut now e) :
    counted policy now e =
      if fresh policy now (failuresOf e) = [] ∧ lockOf e = none then none
      else some { failures := fresh policy now (failuresOf e), lockedUntil := lockOf e } := by
  cases e with
  | none => simp [failuresOf, lockOf]
  | some entry =>
    have live : entry.lockedUntil.any (· ≤ now) = false := by
      cases lock : entry.lockedUntil with
      | none => rfl
      | some lockedUntil =>
        have left : ¬lockedUntil ≤ now := fun past => standing ⟨lockedUntil, lock, past⟩
        simp [left]
    by_cases gone : fresh policy now entry.failures = [] ∧ entry.lockedUntil = none
    · simp [counted, swept, failuresOf, lockOf, gone]
    · simp [counted, swept, live, failuresOf, lockOf, gone]

/-- What counts of an entry depends on its lock and its fresh failures only. -/
theorem counted_congr (lock : lockOf e' = lockOf e)
    (same : fresh policy now (failuresOf e') = fresh policy now (failuresOf e)) :
    counted policy now e' = counted policy now e := by
  by_cases spent : RunOut now e
  · rw [counted_of_runOut spent, counted_of_runOut ((runOut_congr lock).mpr spent)]
  · rw [counted_of_standing spent, counted_of_standing ((runOut_congr lock).not.mpr spent), lock, same]

theorem counted_counted (le : now ≤ later) : counted policy later (counted policy now e) =
    counted policy later e := by
  by_cases spent : RunOut now e
  · rw [counted_of_runOut spent, counted_none, counted_of_runOut (spent.mono le)]
  · rw [counted_of_standing spent]
    split
    next gone =>
      refine counted_congr gone.2.symm ?_
      rw [← fresh_fresh (failuresOf e) le, gone.1]
      rfl
    next => exact counted_congr rfl (fresh_fresh (failuresOf e) le)

/-- A failure meets its key's entry as the service means it to: where a lock has run out,
there is nothing left to reset and the failure locks again by itself; and a lock it sets lasts. -/
structure Sound (policy : Policy) (now : Int) (e : Option Entry) : Prop where
  spent : RunOut now e → policy.threshold ≤ 1 ∧ fresh policy now (failuresOf e) = []
  reached : policy.threshold ≤ (fresh policy now (failuresOf e)).length + 1 → 0 < policy.lockoutMs

theorem failed_congr (lock : lockOf e' = lockOf e)
    (same : fresh policy now (failuresOf e') = fresh policy now (failuresOf e)) :
    failed policy now e' = failed policy now e := by
  unfold failed
  rw [lock, same]

theorem failed_counted (sound : Sound policy now e) : failed policy now (counted policy now e) =
    failed policy now e := by
  by_cases spent : RunOut now e
  · obtain ⟨low, none_⟩ := sound.spent spent
    have reached : policy.threshold ≤ (([] : List Int) ++ [now]).length := by simpa using low
    rw [counted_of_runOut spent]
    unfold failed
    rw [none_, if_pos reached, show fresh policy now (failuresOf none) = [] from rfl, if_pos reached]
  · rw [counted_of_standing spent]
    split
    next gone => exact failed_congr gone.2.symm gone.1.symm
    next => exact failed_congr rfl (fresh_fresh (failuresOf e) (Int.le_refl now))

/-- Whether a call meets the entries of its time as the service means it to. -/
def SoundAt (u : Platform) (policy : Policy) (attempts : Attempts) (c : Timed) : Prop :=
  match c.call with
  | .recordFailure ip username => Sound policy c.now (attempts.get (key u ip username))
  | _ => True

/-- What no longer counts changes no answer. -/
theorem reply_counted {call : Call}
    (sound : ∀ ip username, call = .recordFailure ip username → Sound policy now e) :
    reply policy now call (counted policy now e) = reply policy now call e := by
  cases call with
  | check ip username =>
    by_cases spent : RunOut now e
    · simp [reply, counted_of_runOut spent, spent, lockOf]
    · have lock : lockOf (counted policy now e) = lockOf e := by
        rw [counted_of_standing spent]
        split
        next gone => exact gone.2.symm
        next => rfl
      simp only [reply, (runOut_congr lock).not.mpr spent, spent, lock]
  | recordFailure ip username => simp only [reply, failed_counted (sound ip username rfl)]
  | recordSuccess ip username => rfl
  | sweep => rfl

end

end OpenAduc.LoginBackoff
