import OpenAduc.LoginBackoff.Runs

namespace OpenAduc.LoginBackoff
open Naming

variable {u : Platform} {policy : Policy} {calls before before' : List Timed} {c : Timed} {k : Text}
    {now later : Int}
  {e e' : Option Entry}

/-- A run with check and sweep calls put in. -/
inductive Padded : List Timed → List Timed → Prop
  | nil : Padded [] []
  | same {before before' : List Timed} (c : Timed) : Padded before before' →
    Padded (before ++ [c]) (before' ++ [c])
  | more {before before' : List Timed} (c : Timed) : c.call.records = false →
    Padded before before' → Padded before (before' ++ [c])

theorem Padded.refl : Padded calls calls := by
  induction calls using List.reverseRecOn with
  | nil => exact .nil
  | append_singleton calls c ih => exact .same c ih

theorem Padded.records (padded : Padded before before') :
    before'.filter (·.call.records) = before.filter (·.call.records) := by
  induction padded with
  | nil => rfl
  | same c _ ih => rw [List.filter_append, List.filter_append, ih]
  | more c quiet _ ih =>
    rw [List.filter_append, List.filter_singleton, quiet, cond_false, List.append_nil, ih]

/-- What more checks and sweeps leave of an entry: nothing where nothing of it counts, or what counts. -/
def Leaner (policy : Policy) (now : Int) (e e' : Option Entry) : Prop :=
  (e' = none ∧ counted policy now e = none) ∨
    (lockOf e' = lockOf e ∧ fresh policy now (failuresOf e') = fresh policy now (failuresOf e))

theorem Leaner.refl : Leaner policy now e e := .inr ⟨rfl, rfl⟩

theorem Leaner.mono (leaner : Leaner policy now e e') (le : now ≤ later) : Leaner policy later e e' := by
  rcases leaner with ⟨gone, uncounted⟩ | ⟨lock, same⟩
  · exact .inl ⟨gone, by rw [← counted_counted le, uncounted, counted_none]⟩
  · exact .inr ⟨lock, by rw [← fresh_fresh (failuresOf e') le, same, fresh_fresh (failuresOf e) le]⟩

theorem Leaner.counted (leaner : Leaner policy now e e') : counted policy now e' = counted policy now e := by
  rcases leaner with ⟨rfl, uncounted⟩ | ⟨lock, same⟩
  · rw [uncounted, counted_none]
  · exact counted_congr lock same

theorem Sound.leaner (sound : Sound policy now e) (leaner : Leaner policy now e e') :
    Sound policy now e' := by
  rcases leaner with ⟨rfl, _⟩ | ⟨lock, same⟩
  · refine ⟨fun spent => absurd spent not_runOut_none, fun reached => sound.reached ?_⟩
    have low : policy.threshold ≤ 1 := by simpa [failuresOf] using reached
    omega
  · exact ⟨fun spent => by rw [same]; exact sound.spent ((runOut_congr lock).mp spent),
      fun reached => sound.reached (by rw [← same]; exact reached)⟩

/-- A call keeps an entry leaner, whether it comes to both or, a check or a sweep, to the leaner alone. -/
theorem Leaner.effect (leaner : Leaner policy c.now e e')
    (sound : ∀ ip username, c.call = .recordFailure ip username → Sound policy c.now e) :
    Leaner policy c.now (effect policy c.now c.call e) (effect policy c.now c.call e') := by
  obtain ⟨now, call⟩ := c
  cases call with
  | check ip username =>
    show Leaner policy now (if RunOut now e then none else e) (if RunOut now e' then none else e')
    rcases leaner with ⟨rfl, uncounted⟩ | ⟨lock, same⟩
    · rw [if_neg not_runOut_none]
      split
      · exact .refl
      · exact .inl ⟨rfl, uncounted⟩
    · by_cases spent : RunOut now e
      · rw [if_pos spent, if_pos ((runOut_congr lock).mpr spent)]
        exact .refl
      · rw [if_neg spent, if_neg ((runOut_congr lock).not.mpr spent)]
        exact .inr ⟨lock, same⟩
  | recordFailure ip username =>
    have here := sound ip username rfl
    show Leaner policy now (some (failed policy now e)) (some (failed policy now e'))
    rw [← failed_counted here, ← failed_counted (here.leaner leaner), leaner.counted]
    exact .refl
  | recordSuccess ip username => exact .refl
  | sweep =>
    show Leaner policy now (LoginBackoff.counted policy now e) (LoginBackoff.counted policy now e')
    rw [leaner.counted]
    exact .refl

/-- A call that records nothing keeps the leaner entry leaner. -/
theorem Leaner.quiet (leaner : Leaner policy c.now e e') (quiet : c.call.records = false) :
    Leaner policy c.now e (LoginBackoff.effect policy c.now c.call e') := by
  obtain ⟨now, call⟩ := c
  cases call with
  | check ip username =>
    show Leaner policy now e (if RunOut now e' then none else e')
    split
    next spent =>
      refine .inl ⟨rfl, ?_⟩
      rw [← leaner.counted, counted_of_runOut spent]
    next => exact leaner
  | sweep =>
    show Leaner policy now e (LoginBackoff.counted policy now e')
    by_cases spent : RunOut now e'
    · rw [counted_of_runOut spent]
      exact .inl ⟨rfl, by rw [← leaner.counted, counted_of_runOut spent]⟩
    · have left : LoginBackoff.counted policy now e' = _ := counted_of_standing spent
      by_cases gone : fresh policy now (failuresOf e') = [] ∧ lockOf e' = none
      · rw [if_pos gone] at left
        rw [left]
        exact .inl ⟨rfl, by rw [← leaner.counted, left]⟩
      · rw [if_neg gone] at left
        rw [left]
        rcases leaner with ⟨rfl, _⟩ | ⟨lock, same⟩
        · exact absurd ⟨rfl, rfl⟩ gone
        · exact .inr ⟨lock, (fresh_fresh (failuresOf e') (Int.le_refl now)).trans same⟩
  | recordFailure ip username => cases quiet
  | recordSuccess ip username => cases quiet

/-- Putting checks and sweeps into a sound run leaves it sound and every entry leaner at most. -/
theorem Padded.leaner (padded : Padded before before') (ordered : InOrder before')
    (sound : SoundRun u policy before) :
    SoundRun u policy before' ∧ ∀ k now, (∀ a ∈ before', a.now ≤ now) →
      Leaner policy now ((after u policy before).get k) ((after u policy before').get k) := by
  induction padded with
  | nil => exact ⟨sound, fun _ _ _ => .refl⟩
  | @same before before' c padded ih =>
    obtain ⟨ordered, earlier⟩ := inOrder_concat.mp ordered
    obtain ⟨sound, here⟩ := soundRun_concat.mp sound
    obtain ⟨sound', leaner⟩ := ih ordered sound
    have here' : SoundAt u policy (after u policy before') c := by
      unfold SoundAt at here ⊢
      split
      next ip username failure =>
        simp only [failure] at here
        exact here.leaner (leaner _ c.now earlier)
      next => trivial
    refine ⟨soundRun_concat.mpr ⟨sound', here'⟩, fun k now past => ?_⟩
    have le : c.now ≤ now := past c (by simp)
    rw [after_concat, after_concat, get_play, get_play]
    by_cases own : c.call.concerns u k = true
    · rw [if_pos own, if_pos own]
      refine ((leaner k c.now earlier).effect fun ip username failure => ?_).mono le
      refine soundAt_failure here ?_ failure rfl
      rw [failure] at own ⊢
      simpa [Call.concerns, Call.key] using own
    · rw [if_neg own, if_neg own]
      exact (leaner k c.now earlier).mono le
  | @more before before' c quiet padded ih =>
    obtain ⟨ordered, earlier⟩ := inOrder_concat.mp ordered
    obtain ⟨sound', leaner⟩ := ih ordered sound
    have here' : SoundAt u policy (after u policy before') c := by
      unfold SoundAt
      split
      next failure => rw [failure] at quiet; cases quiet
      next => trivial
    refine ⟨soundRun_concat.mpr ⟨sound', here'⟩, fun k now past => ?_⟩
    have le : c.now ≤ now := past c (by simp)
    rw [after_concat, get_play]
    by_cases own : c.call.concerns u k = true
    · rw [if_pos own]
      exact ((leaner k c.now earlier).quiet quiet).mono le
    · rw [if_neg own]
      exact (leaner k c.now earlier).mono le

/-- A key's entry depends on the calls that concern it alone. -/
theorem get_after_concerns : (after u policy (calls.filter (·.call.concerns u k))).get k =
    (after u policy calls).get k := by
  induction calls using List.reverseRecOn with
  | nil => rfl
  | append_singleton calls c ih =>
    rw [List.filter_append, List.filter_singleton, after_concat, get_play]
    cases own : c.call.concerns u k with
    | true => rw [cond_true, after_concat, get_play, own, ih]
    | false =>
      rw [cond_false, List.append_nil, ih]
      rfl

/-- What the calls of a run owe each other. -/
structure Consistent (u : Platform) (policy : Policy) (calls : List Timed) : Prop where
  /-- A lock that has run out resets its key's count, whichever call meets it. -/
  resets : ∀ before c rest k, calls = before ++ c :: rest → c.call.concerns u k = true →
    RunOut c.now ((after u policy before).get k) →
    failuresOf ((after u policy (before ++ [c])).get k) = match c.call with
      | .recordFailure _ _ => [c.now]
      | _ => []
  /-- Checks and sweeps put in before a call don't change its answer. -/
  unmoved : ∀ before c rest before', calls = before ++ c :: rest → Padded before before' →
    InOrder (before' ++ [c]) →
    answer u policy before' c = answer u policy before c
  /-- A failure is told locked when a check right after it is, and then for a time to come. -/
  agrees : ∀ before now ip username rest, calls = before ++ ⟨now, .recordFailure ip username⟩ :: rest →
    ∃ a b, answer u policy before ⟨now, .recordFailure ip username⟩ = some a ∧
      answer u policy (before ++ [⟨now, .recordFailure ip username⟩]) ⟨now, .check ip username⟩ = some b ∧
      a.locked = b.locked ∧ (a.locked = true → ∃ wait, a.retryAfterMs = some wait ∧ 0 < wait)
  /-- A call is answered as if the calls for other keys had not been. -/
  separate : ∀ before c rest k, calls = before ++ c :: rest → c.call.key u = some k →
    answer u policy (before.filter (·.call.concerns u k)) c = answer u policy before c

theorem answer_failure {ip username : Option Text} :
    answer u policy before ⟨now, .recordFailure ip username⟩ =
      some (told now (failed policy now ((after u policy before).get (key u ip username))).lockedUntil) :=
  play_answer rfl

theorem answer_check {ip username : Option Text} :
    answer u policy before ⟨now, .check ip username⟩ =
      some (told now (if RunOut now ((after u policy before).get (key u ip username)) then none
        else lockOf ((after u policy before).get (key u ip username)))) :=
  play_answer rfl

theorem get_after_own {ip username : Option Text} :
    (after u policy (before ++ [⟨now, .recordFailure ip username⟩])).get (key u ip username) =
      some (failed policy now ((after u policy before).get (key u ip username))) := by
  rw [after_concat, get_play, if_pos (by simp [Call.concerns, Call.key])]
  rfl

/-- A sound failure that locks does so for a time to come. -/
theorem Sound.lasts (sound : Sound policy now e) {lockedUntil : Int}
    (lock : (failed policy now e).lockedUntil = some lockedUntil) :
    now < lockedUntil := by
  by_cases reached : policy.threshold ≤ (fresh policy now (failuresOf e) ++ [now]).length
  · have locked : now + policy.lockoutMs = lockedUntil := by
      rw [failed, if_pos reached] at lock
      exact Option.some.inj lock
    have lasts := sound.reached (by simpa using reached)
    omega
  · have kept : lockOf e = some lockedUntil := by simpa only [failed, if_neg reached] using lock
    by_contra past
    have spent : RunOut now e := ⟨lockedUntil, kept, by omega⟩
    obtain ⟨low, none_⟩ := sound.spent spent
    rw [none_] at reached
    exact reached (by simpa using low)

/-- A spent entry starts again from the failure recorded now. -/
theorem resets_of_sound (sound : SoundAt u policy (after u policy before) c)
    (own : c.call.concerns u k = true)
    (spent : RunOut c.now ((after u policy before).get k)) :
    failuresOf ((after u policy (before ++ [c])).get k) = match c.call with
      | .recordFailure _ _ => [c.now]
      | _ => [] := by
  rw [after_concat, get_play, if_pos own]
  obtain ⟨now, call⟩ := c
  cases call with
  | check ip username =>
    show failuresOf (if RunOut now _ then none else _) = []
    rw [if_pos spent]
    rfl
  | recordFailure ip username =>
    have mine : key u ip username = k := by simpa [Call.concerns, Call.key] using own
    have here : Sound policy now ((after u policy before).get k) := mine ▸ sound
    show fresh policy now (failuresOf ((after u policy before).get k)) ++ [now] = [now]
    rw [(here.spent spent).2, List.nil_append]
  | recordSuccess ip username => rfl
  | sweep =>
    show failuresOf (counted policy now _) = []
    rw [counted_of_runOut spent]
    rfl

/-- A check at the same time as a failure tells what the failure did. -/
theorem agrees_of_sound {ip username : Option Text}
    (sound : Sound policy now ((after u policy before).get (key u ip username))) :
    ∃ a b, answer u policy before ⟨now, .recordFailure ip username⟩ = some a ∧
      answer u policy (before ++ [⟨now, .recordFailure ip username⟩]) ⟨now, .check ip username⟩ = some b ∧
      a.locked = b.locked ∧ (a.locked = true → ∃ wait, a.retryAfterMs = some wait ∧ 0 < wait) := by
  refine ⟨_, _, answer_failure, answer_check, ?_⟩
  rw [get_after_own]
  cases lock : (failed policy now ((after u policy before).get (key u ip username))).lockedUntil with
  | none => simp [told, lockOf, lock, Answer.unlocked]
  | some lockedUntil =>
    have later := sound.lasts lock
    have live : ¬RunOut now (some (failed policy now ((after u policy before).get (key u ip username)))) := by
      rintro ⟨t, held, past⟩
      have same : t = lockedUntil := Option.some.inj (held.symm.trans lock)
      omega
    rw [if_neg live, show lockOf
      (some (failed policy now ((after u policy before).get (key u ip username)))) =
      some lockedUntil from lock]
    refine ⟨rfl, fun _ => ⟨lockedUntil - now, rfl, by omega⟩⟩

theorem consistent_of_sound (ordered : InOrder calls) (sound : SoundRun u policy calls) :
    Consistent u policy calls where
  resets before c rest k split own spent := resets_of_sound (sound before c rest split) own spent
  unmoved before c rest before' split padded ordered' := by
    have shape : before ++ c :: rest = (before ++ [c]) ++ rest := by simp
    rw [split, shape] at ordered sound
    have first : InOrder (before ++ [c]) := (List.pairwise_append.mp ordered).1
    have sound' := ((Padded.same c padded).leaner ordered' sound.before).1
    exact answer_of_records first sound.before ordered' sound' padded.records
  agrees before now ip username rest split := agrees_of_sound (sound before _ rest split)
  separate before c rest k split own := by
    rw [answer, answer, play_answer own, play_answer own, get_after_concerns]

/-- A failure that meets a lock that has run out is told it is locked, a first one after a
check only where one failure is enough. -/
theorem low_of_unmoved {ip username : Option Text}
    (spent : RunOut now ((after u policy before).get (key u ip username)))
    (same : answer u policy (before ++ [⟨now, .check ip username⟩]) ⟨now, .recordFailure ip username⟩ =
      answer u policy before ⟨now, .recordFailure ip username⟩) : policy.threshold ≤ 1 := by
  have cleared : (after u policy (before ++ [⟨now, .check ip username⟩])).get (key u ip username) = none := by
    rw [after_concat, get_play, if_pos (by simp [Call.concerns, Call.key])]
    show (if RunOut now _ then none else _) = none
    rw [if_pos spent]
  by_contra high
  have alone : (failed policy now none).lockedUntil = none := by
    have short : ¬policy.threshold ≤ ((fresh policy now (failuresOf none) ++ [now]).length : Int) := by
      simpa [failuresOf] using high
    simp only [failed, if_neg short]
    rfl
  obtain ⟨lockedUntil, lock, _⟩ := spent
  have locks : ∃ t,
    (failed policy now ((after u policy before).get (key u ip username))).lockedUntil = some t := by
    unfold failed
    dsimp only
    split
    · exact ⟨_, rfl⟩
    · exact ⟨lockedUntil, lock⟩
  obtain ⟨t, locked⟩ := locks
  rw [answer_failure, answer_failure, cleared, alone, locked] at same
  simp [told, Answer.unlocked, Answer.lockedFor] at same

/-- Only sound runs are consistent. -/
theorem sound_of_consistent (ordered : InOrder calls) (consistent : Consistent u policy calls) :
    SoundRun u policy calls := by
  intro before c rest split
  obtain ⟨now, call⟩ := c
  cases call with
  | check ip username => trivial
  | recordSuccess ip username => trivial
  | sweep => trivial
  | recordFailure ip username =>
    show Sound policy now ((after u policy before).get (key u ip username))
    refine ⟨fun spent => ⟨?_, ?_⟩, fun reached => ?_⟩
    · refine low_of_unmoved spent (consistent.unmoved before _ rest _ split (.more _ rfl .refl) ?_)
      have shape : before ++ ⟨now, .recordFailure ip username⟩ :: rest =
        (before ++ [⟨now, .recordFailure ip username⟩]) ++ rest := by simp
      rw [split, shape] at ordered
      obtain ⟨first, earlier⟩ := inOrder_concat.mp (List.pairwise_append.mp ordered).1
      refine inOrder_concat.mpr ⟨inOrder_concat.mpr ⟨first, earlier⟩, fun a member => ?_⟩
      rcases List.mem_append.mp member with old | asked
      · exact earlier a old
      · cases List.mem_singleton.mp asked
        exact Int.le_refl now
    · have reset := consistent.resets before _ rest (key u ip username) split
        (by simp [Call.concerns, Call.key]) spent
      rw [get_after_own] at reset
      simpa [failuresOf, failed] using reset
    · obtain ⟨a, _, told_, _, _, waits⟩ := consistent.agrees before now ip username rest split
      have count : policy.threshold ≤
        ((fresh policy now (failuresOf ((after u policy before).get (key u ip username))) ++
        [now]).length : Int) := by
        simpa using reached
      rw [answer_failure, failed, if_pos count] at told_
      have lasts : a = .lockedFor (now + policy.lockoutMs - now) := (Option.some.inj told_).symm
      obtain ⟨wait, is, positive⟩ := waits (by rw [lasts]; rfl)
      have same : wait = now + policy.lockoutMs - now := by
        rw [lasts] at is
        exact (Option.some.inj is).symm
      omega

/-- A run's calls are consistent just where no failure meets a lock that has run out, unless
nothing is left to reset, and none locks for no time. Runs like that which record the
same logins are answered alike, however they check and sweep. -/
theorem consistent_iff_sound (u : Platform) (policy : Policy) (calls : List Timed) (ordered : InOrder calls) :
    (Consistent u policy calls ↔ SoundRun u policy calls) ∧
      ∀ others c, InOrder (calls ++ [c]) → SoundRun u policy (calls ++ [c]) → InOrder (others ++ [c]) →
        SoundRun u policy (others ++ [c]) → others.filter (·.call.records) = calls.filter (·.call.records) →
        answer u policy others c = answer u policy calls c :=
  ⟨⟨sound_of_consistent ordered, consistent_of_sound ordered⟩,
    fun _ _ ordered sound ordered' sound' same => answer_of_records ordered sound ordered' sound' same⟩

/-- The constructor's defaults: five failures within an hour lock for a quarter of one. -/
def Policy.default : Policy where
  threshold := 5
  observationWindowMs := 60 * 60 * 1000
  lockoutMs := 15 * 60 * 1000

def janeFails (now : Int) : Timed := ⟨now, .recordFailure (some (text "10.0.0.7")) (some (text "Jane"))⟩

def janeAsks (now : Int) : Timed := ⟨now, .check (some (text "10.0.0.7")) (some (text "jane"))⟩

theorem soundRun_nil : SoundRun u policy [] := by
  intro before c rest split
  cases before <;> cases split

/-- Two failures lock her out; a check after that lets her fail once more. -/
theorem consistent_jane : Consistent .ascii ⟨2, 1000, 100⟩
    [janeFails 0, janeFails 1, janeAsks 200, janeFails 201] := by
  refine (consistent_iff_sound .ascii ⟨2, 1000, 100⟩ _ (by unfold InOrder; decide)).1.mpr ?_
  have first : SoundRun .ascii ⟨2, 1000, 100⟩ ([] ++ [janeFails 0]) :=
    soundRun_concat.mpr ⟨soundRun_nil, ⟨by decide, by decide⟩⟩
  have second : SoundRun .ascii ⟨2, 1000, 100⟩ ([janeFails 0] ++ [janeFails 1]) :=
    soundRun_concat.mpr ⟨first, ⟨by decide, by decide⟩⟩
  have asked : SoundRun .ascii ⟨2, 1000, 100⟩ ([janeFails 0, janeFails 1] ++ [janeAsks 200]) :=
    soundRun_concat.mpr ⟨second, trivial⟩
  have last : SoundRun .ascii ⟨2, 1000, 100⟩ ([janeFails 0, janeFails 1, janeAsks 200] ++ [janeFails 201]) :=
    soundRun_concat.mpr ⟨asked, ⟨by decide, by decide⟩⟩
  exact last

/-- Five failures lock her out for a quarter of an hour. An hour on, one more is told it is locked,
for a time long past; after a check it is not. -/
theorem lock_not_reset :
    let five := [janeFails 0, janeFails 1, janeFails 2, janeFails 3, janeFails 4]
    answer .ascii .default five (janeFails 3600005) = some (.lockedFor (-2700001)) ∧
      answer .ascii .default five (janeAsks 3600005) = some .unlocked ∧
      answer .ascii .default (five ++ [janeAsks 3600005]) (janeFails 3600005) = some .unlocked ∧
      InOrder (five ++ [janeFails 3600005]) ∧ ¬Consistent .ascii .default (five ++ [janeFails 3600005]) := by
  have late : answer .ascii .default
    [janeFails 0, janeFails 1, janeFails 2, janeFails 3, janeFails 4] (janeFails 3600005) =
      some (.lockedFor (-2700001)) := by decide
  refine ⟨late, by decide, by decide, by unfold InOrder; decide, fun consistent => ?_⟩
  obtain ⟨a, _, told_, _, _, waits⟩ :=
    consistent.agrees [janeFails 0, janeFails 1, janeFails 2, janeFails 3, janeFails 4]
    3600005 _ _ [] rfl
  have same : a = .lockedFor (-2700001) := Option.some.inj (told_.symm.trans late)
  obtain ⟨wait, is, positive⟩ := waits (by rw [same]; rfl)
  have past : wait = -2700001 := by
    rw [same] at is
    exact (Option.some.inj is).symm
  omega

end OpenAduc.LoginBackoff
