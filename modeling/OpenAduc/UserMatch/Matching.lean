import OpenAduc.Lib.Assoc
import OpenAduc.UserMatch.Entries

namespace OpenAduc.UserMatch
open Naming (Text text unit trim isSpace lowerUnit Platform)

structure UserMatchCandidate where
  id : Text
  samAccountName : Text
  deriving DecidableEq

/-- A user with the keys it is matched by, case-folded as the lookups are. -/
structure MatchableUser extends UserMatchCandidate where
  /-- Logon name, UPN, email and SMTP proxy addresses. -/
  identifierKeys : List Text
  displayNameKey : Option Text

inductive UserMatchResult
  | matched (entry : Text) (user : UserMatchCandidate)
  | ambiguous (entry : Text) (candidates : List UserMatchCandidate)
  | unmatched (entry : Text)
  deriving DecidableEq

/-- A map from a key to the users who have it, each with its place in the directory, which tells it
from the others. -/
abbrev Index := List (Text × List (MatchableUser × Nat))

def index (map : Index) (user : MatchableUser × Nat) (key : Text) : Index :=
  if key = [] then map
  else
    let list := (Assoc.get map key).getD []
    Assoc.set map key (if list.any (·.2 = user.2) then list else list ++ [user])

def indexed (keysOf : MatchableUser → List Text) (users : List (MatchableUser × Nat)) : Index :=
  users.foldl (fun map user => (keysOf user.1).foldl (index · user) map) []

def byIdentifier (users : List MatchableUser) : Index := indexed (·.identifierKeys) users.zipIdx

def byDisplayName (users : List MatchableUser) : Index := indexed (·.displayNameKey.toList) users.zipIdx

structure Matches where
  seen : List Text
  results : List UserMatchResult

variable (u : Platform) (localeLe : Text → Text → Bool) (users : List MatchableUser) (fold : Text → Text)

/-- The result for an entry and the users it means. -/
def resultOf (entry : Text) : Option (List MatchableUser) → UserMatchResult
  | none => .unmatched entry
  | some [user] => .matched entry user.toUserMatchCandidate
  | some found =>
    .ambiguous entry
      ((found.map (·.toUserMatchCandidate)).mergeSort fun a b => localeLe a.samAccountName b.samAccountName)

def Matches.see (s : Matches) (key : Text) : Matches := { s with seen := s.seen ++ [key] }

def Matches.push (s : Matches) (result : UserMatchResult) : Matches :=
  { s with results := s.results ++ [result] }

/-- None when the pieces of pieces are deeper than the fuel. -/
def resolve : Nat → Text → Text → Matches → Option Matches
  | 0, _, _, _ => none
  | fuel + 1, entry, whole, s =>
    let key := fold whole
    if key ∈ s.seen then some s
    else
      let s := s.see key
      match (Assoc.get (byIdentifier users) key).or (Assoc.get (byDisplayName users) key) with
      | some found => some (s.push (resultOf localeLe entry (some (found.map Prod.fst))))
      | none =>
        let fallbacks := commaFallbacks u whole
        match fallbacks.reordered.bind fun name => Assoc.get (byDisplayName users) (fold name) with
        | some found => some (s.push (resultOf localeLe entry (some (found.map Prod.fst))))
        | none =>
          if 0 < fallbacks.pieces.length then
            fallbacks.pieces.foldlM (fun s piece => resolve fuel piece piece s) s
          else some (s.push (resultOf localeLe entry none))

def resolveEntry (fuel : Nat) (s : Matches) (raw : Text) : Option Matches :=
  match normalizeEntry u raw with
  | some whole => resolve u localeLe users fold fuel (cleanEntry u raw) whole s
  | none => some s

/-- One result per distinct entry, in the order pasted. -/
def matchEntries (fuel : Nat) (entries : List Text) : Option (List UserMatchResult) :=
  (entries.foldlM (resolveEntry u localeLe users fold fuel) { seen := [], results := [] }).map (·.results)

/-- The users with a key; none when nobody has it. -/
def holders (keysOf : MatchableUser → List Text) (users : List MatchableUser) (key : Text) :
    Option (List MatchableUser) :=
  let list := users.filter (key ∈ keysOf ·)
  if key = [] ∨ list = [] then none else some list

section
variable {keysOf : MatchableUser → List Text} {map : Index}
    {user : MatchableUser × Nat} {keys : List Text} {k : Text}

/-- An account is indexed under a key once. -/
theorem get_index {key : Text} : Assoc.get (index map user key) k =
    if k = key ∧ k ≠ [] then
      some (if ((Assoc.get map key).getD []).any (·.2 = user.2) then (Assoc.get map key).getD []
        else (Assoc.get map key).getD [] ++ [user])
    else Assoc.get map k := by
  unfold index
  by_cases empty : key = []
  · rw [if_pos empty, if_neg fun both => both.2 (both.1.trans empty)]
  · rw [if_neg empty]
    dsimp only
    rw [Assoc.get_set]
    by_cases same : k = key
    · subst same
      simp only [empty, ne_eq, not_false_eq_true, and_self, if_true]
    · simp only [same, false_and, if_false]

theorem get_nil_indexed (us : List (MatchableUser × Nat)) : Assoc.get (indexed keysOf us) [] = none := by
  have kept : ∀ (keys : List Text) (map : Index) (user : MatchableUser × Nat), Assoc.get map [] = none →
      Assoc.get (keys.foldl (index · user) map) [] = none := by
    intro keys
    induction keys with
    | nil => exact fun _ _ none => none
    | cons key keys ih =>
      exact fun map user none => ih _ user (by rw [get_index, if_neg fun both => both.2 rfl, none])
  induction us using List.reverseRecOn with
  | nil => rfl
  | append_singleton us user ih =>
    rw [indexed, List.foldl_append]
    exact kept _ _ user ih

/-- A user's keys lead to them, after those who had a key already, and only once however often they
have it. -/
theorem get_keys (fresh : ∀ l, Assoc.get map k = some l → ∀ e ∈ l, e.2 ≠ user.2) (some_key : k ≠ []) :
    Assoc.get (keys.foldl (index · user) map) k =
      if k ∈ keys then some ((Assoc.get map k).getD [] ++ [user]) else Assoc.get map k := by
  induction keys using List.reverseRecOn with
  | nil => simp
  | append_singleton keys key ih =>
    rw [List.foldl_append, List.foldl_cons, List.foldl_nil, get_index]
    by_cases same : k = key
    · subst same
      have last : k ∈ keys ++ [k] := by simp
      rw [if_pos ⟨rfl, some_key⟩, ih, if_pos last]
      by_cases before : k ∈ keys
      · have there : (((Assoc.get map k).getD [] ++ [user]).any fun e => decide (e.2 = user.2)) = true := by
          rw [List.any_append]
          simp
        simp only [if_pos before, Option.getD_some, there, if_true]
      · have absent : (((Assoc.get map k).getD []).any fun e => decide (e.2 = user.2)) = false := by
          cases held : Assoc.get map k with
          | none => rfl
          | some l => exact List.any_eq_false.mpr fun e member => by simpa using fresh l held e member
        simp only [if_neg before, absent, Bool.false_eq_true, if_false]
    · rw [if_neg fun both => same both.1, ih]
      simp [same]

/-- A key is indexed to the accounts that have it, in order. -/
theorem get_indexed {us : List (MatchableUser × Nat)} (apart : (us.map Prod.snd).Nodup) (some_key : k ≠ []) :
    Assoc.get (indexed keysOf us) k =
      if us.filter (fun user => k ∈ keysOf user.1) = [] then none
      else some (us.filter fun user => k ∈ keysOf user.1) := by
  induction us using List.reverseRecOn with
  | nil => rfl
  | append_singleton us user ih =>
    rw [List.map_append, List.nodup_append] at apart
    have before := ih apart.1
    have fresh : ∀ l, Assoc.get (indexed keysOf us) k = some l → ∀ e ∈ l, e.2 ≠ user.2 := by
      intro l held e member
      rw [before] at held
      split at held
      next => exact absurd held (by simp)
      next =>
        obtain rfl := Option.some.inj held
        exact apart.2.2 e.2 (List.mem_map_of_mem (List.mem_of_mem_filter member)) user.2 (by simp)
    have step : indexed keysOf (us ++ [user]) = (keysOf user.1).foldl (index · user) (indexed keysOf us) := by
      rw [indexed, List.foldl_append]
      rfl
    rw [step, get_keys fresh some_key, before, List.filter_append]
    by_cases held : k ∈ keysOf user.1
    · by_cases none : us.filter (fun user => k ∈ keysOf user.1) = []
      · simp [held, none]
      · simp [held, none]
    · have alone : [user].filter (fun user => decide (k ∈ keysOf user.1)) = [] := by simp [held]
      rw [if_neg held, alone, List.append_nil]

end

/-- A lookup gives the users with the key, in the directory's order. -/
theorem get_users (keysOf : MatchableUser → List Text) (users : List MatchableUser) (k : Text) :
    (Assoc.get (indexed keysOf users.zipIdx) k).map (List.map Prod.fst) = holders keysOf users k := by
  have places : (users.zipIdx.map Prod.snd).Nodup := by
    rw [List.zipIdx_map_snd]
    exact List.nodup_range'
  have kept : (users.zipIdx.filter fun user => k ∈ keysOf user.1).map Prod.fst =
    users.filter (k ∈ keysOf ·) := by
    conv_rhs => rw [← List.zipIdx_map_fst 0 users, List.filter_map]
    rfl
  unfold holders
  dsimp only
  by_cases empty : k = []
  · rw [empty, get_nil_indexed, if_pos (.inl rfl)]
    rfl
  · rw [get_indexed places empty, ← kept]
    by_cases none : (users.zipIdx.filter fun user => k ∈ keysOf user.1) = []
    · simp [none]
    · simp [none, empty]

end OpenAduc.UserMatch
