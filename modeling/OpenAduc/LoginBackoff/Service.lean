import OpenAduc.Lib.Assoc
import OpenAduc.Naming.Text

namespace OpenAduc.LoginBackoff
open Naming

/-- The constructor's arguments, times in milliseconds. -/
structure Policy where
  threshold : Int
  observationWindowMs : Int
  lockoutMs : Int
  deriving DecidableEq

structure Entry where
  failures : List Int
  lockedUntil : Option Int
  deriving DecidableEq

/-- The map of a key's failures: a key has one entry at most. -/
structure Attempts where
  entries : List (Text × Entry)
  keyed : Table.Keyed Prod.fst entries

namespace Attempts

def empty : Attempts where
  entries := []
  keyed := List.nodup_nil

def get (attempts : Attempts) (key : Text) : Option Entry := Assoc.get attempts.entries key

def set (attempts : Attempts) (key : Text) (entry : Entry) : Attempts where
  entries := Assoc.set attempts.entries key entry
  keyed := Assoc.keyed_set attempts.keyed

def delete (attempts : Attempts) (key : Text) : Attempts where
  entries := Assoc.erase attempts.entries key
  keyed := Assoc.keyed_erase attempts.keyed

def filterMap (attempts : Attempts) (f : Entry → Option Entry) : Attempts where
  entries := attempts.entries.filterMap fun e => (f e.2).map fun entry => (e.1, entry)
  keyed := Assoc.keyed_filterMap attempts.keyed

variable {attempts : Attempts} {key other : Text} {entry : Entry}

@[simp] theorem get_empty : empty.get key = none := rfl

@[simp] theorem get_set : (attempts.set other entry).get key = if key = other then some entry
    else attempts.get key :=
  Assoc.get_set

@[simp] theorem get_delete : (attempts.delete other).get key = if key = other then none
    else attempts.get key :=
  Assoc.get_erase

@[simp] theorem get_filterMap {f : Entry → Option Entry} :
    (attempts.filterMap f).get key = (attempts.get key).bind f :=
  Assoc.get_filterMap attempts.keyed

end Attempts

/-- What `check` and `recordFailure` answer. -/
structure Answer where
  locked : Bool
  retryAfterMs : Option Int
  deriving DecidableEq

def Answer.unlocked : Answer where
  locked := false
  retryAfterMs := none

def Answer.lockedFor (remaining : Int) : Answer where
  locked := true
  retryAfterMs := some remaining

variable (u : Platform) (policy : Policy)

def key (ip username : Option Text) : Text := ip.getD (text "?") ++ text "|" ++ u.lower (username.getD [])

def check (attempts : Attempts) (now : Int) (ip username : Option Text) : Answer × Attempts :=
  match attempts.get (key u ip username) with
  | none => (.unlocked, attempts)
  | some entry =>
    match entry.lockedUntil with
    | none => (.unlocked, attempts)
    | some lockedUntil =>
      let remaining := lockedUntil - now
      if 0 < remaining then (.lockedFor remaining, attempts)
      else (.unlocked, attempts.delete (key u ip username)) -- the lock has run out: the count starts again

/-- The failures still in the observation window. -/
def fresh (now : Int) (failures : List Int) : List Int :=
  failures.filter fun t => now - t ≤ policy.observationWindowMs

def recordFailure (attempts : Attempts) (now : Int) (ip username : Option Text) : Answer × Attempts :=
  let entry := (attempts.get (key u ip username)).getD { failures := [], lockedUntil := none }
  let failures := fresh policy now entry.failures ++ [now]
  let lockedUntil := if policy.threshold ≤ failures.length then some (now + policy.lockoutMs)
    else entry.lockedUntil
  let attempts := attempts.set (key u ip username) { failures, lockedUntil }
  match lockedUntil with
  | some lockedUntil => (.lockedFor (lockedUntil - now), attempts)
  | none => (.unlocked, attempts)

def recordSuccess (attempts : Attempts) (ip username : Option Text) : Attempts :=
  attempts.delete (key u ip username)

/-- What a sweep leaves of an entry. -/
def swept (now : Int) (entry : Entry) : Option Entry :=
  if entry.lockedUntil.any (· ≤ now) then none
  else if fresh policy now entry.failures = [] ∧ entry.lockedUntil = none then none
  else some { entry with failures := fresh policy now entry.failures }

def sweep (attempts : Attempts) (now : Int) : Attempts := attempts.filterMap (swept policy now)

inductive Call
  | check (ip username : Option Text)
  | recordFailure (ip username : Option Text)
  | recordSuccess (ip username : Option Text)
  | sweep
  deriving DecidableEq

/-- A call and when it comes. -/
structure Timed where
  now : Int
  call : Call
  deriving DecidableEq

/-- The key a call is for; a sweep is for all. -/
def Call.key : Call → Option Text
  | .check ip username => some (LoginBackoff.key u ip username)
  | .recordFailure ip username => some (LoginBackoff.key u ip username)
  | .recordSuccess ip username => some (LoginBackoff.key u ip username)
  | .sweep => none

/-- A call that records how a login went: all but `check` and `sweep`. -/
def Call.records : Call → Bool
  | .recordFailure _ _ => true
  | .recordSuccess _ _ => true
  | _ => false

/-- One call: its answer, where it has one, and what is held after it. -/
def play (attempts : Attempts) (c : Timed) : Option Answer × Attempts :=
  match c.call with
  | .check ip username => (check u attempts c.now ip username).map some id
  | .recordFailure ip username => (recordFailure u policy attempts c.now ip username).map some id
  | .recordSuccess ip username => (none, recordSuccess u attempts ip username)
  | .sweep => (none, sweep policy attempts c.now)

/-- What is held after some calls to a new service. -/
def after (calls : List Timed) : Attempts :=
  calls.foldl (fun attempts c => (play u policy attempts c).2) .empty

/-- What a call after some others answers. -/
def answer (calls : List Timed) (c : Timed) : Option Answer := (play u policy (after u policy calls) c).1

/-- Calls at times that never go back. -/
def InOrder (calls : List Timed) : Prop := calls.Pairwise fun a b => a.now ≤ b.now

end OpenAduc.LoginBackoff
