import OpenAduc.Lib.Assoc
import OpenAduc.Naming.Decimal
import Mathlib.Tactic.IntervalCases

namespace OpenAduc.Provider.MemberRange
open Naming (Text text unit isDigit lowerUnit decimal decimalOf)

/-- An attribute's values as the LDAP client gives them. -/
inductive Values
  | one (value : Text)
  | many (values : List Text)
  deriving DecidableEq

/-- A search result's entry: its attributes in the order they came. -/
structure Entry where
  dn : Text
  attributes : List (Text × Values)
  deriving DecidableEq

def valuesOf : Option Values → List Text
  | none => []
  | some (.one value) => [value]
  | some (.many values) => values

/-- `RANGED_MEMBER`, with the end of the range: digits, or `*` for the last range. -/
def rangedMember (key : Text) : Option Text :=
  if (key.take 13).map lowerUnit ≠ text "member;range=" then none
  else
    let start := (key.drop 13).takeWhile isDigit
    match (key.drop 13).dropWhile isDigit with
    | [] => none
    | c :: last =>
      if start ≠ [] ∧ c = unit '-' ∧ (last = text "*" ∨ (last ≠ [] ∧ last.all isDigit)) then
        some last else none

/-- The first key of an entry that is a ranged `member`. -/
def rangedKey (e : Entry) : Option Text :=
  (e.attributes.map Prod.fst).find? fun key => (rangedMember key).isSome

/-- What a read from this offset on asks for. -/
def rangeAsked (start : Nat) : Text := text "member;range=" ++ decimal start ++ text "-*"

section
variable {ε : Type}

/-- What the directory answers a search of the group's entry, by the attributes asked for so far. -/
abbrev Server (ε : Type) := List Text → Except ε (List Entry)

/-- The loop: the members with the rest of them, and what was asked for; nothing when it has not
ended after so many turns. -/
def readRest (search : Server ε) : Nat → List Text → List Text → Text →
    Option (Except ε (List Text × List Text))
  | 0, _, _, _ => none
  | fuel + 1, asked, members, last =>
    if last = text "*" then some (.ok (members, asked))
    else
      let start := decimalOf last + 1
      let asked := asked ++ [rangeAsked start]
      match search asked with
      | .error e => some (.error e)
      | .ok searchEntries =>
        match searchEntries.head? with
        | none => some (.ok (members, asked))
        | some page =>
          match rangedKey page with
          | none => some (.ok (members, asked))
          | some key =>
            let members := members ++ valuesOf (Assoc.get page.attributes key)
            let next := (rangedMember key).getD []
            -- a range that doesn't move forward would loop for ever
            if next ≠ text "*" ∧ decimalOf next < start then some (.ok (members, asked))
            else readRest search fuel asked members next

/-- The entry with its whole member list under `member`, and what was asked for to read it. -/
def withAllMembers (search : Server ε) (fuel : Nat) (entry : Entry) : Option (Except ε (Entry × List Text)) :=
  match rangedKey entry with
  | none => some (.ok (entry, []))
  | some key =>
    let members := valuesOf (Assoc.get entry.attributes key)
    let others := entry.attributes.filter (·.1 ≠ key)
    (readRest search fuel [] members ((rangedMember key).getD [])).map fun read =>
      read.map fun (members, asked) =>
        ({ entry with attributes := Assoc.set others (text "member") (.many members) }, asked)

/-- A page that answers a read from an offset: a slice of the list from there on, marked with where
it ends. -/
structure Page (members : List Text) (start : Nat) (slice : List Text) (page : Entry) : Prop where
  some_ : slice ≠ []
  consecutive : slice <+: members.drop start
  ranged : ∃ key, rangedKey page = some key ∧ valuesOf (Assoc.get page.attributes key) = slice ∧
    ∃ last, rangedMember key = some last ∧
      if start + slice.length = members.length then last = text "*"
      else last ≠ text "*" ∧ decimalOf last = start + slice.length - 1

/-- Each read from within the list is answered with a page of it, of whatever size. -/
def Conforming (members : List Text) (search : Server ε) : Prop :=
  ∀ asked start, start < members.length →
    ∃ slice page more, search (asked ++ [rangeAsked start]) = .ok (page :: more) ∧
      Page members start slice page

/-- How far each read began, where each slice was read from the end of those before it. -/
def offsets : Nat → List (List Text) → List Nat
  | _, [] => []
  | start, slice :: rest => start :: offsets (start + slice.length) rest

/-- Each range starts behind the one before. -/
theorem offsets_increase {start : Nat} {slices : List (List Text)} (some_ : ∀ slice ∈ slices, slice ≠ []) :
    (offsets start slices).Pairwise (· < ·) ∧ ∀ o ∈ offsets start slices, start ≤ o := by
  induction slices generalizing start with
  | nil => exact ⟨.nil, by simp [offsets]⟩
  | cons slice rest ih =>
    obtain ⟨increase, above⟩ := @ih (start + slice.length) fun s member =>
      some_ s (List.mem_cons_of_mem _ member)
    have long := List.length_pos_iff.mpr (some_ slice List.mem_cons_self)
    refine ⟨List.pairwise_cons.mpr ⟨fun o later => ?_, increase⟩, fun o member => ?_⟩
    · have := above o later
      omega
    · rcases List.mem_cons.mp member with rfl | later
      · exact le_rfl
      · have := above o later
        omega

theorem Page.length_le {members slice : List Text} {start : Nat} {page : Entry}
    (p : Page members start slice page) :
    start + slice.length ≤ members.length := by
  have fits := p.consecutive.length_le
  have long := List.length_pos_iff.mpr p.some_
  rw [List.length_drop] at fits
  omega

/-- With what is before it, a page's slice is the list that far. -/
theorem Page.take {members slice : List Text} {start : Nat} {page : Entry}
    (p : Page members start slice page) :
    members.take start ++ slice = members.take (start + slice.length) := by
  obtain ⟨rest, whole⟩ := p.consecutive
  rw [List.take_add, ← whole, List.take_left']
  rfl

/-- More turns change nothing of a loop that has ended. -/
theorem readRest_more {search : Server ε} {read : Except ε (List Text × List Text)}
    {fuel more : Nat} {asked members : List Text}
    {last : Text} (ended : readRest search fuel asked members last = some read) (le : fuel ≤ more) :
    readRest search more asked members last = some read := by
  induction fuel generalizing more asked members last with
  | zero => cases ended
  | succ fuel ih =>
    obtain ⟨more, rfl⟩ : ∃ k, more = k + 1 := ⟨more - 1, by omega⟩
    rw [readRest] at ended ⊢
    split
    next isLast => rwa [if_pos isLast] at ended
    next notLast =>
      rw [if_neg notLast] at ended
      dsimp only at ended ⊢
      cases answered : search (asked ++ [rangeAsked (decimalOf last + 1)]) with
      | error e =>
        rw [answered] at ended
        exact ended
      | ok searchEntries =>
        rw [answered] at ended
        dsimp only at ended ⊢
        cases first : searchEntries.head? with
        | none =>
          rw [first] at ended
          exact ended
        | some page =>
          rw [first] at ended
          dsimp only at ended ⊢
          cases isKey : rangedKey page with
          | none =>
            rw [isKey] at ended
            exact ended
          | some key =>
            rw [isKey] at ended
            dsimp only at ended ⊢
            split
            next stuck => rwa [if_pos stuck] at ended
            next forward =>
              rw [if_neg forward] at ended
              exact ih ended (by omega)

/-- Read as far as some offset, the rest of the list follows, each read from where the last page ended. -/
theorem readRest_whole {members : List Text} {search : Server ε} (conforms : Conforming members search) :
    ∀ (fuel : Nat) (asked : List Text) (done : Nat) (last : Text), done ≤ members.length → 0 < done →
      members.length - done < fuel →
      (if done = members.length then last = text "*" else last ≠ text "*" ∧ decimalOf last = done - 1) →
      ∃ slices : List (List Text), slices.flatten = members.drop done ∧ (∀ slice ∈ slices, slice ≠ []) ∧
        readRest search fuel asked (members.take done) last =
          some (.ok (members, asked ++ (offsets done slices).map rangeAsked)) := by
  intro fuel
  induction fuel with
  | zero =>
    intro asked done last _ _ enough
    omega
  | succ fuel ih =>
    intro asked done last le positive enough marked
    by_cases whole : done = members.length
    · rw [if_pos whole] at marked
      refine ⟨[], by simp [whole], by simp, ?_⟩
      rw [readRest, if_pos marked]
      simp [whole, offsets]
    · rw [if_neg whole] at marked
      obtain ⟨notLast, isEnd⟩ := marked
      obtain ⟨slice, page, more, answered, p⟩ := conforms asked done (by omega)
      obtain ⟨key, isKey, values, last', isLast, marked⟩ := p.ranged
      have long := List.length_pos_iff.mpr p.some_
      have fits := p.length_le
      obtain ⟨slices, rest, some_, reads⟩ :=
        ih (asked ++ [rangeAsked done]) (done + slice.length) last' fits (by omega) (by omega) marked
      have start : decimalOf last + 1 = done := by omega
      have forward : ¬(last' ≠ text "*" ∧ decimalOf last' < done) := by
        rintro ⟨numbered, before⟩
        split at marked
        · exact numbered marked
        · omega
      refine ⟨slice :: slices, ?_, ?_, ?_⟩
      · obtain ⟨after, tail⟩ := p.consecutive
        rw [List.flatten_cons, rest, ← tail]
        have dropped := congrArg (List.drop slice.length) tail
        rw [List.drop_left, List.drop_drop] at dropped
        rw [← dropped]
      · intro s member
        rcases List.mem_cons.mp member with rfl | later
        · exact p.some_
        · exact some_ s later
      · rw [readRest, if_neg notLast]
        dsimp only
        rw [start, answered]
        dsimp only [List.head?_cons]
        rw [isKey]
        dsimp only
        rw [values, isLast, Option.getD_some, if_neg forward, p.take, reads]
        simp [offsets]

/-- However the server sizes its pages, the whole list comes back once and in order, under `member`,
each page asked for from the end of what has been read; and a group whose members came whole is left
alone. -/
theorem withAllMembers_whole :
    (∀ (members first : List Text) (search : Server ε) (entry : Entry), Conforming members search →
      Page members 0 first entry →
      ∃ (slices : List (List Text)) (others : List (Text × Values)), (first :: slices).flatten = members ∧
        (offsets first.length slices).Pairwise (· < ·) ∧
        (∀ e ∈ others, e ∈ entry.attributes) ∧
        ∀ fuel, members.length ≤ fuel →
          withAllMembers search fuel entry =
            some (.ok (⟨entry.dn, Assoc.set others (text "member") (.many members)⟩,
              (offsets first.length slices).map rangeAsked))) ∧
    ∀ (search : Server ε) (fuel : Nat) (entry : Entry), rangedKey entry = none →
      withAllMembers search fuel entry = some (.ok (entry, [])) := by
  refine ⟨?_, ?_⟩
  · intro members first search entry conforms p
    obtain ⟨key, isKey, values, last, isLast, marked⟩ := p.ranged
    have long := List.length_pos_iff.mpr p.some_
    have fits := p.length_le
    rw [Nat.zero_add] at fits marked
    have reads (fuel : Nat) (enough : members.length ≤ fuel) :=
      readRest_whole conforms fuel [] first.length last fits long (by omega) marked
    obtain ⟨slices, rest, some_, read⟩ := reads members.length le_rfl
    have front : members.take first.length = first := by
      have taken := p.take
      simpa using taken.symm
    refine ⟨slices, entry.attributes.filter (·.1 ≠ key), ?_, (offsets_increase some_).1, ?_, ?_⟩
    · rw [List.flatten_cons, rest, ← front, List.length_take, min_eq_left fits, List.take_append_drop]
    · exact fun e member => List.mem_of_mem_filter member
    · intro fuel enough
      have read' := readRest_more read enough
      rw [front] at read'
      rw [withAllMembers, isKey]
      dsimp only
      rw [values, isLast, Option.getD_some, read']
      simp [Except.map]
  · intro search fuel entry none
    rw [withAllMembers, none]

end

/-- A group of three whose first read gives two, each read after it one. -/
def three : Server Empty := fun asked =>
  .ok [⟨text "CN=Staff", [(text "objectClass", .one (text "group")),
    if asked.getLast? = some (rangeAsked 1) then (text "member;range=1-1", .one (text "b"))
    else if asked.getLast? = some (rangeAsked 0) then (text "member;range=0-0", .one (text "a"))
    else (text "Member;range=2-*", .many [text "c"])]⟩]

/-- Three members, one in each read. -/
theorem withAllMembers_three :
    ∃ slices : List (List Text), ([text "a"] :: slices).flatten = [text "a", text "b", text "c"] ∧
      (offsets 1 slices).Pairwise (· < ·) := by
  have conforms : Conforming [text "a", text "b", text "c"] three := by
    intro asked start inside
    have inside : start < 3 := inside
    have answered : three (asked ++ [rangeAsked start]) = three [rangeAsked start] := by simp [three]
    rw [answered]
    interval_cases start
    · exact ⟨[text "a"], _, [],
        rfl, by decide, by decide, text "member;range=0-0", by decide, by decide, text "0", by
          decide, by decide⟩
    · exact ⟨[text "b"], _, [],
        rfl, by decide, by decide, text "member;range=1-1", by decide, by decide, text "1", by
          decide, by decide⟩
    · exact ⟨[text "c"], _, [],
        rfl, by decide, by decide, text "Member;range=2-*", by decide, by decide, text "*", by
          decide, by decide⟩
  have page : Page [text "a", text "b", text "c"] 0 [text "a"]
      ⟨text "CN=Staff", [(text "member;range=0-0", .one (text "a")), (text "member", .many [])]⟩ := by
    refine ⟨by decide, ⟨[text "b", text "c"], rfl⟩, text "member;range=0-0", by decide, by
      decide, text "0", by decide, ?_⟩
    decide
  obtain ⟨slices, _, whole, increase, _⟩ := withAllMembers_whole.1 _ _ three _ conforms page
  exact ⟨slices, whole, increase⟩

end OpenAduc.Provider.MemberRange
