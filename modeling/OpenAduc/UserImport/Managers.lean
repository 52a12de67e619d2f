import OpenAduc.BulkJobs.ImportOrder
import OpenAduc.UserImport.Addresses

namespace OpenAduc.UserImport
open Naming BulkJobs

/-- Who a row's manager is. -/
inductive ManagerMatch
  | none
  | row (index : Nat)
  | directory (person : ImportPerson)
  /-- The account goes ahead without a manager. -/
  | unresolved (message : Text)
  /-- The row can't go ahead as it is: the run couldn't order it. -/
  | invalid (message : Text)
  deriving DecidableEq

section
variable (u : Platform)

/-- The manager a row names, by email, UPN or sAMAccountName: first among the accounts the import
creates, then in the directory. -/
def resolveManager (value : Text) (self : Nat) (accounts : List PlannedAccount)
    (people : List ImportPerson) : ManagerMatch :=
  let v := u.lower (trim value)
  if v = [] then .none
  else
    let inImport := accounts.filter fun a =>
      lower u a.email = v || u.lower a.upn = v || u.lower a.samAccountName = v
    let found := people.filter fun p => holdsAddress u p v || lower u p.samAccountName = v
    let unresolved := ManagerMatch.unresolved
      (if 1 < inImport.length + found.length then
        text "More than one person is “" ++ trim value ++ text "”, so the account gets no manager."
       else text "Nobody in this import or the directory is “" ++ trim value ++
         text "”, so the account gets no manager.")
    match inImport with
    | [a] => if a.index = self then .invalid (text "The manager “" ++ trim value ++
      text "” is this person.") else .row a.index
    | [] =>
      match found with
      | [p] => .directory p
      | _ => unresolved
    | _ => unresolved

/-- A row as it names its manager. -/
structure ManagedRow where
  index : Nat
  manager : Text
  deriving DecidableEq

abbrev Matches := List (Nat × ManagerMatch)

/-- Each row's manager, before the loops among them are refused. -/
def matchesOf (rows : List ManagedRow) (accounts : List PlannedAccount)
    (people : List ImportPerson) : Matches :=
  rows.foldl (fun out r => Assoc.set out r.index (resolveManager u r.manager r.index accounts people)) []

end

/-- The row a match links to. -/
def ManagerMatch.link : ManagerMatch → Option Nat
  | .row index => some index
  | _ => Option.none

/-- The rows whose manager is a row, each with it. -/
def linksOf (out : Matches) : List (Nat × Nat) :=
  out.filterMap fun (index, m) => m.link.map fun manager => (index, manager)

def loopMessage (lineOf : Nat → Nat) (cycle : List Nat) : Text :=
  text "Its managers go round in a loop (rows " ++
    join (text " → ") (cycle.map fun i => decimal (lineOf i)) ++
    text "). Change a manager, or leave a row out."

/-- The rows from a looped one's manager round to the looped one; none where the walk has not come
back after so many. -/
def chainOf (managerOf : List (Nat × Nat)) (fuel : Nat) (index : Nat) : Option (List Nat) :=
  (managerOfGet managerOf index).bind (Chain.walk (managerOfGet managerOf) index fuel)

def refuseLoops (lineOf : Nat → Nat) (chain : Nat → Option (List Nat)) (out : Matches) :
    List Nat → Option Matches
  | [] => some out
  | index :: rest =>
    match chain index with
    | none => none
    | some way =>
      refuseLoops lineOf chain
        (Assoc.set out index (.invalid (loopMessage lineOf (index :: (way ++ [index]))))) rest

/-- Each row's manager, and a loop of managers within the import refused: each account is created
after its manager, so a loop has no order. -/
def resolveManagers (u : Platform) (rows : List ManagedRow) (accounts : List PlannedAccount)
    (people : List ImportPerson)
    (lineOf : Nat → Nat) (fuel : Nat) : Option Matches :=
  let out := matchesOf u rows accounts people
  refuseLoops lineOf (chainOf (linksOf out) fuel) out (managerLoops (linksOf out))

section
variable {managerOf : List (Nat × Nat)} {start i : Nat}

/-- The row is on a loop: its manager's managers come back to it. -/
def OnLoop (managerOf : List (Nat × Nat)) (i : Nat) : Prop :=
  Relation.TransGen (Chain.Leads (managerOfGet managerOf)) i i

/-- A loop found leads from a manager back to the start. -/
theorem reaches_of_managerLoop {fuel : Nat} {at_ : Option Nat} {seen : List Nat}
    (looped : managerLoop managerOf start fuel at_ seen = true) :
    ∃ manager, at_ = some manager ∧ Relation.ReflTransGen (Chain.Leads (managerOfGet managerOf))
      manager start := by
  induction fuel generalizing at_ seen with
  | zero => simp [managerLoop] at looped
  | succ fuel ih =>
    cases at_ with
    | none => simp [managerLoop] at looped
    | some manager =>
      refine ⟨manager, rfl, ?_⟩
      rw [managerLoop] at looped
      split at looped
      next here => exact here ▸ .refl
      next =>
        split at looped
        · cases looped
        · obtain ⟨above, leads, reaches⟩ := ih looped
          exact .head leads reaches

/-- A row on a loop is at some distance from itself, the links being so many. -/
theorem OnLoop.distance (looped : OnLoop managerOf i) :
    ∃ manager n, managerOfGet managerOf i = some manager ∧ n ≤ managerOf.length ∧
      Chain.Distance (managerOfGet managerOf) i manager n := by
  obtain ⟨manager, leads, back⟩ := Relation.TransGen.head'_iff.mp looped
  obtain ⟨n, distance⟩ := Chain.exists_distance back
  have bound := distance.le_length fun b => managerOfGet_mem
  rw [List.length_map] at bound
  exact ⟨manager, n, leads, bound, distance⟩

theorem mem_managerLoops : i ∈ managerLoops managerOf ↔ OnLoop managerOf i := by
  unfold managerLoops
  rw [List.mem_filter]
  constructor
  · rintro ⟨_, looped⟩
    obtain ⟨manager, leads, back⟩ := reaches_of_managerLoop looped
    exact Relation.TransGen.head' leads back
  · intro looped
    obtain ⟨manager, n, leads, bound, distance⟩ := looped.distance
    refine ⟨managerOfGet_mem (by simp [leads]), ?_⟩
    rw [leads]
    refine managerLoop_of_distance distance (by omega) fun j seen other => ?_
    exact absurd (List.mem_singleton.mp seen) other

/-- The walk round a loop ends, having passed every row of it once. -/
theorem exists_chainOf (looped : OnLoop managerOf i) :
    ∃ way, (∀ fuel, managerOf.length < fuel → chainOf managerOf fuel i = some way) ∧
      (i :: (way ++ [i])).IsChain (Chain.Leads (managerOfGet managerOf)) ∧ (i :: way).Nodup := by
  obtain ⟨manager, n, leads, bound, distance⟩ := looped.distance
  obtain ⟨way, walked, first, linked, distinct, _⟩ := distance.exists_walk (Nat.lt_succ_of_le bound)
  refine ⟨way, fun fuel enough => ?_, ?_, distinct⟩
  · unfold chainOf
    rw [leads, Option.bind_some]
    exact Chain.walk_mono walked enough
  · refine List.IsChain.cons linked fun b head => ?_
    have same : b = manager := (Option.some.inj (first.symm.trans head)).symm
    subst same
    exact leads

end

theorem keyed_matchesOf {u : Platform} {rows : List ManagedRow} {accounts : List PlannedAccount}
    {people : List ImportPerson} :
    Table.Keyed Prod.fst (matchesOf u rows accounts people) := by
  have all : ∀ (rows : List ManagedRow) (out : Matches), Table.Keyed Prod.fst out →
      Table.Keyed Prod.fst
        (rows.foldl (fun out r =>
          Assoc.set out r.index (resolveManager u r.manager r.index accounts people)) out) := by
    intro rows
    induction rows with
    | nil => exact fun _ keyed => keyed
    | cons r rest ih => exact fun out keyed => ih _ (Assoc.keyed_set keyed)
  exact all rows [] List.nodup_nil

theorem managerOfGet_linksOf {out : Matches} {i : Nat} (keyed : Table.Keyed Prod.fst out) :
    managerOfGet (linksOf out) i = (Assoc.get out i).bind ManagerMatch.link :=
  Assoc.get_filterMap keyed

/-- Each looped row is refused, naming its loop; the others stay as they were. -/
theorem exists_refuseLoops (lineOf : Nat → Nat) {chain : Nat → Option (List Nat)}
    {way : Nat → List Nat} {loops : List Nat}
    {out : Matches} (keyed : Table.Keyed Prod.fst out) (walked : ∀ i ∈ loops, chain i = some (way i)) :
    ∃ result, refuseLoops lineOf chain out loops = some result ∧ Table.Keyed Prod.fst result ∧
      ∀ i, Assoc.get result i =
        if i ∈ loops then some (.invalid (loopMessage lineOf (i :: (way i ++ [i]))))
        else Assoc.get out i := by
  induction loops generalizing out with
  | nil => exact ⟨out, rfl, keyed, fun i => by simp⟩
  | cons index rest ih =>
    have here := walked index List.mem_cons_self
    obtain ⟨result, refused, keyed', got⟩ :=
      ih (Assoc.keyed_set (k := index)
        (v := .invalid (loopMessage lineOf (index :: (way index ++ [index])))) keyed)
        fun i member => walked i (List.mem_cons_of_mem _ member)
    refine ⟨result, by simp only [refuseLoops, here, refused], keyed', fun i => ?_⟩
    rw [got, Assoc.get_set]
    by_cases later : i ∈ rest
    · simp [later]
    · by_cases same : i = index
      · subst same
        simp
      · simp [later, same]

theorem refuseLoops_congr {lineOf : Nat → Nat} {chain other : Nat → Option (List Nat)}
    {out : Matches} {loops : List Nat}
    (same : ∀ i ∈ loops, chain i = other i) : refuseLoops lineOf chain out loops =
      refuseLoops lineOf other out loops := by
  induction loops generalizing out with
  | nil => rfl
  | cons index rest ih =>
    simp only [refuseLoops, same index List.mem_cons_self]
    cases other index with
    | none => rfl
    | some way => exact ih fun i member => same i (List.mem_cons_of_mem _ member)

/-- `managerLoops` finds exactly the rows on a loop. `resolveManagers` ends, refuses each of them
with a message that names its whole loop, leaves every other row its match, and leaves no loop among
the rows' managers. -/
theorem managers_unlooped (u : Platform) (rows : List ManagedRow) (accounts : List PlannedAccount)
    (people : List ImportPerson)
    (lineOf : Nat → Nat) :
    (∀ managerOf i, i ∈ managerLoops managerOf ↔
      Relation.TransGen (Chain.Leads (managerOfGet managerOf)) i i) ∧
    ∃ result,
      (∀ fuel, (linksOf (matchesOf u rows accounts people)).length < fuel →
        resolveManagers u rows accounts people lineOf fuel = some result) ∧
      Chain.Acyclic (managerOfGet (linksOf result)) ∧
      (∀ i, OnLoop (linksOf (matchesOf u rows accounts people)) i →
        ∃ way,
          (i :: (way ++ [i])).IsChain
          (Chain.Leads (managerOfGet (linksOf (matchesOf u rows accounts people)))) ∧
          (i :: way).Nodup ∧
          (∀ j, j ∈ i :: way ↔
            Relation.ReflTransGen
            (Chain.Leads (managerOfGet (linksOf (matchesOf u rows accounts people)))) i j) ∧
          Assoc.get result i = some (.invalid (loopMessage lineOf (i :: (way ++ [i]))))) ∧
      ∀ i, ¬OnLoop (linksOf (matchesOf u rows accounts people)) i →
        Assoc.get result i = Assoc.get (matchesOf u rows accounts people) i := by
  refine ⟨fun _ _ => mem_managerLoops, ?_⟩
  generalize made : matchesOf u rows accounts people = out
  have keyed : Table.Keyed Prod.fst out := made ▸ keyed_matchesOf
  have enough : (linksOf out).length < (linksOf out).length + 1 := Nat.lt_succ_self _
  let way := fun i => (chainOf (linksOf out) ((linksOf out).length + 1) i).getD []
  have walked : ∀ i, OnLoop (linksOf out) i → ∀ fuel, (linksOf out).length < fuel →
    chainOf (linksOf out) fuel i = some (way i) := by
    intro i looped fuel bound
    obtain ⟨w, ends, _⟩ := exists_chainOf looped
    have here : way i = w := by simp [way, ends _ enough]
    rw [here, ends fuel bound]
  obtain ⟨result, refused, keyed', got⟩ := exists_refuseLoops lineOf keyed
    fun i (member : i ∈ managerLoops (linksOf out)) => walked i (mem_managerLoops.mp member) _ enough
  have refusedAt : ∀ i, OnLoop (linksOf out) i →
      Assoc.get result i = some (.invalid (loopMessage lineOf (i :: (way i ++ [i])))) := fun i looped => by
    rw [got, if_pos (mem_managerLoops.mpr looped)]
  have keptAt : ∀ i, ¬OnLoop (linksOf out) i → Assoc.get result i = Assoc.get out i := fun i free => by
    rw [got, if_neg fun member => free (mem_managerLoops.mp member)]
  refine ⟨result, fun fuel bound => ?_, ?_, fun i looped => ?_, keptAt⟩
  · unfold resolveManagers
    rw [made, ← refused]
    refine refuseLoops_congr fun i member => ?_
    rw [walked i (mem_managerLoops.mp member) _ bound, walked i (mem_managerLoops.mp member) _ enough]
  · intro i looped
    have kept : ∀ {a b}, Chain.Leads (managerOfGet (linksOf result)) a b →
        ¬OnLoop (linksOf out) a ∧ Chain.Leads (managerOfGet (linksOf out)) a b := by
      intro a b leads
      unfold Chain.Leads at leads
      rw [managerOfGet_linksOf keyed'] at leads
      by_cases looped : OnLoop (linksOf out) a
      · rw [refusedAt a looped] at leads
        cases leads
      · rw [keptAt a looped, ← managerOfGet_linksOf keyed] at leads
        exact ⟨looped, leads⟩
    obtain ⟨manager, leads, _⟩ := Relation.TransGen.head'_iff.mp looped
    exact (kept leads).1 (Relation.TransGen.mono (fun _ _ leads => (kept leads).2) _ _ looped)
  · obtain ⟨w, ends, linked, distinct⟩ := exists_chainOf looped
    have here : way i = w := by simp [way, ends _ enough]
    rw [refusedAt i looped, here]
    exact ⟨w, linked, distinct, fun j => Chain.mem_cycle_iff linked, rfl⟩

end OpenAduc.UserImport
