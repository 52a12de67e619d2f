import Mathlib.Data.List.Perm.Basic
import OpenAduc.Lib.Chain
import OpenAduc.BulkJobs.InHand

namespace OpenAduc.BulkJobs

inductive PasswordMode
  | random
  | generate
  | set
  deriving DecidableEq, Repr

inductive ImportPassword
  | random
  | generate (mustChange : Bool)
  | set (password : String) (mustChange : Bool)
  deriving DecidableEq, Repr

/-- How the import sets every account up: kept on its subject and on each row. -/
structure ImportOptions where
  passwordMode : PasswordMode
  mustChange : Bool
  enabled : Bool
  deriving DecidableEq, Repr

/-- One account to create, its names as the operator approved them; `managerRow`
indexes the request's rows, `managerId` is the organisation's. -/
structure ImportRow where
  line : Nat
  ouDn : String
  cn : String
  samAccountName : String
  userPrincipalName : String
  displayName : String
  managerId : Option String
  managerRow : Option Nat
  groups : List String
  deriving DecidableEq, Repr

/-- What is wrong with one field of a request, by its path. -/
structure Issue where
  path : String × Nat × String
  message : String
  deriving DecidableEq, Repr

/-- One account to create, as the import route resolved it from the checked request. -/
structure ImportPlanRow where
  line : Nat
  ouDn : String
  cn : String
  samAccountName : String
  userPrincipalName : String
  displayName : String
  managerId : Option String
  managerRow : Option Nat
  groupIds : List String
  deriving DecidableEq, Repr

structure ImportPlan where
  rows : List ImportPlanRow
  password : ImportPassword
  enabled : Bool
  deriving DecidableEq, Repr

/-- A stored row's input: the plan's row, its manager by ordinal. -/
structure ImportRowInput where
  line : Nat
  ouDn : String
  cn : String
  samAccountName : String
  userPrincipalName : String
  displayName : String
  managerId : Option String
  groupIds : List String
  managerOrdinal : Option Nat
  options : ImportOptions
  deriving DecidableEq, Repr

/-- `managerOf.get(i)`. -/
def managerOfGet (managerOf : List (Nat × Nat)) (i : Nat) : Option Nat :=
  (Table.find Prod.fst i managerOf).map Prod.snd

/-- The walk along the managers from one start: whether it comes back to it. -/
def managerLoop (managerOf : List (Nat × Nat)) (start : Nat) : Nat → Option Nat → List Nat → Bool
  | 0, _, _ => false
  | _ + 1, none, _ => false
  | fuel + 1, some manager, seen =>
    if manager = start then true
    else if manager ∈ seen then false
    else managerLoop managerOf start fuel (managerOfGet managerOf manager) (manager :: seen)

/-- The rows whose managers, followed within the import, lead back to them. -/
def managerLoops (managerOf : List (Nat × Nat)) : List Nat :=
  (managerOf.map Prod.fst).filter fun start =>
    managerLoop managerOf start (managerOf.length + 1) (managerOfGet managerOf start) [start]

/-- Each row that names a manager in the import, with that manager. -/
def managersOf (rows : List ImportRow) : List (Nat × Nat) :=
  rows.zipIdx.filterMap fun (row, i) => row.managerRow.map fun manager => (i, manager)

def managerIssue (i : Nat) (message : String) : Issue :=
  { path := ("rows", i, "managerRow"), message }

/-- `importRequestSchema`'s checks across the rows. -/
def importRequestIssues (rows : List ImportRow) : List Issue :=
  (managerLoops (managersOf rows)).map (fun i => managerIssue i "its managers go round in a loop") ++
    rows.zipIdx.flatMap fun (row, i) =>
      match row.managerRow with
      | none => []
      | some manager =>
        (if rows.length ≤ manager ∨ manager = i then
          [managerIssue i "must be another row of the import"] else []) ++
        (if row.managerId.any (· ≠ "") then [managerIssue i "a row has one manager"] else [])

/-- The checked import as its job runs it. -/
def importPlan (rows : List ImportRow) (password : ImportPassword) (enabled : Bool) : ImportPlan where
  rows := rows.map fun r =>
    { line := r.line, ouDn := r.ouDn, cn := r.cn, samAccountName := r.samAccountName,
      userPrincipalName := r.userPrincipalName, displayName := r.displayName,
      managerId := (r.managerId.filter (· ≠ "")).map (·.toLower), managerRow := r.managerRow,
      groupIds := r.groups.map (·.toLower) }
  password := password
  enabled := enabled

def optionsOf (plan : ImportPlan) : ImportOptions where
  passwordMode :=
    match plan.password with
    | .random => .random
    | .generate _ => .generate
    | .set .. => .set
  mustChange :=
    match plan.password with
    | .random => false
    | .generate mustChange | .set _ mustChange => mustChange
  enabled := plan.enabled

structure Placing where
  placed : List Nat
  order : List Nat
  deriving DecidableEq, Repr

/-- Place a row, after the manager it names; none where the row isn't there. -/
def place (managers : List (Option Nat)) : Nat → Nat → Placing → Option Placing
  | 0, _, _ => none
  | fuel + 1, i, p =>
    if i ∈ p.placed then some p
    else do
      let managerRow ← managers[i]?
      -- Placed before its manager, so a loop (which the request refuses) ends.
      let p := { p with placed := i :: p.placed }
      let p ← match managerRow with
        | none => some p
        | some manager => place managers fuel manager p
      some { p with order := p.order ++ [i] }

/-- The plan's rows in an order that puts each manager it creates before the people they manage. -/
def managersFirst (managers : List (Option Nat)) : Option (List Nat) :=
  ((List.range managers.length).foldlM (fun p i => place managers (managers.length + 1) i p)
    { placed := [], order := [] }).map Placing.order

/-- One row as it is stored, in the plan's order. -/
def importRow (plan : ImportPlan) (order : List Nat) (i : Nat) : Option (BulkJobRowInput ImportRowInput) := do
  let row ← plan.rows[i]?
  let managerOrdinal := row.managerRow.bind order.idxOf?
  some
    { targetId := none
      input :=
        { line := row.line, ouDn := row.ouDn, cn := row.cn, samAccountName := row.samAccountName,
          userPrincipalName := row.userPrincipalName, displayName := row.displayName,
          managerId := row.managerId, groupIds := row.groupIds, managerOrdinal,
          options := optionsOf plan }
      after := managerOrdinal }

/-- `importHandler.rows`. -/
def importRows (plan : ImportPlan) : Option (List (BulkJobRowInput ImportRowInput)) := do
  let order ← managersFirst (plan.rows.map (·.managerRow))
  order.mapM (importRow plan order)

/-- The manager a row names, by index. -/
def managerAt (managers : List (Option Nat)) (i : Nat) : Option Nat :=
  managers[i]?.join

/-- Managers that are rows of the import, and never lead back to one another. -/
structure Ordered (managers : List (Option Nat)) : Prop where
  inRange : ∀ i m, managerAt managers i = some m → m < managers.length
  acyclic : Chain.Acyclic (managerAt managers)

/-- The walk up from a row finds a start at some distance, given more turns than that. -/
theorem managerLoop_of_distance {managerOf : List (Nat × Nat)} {start manager n fuel : Nat} {seen : List Nat}
    (distance : Chain.Distance (managerOfGet managerOf) start manager n) (bound : n < fuel)
    (farther : ∀ j ∈ seen, j ≠ start → ∀ m, Chain.Distance (managerOfGet managerOf) start j m → n < m) :
    managerLoop managerOf start fuel (some manager) seen = true := by
  induction distance generalizing fuel seen with
  | here =>
    cases fuel with
    | zero => omega
    | succ fuel => simp [managerLoop]
  | @link a b n other leads rest ih =>
    cases fuel with
    | zero => omega
    | succ fuel =>
      have whole : Chain.Distance (managerOfGet managerOf) start a (n + 1) := .link other leads rest
      have unseen : a ∉ seen := by
        intro member
        have closer := farther a member other _ whole
        omega
      simp only [managerLoop, other, unseen, if_false, leads]
      refine ih (by omega) fun j member otherJ m distanceJ => ?_
      rcases List.mem_cons.mp member with rfl | old
      · have same := whole.unique distanceJ
        omega
      · have far := farther j old otherJ m distanceJ
        omega

theorem managerOfGet_mem {managerOf : List (Nat × Nat)} {i : Nat}
    (some_ : (managerOfGet managerOf i).isSome) :
    i ∈ managerOf.map Prod.fst := by
  obtain ⟨manager, got⟩ := Option.isSome_iff_exists.mp some_
  obtain ⟨entry, found, _⟩ := Option.map_eq_some_iff.mp got
  obtain ⟨member, rfl⟩ := Table.find_mem found
  exact List.mem_map_of_mem member

/-- Managers in which no row is found to loop never lead back to one another. -/
theorem acyclic_of_managerLoops {managerOf : List (Nat × Nat)} (none_ : managerLoops managerOf = []) :
    Chain.Acyclic (managerOfGet managerOf) := by
  intro start loop
  obtain ⟨manager, leads, back⟩ := Relation.TransGen.head'_iff.mp loop
  obtain ⟨n, distance⟩ := Chain.exists_distance back
  have bound := distance.le_length fun b => managerOfGet_mem
  rw [List.length_map] at bound
  have member : start ∈ managerOf.map Prod.fst :=
    managerOfGet_mem (by simp [show managerOfGet managerOf start = _ from leads])
  refine List.filter_eq_nil_iff.mp none_ start member ?_
  rw [show managerOfGet managerOf start = some manager from leads]
  refine managerLoop_of_distance distance (by omega) fun j seen other => ?_
  exact absurd (List.mem_singleton.mp seen) other

theorem mem_managersOf {rows : List ImportRow} {i m : Nat} :
    (i, m) ∈ managersOf rows ↔ ∃ row, rows[i]? = some row ∧ row.managerRow = some m := by
  simp only [managersOf, List.mem_filterMap, Prod.exists, Option.map_eq_some_iff, Prod.mk.injEq]
  constructor
  · rintro ⟨row, j, indexed, manager, named, rfl, rfl⟩
    exact ⟨row, List.mk_mem_zipIdx_iff_getElem?.mp indexed, named⟩
  · rintro ⟨row, indexed, named⟩
    exact ⟨row, i, List.mk_mem_zipIdx_iff_getElem?.mpr indexed, m, named, rfl, rfl⟩

/-- Each row of an import has one manager at most. -/
theorem managersOf_keyed {rows : List ImportRow} : Table.Keyed Prod.fst (managersOf rows) := by
  have keys : ((managersOf rows).map Prod.fst).Sublist (rows.zipIdx.map Prod.snd) := by
    unfold managersOf
    generalize rows.zipIdx = entries
    induction entries with
    | nil => simp
    | cons entry rest ih =>
      obtain ⟨row, i⟩ := entry
      cases named : row.managerRow with
      | none => simpa [named] using ih.cons i
      | some manager => simpa [named] using ih.cons_cons i
  refine List.Nodup.sublist keys ?_
  rw [List.zipIdx_map_snd]
  exact List.nodup_range'

theorem managerAt_eq_some {managers : List (Option Nat)} {i m : Nat} :
    managerAt managers i = some m ↔ managers[i]? = some (some m) :=
  Option.join_eq_some_iff

/-- The managers of a request its checks accept never loop, and are rows of it. -/
theorem ordered_of_accepted {rows : List ImportRow} (accepted : importRequestIssues rows = []) :
    Ordered (rows.map (·.managerRow)) := by
  obtain ⟨loops, others⟩ := List.append_eq_nil_iff.mp accepted
  have named : ∀ {i m}, managerAt (rows.map (·.managerRow)) i = some m ↔
      ∃ row, rows[i]? = some row ∧ row.managerRow = some m := by
    intro i m
    rw [managerAt_eq_some, List.getElem?_map, Option.map_eq_some_iff]
  constructor
  · intro i m manager
    obtain ⟨row, indexed, manager⟩ := named.mp manager
    have none_ := List.flatMap_eq_nil_iff.mp others (row, i) (List.mk_mem_zipIdx_iff_getElem?.mpr indexed)
    simp only [manager, List.append_eq_nil_iff] at none_
    have inRange : ¬(rows.length ≤ m ∨ m = i) := by
      intro outside
      simp [outside] at none_
    rw [List.length_map]
    omega
  · have same : managerAt (rows.map (·.managerRow)) = managerOfGet (managersOf rows) := by
      funext i
      refine Option.ext fun m => ?_
      rw [named, ← mem_managersOf, managerOfGet, Option.map_eq_some_iff]
      constructor
      · intro member
        exact ⟨(i, m), managersOf_keyed.find_eq member, rfl⟩
      · rintro ⟨⟨_, _⟩, found, rfl⟩
        obtain ⟨member, rfl⟩ := Table.find_mem found
        exact member
    rw [same]
    exact acyclic_of_managerLoops (List.map_eq_nil_iff.mp loops)

/-- What holds between two placements: rows placed once, in an order whose
managers come first. -/
structure Placed (managers : List (Option Nat)) (p : Placing) : Prop where
  once : p.placed.Nodup
  inRange : ∀ i ∈ p.placed, i < managers.length
  within : p.order ⊆ p.placed
  distinct : p.order.Nodup
  closed : ∀ i ∈ p.order, ∀ m, managerAt managers i = some m → m ∈ p.order
  sorted : p.order.Pairwise fun i j => managerAt managers i ≠ some j

/-- A row whose placement is under way: its manager is being placed. -/
def Placing.Opened (p : Placing) (i : Nat) : Prop :=
  i ∈ p.placed ∧ i ∉ p.order

section Place
variable {managers : List (Option Nat)} {p : Placing} {i : Nat}

theorem Placed.length_le (placed : Placed managers p) : p.placed.length ≤ managers.length := by
  have within : p.placed ⊆ List.range managers.length :=
    fun j member => List.mem_range.mpr (placed.inRange j member)
  simpa using (List.subperm_of_subset placed.once within).length_le

/-- A row is opened. -/
theorem Placed.open (placed : Placed managers p) (inRange : i < managers.length) (new : i ∉ p.placed) :
    Placed managers { p with placed := i :: p.placed } ∧
      ∀ j, Placing.Opened { p with placed := i :: p.placed } j ↔ j = i ∨ p.Opened j := by
  have unordered : i ∉ p.order := fun member => new (placed.within member)
  refine ⟨⟨List.nodup_cons.mpr ⟨new, placed.once⟩, ?_, ?_, placed.distinct, placed.closed, placed.sorted⟩, ?_⟩
  · intro j member
    rcases List.mem_cons.mp member with rfl | old
    · exact inRange
    · exact placed.inRange j old
  · exact fun j member => List.mem_cons_of_mem _ (placed.within member)
  · intro j
    simp only [Placing.Opened, List.mem_cons]
    constructor
    · rintro ⟨rfl | old, absent⟩
      · exact .inl rfl
      · exact .inr ⟨old, absent⟩
    · rintro (rfl | ⟨old, absent⟩)
      · exact ⟨.inl rfl, unordered⟩
      · exact ⟨.inr old, absent⟩

/-- An opened row whose manager is in order goes last. -/
theorem Placed.close (placed : Placed managers p) (opened : p.Opened i)
    (first : ∀ m, managerAt managers i = some m → m ∈ p.order) :
    Placed managers { p with order := p.order ++ [i] } ∧
      ∀ j, Placing.Opened { p with order := p.order ++ [i] } j ↔ p.Opened j ∧ j ≠ i := by
  obtain ⟨member, absent⟩ := opened
  refine ⟨⟨placed.once, placed.inRange, ?_, ?_, ?_, ?_⟩, ?_⟩
  · intro j memberJ
    rcases List.mem_append.mp memberJ with old | new
    · exact placed.within old
    · rw [List.mem_singleton.mp new]
      exact member
  · refine List.nodup_append.mpr ⟨placed.distinct, List.nodup_singleton i, fun j memberJ k memberK same => ?_⟩
    rw [List.mem_singleton.mp memberK] at same
    exact absent (same ▸ memberJ)
  · intro j memberJ m named
    rcases List.mem_append.mp memberJ with old | new
    · exact List.mem_append_left _ (placed.closed j old m named)
    · rw [List.mem_singleton.mp new] at named
      exact List.mem_append_left _ (first m named)
  · refine List.pairwise_append.mpr
      ⟨placed.sorted, List.pairwise_singleton _ i, fun j memberJ k memberK named => ?_⟩
    rw [List.mem_singleton.mp memberK] at named
    exact absent (placed.closed j memberJ i named)
  · intro j
    simp only [Placing.Opened, List.mem_append, List.mem_singleton, not_or, and_assoc]

/-- Placing a row that every row under way leads to ends, with the row in order
and nothing more under way. -/
theorem place_spec (ordered : Ordered managers) {fuel : Nat} (placed : Placed managers p)
    (inRange : i < managers.length)
    (leads : ∀ j, p.Opened j → Relation.TransGen (Chain.Leads (managerAt managers)) j i)
    (enough : managers.length < fuel + p.placed.length) :
    ∃ q, place managers fuel i p = some q ∧ Placed managers q ∧ i ∈ q.order ∧ p.order ⊆ q.order ∧
      ∀ j, q.Opened j ↔ p.Opened j := by
  induction fuel generalizing i p with
  | zero =>
    have bound := placed.length_le
    omega
  | succ fuel ih =>
    unfold place
    by_cases old : i ∈ p.placed
    · have done : i ∈ p.order := by
        by_contra absent
        exact ordered.acyclic i (leads i ⟨old, absent⟩)
      exact ⟨p, by simp [old], placed, done, fun _ member => member, fun _ => Iff.rfl⟩
    · obtain ⟨placed', opened'⟩ := placed.open inRange old
      have finish : ∀ q, Placed managers q → (∀ m, managerAt managers i = some m → m ∈ q.order) →
          p.order ⊆ q.order → (∀ j, q.Opened j ↔ j = i ∨ p.Opened j) →
          Placed managers { q with order := q.order ++ [i] } ∧ i ∈ q.order ++ [i] ∧ p.order ⊆ q.order ++ [i] ∧
            ∀ j, Placing.Opened { q with order := q.order ++ [i] } j ↔ p.Opened j := by
        intro q placedQ first grown openedQ
        obtain ⟨closed, opened⟩ := placedQ.close ((openedQ i).mpr (.inl rfl)) first
        refine ⟨closed, by simp, fun j member => List.mem_append_left _ (grown member), fun j => ?_⟩
        rw [opened, openedQ]
        constructor
        · rintro ⟨same | before, other⟩
          · exact absurd same other
          · exact before
        · intro before
          refine ⟨.inr before, ?_⟩
          rintro rfl
          exact old before.1
      cases named : managers[i] with
      | none =>
        have unmanaged : ∀ m, managerAt managers i = some m → m ∈ p.order := by
          intro m manager
          rw [managerAt_eq_some, List.getElem?_eq_getElem inRange, named] at manager
          cases Option.some.inj manager
        have whole := finish { p with placed := i :: p.placed } placed' unmanaged
          (fun _ member => member) opened'
        refine ⟨{ p with placed := i :: p.placed, order := p.order ++ [i] }, ?_, whole⟩
        simp [old, List.getElem?_eq_getElem inRange, named]
      | some manager =>
        have manages : managerAt managers i = some manager := by
          rw [managerAt_eq_some, List.getElem?_eq_getElem inRange, named]
        have under : ∀ j, Placing.Opened { p with placed := i :: p.placed } j →
            Relation.TransGen (Chain.Leads (managerAt managers)) j manager := by
          intro j opened
          rcases (opened' j).mp opened with rfl | before
          · exact .single manages
          · exact (leads j before).tail manages
        obtain ⟨q, ran, placedQ, done, grown, openedQ⟩ :=
          ih placed' (ordered.inRange i manager manages) under (by simp only [List.length_cons]; omega)
        have first : ∀ m, managerAt managers i = some m → m ∈ q.order := by
          intro m named'
          rw [manages] at named'
          cases Option.some.inj named'
          exact done
        have whole := finish q placedQ first grown fun j => (openedQ j).trans (opened' j)
        refine ⟨{ q with order := q.order ++ [i] }, ?_, whole⟩
        simp [old, List.getElem?_eq_getElem inRange, named, ran]

/-- Placing rows in turn, none under way before or after. -/
theorem foldlM_place (ordered : Ordered managers) {rows : List Nat}
    (inRange : ∀ i ∈ rows, i < managers.length)
    (placed : Placed managers p) (none_ : ∀ j, ¬p.Opened j) :
    ∃ q, rows.foldlM (fun p i => place managers (managers.length + 1) i p) p = some q ∧ Placed managers q ∧
      p.order ⊆ q.order ∧ ∀ i ∈ rows, i ∈ q.order := by
  induction rows generalizing p with
  | nil => exact ⟨p, rfl, placed, fun _ member => member, by simp⟩
  | cons i rest ih =>
    have enough : managers.length < managers.length + 1 + p.placed.length := by omega
    obtain ⟨mid, ran, placedMid, done, grown, opened⟩ :=
      place_spec ordered placed (inRange i List.mem_cons_self)
      (fun j under => absurd under (none_ j)) enough
    obtain ⟨q, ranRest, placedQ, grownRest, all⟩ :=
      ih (fun j member => inRange j (List.mem_cons_of_mem _ member))
      placedMid fun j under => none_ j ((opened j).mp under)
    refine ⟨q, ?_, placedQ, fun j member => grownRest (grown member), fun j member => ?_⟩
    · simp [ran, ranRest]
    · rcases List.mem_cons.mp member with rfl | later
      · exact grownRest done
      · exact all j later

end Place

/-- Every row, once, each after the manager it names. -/
theorem managersFirst_spec {managers : List (Option Nat)} (ordered : Ordered managers) :
    ∃ order : List Nat, managersFirst managers = some order ∧ order.Perm (List.range managers.length) ∧
      ∀ (k i : Nat), order[k]? = some i → ∀ m, managerAt managers i = some m → ∃ l < k,
      order[l]? = some m := by
  have start : Placed managers { placed := [], order := [] } := by constructor <;> simp
  obtain ⟨q, ran, placed, _, all⟩ := foldlM_place ordered
    (fun i (member : i ∈ List.range managers.length) => List.mem_range.mp member) start
      (by simp [Placing.Opened])
  refine ⟨q.order, by simp [managersFirst, ran], ?_, ?_⟩
  · refine (List.perm_ext_iff_of_nodup placed.distinct List.nodup_range).mpr fun i =>
      ⟨fun member => ?_, all i⟩
    exact List.mem_range.mpr (placed.inRange i (placed.within member))
  · intro k i indexed m named
    obtain ⟨boundK, rfl⟩ := List.getElem?_eq_some_iff.mp indexed
    have member := placed.closed _ (List.getElem_mem boundK) m named
    obtain ⟨l, boundL, rfl⟩ := List.getElem_of_mem member
    refine ⟨l, ?_, List.getElem?_eq_getElem boundL⟩
    by_contra later
    have distinct : k ≠ l := by
      rintro rfl
      exact ordered.acyclic _ (.single named)
    exact List.pairwise_iff_getElem.mp placed.sorted k l boundK boundL (by omega) named

theorem mapM_of_forall {α β : Type} {f : α → Option β} {l : List α} (all : ∀ x ∈ l, (f x).isSome) :
    ∃ ys, l.mapM f = some ys ∧ ys.length = l.length ∧ ∀ k : Nat, ys[k]? = l[k]?.bind f := by
  induction l with
  | nil => exact ⟨[], rfl, rfl, by simp⟩
  | cons x rest ih =>
    obtain ⟨y, first⟩ := Option.isSome_iff_exists.mp (all x List.mem_cons_self)
    obtain ⟨ys, ran, length, same⟩ := ih fun z member => all z (List.mem_cons_of_mem _ member)
    refine ⟨y :: ys, by simp [first, ran], by simp [length], fun k => ?_⟩
    cases k with
    | zero => simp [first]
    | succ k => simp [same]

/-- What `importRows` stores for an order: a row for each, waiting for its manager's. -/
structure StoredInOrder (plan : ImportPlan) (order : List Nat)
    (stored : List (BulkJobRowInput ImportRowInput)) : Prop where
  length : stored.length = plan.rows.length
  waits : ∀ (k i : Nat), order[k]? = some i → ∀ m, managerAt (plan.rows.map (·.managerRow)) i = some m →
    ∃ l < k, order[l]? = some m ∧ ∃ row, stored[k]? = some row ∧ row.after = some l
  below : ∀ (k : Nat) row, stored[k]? = some row → ∀ l, row.after = some l → l < k

/-- Of a sheet whose managers are ordered, the rows are stored managers first, each under the place
it was given. -/
theorem importRows_spec {plan : ImportPlan} (ordered : Ordered (plan.rows.map (·.managerRow))) :
    ∃ order stored, managersFirst (plan.rows.map (·.managerRow)) = some order ∧
      order.Perm (List.range plan.rows.length) ∧ importRows plan = some stored ∧
      StoredInOrder plan order stored := by
  obtain ⟨order, ran, perm, first⟩ := managersFirst_spec ordered
  rw [List.length_map] at perm
  have distinct : order.Nodup := perm.nodup_iff.mpr List.nodup_range
  have there : ∀ i ∈ order, (importRow plan order i).isSome := by
    intro i member
    have inRange : i < plan.rows.length := List.mem_range.mp (perm.mem_iff.mp member)
    simp [importRow, List.getElem?_eq_getElem inRange]
  obtain ⟨stored, mapped, length, same⟩ := mapM_of_forall there
  have after : ∀ (k i : Nat), order[k]? = some i → ∃ row, stored[k]? = some row ∧
      row.after = (managerAt (plan.rows.map (·.managerRow)) i).bind order.idxOf? := by
    intro k i indexed
    have member : i ∈ order := List.mem_of_getElem? indexed
    have inRange : i < plan.rows.length := List.mem_range.mp (perm.mem_iff.mp member)
    rw [same, indexed]
    simp [importRow, managerAt, List.getElem?_eq_getElem inRange]
  have placed : ∀ (k i : Nat), order[k]? = some i → ∀ m, managerAt (plan.rows.map (·.managerRow)) i = some m →
      ∃ l < k, order[l]? = some m ∧ order.idxOf? m = some l := by
    intro k i indexed m named
    obtain ⟨l, earlier, indexedL⟩ := first k i indexed m named
    obtain ⟨bound, at_⟩ := List.getElem?_eq_some_iff.mp indexedL
    refine ⟨l, earlier, indexedL, List.idxOf?_eq_some_iff.mpr ⟨bound, by simp [at_], fun j before => ?_⟩⟩
    intro equal
    have sameIndex := (List.Nodup.getElem_inj_iff distinct).mp (equal.trans at_.symm)
    omega
  refine ⟨order, stored, ran, perm, by simp [importRows, ran, mapped], ⟨?_, ?_, ?_⟩⟩
  · rw [length, perm.length_eq, List.length_range]
  · intro k i indexed m named
    obtain ⟨l, earlier, indexedL, index⟩ := placed k i indexed m named
    obtain ⟨row, storedK, waits⟩ := after k i indexed
    exact ⟨l, earlier, indexedL, row, storedK, by simp [waits, named, index]⟩
  · intro k row storedK l waits
    cases indexed : order[k]? with
    | none => simp [same, indexed] at storedK
    | some i =>
      obtain ⟨row', storedK', waits'⟩ := after k i indexed
      rw [storedK] at storedK'
      cases Option.some.inj storedK'
      rw [waits, eq_comm, Option.bind_eq_some_iff] at waits'
      obtain ⟨m, named, index⟩ := waits'
      obtain ⟨l', earlier, _, index'⟩ := placed k i indexed m named
      rw [index] at index'
      cases Option.some.inj index'
      exact earlier

variable {Input Snap Env : Type}

def BulkJobRowInput.mapInput {Other : Type} (f : Input → Other) (row : BulkJobRowInput Input) :
    BulkJobRowInput Other where
  targetId := row.targetId
  input := f row.input
  after := row.after

/-- An import is stored with the rows `importHandler.rows` gives for a checked request. -/
def Action.StoresImports (ofImport : ImportRowInput → Input) (a : Action Input Env) : Prop :=
  (.userCreate, none) ∈ a.creates → ∃ rows password enabled stored, importRequestIssues rows = [] ∧
    importRows (importPlan rows password enabled) = some stored ∧ a.stored = stored.map (·.mapInput ofImport)

namespace State
variable {s s' : State Input Snap}

variable (s) in
/-- Every import row waits for one with an ordinal below its own. -/
def WaitsBelow : Prop :=
  ∀ j ∈ s.jobs, j.kind = (.userCreate, none) → ∀ r ∈ s.rows, r.jobId = j.id →
    ∀ l, r.afterOrdinal = some l → l < r.ordinal

theorem managerRow_importPlan (rows : List ImportRow) (password : ImportPassword) (enabled : Bool) :
    (importPlan rows password enabled).rows.map (·.managerRow) = rows.map (·.managerRow) := by
  simp [importPlan, Function.comp_def]

/-- A step keeps each row waiting only for rows before it. -/
theorem waitsBelow_step {ofImport : ImportRowInput → Input} {runner : Runner Input Snap Env}
    {a : Action Input Env}
    (wf : WellFormed s) (below : s.WaitsBelow) (stores : a.StoresImports ofImport)
    (effect : Effect runner s a s') :
    s'.WaitsBelow := by
  intro j' memberJ' import_ r' member' owned' l waits
  rcases rowStep_of_effect wf.rowsKeyed effect r' member' with ⟨r, old, step⟩ | fresh
  · obtain ⟨_, owner, ordinal, after⟩ := RowRecord.place_eq.mp step.place
    obtain ⟨j, memberJ, named, kind⟩ := wf.job_before effect memberJ' old (owner.symm.trans owned')
    rw [ordinal]
    rw [after] at waits
    exact below j memberJ (kind.trans import_) r old (owner.symm.trans (owned'.trans named.symm)) l waits
  · rcases link_of_effect effect j' memberJ' with ⟨j, memberJ, link⟩ | ⟨_, stored⟩
    · have named := (JobRecord.link_eq.mp link).1.trans (owned'.symm.trans fresh.jobId)
      exact absurd named (wf.jobIds j memberJ).ne
    · rw [import_] at stored
      have creates : (.userCreate, none) ∈ a.creates := by
        cases a with
        | create => exact congrArg some stored.symm
        | revert => cases stored
        | _ => cases stored
      obtain ⟨rows, password, enabled, stored, accepted, made, same⟩ := stores creates
      have ordered := ordered_of_accepted accepted
      rw [← managerRow_importPlan rows password enabled] at ordered
      obtain ⟨_, _, _, _, made', spec⟩ := importRows_spec ordered
      rw [made] at made'
      cases Option.some.inj made'
      obtain ⟨row, indexed, after, _⟩ := fresh.input
      rw [same, List.getElem?_map, Option.map_eq_some_iff] at indexed
      obtain ⟨input, indexed, rfl⟩ := indexed
      exact spec.below r'.ordinal input indexed l (after.symm.trans waits)

theorem waitsBelow_of_reach {ofImport : ImportRowInput → Input} {runner : Runner Input Snap Env}
    (reach : (service runner).Reach (fun _ a => a.StoresImports ofImport) s) : s.WaitsBelow := by
  refine reach.invariant (fun _ init => ?_) fun _ _ _ previous below stores taken => ?_
  · rw [init]
    simp [WaitsBelow, State.empty]
  · exact waitsBelow_step (.of_reach previous) below stores (effect_of_step taken)

/-- A running job has a run's token: only a run's claim sets it running. -/
theorem token_of_running {runner : Runner Input Snap Env} {meets : State Input Snap → Action Input Env → Prop}
    (reach : (service runner).Reach meets s) : ∀ j ∈ s.jobs, j.status = .running → j.runToken.isSome := by
  refine reach.invariant (P := fun s => ∀ j ∈ s.jobs, j.status = .running → j.runToken.isSome)
    (fun _ init => ?_) fun t u a _ held _ taken => ?_
  · rw [init]
    simp [State.empty]
  have inserted : ∀ {actor action reverts} {rows : List (BulkJobRowInput Input)},
      ∀ j ∈ (t.insert actor action reverts rows).jobs, j.status = .running → j.runToken.isSome := by
    intro actor action reverts rows j member running
    rcases List.mem_append.mp member with old | new
    · exact held j old running
    · rw [List.mem_singleton.mp new] at running
      cases running
  cases effect_of_step taken with
  | memory move =>
    rw [move.tables.1]
    exact held
  | created => exact inserted
  | reverted => exact inserted
  | discarded => exact fun j member => held j (Table.mem_delete.mp member).1
  | ran => exact Table.forall_update.mpr fun j member => ⟨fun _ _ => rfl, fun _ => held j member⟩
  | beaten => exact Table.forall_update.mpr fun j member => ⟨fun _ => held j member, fun _ => held j member⟩
  | resumed | retried | cancelled | swept | paused | finished =>
    exact Table.forall_update.mpr fun j member => ⟨by simp, fun _ => held j member⟩
  | interrupted | claimed | recorded | reset => exact held

/-- The first row waits for the second, its manager's, to finish. -/
def WaitsFor (q r : RowRecord Input Snap) : Prop :=
  r.jobId = q.jobId ∧ q.afterOrdinal = some r.ordinal

instance (q r : RowRecord Input Snap) : Decidable (WaitsFor q r) :=
  inferInstanceAs (Decidable (_ ∧ _))

/-- Of a running job's pending rows that wait for earlier ones, one is
claimable, or waits for one that runs: the row it waits for waits itself, and
so on down the ordinals. -/
theorem claimable_of_pending {job : JobId} {token : Token}
    (below : ∀ r ∈ s.rows, r.jobId = job → ∀ l, r.afterOrdinal = some l → l < r.ordinal)
    (runs : ∃ j ∈ s.jobs, j.id = job ∧ j.status = .running ∧ j.runToken = some token)
    {q : RowRecord Input Snap}
    (member : q ∈ s.rows) (owned : q.jobId = job) (pending : q.status = .pending) :
    (∃ q ∈ s.rows, s.Claimable token job q) ∨
      ∃ q ∈ s.rows, q.jobId = job ∧ q.status = .pending ∧ ∃ r ∈ s.rows, WaitsFor q r ∧
      r.status = .running := by
  induction at_ : q.ordinal using Nat.strong_induction_on generalizing q with
  | _ n ih =>
    by_cases blocked : ∃ first ∈ s.rows, first.jobId = job ∧ some first.ordinal = q.afterOrdinal ∧
        first.status ∈ [BulkJobRowStatus.pending, .running]
    · obtain ⟨first, memberF, ownedF, waits, status⟩ := blocked
      have earlier := below q member owned first.ordinal waits.symm
      rcases List.mem_cons.mp status with pendingF | status
      · exact ih first.ordinal (at_ ▸ earlier) memberF ownedF pendingF rfl
      · exact .inr ⟨q, member, owned, pending, first, memberF,
          ⟨ownedF.trans owned.symm, waits.symm⟩, List.mem_singleton.mp status⟩
    · exact .inl ⟨q, member, owned, pending, runs, blocked⟩

theorem nextRow_isSome {job : JobId} {token : Token} (claimable : ∃ q ∈ s.rows, s.Claimable token job q) :
    ∃ q, s.nextRow token job [] = some q := by
  obtain ⟨q, member, met⟩ := claimable
  refine Option.ne_none_iff_exists'.mp fun none_ => ?_
  have empty := List.argmin_eq_none.mp none_
  rw [List.filter_eq_nil_iff] at empty
  exact absurd (empty q member) (by simp [met])

/-- This run holds the job, and hasn't been told to pause. -/
def UnderWay (run : Run Input Snap) (j : JobRecord) : Prop :=
  run.pause = none ∧ Settles run.token run.job.id j

instance (run : Run Input Snap) (j : JobRecord) : Decidable (UnderWay run j) :=
  inferInstanceAs (Decidable (_ ∧ _))

variable (s) in
/-- What the row waits for, where it runs, is in a worker's hands. -/
def ServedFor (q : RowRecord Input Snap) : Prop :=
  ∀ r ∈ s.rows, WaitsFor q r → r.status = .running → s.InHand r

instance (q : RowRecord Input Snap) : Decidable (s.ServedFor q) :=
  inferInstanceAs (Decidable (∀ _ ∈ _, _))

variable (s) in
/-- Whatever a pending row of a job under way waits for can still finish. -/
def Served : Prop :=
  ∀ run ∈ s.runs, ∀ j ∈ s.jobs, UnderWay run j → ∀ q ∈ s.rows, q.jobId = j.id →
    q.status = .pending → s.ServedFor q

instance : Decidable s.Served :=
  inferInstanceAs (Decidable (∀ _ ∈ _, _))

variable (s) in
/-- A pending row of a job under way for another run waits for this one. -/
def AwaitedBut (token : Token) (r : RowRecord Input Snap) : Prop :=
  ∃ run ∈ s.runs, run.token ≠ token ∧ ∃ j ∈ s.jobs, UnderWay run j ∧
    ∃ q ∈ s.rows, q.jobId = j.id ∧ q.status = .pending ∧ WaitsFor q r

instance (token : Token) (r : RowRecord Input Snap) : Decidable (s.AwaitedBut token r) :=
  inferInstanceAs (Decidable (∃ _ ∈ _, _))

variable (s) in
/-- A run claims no job, and a row is put back to none under way, in which a
row to run waits for one in nobody's hands; and no worker ends that has in hand
what a row of a job under way for another run waits for. -/
def KeepsServed (a : Action Input Env) : Prop :=
  (∀ job ∈ a.claims, ∀ q ∈ s.rows, q.jobId = job → q.status = .pending → s.ServedFor q) ∧
  (∀ p ∈ s.putsBack a, ∀ q ∈ s.rows, q.id = p.2.id → q.runToken = some p.1 →
    ∀ run ∈ s.runs, ∀ j ∈ s.jobs, UnderWay run j → q.jobId = j.id → s.ServedFor q) ∧
  ∀ x ∈ s.dropped a, ∀ r ∈ s.rows, r.id = x.2 → r.runToken = some x.1 → r.status = .running →
    ¬s.AwaitedBut x.1 r

instance (a : Action Input Env) : Decidable (s.KeepsServed a) :=
  inferInstanceAs (Decidable (_ ∧ _ ∧ _))

/-- A run not told to pause after a step was not before it, and lost no row by it, or the step started it. -/
theorem unpaused_of_effect {runner : Runner Input Snap Env} {a : Action Input Env}
    (effect : Effect runner s a s') :
    ∀ run' ∈ s'.runs, run'.pause = none →
      (∃ run ∈ s.runs, run.claim = run'.claim ∧ run.pause = none ∧ ∀ x ∈ s.dropped a, x.1 ≠ run.token) ∨
        ∃ job ∈ a.claims, run'.job.id = job ∧ run'.token = s.nextToken := by
  have kept : s.dropped a = [] → ∀ run ∈ s.runs, run.pause = none →
      (∃ run' ∈ s.runs, run'.claim = run.claim ∧ run'.pause = none ∧ ∀ x ∈ s.dropped a, x.1 ≠ run'.token) ∨
        ∃ job ∈ a.claims, run.job.id = job ∧ run.token = s.nextToken :=
    fun none run member unpaused => .inl ⟨run, member, rfl, unpaused, by simp [none]⟩
  have told : ∀ {token : Token} {set : Run Input Snap → Run Input Snap}, s.dropped a = [] →
      (∀ run, (set run).claim = run.claim) → (∀ run, (set run).pause = none → run.pause = none) →
      ∀ run' ∈ (s.updateRun token set).runs, run'.pause = none →
        (∃ run ∈ s.runs, run.claim = run'.claim ∧ run.pause = none ∧ ∀ x ∈ s.dropped a, x.1 ≠ run.token) ∨
          ∃ job ∈ a.claims, run'.job.id = job ∧ run'.token = s.nextToken := by
    intro token set none claims pauses
    refine Table.forall_update.mpr fun run member =>
      ⟨fun _ unpaused => .inl ?_, fun _ => kept none run member⟩
    exact ⟨run, member, (claims run).symm, pauses run unpaused, by simp [none]⟩
  cases effect with
  | memory move =>
    cases move with
    | ticked => exact kept rfl
    | audited => exact kept rfl
    | stopped => exact told rfl (fun _ => rfl) fun _ => id
    | crashed =>
      intro run member unpaused
      obtain ⟨old, other⟩ := Table.mem_delete.mp member
      refine .inl ⟨run, old, rfl, unpaused, fun x drops => ?_⟩
      simp only [dropped, List.mem_flatMap, List.mem_filterMap, Option.map_eq_some_iff] at drops
      obtain ⟨_, _, _, _, _, _, rfl⟩ := drops
      exact fun same => other same.symm
    | @failed token w =>
      rw [setPause_setWorker]
      refine Table.forall_update.mpr fun run member => ⟨by simp, fun other unpaused => ?_⟩
      refine .inl ⟨run, member, rfl, unpaused, fun x drops => ?_⟩
      simp only [dropped, List.mem_filterMap, Option.map_eq_some_iff] at drops
      obtain ⟨_, _, _, _, rfl⟩ := drops
      exact fun same => other same.symm
    | stepUp =>
      rw [setPause_setWorker]
      exact told rfl (fun _ => rfl) (by simp)
    | unanswered =>
      rw [setPause_setWorker]
      exact told rfl (fun _ => rfl) (by simp)
    | looped | elevated | looked | waited | handled => exact told rfl (fun _ => rfl) fun _ => id
  | @ran job record found named =>
    intro run member unpaused
    rcases List.mem_append.mp member with old | new
    · exact kept rfl run old unpaused
    · cases List.mem_singleton.mp new
      exact .inr ⟨job, rfl, named, rfl⟩
  | claimed | recorded | reset => exact told rfl (fun _ => rfl) fun _ => id
  | paused | finished => exact fun run member => kept rfl run (Table.mem_delete.mp member).1
  | _ => exact kept rfl

/-- A row of a job under way that is pending after a step was before it, or the step put it back. -/
theorem pending_before (wf : WellFormed s) (fly : InFlight s) {runner : Runner Input Snap Env}
    {a : Action Input Env}
    (effect : Effect runner s a s') {token : Token} {j : JobRecord} (member : j ∈ s.jobs)
    (held : j.runToken = some token)
    {q' : RowRecord Input Snap} (memberQ : q' ∈ s'.rows) (owned : q'.jobId = j.id)
    (pending : q'.status = .pending) :
    ∃ q ∈ s.rows, q.place = q'.place ∧
      (q.status = .pending ∨ ∃ p ∈ s.putsBack a, q.id = p.2.id ∧ q.runToken = some p.1) := by
  rcases rowStep_of_effect wf.rowsKeyed effect q' memberQ with ⟨q, old, step⟩ | fresh
  · refine ⟨q, old, step.place.symm, ?_⟩
    cases step with
    | same => exact .inl pending
    | retried retriable =>
      obtain ⟨k, memberK, namedK, stopped, _⟩ := retriable
      cases wf.jobsKeyed.eq_of_key member memberK (owned.symm.trans namedK.symm)
      rw [fly.running j member token held] at stopped
      simp at stopped
    | reset at_ named theirs => exact .inr ⟨_, putsBack_resetting at_, named, theirs⟩
    | recorded => exact absurd pending (RowOutcome.status_settled _).1
    | skipped | interrupted | claimed => cases pending
  · exact absurd (owned.symm.trans fresh.jobId) (wf.jobIds j member).ne

/-- A step keeps a running row in the hands of its run, where none is stranded. -/
theorem served_step (wf : WellFormed s) (fly : InFlight s) (served : s.Served)
    {runner : Runner Input Snap Env}
    {a : Action Input Env} (keeps : s.KeepsServed a) (effect : Effect runner s a s') : s'.Served := by
  intro run' memberRun j' memberJ underWay q' memberQ owned pending r memberR waits running
  rcases inHand_of_effect wf effect r memberR running with inHand | ⟨old, lost⟩
  · exact inHand
  exfalso
  rcases unpaused_of_effect effect run' memberRun
    underWay.1 with ⟨run, oldRun, claim, unpaused, others⟩ | ⟨job, claims, named, fresh⟩
  · obtain ⟨token, jobOf⟩ := Run.claim_eq.mp claim
    have held : j'.runToken = some run.token := token ▸ underWay.2.2.1
    rcases token_of_effect effect j' memberJ held with ⟨j, oldJ, same, heldBefore, _⟩ | ⟨fresh, _⟩
    · have before : UnderWay run j := by
        refine ⟨unpaused, ?_, heldBefore, fly.running j oldJ _ heldBefore⟩
        rw [jobOf]
        exact same.trans underWay.2.1
      obtain ⟨q, oldQ, place, why⟩ :=
        pending_before wf fly effect oldJ heldBefore memberQ (owned.trans same.symm) pending
      obtain ⟨_, ownerQ, _, afterQ⟩ := RowRecord.place_eq.mp place
      have ownedQ : q.jobId = j.id := ownerQ.trans (owned.trans same.symm)
      have waitsQ : WaitsFor q r := ⟨waits.1.trans ownerQ.symm, afterQ.trans waits.2⟩
      have inHand : s.InHand r := by
        rcases why with was | ⟨p, putsBack, its, theirs⟩
        · exact served run oldRun j oldJ before q oldQ ownedQ was r old waitsQ running
        · exact keeps.2.1 p putsBack q oldQ its theirs run oldRun j oldJ before ownedQ r old waitsQ running
      rcases lost with none | ⟨x, drops, its, theirs⟩
      · exact none inHand
      · rcases why with was | ⟨p, putsBack, _⟩
        · refine keeps.2.2 x drops r old its.symm theirs running ?_
          exact ⟨run, oldRun, (others x drops).symm, j, oldJ, before, q, oldQ, ownedQ, was, waitsQ⟩
        · rw [dropped_of_putsBack putsBack] at drops
          cases drops
    · exact absurd fresh (wf.runTokens run oldRun).ne
  · cases effect with
    | memory move => cases move <;> cases claims
    | ran =>
      have none : s.dropped (.run job : Action Input Env) = [] := rfl
      cases claims
      have inHand := keeps.1 _ rfl q' memberQ (owned.trans (underWay.2.1.trans named)) pending r old
        waits running
      rcases lost with lost | ⟨x, drops, _⟩
      · exact lost inHand
      · cases drops
    | _ => cases claims

theorem served_of_reach {runner : Runner Input Snap Env} {meets : State Input Snap → Action Input Env → Prop}
    (reach : (service runner).Reach meets s) (keeps : ∀ s a, meets s a → s.KeepsServed a) : s.Served := by
  refine reach.invariant (P := State.Served) ?_ fun _ _ _ previous served met taken => ?_
  · rintro _ rfl
    simp [Served, State.empty]
  · exact served_step (.of_reach previous) (.of_reach previous) served (keeps _ _ met) (effect_of_step taken)

end State

/-- Every checked import is ordered managers first, each row waiting for a
lower ordinal; and a running import with a row pending has one its run can
claim, or one running. Where no run starts over rows in nobody's hands, and no
worker ends that has in hand what others wait for, the one that runs can still
finish, as can all that pending rows wait for. -/
theorem import_never_stuck {rows : List ImportRow} (password : ImportPassword) (enabled : Bool)
    (accepted : importRequestIssues rows = []) :
    (∃ order stored, managersFirst (rows.map (·.managerRow)) = some order ∧
      order.Perm (List.range rows.length) ∧
      importRows (importPlan rows password enabled) = some stored ∧
        StoredInOrder (importPlan rows password enabled) order stored) ∧
    (∀ (ofImport : ImportRowInput → Input) (runner : Runner Input Snap Env) (s : State Input Snap),
      (service runner).Reach (fun _ a => a.StoresImports ofImport) s →
      ∀ j ∈ s.jobs, j.kind = (.userCreate, none) → j.status = .running → s.HasRow j.id [.pending] →
        ∃ token, j.runToken = some token ∧
          ((∃ r, s.nextRow token j.id [] = some r) ∨ s.HasRow j.id [.running])) ∧
    ∀ (ofImport : ImportRowInput → Input) (runner : Runner Input Snap Env) (s : State Input Snap),
      (service runner).Reach (fun s a => a.StoresImports ofImport ∧ s.KeepsServed a) s →
      ∀ run ∈ s.runs, ∀ j ∈ s.jobs, State.UnderWay run j → j.kind = (.userCreate, none) →
        (∀ q ∈ s.rows, q.jobId = j.id → q.status = .pending → s.ServedFor q) ∧
        (s.HasRow j.id [.pending] → (∃ r, s.nextRow run.token j.id [] = some r) ∨
          ∃ r ∈ s.rows, r.jobId = j.id ∧ r.status = .running ∧ s.InHand r) := by
  refine ⟨?_, ?_, ?_⟩
  · have ordered := ordered_of_accepted accepted
    rw [← State.managerRow_importPlan rows password enabled] at ordered
    obtain ⟨order, stored, ran, perm, made, spec⟩ := importRows_spec ordered
    rw [State.managerRow_importPlan] at ran
    exact ⟨order, stored, ran, by simpa [importPlan] using perm, made, spec⟩
  · rintro ofImport runner s reach j member import_ running ⟨q, memberQ, owned, pending⟩
    obtain ⟨token, held⟩ := Option.isSome_iff_exists.mp (State.token_of_running reach j member running)
    have below := State.waitsBelow_of_reach reach j member import_
    refine ⟨token, held, ?_⟩
    rcases State.claimable_of_pending below ⟨j, member, rfl, running, held⟩ memberQ owned
      (List.mem_singleton.mp pending) with
      claimable | ⟨q, _, ownedQ, _, r, memberR, waits, runs⟩
    · exact .inl (State.nextRow_isSome claimable)
    · exact .inr ⟨r, memberR, waits.1.trans ownedQ, by simp [runs]⟩
  · rintro ofImport runner s reach run memberRun j member underWay import_
    have served := State.served_of_reach reach (fun _ _ met => met.2) run memberRun j member underWay
    refine ⟨served, ?_⟩
    rintro ⟨q, memberQ, owned, pending⟩
    have below := State.waitsBelow_of_reach (reach.mono fun _ _ met => met.1) j member import_
    obtain ⟨named, held, running⟩ := underWay.2
    rcases State.claimable_of_pending below ⟨j, member, rfl, running, held⟩ memberQ owned
      (List.mem_singleton.mp pending) with
      claimable | ⟨q, memberQ, ownedQ, pendingQ, r, memberR, waits, runs⟩
    · exact .inl (State.nextRow_isSome claimable)
    · exact .inr ⟨r, memberR, waits.1.trans ownedQ, runs,
        served q memberQ ownedQ pendingQ r memberR waits runs⟩

/-- A person to import, with their manager's row. -/
def person (line : Nat) (name : String) (managerRow : Option Nat) : ImportRow where
  line := line
  ouDn := "OU=Staff"
  cn := name
  samAccountName := name
  userPrincipalName := name ++ "@example.org"
  displayName := name
  managerId := none
  managerRow := managerRow
  groups := []

/-- Three people, each managed by the next. -/
def chainOfCommand : List ImportRow :=
  [person 2 "ann" (some 1), person 3 "bea" (some 2), person 4 "cem" none]

/-- Their import is stored and started, and the manager of all has been created. -/
def importStarted (rows : List (BulkJobRowInput ImportRowInput)) :
    List (Action ImportRowInput (RowResult Unit)) :=
  [.create operator .userCreate rows, .run 0] ++ rowPass 0 0 changed

def imports : Transition.System (State ImportRowInput Unit) (Action ImportRowInput (RowResult Unit)) :=
  service fun _ _ result => result

/-- A chain of three, each the next one's manager, in the sheet's order. -/
theorem import_never_stuck_chain :
    ∃ stored s, importRows (importPlan chainOfCommand .random true) = some stored ∧
      imports.run .empty (importStarted stored) = some s ∧ s.HasRow 0 [.pending] ∧
        ((∃ r, s.nextRow 0 0 [] = some r) ∨ ∃ r ∈ s.rows, r.jobId = 0 ∧
          r.status = .running ∧ s.InHand r) := by
  have accepted : importRequestIssues chainOfCommand = [] := by decide +kernel
  obtain ⟨⟨_, stored, _, _, made, _⟩, _, progress⟩ := import_never_stuck .random true accepted
  have ran : ((importRows (importPlan chainOfCommand .random true)).any fun stored =>
      (imports.run .empty (importStarted stored)).any fun s =>
        imports.MeetsAlong (fun s a => s.KeepsServed a) .empty (importStarted stored) ∧
          ∃ run ∈ s.runs, run.token = 0 ∧ ∃ j ∈ s.jobs, j.id = 0 ∧ State.UnderWay run j ∧
            j.kind = (.userCreate, none) ∧ s.HasRow j.id [.pending]) = true := by decide +kernel
  rw [made, Option.any_some] at ran
  obtain ⟨s, reached, keeps, run, memberRun, token, j, member, named, underWay, import_, pending⟩ :=
    Transition.System.exists_of_any ran
  have asStored : imports.MeetsAlong (fun _ a => a.StoresImports id) .empty (importStarted stored) := by
    refine .of_forall fun a memberA _ creates => ?_
    simp only [importStarted, rowPass, List.cons_append, List.nil_append, List.mem_cons, List.not_mem_nil,
      or_false] at memberA
    rcases memberA with rfl | rfl | rfl | rfl | rfl | rfl | rfl
    · exact ⟨chainOfCommand, .random, true, stored, accepted, made, (List.map_id stored).symm⟩
    all_goals cases creates
  have reach : imports.Reach (fun s a => a.StoresImports id ∧ s.KeepsServed a) s :=
    .of_run (.start rfl) reached (Transition.System.MeetsAlong.and asStored keeps)
  have next :=
    (progress id (fun _ _ result => result) s reach run memberRun j member underWay import_).2 pending
  rw [token, named] at next
  exact ⟨stored, s, made, reached, named ▸ pending, next⟩

/-- The manager of all is in flight when the run's process dies; the one that
then pauses the job dies too, or gets no answer, before it fails the row; and
the job is resumed. -/
def importResumed (rows : List (BulkJobRowInput ImportRowInput)) :
    List (Action ImportRowInput (RowResult Unit)) :=
  [.create operator .userCreate rows, .run 0, .loop 0 0, .credentials 0 0 true, .claimRow 0 0 [],
    .crash 0, .tick 61,
    .recoverStale, .resume operator 0, .run 0]

/-- Its workers wait for ever: nothing is claimable, and the row the others
wait for is in nobody's hands. -/
theorem import_stuck : ¬∀ s, imports.Reach (fun _ a => a.StoresImports id) s →
    ∀ run ∈ s.runs, ∀ j ∈ s.jobs, State.UnderWay run j → j.kind = (.userCreate, none) →
      s.HasRow j.id [.pending] →
      (∃ r, s.nextRow run.token j.id [] = some r) ∨ ∃ r ∈ s.rows, r.jobId = j.id ∧
      r.status = .running ∧ s.InHand r := by
  intro holds
  have accepted : importRequestIssues chainOfCommand = [] := by decide +kernel
  have ran : ((importRows (importPlan chainOfCommand .random true)).any fun stored =>
      (imports.run .empty (importResumed stored)).any fun s =>
        ∃ run ∈ s.runs, ∃ j ∈ s.jobs, State.UnderWay run j ∧ j.kind = (.userCreate, none) ∧
          s.HasRow j.id [.pending] ∧
          s.nextRow run.token j.id [] = none ∧ ∀ r ∈ s.rows, r.jobId = j.id → r.status = .running →
            ¬s.InHand r) = true := by
    decide +kernel
  cases made : importRows (importPlan chainOfCommand .random true) with
  | none => simp [made] at ran
  | some stored =>
    rw [made, Option.any_some] at ran
    obtain ⟨s, reached, run, memberRun, j, member, underWay, import_, pending, none_, idle⟩ :=
      Transition.System.exists_of_any ran
    have asStored : imports.MeetsAlong (fun _ a => a.StoresImports id) .empty (importResumed stored) := by
      refine .of_forall fun a memberA _ creates => ?_
      simp only [importResumed, List.mem_cons, List.not_mem_nil, or_false] at memberA
      rcases memberA with rfl | rfl | rfl | rfl | rfl | rfl | rfl | rfl | rfl | rfl
      · exact ⟨chainOfCommand, .random, true, stored, accepted, made, (List.map_id stored).symm⟩
      all_goals cases creates
    rcases holds s (.of_run (.start rfl) reached asStored) run memberRun j member underWay import_
      pending with
      ⟨r, next⟩ | ⟨r, memberR, owned, runs, inHand⟩
    · rw [none_] at next
      cases next
    · exact idle r memberR owned runs inHand

end OpenAduc.BulkJobs
