import OpenAduc.Lib.Table

namespace Assoc
universe u v
variable {κ : Type u} {ν : Type v} [DecidableEq κ]

def get (m : List (κ × ν)) (k : κ) : Option ν :=
  (Table.find Prod.fst k m).map Prod.snd

/-- A key that is set keeps its place, a new one goes last. -/
def set (m : List (κ × ν)) (k : κ) (v : ν) : List (κ × ν) :=
  if m.any (·.1 = k) then m.map fun e => if e.1 = k then (k, v) else e else m ++ [(k, v)]

variable {m : List (κ × ν)} {k : κ} {v : ν}

@[simp] theorem get_nil : get ([] : List (κ × ν)) k = none := rfl

theorem get_cons {e : κ × ν} : get (e :: m) k = if e.1 = k then some e.2 else get m k := by
  unfold get Table.find
  by_cases same : e.1 = k <;> simp [same]

theorem mem_of_get (got : get m k = some v) : (k, v) ∈ m := by
  obtain ⟨e, found, rfl⟩ := Option.map_eq_some_iff.mp got
  obtain ⟨member, rfl⟩ := Table.find_mem found
  exact member

theorem get_isSome : (get m k).isSome ↔ k ∈ m.map Prod.fst := by
  induction m with
  | nil => simp
  | cons e m ih =>
    rw [get_cons]
    by_cases same : e.1 = k
    · simp [same]
    · simpa [same, Ne.symm same] using ih

theorem get_append {more : List (κ × ν)} : get (m ++ more) k = (get m k).or (get more k) := by
  induction m with
  | nil => simp
  | cons e m ih =>
    rw [List.cons_append, get_cons, get_cons]
    by_cases same : e.1 = k
    · simp [same]
    · simpa [same] using ih

/-- A key no entry has is not set. -/
theorem get_eq_none : get m k = none ↔ k ∉ m.map Prod.fst := by
  rw [← get_isSome, Option.not_isSome_iff_eq_none]

theorem get_replace {k' : κ} :
    get (m.map fun e => if e.1 = k then (k, v) else e) k' = if k' = k then (get m k).map fun _ =>
      v else get m k' := by
  induction m with
  | nil => simp
  | cons e m ih =>
    rw [List.map_cons, get_cons, get_cons, get_cons, ih]
    by_cases here : e.1 = k <;> by_cases asked : k' = k
    · simp [here, asked]
    · simp [here, asked, Ne.symm asked]
    · simp [here, asked]
    · simp [here, asked]

/-- Setting a key gives it the value and leaves the others theirs. -/
@[simp] theorem get_set {k' : κ} : get (set m k v) k' = if k' = k then some v else get m k' := by
  have holds : m.any (·.1 = k) = true ↔ k ∈ m.map Prod.fst := by simp
  unfold set
  split
  next held =>
    obtain ⟨w, got⟩ := Option.isSome_iff_exists.mp (get_isSome.mpr (holds.mp held))
    simp [get_replace, got]
  next absent =>
    have missing : get m k = none := get_eq_none.mpr fun member => absent (holds.mpr member)
    rw [get_append, get_cons, get_nil]
    by_cases asked : k' = k
    · subst asked
      simp [missing]
    · simp [asked, Ne.symm asked]

theorem mem_set {e : κ × ν} (member : e ∈ set m k v) : e = (k, v) ∨ e ∈ m := by
  unfold set at member
  split at member
  next =>
    obtain ⟨f, old, rfl⟩ := List.mem_map.mp member
    split
    · exact .inl rfl
    · exact .inr old
  next =>
    rcases List.mem_append.mp member with old | added
    · exact .inr old
    · exact .inl (List.mem_singleton.mp added)

/-- A key set is there once. -/
theorem keyed_set (keyed : Table.Keyed Prod.fst m) : Table.Keyed Prod.fst (set m k v) := by
  unfold set
  split
  next =>
    have same : (m.map fun e => if e.1 = k then (k, v) else e).map Prod.fst = m.map Prod.fst := by
      rw [List.map_map]
      refine List.map_congr_left fun e _ => ?_
      by_cases here : e.1 = k <;> simp [here]
    rw [Table.Keyed, same]
    exact keyed
  next absent =>
    refine keyed.append (List.nodup_singleton k) fun e member f added same => ?_
    cases List.mem_singleton.mp added
    exact absent (List.any_eq_true.mpr ⟨e, member, by simpa using same⟩)

/-- The values some of the entries have, by key. -/
theorem get_filterMap {μ : Type v} {f : ν → Option μ} (keyed : Table.Keyed Prod.fst m) :
    get (m.filterMap fun e => (f e.2).map fun w => (e.1, w)) k = (get m k).bind f := by
  induction m with
  | nil => rfl
  | cons e m ih =>
    have parts := List.nodup_cons.mp keyed
    rw [List.filterMap_cons, get_cons]
    by_cases here : e.1 = k
    · have absent : get m k = none := get_eq_none.mpr (here ▸ parts.1)
      cases value : f e.2 with
      | none => simp [here, value, ih parts.2, absent]
      | some w => simp [here, value, get_cons]
    · cases value : f e.2 with
      | none => simp [here, ih parts.2]
      | some w => simp [here, ih parts.2, get_cons]

/-- `delete(k)`. -/
def erase (m : List (κ × ν)) (k : κ) : List (κ × ν) := m.filter fun e => e.1 ≠ k

/-- An erased key is gone, and the others stay. -/
@[simp] theorem get_erase {k' : κ} : get (erase m k) k' = if k' = k then none else get m k' := by
  induction m with
  | nil => simp [erase]
  | cons e m ih =>
    unfold erase at ih ⊢
    by_cases here : e.1 = k
    · rw [List.filter_cons_of_neg (by simpa using here), ih, get_cons]
      by_cases asked : k' = k
      · simp [asked]
      · have other : e.1 ≠ k' := fun same => asked (same.symm.trans here)
        simp [asked, other]
    · rw [List.filter_cons_of_pos (by simpa using here), get_cons, ih, get_cons]
      by_cases asked : k' = k
      · have other : e.1 ≠ k' := fun same => here (same.trans asked)
        simp [asked, here]
      · simp [asked]

theorem keyed_erase (keyed : Table.Keyed Prod.fst m) : Table.Keyed Prod.fst (erase m k) :=
  List.Nodup.sublist (List.filter_sublist.map Prod.fst) keyed

omit [DecidableEq κ] in
theorem keyed_filterMap {μ : Type v} {f : ν → Option μ} (keyed : Table.Keyed Prod.fst m) :
    Table.Keyed Prod.fst (m.filterMap fun e => (f e.2).map fun w => (e.1, w)) := by
  have sub : ∀ m : List (κ × ν),
      ((m.filterMap fun e => (f e.2).map fun w => (e.1, w)).map Prod.fst).Sublist (m.map Prod.fst) := by
    intro m
    induction m with
    | nil => simp
    | cons e m ih =>
      cases value : f e.2 with
      | none => simpa [value] using ih.cons e.1
      | some w => simpa [value] using ih
  exact List.Nodup.sublist (sub m) keyed

end Assoc
