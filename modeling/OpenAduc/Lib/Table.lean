import Mathlib.Data.List.Nodup
import Mathlib.Data.List.Basic

namespace Table
universe u v
variable {α : Type u} {κ : Type v}

/-- `UPDATE t SET set WHERE cond`. -/
def update (cond : α → Prop) [DecidablePred cond] (set : α → α) (t : List α) : List α :=
  t.map fun x => if cond x then set x else x

/-- `DELETE FROM t WHERE cond`. -/
def delete (cond : α → Prop) [DecidablePred cond] (t : List α) : List α :=
  t.filter fun x => ¬cond x

/-- The record a key names. -/
def find [DecidableEq κ] (key : α → κ) (k : κ) (t : List α) : Option α :=
  t.find? fun x => key x = k

/-- No two records share a key. -/
def Keyed (key : α → κ) (t : List α) : Prop :=
  (t.map key).Nodup

variable {cond : α → Prop} [DecidablePred cond] {set : α → α} {t : List α}

@[simp] theorem mem_update {y : α} :
    y ∈ update cond set t ↔ ∃ x ∈ t, (if cond x then set x else x) = y := by
  simp only [update, List.mem_map]

/-- A property of every record after an update, as one of the records before it. -/
theorem forall_update {P : α → Prop} :
    (∀ y ∈ update cond set t, P y) ↔ ∀ x ∈ t, (cond x → P (set x)) ∧ (¬cond x → P x) := by
  simp only [mem_update, forall_exists_index, and_imp, forall_apply_eq_imp_iff₂]
  refine forall₂_congr fun x _ => ?_
  by_cases holds : cond x <;> simp [holds]

/-- Some record after an update, as one of those before it. -/
theorem exists_update {P : α → Prop} :
    (∃ y ∈ update cond set t, P y) ↔ ∃ x ∈ t, (cond x ∧ P (set x)) ∨ (¬cond x ∧ P x) := by
  simp only [mem_update, exists_exists_and_eq_and]
  refine exists_congr fun x => and_congr_right fun _ => ?_
  by_cases holds : cond x <;> simp [holds]

/-- Where the update makes no record have a property, none has it that some record lacked before. -/
theorem exists_of_update {P : α → Prop} (holds : ∃ y ∈ update cond set t, P y)
    (kept : ∀ x ∈ t, cond x → P (set x) → P x) : ∃ x ∈ t, P x := by
  obtain ⟨x, member, ⟨met, after⟩ | ⟨_, before⟩⟩ := exists_update.mp holds
  · exact ⟨x, member, kept x member met after⟩
  · exact ⟨x, member, before⟩

/-- Two updates of the same records are one. -/
theorem update_update {set' : α → α} (kept : ∀ x, cond x → cond (set x)) :
    update cond set' (update cond set t) = update cond (set' ∘ set) t := by
  simp only [update, List.map_map]
  refine List.map_congr_left fun x _ => ?_
  by_cases holds : cond x <;> simp [holds, kept]

@[simp] theorem mem_delete {x : α} : x ∈ delete cond t ↔ x ∈ t ∧ ¬cond x := by
  simp [delete]

@[simp] theorem length_update : (update cond set t).length = t.length := by
  simp [update]

theorem update_append {more : List α} :
    update cond set (t ++ more) = update cond set t ++ update cond set more :=
  List.map_append

/-- An update that finds no record changes none. -/
theorem update_eq_self (none : ∀ x ∈ t, ¬cond x) : update cond set t = t := by
  refine (List.map_congr_left fun x member => ?_).trans (List.map_id t)
  exact if_neg (none x member)

/-- A column the update leaves alone keeps its values, in order. -/
theorem map_update {column : α → κ} (kept : ∀ x, cond x → column (set x) = column x) :
    (update cond set t).map column = t.map column := by
  simp only [update, List.map_map]
  refine List.map_congr_left fun x _ => ?_
  by_cases holds : cond x <;> simp [holds, kept]

theorem Keyed.update {key : α → κ} (keyed : Keyed key t)
    (kept : ∀ x, cond x → key (set x) = key x) : Keyed key (update cond set t) := by
  rw [Keyed, map_update kept]
  exact keyed

theorem Keyed.delete {key : α → κ} (keyed : Keyed key t) : Keyed key (delete cond t) :=
  List.Nodup.sublist (List.filter_sublist.map key) keyed

/-- Records with new, distinct keys extend a keyed table. -/
theorem Keyed.append {key : α → κ} {more : List α} (keyed : Keyed key t) (added : Keyed key more)
    (fresh : ∀ x ∈ t, ∀ y ∈ more, key x ≠ key y) : Keyed key (t ++ more) := by
  rw [Keyed, List.map_append, List.nodup_append]
  refine ⟨keyed, added, ?_⟩
  intro a memberA b memberB same
  obtain ⟨x, memberX, rfl⟩ := List.mem_map.mp memberA
  obtain ⟨y, memberY, rfl⟩ := List.mem_map.mp memberB
  exact fresh x memberX y memberY same

/-- In a keyed table two records with one key are one record. -/
theorem Keyed.eq_of_key {key : α → κ} (keyed : Keyed key t) {x y : α} (memberX : x ∈ t) (memberY : y ∈ t)
    (same : key x = key y) : x = y :=
  List.inj_on_of_nodup_map keyed memberX memberY same

/-- Giving the record of one key another keeps the table keyed, if no other record has that. -/
theorem Keyed.rekey [DecidableEq κ] {key : α → κ} (keyed : Keyed key t) {old new : κ}
    (sets : ∀ x, key x = old → key (set x) = new) (free : old = new ∨ ∀ x ∈ t, key x ≠ new) :
    Keyed key (Table.update (fun x => key x = old) set t) := by
  unfold Keyed Table.update
  rw [List.map_map]
  refine List.Nodup.map_on (fun x memberX y memberY same => ?_) keyed.of_map
  have taken {z : α} (member : z ∈ t) (same : new = key z) : key z = old := by
    rcases free with here | free
    · exact same ▸ here.symm
    · exact absurd same.symm (free z member)
  rw [Function.comp_apply, Function.comp_apply] at same
  by_cases isX : key x = old <;> by_cases isY : key y = old
  · exact keyed.eq_of_key memberX memberY (isX.trans isY.symm)
  · rw [if_pos isX, if_neg isY, sets x isX] at same
    exact absurd (taken memberY same) isY
  · rw [if_neg isX, if_pos isY, sets y isY] at same
    exact absurd (taken memberX same.symm) isX
  · rw [if_neg isX, if_neg isY] at same
    exact keyed.eq_of_key memberX memberY same

/-- Two tables with one column in common have a record each for a value of it. -/
theorem exists_of_map_eq {t' : List α} {column : α → κ} (same : t'.map column = t.map column) {x : α}
    (member : x ∈ t') : ∃ y ∈ t, column y = column x := by
  have value : column x ∈ t.map column := same ▸ List.mem_map_of_mem member
  simpa only [List.mem_map] using value

theorem exists_of_map_sublist {t' : List α} {column : α → κ}
    (fewer : (t'.map column).Sublist (t.map column)) {x : α} (member : x ∈ t') :
    ∃ y ∈ t, column y = column x := by
  have value : column x ∈ t.map column := fewer.subset (List.mem_map_of_mem member)
  simpa only [List.mem_map] using value

variable [DecidableEq κ]

theorem find_mem {key : α → κ} {k : κ} {x : α} (found : find key k t = some x) : x ∈ t ∧ key x = k :=
  ⟨List.mem_of_find?_eq_some found, by simpa using List.find?_some found⟩

theorem Keyed.find_eq {key : α → κ} (keyed : Keyed key t) {x : α} (member : x ∈ t) :
    find key (key x) t = some x := by
  cases found : find key (key x) t with
  | none =>
    have absent := List.find?_eq_none.mp found x member
    simp at absent
  | some y =>
    obtain ⟨memberY, same⟩ := find_mem found
    rw [keyed.eq_of_key memberY member same]

theorem Keyed.find_iff {key : α → κ} (keyed : Keyed key t) {k : κ} {x : α} :
    find key k t = some x ↔ x ∈ t ∧ key x = k := by
  constructor
  · exact find_mem
  · rintro ⟨member, rfl⟩
    exact keyed.find_eq member

/-- What an update that leaves the keys alone makes of the record a key names. -/
theorem Keyed.find_update {key : α → κ} (keyed : Keyed key t) {k : κ} {x : α} (found : find key k t = some x)
    (kept : ∀ x, cond x → key (set x) = key x) :
    find key k (Table.update cond set t) = some (if cond x then set x else x) := by
  obtain ⟨member, rfl⟩ := find_mem found
  refine (keyed.update kept).find_iff.mpr ⟨mem_update.mpr ⟨x, member, rfl⟩, ?_⟩
  split
  next met => exact kept x met
  next => rfl

theorem find_update {key : α → κ} {k : κ} (kept : ∀ x, cond x → key (set x) = key x) :
    find key k (Table.update cond set t) = (find key k t).map fun x => if cond x then set x else x := by
  have keys : ∀ x, key (if cond x then set x else x) = key x := by
    intro x
    split
    next met => exact kept x met
    next => rfl
  unfold find Table.update
  rw [List.find?_map]
  congr 2
  funext x
  rw [Function.comp_apply, keys]

/-- The record a key names, where it meets a condition. -/
theorem Keyed.find_where {key : α → κ} (keyed : Keyed key t) {k : κ} :
    (t.find? fun x => key x = k ∧ cond x) = (find key k t).filter (cond ·) := by
  cases found : find key k t with
  | none =>
    rw [Option.filter_none, List.find?_eq_none]
    intro x member
    have other := List.find?_eq_none.mp found x member
    simp only [decide_eq_true_eq] at other ⊢
    exact fun both => other both.1
  | some x =>
    obtain ⟨member, rfl⟩ := find_mem found
    by_cases met : cond x
    · rw [Option.filter_some_pos (by simpa using met)]
      cases which : t.find? fun y => key y = key x ∧ cond y with
      | none =>
        have absent := List.find?_eq_none.mp which x member
        simp [met] at absent
      | some y =>
        have same : key y = key x ∧ cond y := by simpa using List.find?_some which
        rw [keyed.eq_of_key (List.mem_of_find?_eq_some which) member same.1]
    · rw [Option.filter_some_neg (by simpa using met), List.find?_eq_none]
      intro y memberY
      simp only [decide_eq_true_eq]
      rintro ⟨same, holds⟩
      exact met (keyed.eq_of_key memberY member same ▸ holds)

theorem Keyed.find_delete {key : α → κ} (keyed : Keyed key t) {k : κ} :
    find key k (Table.delete cond t) = (find key k t).filter fun x => ¬cond x := by
  rw [← keyed.find_where]
  unfold find Table.delete
  rw [List.find?_filter]
  congr 1
  funext x
  simp [and_comm]

theorem find_append {key : α → κ} {k : κ} {more : List α} :
    find key k (t ++ more) = (find key k t).or (find key k more) :=
  List.find?_append

end Table
