import Mathlib.Data.List.Nodup
import Mathlib.Data.List.Basic

namespace Pick
universe u v
variable {α : Type u} {κ : Type v} [DecidableEq κ] (key : α → κ) (better : α → α → Bool)

/-- Set a map's entry to `a`, unless the one there now is no worse. -/
def offer (chosen : List α) (a : α) : List α :=
  if chosen.any fun c => key c = key a then
    chosen.map fun c => if key c = key a && better a c then a else c
  else chosen ++ [a]

def best (all : List α) : List α :=
  all.foldl (offer key better) []

/-- What choosing among the records seen so far has come to. -/
structure Chosen (seen chosen : List α) : Prop where
  keyed : (chosen.map key).Nodup
  among : ∀ c ∈ chosen, c ∈ seen
  unbeaten : ∀ c ∈ chosen, ∀ b ∈ seen, key b = key c → better b c = false
  covers : ∀ b ∈ seen, ∃ c ∈ chosen, key c = key b

variable {key better}

theorem map_key_offer (chosen : List α) (a : α) :
    ((chosen.map fun c => if key c = key a && better a c then a else c).map key) = chosen.map key := by
  rw [List.map_map]
  refine List.map_congr_left fun c _ => ?_
  by_cases taken : key c = key a ∧ better a c
  · simp [taken]
  · have kept : ¬(key c = key a && better a c) = true := by simpa using taken
    simp only [Function.comp_apply, if_neg kept]

/-- A record offered where its key is kept already: it takes the place of one it beats. -/
theorem Chosen.replace {seen chosen : List α} {a old : α} (irrefl : ∀ a, better a a = false)
    (trans : ∀ a b c, better a b = true → better b c = true → better a c = true)
    (so : Chosen key better seen chosen) (oldIn : old ∈ chosen) (same : key old = key a) :
    Chosen key better (seen ++ [a]) (chosen.map fun c => if key c = key a && better a c then a else c) := by
  refine ⟨by rw [map_key_offer]; exact so.keyed, ?_, ?_, ?_⟩
  · intro c member
    obtain ⟨before, beforeIn, rfl⟩ := List.mem_map.mp member
    split
    · simp
    · exact List.mem_append_left _ (so.among _ beforeIn)
  · intro c member b bIn sameKey
    obtain ⟨before, beforeIn, rfl⟩ := List.mem_map.mp member
    have old : b ∈ seen ∨ b = a := by simpa using bIn
    split at sameKey
    next taken =>
      have taken : key before = key a ∧ better a before = true := by simpa using taken
      rw [if_pos (by simpa using taken)]
      obtain old | rfl := old
      · by_contra beats
        have beats : better b a = true := by simpa using beats
        have worse := so.unbeaten before beforeIn b old (sameKey.trans taken.1.symm)
        rw [trans _ _ _ beats taken.2] at worse
        cases worse
      · exact irrefl b
    next kept =>
      rw [if_neg kept]
      obtain old | rfl := old
      · exact so.unbeaten before beforeIn b old sameKey
      · simpa [sameKey] using kept
  · intro b bIn
    have old : b ∈ seen ∨ b = a := by simpa using bIn
    have inKeys : key b ∈ chosen.map key := by
      obtain old | rfl := old
      · obtain ⟨c, cIn, cKey⟩ := so.covers b old
        exact cKey ▸ List.mem_map_of_mem cIn
      · exact same ▸ List.mem_map_of_mem oldIn
    have kept : (chosen.map fun c => if key c = key a && better a c then a else c).map key = chosen.map key :=
      map_key_offer chosen a
    rw [← kept] at inKeys
    simpa using inKeys

omit [DecidableEq κ] in
/-- A record offered under a key of its own is kept. -/
theorem Chosen.append {seen chosen : List α} {a : α} (irrefl : ∀ a, better a a = false)
    (so : Chosen key better seen chosen)
    (absent : ∀ c ∈ chosen, key c ≠ key a) : Chosen key better (seen ++ [a]) (chosen ++ [a]) := by
  refine ⟨?_, ?_, ?_, ?_⟩
  · rw [List.map_append, List.nodup_append]
    refine ⟨so.keyed, by simp, ?_⟩
    intro k inKeys k' isA
    obtain ⟨c, member, rfl⟩ := List.mem_map.mp inKeys
    have : k' = key a := by simpa using isA
    rw [this]
    exact absent c member
  · intro c member
    obtain old | rfl : c ∈ chosen ∨ c = a := by simpa using member
    · exact List.mem_append_left _ (so.among c old)
    · simp
  · intro c member b bIn sameKey
    obtain old | rfl : c ∈ chosen ∨ c = a := by simpa using member
    · obtain older | rfl : b ∈ seen ∨ b = a := by simpa using bIn
      · exact so.unbeaten c old b older sameKey
      · exact absurd sameKey.symm (absent c old)
    · obtain older | rfl : b ∈ seen ∨ b = c := by simpa using bIn
      · obtain ⟨d, dIn, dKey⟩ := so.covers b older
        exact absurd (dKey.trans sameKey) (absent d dIn)
      · exact irrefl b
  · intro b bIn
    obtain older | rfl : b ∈ seen ∨ b = a := by simpa using bIn
    · obtain ⟨c, cIn, cKey⟩ := so.covers b older
      exact ⟨c, List.mem_append_left _ cIn, cKey⟩
    · exact ⟨b, by simp, rfl⟩

/-- One more record offered, in an order where nothing beats itself. -/
theorem Chosen.offer {seen chosen : List α} {a : α} (irrefl : ∀ a, better a a = false)
    (trans : ∀ a b c, better a b = true → better b c = true → better a c = true)
    (so : Chosen key better seen chosen) : Chosen key better (seen ++ [a]) (offer key better chosen a) := by
  unfold Pick.offer
  by_cases there : (chosen.any fun c => key c = key a) = true
  · rw [if_pos there]
    obtain ⟨old, oldIn, same⟩ := List.any_eq_true.mp there
    exact so.replace irrefl trans oldIn (of_decide_eq_true same)
  · rw [if_neg there]
    refine so.append irrefl fun c member same => ?_
    exact there (List.any_eq_true.mpr ⟨c, member, decide_eq_true same⟩)

theorem Chosen.foldl {seen chosen : List α} (irrefl : ∀ a, better a a = false)
    (trans : ∀ a b c, better a b = true → better b c = true → better a c = true)
    (so : Chosen key better seen chosen) (more : List α) :
    Chosen key better (seen ++ more) (more.foldl (Pick.offer key better) chosen) := by
  induction more generalizing seen chosen with
  | nil => simpa using so
  | cons a more ih =>
    have next := ih (so.offer (a := a) irrefl trans)
    simpa using next

/-- For each key with records, the one chosen is among them and none of them beats it. -/
theorem chosen_best (irrefl : ∀ a, better a a = false)
    (trans : ∀ a b c, better a b = true → better b c = true → better a c = true) (all : List α) :
    Chosen key better all (best key better all) := by
  have none : Chosen key better [] [] := ⟨by simp, by simp, by simp, by simp⟩
  simpa [best] using none.foldl irrefl trans all

end Pick
