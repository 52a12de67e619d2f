import Mathlib.Data.List.Dedup
import OpenAduc.Lib.Scan
import OpenAduc.Naming.Text

namespace OpenAduc.UserMatch
open Naming (Text text unit trim isSpace lowerUnit Platform)
open Scan (run one run_split one_split)
variable (u : Platform)

def isInvisible (c : UInt16) : Bool := (0x200b ≤ c ∧ c ≤ 0x200d) ∨ c = 0x2060 ∨ c = 0xfeff

/-- White space, a separator or a quote. -/
def isEdge (c : UInt16) : Bool :=
  isSpace c ∨ c ∈ ([unit ',', unit ';', unit '"', 0x27, unit '`', 0x2018, 0x2019, 0x201c, 0x201d] :
    List UInt16)

/-- An entry as written, without stray white space, quotes or separators. -/
def cleanEntry (entry : Text) : Text := Runs.strip isEdge ((u.nfc entry).filter (!isInvisible ·))

def isAngle (c : UInt16) : Bool := c = unit '<' ∨ c = unit '>'

/-- What is in the angle brackets a text ends with, where it has no others. -/
def addressIn (s : Text) : Option Text := do
  let (_, s) ← run (!isAngle ·) (fun _ => true) s
  let s ← one (· = unit '<') s
  let (address, s) ← run (!isAngle ·) (fun _ => true) s
  let s ← one (· = unit '>') s
  if s = [] then some address else none

/-- `replace(/^(mailto|smtp):/i, '')` -/
def withoutScheme (s : Text) : Text :=
  if (s.take 7).map lowerUnit = text "mailto:" then s.drop 7
  else if (s.take 5).map lowerUnit = text "smtp:" then s.drop 5
  else s

/-- A character of a domain's or a logon name. -/
def isNamed (c : UInt16) : Bool := c ≠ unit '\\' ∧ isSpace c = false ∧ c ≠ unit ','

/-- The logon name after a domain and a backslash. -/
def domainSam (s : Text) : Option Text := do
  let (_, s) ← run isNamed (0 < ·) s
  let s ← one (· = unit '\\') s
  let (sam, s) ← run isNamed (0 < ·) s
  if s = [] then some sam else none

/-- What an entry is looked up by; none when nothing is left of it. -/
def normalizeEntry (entry : Text) : Option Text :=
  let s := cleanEntry u entry
  let s := ((addressIn s).map (cleanEntry u)).getD s
  let s := withoutScheme s
  let s := (domainSam s).getD s
  if s = [] then none else some s

/-- "Doe, Jane" as the display name "Jane Doe". -/
def reorderedParts : List Text → Option Text
  | [a, b] => if a ≠ [] ∧ b ≠ [] then some (b ++ text " " ++ a) else none
  | _ => none

/-- The fallbacks for an entry with commas that doesn't match as a whole. -/
structure Fallbacks where
  reordered : Option Text
  pieces : List Text

def commaFallbacks (whole : Text) : Fallbacks :=
  if unit ',' ∈ whole then
    let parts := (whole.splitOn (unit ',')).map trim
    let pieces := parts.filterMap (normalizeEntry u)
    { reordered := reorderedParts parts, pieces := if 1 < pieces.length then pieces else [] }
  else { reordered := none, pieces := [] }

/-- What may be looked up for an entry. -/
def lookupsOf (entry : Text) : List Text :=
  match normalizeEntry u entry with
  | none => []
  | some whole => whole :: ((commaFallbacks u whole).reordered.toList ++ (commaFallbacks u whole).pieces)

/-- Every string `matchEntries` may look up for these entries. -/
def lookupsFor (entries : List Text) : List Text := (entries.flatMap (lookupsOf u)).eraseDups

variable {u}

theorem not_mem_strip {p : UInt16 → Bool} {c : UInt16} {t : Text} (absent : c ∉ t) : c ∉ Runs.strip p t :=
  fun member => absent (Runs.strip_inside.subset member)

/-- Normalization writes no comma. -/
def KeepsCommas (u : Platform) : Prop := ∀ t : Text, unit ',' ∉ t → unit ',' ∉ u.nfc t

variable {t : Text}

theorem cleanEntry_comma (keeps : KeepsCommas u) (absent : unit ',' ∉ t) : unit ',' ∉ cleanEntry u t :=
  not_mem_strip fun member => keeps t absent (List.mem_of_mem_filter member)

/-- No part has the delimiter. -/
theorem not_mem_splitOn {c : UInt16} : ∀ part ∈ t.splitOn c, c ∉ part := by
  induction t with
  | nil => simp
  | cons x t ih =>
    intro part member
    rw [List.splitOn_cons_eq_if_modifyHead] at member
    split at member
    next =>
      obtain rfl | inside := List.mem_cons.mp member
      · simp
      · exact ih part inside
    next other =>
      obtain ⟨first, rest, parts⟩ := List.exists_cons_of_ne_nil (List.splitOn_ne_nil c t)
      rw [parts] at ih member
      obtain rfl | inside := List.mem_cons.mp member
      · have absent := ih first List.mem_cons_self
        simpa [absent] using fun same : c = x => other (by simp [same])
      · exact ih part (List.mem_cons_of_mem first inside)

theorem addressIn_subset {address : Text} (found : addressIn t = some address) : address ⊆ t := by
  simp only [addressIn, Option.bind_eq_bind, Option.bind_eq_some_iff, Prod.exists] at found
  obtain ⟨before, r, first, r', opened, inside, closing, second, rest, closed, last⟩ := found
  obtain ⟨c, rfl⟩ := one_split opened
  have whole := run_split first
  have inner := run_split second
  split at last
  next =>
    obtain rfl := Option.some.inj last
    intro c member
    simp [whole, inner, member]
  next => exact absurd last (by simp)

theorem domainSam_subset {sam : Text} (found : domainSam t = some sam) : sam ⊆ t := by
  simp only [domainSam, Option.bind_eq_bind, Option.bind_eq_some_iff, Prod.exists] at found
  obtain ⟨domain, r, first, r', slash, inside, rest, second, last⟩ := found
  obtain ⟨c, rfl⟩ := one_split slash
  have whole := run_split first
  have inner := run_split second
  split at last
  next =>
    obtain rfl := Option.some.inj last
    intro c member
    simp [whole, inner, member]
  next => exact absurd last (by simp)

theorem withoutScheme_subset : withoutScheme t ⊆ t := by
  unfold withoutScheme
  split
  next => exact List.drop_subset 7 t
  next =>
    split
    next => exact List.drop_subset 5 t
    next => exact List.Subset.refl t

/-- An entry without a comma is looked up by a text without one. -/
theorem normalizeEntry_comma (keeps : KeepsCommas u) (absent : unit ',' ∉ t) :
    ∀ s ∈ normalizeEntry u t, unit ',' ∉ s := by
  have clean := cleanEntry_comma keeps absent
  have inner : unit ',' ∉ ((addressIn (cleanEntry u t)).map (cleanEntry u)).getD (cleanEntry u t) := by
    cases found : addressIn (cleanEntry u t) with
    | none => exact clean
    | some address => exact cleanEntry_comma keeps fun member => clean (addressIn_subset found member)
  intro s looked
  unfold normalizeEntry at looked
  dsimp only at looked
  generalize ((addressIn (cleanEntry u t)).map (cleanEntry u)).getD (cleanEntry u t) = inside at inner looked
  have rest : unit ',' ∉ withoutScheme inside := fun member => inner (withoutScheme_subset member)
  split at looked
  next => exact absurd looked (by simp)
  next =>
    obtain rfl := Option.some.inj looked
    cases found : domainSam (withoutScheme inside) with
    | none => exact rest
    | some sam => exact fun member => rest (domainSam_subset found member)

/-- A piece of an entry has no comma, so it has no pieces of its own. -/
theorem piece_comma (keeps : KeepsCommas u) : ∀ p ∈ (commaFallbacks u t).pieces, unit ',' ∉ p := by
  intro p member
  unfold commaFallbacks at member
  split at member
  next =>
    dsimp only at member
    split at member
    next =>
      obtain ⟨part, parts, looked⟩ := List.mem_filterMap.mp member
      obtain ⟨raw, rawIn, rfl⟩ := List.mem_map.mp parts
      exact normalizeEntry_comma keeps (not_mem_strip (not_mem_splitOn raw rawIn)) p looked
    next => exact absurd member (by simp)
  next => exact absurd member (by simp)

theorem commaFallbacks_none (absent : unit ',' ∉ t) :
    commaFallbacks u t = { reordered := none, pieces := [] } := by
  rw [commaFallbacks, if_neg absent]

end OpenAduc.UserMatch
