import OpenAduc.Lib.Pairs
import OpenAduc.Naming.Lookups

namespace OpenAduc.Naming

/-- Text in which every surrogate is one of a pair: well-formed Unicode. -/
def WellFormed (t : Text) : Prop := Pairs.isWhole isHigh isLow t = true

instance (t : Text) : Decidable (WellFormed t) := inferInstanceAs (Decidable (_ = true))

/-- What a cut keeps of a name: it fits the limit, ends with the tail after a prefix of
the name, and is well formed where the name is. -/
structure Kept (value tail : Text) (limit : Nat) (out : Text) : Prop where
  within : out.length ≤ limit
  made : ∃ start, start <+: value ∧ out = start ++ tail
  whole : WellFormed value → WellFormed out

/-- The first half of a character the cut leaves, of one it goes through. -/
def leftOver (value : Text) (limit : Nat) (tail : Text) : Text :=
  if value.length + tail.length ≤ limit then [] else Pairs.half isHigh value (limit - tail.length)

/-- The cut goes through no character of a name that is well formed, and the tail is well formed
(or it begins with the very half that is cut off). -/
def CleanCut (value : Text) (limit : Nat) (tail : Text) : Prop :=
  WellFormed value → WellFormed (leftOver value limit tail ++ tail)

instance (value : Text) (limit : Nat) (tail : Text) : Decidable (CleanCut value limit tail) :=
  inferInstanceAs (Decidable (_ → _))

section
variable {value tail : Text} {limit : Nat} {c : UInt16}

theorem isHigh_iff : isHigh c = true ↔ 55296 ≤ c.toNat ∧ c.toNat ≤ 56319 := by
  rw [isHigh, decide_eq_true_eq, UInt16.le_iff_toNat_le, UInt16.le_iff_toNat_le]
  exact Iff.rfl

theorem isLow_iff : isLow c = true ↔ 56320 ≤ c.toNat ∧ c.toNat ≤ 57343 := by
  rw [isLow, decide_eq_true_eq, UInt16.le_iff_toNat_le, UInt16.le_iff_toNat_le]
  exact Iff.rfl

theorem not_high_of_low (c : UInt16) (low : isLow c = true) : isHigh c = false := by
  refine eq_false_of_ne_true fun high => ?_
  have lower := isLow_iff.mp low
  have upper := isHigh_iff.mp high
  omega

/-- White space is outside the surrogates. -/
theorem space_code (space : isSpace c = true) : c.toNat ≤ 12288 ∨ c.toNat = 65279 := by
  simp only [isSpace, decide_eq_true_eq, List.mem_cons, List.not_mem_nil, or_false,
    UInt16.le_iff_toNat_le] at space
  have tab : (13 : UInt16).toNat = 13 := rfl
  have hair : (0x200a : UInt16).toNat = 8202 := rfl
  rcases space with ⟨_, below⟩ | ⟨_, below⟩ | named
  · omega
  · omega
  · rcases named with rfl | rfl | rfl | rfl | rfl | rfl | rfl | rfl | rfl <;> decide

theorem not_low_of_space (c : UInt16) (space : isSpace c = true) : isLow c = false := by
  refine eq_false_of_ne_true fun low => ?_
  have code := space_code space
  have bounds := isLow_iff.mp low
  omega

theorem not_space_of_high (high : isHigh c = true) : isSpace c = false := by
  refine eq_false_of_ne_true fun space => ?_
  have code := space_code space
  have bounds := isHigh_iff.mp high
  omega

theorem cutText_short (short : tail.length < limit) (long : ¬value.length + tail.length ≤ limit) :
    cutText value limit tail = trimEnd (value.take (limit - tail.length)) ++ tail := by
  have last : ((limit : Int) - (tail.length : Int)) = ((limit - tail.length : Nat) : Int) := by omega
  rw [cutText, if_neg long, sliceTo, last, if_pos (by omega)]
  rfl

theorem cutText_within (short : tail.length < limit) : (cutText value limit tail).length ≤ limit := by
  by_cases fits : value.length + tail.length ≤ limit
  · rw [cutText, if_pos fits, List.length_append]
    exact fits
  · rw [cutText_short short fits, List.length_append]
    have trimmed : (trimEnd (value.take (limit - tail.length))).length ≤
      (value.take (limit - tail.length)).length :=
      (List.rdropWhile_prefix _ _).length_le
    have taken : (value.take (limit - tail.length)).length ≤ limit - tail.length := List.length_take_le _ _
    omega

theorem cutText_made (short : tail.length < limit) : ∃ start, start <+: value ∧
    cutText value limit tail = start ++ tail := by
  by_cases fits : value.length + tail.length ≤ limit
  · exact ⟨value, List.prefix_refl value, by rw [cutText, if_pos fits]⟩
  · exact ⟨_, (List.rdropWhile_prefix _ _).trans (List.take_prefix _ _), cutText_short short fits⟩

/-- The trimming a cut ends with drops no half of a character. -/
theorem trimEnd_front {front : Text} {n : Nat} (taken : value.take n = front ++ Pairs.half isHigh value n)
    (whole : WellFormed front) :
    ∃ front', WellFormed front' ∧ trimEnd (value.take n) = front' ++ Pairs.half isHigh value n := by
  cases left : (value.take n).getLast?.filter isHigh with
  | none =>
    have none_ : Pairs.half isHigh value n = [] := by rw [Pairs.half, left]; rfl
    rw [none_, List.append_nil] at taken
    refine ⟨trimEnd front, Pairs.isWhole_rdropWhile not_low_of_space whole, ?_⟩
    rw [none_, List.append_nil, taken]
  | some c =>
    obtain ⟨last, high⟩ := Option.filter_eq_some_iff.mp left
    refine ⟨front, whole, ?_⟩
    rw [← taken]
    refine Runs.rdropWhile_eq_self fun d atEnd => ?_
    cases Option.some.inj (last.symm.trans atEnd)
    exact not_space_of_high high

/-- A cut text of a well-formed name is well formed just where what is left at the cut and the
tail make well-formed text. -/
theorem wellFormed_cutText (short : tail.length < limit) (whole : WellFormed value) :
    WellFormed (cutText value limit tail) ↔ WellFormed (leftOver value limit tail ++ tail) := by
  by_cases fits : value.length + tail.length ≤ limit
  · rw [cutText, if_pos fits, leftOver, if_pos fits, List.nil_append]
    exact iff_of_eq (congrArg (· = true) (Pairs.isWhole_append whole))
  · obtain ⟨front, frontWhole, taken⟩ := Pairs.exists_front not_high_of_low whole (limit - tail.length)
    obtain ⟨front', whole', trimmed⟩ := trimEnd_front taken frontWhole
    rw [cutText_short short fits, trimmed, leftOver, if_neg fits, List.append_assoc]
    exact iff_of_eq (congrArg (· = true) (Pairs.isWhole_append whole'))

theorem kept_iff (short : tail.length < limit) : Kept value tail limit (cutText value limit tail) ↔
    CleanCut value limit tail := by
  constructor
  · intro kept whole
    exact (wellFormed_cutText short whole).mp (kept.whole whole)
  · intro clean
    exact ⟨cutText_within short, cutText_made short, fun whole =>
      (wellFormed_cutText short whole).mpr (clean whole)⟩

end

section
variable (u : Platform) (upnSuffixes : Option (List Text)) (taken : TakenNames) (before : Done)
    (r : NamingRequest)
  (s : NamingSuggestion)

/-- What the CN ends with: the sAMAccountName in brackets where a suggestion that takes its names
has a CN held already in the OU. -/
inductive CnTail : Text → Prop
  | bare : (s.TookNames → ∀ ouDn ∈ r.ou,
      ¬CnIsTaken u taken before ⟨ouDn, cutText s.displayName (NAME_LIMITS .cn) []⟩) →
      CnTail []
  | bracketed (ouDn : Text) : s.TookNames → ouDn ∈ r.ou →
      CnIsTaken u taken before ⟨ouDn, cutText s.displayName (NAME_LIMITS .cn) []⟩ →
      CnTail (text " (" ++ s.samAccountName ++ text ")")

/-- The display name before any cut: the operator's, or the person's in full. -/
def wholeName : Text := (typedOf u upnSuffixes r).displayName.getD (fullDisplayName r.name)

/-- The display name's cut goes through no character; one the operator typed fits, as it is never cut. -/
def CleanName : Prop :=
  match (typedOf u upnSuffixes r).displayName with
  | some typed => typed.length ≤ NAME_LIMITS .displayName
  | none => CleanCut (fullDisplayName r.name) (NAME_LIMITS .displayName) []

variable {u upnSuffixes taken before r s} {held held' : Held} {settings : NamingSettings} {p : Prepared}

theorem Outcome.displayName (outcome : Outcome u settings upnSuffixes held r p s held') :
    s.displayName = displayOf u upnSuffixes r p := by
  cases outcome <;> rfl

/-- A suggested display name is whole up to its limit just where the name has no character cut in
two. -/
theorem Outcome.keeps_name (prepared : prepare u r.name settings.pattern = .ok p)
    (outcome : Outcome u settings upnSuffixes held r p s held') :
    Kept (wholeName u upnSuffixes r) [] (NAME_LIMITS .displayName) s.displayName ↔
      CleanName u upnSuffixes r := by
  rw [outcome.displayName, displayOf, wholeName, CleanName]
  cases typed : (typedOf u upnSuffixes r).displayName with
  | some name =>
    constructor
    · intro kept
      exact kept.within
    · intro fits
      exact ⟨fits, ⟨name, List.prefix_refl name, (List.append_nil name).symm⟩, id⟩
  | none =>
    obtain ⟨_, _, _, _, _, display⟩ := prepare_ok prepared
    rw [Option.getD_none, Option.getD_none, display]
    exact kept_iff (by decide)

theorem bracket_length {sam : Text} (short : sam.length ≤ NAME_LIMITS .samAccountName) :
    (text " (" ++ sam ++ text ")").length < NAME_LIMITS .cn := by
  have opens : (text " (").length = 2 := by decide
  have closes : (text ")").length = 1 := by decide
  have most : sam.length ≤ 20 := short
  have limit : NAME_LIMITS .cn = 64 := rfl
  rw [List.length_append, List.length_append, opens, closes, limit]
  omega

/-- The CN is the display name cut to make room for its tail. -/
theorem Outcome.cn_cut (holds : held.Holds u taken before)
    (prepared : prepare u r.name settings.pattern = .ok p)
    (outcome : Outcome u settings upnSuffixes held r p s held') :
    ∃ tail, CnTail u taken before r s tail ∧ tail.length < NAME_LIMITS .cn ∧
      s.cn = cutText s.displayName (NAME_LIMITS .cn) tail := by
  have other := notCn_firstOf upnSuffixes held prepared
  cases outcome with
  | blocked blocked =>
    obtain ⟨d, member, refuses⟩ := mem_blocked.mp blocked
    exact ⟨[], .bare fun took => absurd took (not_took member refuses (other d member)), by decide, rfl⟩
  | exhausted unusable _ failed =>
    obtain ⟨_, _, refuses, other'⟩ := suffixed_error failed
    exact ⟨[], .bare fun took =>
      absurd took (not_took (List.mem_append_right _ List.mem_cons_self) refuses other'), by decide, rfl⟩
  | named names collisions placed unblocked found at' =>
    have clear : Blocked collisions = false := by
      rcases suffixed_ok found with ⟨_, _, rfl⟩ | ⟨_, _, _, _, _, _, _, d, rfl, individual, _⟩
      · rfl
      · simp [Blocked, individual]
    subst at'
    cases given : r.ou with
    | none =>
      refine ⟨[], .bare fun _ ouDn inOu => ?_, by decide, ?_⟩
      · rw [given] at inOu
        cases inOu
      · simp [resultOf, placeCn]
    | some ouDn =>
      cases holder :
        held.cns.holder u (cnKey u ⟨ouDn, cutText (displayOf u upnSuffixes r p) (NAME_LIMITS .cn) []⟩) with
      | none =>
        refine ⟨[], .bare fun _ ouDn' inOu => ?_, by decide, ?_⟩
        · rw [given] at inOu
          cases inOu
          exact (holds.cns _).mp holder
        · simp [resultOf, placeCn, holder]
      | some source =>
        refine ⟨_, .bracketed ouDn ?_ given ?_, bracket_length (sam_length unblocked found), ?_⟩
        · exact took_named unblocked clear placed_deviations
        · by_contra free
          have none_ := (holds.cns _).mpr free
          exact absurd (holder.symm.trans none_) (by simp)
        · simp [resultOf, placeCn, holder]

end

/-- A cut keeps a name just where it goes through no character. The display name and the CN
of every request's suggestion are such cuts, or a display name as the operator typed it. -/
theorem cut_names_kept_iff (u : Platform) (requests : List NamingRequest)
    (settings : NamingSettings) (taken : TakenNames)
    (upnSuffixes : Option (List Text)) :
    (∀ value tail limit, tail.length < limit →
      (Kept value tail limit (cutText value limit tail) ↔ CleanCut value limit tail)) ∧
    ∀ suggestions, resolveNames u requests settings taken upnSuffixes = .ok suggestions →
      ∀ before r s rest, requests.zip suggestions = before ++ (r, s) :: rest →
        (Kept (wholeName u upnSuffixes r) [] (NAME_LIMITS .displayName) s.displayName ↔
          CleanName u upnSuffixes r) ∧
        ∃ tail, CnTail u taken before r s tail ∧ tail.length < NAME_LIMITS .cn ∧
          (Kept s.displayName tail (NAME_LIMITS .cn) s.cn ↔
            CleanCut s.displayName (NAME_LIMITS .cn) tail) := by
  refine ⟨fun value tail limit short => kept_iff short, fun suggestions ran before r s rest split => ?_⟩
  obtain ⟨held, held', p, holds, prepared, outcome⟩ := exists_outcome_at ran split
  obtain ⟨tail, isTail, short, cut⟩ := outcome.cn_cut holds prepared
  refine ⟨outcome.keeps_name prepared, tail, isTail, short, ?_⟩
  rw [cut]
  exact kept_iff short

/-- Seventy letters cut to make room for a bracketed name. -/
theorem cut_names_kept_long :
    Kept (List.replicate 70 (unit 'a')) (text " (jsmith)") 64
      (cutText (List.replicate 70 (unit 'a')) 64 (text " (jsmith)")) :=
  ((cut_names_kept_iff .ascii [] firstLast smithTaken none).1 _ _ _ (by decide)).mpr (by decide)

/-- Sixty-one letters, a space, a letter and U+1F600. -/
def grin : NamingRequest where
  name := {
    first := List.replicate 61 (unit 'a')
    last := text "x😀"
    middleInitial := none
    preferredFirst := none }
  ouDn := none
  overrides := none

theorem cutText_ill_formed :
    let name := List.replicate 61 (unit 'a') ++ text " x😀"
    WellFormed name ∧ ¬WellFormed (cutText name 64 []) ∧ ¬CleanCut name 64 [] ∧
      (resolveNames .ascii [grin] firstLast
        { samAccountNames := [], userPrincipalNames := [], mailAddresses := [], cns := [] } none).toOption.map
        (·.map fun s => (decide (s.displayName = name), s.cn.length, decide (WellFormed s.cn))) =
        some [(true, 64, false)] := by
  decide

end OpenAduc.Naming
