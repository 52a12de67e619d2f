import OpenAduc.Lib.Traverse
import OpenAduc.Naming.Resolve

namespace OpenAduc.Naming

theorem isLower_iff {c : UInt16} : isLower c = true ↔ 97 ≤ c.toNat ∧ c.toNat ≤ 122 := by
  simp [isLower, unit, UInt16.le_iff_toNat_le]

theorem isUpper_iff {c : UInt16} : isUpper c = true ↔ 65 ≤ c.toNat ∧ c.toNat ≤ 90 := by
  simp [isUpper, unit, UInt16.le_iff_toNat_le]

theorem isDigit_iff {c : UInt16} : isDigit c = true ↔ 48 ≤ c.toNat ∧ c.toNat ≤ 57 := by
  simp [isDigit, unit, UInt16.le_iff_toNat_le]

theorem isSeparator_iff {c : UInt16} : isSeparator c = true ↔ c.toNat = 46 ∨ c.toNat = 95 ∨ c.toNat = 45 := by
  simp [isSeparator, unit, ← UInt16.toNat_inj]

theorem not_separator_of_lower {c : UInt16} (lower : isLower c = true) : isSeparator c = false := by
  have range := isLower_iff.mp lower
  by_contra separator
  have other := isSeparator_iff.mp (eq_true_of_ne_false separator)
  omega

theorem not_separator_of_digit {c : UInt16} (digit : isDigit c = true) : isSeparator c = false := by
  have range := isDigit_iff.mp digit
  by_contra separator
  have other := isSeparator_iff.mp (eq_true_of_ne_false separator)
  omega

theorem separator_of_hyphen : isSeparator (unit '-') = true := by decide

theorem isLiteral_iff {c : UInt16} :
    isLiteral c = true ↔ isLower c = true ∨ isDigit c = true ∨ isSeparator c = true := by
  simp [isLiteral, or_assoc]

/-- What a username is made of: no separator at either end, nor two in a row. -/
structure Username (t : Text) : Prop where
  chars : ∀ c ∈ t, isLiteral c = true
  noRun : Runs.NoRun isSeparator t
  bare : Runs.Bare isSeparator t

/-- A name part a username can hold: lowercase letters and hyphens, a letter first. -/
structure Lettered (t : Text) : Prop where
  chars : ∀ c ∈ t, isLower c = true ∨ c = unit '-'
  head : ∀ c ∈ t.head?, isLower c = true

theorem Lettered.literal {t : Text} (lettered : Lettered t) : ∀ c ∈ t, isLiteral c = true := by
  intro c member
  rcases lettered.chars c member with lower | rfl
  · exact isLiteral_iff.mpr (.inl lower)
  · exact isLiteral_iff.mpr (.inr (.inr separator_of_hyphen))

theorem head_of_start {α : Type} {a b : List α} (start : a <+: b) : ∀ c ∈ a.head?, c ∈ b.head? := by
  intro c first
  obtain ⟨rest, rfl⟩ := start
  cases a with
  | nil => cases first
  | cons d tail => exact first

theorem Lettered.of_start {a b : Text} (lettered : Lettered b) (start : a <+: b) : Lettered a where
  chars c member := lettered.chars c (start.subset member)
  head c first := lettered.head c (head_of_start start c first)

theorem exists_head {t : Text} (some_left : t ≠ []) : ∃ c, t.head? = some c := by
  cases t with
  | nil => exact absurd rfl some_left
  | cons c rest => exact ⟨c, rfl⟩

section pattern
variable {pattern : Text} {segments : List Segment}

/-- A parsed pattern's literals hold nothing a username can't. -/
theorem literal_of_parsePattern (parsed : parsePattern pattern = .ok segments) {value : Text}
    (member : .literal value ∈ segments) : ∀ c ∈ value, isLiteral c = true := by
  obtain ⟨found, same⟩ := parsePattern_ok parsed
  obtain ⟨m, _, made⟩ := Traverse.exists_input found _ member
  cases m with
  | token token =>
    simp only [segmentOf] at made
    split at made <;> cases made
  | brace brace => cases made
  | literal literal =>
    simp only [segmentOf] at made
    split at made
    next all =>
      split at made
      · cases made
      · cases made
        simpa using all
    next => cases made

end pattern

/-- The field a token reads, if it names the person. -/
def NamingToken.field : NamingToken → Option NameField
  | .first | .f => some .first
  | .last | .l => some .last
  | .mi => none

/-- The segments show a letter of the person's name. -/
def Shows (segments : List Segment) (v : TokenValues) : Prop :=
  ∃ t field, .token t ∈ segments ∧ t.field = some field ∧ v.part field ≠ []

structure LetteredValues (v : TokenValues) : Prop where
  part : ∀ field, Lettered (v.part field)
  mi : ∀ c ∈ v.mi, isLiteral c = true

section render
variable {segments : List Segment} {v : TokenValues}

/-- What a pattern shows of lettered values can be typed. -/
theorem shown_literal (literals : ∀ value, .literal value ∈ segments → ∀ c ∈ value, isLiteral c = true)
    (values : LetteredValues v) : ∀ c ∈ segments.flatMap (Segment.shown v), isLiteral c = true := by
  intro c member
  obtain ⟨s, inside, shown⟩ := List.mem_flatMap.mp member
  have first := (values.part .first).literal
  have last := (values.part .last).literal
  cases s with
  | literal value => exact literals value inside c shown
  | token t =>
    cases t with
    | first => exact first c shown
    | last => exact last c shown
    | f => exact first c (List.mem_of_mem_take shown)
    | l => exact last c (List.mem_of_mem_take shown)
    | mi => exact values.mi c shown

theorem render_username (literals : ∀ value, .literal value ∈ segments → ∀ c ∈ value, isLiteral c = true)
    (values : LetteredValues v) : Username (render segments v) where
  chars c member := shown_literal literals values c
    (Runs.squeeze_sublist.subset (Runs.strip_inside.subset member))
  noRun := Runs.noRun_squeeze.inside Runs.strip_inside
  bare := Runs.bare_strip

theorem take_one_head {t : Text} {c : UInt16} (first : t.head? = some c) : c ∈ t.take 1 := by
  cases t with
  | nil => cases first
  | cons d rest =>
    cases first
    simp

/-- A letter shown is a letter rendered. -/
theorem render_ne_nil (values : LetteredValues v) (shows' : Shows segments v) : render segments v ≠ [] := by
  obtain ⟨t, field, member, reads, some_left⟩ := shows'
  obtain ⟨c, first⟩ := exists_head some_left
  have lower := (values.part field).head c first
  have inside : c ∈ v.at t := by
    have whole : c ∈ v.part field := List.mem_of_mem_head? first
    cases t <;> cases reads
    · exact whole
    · exact whole
    · exact take_one_head first
    · exact take_one_head first
  have shown : c ∈ segments.flatMap (Segment.shown v) := List.mem_flatMap.mpr ⟨.token t, member, inside⟩
  have other := not_separator_of_lower lower
  exact List.ne_nil_of_mem (Runs.mem_strip (Runs.mem_squeezeFrom shown other) other)

end render

/-- Each name part is cut back, and not to nothing. -/
structure Shortened (v w : TokenValues) : Prop where
  start : ∀ field, w.part field <+: v.part field
  kept : ∀ field, v.part field ≠ [] → w.part field ≠ []
  mi : w.mi = v.mi

namespace Shortened
variable {v w x : TokenValues}

theorem refl : Shortened v v := ⟨fun _ => List.prefix_rfl, fun _ some_left => some_left, rfl⟩

theorem trans (first : Shortened v w) (second : Shortened w x) : Shortened v x where
  start field := (second.start field).trans (first.start field)
  kept field some_left := second.kept field (first.kept field some_left)
  mi := second.mi.trans first.mi

theorem values (shortened : Shortened v w) (values : LetteredValues v) : LetteredValues w where
  part field := (values.part field).of_start (shortened.start field)
  mi := shortened.mi ▸ values.mi

theorem shows' {segments : List Segment} (shortened : Shortened v w) (before : Shows segments v) :
    Shows segments w := by
  obtain ⟨t, field, member, reads, some_left⟩ := before
  exact ⟨t, field, member, reads, shortened.kept field some_left⟩

end Shortened

section fit
variable {segments : List Segment} {budget : Nat} {v : TokenValues}

/-- A part cut from its end is a shortening. -/
theorem setPart_shortened (field : NameField) {value : Text} (start : value <+: v.part field)
    (kept : v.part field ≠ [] → value ≠ []) : Shortened v (v.setPart field value) where
  start other := by
    cases field <;> cases other
    · exact start
    · exact List.prefix_rfl
    · exact List.prefix_rfl
    · exact start
  kept other := by
    cases field <;> cases other
    · exact kept
    · exact id
    · exact id
    · exact kept
  mi := by cases field <;> rfl

/-- A part trimmed to the budget is a shortening. -/
theorem trimPart_shortened {field : NameField} {fuel : Nat} :
    Shortened v (trimPart segments budget field fuel v) := by
  induction fuel generalizing v with
  | zero => exact .refl
  | succ fuel ih =>
    unfold trimPart
    split
    next more =>
      have cut : Shortened v (v.setPart field (v.part field).dropLast) := by
        refine setPart_shortened field (List.dropLast_prefix _) fun _ empty => ?_
        have length := congrArg List.length empty
        simp only [List.length_dropLast, List.length_nil] at length
        omega
      exact cut.trans ih
    next => exact .refl

/-- All parts but the last are a start of all. -/
theorem join_dropLast_start {separator : Text} (parts : List Text) :
    join separator parts.dropLast <+: join separator parts := by
  induction parts with
  | nil => exact List.prefix_rfl
  | cons x rest ih =>
    cases rest with
    | nil => exact List.nil_prefix
    | cons y rest =>
      simp only [join, List.dropLast_cons_cons, List.intercalate_cons_cons] at ih ⊢
      cases left : (y :: rest).dropLast with
      | nil => simp
      | cons z others =>
        rw [left] at ih
        rw [List.intercalate_cons_cons]
        exact (List.prefix_append_right_inj _).mpr ih

/-- Hyphenated parts go while the first one, which starts the surname, stays. -/
theorem dropParts_shortened {fuel : Nat} {parts : List Text} (joined : join [unit '-'] parts = v.last)
    (starts : ∀ part ∈ parts.head?, part ≠ []) : Shortened v (dropParts segments budget fuel parts v) := by
  induction fuel generalizing parts v with
  | zero => exact .refl
  | succ fuel ih =>
    unfold dropParts
    split
    next more =>
      have start' : join [unit '-'] parts.dropLast <+: v.last := joined ▸ join_dropLast_start parts
      have head : ∀ part ∈ parts.dropLast.head?, part ≠ [] := by
        intro part first
        exact starts part (head_of_start (List.dropLast_prefix parts) part first)
      have kept : join [unit '-'] parts.dropLast ≠ [] := by
        cases left : parts.dropLast with
        | nil =>
          have length := congrArg List.length left
          simp only [List.length_dropLast, List.length_nil] at length
          omega
        | cons x rest =>
          have some_left := head x (by rw [left]; rfl)
          cases rest <;> simp [join, some_left]
      have cut : Shortened v { v with last := join [unit '-'] parts.dropLast } :=
        setPart_shortened .last start' fun _ => kept
      exact cut.trans (ih rfl head)
    next => exact .refl

/-- A text that begins with no dash has a first part. -/
theorem splitOn_head {t : Text} {c : UInt16} (first : t.head? = some c) (other : c ≠ unit '-') :
    ∀ part ∈ (t.splitOn (unit '-')).head?, part ≠ [] := by
  cases t with
  | nil => cases first
  | cons d rest =>
    cases first
    intro part at'
    rw [List.splitOn_cons_eq_if_modifyHead] at at'
    have different : (c == unit '-') = false := by simpa using other
    rw [different] at at'
    cases more : rest.splitOn (unit '-') with
    | nil => simp [more] at at'
    | cons x others =>
      simp [more] at at'
      simp [← at']

/-- Dropping a double name's last parts is a shortening. -/
theorem dropParts_splitOn {fuel : Nat} (lettered : Lettered v.last) :
    Shortened v (dropParts segments budget fuel (v.last.splitOn (unit '-')) v) := by
  by_cases empty : v.last = []
  · -- an empty surname is one part, so nothing is dropped
    cases fuel with
    | zero => exact .refl
    | succ fuel =>
      unfold dropParts
      rw [if_neg (by simp [empty])]
      exact .refl
  · refine dropParts_shortened (List.intercalate_splitOn _) ?_
    obtain ⟨c, head⟩ := exists_head empty
    have lower := lettered.head c head
    refine splitOn_head head ?_
    rintro rfl
    revert lower
    decide

/-- What the username is rendered from once it fits. -/
theorem exists_fit (p : Prepared) (budget : Nat) (values : LetteredValues p.values) :
    ∃ w, Shortened p.values w ∧ (fit p budget = render p.segments w ∧ (render p.segments w).length ≤ budget ∨
      fit p budget = ((render p.segments w).take budget).rdropWhile isSeparator) := by
  unfold fit
  split
  next fits => exact ⟨p.values, .refl, .inl ⟨rfl, fits⟩⟩
  next =>
    refine ⟨_, ?_, .inr rfl⟩
    have dropped : Shortened p.values (dropParts p.segments budget (p.values.last.splitOn (unit '-')).length
        (p.values.last.splitOn (unit '-')) p.values) := dropParts_splitOn (values.part .last)
    exact (dropped.trans trimPart_shortened).trans trimPart_shortened

theorem fit_length (p : Prepared) (budget : Nat) : (fit p budget).length ≤ budget := by
  unfold fit
  split
  · assumption
  · exact Nat.le_trans (List.rdropWhile_prefix _ _).length_le (List.length_take_le _ _)

theorem tailOf_length {n : Nat} (small : n ≤ MAX_SUFFIX) : (tailOf n).length ≤ 3 := by
  unfold tailOf
  split
  · rw [decimal, List.length_map, Nat.length_toDigits_le_iff (by decide) (by decide)]
    unfold MAX_SUFFIX at small
    omega
  · simp

end fit

theorem isKept_iff {c : UInt16} : isKept c = true ↔ isLower c = true ∨ isUpper c = true ∨ c = unit '-' := by
  simp [isKept, isLatin, or_assoc]

theorem ascii_of_kept {c : UInt16} (kept : isKept c = true) : c < 128 := by
  rw [UInt16.lt_iff_toNat_lt]
  rcases isKept_iff.mp kept with lower | upper | rfl
  · exact Nat.lt_of_le_of_lt (isLower_iff.mp lower).2 (by decide)
  · exact Nat.lt_of_le_of_lt (isUpper_iff.mp upper).2 (by decide)
  · decide

theorem lowerUnit_of_not_upper {c : UInt16} (other : isUpper c = false) : lowerUnit c = c := by
  unfold lowerUnit
  rw [if_neg]
  simpa [isUpper] using other

theorem lowerUnit_toNat {c : UInt16} (upper : isUpper c = true) : (lowerUnit c).toNat = c.toNat + 32 := by
  have range := isUpper_iff.mp upper
  have bounds : unit 'A' ≤ c ∧ c ≤ unit 'Z' := by simpa [isUpper] using upper
  rw [lowerUnit, if_pos bounds, UInt16.toNat_add]
  exact Nat.mod_eq_of_lt (by show c.toNat + 32 < 65536; omega)

theorem lowerUnit_idem {c : UInt16} : lowerUnit (lowerUnit c) = lowerUnit c := by
  by_cases upper : isUpper c = true
  · have range := isUpper_iff.mp upper
    have sum := lowerUnit_toNat upper
    refine lowerUnit_of_not_upper (eq_false_of_ne_true fun upper' => ?_)
    have range' := isUpper_iff.mp upper'
    omega
  · have other := lowerUnit_of_not_upper (eq_false_of_ne_true upper)
    rw [other, other]

theorem lowerUnit_of_kept {c : UInt16} (kept : isKept c = true) : isLower (lowerUnit c) = true ∨
    lowerUnit c = unit '-' := by
  by_cases upper : isUpper c = true
  · have range := isUpper_iff.mp upper
    have sum := lowerUnit_toNat upper
    exact .inl (isLower_iff.mpr (by omega))
  · rw [lowerUnit_of_not_upper (eq_false_of_ne_true upper)]
    rcases isKept_iff.mp kept with lower | upper' | hyphen
    · exact .inl lower
    · exact absurd upper' upper
    · exact .inr hyphen

/-- What is left of a name part: lowercase letters and hyphens, a letter at each end. -/
theorem lettered_normalizePart {u : Platform} {field : NameField} {raw : Text} :
    Lettered (normalizePart u field raw).value := by
  have kept : ∀ t : Text, ∀ c ∈ u.lower (t.filter isKept), isLower c = true ∨ c = unit '-' := by
    intro t c member
    rw [u.lower_ascii _ fun d inside => ascii_of_kept (List.mem_filter.mp inside).2] at member
    obtain ⟨d, inside, rfl⟩ := List.mem_map.mp member
    exact lowerUnit_of_kept (List.mem_filter.mp inside).2
  have chars : ∀ c ∈ (normalizePart u field raw).value, isLower c = true ∨ c = unit '-' :=
    fun c member => kept _ c (Runs.squeeze_sublist.subset (Runs.strip_inside.subset member))
  refine ⟨chars, fun c first => ?_⟩
  rcases chars c (List.mem_of_mem_head? first) with lower | rfl
  · exact lower
  · have other := Runs.bare_strip.head _ first
    simp at other

theorem tokenValues_lettered {u : Platform} {name : PersonName} : LetteredValues (tokenValues u name) where
  part field := by cases field <;> exact lettered_normalizePart
  mi c member := lettered_normalizePart.literal c (List.mem_of_mem_filter (List.mem_of_mem_take member))

section prepared
variable {u : Platform} {name : PersonName} {pattern : Text} {p : Prepared}

/-- What `prepare` gives: the pattern's segments, the person's values and their username. -/
theorem prepare_ok (prepared : prepare u name pattern = .ok p) :
    parsePattern pattern = .ok p.segments ∧ p.values = tokenValues u name ∧
      p.username = render p.segments p.values ∧
      p.deviations = partDeviations u p.segments name .first ++ partDeviations u p.segments name .last ∧
      p.fullDisplayName = fullDisplayName name ∧
      p.displayName = cutText (fullDisplayName name) (NAME_LIMITS .displayName) [] := by
  unfold prepare at prepared
  split at prepared
  · cases prepared
  next segments parsed =>
    cases prepared
    exact ⟨parsed, rfl, rfl, rfl, rfl, rfl⟩

theorem prepare_values (prepared : prepare u name pattern = .ok p) : LetteredValues p.values := by
  obtain ⟨_, values, _⟩ := prepare_ok prepared
  rw [values]
  exact tokenValues_lettered

/-- A used field with nothing left of it blocks. -/
theorem partDeviations_blocked {segments : List Segment} {field : NameField} {t : NamingToken}
    (member : .token t ∈ segments) (reads : t.field = some field)
    (empty : (normalizePart u field (name.part field)).value = []) :
    ∃ d ∈ partDeviations u segments name field, d.approval = .blocked := by
  have used : uses segments field.tokens.1 = true ∨ uses segments field.tokens.2 = true := by
    have here : uses segments t = true := List.any_eq_true.mpr ⟨_, member, by simp⟩
    cases t <;> cases reads
    · exact .inl here
    · exact .inl here
    · exact .inr here
    · exact .inr here
  simp only [partDeviations, empty]
  rw [if_neg (by rcases used with used | used <;> simp [used])]
  exact ⟨_, List.mem_append_right _ List.mem_cons_self, rfl⟩

/-- A person nothing is wrong with has a letter in the username. -/
theorem shows_of_unblocked (prepared : prepare u name pattern = .ok p)
    (unblocked : ¬∃ d ∈ p.deviations, d.approval = .blocked) : Shows p.segments p.values := by
  obtain ⟨parsed, values, _, deviations, _⟩ := prepare_ok prepared
  obtain ⟨_, s, member, named⟩ := parsePattern_ok parsed
  cases s with
  | literal value => cases named
  | token t =>
    have reads : ∃ field, t.field = some field := by
      cases t with
      | mi => cases named
      | first | f => exact ⟨.first, rfl⟩
      | last | l => exact ⟨.last, rfl⟩
    obtain ⟨field, reads⟩ := reads
    refine ⟨t, field, member, reads, fun empty => unblocked ?_⟩
    have nothing : (normalizePart u field (name.part field)).value = [] := by
      rw [values] at empty
      cases field <;> exact empty
    obtain ⟨d, inside, refuses⟩ := partDeviations_blocked member reads nothing
    rw [deviations]
    cases field
    · exact ⟨d, List.mem_append_left _ inside, refuses⟩
    · exact ⟨d, List.mem_append_right _ inside, refuses⟩

/-- A username cut to a budget is still one. -/
theorem fit_username (prepared : prepare u name pattern = .ok p) (budget : Nat) :
    Username (fit p budget) := by
  obtain ⟨parsed, _⟩ := prepare_ok prepared
  obtain ⟨w, shortened, fitted⟩ := exists_fit p budget (prepare_values prepared)
  have whole : Username (render p.segments w) :=
    render_username (fun value member => literal_of_parsePattern parsed member)
      (shortened.values (prepare_values prepared))
  rcases fitted with ⟨same, _⟩ | same
  · exact same ▸ whole
  · have start : fit p budget <+: render p.segments w :=
      same ▸ (List.rdropWhile_prefix _ _).trans (List.take_prefix _ _)
    refine ⟨fun c member => whole.chars c (start.subset member), whole.noRun.inside start.isInfix, ⟨?_, ?_⟩⟩
    · intro c first
      exact whole.bare.head c (head_of_start start c first)
    · rw [same]
      exact Runs.last_rdropWhile

/-- With room for one character, something is left. -/
theorem fit_ne_nil (prepared : prepare u name pattern = .ok p) (shows' : Shows p.segments p.values)
    {budget : Nat}
    (room : 0 < budget) : fit p budget ≠ [] := by
  obtain ⟨parsed, _⟩ := prepare_ok prepared
  obtain ⟨w, shortened, fitted⟩ := exists_fit p budget (prepare_values prepared)
  have values := shortened.values (prepare_values prepared)
  have some_left := render_ne_nil values (shortened.shows' shows')
  rcases fitted with ⟨same, _⟩ | same
  · exact same ▸ some_left
  · obtain ⟨c, first⟩ := exists_head some_left
    have whole : Username (render p.segments w) :=
      render_username (fun value member => literal_of_parsePattern parsed member) values
    rw [same]
    refine Runs.rdropWhile_ne_nil (c := c) ?_ (whole.bare.head c first)
    rw [List.head?_take, if_neg (by omega)]
    exact first

end prepared

end OpenAduc.Naming
