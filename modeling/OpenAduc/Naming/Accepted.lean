import OpenAduc.Naming.Decimal
import OpenAduc.Naming.Unique
import OpenAduc.Naming.Username

namespace OpenAduc.Naming
variable {u : Platform}

theorem isLiteral_range {c : UInt16} (literal : isLiteral c = true) :
    97 ≤ c.toNat ∧ c.toNat ≤ 122 ∨ 48 ≤ c.toNat ∧ c.toNat ≤ 57 ∨ c.toNat = 45 ∨ c.toNat = 46 ∨
      c.toNat = 95 := by
  rcases isLiteral_iff.mp literal with lower | digit | separator
  · exact .inl (isLower_iff.mp lower)
  · exact .inr (.inl (isDigit_iff.mp digit))
  · have which := isSeparator_iff.mp separator
    omega

/-- A character a pattern may write is no space. -/
theorem not_space_of_literal {c : UInt16} (literal : isLiteral c = true) : isSpace c = false := by
  have range := isLiteral_range literal
  have outside : ([0x20, 0xa0, 0x1680, 0x2028, 0x2029, 0x202f, 0x205f, 0x3000, 0xfeff] :
    List UInt16).all (!isLiteral ·) = true := by
    decide
  by_contra space
  have space := eq_true_of_ne_false space
  simp only [isSpace, decide_eq_true_eq, UInt16.le_iff_toNat_le] at space
  rcases space with low | high | member
  · have first : (9 : UInt16).toNat = 9 := rfl
    have last : (13 : UInt16).toNat = 13 := rfl
    omega
  · have first : (0x2000 : UInt16).toNat = 0x2000 := rfl
    omega
  · have other := List.all_eq_true.mp outside c member
    simp [literal] at other

theorem not_control_of_literal {c : UInt16} (literal : isLiteral c = true) : isControl c = false := by
  have range := isLiteral_range literal
  by_contra control
  have control := eq_true_of_ne_false control
  simp only [isControl, decide_eq_true_eq, UInt16.le_iff_toNat_le, ← UInt16.toNat_inj] at control
  have first : (0x1f : UInt16).toNat = 31 := rfl
  have second : (0x7f : UInt16).toNat = 127 := rfl
  omega

theorem not_forbidden_of_literal {c : UInt16} (literal : isLiteral c = true) : c ∉ SAM_FORBIDDEN := by
  have outside : SAM_FORBIDDEN.all (!isLiteral ·) = true := by decide
  intro member
  have other := List.all_eq_true.mp outside c member
  simp [literal] at other

theorem isUpnLocal_of_literal {c : UInt16} (literal : isLiteral c = true) : isUpnLocal c = true := by
  simp only [isUpnLocal, isLatin, Bool.or_eq_true, decide_eq_true_eq]
  rcases isLiteral_iff.mp literal with lower | digit | separator
  · exact .inl (.inl (.inl lower))
  · exact .inl (.inr digit)
  · refine .inr ?_
    simp only [isSeparator, decide_eq_true_eq] at separator
    rcases separator with rfl | rfl | rfl <;> decide

theorem isDigit_of_mem_tailOf {n : Nat} : ∀ c ∈ tailOf n, isDigit c = true := by
  unfold tailOf
  split
  · exact decimal_digits n
  · simp

/-- A number on the end leaves a username one. -/
theorem Username.append_digits {a t : Text} (name : Username a)
    (digits : ∀ c ∈ t, isDigit c = true) : Username (a ++ t) := by
  have apart : ∀ c ∈ t, isSeparator c = false := fun c member => not_separator_of_digit (digits c member)
  refine ⟨fun c member => ?_, ?_, ⟨fun c first => ?_, fun c last => ?_⟩⟩
  · rcases List.mem_append.mp member with inside | inside
    · exact name.chars c inside
    · exact isLiteral_iff.mpr (.inr (.inl (digits c inside)))
  · refine List.isChain_append.mpr ⟨name.noRun, ?_, fun x _ y first => ?_⟩
    · refine List.Pairwise.isChain (List.pairwise_of_forall_mem_list fun x inside y _ => ?_)
      simp [apart x inside]
    · simp [apart y (List.mem_of_mem_head? first)]
  · rw [List.head?_append] at first
    cases head : a.head? with
    | some d =>
      rw [head] at first
      cases first
      exact name.bare.head _ head
    | none =>
      rw [head] at first
      exact apart c (List.mem_of_mem_head? first)
  · rw [List.getLast?_append] at last
    cases tail : t.getLast? with
    | some d =>
      rw [tail] at last
      cases last
      exact apart _ (List.mem_of_getLast? tail)
    | none =>
      rw [tail] at last
      exact name.bare.last c last

section built
variable {name : PersonName} {pattern : Text} {p : Prepared}

/-- A username fitted and suffixed: short enough, well made and not empty. -/
theorem fitted_username (prepared : prepare u name pattern = .ok p)
    (shows' : Shows p.segments p.values) {limit n : Nat}
    (small : n ≤ MAX_SUFFIX) (room : 4 ≤ limit) :
    Username (fit p (limit - (tailOf n).length) ++ tailOf n) ∧ fit p (limit - (tailOf n).length) ++
      tailOf n ≠ [] ∧
      (fit p (limit - (tailOf n).length) ++ tailOf n).length ≤ limit := by
  have tail := tailOf_length small
  have fitted := fit_length p (limit - (tailOf n).length)
  refine ⟨(fit_username prepared _).append_digits isDigit_of_mem_tailOf, ?_, ?_⟩
  · intro empty
    exact fit_ne_nil prepared shows' (by omega) (List.append_eq_nil_iff.mp empty).1
  · rw [List.length_append]
    omega

theorem trim_ne_nil {t : Text} {c : UInt16} (member : c ∈ t) (visible : isSpace c = false) : trim t ≠ [] :=
  List.ne_nil_of_mem (Runs.mem_strip member visible)

theorem exists_visible {t : Text} (some_left : trim t ≠ []) : ∃ c ∈ trim t, isSpace c = false := by
  obtain ⟨c, first⟩ := exists_head some_left
  exact ⟨c, List.mem_of_mem_head? first, Runs.bare_strip.head c first⟩

theorem trim_bare {t : Text} (bare : Runs.Bare isSpace t) : trim t = t := bare.strip_eq

/-- Nothing in, nothing out: a name part of whitespace alone is empty. -/
theorem normalizePart_nil {field : NameField} {raw : Text} (blank : trim raw = []) :
    (normalizePart u field raw).value = [] := by
  obtain ⟨nfc, nfd, nfkc⟩ := u.normal_ascii [] (by simp)
  have lower := u.lower_ascii [] (by simp)
  simp [normalizePart, stepIfNew, step, blank, removeInvisible, removeAccents, points, nfc, nfd,
    nfkc, dropMarks, lower,
    Runs.squeeze, Runs.squeezeFrom, Runs.strip]

/-- A person whose name shows in the username has a display name. -/
theorem fullDisplayName_ne_nil (prepared : prepare u name pattern = .ok p)
    (shows' : Shows p.segments p.values) :
    fullDisplayName name ≠ [] := by
  obtain ⟨_, values, _⟩ := prepare_ok prepared
  obtain ⟨_, field, _, _, some_left⟩ := shows'
  have part : trim (name.part field) ≠ [] := by
    intro blank
    rw [values] at some_left
    cases field <;> exact some_left (normalizePart_nil blank)
  -- a visible character of the name is in what the display name is cut from
  have visible : ∃ c, isSpace c = false ∧
      c ∈ ((name.preferredFirst.map trim).filter (· ≠ [])).getD (trim name.first) ++ text " " ++
        trim name.last := by
    cases field with
    | last =>
      obtain ⟨c, member, visible⟩ := exists_visible part
      exact ⟨c, visible, List.mem_append_right _ member⟩
    | first =>
      cases preferred : (name.preferredFirst.map trim).filter (· ≠ []) with
      | none =>
        obtain ⟨c, member, visible⟩ := exists_visible part
        exact ⟨c, visible, List.mem_append_left _ (List.mem_append_left _ member)⟩
      | some v =>
        rw [Option.filter_eq_some_iff] at preferred
        obtain ⟨given, some_left⟩ := preferred
        obtain ⟨raw, _, rfl⟩ := Option.map_eq_some_iff.mp given
        obtain ⟨c, member, visible⟩ := exists_visible (of_decide_eq_true some_left)
        exact ⟨c, visible, List.mem_append_left _ (List.mem_append_left _ member)⟩
  obtain ⟨c, visible, member⟩ := visible
  refine trim_ne_nil (c := c) (Runs.mem_squeezeFrom (List.mem_map.mpr ⟨c, member, ?_⟩) visible) visible
  simp [visible]

/-- The name built is not empty, and has no spaces at its ends. -/
theorem displayName_bare (prepared : prepare u name pattern = .ok p) (shows' : Shows p.segments p.values) :
    Runs.Bare isSpace p.displayName ∧ p.displayName ≠ [] := by
  have some_left := fullDisplayName_ne_nil prepared shows'
  obtain ⟨_, _, _, _, _, display⟩ := prepare_ok prepared
  have bare : Runs.Bare isSpace (fullDisplayName name) := Runs.bare_strip
  obtain ⟨c, first⟩ := exists_head some_left
  rw [display]
  unfold cutText
  split
  · rw [List.append_nil]
    exact ⟨bare, some_left⟩
  · have cut : sliceTo (fullDisplayName name)
      ((NAME_LIMITS .displayName : Nat) - (([] : Text).length : Nat)) =
        (fullDisplayName name).take 256 := rfl
    rw [List.append_nil, cut]
    have front : ((fullDisplayName name).take 256).head? = some c := by
      rw [List.head?_take, if_neg (by decide)]
      exact first
    refine ⟨⟨fun d head => ?_, Runs.last_rdropWhile⟩, Runs.rdropWhile_ne_nil front (bare.head c first)⟩
    have same := Runs.head_rdropWhile d head
    rw [front] at same
    cases same
    exact bare.head c first

end built

theorem bare_of_all {t : Text} (visible : ∀ c ∈ t, isSpace c = false) : Runs.Bare isSpace t where
  head c first := visible c (List.mem_of_mem_head? first)
  last c last := visible c (List.mem_of_getLast? last)

theorem clean_some {t : Text} (bare : Runs.Bare isSpace t) (some_left : t ≠ []) :
    clean (some t) = some t := by
  simp [clean, trim_bare bare, some_left]

/-- A typed UPN is cut at its last `@`. -/
theorem typedUpn_at {a b : Text} (none_left : unit '@' ∉ b) :
    lastIndexOf (unit '@') (a ++ unit '@' :: b) = some a.length ∧ typedUpn (a ++ unit '@' :: b) =
      { localPart := a, suffix := b } := by
  have found : lastIndexOf (unit '@') (a ++ unit '@' :: b) = some a.length := by
    induction a with
    | nil =>
      have absent : lastIndexOf (unit '@') b = none := by
        cases there : lastIndexOf (unit '@') b with
        | none => rfl
        | some i =>
          refine absurd ?_ none_left
          rw [← lastIndexOf_split there]
          simp
      simp [lastIndexOf, absent]
    | cons x rest ih => simp [lastIndexOf, ih]
  refine ⟨found, ?_⟩
  simp [typedUpn, found]

/-- A username within the limit is accepted when typed. -/
theorem samAccountName_accepted {t : Text} (name : Username t) (some_left : t ≠ [])
    (short : t.length ≤ NAME_LIMITS .samAccountName) : typedSamProblem u t = none := by
  have bare := bare_of_all fun c member => not_space_of_literal (name.chars c member)
  obtain ⟨c, first⟩ := exists_head some_left
  have letter := name.bare.head c first
  have problem : samAccountNameProblem u t = none := by
    unfold samAccountNameProblem
    rw [trim_bare bare]
    simp only
    rw [if_neg some_left, if_neg, if_neg, if_neg, if_neg]
    · intro last
      have other := name.bare.last _ last
      revert other
      decide
    · intro all
      have dotted := List.all_eq_true.mp all c (List.mem_of_mem_head? first)
      rcases of_decide_eq_true dotted with rfl | rfl
      · revert letter
        decide
      · have visible := not_space_of_literal (name.chars _ (List.mem_of_mem_head? first))
        revert visible
        decide
    · intro control
      obtain ⟨d, member, control⟩ := List.any_eq_true.mp control
      rw [not_control_of_literal (name.chars d member)] at control
      cases control
    · intro forbidden
      obtain ⟨d, member, forbidden⟩ := List.any_eq_true.mp forbidden
      exact not_forbidden_of_literal (name.chars d member) (of_decide_eq_true forbidden)
  rw [typedSamProblem, if_neg (Nat.not_lt.mpr short), problem]
  rfl

theorem noRun_zip {t : Text} (noRun : Runs.NoRun isSeparator t) :
    ∀ x ∈ t.zip t.tail, ¬(isSeparator x.1 = true ∧ isSeparator x.2 = true) := by
  induction t with
  | nil => simp
  | cons a rest ih =>
    cases rest with
    | nil => simp
    | cons b rest =>
      obtain ⟨apart, noRun'⟩ := List.isChain_cons_cons.mp noRun
      intro x member
      rcases List.mem_cons.mp member with rfl | member
      · exact apart
      · exact ih noRun' x member

theorem misplacedDot_username {t : Text} (name : Username t) : misplacedDot t = false := by
  have dot : isSeparator (unit '.') = true := by decide
  by_contra misplaced
  have misplaced := eq_true_of_ne_false misplaced
  simp only [misplacedDot, Bool.or_eq_true, decide_eq_true_eq, List.any_eq_true, Bool.and_eq_true]
    at misplaced
  rcases misplaced with (head | last) | ⟨x, member, first, second⟩
  · rw [name.bare.head _ head] at dot
    cases dot
  · rw [name.bare.last _ last] at dot
    cases dot
  · exact noRun_zip name.noRun x member ⟨first ▸ dot, second ▸ dot⟩

/-- A UPN suffix as the settings hold one: not empty, and without spaces, control characters or `@`. -/
structure UpnSuffix (t : Text) : Prop where
  some_left : t ≠ []
  visible : ∀ c ∈ t, isSpace c = false
  printable : ∀ c ∈ t, isControl c = false
  no_at : unit '@' ∉ t

/-- A username at a known suffix, within the limit, is accepted when typed. -/
theorem upn_accepted {localPart suffix : Text} (name : Username localPart) (some_left : localPart ≠ [])
    (short : localPart.length ≤ NAME_LIMITS .userPrincipalName) (upnSuffix : UpnSuffix suffix)
    {upnSuffixes : Option (List Text)} (known : ∀ suffixes ∈ upnSuffixes, suffix ∈ suffixes) :
    typedUpnProblem u upnSuffixes (localPart ++ unit '@' :: suffix) = none := by
  obtain ⟨index, typed⟩ := typedUpn_at (a := localPart) upnSuffix.no_at
  have filled : localPart.length ≠ 0 := by simpa using some_left
  have plain : localPart.all isUpnLocal = true :=
    List.all_eq_true.mpr fun c member => isUpnLocal_of_literal (name.chars c member)
  have noSpace : (suffix.any fun c => isSpace c ∨ c = unit '@') = false := by
    rw [List.any_eq_false]
    intro c member refuses
    rcases of_decide_eq_true refuses with space | rfl
    · rw [upnSuffix.visible c member] at space
      cases space
    · exact upnSuffix.no_at member
  have noControl : suffix.any isControl = false := by
    rw [List.any_eq_false]
    intro c member
    simp [upnSuffix.printable c member]
  unfold typedUpnProblem
  simp only [index, typed]
  rw [if_neg, if_neg (Nat.not_lt.mpr short), if_neg]
  · cases upnSuffixes with
    | none => rfl
    | some suffixes =>
      have listed : (suffixes.any fun x => u.lower x = u.lower suffix) = true :=
        List.any_eq_true.mpr ⟨suffix, known suffixes rfl, by simp⟩
      simp only [listed, if_true]
  · rw [plain, misplacedDot_username name, noSpace, noControl]
    simp [some_left]
  · simp [filled, upnSuffix.some_left]

/-- No names held: the pattern and the typed names' own rules, without a directory. -/
def NOTHING_TAKEN : TakenNames where
  samAccountNames := []
  userPrincipalNames := []
  mailAddresses := []
  cns := []

theorem nothing_taken {held : Held} (holds : held.Holds u NOTHING_TAKEN []) :
    (∀ names attrs, clashesOf u held names attrs = []) ∧ ∀ ou display sam,
      (placeCn u held ou display sam).deviations = [] := by
  constructor
  · intro names attrs
    refine clashesOf_eq_nil.mpr fun a _ => (holds.names a _).mpr ?_
    cases a <;> simp [IsTaken, NOTHING_TAKEN, TakenNames.of]
  · intro ou display sam
    have nobody : ∀ name, held.cns.holder u (cnKey u name) = none := by
      intro name
      refine (holds.cns name).mpr ?_
      simp [CnIsTaken, NOTHING_TAKEN]
    cases ou <;> simp [placeCn, nobody]

/-- A suggestion's names in place of the pattern's. -/
def NamingSuggestion.typed (s : NamingSuggestion) : NameOverrides where
  samAccountName := some s.samAccountName
  userPrincipalName := some s.upn
  displayName := some s.displayName

/-- What the typed names' rules ask of a suggestion. -/
structure Acceptable (settings : NamingSettings) (s : NamingSuggestion) : Prop where
  sam : Username s.samAccountName ∧ s.samAccountName ≠ [] ∧
    s.samAccountName.length ≤ NAME_LIMITS .samAccountName
  upnLocal : Username s.upnLocal ∧ s.upnLocal ≠ [] ∧ s.upnLocal.length ≤ NAME_LIMITS .userPrincipalName
  upn : s.upn = s.upnLocal ++ unit '@' :: settings.upnSuffix
  mail : s.mail = s.upn
  displayName : Runs.Bare isSpace s.displayName ∧ s.displayName ≠ []

/-- Typed in, an acceptable suggestion is taken as it is. -/
theorem Acceptable.typed {settings : NamingSettings} {s : NamingSuggestion}
    (acceptable : Acceptable settings s)
    (upnSuffix : UpnSuffix settings.upnSuffix) {upnSuffixes : Option (List Text)}
    (known : ∀ suffixes ∈ upnSuffixes, settings.upnSuffix ∈ suffixes) :
    typedNames u (some s.typed) upnSuffixes =
      { samAccountName := some s.samAccountName, upn := some ⟨s.upnLocal, settings.upnSuffix⟩,
        displayName := some s.displayName, deviations := [] } := by
  obtain ⟨⟨sam, samFilled, samShort⟩, ⟨upnLocal, upnFilled, upnShort⟩, upn, _, bare,
    displayFilled⟩ := acceptable
  have samBare := bare_of_all fun c member => not_space_of_literal (sam.chars c member)
  have upnBare : Runs.Bare isSpace s.upn := by
    refine bare_of_all fun c member => ?_
    rw [upn] at member
    rcases List.mem_append.mp member with inside | inside
    · exact not_space_of_literal (upnLocal.chars c inside)
    · rcases List.mem_cons.mp inside with rfl | inside
      · decide
      · exact upnSuffix.visible c inside
  have upnTyped : clean (some s.upn) = some s.upn := clean_some upnBare (by simp [upn])
  have samTyped := clean_some samBare samFilled
  have displayTyped := clean_some bare displayFilled
  have split : typedUpn s.upn = ⟨s.upnLocal, settings.upnSuffix⟩ := upn ▸ (typedUpn_at upnSuffix.no_at).2
  have upnFine : typedUpnProblem u upnSuffixes s.upn = none :=
    upn ▸ upn_accepted upnLocal upnFilled upnShort upnSuffix known
  have samFine : typedSamProblem u s.samAccountName = none := samAccountName_accepted sam samFilled samShort
  simp [typedNames, NamingSuggestion.typed, upnTyped, samTyped, displayTyped, split, upnFine,
    samFine, unusableOf]

/-- With nothing taken, an acceptable suggestion typed in comes back with its names, and
nothing of it is blocked. -/
theorem Acceptable.resolved {settings : NamingSettings} {s : NamingSuggestion}
    (acceptable : Acceptable settings s)
    (valid : namingPatternProblem settings.pattern = none) (upnSuffix : UpnSuffix settings.upnSuffix)
    {upnSuffixes : Option (List Text)} (known : ∀ suffixes ∈ upnSuffixes, settings.upnSuffix ∈ suffixes)
    (name : PersonName) (ouDn : Option Text) :
    ∃ s', resolveNames u [{ name, ouDn, overrides := some s.typed }] settings NOTHING_TAKEN
      upnSuffixes = .ok [s'] ∧
      s'.names = s.names ∧ s'.displayName = s.displayName ∧ Blocked s'.deviations = false := by
  have typed := acceptable.typed (u := u) upnSuffix known
  have mail : s.mail = s.upnLocal ++ unit '@' :: settings.upnSuffix := acceptable.mail.trans acceptable.upn
  obtain ⟨suggestions, ran⟩ := Accumulate.exists_outputs (exists_resolved u upnSuffixes valid)
    (.new u NOTHING_TAKEN) [{ name, ouDn, overrides := some s.typed }]
  obtain ⟨s', rfl⟩ : ∃ s', suggestions = [s'] := List.length_eq_one_iff.mp (Accumulate.outputs_length ran)
  refine ⟨s', ran, ?_⟩
  have split : [({ name, ouDn, overrides := some s.typed } : NamingRequest)].zip [s'] =
      [] ++ ({ name, ouDn, overrides := some s.typed }, s') :: [] := rfl
  obtain ⟨held, held', p, holds, _, outcome⟩ := exists_outcome_at ran split
  obtain ⟨nobody, placed⟩ := nothing_taken holds
  have names : ∀ n sam addresses, candidate settings p (typedNames u (some s.typed) upnSuffixes) n
    sam addresses = s.names := by
    intro n sam addresses
    simp [candidate, accountNames, typed, NamingSuggestion.names, acceptable.upn, mail]
  have first : firstOf u settings upnSuffixes held { name, ouDn, overrides := some s.typed } p = [] := by
    simp [firstOf, firstDeviations, typedOf, typed, nobody]
  have found : suffixed u held settings p (typedNames u (some s.typed) upnSuffixes) = .ok (s.names, []) := by
    simp only [suffixed, nobody, names, if_true]
  have display : displayOf u upnSuffixes { name, ouDn, overrides := some s.typed } p = s.displayName := by
    simp [displayOf, typedOf, typed]
  cases outcome with
  | blocked blocked =>
    rw [first] at blocked
    cases blocked
  | exhausted unusable _ failed =>
    rw [typedOf, found] at failed
    cases failed
  | named names' collisions placed' quiet found' at' =>
    rw [typedOf, found] at found'
    cases found'
    subst at'
    refine ⟨rfl, display, ?_⟩
    rw [blocked_named quiet rfl, placed]
    rfl

/-- What the pattern builds, where nothing blocks it, the typed names' rules accept. -/
theorem Outcome.acceptable {taken : TakenNames} {settings : NamingSettings}
    {upnSuffixes : Option (List Text)} {before : Done}
    {held held' : Held} {r : NamingRequest} {p : Prepared} {s : NamingSuggestion}
    (holds : held.Holds u taken before)
    (prepared : prepare u r.name settings.pattern = .ok p)
    (outcome : Outcome u settings upnSuffixes held r p s held')
    (samFree : clean (r.overrides.bind (·.samAccountName)) = none)
    (upnFree : clean (r.overrides.bind (·.userPrincipalName)) = none)
    (unblocked : Blocked s.deviations = false) :
    Acceptable settings s := by
  obtain ⟨_, display⟩ := outcome.exists_candidate
  rcases outcome.refused_or_took holds
    prepared with ⟨_, blocked, _⟩ | ⟨_, first, ⟨names, collisions, found, same⟩, _⟩
  · rw [unblocked] at blocked
    cases blocked
  have sam : (typedOf u upnSuffixes r).samAccountName = none := by
    simp [typedOf, typedNames, samFree, upnFree]
  have upn : (typedOf u upnSuffixes r).upn = none := by simp [typedOf, typedNames, upnFree]
  have person : ¬∃ d ∈ p.deviations, d.approval = .blocked := by
    intro blocked
    have refuses := mem_blocked.mpr blocked
    simp [firstOf, firstDeviations, blocked_append, upn, refuses] at first
  have shows' := shows_of_unblocked prepared person
  obtain ⟨n, suffixSam, suffixAddresses, small, built⟩ := suffixed_candidate found
  have either : ∀ suffixed : Bool, (if suffixed then n else 1) ≤ MAX_SUFFIX := by
    intro suffixed
    split
    · exact small
    · decide
  have parts : s.names = accountNames (samWith p (if suffixSam then n else 1))
      (upnLocalWith p (if suffixAddresses then n else 1)) settings.upnSuffix := by
    rw [same, built]
    simp [candidate, sam, upn]
  have samIs : s.samAccountName = samWith p (if suffixSam then n else 1) :=
    congrArg AccountNames.samAccountName parts
  have localIs : s.upnLocal = upnLocalWith p (if suffixAddresses then n else 1) :=
    congrArg AccountNames.upnLocal parts
  have upnIs : s.upn = upnLocalWith p (if suffixAddresses then n else 1) ++ [unit '@'] ++
    settings.upnSuffix :=
    congrArg AccountNames.upn parts
  have mailIs : s.mail = upnLocalWith p (if suffixAddresses then n else 1) ++ [unit '@'] ++
    settings.upnSuffix :=
    congrArg AccountNames.mail parts
  refine ⟨samIs ▸ fitted_username prepared shows' (either suffixSam) (by decide),
    localIs ▸ fitted_username prepared shows' (either suffixAddresses) (by decide), ?_, by
      rw [mailIs, upnIs], ?_⟩
  · rw [upnIs, localIs, List.append_assoc]
    rfl
  · rw [display]
    cases typed : clean (r.overrides.bind (·.displayName)) with
    | none =>
      have pattern : displayOf u upnSuffixes r p = p.displayName := by
        simp [displayOf, typedOf, typedNames, typed]
      rw [pattern]
      exact displayName_bare prepared shows'
    | some v =>
      have asTyped : displayOf u upnSuffixes r p = v := by simp [displayOf, typedOf, typedNames, typed]
      obtain ⟨given, filled⟩ := Option.filter_eq_some_iff.mp typed
      obtain ⟨raw, _, rfl⟩ := Option.map_eq_some_iff.mp given
      rw [asTyped]
      exact ⟨Runs.bare_strip, of_decide_eq_true filled⟩

/-- A suggestion the pattern built and nothing blocks has well-made names, and typed in
with nothing taken it comes back as it is. -/
theorem suggestion_accepted (u : Platform) (requests : List NamingRequest)
    (settings : NamingSettings) (taken : TakenNames)
    (upnSuffixes : Option (List Text)) (valid : namingPatternProblem settings.pattern = none)
    (upnSuffix : UpnSuffix settings.upnSuffix) :
    ∃ suggestions, resolveNames u requests settings taken upnSuffixes = .ok suggestions ∧
      suggestions.length = requests.length ∧
      ∀ x ∈ requests.zip suggestions, clean (x.1.overrides.bind (·.samAccountName)) = none →
        clean (x.1.overrides.bind (·.userPrincipalName)) = none → Blocked x.2.deviations = false →
        Acceptable settings x.2 ∧
        ∀ (name : PersonName) (ouDn : Option Text) (known : Option (List Text)),
          (∀ suffixes ∈ known, settings.upnSuffix ∈ suffixes) →
          ∃ s', resolveNames u [{ name, ouDn, overrides := some x.2.typed }] settings NOTHING_TAKEN
          known = .ok [s'] ∧
            s'.names = x.2.names ∧ s'.displayName = x.2.displayName ∧ Blocked s'.deviations = false := by
  obtain ⟨suggestions, ran⟩ := Accumulate.exists_outputs (exists_resolved u upnSuffixes valid)
    (.new u taken) requests
  refine ⟨suggestions, ran, Accumulate.outputs_length ran, fun x member samFree upnFree unblocked => ?_⟩
  obtain ⟨before, rest, split⟩ := List.append_of_mem member
  obtain ⟨held, held', p, holds, prepared, outcome⟩ := exists_outcome_at (r := x.1) (s := x.2) ran split
  have acceptable := outcome.acceptable holds prepared samFree upnFree unblocked
  exact ⟨acceptable, fun name ouDn known listed => acceptable.resolved valid upnSuffix listed name ouDn⟩

theorem firstLast_upnSuffix : UpnSuffix firstLast.upnSuffix := by
  have plain : firstLast.upnSuffix.all (fun c => !isSpace c && !isControl c && c != unit '@') =
    true := by decide
  have each : ∀ c ∈ firstLast.upnSuffix, (isSpace c = false ∧ isControl c = false) ∧ c ≠ unit '@' := by
    simpa using List.all_eq_true.mp plain
  exact ⟨by decide, fun c member => (each c member).1.1, fun c member => (each c member).1.2,
    fun member => (each _ member).2 rfl⟩

theorem suggestion_accepted_smiths : ∃ suggestions,
    resolveNames .ascii [smith none, smith none] firstLast smithTaken none = .ok suggestions ∧
      suggestions.length = [smith none, smith none].length ∧
      ∀ x ∈ [smith none, smith none].zip suggestions, clean (x.1.overrides.bind (·.samAccountName)) = none →
        clean (x.1.overrides.bind (·.userPrincipalName)) = none → Blocked x.2.deviations = false →
        Acceptable firstLast x.2 ∧
        ∀ (name : PersonName) (ouDn : Option Text) (known : Option (List Text)),
          (∀ suffixes ∈ known, firstLast.upnSuffix ∈ suffixes) →
          ∃ s', resolveNames .ascii [{ name, ouDn, overrides := some x.2.typed }] firstLast
          NOTHING_TAKEN known = .ok [s'] ∧
            s'.names = x.2.names ∧ s'.displayName = x.2.displayName ∧ Blocked s'.deviations = false :=
  suggestion_accepted .ascii [smith none, smith none] firstLast smithTaken none (by decide)
    firstLast_upnSuffix

/-- With no UPN suffix in the settings, the UPN a suggestion holds is refused when typed. -/
theorem empty_suffix_refused :
    (resolveNames .ascii [smith none] { firstLast with upnSuffix := [] } NOTHING_TAKEN none).toOption.map
        (·.map fun s => (s.upn, Blocked s.deviations)) = some [(text "john.smith@", false)] ∧
      (resolveNames .ascii
        [smith (some ⟨some (text "john.smith"), some (text "john.smith@"), some (text "John Smith")⟩)]
        { firstLast with upnSuffix := [] } NOTHING_TAKEN none).toOption.map
        (·.map fun s => Blocked s.deviations) = some [true] := by
  decide

end OpenAduc.Naming
