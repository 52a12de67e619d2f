import OpenAduc.Naming.Resolve

namespace OpenAduc.Naming

def NamingSuggestion.names (s : NamingSuggestion) : AccountNames :=
  { samAccountName := s.samAccountName, upnLocal := s.upnLocal, upn := s.upn, mail := s.mail }

def NamingDeviation.placesCn : NamingDeviation → Bool
  | .cnCollision .. => true
  | _ => false

/-- A suggestion nothing but its CN blocks takes its names: later requests find them held. -/
def NamingSuggestion.TookNames (s : NamingSuggestion) : Prop :=
  ∀ d ∈ s.deviations, d.approval = .blocked → d.placesCn

variable (u : Platform) (taken : TakenNames)

/-- Requests with what was suggested for them. -/
abbrev Done := List (NamingRequest × NamingSuggestion)

/-- The value is held in the directory, or by a request before that took it. -/
def IsTaken (before : Done) (attr : NamingAttribute) (value : Text) : Prop :=
  (∃ v ∈ taken.of attr, u.lower v = u.lower value) ∨
    ∃ x ∈ before, x.2.TookNames ∧ u.lower (valueOf x.2.names attr) = u.lower value

/-- One CN in one OU, compared as the code compares them. -/
def SameCn (a b : OuName) : Prop := u.lower (cnKey u a) = u.lower (cnKey u b)

def CnIsTaken (before : Done) (name : OuName) : Prop :=
  (∃ v ∈ taken.cns, SameCn u v name) ∨ ∃ x ∈ before, x.2.TookNames ∧ ∃ ou ∈ x.1.ou, SameCn u ⟨ou, x.2.cn⟩ name

variable {u} {taken}

theorem NameSet.holder_eq_none {names : NameSet} {value : Text} :
    names.holder u value = none ↔ u.lower value ∉ names.directory ∧ u.lower value ∉ names.batch := by
  unfold NameSet.holder
  simp only [List.contains_iff_mem]
  split
  · simp [*]
  · split <;> simp [*]

theorem clashesOf_eq_nil {held : Held} {names : AccountNames} {attrs : List NamingAttribute} :
    clashesOf u held names attrs = [] ↔ ∀ a ∈ attrs, (held.of a).holder u (valueOf names a) = none := by
  unfold clashesOf
  rw [List.flatMap_eq_nil_iff]
  refine forall₂_congr fun a _ => ?_
  cases (held.of a).holder u (valueOf names a) <;> simp

theorem mem_clashesOf {held : Held} {names : AccountNames} {attrs : List NamingAttribute} {c : Clash} :
    c ∈ clashesOf u held names attrs ↔ c.attr ∈ attrs ∧
      (held.of c.attr).holder u (valueOf names c.attr) = some c.source := by
  simp only [clashesOf, List.mem_flatMap, List.mem_map, Option.mem_toList]
  constructor
  · rintro ⟨a, member, source, holds, rfl⟩
    exact ⟨member, holds⟩
  · rintro ⟨member, holds⟩
    exact ⟨c.attr, member, c.source, holds, rfl⟩

instance (s : NamingSuggestion) : Decidable s.TookNames :=
  inferInstanceAs (Decidable (∀ d ∈ s.deviations, d.approval = .blocked → d.placesCn = true))

/-- What a request leaves held, read off its suggestion. -/
def Held.leave (u : Platform) (held : Held) (r : NamingRequest) (s : NamingSuggestion) : Held :=
  if s.TookNames then
    let held := held.claim u s.names
    match r.ou with
    | none => held
    | some ouDn => held.claimCn u ⟨ouDn, s.cn⟩
  else held

/-- The sets hold what the directory and the requests before hold. -/
structure Held.Holds (u : Platform) (taken : TakenNames) (before : Done) (held : Held) : Prop where
  names : ∀ a value, (held.of a).holder u value = none ↔ ¬IsTaken u taken before a value
  cns : ∀ name, held.cns.holder u (cnKey u name) = none ↔ ¬CnIsTaken u taken before name

theorem Held.holds_new : (Held.new u taken).Holds u taken [] := by
  constructor
  · intro a value
    rw [NameSet.holder_eq_none]
    cases a <;> simp [Held.new, Held.of, NameSet.new, IsTaken, TakenNames.of]
  · intro name
    rw [NameSet.holder_eq_none]
    simp [Held.new, NameSet.new, CnIsTaken, SameCn]

theorem NameSet.holder_claim {names : NameSet} {claimed value : Text} :
    (names.claim u claimed).holder u value = none ↔
      names.holder u value = none ∧ u.lower claimed ≠ u.lower value := by
  rw [NameSet.holder_eq_none, NameSet.holder_eq_none, and_assoc]
  simp [NameSet.claim, eq_comm]

theorem isTaken_append {before : Done} {x : NamingRequest × NamingSuggestion} {a : NamingAttribute}
    {value : Text} :
    IsTaken u taken (before ++ [x]) a value ↔
      IsTaken u taken before a value ∨ x.2.TookNames ∧ u.lower (valueOf x.2.names a) = u.lower value := by
  simp only [IsTaken, List.mem_append, List.mem_singleton, or_and_right, exists_or, exists_eq_left, or_assoc]

theorem cnIsTaken_append {before : Done} {x : NamingRequest × NamingSuggestion} {name : OuName} :
    CnIsTaken u taken (before ++ [x]) name ↔
      CnIsTaken u taken before name ∨ x.2.TookNames ∧ ∃ ou ∈ x.1.ou, SameCn u ⟨ou, x.2.cn⟩ name := by
  simp only [CnIsTaken, List.mem_append, List.mem_singleton, or_and_right, exists_or,
    exists_eq_left, or_assoc]

/-- What a suggestion leaves held is what it took, beside what was held before. -/
theorem Held.Holds.leave {before : Done} {held : Held} (holds : held.Holds u taken before) (r : NamingRequest)
    (s : NamingSuggestion) : (held.leave u r s).Holds u taken (before ++ [(r, s)]) := by
  unfold Held.leave
  by_cases took : s.TookNames
  · rw [if_pos took]
    constructor
    · intro a value
      rw [isTaken_append, not_or, ← holds.names]
      cases r.ou <;> simp [took, NameSet.holder_claim]
    · intro name
      rw [cnIsTaken_append, not_or, ← holds.cns]
      cases r.ou <;> simp [took, SameCn, NameSet.holder_claim]
  · rw [if_neg took]
    constructor
    · intro a value
      rw [isTaken_append, holds.names]
      simp [took]
    · intro name
      rw [cnIsTaken_append, holds.cns]
      simp [took]

theorem Held.holds_after (before : Done) :
    (Accumulate.after (Held.leave u) (.new u taken) before).Holds u taken before := by
  induction before using List.reverseRecOn with
  | nil => exact Held.holds_new
  | append_singleton before x ih =>
    rw [Accumulate.after, List.foldl_append]
    exact ih.leave x.1 x.2

section deviations

/-- None of them says where the CN went. -/
def NotCn (deviations : List NamingDeviation) : Prop := ∀ d ∈ deviations, d.placesCn = false

theorem NotCn.append {a b : List NamingDeviation} (left : NotCn a) (right : NotCn b) : NotCn (a ++ b) := by
  intro d member
  rcases List.mem_append.mp member with member | member
  · exact left d member
  · exact right d member

theorem NotCn.nil : NotCn [] := by simp [NotCn]

theorem NotCn.ite {c : Prop} [Decidable c] {a b : List NamingDeviation} (left : NotCn a) (right : NotCn b) :
    NotCn (if c then a else b) := by
  split
  · exact left
  · exact right

theorem NotCn.singleton {d : NamingDeviation} (other : d.placesCn = false) : NotCn [d] := by
  simpa [NotCn] using other

theorem notCn_truncation {attr : LimitedAttribute} {start result note : Text} :
    NotCn (truncation attr start result note) := by
  unfold truncation
  exact .ite .nil (.singleton rfl)

theorem notCn_step {field : NameField} {rule : NormalizationRule} {next : Text → Text} {changed : Text → Bool}
    {n : Normalized} (start : NotCn n.deviations) : NotCn (step field rule next changed n).deviations := by
  unfold step
  exact .ite (start.append (.singleton rfl)) start

theorem notCn_drop {field : NameField} {what : Dropped} {characters : List Text} {n : Normalized}
    (start : NotCn n.deviations) : NotCn (drop field what characters n).deviations := by
  unfold drop
  split
  · exact start
  · exact start.append (.singleton rfl)

theorem notCn_normalizePart {field : NameField} {raw : Text} :
    NotCn (normalizePart u field raw).deviations := by
  have stepped :
    NotCn (stepIfNew field .spaces (·.filter (!isSpace ·)) (stepIfNew field .periods (·.filter (· ≠ unit '.'))
      (stepIfNew field .apostrophes (·.filter (!isApostrophe ·))
        (stepIfNew field .diacritics (removeAccents u)
        (step field .letterforms u.nfkc (fun v => u.nfkc v ≠ u.nfc v)
          (stepIfNew field .invisible (removeInvisible u)
            { value := trim raw, deviations := [] })))))).deviations :=
    notCn_step <| notCn_step <| notCn_step <| notCn_step <| notCn_step <| notCn_step .nil
  exact notCn_drop <| notCn_drop stepped

theorem notCn_partDeviations {segments : List Segment} {name : PersonName} {field : NameField} :
    NotCn (partDeviations u segments name field) := by
  unfold partDeviations
  exact .ite .nil (.ite (notCn_normalizePart.append (.singleton rfl)) notCn_normalizePart)

theorem notCn_unusableOf {attr : NamingAttribute} {problem : Option Text} :
    NotCn (unusableOf attr problem) := by
  intro d member
  obtain ⟨reason, _, rfl⟩ := List.mem_map.mp member
  rfl

theorem notCn_typedNames {overrides : Option NameOverrides} {upnSuffixes : Option (List Text)} :
    NotCn (typedNames u overrides upnSuffixes).deviations := by
  refine (notCn_unusableOf.append (.ite ?_ .nil)).append notCn_unusableOf
  intro d member
  obtain ⟨upn, _, found⟩ := List.mem_flatMap.mp member
  exact notCn_truncation d found

theorem prepare_deviations {name : PersonName} {pattern : Text} {p : Prepared}
    (prepared : prepare u name pattern = .ok p) :
    NotCn p.deviations := by
  unfold prepare at prepared
  split at prepared
  · cases prepared
  · cases prepared
    exact notCn_partDeviations.append notCn_partDeviations

theorem notCn_firstDeviations {held : Held} {p : Prepared} {typed : TypedNames} {base : AccountNames}
    (person : NotCn p.deviations) (names : NotCn typed.deviations) :
    NotCn (firstDeviations u held p typed base) := by
  unfold firstDeviations
  refine ((((NotCn.append (.ite person .nil) names).append (.ite notCn_truncation .nil)).append
    (.ite notCn_truncation .nil)).append (.ite notCn_truncation .nil)).append ?_
  intro d member
  obtain ⟨c, _, rfl⟩ := List.mem_map.mp member
  rfl

theorem blocked_append {a b : List NamingDeviation} : Blocked (a ++ b) = (Blocked a || Blocked b) := by
  simp [Blocked]

theorem not_blocked_truncation {attr : LimitedAttribute} {start result note : Text} :
    Blocked (truncation attr start result note) = false := by
  unfold truncation
  split <;> simp [Blocked, NamingDeviation.approval]

theorem blocked_ite {c : Prop} [Decidable c] {l : List NamingDeviation}
    (blocked : Blocked (if c then l else []) = true) :
    c ∧ Blocked l = true := by
  split at blocked
  next holds => exact ⟨holds, blocked⟩
  next => cases blocked

theorem mem_blocked {deviations : List NamingDeviation} :
    Blocked deviations = true ↔ ∃ d ∈ deviations, d.approval = .blocked := by
  simp [Blocked]

end deviations

section request
variable (u) (settings : NamingSettings) (upnSuffixes : Option (List Text)) (held : Held)
    (r : NamingRequest) (p : Prepared)

def typedOf : TypedNames := typedNames u r.overrides upnSuffixes

def baseOf : AccountNames := candidate settings p (typedOf u upnSuffixes r) 1 false false

def firstOf : List NamingDeviation :=
  firstDeviations u held p (typedOf u upnSuffixes r) (baseOf u settings upnSuffixes r p)

def displayOf : Text := (typedOf u upnSuffixes r).displayName.getD p.displayName

/-- How one request ends: blocked at once, out of suffixes, or named and placed. -/
inductive Outcome : NamingSuggestion → Held → Prop
  | blocked : Blocked (firstOf u settings upnSuffixes held r p) = true →
      Outcome (resultOf (baseOf u settings upnSuffixes r p)
        (cutText (displayOf u upnSuffixes r p) (NAME_LIMITS .cn) [])
        (displayOf u upnSuffixes r p) (firstOf u settings upnSuffixes held r p)) held
  | exhausted (unusable : NamingDeviation) : Blocked (firstOf u settings upnSuffixes held r p) = false →
      suffixed u held settings p (typedOf u upnSuffixes r) = .error unusable →
      Outcome (resultOf (baseOf u settings upnSuffixes r p)
        (cutText (displayOf u upnSuffixes r p) (NAME_LIMITS .cn) [])
        (displayOf u upnSuffixes r p) (firstOf u settings upnSuffixes held r p ++ [unusable])) held
  | named (names : AccountNames) (collisions : List NamingDeviation) (placed : Placed) :
      Blocked (firstOf u settings upnSuffixes held r p) = false →
      suffixed u held settings p (typedOf u upnSuffixes r) = .ok (names, collisions) →
      placed = placeCn u held r.ou (displayOf u upnSuffixes r p) names.samAccountName →
      Outcome (resultOf names placed.cn (displayOf u upnSuffixes r p)
        (firstOf u settings upnSuffixes held r p ++ collisions ++ placed.deviations ++
          truncation .cn placed.intended placed.cn (text "The display name keeps the full name.")))
        (match r.ou with
          | none => held.claim u names
          | some ouDn => (held.claim u names).claimCn u ⟨ouDn, placed.cn⟩)

variable {u settings upnSuffixes held r p}

/-- A resolved request has one of the outcomes. -/
theorem exists_outcome {s : NamingSuggestion} {held' : Held}
    (resolved : resolveName u settings upnSuffixes held r = .ok (s, held')) :
    ∃ p, prepare u r.name settings.pattern = .ok p ∧ Outcome u settings upnSuffixes held r p s held' := by
  unfold resolveName at resolved
  cases prepared : prepare u r.name settings.pattern with
  | error problem => simp [prepared, bind, Except.bind] at resolved
  | ok p =>
    refine ⟨p, rfl, ?_⟩
    simp only [prepared, bind, Except.bind] at resolved
    split at resolved
    next blocked =>
      cases resolved
      exact .blocked blocked
    next unblocked =>
      have open' := eq_false_of_ne_true unblocked
      split at resolved
      next unusable none_free =>
        cases resolved
        exact .exhausted unusable open' none_free
      next names collisions found =>
        cases resolved
        exact .named names collisions _ open' found rfl

/-- The clashes of the names the pattern builds, before any suffix. -/
def clashesAtBase (u : Platform) (held : Held) (settings : NamingSettings) (p : Prepared)
    (typed : TypedNames) : List Clash :=
  clashesOf u held (candidate settings p typed 1 false false) (freeAttributes typed)

def addressesClash (clashes : List Clash) : Bool := clashes.any (·.attr ≠ .samAccountName)

def checkedOf (typed : TypedNames) (clashes : List Clash) : List NamingAttribute :=
  (freeAttributes typed).filter fun a => addressesClash clashes || a = .samAccountName

/-- The suffix found is the least that frees the names it may change. -/
theorem suffixed_ok {names : AccountNames} {collisions : List NamingDeviation} {typed : TypedNames}
    (found : suffixed u held settings p typed = .ok (names, collisions)) :
    let clashes := clashesAtBase u held settings p typed
    let next := fun n => candidate settings p typed n true (addressesClash clashes)
    clashes = [] ∧ names = candidate settings p typed 1 false false ∧ collisions = [] ∨
      clashes ≠ [] ∧ ∃ n, 2 ≤ n ∧ n ≤ MAX_SUFFIX ∧ names = next n ∧
        clashesOf u held (next n) (checkedOf typed clashes) = [] ∧
        (∀ m, 2 ≤ m → m < n → clashesOf u held (next m) (checkedOf typed clashes) ≠ []) ∧
        ∃ d, collisions = [d] ∧ d.approval = .individual ∧ d.placesCn = false := by
  simp only [suffixed] at found
  split at found
  next clear =>
    cases found
    exact .inl ⟨clear, rfl, rfl⟩
  next clashing =>
    split at found
    · cases found
    next n first =>
      cases found
      obtain ⟨clear, range, least⟩ := List.find?_range'_eq_some.mp first
      have bounds := List.mem_range'_1.mp range
      refine .inr ⟨clashing, n, bounds.1, ?_, rfl, of_decide_eq_true clear, ?_, _, rfl, rfl, rfl⟩
      · have upper := bounds.2
        unfold MAX_SUFFIX at upper ⊢
        omega
      · intro m lower below none_clash
        have clashes := least m lower below
        simp [addressesClash, checkedOf, clashesAtBase] at none_clash clashes
        exact clashes none_clash

theorem suffixed_candidate {names : AccountNames} {collisions : List NamingDeviation} {typed : TypedNames}
    (found : suffixed u held settings p typed = .ok (names, collisions)) :
    ∃ n sam addresses, n ≤ MAX_SUFFIX ∧ names = candidate settings p typed n sam addresses := by
  rcases suffixed_ok found with ⟨_, same, _⟩ | ⟨_, n, _, upper, same, _⟩
  · exact ⟨1, false, false, by decide, same⟩
  · exact ⟨n, true, _, upper, same⟩

/-- No suffix is found where the names that would change can take none. -/
theorem suffixed_error {unusable : NamingDeviation} {typed : TypedNames}
    (failed : suffixed u held settings p typed = .error unusable) :
    let clashes := clashesAtBase u held settings p typed
    clashes ≠ [] ∧ (∀ m, 2 ≤ m → m ≤ MAX_SUFFIX →
      clashesOf u held (candidate settings p typed m true (addressesClash clashes))
        (checkedOf typed clashes) ≠ []) ∧
      unusable.approval = .blocked ∧ unusable.placesCn = false := by
  simp only [suffixed] at failed
  split at failed
  · cases failed
  next clashing =>
    split at failed
    next all =>
      cases failed
      refine ⟨clashing, ?_, rfl, rfl⟩
      intro m lower upper none_clash
      have range : m ∈ List.range' 2 (MAX_SUFFIX - 1) := by
        rw [List.mem_range'_1]
        unfold MAX_SUFFIX at upper ⊢
        omega
      have clashes := List.find?_eq_none.mp all m range
      exact clashes (decide_eq_true none_clash)
    · cases failed

theorem placed_deviations {ou : Option Text} {displayName sam : Text} :
    ∀ d ∈ (placeCn u held ou displayName sam).deviations, d.placesCn = true := by
  simp only [placeCn]
  split <;> simp [NamingDeviation.placesCn]

variable (upnSuffixes held) in
theorem notCn_firstOf (prepared : prepare u r.name settings.pattern = .ok p) :
    NotCn (firstOf u settings upnSuffixes held r p) :=
  notCn_firstDeviations (prepare_deviations prepared) notCn_typedNames

/-- A suggestion refused for more than its CN takes no name. -/
theorem not_took {s : NamingSuggestion} {d : NamingDeviation} (member : d ∈ s.deviations)
    (refuses : d.approval = .blocked)
    (other : d.placesCn = false) : ¬s.TookNames := by
  intro took
  have places := took d member refuses
  simp [other] at places

/-- One that gets its names is blocked by its CN or not at all. -/
theorem blocked_named {names : AccountNames} {collisions : List NamingDeviation} {placed : Placed}
    {displayName note : Text}
    {first : List NamingDeviation} (unblocked : Blocked first = false) (clear : Blocked collisions = false) :
    Blocked (resultOf names placed.cn displayName (first ++ collisions ++ placed.deviations ++
      truncation .cn placed.intended placed.cn note)).deviations = Blocked placed.deviations := by
  simp [resultOf, blocked_append, not_blocked_truncation, unblocked, clear]

/-- A suggestion that nothing blocks takes its names. -/
theorem took_named {names : AccountNames} {collisions : List NamingDeviation} {placed : Placed}
    {displayName note : Text}
    {first : List NamingDeviation} (unblocked : Blocked first = false) (clear : Blocked collisions = false)
    (places : ∀ d ∈ placed.deviations, d.placesCn = true) :
    (resultOf names placed.cn displayName (first ++ collisions ++ placed.deviations ++
      truncation .cn placed.intended placed.cn note)).TookNames := by
  intro d member refuses
  simp only [resultOf, List.mem_append] at member
  obtain ((member | member) | member) | member := member
  · have blocked := mem_blocked.mpr ⟨d, member, refuses⟩
    simp [unblocked] at blocked
  · have blocked := mem_blocked.mpr ⟨d, member, refuses⟩
    simp [clear] at blocked
  · exact places d member
  · have blocked := mem_blocked.mpr ⟨d, member, refuses⟩
    simp [not_blocked_truncation] at blocked

/-- A request leaves held what its suggestion says it took. -/
theorem Outcome.leaves {s : NamingSuggestion} {held' : Held}
    (prepared : prepare u r.name settings.pattern = .ok p)
    (outcome : Outcome u settings upnSuffixes held r p s held') : held' = held.leave u r s := by
  have other := notCn_firstOf upnSuffixes held prepared
  cases outcome with
  | blocked blocked =>
    obtain ⟨d, member, refuses⟩ := mem_blocked.mp blocked
    rw [Held.leave, if_neg (not_took member refuses (other d member))]
  | exhausted unusable _ failed =>
    obtain ⟨_, _, refuses, other'⟩ := suffixed_error failed
    rw [Held.leave, if_neg (not_took (List.mem_append_right _ List.mem_cons_self) refuses other')]
  | named names collisions placed unblocked found at' =>
    have clear : Blocked collisions = false := by
      rcases suffixed_ok found with ⟨_, _, rfl⟩ | ⟨_, _, _, _, _, _, _, d, rfl, individual, _⟩
      · rfl
      · simp [Blocked, individual]
    subst at'
    rw [Held.leave, if_pos (took_named unblocked clear placed_deviations)]
    rfl

theorem placeCn_free {ou : Option Text} {displayName sam : Text}
    (unblocked : Blocked (placeCn u held ou displayName sam).deviations = false) :
    ∀ ouDn ∈ ou, held.cns.holder u (cnKey u ⟨ouDn, (placeCn u held ou displayName sam).cn⟩) = none := by
  rintro ouDn rfl
  cases first : held.cns.holder u (cnKey u ⟨ouDn, cutText displayName (NAME_LIMITS .cn) []⟩) with
  | none => simp [placeCn, first]
  | some source =>
    have free : held.cns.holder u (cnKey u ⟨ouDn, cutText displayName (NAME_LIMITS .cn)
        (text " (" ++ sam ++ text ")")⟩) = none := by
      simpa [placeCn, first, Blocked, NamingDeviation.approval] using unblocked
    simpa [placeCn, first] using free

end request

/-- A text is what is before a place, the character there and what is after. -/
theorem lastIndexOf_split {c : UInt16} {t : Text} {i : Nat} (found : lastIndexOf c t = some i) :
    t.take i ++ [c] ++ t.drop (i + 1) = t := by
  induction t generalizing i with
  | nil => cases found
  | cons x rest ih =>
    unfold lastIndexOf at found
    split at found
    next j inner =>
      cases found
      simpa using ih inner
    next =>
      split at found
      next same =>
        cases found
        simp [same]
      next => cases found

theorem exists_lastIndexOf {c : UInt16} {t : Text} (member : c ∈ t) : ∃ i, lastIndexOf c t = some i := by
  induction t with
  | nil => cases member
  | cons x rest ih =>
    unfold lastIndexOf
    cases inner : lastIndexOf c rest with
    | some i => exact ⟨i + 1, rfl⟩
    | none =>
      rcases List.mem_cons.mp member with same | member
      · exact ⟨0, by simp [same]⟩
      · obtain ⟨i, found⟩ := ih member
        simp [inner] at found

/-- A typed UPN with an `@` is split so that it is put together again. -/
theorem typedUpn_whole {v : Text} (member : unit '@' ∈ v) :
    (typedUpn v).localPart ++ [unit '@'] ++ (typedUpn v).suffix = v := by
  obtain ⟨i, found⟩ := exists_lastIndexOf member
  unfold typedUpn
  rw [found]
  exact lastIndexOf_split found

/-- The least suffix at which nothing clashes. -/
structure LeastSuffix (clashes : Nat → Prop) (n : Nat) : Prop where
  lower : 2 ≤ n
  upper : n ≤ MAX_SUFFIX
  free : ¬clashes n
  least : ∀ m, 2 ≤ m → m < n → clashes m

section
variable (u) (settings : NamingSettings) (upnSuffixes : Option (List Text)) (taken) (before : Done)
    (r : NamingRequest)
  (s : NamingSuggestion)

/-- One of the attributes, with this suffix, is taken. -/
def ClashesAt (p : Prepared) (attrs : List NamingAttribute) (addresses : Bool) (n : Nat) : Prop :=
  ∃ a ∈ attrs, IsTaken u taken before a
    (valueOf (candidate settings p (typedOf u upnSuffixes r) n true addresses) a)

/-- One of the attributes is taken as the pattern builds it. -/
def ClashesBare (p : Prepared) (attrs : List NamingAttribute) : Prop :=
  ∃ a ∈ attrs, IsTaken u taken before a (valueOf (baseOf u settings upnSuffixes r p) a)

def free : List NamingAttribute := freeAttributes (typedOf u upnSuffixes r)

def freeAddresses : List NamingAttribute := (free u upnSuffixes r).filter (· ≠ .samAccountName)

/-- Why a request gets no names: the person's or the typed names are unusable, a typed one
is taken, or so is every suffix. -/
def Refused (p : Prepared) : Prop :=
  (typedOf u upnSuffixes r).upn = none ∧ Blocked p.deviations = true ∨
    Blocked (typedOf u upnSuffixes r).deviations = true ∨
    (∃ a ∉ free u upnSuffixes r, IsTaken u taken before a (valueOf (baseOf u settings upnSuffixes r p) a)) ∨
    ClashesBare u taken settings upnSuffixes before r p (freeAddresses u upnSuffixes r) ∧
      (∀ n, 2 ≤ n → n ≤ MAX_SUFFIX → ClashesAt u taken settings upnSuffixes before r p
        (free u upnSuffixes r) true n) ∨
    ¬ClashesBare u taken settings upnSuffixes before r p (freeAddresses u upnSuffixes r) ∧
      ClashesBare u taken settings upnSuffixes before r p (free u upnSuffixes r) ∧
      ∀ n, 2 ≤ n → n ≤ MAX_SUFFIX → ClashesAt u taken settings upnSuffixes before r p
        [.samAccountName] false n

/-- What holds of one request, given those before it. `typed` fields say what the operator
typed comes back, `together` and `alone` which suffix the pattern's names take, and
`refused` what can keep a request from its names. -/
structure Settled : Prop where
  distinct : Blocked s.deviations = false → ∀ a, ¬IsTaken u taken before a (valueOf s.names a)
  placed : Blocked s.deviations = false → ∀ ou ∈ r.ou, ¬CnIsTaken u taken before ⟨ou, s.cn⟩
  typedSam : ∀ v ∈ clean (r.overrides.bind (·.samAccountName)), s.samAccountName = v
  typedUpn : ∀ v ∈ clean (r.overrides.bind (·.userPrincipalName)), unit '@' ∈ v → s.upn = v ∧ s.mail = v
  typedDisplayName : ∀ v ∈ clean (r.overrides.bind (·.displayName)), s.displayName = v
  bare : ∀ p, prepare u r.name settings.pattern = .ok p → s.TookNames →
    ¬ClashesBare u taken settings upnSuffixes before r p (free u upnSuffixes r) →
    s.names = baseOf u settings upnSuffixes r p
  together : ∀ p, prepare u r.name settings.pattern = .ok p → s.TookNames →
    ClashesBare u taken settings upnSuffixes before r p (freeAddresses u upnSuffixes r) →
    ∃ n, LeastSuffix (ClashesAt u taken settings upnSuffixes before r p (free u upnSuffixes r) true) n ∧
      s.names = candidate settings p (typedOf u upnSuffixes r) n true true
  alone : ∀ p, prepare u r.name settings.pattern = .ok p → s.TookNames →
    ¬ClashesBare u taken settings upnSuffixes before r p (freeAddresses u upnSuffixes r) →
    ClashesBare u taken settings upnSuffixes before r p (free u upnSuffixes r) →
    ∃ n, LeastSuffix (ClashesAt u taken settings upnSuffixes before r p [.samAccountName] false) n ∧
      s.names = candidate settings p (typedOf u upnSuffixes r) n true false
  refused : ∀ p, prepare u r.name settings.pattern = .ok p → ¬s.TookNames →
    s.names = baseOf u settings upnSuffixes r p ∧ Refused u taken settings upnSuffixes before r p

end

section settled
variable {settings : NamingSettings} {upnSuffixes : Option (List Text)} {before : Done} {r : NamingRequest}
  {s : NamingSuggestion} {held held' : Held} {p : Prepared}

theorem clashes_iff (holds : held.Holds u taken before) {names : AccountNames}
    {attrs : List NamingAttribute} :
    clashesOf u held names attrs ≠ [] ↔ ∃ a ∈ attrs, IsTaken u taken before a (valueOf names a) := by
  rw [ne_eq, clashesOf_eq_nil]
  simp only [holds.names, not_forall, not_not, exists_prop]

/-- The addresses clash bare just where one of them is taken. -/
theorem addressesClash_iff (holds : held.Holds u taken before) :
    addressesClash (clashesAtBase u held settings p (typedOf u upnSuffixes r)) = true ↔
      ClashesBare u taken settings upnSuffixes before r p (freeAddresses u upnSuffixes r) := by
  simp only [addressesClash, List.any_eq_true, clashesAtBase, mem_clashesOf, ClashesBare,
    freeAddresses, List.mem_filter]
  constructor
  · rintro ⟨c, ⟨member, holder⟩, other⟩
    refine ⟨c.attr, ⟨member, other⟩, ?_⟩
    by_contra untaken
    rw [← holds.names] at untaken
    rw [baseOf, holder] at untaken
    cases untaken
  · rintro ⟨a, ⟨member, other⟩, isTaken⟩
    cases holder : (held.of a).holder u (valueOf (baseOf u settings upnSuffixes r p) a) with
    | none => exact absurd isTaken ((holds.names a _).mp holder)
    | some source => exact ⟨⟨a, source⟩, ⟨member, holder⟩, other⟩

/-- Which attributes a suffix is tried on: all the free ones once an address clashes. -/
theorem mem_checkedOf {typed : TypedNames} {clashes : List Clash} {a : NamingAttribute} :
    a ∈ checkedOf typed clashes ↔ a ∈ freeAttributes typed ∧
      (addressesClash clashes = true ∨ a = .samAccountName) := by
  simp [checkedOf, List.mem_filter]

/-- What a clash of the pattern's names comes to: every free attribute once an address
clashes, the sAMAccountName alone otherwise. -/
theorem checked_clash_iff (holds : held.Holds u taken before)
    (clashing : ClashesBare u taken settings upnSuffixes before r p (free u upnSuffixes r)) (n : Nat) :
    let clashes := clashesAtBase u held settings p (typedOf u upnSuffixes r)
    clashesOf u held (candidate settings p (typedOf u upnSuffixes r) n true (addressesClash clashes))
        (checkedOf (typedOf u upnSuffixes r) clashes) ≠ [] ↔
      if addressesClash clashes then ClashesAt u taken settings upnSuffixes before r p
        (free u upnSuffixes r) true n
      else ClashesAt u taken settings upnSuffixes before r p [.samAccountName] false n := by
  intro clashes
  rw [clashes_iff holds]
  simp only [mem_checkedOf]
  cases addresses : addressesClash clashes with
  | true => simp [ClashesAt, free]
  | false =>
    have samFree : .samAccountName ∈ free u upnSuffixes r := by
      obtain ⟨a, member, isTaken⟩ := clashing
      by_cases same : a = .samAccountName
      · exact same ▸ member
      · have bare : ClashesBare u taken settings upnSuffixes before r p (freeAddresses u upnSuffixes r) :=
          ⟨a, List.mem_filter.mpr ⟨member, by simpa using same⟩, isTaken⟩
        rw [(addressesClash_iff holds).mpr bare] at addresses
        cases addresses
    have membership : ∀ a,
      (a ∈ freeAttributes (typedOf u upnSuffixes r) ∧ (false = true ∨ a = .samAccountName)) ↔
        a = .samAccountName := by
      intro a
      constructor
      · rintro ⟨_, impossible | same⟩
        · cases impossible
        · exact same
      · rintro rfl
        exact ⟨samFree, .inr rfl⟩
    simp only [membership, ClashesAt, List.mem_singleton]
    simp

/-- What blocks a first candidate is a typed name, or one taken that can't change. -/
theorem blocked_firstOf (blocked : Blocked (firstOf u settings upnSuffixes held r p) = true)
    (holds : held.Holds u taken before) :
    (typedOf u upnSuffixes r).upn = none ∧ Blocked p.deviations = true ∨
      Blocked (typedOf u upnSuffixes r).deviations = true ∨
      ∃ a ∉ free u upnSuffixes r, IsTaken u taken before a
      (valueOf (baseOf u settings upnSuffixes r p) a) := by
  simp only [firstOf, firstDeviations, blocked_append, Bool.or_eq_true] at blocked
  obtain ((((person | typed) | sam) | upn) | display) | held' := blocked
  · obtain ⟨untyped, person⟩ := blocked_ite person
    exact .inl ⟨by simpa using untyped, person⟩
  · exact .inr (.inl typed)
  · exact absurd (blocked_ite sam).2 (by simp [not_blocked_truncation])
  · exact absurd (blocked_ite upn).2 (by simp [not_blocked_truncation])
  · exact absurd (blocked_ite display).2 (by simp [not_blocked_truncation])
  · obtain ⟨d, member, _⟩ := mem_blocked.mp held'
    obtain ⟨c, clash, _⟩ := List.mem_map.mp member
    have clashing := List.ne_nil_of_mem clash
    obtain ⟨a, outside, isTaken⟩ := (clashes_iff holds).mp clashing
    exact .inr (.inr ⟨a, by simpa [free] using (List.mem_filter.mp outside).2, isTaken⟩)

variable (settings upnSuffixes r p) in
/-- A typed name is the candidate's at every suffix. -/
theorem typed_names (n : Nat) (suffixSam suffixAddresses : Bool) :
    (∀ v ∈ clean (r.overrides.bind (·.samAccountName)),
      (candidate settings p (typedOf u upnSuffixes r) n suffixSam suffixAddresses).samAccountName = v) ∧
    ∀ v ∈ clean (r.overrides.bind (·.userPrincipalName)), unit '@' ∈ v →
      (candidate settings p (typedOf u upnSuffixes r) n suffixSam suffixAddresses).upn = v ∧
      (candidate settings p (typedOf u upnSuffixes r) n suffixSam suffixAddresses).mail = v := by
  constructor
  · intro v given
    rw [Option.mem_def] at given
    simp [candidate, accountNames, typedOf, typedNames, given]
  · intro v given whole
    rw [Option.mem_def] at given
    have split := typedUpn_whole whole
    simpa [candidate, accountNames, typedOf, typedNames, given] using split

/-- Every outcome's names are the pattern's at some suffix. -/
theorem Outcome.exists_candidate (outcome : Outcome u settings upnSuffixes held r p s held') :
    (∃ n sam addresses, s.names = candidate settings p (typedOf u upnSuffixes r) n sam addresses) ∧
      s.displayName = displayOf u upnSuffixes r p := by
  cases outcome with
  | blocked => exact ⟨⟨1, false, false, rfl⟩, rfl⟩
  | exhausted => exact ⟨⟨1, false, false, rfl⟩, rfl⟩
  | named names collisions placed _ found _ =>
    obtain ⟨n, sam, addresses, _, same⟩ := suffixed_candidate found
    exact ⟨⟨n, sam, addresses, same⟩, rfl⟩

/-- A suffix changes nothing of a typed name. -/
theorem candidate_of_typed {typed : TypedNames} {n : Nat} {suffixSam suffixAddresses : Bool}
    {a : NamingAttribute}
    (given : a ∉ freeAttributes typed) :
    valueOf (candidate settings p typed n suffixSam suffixAddresses) a =
      valueOf (candidate settings p typed 1 false false) a := by
  cases a with
  | samAccountName =>
    cases sam : typed.samAccountName with
    | none => simp [freeAttributes, sam] at given
    | some v => simp [candidate, accountNames, valueOf, sam]
  | userPrincipalName =>
    cases upn : typed.upn with
    | none => simp [freeAttributes, upn] at given
    | some v => simp [candidate, accountNames, valueOf, upn]
  | mail =>
    cases upn : typed.upn with
    | none => simp [freeAttributes, upn] at given
    | some v => simp [candidate, accountNames, valueOf, upn]

theorem candidate_of_address {typed : TypedNames} {n : Nat} {suffixSam : Bool} {a : NamingAttribute}
    (address : a ≠ .samAccountName) :
    valueOf (candidate settings p typed n suffixSam false) a =
      valueOf (candidate settings p typed 1 false false) a := by
  cases a with
  | samAccountName => exact absurd rfl address
  | userPrincipalName => rfl
  | mail => rfl

/-- Names that pass every check are held by nobody. -/
theorem suffixed_free (holds : held.Holds u taken before)
    (unblocked : Blocked (firstOf u settings upnSuffixes held r p) = false) {names : AccountNames}
    {collisions : List NamingDeviation}
    (found : suffixed u held settings p (typedOf u upnSuffixes r) = .ok (names, collisions))
    (a : NamingAttribute) :
    ¬IsTaken u taken before a (valueOf names a) := by
  have typedFree : ∀ a ∉ freeAttributes (typedOf u upnSuffixes r),
      ¬IsTaken u taken before a (valueOf (baseOf u settings upnSuffixes r p) a) := by
    intro a given isTaken
    have inside : a ∈ ALL_ATTRIBUTES.filter (· ∉ freeAttributes (typedOf u upnSuffixes r)) := by
      refine List.mem_filter.mpr ⟨?_, by simpa using given⟩
      cases a <;> simp [ALL_ATTRIBUTES]
    have clashing : clashesOf u held (baseOf u settings upnSuffixes r p)
        (ALL_ATTRIBUTES.filter (· ∉ freeAttributes (typedOf u upnSuffixes r))) ≠ [] :=
      (clashes_iff holds).mpr ⟨a, inside, isTaken⟩
    obtain ⟨c, clash⟩ := List.exists_mem_of_ne_nil _ clashing
    have refuses : Blocked (firstOf u settings upnSuffixes held r p) = true := by
      refine mem_blocked.mpr
        ⟨takenBy c.attr (valueOf (baseOf u settings upnSuffixes r p) c.attr) c.source, ?_, rfl⟩
      exact List.mem_append_right _ (List.mem_map.mpr ⟨c, clash, rfl⟩)
    rw [unblocked] at refuses
    cases refuses
  have bareFree : ∀ {attrs : List NamingAttribute} {names : AccountNames}, clashesOf u held names attrs = [] →
      ∀ a ∈ attrs, ¬IsTaken u taken before a (valueOf names a) := by
    intro attrs names clear a member
    exact (holds.names a _).mp (clashesOf_eq_nil.mp clear a member)
  by_cases given : a ∈ freeAttributes (typedOf u upnSuffixes r)
  · rcases suffixed_ok found with ⟨clear, rfl, _⟩ | ⟨_, n, _, _, rfl, clear, _⟩
    · exact bareFree clear a given
    · by_cases checked : a ∈ checkedOf (typedOf u upnSuffixes r)
        (clashesAtBase u held settings p (typedOf u upnSuffixes r))
      · exact bareFree clear a checked
      · -- an address left alone: it didn't clash, and takes no suffix
        simp only [mem_checkedOf, given, true_and, not_or] at checked
        obtain ⟨noAddress, address⟩ := checked
        have quiet := eq_false_of_ne_true noAddress
        rw [quiet, candidate_of_address address]
        intro isTaken
        exact noAddress ((addressesClash_iff holds).mpr
          ⟨a, List.mem_filter.mpr ⟨given, by simpa using address⟩, isTaken⟩)
  · have typed := typedFree a given
    rcases suffixed_ok found with ⟨_, rfl, _⟩ | ⟨_, n, _, _, rfl, _⟩
    · exact typed
    · rw [candidate_of_typed given]
      exact typed

/-- Of a search that ends or doesn't: an address clash, or the sAMAccountName's alone. -/
theorem addresses_or_alone (holds : held.Holds u taken before)
    (clashing : ClashesBare u taken settings upnSuffixes before r p (free u upnSuffixes r)) :
    let clashes := clashesAtBase u held settings p (typedOf u upnSuffixes r)
    let clashesOn := fun n => clashesOf u held (candidate settings p (typedOf u upnSuffixes r) n true
      (addressesClash clashes)) (checkedOf (typedOf u upnSuffixes r) clashes) ≠ []
    (ClashesBare u taken settings upnSuffixes before r p (freeAddresses u upnSuffixes r) ∧
      addressesClash clashes = true ∧
      ∀ n, clashesOn n ↔ ClashesAt u taken settings upnSuffixes before r p (free u upnSuffixes r) true n) ∨
    (¬ClashesBare u taken settings upnSuffixes before r p (freeAddresses u upnSuffixes r) ∧
      addressesClash clashes = false ∧
      ∀ n, clashesOn n ↔ ClashesAt u taken settings upnSuffixes before r p [.samAccountName] false n) := by
  intro clashes clashesOn
  have each := checked_clash_iff holds clashing
  by_cases addresses : addressesClash clashes = true
  · refine .inl ⟨(addressesClash_iff holds).mp addresses, addresses, fun n => ?_⟩
    exact (each n).trans (iff_of_eq (if_pos addresses))
  · refine .inr ⟨fun bare => addresses ((addressesClash_iff holds).mpr bare),
      eq_false_of_ne_true addresses, fun n => ?_⟩
    exact (each n).trans (iff_of_eq (if_neg addresses))

/-- The names the search for a suffix settles on. -/
theorem suffixed_least (holds : held.Holds u taken before) {names : AccountNames}
    {collisions : List NamingDeviation}
    (found : suffixed u held settings p (typedOf u upnSuffixes r) = .ok (names, collisions)) :
    (¬ClashesBare u taken settings upnSuffixes before r p (free u upnSuffixes r) ∧
      names = baseOf u settings upnSuffixes r p) ∨
    (ClashesBare u taken settings upnSuffixes before r p (freeAddresses u upnSuffixes r) ∧
      ∃ n, LeastSuffix (ClashesAt u taken settings upnSuffixes before r p (free u upnSuffixes r) true) n ∧
        names = candidate settings p (typedOf u upnSuffixes r) n true true) ∨
    (¬ClashesBare u taken settings upnSuffixes before r p (freeAddresses u upnSuffixes r) ∧
      ClashesBare u taken settings upnSuffixes before r p (free u upnSuffixes r) ∧
      ∃ n, LeastSuffix (ClashesAt u taken settings upnSuffixes before r p [.samAccountName] false) n ∧
        names = candidate settings p (typedOf u upnSuffixes r) n true false) := by
  rcases suffixed_ok found with ⟨clear, same, _⟩ | ⟨clashing, n, lower, upper, same, clear, least, _⟩
  · refine .inl ⟨?_, same⟩
    intro clashing
    exact (clashes_iff holds).mpr clashing clear
  · have bare := (clashes_iff holds).mp clashing
    rcases addresses_or_alone holds bare with ⟨address, clash, each⟩ | ⟨noAddress, clash, each⟩
    · refine .inr (.inl ⟨address, n, ⟨lower, upper, ?_, ?_⟩, by rw [same, clash]⟩)
      · exact fun at' => (each n).mpr at' clear
      · exact fun m from' below => (each m).mp (least m from' below)
    · refine .inr (.inr ⟨noAddress, bare, n, ⟨lower, upper, ?_, ?_⟩, by rw [same, clash]⟩)
      · exact fun at' => (each n).mpr at' clear
      · exact fun m from' below => (each m).mp (least m from' below)

/-- A search that ends without a suffix tried every one. -/
theorem suffixed_exhausted (holds : held.Holds u taken before) {unusable : NamingDeviation}
    (failed : suffixed u held settings p (typedOf u upnSuffixes r) = .error unusable) :
    ClashesBare u taken settings upnSuffixes before r p (freeAddresses u upnSuffixes r) ∧
      (∀ n, 2 ≤ n → n ≤ MAX_SUFFIX → ClashesAt u taken settings upnSuffixes before r p
        (free u upnSuffixes r) true n) ∨
    ¬ClashesBare u taken settings upnSuffixes before r p (freeAddresses u upnSuffixes r) ∧
      ClashesBare u taken settings upnSuffixes before r p (free u upnSuffixes r) ∧
      ∀ n, 2 ≤ n → n ≤ MAX_SUFFIX → ClashesAt u taken settings upnSuffixes before r p
      [.samAccountName] false n := by
  obtain ⟨clashing, all, _⟩ := suffixed_error failed
  have bare := (clashes_iff holds).mp clashing
  rcases addresses_or_alone holds bare with ⟨address, _, each⟩ | ⟨noAddress, _, each⟩
  · exact .inl ⟨address, fun n lower upper => (each n).mp (all n lower upper)⟩
  · exact .inr ⟨noAddress, bare, fun n lower upper => (each n).mp (all n lower upper)⟩

/-- A request either is refused, with the names its pattern gives, or takes names the
search settled on, and then nothing but its CN can block it. -/
theorem Outcome.refused_or_took (holds : held.Holds u taken before)
    (prepared : prepare u r.name settings.pattern = .ok p)
    (outcome : Outcome u settings upnSuffixes held r p s held') :
    (¬s.TookNames ∧ Blocked s.deviations = true ∧ s.names = baseOf u settings upnSuffixes r p ∧
      Refused u taken settings upnSuffixes before r p) ∨
    (s.TookNames ∧ Blocked (firstOf u settings upnSuffixes held r p) = false ∧
      (∃ names collisions, suffixed u held settings p (typedOf u upnSuffixes r) =
        .ok (names, collisions) ∧ s.names = names) ∧
      (Blocked s.deviations = false → ∀ ou ∈ r.ou, ¬CnIsTaken u taken before ⟨ou, s.cn⟩)) := by
  have other := notCn_firstOf upnSuffixes held prepared
  cases outcome with
  | blocked blocked =>
    obtain ⟨d, member, refuses⟩ := mem_blocked.mp blocked
    refine .inl ⟨not_took member refuses (other d member), blocked, rfl, ?_⟩
    obtain person | typed | isTaken := blocked_firstOf blocked holds
    · exact .inl person
    · exact .inr (.inl typed)
    · exact .inr (.inr (.inl isTaken))
  | exhausted unusable unblocked failed =>
    obtain ⟨_, _, refuses, other'⟩ := suffixed_error failed
    have member : unusable ∈ firstOf u settings upnSuffixes held r p ++ [unusable] :=
      List.mem_append_right _ List.mem_cons_self
    refine .inl ⟨not_took member refuses other', mem_blocked.mpr ⟨unusable, member, refuses⟩, rfl, ?_⟩
    exact .inr (.inr (.inr (suffixed_exhausted holds failed)))
  | named names collisions placed unblocked found at' =>
    have clear : Blocked collisions = false := by
      rcases suffixed_ok found with ⟨_, _, rfl⟩ | ⟨_, _, _, _, _, _, _, d, rfl, individual, _⟩
      · rfl
      · simp [Blocked, individual]
    subst at'
    refine .inr ⟨took_named unblocked clear placed_deviations, unblocked, ⟨names, collisions, found, rfl⟩, ?_⟩
    intro quiet ou given
    rw [blocked_named unblocked clear] at quiet
    exact (holds.cns _).mp (placeCn_free quiet ou given)

/-- Each outcome settles the request as the statement has it. -/
theorem Outcome.settled (holds : held.Holds u taken before)
    (prepared : prepare u r.name settings.pattern = .ok p)
    (outcome : Outcome u settings upnSuffixes held r p s held') :
    Settled u taken settings upnSuffixes before r s := by
  have same : ∀ {p'}, prepare u r.name settings.pattern = .ok p' → p' = p := by
    intro p' prepared'
    rw [prepared] at prepared'
    exact (Except.ok.inj prepared').symm
  obtain ⟨⟨n, sam, addresses, names⟩, display⟩ := outcome.exists_candidate
  obtain ⟨typedSam, typedUpn⟩ := typed_names (u := u) settings upnSuffixes r p n sam addresses
  rw [← names] at typedSam typedUpn
  have typedDisplayName : ∀ v ∈ clean (r.overrides.bind (·.displayName)), s.displayName = v := by
    intro v given
    rw [Option.mem_def] at given
    simp [display, displayOf, typedOf, typedNames, given]
  rcases outcome.refused_or_took holds prepared with
    ⟨kept, blocked, bare, refused⟩ | ⟨took, unblocked, ⟨found, collisions, settles, same'⟩, placed⟩
  · have notQuiet : Blocked s.deviations ≠ false := by simp [blocked]
    exact {
      distinct := fun quiet => absurd quiet notQuiet
      placed := fun quiet => absurd quiet notQuiet
      typedSam, typedUpn, typedDisplayName
      bare := fun _ _ took => absurd took kept
      together := fun _ _ took => absurd took kept
      alone := fun _ _ took => absurd took kept
      refused := fun p' prepared' _ => by
        rw [same prepared']
        exact ⟨bare, refused⟩ }
  · have least := suffixed_least holds settles
    rw [← same'] at least
    refine {
      distinct := fun _ a => ?_
      placed, typedSam, typedUpn, typedDisplayName
      bare := fun p' prepared' _ quiet => ?_
      together := fun p' prepared' _ address => ?_
      alone := fun p' prepared' _ noAddress clashing => ?_
      refused := fun _ _ kept => absurd took kept }
    · rw [same']
      exact suffixed_free holds unblocked settles a
    · rw [same prepared'] at quiet ⊢
      rcases least with ⟨_, base⟩ | ⟨⟨a, member, isTaken⟩, _⟩ | ⟨_, clashing, _⟩
      · exact base
      · exact absurd ⟨a, List.mem_of_mem_filter member, isTaken⟩ quiet
      · exact absurd clashing quiet
    · rw [same prepared'] at address ⊢
      rcases least with ⟨quiet, _⟩ | ⟨_, least⟩ | ⟨noAddress, _⟩
      · obtain ⟨a, member, isTaken⟩ := address
        exact absurd ⟨a, List.mem_of_mem_filter member, isTaken⟩ quiet
      · exact least
      · exact absurd address noAddress
    · rw [same prepared'] at noAddress clashing ⊢
      rcases least with ⟨quiet, _⟩ | ⟨address, _⟩ | ⟨_, _, least⟩
      · exact absurd clashing quiet
      · exact absurd address noAddress
      · exact least

end settled

/-- Of two suggestions that aren't blocked, no two names are one. -/
def Distinct (u : Platform) (x y : NamingRequest × NamingSuggestion) : Prop :=
  Blocked x.2.deviations = false → Blocked y.2.deviations = false →
    (∀ a, u.lower (valueOf x.2.names a) ≠ u.lower (valueOf y.2.names a)) ∧
    ∀ ou ∈ x.1.ou, ∀ ou' ∈ y.1.ou, ¬SameCn u ⟨ou, x.2.cn⟩ ⟨ou', y.2.cn⟩

theorem took_of_unblocked {s : NamingSuggestion} (quiet : Blocked s.deviations = false) : s.TookNames := by
  intro d member refuses
  have blocked := mem_blocked.mpr ⟨d, member, refuses⟩
  rw [quiet] at blocked
  cases blocked

theorem Settled.distinct_before {settings : NamingSettings} {upnSuffixes : Option (List Text)} {before : Done}
    {r : NamingRequest} {s : NamingSuggestion} (settled : Settled u taken settings upnSuffixes before r s)
    {x : NamingRequest × NamingSuggestion} (earlier : x ∈ before) : Distinct u x (r, s) := by
  intro quiet quiet'
  have took := took_of_unblocked quiet
  constructor
  · intro a same
    exact settled.distinct quiet' a (.inr ⟨x, earlier, took, same⟩)
  · intro ou given ou' given' same
    exact settled.placed quiet' ou' given' (.inr ⟨x, earlier, took, ou, given, same⟩)

theorem exists_prepared (u : Platform) (name : PersonName) {pattern : Text}
    (valid : namingPatternProblem pattern = none) :
    ∃ p, prepare u name pattern = .ok p := by
  obtain ⟨segments, parsed⟩ := exists_segments valid
  unfold prepare
  rw [parsed]
  exact ⟨_, rfl⟩

theorem exists_resolved (u : Platform) {settings : NamingSettings} (upnSuffixes : Option (List Text))
    (valid : namingPatternProblem settings.pattern = none) (held : Held) (r : NamingRequest) :
    ∃ out, resolveName u settings upnSuffixes held r = .ok out := by
  obtain ⟨p, prepared⟩ := exists_prepared u r.name valid
  unfold resolveName
  simp only [prepared, bind, Except.bind, pure, Except.pure]
  split
  · exact ⟨_, rfl⟩
  · split
    · exact ⟨_, rfl⟩
    · exact ⟨_, rfl⟩

/-- Each suggestion is the outcome of its request, with what the directory and the ones
before it hold. -/
theorem exists_outcome_at {settings : NamingSettings} {upnSuffixes : Option (List Text)}
    {requests : List NamingRequest}
    {suggestions : List NamingSuggestion}
    (ran : resolveNames u requests settings taken upnSuffixes = .ok suggestions)
    {before rest : Done} {r : NamingRequest} {s : NamingSuggestion}
    (split : requests.zip suggestions = before ++ (r, s) :: rest) :
    ∃ held held' p, held.Holds u taken before ∧ prepare u r.name settings.pattern = .ok p ∧
      Outcome u settings upnSuffixes held r p s held' := by
  have leaves : ∀ held r s held', resolveName u settings upnSuffixes held r = .ok (s, held') →
    held' = held.leave u r s := by
    intro held r s held' resolved
    obtain ⟨p, prepared, outcome⟩ := exists_outcome resolved
    exact outcome.leaves prepared
  obtain ⟨held', resolved⟩ := Accumulate.exists_step leaves ran split
  obtain ⟨p, prepared, outcome⟩ := exists_outcome resolved
  exact ⟨_, held', p, Held.holds_after before, prepared, outcome⟩

/-- Every suggestion is settled against the directory and the ones before it, and so no
two that aren't blocked share a name. -/
theorem resolveNames_unique (u : Platform) (requests : List NamingRequest)
    (settings : NamingSettings) (taken : TakenNames)
    (upnSuffixes : Option (List Text)) (valid : namingPatternProblem settings.pattern = none) :
    ∃ suggestions, resolveNames u requests settings taken upnSuffixes = .ok suggestions ∧
      suggestions.length = requests.length ∧ (requests.zip suggestions).Pairwise (Distinct u) ∧
      ∀ before r s rest, requests.zip suggestions = before ++ (r, s) :: rest →
        Settled u taken settings upnSuffixes before r s := by
  obtain ⟨suggestions, ran⟩ := Accumulate.exists_outputs (exists_resolved u upnSuffixes valid)
    (.new u taken) requests
  have settled : ∀ before r s rest, requests.zip suggestions = before ++ (r, s) :: rest →
      Settled u taken settings upnSuffixes before r s := by
    intro before r s rest split
    obtain ⟨held, held', p, holds, prepared, outcome⟩ := exists_outcome_at ran split
    exact outcome.settled holds prepared
  refine ⟨suggestions, ran, Accumulate.outputs_length ran, ?_, settled⟩
  refine Accumulate.pairwise_of_before fun before x rest split y earlier => ?_
  exact (settled before x.1 x.2 rest split).distinct_before earlier

def smith (overrides : Option NameOverrides) : NamingRequest where
  name := { first := text "John", last := text "Smith", middleInitial := none, preferredFirst := none }
  ouDn := some (text "OU=Staff,DC=example,DC=com")
  overrides := overrides

def firstLast : NamingSettings where
  pattern := text "\x7bfirst\x7d.\x7blast\x7d"
  upnSuffix := text "example.com"

def smithTaken : TakenNames where
  samAccountNames := [text "smith"]
  userPrincipalNames := [text "John.Smith@example.com"]
  mailAddresses := []
  cns := [⟨text "ou=staff, dc=example,dc=com", text "john smith"⟩]

theorem resolveNames_unique_smiths : ∃ suggestions,
    resolveNames .ascii [smith none, smith none] firstLast smithTaken none = .ok suggestions ∧
      suggestions.length = 2 ∧ ([smith none, smith none].zip suggestions).Pairwise (Distinct .ascii) ∧
      ∀ before r s rest, [smith none, smith none].zip suggestions = before ++ (r, s) :: rest →
        Settled .ascii smithTaken firstLast none before r s :=
  resolveNames_unique .ascii [smith none, smith none] firstLast smithTaken none (by decide)

/-- A typed name comes back without the spaces around it, a typed UPN without an `@` with
one, and a typed sAMAccountName stays as it is when the addresses take a suffix. -/
theorem typed_not_as_typed :
    (resolveNames .ascii [smith (some ⟨some (text " jsmith "), none, none⟩)] firstLast
      smithTaken none).toOption.map
        (·.map fun s => (s.samAccountName, s.upn)) = some [(text "jsmith", text "john.smith2@example.com")] ∧
      (resolveNames .ascii [smith (some ⟨none, some (text "john"), none⟩)] firstLast
        smithTaken none).toOption.map
        (·.map fun s => (s.upn, Blocked s.deviations)) = some [(text "john@john", true)] ∧
      text "jsmith" ≠ text " jsmith " ∧ text "john@john" ≠ text "john" := by
  decide

end OpenAduc.Naming
