import Mathlib.Data.List.Find
import OpenAduc.Naming.Unique
import OpenAduc.Naming.Username

namespace OpenAduc.Naming

/-- Shortens the text until the value starts with it; each turn takes a unit off. -/
def startOf (value : Text) : Nat → Text → Text
  | 0, start => start
  | fuel + 1, start => if start.isPrefixOf value then start else startOf value fuel start.dropLast

def commonPrefix (values : List Text) : Text :=
  values.foldl (fun start v => startOf v start.length start) (values.head?.getD [])

/-- What to look up in the directory: sAMAccountNames and local parts starting with these,
and in each OU these CNs, and the bracketed ones starting with these. -/
structure NamingLookups where
  samAccountNamePrefixes : List Text
  upnLocalPrefixes : List Text
  cns : List OuName
  cnPrefixes : List OuName

def addNew (t : Text) (set : List Text) : List Text := if set.contains t then set else set ++ [t]

section
variable (u : Platform)

/-- A map keyed by `cnKey`: a key it holds gets the new name in place. -/
def setCn (name : OuName) (map : List OuName) : List OuName :=
  if map.any (cnKey u · = cnKey u name) then map.map fun m => if cnKey u m = cnKey u name then name else m
  else map ++ [name]

/-- A bracketed CN's tail is " (" and a sAMAccountName and ")". -/
def longestTail : Nat := NAME_LIMITS .samAccountName + 3

def budgets (p : Prepared) (limit : Nat) : List Text := [0, 1, 2, 3].map fun digits => fit p (limit - digits)

/-- What one name is looked up by: as typed, or by what every suffixed form starts with. -/
def lookupOf (typed : Option Text) (p : Prepared) (limit : Nat) : Option Text :=
  match typed with
  | some value => some value
  | none => if p.username ≠ [] then some (commonPrefix (budgets p limit)) else none

def bracketedPrefix (displayName : Text) : Text :=
  if displayName.length + longestTail ≤ NAME_LIMITS .cn then displayName ++ text " ("
  else trimEnd (displayName.take (NAME_LIMITS .cn - longestTail))

def lookUp (settings : NamingSettings) (lookups : NamingLookups) (request : NamingRequest) :
    Except Text NamingLookups := do
  let p ← prepare u request.name settings.pattern
  let typed := typedNames u request.overrides none
  let displayName := typed.displayName.getD p.displayName
  return {
    samAccountNamePrefixes := match lookupOf typed.samAccountName p (NAME_LIMITS .samAccountName) with
      | none => lookups.samAccountNamePrefixes
      | some t => addNew t lookups.samAccountNamePrefixes
    upnLocalPrefixes := match lookupOf (typed.upn.map (·.localPart)) p (NAME_LIMITS .userPrincipalName) with
      | none => lookups.upnLocalPrefixes
      | some t => addNew t lookups.upnLocalPrefixes
    cns := match request.ou with
      | none => lookups.cns
      | some ouDn => setCn u ⟨ouDn, cutText displayName (NAME_LIMITS .cn) []⟩ lookups.cns
    cnPrefixes := match request.ou with
      | none => lookups.cnPrefixes
      | some ouDn => setCn u ⟨ouDn, bracketedPrefix displayName⟩ lookups.cnPrefixes }

def namingLookups (requests : List NamingRequest) (settings : NamingSettings) : Except Text NamingLookups :=
  requests.foldlM (lookUp u settings) ⟨[], [], [], []⟩

/-- A caseless comparison, as a directory makes it: texts are equal, or one starts with
the other, when what they fold to does. Lowercase changes nothing it sees; what a text
starts with, it folds to the start of; and neither an `@` nor a line break is made or lost. -/
structure CaseFold where
  fold : Text → Text
  fold_lower : ∀ t, fold (u.lower t) = fold t
  fold_start : ∀ a b, fold a <+: fold (a ++ b)
  fold_at : ∀ a b, fold (a ++ unit '@' :: b) = fold a ++ unit '@' :: fold b
  fold_line : ∀ a b, fold (a ++ 10 :: b) = fold a ++ 10 :: fold b
  at_of_fold : ∀ t, unit '@' ∈ fold t → unit '@' ∈ t

end

namespace NamingLookups
variable {u : Platform} (f : CaseFold u) (lookups : NamingLookups)

def starts (start value : Text) : Bool := (f.fold start).isPrefixOf (f.fold value)

/-- The values of each attribute the lookups ask for. -/
def asks : NamingAttribute → Text → Bool
  | .samAccountName, value => lookups.samAccountNamePrefixes.any fun start => starts f start value
  | .userPrincipalName, value | .mail, value =>
    lookups.upnLocalPrefixes.any fun start => starts f start (typedUpn value).localPart

/-- The CNs they ask for: those listed, and those starting with a listed prefix, in its OU. -/
def asksCn (name : OuName) : Bool :=
  (lookups.cns.any fun listed => f.fold (cnKey u listed) = f.fold (cnKey u name)) ||
    lookups.cnPrefixes.any fun start => starts f (cnKey u start) (cnKey u name)

/-- What a directory gives back when only the lookups are asked for. -/
def cut (taken : TakenNames) : TakenNames where
  samAccountNames := taken.samAccountNames.filter (lookups.asks f .samAccountName)
  userPrincipalNames := taken.userPrincipalNames.filter (lookups.asks f .userPrincipalName)
  mailAddresses := taken.mailAddresses.filter (lookups.asks f .mail)
  cns := taken.cns.filter (lookups.asksCn f)

end NamingLookups

theorem mem_addNew {t s : Text} {set : List Text} (member : s ∈ set) : s ∈ addNew t set := by
  unfold addNew
  split
  · exact member
  · exact List.mem_append_left _ member

theorem mem_addNew_self {t : Text} {set : List Text} : t ∈ addNew t set := by
  unfold addNew
  split
  next held => exact List.contains_iff_mem.mp held
  next => exact List.mem_append_right _ List.mem_cons_self

variable {u : Platform}

theorem key_setCn {name : OuName} {key : Text} {map : List OuName} (held : ∃ m ∈ map, cnKey u m = key) :
    ∃ m ∈ setCn u name map, cnKey u m = key := by
  obtain ⟨m, member, same⟩ := held
  unfold setCn
  split
  · by_cases replaced : cnKey u m = cnKey u name
    · exact ⟨name, List.mem_map.mpr ⟨m, member, if_pos replaced⟩, replaced ▸ same⟩
    · exact ⟨m, List.mem_map.mpr ⟨m, member, if_neg replaced⟩, same⟩
  · exact ⟨m, List.mem_append_left _ member, same⟩

theorem key_setCn_self {name : OuName} {map : List OuName} : ∃ m ∈ setCn u name map,
    cnKey u m = cnKey u name := by
  unfold setCn
  split
  next held =>
    obtain ⟨m, member, same⟩ := List.any_eq_true.mp held
    exact ⟨name, List.mem_map.mpr ⟨m, member, if_pos (of_decide_eq_true same)⟩, rfl⟩
  next => exact ⟨name, List.mem_append_right _ List.mem_cons_self, rfl⟩

/-- Nothing asked for is dropped. -/
structure Extends (u : Platform) (a b : NamingLookups) : Prop where
  sam : ∀ t ∈ a.samAccountNamePrefixes, t ∈ b.samAccountNamePrefixes
  upn : ∀ t ∈ a.upnLocalPrefixes, t ∈ b.upnLocalPrefixes
  cns : ∀ key, (∃ m ∈ a.cns, cnKey u m = key) → ∃ m ∈ b.cns, cnKey u m = key
  cnPrefixes : ∀ key, (∃ m ∈ a.cnPrefixes, cnKey u m = key) → ∃ m ∈ b.cnPrefixes, cnKey u m = key

/-- The lookups ask for all that a request's names are looked up by. -/
structure Covers (u : Platform) (settings : NamingSettings) (lookups : NamingLookups)
    (r : NamingRequest) (p : Prepared) :
    Prop where
  sam : ∀ t ∈ lookupOf (typedNames u r.overrides none).samAccountName p (NAME_LIMITS .samAccountName),
    t ∈ lookups.samAccountNamePrefixes
  upn : ∀ t ∈ lookupOf ((typedNames u r.overrides none).upn.map (·.localPart)) p
    (NAME_LIMITS .userPrincipalName),
    t ∈ lookups.upnLocalPrefixes
  cns : ∀ ou ∈ r.ou, ∃ m ∈ lookups.cns, cnKey u m =
    cnKey u ⟨ou, cutText ((typedNames u r.overrides none).displayName.getD p.displayName)
      (NAME_LIMITS .cn) []⟩
  cnPrefixes : ∀ ou ∈ r.ou, ∃ m ∈ lookups.cnPrefixes, cnKey u m =
    cnKey u ⟨ou, bracketedPrefix ((typedNames u r.overrides none).displayName.getD p.displayName)⟩

section collect
variable {settings : NamingSettings} {lookups after : NamingLookups} {r : NamingRequest}

theorem Extends.refl : Extends u lookups lookups := ⟨fun _ h => h, fun _ h => h, fun _ h => h, fun _ h => h⟩

theorem Extends.trans {a b c : NamingLookups} (first : Extends u a b) (second : Extends u b c) :
    Extends u a c where
  sam t h := second.sam t (first.sam t h)
  upn t h := second.upn t (first.upn t h)
  cns key h := second.cns key (first.cns key h)
  cnPrefixes key h := second.cnPrefixes key (first.cnPrefixes key h)

theorem Covers.mono {p : Prepared} (covers : Covers u settings lookups r p) (more : Extends u lookups after) :
    Covers u settings after r p where
  sam t h := more.sam t (covers.sam t h)
  upn t h := more.upn t (covers.upn t h)
  cns ou h := more.cns _ (covers.cns ou h)
  cnPrefixes ou h := more.cnPrefixes _ (covers.cnPrefixes ou h)

/-- A request's lookups cover every name it may take. -/
theorem lookUp_ok (looked : lookUp u settings lookups r = .ok after) :
    Extends u lookups after ∧ ∃ p, prepare u r.name settings.pattern = .ok p ∧
      Covers u settings after r p := by
  unfold lookUp at looked
  cases prepared : prepare u r.name settings.pattern with
  | error problem => simp [prepared, bind, Except.bind] at looked
  | ok p =>
    simp only [prepared, bind, Except.bind, pure, Except.pure, Except.ok.injEq] at looked
    subst looked
    refine ⟨⟨?_, ?_, ?_, ?_⟩, p, rfl, ⟨?_, ?_, ?_, ?_⟩⟩
    · intro t member
      dsimp only
      split
      · exact member
      · exact mem_addNew member
    · intro t member
      dsimp only
      split
      · exact member
      · exact mem_addNew member
    · intro key held
      dsimp only
      split
      · exact held
      · exact key_setCn held
    · intro key held
      dsimp only
      split
      · exact held
      · exact key_setCn held
    · intro t asked
      rw [Option.mem_def] at asked
      simp only [asked]
      exact mem_addNew_self
    · intro t asked
      rw [Option.mem_def] at asked
      simp only [asked]
      exact mem_addNew_self
    · intro ou given
      rw [Option.mem_def] at given
      simp only [given]
      exact key_setCn_self
    · intro ou given
      rw [Option.mem_def] at given
      simp only [given]
      exact key_setCn_self

/-- The lookups of a list of requests cover each of them. -/
theorem lookUp_all {requests : List NamingRequest}
    (looked : requests.foldlM (lookUp u settings) lookups = .ok after) :
    Extends u lookups after ∧
      ∀ r ∈ requests, ∃ p, prepare u r.name settings.pattern = .ok p ∧ Covers u settings after r p := by
  induction requests generalizing lookups with
  | nil =>
    cases looked
    exact ⟨.refl, by simp⟩
  | cons r rest ih =>
    rw [List.foldlM_cons] at looked
    cases first : lookUp u settings lookups r with
    | error problem => simp [first, bind, Except.bind] at looked
    | ok middle =>
      simp only [first, bind, Except.bind] at looked
      obtain ⟨more, p, prepared, covers⟩ := lookUp_ok first
      obtain ⟨more', each⟩ := ih looked
      refine ⟨more.trans more', fun q member => ?_⟩
      rcases List.mem_cons.mp member with rfl | member
      · exact ⟨p, prepared, covers.mono more'⟩
      · exact each q member

theorem exists_lookups (valid : namingPatternProblem settings.pattern = none) (requests : List NamingRequest)
    (lookups : NamingLookups) : ∃ after, requests.foldlM (lookUp u settings) lookups = .ok after := by
  induction requests generalizing lookups with
  | nil => exact ⟨lookups, rfl⟩
  | cons r rest ih =>
    obtain ⟨p, prepared⟩ := exists_prepared u r.name valid
    rw [List.foldlM_cons]
    unfold lookUp
    simp only [prepared, bind, Except.bind, pure, Except.pure]
    exact ih _

end collect

theorem startOf_shorter {value start : Text} {fuel : Nat} : startOf value fuel start <+: start := by
  induction fuel generalizing start with
  | zero => exact List.prefix_rfl
  | succ fuel ih =>
    unfold startOf
    split
    · exact List.prefix_rfl
    · exact ih.trans (List.dropLast_prefix start)

/-- What is looked up is a start of the value. -/
theorem startOf_of_value {value start : Text} {fuel : Nat} (enough : start.length ≤ fuel) :
    startOf value fuel start <+: value := by
  induction fuel generalizing start with
  | zero =>
    have empty : start = [] := List.eq_nil_of_length_eq_zero (Nat.le_zero.mp enough)
    subst empty
    exact List.nil_prefix
  | succ fuel ih =>
    unfold startOf
    split
    next starts => exact List.isPrefixOf_iff_prefix.mp starts
    next =>
      refine ih ?_
      rw [List.length_dropLast]
      omega

theorem foldl_startOf (values : List Text) (start : Text) :
    values.foldl (fun start v => startOf v start.length start) start <+: start ∧
      ∀ v ∈ values, values.foldl (fun start v => startOf v start.length start) start <+: v := by
  induction values generalizing start with
  | nil => exact ⟨List.prefix_rfl, by simp⟩
  | cons v rest ih =>
    obtain ⟨shorter, each⟩ := ih (startOf v start.length start)
    refine ⟨shorter.trans startOf_shorter, fun w member => ?_⟩
    rcases List.mem_cons.mp member with rfl | member
    · exact shorter.trans (startOf_of_value (Nat.le_refl _))
    · exact each w member

theorem commonPrefix_start {values : List Text} {v : Text} (member : v ∈ values) :
    commonPrefix values <+: v :=
  (foldl_startOf values _).2 v member

/-- Every suffixed form of a name starts with what it is looked up by. -/
theorem lookupOf_start (typed : Option Text) (p : Prepared) (limit : Nat) {n : Nat}
    (named : typed = none → p.username ≠ [])
    (small : n ≤ MAX_SUFFIX) :
    ∃ t, lookupOf typed p limit = some t ∧
      t <+: typed.getD (fit p (limit - (tailOf n).length) ++ tailOf n) := by
  cases typed with
  | some value => exact ⟨value, rfl, List.prefix_rfl⟩
  | none =>
    refine ⟨commonPrefix (budgets p limit), by simp [lookupOf, named rfl], ?_⟩
    have short := tailOf_length small
    have budget : fit p (limit - (tailOf n).length) ∈ budgets p limit := by
      refine List.mem_map.mpr ⟨(tailOf n).length, ?_, rfl⟩
      simp only [List.mem_cons, List.not_mem_nil, or_false]
      omega
    exact (commonPrefix_start budget).trans (List.prefix_append _ _)

/-- Behind a character's last place there is none. -/
theorem lastIndexOf_not_mem {c : UInt16} {t : Text} {i : Nat} (found : lastIndexOf c t = some i) :
    c ∉ t.drop (i + 1) := by
  induction t generalizing i with
  | nil => cases found
  | cons x rest ih =>
    cases inner : lastIndexOf c rest with
    | some j =>
      simp only [lastIndexOf, inner, Option.some.injEq] at found
      subst found
      exact ih inner
    | none =>
      intro member
      rw [List.drop_succ_cons] at member
      obtain ⟨j, later⟩ := exists_lastIndexOf (List.mem_of_mem_drop member)
      rw [inner] at later
      cases later

/-- An address starts with the part before any of its `@`s. -/
theorem start_localPart {a b : Text} : a <+: (typedUpn (a ++ unit '@' :: b)).localPart := by
  obtain ⟨i, found⟩ := exists_lastIndexOf (c := unit '@') (t := a ++ unit '@' :: b) (by simp)
  have last := lastIndexOf_not_mem found
  have far : a.length ≤ i := by
    by_contra near
    apply last
    rw [List.drop_append_of_le_length (by omega)]
    simp
  unfold typedUpn
  rw [found]
  have length : a.length ≤ ((a ++ unit '@' :: b).take i).length := by
    rw [List.length_take, List.length_append]
    omega
  exact List.prefix_of_prefix_length_le (List.prefix_append _ _) (List.take_prefix _ _) length

section fold
variable (f : CaseFold u)

theorem fold_start_of {a b : Text} (start : a <+: b) : f.fold a <+: f.fold b := by
  obtain ⟨rest, rfl⟩ := start
  exact f.fold_start a rest

/-- Texts cut at their last such character are cut alike. -/
theorem split_at_last {c : UInt16} {a b a' b' : Text} (none_left : c ∉ b) (none_left' : c ∉ b')
    (same : a ++ c :: b = a' ++ c :: b') : a = a' := by
  induction a generalizing a' with
  | nil =>
    cases a' with
    | nil => rfl
    | cons x rest =>
      simp only [List.nil_append, List.cons_append, List.cons.injEq] at same
      exact absurd (same.2 ▸ (by simp : c ∈ rest ++ c :: b')) none_left
  | cons x rest ih =>
    cases a' with
    | nil =>
      simp only [List.nil_append, List.cons_append, List.cons.injEq] at same
      exact absurd (same.2 ▸ (by simp : c ∈ rest ++ c :: b)) none_left'
    | cons y rest' =>
      simp only [List.cons_append, List.cons.injEq] at same
      rw [same.1, ih same.2]

/-- Addresses the directory takes for one have local parts it takes for one. -/
theorem fold_localPart {v d : Text} (same : f.fold d = f.fold v) :
    f.fold (typedUpn d).localPart = f.fold (typedUpn v).localPart := by
  have whole : ∀ {t : Text}, unit '@' ∈ t → ∃ a b, (typedUpn t).localPart = a ∧
    t = a ++ unit '@' :: b ∧ unit '@' ∉ b := by
    intro t member
    obtain ⟨i, found⟩ := exists_lastIndexOf member
    refine ⟨t.take i, t.drop (i + 1), by simp [typedUpn, found], ?_, lastIndexOf_not_mem found⟩
    simpa using (lastIndexOf_split found).symm
  have absent : ∀ {t : Text}, unit '@' ∉ t → (typedUpn t).localPart = t := by
    intro t none_left
    unfold typedUpn
    cases found : lastIndexOf (unit '@') t with
    | none => rfl
    | some i =>
      refine absurd ?_ none_left
      rw [← lastIndexOf_split found]
      simp
  have at_iff : ∀ {t : Text}, unit '@' ∈ f.fold t ↔ unit '@' ∈ t := by
    intro t
    refine ⟨f.at_of_fold t, fun member => ?_⟩
    obtain ⟨a, b, _, split, _⟩ := whole member
    rw [split, f.fold_at]
    simp
  by_cases has : unit '@' ∈ v
  · have has' : unit '@' ∈ d := at_iff.mp (same ▸ at_iff.mpr has)
    obtain ⟨a, b, localPart, split, none_left⟩ := whole has
    obtain ⟨a', b', localPart', split', none_left'⟩ := whole has'
    rw [localPart, localPart']
    rw [split, split', f.fold_at, f.fold_at] at same
    exact split_at_last (fun inside => none_left' (f.at_of_fold _ inside))
      (fun inside => none_left (f.at_of_fold _ inside)) same
  · have has' : unit '@' ∉ d := fun member => has (at_iff.mp (same ▸ at_iff.mpr member))
    rw [absent has, absent has', same]

theorem fold_cnKey {name : OuName} :
    f.fold (cnKey u name) = f.fold (dnKey u name.ouDn) ++ 10 :: f.fold name.cn := by
  unfold cnKey
  rw [List.append_assoc, List.singleton_append, f.fold_line, f.fold_lower]

end fold

/-- A name with the username in brackets starts with what is looked up for it. -/
theorem bracketed_start (displayName : Text) {sam : Text} (short : sam.length ≤ NAME_LIMITS .samAccountName) :
    bracketedPrefix displayName <+: cutText displayName (NAME_LIMITS .cn) (text " (" ++ sam ++ text ")") := by
  have tail : (text " (" ++ sam ++ text ")").length = sam.length + 3 := by
    have opens : (text " (").length = 2 := by decide
    have closes : (text ")").length = 1 := by decide
    rw [List.length_append, List.length_append, opens, closes]
    omega
  have longest : longestTail = 23 := rfl
  have limit : NAME_LIMITS .cn = 64 := rfl
  have most : sam.length ≤ 20 := short
  unfold bracketedPrefix cutText
  rw [tail, longest, limit]
  by_cases fits : displayName.length + 23 ≤ 64
  · rw [if_pos fits, if_pos (by omega), List.append_assoc]
    exact (List.prefix_append_right_inj _).mpr (List.prefix_append _ _)
  · rw [if_neg fits]
    have start : trimEnd (displayName.take (64 - 23)) <+: displayName.take (64 - 23) :=
      List.rdropWhile_prefix _ _
    split
    · exact (start.trans (List.take_prefix _ _)).trans (List.prefix_append _ _)
    · refine List.IsPrefix.trans ?_ (List.prefix_append _ _)
      have cut : (((64 : Nat) : Int) - ((sam.length + 3 : Nat) : Int)) =
        ((61 - sam.length : Nat) : Int) := by omega
      rw [cut, sliceTo, if_pos (by omega)]
      refine Runs.rdropWhile_mono ?_
      exact List.take_prefix_take_left (by show 41 ≤ 61 - sam.length; omega)

section agree
variable (f : CaseFold u) (lookups : NamingLookups)

/-- What is asked for is held alike. -/
structure Agree (held held' : Held) : Prop where
  names : ∀ a value, lookups.asks f a value = true → (held.of a).holder u value = (held'.of a).holder u value
  cns : ∀ name, lookups.asksCn f name = true → held.cns.holder u (cnKey u name) =
    held'.cns.holder u (cnKey u name)

variable {f} {lookups}

theorem asks_congr {a : NamingAttribute} {v d : Text} (same : f.fold d = f.fold v) :
    lookups.asks f a d = lookups.asks f a v := by
  have localPart := fold_localPart f same
  cases a <;> simp [NamingLookups.asks, NamingLookups.starts, same, localPart]

theorem fold_of_lower {v d : Text} (same : u.lower d = u.lower v) : f.fold d = f.fold v := by
  rw [← f.fold_lower d, same, f.fold_lower]

theorem asksCn_congr {name other : OuName} (same : f.fold (cnKey u other) = f.fold (cnKey u name)) :
    lookups.asksCn f other = lookups.asksCn f name := by
  simp [NamingLookups.asksCn, NamingLookups.starts, same]

theorem NameSet.holder_new {values : List Text} {value : Text} :
    (NameSet.new u values).holder u value = if u.lower value ∈ values.map u.lower then
      some .directory else none := by
  simp [NameSet.holder, NameSet.new]

/-- A directory cut to what is looked up agrees with the whole one. -/
theorem agree_new {taken : TakenNames} : Agree f lookups (.new u taken) (.new u (lookups.cut f taken)) := by
  have kept : ∀ (values : List Text) (asked : Text → Bool) (value : Text),
      (∀ d, u.lower d = u.lower value → asked d = true) →
      (u.lower value ∈ values.map u.lower ↔ u.lower value ∈ (values.filter asked).map u.lower) := by
    intro values asked value all
    simp only [List.mem_map, List.mem_filter]
    constructor
    · rintro ⟨d, member, same⟩
      exact ⟨d, ⟨member, all d same⟩, same⟩
    · rintro ⟨d, ⟨member, _⟩, same⟩
      exact ⟨d, member, same⟩
  constructor
  · intro a value asked
    have all : ∀ d, u.lower d = u.lower value → lookups.asks f a d = true := by
      intro d same
      rw [asks_congr (fold_of_lower same), asked]
    cases a
    · exact NameSet.holder_new.trans ((if_congr (kept _ _ _ all) rfl rfl).trans NameSet.holder_new.symm)
    · exact NameSet.holder_new.trans ((if_congr (kept _ _ _ all) rfl rfl).trans NameSet.holder_new.symm)
    · exact NameSet.holder_new.trans ((if_congr (kept _ _ _ all) rfl rfl).trans NameSet.holder_new.symm)
  · intro name asked
    have keys : u.lower (cnKey u name) ∈ (taken.cns.map (cnKey u)).map u.lower ↔
        u.lower (cnKey u name) ∈ ((taken.cns.filter (lookups.asksCn f)).map (cnKey u)).map u.lower := by
      simp only [List.map_map, List.mem_map, List.mem_filter, Function.comp_apply]
      constructor
      · rintro ⟨d, member, same⟩
        exact ⟨d, ⟨member, by rw [asksCn_congr (fold_of_lower same), asked]⟩, same⟩
      · rintro ⟨d, ⟨member, _⟩, same⟩
        exact ⟨d, member, same⟩
    exact NameSet.holder_new.trans ((if_congr keys rfl rfl).trans NameSet.holder_new.symm)

theorem NameSet.holder_claim_eq {names : NameSet} {claimed value : Text} :
    (names.claim u claimed).holder u value =
      (names.holder u value).or (if u.lower value = u.lower claimed then some .batch else none) := by
  unfold NameSet.holder NameSet.claim
  by_cases inDirectory : u.lower value ∈ names.directory
  · simp [inDirectory]
  · by_cases inBatch : u.lower value ∈ names.batch
    · simp [inDirectory, inBatch]
    · simp [inDirectory, inBatch]

variable {held held' : Held}

theorem Agree.claim (agree : Agree f lookups held held') (names : AccountNames) :
    Agree f lookups (held.claim u names) (held'.claim u names) where
  names a value asked := by
    rw [Held.of_claim, Held.of_claim, NameSet.holder_claim_eq, NameSet.holder_claim_eq,
      agree.names a value asked]
  cns name asked := agree.cns name asked

theorem Agree.claimCn (agree : Agree f lookups held held') (name : OuName) :
    Agree f lookups (held.claimCn u name) (held'.claimCn u name) where
  names a value asked := by
    rw [Held.of_claimCn, Held.of_claimCn]
    exact agree.names a value asked
  cns other asked := by
    rw [Held.cns_claimCn, Held.cns_claimCn, NameSet.holder_claim_eq, NameSet.holder_claim_eq,
      agree.cns other asked]

theorem Agree.clashesOf_eq (agree : Agree f lookups held held') {names : AccountNames}
    {attrs : List NamingAttribute}
    (asked : ∀ a ∈ attrs, lookups.asks f a (valueOf names a) = true) :
    clashesOf u held names attrs = clashesOf u held' names attrs := by
  unfold clashesOf
  refine List.flatMap_congr fun a member => ?_
  rw [agree.names a _ (asked a member)]

end agree

section request
variable {f : CaseFold u} {lookups : NamingLookups} {settings : NamingSettings}
    {upnSuffixes : Option (List Text)}
  {r : NamingRequest} {p : Prepared} {held held' : Held}

/-- The names of a request are all asked for, where the pattern gives the person any. -/
theorem asks_candidate (covers : Covers u settings lookups r p)
    {a : NamingAttribute} (named : a ∈ free u upnSuffixes r → p.username ≠ []) {n : Nat}
    (small : n ≤ MAX_SUFFIX)
    {suffixSam suffixAddresses : Bool} :
    lookups.asks f a
      (valueOf (candidate settings p (typedOf u upnSuffixes r) n suffixSam suffixAddresses) a) = true := by
  have one : 1 ≤ MAX_SUFFIX := by decide
  have either : ∀ suffixed : Bool, (if suffixed then n else 1) ≤ MAX_SUFFIX := by
    intro suffixed
    split <;> assumption
  have address : ∀ value : Text, ((typedOf u upnSuffixes r).upn = none → p.username ≠ []) →
      value = (candidate settings p (typedOf u upnSuffixes r) n suffixSam suffixAddresses).upn →
      (lookups.upnLocalPrefixes.any fun start =>
        NamingLookups.starts f start (typedUpn value).localPart) = true := by
    intro value named' same
    obtain ⟨t, looked, start⟩ := lookupOf_start ((typedOf u upnSuffixes r).upn.map (·.localPart)) p
      (NAME_LIMITS .userPrincipalName) (fun untyped => named' (by simpa using untyped))
        (either suffixAddresses)
    refine List.any_eq_true.mpr ⟨t, covers.upn t looked, ?_⟩
    refine List.isPrefixOf_iff_prefix.mpr (fold_start_of f (start.trans ?_))
    have split : value =
        ((typedOf u upnSuffixes r).upn.map (·.localPart)).getD
            (upnLocalWith p (if suffixAddresses then n else 1)) ++
          unit '@' :: ((typedOf u upnSuffixes r).upn.map (·.suffix)).getD settings.upnSuffix := by
      rw [same]
      simp [candidate, accountNames]
    rw [split]
    exact start_localPart
  have inFree : ∀ {b : NamingAttribute}, b ≠ .samAccountName → (typedOf u upnSuffixes r).upn =
    none → b ∈ free u upnSuffixes r := by
    intro b other untyped
    cases b <;> simp_all [free, freeAttributes]
  cases a with
  | samAccountName =>
    obtain ⟨t, looked, start⟩ := lookupOf_start (typedOf u upnSuffixes r).samAccountName p
      (NAME_LIMITS .samAccountName) (fun untyped => named (by simp [free, freeAttributes, untyped]))
        (either suffixSam)
    refine List.any_eq_true.mpr ⟨t, covers.sam t looked, ?_⟩
    exact List.isPrefixOf_iff_prefix.mpr (fold_start_of f start)
  | userPrincipalName => exact address _ (fun untyped => named (inFree (by decide) untyped)) rfl
  | mail => exact address _ (fun untyped => named (inFree (by decide) untyped)) rfl

variable (upnSuffixes) in
theorem firstOf_agree (agree : Agree f lookups held held') (covers : Covers u settings lookups r p) :
    firstOf u settings upnSuffixes held r p = firstOf u settings upnSuffixes held' r p := by
  have typed : ∀ a ∈ ALL_ATTRIBUTES.filter (· ∉ freeAttributes (typedOf u upnSuffixes r)),
      lookups.asks f a (valueOf (baseOf u settings upnSuffixes r p) a) = true := by
    intro a member
    have outside : a ∉ free u upnSuffixes r := by simpa [free] using (List.mem_filter.mp member).2
    exact asks_candidate covers (fun inside => absurd inside outside) (by decide)
  simp only [firstOf, firstDeviations, agree.clashesOf_eq typed]

/-- A request that isn't blocked at once has a username wherever the pattern gives a name. -/
theorem username_of_unblocked (prepared : prepare u r.name settings.pattern = .ok p)
    (unblocked : Blocked (firstOf u settings upnSuffixes held r p) = false) {a : NamingAttribute}
    (member : a ∈ free u upnSuffixes r) : p.username ≠ [] := by
  have untyped : (typedOf u upnSuffixes r).upn = none := by
    cases upn : clean (r.overrides.bind (·.userPrincipalName)) with
    | none => simp [typedOf, typedNames, upn]
    | some v =>
      cases sam : clean (r.overrides.bind (·.samAccountName)) <;>
        simp [free, freeAttributes, typedOf, typedNames, upn, sam] at member
  have person : ¬∃ d ∈ p.deviations, d.approval = .blocked := by
    intro blocked
    have refuses := mem_blocked.mpr blocked
    simp [firstOf, firstDeviations, blocked_append, untyped, refuses] at unblocked
  obtain ⟨_, _, username, _⟩ := prepare_ok prepared
  rw [username]
  exact render_ne_nil (prepare_values prepared) (shows_of_unblocked prepared person)

/-- The suffixes tried come out alike over directories that agree. -/
theorem suffixed_agree (agree : Agree f lookups held held') (covers : Covers u settings lookups r p)
    (named : ∀ a ∈ free u upnSuffixes r, p.username ≠ []) :
    suffixed u held settings p (typedOf u upnSuffixes r) =
      suffixed u held' settings p (typedOf u upnSuffixes r) := by
  have asked : ∀ a n, n ≤ MAX_SUFFIX → ∀ sam addresses,
      lookups.asks f a (valueOf (candidate settings p (typedOf u upnSuffixes r) n sam addresses) a) = true ∨
        a ∉ freeAttributes (typedOf u upnSuffixes r) := by
    intro a n small sam addresses
    by_cases inside : a ∈ freeAttributes (typedOf u upnSuffixes r)
    · exact .inl (asks_candidate covers (named a) small)
    · exact .inr inside
  have base : clashesOf u held (candidate settings p (typedOf u upnSuffixes r) 1 false false)
      (freeAttributes (typedOf u upnSuffixes r)) =
        clashesOf u held' (candidate settings p (typedOf u upnSuffixes r) 1 false false)
      (freeAttributes (typedOf u upnSuffixes r)) := agree.clashesOf_eq
    (fun a member => (asked a 1 (by decide) false false).resolve_right (not_not_intro member))
  unfold suffixed
  simp only [base]
  split
  · rfl
  · rw [List.find?_congr]
    intro n range
    have bounds := List.mem_range'_1.mp range
    have small : n ≤ MAX_SUFFIX := by
      unfold MAX_SUFFIX at bounds ⊢
      omega
    rw [agree.clashesOf_eq]
    intro a member
    exact (asked a n small true _).resolve_right (not_not_intro (List.mem_of_mem_filter member))

/-- What the names' check lets through is short enough for a CN's brackets. -/
theorem sam_length (unblocked : Blocked (firstOf u settings upnSuffixes held r p) = false)
    {names : AccountNames}
    {collisions : List NamingDeviation}
    (found : suffixed u held settings p (typedOf u upnSuffixes r) = .ok (names, collisions)) :
    names.samAccountName.length ≤ NAME_LIMITS .samAccountName := by
  obtain ⟨n, sam, addresses, small, same⟩ := suffixed_candidate found
  rw [same]
  cases typed : (typedOf u upnSuffixes r).samAccountName with
  | some v =>
    have short : v.length ≤ NAME_LIMITS .samAccountName := by
      by_contra long
      have problem : ∃ reason, typedSamProblem u v = some reason := ⟨_, if_pos (Nat.lt_of_not_le long)⟩
      obtain ⟨reason, problem⟩ := problem
      have refuses : Blocked (typedOf u upnSuffixes r).deviations = true := by
        refine mem_blocked.mpr ⟨.unusable none (some .samAccountName) reason, ?_, rfl⟩
        simp only [typedOf, typedNames] at typed ⊢
        refine List.mem_append_right _ ?_
        rw [typed, Option.bind_some, problem]
        exact List.mem_cons_self
      simp [firstOf, firstDeviations, blocked_append, refuses] at unblocked
    simpa [candidate, accountNames, typed] using short
  | none =>
    have cut : ∀ m, m ≤ MAX_SUFFIX → (samWith p m).length ≤ NAME_LIMITS .samAccountName := by
      intro m small
      have tail := tailOf_length small
      have fitted := fit_length p (NAME_LIMITS .samAccountName - (tailOf m).length)
      have limit : NAME_LIMITS .samAccountName = 20 := rfl
      rw [samWith, List.length_append]
      omega
    simp only [candidate, accountNames, typed, Option.getD_none]
    split
    · exact cut n small
    · exact cut 1 (by decide)

variable (upnSuffixes) in
/-- The name in the OU comes out alike over directories that agree. -/
theorem placeCn_agree (agree : Agree f lookups held held') (covers : Covers u settings lookups r p)
    {sam : Text}
    (short : sam.length ≤ NAME_LIMITS .samAccountName) :
    placeCn u held r.ou (displayOf u upnSuffixes r p) sam =
      placeCn u held' r.ou (displayOf u upnSuffixes r p) sam := by
  cases given : r.ou with
  | none => rfl
  | some ouDn =>
    have listed : lookups.asksCn f
      ⟨ouDn, cutText (displayOf u upnSuffixes r p) (NAME_LIMITS .cn) []⟩ = true := by
      obtain ⟨m, member, same⟩ := covers.cns ouDn given
      refine Bool.or_eq_true_iff.mpr (.inl (List.any_eq_true.mpr ⟨m, member, decide_eq_true ?_⟩))
      rw [same]
      rfl
    have bracketed : lookups.asksCn f ⟨ouDn, cutText (displayOf u upnSuffixes r p) (NAME_LIMITS .cn)
        (text " (" ++ sam ++ text ")")⟩ = true := by
      obtain ⟨m, member, same⟩ := covers.cnPrefixes ouDn given
      refine Bool.or_eq_true_iff.mpr
        (.inr (List.any_eq_true.mpr ⟨m, member, List.isPrefixOf_iff_prefix.mpr ?_⟩))
      rw [same, fold_cnKey, fold_cnKey]
      refine (List.prefix_append_right_inj _).mpr ?_
      obtain ⟨rest, split⟩ := fold_start_of f (bracketed_start (displayOf u upnSuffixes r p) short)
      exact ⟨rest, by rw [List.cons_append]; exact congrArg _ split⟩
    have here := agree.cns _ listed
    have there := agree.cns _ bracketed
    cases holder : held'.cns.holder u
      (cnKey u ⟨ouDn, cutText (displayOf u upnSuffixes r p) (NAME_LIMITS .cn) []⟩) with
    | none => simp only [placeCn, Option.bind_some, here, holder, Option.map_none]
    | some source => simp only [placeCn, Option.bind_some, here, holder, Option.map_some, there]

variable (upnSuffixes) in
/-- A request is resolved alike over directories that agree on its lookups. -/
theorem resolveName_agree (agree : Agree f lookups held held')
    (prepared : prepare u r.name settings.pattern = .ok p)
    (covers : Covers u settings lookups r p) :
    ∃ s left left', resolveName u settings upnSuffixes held r = .ok (s, left) ∧
      resolveName u settings upnSuffixes held' r = .ok (s, left') ∧ Agree f lookups left left' := by
  have first := firstOf_agree upnSuffixes agree covers
  simp only [firstOf, baseOf, typedOf] at first
  unfold resolveName
  simp only [prepared, bind, Except.bind, pure, Except.pure, ← first]
  split
  next => exact ⟨_, _, _, rfl, rfl, agree⟩
  next unblocked =>
    have open' : Blocked (firstOf u settings upnSuffixes held r p) = false := eq_false_of_ne_true unblocked
    have suffix := suffixed_agree agree covers (fun a member => username_of_unblocked prepared open' member)
    simp only [typedOf] at suffix
    rw [← suffix]
    split
    next => exact ⟨_, _, _, rfl, rfl, agree⟩
    next names collisions found =>
      have place := placeCn_agree upnSuffixes agree covers (sam_length open' found)
      simp only [displayOf, typedOf] at place
      rw [← place]
      refine ⟨_, _, _, rfl, rfl, ?_⟩
      cases r.ou with
      | none => exact agree.claim names
      | some ouDn => exact (agree.claim names).claimCn _

end request

/-- Looking up only what `namingLookups` asks for changes no suggestion. -/
theorem namingLookups_complete (u : Platform) (f : CaseFold u) (requests : List NamingRequest)
    (settings : NamingSettings)
    (taken : TakenNames) (upnSuffixes : Option (List Text))
    (valid : namingPatternProblem settings.pattern = none) :
    ∃ lookups, namingLookups u requests settings = .ok lookups ∧
      resolveNames u requests settings (lookups.cut f taken) upnSuffixes =
      resolveNames u requests settings taken upnSuffixes := by
  obtain ⟨lookups, looked⟩ := exists_lookups (u := u) valid requests ⟨[], [], [], []⟩
  refine ⟨lookups, looked, ?_⟩
  obtain ⟨_, each⟩ := lookUp_all looked
  refine (Accumulate.outputs_congr (R := Agree f lookups) ?_ agree_new).symm
  intro held held' r member agree
  obtain ⟨p, prepared, covers⟩ := each r member
  obtain ⟨s, left, left', resolved, resolved', agree'⟩ := resolveName_agree upnSuffixes agree prepared covers
  exact .inr ⟨s, left, left', resolved, resolved', agree'⟩

/-- Case folding of text in ASCII. -/
def CaseFold.ascii : CaseFold .ascii where
  fold t := t.map lowerUnit
  fold_lower t := by
    show (t.map lowerUnit).map lowerUnit = t.map lowerUnit
    rw [List.map_map]
    exact List.map_congr_left fun c _ => lowerUnit_idem
  fold_start a b := by
    rw [List.map_append]
    exact List.prefix_append _ _
  fold_at a b := by
    rw [List.map_append, List.map_cons]
    rfl
  fold_line a b := by
    rw [List.map_append, List.map_cons]
    rfl
  at_of_fold t member := by
    obtain ⟨c, inside, same⟩ := List.mem_map.mp member
    by_cases upper : isUpper c = true
    · have range := isUpper_iff.mp upper
      have sum := lowerUnit_toNat upper
      have at' : (unit '@').toNat = 64 := by decide
      rw [same] at sum
      omega
    · rw [lowerUnit_of_not_upper (eq_false_of_ne_true upper)] at same
      exact same ▸ inside

theorem namingLookups_complete_smiths : ∃ lookups,
    namingLookups .ascii [smith none, smith none] firstLast = .ok lookups ∧
      resolveNames .ascii [smith none, smith none] firstLast (lookups.cut .ascii smithTaken) none =
        resolveNames .ascii [smith none, smith none] firstLast smithTaken none :=
  namingLookups_complete .ascii .ascii [smith none, smith none] firstLast smithTaken none (by decide)

end OpenAduc.Naming
