import OpenAduc.Dn.RoundTrip

namespace OpenAduc.Dn
open Naming

/-- What is before the first comma that no backslash is before, and what is after it. -/
def firstComma : Text → Text × Option Text
  | [] => ([], none)
  | [c] => if c = unit ',' then ([], some []) else ([c], none)
  | c :: d :: rest =>
    if c = BACKSLASH then (c :: d :: (firstComma rest).1, (firstComma rest).2)
    else if c = unit ',' then ([], some (d :: rest))
    else (c :: (firstComma (d :: rest)).1, (firstComma (d :: rest)).2)

structure DnHead where
  head : Text
  rest : Option Text
  deriving DecidableEq

def splitDnHead (dn : Text) : DnHead :=
  match firstComma dn with
  | (head, none) => ⟨trim head, none⟩
  | (head, some rest) => ⟨trim head, if trim rest = [] then none else some (trim rest)⟩

/-- The parent DN, or null if the DN is single-component. -/
def parentDn (dn : Text) : Option Text := (splitDnHead dn).rest

/-- The leftmost RDN component. -/
def leafRdn (dn : Text) : Text := (splitDnHead dn).head

/-- The value of the leftmost RDN, or null. -/
def leafRdnValue (dn : Text) : Option Text :=
  let head := leafRdn dn
  if unit '=' ∈ head then
    let value := trim ((head.dropWhile (· ≠ unit '=')).drop 1)
    if value = [] then none else some value
  else none

/-- `moveAccount`: the DN an account is moved to. -/
def movedDn (dn targetOuDn : Text) : Text := leafRdn dn ++ [unit ','] ++ trim targetOuDn

/-- Each backslash stands before the character it escapes, and a character outside an escape is one
of these. -/
inductive Complete (bare : UInt16 → Prop) : Text → Prop
  | nil : Complete bare []
  | pair {c t} : Complete bare t → Complete bare (BACKSLASH :: c :: t)
  | plain {c t} : c ≠ BACKSLASH → bare c → Complete bare t → Complete bare (c :: t)

abbrev Closed : Text → Prop := Complete fun _ => True

/-- One RDN, as text: no comma in it but escaped ones. -/
abbrev OneRdn : Text → Prop := Complete fun c => c ≠ unit ','

section
variable {bare : UInt16 → Prop} {t h r s x : Text} {c : UInt16}

theorem Complete.closed (complete : Complete bare t) : Closed t := by
  induction complete with
  | nil => exact .nil
  | pair _ ih => exact .pair ih
  | plain other _ _ ih => exact .plain other trivial ih

theorem Complete.append (left : Complete bare h) (right : Complete bare t) : Complete bare (h ++ t) := by
  induction left with
  | nil => exact right
  | pair _ ih => exact .pair ih
  | plain other allowed _ ih => exact .plain other allowed ih

theorem Complete.tail (complete : Complete bare (c :: t)) (other : c ≠ BACKSLASH) : Complete bare t := by
  cases complete with
  | pair => exact absurd rfl other
  | plain _ _ rest => exact rest

theorem Complete.allowed (complete : Complete bare (c :: t)) (other : c ≠ BACKSLASH) : bare c := by
  cases complete with
  | pair => exact absurd rfl other
  | plain _ allowed _ => exact allowed

theorem Complete.tail_pair (complete : Complete bare (BACKSLASH :: c :: t)) : Complete bare t := by
  cases complete with
  | pair rest => exact rest
  | plain other => exact absurd rfl other

/-- What is left when the front, itself whole, is taken off. -/
theorem Complete.of_append (complete : Complete bare (h ++ t)) (front : Closed h) : Complete bare t := by
  induction front with
  | nil => exact complete
  | pair _ ih => exact ih complete.tail_pair
  | plain other _ _ ih => exact ih (complete.tail other)

theorem Complete.front (complete : Complete bare (h ++ t)) (closed : Closed h) : Complete bare h := by
  induction closed with
  | nil => exact .nil
  | pair _ ih => exact .pair (ih complete.tail_pair)
  | plain other _ _ ih => exact .plain other (complete.allowed other) (ih (complete.tail other))

theorem closed_plain (none : ∀ c ∈ t, c ≠ BACKSLASH) : Closed t := by
  induction t with
  | nil => exact .nil
  | cons c t ih =>
    exact .plain (none c List.mem_cons_self) trivial
      (ih fun d member => none d (List.mem_cons_of_mem _ member))

/-- A text is whole, or a backslash too many ends it. -/
theorem closed_or : ∀ t : Text, Closed t ∨ ∃ b, t = b ++ [BACKSLASH] ∧ Closed b
  | [] => Or.inl .nil
  | [c] => by
    by_cases backslash : c = BACKSLASH
    · exact Or.inr ⟨[], by rw [backslash]; rfl, .nil⟩
    · exact Or.inl (.plain backslash trivial .nil)
  | c :: d :: t => by
    by_cases backslash : c = BACKSLASH
    · rcases closed_or t with closed | ⟨b, shape, closed⟩
      · exact Or.inl (backslash ▸ .pair closed)
      · exact Or.inr ⟨c :: d :: b, by rw [shape]; rfl, backslash ▸ .pair closed⟩
    · rcases closed_or (d :: t) with closed | ⟨b, shape, closed⟩
      · exact Or.inl (.plain backslash trivial closed)
      · exact Or.inr ⟨c :: b, by rw [shape]; rfl, .plain backslash trivial closed⟩

theorem not_closed_backslash (closed : Closed h) : ¬ Closed (h ++ [BACKSLASH]) := by
  intro whole
  cases whole.of_append closed with
  | plain other => exact other rfl

theorem firstComma_plain (backslash : c ≠ BACKSLASH) (comma : c ≠ unit ',') :
    firstComma (c :: t) = (c :: (firstComma t).1, (firstComma t).2) := by
  cases t with
  | nil => simp [firstComma, comma]
  | cons d t => simp [firstComma, backslash, comma]

theorem firstComma_comma : firstComma (unit ',' :: t) = ([], some t) := by
  have other : unit ',' ≠ BACKSLASH := by decide
  cases t with
  | nil => rw [firstComma, if_pos rfl]
  | cons d t => rw [firstComma, if_neg other, if_pos rfl]

theorem firstComma_append (one : OneRdn h) :
    firstComma (h ++ t) = (h ++ (firstComma t).1, (firstComma t).2) := by
  induction one with
  | nil => rfl
  | pair _ ih =>
    rw [List.cons_append, List.cons_append, firstComma, if_pos rfl, ih]
    rfl
  | plain backslash comma _ ih =>
    rw [List.cons_append, firstComma_plain backslash comma, ih]
    rfl

theorem firstComma_cut (one : OneRdn h) : firstComma (h ++ unit ',' :: r) = (h, some r) := by
  rw [firstComma_append one, firstComma_comma, List.append_nil]

/-- A whole text is one RDN, or one, a comma and the rest. -/
theorem Complete.split (closed : Closed t) : OneRdn t ∨ ∃ h r, t = h ++ unit ',' :: r ∧ OneRdn h ∧
    Closed r := by
  induction closed with
  | nil => exact Or.inl .nil
  | @pair c t _ ih =>
    rcases ih with one | ⟨h, r, shape, one, rest⟩
    · exact Or.inl (.pair one)
    · exact Or.inr ⟨BACKSLASH :: c :: h, r, by rw [shape]; rfl, .pair one, rest⟩
  | @plain c t other _ rest ih =>
    by_cases comma : c = unit ','
    · exact Or.inr ⟨[], t, by rw [comma]; rfl, .nil, rest⟩
    · rcases ih with one | ⟨h, r, shape, one, rest⟩
      · exact Or.inl (.plain other comma one)
      · exact Or.inr ⟨c :: h, r, by rw [shape]; rfl, .plain other comma one, rest⟩

theorem one_of_firstComma (closed : Closed t) (none : (firstComma t).2 = none) : OneRdn t := by
  rcases closed.split with one | ⟨h, r, rfl, one, _⟩
  · exact one
  · rw [firstComma_cut one] at none
    cases none

/-- The front of one RDN's text holds no comma to cut at, though an escape be cut short at its end. -/
theorem firstComma_front (one : OneRdn (h ++ t)) : firstComma h = (h, none) := by
  rcases closed_or h with whole | ⟨b, rfl, front⟩
  · have same := firstComma_append (t := []) (one.front whole)
    rwa [List.append_nil, firstComma, List.append_nil] at same
  · rw [List.append_assoc] at one
    have last : firstComma [BACKSLASH] = ([BACKSLASH], none) := by decide
    rw [firstComma_append (one.front front), last]

/-- A text that doesn't go on with an escape of hex digits. -/
def Boundary (x : Text) : Prop := ∀ c ∈ x.head?, hexDigit c = none

theorem hexPair_append (boundary : Boundary x) : hexPair ((t ++ x).take 2) = hexPair (t.take 2) := by
  match t with
  | [] =>
    match x with
    | [] => rfl
    | c :: x =>
      rw [List.nil_append, hexPair_eq_none (boundary c rfl)]
      rfl
  | [a] =>
    match x with
    | [] => rfl
    | c :: x => simp [hexPair, boundary c rfl]
  | a :: b :: t => rfl

theorem hexPair_digits {byte : Nat} (pair : hexPair (t.take 2) = some byte) :
    ∃ a b rest, t = a :: b :: rest ∧ (hexDigit b).isSome = true := by
  match t, pair with
  | a :: b :: rest, pair =>
    refine ⟨a, b, rest, rfl, ?_⟩
    change ((hexDigit a).bind fun high => (hexDigit b).map fun low => 16 * high + low) = some byte at pair
    obtain ⟨high, _, inner⟩ := Option.bind_eq_some_iff.mp pair
    obtain ⟨low, isDigit, _⟩ := Option.map_eq_some_iff.mp inner
    rw [isDigit]
    rfl

theorem digit_plain (digit : (hexDigit c).isSome = true) : c ≠ BACKSLASH ∧ c ≠ unit ',' := by
  constructor
  · rintro rfl
    exact absurd digit (by decide)
  · rintro rfl
    exact absurd digit (by decide)

/-- One RDN's value is read to its end whatever follows it, and reading goes on from what that has come to. -/
theorem scanValue_one : ∀ (h : Text), OneRdn h → ∀ (value : Text) (bytes : List Nat),
    ∃ read : Option (Text × List Nat), ∀ x, Boundary x →
      scanValue 0 value bytes (h ++ x) = read.bind fun a => scanValue 0 a.1 a.2 x := by
  intro h
  induction size : h.length using Nat.strong_induction_on generalizing h with
  | _ n ih =>
    intro one value bytes
    have notComma : BACKSLASH ≠ unit ',' := by decide
    cases one with
    | nil => exact ⟨some (value, bytes), fun x _ => rfl⟩
    | @pair c t rest =>
      cases pair : hexPair ((c :: t).take 2) with
      | some byte =>
        obtain ⟨a, b, t', shape, digit⟩ := hexPair_digits pair
        obtain ⟨rfl, rfl⟩ : c = a ∧ t = b :: t' := by simpa using shape
        obtain ⟨plain, _⟩ := digit_plain digit
        obtain ⟨read, reads⟩ :=
          ih t'.length (by simp at size; omega) t' rfl (rest.tail plain) value (bytes ++ [byte])
        refine ⟨read, fun x boundary => ?_⟩
        have same : hexPair ((c :: b :: t' ++ x).take 2) = some byte := by
          rw [hexPair_append boundary, pair]
        rw [List.cons_append, scanValue, if_neg notComma, if_pos rfl, same]
        exact reads x boundary
      | none =>
        cases flushed : flush value bytes with
        | none =>
          refine ⟨none, fun x boundary => ?_⟩
          have same : hexPair ((c :: t ++ x).take 2) = none := by rw [hexPair_append boundary, pair]
          rw [List.cons_append, scanValue, if_neg notComma, if_pos rfl, same]
          simp [flushed]
        | some value' =>
          obtain ⟨read, reads⟩ := ih t.length (by simp at size; omega) t rfl rest (value' ++ [c]) []
          refine ⟨read, fun x boundary => ?_⟩
          have same : hexPair ((c :: t ++ x).take 2) = none := by rw [hexPair_append boundary, pair]
          rw [List.cons_append, scanValue, if_neg notComma, if_pos rfl, same]
          simpa [flushed, scanValue] using reads x boundary
    | @plain c t backslash comma rest =>
      by_cases refused : c ∈ text "\";<>"
      · refine ⟨none, fun x _ => ?_⟩
        rw [List.cons_append, scanValue, if_neg comma, if_neg backslash, if_pos refused]
        rfl
      · cases flushed : flush value bytes with
        | none =>
          refine ⟨none, fun x _ => ?_⟩
          rw [List.cons_append, scanValue, if_neg comma, if_neg backslash, if_neg refused, flushed]
          rfl
        | some value' =>
          obtain ⟨read, reads⟩ := ih t.length (by simp at size; omega) t rfl rest (value' ++ [c]) []
          refine ⟨read, fun x boundary => ?_⟩
          rw [List.cons_append, scanValue, if_neg comma, if_neg backslash, if_neg refused, flushed]
          exact reads x boundary

/-- A text split at a character is what is before it, the character and what is after. -/
theorem splitAt_eq {before after : Text} (found : splitAt c t = some (before, after)) :
    t = before ++ c :: after := by
  induction t generalizing before with
  | nil => cases found
  | cons d t ih =>
    unfold splitAt at found
    split at found
    next here =>
      cases found
      rw [here]
      rfl
    next =>
      obtain ⟨⟨left, right⟩, inner, same⟩ := Option.map_eq_some_iff.mp found
      cases same
      rw [ih inner]
      rfl

theorem splitAt_mem {before after : Text} (found : splitAt c t = some (before, after)) : c ∈ t := by
  rw [splitAt_eq found]
  exact List.mem_append_right _ List.mem_cons_self

theorem splitAt_blank (blank : trim t = []) : splitAt (unit '=') t = none := by
  cases found : splitAt (unit '=') t with
  | none => rfl
  | some parts => exact absurd blank (trim_ne_nil (splitAt_mem found) (by decide))

/-- What parsing does at a text, with no turns counted. -/
theorem parseDn_eq (t : Text) : parseDn t =
    match splitAt (unit '=') t with
    | none => none
    | some (before, after) =>
      if !isAttributeType (trim before) then none
      else
        match scanValue 0 [] [] after with
        | none => none
        | some (value, rest) =>
          if trim value = [] then none
          else
            match rest with
            | none => some [⟨trim before, trim value⟩]
            | some rest => (parseDn rest).map (⟨trim before, trim value⟩ :: ·) := by
  have join (t : Text) (shown : trim t ≠ []) : parseDn t = (parseRdns (t.length + 1) t).join := if_neg shown
  by_cases blank : trim t = []
  · rw [parseDn, if_pos blank, splitAt_blank blank]
  rw [join t blank, parseRdns]
  cases found : splitAt (unit '=') t with
  | none => rfl
  | some parts =>
    obtain ⟨before, after⟩ := parts
    dsimp only
    by_cases isType : isAttributeType (trim before) = true
    · rw [isType]
      cases scanned : scanValue 0 [] [] after with
      | none => rfl
      | some read =>
        obtain ⟨value, rest⟩ := read
        dsimp only
        by_cases empty : trim value = []
        · rw [if_pos empty, if_pos empty]
          rfl
        rw [if_neg empty, if_neg empty]
        cases rest with
        | none => rfl
        | some rest =>
          have shorter := splitAt_shorter found
          have shorter' := scanValue_shorter scanned
          obtain ⟨parsed, ends⟩ :=
            Option.isSome_iff_exists.mp (parseRdns_ends (t := rest) (Nat.lt_succ_self _))
          have longer := parseRdns_more ends (show rest.length + 1 ≤ t.length by omega)
          have value_ : parseDn rest = parsed := by
            by_cases restBlank : trim rest = []
            · have nothing : parsed = none := by
                rw [parseRdns, splitAt_blank restBlank] at ends
                exact (Option.some.inj ends).symm
              rw [parseDn, if_pos restBlank, nothing]
            · rw [join rest restBlank, ends]
              rfl
          let rdn : Rdn := ⟨trim before, trim value⟩
          change ((parseRdns t.length rest).map fun parsed => parsed.map (rdn :: ·)).join =
            (parseDn rest).map (rdn :: ·)
          rw [value_, longer]
          cases parsed <;> rfl
    · rw [eq_false_of_ne_true isType]
      rfl

/-- What follows a text changes nothing of where it is split. -/
theorem splitAt_append_left {before after : Text} (found : splitAt c t = some (before, after)) (rest : Text) :
    splitAt c (t ++ rest) = some (before, after ++ rest) := by
  induction t generalizing before with
  | nil => cases found
  | cons d t ih =>
    rw [splitAt] at found
    rw [List.cons_append, splitAt]
    split at found
    next here =>
      cases found
      rw [if_pos here]
    next other =>
      obtain ⟨⟨left, right⟩, inner, same⟩ := Option.map_eq_some_iff.mp found
      cases same
      rw [if_neg other, ih inner]
      rfl

theorem splitAt_eq_none (absent : c ∉ t) : splitAt c t = none := by
  cases found : splitAt c t with
  | none => rfl
  | some parts => exact absurd (splitAt_mem found) absent

theorem splitAt_absent (absent : splitAt c t = none) : c ∉ t := by
  induction t with
  | nil => simp
  | cons d t ih =>
    rw [splitAt] at absent
    split at absent
    · cases absent
    next other =>
      have inner : splitAt c t = none := by simpa using absent
      intro member
      rcases List.mem_cons.mp member with here | later
      · exact other here.symm
      · exact ih inner later

/-- An attribute type has no character an RDN is split at. -/
theorem attributeType_safe (isType : isAttributeType (trim t) = true) (member : c ∈ t) :
    c ≠ BACKSLASH ∧ c ≠ unit ',' ∧ c ≠ unit '=' := by
  have visible : isSpace c = false → c ∈ trim t := Runs.mem_strip member
  have outside (d : UInt16) (shown : isSpace d = false)
      (other : (isLatin d || isDigit d || d = unit '-' || d = unit '.') = false) : c ≠ d := by
    rintro rfl
    have allowed := attributeType_of_mem isType (visible shown)
    rw [other] at allowed
    cases allowed
  exact ⟨outside _ (by decide) (by decide), outside _ (by decide) (by decide),
    outside _ (by decide) (by decide)⟩

theorem complete_attributeType {bare : UInt16 → Prop} (isType : isAttributeType (trim t) = true)
    (allowed : ∀ c ∈ t, bare c) : Complete bare t := by
  have safe : ∀ c ∈ t, c ≠ BACKSLASH := fun c member => (attributeType_safe isType member).1
  clear isType
  induction t with
  | nil => exact .nil
  | cons c t ih =>
    exact .plain (safe c List.mem_cons_self) (allowed c List.mem_cons_self)
      (ih (fun d member => allowed d (List.mem_cons_of_mem _ member)) fun d member =>
        safe d (List.mem_cons_of_mem _ member))

/-- What follows the first `=` of one RDN is whole, where what is before it is a type. -/
theorem one_value {before after : Text} (one : OneRdn h) (found : splitAt (unit '=') h = some (before, after))
    (isType : isAttributeType (trim before) = true) : OneRdn after := by
  rw [splitAt_eq found] at one
  have front : Closed before := complete_attributeType isType fun _ _ => trivial
  exact (one.of_append front).tail (by decide)

/-- Spaces at a value's end are read as they are. -/
theorem scanValue_spaces {value : Text} {bytes : List Nat} (spaces : ∀ c ∈ s, isSpace c = true) :
    scanValue 0 value bytes s = (flush value bytes).map fun w => (w ++ s, none) := by
  induction s generalizing value bytes with
  | nil => simp [scanValue]
  | cons c s ih =>
    have space := spaces c List.mem_cons_self
    have inner := fun (v : Text) => @ih v [] fun d member => spaces d (List.mem_cons_of_mem _ member)
    have outside (d : UInt16) (visible : isSpace d = false) : c ≠ d := by
      rintro rfl
      rw [visible] at space
      cases space
    have allowed : c ∉ text "\";<>" := by
      intro member
      have all : (text "\";<>").all (fun d => isSpace d = false) = true := by decide
      exact outside c (by simpa using List.all_eq_true.mp all c member) rfl
    rw [scanValue, if_neg (outside _ (by decide)), if_neg (outside _ (by decide)), if_neg allowed]
    cases flush value bytes with
    | none => rfl
    | some w =>
      dsimp only
      rw [inner]
      simp [flush]

theorem boundary_space (spaces : ∀ c ∈ s, isSpace c = true) : Boundary s := by
  intro c first
  have space := spaces c (List.mem_of_mem_head? first)
  cases digit : hexDigit c with
  | none => rfl
  | some d =>
    have digitRange : (48 ≤ c.toNat ∧ c.toNat ≤ 57) ∨ (65 ≤ c.toNat ∧ c.toNat ≤ 70) ∨
      (97 ≤ c.toNat ∧ c.toNat ≤ 102) := by
      unfold hexDigit at digit
      simp only [isDigit, unit, UInt16.le_iff_toNat_le] at digit
      grind
    simp [isSpace, UInt16.le_iff_toNat_le, ← UInt16.toNat_inj] at space
    omega

/-- Spaces at the end are trimmed away. -/
theorem trim_append_spaces (spaces : ∀ c ∈ s, isSpace c = true) : trim (t ++ s) = trim t := by
  unfold trim Runs.strip
  induction s using List.reverseRecOn with
  | nil => rw [List.append_nil]
  | append_singleton s c ih =>
    have inner := ih fun d member => spaces d (List.mem_append_left _ member)
    have space := spaces c (List.mem_append_right _ List.mem_cons_self)
    rw [← List.append_assoc]
    by_cases blank : (t ++ s).dropWhile isSpace = []
    · have all := List.dropWhile_eq_nil_iff.mp blank
      rw [blank] at inner
      have blank' : (t ++ s ++ [c]).dropWhile isSpace = [] := by
        refine List.dropWhile_eq_nil_iff.mpr fun d member => ?_
        rcases List.mem_append.mp member with before | last
        · exact all d before
        · rw [List.mem_singleton.mp last]
          exact space
      rw [blank', ← inner]
    · have front : (t ++ s ++ [c]).dropWhile isSpace = (t ++ s).dropWhile isSpace ++ [c] := by
        rw [List.dropWhile_append, if_neg]
        simpa using blank
      rw [front, List.rdropWhile_concat_pos _ _ _ space, inner]

/-- What one RDN's text is parsed as, when anything follows it that doesn't go on with its value. -/
structure ParsedAs (h : Text) (rdn : Option Rdn) : Prop where
  spaced : ∀ s, (∀ c ∈ s, isSpace c = true) → parseDn (h ++ s) = rdn.map ([·])
  cut : ∀ r, parseDn (h ++ unit ',' :: r) = rdn.bind fun x => (parseDn r).map (x :: ·)
  escaping : parseDn (h ++ [BACKSLASH]) = none

theorem ParsedAs.alone {rdn : Option Rdn} (parsed : ParsedAs h rdn) : parseDn h = rdn.map ([·]) := by
  simpa using parsed.spaced [] (by simp)

theorem parsedAs_none (nothing : ∀ x, parseDn (h ++ x) = none) : ParsedAs h none :=
  ⟨fun s _ => nothing s, fun r => by simpa using nothing _, nothing _⟩

/-- Before an `=` that is behind a comma no type is read. -/
theorem parseDn_comma_first (absent : unit '=' ∉ h) (r : Text) : parseDn (h ++ unit ',' :: r) = none := by
  rw [parseDn_eq]
  cases found : splitAt (unit '=') (h ++ unit ',' :: r) with
  | none => rfl
  | some parts =>
    obtain ⟨before, after⟩ := parts
    have comma : unit ',' ∈ before := by
      have whole := splitAt_eq found
      rcases List.append_eq_append_iff.mp whole with ⟨m, isBefore, rest⟩ | ⟨m, isHead, rest⟩
      · cases m with
        | nil => exact absurd (List.cons.inj rest).1 (by decide)
        | cons d m =>
          have first : d = unit ',' := by simpa using (List.cons.inj rest).1.symm
          rw [isBefore, first]
          simp
      · cases m with
        | nil => exact absurd (List.cons.inj rest).1 (by decide)
        | cons d m =>
          have first : unit '=' = d := (List.cons.inj rest).1
          exact absurd (by rw [isHead, ← first]; simp) absent
    have noType : isAttributeType (trim before) = false := by
      by_contra isType
      exact (attributeType_safe (eq_true_of_ne_false isType) comma).2.1 rfl
    simp [noType]

/-- A text with no `=` is no RDN, whatever follows it. -/
theorem parsedAs_unsplit (absent : unit '=' ∉ h) : ParsedAs h none := by
  have blank (s : Text) (other : unit '=' ∉ s) : parseDn (h ++ s) = none := by
    rw [parseDn_eq, splitAt_eq_none fun member => (List.mem_append.mp member).elim absent other]
  refine ⟨fun s spaces => blank s fun member => ?_, parseDn_comma_first absent, blank _ (by decide)⟩
  have space := spaces _ member
  exact absurd space (by decide)

/-- One RDN of a type and its value, read as far as what may follow. -/
theorem parsedAs_typed {before after : Text} {read : Option (Text × List Nat)}
    (found : splitAt (unit '=') h = some (before, after)) (isType : isAttributeType (trim before) = true)
    (reads : ∀ x, Boundary x → scanValue 0 [] [] (after ++ x) = read.bind fun a => scanValue 0 a.1 a.2 x) :
    ParsedAs h (read.bind fun a => (flush a.1 a.2).bind fun value =>
      if trim value = [] then none else some ⟨trim before, trim value⟩) := by
  have parsed (x : Text) (boundary : Boundary x) : parseDn (h ++ x) =
      (read.bind fun a => scanValue 0 a.1 a.2 x).bind fun (value, rest) =>
        if trim value = [] then none
        else
          match rest with
          | none => some [⟨trim before, trim value⟩]
          | some rest => (parseDn rest).map (⟨trim before, trim value⟩ :: ·) := by
    rw [parseDn_eq, splitAt_append_left found]
    dsimp only
    rw [isType, reads x boundary]
    cases read.bind fun a => scanValue 0 a.1 a.2 x <;> rfl
  have starts (c : UInt16) (r : Text) (other : hexDigit c = none) : Boundary (c :: r) := by
    intro d first
    cases first
    exact other
  constructor
  case spaced =>
    intro s spaces
    rw [parsed s (boundary_space spaces)]
    cases read with
    | none => rfl
    | some a =>
      dsimp only [Option.bind_some]
      rw [scanValue_spaces spaces]
      cases flush a.1 a.2 with
      | none => rfl
      | some value =>
        have same : trim (value ++ s) = trim value := trim_append_spaces spaces
        dsimp only [Option.map_some, Option.bind_some]
        rw [same]
        split <;> rfl
  case cut =>
    intro r
    rw [parsed _ (starts _ r (by decide))]
    cases read with
    | none => rfl
    | some a =>
      dsimp only [Option.bind_some]
      rw [scanValue, if_pos rfl]
      cases flush a.1 a.2 with
      | none => rfl
      | some value =>
        dsimp only [Option.map_some, Option.bind_some]
        split <;> rfl
  case escaping =>
    rw [parsed _ (starts _ [] (by decide))]
    cases read with
    | none => rfl
    | some a =>
      have stuck : scanValue 0 a.1 a.2 [BACKSLASH] = none := by
        rw [scanValue, if_neg (by decide), if_pos rfl]
        rfl
      rw [Option.bind_some, stuck]
      rfl

/-- One RDN's text is parsed as one RDN at most, whatever is behind it. -/
theorem parseDn_one (one : OneRdn h) : ∃ rdn, ParsedAs h rdn := by
  cases found : splitAt (unit '=') h with
  | none => exact ⟨none, parsedAs_unsplit (splitAt_absent found)⟩
  | some parts =>
    obtain ⟨before, after⟩ := parts
    by_cases isType : isAttributeType (trim before) = true
    · obtain ⟨read, reads⟩ := scanValue_one after (one_value one found isType) [] []
      exact ⟨_, parsedAs_typed found isType reads⟩
    · refine ⟨none, parsedAs_none fun x => ?_⟩
      rw [parseDn_eq, splitAt_append_left found]
      simp [isType]

theorem length_one {rdns : List Rdn} (one : OneRdn h) (parsed : parseDn h = some rdns) : rdns.length = 1 := by
  obtain ⟨rdn, readAs⟩ := parseDn_one one
  rw [readAs.alone] at parsed
  obtain ⟨x, _, same⟩ := Option.map_eq_some_iff.mp parsed
  rw [← same]
  rfl

/-- A DN is its first RDN's text and the rest's. -/
theorem parseDn_cut (one : OneRdn h) (r : Text) :
    parseDn (h ++ unit ',' :: r) = (parseDn h).bind fun first => (parseDn r).map (first ++ ·) := by
  obtain ⟨rdn, readAs⟩ := parseDn_one one
  rw [readAs.cut, readAs.alone]
  cases rdn <;> rfl

/-- Spaces before a DN change nothing of how it is parsed. -/
theorem parseDn_spaces_before (spaces : ∀ c ∈ s, isSpace c = true) (t : Text) :
    parseDn (s ++ t) = parseDn t := by
  have absent : unit '=' ∉ s := fun member => absurd (spaces _ member) (by decide)
  have found : splitAt (unit '=') (s ++ t) = (splitAt (unit '=') t).map fun parts =>
    (s ++ parts.1, parts.2) := by
    induction s with
    | nil => simp
    | cons c s ih =>
      have other : c ≠ unit '=' := fun same => absent (by simp [same])
      have inner := ih (fun d member => spaces d (List.mem_cons_of_mem _ member)) fun member =>
        absent (List.mem_cons_of_mem _ member)
      rw [List.cons_append, splitAt, if_neg other, inner]
      cases splitAt (unit '=') t <;> rfl
  have front (before : Text) : trim (s ++ before) = trim before := by
    unfold trim Runs.strip
    rw [List.dropWhile_append_of_pos spaces]
  rw [parseDn_eq, parseDn_eq t, found]
  cases splitAt (unit '=') t with
  | none => rfl
  | some parts =>
    dsimp only [Option.map_some]
    rw [front]

/-- Spaces after a text whose escapes are whole change nothing of how it is parsed. -/
theorem parseDn_spaces_after (spaces : ∀ c ∈ s, isSpace c = true) :
    ∀ t : Text, Closed t → parseDn (t ++ s) = parseDn t := by
  intro t
  induction size : t.length using Nat.strong_induction_on generalizing t with
  | _ n ih =>
    intro closed
    rcases closed.split with one | ⟨h, r, rfl, one, rest⟩
    · obtain ⟨rdn, readAs⟩ := parseDn_one one
      rw [readAs.spaced s spaces, readAs.alone]
    · have shorter : r.length < n := by
        simp only [List.length_append, List.length_cons] at size
        omega
      rw [List.append_assoc, List.cons_append, parseDn_cut one, parseDn_cut one, ih _ shorter r rfl rest]

/-- What ends in a backslash that escapes nothing is no DN. -/
theorem parseDn_backslash : ∀ t : Text, Closed t → parseDn (t ++ [BACKSLASH]) = none := by
  intro t
  induction size : t.length using Nat.strong_induction_on generalizing t with
  | _ n ih =>
    intro closed
    rcases closed.split with one | ⟨h, r, rfl, one, rest⟩
    · obtain ⟨_, readAs⟩ := parseDn_one one
      exact readAs.escaping
    · have shorter : r.length < n := by
        simp only [List.length_append, List.length_cons] at size
        omega
      rw [List.append_assoc, List.cons_append, parseDn_cut one, ih _ shorter r rfl rest]
      cases parseDn h <;> rfl

theorem closed_of_parseDn {rdns : List Rdn} (accepted : parseDn t = some rdns) : Closed t := by
  rcases closed_or t with closed | ⟨b, rfl, closed⟩
  · exact closed
  · rw [parseDn_backslash b closed] at accepted
    cases accepted

/-- A text that ends in an escaped space, with spaces after it or not. -/
def EndsEscaped (t : Text) : Prop :=
  ∃ b c s, t = b ++ BACKSLASH :: c :: s ∧ Closed b ∧ isSpace c = true ∧ ∀ d ∈ s, isSpace d = true

theorem trim_shape (t : Text) : ∃ s s', t = s ++ trim t ++ s' ∧ (∀ c ∈ s, isSpace c = true) ∧
    ∀ c ∈ s', isSpace c = true := by
  refine ⟨t.takeWhile isSpace, (t.dropWhile isSpace).rtakeWhile isSpace, ?_, fun c member =>
    List.mem_takeWhile_imp member, ?_⟩
  · unfold trim Runs.strip
    rw [List.append_assoc, List.rdropWhile_append_rtakeWhile, List.takeWhile_append_dropWhile]
  · intro c member
    exact List.mem_rtakeWhile_imp member

theorem closed_spaces (spaces : ∀ c ∈ s, isSpace c = true) : Closed s :=
  closed_plain fun c member same => absurd (spaces c member) (by rw [same]; decide)

/-- One RDN's text has no comma to cut at when it is trimmed either. -/
theorem firstComma_trim (one : OneRdn t) : firstComma (trim t) = (trim t, none) := by
  obtain ⟨s, s', shape, left, _⟩ := trim_shape t
  rw [shape, List.append_assoc] at one
  exact firstComma_front (one.of_append (closed_spaces left))

/-- A whole text stays whole when it is trimmed, but where it ends in an escaped space. -/
theorem closed_trim (closed : Closed t) : Closed (trim t) ↔ ¬ EndsEscaped t := by
  obtain ⟨s, s', shape, left, right⟩ := trim_shape t
  have inner : Closed (trim t ++ s') := by
    rw [shape, List.append_assoc] at closed
    exact closed.of_append (closed_spaces left)
  constructor
  · rintro whole ⟨b, c, more, ends, front, space, spaces⟩
    have after : ∀ d ∈ c :: more, isSpace d = true := by
      intro d member
      rcases List.mem_cons.mp member with rfl | later
      · exact space
      · exact spaces d later
    have same : trim t = trim (b ++ [BACKSLASH]) := by
      have := trim_append_spaces (t := b ++ [BACKSLASH]) after
      rw [← this, ends]
      simp
    obtain ⟨rest, kept⟩ : ∃ rest, trim (b ++ [BACKSLASH]) = rest ++ [BACKSLASH] ∧ Closed rest := by
      unfold trim Runs.strip
      by_cases blank : b.dropWhile isSpace = []
      · have all := List.dropWhile_eq_nil_iff.mp blank
        refine ⟨[], ?_, .nil⟩
        rw [List.dropWhile_append, if_pos (by simpa using blank)]
        decide
      · refine ⟨b.dropWhile isSpace, ?_, ?_⟩
        · rw [List.dropWhile_append, if_neg (by simpa using blank),
            List.rdropWhile_concat_neg _ _ _ (by decide)]
        · rw [← List.takeWhile_append_dropWhile (p := isSpace) (l := b)] at front
          exact front.of_append (closed_spaces fun d member => List.mem_takeWhile_imp member)
    rw [same, kept.1] at whole
    exact not_closed_backslash kept.2 whole
  · intro plain
    rcases closed_or (trim t) with whole | ⟨b, ends, front⟩
    · exact whole
    · cases s' with
      | nil => simpa using inner
      | cons c more =>
        refine absurd ⟨s ++ b, c, more, ?_, (closed_spaces left).append front, right c List.mem_cons_self,
          fun d member => right d (List.mem_cons_of_mem _ member)⟩ plain
        rw [shape, ends]
        simp

theorem parseDn_trim (closed : Closed t) (plain : ¬ EndsEscaped t) : parseDn (trim t) = parseDn t := by
  obtain ⟨s, s', shape, left, right⟩ := trim_shape t
  have whole := (closed_trim closed).mpr plain
  have same := parseDn_spaces_after right (trim t) whole
  rw [← parseDn_spaces_before left, ← List.append_assoc, ← shape] at same
  exact same.symm

theorem parseDn_trim_escaped (closed : Closed t) (escaped : EndsEscaped t) : parseDn (trim t) = none := by
  cases parsed : parseDn (trim t) with
  | none => rfl
  | some rdns => exact absurd escaped ((closed_trim closed).mp (closed_of_parseDn parsed))

theorem splitDnHead_cut {rest : List Rdn} (one : OneRdn h) (parent : parseDn r = some rest) :
    splitDnHead (h ++ unit ',' :: r) = ⟨trim h, some (trim r)⟩ := by
  have shown : trim r ≠ [] := by
    intro blank
    rw [parseDn, if_pos blank] at parent
    cases parent
  simp only [splitDnHead, firstComma_cut one, if_neg shown]

theorem cut_unique {h' r' : Text} (one : OneRdn h) (one' : OneRdn h')
    (same : h ++ unit ',' :: r = h' ++ unit ',' :: r') :
    h = h' ∧ r = r' := by
  have left := firstComma_cut (r := r) one
  rw [same, firstComma_cut one'] at left
  simp only [Prod.mk.injEq, Option.some.injEq] at left
  exact ⟨left.1.symm, left.2.symm⟩

/-- What is before the first comma between RDNs, or what is after it, ends in an escaped space. -/
def EscapedAtCut (dn : Text) : Prop :=
  ∃ h r, dn = h ++ unit ',' :: r ∧ OneRdn h ∧ (EndsEscaped h ∨ EndsEscaped r)

theorem escapedAtCut_iff (one : OneRdn h) : EscapedAtCut (h ++ unit ',' :: r) ↔
    EndsEscaped h ∨ EndsEscaped r := by
  constructor
  · rintro ⟨h', r', same, one', ends⟩
    obtain ⟨rfl, rfl⟩ := cut_unique one one' same
    exact ends
  · exact fun ends => ⟨h, r, rfl, one, ends⟩

/-- A DN with a parent: its first RDN's text and the parent's, and what each is parsed as. -/
theorem exists_cut {dn : Text} {rdns : List Rdn} (accepted : parseDn dn = some rdns) (two : 2 ≤ rdns.length) :
    ∃ h r x rest, dn = h ++ unit ',' :: r ∧ OneRdn h ∧ parseDn h = some [x] ∧
      parseDn r = some rest ∧ rdns = x :: rest := by
  rcases (closed_of_parseDn accepted).split with one | ⟨h, r, rfl, one, _⟩
  · have := length_one one accepted
    omega
  · rw [parseDn_cut one] at accepted
    obtain ⟨first, head, more⟩ := Option.bind_eq_some_iff.mp accepted
    obtain ⟨rest, parent, whole⟩ := Option.map_eq_some_iff.mp more
    obtain ⟨x, isFirst⟩ := List.length_eq_one_iff.mp (length_one one head)
    subst isFirst
    exact ⟨h, r, x, rest, rfl, one, head, parent, whole.symm⟩

theorem oneRdn_trim (one : OneRdn h) (whole : Closed (trim h)) : OneRdn (trim h) := by
  obtain ⟨s, s', shape, left, _⟩ := trim_shape h
  rw [shape, List.append_assoc] at one
  exact (one.of_append (closed_spaces left)).front whole

/-- The text joined to one RDN's makes no more RDNs of it. -/
theorem length_joined {l m : List Rdn} (one : OneRdn h) (joined : parseDn (h ++ t) = some l)
    (alone : parseDn t = some m) :
    l.length = m.length := by
  rcases (closed_of_parseDn alone).split with single | ⟨h', r, rfl, single, _⟩
  · rw [length_one (one.append single) joined, length_one single alone]
  · rw [← List.append_assoc, parseDn_cut (one.append single)] at joined
    rw [parseDn_cut single] at alone
    obtain ⟨first, head, more⟩ := Option.bind_eq_some_iff.mp joined
    obtain ⟨first', head', more'⟩ := Option.bind_eq_some_iff.mp alone
    obtain ⟨rest, parent, rfl⟩ := Option.map_eq_some_iff.mp more
    obtain ⟨rest', parent', rfl⟩ := Option.map_eq_some_iff.mp more'
    cases parent.symm.trans parent'
    simp only [List.length_append, length_one (one.append single) head, length_one single head']

/-- Put together again, a DN's two parts are parsed as it is, and its parent as what is left of it. -/
def Splits (dn : Text) (rdns : List Rdn) : Prop :=
  ∃ parent, parentDn dn = some parent ∧ parseDn (leafRdn dn ++ unit ',' :: parent) = some rdns ∧
    parseDn parent = some rdns.tail

/-- An accepted DN is split as it is parsed, save where its cut leaves an escaped space bare. -/
theorem splits_iff {dn : Text} {rdns : List Rdn} (accepted : parseDn dn = some rdns) (two : 2 ≤ rdns.length) :
    Splits dn rdns ↔ ¬ EscapedAtCut dn := by
  obtain ⟨h, r, x, rest, rfl, one, head, parent, rfl⟩ := exists_cut accepted two
  have cut := splitDnHead_cut one parent
  have closed := closed_of_parseDn parent
  rw [escapedAtCut_iff one, not_or]
  constructor
  · rintro ⟨p, isParent, joined, tail⟩
    obtain rfl : trim r = p := by simpa [parentDn, cut] using isParent
    have leaf : leafRdn (h ++ unit ',' :: r) = trim h := by simp [leafRdn, cut]
    rw [leaf] at joined
    refine ⟨fun ends => ?_, fun ends => ?_⟩
    · rcases closed_or (trim h) with whole | ⟨b, shape, front⟩
      · exact (closed_trim one.closed).mp whole ends
      · have single : OneRdn (b ++ [BACKSLASH, unit ',']) := by
          obtain ⟨s, s', whole, left, _⟩ := trim_shape h
          rw [whole, shape, List.append_assoc, List.append_assoc] at one
          exact ((one.of_append (closed_spaces left)).front front).append (.pair .nil)
        have joined' : parseDn (b ++ [BACKSLASH, unit ','] ++ trim r) = some (x :: rest) := by
          rw [← joined, shape]
          simp
        have := length_joined single joined' tail
        simp at this
    · rw [parseDn_trim_escaped closed ends] at tail
      cases tail
  · rintro ⟨plain, plain'⟩
    have whole := (closed_trim one.closed).mpr plain
    refine ⟨trim r, by simp [parentDn, cut], ?_, ?_⟩
    · have leaf : leafRdn (h ++ unit ',' :: r) = trim h := by simp [leafRdn, cut]
      rw [leaf, parseDn_cut (oneRdn_trim one whole), parseDn_trim one.closed plain,
        parseDn_trim closed plain', head, parent]
      rfl
    · rw [parseDn_trim closed plain', parent]
      rfl

/-- What a move makes of a DN is the same first RDN in the OU, and what a rename goes back to is that RDN. -/
theorem moved_of_splits {dn target : Text} {rdns ous : List Rdn} (accepted : parseDn dn = some rdns)
    (two : 2 ≤ rdns.length)
    (plain : ¬ EscapedAtCut dn) (ou : parseDn (trim target) = some ous) :
    parseDn (movedDn dn target) = some (rdns.take 1 ++ ous) ∧ parseDn (leafRdn dn) = some (rdns.take 1) := by
  obtain ⟨h, r, x, rest, rfl, one, head, parent, rfl⟩ := exists_cut accepted two
  rw [escapedAtCut_iff one, not_or] at plain
  have whole := (closed_trim one.closed).mpr plain.1
  have leaf : leafRdn (h ++ unit ',' :: r) = trim h := by simp [leafRdn, splitDnHead_cut one parent]
  have same : parseDn (trim h) = some [x] := by rw [parseDn_trim one.closed plain.1, head]
  refine ⟨?_, by rw [leaf, same]; rfl⟩
  have shape : movedDn (h ++ unit ',' :: r) target = trim h ++ unit ',' :: trim target := by
    simp [movedDn, leaf]
  rw [shape, parseDn_cut (oneRdn_trim one whole), same, ou]
  rfl

theorem oneRdn_escaped (v : Text) : OneRdn (escaped v) := by
  induction v with
  | nil => exact .nil
  | cons c v ih =>
    rw [escaped_cons]
    split
    · exact .pair ih
    next plain =>
      have outside (d : UInt16) (special : isSpecial d = true) : c ≠ d := by
        rintro rfl
        exact plain special
      exact .plain (outside _ (by decide)) (outside _ (by decide)) ih

/-- A value's text, its first character escaped, has no bare comma. -/
theorem oneRdn_escapeFirst (v : Text) : OneRdn (escapeFirst (escaped v)) := by
  have one := oneRdn_escaped v
  unfold escapeFirst
  split
  next edge =>
    obtain ⟨c, t, shape⟩ : ∃ c t, escaped v = c :: t := by
      generalize escaped v = out at edge
      cases out with
      | nil => rcases edge with none | none <;> cases none
      | cons c t => exact ⟨c, t, rfl⟩
    have other : c ≠ BACKSLASH := by
      rintro rfl
      rw [shape] at edge
      rcases edge with hash | space
      · exact absurd (Option.some.inj hash) (by decide)
      · exact absurd (Option.some.inj space) (by decide)
    rw [shape] at one ⊢
    exact .pair (one.tail other)
  next => exact one

/-- An escaped value has no bare comma. -/
theorem oneRdn_escapeRdnValueRfc (v : Text) : OneRdn (escapeRdnValueRfc v) := by
  have first := oneRdn_escapeFirst v
  unfold escapeRdnValueRfc
  split
  next empty => exact empty ▸ .nil
  unfold escapeLast
  split
  next ends =>
    obtain ⟨_, last, before⟩ := ends
    obtain ⟨t, shape⟩ := List.getLast?_eq_some_iff.mp last
    rw [shape, List.dropLast_concat] at before
    have whole : Closed t := by
      rcases closed_or t with closed | ⟨b, isT, _⟩
      · exact closed
      · rw [isT] at before
        simp at before
    rw [shape, List.dropLast_concat]
    rw [shape] at first
    exact (first.front whole).append (.pair .nil)
  next => exact first

/-- A type and a value written with no bare comma are one RDN. -/
theorem oneRdn_typed {type : Text} (isType : isAttributeType type = true) (one : OneRdn s) :
    OneRdn (type ++ unit '=' :: s) := by
  have front : OneRdn type := by
    refine complete_attributeType (by rw [trim_attributeType isType]; exact isType) fun c member => ?_
    exact (attributeType_safe (by rw [trim_attributeType isType]; exact isType) member).2.1
  exact front.append (.plain (by decide) (by decide) one)

/-- What parentDn finds of a child's DN is the parent given, as it is parsed. -/
theorem parentDn_childDn {type v p : Text} {rdns : List Rdn} (isType : isAttributeType type = true)
    (accepted : parseDn p = some rdns) :
    (∃ parent, parentDn (childDn type v p) = some parent ∧ parseDn parent = some rdns) ↔ ¬ EndsEscaped p := by
  have named : OneRdn (type ++ unit '=' :: escapeRdnValueRfc v) :=
    oneRdn_typed isType (oneRdn_escapeRdnValueRfc v)
  have shape : childDn type v p = (type ++ unit '=' :: escapeRdnValueRfc v) ++ unit ',' :: p := by
    simp [childDn]
  have isParent : parentDn (childDn type v p) = some (trim p) := by
    rw [shape, parentDn, splitDnHead_cut named accepted]
  have closed := closed_of_parseDn accepted
  rw [isParent]
  constructor
  · rintro ⟨parent, same, parsed⟩ ends
    cases same
    rw [parseDn_trim_escaped closed ends] at parsed
    cases parsed
  · exact fun plain => ⟨trim p, rfl, by rw [parseDn_trim closed plain, accepted]⟩

/-- A DN is split and put together again as it was, its name in an OU it moves to and the RDN a
rename goes back to being its own, and a child's DN has it for its parent, exactly where no escaped
space ends either part. -/
theorem dn_splitting {dn : Text} {rdns : List Rdn} (accepted : parseDn dn = some rdns) :
    (2 ≤ rdns.length →
      ((Splits dn rdns ↔ ¬ EscapedAtCut dn) ∧
        (¬ EscapedAtCut dn → ∀ target ous, parseDn (trim target) = some ous →
          parseDn (movedDn dn target) = some (rdns.take 1 ++ ous) ∧ parseDn (leafRdn dn) =
          some (rdns.take 1)))) ∧
    ∀ type v, isAttributeType type = true →
      ((∃ parent, parentDn (childDn type v dn) = some parent ∧ parseDn parent = some rdns) ↔
        ¬ EndsEscaped dn) := by
  refine ⟨fun two => ⟨splits_iff accepted two, ?_⟩, ?_⟩
  · intro plain target ous ou
    exact moved_of_splits accepted two plain ou
  · intro type v isType
    exact parentDn_childDn isType accepted

/-- An account whose name holds a comma, moved and split. -/
theorem dn_splitting_smith :
    Splits (text "CN=Smith\\, John , OU=Staff,DC=corp")
      [⟨text "CN", text "Smith, John"⟩, ⟨text "OU", text "Staff"⟩, ⟨text "DC", text "corp"⟩] ∧
    ∃ parent, parentDn (childDn (text "CN") (text "Smith, John ") (text "DC=corp")) = some parent ∧
      parseDn parent = some [⟨text "DC", text "corp"⟩] :=
  have accepted : parseDn (text "CN=Smith\\, John , OU=Staff,DC=corp") =
      some [⟨text "CN", text "Smith, John"⟩, ⟨text "OU", text "Staff"⟩, ⟨text "DC", text "corp"⟩] := by decide
  have corp : parseDn (text "DC=corp") = some [⟨text "DC", text "corp"⟩] := by decide
  have head : parseDn (text "CN=Smith\\, John ") = some [⟨text "CN", text "Smith, John"⟩] := by decide
  have plain {t : Text} (accepted : (parseDn t).isSome = true) (trimmed : (parseDn (trim t)).isSome = true) :
      ¬ EndsEscaped t := by
    intro ends
    obtain ⟨rdns, parsed⟩ := Option.isSome_iff_exists.mp accepted
    rw [parseDn_trim_escaped (closed_of_parseDn parsed) ends] at trimmed
    cases trimmed
  have one : OneRdn (text "CN=Smith\\, John ") := one_of_firstComma (closed_of_parseDn head) (by decide)
  have kept : ¬ EscapedAtCut (text "CN=Smith\\, John " ++ unit ',' :: text " OU=Staff,DC=corp") := by
    rw [escapedAtCut_iff one, not_or]
    exact ⟨plain (by decide) (by decide), plain (by decide) (by decide)⟩
  ⟨((dn_splitting accepted).1 (by decide)).1.mpr kept,
    ((dn_splitting corp).2 (text "CN") (text "Smith, John ") (by decide)).mpr (plain (by decide) (by decide))⟩

/-- A name that ends in an escaped space: the comma after it becomes part of the name. -/
theorem escaped_space_lost :
    parseDn (text "CN=Smith\\ ,OU=Staff,DC=corp") =
      some [⟨text "CN", text "Smith"⟩, ⟨text "OU", text "Staff"⟩, ⟨text "DC", text "corp"⟩] ∧
    leafRdn (text "CN=Smith\\ ,OU=Staff,DC=corp") = text "CN=Smith\\" ∧
    parentDn (text "CN=Smith\\ ,OU=Staff,DC=corp") = some (text "OU=Staff,DC=corp") ∧
    parseDn (leafRdn (text "CN=Smith\\ ,OU=Staff,DC=corp") ++ unit ',' :: text "OU=Staff,DC=corp") =
      some [⟨text "CN", text "Smith,OU=Staff"⟩, ⟨text "DC", text "corp"⟩] := by
  decide

end
end OpenAduc.Dn
