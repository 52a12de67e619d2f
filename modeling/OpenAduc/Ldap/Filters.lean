import OpenAduc.Dn.Escaping

namespace OpenAduc.Ldap
open Naming Dn

/-- One condition on an attribute; an empty start or end of `substrings` is none. -/
inductive Condition
  | equal (attr value : Text)
  | greaterOrEqual (attr value : Text)
  | lessOrEqual (attr value : Text)
  | approx (attr value : Text)
  | present (attr : Text)
  | substrings (attr initial : Text) (any : List Text) (final : Text)
  | extensible (attr rule value : Text)
  deriving DecidableEq, Repr

inductive Filter
  | item (c : Condition)
  | all (fs : List Filter)
  | any (fs : List Filter)
  | not (f : Filter)
  deriving Repr

def STAR : UInt16 := 0x2a

def OPEN : UInt16 := 0x28

def CLOSE : UInt16 := 0x29

/-- The characters a value has escaped. -/
def isFilterSpecial (c : UInt16) : Bool := c = BACKSLASH ∨ c = STAR ∨ c = OPEN ∨ c = CLOSE ∨ c = 0

/-- The digits of a byte, `toString(16)` padded to two. -/
def hexByte (c : UInt16) : Text :=
  let digits := (Nat.toDigits 16 c.toNat).map unit
  if digits.length < 2 then unit '0' :: digits else digits

def escapeLdapFilter (input : Text) : Text :=
  input.flatMap fun c => if isFilterSpecial c then BACKSLASH :: hexByte c else [c]

def Condition.print : Condition → Text
  | .equal attr value => attr ++ unit '=' :: escapeLdapFilter value
  | .greaterOrEqual attr value => attr ++ unit '>' :: unit '=' :: escapeLdapFilter value
  | .lessOrEqual attr value => attr ++ unit '<' :: unit '=' :: escapeLdapFilter value
  | .approx attr value => attr ++ unit '~' :: unit '=' :: escapeLdapFilter value
  | .present attr => attr ++ [unit '=', STAR]
  | .substrings attr initial any final =>
    attr ++ unit '=' :: [STAR].intercalate ((initial :: any ++ [final]).map escapeLdapFilter)
  | .extensible attr rule value => attr ++ unit ':' :: rule ++ unit ':' :: unit '=' :: escapeLdapFilter value

mutual

def Filter.print : Filter → Text
  | .item c => OPEN :: c.print ++ [CLOSE]
  | .all fs => OPEN :: unit '&' :: printMany fs ++ [CLOSE]
  | .any fs => OPEN :: unit '|' :: printMany fs ++ [CLOSE]
  | .not f => OPEN :: unit '!' :: f.print ++ [CLOSE]

def printMany : List Filter → Text
  | [] => []
  | f :: fs => f.print ++ printMany fs

end

/-- The pieces of a value; nothing where a backslash has no two digits after it, or a NUL stands in it. -/
def filterPieces : Nat → Text → Option (List Piece)
  | _, [] => some []
  | passed + 1, _ :: rest => filterPieces passed rest
  | 0, c :: rest =>
    if c = BACKSLASH then
      match hexPair (rest.take 2) with
      | some b => (filterPieces 2 rest).map (.byte b :: ·)
      | none => none
    else if c = 0 then none
    else (filterPieces 0 rest).map (.plain c :: ·)

def decodeValue (t : Text) : Option Text := (filterPieces 0 t).bind (Dn.valueOf [])

/-- An attribute's name or OID, with its options. -/
def isDescription (t : Text) : Bool :=
  t ≠ [] && t.all fun c => isLatin c || isDigit c || c = unit '-' || c = unit '.' || c = unit ';'

def conditionOn (attr : Text) : List Text → Option Condition
  | [] => none
  | [value] => some (.equal attr value)
  | initial :: second :: rest =>
    let any := (second :: rest).dropLast
    let final := (second :: rest).getLast?.getD []
    if any.any (· = []) then none
    else if initial = [] ∧ any = [] ∧ final = [] then some (.present attr)
    else some (.substrings attr initial any final)

def readValue (attr value : Text) : Option Condition :=
  ((value.splitOn STAR).mapM decodeValue).bind (conditionOn attr)

/-- A condition without its parentheses. -/
def readItem (t : Text) : Option Condition :=
  match splitAt (unit '=') t with
  | none => none
  | some (left, value) =>
    match left.getLast? with
    | none => none
    | some c =>
      let attr := left.dropLast
      if c = unit '>' then if isDescription attr then (decodeValue value).map (.greaterOrEqual attr) else none
      else if c = unit '<' then if isDescription attr then
        (decodeValue value).map (.lessOrEqual attr) else none
      else if c = unit '~' then if isDescription attr then (decodeValue value).map (.approx attr) else none
      else if c = unit ':' then
        match splitAt (unit ':') attr with
        | some (name, rule) =>
          if isDescription name ∧ isDescription rule then
            (decodeValue value).map (.extensible name rule) else none
        | none => none
      else if isDescription left then readValue left value
      else none

inductive Op
  | all
  | any
  | not
  deriving DecidableEq, Repr

/-- A list of filters begun and not yet closed. -/
structure Frame where
  op : Op
  filters : List Filter

inductive Reading
  /-- Before a filter, or the end of the innermost list. -/
  | before (stack : List Frame)
  /-- After a filter's opening parenthesis. -/
  | begun (stack : List Frame)
  | item (stack : List Frame) (sofar : Text)
  | done (f : Filter)
  | failed

/-- A filter has been read. -/
def push (f : Filter) : List Frame → Reading
  | [] => .done f
  | frame :: stack => .before ({ frame with filters := frame.filters ++ [f] } :: stack)

/-- A list of at least one filter, exactly one for a negation. -/
def Frame.close (frame : Frame) : Option Filter :=
  match frame.op, frame.filters with
  | _, [] => none
  | .all, fs => some (.all fs)
  | .any, fs => some (.any fs)
  | .not, [f] => some (.not f)
  | .not, _ => none

def readUnit : Reading → UInt16 → Reading
  | .before stack, c =>
    if c = OPEN then .begun stack
    else if c = CLOSE then
      match stack with
      | [] => .failed
      | frame :: stack =>
        match frame.close with
        | some f => push f stack
        | none => .failed
    else .failed
  | .begun stack, c =>
    if c = unit '&' then .before (⟨.all, []⟩ :: stack)
    else if c = unit '|' then .before (⟨.any, []⟩ :: stack)
    else if c = unit '!' then .before (⟨.not, []⟩ :: stack)
    else if c = OPEN ∨ c = CLOSE then .failed
    else .item stack [c]
  | .item stack sofar, c =>
    if c = OPEN then .failed
    else if c = CLOSE then
      match readItem sofar with
      | some condition => push (.item condition) stack
      | none => .failed
    else .item stack (sofar ++ [c])
  | .done _, _ => .failed
  | .failed, _ => .failed

/-- The filter a text is, read from its front. -/
def readFilter (t : Text) : Option Filter :=
  match t.foldl readUnit (.before []) with
  | .done f => some f
  | _ => none

def Condition.Plain : Condition → Prop
  | .equal attr _ | .greaterOrEqual attr _ | .lessOrEqual attr _ | .approx attr _ | .present attr =>
      isDescription attr
  | .substrings attr initial any final =>
    isDescription attr ∧ (∀ piece ∈ any, piece ≠ []) ∧ (initial ≠ [] ∨ any ≠ [] ∨ final ≠ [])
  | .extensible attr rule _ => isDescription attr ∧ isDescription rule

mutual

/-- Every list in it has a filter, and every condition an attribute. -/
def Filter.Plain : Filter → Prop
  | .item c => c.Plain
  | .all fs | .any fs => fs ≠ [] ∧ PlainMany fs
  | .not f => f.Plain

def PlainMany : List Filter → Prop
  | [] => True
  | f :: fs => f.Plain ∧ PlainMany fs

end

section
variable {v t rest : Text} {c : UInt16} {stack : List Frame}

def valuePiece (c : UInt16) : Piece := if isFilterSpecial c then .byte c.toNat else .plain c

theorem isFilterSpecial_iff : isFilterSpecial c = true ↔ c ∈ [BACKSLASH, STAR, OPEN, CLOSE, 0] := by
  simp [isFilterSpecial]

/-- An escape's digits read back, and are no character a value has escaped. -/
theorem hexByte_special (special : isFilterSpecial c = true) :
    ∃ a b, hexByte c = [a, b] ∧ hexPair [a, b] = some c.toNat ∧ isFilterSpecial a = false ∧
      isFilterSpecial b = false ∧ c.toNat < 0x80 := by
  have all : [BACKSLASH, STAR, OPEN, CLOSE, 0].all
    (fun c => hexByte c = [(hexByte c).headD 0, (hexByte c).getLastD 0] ∧
      hexPair (hexByte c) = some c.toNat ∧ isFilterSpecial ((hexByte c).headD 0) = false ∧
      isFilterSpecial ((hexByte c).getLastD 0) = false ∧ c.toNat < 0x80) = true := by decide
  have here := of_decide_eq_true (List.all_eq_true.mp all c (isFilterSpecial_iff.mp special))
  exact ⟨_, _, here.1, here.1 ▸ here.2.1, here.2.2⟩

theorem escape_cons_special (special : isFilterSpecial c = true) :
    escapeLdapFilter (c :: v) = BACKSLASH :: hexByte c ++ escapeLdapFilter v := by
  simp [escapeLdapFilter, special]

theorem escape_cons_plain (plain : isFilterSpecial c = false) :
    escapeLdapFilter (c :: v) = c :: escapeLdapFilter v := by
  simp [escapeLdapFilter, plain]

/-- An escaped value is taken apart to its characters. -/
theorem filterPieces_escape (v : Text) : filterPieces 0 (escapeLdapFilter v) = some (v.map valuePiece) := by
  induction v with
  | nil => rfl
  | cons c v ih =>
    cases special : isFilterSpecial c with
    | true =>
      obtain ⟨a, b, digits, pair, _⟩ := hexByte_special special
      rw [escape_cons_special special, digits]
      simp only [List.cons_append, List.nil_append, filterPieces, List.take_succ_cons,
        List.take_zero, pair, if_true, ih]
      simp [valuePiece, special]
    | false =>
      have notBackslash : c ≠ BACKSLASH := fun is => by simp [isFilterSpecial, is] at special
      have notNul : c ≠ 0 := fun is => by simp [isFilterSpecial, is] at special
      rw [escape_cons_plain special]
      simp only [filterPieces, if_neg notBackslash, if_neg notNul, ih]
      simp [valuePiece, special]

theorem decodeFrom_ascii {bytes : List Nat} (ascii : ∀ b ∈ bytes, b < 0x80) :
    decodeURIComponent bytes = some (bytes.map UInt16.ofNat) := by
  unfold decodeURIComponent
  induction bytes with
  | nil => rfl
  | cons b bytes ih =>
    have first := ascii b List.mem_cons_self
    have small : b < 0x10000 := first.trans (by decide)
    rw [decodeFrom, leadByte, if_pos first]
    simp only [ih fun x member => ascii x (List.mem_cons_of_mem _ member), unitsOfPoint, if_pos small]
    rfl

theorem flush_ascii {bytes : List Nat} (ascii : ∀ b ∈ bytes, b < 0x80) :
    flush [] bytes = some (bytes.map UInt16.ofNat) := by
  unfold flush
  split
  next none_ => rw [none_, List.map_nil]
  next => rw [decodeFrom_ascii ascii, Option.map_some, List.nil_append]

/-- ASCII bytes before a value are their characters. -/
theorem valueOf_pieces (bytes : List Nat) (ascii : ∀ b ∈ bytes, b < 0x80) (v : Text) :
    Dn.valueOf bytes (v.map valuePiece) = some (bytes.map UInt16.ofNat ++ v) := by
  induction v generalizing bytes with
  | nil => rw [List.map_nil, Dn.valueOf, flush_ascii ascii, List.append_nil]
  | cons c v ih =>
    cases special : isFilterSpecial c with
    | true =>
      obtain ⟨_, _, _, _, _, _, small⟩ := hexByte_special special
      have later : ∀ b ∈ bytes ++ [c.toNat], b < 0x80 := by
        intro b member
        rcases List.mem_append.mp member with before | here
        · exact ascii b before
        · exact List.mem_singleton.mp here ▸ small
      rw [List.map_cons, valuePiece, special, if_pos rfl, Dn.valueOf, ih _ later]
      simp
    | false =>
      rw [List.map_cons, valuePiece, special, if_neg Bool.false_ne_true, Dn.valueOf,
        flush_ascii ascii, ih [] (by simp)]
      rfl

/-- A value written is read back, whatever is in it. -/
theorem decodeValue_escape (v : Text) : decodeValue (escapeLdapFilter v) = some v := by
  rw [decodeValue, filterPieces_escape]
  exact valueOf_pieces [] (by simp) v

/-- No parenthesis and no star stands in a written value. -/
theorem escape_clean (member : c ∈ escapeLdapFilter v) : c ≠ STAR ∧ c ≠ OPEN ∧ c ≠ CLOSE := by
  have plain : ∀ d, isFilterSpecial d = false → d ≠ STAR ∧ d ≠ OPEN ∧ d ≠ CLOSE := by
    intro d plain
    simp only [isFilterSpecial, decide_eq_false_iff_not, not_or] at plain
    exact ⟨plain.2.1, plain.2.2.1, plain.2.2.2.1⟩
  obtain ⟨d, _, here⟩ := List.mem_flatMap.mp member
  split at here
  next special =>
    obtain ⟨a, b, digits, _, plainA, plainB, _⟩ := hexByte_special special
    rw [digits] at here
    rcases List.mem_cons.mp here with rfl | here
    · decide
    · rcases List.mem_pair.mp here with rfl | rfl
      · exact plain _ plainA
      · exact plain _ plainB
  next other =>
    rw [List.mem_singleton.mp here]
    exact plain d (by simpa using other)

variable {attr : Text}

theorem description_of (described : isDescription attr = true) : attr ≠ [] ∧ ∀ c ∈ attr,
    (isLatin c || isDigit c || c = unit '-' || c = unit '.' || c = unit ';') = true := by
  unfold isDescription at described
  rw [Bool.and_eq_true, decide_eq_true_eq, List.all_eq_true] at described
  exact described

/-- What a name holds is none of the characters filters are written with. -/
theorem description_apart (described : isDescription attr = true) {x : UInt16}
    (sign : x ∈ [unit '=', unit '>', unit '<', unit '~', unit ':', OPEN, CLOSE, STAR, unit '&',
      unit '|', unit '!']) : x ∉ attr := by
  intro member
  have fits := (description_of described).2 x member
  have all : [unit '=', unit '>', unit '<', unit '~', unit ':', OPEN, CLOSE, STAR, unit '&',
    unit '|', unit '!'].all
      (fun c => (isLatin c || isDigit c || c = unit '-' || c = unit '.' || c = unit ';') = false) =
        true := by decide
  have other := of_decide_eq_true (List.all_eq_true.mp all x sign)
  rw [other] at fits
  cases fits

theorem getLast_description (described : isDescription attr = true) : ∃ c, attr.getLast? = some c ∧
    c ∈ attr := by
  have some_ := (description_of described).1
  exact ⟨attr.getLast some_, List.getLast?_eq_some_getLast some_, List.getLast_mem some_⟩

theorem splitOn_escape (pieces : List Text) (some_ : pieces ≠ []) :
    ([STAR].intercalate (pieces.map escapeLdapFilter)).splitOn STAR = pieces.map escapeLdapFilter := by
  refine List.splitOn_intercalate STAR ?_ (by simpa using some_)
  intro t member star
  obtain ⟨v, _, rfl⟩ := List.mem_map.mp member
  exact (escape_clean star).1 rfl

theorem mapM_decodeValue (pieces : List Text) : (pieces.map escapeLdapFilter).mapM decodeValue =
    some pieces := by
  induction pieces with
  | nil => rfl
  | cons v pieces ih => simp [List.mapM_cons, decodeValue_escape, ih]

theorem readValue_pieces (pieces : List Text) (some_ : pieces ≠ []) :
    readValue attr ([STAR].intercalate (pieces.map escapeLdapFilter)) = conditionOn attr pieces := by
  rw [readValue, splitOn_escape pieces some_, mapM_decodeValue]
  rfl

theorem readItem_value {value : Text} (described : isDescription attr = true) :
    readItem (attr ++ unit '=' :: value) = readValue attr value := by
  have absent : unit '=' ∉ attr := description_apart described (by decide)
  obtain ⟨c, last, member⟩ := getLast_description described
  have apart (x : UInt16)
    (sign : x ∈ [unit '=', unit '>', unit '<', unit '~', unit ':', OPEN, CLOSE, STAR, unit '&',
    unit '|', unit '!']) : c ≠ x :=
    fun is => description_apart described sign (is ▸ member)
  rw [readItem, splitAt_append absent]
  simp only [last, if_neg (apart (unit '>') (by decide)), if_neg (apart (unit '<') (by decide)),
    if_neg (apart (unit '~') (by decide)),
    if_neg (apart (unit ':') (by decide)), described, if_true]

theorem splitAt_signed {sign : UInt16} {value : Text} (described : isDescription attr = true)
    (other : sign ≠ unit '=') :
    splitAt (unit '=') (attr ++ sign :: unit '=' :: value) = some (attr ++ [sign], value) := by
  have absent : unit '=' ∉ attr ++ [sign] := by
    intro member
    rcases List.mem_append.mp member with inside | last
    · exact description_apart described (by decide) inside
    · exact other (List.mem_singleton.mp last).symm
  have split : splitAt (unit '=') ((attr ++ [sign]) ++ unit '=' :: value) =
    some (attr ++ [sign], value) := splitAt_append absent
  rw [← split]
  simp

theorem signs_apart : unit '<' ≠ unit '>' ∧ unit '~' ≠ unit '>' ∧ unit '~' ≠ unit '<' ∧
    unit ':' ≠ unit '>' ∧ unit ':' ≠ unit '<' ∧
    unit ':' ≠ unit '~' ∧ unit ':' ≠ unit '=' := by decide

/-- Pieces between stars are a substrings condition. -/
theorem conditionOn_substrings {initial final : Text} {any : List Text} (pieces : ∀ piece ∈ any, piece ≠ [])
    (some_ : initial ≠ [] ∨ any ≠ [] ∨ final ≠ []) :
    conditionOn attr (initial :: any ++ [final]) = some (.substrings attr initial any final) := by
  obtain ⟨second, rest, split⟩ : ∃ second rest, any ++ [final] = second :: rest := by
    cases any with
    | nil => exact ⟨final, [], rfl⟩
    | cons piece any => exact ⟨piece, any ++ [final], rfl⟩
  have inside : (second :: rest).dropLast = any := by rw [← split, List.dropLast_concat]
  have last : (second :: rest).getLast? = some final := by rw [← split, List.getLast?_concat]
  have none_ : (any.any fun piece => decide (piece = [])) = false := by simpa using pieces
  have notPresent : ¬(initial = [] ∧ any = [] ∧ final = []) := by
    rintro ⟨start, middle, ending⟩
    simp [start, middle, ending] at some_
  rw [List.cons_append, split, conditionOn]
  simp only [inside, last, none_, Bool.false_eq_true, if_false, Option.getD_some, if_neg notPresent]

/-- An extensible match is read back with its rule. -/
theorem readItem_extensible {rule value : Text} (name : isDescription attr = true)
    (described : isDescription rule = true) :
    readItem (Condition.extensible attr rule value).print = some (.extensible attr rule value) := by
  have absent : unit '=' ∉ attr ++ unit ':' :: rule ++ [unit ':'] := by
    simp only [List.mem_append, List.mem_cons, List.not_mem_nil, or_false, not_or]
    exact ⟨⟨description_apart name
      (by decide), by decide, description_apart described (by decide)⟩, by decide⟩
  have left : splitAt (unit '=') (Condition.extensible attr rule value).print =
      some (attr ++ unit ':' :: rule ++ [unit ':'], escapeLdapFilter value) := by
    have split : splitAt (unit '=')
      ((attr ++ unit ':' :: rule ++ [unit ':']) ++ unit '=' :: escapeLdapFilter value) =
        some (attr ++ unit ':' :: rule ++ [unit ':'], escapeLdapFilter value) := splitAt_append absent
    rw [← split]
    simp [Condition.print]
  have right : splitAt (unit ':') (attr ++ unit ':' :: rule) = some (attr, rule) :=
    splitAt_append (description_apart name (by decide))
  rw [readItem, left]
  simp only [List.getLast?_concat, List.dropLast_concat, if_neg signs_apart.2.2.2.1,
    if_neg signs_apart.2.2.2.2.1,
    if_neg signs_apart.2.2.2.2.2.1, if_true, right, name, described, and_self, decodeValue_escape,
      Option.map_some]

/-- A condition written is read back. -/
theorem readItem_print {c : Condition} (plain : c.Plain) : readItem c.print = some c := by
  cases c with
  | equal attr value =>
    have whole : [STAR].intercalate ([value].map escapeLdapFilter) = escapeLdapFilter value := by simp
    rw [Condition.print, readItem_value plain, ← whole, readValue_pieces [value] (by simp)]
    rfl
  | greaterOrEqual attr value | lessOrEqual attr value | approx attr value =>
    have described : isDescription attr = true := plain
    rw [Condition.print, readItem, splitAt_signed described (by decide)]
    simp [described, decodeValue_escape, signs_apart]
  | present attr =>
    have whole : [STAR].intercalate (([[], []] : List Text).map escapeLdapFilter) = [STAR] := by decide
    rw [Condition.print, readItem_value plain, ← whole, readValue_pieces [[], []] (by simp)]
    rfl
  | substrings attr initial any final =>
    obtain ⟨described, pieces, some_⟩ := plain
    rw [Condition.print, readItem_value described, readValue_pieces _ (by simp),
      conditionOn_substrings pieces some_]
  | extensible attr rule value => exact readItem_extensible plain.1 plain.2

/-- Escaped pieces between stars have no parenthesis. -/
theorem mem_pieces {pieces : List Text}
    (member : c ∈ [STAR].intercalate (pieces.map escapeLdapFilter)) : c ≠ OPEN ∧ c ≠ CLOSE := by
  induction pieces with
  | nil => cases member
  | cons v pieces ih =>
    cases pieces with
    | nil =>
      have whole : [STAR].intercalate ([v].map escapeLdapFilter) = escapeLdapFilter v := by simp
      rw [whole] at member
      exact (escape_clean member).2
    | cons w pieces =>
      have split : [STAR].intercalate ((v :: w :: pieces).map escapeLdapFilter) =
          escapeLdapFilter v ++ STAR :: [STAR].intercalate ((w :: pieces).map escapeLdapFilter) := by simp
      rw [split] at member
      rcases List.mem_append.mp member with inside | later
      · exact (escape_clean inside).2
      · rcases List.mem_cons.mp later with rfl | later
        · decide
        · exact ih later

/-- A written condition starts with an attribute, and no parenthesis stands after it. -/
theorem print_split {c : Condition} (plain : c.Plain) :
    ∃ name tail, isDescription name = true ∧ c.print = name ++ tail ∧ ∀ x ∈ tail, x ≠ OPEN ∧ x ≠ CLOSE := by
  have value : ∀ {v : Text}, ∀ x ∈ escapeLdapFilter v, x ≠ OPEN ∧ x ≠ CLOSE :=
    fun x member => (escape_clean member).2
  have signed : ∀ {sign : UInt16} {tail : Text}, sign ≠ OPEN ∧ sign ≠ CLOSE →
    (∀ x ∈ tail, x ≠ OPEN ∧ x ≠ CLOSE) →
      ∀ x ∈ sign :: tail, x ≠ OPEN ∧ x ≠ CLOSE := fun apart rest x member => by
    rcases List.mem_cons.mp member with rfl | later
    · exact apart
    · exact rest x later
  cases c with
  | equal attr v => exact ⟨attr, _, plain, rfl, signed (by decide) value⟩
  | greaterOrEqual attr v | lessOrEqual attr v | approx attr v =>
    exact ⟨attr, _, plain, rfl, signed (by decide) (signed (by decide) value)⟩
  | present attr => exact ⟨attr, _, plain, rfl, signed (by decide) (signed (by decide) (by simp))⟩
  | substrings attr initial any final => exact ⟨attr, _, plain.1, rfl, signed (by decide) fun x => mem_pieces⟩
  | extensible attr rule v =>
    refine ⟨attr, unit ':' :: rule ++ unit ':' :: unit '=' :: escapeLdapFilter v,
      plain.1, by simp [Condition.print], fun x member => ?_⟩
    rcases List.mem_append.mp member with before | after
    · refine signed (by decide) (fun y inRule => ?_) x before
      exact ⟨fun is => description_apart plain.2 (by decide) (is ▸ inRule), fun is =>
        description_apart plain.2 (by decide) (is ▸ inRule)⟩
    · exact signed (by decide) (signed (by decide) value) x after

theorem readUnit_item (t : Text) (clean : ∀ x ∈ t, x ≠ OPEN ∧ x ≠ CLOSE) (sofar : Text) :
    t.foldl readUnit (.item stack sofar) = .item stack (sofar ++ t) := by
  induction t generalizing sofar with
  | nil => rw [List.append_nil]; rfl
  | cons c t ih =>
    have apart := clean c List.mem_cons_self
    rw [List.foldl_cons, readUnit, if_neg apart.1, if_neg apart.2, ih fun x member =>
      clean x (List.mem_cons_of_mem _ member)]
    simp

theorem bar_apart : unit '|' ≠ unit '&' := by decide

theorem bang_apart : unit '!' ≠ unit '&' ∧ unit '!' ≠ unit '|' := by decide

theorem readUnit_open : readUnit (.before stack) OPEN = .begun stack := by simp [readUnit]

/-- An item's text is read back as the item. -/
theorem read_item {c : Condition} (plain : c.Plain) :
    (Filter.item c).print.foldl readUnit (.before stack) = push (.item c) stack := by
  obtain ⟨name, tail, described, split, clean⟩ := print_split plain
  obtain ⟨first, more, named⟩ := List.exists_cons_of_ne_nil (description_of described).1
  have apart (x : UInt16)
    (sign : x ∈ [unit '=', unit '>', unit '<', unit '~', unit ':', OPEN, CLOSE, STAR, unit '&',
    unit '|', unit '!']) :
      first ≠ x := fun is => description_apart described sign (by rw [named, is]; exact List.mem_cons_self)
  have whole : c.print = first :: (more ++ tail) := by rw [split, named, List.cons_append]
  have inside : ∀ x ∈ more ++ tail, x ≠ OPEN ∧ x ≠ CLOSE := by
    intro x member
    rcases List.mem_append.mp member with inName | after
    · have inName : x ∈ name := named ▸ List.mem_cons_of_mem _ inName
      exact ⟨fun is => description_apart described (by decide) (is ▸ inName), fun is =>
        description_apart described (by decide) (is ▸ inName)⟩
    · exact clean x after
  have started : readUnit (.begun stack) first = .item stack [first] := by
    simp [readUnit, apart (unit '&') (by decide), apart (unit '|') (by decide), apart (unit '!') (by decide),
      apart OPEN (by decide), apart CLOSE (by decide)]
  have read : c.print.foldl readUnit (.begun stack) = .item stack c.print := by
    rw [whole, List.foldl_cons, started, readUnit_item _ inside]
    rfl
  have closed : readUnit (.item stack c.print) CLOSE = push (.item c) stack := by
    rw [readUnit, if_neg (by decide), if_pos rfl, readItem_print plain]
  rw [Filter.print, List.cons_append, List.foldl_cons, readUnit_open, List.foldl_append, read]
  exact closed

theorem read_list (sign : UInt16) (op : Op) (fs : List Filter) (f : Filter)
    (starts : ∀ stack, readUnit (.begun stack) sign = .before (⟨op, []⟩ :: stack))
    (inside : (printMany fs).foldl readUnit (.before (⟨op, []⟩ :: stack)) = .before (⟨op, fs⟩ :: stack))
    (closes : Frame.close ⟨op, fs⟩ = some f) :
    (OPEN :: sign :: printMany fs ++ [CLOSE]).foldl readUnit (.before stack) = push f stack := by
  rw [List.cons_append, List.foldl_cons, readUnit_open, List.cons_append, List.foldl_cons, starts,
    List.foldl_append, inside]
  rw [List.foldl_cons, List.foldl_nil, readUnit, if_neg (by decide), if_pos rfl]
  simp only [closes]

mutual

/-- A filter written is read back, inside whatever lists it stands. -/
theorem read_print (f : Filter) (plain : f.Plain) (stack : List Frame) :
    f.print.foldl readUnit (.before stack) = push f stack := by
  cases f with
  | item c => exact read_item plain
  | all fs =>
    refine read_list (unit '&') .all fs _ (fun _ => by simp [readUnit])
      (read_printMany fs plain.2 .all [] stack) ?_
    obtain ⟨first, rest, split⟩ := List.exists_cons_of_ne_nil plain.1
    rw [split]
    rfl
  | any fs =>
    refine read_list (unit '|') .any fs _ (fun _ => by simp [readUnit, bar_apart])
      (read_printMany fs plain.2 .any [] stack) ?_
    obtain ⟨first, rest, split⟩ := List.exists_cons_of_ne_nil plain.1
    rw [split]
    rfl
  | not f =>
    have one : printMany [f] = f.print := by rw [printMany, printMany, List.append_nil]
    rw [Filter.print, ← one]
    refine read_list (unit '!') .not [f] _ (fun _ => by simp [readUnit, bang_apart]) ?_ rfl
    rw [one, read_print f plain, push]
    rfl

theorem read_printMany (fs : List Filter) (plain : PlainMany fs) (op : Op) (done : List Filter)
    (stack : List Frame) :
    (printMany fs).foldl readUnit (.before (⟨op, done⟩ :: stack)) = .before (⟨op, done ++ fs⟩ :: stack) := by
  cases fs with
  | nil => rw [printMany, List.append_nil]; rfl
  | cons f fs =>
    rw [printMany, List.foldl_append, read_print f plain.1, push, read_printMany fs plain.2]
    simp

end

/-- Every filter written is read as itself. -/
theorem readFilter_print (f : Filter) (plain : f.Plain) : readFilter f.print = some f := by
  rw [readFilter, read_print f plain []]
  rfl

end
end OpenAduc.Ldap
