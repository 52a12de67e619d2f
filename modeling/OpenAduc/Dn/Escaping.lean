import OpenAduc.Dn.RoundTrip

namespace OpenAduc.Dn
open Naming

inductive Piece
  | plain (c : UInt16)
  | pair (c : UInt16)
  | byte (b : Nat)
  deriving DecidableEq

/-- The characters that only stand escaped, the backslash apart; `=` may stand as it is. -/
def mustEscape (c : UInt16) : Bool := c = 0 ∨ c ∈ (text "\"+,;<>")

/-- The pieces of a value, `passed` being how many of the next characters an escape has taken;
nothing where one stands unescaped that mustn't, or a backslash ends it. -/
def pieces : Nat → Text → Option (List Piece)
  | _, [] => some []
  | passed + 1, _ :: rest => pieces passed rest
  | 0, c :: rest =>
    if c = BACKSLASH then
      match hexPair (rest.take 2) with
      | some b => (pieces 2 rest).map (.byte b :: ·)
      | none =>
        match rest.head? with
        | none => none
        | some d => (pieces 1 rest).map (.pair d :: ·)
    else if mustEscape c then none
    else (pieces 0 rest).map (.plain c :: ·)

def isPlainSpace (p : Piece) : Bool := p = .plain (unit ' ')

/-- The text pieces stand for, bytes in a row being UTF-8. -/
def valueOf : List Nat → List Piece → Option Text
  | bytes, [] => flush [] bytes
  | bytes, .byte b :: rest => valueOf (bytes ++ [b]) rest
  | bytes, .plain c :: rest => (flush [] bytes).bind fun before => (valueOf [] rest).map (before ++ c :: ·)
  | bytes, .pair c :: rest => (flush [] bytes).bind fun before => (valueOf [] rest).map (before ++ c :: ·)

/-- The value a string stands for by RFC 4514, spaces that aren't escaped dropped at either end; an
unescaped `#` at the start is the other form, of hex digits. -/
def decodeRfc (t : Text) : Option Text :=
  (pieces 0 t).bind fun ps =>
    let ps := Runs.strip isPlainSpace ps
    if ps.head? = some (.plain (unit '#')) then none else valueOf [] ps

/-- No piece is a byte, and they stand for these characters. -/
def Spells (ps : List Piece) (v : Text) : Prop := List.Forall₂ (fun p c => p = .plain c ∨ p = .pair c) ps v

section
variable {v w rest : Text} {c : UInt16}

theorem valueOf_spells {ps : List Piece} (spells : Spells ps v) : valueOf [] ps = some v := by
  induction spells with
  | nil => rfl
  | cons first _ ih =>
    rcases first with rfl | rfl
    · rw [valueOf, ih]
      rfl
    · rw [valueOf, ih]
      rfl

def pieceOf (c : UInt16) : Piece := if isSpecial c then .pair c else .plain c

def firstPiece (c : UInt16) : Piece := if c = unit '#' ∨ c = unit ' ' then .pair c else pieceOf c

/-- The pieces of a value as it is before its end is looked at. -/
def marked : Text → List Piece
  | [] => []
  | c :: w => firstPiece c :: w.map pieceOf

theorem pieceOf_spells (c : UInt16) : pieceOf c = .plain c ∨ pieceOf c = .pair c := by
  unfold pieceOf
  split
  · exact Or.inr rfl
  · exact Or.inl rfl

theorem firstPiece_spells (c : UInt16) : firstPiece c = .plain c ∨ firstPiece c = .pair c := by
  unfold firstPiece
  split
  · exact Or.inr rfl
  · exact pieceOf_spells c

theorem marked_spells (v : Text) : Spells (marked v) v := by
  cases v with
  | nil => exact .nil
  | cons c w =>
    refine .cons (firstPiece_spells c) ?_
    induction w with
    | nil => exact .nil
    | cons d w ih => exact .cons (pieceOf_spells d) ih

theorem pieces_pair (other : hexDigit c = none) : pieces 0 (BACKSLASH :: c :: rest) =
    (pieces 0 rest).map (.pair c :: ·) := by
  rw [pieces, if_pos rfl, hexPair_eq_none other]
  simp [pieces]

/-- A character that needs no escape is a piece by itself. -/
theorem pieces_plain (plain : isSpecial c = false) :
    pieces 0 (c :: rest) = (pieces 0 rest).map (.plain c :: ·) := by
  have outside : ∀ x ∈ 0 :: text ",+\"\\<>;=", c ≠ x := by
    intro x member same
    have special : isSpecial c = true := by simpa [isSpecial, same] using member
    simp [plain] at special
  have notBackslash : c ≠ BACKSLASH := outside _ (by decide)
  have allowed : mustEscape c = false := by
    have all : (0 :: text "\"+,;<>").all (· ∈ 0 :: text ",+\"\\<>;=") = true := by decide
    by_contra refused
    have member : c ∈ 0 :: text "\"+,;<>" := by
      have listed : c = 0 ∨ c ∈ text "\"+,;<>" := by
        by_contra neither
        exact refused (by simpa [mustEscape, not_or] using neither)
      exact List.mem_cons.mpr listed
    exact outside c (by simpa using List.all_eq_true.mp all c member) rfl
  rw [pieces, if_neg notBackslash, allowed]
  rfl

/-- An escaped value is taken apart to the pieces of its characters. -/
theorem pieces_escaped (v rest : Text) :
    pieces 0 (escaped v ++ rest) = (pieces 0 rest).map (v.map pieceOf ++ ·) := by
  induction v with
  | nil => simp
  | cons c v ih =>
    rw [escaped_cons]
    split
    next special =>
      have first : pieceOf c = .pair c := if_pos special
      show pieces 0 (BACKSLASH :: c :: (escaped v ++ rest)) = _
      rw [pieces_pair (hexDigit_special special), ih, Option.map_map, List.map_cons, first]
      rfl
    next plain =>
      have first : pieceOf c = .plain c := if_neg plain
      show pieces 0 (c :: (escaped v ++ rest)) = _
      rw [pieces_plain (eq_false_of_ne_true plain), ih, Option.map_map, List.map_cons, first]
      rfl

/-- A `#` or a space needs no escape but at an end, and is no hex digit. -/
theorem edge_plain (edge : c = unit '#' ∨ c = unit ' ') : isSpecial c = false ∧ hexDigit c = none := by
  rcases edge with rfl | rfl
  · exact ⟨by decide, by decide⟩
  · exact ⟨by decide, by decide⟩

/-- The first character's escape is its piece too. -/
theorem pieces_marked (v rest : Text) :
    pieces 0 (escapeFirst (escaped v) ++ rest) = (pieces 0 rest).map (marked v ++ ·) := by
  unfold escapeFirst
  split
  next edge =>
    obtain ⟨c, first, isEdge⟩ : ∃ c, (escaped v).head? = some c ∧ (c = unit '#' ∨ c = unit ' ') := by
      rcases edge with hash | space
      · exact ⟨_, hash, Or.inl rfl⟩
      · exact ⟨_, space, Or.inr rfl⟩
    obtain ⟨plain, noHex⟩ := edge_plain isEdge
    have notBackslash : c ≠ BACKSLASH := by
      rintro rfl
      exact absurd plain (by decide)
    obtain ⟨w, rfl⟩ := head_escaped first notBackslash
    have shape : escaped (c :: w) = c :: escaped w := by simp [escaped_cons, plain]
    rw [shape]
    show pieces 0 (BACKSLASH :: c :: (escaped w ++ rest)) = _
    rw [pieces_pair noHex, pieces_escaped, Option.map_map]
    simp [marked, firstPiece, isEdge, Function.comp_def]
  next inner =>
    rw [pieces_escaped]
    cases v with
    | nil => rfl
    | cons c w =>
      have notEdge : ¬(c = unit '#' ∨ c = unit ' ') := by
        intro edge
        have shape : escaped (c :: w) = c :: escaped w := by simp [escaped_cons, (edge_plain edge).1]
        rw [shape, List.head?_cons] at inner
        exact inner (by simpa using edge)
      simp [marked, firstPiece, notEdge]

theorem isPlainSpace_pieceOf (other : c ≠ unit ' ') : isPlainSpace (pieceOf c) = false := by
  unfold pieceOf
  split
  · simp [isPlainSpace]
  · simp [isPlainSpace, other]

theorem isPlainSpace_firstPiece (c : UInt16) : isPlainSpace (firstPiece c) = false := by
  unfold firstPiece
  split
  next => simp [isPlainSpace]
  next inner => exact isPlainSpace_pieceOf fun space => inner (Or.inr space)

/-- A value's text begins with no bare space and no bare `#`. -/
theorem head_marked {p : Piece} (first : (marked v).head? = some p) :
    isPlainSpace p = false ∧ p ≠ .plain (unit '#') := by
  cases v with
  | nil => cases first
  | cons c w =>
    cases first
    refine ⟨isPlainSpace_firstPiece c, ?_⟩
    unfold firstPiece
    split
    next => simp
    next inner =>
      unfold pieceOf
      split
      · simp
      · simpa using fun hash => inner (Or.inl hash)

/-- A value with no space at its end has none at its text's. -/
theorem last_marked {p : Piece} (bare : v.getLast? ≠ some (unit ' ')) (last : (marked v).getLast? = some p) :
    isPlainSpace p = false := by
  cases v with
  | nil => cases last
  | cons c w =>
    cases w using List.reverseRecOn with
    | nil =>
      cases last
      exact isPlainSpace_firstPiece c
    | append_singleton w d _ =>
      have isLast : (marked (c :: (w ++ [d]))).getLast? = some (pieceOf d) := by
        simp [marked, List.getLast?_cons]
      cases isLast.symm.trans last
      refine isPlainSpace_pieceOf fun space => bare ?_
      rw [space, ← List.cons_append, List.getLast?_append]
      rfl

/-- Pieces that begin as a value's and whose end is no unescaped space are read as they are. -/
theorem decodeRfc_of_pieces {ps : List Piece} {t : Text} (written : pieces 0 t = some ps)
    (spells : Spells ps v)
    (first : ∀ p ∈ ps.head?, isPlainSpace p = false ∧ p ≠ .plain (unit '#'))
    (last : ∀ p ∈ ps.getLast?, isPlainSpace p = false) : decodeRfc t = some v := by
  have bare : Runs.Bare isPlainSpace ps := ⟨fun p isFirst => (first p isFirst).1, last⟩
  have noHash : ps.head? ≠ some (.plain (unit '#')) := fun hash => (first _ hash).2 rfl
  rw [decodeRfc, written, Option.bind_some, bare.strip_eq]
  show (if ps.head? = some (.plain (unit '#')) then none else valueOf [] ps) = some v
  rw [if_neg noHash, valueOf_spells spells]

/-- With no space at its end a value is read as it was. -/
theorem decodeRfc_bare (bare : v.getLast? ≠ some (unit ' ')) : decodeRfc (escapeRdnValueRfc v) = some v := by
  by_cases empty : v = []
  · subst empty
    decide
  have unchanged : escapeRdnValueRfc v = escapeFirst (escaped v) := by
    rw [escapeRdnValueRfc, if_neg empty, escapeLast, if_neg]
    rintro ⟨_, last, _⟩
    rw [getLast_escapeFirst (escaped_ne_nil empty), getLast_escaped] at last
    exact bare last
  have written : pieces 0 (escapeRdnValueRfc v) = some (marked v) := by
    have := pieces_marked v []
    simpa [unchanged, pieces] using this
  exact decodeRfc_of_pieces written (marked_spells v) (fun p => head_marked) fun p => last_marked bare

/-- What stands before the space that ends an escaped value. -/
theorem escapeRdnValueRfc_space (some_ : w ≠ []) :
    escapeRdnValueRfc (w ++ [unit ' ']) =
      if w.getLast? = some BACKSLASH then escapeFirst (escaped w) ++ [unit ' ']
      else escapeFirst (escaped w) ++ [BACKSLASH, unit ' '] := by
  have space : escaped [unit ' '] = [unit ' '] := by decide
  have whole : escapeFirst (escaped (w ++ [unit ' '])) = escapeFirst (escaped w) ++ [unit ' '] := by
    rw [escaped_append, space, escapeFirst_append (escaped_ne_nil some_)]
  have before : (escapeFirst (escaped w)).getLast? = w.getLast? := by
    rw [getLast_escapeFirst (escaped_ne_nil some_), getLast_escaped]
  have long : 1 < (escapeFirst (escaped w) ++ [unit ' ']).length := by
    have inner : escapeFirst (escaped w) ≠ [] := by
      intro empty
      rw [empty, List.getLast?_nil, eq_comm, List.getLast?_eq_none_iff] at before
      exact some_ before
    have := List.length_pos_iff.mpr inner
    simp only [List.length_append, List.length_singleton]
    omega
  rw [escapeRdnValueRfc, if_neg (by simp), whole, escapeLast, List.dropLast_concat, before]
  split
  next cond => rw [if_neg cond.2.2]
  next cond =>
    have ends : w.getLast? = some BACKSLASH := by
      by_contra other
      exact cond ⟨long, by simp, other⟩
    rw [if_pos ends]

/-- A backslash before the space leaves the space unescaped, and it is dropped. -/
theorem decodeRfc_backslash (ends : w.getLast? = some BACKSLASH) :
    decodeRfc (escapeRdnValueRfc (w ++ [unit ' '])) = some w := by
  have some_ : w ≠ [] := by
    rintro rfl
    cases ends
  have written : pieces 0 (escapeRdnValueRfc (w ++ [unit ' '])) = some (marked w ++ [.plain (unit ' ')]) := by
    rw [escapeRdnValueRfc_space some_, if_pos ends, pieces_marked]
    rfl
  have last : ∀ p ∈ (marked w).getLast?, isPlainSpace p = false := fun p isLast =>
    last_marked (by rw [ends]; decide) isLast
  have bare : Runs.Bare isPlainSpace (marked w) := ⟨fun p isFirst => (head_marked isFirst).1, last⟩
  have stripped : Runs.strip isPlainSpace (marked w ++ [Piece.plain (unit ' ')]) = marked w := by
    obtain ⟨p, more, shape⟩ := List.exists_cons_of_ne_nil (show marked w ≠ [] by
      obtain ⟨c, w, rfl⟩ := List.exists_cons_of_ne_nil some_
      simp [marked])
    have front : (marked w ++ [Piece.plain (unit ' ')]).dropWhile isPlainSpace =
      marked w ++ [.plain (unit ' ')] := by
      have visible := (head_marked (v := w) (p := p) (by rw [shape]; rfl)).1
      rw [shape, List.cons_append, List.dropWhile_cons, visible]
      rfl
    have back : (marked w).rdropWhile isPlainSpace = marked w := by
      have := bare.strip_eq
      rw [Runs.strip, shape, List.dropWhile_cons,
        (head_marked (v := w) (p := p) (by rw [shape]; rfl)).1] at this
      rw [shape]
      exact this
    rw [Runs.strip, front, List.rdropWhile_concat_pos _ _ _ (by decide), back]
  have noHash : (marked w).head? ≠ some (.plain (unit '#')) := fun hash => (head_marked hash).2 rfl
  rw [decodeRfc, written, Option.bind_some, stripped]
  show (if (marked w).head? = some (.plain (unit '#')) then none else valueOf [] (marked w)) = some w
  rw [if_neg noHash, valueOf_spells (marked_spells w)]

/-- With a backslash before the space that ends it, a value is read as it was. -/
theorem decodeRfc_escapedSpace (some_ : w ≠ []) :
    decodeRfc (escapeFirst (escaped w) ++ [BACKSLASH, unit ' ']) = some (w ++ [unit ' ']) := by
  have written : pieces 0 (escapeFirst (escaped w) ++ [BACKSLASH, unit ' ']) =
    some (marked w ++ [.pair (unit ' ')]) := by
    rw [pieces_marked, pieces_pair (by decide)]
    rfl
  have spells : Spells (marked w ++ [.pair (unit ' ')]) (w ++ [unit ' ']) :=
    List.rel_append (marked_spells w) (.cons (Or.inr rfl) .nil)
  refine decodeRfc_of_pieces written spells ?_ ?_
  · intro p first
    obtain ⟨c, w, rfl⟩ := List.exists_cons_of_ne_nil some_
    exact head_marked (v := c :: w) first
  · intro p last
    have isLast : p = .pair (unit ' ') := by simpa using last.symm
    simp [isLast, isPlainSpace]

theorem decodeRfc_space (other : w.getLast? ≠ some BACKSLASH) :
    decodeRfc (escapeRdnValueRfc (w ++ [unit ' '])) = some (w ++ [unit ' ']) := by
  by_cases empty : w = []
  · subst empty
    decide
  rw [escapeRdnValueRfc_space empty, if_neg other]
  exact decodeRfc_escapedSpace empty

/-- What is written for a value is read by RFC 4514 as the value, but where it ends in a backslash
and a space. -/
theorem decodeRfc_escapeRdnValueRfc_iff (v : Text) :
    decodeRfc (escapeRdnValueRfc v) = some v ↔ ¬ text "\\ " <:+ v := by
  have suffix : text "\\ " = [BACKSLASH] ++ [unit ' '] := by decide
  by_cases bare : v.getLast? = some (unit ' ')
  · obtain ⟨w, rfl⟩ : ∃ w, v = w ++ [unit ' '] := ⟨_, List.getLast?_eq_some_iff.mp bare |>.choose_spec⟩
    have ends : text "\\ " <:+ w ++ [unit ' '] ↔ w.getLast? = some BACKSLASH := by
      rw [suffix, List.getLast?_eq_some_iff]
      constructor
      · rintro ⟨before, whole⟩
        rw [← List.append_assoc] at whole
        exact ⟨before, (List.append_inj_left' whole rfl).symm⟩
      · rintro ⟨before, rfl⟩
        exact ⟨before, by simp⟩
    rw [ends]
    by_cases backslash : w.getLast? = some BACKSLASH
    · simp [decodeRfc_backslash backslash, backslash]
    · simp [decodeRfc_space backslash, backslash]
  · have other : ¬ text "\\ " <:+ v := by
      rintro ⟨before, rfl⟩
      exact bare (by rw [suffix, ← List.append_assoc, List.getLast?_append]; rfl)
    simp [decodeRfc_bare bare, other]

/-- The space after a backslash is taken for escaped already, and left to be dropped. -/
theorem trailing_space_lost :
    escapeRdnValueRfc (text "R&D\\ ") = text "R&D\\\\ " ∧
    decodeRfc (escapeRdnValueRfc (text "R&D\\ ")) = some (text "R&D\\") ∧ text "R&D\\" ≠ text "R&D\\ " := by
  decide

end
end OpenAduc.Dn
