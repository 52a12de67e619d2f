import Mathlib.Data.List.Forall2
import Mathlib.Data.List.Infix
import OpenAduc.Dn.Codec
import OpenAduc.Naming.Accepted

namespace OpenAduc.Dn
open Naming

section
variable {value rest : Text} {c : UInt16}

theorem hexPair_eq_none (other : hexDigit c = none) (t : Text) : hexPair ((c :: t).take 2) = none := by
  cases t with
  | nil => rfl
  | cons b t => simp [hexPair, other]

/-- An escaped character that isn't a hex digit is itself. -/
theorem scanValue_escaped (other : hexDigit c = none) :
    scanValue 0 value [] (BACKSLASH :: c :: rest) = scanValue 0 (value ++ [c]) [] rest := by
  have notComma : BACKSLASH ≠ unit ',' := by decide
  rw [scanValue, if_neg notComma, if_pos rfl, hexPair_eq_none other]
  simp [flush, scanValue]

theorem scanValue_plain (plain : isSpecial c = false) :
    scanValue 0 value [] (c :: rest) = scanValue 0 (value ++ [c]) [] rest := by
  have outside : ∀ x ∈ text ",+\"\\<>;=", c ≠ x := by
    rintro x member rfl
    simp [isSpecial, member] at plain
  have notComma : c ≠ unit ',' := outside _ (by decide)
  have notBackslash : c ≠ BACKSLASH := outside _ (by decide)
  have allowed : c ∉ text "\";<>" := by
    intro member
    have all : (text "\";<>").all (· ∈ text ",+\"\\<>;=") = true := by decide
    exact outside c (by simpa using List.all_eq_true.mp all c member) rfl
  rw [scanValue, if_neg notComma, if_neg notBackslash, if_neg allowed]
  simp [flush]

theorem hexDigit_special (special : isSpecial c = true) : hexDigit c = none := by
  have all : (0 :: text ",+\"\\<>;=").all (fun x => hexDigit x = none) = true := by decide
  have member : c ∈ 0 :: text ",+\"\\<>;=" := by simpa [isSpecial] using special
  simpa using List.all_eq_true.mp all c member

@[simp] theorem escaped_nil : escaped [] = [] := rfl

theorem escaped_cons {v : Text} :
    escaped (c :: v) = (if isSpecial c then [BACKSLASH, c] else [c]) ++ escaped v := List.flatMap_cons

theorem escaped_append {v w : Text} : escaped (v ++ w) = escaped v ++ escaped w := List.flatMap_append

/-- An escaped value is scanned to the value. -/
theorem scanValue_escapedText (v : Text) :
    scanValue 0 value [] (escaped v ++ rest) = scanValue 0 (value ++ v) [] rest := by
  induction v generalizing value with
  | nil => simp
  | cons c v ih =>
    rw [escaped_cons]
    split
    next special =>
      show scanValue 0 value [] (BACKSLASH :: c :: (escaped v ++ rest)) = _
      rw [scanValue_escaped (hexDigit_special special), ih]
      simp
    next plain =>
      show scanValue 0 value [] (c :: (escaped v ++ rest)) = _
      rw [scanValue_plain (eq_false_of_ne_true plain), ih]
      simp

theorem head_escaped {v : Text} (first : (escaped v).head? = some c) (other : c ≠ BACKSLASH) :
    ∃ w, v = c :: w := by
  cases v with
  | nil => cases first
  | cons d w =>
    rw [escaped_cons] at first
    split at first
    · exact absurd (Option.some.inj first).symm other
    · exact ⟨w, by rw [Option.some.inj first]⟩

/-- Escaping what is first changes nothing of what is scanned. -/
theorem scanValue_escapeFirst (v : Text) :
    scanValue 0 value [] (escapeFirst (escaped v) ++ rest) = scanValue 0 (value ++ v) [] rest := by
  unfold escapeFirst
  split
  next first =>
    obtain ⟨d, isFirst, other, special⟩ :
        ∃ d, (escaped v).head? = some d ∧ hexDigit d = none ∧ d ≠ BACKSLASH := by
      rcases first with hash | space
      · exact ⟨_, hash, by decide, by decide⟩
      · exact ⟨_, space, by decide, by decide⟩
    obtain ⟨w, rfl⟩ := head_escaped isFirst special
    have plain : isSpecial d = false := by
      rcases first with hash | space
      · rw [hash] at isFirst
        exact Option.some.inj isFirst ▸ by decide
      · rw [space] at isFirst
        exact Option.some.inj isFirst ▸ by decide
    have shape : escaped (d :: w) = d :: escaped w := by simp [escaped_cons, plain]
    rw [shape]
    show scanValue 0 value [] (BACKSLASH :: d :: (escaped w ++ rest)) = _
    rw [scanValue_escaped other, scanValue_escapedText]
    simp
  next => exact scanValue_escapedText v

theorem getLast_escaped (v : Text) : (escaped v).getLast? = v.getLast? := by
  cases v using List.reverseRecOn with
  | nil => rfl
  | append_singleton w d _ =>
    have ends : (escaped [d]).getLast? = some d := by
      rw [escaped_cons]
      split <;> rfl
    rw [escaped_append, List.getLast?_append, ends]
    simp

theorem escapeFirst_append {out more : Text} (some_ : out ≠ []) :
    escapeFirst (out ++ more) = escapeFirst out ++ more := by
  obtain ⟨c, t, rfl⟩ := List.exists_cons_of_ne_nil some_
  unfold escapeFirst
  rw [List.cons_append, List.head?_cons, List.head?_cons]
  split <;> rfl

theorem getLast_escapeFirst {out : Text} (some_ : out ≠ []) : (escapeFirst out).getLast? = out.getLast? := by
  unfold escapeFirst
  split
  · obtain ⟨c, t, rfl⟩ := List.exists_cons_of_ne_nil some_
    simp
  · rfl

theorem escaped_ne_nil {v : Text} (some_ : v ≠ []) : escaped v ≠ [] := by
  obtain ⟨c, t, rfl⟩ := List.exists_cons_of_ne_nil some_
  rw [escaped_cons]
  split <;> simp

/-- What is written for a value, with a comma after it, is scanned as the value. -/
theorem scanValue_escapeRdnValue (v : Text) :
    scanValue 0 value [] (escapeRdnValueRfc v ++ rest) = scanValue 0 (value ++ v) [] rest := by
  unfold escapeRdnValueRfc
  split
  next empty => simp [empty]
  next some_ =>
    unfold escapeLast
    split
    next trailing =>
      obtain ⟨_, last, before⟩ := trailing
      rw [getLast_escapeFirst (escaped_ne_nil some_), getLast_escaped] at last
      obtain ⟨w, rfl⟩ := List.getLast?_eq_some_iff.mp last
      have space : escaped [unit ' '] = [unit ' '] := by decide
      have whole : escaped (w ++ [unit ' ']) = escaped w ++ [unit ' '] := by rw [escaped_append, space]
      have inner : w ≠ [] := by
        rintro rfl
        rw [whole] at before
        exact before (by decide)
      rw [whole, escapeFirst_append (escaped_ne_nil inner), List.dropLast_concat, List.append_assoc,
        scanValue_escapeFirst]
      show scanValue 0 (value ++ w) [] (BACKSLASH :: unit ' ' :: rest) = _
      rw [scanValue_escaped (by decide), List.append_assoc]
    next => exact scanValue_escapeFirst v

end

section
variable {t rest before after : Text} {c : UInt16}

/-- What is left after a value's comma is shorter. -/
theorem scanValue_shorter {passed : Nat} {value out : Text} {bytes : List Nat}
    (h : scanValue passed value bytes t = some (out, some rest)) : rest.length < t.length := by
  induction t generalizing passed value bytes with
  | nil => cases passed <;> simp [scanValue] at h
  | cons ch t ih =>
    rw [List.length_cons]
    cases passed with
    | succ passed =>
      have := ih h
      omega
    | zero =>
      unfold scanValue at h
      split at h
      next =>
        obtain ⟨_, _, same⟩ := Option.map_eq_some_iff.mp h
        simp only [Prod.mk.injEq, Option.some.injEq] at same
        rw [same.2]
        omega
      next =>
        -- every other character that is read leaves the scan to the rest
        have inner : ∃ passed value bytes, scanValue passed value bytes t = some (out, some rest) := by
          repeat' split at h
          all_goals first | cases h | exact ⟨_, _, _, h⟩
        obtain ⟨_, _, _, scanned⟩ := inner
        have := ih scanned
        omega

theorem splitAt_append (absent : c ∉ before) : splitAt c (before ++ c :: after) = some (before, after) := by
  induction before with
  | nil => simp [splitAt]
  | cons x before ih =>
    obtain ⟨other, absent⟩ := not_or.mp (fun h => absent (List.mem_cons.mpr h))
    rw [List.cons_append, splitAt, if_neg (Ne.symm other), ih absent]
    rfl

theorem splitAt_shorter (h : splitAt c t = some (before, after)) : after.length < t.length := by
  induction t generalizing before with
  | nil => cases h
  | cons x t ih =>
    unfold splitAt at h
    split at h
    · cases h
      simp
    · obtain ⟨⟨left, right⟩, inner, same⟩ := Option.map_eq_some_iff.mp h
      cases same
      have := ih inner
      simp only [List.length_cons]
      omega

/-- Each turn leaves less to read. -/
theorem parseRdns_ends {fuel : Nat} (enough : t.length < fuel) : (parseRdns fuel t).isSome := by
  induction fuel generalizing t with
  | zero => omega
  | succ fuel ih =>
    unfold parseRdns
    split
    next => rfl
    next before after found =>
      split
      · rfl
      split
      next => rfl
      next value rest scanned =>
        split
        · rfl
        cases rest with
        | none => rfl
        | some rest =>
          have shorter := splitAt_shorter found
          have shorter' := scanValue_shorter scanned
          have ends := @ih rest (by omega)
          simpa using ends

/-- More turns change nothing of what is parsed. -/
theorem parseRdns_more {fuel more : Nat} {parsed : Option (List Rdn)} (h : parseRdns fuel t = some parsed)
    (le : fuel ≤ more) : parseRdns more t = some parsed := by
  induction fuel generalizing t more parsed with
  | zero => cases h
  | succ fuel ih =>
    obtain ⟨more, rfl⟩ : ∃ k, more = k + 1 := ⟨more - 1, by omega⟩
    unfold parseRdns at h ⊢
    split at h
    next => exact h
    next =>
      split at h
      next bad => rw [if_pos bad]; exact h
      next good =>
        rw [if_neg good]
        split at h
        next => exact h
        next value rest scanned =>
          split at h
          next blank => rw [if_pos blank]; exact h
          next some_ =>
            rw [if_neg some_]
            cases rest with
            | none => exact h
            | some rest =>
              obtain ⟨parsed, inner, same⟩ := Option.map_eq_some_iff.mp h
              show (parseRdns more rest).map _ = _
              rw [ih inner (by omega), ← same]
              rfl

end

section
variable {type v p t : Text} {rdns : List Rdn}

theorem parseRdns_of_parseDn (accepted : parseDn t = some rdns) :
    parseRdns (t.length + 1) t = some (some rdns) := by
  unfold parseDn at accepted
  split at accepted
  · cases accepted
  · exact Option.join_eq_some_iff.mp accepted

theorem isType_of_mem (isType : isTypeName t = true) {c : UInt16} (member : c ∈ t) :
    (isLatin c || isDigit c || c = unit '-') = true := by
  cases t with
  | nil => cases member
  | cons d t =>
    obtain ⟨first, others⟩ := (Bool.and_eq_true _ _).mp isType
    rcases List.mem_cons.mp member with rfl | member
    · simp [first]
    · exact List.all_eq_true.mp others c member

/-- A character other than the delimiter is in one of the parts. -/
theorem mem_part {c dot : UInt16} (member : c ∈ t) (other : c ≠ dot) : ∃ part ∈ t.splitOn dot, c ∈ part := by
  induction t with
  | nil => cases member
  | cons d t ih =>
    have shape : (d :: t).splitOn dot =
        if d == dot then [] :: t.splitOn dot else (t.splitOn dot).modifyHead (d :: ·) := by
      simp only [List.splitOn_eq_splitOnP, List.splitOnP_cons_eq_if_modifyHead]
    obtain ⟨first, parts, split_⟩ := List.exists_cons_of_ne_nil (List.splitOn_ne_nil dot t)
    rw [split_] at ih shape
    rw [shape]
    rcases List.mem_cons.mp member with rfl | member
    · simp [other]
    · obtain ⟨part, isPart, inside⟩ := ih member
      split
      · exact ⟨part, List.mem_cons_of_mem _ isPart, inside⟩
      · rcases List.mem_cons.mp isPart with rfl | isPart
        · exact ⟨d :: part, by simp, List.mem_cons_of_mem _ inside⟩
        · exact ⟨part, by simp [isPart], inside⟩

/-- An attribute type has letters, digits, hyphens and dots. -/
theorem attributeType_of_mem (isType : isAttributeType t = true) {c : UInt16} (member : c ∈ t) :
    (isLatin c || isDigit c || c = unit '-' || c = unit '.') = true := by
  rcases (Bool.or_eq_true _ _).mp isType with name | oid
  · have := isType_of_mem name member
    simp_all
  · by_cases dot : c = unit '.'
    · simp [dot]
    · obtain ⟨part, isPart, inside⟩ := mem_part member dot
      have all := List.all_eq_true.mp oid part isPart
      obtain ⟨_, digits⟩ := (Bool.and_eq_true _ _).mp all
      have := List.all_eq_true.mp digits c inside
      simp [this]

/-- Such a character is no space and no `=`. -/
theorem visible_of_mem (isType : isAttributeType t = true) {c : UInt16} (member : c ∈ t) :
    isSpace c = false ∧ c ≠ unit '=' := by
  have allowed := attributeType_of_mem isType member
  have range : (45 ≤ c.toNat ∧ c.toNat ≤ 57) ∨ (65 ≤ c.toNat ∧ c.toNat ≤ 122) := by
    simp [isLatin, isLower, isUpper, isDigit, unit, UInt16.le_iff_toNat_le, ← UInt16.toNat_inj] at allowed
    omega
  simp [isSpace, unit, UInt16.le_iff_toNat_le, ← UInt16.toNat_inj]
  omega

theorem trim_attributeType (isType : isAttributeType t = true) : trim t = t :=
  trim_bare (bare_of_all fun _ member => (visible_of_mem isType member).1)

/-- A child's DN is its own RDN, then its parent's. -/
theorem parseDn_childDn (isType : isAttributeType type = true) (shown : trim v ≠ [])
    (accepted : parseDn p = some rdns) :
    parseDn (childDn type v p) = some (⟨type, trim v⟩ :: rdns) := by
  have shape : childDn type v p = type ++ unit '=' :: (escapeRdnValueRfc v ++ unit ',' :: p) := by
    simp [childDn]
  have notBlank : trim (childDn type v p) ≠ [] := by
    have member : unit '=' ∈ childDn type v p := by simp [shape]
    exact trim_ne_nil member (by decide)
  have found : splitAt (unit '=') (childDn type v p) = some (type, escapeRdnValueRfc v ++ unit ',' :: p) := by
    rw [shape]
    exact splitAt_append fun member => (visible_of_mem isType member).2 rfl
  have scanned : scanValue 0 [] [] (escapeRdnValueRfc v ++ unit ',' :: p) = some (v, some p) := by
    rw [scanValue_escapeRdnValue, List.nil_append, scanValue, if_pos rfl]
    rfl
  have parent : parseRdns (childDn type v p).length p = some (some rdns) := by
    refine parseRdns_more (parseRdns_of_parseDn accepted) ?_
    rw [shape]
    simp only [List.length_append, List.length_cons]
    omega
  have turn : parseRdns ((childDn type v p).length + 1) (childDn type v p) =
    some (some (⟨type, trim v⟩ :: rdns)) := by
    rw [parseRdns, found]
    simp [trim_attributeType isType, isType, scanned, shown, parent]
  rw [parseDn, if_neg notBlank, turn]
  rfl

end

section
variable {u : Platform} {a b : Text}

theorem map_eq_map_iff {α β : Type} {f : α → β} {l m : List α} :
    l.map f = m.map f ↔ l.length = m.length ∧ ∀ x y, (x, y) ∈ l.zip m → f x = f y := by
  rw [← List.forall₂_eq_eq_eq, List.forall₂_map_left_iff, List.forall₂_map_right_iff, List.forall₂_iff_zip]

theorem map_suffix_iff {α β : Type} {f : α → β} {inner outer : List α} :
    outer.map f <:+ inner.map f ↔ outer.length ≤ inner.length ∧
      ∀ x y, (x, y) ∈ (inner.drop (inner.length - outer.length)).zip outer → f x = f y := by
  have lengths : (inner.drop (inner.length - outer.length)).length = outer.length ↔
    outer.length ≤ inner.length := by
    rw [List.length_drop]
    omega
  rw [List.suffix_iff_eq_drop, List.length_map, List.length_map, ← List.map_drop, eq_comm,
    map_eq_map_iff, lengths]

/-- Within a base: the base's RDNs, by key, are the last of the DN's. -/
theorem isDnWithin_iff :
    isDnWithin u a b = true ↔ ∃ inner outer, parseDn a = some inner ∧ parseDn b = some outer ∧
      outer.map (rdnKey u) <:+ inner.map (rdnKey u) := by
  unfold isDnWithin
  cases parseDn a with
  | none => simp
  | some inner =>
    cases parseDn b with
    | none => simp
    | some outer =>
      simp [map_suffix_iff]

end

/-- The codec's laws, and that parsing ends on every string. -/
theorem dn_codec (u : Platform) :
    (∀ type v p rdns, isAttributeType type = true → trim v ≠ [] → parseDn p = some rdns →
      parseDn (childDn type v p) = some (⟨type, trim v⟩ :: rdns)) ∧
    (∀ a, (parseDn a).isSome → isDnWithin u a a = true) ∧
    (∀ a b c, isDnWithin u a b = true → isDnWithin u b c = true → isDnWithin u a c = true) ∧
    (∀ type v p b, isAttributeType type = true → trim v ≠ [] → isDnWithin u p b = true →
      isDnWithin u (childDn type v p) b = true) ∧
    ∀ t : Text, (parseRdns (t.length + 1) t).isSome := by
  refine ⟨fun _ _ _ _ isType shown accepted => parseDn_childDn isType shown accepted, ?_, ?_, ?_,
    fun t => parseRdns_ends (Nat.lt_succ_self _)⟩
  · intro a accepted
    obtain ⟨rdns, accepted⟩ := Option.isSome_iff_exists.mp accepted
    exact isDnWithin_iff.mpr ⟨rdns, rdns, accepted, accepted, List.suffix_rfl⟩
  · intro a b c inside inside'
    obtain ⟨inner, middle, isA, isB, suffix⟩ := isDnWithin_iff.mp inside
    obtain ⟨middle', outer, isB', isC, suffix'⟩ := isDnWithin_iff.mp inside'
    cases isB.symm.trans isB'
    exact isDnWithin_iff.mpr ⟨inner, outer, isA, isC, suffix'.trans suffix⟩
  · intro type v p b isType shown inside
    obtain ⟨inner, outer, isP, isB, suffix⟩ := isDnWithin_iff.mp inside
    refine isDnWithin_iff.mpr ⟨_, outer, parseDn_childDn isType shown isP, isB, ?_⟩
    exact suffix.trans (List.suffix_cons _ _)

/-- John Smith in an OU: the comma in his name isn't one between RDNs. -/
theorem dn_codec_smith :
    parseDn (childDn (text "CN") (text "Smith, John ") (text "OU=People,DC=corp")) =
      some [⟨text "CN", text "Smith, John"⟩, ⟨text "OU", text "People"⟩, ⟨text "DC", text "corp"⟩] ∧
    isDnWithin .ascii (childDn (text "CN") (text "Smith, John ") (text "OU=People,DC=corp"))
      (text "dc=CORP") = true :=
  have inside : isDnWithin .ascii (text "OU=People,DC=corp") (text "dc=CORP") = true := by decide
  have parent : parseDn (text "OU=People,DC=corp") =
    some [⟨text "OU", text "People"⟩, ⟨text "DC", text "corp"⟩] := by
    decide
  ⟨(dn_codec .ascii).1 _ (text "Smith, John ") _ _ (by decide) (by decide) parent,
    (dn_codec .ascii).2.2.2.1 _ (text "Smith, John ") _ _ (by decide) (by decide) inside⟩

/-- A type that starts with a digit and isn't a number is no attribute type: the child isn't a DN
where its parent is. -/
theorem digit_type_rejected :
    (parseDn (text "DC=corp")).isSome = true ∧ trim (text "x") ≠ [] ∧
      parseDn (childDn (text "1a") (text "x") (text "DC=corp")) = none := by decide

end OpenAduc.Dn
