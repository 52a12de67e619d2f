import OpenAduc.Naming.Username
import OpenAduc.UserMatch.Matching

namespace OpenAduc.UserMatch
open Naming (Text text unit lowerUnit isUpper isUpper_iff lowerUnit_toNat lowerUnit_of_not_upper Platform)
variable (u : Platform) (localeLe : Text → Text → Bool) (users : List MatchableUser) (fold : Text → Text)

/-- The users an entry means: those with it as an identifier, else as their display name, else with
its two names in the other order. -/
def meant (whole : Text) : Option (List MatchableUser) :=
  ((holders (·.identifierKeys) users (fold whole)).or
    (holders (·.displayNameKey.toList) users (fold whole))).or
    ((commaFallbacks u whole).reordered.bind fun name => holders (·.displayNameKey.toList) users (fold name))

/-- An entry that means nobody as a whole is matched as its pieces, where it has some. -/
def AsPieces (whole : Text) : Prop := meant u users fold whole = none ∧ (commaFallbacks u whole).pieces ≠ []

variable {u localeLe users fold} {whole entry : Text} {s : Matches} {fuel : Nat}

theorem resolve_seen (seen : fold whole ∈ s.seen) :
    resolve u localeLe users fold (fuel + 1) entry whole s = some s := by
  rw [resolve]
  exact if_pos seen

/-- The two maps' answers, in terms of who has the key. -/
theorem lookup_eq (whole : Text) :
    (((Assoc.get (byIdentifier users) (fold whole)).or (Assoc.get (byDisplayName users) (fold whole))).or
      ((commaFallbacks u whole).reordered.bind fun name => Assoc.get (byDisplayName users) (fold name))).map
        (List.map Prod.fst) = meant u users fold whole := by
  have names := get_users (·.displayNameKey.toList) users
  rw [meant, ← get_users, ← names, Option.map_or, Option.map_or, Option.map_bind]
  congr 1
  congr 1
  funext name
  exact names (fold name)

/-- An entry not seen yet is matched, or taken in pieces, or reported as it is. -/
theorem resolve_fresh (fresh : fold whole ∉ s.seen) : resolve u localeLe users fold (fuel + 1) entry whole s =
    match meant u users fold whole with
    | some found => some ((s.see (fold whole)).push (resultOf localeLe entry (some found)))
    | none =>
      if 0 < (commaFallbacks u whole).pieces.length then
        (commaFallbacks u whole).pieces.foldlM
          (fun s piece => resolve u localeLe users fold fuel piece piece s)
          (s.see (fold whole))
      else some ((s.see (fold whole)).push (resultOf localeLe entry none)) := by
  rw [resolve, ← lookup_eq]
  dsimp only
  rw [if_neg fresh]
  cases (Assoc.get (byIdentifier users) (fold whole)).or (Assoc.get (byDisplayName users) (fold whole)) with
  | some found => rfl
  | none =>
    rw [Option.none_or]
    cases (commaFallbacks u whole).reordered.bind fun name => Assoc.get (byDisplayName users) (fold name) with
    | some found => rfl
    | none => rfl

theorem resolve_pieces (fresh : fold whole ∉ s.seen) (pieces : AsPieces u users fold whole) :
    resolve u localeLe users fold (fuel + 1) entry whole s =
      (commaFallbacks u whole).pieces.foldlM (fun s piece => resolve u localeLe users fold fuel piece piece s)
        (s.see (fold whole)) := by
  rw [resolve_fresh fresh, pieces.1]
  exact if_pos (List.length_pos_iff.mpr pieces.2)

theorem resolve_whole (fresh : fold whole ∉ s.seen) (alone : ¬AsPieces u users fold whole) :
    resolve u localeLe users fold (fuel + 1) entry whole s =
      some ((s.see (fold whole)).push (resultOf localeLe entry (meant u users fold whole))) := by
  rw [resolve_fresh fresh]
  cases found : meant u users fold whole with
  | some list => rfl
  | none =>
    have none_left : ¬0 < (commaFallbacks u whole).pieces.length := fun some_left =>
      alone ⟨found, List.length_pos_iff.mp some_left⟩
    exact if_neg none_left

variable (u localeLe users fold)

/-- An entry's text that is looked up, with the text shown for it: a pasted one, or a piece of one. -/
inductive Source (entries : List Text) : Text → Text → Prop
  | entry {raw whole : Text} : raw ∈ entries → normalizeEntry u raw = some whole →
      Source entries (cleanEntry u raw) whole
  | piece {raw whole piece : Text} : raw ∈ entries → normalizeEntry u raw = some whole →
    AsPieces u users fold whole →
      piece ∈ (commaFallbacks u whole).pieces → Source entries piece piece

/-- A result is the one for a text with this key. -/
def Reports (entries : List Text) (key : Text) (result : UserMatchResult) : Prop :=
  ∃ entry whole, Source u users fold entries entry whole ∧ fold whole = key ∧ ¬AsPieces u users fold whole ∧
    result = resultOf localeLe entry (meant u users fold whole)

/-- A text's key has a result, or where it is matched as pieces each of theirs has and it has none. -/
def Covers (keys : List Text) (whole : Text) : Prop :=
  (AsPieces u users fold whole → fold whole ∉ keys ∧ ∀ piece ∈ (commaFallbacks u whole).pieces,
    fold piece ∈ keys) ∧
    (¬AsPieces u users fold whole → fold whole ∈ keys)

/-- The first of the entries with a key, as it is looked up. -/
def firstWith (entries : List Text) (key : Text) : Option Text :=
  (entries.filterMap (normalizeEntry u)).find? fun whole => fold whole = key

/-- A case fold neither makes a comma nor drops one. -/
def FoldsCommas (fold : Text → Text) : Prop := ∀ t, unit ',' ∈ fold t ↔ unit ',' ∈ t

/-- What is true after some of the entries: the keys with results, and those seen. -/
structure Tidy (done : List Text) (s : Matches) (keys : List Text) : Prop where
  apart : keys.Nodup
  reports : List.Forall₂ (Reports u localeLe users fold done) keys s.results
  seen : ∀ k ∈ keys, k ∈ s.seen
  entries : ∀ raw ∈ done, ∀ whole ∈ normalizeEntry u raw, fold whole ∈ s.seen
  origins : ∀ k ∈ s.seen, unit ',' ∈ k → ∃ raw ∈ done, ∃ whole ∈ normalizeEntry u raw, fold whole = k
  settled : ∀ k ∈ s.seen, unit ',' ∉ k → k ∈ keys

variable {u localeLe users fold} {done keys : List Text}

theorem Source.mono {more : List Text} (source : Source u users fold done entry whole) :
    Source u users fold (done ++ more) entry whole := by
  cases source with
  | entry member looked => exact .entry (List.mem_append_left more member) looked
  | piece member looked pieces inside => exact .piece (List.mem_append_left more member) looked pieces inside

theorem reports_mono {more : List Text} {results : List UserMatchResult}
    (reports : List.Forall₂ (Reports u localeLe users fold done) keys results) :
    List.Forall₂ (Reports u localeLe users fold (done ++ more)) keys results :=
  reports.imp fun _ _ ⟨entry, whole, source, rest⟩ => ⟨entry, whole, source.mono, rest⟩

theorem not_asPieces_of_comma (absent : unit ',' ∉ whole) : ¬AsPieces u users fold whole := by
  rintro ⟨-, some_left⟩
  rw [commaFallbacks_none absent] at some_left
  exact some_left rfl

/-- A text with a key nobody had before, that isn't matched as pieces, gets a result. -/
theorem Tidy.push (tidy : Tidy u localeLe users fold done s keys) (more : List Text)
    (source : Source u users fold (done ++ more) entry whole) (fresh : fold whole ∉ s.seen)
    (alone : ¬AsPieces u users fold whole)
    (origin : unit ',' ∈ fold whole → ∃ raw ∈ done ++ more, ∃ other ∈ normalizeEntry u raw,
      fold other = fold whole)
    (looked : ∀ raw ∈ more, ∀ other ∈ normalizeEntry u raw, fold other = fold whole) :
    Tidy u localeLe users fold (done ++ more)
      ((s.see (fold whole)).push (resultOf localeLe entry (meant u users fold whole)))
      (keys ++ [fold whole]) where
  apart := by
    have absent : fold whole ∉ keys := fun member => fresh (tidy.seen _ member)
    rw [List.nodup_append]
    exact ⟨tidy.apart, by
      simp, fun k member k' last same => absent (by rwa [← List.mem_singleton.mp last, ← same])⟩
  reports := List.rel_append (reports_mono tidy.reports) (.cons ⟨entry, whole, source, rfl, alone, rfl⟩ .nil)
  seen := by
    intro k member
    obtain before | last := List.mem_append.mp member
    · exact List.mem_append_left _ (tidy.seen k before)
    · exact List.mem_append_right _ last
  entries := by
    intro raw member other looked'
    obtain before | later := List.mem_append.mp member
    · exact List.mem_append_left _ (tidy.entries raw before other looked')
    · exact List.mem_append_right _ (by simp [looked raw later other looked'])
  origins := by
    intro k member comma
    obtain before | last := List.mem_append.mp member
    · obtain ⟨raw, inside, origin'⟩ := tidy.origins k before comma
      exact ⟨raw, List.mem_append_left _ inside, origin'⟩
    · obtain rfl := List.mem_singleton.mp last
      exact origin comma
  settled := by
    intro k member absent
    obtain before | last := List.mem_append.mp member
    · exact List.mem_append_left _ (tidy.settled k before absent)
    · exact List.mem_append_right _ last

/-- A text without a comma is settled as it is: its key has a result after it. -/
theorem Tidy.settle (fuel : Nat) (commas : FoldsCommas fold) (tidy : Tidy u localeLe users fold done s keys)
    (source : Source u users fold done entry whole) (absent : unit ',' ∉ whole) :
    ∃ s' keys', resolve u localeLe users fold (fuel + 1) entry whole s = some s' ∧
      Tidy u localeLe users fold done s' keys' ∧
      keys ⊆ keys' ∧ (∀ k ∈ keys', k ∈ keys ∨ unit ',' ∉ k) ∧ fold whole ∈ keys' := by
  have plain : unit ',' ∉ fold whole := fun member => absent ((commas whole).mp member)
  have alone : ¬AsPieces u users fold whole := not_asPieces_of_comma absent
  by_cases fresh : fold whole ∈ s.seen
  · exact ⟨s, keys, resolve_seen fresh, tidy, List.Subset.refl keys, fun k member =>
      .inl member, tidy.settled _ fresh plain⟩
  · have pushed :=
      tidy.push [] (by rwa [List.append_nil]) fresh alone (fun comma => absurd comma plain) (by simp)
    rw [List.append_nil] at pushed
    refine ⟨_, _, resolve_whole fresh alone, pushed, List.subset_append_left keys _, fun k member =>
      ?_, by simp⟩
    obtain before | last := List.mem_append.mp member
    · exact .inl before
    · exact .inr (List.mem_singleton.mp last ▸ plain)

/-- Pieces are matched once each. -/
theorem Tidy.pieces (fuel : Nat) (commas : FoldsCommas fold) {pieces : List Text}
    (tidy : Tidy u localeLe users fold done s keys)
    (sources : ∀ p ∈ pieces, Source u users fold done p p) (absent : ∀ p ∈ pieces, unit ',' ∉ p) :
    ∃ s' keys', pieces.foldlM
      (fun s piece => resolve u localeLe users fold (fuel + 1) piece piece s) s = some s' ∧
      Tidy u localeLe users fold done s' keys' ∧ keys ⊆ keys' ∧ (∀ k ∈ keys', k ∈ keys ∨ unit ',' ∉ k) ∧
      ∀ p ∈ pieces, fold p ∈ keys' := by
  induction pieces generalizing s keys with
  | nil => exact ⟨s, keys, rfl, tidy, List.Subset.refl keys, fun k member => .inl member, by simp⟩
  | cons p pieces ih =>
    obtain ⟨s₁, keys₁, ran, tidy₁, kept₁, origin₁, there⟩ :=
      tidy.settle fuel commas (sources p List.mem_cons_self) (absent p List.mem_cons_self)
    obtain ⟨s₂, keys₂, ran₂, tidy₂, kept₂, origin₂, rest⟩ := ih tidy₁
      (fun q member => sources q (List.mem_cons_of_mem p member))
        (fun q member => absent q (List.mem_cons_of_mem p member))
    refine ⟨s₂, keys₂, ?_, tidy₂, List.Subset.trans kept₁ kept₂, fun k member => ?_, fun q member => ?_⟩
    · rw [List.foldlM_cons, ran]
      exact ran₂
    · exact (origin₂ k member).elim (fun before => origin₁ k before) .inr
    · obtain rfl | later := List.mem_cons.mp member
      · exact kept₂ there
      · exact rest q later

/-- What has been covered stays so when keys are added that are new or have no comma. -/
theorem Covers.mono (commas : FoldsCommas fold) {keys' : List Text} (covers : Covers u users fold keys whole)
    (kept : keys ⊆ keys') (added : fold whole ∈ keys' → fold whole ∈ keys ∨ unit ',' ∉ fold whole) :
    Covers u users fold keys' whole := by
  constructor
  · intro pieces
    obtain ⟨none, each⟩ := covers.1 pieces
    refine ⟨fun member => ?_, fun p inside => kept (each p inside)⟩
    obtain before | absent := added member
    · exact none before
    · exact not_asPieces_of_comma (fun comma => absent ((commas whole).mpr comma)) pieces
  · exact fun alone => kept (covers.2 alone)

/-- One more entry that is looked up. -/
theorem firstWith_append {raw : Text} {key : Text} (looked : normalizeEntry u raw = some whole) :
    firstWith u fold (done ++ [raw]) key =
      (firstWith u fold done key).or (if fold whole = key then some whole else none) := by
  have one : [raw].filterMap (normalizeEntry u) = [whole] := by simp [looked]
  rw [firstWith, List.filterMap_append, one, List.find?_append, firstWith]
  by_cases same : fold whole = key <;> simp [same]

theorem firstWith_some {key : Text} (found : firstWith u fold done key = some whole) :
    fold whole = key ∧ ∃ raw ∈ done, normalizeEntry u raw = some whole := by
  have key' := List.find?_some found
  obtain ⟨raw, member, looked⟩ := List.mem_filterMap.mp (List.mem_of_find?_eq_some found)
  exact ⟨of_decide_eq_true key', raw, member, looked⟩

theorem firstWith_none {key : Text} (none : firstWith u fold done key = none) :
    ∀ raw ∈ done, ∀ whole ∈ normalizeEntry u raw, fold whole ≠ key := by
  intro raw member whole looked same
  have absent := List.find?_eq_none.mp none whole (List.mem_filterMap.mpr ⟨raw, member, looked⟩)
  exact absent (decide_eq_true same)

/-- What is true after some of the entries, with every one of them accounted for. -/
structure Accounted (u : Platform) (localeLe : Text → Text → Bool) (users : List MatchableUser)
    (fold : Text → Text)
    (done : List Text) (s : Matches) (keys : List Text) : Prop where
  tidy : Tidy u localeLe users fold done s keys
  covered : ∀ key whole, firstWith u fold done key = some whole → Covers u users fold keys whole

/-- An entry seen before gets no second result. -/
theorem Tidy.skip {raw : Text} (tidy : Tidy u localeLe users fold done s keys)
    (looked : ∀ whole ∈ normalizeEntry u raw, fold whole ∈ s.seen) :
    Tidy u localeLe users fold (done ++ [raw]) s keys where
  apart := tidy.apart
  reports := reports_mono tidy.reports
  seen := tidy.seen
  entries := by
    intro raw' member whole looked'
    obtain before | last := List.mem_append.mp member
    · exact tidy.entries raw' before whole looked'
    · obtain rfl := List.mem_singleton.mp last
      exact looked whole looked'
  origins := by
    intro k member comma
    obtain ⟨raw', before, origin⟩ := tidy.origins k member comma
    exact ⟨raw', List.mem_append_left _ before, origin⟩
  settled := tidy.settled

/-- A key seen, of an entry that is matched as pieces. -/
theorem Tidy.see {raw : Text} (tidy : Tidy u localeLe users fold done s keys)
    (looked : normalizeEntry u raw = some whole)
    (comma : unit ',' ∈ fold whole) : Tidy u localeLe users fold (done ++ [raw])
      (s.see (fold whole)) keys where
  apart := tidy.apart
  reports := reports_mono tidy.reports
  seen := fun k member => List.mem_append_left _ (tidy.seen k member)
  entries := by
    intro raw' member whole' looked'
    obtain before | last := List.mem_append.mp member
    · exact List.mem_append_left _ (tidy.entries raw' before whole' looked')
    · obtain rfl := List.mem_singleton.mp last
      rw [looked, Option.mem_some_iff] at looked'
      exact List.mem_append_right _ (by simp [looked'])
  origins := by
    intro k member comma
    obtain before | last := List.mem_append.mp member
    · obtain ⟨raw', inside, origin⟩ := tidy.origins k before comma
      exact ⟨raw', List.mem_append_left _ inside, origin⟩
    · exact ⟨raw, by simp, whole, looked, (List.mem_singleton.mp last).symm⟩
  settled := by
    intro k member absent
    obtain before | last := List.mem_append.mp member
    · exact tidy.settled k before absent
    · exact absurd (List.mem_singleton.mp last ▸ comma) absent

/-- An entry whose key was seen is accounted for already. -/
theorem Accounted.seen (commas : FoldsCommas fold) {raw : Text}
    (accounted : Accounted u localeLe users fold done s keys)
    (looked : normalizeEntry u raw = some whole) (seen : fold whole ∈ s.seen) :
    Accounted u localeLe users fold (done ++ [raw]) s keys where
  tidy := accounted.tidy.skip fun whole' looked' => by
    rw [looked, Option.mem_some_iff] at looked'
    rwa [← looked']
  covered := by
    intro key first found
    rw [firstWith_append looked] at found
    cases before : firstWith u fold done key with
    | some other =>
      rw [before, Option.some_or] at found
      exact Option.some.inj found ▸ accounted.covered key other before
    | none =>
      rw [before, Option.none_or] at found
      split at found
      next same =>
        obtain rfl := Option.some.inj found
        -- Its key can only be a piece's, which has no comma.
        have absent : unit ',' ∉ fold whole := by
          intro comma
          obtain ⟨raw', member, other, looked', same'⟩ := accounted.tidy.origins _ seen comma
          exact firstWith_none before raw' member other looked' (same'.trans same)
        exact ⟨fun pieces =>
          absurd pieces (not_asPieces_of_comma fun comma => absent ((commas whole).mpr comma)),
          fun _ => accounted.tidy.settled _ seen absent⟩
      next => exact absurd found (by simp)

/-- After a new key, the entries before it stay covered and its own is. -/
theorem Accounted.covered_append (commas : FoldsCommas fold) {raw : Text} {keys' : List Text}
    (accounted : Accounted u localeLe users fold done s keys) (looked : normalizeEntry u raw = some whole)
    (fresh : fold whole ∉ s.seen) (kept : keys ⊆ keys')
    (added : ∀ k ∈ keys', k ∈ keys ∨ unit ',' ∉ k ∨ k = fold whole)
    (covers : Covers u users fold keys' whole) :
    ∀ key first, firstWith u fold (done ++ [raw]) key = some first → Covers u users fold keys' first := by
  intro key first found
  rw [firstWith_append looked] at found
  cases before : firstWith u fold done key with
  | some other =>
    rw [before, Option.some_or] at found
    obtain rfl := Option.some.inj found
    obtain ⟨same, raw', member, looked'⟩ := firstWith_some before
    refine (accounted.covered key other before).mono commas kept fun member' => ?_
    obtain inside | absent | new := added _ member'
    · exact .inl inside
    · exact .inr absent
    · exact absurd (new ▸ accounted.tidy.entries raw' member other looked') fresh
  | none =>
    rw [before, Option.none_or] at found
    split at found
    next => exact Option.some.inj found ▸ covers
    next => exact absurd found (by simp)

/-- An entry matched whole is accounted for. -/
theorem Accounted.alone (commas : FoldsCommas fold) {raw : Text}
    (accounted : Accounted u localeLe users fold done s keys)
    (looked : normalizeEntry u raw = some whole) (fresh : fold whole ∉ s.seen)
    (alone : ¬AsPieces u users fold whole) :
    Accounted u localeLe users fold (done ++ [raw])
      ((s.see (fold whole)).push (resultOf localeLe (cleanEntry u raw) (meant u users fold whole)))
      (keys ++ [fold whole]) where
  tidy := accounted.tidy.push [raw] (.entry (by simp) looked) fresh alone
    (fun _ => ⟨raw, by simp, whole, looked, rfl⟩)
    fun raw' member other looked' => by
      rw [List.mem_singleton.mp member, looked, Option.mem_some_iff] at looked'
      rw [looked']
  covered := by
    refine accounted.covered_append commas looked fresh (List.subset_append_left keys _) (fun k member => ?_)
      ⟨fun pieces => absurd pieces alone, fun _ => by simp⟩
    obtain before | last := List.mem_append.mp member
    · exact .inl before
    · exact .inr (.inr (List.mem_singleton.mp last))

/-- An entry taken in pieces is accounted for piece by piece. -/
theorem Accounted.pieces (keeps : KeepsCommas u) (commas : FoldsCommas fold) {raw : Text}
    (accounted : Accounted u localeLe users fold done s keys) (looked : normalizeEntry u raw = some whole)
    (fresh : fold whole ∉ s.seen) (pieces : AsPieces u users fold whole) :
    ∃ s' keys', resolve u localeLe users fold (fuel + 2) entry whole s = some s' ∧
      Accounted u localeLe users fold (done ++ [raw]) s' keys' := by
  have comma : unit ',' ∈ fold whole := by
    by_contra absent
    exact not_asPieces_of_comma (fun inside => absent ((commas whole).mpr inside)) pieces
  obtain ⟨s', keys', ran, tidy, kept, added, each⟩ := (accounted.tidy.see looked comma).pieces fuel commas
    (fun p member => .piece (by simp) looked pieces member) (fun p => piece_comma keeps p)
  refine ⟨s', keys', by rw [resolve_pieces fresh pieces, ran], tidy, ?_⟩
  refine accounted.covered_append commas looked fresh kept (fun k member => (added k member).imp_right .inl)
    ⟨fun _ => ⟨fun member => ?_, each⟩, fun alone => absurd pieces alone⟩
  obtain before | absent := added _ member
  · exact fresh (accounted.tidy.seen _ before)
  · exact absent comma

/-- Every entry is accounted for after the ones before it were. -/
theorem Accounted.step (fuel : Nat) (keeps : KeepsCommas u) (commas : FoldsCommas fold)
    (accounted : Accounted u localeLe users fold done s keys) (raw : Text) :
    ∃ s' keys', resolveEntry u localeLe users fold (fuel + 2) s raw = some s' ∧
      Accounted u localeLe users fold (done ++ [raw]) s' keys' := by
  unfold resolveEntry
  cases looked : normalizeEntry u raw with
  | none =>
    refine ⟨s, keys, rfl, accounted.tidy.skip (by simp [looked]), fun key whole found =>
      accounted.covered key whole ?_⟩
    rwa [firstWith, List.filterMap_append, show [raw].filterMap (normalizeEntry u) =
      [] by simp [looked], List.append_nil]
      at found
  | some whole =>
    by_cases seen : fold whole ∈ s.seen
    · exact ⟨s, keys, resolve_seen seen, accounted.seen commas looked seen⟩
    · by_cases pieces : AsPieces u users fold whole
      · exact accounted.pieces keeps commas looked seen pieces
      · exact ⟨_, _, resolve_whole seen pieces, accounted.alone commas looked seen pieces⟩

/-- Every entry of a run is accounted for, whatever the fuel. -/
theorem accounted_run (localeLe : Text → Text → Bool) (users : List MatchableUser) (fuel : Nat)
    (keeps : KeepsCommas u) (commas : FoldsCommas fold) (entries : List Text) :
    ∃ s keys, entries.foldlM (resolveEntry u localeLe users fold (fuel + 2))
      { seen := [], results := [] } = some s ∧
      Accounted u localeLe users fold entries s keys := by
  induction entries using List.reverseRecOn with
  | nil =>
    refine ⟨_, [], rfl, ⟨?_, ?_⟩⟩
    · constructor <;> simp
    · intro key whole found
      exact absurd found (by simp [firstWith])
  | append_singleton entries raw ih =>
    obtain ⟨s, keys, ran, accounted⟩ := ih
    obtain ⟨s', keys', step, accounted'⟩ := accounted.step fuel keeps commas raw
    refine ⟨s', keys', ?_, accounted'⟩
    rw [List.foldlM_append, ran]
    simpa using step

section
variable {users' : List MatchableUser} {fold' : Text → Text} {looked : List Text}

/-- Two directories and two case folds answer these lookups alike. -/
structure Alike (users : List MatchableUser) (fold : Text → Text) (users' : List MatchableUser)
    (fold' : Text → Text)
    (looked : List Text) : Prop where
  folds : ∀ t ∈ looked, fold' t = fold t
  identifiers : ∀ t ∈ looked, holders (·.identifierKeys) users' (fold t) =
    holders (·.identifierKeys) users (fold t)
  names : ∀ t ∈ looked, holders (·.displayNameKey.toList) users' (fold t) =
    holders (·.displayNameKey.toList) users (fold t)

/-- Everything looked up for a text is listed, and its pieces have none of their own. -/
structure Listed (u : Platform) (looked : List Text) (whole : Text) : Prop where
  listed : whole ∈ looked
  reordered : ∀ name ∈ (commaFallbacks u whole).reordered, name ∈ looked
  pieces : ∀ p ∈ (commaFallbacks u whole).pieces, p ∈ looked ∧ unit ',' ∉ p

theorem meant_alike (alike : Alike users fold users' fold' looked) (listed : Listed u looked whole) :
    meant u users' fold' whole = meant u users fold whole := by
  unfold meant
  rw [alike.folds whole listed.listed, alike.identifiers whole listed.listed, alike.names whole listed.listed]
  congr 1
  cases named : (commaFallbacks u whole).reordered with
  | none => rfl
  | some name =>
    have inside := listed.reordered name named
    rw [Option.bind_some, Option.bind_some, alike.folds name inside, alike.names name inside]

theorem listed_piece (listed : Listed u looked whole) : ∀ p ∈ (commaFallbacks u whole).pieces,
    Listed u looked p := by
  intro p member
  obtain ⟨inside, absent⟩ := listed.pieces p member
  have none := commaFallbacks_none (u := u) absent
  exact ⟨inside, by simp [none], by simp [none]⟩

theorem foldlM_congr {σ α : Type} {f g : σ → α → Option σ} {l : List α}
    (same : ∀ a ∈ l, ∀ s, f s a = g s a) (s : σ) :
    l.foldlM f s = l.foldlM g s := by
  induction l generalizing s with
  | nil => rfl
  | cons a l ih =>
    rw [List.foldlM_cons, List.foldlM_cons, same a List.mem_cons_self]
    exact congrArg _ (funext fun s => ih (fun b member => same b (List.mem_cons_of_mem a member)) s)

/-- Directories alike on what is looked up resolve an entry alike. -/
theorem resolve_alike (alike : Alike users fold users' fold' looked) (listed : Listed u looked whole) :
    resolve u localeLe users' fold' fuel entry whole s = resolve u localeLe users fold fuel entry
      whole s := by
  induction fuel generalizing entry whole s with
  | zero => rfl
  | succ fuel ih =>
    have same := alike.folds whole listed.listed
    by_cases seen : fold whole ∈ s.seen
    · rw [resolve_seen seen, resolve_seen (same ▸ seen)]
    · rw [resolve_fresh seen, resolve_fresh (same ▸ seen), meant_alike alike listed, same]
      cases meant u users fold whole with
      | some found => rfl
      | none =>
        have pieces : ∀ s', (commaFallbacks u whole).pieces.foldlM
            (fun s piece => resolve u localeLe users' fold' fuel piece piece s) s' =
            (commaFallbacks u whole).pieces.foldlM
              (fun s piece => resolve u localeLe users fold fuel piece piece s) s' :=
          foldlM_congr fun p member s => ih (listed_piece listed p member)
        rw [pieces]

theorem matchEntries_alike {entries : List Text} (alike : Alike users fold users' fold' looked)
    (listed : ∀ raw ∈ entries, ∀ whole ∈ normalizeEntry u raw, Listed u looked whole) :
    matchEntries u localeLe users' fold' fuel entries = matchEntries u localeLe users fold fuel entries := by
  have entry : ∀ raw ∈ entries, ∀ s, resolveEntry u localeLe users' fold' fuel s raw =
    resolveEntry u localeLe users fold fuel s raw := by
    intro raw member s
    unfold resolveEntry
    cases looked' : normalizeEntry u raw with
    | none => rfl
    | some whole => exact resolve_alike alike (listed raw member whole looked')
  rw [matchEntries, matchEntries, foldlM_congr entry]

/-- The lookups for some entries list all that is looked up for each. -/
theorem listed_lookupsFor (keeps : KeepsCommas u) {entries : List Text} {raw : Text} (member : raw ∈ entries)
    (looked : normalizeEntry u raw = some whole) : Listed u (lookupsFor u entries) whole := by
  have own : ∀ t ∈ lookupsOf u raw, t ∈ lookupsFor u entries := fun t inside =>
    List.mem_eraseDups.mpr (List.mem_flatMap.mpr ⟨raw, member, inside⟩)
  have parts : lookupsOf u raw = whole ::
    ((commaFallbacks u whole).reordered.toList ++ (commaFallbacks u whole).pieces) := by
    rw [lookupsOf, looked]
  rw [parts] at own
  refine ⟨own whole List.mem_cons_self, fun name named => own name ?_, fun p inside =>
    ⟨own p ?_, piece_comma keeps p inside⟩⟩
  · exact List.mem_cons_of_mem _ (List.mem_append_left _ (Option.mem_toList.mpr named))
  · exact List.mem_cons_of_mem _ (List.mem_append_right _ inside)

/-- Users without a key don't show in who has it. -/
theorem holders_filter {keysOf : MatchableUser → List Text} {kept : MatchableUser → Bool} {key : Text}
    (found : ∀ user ∈ users, key ∈ keysOf user → kept user = true) :
    holders keysOf (users.filter kept) key = holders keysOf users key := by
  have same : (users.filter kept).filter (key ∈ keysOf ·) = users.filter (key ∈ keysOf ·) := by
    rw [List.filter_filter]
    refine List.filter_congr fun user member => ?_
    by_cases held : key ∈ keysOf user
    · simp [held, found user member held]
    · simp [held]
  rw [holders, holders, same]

/-- A user has one of the keys these lookups fold to. -/
def LookedUp (fold : Text → Text) (looked : List Text) (user : MatchableUser) : Prop :=
  ∃ t ∈ looked, fold t ∈ user.identifierKeys ∨ user.displayNameKey = some (fold t)

theorem alike_filter {kept : MatchableUser → Bool} (folds : ∀ t ∈ looked, fold' t = fold t)
    (found : ∀ user ∈ users, LookedUp fold looked user → kept user = true) :
    Alike users fold (users.filter kept) fold' looked where
  folds := folds
  identifiers t member := holders_filter fun user inside held => found user inside ⟨t, member, .inl held⟩
  names t member := holders_filter fun user inside held =>
    found user inside ⟨t, member, .inr (Option.mem_toList.mp held)⟩

end

/-- The people a result names. -/
def UserMatchResult.people : UserMatchResult → List UserMatchCandidate
  | .matched _ user => [user]
  | .ambiguous _ candidates => candidates
  | .unmatched _ => []

/-- Whom a result names was found for it. -/
theorem mem_people {candidate : UserMatchCandidate} {found : Option (List MatchableUser)}
    (named : candidate ∈ (resultOf localeLe entry found).people) :
    ∃ list, found = some list ∧ ∃ user ∈ list, user.toUserMatchCandidate = candidate := by
  cases found with
  | none => exact absurd named (by simp [resultOf, UserMatchResult.people])
  | some list =>
    refine ⟨list, rfl, ?_⟩
    match list with
    | [] => exact absurd named (by simp [resultOf, UserMatchResult.people])
    | [user] => exact ⟨user, by simp, (List.mem_singleton.mp named).symm⟩
    | first :: second :: rest =>
      have inside := List.mem_mergeSort.mp named
      obtain ⟨user, member, same⟩ := List.mem_map.mp inside
      exact ⟨user, member, same⟩

theorem meant_identifier {user : MatchableUser} (member : user ∈ users)
    (held : fold whole ∈ user.identifierKeys)
    (some_key : fold whole ≠ []) : ∀ list ∈ meant u users fold whole, ∀ other ∈ list,
      fold whole ∈ other.identifierKeys := by
  have some_left : users.filter (fold whole ∈ ·.identifierKeys) ≠ [] :=
    List.ne_nil_of_mem (List.mem_filter.mpr ⟨member, decide_eq_true held⟩)
  have found : holders (·.identifierKeys) users (fold whole) =
    some (users.filter (fold whole ∈ ·.identifierKeys)) := by
    rw [holders]
    exact if_neg (by simp only [some_key, some_left, or_self, not_false_eq_true])
  intro list named other inside
  rw [meant, found, Option.some_or, Option.some_or, Option.mem_some_iff] at named
  subst named
  exact of_decide_eq_true (List.mem_filter.mp inside).2

variable (u localeLe users fold) in
/-- One result for each key, covering every entry, that names only an identifier's own accounts. -/
structure MatchedOnce (entries : List Text) (keys : List Text) (results : List UserMatchResult) : Prop where
  apart : keys.Nodup
  reports : List.Forall₂ (Reports u localeLe users fold entries) keys results
  covered : ∀ raw ∈ entries, ∀ whole ∈ normalizeEntry u raw, ∃ first,
    firstWith u fold entries (fold whole) = some first ∧ Covers u users fold keys first
  identified : List.Forall₂ (fun key result => key ≠ [] → (∃ user ∈ users, key ∈ user.identifierKeys) →
    ∀ person ∈ result.people, ∃ user ∈ users, user.toUserMatchCandidate = person ∧
      key ∈ user.identifierKeys) keys results

/-- An identifier's result names only those who have it. -/
theorem identified_of_reports {entries : List Text} {results : List UserMatchResult}
    (reports : List.Forall₂ (Reports u localeLe users fold entries) keys results) :
    List.Forall₂ (fun key result => key ≠ [] → (∃ user ∈ users, key ∈ user.identifierKeys) →
      ∀ person ∈ result.people, ∃ user ∈ users, user.toUserMatchCandidate = person ∧
      key ∈ user.identifierKeys) keys results := by
  refine reports.imp fun key result reported some_key held person named => ?_
  obtain ⟨entry, whole, -, rfl, -, rfl⟩ := reported
  obtain ⟨owner, ownerIn, owns⟩ := held
  obtain ⟨list, found, user, inside, same⟩ := mem_people named
  have identified := meant_identifier ownerIn owns some_key list found user inside
  have member : user ∈ users := by
    have only : list = users.filter (fold whole ∈ ·.identifierKeys) := by
      have some_left : users.filter (fold whole ∈ ·.identifierKeys) ≠ [] :=
        List.ne_nil_of_mem (List.mem_filter.mpr ⟨ownerIn, decide_eq_true owns⟩)
      rw [meant, holders] at found
      simp only [some_key, some_left, or_self, if_false, Option.some_or, Option.some.injEq] at found
      exact found.symm
    exact List.mem_of_mem_filter (only ▸ inside)
  exact ⟨user, member, same, identified⟩

/-- Matching ends with each entry accounted for once by its key, an identifier's entry naming its
own accounts only, and a directory and a case fold that answer the lookups give the same. -/
theorem matchEntries_right (u : Platform) (localeLe : Text → Text → Bool)
    (users : List MatchableUser) (fold : Text → Text)
    (keeps : KeepsCommas u) (commas : FoldsCommas fold) {fuel : Nat} (enough : 2 ≤ fuel)
    (entries : List Text) :
    ∃ results keys, matchEntries u localeLe users fold fuel entries = some results ∧
      MatchedOnce u localeLe users fold entries keys results ∧
      ∀ (fold' : Text → Text) (kept : MatchableUser → Bool), (∀ t ∈ lookupsFor u entries, fold' t = fold t) →
        (∀ user ∈ users, LookedUp fold (lookupsFor u entries) user → kept user = true) →
        matchEntries u localeLe (users.filter kept) fold' fuel entries = some results := by
  obtain ⟨more, rfl⟩ := Nat.exists_eq_add_of_le' enough
  obtain ⟨s, keys, ran, accounted⟩ := accounted_run localeLe users more keeps commas entries
  have matched : matchEntries u localeLe users fold (more + 2) entries = some s.results := by
    rw [matchEntries, ran]
    rfl
  refine ⟨s.results, keys, matched,
    ⟨accounted.tidy.apart, accounted.tidy.reports, fun raw member whole looked => ?_,
    identified_of_reports accounted.tidy.reports⟩, fun fold' kept folds found => ?_⟩
  · cases first : firstWith u fold entries (fold whole) with
    | none => exact absurd rfl (firstWith_none first raw member whole looked)
    | some other => exact ⟨other, rfl, accounted.covered _ other first⟩
  · rw [matchEntries_alike (alike_filter folds found) fun raw member whole looked =>
      listed_lookupsFor keeps member looked, matched]

def jane : MatchableUser :=
  { id := text "1", samAccountName := text "jdoe", identifierKeys := [text "jdoe"],
    displayNameKey := some (text "jane doe") }

theorem lower_commas : FoldsCommas (List.map lowerUnit) := by
  have only : ∀ c : UInt16, lowerUnit c = unit ',' ↔ c = unit ',' := by
    intro c
    by_cases upper : isUpper c = true
    · have range := isUpper_iff.mp upper
      have sum := lowerUnit_toNat upper
      have comma : (unit ',').toNat = 44 := rfl
      rw [← UInt16.toNat_inj, ← UInt16.toNat_inj, sum, comma]
      omega
    · rw [lowerUnit_of_not_upper (eq_false_of_ne_true upper)]
  intro t
  simp [only]

theorem matchEntries_right_jane : ∃ results keys,
    matchEntries .ascii (fun _ _ => true) [jane] (List.map lowerUnit) 2
      [text "Doe, Jane", text "JDOE"] = some results ∧
      MatchedOnce .ascii (fun _ _ => true) [jane] (List.map lowerUnit)
      [text "Doe, Jane", text "JDOE"] keys results := by
  obtain ⟨results, keys, matched, once, -⟩ :=
    matchEntries_right .ascii (fun _ _ => true) [jane] (List.map lowerUnit)
    (fun _ absent => absent) lower_commas le_rfl [text "Doe, Jane", text "JDOE"]
  exact ⟨results, keys, matched, once⟩

end OpenAduc.UserMatch
