import OpenAduc.Lib.Accumulate
import OpenAduc.Lib.Assoc
import OpenAduc.Naming.Username

namespace OpenAduc.UserImport
open Naming

/-- A person in the directory, as far as an import's rows are told from them. -/
structure ImportPerson where
  distinguishedName : Text
  samAccountName : Option Text
  userPrincipalName : Option Text
  displayName : Option Text
  employeeId : Option Text
  /-- mail and the SMTP proxy addresses, without `smtp:`. -/
  addresses : List Text
  deriving DecidableEq

/-- An account the import creates, with the addresses it takes. -/
structure PlannedAccount where
  index : Nat
  email : Option Text
  upn : Text
  samAccountName : Text
  deriving DecidableEq

def nameOfPerson (p : ImportPerson) : Text :=
  (p.displayName.or p.samAccountName).getD p.distinguishedName

section
variable (u : Platform)

/-- `lower`, which takes nothing for an empty text. -/
def lower (v : Option Text) : Text := u.lower (v.getD [])

def holdsAddress (p : ImportPerson) (value : Text) : Bool :=
  let v := u.lower value
  lower u p.userPrincipalName = v || p.addresses.any (u.lower · = v)

inductive AddressKind
  | email
  | upn
  deriving DecidableEq, Repr

def AddressKind.label : AddressKind → Text
  | .email => text "email"
  | .upn => text "UPN"

/-- Who takes an address first, and as what. -/
structure Holding where
  index : Nat
  what : AddressKind
  deriving DecidableEq

/-- An account's email as it is compared; an empty one is none. -/
def emailKey (a : PlannedAccount) : Option Text :=
  ((a.email.filter (· ≠ [])).map u.lower).filter (· ≠ [])

def upnKey (a : PlannedAccount) : Text := u.lower a.upn

abbrev Held := List (Text × Holding)

/-- What is wrong with an account's addresses, given those taken before it. -/
def messagesOf (people : List ImportPerson) (lineOf : Nat → Nat) (held : Held)
    (a : PlannedAccount) : List Text :=
  (match emailKey u a with
    | none => []
    | some email =>
      let shown := text "The email “" ++ a.email.getD [] ++ text "”"
      ((people.find? (holdsAddress u · email)).toList.map fun holder =>
        shown ++ text " is already " ++ nameOfPerson holder ++ text "’s in the directory.") ++
      (Assoc.get held email).toList.map fun earlier =>
        shown ++ text " is row " ++ decimal (lineOf earlier.index) ++ text "’s " ++
          earlier.what.label ++ text " too.") ++
  ((Assoc.get held (upnKey u a)).filter (·.what = .email)).toList.map fun earlierUpn =>
    text "The UPN “" ++ a.upn ++ text "” is row " ++ decimal (lineOf earlierUpn.index) ++ text "’s email."

/-- An address is its first holder's. -/
def hold (held : Held) (key : Text) (holding : Holding) : Held :=
  if (Assoc.get held key).isSome then held else Assoc.set held key holding

def holdAddresses (held : Held) (a : PlannedAccount) : Held :=
  let held := match emailKey u a with
    | none => held
    | some email => hold held email ⟨a.index, .email⟩
  hold held (upnKey u a) ⟨a.index, .upn⟩

/-- A map of messages with one more. -/
def addMessage (out : List (Nat × List Text)) (index : Nat) (message : Text) : List (Nat × List Text) :=
  Assoc.set out index ((Assoc.get out index).getD [] ++ [message])

def addressConflictsFrom (people : List ImportPerson) (lineOf : Nat → Nat) (held : Held)
    (out : List (Nat × List Text)) :
    List PlannedAccount → List (Nat × List Text)
  | [] => out
  | a :: rest =>
    addressConflictsFrom people lineOf (holdAddresses u held a)
      ((messagesOf u people lineOf held a).foldl (addMessage · a.index) out) rest

/-- Each account's email against the directory, whoever else holds it, and each account's email and
UPN against the other accounts' emails and UPNs; a clash is the later account's to fix. -/
def addressConflicts (accounts : List PlannedAccount) (people : List ImportPerson) (lineOf : Nat → Nat) :
    List (Nat × List Text) :=
  addressConflictsFrom u people lineOf [] [] accounts

/-- An address is held by its first holder. -/
theorem get_hold {held : Held} {key k : Text} {holding : Holding} :
    Assoc.get (hold held key holding) k = (Assoc.get held k).or (if k = key then some holding else none) := by
  unfold hold
  split
  next present =>
    by_cases same : k = key
    · subst same
      obtain ⟨h, got⟩ := Option.isSome_iff_exists.mp present
      simp [got]
    · simp [same]
  next absent =>
    rw [Assoc.get_set]
    by_cases same : k = key
    · subst same
      simp [Option.not_isSome_iff_eq_none.mp absent]
    · simp [same]

/-- What an account takes an address as: its email first. -/
def takesAs (a : PlannedAccount) (k : Text) : Option Holding :=
  if emailKey u a = some k then some ⟨a.index, .email⟩
  else if upnKey u a = k then some ⟨a.index, .upn⟩
  else none

theorem get_holdAddresses {held : Held} {a : PlannedAccount} {k : Text} :
    Assoc.get (holdAddresses u held a) k = (Assoc.get held k).or (takesAs u a k) := by
  unfold holdAddresses takesAs
  cases email : emailKey u a with
  | none => simp [get_hold, eq_comm]
  | some e =>
    rw [get_hold, get_hold, Option.or_assoc]
    congr 1
    by_cases isEmail : k = e
    · simp [isEmail]
    · simp [isEmail, eq_comm]

/-- An address is held by the first account that takes it. -/
theorem get_heldBy {held : Held} {accounts : List PlannedAccount} {k : Text} :
    Assoc.get (accounts.foldl (holdAddresses u) held) k =
      (Assoc.get held k).or (accounts.findSome? (takesAs u · k)) := by
  induction accounts generalizing held with
  | nil => simp
  | cons a rest ih =>
    rw [List.foldl_cons, ih, get_holdAddresses, Option.or_assoc, List.findSome?_cons]
    cases takesAs u a k <;> simp

variable {u}

theorem takesAs_isSome {a : PlannedAccount} {k : Text} :
    (takesAs u a k).isSome ↔ emailKey u a = some k ∨ upnKey u a = k := by
  unfold takesAs
  split
  next isEmail => simp [isEmail]
  next other =>
    split
    next isUpn => simp [isUpn]
    next neither => simp [other, neither]

theorem takesAs_what {a : PlannedAccount} {k : Text} {h : Holding} (takes : takesAs u a k = some h) :
    (h.what = .email → emailKey u a = some k) ∧ (h.what = .upn → upnKey u a = k) := by
  unfold takesAs at takes
  split at takes
  next isEmail =>
    cases takes
    exact ⟨fun _ => isEmail, nofun⟩
  next =>
    split at takes
    next isUpn =>
      cases takes
      exact ⟨nofun, fun _ => isUpn⟩
    next => cases takes

/-- The addresses held after these accounts. -/
def heldBy (u : Platform) (accounts : List PlannedAccount) : Held := accounts.foldl (holdAddresses u) []

theorem heldBy_isSome {accounts : List PlannedAccount} {k : Text} :
    (Assoc.get (heldBy u accounts) k).isSome ↔ ∃ b ∈ accounts, emailKey u b = some k ∨ upnKey u b = k := by
  unfold heldBy
  rw [get_heldBy, Assoc.get_nil, Option.none_or, List.findSome?_isSome_iff]
  exact exists_congr fun b => and_congr_right fun _ => takesAs_isSome

/-- Where no account's UPN is the address, whoever holds it does as an email. -/
theorem heldBy_email {accounts : List PlannedAccount} {k : Text} (noUpn : ∀ b ∈ accounts, upnKey u b ≠ k) :
    ((Assoc.get (heldBy u accounts) k).filter (·.what = .email)).isSome ↔
      ∃ b ∈ accounts, emailKey u b = some k := by
  constructor
  · intro held
    obtain ⟨h, got⟩ := Option.isSome_iff_exists.mp held
    obtain ⟨got, isEmail⟩ := Option.filter_eq_some_iff.mp got
    unfold heldBy at got
    rw [get_heldBy, Assoc.get_nil, Option.none_or] at got
    obtain ⟨b, member, takes⟩ := List.exists_of_findSome?_eq_some got
    exact ⟨b, member, (takesAs_what takes).1 (by simpa using isEmail)⟩
  · rintro ⟨b, member, email⟩
    obtain ⟨h, got⟩ := Option.isSome_iff_exists.mp (heldBy_isSome.mpr ⟨b, member, .inl email⟩)
    have first := got
    unfold heldBy at first
    rw [get_heldBy, Assoc.get_nil, Option.none_or] at first
    obtain ⟨c, memberC, takes⟩ := List.exists_of_findSome?_eq_some first
    have what : h.what = .email := by
      cases kind : h.what with
      | email => rfl
      | upn => exact absurd ((takesAs_what takes).2 kind) (noUpn c memberC)
    simp [got, what]

/-- What an account's address clashes with: a person's, or an earlier account's. Two UPNs are the
naming check's. -/
def Conflicting (u : Platform) (people : List ImportPerson) (earlier : List PlannedAccount)
    (a : PlannedAccount) : Prop :=
  (∃ email, emailKey u a = some email ∧
    ((∃ p ∈ people, holdsAddress u p email) ∨ ∃ b ∈ earlier, emailKey u b = some email ∨
      upnKey u b = email)) ∨
  ∃ b ∈ earlier, emailKey u b = some (upnKey u a)

variable {people : List ImportPerson} {lineOf : Nat → Nat}

/-- An account has a message where its email or its UPN is someone else's. -/
theorem messagesOf_ne_nil {held : Held} {a : PlannedAccount} :
    messagesOf u people lineOf held a ≠ [] ↔
      (∃ email, emailKey u a = some email ∧
        ((∃ p ∈ people, holdsAddress u p email) ∨ (Assoc.get held email).isSome)) ∨
      ((Assoc.get held (upnKey u a)).filter (·.what = .email)).isSome := by
  unfold messagesOf
  rw [ne_eq, List.append_eq_nil_iff, not_and_or, List.map_eq_nil_iff, Option.toList_eq_nil_iff]
  refine or_congr ?_ Option.isSome_iff_ne_none.symm
  cases emailKey u a with
  | none => simp
  | some email =>
    have person : (people.find? (holdsAddress u · email)).isSome ↔ ∃ p ∈ people, holdsAddress u p email := by
      simp [List.find?_isSome]
    simp only [Option.some.injEq, exists_eq_left', ← person, List.append_eq_nil_iff, not_and_or,
      List.map_eq_nil_iff,
      Option.toList_eq_nil_iff, Option.isSome_iff_ne_none, ne_eq]

/-- With the UPNs distinct, an account gets a message exactly where it clashes. -/
theorem messagesOf_heldBy {earlier : List PlannedAccount} {a : PlannedAccount}
    (distinct : ∀ b ∈ earlier, upnKey u b ≠ upnKey u a) :
    messagesOf u people lineOf (heldBy u earlier) a ≠ [] ↔ Conflicting u people earlier a := by
  rw [messagesOf_ne_nil, heldBy_email distinct]
  unfold Conflicting
  simp only [heldBy_isSome]

theorem get_addMessages {out : List (Nat × List Text)} {index i : Nat} {messages : List Text} :
    (Assoc.get (messages.foldl (addMessage · index) out) i).isSome ↔
      (Assoc.get out i).isSome ∨ i = index ∧ messages ≠ [] := by
  induction messages generalizing out with
  | nil => simp
  | cons m rest ih =>
    rw [List.foldl_cons, ih]
    unfold addMessage
    rw [Assoc.get_set]
    by_cases same : i = index <;> simp [same]

/-- A row has conflicts where its account met a holder before it. -/
theorem get_conflictsFrom {held : Held} {out : List (Nat × List Text)}
    {accounts : List PlannedAccount} {i : Nat} :
    (Assoc.get (addressConflictsFrom u people lineOf held out accounts) i).isSome ↔
      (Assoc.get out i).isSome ∨ ∃ earlier a later, accounts = earlier ++ a :: later ∧ a.index = i ∧
        messagesOf u people lineOf (earlier.foldl (holdAddresses u) held) a ≠ [] := by
  induction accounts generalizing held out with
  | nil => simp [addressConflictsFrom]
  | cons first rest ih =>
    rw [addressConflictsFrom, ih, get_addMessages]
    constructor
    · rintro ((before | ⟨rfl, messages⟩) | ⟨earlier, a, later, split, index, messages⟩)
      · exact .inl before
      · exact .inr ⟨[], first, rest, rfl, rfl, messages⟩
      · exact .inr ⟨first :: earlier, a, later, by rw [split]; rfl, index, messages⟩
    · rintro (before | ⟨earlier, a, later, split, index, messages⟩)
      · exact .inl (.inl before)
      · cases earlier with
        | nil =>
          obtain ⟨rfl, rfl⟩ := List.cons.inj split
          exact .inl (.inr ⟨index.symm, messages⟩)
        | cons b earlier =>
          obtain ⟨rfl, rfl⟩ := List.cons.inj split
          exact .inr ⟨earlier, a, later, rfl, index, messages⟩

theorem addMessages_nonempty {out : List (Nat × List Text)} {index : Nat} {messages : List Text}
    (nonempty : ∀ e ∈ out, e.2 ≠ []) : ∀ e ∈ messages.foldl (addMessage · index) out, e.2 ≠ [] := by
  induction messages generalizing out with
  | nil => exact nonempty
  | cons m rest ih =>
    refine ih fun e member => ?_
    rcases Assoc.mem_set member with rfl | old
    · simp
    · exact nonempty e old

/-- No account has an entry without a message. -/
theorem conflictsFrom_nonempty {held : Held} {out : List (Nat × List Text)} {accounts : List PlannedAccount}
    (nonempty : ∀ e ∈ out, e.2 ≠ []) : ∀ e ∈ addressConflictsFrom u people lineOf held out accounts,
      e.2 ≠ [] := by
  induction accounts generalizing held out with
  | nil => exact nonempty
  | cons a rest ih => exact ih (addMessages_nonempty nonempty)

/-- The addresses an account takes, and those a person has, as they are compared. -/
def addressesOf (u : Platform) (a : PlannedAccount) : List Text := (emailKey u a).toList ++ [upnKey u a]

def personAddresses (u : Platform) (p : ImportPerson) : List Text :=
  (p.userPrincipalName.toList ++ p.addresses).map u.lower

theorem mem_addressesOf {a : PlannedAccount} {k : Text} : k ∈ addressesOf u a ↔
    emailKey u a = some k ∨ upnKey u a = k := by
  unfold addressesOf
  cases emailKey u a <;> simp [eq_comm]

/-- Accounts whose UPNs differ share an address where one's email is an address of the other. -/
theorem disjoint_addressesOf {a b : PlannedAccount} (distinct : upnKey u b ≠ upnKey u a) :
    (addressesOf u b).Disjoint (addressesOf u a) ↔
      ¬((∃ email, emailKey u a = some email ∧ email ∈ addressesOf u b) ∨
        emailKey u b = some (upnKey u a)) := by
  constructor
  · rintro apart (⟨email, isA, isB⟩ | isUpn)
    · exact apart isB (mem_addressesOf.mpr (.inl isA))
    · exact apart (mem_addressesOf.mpr (.inl isUpn)) (mem_addressesOf.mpr (.inr rfl))
  · intro none k ofB ofA
    refine none ?_
    rcases mem_addressesOf.mp ofA with isA | rfl
    · exact .inl ⟨k, isA, ofB⟩
    · rcases mem_addressesOf.mp ofB with isB | isUpn
      · exact .inr isB
      · exact absurd isUpn distinct

theorem emailKey_eq_some {a : PlannedAccount} {k : Text} (email : emailKey u a = some k) :
    k ≠ [] ∧ ∃ e, a.email = some e ∧ k = u.lower e := by
  unfold emailKey at email
  obtain ⟨mapped, nonempty⟩ := Option.filter_eq_some_iff.mp email
  obtain ⟨e, given, rfl⟩ := Option.map_eq_some_iff.mp mapped
  exact ⟨by simpa using nonempty, e, (Option.filter_eq_some_iff.mp given).1, rfl⟩

theorem lower_nil : u.lower [] = [] := by
  simpa using u.lower_ascii [] (by simp)

/-- Lower case twice is lower case once. -/
def Folds (u : Platform) : Prop := ∀ t, u.lower (u.lower t) = u.lower t

theorem folds_ascii : Folds .ascii := by
  intro t
  show (t.map lowerUnit).map lowerUnit = t.map lowerUnit
  rw [List.map_map]
  exact List.map_congr_left fun c _ => lowerUnit_idem

theorem holdsAddress_iff {p : ImportPerson} {v : Text} (nonempty : u.lower v ≠ []) :
    holdsAddress u p v ↔ u.lower v ∈ personAddresses u p := by
  unfold holdsAddress personAddresses lower
  dsimp only
  cases p.userPrincipalName with
  | none =>
    have other : u.lower [] ≠ u.lower v := by
      rw [lower_nil]
      exact nonempty.symm
    rw [Option.getD_none, decide_eq_false other, Bool.false_or, List.any_eq_true,
      Option.toList_none, List.nil_append,
      List.mem_map]
    simp only [decide_eq_true_eq]
  | some upn => simp [Option.getD_some, @eq_comm _ (u.lower v) (u.lower upn)]

/-- An email is compared in lower case already. -/
theorem holdsAddress_key (folds : Folds u) {p : ImportPerson} {a : PlannedAccount} {k : Text}
    (email : emailKey u a = some k) :
    holdsAddress u p k ↔ k ∈ personAddresses u p := by
  obtain ⟨nonempty, e, _, rfl⟩ := emailKey_eq_some email
  have same := folds e
  rw [holdsAddress_iff (by rw [same]; exact nonempty), same]

theorem eq_nil_iff_get {m : List (Nat × List Text)} : m = [] ↔ ∀ i, ¬(Assoc.get m i).isSome := by
  simp only [Assoc.get_isSome]
  constructor
  · rintro rfl i
    simp
  · intro absent
    cases m with
    | nil => rfl
    | cons e m => exact absurd (by simp) (absent e.1)

theorem distinct_before {accounts earlier later : List PlannedAccount} {a : PlannedAccount}
    (distinct : (accounts.map (upnKey u)).Nodup) (split : accounts = earlier ++ a :: later) :
    ∀ b ∈ earlier, upnKey u b ≠ upnKey u a := by
  intro b member same
  rw [split, List.map_append, List.map_cons] at distinct
  have apart := (List.nodup_append.mp distinct).2.2
  exact apart (upnKey u b) (List.mem_map_of_mem member) (upnKey u a) List.mem_cons_self same

theorem conflicting_iff (folds : Folds u) {earlier : List PlannedAccount} {a : PlannedAccount} :
    Conflicting u people earlier a ↔
      (∃ email, emailKey u a = some email ∧
        ((∃ p ∈ people, email ∈ personAddresses u p) ∨ ∃ b ∈ earlier, email ∈ addressesOf u b)) ∨
      ∃ b ∈ earlier, emailKey u b = some (upnKey u a) := by
  unfold Conflicting
  refine or_congr (exists_congr fun email => and_congr_right fun given => or_congr ?_ ?_) Iff.rfl
  · exact exists_congr fun p => and_congr_right fun _ => holdsAddress_key folds given
  · simp only [mem_addressesOf]

/-- A row has conflicts just where its addresses are taken, by a person or a row before it. -/
theorem get_addressConflicts (folds : Folds u) {accounts : List PlannedAccount}
    (distinct : (accounts.map (upnKey u)).Nodup) (i : Nat) :
    (Assoc.get (addressConflicts u accounts people lineOf) i).isSome ↔
      ∃ earlier a later, accounts = earlier ++ a :: later ∧ a.index = i ∧
        ((∃ email, emailKey u a = some email ∧
          ((∃ p ∈ people, email ∈ personAddresses u p) ∨ ∃ b ∈ earlier, email ∈ addressesOf u b)) ∨
        ∃ b ∈ earlier, emailKey u b = some (upnKey u a)) := by
  unfold addressConflicts
  rw [get_conflictsFrom]
  simp only [Assoc.get_nil, Option.isSome_none, Bool.false_eq_true, false_or]
  refine exists_congr fun earlier => exists_congr fun a => exists_congr fun later =>
    and_congr_right fun split => ?_
  refine and_congr_right fun _ => ?_
  rw [← conflicting_iff folds]
  exact messagesOf_heldBy (distinct_before distinct split)

/-- There are no conflicts just where no address is shared. -/
theorem addressConflicts_eq_nil (folds : Folds u) {accounts : List PlannedAccount}
    (distinct : (accounts.map (upnKey u)).Nodup) :
    addressConflicts u accounts people lineOf = [] ↔
      accounts.Pairwise (fun b a => (addressesOf u b).Disjoint (addressesOf u a)) ∧
      ∀ a ∈ accounts, ∀ email, emailKey u a = some email → ∀ p ∈ people, email ∉ personAddresses u p := by
  rw [eq_nil_iff_get]
  simp only [get_addressConflicts folds distinct]
  constructor
  · intro none
    constructor
    · refine Accumulate.pairwise_of_before fun earlier a later split b member => ?_
      refine (disjoint_addressesOf (distinct_before distinct split b member)).mpr fun shared => ?_
      refine none a.index ⟨earlier, a, later, split, rfl, ?_⟩
      rcases shared with ⟨email, isA, ofB⟩ | isUpn
      · exact .inl ⟨email, isA, .inr ⟨b, member, ofB⟩⟩
      · exact .inr ⟨b, member, isUpn⟩
    · intro a member email isA p person held
      obtain ⟨earlier, later, split⟩ := List.append_of_mem member
      exact none a.index ⟨earlier, a, later, split, rfl, .inl ⟨email, isA, .inl ⟨p, person, held⟩⟩⟩
  · rintro ⟨apart, free⟩ i ⟨earlier, a, later, split, _, clash⟩
    have before : ∀ b ∈ earlier, (addressesOf u b).Disjoint (addressesOf u a) := by
      intro b member
      rw [split, List.pairwise_append] at apart
      exact apart.2.2 b member a List.mem_cons_self
    have member : a ∈ accounts := by simp [split]
    rcases clash with ⟨email, isA, ⟨p, person, held⟩ | ⟨b, earlierB, ofB⟩⟩ | ⟨b, earlierB, isUpn⟩
    · exact free a member email isA p person held
    · exact before b earlierB ofB (mem_addressesOf.mpr (.inl isA))
    · exact before b earlierB (mem_addressesOf.mpr (.inl isUpn)) (mem_addressesOf.mpr (.inr rfl))

/-- Where the UPNs are distinct, an account gets a message exactly where its email is held by
someone in the directory or is an earlier account's address, or its UPN is an earlier account's
email. There is no message exactly where no two accounts share an address and no account's email is
a person's. -/
theorem addressConflicts_exact (folds : Folds u) {accounts : List PlannedAccount}
    (distinct : (accounts.map (upnKey u)).Nodup) :
    (∀ i, (Assoc.get (addressConflicts u accounts people lineOf) i).isSome ↔
      ∃ earlier a later, accounts = earlier ++ a :: later ∧ a.index = i ∧
        ((∃ email, emailKey u a = some email ∧
          ((∃ p ∈ people, email ∈ personAddresses u p) ∨ ∃ b ∈ earlier, email ∈ addressesOf u b)) ∨
        ∃ b ∈ earlier, emailKey u b = some (upnKey u a))) ∧
    (addressConflicts u accounts people lineOf = [] ↔
      accounts.Pairwise (fun b a => (addressesOf u b).Disjoint (addressesOf u a)) ∧
      ∀ a ∈ accounts, ∀ email, emailKey u a = some email → ∀ p ∈ people, email ∉ personAddresses u p) :=
  ⟨get_addressConflicts folds distinct, addressConflicts_eq_nil folds distinct⟩

def ada : PlannedAccount := ⟨0, none, text "ada@x.org", text "ada"⟩

def grace : PlannedAccount := ⟨1, some (text "Ada@X.org"), text "grace@x.org", text "grace"⟩

theorem addressConflicts_exact_grace :
    ([ada, grace].map (upnKey .ascii)).Nodup ∧
      (Assoc.get (addressConflicts .ascii [ada, grace] [] id) 1).isSome :=
  ⟨by decide, ((addressConflicts_exact folds_ascii (by decide)).1 1).mpr
    ⟨[ada], grace, [], rfl, rfl, .inl ⟨text "ada@x.org", by decide, .inr ⟨ada, by simp, by decide⟩⟩⟩⟩

/-- A person's UPN isn't compared with the accounts' here: an account and a person sharing one get
no message. -/
theorem shared_upn_unnoticed :
    let person : ImportPerson := ⟨text "CN=Ada,DC=x", none, some (text "ada@x.org"), none, none, []⟩
    addressConflicts .ascii [ada] [person] id = [] ∧ ([ada].map (upnKey .ascii)).Nodup ∧
      ¬(addressesOf .ascii ada).Disjoint (personAddresses .ascii person) := by
  refine ⟨by decide, by decide, fun apart => ?_⟩
  have shared : text "ada@x.org" ∈ addressesOf .ascii ada := by decide
  exact apart shared (by decide)

end
end OpenAduc.UserImport
