import OpenAduc.Naming.Lookups
import OpenAduc.UserImport.Addresses

namespace OpenAduc.UserImport
open Naming

/-- One account to create, as the request's schema leaves its row: the names trimmed and not empty,
the UPN with an `@`, an email not empty. -/
structure ImportRow where
  line : Nat
  ouDn : Text
  givenName : Text
  surname : Text
  displayName : Text
  cn : Text
  samAccountName : Text
  userPrincipalName : Text
  email : Option Text
  employeeId : Option Text
  sam_typed : trim samAccountName = samAccountName ∧ samAccountName ≠ []
  upn_typed : trim userPrincipalName = userPrincipalName ∧ unit '@' ∈ userPrincipalName
  email_typed : ∀ e ∈ email, e ≠ []

inductive IssueKind
  | unusable
  | taken
  | duplicate
  | existing
  | ouMissing
  | groupMissing
  | roleGroup
  | password
  | phone
  deriving DecidableEq, Repr

/-- What stops the run, by the index of its row where it is one row's. -/
structure ImportCheckIssue where
  row : Option Nat
  kind : IssueKind
  message : Text
  deriving DecidableEq

/-- Who to look up: holders of these employee IDs, or of these addresses or logon names. -/
structure PeopleLookups where
  employeeIds : List Text
  identifiers : List Text

/-- The directory as the check asks it: its naming settings, its searches' answers, and what the
checks of the OUs, groups, password and phones report of the rows. -/
structure Directory where
  naming : NamingSettings
  upnSuffixes : List Text
  findTakenNames : NamingLookups → TakenNames
  findPeople : PeopleLookups → List ImportPerson
  further : List ImportRow → List ImportCheckIssue

inductive MatchedBy
  | employeeId
  | email
  deriving DecidableEq, Repr

structure ExistingMatch where
  field : MatchedBy
  value : Text
  person : ImportPerson
  deriving DecidableEq

section
variable (u : Platform)

/-- The person a row already is: by employee ID when it has one, otherwise by email. -/
def existingPerson (employeeId email : Text) (people : List ImportPerson) : Option ExistingMatch :=
  if employeeId ≠ [] then
    (people.find? fun p => lower u p.employeeId = u.lower employeeId).map (⟨.employeeId, employeeId, ·⟩)
  else if email ≠ [] then (people.find? (holdsAddress u · email)).map (⟨.email, email, ·⟩)
  else none

/-- An address up to its last `@`. -/
def localPart (address : Text) : Text :=
  match lastIndexOf (unit '@') address with
  | some i => address.take i
  | none => address.dropLast

/-- A row's names, as the naming check is asked to judge them. -/
def typedRequest (r : ImportRow) : NamingRequest where
  name := { first := r.givenName, last := r.surname, middleInitial := none, preferredFirst := none }
  ouDn := none
  overrides := some {
    samAccountName := some r.samAccountName
    userPrincipalName := some r.userPrincipalName
    displayName := some r.displayName }

/-- `NOTHING_TAKEN`. -/
def nothingTaken : TakenNames where
  samAccountNames := []
  userPrincipalNames := []
  mailAddresses := []
  cns := []

def reasonOf : NamingDeviation → Text
  | .normalized _ _ _ _ reason | .dropped _ _ _ _ _ reason | .truncated _ _ _ reason | .collision _
      _ _ _ _ _ reason
  | .cnCollision _ _ _ _ reason | .taken _ _ _ reason | .unusable _ _ reason => reason

def kindOf : NamingDeviation → IssueKind
  | .taken .. => .duplicate
  | _ => .unusable

/-- Each name as typed, by the naming pattern's rules; one held by an earlier row is taken by it. -/
def namingProblems (judged : List NamingSuggestion) : List ImportCheckIssue :=
  judged.zipIdx.flatMap fun (s, i) =>
    (s.deviations.filter (·.approval = .blocked)).map fun d => ⟨some i, kindOf d, reasonOf d⟩

/-- The CN in its OU, as the rows are compared by it. -/
def cnHolder (r : ImportRow) : Text := u.lower r.ouDn ++ [10] ++ u.lower r.cn

def cnProblems : List Text → Nat → List ImportRow → List ImportCheckIssue
  | _, _, [] => []
  | holders, i, r :: rest =>
    (if holders.contains (cnHolder u r) then
      [⟨some i, .duplicate, text "Another row is named “" ++ r.cn ++ text "” in the same OU."⟩] else []) ++
    cnProblems (cnHolder u r :: holders) (i + 1) rest

def namingLookupsOf (rows : List ImportRow) : NamingLookups where
  samAccountNamePrefixes := rows.map (·.samAccountName)
  upnLocalPrefixes := (rows.map fun r => localPart r.userPrincipalName).eraseDups
  cns := rows.map fun r => ⟨r.ouDn, r.cn⟩
  cnPrefixes := []

/-- Whether a value is among these, whatever their case. -/
def heldIn (values : List Text) (v : Text) : Bool := (values.map u.lower).contains (u.lower v)

def inUse (i : Nat) (what value : Text) : ImportCheckIssue :=
  ⟨some i, .taken, text "The " ++ what ++ text " “" ++ value ++ text "” is now used in the directory."⟩

def takenProblems (taken : TakenNames) (rows : List ImportRow) : List ImportCheckIssue :=
  rows.zipIdx.flatMap fun (r, i) =>
    (if heldIn u taken.samAccountNames r.samAccountName then
      [inUse i (text "sAMAccountName") r.samAccountName] else []) ++
    (if heldIn u (taken.userPrincipalNames ++ taken.mailAddresses) r.userPrincipalName then
      [inUse i (text "UPN") r.userPrincipalName] else []) ++
    if heldIn u (taken.cns.map fun c => u.lower c.ouDn ++ [10] ++ c.cn) (u.lower r.ouDn ++ [10] ++ r.cn) then
      [⟨some i, .taken, text "“" ++ r.cn ++ text "” now exists in its OU."⟩] else []

def peopleLookupsOf (rows : List ImportRow) : PeopleLookups where
  employeeIds := (rows.flatMap fun r => (r.employeeId.filter (· ≠ [])).toList).eraseDups
  identifiers := (rows.flatMap fun r => (r.email.filter (· ≠ [])).toList).eraseDups

def existingOf (people : List ImportPerson) (r : ImportRow) : Option ExistingMatch :=
  existingPerson u (r.employeeId.getD []) (r.email.getD []) people

def existingProblems (people : List ImportPerson) (rows : List ImportRow) : List ImportCheckIssue :=
  rows.zipIdx.flatMap fun (r, i) =>
    (existingOf u people r).toList.map fun found =>
      let name := (found.person.displayName.or found.person.samAccountName).getD (text "someone")
      let field := match found.field with
        | .employeeId => text "employee ID"
        | .email => text "email"
      ⟨some i, .existing, name ++ text ", already in the directory, has the " ++ field ++
        text " “" ++ found.value ++
        text "”."⟩

def plannedAccounts (rows : List ImportRow) : List PlannedAccount :=
  rows.zipIdx.map fun (r, i) => ⟨i, r.email, r.userPrincipalName, r.samAccountName⟩

/-- The clashing addresses, but of a row that is someone already there. -/
def addressProblems (people : List ImportPerson) (rows : List ImportRow) : List ImportCheckIssue :=
  (addressConflicts u (plannedAccounts rows) people fun i => (rows[i]?.map (·.line)).getD 0).flatMap
    fun (i, messages) =>
    if (rows[i]?.bind (existingOf u people)).isSome then []
    else messages.map fun m => ⟨some i, .taken, m⟩

/-- The final check: the import as the run would make it, against the directory as it is now. Each
name exactly as it'll be written, against the other rows and AD; anyone holding a row's employee ID
or email by now. -/
def checkImport (d : Directory) (rows : List ImportRow) : Except Text (List ImportCheckIssue) := do
  let judged ← resolveNames u (rows.map typedRequest) d.naming nothingTaken (some d.upnSuffixes)
  let taken := d.findTakenNames (namingLookupsOf rows)
  let people := d.findPeople (peopleLookupsOf rows)
  return namingProblems judged ++ cnProblems u [] 0 rows ++ takenProblems u taken rows ++
    existingProblems u people rows ++
    addressProblems u people rows ++ d.further rows

end

/-- What lower case does on every platform: once is enough, it keeps a text from being empty, and
goes by either side of a line break or an `@`. -/
structure CaseLaws (u : Platform) : Prop where
  folds : Folds u
  nonempty : ∀ t, t ≠ [] → u.lower t ≠ []
  apart : ∀ a b c, c = 10 ∨ c = unit '@' → u.lower (a ++ c :: b) = u.lower a ++ c :: u.lower b

/-- The addresses a row writes: its UPN, and as mail its email or, where asked, the UPN. -/
def written (u : Platform) (mailFromUpn : Bool) (r : ImportRow) : List Text :=
  u.lower r.userPrincipalName ::
    ((r.email.or (if mailFromUpn then some r.userPrincipalName else none)).map u.lower).toList

/-- The searches find what the people in this directory hold: every address starting with the local
part of a row's UPN, and everyone holding a row's email. -/
structure Answers (u : Platform) (directory : List ImportPerson) (d : Directory)
    (rows : List ImportRow) : Prop where
  names : ∀ p ∈ directory, ∀ a ∈ p.userPrincipalName.toList ++ p.addresses, ∀ r ∈ rows,
    u.lower (localPart r.userPrincipalName) <+: u.lower a →
    a ∈ (d.findTakenNames (namingLookupsOf rows)).userPrincipalNames ++
      (d.findTakenNames (namingLookupsOf rows)).mailAddresses
  people : ∀ p ∈ directory, ∀ r ∈ rows, ∀ e ∈ r.email, holdsAddress u p e →
    p ∈ d.findPeople (peopleLookupsOf rows)

/-- Two rows that share no name: neither logon name, and not the CN in one OU. -/
structure NamesApart (u : Platform) (r s : ImportRow) : Prop where
  sam : u.lower r.samAccountName ≠ u.lower s.samAccountName
  upn : u.lower r.userPrincipalName ≠ u.lower s.userPrincipalName
  cn : u.lower r.ouDn = u.lower s.ouDn → u.lower r.cn ≠ u.lower s.cn

/-- None of a row's names is among those the directory answered. -/
structure NamesFree (u : Platform) (taken : TakenNames) (r : ImportRow) : Prop where
  sam : ∀ v ∈ taken.samAccountNames, u.lower v ≠ u.lower r.samAccountName
  upn : ∀ v ∈ taken.userPrincipalNames ++ taken.mailAddresses, u.lower v ≠ u.lower r.userPrincipalName
  cn : ∀ c ∈ taken.cns, u.lower c.ouDn = u.lower r.ouDn → u.lower c.cn ≠ u.lower r.cn

section
variable {u : Platform} {rows : List ImportRow}

theorem exists_zipIdx {α : Type} {l : List α} {x : α} (member : x ∈ l) : ∃ i, (x, i) ∈ l.zipIdx := by
  obtain ⟨i, within, at_⟩ := List.mem_iff_getElem.mp member
  exact ⟨i, List.mk_mem_zipIdx_iff_getElem?.mpr (List.getElem?_eq_some_iff.mpr ⟨within, at_⟩)⟩

theorem quiet_of_namingProblems {judged : List NamingSuggestion} (none_ : namingProblems judged = []) :
    ∀ s ∈ judged, Blocked s.deviations = false := by
  intro s member
  obtain ⟨i, entry⟩ := exists_zipIdx member
  have each := List.flatMap_eq_nil_iff.mp none_ (s, i) entry
  have unblocked := List.filter_eq_nil_iff.mp (List.map_eq_nil_iff.mp each)
  refine eq_false_of_ne_true fun blocked => ?_
  obtain ⟨deviation, inside, refuses⟩ := mem_blocked.mp blocked
  exact unblocked deviation inside (by simpa using refuses)

/-- With no problem of names, the rows' names in their OUs are apart, and free. -/
theorem cns_apart {holders : List Text} {i : Nat} (none_ : cnProblems u holders i rows = []) :
    (rows.map (cnHolder u)).Nodup ∧ ∀ r ∈ rows, cnHolder u r ∉ holders := by
  induction rows generalizing holders i with
  | nil => simp
  | cons r rest ih =>
    rw [cnProblems, List.append_eq_nil_iff] at none_
    obtain ⟨distinct, unheld⟩ := ih none_.2
    have free : cnHolder u r ∉ holders := by
      intro member
      simp [member] at none_
    constructor
    · rw [List.map_cons, List.nodup_cons]
      refine ⟨fun member => ?_, distinct⟩
      obtain ⟨s, later, same⟩ := List.mem_map.mp member
      exact unheld s later (same ▸ List.mem_cons_self)
    · intro s member
      rcases List.mem_cons.mp member with rfl | later
      · exact free
      · exact fun held => unheld s later (List.mem_cons_of_mem _ held)

theorem not_heldIn {values : List Text} {v : Text} : heldIn u values v = false ↔
    ∀ w ∈ values, u.lower w ≠ u.lower v := by
  simp [heldIn]

theorem free_of_takenProblems (laws : CaseLaws u) {taken : TakenNames}
    (none_ : takenProblems u taken rows = []) :
    ∀ r ∈ rows, NamesFree u taken r := by
  intro r member
  obtain ⟨i, entry⟩ := exists_zipIdx member
  have each := List.flatMap_eq_nil_iff.mp none_ (r, i) entry
  simp only [List.append_eq_nil_iff, ite_eq_right_iff, List.cons_ne_nil, imp_false,
    Bool.not_eq_true, not_heldIn] at each
  obtain ⟨⟨sam, upn⟩, cn⟩ := each
  refine ⟨sam, upn, fun c inside sameOu sameCn => ?_⟩
  refine cn _ (List.mem_map_of_mem inside) ?_
  rw [List.append_assoc, List.append_assoc, List.singleton_append, List.singleton_append,
    laws.apart _ _ _ (.inl rfl), laws.apart _ _ _ (.inl rfl), sameOu, sameCn]

theorem existingOf_eq_none {people : List ImportPerson} (none_ : existingProblems u people rows = []) :
    ∀ r ∈ rows, existingOf u people r = none := by
  intro r member
  obtain ⟨i, entry⟩ := exists_zipIdx member
  have each := List.flatMap_eq_nil_iff.mp none_ (r, i) entry
  exact Option.toList_eq_nil_iff.mp (List.map_eq_nil_iff.mp each)

theorem conflicts_eq_nil {people : List ImportPerson} (existing : ∀ r ∈ rows, existingOf u people r = none)
    (none_ : addressProblems u people rows = []) :
    addressConflicts u (plannedAccounts rows) people (fun i => (rows[i]?.map (·.line)).getD 0) = [] := by
  refine List.eq_nil_iff_forall_not_mem.mpr fun e member => ?_
  have nonempty : e.2 ≠ [] := conflictsFrom_nonempty (by simp) e member
  have each := List.flatMap_eq_nil_iff.mp none_ e member
  have nobody : (rows[e.1]?.bind (existingOf u people)).isSome = false := by
    cases got : rows[e.1]? with
    | none => rfl
    | some r => simp [existing r (List.mem_of_getElem? got)]
  simp only [nobody, Bool.false_eq_true, if_false, List.map_eq_nil_iff] at each
  exact nonempty each

theorem clean_typed {v : Text} (typed : trim v = v ∧ v ≠ []) : clean (some v) = some v := by
  simp [clean, typed.1, typed.2]

/-- Names judged as typed, with none blocked, come back as typed and are no one else's. -/
theorem typed_apart {settings : NamingSettings} {upnSuffixes : Option (List Text)}
    {judged : List NamingSuggestion}
    (ran : resolveNames u (rows.map typedRequest) settings nothingTaken upnSuffixes = .ok judged)
    (quiet : ∀ s ∈ judged, Blocked s.deviations = false) :
    rows.Pairwise fun r s => u.lower r.samAccountName ≠ u.lower s.samAccountName ∧
      u.lower r.userPrincipalName ≠ u.lower s.userPrincipalName := by
  have length : judged.length = rows.length := by simpa using Accumulate.outputs_length ran
  have paired : (rows.map typedRequest).zip judged = (rows.zip judged).map (Prod.map typedRequest id) :=
    List.zip_map_left
  have settled : ∀ before r s rest, (rows.map typedRequest).zip judged = before ++ (r, s) :: rest →
      Settled u nothingTaken settings upnSuffixes before r s := by
    intro before r s rest split
    obtain ⟨held, held', p, holds, prepared, outcome⟩ := exists_outcome_at ran split
    exact outcome.settled holds prepared
  have named : ∀ x ∈ rows.zip judged, x.2.samAccountName = x.1.samAccountName ∧
    x.2.upn = x.1.userPrincipalName := by
    rintro ⟨r, s⟩ member
    have inside : (typedRequest r, s) ∈ (rows.map typedRequest).zip judged := by
      rw [paired]
      exact List.mem_map.mpr ⟨(r, s), member, rfl⟩
    obtain ⟨before, rest, split⟩ := List.append_of_mem inside
    have typed := settled before (typedRequest r) s rest split
    have upnKept : clean (some r.userPrincipalName) = some r.userPrincipalName :=
      clean_typed ⟨r.upn_typed.1, List.ne_nil_of_mem r.upn_typed.2⟩
    exact ⟨typed.typedSam _ (clean_typed r.sam_typed), (typed.typedUpn _ upnKept r.upn_typed.2).1⟩
  have distinct : ((rows.map typedRequest).zip judged).Pairwise (Distinct u) :=
    Accumulate.pairwise_of_before fun before x rest split y earlier =>
      (settled before x.1 x.2 rest split).distinct_before earlier
  rw [paired, List.pairwise_map] at distinct
  have apart : (rows.zip judged).Pairwise fun x y => u.lower x.1.samAccountName ≠ u.lower y.1.samAccountName ∧
      u.lower x.1.userPrincipalName ≠ u.lower y.1.userPrincipalName := by
    refine distinct.imp_of_mem fun {x y} memberX memberY different => ?_
    have quietX := quiet x.2 (List.of_mem_zip memberX).2
    have quietY := quiet y.2 (List.of_mem_zip memberY).2
    obtain ⟨values, _⟩ := different quietX quietY
    have samX := (named x memberX).1
    have samY := (named y memberY).1
    have upnX := (named x memberX).2
    have upnY := (named y memberY).2
    constructor
    · rw [← samX, ← samY]
      exact values .samAccountName
    · rw [← upnX, ← upnY]
      exact values .userPrincipalName
  have back : (rows.zip judged).map Prod.fst = rows := List.map_fst_zip (by omega)
  rw [← back, List.pairwise_map]
  exact apart

theorem keys_plannedAccounts : (plannedAccounts rows).map (upnKey u) = rows.map fun r =>
    u.lower r.userPrincipalName := by
  unfold plannedAccounts
  rw [List.map_map]
  refine Eq.trans ?_
    (congrArg (List.map fun r : ImportRow => u.lower r.userPrincipalName) (List.zipIdx_map_fst 0 rows))
  rw [List.map_map]
  rfl

/-- What a row writes is among the addresses its account is compared by. -/
theorem written_subset (laws : CaseLaws u) {mailFromUpn : Bool} {r : ImportRow} {i : Nat} {k : Text}
    (writes : k ∈ written u mailFromUpn r) :
    k ∈ addressesOf u ⟨i, r.email, r.userPrincipalName, r.samAccountName⟩ := by
  rw [mem_addressesOf]
  unfold written at writes
  rcases List.mem_cons.mp writes with rfl | mail
  · exact .inr rfl
  · cases email : r.email with
    | none =>
      cases mailFromUpn with
      | false => simp [email] at mail
      | true =>
        have same : k = u.lower r.userPrincipalName := by simpa [email] using mail
        exact .inr same.symm
    | some e =>
      have same : k = u.lower e := by simpa [email] using mail
      have given : e ≠ [] := r.email_typed e (by simp [email])
      have lowered := laws.nonempty e given
      exact .inl (by simp [emailKey, given, lowered, same])

theorem mem_personAddresses {p : ImportPerson} {k : Text} :
    k ∈ personAddresses u p ↔ ∃ a ∈ p.userPrincipalName.toList ++ p.addresses, u.lower a = k := by
  unfold personAddresses
  exact List.mem_map

/-- An address that is a UPN, whatever its case, starts with the UPN's local part. -/
theorem localPart_starts (laws : CaseLaws u) {upn a : Text} (has : unit '@' ∈ upn)
    (same : u.lower a = u.lower upn) :
    u.lower (localPart upn) <+: u.lower a := by
  obtain ⟨i, found⟩ := exists_lastIndexOf has
  have whole := lastIndexOf_split found
  rw [List.append_assoc, List.singleton_append] at whole
  have lowered := laws.apart (upn.take i) (upn.drop (i + 1)) (unit '@') (.inr rfl)
  rw [whole] at lowered
  rw [same, lowered]
  unfold localPart
  rw [found]
  exact List.prefix_append _ _

/-- Where the check reports no problem, no two rows share a logon name, or a CN in one OU; none of
their names is among those the directory answered as taken; and no address a row writes is another
row's or, the searches answering for what they were asked, someone's in the directory. -/
theorem checkImport_sound (laws : CaseLaws u) {d : Directory} (clear : checkImport u d rows = .ok []) :
    rows.Pairwise (NamesApart u) ∧
    (∀ r ∈ rows, NamesFree u (d.findTakenNames (namingLookupsOf rows)) r) ∧
    ∀ mailFromUpn,
      rows.Pairwise (fun r s => (written u mailFromUpn r).Disjoint (written u mailFromUpn s)) ∧
      ∀ directory, Answers u directory d rows →
        ∀ r ∈ rows, ∀ p ∈ directory, (written u mailFromUpn r).Disjoint (personAddresses u p) := by
  unfold checkImport at clear
  simp only [bind, Except.bind, pure, Except.pure] at clear
  split at clear
  · cases clear
  next judged ran =>
    simp only [Except.ok.injEq, List.append_eq_nil_iff] at clear
    obtain ⟨⟨⟨⟨⟨naming, cns⟩, taken⟩, existing⟩, addresses⟩, _⟩ := clear
    have names := typed_apart ran (quiet_of_namingProblems naming)
    have free := free_of_takenProblems laws taken
    have upns : ((plannedAccounts rows).map (upnKey u)).Nodup := by
      rw [keys_plannedAccounts, List.nodup_iff_pairwise_ne, List.pairwise_map]
      exact names.imp fun different => different.2
    have none_ := conflicts_eq_nil (existingOf_eq_none existing) addresses
    obtain ⟨apart, unheld⟩ := (addressConflicts_eq_nil laws.folds upns).mp none_
    refine ⟨?_, free, fun mailFromUpn => ⟨?_, ?_⟩⟩
    · have cnsApart := List.pairwise_map.mp (List.nodup_iff_pairwise_ne.mp (cns_apart cns).1)
      refine (names.and cnsApart).imp fun {r s} both => ⟨both.1.1, both.1.2, fun sameOu sameCn => ?_⟩
      exact both.2 (by rw [cnHolder, cnHolder, sameOu, sameCn])
    · have back : rows = rows.zipIdx.map Prod.fst := (List.zipIdx_map_fst 0 rows).symm
      unfold plannedAccounts at apart
      rw [List.pairwise_map] at apart
      rw [back, List.pairwise_map]
      refine apart.imp fun {x y} disjoint k ofX ofY => ?_
      exact disjoint (written_subset laws ofX) (written_subset laws ofY)
    · intro directory answers r member p person k writes held
      obtain ⟨i, entry⟩ := exists_zipIdx member
      have planned : (⟨i, r.email, r.userPrincipalName, r.samAccountName⟩ : PlannedAccount) ∈
        plannedAccounts rows :=
        List.mem_map.mpr ⟨(r, i), entry, rfl⟩
      rcases mem_addressesOf.mp (written_subset laws (i := i) writes) with email | upn
      · obtain ⟨nonempty, e, given, rfl⟩ := emailKey_eq_some email
        have holds : holdsAddress u p e := (holdsAddress_iff nonempty).mpr held
        exact unheld _ planned _ email p (answers.people p person r member e given holds) held
      · obtain ⟨a, inside, same⟩ := mem_personAddresses.mp held
        have matches' : u.lower a = u.lower r.userPrincipalName := same.trans upn.symm
        have answered :=
          answers.names p person a inside r member (localPart_starts laws r.upn_typed.2 matches')
        exact (free r member).upn a answered matches'

theorem caseLaws_ascii : CaseLaws .ascii where
  folds := folds_ascii
  nonempty t given := by
    show t.map lowerUnit ≠ []
    simpa using given
  apart a b c boundary := by
    show (a ++ c :: b).map lowerUnit = a.map lowerUnit ++ c :: b.map lowerUnit
    rw [List.map_append, List.map_cons]
    rcases boundary with rfl | rfl <;> rfl

end

/-- A row for someone on example.com. -/
def newHire (line : Nat) (first last sam upn : String) (email : Option String)
    (sam_typed : trim (text sam) = text sam ∧ text sam ≠ [])
    (upn_typed : trim (text upn) = text upn ∧ unit '@' ∈ text upn)
    (email_typed : ∀ e ∈ email.map text, e ≠ []) : ImportRow where
  line
  ouDn := text "OU=Staff,DC=example,DC=com"
  givenName := text first
  surname := text last
  displayName := text (first ++ " " ++ last)
  cn := text (first ++ " " ++ last)
  samAccountName := text sam
  userPrincipalName := text upn
  email := email.map text
  employeeId := none
  sam_typed
  upn_typed
  email_typed

/-- A directory that has only John Smith, whose names nobody asks for. -/
def quietDirectory : Directory where
  naming := firstLast
  upnSuffixes := [text "example.com"]
  findTakenNames _ :=
    { samAccountNames := [text "smith"], userPrincipalNames := [], mailAddresses := [], cns := [] }
  findPeople _ := []
  further _ := []

def hireAda : ImportRow :=
  newHire 2 "Ada" "Byron" "ada.byron" "ada.byron@example.com" none (by decide) (by decide) (by decide)

def hireGrace : ImportRow :=
  newHire 3 "Grace" "Hopper" "grace.hopper" "grace.hopper@example.com" (some "grace@example.com") (by decide)
    (by decide) (by decide)

theorem checkImport_sound_hires :
    checkImport .ascii quietDirectory [hireAda, hireGrace] = .ok [] ∧
      [hireAda, hireGrace].Pairwise (NamesApart .ascii) := by
  have clear : checkImport .ascii quietDirectory [hireAda, hireGrace] = .ok [] := by decide
  exact ⟨clear, (checkImport_sound caseLaws_ascii clear).1⟩

end OpenAduc.UserImport
