import OpenAduc.TemporaryAccessPass.Preflight

namespace OpenAduc.TemporaryAccessPass
open Naming (Text text)
open Privilege (RoleGroup privilegedSidName isProtectedGroup groupPrivilege groupPrivilege_eq_none)

section
variable (past : List Said) (headers : Headers) (item : Item)

/-- A page that was read. -/
def PageRead (path : Text) (page : Page item.Read) : Prop :=
  (⟨.getJson path headers (.listOf item), .ok page⟩ : Said) ∈ past

/-- Every page of a list was read, from a path on, and these are its items. -/
inductive Listed : Text → List item.Read → Prop
  | last {path : Text} {page : Page item.Read} : PageRead past headers item path page →
      linked page.nextLink = none →
      Listed path page.value
  | more {path next : Text} {page : Page item.Read} {items : List item.Read} :
    PageRead past headers item path page →
      linked page.nextLink = some next → Listed next items → Listed path (page.value ++ items)

/-- The pages read lead from one path to another. -/
inductive Leads : Text → Text → Prop
  | here (path : Text) : Leads path path
  | next {path next last : Text} {page : Page item.Read} : PageRead past headers item path page →
      linked page.nextLink = some next → Leads next last → Leads path last

end

section
variable {past added : List Said} {headers : Headers} {item : Item} {path last : Text}
    {items : List item.Read}

theorem Listed.later (listed : Listed past headers item path items) :
    Listed (past ++ added) headers item path items := by
  induction listed with
  | last read ended => exact .last (List.mem_append_left added read) ended
  | more read linked _ ih => exact .more (List.mem_append_left added read) linked ih

theorem Listed.first (listed : Listed past headers item path items) :
    ∃ page, PageRead past headers item path page := by
  cases listed with
  | last read _ => exact ⟨_, read⟩
  | more read _ _ => exact ⟨_, read⟩

theorem Leads.later (leads : Leads past headers item path last) :
    Leads (past ++ added) headers item path last := by
  induction leads with
  | here path => exact .here path
  | next read linked _ ih => exact .next (List.mem_append_left added read) linked ih

end

def Question.creates : Question → Bool
  | .postJson _ _ => true
  | _ => false

/-- Graph refused the listing of eligibilities, at its first page or a later one, as the tenant
has no licence for any. -/
def Unlicensed (past : List Said) (x : Said) : Prop :=
  ∃ path hint, Leads past ROLE_HEADERS .principal ELIGIBILITIES_PATH path ∧
    x = ⟨.getJson path ROLE_HEADERS (.listOf .principal),
      .error (.graphPermission (some (text "AadPremiumLicenseRequired")) hint)⟩

/-- Nothing was created, and nothing failed but a listing of eligibilities the tenant has no licence for. -/
def Sound (past : List Said) : Prop :=
  ∀ x ∈ past, x.question.creates = false ∧ ((∃ a, x.answer = .ok a) ∨ Unlicensed past x)

section
variable {past : List Said} {x : Said}

theorem Unlicensed.later {added : List Said} (unlicensed : Unlicensed past x) :
    Unlicensed (past ++ added) x := by
  obtain ⟨path, hint, leads, refused⟩ := unlicensed
  exact ⟨path, hint, leads.later, refused⟩

theorem sound_nil : Sound [] := by
  intro x member
  cases member

theorem Sound.append (sound : Sound past) (reads : x.question.creates = false)
    (settled : (∃ a, x.answer = .ok a) ∨ Unlicensed (past ++ [x]) x) : Sound (past ++ [x]) := by
  intro y member
  rcases List.mem_append.mp member with before | last
  · obtain ⟨quiet, answered | unlicensed⟩ := sound y before
    · exact ⟨quiet, .inl answered⟩
    · exact ⟨quiet, .inr unlicensed.later⟩
  · rw [List.mem_singleton.mp last]
    exact ⟨reads, settled⟩

end

/-- Token groups that make their user no administrator. -/
structure ClearToken (lower : Text → Text) (roleGroups : List RoleGroup)
    (token : UserTokenGroups) : Prop where
  resolved : ∀ sid ∈ token.sids, ∃ g ∈ token.groups, g.sid = some sid
  sids : ∀ sid ∈ token.sids, privilegedSidName sid = none
  unprotected : ∀ g ∈ token.groups, isProtectedGroup g.toGroupLike = false
  notDnsAdmins : ∀ g ∈ token.groups, isDnsAdmins g.distinguishedName = false
  unmapped : ∀ g ∈ token.groups, ∀ r ∈ roleGroups, r.role = .admin → lower r.dn ≠ lower g.distinguishedName

/-- The tenant's policy, as read from Graph or kept from a read less than a minute before. -/
def PolicyKnown (past : List Said) (now : Int) (policy : GraphPolicy) : Prop :=
  (⟨.getJson POLICY_PATH [] .policy, .ok policy⟩ : Said) ∈ past ∨
    ∃ readAt, (⟨.cachedPolicy, .ok (some ⟨policy, readAt⟩)⟩ : Said) ∈ past ∧ now - readAt < POLICY_TTL_MS

/-- No Entra role is held, by the user or a group they are in. -/
structure NoRoles (past : List Said) (entraUserId : Text) (memberships : List Membership)
    (assigned eligible : List Text) : Prop where
  grouped : ∃ path, membershipsPath entraUserId = .ok path ∧ Listed past [] .membership path memberships
  notRole : ∀ m ∈ memberships, m.odataType ≠ some (text "#microsoft.graph.directoryRole")
  assignments : Listed past ROLE_HEADERS .principal ASSIGNMENTS_PATH assigned
  eligibilities : Listed past ROLE_HEADERS .principal ELIGIBILITIES_PATH eligible ∨
    eligible = [] ∧ ∃ x ∈ past, Unlicensed past x
  free : ∀ a ∈ assigned ++ eligible, a ≠ entraUserId ∧ ∀ m ∈ memberships, a ≠ m.id

section
variable {lower : Text → Text} {roleGroups : List RoleGroup} {token : UserTokenGroups}
    {past added : List Said} {now : Int}
  {policy : GraphPolicy} {entraUserId : Text} {memberships : List Membership} {assigned eligible : List Text}

theorem PolicyKnown.later (known : PolicyKnown past now policy) : PolicyKnown (past ++ added) now policy := by
  rcases known with read | ⟨readAt, kept, recent⟩
  · exact .inl (List.mem_append_left added read)
  · exact .inr ⟨readAt, List.mem_append_left added kept, recent⟩

theorem NoRoles.later (clear : NoRoles past entraUserId memberships assigned eligible) :
    NoRoles (past ++ added) entraUserId memberships assigned eligible where
  grouped := by
    obtain ⟨path, encoded, listed⟩ := clear.grouped
    exact ⟨path, encoded, listed.later⟩
  notRole := clear.notRole
  assignments := clear.assignments.later
  eligibilities := by
    rcases clear.eligibilities with listed | ⟨none_, x, member, unlicensed⟩
    · exact .inl listed.later
    · exact .inr ⟨none_, x, List.mem_append_left added member, unlicensed.later⟩
  free := clear.free

/-- A group that bars nothing is neither protected, nor DnsAdmins, nor a role's. -/
theorem groupBars_eq_none {adminGroups : List RoleGroup} {group : TapGroup}
    (clear : groupBars lower adminGroups group = none) :
    isProtectedGroup group.toGroupLike = false ∧ isDnsAdmins group.distinguishedName = false ∧
      ∀ r ∈ adminGroups, lower r.dn ≠ lower group.distinguishedName := by
  unfold groupBars at clear
  dsimp only at clear
  split at clear
  · cases clear
  next privilege =>
    split at clear
    · cases clear
    next dns =>
      split at clear
      · cases clear
      next role =>
        have none_ : groupPrivilege lower group.toGroupLike adminGroups = none := by simpa using role
        obtain ⟨unprotected, unmapped⟩ := (groupPrivilege_eq_none lower).mp none_
        exact ⟨unprotected, eq_false_of_ne_true dns, unmapped⟩

/-- Token groups that grant no privilege are clear. -/
theorem clearToken_of_privilege (clear : tokenPrivilege lower token roleGroups = none) :
    ClearToken lower roleGroups token := by
  unfold tokenPrivilege at clear
  dsimp only at clear
  split at clear
  · cases clear
  next plain =>
    split at clear
    · cases clear
    next groups =>
      split at clear
      next all =>
        have bars : ∀ g ∈ token.groups, isProtectedGroup g.toGroupLike = false ∧
          isDnsAdmins g.distinguishedName = false ∧
            ∀ r ∈ roleGroups.filter (·.role = .admin), lower r.dn ≠ lower g.distinguishedName :=
              fun g member =>
          groupBars_eq_none (List.findSome?_eq_none_iff.mp groups g member)
        refine ⟨fun sid member => ?_, fun sid member => ?_, fun g member =>
          (bars g member).1, fun g member => (bars g member).2.1,
          fun g member r mapped admin =>
            (bars g member).2.2 r (List.mem_filter.mpr ⟨mapped, by simpa using admin⟩)⟩
        · obtain ⟨g, found⟩ := Option.isSome_iff_exists.mp (List.all_eq_true.mp all sid member)
          exact ⟨g, List.mem_reverse.mp
            (List.mem_of_find?_eq_some found), by simpa using List.find?_some found⟩
        · simpa using List.findSome?_eq_none_iff.mp plain sid member
      next => cases clear

end

end OpenAduc.TemporaryAccessPass
