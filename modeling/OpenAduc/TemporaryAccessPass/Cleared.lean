import OpenAduc.TemporaryAccessPass.Issue
import OpenAduc.TemporaryAccessPass.Vetting

namespace OpenAduc.TemporaryAccessPass
open Naming (Text text)
open Privilege (privilegedSidName)
open Dialogue (Keeps keeps_pure keeps_throw keeps_call)

/-- What the exchanges before a pass is created say of its user, of the tenant and of the request. -/
structure Clearance (locale : Locale) (deps : TapDeps) (account : DirectoryUser)
    (asked : TapIssueRequest) (past : List Said)
    (path : Text) (body : PassRequest) where
  unmarked : account.adminCount ≠ some (text "1")
  sid : Text
  own : account.sid = some sid
  written : isSid sid = true
  token : UserTokenGroups
  tokenRead : (⟨.tokenGroups, .ok (some token)⟩ : Said) ∈ past
  clear : ClearToken locale.lower deps.roleGroups token
  policy : GraphPolicy
  known : PolicyKnown past deps.now policy
  enabled : policy.state = text "enabled"
  entraUserId : Text
  twin : ∃ page, PageRead past LOOKUP_HEADERS .target (usersBySidPath sid) page ∧ page.value.head? =
    some entraUserId
  memberships : List Membership
  assigned : List Text
  eligible : List Text
  roles : NoRoles past entraUserId memberships assigned eligible
  asks : passesPath entraUserId = .ok path
  passes : List TapMethod
  listed : ∃ page, PageRead past [] .pass path page ∧ page.value = passes
  spent : (∀ p ∈ passes, isSpent locale p deps.now = true) ∨ asked.replaceExisting = true
  within : WithinPolicy locale (policyLimits policy) (fitted (policyLimits policy) asked) deps.now
  sends : passRequest locale (fitted (policyLimits policy) asked) = .ok body

/-- What Graph said of a user a pass may be created for. -/
structure Vetted (locale : Locale) (deps : TapDeps) (past : List Said) (sid entraUserId : Text)
    (policy : GraphPolicy)
    (existing : Option ExistingTap) : Prop where
  known : PolicyKnown past deps.now policy
  enabled : policy.state = text "enabled"
  twin : ∃ page, PageRead past LOOKUP_HEADERS .target (usersBySidPath sid) page ∧ page.value.head? =
    some entraUserId
  roles : ∃ memberships assigned eligible, NoRoles past entraUserId memberships assigned eligible
  passes : ∃ path page, passesPath entraUserId = .ok path ∧ PageRead past [] .pass path page ∧
    existing = (page.value.find? fun p => !isSpent locale p deps.now).map toExisting

/-- A preflight that is ready says what it was made ready by. -/
def Granted (locale : Locale) (deps : TapDeps) (sid : Text) (past : List Said)
    (result : TapPreflightResult) : Prop :=
  ∀ policy existing scope entraUserId, result.preflight = .ready policy existing scope →
    linked result.entraUserId = some entraUserId →
    Sound past ∧ ∃ full, policyLimits full = policy ∧ Vetted locale deps past sid entraUserId full existing

/-- What AD said of a user a pass may be created for. -/
structure ClearInAd (locale : Locale) (deps : TapDeps) (past : List Said) (account : DirectoryUser)
    (sid : Text) : Prop where
  unmarked : account.adminCount ≠ some (text "1")
  own : account.sid = some sid
  written : isSid sid = true
  token : ∃ token, (⟨.tokenGroups, .ok (some token)⟩ : Said) ∈ past ∧
    ClearToken locale.lower deps.roleGroups token

/-- What each question is asked after. -/
def Allowed (locale : Locale) (deps : TapDeps) (account : DirectoryUser) (asked : TapIssueRequest)
    (past : List Said) : Question → Prop
  | .postJson path body => Sound past ∧ Nonempty (Clearance locale deps account asked past path body)
  | .keepPolicy cached =>
    cached.readAt = deps.now ∧ (⟨.getJson POLICY_PATH [] .policy, .ok cached.policy⟩ : Said) ∈ past
  | _ => True

section
variable {locale : Locale} {deps : TapDeps} {account : DirectoryUser} {asked : TapIssueRequest}
    {past : List Said}

theorem keeps_getJson {path : Text} {headers : Headers} {schema : Schema} :
    Keeps (Allowed locale deps account asked)
      (fun later r => later = past ++ [⟨.getJson path headers schema, r⟩]) past
      (getJson path headers schema) :=
  keeps_call trivial fun _ => rfl

theorem pagesFrom_none {headers : Headers} {item : Item} (fuel : Nat) (items : List item.Read) :
    pagesFrom headers item fuel none items = pure (some items) := by
  cases fuel <;> rfl

/-- Pages read to the end of a list, or to the one that fails. -/
theorem keeps_pagesFrom {headers : Headers} {item : Item} {fuel : Nat} {first : Text}
    {items : List item.Read} (sound : Sound past) :
    Keeps (Allowed locale deps account asked) (fun later r => match r with
      | .ok all =>
      Sound later ∧ ∀ found ∈ all, ∃ rest, found = items ++ rest ∧ Listed later headers item first rest
      | .error e =>
        ∃ before path, later = before ++ [⟨.getJson path headers (.listOf item), .error e⟩] ∧ Sound before ∧
          Leads later headers item first path) past (pagesFrom headers item fuel (some first) items) := by
  induction fuel generalizing past first items with
  | zero => exact keeps_pure ⟨sound, fun found none_ => by cases none_⟩
  | succ fuel ih =>
    refine keeps_getJson.chain (fun added page same => ?_) fun added e same => ?_
    · have sound' : Sound (past ++ added) := by
        rw [same]
        exact sound.append rfl (.inl ⟨page, rfl⟩)
      have read : PageRead (past ++ added) headers item first page := by
        unfold PageRead
        rw [same]
        simp
      cases link : linked page.nextLink with
      | none =>
        rw [pagesFrom_none]
        refine keeps_pure ⟨sound', fun found some_ => ?_⟩
        rw [← Option.some.inj some_]
        exact ⟨page.value, rfl, .last read link⟩
      | some next =>
        refine (ih sound').mono (fun _ _ => id) fun more r held => ?_
        cases r with
        | ok all =>
          refine ⟨held.1, fun found some_ => ?_⟩
          obtain ⟨rest, rfl, listed⟩ := held.2 found some_
          exact ⟨page.value ++ rest, List.append_assoc _ _ _,
            .more (List.mem_append_left more read) link listed⟩
        | error e =>
          obtain ⟨before, path, same, sound, leads⟩ := held
          exact ⟨before, path, same, sound, .next (List.mem_append_left more read) link leads⟩
    · exact ⟨past, first, same, sound, .here first⟩

/-- All pages of a listing are what the listing has. -/
theorem keeps_allPages {headers : Headers} {item : Item} {first : Text} (some_ : first ≠ [])
    (sound : Sound past) :
    Keeps (Allowed locale deps account asked) (fun later r => match r with
      | .ok all => Sound later ∧ ∀ found ∈ all, Listed later headers item first found
      | .error e =>
        ∃ before path, later = before ++ [⟨.getJson path headers (.listOf item), .error e⟩] ∧ Sound before ∧
          Leads later headers item first path) past (allPages first item headers) := by
  have link : linked (some first) = some first := by simp [linked, some_]
  unfold allPages
  rw [link]
  refine (keeps_pagesFrom sound).mono (fun _ _ => id) fun added r held => ?_
  cases r with
  | error e => exact held
  | ok all =>
    refine ⟨held.1, fun found member => ?_⟩
    obtain ⟨rest, rfl, listed⟩ := held.2 found member
    exact listed

/-- A listing of eligibilities the tenant has no licence for counts as an empty one. -/
theorem keeps_eligibilities (sound : Sound past) :
    Keeps (Allowed locale deps account asked) (fun later r => match r with
      | .ok all =>
      Sound later ∧ ∀ found ∈ all, Listed later ROLE_HEADERS .principal ELIGIBILITIES_PATH found ∨
          found = [] ∧ ∃ x ∈ later, Unlicensed later x
      | .error _ => True) past
      (tryCatch (allPages ELIGIBILITIES_PATH .principal ROLE_HEADERS) noEligibilities) := by
  refine (keeps_allPages (by decide) sound).catching (fun added all held => ?_) fun added e failed => ?_
  · exact ⟨held.1, fun found member => .inl (held.2 found member)⟩
  · unfold noEligibilities
    split
    next code hint =>
      split
      next unlicensed =>
        obtain ⟨before, path, same, sound, leads⟩ := failed
        have refused : Unlicensed (past ++ added)
            ⟨.getJson path ROLE_HEADERS (.listOf .principal), .error (.graphPermission (some code) hint)⟩ :=
          ⟨path, hint, leads, by rw [unlicensed]⟩
        rw [same] at refused ⊢
        refine keeps_pure ⟨sound.append rfl (.inr refused), fun found member => .inr ?_⟩
        exact ⟨(Option.some.inj member).symm, _, by simp, refused⟩
      next => exact keeps_throw trivial
    next => exact keeps_throw trivial

theorem membershipsPath_ne_nil {entraUserId path : Text}
    (encoded : membershipsPath entraUserId = .ok path) : path ≠ [] := by
  unfold membershipsPath at encoded
  cases inner : encodeURIComponent entraUserId with
  | error e =>
    rw [inner] at encoded
    cases encoded
  | ok id =>
    rw [inner] at encoded
    rw [← Except.ok.inj encoded]
    intro empty
    exact absurd (List.append_eq_nil_iff.mp empty).2 (by decide)

/-- A user without roles was asked for by every listing of them. -/
theorem keeps_listRoles {entraUserId : Text} (sound : Sound past) :
    Keeps (Allowed locale deps account asked) (fun later r => match r with
      | .ok (.none _) =>
      Sound later ∧ ∃ memberships assigned eligible, NoRoles later entraUserId memberships assigned eligible
      | _ => True) past (listRoles entraUserId) := by
  unfold listRoles
  cases encoded : membershipsPath entraUserId with
  | error e => exact trivial
  | ok path =>
    refine (keeps_allPages (membershipsPath_ne_nil encoded) sound).chain
      (fun added memberships held => ?_) fun _ _ _ => trivial
    cases memberships with
    | none => exact keeps_pure trivial
    | some memberships =>
      obtain ⟨sound, grouped⟩ := held
      dsimp only
      split
      next => exact keeps_pure trivial
      next notRole =>
        refine (keeps_allPages (by decide) sound).chain (fun added' assigned held => ?_) fun _ _ _ => trivial
        obtain ⟨sound, assignments⟩ := held
        refine (keeps_eligibilities sound).chain (fun added'' eligible held => ?_) fun _ _ _ => trivial
        obtain ⟨sound, eligibilities⟩ := held
        split
        next assigned eligible =>
          split
          next => exact keeps_pure trivial
          next free =>
            refine keeps_pure ⟨sound, memberships, assigned, eligible, ?_, ?_, ?_, ?_, ?_⟩
            · exact ⟨path, encoded, (grouped memberships rfl).later.later⟩
            · simpa using notRole
            · exact (assignments assigned rfl).later
            · exact eligibilities eligible rfl
            · intro a member
              have other : a ∉ entraUserId :: memberships.map (·.id) := by
                have none_ := List.any_eq_true.not.mp free
                intro inside
                exact none_ ⟨a, member, decide_eq_true inside⟩
              refine ⟨fun same => other (same ▸ List.mem_cons_self), fun m inside same => other ?_⟩
              exact List.mem_cons_of_mem _ (List.mem_map.mpr ⟨m, inside, same.symm⟩)
        next => exact keeps_pure trivial

theorem keeps_findEntraUser {sid : Text} (sound : Sound past) :
    Keeps (Allowed locale deps account asked) (fun later r => match r with
      | .ok found =>
      Sound later ∧ ∃ page, PageRead later LOOKUP_HEADERS .target (usersBySidPath sid) page ∧
      page.value.head? = found
      | .error _ => True) past (findEntraUser sid) := by
  refine keeps_getJson.chain (fun added page same => ?_) fun _ _ _ => trivial
  refine keeps_pure ⟨?_, page, ?_, rfl⟩
  · rw [same]
    exact sound.append rfl (.inl ⟨page, rfl⟩)
  · unfold PageRead
    rw [same]
    simp

/-- A policy fetched is the one Graph answered with. -/
theorem keeps_fetchPolicy (sound : Sound past) :
    Keeps (Allowed locale deps account asked) (fun later r => match r with
      | .ok policy => Sound later ∧ PolicyKnown later deps.now policy
      | .error _ => True) past (fetchPolicy deps.now) := by
  refine keeps_getJson.chain (fun added policy same => ?_) fun _ _ _ => trivial
  have sound' : Sound (past ++ added) := by
    rw [same]
    exact sound.append rfl (.inl ⟨policy, rfl⟩)
  have read : (⟨.getJson POLICY_PATH [] .policy, .ok policy⟩ : Said) ∈ past ++ added := by
    rw [same]
    simp
  refine Keeps.chain (P := fun later r => later = past ++ added ++ [⟨.keepPolicy ⟨policy, deps.now⟩, r⟩])
    (keeps_call ⟨rfl, read⟩ fun _ => rfl) (fun more kept same => ?_) fun _ _ _ => trivial
  refine keeps_pure ⟨?_, .inl (List.mem_append_left more read)⟩
  rw [same]
  exact sound'.append rfl (.inl ⟨kept, rfl⟩)

/-- A policy read is Graph's, fetched now or kept from before. -/
theorem keeps_readPolicy (sound : Sound past) :
    Keeps (Allowed locale deps account asked) (fun later r => match r with
      | .ok policy => Sound later ∧ PolicyKnown later deps.now policy
      | .error _ => True) past (readPolicy deps.now) := by
  refine Keeps.chain (P := fun later r => later = past ++ [⟨.cachedPolicy, r⟩])
    (keeps_call trivial fun _ => rfl) (fun added cached same => ?_) fun _ _ _ => trivial
  have sound' : Sound (past ++ added) := by
    rw [same]
    exact sound.append rfl (.inl ⟨cached, rfl⟩)
  cases cached with
  | none => exact keeps_fetchPolicy sound'
  | some kept =>
    dsimp only
    split
    next recent =>
      refine keeps_pure ⟨sound', .inr ⟨kept.readAt, ?_, recent⟩⟩
      rw [same]
      simp
    next => exact keeps_fetchPolicy sound'

/-- Asking when the tenant last synced ends in nothing a pass is created for. -/
theorem keeps_tenantLastSync : Keeps (Allowed locale deps account asked) (fun _ _ => True) past
    (tenantLastSync locale) := by
  refine Keeps.catching (P := fun _ _ => True) ?_ (fun _ _ _ => trivial) fun _ _ _ => keeps_pure trivial
  refine keeps_getJson.chain (fun added synced _ => ?_) fun _ _ _ => trivial
  split
  · exact keeps_pure trivial
  next at_ _ =>
    cases isoDate (locale.date at_) with
    | ok shown => exact trivial
    | error e => exact trivial

theorem keeps_entraRoles {entraUserId : Text} (sound : Sound past) :
    Keeps (Allowed locale deps account asked) (fun later r => match r with
      | .ok (.none _) =>
      Sound later ∧ ∃ memberships assigned eligible, NoRoles later entraUserId memberships assigned eligible
      | _ => True) past (entraRoles entraUserId) := by
  refine (keeps_listRoles sound).catching (fun added roles held => held) fun added e _ => ?_
  split
  · exact keeps_pure trivial
  · exact keeps_throw trivial

theorem granted_refused {sid : Text} (reason : TapRefusalReason) (message : Text) :
    Granted locale deps sid past (refusedFor reason message) :=
  fun _ _ _ _ ready => nomatch ready

/-- What Graph's checks grant was granted by its answers. -/
theorem keeps_graphPreflight {who sid : Text} (sound : Sound past) :
    Keeps (Allowed locale deps account asked)
      (fun later r => ∀ result, r = .ok result → Granted locale deps sid later result) past
      (graphPreflight locale deps who sid) := by
  have refuses : ∀ {past : List Said} (reason : TapRefusalReason) (message : Text),
      Keeps (Allowed locale deps account asked)
        (fun later r => ∀ result, r = .ok result → Granted locale deps sid later result) past
        (pure (refusedFor reason message)) := by
    intro past reason message
    refine keeps_pure fun result same => ?_
    rw [← Except.ok.inj same]
    exact granted_refused reason message
  refine (keeps_readPolicy sound).chain (fun added policy held => ?_) fun _ _ _ _ failed => nomatch failed
  obtain ⟨sound, known⟩ := held
  split
  next => exact refuses _ _
  next enabled =>
    refine (keeps_findEntraUser sound).chain (fun added found held => ?_) fun _ _ _ _ failed => nomatch failed
    obtain ⟨sound, page, read, head⟩ := held
    split
    next =>
      refine keeps_tenantLastSync.chain (fun _ lastSyncAt _ => ?_) fun _ _ _ _ failed => nomatch failed
      refine keeps_pure fun result same => ?_
      rw [← Except.ok.inj same]
      exact fun _ _ _ _ ready => nomatch ready
    next entraUserId named =>
      refine (keeps_entraRoles sound).chain (fun added roles held => ?_) fun _ _ _ _ failed => nomatch failed
      split
      next => exact refuses _ _
      next => exact refuses _ _
      next groupIds =>
        obtain ⟨sound, clear⟩ := held
        cases encoded : passesPath entraUserId with
        | error e => exact fun _ failed => nomatch failed
        | ok path =>
          refine keeps_getJson.chain (fun added passes same => ?_) fun _ _ _ _ failed => nomatch failed
          refine keeps_pure fun result made => ?_
          rw [← Except.ok.inj made]
          intro limits existing scope id ready isId
          have which : found = some entraUserId := (Option.filter_eq_some_iff.mp named).1
          obtain rfl : entraUserId = id := by
            have own := (Option.filter_eq_some_iff.mp isId).1
            exact Option.some.inj own
          obtain ⟨rfl, rfl, rfl⟩ := TapPreflight.ready.inj ready
          refine ⟨?_, policy, rfl, ?_, ?_, ?_, ?_, path, passes, encoded, ?_, rfl⟩
          · rw [same]
            exact sound.append rfl (.inl ⟨passes, rfl⟩)
          · exact known.later.later.later
          · simpa using enabled
          · refine ⟨page, ?_, head.trans which⟩
            exact List.mem_append_left _ (List.mem_append_left _ read)
          · obtain ⟨memberships, assigned, eligible, clear⟩ := clear
            exact ⟨memberships, assigned, eligible, clear.later⟩
          · unfold PageRead
            rw [same]
            simp

/-- The checks together grant only who AD and Graph clear. -/
theorem keeps_tapPreflight :
    Keeps (Allowed locale deps account asked)
      (fun later r => ∀ result, r = .ok result → ∀ policy existing scope entraUserId,
      result.preflight = .ready policy existing scope → linked result.entraUserId = some entraUserId →
      ∃ sid, ClearInAd locale deps later account sid ∧ Granted locale deps sid later result) []
      (tapPreflight locale deps (tapUserOf account)) := by
  have refuses : ∀ {past : List Said} (reason : TapRefusalReason) (message : Text),
      Keeps (Allowed locale deps account asked)
        (fun later r => ∀ result, r = .ok result → ∀ policy existing scope entraUserId,
        result.preflight = .ready policy existing scope → linked result.entraUserId = some entraUserId →
        ∃ sid, ClearInAd locale deps later account sid ∧ Granted locale deps sid later result) past
        (pure (refusedFor reason message)) := by
    intro past reason message
    refine keeps_pure fun result same => ?_
    rw [← Except.ok.inj same]
    exact fun _ _ _ _ ready => nomatch ready
  unfold tapPreflight
  dsimp only
  split
  next => exact refuses _ _
  next unprotected =>
    refine Keeps.chain (P := fun later r => later = [] ++ [⟨.tokenGroups, r⟩])
      (keeps_call trivial fun _ => rfl)
      (fun added token same => ?_) fun _ _ _ _ failed => nomatch failed
    split
    next token sid isOwn =>
      split
      next written =>
        split
        next => exact refuses _ _
        next => exact refuses _ _
        next clear =>
          have sound : Sound ([] ++ added) := by
            rw [same]
            exact sound_nil.append rfl (.inl ⟨_, rfl⟩)
          refine (keeps_graphPreflight sound).mono (fun _ _ => id)
            fun more r granted result made _ _ _ _ _ _ => ?_
          refine ⟨sid, ⟨?_, isOwn, written, token, ?_, clearToken_of_privilege clear⟩, granted result made⟩
          · simpa [tapUserOf] using unprotected
          · refine List.mem_append_left more ?_
            rw [same]
            simp
      next => exact refuses _ _
    next => exact refuses _ _

/-- The request a pass is created with goes out only where its caller is cleared. -/
theorem keeps_createPass {entraUserId : Text} {request : TapIssueRequest}
    {existing : Option ExistingTap} (sound : Sound past)
    (cleared : ∀ path body, passesPath entraUserId = .ok path → passRequest locale request = .ok body →
      Nonempty (Clearance locale deps account asked past path body)) :
    Keeps (Allowed locale deps account asked) (fun _ _ => True) past
      (createPass locale deps entraUserId request existing) := by
  unfold createPass
  cases encoded : passesPath entraUserId with
  | error e => exact trivial
  | ok path =>
    cases sends : passRequest locale request with
    | error e => exact trivial
    | ok body =>
      have allowed : Allowed locale deps account asked past (.postJson path body) :=
        ⟨sound, cleared path body encoded sends⟩
      show Keeps _ _ past (Dialogue.call (Question.postJson path body) >>= _)
      refine Keeps.chain (P := fun _ _ => True) (keeps_call allowed fun _ => trivial)
        (fun added created _ => ?_) fun _ _ _ => trivial
      dsimp only
      cases isoDate (createdStart locale created deps.now) with
      | error e => exact trivial
      | ok startsAt =>
        cases isoDate (tapExpiresAt (createdStart locale created deps.now) created.lifetimeInMinutes) with
        | error e => exact trivial
        | ok expiresAt => exact trivial

/-- A pass is only asked for once the checks have cleared its user. -/
theorem keeps_issueTap :
    Keeps (Allowed locale deps account asked) (fun _ _ => True) []
      (issueTap locale deps (tapUserOf account) asked) := by
  refine keeps_tapPreflight.chain (fun added result held => ?_) fun _ _ _ => trivial
  split
  next => exact keeps_pure trivial
  next policy existing scope entraUserId ready named =>
    obtain ⟨sid, ad, granted⟩ := held result rfl policy existing scope entraUserId ready named
    obtain ⟨sound, full, rfl, vetted⟩ := granted policy existing scope entraUserId ready named
    dsimp only
    split
    next => exact keeps_pure trivial
    next fine =>
      split
      next => exact keeps_pure trivial
      next unheld =>
        refine keeps_createPass sound fun path body encoded sends => ?_
        obtain ⟨token, tokenRead, clear⟩ := ad.token
        obtain ⟨memberships, assigned, eligible, roles⟩ := vetted.roles
        obtain ⟨path', page, encoded', read, live⟩ := vetted.passes
        obtain rfl : path' = path := Except.ok.inj (encoded'.symm.trans encoded)
        refine ⟨{ ad with
          sid, token, tokenRead, clear, policy := full, known := vetted.known, enabled :=
            vetted.enabled, entraUserId
          twin := vetted.twin, memberships, assigned, eligible, roles, asks := encoded, passes := page.value
          listed := ⟨page, read, rfl⟩, spent := ?_, within := withinPolicy_iff.mp fine, sends }⟩
        by_cases replaces : asked.replaceExisting = true
        · exact .inr replaces
        · refine .inl fun p member => ?_
          have same : (fitted (policyLimits full) asked).replaceExisting = asked.replaceExisting := by
            unfold fitted
            split <;> rfl
          have none_ : existing = none := by
            by_contra some_
            exact unheld ⟨Option.isSome_iff_ne_none.mpr
              some_, by rw [same]; exact eq_false_of_ne_true replaces⟩
          rw [none_, eq_comm, Option.map_eq_none_iff, List.find?_eq_none] at live
          simpa using live p member
  next => exact keeps_pure trivial

end

/-- Whatever is answered, or fails, a pass is created only after every check was read and
passed, with nothing created before and nothing failed but a listing of eligibilities the
tenant has no licence for; and the policy kept for later is one just read. -/
theorem tap_created_only_cleared (locale : Locale) (deps : TapDeps) (account : DirectoryUser)
    (asked : TapIssueRequest)
    (past : List Said) :
    (∀ path body, (issueTap locale deps (tapUserOf account) asked).Asks past (.postJson path body) →
      Sound past ∧ Nonempty (Clearance locale deps account asked past path body)) ∧
    ∀ cached, (issueTap locale deps (tapUserOf account) asked).Asks past (.keepPolicy cached) →
      cached.readAt = deps.now ∧ (⟨.getJson POLICY_PATH [] .policy, .ok cached.policy⟩ : Said) ∈ past :=
  ⟨fun _ _ asks => keeps_issueTap.asks asks, fun _ asks => keeps_issueTap.asks asks⟩

def aliceLocale : Locale where
  lower t := t.map Naming.lowerUnit
  date _ := none

/-- A user of one group and one team. -/
def alice : DirectoryUser where
  sid := some (text "S-1-5-21-1-2-3-1105")
  displayName := some (text "Alice")
  samAccountName := some (text "alice")
  adminCount := none

/-- Her account, with the SID the domain's administrators have. -/
def aliceTheAdmins : DirectoryUser := { alice with sid := some (text "S-1-5-21-1-2-3-512") }

def domainUsers : TapGroup where
  distinguishedName := text "CN=Domain Users,CN=Users,DC=corp"
  sid := some (text "S-1-5-21-1-2-3-513")
  adminCount := none
  name := some (text "Domain Users")

def aliceDeps : TapDeps where
  roleGroups := [⟨text "CN=Helpdesk,DC=corp", .operator⟩, ⟨text "CN=Admins,DC=corp", .admin⟩]
  now := 1000000

def aliceAsks : TapIssueRequest where
  startsAt := none
  lifetimeMinutes := 5
  isUsableOnce := true
  replaceExisting := false
  fitLifetime := true

def tapPolicy : GraphPolicy where
  state := text "enabled"
  defaultLifetimeInMinutes := 60
  minimumLifetimeInMinutes := 10
  maximumLifetimeInMinutes := 480
  isUsableOnce := false
  includeTargets := none
  excludeTargets := none

/-- What AD and Graph answer for her; the policy may be kept already, and eligibilities are
listed, or refused. -/
def aliceAnswers (kept : Option CachedPolicy) (eligibilities : Except Thrown (Page Text)) :
    ∀ q : Question, Except Thrown q.Answer
  | .tokenGroups => .ok (some ⟨[text "S-1-5-21-1-2-3-513"], [domainUsers]⟩)
  | .cachedPolicy => .ok kept
  | .keepPolicy _ => .ok ()
  | .getJson _ _ .policy => .ok tapPolicy
  | .getJson _ _ (.listOf .target) => .ok ⟨[text "a-1"], none⟩
  | .getJson path _ (.listOf .membership) =>
    if path = text "more" then
      .ok ⟨[⟨text "unit-1", some (text "#microsoft.graph.administrativeUnit")⟩], some []⟩
    else .ok ⟨[⟨text "team-1", some (text "#microsoft.graph.group")⟩], some (text "more")⟩
  | .getJson path _ (.listOf .principal) =>
    if path = ASSIGNMENTS_PATH then .ok ⟨[text "b-2"], none⟩ else eligibilities
  | .getJson _ _ (.listOf .pass) =>
    .ok ⟨[⟨none, none, none, some 60, none, none, some (text "Expired")⟩], none⟩
  | .getJson _ _ .organization => .ok none
  | .postJson _ _ => .ok ⟨none, text "secret", none, none, 10, true, by decide⟩

def aliceSaid (account : DirectoryUser) (kept : Option CachedPolicy)
    (eligibilities : Except Thrown (Page Text)) : List Said :=
  ((issueTap aliceLocale aliceDeps (tapUserOf account) aliceAsks).run (aliceAnswers kept eligibilities)).2

def alicePath : Text := text "/users/a-1/authentication/temporaryAccessPassMethods"

/-- Her pass, as short as the tenant's policy allows. -/
def alicePass : PassRequest := ⟨none, 10, true⟩

theorem tap_created_cleared :
    let past := (aliceSaid alice none (.ok ⟨[text "c-3"], none⟩)).take 10
    Sound past ∧ Nonempty (Clearance aliceLocale aliceDeps alice aliceAsks past alicePath alicePass) :=
  (tap_created_only_cleared aliceLocale aliceDeps alice aliceAsks _).1 _ _ (Dialogue.asks_of_run (by decide))

/-- A tenant that refuses to list eligibilities for want of a licence has her pass created all
the same, as has one whose policy was read half a minute ago; and nobody asks what her own SID is. -/
theorem tap_created_unchecked :
    let unlicensed :=
  (aliceSaid alice none (.error (.graphPermission (some (text "AadPremiumLicenseRequired")) none))).take 10
    let kept := (aliceSaid alice (some ⟨tapPolicy, 970000⟩) (.ok ⟨[], none⟩)).take 8
    let admins := (aliceSaid aliceTheAdmins none (.ok ⟨[], none⟩)).take 10
    ((issueTap aliceLocale aliceDeps (tapUserOf alice) aliceAsks).Asks unlicensed
      (.postJson alicePath alicePass) ∧
      (∃ x ∈ unlicensed, x.question = .getJson ELIGIBILITIES_PATH ROLE_HEADERS
        (.listOf .principal) ∧ x.answer.toBool = false) ∧
      ¬∃ eligible, Listed unlicensed ROLE_HEADERS .principal ELIGIBILITIES_PATH eligible) ∧
    ((issueTap aliceLocale aliceDeps (tapUserOf alice) aliceAsks).Asks kept (.postJson alicePath alicePass) ∧
      ∀ x ∈ kept, x.question ≠ .getJson POLICY_PATH [] .policy) ∧
    ((issueTap aliceLocale aliceDeps (tapUserOf aliceTheAdmins) aliceAsks).Asks admins
      (.postJson alicePath alicePass) ∧
      ∃ sid, aliceTheAdmins.sid = some sid ∧ privilegedSidName sid = some (text "Domain Admins")) := by
  intro unlicensed kept admins
  let refused (x : Said) : Bool :=
    decide (x.question = .getJson ELIGIBILITIES_PATH ROLE_HEADERS (.listOf .principal))
  have some_ : unlicensed.any (fun x => refused x && !x.answer.toBool) = true := by decide
  have all : unlicensed.all (fun x => !(refused x && x.answer.toBool)) = true := by decide
  have unread : kept.all (fun x => decide (x.question ≠ .getJson POLICY_PATH [] .policy)) = true := by decide
  refine ⟨⟨Dialogue.asks_of_run (by decide), ?_, fun ⟨eligible, listed⟩ => ?_⟩,
    ⟨Dialogue.asks_of_run (by decide), fun x member =>
      of_decide_eq_true (List.all_eq_true.mp unread x member)⟩,
    Dialogue.asks_of_run (by decide), _, rfl, by decide⟩
  · obtain ⟨x, member, held⟩ := List.any_eq_true.mp some_
    exact ⟨x, member, by simpa [refused] using held⟩
  · obtain ⟨page, read⟩ := listed.first
    have none_ := List.all_eq_true.mp all _ read
    simp [refused, Except.toBool] at none_

end OpenAduc.TemporaryAccessPass
