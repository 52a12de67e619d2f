import Mathlib.Tactic.Ring
import Mathlib.Data.List.Basic

namespace OpenAduc.LicenseChecks

/-- What the platform does with text: its lower case, and the product names it ships with. -/
structure Texts where
  lower : String → String
  productNames : String → Option String

structure EntraGroupSku where
  skuId : String
  skuPartNumber : Option String
  deriving DecidableEq, Repr

/-- A licensed group an import row joins, as the license cache had it. -/
structure ExpectedLicenseGroup where
  groupId : String
  entraGroupId : String
  name : String
  skus : List EntraGroupSku
  deriving DecidableEq, Repr

inductive LicenseAssignmentError
  | countViolation
  | mutuallyExclusiveViolation
  | dependencyViolation
  | prohibitedInUsageLocationViolation
  | uniquenessViolation
  | other
  deriving DecidableEq, Repr

inductive ImportLicenseState
  | pending
  | active
  | activeWithError
  | disabled
  | error
  deriving DecidableEq, Repr

/-- One license a row's groups grant, as Entra last said. -/
structure CheckedLicense where
  skuId : String
  skuPartNumber : Option String
  group : String
  state : ImportLicenseState
  error : Option LicenseAssignmentError
  deriving DecidableEq, Repr

/-- A user's license assignment state, as Graph lists it. -/
structure AssignmentState where
  skuId : String
  assignedByGroup : Option String
  state : Option String
  error : Option String
  deriving DecidableEq, Repr

inductive ImportLicenseCheckCode
  | unsynced
  | throttled
  | graphRefused
  | graphUnavailable
  | directoryUnavailable
  | internalError
  | licensesOff
  | notInGroups
  | notCreated
  | syncTimeout
  | settleTimeout
  deriving DecidableEq, Repr

def andList : List String → String
  | [] => ""
  | [word] => word
  | words => ", ".intercalate words.dropLast ++ " and " ++ words.getLastD ""

def assignmentError (raw : Option String) : Option LicenseAssignmentError :=
  match raw with
  | none => none
  | some raw =>
    if raw = "" ∨ raw = "None" then none
    else if raw = "CountViolation" then some .countViolation
    else if raw = "MutuallyExclusiveViolation" then some .mutuallyExclusiveViolation
    else if raw = "DependencyViolation" then some .dependencyViolation
    else if raw = "ProhibitedInUsageLocationViolation" then some .prohibitedInUsageLocationViolation
    else if raw = "UniquenessViolation" then some .uniquenessViolation
    else some .other

def MINUTE : Nat := 60000

/-- Connect Sync runs every 30 minutes by default; a day covers a sync held up a while. -/
def SYNC_WINDOW_MS : Nat := 24 * 60 * MINUTE

def SETTLE_WINDOW_MS : Nat := 2 * 60 * MINUTE

def MAX_WAIT_MS : Nat := 15 * MINUTE

def SYNC_WAIT_MESSAGE : String := "Waiting for Connect Sync to bring them to Microsoft Entra."

/-- How long to wait before looking again after `attempts` looks. -/
def retryMs (attempts : Nat) : Nat :=
  Nat.min MAX_WAIT_MS (MINUTE * Nat.pow 2 (attempts - 1))

/-- What a look comes to. -/
inductive Outcome
  | settled
  | waiting (afterMs : Nat) (message : String)
  | stopped (message : String)
  deriving DecidableEq, Repr

/-- Why a check stops, whatever Graph would answer. -/
structure Stop where
  code : ImportLicenseCheckCode
  message : String
  deriving DecidableEq, Repr

def ImportLicenseCheckCode.isError : ImportLicenseCheckCode → Bool
  | .graphRefused | .graphUnavailable | .directoryUnavailable | .internalError => true
  | _ => false

structure WaitingCheck where
  code : Option ImportLicenseCheckCode
  message : Option String
  /-- When the account was created (else when the job was). -/
  startedAt : Nat
  syncedAt : Option Nat
  licenses : Option (List CheckedLicense)
  hasAccount : Bool
  licensesOn : Bool
  deriving DecidableEq, Repr

namespace Texts
variable (t : Texts)

/-- Entra's states by their names in lower case; one it doesn't know is told by its error. -/
def assignmentState (s : AssignmentState) : ImportLicenseState :=
  let state := t.lower (s.state.getD "")
  if state = "active" then .active
  else if state = "activewitherror" then .activeWithError
  else if state = "disabled" then .disabled
  else if state = "error" then .error
  else if (assignmentError s.error).isSome then .error else .active

/-- Whether a state is of this product, assigned by this group. -/
def grants (g : ExpectedLicenseGroup) (sku : EntraGroupSku) (s : AssignmentState) : Bool :=
  t.lower s.skuId = t.lower sku.skuId ∧
    s.assignedByGroup.any fun by_ => by_ ≠ "" ∧ t.lower by_ = t.lower g.entraGroupId

def checkedLicense (states : List AssignmentState) (g : ExpectedLicenseGroup)
    (sku : EntraGroupSku) : CheckedLicense :=
  let found := states.find? (t.grants g sku)
  { skuId := sku.skuId
    skuPartNumber := sku.skuPartNumber
    group := g.name
    state := (found.map t.assignmentState).getD .pending
    error := found.bind fun s => assignmentError s.error }

def checkedLicenses (expected : List ExpectedLicenseGroup) (states : List AssignmentState) :
    List CheckedLicense :=
  expected.flatMap fun g => g.skus.map (t.checkedLicense states g)

/-- A product's friendly name, else its part number, else its id. -/
def skuName (skuId : String) (skuPartNumber : Option String) : String :=
  (t.productNames (t.lower skuId)).getD (skuPartNumber.getD skuId)

def pendingNames (licenses : List CheckedLicense) : String :=
  andList ((licenses.filter (·.state = .pending)).map fun l => t.skuName l.skuId l.skuPartNumber).eraseDups

/-- Settled once every license is listed, with or without an error; else look again later. -/
def settleOutcome (licenses : List CheckedLicense) (attempts : Nat) : Outcome :=
  if ∀ l ∈ licenses, l.state ≠ .pending then .settled
  else .waiting (retryMs attempts) ("Waiting for Entra to assign " ++ t.pendingNames licenses ++ ".")

def stopOf (c : WaitingCheck) (now : Nat) : Option Stop :=
  if !c.licensesOn then
    some ⟨.licensesOff, "Licenses were turned off for this directory, so their licenses weren’t checked."⟩
  else
    let deadline :=
      match c.syncedAt with
      | some syncedAt => syncedAt + SETTLE_WINDOW_MS
      | none => c.startedAt + SYNC_WINDOW_MS
    if now < deadline then none
    else if !c.hasAccount then
      some ⟨.notCreated, "The import didn’t create the account, so there were no licenses to check."⟩
    else
      match c.code.filter (·.isError), c.message.filter (· ≠ "") with
      | some code, some message => some ⟨code, message⟩
      | _, _ =>
        if c.syncedAt.isNone then
          some ⟨.syncTimeout,
            "Timed out waiting for sync: they weren’t in Microsoft Entra a day after the import created the account. Their Licenses tab shows their licenses once they sync."⟩
        else
          some ⟨.settleTimeout, "Timed out waiting for Entra to assign " ++
            t.pendingNames (c.licenses.getD []) ++
            " two hours after they synced. Their Licenses tab shows how it stands now."⟩

end Texts

variable {t : Texts}

/-- A check stops exactly where its feature is off or its deadline has passed. -/
theorem stopOf_isSome {c : WaitingCheck} {now : Nat} :
    (t.stopOf c now).isSome ↔ c.licensesOn = false ∨
      (c.syncedAt = none ∧ c.startedAt + SYNC_WINDOW_MS ≤ now) ∨
      ∃ syncedAt, c.syncedAt = some syncedAt ∧ syncedAt + SETTLE_WINDOW_MS ≤ now := by
  unfold Texts.stopOf
  cases on : c.licensesOn with
  | false => simp
  | true =>
    cases synced : c.syncedAt with
    | none =>
      simp only [Bool.not_true, Bool.false_eq_true, if_false, false_or, true_and, reduceCtorEq,
        false_and, exists_false, or_false]
      by_cases early : now < c.startedAt + SYNC_WINDOW_MS
      · simp [early]
      · simp only [early, if_false, Nat.not_lt.mp early, iff_true]
        repeat' split
        all_goals rfl
    | some syncedAt =>
      simp only [Bool.not_true, Bool.false_eq_true, if_false, false_or, reduceCtorEq, false_and,
        Option.some.injEq, exists_eq_left']
      by_cases early : now < syncedAt + SETTLE_WINDOW_MS
      · simp [early]
      · simp only [early, if_false, Nat.not_lt.mp early, iff_true]
        repeat' split
        all_goals rfl

end OpenAduc.LicenseChecks
