import ZcashVoting.Lib.OptimisticCell
import ZcashVoting.ShareDelivery.DeliveryState

/-!
# The row of one share

A row of `share_delegations` and the statements that change it. Each operation reads the
row, checks it, and sends an update that names the columns it has read; where another
connection has changed one of them the update touches nothing and the operation reads
again. The columns hold JSON texts; here they are the lists those texts spell.

The three lists may hold entries of older schemas that have no canonical form. They are
never contacted and stay where they are.
-/
namespace ZcashVoting.ShareDelivery

open KeyedData Optimistic

/-! ### Rows -/

structure ShareRow where
  (sentToUrls ambiguousUrls attemptingUrls : List String)
  targetCount : Nat
  nullifier : List UInt8
  confirmed : Bool
  (submitAt createdAt : Nat)
  deriving DecidableEq

/-- The names of a share in error texts. -/
structure SharePlace where
  (roundId walletId : String)
  (bundleIndex proposalId shareIndex : Nat)

/-- What an operation reads of other tables, and the clock. -/
structure DeliveryInput where
  /-- `skipped` and `choice` of the proposal's row in `ballot_intent` -/
  intent : Option (Int × Option Int)
  /-- `choice` of the vote -/
  voteChoice : Option Int
  now : Nat

inductive ShareAttemptReservation where
  | started
  | alreadyRecorded
  | placementCapacityReached
  | staleGeneration
  deriving DecidableEq

inductive ShareAttemptCapacityPolicy where
  | enforcePlacementTarget
  | allowRecoveryBeyondPlacementTarget
  deriving DecidableEq

inductive HelperUrlMerge where
  | definiteAcceptance
  | outcomeUnknown
  deriving DecidableEq

inductive ShareDeliveryAttemptOutcome where
  | accepted
  | ambiguous
  | definiteFailure
  deriving DecidableEq

def partitionEntry (library : UrlLibrary) (parts : List String × List String) (url : String) :
    List String × List String :=
  match canonicalizeHelperBaseUrl library url with
  | .ok canonical => (pushNew parts.1 canonical, parts.2)
  | .error _ => (parts.1, pushNew parts.2 url)

/-- Canonical entries and entries kept as they are, each once and in stored order. -/
def partitionStoredHelperUrls (library : UrlLibrary) (urls : List String) :
    List String × List String :=
  urls.foldl (partitionEntry library) ([], [])

def serializeUrlList (canonicalUrls preservedLegacyUrls : List String) : List String :=
  canonicalUrls ++ preservedLegacyUrls

def ensureShareMatchesBallotIntent (place : SharePlace) (input : DeliveryInput) :
    Except VotingError Unit :=
  match input.intent with
  | none => .ok ()
  | some (skipped, choice) =>
    if skipped ≠ 0 then
      .error (.invalidInput s!"cannot record share delegation for skipped proposal round={place.roundId}, wallet={place.walletId}, bundle={place.bundleIndex}, proposal={place.proposalId}")
    else
      match choice with
      | none => .error (.invalidInput s!"ballot intent choice missing for round={place.roundId}, wallet={place.walletId}, proposal={place.proposalId}")
      | some choice =>
        if input.voteChoice = some choice then .ok ()
        else .error (.invalidInput s!"share delegation conflicts with ballot intent for round={place.roundId}, wallet={place.walletId}, bundle={place.bundleIndex}, proposal={place.proposalId}")

namespace ShareRow

/-- The update statement names the columns that were read. -/
def unchangedSince (row read : ShareRow) : Bool :=
  row.nullifier = read.nullifier && row.sentToUrls = read.sentToUrls &&
    row.ambiguousUrls = read.ambiguousUrls && row.attemptingUrls = read.attemptingUrls

def isGeneration (row : ShareRow) (expected : Option (List UInt8)) : Bool :=
  expected.all fun nullifier => nullifier = row.nullifier

variable (library : UrlLibrary) (row : ShareRow)

def legacySent : List String := (partitionStoredHelperUrls library row.sentToUrls).2

def legacyAmbiguous : List String := (partitionStoredHelperUrls library row.ambiguousUrls).2

def legacyAttempting : List String := (partitionStoredHelperUrls library row.attemptingUrls).2

def deliveryState : Except VotingError ShareDeliveryState :=
  ShareDeliveryState.fromUrlLists library (partitionStoredHelperUrls library row.sentToUrls).1
    (partitionStoredHelperUrls library row.ambiguousUrls).1
    (partitionStoredHelperUrls library row.attemptingUrls).1

end ShareRow

/-! ### Operations -/

inductive ShareOp where
  /-- `add_attempting_server_for_generation` -/
  | addAttempting (serverUrl : String) (placementServerUrls : List String) (targetCount : Nat)
      (capacityPolicy : ShareAttemptCapacityPolicy) (expectedNullifier : Option (List UInt8))
  /-- `remove_attempting_server_for_generation` -/
  | removeAttempting (serverUrl : String) (expectedNullifier : Option (List UInt8))
  /-- `merge_share_delegation_urls` -/
  | mergeUrls (newUrls : List String) (merge : HelperUrlMerge) (resetSubmitAt : Bool)
      (expectedNullifier : Option (List UInt8))
  /-- `record_share_delegation_inner` -/
  | record (sentToUrls ambiguousUrls : List String) (targetCount : Nat) (nullifier : List UInt8)
      (submitAt : Nat)
  /-- `mark_share_confirmed` -/
  | markConfirmed (expectedNullifier : Option (List UInt8))

/-- What an operation returns; each kind uses its own part. -/
inductive ShareOpResult where
  | reservation (r : ShareAttemptReservation)
  | updated (b : Bool)
  | submitAt (t : Nat)
  deriving DecidableEq

def resolveDeliveryAttemptForGeneration (serverUrl : String) (nullifier : List UInt8)
    (outcome : ShareDeliveryAttemptOutcome) (resetSubmitAt : Bool) : ShareOp :=
  match outcome with
  | .accepted => .mergeUrls [serverUrl] .definiteAcceptance resetSubmitAt (some nullifier)
  | .ambiguous => .mergeUrls [serverUrl] .outcomeUnknown resetSubmitAt (some nullifier)
  | .definiteFailure => .removeAttempting serverUrl (some nullifier)

/-- What a read of the row leads to. -/
abbrev RowAttempt := Attempt (Option ShareRow) (Except VotingError ShareOpResult)

def RowAttempt.done (result : ShareOpResult) : RowAttempt := .finish (.ok result)

/-- An update of the row that was read. -/
def RowAttempt.update (guard : ShareRow → Bool) (change : ShareRow → ShareRow)
    (result : Option ShareRow → ShareOpResult) : RowAttempt :=
  .swap (fun cell => cell.any guard) (fun cell => cell.map change) (fun cell => .ok (result cell))

section

variable (library : UrlLibrary) (place : SharePlace) (input : DeliveryInput)

/-- Accepted and in-flight helpers of the placement fleet. -/
def reservedPlacements (state : ShareDeliveryState) (placementServerUrls : List String) : Nat :=
  ((state.acceptedUrls ++ state.inFlightUrls).filter fun url =>
    placementServerUrls.contains url).length

def placementCapacityReached (state : ShareDeliveryState) (placementServerUrls : List String)
    (targetCount : Nat) : ShareAttemptCapacityPolicy → Bool
  | .enforcePlacementTarget => targetCount ≤ reservedPlacements state placementServerUrls
  | .allowRecoveryBeyondPlacementTarget => false

/-- The part of `add_attempting_server_for_generation` after the row is read. -/
def reserveAttempt (serverUrl : String) (placementServerUrls : List String) (targetCount : Nat)
    (capacityPolicy : ShareAttemptCapacityPolicy) (row : ShareRow) :
    Except VotingError RowAttempt := do
  ensureShareMatchesBallotIntent place input
  let state ← row.deliveryState library
  if row.confirmed || state.contains serverUrl then
    return .done (.reservation .alreadyRecorded)
  else if placementCapacityReached state placementServerUrls targetCount capacityPolicy then
    return .done (.reservation .placementCapacityReached)
  else do
    let began ← state.begin library serverUrl
    return .update (fun now => !now.confirmed && now.unchangedSince row)
      (fun now => { now with
        attemptingUrls := serializeUrlList began.2.inFlightUrls (row.legacyAttempting library) })
      (fun _ => .reservation .started)

def addAttemptingServerForGeneration (serverUrl : String) (placementServerUrls : List String)
    (targetCount : Nat) (capacityPolicy : ShareAttemptCapacityPolicy)
    (expectedNullifier : Option (List UInt8)) (cell : Option ShareRow) :
    Except VotingError RowAttempt := do
  let placementServerUrls ← canonicalHelperUrlList library placementServerUrls
  let serverUrl ← canonicalizeHelperBaseUrl library serverUrl
  if serverUrl ∉ placementServerUrls then
    .error (.invalidInput "attempted helper must belong to the placement fleet")
  else
    match cell with
    | none => return .done (.reservation .staleGeneration)
    | some row =>
      if row.isGeneration expectedNullifier then
        reserveAttempt library place input serverUrl placementServerUrls targetCount
          capacityPolicy row
      else return .done (.reservation .staleGeneration)

def clearAttempt (serverUrl : String) (row : ShareRow) : Except VotingError RowAttempt := do
  ensureShareMatchesBallotIntent place input
  let state ← ShareDeliveryState.fromUrlLists library [] []
    (partitionStoredHelperUrls library row.attemptingUrls).1
  let state ← state.markDefiniteFailure library serverUrl
  return .update (fun now => now.unchangedSince row)
    (fun now => { now with
      attemptingUrls := serializeUrlList state.inFlightUrls (row.legacyAttempting library) })
    (fun _ => .updated true)

def removeAttemptingServerForGeneration (serverUrl : String)
    (expectedNullifier : Option (List UInt8))
    (cell : Option ShareRow) : Except VotingError RowAttempt :=
  match cell with
  | none => return .done (.updated false)
  | some row =>
    if row.isGeneration expectedNullifier then clearAttempt library place input serverUrl row
    else return .done (.updated false)

def HelperUrlMerge.mark : HelperUrlMerge → ShareDeliveryState → String →
    Except VotingError ShareDeliveryState
  | definiteAcceptance, state, url => state.markAccepted library url
  | outcomeUnknown, state, url => state.markOutcomeUnknown library url

/-- The row with its lists written back from a state. -/
def ShareRow.rewritten (row : ShareRow) (state : ShareDeliveryState) : ShareRow :=
  { row with
    sentToUrls := serializeUrlList state.acceptedUrls (row.legacySent library)
    ambiguousUrls := serializeUrlList state.outcomeUnknownUrls (row.legacyAmbiguous library)
    attemptingUrls := serializeUrlList state.inFlightUrls (row.legacyAttempting library) }

def mergeIntoRow (newUrls : List String) (merge : HelperUrlMerge) (resetSubmitAt : Bool)
    (row : ShareRow) : Except VotingError RowAttempt := do
  ensureShareMatchesBallotIntent place input
  let state ← row.deliveryState library
  let state ← newUrls.foldlM (merge.mark library) state
  return .update (fun now => now.unchangedSince row) (fun now =>
      let updated := row.rewritten library state
      { now with
        sentToUrls := updated.sentToUrls
        ambiguousUrls := updated.ambiguousUrls
        attemptingUrls := updated.attemptingUrls
        submitAt := if resetSubmitAt then 0 else now.submitAt })
    (fun _ => .updated true)

def mergeShareDelegationUrls (newUrls : List String) (merge : HelperUrlMerge) (resetSubmitAt : Bool)
    (expectedNullifier : Option (List UInt8)) (cell : Option ShareRow) :
    Except VotingError RowAttempt :=
  match cell with
  | none => return .done (.updated false)
  | some row =>
    if row.isGeneration expectedNullifier then
      mergeIntoRow library place input newUrls merge resetSubmitAt row
    else return .done (.updated false)

/-- `INSERT … ON CONFLICT DO NOTHING`: another connection may have inserted the row. -/
def insertShare (sentToUrls ambiguousUrls : List String) (targetCount : Nat)
    (nullifier : List UInt8) (submitAt : Nat) : Except VotingError RowAttempt := do
  let state ← ShareDeliveryState.fromUrlLists library sentToUrls ambiguousUrls []
  return .swap (fun cell => cell.isNone)
    (fun _ => some {
      sentToUrls := serializeUrlList state.acceptedUrls []
      ambiguousUrls := serializeUrlList state.outcomeUnknownUrls []
      attemptingUrls := serializeUrlList [] []
      targetCount := targetCount
      nullifier := nullifier
      confirmed := false
      submitAt := submitAt
      createdAt := input.now })
    (fun _ => .ok (.submitAt submitAt))

/-- A legacy entry of two lists stays in the stronger one. -/
def recordIntoRow (sentToUrls ambiguousUrls : List String) (targetCount : Nat) (row : ShareRow) :
    Except VotingError RowAttempt := do
  let state ← row.deliveryState library
  let state ← state.mergePersistedReport library sentToUrls ambiguousUrls
  let legacyUnknown := (row.legacyAmbiguous library).filter fun url =>
    !(row.legacySent library).contains url
  let legacyInFlight := (row.legacyAttempting library).filter fun url =>
    !(row.legacySent library).contains url && !legacyUnknown.contains url
  return .update (fun now => now.unchangedSince row && now.targetCount = row.targetCount)
    (fun now => { now with
      sentToUrls := serializeUrlList state.acceptedUrls (row.legacySent library)
      ambiguousUrls := serializeUrlList state.outcomeUnknownUrls legacyUnknown
      attemptingUrls := serializeUrlList state.inFlightUrls legacyInFlight
      targetCount := max row.targetCount targetCount })
    (fun cell => .submitAt ((cell.map ShareRow.submitAt).getD 0))

def recordShareDelegationInner (sentToUrls ambiguousUrls : List String) (targetCount : Nat)
    (nullifier : List UInt8) (submitAt : Nat) (cell : Option ShareRow) :
    Except VotingError RowAttempt := do
  ensureShareMatchesBallotIntent place input
  match cell with
  | none => insertShare library input sentToUrls ambiguousUrls targetCount nullifier submitAt
  | some row =>
    if row.nullifier = nullifier then recordIntoRow library sentToUrls ambiguousUrls targetCount row
    else .error (.invalidInput s!"share nullifier conflict for round={place.roundId}, wallet={place.walletId}, bundle={place.bundleIndex}, proposal={place.proposalId}, share={place.shareIndex}")

/-- The update names the nullifier only, and an update of no row is reported as such. -/
def markShareConfirmed (expectedNullifier : Option (List UInt8)) (cell : Option ShareRow) :
    Except VotingError RowAttempt :=
  match cell with
  | none => return .done (.updated false)
  | some row =>
    if row.isGeneration expectedNullifier then do
      ensureShareMatchesBallotIntent place input
      return .swap (fun _ => true) (fun cell => cell.map fun now =>
          if now.nullifier = row.nullifier then { now with confirmed := true } else now)
        (fun cell => .ok (.updated (cell.any fun now => now.nullifier = row.nullifier)))
    else return .done (.updated false)

def ShareOp.read (cell : Option ShareRow) : ShareOp → Except VotingError RowAttempt
  | .addAttempting serverUrl placement targetCount policy expected =>
    addAttemptingServerForGeneration library place input serverUrl placement targetCount policy
      expected cell
  | .removeAttempting serverUrl expected =>
    removeAttemptingServerForGeneration library place input serverUrl expected cell
  | .mergeUrls newUrls merge resetSubmitAt expected =>
    mergeShareDelegationUrls library place input newUrls merge resetSubmitAt expected cell
  | .record sentToUrls ambiguousUrls targetCount nullifier submitAt =>
    recordShareDelegationInner library place input sentToUrls ambiguousUrls targetCount nullifier
      submitAt cell
  | .markConfirmed expected => markShareConfirmed place input expected cell

end

/-- The operations on the row of one share. -/
def shareOperations (library : UrlLibrary) (place : SharePlace) :
    Operations (Option ShareRow) ShareOp DeliveryInput where
  Result _ := Except VotingError ShareOpResult
  attempt op input cell :=
    match op.read library place input cell with
    | .ok attempt => attempt
    | .error e => .finish (.error e)

end ZcashVoting.ShareDelivery
