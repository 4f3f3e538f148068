import ZcashVoting.ShareDelivery.Posting

/-!
# Recovery passes over a share

One pass polls the helpers for a confirmation and then walks a recovery order: helpers
without a record, helpers of an interrupted attempt, and once the share is overdue helpers
of unknown outcome and helpers that have accepted. A POST to a helper without a record is
journaled first; the others have their record already, and only the answer can change it.
-/
namespace ZcashVoting.ShareDelivery

open KeyedData Interaction

inductive ResubmitOutcome where
  | definitelyAcceptedByHelper (server : String)
  | noDefiniteAcceptanceObserved
  | unrecoverable
  | awaitingVcPosition
  | staleGeneration
  | cutoffReached
  | cancelled
  deriving DecidableEq

/-- The share of a walk, and what was known about its helpers when the pass loaded it. -/
structure ResubmitRequest where
  client : HelperClient
  nullifier : List UInt8
  (configuredUrls definiteAcceptanceUrls ambiguousUrls interruptedAttemptUrls : List String)
  targetCount : Nat
  /-- `ResubmissionSchedule::Immediate`, which resets `submit_at` -/
  immediate : Bool
  /-- `ResubmissionCandidates::FullRecoveryOrder` -/
  fullRecoveryOrder : Bool

/-- What a walk carries from helper to helper. -/
structure WalkState where
  (attemptedUrls outcomeUnknownUrls : List String)
  freshPlacementCapacityReached : Bool

namespace ResubmitRequest

variable (request : ResubmitRequest)

def retriesAmbiguous (server : String) : Bool := request.ambiguousUrls.contains server

def retriesInterrupted (server : String) : Bool := request.interruptedAttemptUrls.contains server

def retriesAccepted (server : String) : Bool := request.definiteAcceptanceUrls.contains server

/-- The helper has no record, so its attempt is journaled before the POST. -/
def journalsFreshAttempt (server : String) : Bool :=
  !request.retriesAmbiguous server && !request.retriesInterrupted server && !request.retriesAccepted server

/-! ### The recovery order -/

/-- Helpers that may be tried before any recorded one, without repetitions. -/
def eligibleServers (attemptedUrls : List String) : List String :=
  if request.fullRecoveryOrder then
    (request.configuredUrls.filter fun url =>
      !request.retriesAmbiguous url && !request.retriesInterrupted url && !attemptedUrls.contains url &&
        (request.immediate || !request.retriesAccepted url)).dedup
  else []

/-- Recorded helpers of one group that the pass has not tried and that have not accepted. -/
def retryUrls (attemptedUrls group : List String) : List String :=
  group.filter fun url => !attemptedUrls.contains url && !request.retriesAccepted url

def recoveryOrder (attemptedUrls : List String) : Post (List String) := do
  let eligible := request.eligibleServers attemptedUrls
  let randomUntried :
    List String ← ask (.shuffle (eligible.filter fun url => !request.retriesAccepted url))
  let randomSent :
    List String ← ask (.shuffle (eligible.filter fun url => request.retriesAccepted url))
  let randomized := randomUntried ++ randomSent
  let untried := randomized.takeWhile fun url => !request.retriesAccepted url
  let previouslyAttempted := randomized.dropWhile fun url => !request.retriesAccepted url
  let fresh : List String ← ask (.candidateServers untried)
  let interrupted : List String ←
    ask (.candidateServers (request.retryUrls attemptedUrls request.interruptedAttemptUrls))
  if request.immediate && request.fullRecoveryOrder then
    let ambiguous :
      List String ← ask (.candidateServers (request.retryUrls attemptedUrls request.ambiguousUrls))
    let accepted : List String ← ask (.candidateServers previouslyAttempted)
    return fresh ++ interrupted ++ ambiguous ++ accepted
  else return fresh ++ interrupted

/-! ### One helper of the walk -/

def capacityPolicy : ShareAttemptCapacityPolicy :=
  if request.immediate || request.interruptedAttemptUrls ≠
    [] then .allowRecoveryBeyondPlacementTarget
  else .enforcePlacementTarget

/-- Whether to POST, to go on with the next helper, or to stop. -/
inductive Admission where
  | dispatch
  | skip (capacityReached : Bool)
  | stop (outcome : ResubmitOutcome)
  deriving DecidableEq

/-- `begin_existing_delivery_attempt_for_generation` -/
def journalFresh (server : String) : Delivery Admission := do
  let reservation ← store (.addAttempting server request.configuredUrls request.targetCount
    request.capacityPolicy (some request.nullifier))
  match reservation with
  | .reservation .started => return .dispatch
  | .reservation .alreadyRecorded => return .skip false
  | .reservation .placementCapacityReached => return .skip true
  | _ => return .stop .staleGeneration

/-- A recorded helper is tried again only while the share is unconfirmed. -/
def readmitRecorded : Delivery Admission := do
  let confirmed : Option Bool ← ExceptT.mk (ask (.isConfirmed request.nullifier))
  match confirmed with
  | some true => return .skip false
  | some false => return .dispatch
  | none => return .stop .staleGeneration

def admitHelper (server : String) (capacityReached : Bool) : Delivery Admission :=
  if request.journalsFreshAttempt server then
    if capacityReached then return .skip true else request.journalFresh server
  else request.readmitRecorded

/-- How a helper of the walk ended. -/
inductive HelperStep where
  | next (newlyUnknown : Bool)
  | stop (outcome : ResubmitOutcome)
  deriving DecidableEq

/-- Records an outcome; no updated row is a stale generation. -/
def resolve (server : String) (outcome : ShareDeliveryAttemptOutcome) (step : HelperStep) :
    Delivery HelperStep := do
  let updated ← store (resolveDeliveryAttemptForGeneration server request.nullifier outcome request.immediate)
  if updated = .updated true then return step else return .stop .staleGeneration

/-- The arms of the match on the answer of a POST. -/
def settle (server : String) : Except HelperError Unit → Delivery HelperStep
  | .ok _ => request.resolve server .accepted (.stop (.definitelyAcceptedByHelper server))
  | .error .cancelled =>
    if request.journalsFreshAttempt server then
      request.resolve server .definiteFailure (.stop .cancelled)
    else return .stop .cancelled
  | .error error =>
    if error.isAmbiguous then
      -- a weaker outcome cannot downgrade an acceptance
      if request.retriesAccepted server then return .next false
      else request.resolve server .ambiguous (.next (!request.retriesAmbiguous server))
    else if request.retriesInterrupted server then request.resolve server .ambiguous (.next true)
    -- a definite failure of this POST says nothing about the one of unknown outcome
    else if request.retriesAmbiguous server then return .next false
    else request.resolve server .definiteFailure (.next false)

/-- One round of the walk. -/
def tryHelper (server : String) (capacityReached : Bool) : Delivery (HelperStep × Bool) := do
  let cancelled ← liftM isCancelled
  if cancelled then return (.stop .cancelled, capacityReached)
  else do
    let windowOpen : Bool ← liftM (ask .windowOpen)
    if !windowOpen then return (.stop .cutoffReached, capacityReached)
    else do
      let admission ← request.admitHelper server capacityReached
      match admission with
      | .stop outcome => return (.stop outcome, capacityReached)
      | .skip reached => return (.next false, capacityReached || reached)
      | .dispatch =>
        let answer ← liftM (request.client.resubmitShare server)
        let step ← request.settle server answer
        return (step, capacityReached)

/-- The walk along an order; `attempted_urls` gets every helper whose round began. -/
def walk : List String → WalkState → Delivery (ResubmitOutcome × WalkState)
  | [], state => return (.noDefiniteAcceptanceObserved, state)
  | server :: rest, state => do
    let (step, capacityReached) ← request.tryHelper server state.freshPlacementCapacityReached
    let tried := { state with
      attemptedUrls := state.attemptedUrls ++ [server], freshPlacementCapacityReached :=
        capacityReached }
    match step with
    | .stop outcome => return (outcome, tried)
    | .next newlyUnknown =>
      walk rest { tried with
        outcomeUnknownUrls := tried.outcomeUnknownUrls ++ (if newlyUnknown then [server] else []) }

def resubmitToNextHelper (attemptedUrls : List String) :
    Delivery (ResubmitOutcome × WalkState) := do
  let material ← ExceptT.mk (ask (.recoveryMaterial request.nullifier))
  let idle : WalkState := ⟨attemptedUrls, [], false⟩
  match material with
  | .awaitingVcPosition => return (.awaitingVcPosition, idle)
  | .missing => return (.unrecoverable, idle)
  | .corrupt => return (.unrecoverable, idle)
  | .otherNullifier isCurrent =>
      return (if isCurrent then .unrecoverable else .staleGeneration, idle)
  | .ready =>
    let order ← liftM (request.recoveryOrder attemptedUrls)
    request.walk order idle

end ResubmitRequest

/-! ### One pass -/

structure TrackingContext where
  client : HelperClient
  configuredUrls : List String
  /-- The nullifier under which the pass found the share unconfirmed. -/
  nullifier : List UInt8

def effectiveShareSubmissionTargetCount (storedTargetCount serverCount : Nat) : Nat :=
  min (min (if storedTargetCount = 0 then SharePolicy.shareSubmissionTargetCount serverCount
    else storedTargetCount) SharePolicy.shareHelperTargetCountCap) serverCount

namespace TrackingContext

variable (ctx : TrackingContext)

def configured (urls : List String) : List String :=
    urls.filter fun url => ctx.configuredUrls.contains url

/-- The request of one walk; the acceptances are those known so far in this pass. -/
def request (share : LoadedShare) (state : ShareDeliveryState) (overdue interruptedOnly : Bool) :
    ResubmitRequest where
  client := ctx.client
  nullifier := share.nullifier
  configuredUrls := ctx.configuredUrls
  definiteAcceptanceUrls := state.acceptedUrls
  ambiguousUrls := ctx.configured share.ambiguousUrls
  interruptedAttemptUrls := ctx.configured share.attemptingUrls
  targetCount := effectiveShareSubmissionTargetCount share.targetCount ctx.configuredUrls.length
  immediate := overdue
  fullRecoveryOrder := !interruptedOnly

/-- `record_ambiguous_recovery_effects` on the local state -/
def recordAmbiguous (state : ShareDeliveryState) (urls : List String) :
    Except VotingError ShareDeliveryState :=
  urls.foldlM (fun state url => state.markOutcomeUnknown ctx.client.library url) state

/-- The walks of one pass; every walk that leads to another has tried one more helper, so
the number of helpers bounds them. -/
def walks (share : LoadedShare) (overdue interruptedOnly : Bool) :
    Nat → ShareDeliveryState → List String → Delivery Unit
  | 0, _, _ => return ()
  | rounds + 1, state, attemptedUrls => do
    let target := effectiveShareSubmissionTargetCount share.targetCount ctx.configuredUrls.length
    let (outcome, walked) ← (ctx.request share state overdue interruptedOnly).resubmitToNextHelper
      attemptedUrls
    match outcome with
    | .definitelyAcceptedByHelper server =>
      let recorded ← liftM (ctx.recordAmbiguous state walked.outcomeUnknownUrls)
      let accepted ← liftM (recorded.markAccepted ctx.client.library server)
      if !interruptedOnly &&
          (target ≤ accepted.acceptedUrls.length || recorded.acceptedUrls.contains server) then return ()
      else walks share overdue interruptedOnly rounds accepted walked.attemptedUrls
    | _ => return ()

/-- `poll_and_confirm_share`: has the share been confirmed, or the pass cancelled? -/
def pollAndConfirm (share : LoadedShare) : Delivery (Bool × Bool) := do
  let status ← liftM (ask .pollShareHelpers)
  match status with
  | .cancelled => return (false, true)
  | .quorumNotObserved => return (false, false)
  | .quorumObserved =>
    let updated ← store (.markConfirmed (some share.nullifier))
    return (updated = .updated true, false)

/-- The recovery decision, made after the helpers were polled. -/
def recover (share : LoadedShare) (state : ShareDeliveryState) (flags : ShareTrackingFlags) :
    Delivery Unit := do
  let windowOpen : Bool ← liftM (ask .windowOpen)
  let underPlaced := state.acceptedUrls.length <
    effectiveShareSubmissionTargetCount share.targetCount ctx.configuredUrls.length
  let interrupted := !(ctx.configured share.attemptingUrls).isEmpty
  if windowOpen && (flags.overdueForRetry || underPlaced || interrupted) then
    ctx.walks share flags.overdueForRetry (!flags.overdueForRetry && !underPlaced && interrupted)
      (ctx.configuredUrls.length + 1) state []
  else return ()

/-- The body of `walk_pending_shares` for one share. -/
def trackPendingShare : Delivery Unit := do
  let cancelled ← liftM isCancelled
  if cancelled then return ()
  else do
    let locked ← ExceptT.mk (ask .lockShare)
    if !locked then return ()
    else do
      let loaded ← loadShare
      match loaded.filter fun share => !share.confirmed && share.nullifier = ctx.nullifier with
      | none => return ()
      | some share =>
        let state ← liftM (ShareDeliveryState.fromUrlLists ctx.client.library
          (ctx.configured share.sentToUrls) (ctx.configured share.ambiguousUrls)
          (ctx.configured share.attemptingUrls))
        let flags : ShareTrackingFlags ← liftM (ask .trackingFlags)
        if !flags.readyForStatusCheck && !flags.overdueForRetry &&
            effectiveShareSubmissionTargetCount share.targetCount ctx.configuredUrls.length ≤
              state.acceptedUrls.length && (ctx.configured share.attemptingUrls).isEmpty then return ()
        else if flags.readyForStatusCheck then do
          let (confirmed, cancelled) ← pollAndConfirm share
          if confirmed || cancelled then return ()
          else do
            let flags : ShareTrackingFlags ← liftM (ask .trackingFlags)
            ctx.recover share state flags
        else do
          let flags : ShareTrackingFlags ← liftM (ask .trackingFlags)
          ctx.recover share state flags

end TrackingContext

/-- `walk_pending_shares` as far as one share is concerned. -/
def walkPendingShare (client : HelperClient) (configuredServerUrls : List String)
    (nullifier : List UInt8) :
    Delivery Unit := do
  let configuredUrls ← liftM (configuredHelperFleet client.library configuredServerUrls)
  TrackingContext.trackPendingShare ⟨client, configuredUrls, nullifier⟩

end ZcashVoting.ShareDelivery
