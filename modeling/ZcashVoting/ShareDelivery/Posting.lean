import ZcashVoting.Lib.Program
import ZcashVoting.SharePolicy.ServerOrder
import ZcashVoting.ShareDelivery.DeliveryRow

/-!
# The first delivery of a share

Delivery as a program over what it asks of its surroundings: the row of the share, the
transport, the clock, the host's cancellation, the health of the helpers and the order in
which the runtime polls the posts of a wave. Releasing a POST and waiting for its answer
are two commands, so a process may be cut between them.

The posts of a wave are polled together. None of them writes, so running them one after
another, in an order of the runtime's choice, passes through the states any interleaving of
them passes through.
-/
namespace ZcashVoting.ShareDelivery

open KeyedData Interaction

/-! ### Errors of a helper request -/

inductive HelperTransportError where
  | timeout
  | ambiguous (message : String)
  | response (message : String)
  | transport (message : String)
  deriving DecidableEq

inductive HelperError where
  | invalidRequest (message : String)
  | transport (error : HelperTransportError)
  | status (code : Nat)
  | decode (message : String)
  | ambiguousSubmissionResponse (message : String)
  | deadlineExceeded
  | cancelled
  deriving DecidableEq

namespace HelperError

def isTransient : HelperError → Bool
  | transport _ => true
  | status code => [429, 500, 502, 503, 504].contains code
  | _ => false

/-- The helper may have processed the request. -/
def isAmbiguous : HelperError → Bool
  | transport .timeout => true
  | transport (.ambiguous _) => true
  | transport (.response _) => true
  | ambiguousSubmissionResponse _ => true
  | status code => 500 ≤ code && code ≤ 599
  | _ => false

end HelperError

/-- What a released POST comes back with. -/
inductive PostAnswer where
  | failed (error : HelperTransportError)
  /-- A response; `status` names one of the two submission outcomes. -/
  | response (code : Nat) (usable : Bool)
  deriving DecidableEq

/-- `post_json` followed by `parse_submission_response` -/
def PostAnswer.outcome : PostAnswer → Except HelperError Unit
  | failed error => .error (.transport error)
  | response code usable =>
    if 200 ≤ code ∧ code < 300 then
      if usable then .ok () else .error (.ambiguousSubmissionResponse "helper share submit response is unusable")
    else .error (.status code)

/-- The answer says that the helper did not take the share. -/
def PostAnswer.isDefiniteFailure (answer : PostAnswer) : Bool :=
  match answer.outcome with
  | .ok _ => false
  | .error error => !error.isAmbiguous

/-! ### Commands -/

structure LoadedShare where
  (sentToUrls ambiguousUrls attemptingUrls : List String)
  targetCount : Nat
  nullifier : List UInt8
  confirmed : Bool
  submitAt : Nat
  deriving DecidableEq

/-- The wire form of a share, as recovery finds it. -/
inductive RecoveryMaterial where
  | ready
  | awaitingVcPosition
  | missing
  | corrupt
  /-- The material belongs to another nullifier; is the row still the one loaded? -/
  | otherNullifier (isCurrent : Bool)
  deriving DecidableEq

structure ShareTrackingFlags where
  (readyForStatusCheck overdueForRetry : Bool)
  deriving DecidableEq

inductive ShareStatusOutcome where
  | quorumObserved
  | quorumNotObserved
  | cancelled
  deriving DecidableEq

inductive DeliveryCmd where
  /-- `cancel()` -/
  | cancelled
  /-- `lock_share_operation_or_cancel`; `false` is a cancellation -/
  | lockShare
  /-- `health().candidate_servers` -/
  | candidateServers (group : List String)
  /-- `shuffled_share_server_order` -/
  | shuffle (group : List String)
  /-- The order in which the posts of a wave are polled. -/
  | pollOrder (wave : List String)
  /-- The fan-out deadline leaves at least the minimum attempt budget. -/
  | budgetLeft
  /-- The fan-out deadline has not passed. -/
  | timeLeft
  /-- The backoff before the next attempt ends before the deadline. -/
  | backoffFits
  /-- `post_capacity::acquire` -/
  | acquirePermit
  | store (op : ShareOp)
  | loadShare
  | isConfirmed (nullifier : List UInt8)
  | release (target : String)
  /-- `none`: the deadline elapsed first. -/
  | awaitAnswer (target : String)
  | recoveryMaterial (nullifier : List UInt8)
  /-- `is_share_resubmission_window_open` -/
  | windowOpen
  | trackingFlags
  | pollShareHelpers

def DeliveryCmd.Answer : DeliveryCmd → Type
  | cancelled => Bool
  | lockShare => Except VotingError Bool
  | candidateServers _ => List String
  | shuffle _ => List String
  | pollOrder _ => List String
  | budgetLeft => Bool
  | timeLeft => Bool
  | backoffFits => Bool
  | acquirePermit => Except HelperError Unit
  | store _ => Except VotingError ShareOpResult
  | loadShare => Except VotingError (Option LoadedShare)
  | isConfirmed _ => Except VotingError (Option Bool)
  | release _ => Unit
  | awaitAnswer _ => Option PostAnswer
  | recoveryMaterial _ => Except VotingError RecoveryMaterial
  | windowOpen => Bool
  | trackingFlags => ShareTrackingFlags
  | pollShareHelpers => ShareStatusOutcome

abbrev deliverySignature : Signature := ⟨DeliveryCmd, DeliveryCmd.Answer⟩

/-- A computation of the helper client. -/
abbrev Post (α : Type) := Prog deliverySignature α

/-- A computation of delivery, which may stop with an error. -/
abbrev Delivery (α : Type) := ExceptT VotingError (Prog deliverySignature) α

def ask (c : DeliveryCmd) : Post c.Answer := Prog.perform (S := deliverySignature) c

def isCancelled : Post Bool := ask .cancelled

def awaitAnswer (target : String) : Post (Option PostAnswer) := ask (.awaitAnswer target)

def store (op : ShareOp) : Delivery ShareOpResult := ExceptT.mk (ask (.store op))

def loadShare : Delivery (Option LoadedShare) := ExceptT.mk (ask .loadShare)

/-! ### The helper client -/

inductive PostOutcome where
  | elapsed
  | finished (outcome : Except HelperError Unit)
  deriving DecidableEq

/-- A submission that ended with an error. -/
def PostOutcome.failed (error : HelperError) : PostOutcome := .finished (.error error)

/-- How the outcome is recorded. -/
def PostOutcome.attemptOutcome : PostOutcome → ShareDeliveryAttemptOutcome
  | .elapsed => .ambiguous
  | .finished (.ok _) => .accepted
  | .finished (.error error) => if error.isAmbiguous then .ambiguous else .definiteFailure

/-- The wait before the next attempt: `none` if there is to be one. -/
def retryWait (error : HelperError) : Post (Option PostOutcome) := do
  let cancelledBefore ← isCancelled
  if cancelledBefore then return some (.failed .cancelled)
  else
    let fits ← ask .backoffFits
    if !fits then return some (.failed error)
    else
      let cancelledAfter ← isCancelled
      if cancelledAfter then return some (.failed .cancelled) else return none

/-- One attempt of `with_retry`; a failure is left to `next`. -/
def attemptPost (target : String) (held : Option HelperError)
    (next : HelperError → Post PostOutcome) :
    Post PostOutcome := do
  let cancelled ← isCancelled
  if cancelled then return .failed .cancelled
  else
    let timeLeft ← ask .timeLeft
    if !timeLeft then return .failed (held.getD .deadlineExceeded)
    else
      let _ ← ask (.release target)
      let answer ← awaitAnswer target
      match answer.map PostAnswer.outcome with
      | none => return .elapsed
      | some (.ok _) => return .finished (.ok ())
      | some (.error error) => next error

/-- `with_retry` on submissions: a definite transient failure is tried again, an unknown
outcome never. The number is that of the attempts that may follow. -/
def withRetry (target : String) : Nat → Option HelperError → Post PostOutcome
  | 0, held => attemptPost target held fun error => return .failed error
  | attempts + 1, held => attemptPost target held fun error =>
    if error.isTransient && !error.isAmbiguous then do
      let waited ← retryWait error
      match waited with
      | some outcome => return outcome
      | none => withRetry target attempts (some error)
    else return .failed error

/-- What the client fixes: the URL library, whether the body is well formed and how many
retries its configuration allows. -/
structure HelperClient where
  library : UrlLibrary
  validBody : Bool
  retries : Nat

namespace HelperClient

variable (client : HelperClient)

/-- An invalid helper URL, as the client reports it. -/
def canonicalUrl (url : String) : Except HelperError String :=
  match canonicalizeHelperBaseUrl client.library url with
  | .error error => .error (.invalidRequest error.toText)
  | .ok canonical => .ok canonical

/-- The base URL a request goes to: `join_helper_url` takes the canonical form of the one the
client has made canonical already. -/
def target (serverUrl : String) : Except HelperError String := do
  let serverUrl ← client.canonicalUrl serverUrl
  if !client.validBody then
    throw (.invalidRequest "share body does not match the vote-share wire schema")
  client.canonicalUrl serverUrl

/-- `submit_share_with_timeout` under the fan-out deadline. -/
def submitShareWithTimeout (serverUrl : String) : Post PostOutcome := do
  let timeLeft ← ask .timeLeft
  if !timeLeft then return .failed (.invalidRequest "share submission timeout must be nonzero")
  else
    match client.target serverUrl with
    | .error error => return .failed error
    | .ok target => withRetry target client.retries none

/-- `resubmit_share`: one transport attempt. -/
def resubmitShare (serverUrl : String) : Post (Except HelperError Unit) :=
  match client.target serverUrl with
  | .error error => return .error error
  | .ok target => do
    let cancelled ← isCancelled
    if cancelled then return .error .cancelled
    else
      let _ ← ask (.release target)
      let answer ← awaitAnswer target
      -- no deadline here: the transport's own timeout is an answer
      return ((answer.getD (.failed .timeout)).outcome)

end HelperClient

/-! ### The fan-out -/

/-- The share and the fleet of one delivery. -/
structure DeliveryContext where
  client : HelperClient
  place : SharePlace
  nullifier : List UInt8
  (planned fallback : List String)
  (targetCount submitAt : Nat)

namespace DeliveryContext

variable (ctx : DeliveryContext)

def candidates : List String := ctx.planned ++ ctx.fallback

def staleDeliveryError : VotingError :=
  .invalidInput s!"committed share changed while helper delivery was in flight for round={ctx.place.roundId}, bundle={ctx.place.bundleIndex}, proposal={ctx.place.proposalId}, share={ctx.place.shareIndex}"

def loadCurrentDeliveryState : Delivery ShareDeliveryState := do
  let share ← loadShare
  match share.filter fun share => share.nullifier = ctx.nullifier with
  | none => throw ctx.staleDeliveryError
  | some share =>
    liftM (ShareDeliveryState.fromUrlLists ctx.client.library
      (share.sentToUrls.filter fun url => ctx.candidates.contains url)
      (share.ambiguousUrls.filter fun url => ctx.candidates.contains url)
      (share.attemptingUrls.filter fun url => ctx.candidates.contains url))

structure Wave where
  (remaining reserved : List String)
  stopAfterWave : Bool

/-- Planned helpers come first. -/
def activeGroup (remaining : List String) : List String :=
  if remaining.any fun url => ctx.planned.contains url then
    remaining.filter fun url => ctx.planned.contains url
  else remaining

/-- The helper to reserve next: `none` ends the wave. -/
def nextServer (remaining : List String) : Post (Option String × Bool) := do
  let cancelled ← isCancelled
  if cancelled then return (none, true)
  else
    let ordered : List String ← ask (.candidateServers (ctx.activeGroup remaining))
    match ordered with
    | [] => return (none, false)
    | server :: _ =>
      let budget ← ask .budgetLeft
      if !budget then return (none, true) else return (some server, false)

/-- `begin_delivery_attempt_for_generation` -/
def beginAttempt (server : String) (target : Nat) : Delivery ShareOpResult :=
  store (.addAttempting server ctx.candidates target .enforcePlacementTarget (some ctx.nullifier))

/-- Sequential reservations; each round of the loop takes a helper out of `remaining` or
ends the wave, so `remaining.length` rounds are enough. -/
def reserveWave (target need : Nat) : Nat → Wave → Delivery Wave
  | 0, wave => return wave
  | rounds + 1, wave =>
    if need ≤ wave.reserved.length ∨ wave.remaining = [] then return wave
    else do
      let next ← liftM (ctx.nextServer wave.remaining)
      match next with
      | (none, stop) => return { wave with stopAfterWave := stop }
      | (some server, _) =>
        let reservation ← ctx.beginAttempt server target
        match reservation with
        | .reservation .started =>
          reserveWave target need rounds
            { wave with
              remaining := removeUrl wave.remaining server
              reserved := wave.reserved ++ [server] }
        | .reservation .alreadyRecorded =>
          reserveWave target need rounds { wave with remaining := removeUrl wave.remaining server }
        | .reservation .placementCapacityReached => return wave
        | _ => throw ctx.staleDeliveryError

/-- One post of a wave. The journal is validated again after the wait for a permit. -/
def post (server : String) : Delivery PostOutcome := do
  let admission : Except HelperError Unit ← liftM (ask .acquirePermit)
  match admission with
  | .error error => return .failed error
  | .ok _ =>
    let current ← ctx.loadCurrentDeliveryState
    if server ∉ current.inFlightUrls then throw ctx.staleDeliveryError
    else liftM (ctx.client.submitShareWithTimeout server)

/-- `join_all`, with the posts in the order the runtime polls them. -/
def joinAll : List String → Post (List (String × Except VotingError PostOutcome))
  | [] => return []
  | server :: rest => do
    let outcome ← (ctx.post server).run
    let outcomes ← joinAll rest
    return (server, outcome) :: outcomes

/-- `resolve_delivery_attempt_for_generation`, where no updated row is a stale generation. -/
def resolveAttempt (server : String) (outcome : ShareDeliveryAttemptOutcome) : Delivery Unit := do
  let updated ← store (resolveDeliveryAttemptForGeneration server ctx.nullifier outcome false)
  if updated = .updated true then return () else throw ctx.staleDeliveryError

/-- The local state follows the durable one. -/
def markLocally (state : ShareDeliveryState) (server : String) :
    ShareDeliveryAttemptOutcome → Except VotingError ShareDeliveryState
  | .accepted => state.markAccepted ctx.client.library server
  | .ambiguous => state.markOutcomeUnknown ctx.client.library server
  | .definiteFailure => .ok state

/-- Outcomes are applied in wave order, one at a time. -/
def applyOutcomes (outcomes : List (String × Except VotingError PostOutcome)) :
    List String → ShareDeliveryState → Bool → Delivery (ShareDeliveryState × Bool)
  | [], state, deadlineElapsed => return (state, deadlineElapsed)
  | server :: rest, state, deadlineElapsed => do
    let outcome ← liftM ((outcomes.lookup server).getD (.error ctx.staleDeliveryError))
    ctx.resolveAttempt server outcome.attemptOutcome
    let state ← liftM (ctx.markLocally state server outcome.attemptOutcome)
    applyOutcomes outcomes rest state (deadlineElapsed || outcome = .elapsed)

def runPosts (wave : List String) : Post (List (String × Except VotingError PostOutcome)) := do
  let order : List String ← ask (.pollOrder wave)
  ctx.joinAll order

/-- The waves. Each of them takes a helper out of `remaining`. -/
def waves (target : Nat) : Nat → List String → ShareDeliveryState → Delivery Unit
  | 0, _, _ => return ()
  | rounds + 1, remaining, state =>
    if remaining = [] ∨ target ≤ state.acceptedUrls.length then return ()
    else do
      let cancelled ← liftM isCancelled
      if cancelled then return ()
      else do
        let wave ← ctx.reserveWave target (target - state.acceptedUrls.length) remaining.length
          ⟨remaining, [], false⟩
        if wave.reserved = [] then return ()
        else do
          let outcomes ← liftM (ctx.runPosts wave.reserved)
          let applied ← ctx.applyOutcomes outcomes wave.reserved state false
          if applied.2 || wave.stopAfterWave then return ()
          else waves target rounds wave.remaining applied.1

def dispatchShareToCanonicalHelpers : Delivery ShareDeliveryState := do
  let locked ← ExceptT.mk (ask .lockShare)
  if !locked then ctx.loadCurrentDeliveryState
  else do
    let state ← ctx.loadCurrentDeliveryState
    let remaining := ctx.candidates.filter fun url => !state.contains url
    let target := min ctx.targetCount (state.acceptedUrls.length + remaining.length)
    ctx.waves target remaining.length remaining state
    ctx.loadCurrentDeliveryState

end DeliveryContext

/-! ### The delivery of a committed share -/

/-- `ConfiguredHelperFleet::new` -/
def configuredHelperFleet (library : UrlLibrary) (configuredUrls : List String) :
    Except VotingError (List String) :=
  if configuredUrls = [] then .error (.invalidInput "configured_server_urls must not be empty")
  else do
    let urls ← canonicalHelperUrlList library configuredUrls
    if urls.length ≠ configuredUrls.length then
      .error (.invalidInput "configured_server_urls must contain distinct canonical helpers")
    else return urls

structure CommittedShareSubmissionRequest where
  client : HelperClient
  place : SharePlace
  /-- The nullifier of the share in the recovery material. -/
  nullifier : List UInt8
  (configuredServerUrls planningServerUrls targetServers : List String)
  (targetCount submitAt : Nat)

namespace CommittedShareSubmissionRequest

variable (request : CommittedShareSubmissionRequest)

def checkPlan (planned planningFleet : List String) : Except VotingError Unit :=
  let expectedTarget := SharePolicy.shareSubmissionTargetCount planningFleet.length
  if planned.length ≠ request.targetServers.length then
    .error (.invalidInput "plan target_servers must contain distinct canonical helpers")
  else if request.targetCount ≠ expectedTarget ∨ planned.length ≠ request.targetCount then
    .error (.invalidInput s!"plan target_count and target_servers must match the persisted planning fleet target {expectedTarget}")
  else
    match planned.find? fun url => !planningFleet.contains url with
    | some url =>
        .error (.invalidInput s!"planned helper is not in the persisted planning fleet: {url}")
    | none => .ok ()

/-- Planned helpers that are still configured come first, then the rest of the fleet. -/
def context : Except VotingError DeliveryContext := do
  let configured ← configuredHelperFleet request.client.library request.configuredServerUrls
  let planningFleet ← configuredHelperFleet request.client.library request.planningServerUrls
  let planned ← canonicalHelperUrlList request.client.library request.targetServers
  request.checkPlan planned planningFleet
  let eligible := planned.filter fun url => configured.contains url
  return {
    client := request.client
    place := request.place
    nullifier := request.nullifier
    planned := eligible
    fallback := configured.filter fun url => !eligible.contains url
    targetCount := request.targetCount
    submitAt := request.submitAt }

/-- The recovery material must be that of the vote the request was made for. -/
def checkMaterial : RecoveryMaterial → Except VotingError Unit
  | .ready => .ok ()
  | .awaitingVcPosition =>
    .error (.invalidInput "committed vote must be confirmed before submitting helper shares")
  | .missing => .error (.internal "committed vote is missing durable helper recovery material")
  | .corrupt => .error (.invalidInput "vote recovery JSON is invalid")
  | .otherNullifier _ =>
    .error (.invalidInput s!"committed vote changed before helper share submission for round={request.place.roundId}, bundle={request.place.bundleIndex}, proposal={request.place.proposalId}; recover the current committed vote")

def submitCommittedShareToHelpers : Delivery ShareDeliveryState := do
  let ctx ← liftM request.context
  let material ← ExceptT.mk (ask (.recoveryMaterial request.nullifier))
  let _ ← liftM (request.checkMaterial material)
  let _ ← store (.record [] [] request.targetCount request.nullifier request.submitAt)
  let share ← loadShare
  match share.filter fun share => share.nullifier = request.nullifier with
  | none => throw (.internal "newly journaled helper share was not found")
  | some _ => ctx.dispatchShareToCanonicalHelpers

end CommittedShareSubmissionRequest

end ZcashVoting.ShareDelivery
