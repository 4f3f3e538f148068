import ZcashVoting.Lib.Program
import ZcashVoting.ChainSubmission.Sqlite

/-!
# One bounded advancement pass

The coordinator as a program over the commands it gives to its surroundings: the
store's transactions, the clock, the host's interruption flag, the transport's POST,
the status lookup, the tree scan and the backoff timer. Every `await` and every store
call of the source is one command, so cutting the program between two commands is
cutting the process there.

The attempt loop is structurally recursive on the attempts that remain,
`maximum_post_attempts - attempt_index`. The cycle through reconciliation and the
recovery retry consumes attempts too, so it is passed down as a continuation.
-/
namespace ZcashVoting.ChainSubmission

open Interaction

/-! ### Observations of the chain -/

inductive ChainTransportFailureKind where
  | definitelyUnsent
  | possiblyDispatched
  deriving DecidableEq

structure ChainTransportError where
  kind : ChainTransportFailureKind
  message : String
  deriving DecidableEq

inductive ChainRejectionKind where
  | nullifierAlreadySpent
  | other
  deriving DecidableEq

inductive PostAttemptOutcome where
  | accepted (candidate : CandidateTransactionHash)
  | rejected (code : Nat) (kind : ChainRejectionKind) (diagnostic : ChainSubmissionDiagnostic)
      (candidate : Option CandidateTransactionHash)
  | localFailure (diagnostic : ChainSubmissionDiagnostic)
  | definitelyUnsent (error : ChainTransportError)
  | possiblyDispatched (diagnostic : ChainSubmissionDiagnostic)
  deriving DecidableEq

inductive RecoveryScan where
  | found (finalVanPosition : Nat) (voteCommitmentPositions : List Nat)
  | noMatch
  | interrupted
  deriving DecidableEq

inductive Interruption where
  | cancelled
  | staleEpoch
  deriving DecidableEq

def Interruption.afterDispatchMessage : Interruption → String
  | cancelled => "submission was cancelled after dispatch could not be excluded"
  | staleEpoch => "host operation epoch changed after dispatch could not be excluded"

/-- How the race between a POST and the host's interruption ended. `possible` is the
dispatch marker the transport sets before it releases the request. -/
inductive PostProgress where
  | interrupted (reason : Interruption) (possible : Bool)
  | finished (outcome : PostAttemptOutcome)
  deriving DecidableEq

/-- The outcome to classify once a request may have been released. -/
def PostProgress.outcome : PostProgress → PostAttemptOutcome
  | .interrupted reason _ =>
    .possiblyDispatched (.fromRedactedMessage .ambiguousDispatch reason.afterDispatchMessage)
  | .finished outcome => outcome

structure CommittedTransaction where
  (height code : Nat)
  events : List TxEvent
  deriving DecidableEq

inductive TransactionStatusObservation where
  | pending
  | committedSuccess (committed : CommittedTransaction)
  | committedFailure (committed : CommittedTransaction)
  deriving DecidableEq

inductive LookupFailure where
  | transport (error : ChainTransportError)
  | protocol (diagnostic : ChainSubmissionDiagnostic)
  deriving DecidableEq

inductive LookupProgress where
  | interrupted
  | observed (observation : TransactionStatusObservation)
  | failed (failure : LookupFailure)
  deriving DecidableEq

inductive ScanAnswer where
  | found (finalVanPosition : Nat) (voteCommitmentPositions : List Nat)
  | noMatch
  | interrupted
  | invalid (diagnostic : ChainSubmissionDiagnostic)
  | transport (error : ChainTransportError)
  deriving DecidableEq

/-! ### Commands -/

inductive StoreOp where
  | admitSubmission (request : StoreAdvancementRequest) (workAllowed : Bool)
      (reservationOrdinal now : Nat)
  | removeFreshReservation (generation : ChainSubmissionGeneration)
  | classifyPost (generation : ChainSubmissionGeneration) (observation : SubmissionObservation)
      (now : Nat)
  | reserveAmbiguousRetry (generation : ChainSubmissionGeneration) (now : Nat)
  | reconcile (generation : ChainSubmissionGeneration) (observation : SubmissionObservation)
      (diagnostic : Option ChainSubmissionDiagnostic) (now : Nat)
  | confirmCommitted (request : StoreAdvancementRequest) (expected : ChainSubmissionGeneration)
      (candidate : CandidateTransactionHash) (events : List TxEvent) (now : Nat)
  | confirmTree (request : StoreAdvancementRequest) (expected : ChainSubmissionGeneration)
      (finalVanPosition : Nat) (voteCommitmentPositions : List Nat) (now : Nat)
  | reserveRecoveryRetry (request : StoreAdvancementRequest)
      (authorization : RecoveryRetryAuthorization) (now : Nat)

def StoreOp.Result : StoreOp → Type
  | admitSubmission .. => StoreAdmission
  | removeFreshReservation .. => Unit
  | classifyPost .. => StoredChainSubmission
  | reserveAmbiguousRetry .. => StoredChainSubmission
  | reconcile .. => StoredChainSubmission
  | confirmCommitted .. => ConfirmationCommit
  | confirmTree .. => ConfirmationCommit
  | reserveRecoveryRetry .. => StoredChainSubmission

/-- The transaction of a store command; `commitAllowed` is what the host answers to
the check a confirmation makes inside its transaction. -/
def StoreOp.run {σ : Type} (T : DomainTables σ) (commitAllowed : Bool) :
    (op : StoreOp) → StoreTx σ op.Result
  | admitSubmission request workAllowed ordinal now =>
      ChainSubmission.admitSubmission T request workAllowed ordinal now
  | removeFreshReservation generation => ChainSubmission.removeFreshReservation generation
  | classifyPost generation observation now =>
    ChainSubmission.classifyPost T generation observation now
  | reserveAmbiguousRetry generation now => ChainSubmission.reserveAmbiguousRetry generation now
  | reconcile generation observation diagnostic now =>
    ChainSubmission.reconcile T generation observation diagnostic now
  | confirmCommitted request expected candidate events now =>
    ChainSubmission.confirmCommitted T request expected candidate events commitAllowed now
  | confirmTree request expected position positions now =>
    ChainSubmission.confirmTree T request expected position positions commitAllowed now
  | reserveRecoveryRetry request authorization now =>
    ChainSubmission.reserveRecoveryRetry T request authorization now

/-- The function that releases a POST. -/
inductive PostSite where
  | reservedAttempt
  | recoveryRetry
  deriving DecidableEq

inductive Cmd where
  | acquire (identities : List ChainSubmissionIdentity)
  | registerInFlight (identity : ChainSubmissionIdentity)
  | now
  | interruption
  | store (op : StoreOp)
  | post (site : PostSite) (endpointIndex : Nat) (derived : DerivedChainSubmission)
  | lookup (candidate : CandidateTransactionHash)
  | scan (derived : DerivedChainSubmission) (candidate : Option CandidateTransactionHash)
  | backoff (delay : Nat)

def Cmd.Answer : Cmd → Type
  | acquire _ => Except ChainSubmissionFailure Unit
  | registerInFlight _ => Except ChainSubmissionFailure Unit
  | now => Except ChainSubmissionFailure Nat
  | interruption => Option Interruption
  | store op => Except ChainSubmissionFailure op.Result
  | post .. => PostProgress
  | lookup _ => LookupProgress
  | scan .. => ScanAnswer
  | backoff _ => Option Interruption

abbrev coordinatorSignature : Signature := ⟨Cmd, Cmd.Answer⟩

/-- A computation of the coordinator, which may stop with a failure. -/
abbrev Coord (α : Type) := ExceptT ChainSubmissionFailure (Prog coordinatorSignature) α

def ask (c : Cmd) : Coord c.Answer := ExceptT.lift (Prog.perform (S := coordinatorSignature) c)

def nowSeconds : Coord Nat := ExceptT.mk (Prog.perform (S := coordinatorSignature) .now)

def interruption : Coord (Option Interruption) := ask .interruption

def store (op : StoreOp) :
    Coord op.Result := ExceptT.mk (Prog.perform (S := coordinatorSignature) (.store op))

def acquire (identities : List ChainSubmissionIdentity) : Coord Unit :=
  ExceptT.mk (Prog.perform (S := coordinatorSignature) (.acquire identities))

def registerInFlight (identity : ChainSubmissionIdentity) : Coord Unit :=
  ExceptT.mk (Prog.perform (S := coordinatorSignature) (.registerInFlight identity))

def mapErr {α : Type} (f : ChainSubmissionFailure → ChainSubmissionFailure) (m : Coord α) :
    Coord α :=
  ExceptT.adapt f m

def publicResult (record : StoredChainSubmission) :
    Coord ChainSubmissionResult := liftM record.publicResult

namespace Coordinator

/-! ### Policy and failures -/

inductive ChainRecoveryMode where
  | statusOnly
  | exactTree
  deriving DecidableEq

def maxPostAttemptsPerPass : Nat := 8

/-- Longest backoff, in nanoseconds. -/
def maxRetryBackoff : Nat := 10 * 60 * 1000000000

/-- Finite policy of one coordinator, with the bounds its constructor checks. -/
structure CoordinatorPolicy where
  (trackingWindowSeconds maximumPostAttempts : Nat)
  retryBackoffs : List Nat
  window_pos : 0 < trackingWindowSeconds
  attempts_pos : 0 < maximumPostAttempts
  attempts_le : maximumPostAttempts ≤ maxPostAttemptsPerPass
  backoffs_length : retryBackoffs.length + 1 = maximumPostAttempts
  backoffs_bounded : ∀ delay ∈ retryBackoffs, 0 < delay ∧ delay ≤ maxRetryBackoff

/-- What is fixed during one pass. -/
structure PassContext where
  policy : CoordinatorPolicy
  endpointCount : Nat
  request : StoreAdvancementRequest
  recovery : ChainRecoveryMode

variable (ctx : PassContext)

/-- The backoff after `attempts` POSTs of this pass. -/
def PassContext.backoffAfter (attempts : Nat) : Nat :=
  ctx.policy.retryBackoffs.getD (attempts - 1) 0

/-- The attempts already used when `remaining` are left. -/
def PassContext.used (remaining : Nat) : Nat := ctx.policy.maximumPostAttempts - remaining

def interruptedWithoutState : Interruption → Coord ChainSubmissionResult
  | .cancelled => pure .cancelled
  | .staleEpoch => throw (.withoutState .invalidInput
      "host operation epoch changed before request dispatch")

def withState (state : ChainSubmissionState) (error : ChainSubmissionFailure) :
    ChainSubmissionFailure :=
  .withDurableState error.kind state error.message

def knownPossibleDispatch (error : ChainSubmissionFailure) : ChainSubmissionFailure :=
  .withKnownPossibleDispatch error.kind error.message

def lookupDiagnostic : LookupFailure → ChainSubmissionDiagnostic
  | .protocol diagnostic => diagnostic
  | .transport error => .fromRedactedMessage .reconciliationPending error.message

def lookupFailure (failure : LookupFailure) (state : ChainSubmissionState) :
    ChainSubmissionFailure :=
  match failure with
  | .protocol diagnostic => .withDurableState .protocol state diagnostic.message
  | .transport error => .withDurableState .transport state error.message

/-- True when the store classified a returned hash as a collision. -/
def returnedCandidateIsUnusable (record : StoredChainSubmission) : Bool :=
  match record.state with
  | .recovering none _ => true
  | _ => false

/-! ### Store calls of the coordinator -/

def classifyDispatchedPost (generation : ChainSubmissionGeneration)
    (observation : SubmissionObservation) : Coord StoredChainSubmission := do
  let now ← mapErr knownPossibleDispatch nowSeconds
  mapErr knownPossibleDispatch (store (.classifyPost generation observation now))

def removeFreshReservation (generation : ChainSubmissionGeneration) : Coord Unit := do
  let _ ← mapErr (withState .submitting) nowSeconds
  mapErr (ChainSubmissionFailure.attachState .submitting)
    (store (.removeFreshReservation generation))

def reconcileWithDurableState (generation : ChainSubmissionGeneration)
    (observation : SubmissionObservation) (diagnostic : Option ChainSubmissionDiagnostic)
    (durableState : ChainSubmissionState) : Coord StoredChainSubmission := do
  let now ← mapErr (ChainSubmissionFailure.attachState durableState) nowSeconds
  mapErr (ChainSubmissionFailure.attachState durableState)
    (store (.reconcile generation observation diagnostic now))

/-- Waits the backoff, then reserves the next POST of a hashless ambiguous row. `none`
is an interruption, which leaves the row as it is. -/
def reserveAmbiguousRetryAfterBackoff (delay : Nat) (generation : ChainSubmissionGeneration)
    (reserved : StoredChainSubmission) : Coord (Option StoredChainSubmission) := do
  match ← ask (.backoff delay) with
  | some _ => return none
  | none =>
    let now ← mapErr (ChainSubmissionFailure.attachState reserved.durableState) nowSeconds
    let next ← mapErr (ChainSubmissionFailure.attachState reserved.durableState)
      (store (.reserveAmbiguousRetry generation now))
    return some next

def commitRecord : ConfirmationCommit → StoredChainSubmission
  | .interrupted record => record
  | .confirmed record => record

variable (derived : DerivedChainSubmission)

def confirmTree (finalVanPosition : Nat) (positions : List Nat) : Coord ChainSubmissionResult := do
  let now ← mapErr (withState .recovering) nowSeconds
  let committed ← mapErr (ChainSubmissionFailure.attachState .recovering)
    (store (.confirmTree ctx.request derived.generation finalVanPosition positions now))
  publicResult (commitRecord committed)

def confirm (candidate : CandidateTransactionHash) (committed : CommittedTransaction)
    (durableState : ChainSubmissionState) : Coord ChainSubmissionResult := do
  let now ← mapErr (withState durableState) nowSeconds
  let committed ← mapErr (ChainSubmissionFailure.attachState durableState)
    (store (.confirmCommitted ctx.request derived.generation candidate committed.events now))
  publicResult (commitRecord committed)

/-! ### Tree recovery -/

def reconcileScanFailure (kind : ChainSubmissionFailureKind)
    (diagnostic : ChainSubmissionDiagnostic) (message : String) : Coord RecoveryScan := do
  let _ ← reconcileWithDurableState derived.generation .continueRecovery
    (some diagnostic) .recovering
  throw (.withDurableState kind .recovering message)

/-- A pass that cannot complete records a diagnostic and stops with an error. -/
def scanTree (candidate : Option CandidateTransactionHash) : Coord RecoveryScan := do
  match ← ask (.scan derived candidate) with
  | .found position positions => return .found position positions
  | .noMatch => return .noMatch
  | .interrupted => return .interrupted
  | .invalid diagnostic => reconcileScanFailure derived .protocol diagnostic diagnostic.message
  | .transport error =>
    reconcileScanFailure derived .transport
      (.fromRedactedMessage .reconciliationPending error.message) error.message

def endHashless : Coord ChainSubmissionResult := do
  let record ← classifyDispatchedPost derived.generation
    (.submittedWithoutHash (.fromRedactedMessage .nullifierAlreadySpent
      "vote chain reported nullifier already spent after ambiguous dispatch"))
  publicResult record

/-- Rejection code 2 after unresolved dispatch. -/
def settleNullifierSpentAfterDispatch (current : StoredChainSubmission) :
    Coord ChainSubmissionResult := do
  match ctx.recovery with
  | .statusOnly => endHashless derived
  | .exactTree =>
    match ← scanTree derived none with
    | .found position positions => confirmTree ctx derived position positions
    | .interrupted => publicResult current
    -- The authorization of the pass is discarded: the nullifiers are spent.
    | .noMatch => endHashless derived

/-! ### Releasing one POST -/

def endpointIndex (reserved : StoredChainSubmission) : Nat :=
  (reserved.committedPostReservations - 1) % ctx.endpointCount

/-- The race between `submit_to_endpoint` and the host's interruption. An imported
delegation never reaches the transport. -/
def raceEndpoint (site : PostSite) (derived : DerivedChainSubmission)
    (reserved : StoredChainSubmission) : Coord PostProgress := do
  match derived.request with
  | .importedDelegation _ =>
    match ← interruption with
    | some reason => return .interrupted reason false
    | none => return .finished (.localFailure (.fromRedactedMessage .invalidProtocolResponse
        "a capability-imported delegation cannot be dispatched by the voter"))
  | _ => ask (.post site (endpointIndex ctx reserved) derived)

/-! ### The recovery retry -/

/-- The one POST a completed no-match pass authorizes. `remaining` counts the attempts
left after it, and `continueLoop` is the attempt loop on those. -/
def submitRecoveryRetry (remaining : Nat) (continueLoop : StoredChainSubmission →
      Coord ChainSubmissionResult)
    (derived : DerivedChainSubmission) (reserved : StoredChainSubmission) :
    Coord ChainSubmissionResult := do
  match ← interruption with
  | some _ => publicResult reserved
  | none =>
    mapErr (withState .recovering) (registerInFlight derived.generation.identity)
    match ← raceEndpoint ctx .recoveryRetry derived reserved with
    | .interrupted _ false => publicResult reserved
    | progress => classifyRecoveryRetry progress.outcome
where
  continueAmbiguous (ambiguous : StoredChainSubmission) : Coord ChainSubmissionResult := do
    if remaining = 0 then publicResult ambiguous
    else
      match ← interruption with
      | some _ => publicResult ambiguous
      | none =>
        match ← reserveAmbiguousRetryAfterBackoff (ctx.backoffAfter (ctx.used remaining))
            derived.generation ambiguous with
        | none => publicResult ambiguous
        | some next => continueLoop next
  classifyRecoveryRetry : PostAttemptOutcome → Coord ChainSubmissionResult
    | .accepted candidate => do
      let record ← classifyDispatchedPost derived.generation (.usableCandidateHash candidate)
      if returnedCandidateIsUnusable record then continueAmbiguous record
      else publicResult record
    | .possiblyDispatched diagnostic => do
      let record ← classifyDispatchedPost derived.generation (.possiblyDispatched diagnostic)
      continueAmbiguous record
    | .rejected _ kind diagnostic _ =>
      if reserved.state.hasUnresolvedDispatch ∧ kind = .nullifierAlreadySpent then
        settleNullifierSpentAfterDispatch ctx derived reserved
      else do
        let record ← classifyDispatchedPost derived.generation (.definiteRejection diagnostic)
        throw (.withDurableState .protocol record.durableState diagnostic.message)
    | .definitelyUnsent error => do
      let _ ← reconcileWithDurableState derived.generation .definitelyUnsent
        (some (.fromRedactedMessage .reconciliationPending error.message)) .recovering
      throw (.withDurableState .transport .recovering error.message)
    | .localFailure diagnostic => do
      let _ ← reconcileWithDurableState derived.generation .continueRecovery
        (some diagnostic) .recovering
      throw (.withDurableState .protocol .recovering diagnostic.message)

/-! ### Reconciliation -/

def waitRetryBackoff (used : Nat) : Coord (Option Interruption) :=
  if used = 0 then pure none else ask (.backoff (ctx.backoffAfter used))

/-- Reserves the retry a no-match pass authorizes. `none` is an interruption. -/
def reserveRecoveryRetry (remaining : Nat) (derived : DerivedChainSubmission)
    (record : StoredChainSubmission) (candidate : Option CandidateTransactionHash) :
    Coord (Option StoredChainSubmission) := do
  match ← interruption with
  | some _ => return none
  | none =>
    match ← waitRetryBackoff ctx (ctx.used remaining) with
    | some _ => return none
    | none =>
      match ← interruption with
      | some _ => return none
      | none =>
        let now ← mapErr (withState .recovering) nowSeconds
        let reserved ← mapErr (ChainSubmissionFailure.attachState record.durableState)
          (store (.reserveRecoveryRetry ctx.request
            ⟨ctx.request.identity, derived.generation.digest, candidate⟩ now))
        return some reserved

/-- `retry` is `submit_recovery_retry` on the `remaining` attempts. -/
def recoverIfEnabled (remaining : Nat)
    (retry : DerivedChainSubmission → StoredChainSubmission → Coord ChainSubmissionResult)
    (derived : DerivedChainSubmission) (record : StoredChainSubmission) :
    Coord ChainSubmissionResult := do
  match ctx.recovery, ctx.request.isImportedDelegation, record.state with
  | .exactTree, false, .recovering candidate _ =>
    match ← interruption with
    | some _ => publicResult record
    | none =>
      match ← scanTree derived candidate with
      | .found position positions => confirmTree ctx derived position positions
      | .interrupted => publicResult record
      | .noMatch =>
        if remaining = 0 then publicResult record
        else
          match ← reserveRecoveryRetry ctx remaining derived record candidate with
          | none => publicResult record
          | some reserved => retry derived reserved
  | _, _, _ => publicResult record

def trackingExpiredAt (record : StoredChainSubmission) (now : Nat) :
    Except ChainSubmissionFailure Bool :=
  match record.trackingStartedAt with
  | none => .error (.withDurableState .invariantViolation record.durableState
      "Tracking record has no immutable tracking-start timestamp")
  | some started => .ok (now < started ∨ ctx.policy.trackingWindowSeconds ≤ now - started)

def trackingExpired (record : StoredChainSubmission) : Coord Bool := do
  let now ← mapErr (withState record.durableState) nowSeconds
  liftM (trackingExpiredAt ctx record now)

def windowExpired : ChainSubmissionDiagnostic := .fromRedactedMessage .trackingWindowExpired
    "finite candidate tracking window expired without a definitive result"

def finishInconclusiveTracking (record : StoredChainSubmission)
    (diagnostic : Option ChainSubmissionDiagnostic) :
    Coord StoredChainSubmission := do
  let now ← mapErr (withState record.durableState) nowSeconds
  let expired ← liftM (trackingExpiredAt ctx record now)
  if expired then
    reconcileWithDurableState derived.generation (.trackingWindowExpired windowExpired)
      (some windowExpired) record.durableState
  else
    reconcileWithDurableState derived.generation .candidatePending diagnostic record.durableState

/-- A committed failure of the candidate is final for an imported delegation and for a
combined batch. -/
def candidateFailureIsTerminal : Bool :=
  ctx.request.isImportedDelegation || derived.generation.identity.target.isCombined

def reconcileTracking (recover : StoredChainSubmission → Coord ChainSubmissionResult)
    (derived : DerivedChainSubmission) (record : StoredChainSubmission)
    (candidate : CandidateTransactionHash) : LookupProgress → Coord ChainSubmissionResult
  | .interrupted => publicResult record
  | .observed .pending => do
    let record ← finishInconclusiveTracking ctx derived record none
    recover record
  | .failed failure => do
    if ← trackingExpired ctx record then
      let record ← finishInconclusiveTracking ctx derived record (some (lookupDiagnostic failure))
      recover record
    else
      let _ ← reconcileWithDurableState derived.generation .candidatePending
        (some (lookupDiagnostic failure)) .tracking
      throw (lookupFailure failure .tracking)
  | .observed (.committedFailure _) => do
    let diagnostic := ChainSubmissionDiagnostic.fromRedactedMessage .chainRejected
      "tracked vote-chain transaction committed unsuccessfully"
    let record ← reconcileWithDurableState derived.generation
      (if candidateFailureIsTerminal ctx derived then .terminalCandidateFailure diagnostic
        else .candidateCommittedFailure diagnostic)
      (some diagnostic) .tracking
    publicResult record
  | .observed (.committedSuccess committed) => confirm ctx derived candidate committed .tracking

def terminalFailureMessage : String :=
  if ctx.request.isImportedDelegation then
    "imported vote-chain transaction committed unsuccessfully"
  else "combined vote-chain transaction committed unsuccessfully"

def reconcileRecovering (recover : StoredChainSubmission → Coord ChainSubmissionResult)
    (derived : DerivedChainSubmission) (record : StoredChainSubmission)
    (candidate : CandidateTransactionHash) : LookupProgress → Coord ChainSubmissionResult
  | .interrupted => publicResult record
  | .observed (.committedSuccess committed) => confirm ctx derived candidate committed .recovering
  | .observed (.committedFailure _) =>
    if candidateFailureIsTerminal ctx derived then do
      let diagnostic :=
        ChainSubmissionDiagnostic.fromRedactedMessage .chainRejected (terminalFailureMessage ctx)
      let record ← reconcileWithDurableState derived.generation
        (.terminalCandidateFailure diagnostic) (some diagnostic) .recovering
      publicResult record
    else do
      let record ← reconcileWithDurableState derived.generation
        (.candidateCommittedFailure (.fromRedactedMessage .chainRejected
          "recovery candidate committed unsuccessfully")) none .recovering
      recover record
  | .observed .pending => do
    let record ← reconcileWithDurableState derived.generation .candidatePending none .recovering
    recover record
  | .failed failure => do
    let record ← reconcileWithDurableState derived.generation .continueRecovery
      (some (lookupDiagnostic failure)) .recovering
    recover record

def reconcileExisting (remaining : Nat)
    (retry : DerivedChainSubmission → StoredChainSubmission → Coord ChainSubmissionResult)
    (derived : DerivedChainSubmission) (record : StoredChainSubmission) :
    Coord ChainSubmissionResult := do
  let recover := recoverIfEnabled ctx remaining retry derived
  match record.state with
  | .tracking candidate =>
    match ← interruption with
    | some _ => publicResult record
    | none => reconcileTracking ctx recover derived record candidate (← ask (.lookup candidate))
  | .recovering none _ => recover record
  | .recovering (some candidate) _ =>
    match ← interruption with
    | some _ => publicResult record
    | none => reconcileRecovering ctx recover derived record candidate (← ask (.lookup candidate))
  | _ => publicResult record

/-! ### The attempt loop -/

/-- How one iteration of the loop body ends. -/
inductive AttemptOutcome where
  | finished (result : ChainSubmissionResult)
  | tracked (record : StoredChainSubmission)
  | retry (reserved : StoredChainSubmission) (ambiguitySeen : Bool)

/-- Nothing of this attempt was released: a fresh reservation is taken back, a row that
already carries ambiguity stays. -/
def abandonAttempt (reserved : StoredChainSubmission)
    (ambiguitySeen : Bool) (reason : Interruption) : Coord ChainSubmissionResult := do
  if ambiguitySeen then publicResult reserved
  else
    removeFreshReservation derived.generation
    interruptedWithoutState reason

def registerAttempt (ambiguitySeen : Bool) : Coord Unit :=
  tryCatch (registerInFlight derived.generation.identity) fun error =>
    if ambiguitySeen then throw error
    else do
      removeFreshReservation derived.generation
      throw error

def classifyRejection (ambiguitySeen : Bool) (kind : ChainRejectionKind)
    (diagnostic : ChainSubmissionDiagnostic) :
    Coord AttemptOutcome := do
  let record ← classifyDispatchedPost derived.generation
    (if !ambiguitySeen && derived.generation.identity.target.isCombined && kind != .nullifierAlreadySpent
      then .terminalRejection diagnostic else .definiteRejection diagnostic)
  if ambiguitySeen then
    throw (.withDurableState .protocol record.durableState diagnostic.message)
  else
    let result ← publicResult record
    return .finished result

def classifyUnsent (isFinal : Bool) (derived : DerivedChainSubmission)
    (reserved : StoredChainSubmission) (ambiguitySeen : Bool) (error : ChainTransportError) :
    Coord AttemptOutcome := do
  if ambiguitySeen then
    let record ← reconcileWithDurableState derived.generation .definitelyUnsent
      (some (.fromRedactedMessage .reconciliationPending error.message)) .recovering
    if isFinal then throw (.withDurableState .transport .recovering error.message)
    else return .retry record true
  else
    removeFreshReservation derived.generation
    if isFinal then throw (.withoutState .transport error.message)
    else return .retry reserved false

def classifyAttempt (isFinal : Bool) (derived : DerivedChainSubmission)
    (reserved : StoredChainSubmission) (ambiguitySeen : Bool) :
    PostAttemptOutcome → Coord AttemptOutcome
  | .accepted candidate => do
    let record ← classifyDispatchedPost derived.generation (.usableCandidateHash candidate)
    return if returnedCandidateIsUnusable record then .retry record true else .tracked record
  | .rejected _ kind diagnostic _ =>
    if ambiguitySeen ∧ kind = .nullifierAlreadySpent then do
      let result ← settleNullifierSpentAfterDispatch ctx derived reserved
      return .finished result
    else classifyRejection derived ambiguitySeen kind diagnostic
  | .possiblyDispatched diagnostic => do
    let record ← classifyDispatchedPost derived.generation (.possiblyDispatched diagnostic)
    match ← interruption with
    | some _ =>
      let result ← publicResult record
      return .finished result
    | none => return .retry record true
  | .localFailure diagnostic => do
    if ambiguitySeen then throw (.withDurableState .protocol .recovering diagnostic.message)
    else
      removeFreshReservation derived.generation
      throw (.withoutState .protocol diagnostic.message)
  | .definitelyUnsent error => classifyUnsent isFinal derived reserved ambiguitySeen error

/-- The loop body up to the backoff. -/
def runAttempt (isFinal : Bool) (derived : DerivedChainSubmission)
    (reserved : StoredChainSubmission) (ambiguitySeen : Bool) : Coord AttemptOutcome := do
  match ← interruption with
  | some reason =>
    let result ← abandonAttempt derived reserved ambiguitySeen reason
    return .finished result
  | none =>
    registerAttempt derived ambiguitySeen
    match ← raceEndpoint ctx .reservedAttempt derived reserved with
    | .interrupted reason false =>
      let result ← abandonAttempt derived reserved ambiguitySeen reason
      return .finished result
    | progress => classifyAttempt ctx isFinal derived reserved ambiguitySeen progress.outcome

/-- What the backoff and the next reservation lead to. -/
inductive NextAttempt where
  | stop (result : ChainSubmissionResult)
  | attempt (derived : DerivedChainSubmission) (reserved : StoredChainSubmission)

/-- Admits the generation again after an attempt that was never sent. -/
def readmitSubmission (used : Nat) (derived : DerivedChainSubmission) : Coord NextAttempt := do
  let now ← nowSeconds
  match ← store (.admitSubmission ctx.request true (used + 1) now) with
  | .ready retried record fresh =>
    if fresh ∧ retried.generation = derived.generation then return .attempt retried record
    else
      let result ← publicResult record
      return .stop result
  | .authoritative record =>
    let result ← publicResult record
    return .stop result
  | .noAuthoritativeState => throw (.withoutState .invariantViolation
      "definitely-unsent retry did not reserve the same generation")

def reserveNext (used : Nat) (derived : DerivedChainSubmission)
    (reserved : StoredChainSubmission) (ambiguitySeen : Bool) : Coord NextAttempt := do
  if ambiguitySeen then
    match ← reserveAmbiguousRetryAfterBackoff (ctx.backoffAfter used) derived.generation
      reserved with
    | some next => return .attempt derived next
    | none =>
      let result ← publicResult reserved
      return .stop result
  else
    match ← ask (.backoff (ctx.backoffAfter used)) with
    | some reason =>
      let result ← interruptedWithoutState reason
      return .stop result
    | none => readmitSubmission ctx used derived

/-- The recovery retry with `remaining` attempts left after it. -/
def recoveryRetryWith (remaining : Nat)
    (loop : DerivedChainSubmission → StoredChainSubmission → Bool → Coord ChainSubmissionResult)
    (derived : DerivedChainSubmission) (reserved : StoredChainSubmission) :
    Coord ChainSubmissionResult :=
  submitRecoveryRetry ctx remaining
    (fun next => loop derived next next.state.permitsAmbiguousRetry) derived reserved

/-- The POST loop on the attempts that remain. -/
def submitReservedAttempts (ctx : PassContext) : Nat → DerivedChainSubmission →
    StoredChainSubmission → Bool → Coord ChainSubmissionResult
  -- `unreachable!`: the last iteration returns
  | 0, _, _, _ => throw (.withoutState .invariantViolation "validated attempt bound is nonzero")
  | n + 1, derived, reserved, ambiguitySeen => do
    match ← runAttempt ctx (n = 0) derived reserved ambiguitySeen with
    | .finished result => return result
    | .tracked record =>
      reconcileExisting ctx n (match n with
          | 0 => fun _ reserved => publicResult reserved
          | m + 1 => recoveryRetryWith ctx m (submitReservedAttempts ctx m))
        derived record
    | .retry reserved ambiguitySeen =>
      if n = 0 then publicResult reserved
      else
        match ← reserveNext ctx (ctx.used n) derived reserved ambiguitySeen with
        | .stop result => return result
        | .attempt derived reserved => submitReservedAttempts ctx n derived reserved ambiguitySeen

/-- `submit_recovery_retry` with `remaining` attempts left, this one included. -/
def recoveryRetry : Nat → DerivedChainSubmission → StoredChainSubmission →
    Coord ChainSubmissionResult
  | 0 => fun _ reserved => publicResult reserved
  | m + 1 => recoveryRetryWith ctx m (submitReservedAttempts ctx m)

/-! ### The pass -/

def advanceReady (record : StoredChainSubmission) : Coord ChainSubmissionResult := do
  let attempts := ctx.policy.maximumPostAttempts
  let reconcile := reconcileExisting ctx attempts (recoveryRetry ctx attempts) derived record
  if ctx.recovery = .statusOnly ∧ record.state.permitsAmbiguousRetry
      ∧ ctx.request.isImportedDelegation = false then
    match ← interruption with
    | some _ => reconcile
    | none =>
      let now ← mapErr (withState record.durableState) nowSeconds
      let reserved ← mapErr (ChainSubmissionFailure.attachState record.durableState)
        (store (.reserveAmbiguousRetry derived.generation now))
      submitReservedAttempts ctx attempts derived reserved reserved.state.permitsAmbiguousRetry
  else reconcile

def refuseWithoutState : Option Interruption → Coord ChainSubmissionResult
  | some .cancelled => pure .cancelled
  | some .staleEpoch => throw (.withoutState .invalidInput
      "host operation epoch changed before chain submission")
  | none => throw (.withoutState .invariantViolation
      "admission returned no state for an active operation")

def advanceInEpoch : Coord ChainSubmissionResult := do
  acquire ctx.request.applicableIdentities
  let stopped ← interruption
  let now ← nowSeconds
  match ← store (.admitSubmission ctx.request stopped.isNone 1 now) with
  | .noAuthoritativeState =>
    let reason ← interruption
    refuseWithoutState reason
  | .authoritative record => publicResult record
  | .ready derived record fresh =>
    if fresh then
      submitReservedAttempts ctx ctx.policy.maximumPostAttempts derived record record.state.permitsAmbiguousRetry
    else advanceReady ctx derived record

end Coordinator

end ZcashVoting.ChainSubmission
