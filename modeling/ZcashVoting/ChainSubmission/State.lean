import ZcashVoting.ChainSubmission.Vocabulary

/-!
# The typed state of one generation and its transitions

`applySubmissionObservation` is the pure transition function of the lifecycle. The
durable row of a generation changes its state only through it, apart from the
recovery-retry reservation, which drops the candidate of a `recovering` row.
-/
namespace ZcashVoting.ChainSubmission

/-- Authoritative typed state for one semantic generation. -/
inductive SubmissionRecordState where
  | submitting
  | tracking (candidate : CandidateTransactionHash)
  | recovering (candidate : Option CandidateTransactionHash)
      (ambiguityDiagnostic : ChainSubmissionDiagnostic)
  | submittedWithoutHash (diagnostic : ChainSubmissionDiagnostic)
  | confirmed (confirmation : ValidatedChainSubmissionConfirmation)
  | rejected (diagnostic : ChainSubmissionDiagnostic)
  deriving DecidableEq

/-- The kinds a possibly dispatched POST leaves on its row. -/
def ChainSubmissionDiagnosticKind.isDispatchAmbiguity : ChainSubmissionDiagnosticKind → Bool
  | .ambiguousDispatch => true
  | .invalidProtocolResponse => true
  | .endpointUnsupported => true
  | .routeAnswerReplaced => true
  | _ => false

namespace SubmissionRecordState

/-- True for a hashless `recovering` row created by a possibly dispatched POST,
which may reserve the next POST of the same generation directly. -/
def permitsAmbiguousRetry : SubmissionRecordState → Bool
  | recovering none diagnostic => diagnostic.kind.isDispatchAmbiguity
  | _ => false

/-- True while the row carries evidence that its generation may already be on
chain with an unknown outcome. -/
def hasUnresolvedDispatch : SubmissionRecordState → Bool
  | recovering _ diagnostic =>
    diagnostic.kind.isDispatchAmbiguity || diagnostic.kind == .trackingWindowExpired
  | _ => false

def durableState : SubmissionRecordState → ChainSubmissionState
  | submitting => .submitting
  | tracking _ => .tracking
  | recovering _ _ => .recovering
  | submittedWithoutHash _ => .submittedWithoutHash
  | confirmed _ => .confirmed
  | rejected _ => .rejected

/-- The diagnostic a state carries itself. -/
def carriedDiagnostic : SubmissionRecordState → Option ChainSubmissionDiagnostic
  | recovering _ diagnostic => some diagnostic
  | submittedWithoutHash diagnostic => some diagnostic
  | rejected diagnostic => some diagnostic
  | _ => none

/-- The states of the SQL list
`('submitting','tracking','recovering','submitted_without_hash')`. -/
def isUnresolved : SubmissionRecordState → Bool
  | submitting => true
  | tracking _ => true
  | recovering _ _ => true
  | submittedWithoutHash _ => true
  | confirmed _ => false
  | rejected _ => false

/-- The states after which no work remains for the generation. -/
def isTerminal : SubmissionRecordState → Bool
  | submittedWithoutHash _ => true
  | confirmed _ => true
  | rejected _ => true
  | _ => false

def isConfirmed : SubmissionRecordState → Bool
  | confirmed _ => true
  | _ => false

/-- The column `candidate_transaction_hash` of a row in this state. -/
def candidateColumn : SubmissionRecordState → Option CandidateTransactionHash
  | tracking candidate => some candidate
  | recovering candidate _ => candidate
  | confirmed confirmation => confirmation.confirmation.transactionHash
  | _ => none

/-- The column `confirmed_transaction_hash` of a row in this state. -/
def confirmedHashColumn : SubmissionRecordState → Option CandidateTransactionHash
  | confirmed confirmation => confirmation.confirmation.transactionHash
  | _ => none

variable {state : SubmissionRecordState}

theorem hasUnresolvedDispatch_of_permitsAmbiguousRetry
    (h : state.permitsAmbiguousRetry = true) : state.hasUnresolvedDispatch = true := by
  cases state with
  | recovering candidate =>
    cases candidate with
    | none => simp only [permitsAmbiguousRetry] at h; simp [hasUnresolvedDispatch, h]
    | some => simp [permitsAmbiguousRetry] at h
  | _ => simp [permitsAmbiguousRetry] at h

theorem permitsAmbiguousRetry_hashless (h : state.permitsAmbiguousRetry = true) : ∃ diagnostic,
    state = recovering none diagnostic := by
  cases state with
  | recovering candidate diagnostic =>
    cases candidate with
    | none => exact ⟨diagnostic, rfl⟩
    | some => simp [permitsAmbiguousRetry] at h
  | _ => simp [permitsAmbiguousRetry] at h

end SubmissionRecordState

/-- One classified observation applied by the lifecycle coordinator. -/
inductive SubmissionObservation where
  | reserveFreshSubmission
  | definitelyUnsent
  | usableCandidateHash (candidate : CandidateTransactionHash)
  | possiblyDispatched (diagnostic : ChainSubmissionDiagnostic)
  | definiteRejection (diagnostic : ChainSubmissionDiagnostic)
  | terminalRejection (diagnostic : ChainSubmissionDiagnostic)
  | submittedWithoutHash (diagnostic : ChainSubmissionDiagnostic)
  | candidatePending
  | trackingWindowExpired (diagnostic : ChainSubmissionDiagnostic)
  | candidateCommittedFailure (diagnostic : ChainSubmissionDiagnostic)
  | terminalCandidateFailure (diagnostic : ChainSubmissionDiagnostic)
  | confirmed (confirmation : ValidatedChainSubmissionConfirmation)
  | continueRecovery
  | abandonedSubmitting (diagnostic : ChainSubmissionDiagnostic)
  deriving DecidableEq

def SubmissionObservation.name : SubmissionObservation → String
  | reserveFreshSubmission => "reserve_fresh_submission"
  | definitelyUnsent => "definitely_unsent"
  | usableCandidateHash _ => "usable_candidate_hash"
  | possiblyDispatched _ => "possibly_dispatched"
  | definiteRejection _ => "definite_rejection"
  | terminalRejection _ => "terminal_rejection"
  | submittedWithoutHash _ => "submitted_without_hash"
  | candidatePending => "candidate_pending"
  | trackingWindowExpired _ => "tracking_window_expired"
  | candidateCommittedFailure _ => "candidate_committed_failure"
  | terminalCandidateFailure _ => "terminal_candidate_failure"
  | confirmed _ => "confirmed"
  | continueRecovery => "continue_recovery"
  | abandonedSubmitting _ => "abandoned_submitting"

inductive SubmissionTransitionError where
  | illegalTransition (source : Option ChainSubmissionState) (observation : String)
  | conflictingCandidateHash
  | confirmationDoesNotMatchCandidate
  | conflictingConfirmation
  deriving DecidableEq

def requireHashConfirmationForCandidate (confirmation : ValidatedChainSubmissionConfirmation)
    (candidate : CandidateTransactionHash) : Except SubmissionTransitionError Unit :=
  match confirmation with
  | .hash c =>
    if c.transactionHash = some candidate then .ok () else .error .confirmationDoesNotMatchCandidate
  | .tree _ => .error .confirmationDoesNotMatchCandidate

def requireValidRecoveryConfirmation (confirmation : ValidatedChainSubmissionConfirmation)
    (candidate : Option CandidateTransactionHash) : Except SubmissionTransitionError Unit :=
  match confirmation, candidate with
  | .hash _, none => .error .confirmationDoesNotMatchCandidate
  | .hash _, some candidate => requireHashConfirmationForCandidate confirmation candidate
  | .tree _, _ => .ok ()

/-- Applies one observation without performing I/O. `none` is an absent row. -/
def applySubmissionObservation (current : Option SubmissionRecordState)
    (observation : SubmissionObservation) :
    Except SubmissionTransitionError (Option SubmissionRecordState) :=
  match current, observation with
  | none, .reserveFreshSubmission => .ok (some .submitting)
  | some .submitting, .definitelyUnsent => .ok none
  | some .submitting, .usableCandidateHash candidate => .ok (some (.tracking candidate))
  | some .submitting, .possiblyDispatched diagnostic => .ok (some (.recovering none diagnostic))
  | some .submitting, .abandonedSubmitting diagnostic => .ok (some (.recovering none diagnostic))
  | some .submitting, .definiteRejection diagnostic => .ok (some (.recovering none diagnostic))
  | some .submitting, .terminalRejection diagnostic => .ok (some (.rejected diagnostic))
  | some .submitting, .submittedWithoutHash diagnostic =>
    .ok (some (.submittedWithoutHash diagnostic))
  | some (.recovering _ _), .submittedWithoutHash diagnostic =>
    .ok (some (.submittedWithoutHash diagnostic))
  | some (.tracking candidate), .candidatePending => .ok (some (.tracking candidate))
  | some (.tracking candidate), .trackingWindowExpired diagnostic =>
    .ok (some (.recovering (some candidate) diagnostic))
  | some (.tracking _), .candidateCommittedFailure diagnostic =>
    .ok (some (.recovering none diagnostic))
  | some (.tracking _), .terminalCandidateFailure diagnostic => .ok (some (.rejected diagnostic))
  | some (.recovering _ _), .terminalCandidateFailure diagnostic =>
    .ok (some (.rejected diagnostic))
  | some (.tracking candidate), .confirmed confirmation => do
    requireHashConfirmationForCandidate confirmation candidate
    return some (.confirmed confirmation)
  | some (.recovering none _), .usableCandidateHash candidate => .ok (some (.tracking candidate))
  | some (.recovering (some existing) diagnostic), .usableCandidateHash candidate =>
    if existing ≠ candidate then .error .conflictingCandidateHash
    else .ok (some (.recovering (some existing) diagnostic))
  -- A retry that is itself possibly dispatched replaces the stored diagnostic.
  | some (.recovering none _), .possiblyDispatched diagnostic =>
    .ok (some (.recovering none diagnostic))
  | some (.recovering candidate diagnostic), .continueRecovery =>
    .ok (some (.recovering candidate diagnostic))
  | some (.recovering candidate diagnostic), .possiblyDispatched _ =>
    .ok (some (.recovering candidate diagnostic))
  | some (.recovering candidate diagnostic), .definiteRejection _ =>
    .ok (some (.recovering candidate diagnostic))
  | some (.recovering candidate diagnostic), .definitelyUnsent =>
    .ok (some (.recovering candidate diagnostic))
  | some (.recovering (some candidate) diagnostic), .candidatePending =>
    .ok (some (.recovering (some candidate) diagnostic))
  | some (.recovering (some _) _), .candidateCommittedFailure diagnostic =>
    .ok (some (.recovering none diagnostic))
  | some (.recovering candidate _), .confirmed confirmation => do
    requireValidRecoveryConfirmation confirmation candidate
    return some (.confirmed confirmation)
  | some (.confirmed existing), .confirmed replayed =>
    if existing = replayed then .ok (some (.confirmed existing))
    else .error .conflictingConfirmation
  | current, observation =>
    .error (.illegalTransition (current.map SubmissionRecordState.durableState) observation.name)

end ZcashVoting.ChainSubmission
