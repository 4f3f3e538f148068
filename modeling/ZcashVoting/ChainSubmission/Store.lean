import ZcashVoting.ChainSubmission.State
import ZcashVoting.Lib.Table

/-!
# The durable store of chain submissions

The SQLite adapter of the lifecycle: one row for each submission identity, and the
transactions that admit a generation, classify, reserve, confirm and remove. The tables of the
voting domain (rounds, bundles, votes, proofs, combined authorizations) enter only
through `DomainTables`, the queries and projections this adapter makes on them.

A failed transaction is rolled back. Reading a row passes its diagnostic through the
bounded escape once more, as `load_one` does.
-/
namespace ZcashVoting.ChainSubmission

open Transaction

/-! ### Requests and derived submissions -/

/-- Tree leaves expected from a generation, in protocol action order. -/
inductive ExpectedTreeLayout where
  | delegation (delegationVan : Bytes32)
  | vote (successorVan voteCommitment : Bytes32)
  | voteBatch (finalSuccessorVan : Bytes32) (voteCommitments : List Bytes32)
  deriving DecidableEq

/-- Closed chain request of one generation; a wire body is its serialized text. -/
inductive ChainSubmissionRequest where
  | delegation (wire : String)
  | importedDelegation (candidate : CandidateTransactionHash)
  | vote (wire : String)
  | voteBatch (wire : String)
  | delegateAndVoteBatch (wire : String)
  deriving DecidableEq

/-- What derivation reads back from the domain tables besides the identity. -/
structure DerivedBody where
  digest : Bytes32
  request : ChainSubmissionRequest
  expectedLayout : ExpectedTreeLayout
  orderedProposalIds : List Nat
  deriving DecidableEq

/-- A semantic generation and its matching wire request and confirmation layout. -/
structure DerivedChainSubmission where
  generation : ChainSubmissionGeneration
  request : ChainSubmissionRequest
  expectedLayout : ExpectedTreeLayout
  orderedProposalIds : List Nat
  deriving DecidableEq

def DerivedChainSubmission.importedCandidate (derived : DerivedChainSubmission) :
    Option CandidateTransactionHash :=
  match derived.request with
  | .importedDelegation candidate => some candidate
  | _ => none

/-- Inputs from which storage reconstructs a closed semantic generation. -/
inductive SubmissionDerivationRequest where
  | delegation (identity : ChainSubmissionIdentity) (spendAuthSignature : Vector UInt8 64)
  | importedDelegation (identity : ChainSubmissionIdentity)
  | vote (identity : ChainSubmissionIdentity)
  | voteBatch (identity : ChainSubmissionIdentity)
  deriving DecidableEq

def SubmissionDerivationRequest.identity : SubmissionDerivationRequest → ChainSubmissionIdentity
  | delegation identity _ => identity
  | importedDelegation identity => identity
  | vote identity => identity
  | voteBatch identity => identity

/-- One advancement request and the member identities an atomic batch would overlap. -/
structure StoreAdvancementRequest where
  derivation : SubmissionDerivationRequest
  memberIdentities : List ChainSubmissionIdentity
  orderedBatchProposalIds : Option (List Nat)
  deriving DecidableEq

namespace StoreAdvancementRequest

variable (request : StoreAdvancementRequest)

def identity : ChainSubmissionIdentity := request.derivation.identity

def applicableIdentities : List ChainSubmissionIdentity :=
  request.memberIdentities ++ [request.identity]

def isBatch : Bool :=
  match request.derivation with
  | .voteBatch _ => true
  | _ => false

def isImportedDelegation : Bool :=
  match request.derivation with
  | .importedDelegation _ => true
  | _ => false

def verifyBatchRoster (authoritative : List Nat) : Except ChainSubmissionFailure Unit :=
  match request.orderedBatchProposalIds with
  | none => .ok ()
  | some expected =>
    if authoritative = expected then .ok ()
    else .error (.withoutState .invalidInput
      "vote-batch proposal roster does not match the complete persisted batch")

def targetMatches : Bool :=
  match request.derivation, request.identity.target with
  | .delegation _ _, .delegation => true
  | .importedDelegation _, .delegation => true
  | .vote _, .vote _ => true
  | .voteBatch _, .voteBatch _ => true
  | .voteBatch _, .delegateAndVoteBatch _ => true
  | _, _ => false

def validateTarget : Except ChainSubmissionFailure Unit :=
  if request.targetMatches then .ok ()
  else .error (.withoutState .invalidInput
    "submission request kind does not match its typed identity target")

end StoreAdvancementRequest

/-! ### Rows -/

/-- Complete durable record used by the coordinator and the SQLite adapter. -/
structure StoredChainSubmission where
  identity : ChainSubmissionIdentity
  generationDigest : Bytes32
  state : SubmissionRecordState
  committedPostReservations : Nat
  trackingStartedAt : Option Nat
  diagnostic : Option ChainSubmissionDiagnostic
  (createdAt updatedAt : Nat)
  deriving DecidableEq

namespace StoredChainSubmission

variable (record : StoredChainSubmission)

def durableState : ChainSubmissionState := record.state.durableState

/-- The bookkeeping every state transition shares. -/
def settleAfterTransition (previous : ChainSubmissionState)
    (explicitDiagnostic : Option ChainSubmissionDiagnostic) (now : Nat) : StoredChainSubmission :=
  let isTracking := record.durableState = .tracking
  let enteredTracking := isTracking ∧ previous ≠ .tracking
  let effectiveNow := max now record.updatedAt
  { record with
    diagnostic :=
      match record.state.carriedDiagnostic with
      | some diagnostic => some diagnostic
      | none =>
        match explicitDiagnostic with
        | some diagnostic => some diagnostic
        | none => if enteredTracking then none else record.diagnostic
    trackingStartedAt :=
      if isTracking ∧ record.trackingStartedAt = none then some effectiveNow
      else record.trackingStartedAt
    updatedAt := effectiveNow }

/-- A combined generation that has just become terminally rejected leaves no row. -/
def retiresCombinedGeneration (previous : ChainSubmissionState) : Bool :=
  record.durableState == .rejected && previous != .rejected && record.identity.target.isCombined

def fresh (generation : ChainSubmissionGeneration) (committedPostReservations now : Nat) :
    StoredChainSubmission where
  identity := generation.identity
  generationDigest := generation.digest
  state := .submitting
  committedPostReservations := committedPostReservations
  trackingStartedAt := none
  diagnostic := none
  createdAt := now
  updatedAt := now

def adoptedImportedDelegation (generation : ChainSubmissionGeneration)
    (candidate : CandidateTransactionHash) (now : Nat) : StoredChainSubmission where
  identity := generation.identity
  generationDigest := generation.digest
  state := .tracking candidate
  committedPostReservations := 0
  trackingStartedAt := some now
  diagnostic := none
  createdAt := now
  updatedAt := now

def publicResult : Except ChainSubmissionFailure ChainSubmissionResult :=
  match record.state with
  | .submitting => .error (.withDurableState .invariantViolation .submitting
      "Submitting must be normalized before returning from an advancement pass")
  | .tracking candidate => .ok (.pending (.tracking candidate))
  | .recovering candidate diagnostic => .ok (.pending (.recovering candidate diagnostic))
  | .submittedWithoutHash diagnostic => .ok (.submittedWithoutHash diagnostic)
  | .confirmed confirmation => .ok (.confirmed confirmation.confirmation)
  | .rejected diagnostic => .ok (.rejected diagnostic)

/-- Every integer column fits SQLite's signed range. -/
def integersFit : Bool :=
  record.committedPostReservations ≤ i64Max && record.createdAt ≤ i64Max &&
    record.updatedAt ≤ i64Max && record.trackingStartedAt.all (· ≤ i64Max)

/-- The diagnostic columns `persist_mutable` writes for this record. -/
def diagnosticColumns : Option ChainSubmissionDiagnostic :=
  match record.state with
  | .submitting => none
  | .confirmed _ => none
  | .tracking _ => record.diagnostic
  | state => state.carriedDiagnostic

end StoredChainSubmission

/-- Rebuilds a diagnostic from its two columns. -/
def ChainSubmissionDiagnostic.reloaded (diagnostic : ChainSubmissionDiagnostic) :
    ChainSubmissionDiagnostic :=
  .fromRedactedMessage diagnostic.kind diagnostic.message

def SubmissionRecordState.reloaded : SubmissionRecordState → SubmissionRecordState
  | .recovering candidate diagnostic => .recovering candidate diagnostic.reloaded
  | .submittedWithoutHash diagnostic => .submittedWithoutHash diagnostic.reloaded
  | .rejected diagnostic => .rejected diagnostic.reloaded
  | state => state

/-- The record `load_one` builds from a row. -/
def StoredChainSubmission.reloaded (row : StoredChainSubmission) : StoredChainSubmission :=
  { row with
    state := row.state.reloaded
    diagnostic := row.diagnostic.map ChainSubmissionDiagnostic.reloaded }

end ZcashVoting.ChainSubmission
