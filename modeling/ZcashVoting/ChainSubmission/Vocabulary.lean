import Mathlib

/-!
# The vocabulary of chain submission

Identities and generations of a submission, the durable states and diagnostics of
its row, confirmations, and the results and failures an advancement pass returns.
A 32-byte value is a `Bytes32`. SQL text and integer columns are `String` and `Nat`.
-/
namespace ZcashVoting

abbrev Bytes32 := Vector UInt8 32

/-- Largest value of a signed SQLite integer column. -/
def i64Max : Nat := 2 ^ 63 - 1

inductive Network where
  | testnet
  | mainnet
  | regtest
  deriving DecidableEq, Repr

inductive DelegationSetupField where
  | paddedNoteSecrets
  | pcztSighash
  | tx1Effects
  | delegationPczt
  deriving DecidableEq, Repr

def DelegationSetupField.columnName : DelegationSetupField → String
  | paddedNoteSecrets => "padded_note_secrets"
  | pcztSighash => "pczt_sighash"
  | tx1Effects => "tx1_effects"
  | delegationPczt => "delegation_pczt"

inductive VotingError where
  | invalidInput (message : String)
  | busy (message : String)
  | storage (message : String)
  | internal (message : String)
  | setupAlreadyPersisted (roundId : String) (bundleIndex : Nat) (field : DelegationSetupField)
  | delegationAlreadyBroadcast (bundleIndex : Nat) (evidence : String)
  deriving DecidableEq, Repr

namespace VotingError

def toText : VotingError → String
  | invalidInput message => "Invalid input: " ++ message
  | busy message => "Voting state is busy: " ++ message
  | storage message => "Storage error: " ++ message
  | internal message => "Internal error: " ++ message
  | setupAlreadyPersisted roundId bundleIndex field =>
    s!"refusing to overwrite {field.columnName} for round={roundId}, bundle={bundleIndex}"
  | delegationAlreadyBroadcast bundleIndex evidence =>
    s!"delegation for bundle {bundleIndex} may already be on chain ({evidence}), so its recovery state was kept"

end VotingError

/-- The lowercase hexadecimal digits of a value below 16. -/
def hexDigit (n : Nat) : Char :=
  if n < 10 then Char.ofNat (48 + n) else Char.ofNat (87 + n)

/-- `hex::encode` -/
def hexEncodeBytes (bytes : List UInt8) : String :=
  String.ofList (bytes.flatMap fun b => [hexDigit (b.toNat / 16), hexDigit (b.toNat % 16)])

/-- The text under which a round id is stored. -/
def hexEncode (bytes : Bytes32) : String := hexEncodeBytes bytes.toList

namespace ChainSubmission

/-- The chain effect selected by a submission identity. -/
inductive ChainSubmissionTarget where
  | delegation
  | vote (proposalId : Nat)
  | voteBatch (orderedBatchDigest : Bytes32)
  | delegateAndVoteBatch (orderedBatchDigest : Bytes32)
  deriving DecidableEq

namespace ChainSubmissionTarget

def batchDigest : ChainSubmissionTarget → Option Bytes32
  | voteBatch digest => some digest
  | delegateAndVoteBatch digest => some digest
  | _ => none

def isCombined : ChainSubmissionTarget → Bool
  | delegateAndVoteBatch _ => true
  | _ => false

end ChainSubmissionTarget

/-- Stable identity shared by all attempts for one submission meaning. -/
structure ChainSubmissionIdentity where
  walletId : String
  network : Network
  voteRoundId : Bytes32
  bundleIndex : Nat
  target : ChainSubmissionTarget
  deriving DecidableEq

/-- The column `round_id` of the row of this identity. -/
def ChainSubmissionIdentity.roundId (identity : ChainSubmissionIdentity) :
    String := hexEncode identity.voteRoundId

structure ChainSubmissionGeneration where
  identity : ChainSubmissionIdentity
  digest : Bytes32
  deriving DecidableEq

abbrev CandidateTransactionHash := Bytes32

/-- The durable states stored for lifecycle-owned submissions. -/
inductive ChainSubmissionState where
  | submitting
  | tracking
  | recovering
  | submittedWithoutHash
  | confirmed
  | rejected
  deriving DecidableEq, Repr

inductive ChainSubmissionDiagnosticKind where
  | ambiguousDispatch
  | ambiguousAttemptsExhausted
  | nullifierAlreadySpent
  | trackingWindowExpired
  | chainRejected
  | reconciliationPending
  | invalidProtocolResponse
  | storageFailure
  | endpointUnsupported
  | routeAnswerReplaced
  deriving DecidableEq, Repr

def maxChainSubmissionDiagnosticBytes : Nat := 512

/-- `u` escape of a character outside printable ASCII: its code in lowercase hex. -/
def unicodeEscape (c : Char) : List Char :=
  '\\' :: 'u' :: Char.ofNat 0x7b :: (Nat.toDigits 16 c.toNat ++ [Char.ofNat 0x7d])

/-- `char::escape_default`; every escape is ASCII, so its length is its size in bytes. -/
def escapeDefault (c : Char) : List Char :=
  if c = '\t' then ['\\', 't']
  else if c = '\r' then ['\\', 'r']
  else if c = '\n' then ['\\', 'n']
  else if c = Char.ofNat 39 ∨ c = Char.ofNat 34 ∨ c = '\\' then ['\\', c]
  else if 0x20 ≤ c.toNat ∧ c.toNat ≤ 0x7e then [c]
  else unicodeEscape c

/-- Escapes characters while the whole escape still fits in `room` bytes. -/
def boundedChars (room : Nat) : List Char → List Char
  | [] => []
  | c :: rest =>
    if (escapeDefault c).length > room then []
    else escapeDefault c ++ boundedChars (room - (escapeDefault c).length) rest

def boundedRedactedText (redactedMessage : String) : String :=
  String.ofList (boundedChars maxChainSubmissionDiagnosticBytes redactedMessage.toList)

/-- A bounded UTF-8 diagnostic that is safe for durable storage. -/
structure ChainSubmissionDiagnostic where
  kind : ChainSubmissionDiagnosticKind
  message : String
  deriving DecidableEq

def ChainSubmissionDiagnostic.fromRedactedMessage (kind : ChainSubmissionDiagnosticKind)
    (redactedMessage : String) : ChainSubmissionDiagnostic :=
  ⟨kind, boundedRedactedText redactedMessage⟩

/-- Exact terminal data whose identical replay is idempotent. -/
structure ChainSubmissionConfirmation where
  transactionHash : Option CandidateTransactionHash
  finalVanPosition : Nat
  voteCommitmentPositions : List Nat
  deriving DecidableEq

/-- Generation-validated terminal evidence. The variant is the confirmation source. -/
inductive ValidatedChainSubmissionConfirmation where
  | hash (confirmation : ChainSubmissionConfirmation)
  | tree (confirmation : ChainSubmissionConfirmation)
  deriving DecidableEq

namespace ValidatedChainSubmissionConfirmation

def confirmation : ValidatedChainSubmissionConfirmation → ChainSubmissionConfirmation
  | hash c => c
  | tree c => c

def positionOutOfRange : String := "chain tree positions must fit SQLite's signed integer range"

def validateSqlitePositions (finalVanPosition : Nat) (positions : List Nat) : Except String Unit :=
  if finalVanPosition > i64Max ∨ positions.any (· > i64Max) then .error positionOutOfRange
  else .ok ()

def fromHash (transactionHash : CandidateTransactionHash) (finalVanPosition : Nat)
    (positions : List Nat) : Except String ValidatedChainSubmissionConfirmation := do
  validateSqlitePositions finalVanPosition positions
  return hash ⟨some transactionHash, finalVanPosition, positions⟩

def fromTree (finalVanPosition : Nat) (positions : List Nat) :
    Except String ValidatedChainSubmissionConfirmation := do
  validateSqlitePositions finalVanPosition positions
  return tree ⟨none, finalVanPosition, positions⟩

end ValidatedChainSubmissionConfirmation

/-- Non-terminal result that tells a host which bounded pass to schedule next. -/
inductive ChainSubmissionPending where
  | tracking (candidate : CandidateTransactionHash)
  | recovering (candidate : Option CandidateTransactionHash)
      (diagnostic : ChainSubmissionDiagnostic)
  deriving DecidableEq

/-- Authoritative outcome returned by a lifecycle advancement call. -/
inductive ChainSubmissionResult where
  | confirmed (confirmation : ChainSubmissionConfirmation)
  | pending (pending : ChainSubmissionPending)
  | submittedWithoutHash (diagnostic : ChainSubmissionDiagnostic)
  | rejected (diagnostic : ChainSubmissionDiagnostic)
  | cancelled
  deriving DecidableEq

inductive ChainSubmissionFailureKind where
  | invalidInput
  | invariantViolation
  | storage
  | transport
  | protocol
  deriving DecidableEq, Repr

/-- Why the state attached to an operational failure is authoritative. -/
inductive ChainSubmissionStateEvidence where
  | durable
  | knownPossiblyDispatched
  deriving DecidableEq, Repr

structure ChainSubmissionFailureState where
  state : ChainSubmissionState
  evidence : ChainSubmissionStateEvidence
  deriving DecidableEq, Repr

/-- Failure of one bounded advancement pass. -/
structure ChainSubmissionFailure where
  kind : ChainSubmissionFailureKind
  strongestState : Option ChainSubmissionFailureState
  message : String
  deriving DecidableEq

namespace ChainSubmissionFailure

variable (kind : ChainSubmissionFailureKind)

def withoutState (text : String) : ChainSubmissionFailure :=
  ⟨kind, none, boundedRedactedText text⟩

def withDurableState (state : ChainSubmissionState) (text : String) : ChainSubmissionFailure :=
  ⟨kind, some ⟨state, .durable⟩, boundedRedactedText text⟩

def withKnownPossibleDispatch (text : String) : ChainSubmissionFailure :=
  ⟨kind, some ⟨.recovering, .knownPossiblyDispatched⟩, boundedRedactedText text⟩

/-- Attaches `state` to a failure that carries none. -/
def attachState (state : ChainSubmissionState) (error : ChainSubmissionFailure) :
    ChainSubmissionFailure :=
  if error.strongestState.isSome then error
  else withDurableState error.kind state error.message

end ChainSubmissionFailure

end ChainSubmission
end ZcashVoting
