import ZcashVoting.ChainSubmission.Store

/-!
# The SQLite transactions of the store

Each definition is one transaction of `SqliteChainSubmissionStore`, in the order of
its checks and with the texts of its failures.
-/
namespace ZcashVoting.ChainSubmission

open Transaction

/-- An event of a committed vote-chain transaction. -/
structure TxEvent where
  kind : String
  attributes : List (String × String)
  deriving DecidableEq

/-- The queries and projections the adapter makes on the voting tables `σ`, inside
the transaction that reads or writes the submission row. -/
structure DomainTables (σ : Type) where
  /-- `load_round_network`: the network a stored round was created for. -/
  roundNetwork : σ → (roundId walletId : String) → Except VotingError Network
  /-- What a `derive_*` reads once the identity's network is checked. -/
  deriveBody : σ → SubmissionDerivationRequest → Except VotingError DerivedBody
  /-- Whether the bundle row holds a delegation hash or tree position, if it exists. -/
  delegationRecorded : σ → (roundId walletId : String) → (bundleIndex : Nat) → Option Bool
  /-- Whether `delegate_cast_recovery` has a row of the bundle. -/
  combinedRecoveryExists : σ → (roundId walletId : String) → (bundleIndex : Nat) → Bool
  validateHashConfirmation : DerivedChainSubmission → CandidateTransactionHash → List TxEvent →
    Except String ValidatedChainSubmissionConfirmation
  validateImportedDelegationConfirmation : DerivedChainSubmission → CandidateTransactionHash →
    List TxEvent → Except String ValidatedChainSubmissionConfirmation
  /-- `apply_confirmed_generation`: the terminal projection into the voting tables. -/
  applyConfirmedGeneration : σ → DerivedChainSubmission → ValidatedChainSubmissionConfirmation →
    Except VotingError σ
  retireRejectedCombinedGeneration : σ → ChainSubmissionIdentity → ChainSubmissionDiagnostic →
    Nat → Except VotingError σ
  /-- No projection rewrites the network of a stored round. -/
  applyConfirmedGeneration_network : ∀ {domain domain' : σ} {derived confirmation},
    applyConfirmedGeneration domain derived confirmation = .ok domain' →
    roundNetwork domain' = roundNetwork domain
  retireRejectedCombinedGeneration_network : ∀ {domain domain' : σ} {identity diagnostic now},
    retireRejectedCombinedGeneration domain identity diagnostic now = .ok domain' →
    roundNetwork domain' = roundNetwork domain

/-- The database: the table `chain_submissions` and the voting tables. -/
structure ChainDb (σ : Type) where
  submissions : List StoredChainSubmission
  domain : σ

variable {σ : Type}

abbrev StoreTx (σ α : Type) := Tx (ChainDb σ) ChainSubmissionFailure α

/-! ### Failures -/

def storageError (text : String) : ChainSubmissionFailure := .withoutState .storage text

def possibleDispatchError (error : ChainSubmissionFailure) : ChainSubmissionFailure :=
  .withKnownPossibleDispatch error.kind error.message

def mapGenerationError (error : VotingError) : ChainSubmissionFailure :=
  .withoutState (match error with | .invalidInput _ => .invalidInput | _ => .storage) error.toText

def ChainSubmissionState.debugText : ChainSubmissionState → String
  | submitting => "Submitting"
  | tracking => "Tracking"
  | recovering => "Recovering"
  | submittedWithoutHash => "SubmittedWithoutHash"
  | confirmed => "Confirmed"
  | rejected => "Rejected"

def SubmissionTransitionError.toText : SubmissionTransitionError → String
  | illegalTransition none observation =>
    "illegal chain submission transition from None after " ++ observation
  | illegalTransition (some source) observation =>
    "illegal chain submission transition from Some(" ++ source.debugText ++ ") after " ++
      observation
  | conflictingCandidateHash => "candidate transaction hash conflicts with the durable candidate"
  | confirmationDoesNotMatchCandidate =>
    "hash confirmation does not match the durable candidate transaction"
  | conflictingConfirmation => "terminal confirmation conflicts with the durable confirmation"

def transitionFailure (state : ChainSubmissionState) (text : String) : ChainSubmissionFailure :=
  .withDurableState .invariantViolation state text

/-! ### Queries -/

/-- Rows of the bundle of `identity`, on any network. -/
def sameBundle (a b : ChainSubmissionIdentity) : Bool :=
  a.roundId == b.roundId && a.walletId == b.walletId && a.bundleIndex == b.bundleIndex

def hasBundleSubmission (rows : List StoredChainSubmission)
    (identity : ChainSubmissionIdentity) : Bool :=
  rows.any fun row => sameBundle row.identity identity

/-- The predecessor query of `admitSubmission`. -/
def hasUnresolvedPredecessor (rows : List StoredChainSubmission)
    (identity : ChainSubmissionIdentity) : Bool :=
  rows.any fun row => sameBundle row.identity identity &&
    row.identity.network == identity.network && row.state.isUnresolved

/-- The kinds `('vote','vote_batch','delegate_and_cast_vote_batch')`. -/
def ChainSubmissionTarget.isCast : ChainSubmissionTarget → Bool
  | delegation => false
  | _ => true

/-- The query that refuses a delegation after a confirmed cast. -/
def hasConfirmedCast (rows : List StoredChainSubmission)
    (identity : ChainSubmissionIdentity) : Bool :=
  rows.any fun row => sameBundle row.identity identity &&
    row.identity.network == identity.network && row.identity.target.isCast && row.state.isConfirmed

def ownsHash (row : StoredChainSubmission) (candidate : CandidateTransactionHash) : Bool :=
  row.state.candidateColumn == some candidate || row.state.confirmedHashColumn == some candidate

def hashOwned (rows : List StoredChainSubmission) (candidate : CandidateTransactionHash) : Bool :=
  rows.any fun row => ownsHash row candidate

def hashOwnedElsewhere (rows : List StoredChainSubmission) (identity : ChainSubmissionIdentity)
    (candidate : CandidateTransactionHash) : Bool :=
  rows.any fun row => row.identity != identity && ownsHash row candidate

/-- The two partial unique indexes on transaction hashes. -/
def violatesHashIndex (rows : List StoredChainSubmission) (record : StoredChainSubmission) : Bool :=
  rows.any fun row => row.identity != record.identity && ((record.state.candidateColumn.isSome &&
        row.state.candidateColumn == record.state.candidateColumn) ||
      (record.state.confirmedHashColumn.isSome &&
        row.state.confirmedHashColumn == record.state.confirmedHashColumn))

/-! ### Row access -/

def loadSubmission (identity : ChainSubmissionIdentity) :
    StoreTx σ (Option StoredChainSubmission) := do
  let db ← get
  return (SqlTable.lookup StoredChainSubmission.identity identity db.submissions).map
    StoredChainSubmission.reloaded

/-- `load_submission` followed by the failure for an absent row. -/
def requireSubmission (identity : ChainSubmissionIdentity) (absent : String) :
    StoreTx σ StoredChainSubmission := do
  match ← loadSubmission identity with
  | some record => return record
  | none => throw (.withoutState .invariantViolation absent)

def insertRow (record : StoredChainSubmission) : StoreTx σ Unit := do
  let db ← get
  refuse (!record.integersFit) (storageError "out of range integral type conversion attempted")
  refuse (violatesHashIndex db.submissions record)
    (storageError "UNIQUE constraint failed: chain_submissions.candidate_transaction_hash")
  set { db with submissions := db.submissions ++ [record] }

def persistMutable (record : StoredChainSubmission) : StoreTx σ Unit := do
  let db ← get
  refuse (!record.integersFit) (storageError "out of range integral type conversion attempted")
  refuse (violatesHashIndex db.submissions record)
    (storageError "UNIQUE constraint failed: chain_submissions.candidate_transaction_hash")
  set { db with
    submissions := SqlTable.replace StoredChainSubmission.identity
      { record with diagnostic := record.diagnosticColumns } db.submissions }

def deleteRow (identity : ChainSubmissionIdentity) : StoreTx σ Unit := do
  let db ← get
  set { db with submissions := SqlTable.delete StoredChainSubmission.identity identity db.submissions }

variable (T : DomainTables σ)

def validateIdentityContext (domain : σ) (identity : ChainSubmissionIdentity) :
    Except VotingError Unit := do
  let network ← T.roundNetwork domain identity.roundId identity.walletId
  if network ≠ identity.network then
    throw (.invalidInput "chain submission identity network does not match the stored round")

def derive (request : SubmissionDerivationRequest) : StoreTx σ DerivedChainSubmission := do
  let db ← get
  let body : Except VotingError DerivedBody := do
    validateIdentityContext T db.domain request.identity
    T.deriveBody db.domain request
  let body ← liftM (body.mapError mapGenerationError)
  return ⟨⟨request.identity, body.digest⟩, body.request, body.expectedLayout,
    body.orderedProposalIds⟩

def ensureGeneration (record : StoredChainSubmission) (generation : ChainSubmissionGeneration) :
    StoreTx σ Unit :=
  refuse (record.identity != generation.identity || record.generationDigest != generation.digest)
    (.withDurableState .invalidInput record.durableState
      "stored submission belongs to a different semantic generation")

def abandonedDiagnostic : ChainSubmissionDiagnostic := .fromRedactedMessage .ambiguousDispatch
    "an unclassified submission reservation survived process interruption"

/-! ### Admission -/

inductive StoreAdmission where
  | noAuthoritativeState
  | authoritative (record : StoredChainSubmission)
  | ready (derived : DerivedChainSubmission) (record : StoredChainSubmission)
      (freshReservation : Bool)

/-- Applies one observation to a loaded record, keeping the row. -/
def observe (record : StoredChainSubmission) (observation : SubmissionObservation)
    (removed : String) : Except ChainSubmissionFailure StoredChainSubmission :=
  match applySubmissionObservation (some record.state) observation with
  | .error error => .error (transitionFailure record.durableState error.toText)
  | .ok none => .error (transitionFailure record.durableState removed)
  | .ok (some state) => .ok { record with state := state }

def normalizeAbandoned (record : StoredChainSubmission) (now : Nat) :
    StoreTx σ StoredChainSubmission :=
  mapFailure possibleDispatchError do
    let observed ← liftM (observe record (.abandonedSubmitting abandonedDiagnostic)
      "abandoned reservation normalization removed the durable row")
    let settled : StoredChainSubmission :=
      { observed with
        diagnostic := match observed.state with
          | .recovering _ diagnostic => some diagnostic
          | _ => none
        updatedAt := max now observed.updatedAt }
    persistMutable settled
    return settled

variable (request : StoreAdvancementRequest)

def deriveVerified : StoreTx σ DerivedChainSubmission := do
  let derived ← derive T request.derivation
  liftM (request.verifyBatchRoster derived.orderedProposalIds)
  return derived

/-- Admission of a request whose row exists and is not `submitting`. -/
def admitExisting (record : StoredChainSubmission) : StoreTx σ StoreAdmission := do
  let derived ← mapFailure (ChainSubmissionFailure.attachState record.durableState)
    (deriveVerified T request)
  ensureGeneration record derived.generation
  return if record.state.isTerminal then .authoritative record else .ready derived record false

/-- A combined batch needs a delegation with no chain evidence of any kind. -/
def refuseOccupiedCombined (identity : ChainSubmissionIdentity) : StoreTx σ Unit := do
  let db ← get
  if identity.target.isCombined then
    match T.delegationRecorded db.domain identity.roundId identity.walletId identity.bundleIndex with
    | none => throw (storageError "Query returned no rows")
    | some recorded =>
      refuse (recorded || hasBundleSubmission db.submissions identity)
        (.withoutState .invalidInput "combined admission requires a fresh delegation")
  else pure ()

/-- The refusals of a fresh reservation, in the order `admitSubmission` makes them. -/
def refuseOccupiedBundle (identity : ChainSubmissionIdentity) : StoreTx σ Unit := do
  refuseOccupiedCombined T identity
  let db ← get
  refuse (identity.target == .delegation && T.combinedRecoveryExists db.domain identity.roundId
      identity.walletId identity.bundleIndex)
    (.withoutState .invalidInput "persisted combined recovery owns this delegation")
  refuse (hasUnresolvedPredecessor db.submissions identity) (.withoutState .invalidInput
      "another submission for this bundle has not established an authoritative successor")
  refuse (identity.target == .delegation && hasConfirmedCast db.submissions identity)
    (.withoutState .invalidInput "a confirmed vote already succeeds this bundle's delegation")

/-- Adopts the hash of a capability-imported delegation. -/
def admitImported (now : Nat) : StoreTx σ StoreAdmission := do
  let derived ← derive T request.derivation
  match derived.importedCandidate with
  | none => throw (.withoutState .invariantViolation
      "imported delegation derivation omitted its transaction hash")
  | some candidate =>
    let db ← get
    refuse (hashOwned db.submissions candidate) (.withoutState .invalidInput
        "imported delegation transaction hash belongs to another submission")
    let record := StoredChainSubmission.adoptedImportedDelegation derived.generation candidate now
    insertRow record
    return .ready derived record false

/-- A batch is derived before the refusals, every other request after them. -/
def deriveBatchFirst : StoreTx σ Unit :=
  if request.isBatch then do
    let _ ← deriveVerified T request
    return ()
  else pure ()

def admitAbsent (reservationOrdinal now : Nat) : StoreTx σ StoreAdmission := do
  deriveBatchFirst T request
  refuseOccupiedBundle T request.identity
  if request.isImportedDelegation then
    admitImported T request now
  else
    let derived ← deriveVerified T request
    let record := StoredChainSubmission.fresh derived.generation reservationOrdinal now
    insertRow record
    return .ready derived record true

def admitSubmission (workAllowed : Bool) (reservationOrdinal now : Nat) :
    StoreTx σ StoreAdmission := do
  liftM request.validateTarget
  match ← loadSubmission request.identity with
  | some record =>
    if record.state = .submitting then
      return .authoritative (← normalizeAbandoned record now)
    else if workAllowed then admitExisting T request record
    else return .authoritative record
  | none => if workAllowed then admitAbsent T request reservationOrdinal now
            else return .noAuthoritativeState

/-! ### Reservations and observations -/

variable (generation : ChainSubmissionGeneration)

def removeFreshReservation : StoreTx σ Unit := do
  let record ← requireSubmission generation.identity "fresh reservation disappeared"
  ensureGeneration record generation
  refuse (record.state ≠ .submitting) (.withDurableState .invariantViolation record.durableState
      "only a fresh Submitting reservation can be removed")
  deleteRow generation.identity

/-- The hash of an accepted POST, unless another generation owns it. -/
def resolveObservation (rows : List StoredChainSubmission) (identity : ChainSubmissionIdentity)
    (observation : SubmissionObservation) : SubmissionObservation :=
  match observation with
  | .usableCandidateHash candidate =>
    if hashOwnedElsewhere rows identity candidate then
      .possiblyDispatched (.fromRedactedMessage .invalidProtocolResponse
        "vote-chain returned a transaction hash owned by another semantic generation")
    else .usableCandidateHash candidate
  | observation => observation

def applyObservation (observation : SubmissionObservation)
    (diagnostic : Option ChainSubmissionDiagnostic)
    (now : Nat) : StoreTx σ StoredChainSubmission := do
  let record ← requireSubmission generation.identity
    "submission disappeared during lifecycle transition"
  ensureGeneration record generation
  let db ← get
  let observed ← liftM (observe record (resolveObservation db.submissions generation.identity observation)
    "transition unexpectedly removed durable row")
  let settled := observed.settleAfterTransition record.durableState diagnostic now
  if settled.retiresCombinedGeneration record.durableState then
    match settled.diagnostic with
    | none => throw (transitionFailure record.durableState "a rejected row carries its diagnostic")
    | some cause =>
      let domain ← liftM ((T.retireRejectedCombinedGeneration db.domain generation.identity cause
        settled.updatedAt).mapError mapGenerationError)
      set { db with domain := domain }
      deleteRow generation.identity
      return settled
  else
    persistMutable settled
    return settled

def classifyPost (observation : SubmissionObservation) (now : Nat) :
    StoreTx σ StoredChainSubmission :=
  applyObservation T generation observation none now

def reconcile (observation : SubmissionObservation) (diagnostic : Option ChainSubmissionDiagnostic)
    (now : Nat) : StoreTx σ StoredChainSubmission :=
  applyObservation T generation observation diagnostic now

def reserveAmbiguousRetry (now : Nat) : StoreTx σ StoredChainSubmission := do
  let record ← requireSubmission generation.identity
    "submission disappeared before ambiguous retry reservation"
  ensureGeneration record generation
  refuse (!record.state.permitsAmbiguousRetry) (.withDurableState .invariantViolation record.durableState
      "ambiguous retry requires a hashless possibly-dispatched recovery row")
  refuse (decide (record.committedPostReservations + 1 > i64Max))
    (.withDurableState .invariantViolation .recovering "submission reservation counter overflowed")
  let reserved :=
    { record with
      committedPostReservations := record.committedPostReservations + 1
      updatedAt := max now record.updatedAt }
  persistMutable reserved
  return reserved

/-- Proof that one pass scanned a complete snapshot without finding the layout. -/
structure RecoveryRetryAuthorization where
  identity : ChainSubmissionIdentity
  generationDigest : Bytes32
  candidate : Option CandidateTransactionHash
  deriving DecidableEq

/-- A `recovering` row with the authorization's candidate, and its diagnostic. -/
def authorizedDiagnostic (authorization : RecoveryRetryAuthorization) :
    SubmissionRecordState → Option ChainSubmissionDiagnostic
  | .recovering candidate diagnostic =>
    if candidate = authorization.candidate then some diagnostic else none
  | _ => none

def reserveRecoveryRetry
    (authorization : RecoveryRetryAuthorization) (now : Nat) : StoreTx σ StoredChainSubmission := do
  refuse (request.identity ≠ authorization.identity)
    (.withoutState .invalidInput "recovery request does not match its authorization identity")
  let record ← requireSubmission authorization.identity
    "submission disappeared before recovery retry reservation"
  refuse (record.generationDigest ≠ authorization.generationDigest)
    (.withDurableState .invalidInput record.durableState
      "recovery authorization belongs to a different generation")
  let derived ← mapFailure (ChainSubmissionFailure.attachState record.durableState)
    (deriveVerified T request)
  ensureGeneration record derived.generation
  match authorizedDiagnostic authorization record.state with
  | none => throw (.withDurableState .invariantViolation record.durableState
      "recovery authorization no longer matches durable state")
  | some diagnostic =>
    refuse (decide (record.committedPostReservations + 1 > i64Max))
      (.withDurableState .invariantViolation .recovering "recovery reservation counter overflowed")
    -- The candidate is retired; the stored diagnostic is left as it was.
    let reserved :=
      { record with
        state := .recovering none diagnostic
        committedPostReservations := record.committedPostReservations + 1
        updatedAt := max now record.updatedAt }
    persistMutable reserved
    return reserved

/-! ### Confirmation -/

inductive ConfirmationCommit where
  | interrupted (record : StoredChainSubmission)
  | confirmed (record : StoredChainSubmission)

/-- The shared body of the two confirmations: `absent` and `changed` are the texts of
the member's failures, `rosterChecked` whether it checks the batch roster, `validate`
its evidence, and `commitAllowed` the host's answer just before validation. -/
def confirmGeneration (expected : ChainSubmissionGeneration) (absent changed : String)
    (rosterChecked : Bool)
    (validate : DerivedChainSubmission → Except String ValidatedChainSubmissionConfirmation)
    (commitAllowed : Bool) (now : Nat) : StoreTx σ ConfirmationCommit := do
  let record ← requireSubmission expected.identity absent
  ensureGeneration record expected
  let derived ← mapFailure (ChainSubmissionFailure.attachState record.durableState)
    (if rosterChecked then deriveVerified T request else derive T request.derivation)
  refuse (derived.generation ≠ expected) (.withDurableState .invalidInput record.durableState changed)
  if commitAllowed then
    let confirmation ← liftM ((validate derived).mapError
      (ChainSubmissionFailure.withDurableState .protocol record.durableState))
    let observed ← liftM (observe record (.confirmed confirmation)
      "confirmation remains durable")
    let settled := { observed with diagnostic := none, updatedAt := max now observed.updatedAt }
    let db ← get
    let domain ← liftM ((T.applyConfirmedGeneration db.domain derived confirmation).mapError mapGenerationError)
    set { db with domain := domain }
    persistMutable settled
    return .confirmed settled
  else return .interrupted record

def confirmCommitted (expected : ChainSubmissionGeneration) (candidate : CandidateTransactionHash)
    (events : List TxEvent) (commitAllowed : Bool) (now : Nat) : StoreTx σ ConfirmationCommit :=
  confirmGeneration T request expected "submission disappeared before confirmation"
    "semantic generation changed before confirmation" false
    (fun derived =>
      if request.isImportedDelegation then
        T.validateImportedDelegationConfirmation derived candidate events
      else T.validateHashConfirmation derived candidate events)
    commitAllowed now

def confirmTree (expected : ChainSubmissionGeneration) (finalVanPosition : Nat)
    (positions : List Nat) (commitAllowed : Bool) (now : Nat) : StoreTx σ ConfirmationCommit :=
  confirmGeneration T request expected "submission disappeared before tree confirmation"
    "semantic generation changed before tree confirmation" true
    (fun _ => ValidatedChainSubmissionConfirmation.fromTree finalVanPosition positions)
    commitAllowed now

end ZcashVoting.ChainSubmission
