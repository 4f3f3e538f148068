import ZcashVoting.Voting.Tables
import ZcashVoting.ChainSubmission.Sqlite

/-!
# Preparing and persisting votes

A vote is prepared from the database in several short reads, proved and signed outside
any transaction, and persisted in one write transaction that compares what it was
prepared from with the current rows. Other connections may commit between two reads,
so each read of a preparation has its own database here.

The proof builder, the authority transition, the hashes and the signatures belong to
other crates. `VotingCrypto` names them with the two facts used of them: a transition,
and so a proof, spends the bit of the voted proposal, which must be set.
-/
namespace ZcashVoting.Voting

open ChainSubmission RoundPlanning KeyedData

/-- The database of one round's voting tables and the chain submissions. -/
abbrev VotingDb (J : Type) := ChainDb (RoundTables J)

/-! ### External functions -/

/-- What fixes the vote authority notes of a bundle. -/
structure AuthorityKey where
  hotkeySeed : List UInt8
  network : Network
  (addressIndex totalNoteValue : Nat)
  govCommRand : List UInt8
  votingRoundId : String
  deriving DecidableEq

structure VoteAuthorityTransitionPlan where
  (voteAuthorityNoteOld voteAuthorityNoteNew : Bytes32)
  (proposalAuthorityOld proposalAuthorityNew : AuthorityMask)
  deriving DecidableEq

structure VoteProofInputs where
  key : AuthorityKey
  eaPk : List UInt8
  (proposalId choice numOptions : Nat)
  vanAuthPath : List Bytes32
  (vanPosition anchorHeight : Nat)
  proposalAuthority : AuthorityMask
  singleShare : Bool
  deriving DecidableEq

/-- What a vote proof yields. -/
structure VoteCommitmentBundle where
  (vanNullifier voteAuthorityNoteNew voteCommitment : Bytes32)
  proof : List UInt8
  encShares : List Nat
  shareBlinds : List Bytes32
  rVpk : Bytes32
  sealed : List UInt8
  deriving DecidableEq

structure VotingCrypto (J : Type) where
  /-- The vote authority note of a mask. -/
  authorityNote : AuthorityKey → AuthorityMask → Bytes32
  /-- `derive_vote_authority_transition` -/
  deriveVoteAuthorityTransition : AuthorityKey → Nat → AuthorityMask →
    Except VotingError VoteAuthorityTransitionPlan
  /-- `build_vote_proof_from_delegation` -/
  buildVoteProof : VoteProofInputs → Except VotingError VoteCommitmentBundle
  buildSharePayloads : VoteCommitmentBundle → DraftVote → Except VotingError Unit
  /-- Signs a vote, alone or under a batch digest, and returns the stored material. -/
  signCastVote : List UInt8 → Option Bytes32 → VoteCommitmentBundle →
    Except VotingError (List UInt8)
  singleLeafAuthPath : Bytes32 → Except VotingError (List Bytes32)
  sighash : BatchSighash
  /-- `generation_for_delegation`: the digest of a bundle's delegation setup. -/
  delegationGeneration : RoundTables J → Nat → Except VotingError Bytes32
  transition_spends : ∀ {key proposalId authority plan},
    deriveVoteAuthorityTransition key proposalId authority = .ok plan →
    authority.getLsbD proposalId = true ∧
      plan = ⟨authorityNote key authority, authorityNote key (clearProposal authority proposalId),
        authority, clearProposal authority proposalId⟩
  proof_spends : ∀ {inputs bundle}, buildVoteProof inputs = .ok bundle →
    inputs.proposalAuthority.getLsbD inputs.proposalId = true

/-! ### Drafts -/

def validateDraftVote (draft : DraftVote) : Except VotingError Unit := do
  validateProposalId draft.proposalId
  validateVoteDecision draft.choice draft.numOptions

def admitDraft (seen : List Nat) (draft : DraftVote) : Except VotingError (List Nat) := do
  validateDraftVote draft
  if seen.contains draft.proposalId then
    throw (.invalidInput s!"draft_votes contains duplicate proposal_id {draft.proposalId}")
  else return draft.proposalId :: seen

def validateDraftVotes (drafts : List DraftVote) : Except VotingError Unit :=
  if drafts.isEmpty then .error (.invalidInput "draft_votes must not be empty")
  else (drafts.foldlM admitDraft []).map fun _ => ()

def maxVoteBatchActions : Nat := maxProposalId

def validateAtomicVoteBatch (drafts : List DraftVote) : Except VotingError Unit :=
  if maxVoteBatchActions < drafts.length then
    .error (.invalidInput s!"atomic vote batch must contain at most {maxVoteBatchActions} actions, got {drafts.length}")
  else validateDraftVotes drafts

def recoveryMatchesDraft (recovery : VoteRecoveryBundle) (draft : DraftVote) : Bool :=
  recovery.voteDecision = draft.choice && recovery.numOptions = draft.numOptions &&
    recovery.singleShare = draft.singleShare && recovery.vcTreePosition = draft.vcTreePosition

def batchMemberError : VotingError :=
  .invalidInput "vote belongs to an atomic batch; use the complete batch lifecycle instead of a per-vote API"

def ensureSingletonVoteRecovery (recovery : VoteRecoveryBundle) : Except VotingError Unit :=
  if recovery.batch.isSome then .error batchMemberError else .ok ()

/-- The part of `commit_from_recovery` that may fail. -/
def commitFromRecovery (recovery : VoteRecoveryBundle) : Except VotingError Unit :=
  (recoverPayloads recovery).map fun _ => ()

/-! ### Prepared votes -/

/-- What a prepared vote was prepared from. -/
inductive CapturedVoteState (J : Type) where
  | recovered (row : VoteRow J)
  | fresh (state : VotePreparationState J)

structure PreparedVoteCommit (J : Type) where
  walletId : String
  bundleIndex : Nat
  draft : DraftVote
  recovery : VoteRecoveryBundle
  captured : CapturedVoteState J

def PreparedVoteCommit.isFresh {J : Type} (vote : PreparedVoteCommit J) : Bool :=
  match vote.captured with
  | .fresh _ => true
  | .recovered _ => false

structure VanWitness where
  authPath : List Bytes32
  (position anchorHeight : Nat)

variable {J : Type} [DecidableEq J] (codec : RecoveryCodec J) (crypto : VotingCrypto J)

/-- `{:?}` of an optional number. -/
def debugOption : Option Nat → String
  | none => "None"
  | some n => s!"Some({n})"

def debugNetwork : Network → String
  | .mainnet => "Mainnet"
  | .testnet => "Testnet"
  | .regtest => "Regtest"

variable (t : RoundTables J)

def requireRoundNetwork (network : Network) : Except VotingError Unit :=
  if network ≠ t.network then
    .error (.invalidInput s!"vote signer network {debugNetwork network} does not match stored round network {debugNetwork t.network}")
  else .ok ()

/-- The ballot does not record another decision than the draft's. -/
def requireBallotIntent (b : Nat) (intent : Option Decision) (draft : DraftVote) :
    Except VotingError Unit :=
  if intent.any (· ≠ .choice draft.choice) then
    .error (.invalidInput s!"vote draft conflicts with current ballot intent for {t.place b draft.proposalId}")
  else .ok ()

def authorityKey (secret : List UInt8) (state : VotePreparationState J) : AuthorityKey :=
  ⟨secret, state.network, state.zkp2.addressIndex, state.zkp2.totalNoteValue,
    state.zkp2.govCommRand, state.zkp2.votingRoundId⟩

def vanAuthPathLen : Nat := 24

/-- `build_vote_commitment`: checks around the external proof. -/
def buildVoteCommitment (inputs : VoteProofInputs) : Except VotingError VoteCommitmentBundle := do
  validateVoteDecision inputs.choice inputs.numOptions
  if ¬(minProposalId ≤ inputs.proposalId ∧ inputs.proposalId ≤ maxProposalId) then
    throw (.invalidInput s!"proposal_id must be {minProposalId}..={maxProposalId} (1-indexed, matching on-chain IDs; 0 is the circuit sentinel), got {inputs.proposalId}")
  else if inputs.vanAuthPath.length ≠ vanAuthPathLen then
    throw (.invalidInput s!"van_auth_path must have {vanAuthPathLen} siblings, got {inputs.vanAuthPath.length}")
  else crypto.buildVoteProof inputs

def proofInputs (secret : List UInt8) (state : VotePreparationState J) (draft : DraftVote)
    (authPath : List Bytes32) (position anchorHeight : Nat) (authority : AuthorityMask) :
    VoteProofInputs :=
  ⟨authorityKey secret state, state.zkp2.eaPk, draft.proposalId, draft.choice, draft.numOptions,
    authPath, position, anchorHeight, authority, draft.singleShare⟩

/-- `VoteRecoveryBundle::from_parts` -/
def recoveryFromParts (b : Nat) (draft : DraftVote) (roundId : String) (anchorHeight : Nat)
    (bundle : VoteCommitmentBundle) (sealed : List UInt8) : VoteRecoveryBundle where
  voteRoundId := roundId
  bundleIndex := b
  proposalId := draft.proposalId
  voteDecision := draft.choice
  numOptions := draft.numOptions
  anchorHeight := anchorHeight
  vcTreePosition := draft.vcTreePosition
  singleShare := draft.singleShare
  vanNullifier := bundle.vanNullifier
  voteAuthorityNoteNew := bundle.voteAuthorityNoteNew
  voteCommitment := bundle.voteCommitment
  proof := bundle.proof
  rVpk := bundle.rVpk
  sealed := sealed
  encryptedShares := bundle.encShares
  shareBlinds := bundle.shareBlinds
  batch := none

/-! ### One vote -/

/-- The reads of one preparation, in order. -/
structure CommitReads (J : Type) where
  (network recovered capability rebuild captured : RoundTables J)

/-- The first read: a stored vote that already is the draft is returned as it is. -/
def recoverCommit (b : Nat) (draft : DraftVote) :
    Except VotingError (Option (PreparedVoteCommit J)) := do
  match ← t.recoveryBundle codec b draft.proposalId with
  | none =>
    t.ensureNoCompetingPendingVoteChain b [draft.proposalId]
    return none
  | some recovery =>
    ensureSingletonVoteRecovery recovery
    if recoveryMatchesDraft recovery draft then
      match t.vote? b draft.proposalId with
      | none => throw (t.voteNotFound b draft.proposalId)
      | some row =>
        commitFromRecovery recovery
        return some ⟨t.walletId, b, draft, recovery, .recovered row⟩
    else
      t.ensureNoCompetingPendingVoteChain b [draft.proposalId]
      return none

/-- `prepare_vote_commitment`: captures the state and proves the vote on it. -/
def prepareVoteCommitment (secret : List UInt8) (network : Network) (t : RoundTables J) (b : Nat)
    (draft : DraftVote) (witness : VanWitness) :
    Except VotingError (VotePreparationState J × VoteCommitmentBundle) := do
  requireRoundNetwork t network
  let state ← t.loadVotePreparationState b draft.proposalId
  if some witness.position ≠ state.vanPosition then
    throw (.invalidInput s!"VAN witness position {witness.position} does not match current bundle position {debugOption state.vanPosition} for round={t.roundId}, bundle={b}")
  else
    requireBallotIntent t b state.ballotIntent draft
    let bundle ← buildVoteCommitment crypto (proofInputs secret state draft witness.authPath
      witness.position witness.anchorHeight state.zkp2.proposalAuthority)
    return (state, bundle)

def prepareCommit (secret : List UInt8) (network : Network) (reads : CommitReads J) (b : Nat)
    (draft : DraftVote) (witness : VanWitness) : Except VotingError (PreparedVoteCommit J) := do
  validateDraftVote draft
  requireRoundNetwork reads.network network
  match ← recoverCommit codec reads.recovered b draft with
  | some prepared => return prepared
  | none =>
    reads.capability.requireCapabilityDelegationsConfirmed
    reads.rebuild.ensureVoteRebuildAllowed b draft.proposalId
    let (state, bundle) ← prepareVoteCommitment crypto secret network reads.captured b draft witness
    crypto.buildSharePayloads bundle draft
    let sealed ← crypto.signCastVote secret none bundle
    return ⟨reads.captured.walletId, b, draft,
      recoveryFromParts b draft state.zkp2.votingRoundId witness.anchorHeight bundle sealed,
      .fresh state⟩

/-! ### An atomic batch -/

structure DelegationAuthorization where
  (walletId roundId : String)
  bundleIndex : Nat
  generationDigest : Bytes32
  signature : List UInt8
  van : Bytes32

structure AtomicVoteBatch where
  bundleIndex : Nat
  drafts : List DraftVote
  witness : VanWitness
  delegation : Option DelegationAuthorization

structure PreparedAtomicVoteBatch (J : Type) where
  delegation : Option DelegationAuthorization
  walletId : String
  bundleIndex : Nat
  commitments : List (PreparedVoteCommit J)

structure BatchReads (J : Type) where
  (bundleCount network captured capability : RoundTables J)
  authorization : VotingDb J
  rebuild : RoundTables J

/-- A submission row of the bundle exists. -/
def bundleSubmitted (db : VotingDb J) (b : Nat) : Bool :=
  db.submissions.any fun row => row.identity.roundId = db.domain.roundId &&
    row.identity.walletId = db.domain.walletId && row.identity.bundleIndex = b

/-- The delegation has no chain evidence and is the generation that was signed. -/
def DelegationAuthorization.validateFresh (authorization : DelegationAuthorization)
    (db : VotingDb J) : Except VotingError Unit :=
  match db.domain.bundles.get? authorization.bundleIndex with
  | none => .error (.storage "load combined delegation eligibility: Query returned no rows")
  | some bundle =>
    if bundle.delegationTxHash.isSome || bundle.vanLeafPosition.isSome ||
        bundleSubmitted db authorization.bundleIndex then
      .error (.invalidInput "combined preparation requires a delegation with no chain submission evidence")
    else do
      let current ← crypto.delegationGeneration db.domain authorization.bundleIndex
      if current ≠ authorization.generationDigest then
        throw (.invalidInput "delegation changed during combined preparation")
      else return ()

/-- The digest every recovered member must share, member by member. -/
def recoverMember (drafts : Nat) (digest : Option Bytes32)
    (member : (DraftVote × VoteRecoveryBundle) × Nat) : Except VotingError (Option Bytes32) :=
  let ((draft, recovery), index) := member
  if !recoveryMatchesDraft recovery draft then
    .error (.invalidInput s!"persisted vote recovery does not match the requested draft for proposal {draft.proposalId}")
  else
    match recovery.batch with
    | none => .error (.invalidInput s!"persisted proposal {draft.proposalId} is a legacy singleton, not an atomic vote batch")
    | some metadata =>
      if metadata.delegationVan.isSome then
        .error (.invalidInput "combined batch is already persisted; use recover_delegate_and_vote_batch")
      else if metadata.index ≠ index || metadata.size ≠ drafts then
        .error (.invalidInput s!"persisted vote batch order is inconsistent at proposal {draft.proposalId}")
      else if digest.any (· ≠ metadata.digest) then
        .error (.invalidInput "persisted vote batch actions have different digests")
      else (commitFromRecovery recovery).map fun _ => some metadata.digest

/-- The prepared vote of a stored row. -/
def recoveredVote (b : Nat) (member : DraftVote × VoteRecoveryBundle) :
    Except VotingError (PreparedVoteCommit J) :=
  match t.vote? b member.1.proposalId with
  | none => .error (t.voteNotFound b member.1.proposalId)
  | some row => .ok ⟨t.walletId, b, member.1, member.2, .recovered row⟩

def prepareRecoveredVoteBatch (b : Nat) (members : List (DraftVote × VoteRecoveryBundle)) :
    Except VotingError (PreparedAtomicVoteBatch J) := do
  let commitments ← members.mapM (recoveredVote t b)
  let digest ← members.zipIdx.foldlM (recoverMember members.length) none
  match members with
  | [] => throw (.internal "cannot hash an empty prepared vote batch")
  | (_, first) :: _ =>
    let recomputed ← crypto.sighash.castVoteBatch t.roundId first.anchorHeight
      (members.map fun member => member.2.sighashAction)
    if some recomputed ≠ digest then
      throw (.invalidInput "persisted vote batch digest does not match its ordered actions")
    else return ⟨none, t.walletId, b, commitments⟩

/-- The members agree on everything but their own ballot, which each draft follows. -/
def validateCapturedMember (b : Nat) (network : Network)
    (first : VotePreparationState J) (member : DraftVote × VotePreparationState J) :
    Except VotingError Unit :=
  if member.2.network ≠ network || member.2.zkp2 ≠ first.zkp2 ||
      member.2.vanPosition ≠ first.vanPosition then
    .error (.invalidInput s!"vote batch state is inconsistent for {t.place b member.1.proposalId}")
  else requireBallotIntent t b member.2.ballotIntent member.1

def validateCapturedBatchState (batch : AtomicVoteBatch) (network : Network)
    (first : VotePreparationState J) (members : List (DraftVote × VotePreparationState J)) :
    Except VotingError Unit :=
  let expectedPosition := if batch.delegation.isSome then none else some batch.witness.position
  if first.vanPosition ≠ expectedPosition then
    .error (.invalidInput s!"VAN witness position {batch.witness.position} does not match current bundle position {debugOption first.vanPosition} for round={t.roundId}, bundle={batch.bundleIndex}")
  else members.forM (validateCapturedMember t batch.bundleIndex network first)

/-- One action of a batch before its proof. -/
structure BatchProofPlan (J : Type) where
  draft : DraftVote
  state : VotePreparationState J
  authPath : List Bytes32
  position : Nat
  transition : VoteAuthorityTransitionPlan

namespace BatchProofPlan

def proposalAuthority (plan : BatchProofPlan J) : AuthorityMask :=
    plan.transition.proposalAuthorityOld

def expectedNewVan (plan : BatchProofPlan J) : Bytes32 := plan.transition.voteAuthorityNoteNew

end BatchProofPlan

/-- The authority left for the next action, and the plans so far. -/
structure BatchPlanning (J : Type) where
  authority : AuthorityMask
  plans : List (BatchProofPlan J)

/-- The path of an action's old note: the witness for the first action, and for a later
one the path in a tree that holds only the note its predecessor made. -/
def actionAuthPath (batch : AtomicVoteBatch) (index : Nat) (noteOld : Bytes32) :
    Except VotingError (List Bytes32) :=
  if index = 0 then .ok batch.witness.authPath else crypto.singleLeafAuthPath noteOld

def planAction (secret : List UInt8) (batch : AtomicVoteBatch) (st : BatchPlanning J)
    (member : (DraftVote × VotePreparationState J) × Nat) :
    Except VotingError (BatchPlanning J) := do
  let ((draft, state), index) := member
  let transition ← crypto.deriveVoteAuthorityTransition
    (authorityKey secret state) draft.proposalId st.authority
  if index = 0 && batch.delegation.any (·.van ≠ transition.voteAuthorityNoteOld) then
    throw (.invalidInput "initial cast VAN does not match the delegation")
  else
    let authPath ← actionAuthPath crypto batch index transition.voteAuthorityNoteOld
    let position := if index = 0 then batch.witness.position else 0
    return ⟨transition.proposalAuthorityNew, st.plans ++ [⟨draft, state, authPath, position, transition⟩]⟩

def planBatch (secret : List UInt8) (batch : AtomicVoteBatch) (first : VotePreparationState J)
    (members : List (DraftVote × VotePreparationState J)) :
    Except VotingError (List (BatchProofPlan J)) := do
  let planned ← members.zipIdx.foldlM (planAction crypto secret batch)
    ⟨first.zkp2.proposalAuthority, []⟩
  return planned.plans

def buildBatchProof (secret : List UInt8) (anchorHeight : Nat) (plan : BatchProofPlan J) :
    Except VotingError VoteCommitmentBundle := do
  let bundle ← buildVoteCommitment crypto (proofInputs secret plan.state plan.draft plan.authPath
    plan.position anchorHeight plan.proposalAuthority)
  if bundle.voteAuthorityNoteNew ≠ plan.expectedNewVan then
    throw (.internal s!"proof output disagrees with preplanned authority transition for proposal {plan.draft.proposalId}")
  else return bundle

def sighashActionOf (draft : DraftVote) (bundle : VoteCommitmentBundle) : SighashAction :=
  ⟨bundle.rVpk, bundle.vanNullifier, bundle.voteAuthorityNoteNew, bundle.voteCommitment,
    draft.proposalId⟩

def batchDigest (batch : AtomicVoteBatch) (actions : List SighashAction) :
    Except VotingError Bytes32 :=
  match batch.delegation with
  | some authorization => crypto.sighash.delegateAndVoteBatch t.roundId authorization.van actions
  | none => crypto.sighash.castVoteBatch t.roundId batch.witness.anchorHeight actions

def signMember (secret : List UInt8) (t : RoundTables J) (batch : AtomicVoteBatch)
    (digest : Bytes32) (member : (BatchProofPlan J × VoteCommitmentBundle) × Nat) :
    Except VotingError (PreparedVoteCommit J) := do
  let ((plan, bundle), index) := member
  crypto.buildSharePayloads bundle plan.draft
  let sealed ← crypto.signCastVote secret (some digest) bundle
  let recovery : VoteRecoveryBundle :=
    { recoveryFromParts batch.bundleIndex plan.draft plan.state.zkp2.votingRoundId
        batch.witness.anchorHeight bundle sealed with
      batch := some ⟨batch.delegation.map DelegationAuthorization.van, digest, index,
        batch.drafts.length⟩ }
  commitFromRecovery recovery
  return ⟨t.walletId, batch.bundleIndex, plan.draft, recovery, .fresh plan.state⟩

/-- A combined batch needs a fresh delegation, a standalone one a chain anchor. -/
def requireBatchAuthorization (db : VotingDb J) (batch : AtomicVoteBatch) :
    Except VotingError Unit :=
  match batch.delegation with
  | some authorization => authorization.validateFresh crypto db
  | none =>
    if batch.witness.anchorHeight = 0 then
      .error (.invalidInput "standalone batches require a chain anchor")
    else .ok ()

/-- The fresh votes of a batch whose rows were captured. -/
def prepareFreshBatch (secret : List UInt8) (network : Network) (reads : BatchReads J)
    (batch : AtomicVoteBatch) (first : VotePreparationState J)
    (members : List (DraftVote × VotePreparationState J)) :
    Except VotingError (PreparedAtomicVoteBatch J) := do
  reads.capability.requireCapabilityDelegationsConfirmed
  requireBatchAuthorization crypto reads.authorization batch
  batch.drafts.forM fun draft =>
    reads.rebuild.ensureVoteRebuildAllowed batch.bundleIndex draft.proposalId
  validateCapturedBatchState reads.captured batch network first members
  let plans ← planBatch crypto secret batch first members
  let bundles ← plans.mapM (buildBatchProof crypto secret batch.witness.anchorHeight)
  let digest ← batchDigest crypto reads.captured batch
    ((plans.zip bundles).map fun member => sighashActionOf member.1.draft member.2)
  let commitments ← (plans.zip bundles).zipIdx.mapM
    (signMember crypto secret reads.captured batch digest)
  return ⟨batch.delegation, reads.captured.walletId, batch.bundleIndex, commitments⟩

def prepareAtomicVoteBatch (secret : List UInt8) (network : Network) (reads : BatchReads J)
    (batch : AtomicVoteBatch) : Except VotingError (PreparedAtomicVoteBatch J) := do
  validateAtomicVoteBatch batch.drafts
  let count := reads.bundleCount.bundles.entries.length
  if ¬ batch.bundleIndex < count then
    throw (.invalidInput s!"bundle_index {batch.bundleIndex} is out of range for {count} voting bundles")
  else
    requireRoundNetwork reads.network network
    let recoveries ← batch.drafts.mapM fun draft =>
      reads.captured.recoveryBundle codec batch.bundleIndex draft.proposalId
    let found := recoveries.filterMap id
    if found.length ≠ 0 ∧ found.length ≠ recoveries.length then
      throw (.invalidInput "found a partial persisted vote batch; recover or clear the inconsistent local state before rebuilding")
    else if found.length = recoveries.length then
      prepareRecoveredVoteBatch crypto reads.captured batch.bundleIndex (batch.drafts.zip found)
    else
      reads.captured.ensureNoCompetingPendingVoteChain batch.bundleIndex
        (batch.drafts.map DraftVote.proposalId)
      let captured ← batch.drafts.mapM fun draft =>
        reads.captured.loadVotePreparationState batch.bundleIndex draft.proposalId
      match captured with
      | [] => throw (.internal "a validated batch has a draft")
      | first :: _ =>
        prepareFreshBatch crypto secret network reads batch first (batch.drafts.zip captured)

/-! ### Persistence -/

/-- The fields of a captured state in the order they are compared, each with whether it
changed. -/
def preparationChanges (captured current : VotePreparationState J) : List (String × Bool) :=
  [("round network", current.network ≠ captured.network),
    ("governance commitment randomness", current.zkp2.govCommRand ≠ captured.zkp2.govCommRand),
    ("delegated note value", current.zkp2.totalNoteValue ≠ captured.zkp2.totalNoteValue),
    ("delegation address index", current.zkp2.addressIndex ≠ captured.zkp2.addressIndex),
    ("encryption authority key", current.zkp2.eaPk ≠ captured.zkp2.eaPk),
    ("voting round identity", current.zkp2.votingRoundId ≠ captured.zkp2.votingRoundId),
    ("bundle VAN position", current.vanPosition ≠ captured.vanPosition),
    ("proposal-authority state", current.zkp2.proposalAuthority ≠ captured.zkp2.proposalAuthority),
    ("ballot intent", current.ballotIntent ≠ captured.ballotIntent),
    ("current vote state", current.vote ≠ captured.vote)]

def validatePreparedVoteState (b p : Nat) (captured current : VotePreparationState J) :
    Except VotingError Unit :=
  match (preparationChanges captured current).find? Prod.snd with
  | some (stale, _) => .error (.invalidInput s!"{stale} changed while preparing vote for {t.place b p}; recompute from current state")
  | none => .ok ()

def writeVote (b : Nat) (draft : DraftVote) (recovery : VoteRecoveryBundle) :
    Except VotingError (RoundTables J) := do
  let commitment := storedVoteCommitmentBytes recovery
  let json ← serializeRecovery codec recovery
  let stored ← t.storeVote b draft.proposalId draft.choice commitment
  stored.storeRecoveryJsonForVote b draft.proposalId draft.choice commitment json

def persistVote (vote : PreparedVoteCommit J) : Except VotingError (RoundTables J) :=
  match vote.captured with
  | .recovered row =>
    if t.vote? vote.bundleIndex vote.draft.proposalId ≠ some row then
      .error (.invalidInput s!"recovered vote state changed while preparing vote for {t.place vote.bundleIndex vote.draft.proposalId}; recover from current state")
    else .ok t
  | .fresh captured => do
    let current ← t.loadVotePreparationState vote.bundleIndex vote.draft.proposalId
    validatePreparedVoteState t vote.bundleIndex vote.draft.proposalId captured current
    writeVote codec t vote.bundleIndex vote.draft vote.recovery

/-- Every prepared vote belongs to the current wallet. -/
def requireWallet (vote : PreparedVoteCommit J) : Except VotingError Unit :=
  if t.walletId ≠ vote.walletId then
    .error (.invalidInput s!"wallet identity changed while preparing vote for {t.place vote.bundleIndex vote.draft.proposalId}; recompute for the current wallet")
  else .ok ()

def DelegationAuthorization.persist (authorization : DelegationAuthorization) (db : VotingDb J)
    (digest : Bytes32) : Except VotingError (VotingDb J) := do
  authorization.validateFresh crypto db
  let key := (authorization.bundleIndex, digest)
  if db.domain.authorizations.contains key then
    throw (.storage "persist combined delegation authorization: UNIQUE constraint failed")
  else return { db with domain := { db.domain with
    authorizations := db.domain.authorizations.set key
      ⟨authorization.generationDigest, authorization.signature⟩ } }

/-- The fresh votes must not compete with another pending chain of their bundle. -/
def refuseCompetingChains (prepared : List (PreparedVoteCommit J)) : Except VotingError Unit :=
  match prepared.find? PreparedVoteCommit.isFresh with
  | none => .ok ()
  | some first => t.ensureNoCompetingPendingVoteChain first.bundleIndex
      ((prepared.filter PreparedVoteCommit.isFresh).map fun vote => vote.draft.proposalId)

/-- `persist_prepared_commits`, the one write transaction. -/
def persistPreparedCommits (db : VotingDb J) (prepared : List (PreparedVoteCommit J))
    (delegation : Option DelegationAuthorization) : Except VotingError (VotingDb J) :=
  match prepared with
  | [] => .error (.internal "cannot persist an empty prepared vote set")
  | first :: _ => do
    prepared.forM (requireWallet db.domain)
    delegation.forM fun authorization => authorization.validateFresh crypto db
    refuseCompetingChains db.domain prepared
    let domain ← prepared.foldlM (persistVote codec) db.domain
    match delegation with
    | none => return { db with domain }
    | some authorization =>
      match first.recovery.batch with
      | none => throw (.internal "combined preparation lost its batch metadata")
      | some metadata => authorization.persist crypto { db with domain } metadata.digest

def persistPreparedCommit (db : VotingDb J) (prepared : PreparedVoteCommit J) :
    Except VotingError (VotingDb J) :=
  persistPreparedCommits codec crypto db [prepared] none

/-- The delegation and its votes share one storage identity. -/
def DelegationAuthorization.validateScope (authorization : DelegationAuthorization)
    (walletId roundId : String) (b : Nat) : Except VotingError Unit :=
  if authorization.walletId ≠ walletId || authorization.roundId ≠ roundId ||
      authorization.bundleIndex ≠ b then
    .error (.invalidInput "combined authorization does not match the vote batch storage identity")
  else .ok ()

def persistPreparedAtomicVoteBatch (db : VotingDb J) (prepared : PreparedAtomicVoteBatch J) :
    Except VotingError (VotingDb J) :=
  if prepared.commitments.any fun vote => vote.walletId ≠ prepared.walletId ||
      vote.bundleIndex ≠ prepared.bundleIndex then
    .error (.internal "prepared vote batch contains mismatched storage identities")
  else do
    prepared.delegation.forM fun authorization =>
      authorization.validateScope prepared.walletId db.domain.roundId prepared.bundleIndex
    persistPreparedCommits codec crypto db prepared.commitments prepared.delegation

end ZcashVoting.Voting
