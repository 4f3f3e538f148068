import ZcashVoting.Delegation.Setup
import ZcashVoting.Generation.Preimage
import ZcashVoting.Lib.Text
import ZcashVoting.NoteBundling.Policy
import ZcashVoting.Voting.Confirmation

/-!
# Deriving generations from the tables

A generation is derived again from the durable rows each time it is needed. Every column
is checked as it is read; a vote is checked against its row, and a batch as a whole.
What is derived is of the kind its identity names, and the authorization of a batch is
fixed by that kind, so equal byte strings come from equal generations.
-/
namespace ZcashVoting.Generation

open Bytes ChainSubmission RoundPlanning Voting Delegation KeyedData List BoundInputs

/-- The tables of one round of one wallet. -/
structure GenerationTables (J : Type) where
  voting : RoundTables J
  delegation : DelegationTables

/-- One semantic generation and the layout it must produce. -/
structure BoundGeneration where
  identity : ChainSubmissionIdentity
  inputs : BoundInputs
  expectedLayout : ExpectedTreeLayout
  orderedProposalIds : List Nat

def BoundGeneration.hashedBytes (generation : BoundGeneration) : Transcript.Emitted :=
  preimage generation.identity generation.inputs

/-! ### Columns -/

def checkedBlob32 (value : Blob) (field : String) : Except VotingError Bytes32 :=
  if h : value.length = 32 then .ok ⟨value.toArray, h⟩
  else .error (.internal s!"stored {field} must be 32 bytes, got {value.length}")

/-- An element of a blob cut into chunks of 32 bytes. -/
def chunk32 (message : String) (chunk : Blob) : Except VotingError Bytes32 :=
  if h : chunk.length = 32 then .ok ⟨chunk.toArray, h⟩ else .error (.internal message)

def checkedBlob32Sequence (value : Blob) (field : String) : Except VotingError (List Bytes32) :=
  if value.length % 32 ≠ 0 then
    .error (.internal s!"stored {field} length must be a multiple of 32, got {value.length}")
  else (chunksExact 32 value).mapM (chunk32 s!"stored {field} element must be 32 bytes")

def checkedNotePositions (value : Blob) : Except VotingError (List Nat) :=
  if value.length % 8 ≠ 0 then
    .error (.internal s!"stored note_positions length must be a multiple of 8, got {value.length}")
  else (chunksExact 8 value).mapM fun chunk =>
    if chunk.length = 8 then .ok (ofLeBytes chunk)
    else .error (.internal "stored note position must be 8 bytes")

def checkedPaddedNoteSecrets (value : Blob) : Except VotingError (List (Bytes32 × Bytes32)) :=
  if value.length % 64 ≠ 0 then
    .error (.internal s!"stored padded_note_secrets length must be a multiple of 64, got {value.length}")
  else (chunksExact 64 value).mapM fun chunk => do
    let rho ← chunk32 "stored padded note rho must be 32 bytes" (chunk.take 32)
    let rseed ← chunk32 "stored padded note rseed must be 32 bytes" (chunk.drop 32)
    return (rho, rseed)

/-- `row.get` of a column that may be NULL. -/
def column {α : Type} (index : Nat) (name : String) : Option α → Except VotingError α
  | some value => .ok value
  | none => .error (.internal s!"malformed stored delegation generation inputs: Invalid column type Null at index: {index}, name: {name}")

structure StoredInputs where
  (notePositions noteIdentityHashes vanCommRand dummyNullifiers rhoSigned paddedNoteData : Blob)
  (nfSigned cmxNew alpha rseedSigned rseedOutput govComm : Blob)
  (totalNoteValue addressIndex : Int)
  (rk govNullifiers paddedNoteSecrets pcztSighash tx1Effects proof : Blob)

def readStoredInputs (bundle : DelegationBundle) (proof : ProofRow) :
    Except VotingError StoredInputs := do
  return {
    notePositions := ← column 0 "note_positions_blob" bundle.notePositionsBlob
    noteIdentityHashes := ← column 1 "note_identity_hashes_blob" bundle.noteIdentityHashesBlob
    vanCommRand := ← column 2 "van_comm_rand" bundle.setup.vanCommRand
    dummyNullifiers := ← column 3 "dummy_nullifiers" bundle.setup.dummyNullifiers
    rhoSigned := ← column 4 "rho_signed" bundle.setup.rhoSigned
    paddedNoteData := ← column 5 "padded_note_data" bundle.setup.paddedNoteData
    nfSigned := ← column 6 "nf_signed" bundle.setup.nfSigned
    cmxNew := ← column 7 "cmx_new" bundle.setup.cmxNew
    alpha := ← column 8 "alpha" bundle.setup.alpha
    rseedSigned := ← column 9 "rseed_signed" bundle.setup.rseedSigned
    rseedOutput := ← column 10 "rseed_output" bundle.setup.rseedOutput
    govComm := ← column 11 "gov_comm" bundle.setup.govComm
    totalNoteValue := ← column 12 "total_note_value" bundle.setup.totalNoteValue
    addressIndex := ← column 13 "address_index" bundle.setup.addressIndex
    rk := ← column 14 "rk" bundle.setup.rk
    govNullifiers := ← column 15 "gov_nullifiers_blob" bundle.setup.govNullifiersBlob
    paddedNoteSecrets := ← column 16 "padded_note_secrets" bundle.setup.paddedNoteSecrets
    pcztSighash := ← column 17 "pczt_sighash" bundle.setup.pcztSighash
    tx1Effects := ← column 18 "tx1_effects" bundle.setup.tx1Effects
    proof := ← column 19 "proof" proof.proof }

def require (condition : Bool) (error : VotingError) : Except VotingError Unit :=
  if condition then .ok () else .error error

def checkPaddedCount (expected : Nat) (field : String) (count : Nat) : Except VotingError Unit :=
  require (count = expected)
    (.internal s!"stored {field} count {count} does not match expected padded note count {expected}")

def checkStoredInputs (stored : StoredInputs) : Except VotingError DelegationGenerationInputs := do
  let notePositions ← checkedNotePositions stored.notePositions
  let noteIdentityHashes ← checkedBlob32Sequence stored.noteIdentityHashes "note_identity_hashes"
  require (noteIdentityHashes.length = notePositions.length)
    (.internal s!"stored note identity count {noteIdentityHashes.length} does not match note position count {notePositions.length}")
  require (notePositions.length ≤ NoteBundling.bundleNoteSlots)
    (.internal s!"stored note position count {notePositions.length} exceeds bundle capacity {NoteBundling.bundleNoteSlots}")
  let expectedPaddedCount := NoteBundling.bundleNoteSlots - notePositions.length
  let dummyNullifiers ← checkedBlob32Sequence stored.dummyNullifiers "dummy_nullifiers"
  let paddedNoteData ← checkedBlob32Sequence stored.paddedNoteData "padded_note_data"
  let paddedNoteSecrets ← checkedPaddedNoteSecrets stored.paddedNoteSecrets
  checkPaddedCount expectedPaddedCount "dummy_nullifiers" dummyNullifiers.length
  checkPaddedCount expectedPaddedCount "padded_note_data" paddedNoteData.length
  checkPaddedCount expectedPaddedCount "padded_note_secrets" paddedNoteSecrets.length
  let govNullifiers ← checkedBlob32Sequence stored.govNullifiers "gov_nullifiers"
  require (govNullifiers.length = NoteBundling.bundleNoteSlots)
    (.internal s!"stored gov_nullifier count {govNullifiers.length} does not match bundle capacity {NoteBundling.bundleNoteSlots}")
  validateTx1Effects stored.tx1Effects
  let vanCommRand ← checkedBlob32 stored.vanCommRand "van_comm_rand"
  let rhoSigned ← checkedBlob32 stored.rhoSigned "rho_signed"
  let nfSigned ← checkedBlob32 stored.nfSigned "nf_signed"
  let cmxNew ← checkedBlob32 stored.cmxNew "cmx_new"
  let alpha ← checkedBlob32 stored.alpha "alpha"
  let rseedSigned ← checkedBlob32 stored.rseedSigned "rseed_signed"
  let rseedOutput ← checkedBlob32 stored.rseedOutput "rseed_output"
  let govComm ← checkedBlob32 stored.govComm "gov_comm"
  require (0 ≤ stored.totalNoteValue)
    (.internal s!"stored total_note_value must be non-negative, got {stored.totalNoteValue}")
  require (0 ≤ stored.addressIndex ∧ stored.addressIndex < 2 ^ 32)
    (.internal s!"stored address_index must fit u32, got {stored.addressIndex}")
  let rk ← checkedBlob32 stored.rk "rk"
  let pcztSighash ← checkedBlob32 stored.pcztSighash "pczt_sighash"
  return {
    notePositions, noteIdentityHashes, vanCommRand, dummyNullifiers, rhoSigned,
      paddedNoteData, nfSigned
    cmxNew, alpha, rseedSigned, rseedOutput, govComm, rk, govNullifiers, paddedNoteSecrets,
      pcztSighash
    totalNoteValue := stored.totalNoteValue.toNat
    addressIndex := stored.addressIndex.toNat
    tx1Effects := stored.tx1Effects
    proof := stored.proof }

variable {J : Type} (parse : J → Except VotingError VoteRecoveryBundle) (H : BatchSighash)
  (t : GenerationTables J)

/-- The setup of a bundle with a successful proof; `none` when either is missing. -/
def loadDelegationInputs (b : Nat) : Except VotingError (Option DelegationGenerationInputs) :=
  match t.delegation.bundles.get? b, t.delegation.proofs.get? b with
  | some bundle, some proof =>
    if proof.success = 1 then do
      let stored ← readStoredInputs bundle proof
      let inputs ← checkStoredInputs stored
      return some inputs
    else .ok none
  | _, _ => .ok none

variable (identity : ChainSubmissionIdentity)

/-- The stored network of the round; no row stands under another round or wallet. -/
def loadRoundNetwork : Except VotingError Network :=
  if identity.roundId = t.voting.roundId ∧
    identity.walletId = t.voting.walletId then .ok t.voting.network
  else .error (.invalidInput s!"round not found: {identity.roundId}")

def validateIdentityContext : Except VotingError Unit := do
  let network ← loadRoundNetwork t identity
  require (network = identity.network)
    (.invalidInput "chain submission identity network does not match the stored round")

/-! ### Delegations -/

def completeGenerationForDelegation : Except VotingError (Option BoundGeneration) := do
  require (identity.target = .delegation)
    (.invalidInput "delegation generation requires a delegation identity")
  validateIdentityContext t identity
  match ← loadDelegationInputs t identity.bundleIndex with
  | none => return none
  | some inputs => return some ⟨identity, .delegation inputs, .delegation inputs.govComm, []⟩

/-- Every construction input is NULL, the public columns are not, and no proof is stored. -/
def importedShape (b : Nat) (bundle : DelegationBundle) : Bool :=
  bundle.notePositionsBlob.isNone && bundle.noteIdentityHashesBlob.isNone && bundle.setup.dummyNullifiers.isNone &&
    bundle.setup.rhoSigned.isNone && bundle.setup.paddedNoteData.isNone && bundle.setup.nfSigned.isNone &&
    bundle.setup.cmxNew.isNone && bundle.setup.alpha.isNone && bundle.setup.rseedSigned.isNone &&
    bundle.setup.rseedOutput.isNone && bundle.setup.rk.isNone && bundle.setup.govNullifiersBlob.isNone &&
    bundle.setup.paddedNoteSecrets.isNone && bundle.setup.pcztSighash.isNone && bundle.setup.tx1Effects.isNone &&
    bundle.setup.vanCommRand.isSome && bundle.setup.totalNoteValue.isSome &&
    bundle.setup.addressIndex == some 0 && !t.delegation.proofs.contains b

/-- 64 lowercase hexadecimal characters. -/
def parseCandidateTransactionHash (text : String) : Except VotingError CandidateTransactionHash :=
  match Text.hexBytes text.toList with
  | some bytes => if h : bytes.length = 32 then .ok ⟨bytes.toArray, h⟩ else .error invalid
  | none => .error invalid
where
  invalid : VotingError :=
    .invalidInput "stored imported delegation transaction hash is invalid: transaction hash must be exactly 64 lowercase hexadecimal characters"

def generationForImportedDelegation : Except VotingError BoundGeneration := do
  require (identity.target = .delegation)
    (.invalidInput "imported delegation generation requires a delegation identity")
  validateIdentityContext t identity
  match t.delegation.bundles.get? identity.bundleIndex with
  | none =>
    throw (.invalidInput s!"imported delegation capability bundle not found for round={identity.roundId}, bundle={identity.bundleIndex}")
  | some bundle =>
    match importedShape t identity.bundleIndex bundle, bundle.setup.govComm,
      bundle.delegationTxHash with
    | true, some governanceCommitment, some transactionHash => do
      let governanceCommitment ← checkedBlob32 governanceCommitment "imported gov_comm"
      let candidate ← parseCandidateTransactionHash transactionHash
      return ⟨identity, .importedDelegation governanceCommitment candidate,
        .delegation governanceCommitment, []⟩
    | _, _, _ =>
      throw (.invalidInput s!"round={identity.roundId}, bundle={identity.bundleIndex} is not an imported delegation capability bundle")

/-! ### Votes -/

def loadValidatedVote (b p : Nat) : Except VotingError VoteRecoveryBundle :=
  match t.voting.recoveryJson b p with
  | none => .error (.invalidInput s!"vote recovery bundle not found for {t.voting.place b p}")
  | some json => do
    let recovery ← parse json
    match t.voting.vote? b p with
    | none => throw (t.voting.voteNotFound b p)
    | some row =>
      t.voting.validateRecoveryMatchesStoredVote recovery.planned b p row.choice row.commitment
      return recovery

/-- `validated_singleton_vote` -/
def generationForVote : Except VotingError BoundGeneration :=
  match identity.target with
  | .vote p => do
    validateIdentityContext t identity
    let recovery ← loadValidatedVote parse t identity.bundleIndex p
    ensureSingletonVoteRecovery recovery.planned
    return ⟨identity, .votes [recovery], .vote recovery.voteAuthorityNoteNew recovery.voteCommitment, [p]⟩
  | _ => .error (.invalidInput "singleton vote generation requires a vote identity")

/-- The members of a batch among the candidates, in batch order. -/
def fullBatchMembers (digest : Bytes32) (candidates : List VoteRecoveryBundle) :
    List VoteRecoveryBundle :=
  (candidates.filter fun recovery => recovery.planned.inBatch digest).insertionSort
    fun a b => a.planned.batchIndex ≤ b.planned.batchIndex

/-- The members, once the batch they form is accepted. -/
def loadVoteBatchRecoveries (b : Nat) (digest : Bytes32) :
    Except VotingError (List VoteRecoveryBundle) := do
  let candidates ← ((t.voting.bundleVotes b).filterMap fun vote =>
    vote.2.commitmentBundleJson).mapM parse
  let _ ← assembleVoteBatchRecoveries H t.voting.roundId b digest
    (candidates.map VoteRecoveryBundle.planned)
  return fullBatchMembers digest candidates

def validateBatchMember (b : Nat) (digest : Bytes32) (anchorHeight : Nat)
    (recovery : VoteRecoveryBundle) :
    Except VotingError Unit := do
  require (recovery.anchorHeight = anchorHeight)
    (.invalidInput "persisted atomic vote batch has inconsistent anchor heights")
  let validated ← loadValidatedVote parse t b recovery.proposalId
  require (validated.planned.inBatch digest)
    (.invalidInput "persisted atomic vote batch membership changed during derivation")

/-- What a batch binds: the votes, and the delegation it was authorized with. -/
def bindBatch (b anchorHeight : Nat) (combinedVan : Option Bytes32)
    (recoveries : List VoteRecoveryBundle) :
    Except VotingError BoundInputs :=
  match combinedVan with
  | none => .ok (.votes recoveries)
  | some initialVan => do
    match ← loadDelegationInputs t b with
    | none => throw (.invalidInput "combined delegation setup is missing")
    | some inputs =>
      require (initialVan = inputs.govComm ∧ anchorHeight = 0)
        (.invalidInput "combined casts do not bind the persisted delegation VAN")
      return .combined inputs recoveries

/-- `validated_vote_batch` -/
def generationForVoteBatch : Except VotingError BoundGeneration :=
  match identity.target.batchDigest with
  | none => .error (.invalidInput "vote batch generation requires a vote_batch identity")
  | some digest => do
    validateIdentityContext t identity
    let recoveries ← loadVoteBatchRecoveries parse H t identity.bundleIndex digest
    match recoveries with
    | [] => throw (.internal "an assembled batch has a member")
    | first :: rest => do
      require (first.planned.delegationVan.isSome = identity.target.isCombined)
        (.invalidInput "batch authorization does not match submission kind")
      (first :: rest).forM (validateBatchMember parse t identity.bundleIndex digest first.anchorHeight)
      require ((first :: rest).map VoteRecoveryBundle.proposalId).Nodup
        (.invalidInput "persisted atomic vote batch contains duplicate proposals")
      let inputs ← bindBatch t identity.bundleIndex first.anchorHeight first.planned.delegationVan
        (first :: rest)
      return ⟨identity, inputs, .voteBatch ((first :: rest).getLast (by simp)).voteAuthorityNoteNew
          ((first :: rest).map VoteRecoveryBundle.voteCommitment),
        (first :: rest).map VoteRecoveryBundle.proposalId⟩

/-- A generation some derivation returns. -/
inductive Derived : BoundGeneration → Prop
  | delegation {identity : ChainSubmissionIdentity} {g : BoundGeneration}
      (h : completeGenerationForDelegation t identity = .ok (some g)) : Derived g
  | importedDelegation {identity : ChainSubmissionIdentity} {g : BoundGeneration}
      (h : generationForImportedDelegation t identity = .ok g) : Derived g
  | vote {identity : ChainSubmissionIdentity} {g : BoundGeneration}
      (h : generationForVote parse t identity = .ok g) : Derived g
  | voteBatch {identity : ChainSubmissionIdentity} {g : BoundGeneration}
      (h : generationForVoteBatch parse H t identity = .ok g) : Derived g

/-! ### What a derivation has checked -/

variable {parse H t} {identity : ChainSubmissionIdentity} {g : BoundGeneration} {b : Nat}
  {digest : Bytes32} {van : Option Bytes32}

theorem require_ok {condition : Bool} {error : VotingError} (h : require condition error = .ok ()) :
    condition = true := by
  unfold require at h
  split at h
  · assumption
  · cases h

/-- The authorization a batch of these inputs carries. -/
def BoundInputs.combinedVan : BoundInputs → Option Bytes32
  | .combined inputs _ => some inputs.govComm
  | _ => none

def BoundInputs.recoveries : BoundInputs → List VoteRecoveryBundle
  | .votes recoveries => recoveries
  | .combined _ recoveries => recoveries
  | _ => []

/-- The inputs are of the identity's kind, and every vote carries the authorization that
goes with it. -/
structure BoundGeneration.Coherent (g : BoundGeneration) : Prop where
  ofTarget : g.inputs.OfTarget g.identity.target
  authorized : ∀ recovery ∈ g.inputs.recoveries,
    recovery.planned.delegationVan = g.inputs.combinedVan

theorem completeGenerationForDelegation_coherent
    (h : completeGenerationForDelegation t identity = .ok (some g)) :
    g.Coherent := by
  obtain ⟨_, ht, h⟩ := bind_ok h
  have ht : identity.target = .delegation := of_decide_eq_true (require_ok ht)
  obtain ⟨-, -, h⟩ := bind_ok h
  obtain ⟨inputs?, -, h⟩ := bind_ok h
  cases inputs? with
  | none => cases h
  | some =>
    obtain rfl := Option.some.inj (Except.ok.inj h)
    exact ⟨by rw [ht]; trivial, nofun⟩

theorem generationForImportedDelegation_coherent
    (h : generationForImportedDelegation t identity = .ok g) :
    g.Coherent := by
  obtain ⟨_, ht, h⟩ := bind_ok h
  have ht : identity.target = .delegation := of_decide_eq_true (require_ok ht)
  obtain ⟨-, -, h⟩ := bind_ok h
  split at h
  · cases h
  split at h
  · obtain ⟨_, -, h⟩ := bind_ok h
    obtain ⟨_, -, h⟩ := bind_ok h
    cases h
    exact ⟨by rw [ht]; trivial, nofun⟩
  · cases h

theorem generationForVote_coherent (h : generationForVote parse t identity = .ok g) :
    g.Coherent := by
  unfold generationForVote at h
  split at h
  case h_2 => cases h
  case h_1 p hta =>
  obtain ⟨-, -, h⟩ := bind_ok h
  obtain ⟨_, -, h⟩ := bind_ok h
  obtain ⟨_, hs, h⟩ := bind_ok h
  cases h
  refine ⟨by rw [hta]; trivial, fun member hmem => ?_⟩
  obtain rfl := mem_singleton.mp hmem
  have hba : member.planned.batch = none := by
    unfold ensureSingletonVoteRecovery at hs
    split at hs
    · cases hs
    · next hno => simpa using hno
  simp [RoundPlanning.VoteRecoveryBundle.delegationVan, hba, combinedVan]

theorem fullBatchMembers_planned (digest : Bytes32) (candidates : List VoteRecoveryBundle) :
    (fullBatchMembers digest candidates).map VoteRecoveryBundle.planned =
      batchMembers digest (candidates.map VoteRecoveryBundle.planned) := by
  rw [fullBatchMembers, batchMembers, filter_map]
  exact map_insertionSort _ _ _ _ fun _ _ _ _ => Iff.rfl

/-- The members of an assembled batch agree about its authorization. -/
theorem assembled_authorized {roundId : String} {candidates : List RoundPlanning.VoteRecoveryBundle}
    {first : RoundPlanning.VoteRecoveryBundle} {rest : List RoundPlanning.VoteRecoveryBundle}
    (h : assembleVoteBatchRecoveries H roundId b digest candidates = .ok (first :: rest)) :
    ∀ member ∈ first :: rest, member.delegationVan = first.delegationVan := by
  have hme := assemble_ok h
  unfold assembleVoteBatchRecoveries at h
  rw [← hme] at h
  dsimp only at h
  unfold verifyBatch at h
  split at h
  · cases h
  split at h
  · cases h
  next ha =>
  intro member hmem
  simp only [authorizationDiffers, any_eq_true, not_exists, not_and, Bool.or_eq_true, not_or] at ha
  simpa using (ha member hmem).1

theorem loadVoteBatchRecoveries_authorized {first : VoteRecoveryBundle}
    {rest : List VoteRecoveryBundle}
    (h : loadVoteBatchRecoveries parse H t b digest = .ok (first :: rest)) :
    ∀ member ∈ first :: rest, member.planned.delegationVan = first.planned.delegationVan := by
  obtain ⟨_, -, h⟩ := bind_ok h
  obtain ⟨_, ha, h⟩ := bind_ok h
  have hp := congrArg (List.map VoteRecoveryBundle.planned) (Except.ok.inj h)
  rw [fullBatchMembers_planned, ← assemble_ok ha] at hp
  rw [hp] at ha
  intro member hmem
  exact assembled_authorized ha _ (mem_map_of_mem hmem)

variable {recoveries : List VoteRecoveryBundle}

theorem bindBatch_ok {anchorHeight : Nat}
    {inputs : BoundInputs} (h : bindBatch t b anchorHeight van recoveries = .ok inputs) :
    inputs.recoveries = recoveries ∧ inputs.combinedVan = van ∧
      (van = none ∧ inputs = .votes recoveries ∨ ∃ setup, inputs = .combined setup recoveries) := by
  cases van with
  | none =>
    cases h
    exact ⟨rfl, rfl, .inl ⟨rfl, rfl⟩⟩
  | some =>
    obtain ⟨setup?, -, h⟩ := bind_ok h
    cases setup? with
    | none => cases h
    | some setup =>
      obtain ⟨_, hvan, h⟩ := bind_ok h
      cases h
      obtain ⟨rfl, -⟩ := of_decide_eq_true (require_ok hvan)
      exact ⟨rfl, rfl, .inr ⟨setup, rfl⟩⟩

theorem generationForVoteBatch_coherent (h : generationForVoteBatch parse H t identity = .ok g) :
    g.Coherent := by
  unfold generationForVoteBatch at h
  split at h
  case h_1 => cases h
  case h_2 digest hd =>
  obtain ⟨-, -, h⟩ := bind_ok h
  obtain ⟨recoveries, hlo, h⟩ := bind_ok h
  cases recoveries with
  | nil => cases h
  | cons =>
    obtain ⟨_, hk, h⟩ := bind_ok h
    obtain ⟨-, -, h⟩ := bind_ok h
    obtain ⟨-, -, h⟩ := bind_ok h
    obtain ⟨_, hbi, h⟩ := bind_ok h
    cases h
    obtain ⟨hre, hvan, hin⟩ := bindBatch_ok hbi
    refine ⟨?_, fun member hmem => ?_⟩
    · dsimp only
      rcases hin with ⟨hno, rfl⟩ | ⟨_, rfl⟩
      · rw [hno] at hk
        cases ht : identity.target <;> rw [ht] at hk hd <;> trivial
      · rw [← hvan] at hk
        cases ht : identity.target <;> rw [ht] at hk hd <;> trivial
    · dsimp only at hmem ⊢
      rw [hre] at hmem
      rw [hvan]
      exact loadVoteBatchRecoveries_authorized hlo member hmem

theorem Derived.coherent (h : Derived parse H t g) : g.Coherent := by
  cases h with
  | delegation h => exact completeGenerationForDelegation_coherent h
  | importedDelegation h => exact generationForImportedDelegation_coherent h
  | vote h => exact generationForVote_coherent h
  | voteBatch h => exact generationForVoteBatch_coherent h

/-! ### Equal byte strings -/

/-- The bundle without where its vote stands in the tree. -/
def VoteRecoveryBundle.withoutPosition (recovery : VoteRecoveryBundle) : VoteRecoveryBundle :=
  { recovery with vcTreePosition := 0 }

def BoundInputs.withoutPosition : BoundInputs → BoundInputs
  | .votes recoveries => .votes (recoveries.map VoteRecoveryBundle.withoutPosition)
  | .combined inputs recoveries =>
      .combined inputs (recoveries.map VoteRecoveryBundle.withoutPosition)
  | inputs => inputs

/-- The bundle with the authorization put back. -/
def VoteRecoveryBundle.authorizedBy (van : Option Bytes32) (recovery : VoteRecoveryBundle) :
    VoteRecoveryBundle :=
  { recovery with batch := recovery.batch.map fun batch => { batch with delegationVan := van } }

theorem authorizedBy_hashed {recovery : VoteRecoveryBundle}
    (h : recovery.planned.delegationVan = van) :
    recovery.hashed.authorizedBy van = recovery.withoutPosition := by
  cases hb : recovery.batch with
  | none => simp [VoteRecoveryBundle.authorizedBy, VoteRecoveryBundle.hashed,
      VoteRecoveryBundle.withoutPosition, hb, hashedBatch]
  | some batch =>
    have hvan : batch.delegationVan = van := by
      rw [← h]
      simp [RoundPlanning.VoteRecoveryBundle.delegationVan, VoteRecoveryBundle.planned, hb]
    subst hvan
    simp [VoteRecoveryBundle.authorizedBy, VoteRecoveryBundle.hashed,
      VoteRecoveryBundle.withoutPosition, hb, hashedBatch]

theorem map_authorizedBy_hashed
    (h : ∀ recovery ∈ recoveries, recovery.planned.delegationVan = van) :
    (recoveries.map VoteRecoveryBundle.hashed).map (VoteRecoveryBundle.authorizedBy van) =
      recoveries.map VoteRecoveryBundle.withoutPosition := by
  rw [map_map]
  exact map_congr_left fun recovery hmem => authorizedBy_hashed (h recovery hmem)

/-- What is hashed and the authorization make up everything but the positions. -/
theorem BoundGeneration.Coherent.withoutPosition_eq {g' : BoundGeneration} (hg : g.Coherent)
    (hg' : g'.Coherent) (h : g.inputs.hashed = g'.inputs.hashed) :
    g.inputs.withoutPosition = g'.inputs.withoutPosition := by
  obtain ⟨_, inputs, _, _⟩ := g
  obtain ⟨_, inputs', _, _⟩ := g'
  have ha := hg.authorized
  have ha' := hg'.authorized
  cases inputs <;> cases inputs' <;> try cases h
  · rfl
  · rfl
  · next recoveries recoveries' =>
    have hh := votes.inj h
    exact congrArg votes ((map_authorizedBy_hashed ha).symm.trans
      ((congrArg _ hh).trans (map_authorizedBy_hashed ha')))
  · next setup recoveries setup' recoveries' =>
    obtain ⟨rfl, hh⟩ := combined.inj h
    exact congrArg (combined setup) ((map_authorizedBy_hashed ha).symm.trans
      ((congrArg _ hh).trans (map_authorizedBy_hashed ha')))

theorem hashed_withoutPosition (inputs : BoundInputs) :
    inputs.withoutPosition.hashed = inputs.hashed := by
  cases inputs <;> simp [withoutPosition, hashed, VoteRecoveryBundle.withoutPosition,
    VoteRecoveryBundle.hashed]

/-- Two derived generations hash the same bytes exactly when they have the same identity
and the same inputs, wherever their votes stand in the tree. -/
theorem derived_bytes_eq_iff {t' : GenerationTables J} {g' : BoundGeneration} {bytes : List UInt8}
    (hg : Derived parse H t g) (hg' : Derived parse H t' g') (hbytes : g.hashedBytes = some bytes) :
    g'.hashedBytes = some bytes ↔ g'.identity = g.identity ∧
      g'.inputs.withoutPosition = g.inputs.withoutPosition := by
  constructor
  · intro hby'
    obtain ⟨hi, hh⟩ := preimage_inj hg'.coherent.ofTarget hg.coherent.ofTarget hby' hbytes
    exact ⟨hi, hg'.coherent.withoutPosition_eq hg.coherent hh⟩
  · rintro ⟨hi, hin⟩
    have hh : g'.inputs.hashed = g.inputs.hashed := by
      rw [← hashed_withoutPosition, hin, hashed_withoutPosition]
    rw [BoundGeneration.hashedBytes, hi, ← preimage_hashed, hh, preimage_hashed]
    exact hbytes

section

/-- A vote as it was signed, at some place in the tree. -/
def sampleVote (position : Nat) : VoteRecoveryBundle where
  voteRoundId := hexEncode (Vector.replicate 32 1)
  bundleIndex := 0
  proposalId := 2
  voteDecision := 1
  anchorHeight := 7
  vcTreePosition := position
  singleShare := true
  numOptions := 2
  vanNullifier := Vector.replicate 32 3
  voteAuthorityNoteNew := Vector.replicate 32 4
  voteCommitment := Vector.replicate 32 5
  proof := [6]
  sharesHash := Vector.replicate 32 7
  rVpk := Vector.replicate 32 8
  alphaV := Vector.replicate 32 9
  voteAuthSig := Vector.replicate 64 10
  encryptedShares := [⟨[1], [2], 0, 3, [4]⟩]
  shareBlinds := [Vector.replicate 32 11]
  shareComms := [Vector.replicate 32 12]
  batch := none

def sampleTables (position : Nat) : GenerationTables VoteRecoveryBundle where
  voting := {
    roundId := hexEncode (Vector.replicate 32 1)
    walletId := "wallet"
    network := .testnet
    eaPk := []
    bundles := .empty
    votes := .single ⟨0, 2⟩ ⟨1, none, none, none, some (sampleVote position)⟩
    shares := []
    intents := .empty
    authorizations := .empty }
  delegation :=
    ⟨hexEncode (Vector.replicate 32 1), none, .empty, .empty, [], [], none, none, none, none⟩

def sampleGeneration (position : Nat) : BoundGeneration where
  identity := ⟨"wallet", .testnet, Vector.replicate 32 1, 0, .vote 2⟩
  inputs := .votes [sampleVote position]
  expectedLayout := .vote (Vector.replicate 32 4) (Vector.replicate 32 5)
  orderedProposalIds := [2]

/-- No batch is hashed here. -/
def noSighash : BatchSighash where
  castVoteBatch _ _ _ := .error (.internal "no sighash")
  delegateAndVoteBatch _ _ _ := .error (.internal "no sighash")

theorem sampleGeneration_derived (position : Nat) :
    Derived .ok noSighash (sampleTables position) (sampleGeneration position) := by
  have h : generationForVote .ok (sampleTables position) (sampleGeneration position).identity =
      .ok (sampleGeneration position) := rfl
  exact .vote h

/-- A vote hashes to the same bytes before and after its place in the tree is known. -/
theorem derived_bytes_eq_iff_position :
    (sampleGeneration 0).hashedBytes.isSome ∧ (sampleGeneration 41).hashedBytes =
    (sampleGeneration 0).hashedBytes := by
  have hs : (sampleGeneration 0).hashedBytes.isSome := by decide +kernel
  obtain ⟨_, hb⟩ := Option.isSome_iff_exists.mp hs
  refine ⟨hs, ?_⟩
  rw [hb]
  exact (derived_bytes_eq_iff (sampleGeneration_derived 0) (sampleGeneration_derived 41) hb).mpr
    ⟨rfl, rfl⟩

end

end ZcashVoting.Generation
