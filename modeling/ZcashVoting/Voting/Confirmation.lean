import ZcashVoting.Voting.Cast

/-!
# Confirmed and retired generations

What the chain lifecycle writes to the voting tables. A confirmation records the tree
positions of its votes, and the transaction hash if it was found by hash. A rejected
combined generation, and a vote whose proposal left the roster, lose their recovery
text. Every function runs inside the transaction of its caller, which rolls back on an
error.

A generation is derived again from the signed votes before it is confirmed. Hashing it
and building its wire body belong to other code, which `GenerationWire` names.
-/
namespace ZcashVoting.Voting

open ChainSubmission RoundPlanning KeyedData

variable {J : Type} (codec : RecoveryCodec J) (H : BatchSighash) (t : RoundTables J)

namespace RoundTables

/-! ### Stored votes -/

def recoveryMismatch (b p : Nat) (field : String) : VotingError :=
  .invalidInput s!"vote recovery bundle {field} mismatch for {t.place b p}"

def validateRecoveryMatchesStoredVote (recovery : VoteRecoveryBundle) (b p choice : Nat)
    (commitment : Option String) : Except VotingError Unit :=
  if recovery.voteRoundId ≠ t.roundId then .error (t.recoveryMismatch b p "round_id")
  else if recovery.bundleIndex ≠ b then .error (t.recoveryMismatch b p "bundle_index")
  else if recovery.proposalId ≠ p then .error (t.recoveryMismatch b p "proposal_id")
  else if recovery.voteDecision ≠ choice then .error (t.recoveryMismatch b p "vote_decision")
  else if commitment.any (· ≠ storedVoteCommitmentBytes recovery) then
    .error (t.recoveryMismatch b p "commitment")
  else .ok ()

/-- The text `round=…, wallet=…, bundle=…, proposal=…` of an error. -/
def walletPlace (b p : Nat) : String :=
  s!"round={t.roundId}, wallet={t.walletId}, bundle={b}, proposal={p}"

def ensureVoteSubmissionMatchesBallotIntent (b p : Nat) : Except VotingError Unit :=
  match t.intents.get? p, t.vote? b p with
  | none, _ => .ok ()
  | some _, none => .ok ()
  | some .skipped, some _ =>
    .error (.invalidInput s!"cannot record vote submission for skipped proposal {t.walletPlace b p}")
  | some (.choice choice), some row =>
    if row.choice = choice then .ok ()
    else .error (.invalidInput s!"vote submission conflicts with ballot intent for {t.walletPlace b p}")

def recordVoteSubmission (b p : Nat) (txHash : String) : Except VotingError (RoundTables J) := do
  t.ensureVoteSubmissionMatchesBallotIntent b p
  match t.vote? b p with
  | none => throw (.invalidInput s!"no vote found for {t.walletPlace b p}")
  | some row =>
    if row.txHash.any (· ≠ txHash) then
      throw (.invalidInput s!"vote tx hash already recorded for {t.walletPlace b p}")
    else return t.setVote b p { row with txHash := some txHash }

/-- A position already stored must be the one to record. -/
def checkStoredPosition (b p position : Nat) : Option Int → Except VotingError Unit
  | none => .ok ()
  | some stored =>
    if stored < 0 then
      .error (.internal s!"stored vc_tree_position must be non-negative, got {stored}")
    else if stored ≠ position then
      .error (.invalidInput s!"vote commitment tree position already recorded for {t.place b p}")
    else .ok ()

/-- The recovery text of a vote with its tree position written into it. -/
def positionedJson (b p position : Nat) (row : VoteRow J) : Except VotingError (Option J) :=
  match row.commitmentBundleJson with
  | none => .ok none
  | some json => do
    let recovery ← codec.parseRecovery json
    t.validateRecoveryMatchesStoredVote recovery b p row.choice row.commitment
    let updated ← serializeRecovery codec { recovery with vcTreePosition := position }
    return some updated

def recordVcPosition (b p position : Nat) : Except VotingError (RoundTables J) :=
  if i64Max < position then
    .error (.invalidInput s!"vc_tree_position {position} does not fit in SQLite i64")
  else
    match t.vote? b p with
    | none => .error (t.voteNotFound b p)
    | some row => do
      t.checkStoredPosition b p position row.vcTreePosition
      let json ← t.positionedJson codec b p position row
      return t.setVote b p { row with
        vcTreePosition := some position
        commitmentBundleJson := json }

def ensureSingletonVoteUpdate (b p : Nat) : Except VotingError Unit :=
  match t.recoveryJson b p with
  | none => .ok ()
  | some json => do
    let marked ← codec.hasBatchMarkers json
    if marked then throw batchMemberError else return ()

def requireVoteRecoveryJson (b p : Nat) : Except VotingError Unit :=
  match t.vote? b p with
  | none => .error (t.voteNotFound b p)
  | some row =>
    if row.commitmentBundleJson.isSome then .ok ()
    else .error (.invalidInput s!"vote recovery bundle not found for {t.place b p}")

/-! ### Bundles -/

def requireSqlitePosition (position : Nat) (field : String) : Except VotingError Unit :=
  if i64Max < position then
    .error (.invalidInput s!"{field} {position} does not fit in SQLite i64")
  else .ok ()

def bundleRow (b : Nat) : Except VotingError BundleRow :=
  match t.bundles.get? b with
  | none => .error (.invalidInput s!"bundle not found for round={t.roundId}, bundle={b}")
  | some bundle => .ok bundle

def setBundle (b : Nat) (bundle : BundleRow) : RoundTables J :=
    { t with bundles := t.bundles.set b bundle }

/-- A stored VAN position below zero is refused. -/
def invalidVanPosition (stored : Int) : VotingError :=
  .invalidInput s!"invalid stored van_leaf_position: {stored}"

/-- The VAN position moves forward only. -/
def advanceVanPosition (b position : Nat) : Except VotingError (RoundTables J) := do
  let bundle ← t.bundleRow b
  match bundle.vanLeafPosition with
  | none => return t.setBundle b { bundle with vanLeafPosition := some position }
  | some stored =>
    if stored < 0 then throw (invalidVanPosition stored)
    else if position < stored then return t
    else return t.setBundle b { bundle with vanLeafPosition := some position }

def storeDelegationTxHash (b : Nat) (txHash : String) : Except VotingError (RoundTables J) :=
  match t.bundles.get? b with
  | none => .error (.invalidInput s!"no bundle found for round={t.roundId}, wallet={t.walletId}, bundle={b}")
  | some bundle =>
    if bundle.delegationTxHash.any (· ≠ txHash) then
      .error (.invalidInput s!"delegation tx hash already recorded for round={t.roundId}, wallet={t.walletId}, bundle={b}")
    else .ok (t.setBundle b { bundle with delegationTxHash := some txHash })

def requireTxHash (txHash : String) : Except VotingError Unit :=
  if txHash.trimAscii.isEmpty then .error (.invalidInput "tx_hash must not be empty") else .ok ()

/-- The hash of a delegation agrees with the stored one. -/
def checkDelegationHash (stored : Option String) (txHash : String) : Except VotingError Unit := do
  requireTxHash txHash
  match stored with
  | none => return ()
  | some existing =>
    if existing ≠ txHash then
      throw (.invalidInput s!"delegation tx_hash conflict: stored {existing}, requested {txHash}")
    else return ()

/-- Whether a delegation's VAN position is still to be written. -/
def delegationVanPositionShouldUpdate (stored : Option Int) (position : Nat) :
    Except VotingError Bool :=
  match stored with
  | none => .ok true
  | some existing =>
    if existing < 0 then .error (invalidVanPosition existing)
    else if existing < position then
      .error (.invalidInput s!"delegation van_leaf_position conflict: stored {existing}, requested {position}")
    else .ok false

def storeOptionalTxHash (b : Nat) : Option String → Except VotingError (RoundTables J)
  | none => .ok t
  | some txHash => t.storeDelegationTxHash b txHash

def applyDelegationConfirmation (b : Nat) (txHash : Option String) (position : Nat) :
    Except VotingError (RoundTables J) := do
  requireSqlitePosition position "VAN leaf position"
  let bundle ← t.bundleRow b
  txHash.forM (checkDelegationHash bundle.delegationTxHash)
  let shouldStore ← delegationVanPositionShouldUpdate bundle.vanLeafPosition position
  let hashed ← t.storeOptionalTxHash b txHash
  if shouldStore then do
    let stored ← hashed.bundleRow b
    return hashed.setBundle b { stored with vanLeafPosition := some position }
  else return hashed

/-! ### Confirmed votes -/

def recordOptionalSubmission (b p : Nat) : Option String → Except VotingError (RoundTables J)
  | none => .ok t
  | some txHash => t.recordVoteSubmission b p txHash

def applyVoteConfirmation (b p : Nat) (txHash : Option String) (vanPosition vcPosition : Nat) :
    Except VotingError (RoundTables J) := do
  requireSqlitePosition vanPosition "VAN leaf position"
  requireSqlitePosition vcPosition "vote commitment tree position"
  t.ensureSingletonVoteUpdate codec b p
  txHash.forM requireTxHash
  let hashed ← t.recordOptionalSubmission b p txHash
  hashed.requireVoteRecoveryJson b p
  let advanced ← hashed.advanceVanPosition b vanPosition
  advanced.recordVcPosition codec b p vcPosition

def loadVoteBatchRecoveries (b : Nat) (digest : Bytes32) :
    Except VotingError (List VoteRecoveryBundle) := do
  let candidates ← ((t.bundleVotes b).filterMap fun vote =>
    vote.2.commitmentBundleJson).mapM codec.parseRecovery
  assembleVoteBatchRecoveries H t.roundId b digest candidates

def confirmMember (b : Nat) (txHash : Option String) (t : RoundTables J)
    (member : VoteRecoveryBundle × Nat) : Except VotingError (RoundTables J) := do
  let hashed ← t.recordOptionalSubmission b member.1.proposalId txHash
  hashed.requireVoteRecoveryJson b member.1.proposalId
  hashed.recordVcPosition codec b member.1.proposalId member.2

def applyVoteBatchConfirmation (b : Nat) (digest : Bytes32) (txHash : Option String)
    (vanPosition : Nat) (vcPositions proposalIds : List Nat) :
    Except VotingError (RoundTables J) := do
  requireSqlitePosition vanPosition "VAN leaf position"
  vcPositions.forM fun position => requireSqlitePosition position "vote commitment tree position"
  txHash.forM requireTxHash
  let recoveries ← t.loadVoteBatchRecoveries codec H b digest
  if proposalIds ≠ recoveries.map VoteRecoveryBundle.proposalId then
    throw (.invalidInput "cast_vote_batch event actions do not match persisted recovery data")
  else if vcPositions.length ≠ recoveries.length then
    throw (.invalidInput "cast_vote_batch event has the wrong number of VC positions")
  else
    let confirmed ← (recoveries.zip vcPositions).foldlM (confirmMember codec b txHash) t
    confirmed.advanceVanPosition b vanPosition

/-! ### Retired votes -/

/-- Refuses a vote that has reached the chain. -/
def clearUnsubmittedVoteRecovery (b p : Nat) : Except VotingError (RoundTables J) :=
  match t.vote? b p with
  | none => changed
  | some row =>
    if row.witnessed then changed
    else .ok { t.setVote b p { row with commitmentBundleJson := none } with
      shares := t.otherShares ⟨b, p⟩ }
where
  changed : Except VotingError (RoundTables J) :=
    .error (.invalidInput s!"vote recovery changed before it could be retired for {t.place b p}")

/-- A combined authorization goes once no signed combined vote of its bundle is left. -/
def retireCombinedAuthorization (b : Nat) : Except VotingError (RoundTables J) := do
  let combined ← ((t.bundleVotes b).filterMap fun vote =>
    vote.2.commitmentBundleJson).mapM codec.hasDelegationVan
  return if combined.contains true then t
    else { t with authorizations := t.authorizations.filterKeys fun key => key.1 ≠ b }

/-- Clears every member of a batch and returns them in batch order. -/
def clearVoteBatchRecovery (b : Nat) (digest : Bytes32) :
    Except VotingError (List Nat × RoundTables J) := do
  let members ← t.loadVoteBatchRecoveries codec H b digest
  let proposals := members.map VoteRecoveryBundle.proposalId
  let cleared ← proposals.foldlM (fun t p => t.clearUnsubmittedVoteRecovery b p) t
  if proposals.isEmpty then return (proposals, cleared)
  else do
    let retired ← cleared.retireCombinedAuthorization codec b
    return (proposals, retired)

end RoundTables

/-! ### Generations -/

/-- The hashes and wire bodies of generations, and the delegation columns they cover. -/
structure GenerationWire (J : Type) where
  /-- The digest, request and VAN of `derive_delegation` and of its imported form. -/
  deriveDelegation : RoundTables J → SubmissionDerivationRequest →
    Except VotingError (Bytes32 × ChainSubmissionRequest × Bytes32)
  /-- `gov_comm` of `load_delegation_inputs`, if the setup is complete. -/
  delegationVan : RoundTables J → Nat → Except VotingError (Option Bytes32)
  /-- The digest of the votes of a generation, and of the delegation if it is combined. -/
  generationDigest : RoundTables J → ChainSubmissionIdentity → List VoteRecoveryBundle → Bytes32
  wireSubmission : VoteRecoveryBundle → Except VotingError String
  batchWire : List String → String
  /-- The combined wire body, after its authorization digest is checked. -/
  combinedWire : RoundTables J → ChainSubmissionIdentity → List String → Except VotingError String

variable (wire : GenerationWire J)

namespace RoundTables

def loadValidatedVote (b p : Nat) : Except VotingError VoteRecoveryBundle := do
  match ← t.recoveryBundle codec b p with
  | none => throw (.invalidInput s!"vote recovery bundle not found for {t.place b p}")
  | some recovery =>
    match t.vote? b p with
    | none => throw (t.voteNotFound b p)
    | some row =>
      t.validateRecoveryMatchesStoredVote recovery b p row.choice row.commitment
      return recovery

def validatedSingletonVote (b p : Nat) : Except VotingError VoteRecoveryBundle := do
  let recovery ← t.loadValidatedVote codec b p
  ensureSingletonVoteRecovery recovery
  return recovery

/-- The vote a batch member names is itself a member of the batch. -/
def validateBatchMember (b : Nat) (digest : Bytes32) (anchorHeight : Nat)
    (recovery : VoteRecoveryBundle) : Except VotingError Unit :=
  if recovery.anchorHeight ≠ anchorHeight then
    .error (.invalidInput "persisted atomic vote batch has inconsistent anchor heights")
  else do
    let validated ← t.loadValidatedVote codec b recovery.proposalId
    if !validated.inBatch digest then
      throw (.invalidInput "persisted atomic vote batch membership changed during derivation")
    else return ()

/-- A combined batch binds the delegation of its bundle. -/
def validateCombinedVan (b anchorHeight : Nat) : Option Bytes32 → Except VotingError Unit
  | none => .ok ()
  | some initialVan => do
    match ← wire.delegationVan t b with
    | none => throw (.invalidInput "combined delegation setup is missing")
    | some van =>
      if initialVan ≠ van ∨ anchorHeight ≠ 0 then
        throw (.invalidInput "combined casts do not bind the persisted delegation VAN")
      else return ()

def validatedVoteBatch (b : Nat) (digest : Bytes32) (combined : Bool) :
    Except VotingError (List VoteRecoveryBundle) := do
  let recoveries ← t.loadVoteBatchRecoveries codec H b digest
  match recoveries with
  | [] => throw (.internal "an assembled batch has a member")
  | first :: _ =>
    if first.delegationVan.isSome ≠ combined then
      throw (.invalidInput "batch authorization does not match submission kind")
    else
      recoveries.forM (t.validateBatchMember codec b digest first.anchorHeight)
      if ¬ (recoveries.map VoteRecoveryBundle.proposalId).Nodup then
        throw (.invalidInput "persisted atomic vote batch contains duplicate proposals")
      else
        t.validateCombinedVan wire b first.anchorHeight first.delegationVan
        return recoveries

end RoundTables

variable (identity : ChainSubmissionIdentity)

def deriveVote : Except VotingError DerivedBody :=
  match identity.target with
  | .vote p => do
    let recovery ← t.validatedSingletonVote codec identity.bundleIndex p
    let request ← wire.wireSubmission recovery
    return ⟨wire.generationDigest t identity [recovery], .vote request,
      .vote recovery.voteAuthorityNoteNew recovery.voteCommitment, [p]⟩
  | _ => .error (.invalidInput "singleton vote generation requires a vote identity")

def deriveVoteBatch : Except VotingError DerivedBody :=
  match identity.target.batchDigest with
  | none => .error (.invalidInput "vote batch generation requires a vote_batch identity")
  | some digest => do
    let recoveries ← t.validatedVoteBatch codec H wire identity.bundleIndex digest identity.target.isCombined
    let requests ← recoveries.mapM wire.wireSubmission
    let request ← batchRequest requests
    return ⟨wire.generationDigest t identity recoveries, request,
      .voteBatch ((recoveries.getLast?.map VoteRecoveryBundle.voteAuthorityNoteNew).getD
          (Vector.replicate 32 0)) (recoveries.map VoteRecoveryBundle.voteCommitment),
      recoveries.map VoteRecoveryBundle.proposalId⟩
where
  batchRequest (requests : List String) : Except VotingError ChainSubmissionRequest :=
    if identity.target.isCombined then
      (wire.combinedWire t identity requests).map .delegateAndVoteBatch
    else .ok (.voteBatch (wire.batchWire requests))

/-- What each derivation reads. -/
def deriveBody (request : SubmissionDerivationRequest) : Except VotingError DerivedBody :=
  match request with
  | .vote identity => deriveVote codec t wire identity
  | .voteBatch identity => deriveVoteBatch codec H t wire identity
  | .delegation .. => delegation
  | .importedDelegation _ => delegation
where
  delegation : Except VotingError DerivedBody :=
    (wire.deriveDelegation t request).map fun (digest, body, van) =>
      ⟨digest, body, .delegation van, []⟩

/-! ### Projections of the lifecycle -/

/-- The hash of a confirmed combined batch is also its delegation's. -/
def storeCombinedHash (txHash : Option String) (t : RoundTables J) :
    Except VotingError (RoundTables J) :=
  if identity.target.isCombined then t.storeOptionalTxHash identity.bundleIndex txHash else .ok t

def applyConfirmedGeneration (derived : DerivedChainSubmission)
    (confirmation : ValidatedChainSubmissionConfirmation) : Except VotingError (RoundTables J) :=
  let identity := derived.generation.identity
  let b := identity.bundleIndex
  let terminal := confirmation.confirmation
  let txHash := terminal.transactionHash.map hexEncode
  match identity.target, derived.expectedLayout, terminal.voteCommitmentPositions with
  | .delegation, .delegation _, [] =>
      t.applyDelegationConfirmation b txHash terminal.finalVanPosition
  | .vote p, .vote _ _, [position] =>
    t.applyVoteConfirmation codec b p txHash terminal.finalVanPosition position
  | .voteBatch digest, .voteBatch _ commitments, positions => batch digest commitments positions
  | .delegateAndVoteBatch digest, .voteBatch _ commitments, positions =>
    batch digest commitments positions
  | _, _, _ => mismatch
where
  mismatch : Except VotingError (RoundTables J) :=
    .error (.invalidInput "confirmed positions do not match the semantic generation layout")
  batch (digest : Bytes32) (commitments : List Bytes32) (positions : List Nat) :
    Except VotingError (RoundTables J) :=
    if positions.length ≠ commitments.length ∨
      derived.orderedProposalIds.length ≠ positions.length then mismatch
    else do
      let txHash := confirmation.confirmation.transactionHash.map hexEncode
      let confirmed ← t.applyVoteBatchConfirmation codec H derived.generation.identity.bundleIndex
        digest txHash confirmation.confirmation.finalVanPosition positions derived.orderedProposalIds
      storeCombinedHash derived.generation.identity txHash confirmed

/-- `retire_rejected_combined_generation`, without the count of rejections. -/
def retireRejectedCombinedGeneration : Except VotingError (RoundTables J) :=
  match identity.target with
  | .delegateAndVoteBatch digest =>
    if !t.authorizations.contains (identity.bundleIndex, digest) then
      .error (.internal "rejected combined generation has no persisted authorization")
    else do
      let (cleared, retired) ← t.clearVoteBatchRecovery codec H identity.bundleIndex digest
      if cleared.isEmpty then
        throw (.internal "rejected combined generation has no persisted members")
      else return retired
  | _ => .error (.internal "only a combined generation retires on rejection")

end ZcashVoting.Voting
