import ZcashVoting.Voting.ConfirmationEffects

/-!
# Vote phases and the retirement executor

The phase of a vote is that of the submission that owns it, singleton or batch, and for
a vote without a submission it is read from the columns. The retirement executor clears
the signed votes of a bundle whose proposals are not on the roster, as far as they have
no chain witness and no submission owns them.
-/
namespace ZcashVoting.Voting

open ChainSubmission RoundPlanning KeyedData

variable {J : Type} (codec : RecoveryCodec J) (H : BatchSighash) (wire : GenerationWire J)
  (db : VotingDb J)

/-! ### Phases -/

/-- `authoritative_submission_phase` of a stored row. -/
def authoritativeSubmissionPhase : ChainSubmissionState → VotePhase
  | .submitting => .submissionManaged
  | .tracking => .submissionManaged
  | .recovering => .submissionManaged
  | .submittedWithoutHash => .submittedWithoutHash
  | .rejected => .submissionRejected
  | .confirmed => .confirmed

def votePhaseFromColumns (hasTxHash hasVcPosition hasRecoveryBundle : Bool) : VotePhase :=
  if hasTxHash && hasVcPosition && hasRecoveryBundle then .confirmed
  else if hasTxHash then .submitted
  else if hasRecoveryBundle then .committed
  else .prepared

/-- The row is of this round and of the bundle. -/
def onBundle (b : Nat) (row : StoredChainSubmission) : Bool :=
  db.domain.holdsRound row.identity.roundId row.identity.walletId && row.identity.bundleIndex = b

/-- The singleton submission joined to a vote. -/
def singletonSubmission? (b p : Nat) : Option StoredChainSubmission :=
  db.submissions.find? fun row => onBundle db b row && row.identity.target = .vote p

/-- A vote claimed by an authoritative batch, with the batch's phase. -/
abbrev BatchClaims := List (VoteKey × VotePhase)

def claimMember (b : Nat) (phase : VotePhase) (claims : BatchClaims) (p : Nat) :
    Except VotingError BatchClaims :=
  if claims.any fun claim => claim.1 = ⟨b, p⟩ then
    .error (.internal s!"vote belongs to multiple authoritative batches for {db.domain.place b p}")
  else .ok (claims ++ [(⟨b, p⟩, phase)])

/-- The claims of one batch row, whose generation must be that of the stored members. -/
def claimBatch (claims : BatchClaims) (row : StoredChainSubmission) :
    Except VotingError BatchClaims :=
  match row.identity.target.batchDigest with
  | none => .ok claims
  | some digest => do
    let b := row.identity.bundleIndex
    let recoveries ← db.domain.validatedVoteBatch codec H wire b digest row.identity.target.isCombined
    let identity := { row.identity with network := db.domain.network }
    if row.generationDigest ≠ wire.generationDigest db.domain identity recoveries then
      throw (.internal s!"authoritative vote batch generation digest does not match persisted members for round={db.domain.roundId}, bundle={b}")
    else
      (recoveries.map VoteRecoveryBundle.proposalId).foldlM
        (claimMember db b (authoritativeSubmissionPhase row.durableState)) claims

def loadAuthoritativeBatchPhases : Except VotingError BatchClaims :=
    (db.submissions.filter fun row =>
    db.domain.holdsRound row.identity.roundId row.identity.walletId &&
      row.identity.target.batchDigest.isSome).foldlM (claimBatch codec H wire db) []

def batchClaim? (claims : BatchClaims) (key : VoteKey) : Option VotePhase :=
  (claims.find? fun claim => claim.1 = key).map Prod.snd

/-- The canonical phase of one vote. -/
def voteSubmissionPhase (claims : BatchClaims) (key : VoteKey) (row : VoteRow J) :
    Except VotingError VotePhase :=
  match singletonSubmission? db key.bundleIndex key.proposalId, batchClaim? claims key with
  | some _, some _ => .error (.internal s!"vote has overlapping authoritative singleton and batch submissions for {db.domain.place key.bundleIndex key.proposalId}")
  | some submission, none => .ok (authoritativeSubmissionPhase submission.durableState)
  | none, some phase => .ok phase
  | none, none => .ok (votePhaseFromColumns row.txHash.isSome row.vcTreePosition.isSome
      row.commitmentBundleJson.isSome)

/-- `load_vote_submission_statuses` of the whole round. -/
def loadVoteSubmissionStatuses : Except VotingError (KeyedMap VoteKey VotePhase) := do
  let claims ← loadAuthoritativeBatchPhases codec H wire db
  db.domain.votes.traverse (voteSubmissionPhase db claims)

def loadVote (phases : KeyedMap VoteKey VotePhase) (key : VoteKey) (row : VoteRow J) :
    Except VotingError VoteSnapshot :=
  match phases.get? key with
  | none => .error (.internal s!"vote row without a canonical phase for {db.domain.place key.bundleIndex key.proposalId}")
  | some phase => do
    let recovery ← row.commitmentBundleJson.mapM codec.parseRecovery
    return ⟨row.choice, phase, row.txHash, row.vcTreePosition, recovery⟩

/-- The votes of `load_round_snapshot`. -/
def loadVotes : Except VotingError (KeyedMap VoteKey VoteSnapshot) := do
  let phases ← loadVoteSubmissionStatuses codec H wire db
  db.domain.votes.traverse (loadVote codec db phases)

/-! ### Retirement -/

def voteRecoveryIsLifecycleOwned (b p : Nat) (batchDigest : Option Bytes32) : Bool :=
    db.submissions.any fun row =>
    onBundle db b row && (row.state.isUnresolved ||
        row.durableState = .rejected && row.identity.target.batchDigest.isSome) &&
      (row.identity.target = .vote p ||
        row.identity.target.batchDigest.isSome && row.identity.target.batchDigest = batchDigest)

/-- The signed votes off the roster that no witness protects, in proposal order. -/
def undispatchedVotes (b : Nat) (roster : List Nat) : List (Nat × J) :=
  (((db.domain.bundleVotes b).filter fun vote => !vote.2.witnessed && !roster.contains vote.1).filterMap
      fun vote => vote.2.commitmentBundleJson.map fun json => (vote.1, json)).insertionSort
    fun a b => a.1 ≤ b.1

/-- The tables, the retired proposals and those already cleared with a batch. -/
structure Retiring (J : Type) where
  tables : RoundTables J
  (retired cleared : List Nat)

/-- The body of the retirement loop. -/
def retireCandidate (b : Nat) (st : Retiring J) (candidate : Nat × VoteRecoveryBundle) :
    Except VotingError (Retiring J) :=
  let digest := candidate.2.batch.map VoteBatchRecovery.digest
  if st.cleared.contains candidate.1 then
    .ok { st with retired := st.retired ++ [candidate.1] }
  else if voteRecoveryIsLifecycleOwned db b candidate.1 digest then .ok st
  else
    match digest with
    | some digest => do
      let (cleared, tables) ← st.tables.clearVoteBatchRecovery codec H b digest
      return ⟨tables, st.retired ++ [candidate.1], st.cleared ++ cleared⟩
    | none => do
      let tables ← st.tables.clearUnsubmittedVoteRecovery b candidate.1
      return { st with tables, retired := st.retired ++ [candidate.1] }

def retireUndispatchedVotesOutsideRoster (b : Nat) (roster : List Nat) :
    Except VotingError (List Nat × VotingDb J) := do
  let candidates ← (undispatchedVotes db b roster).mapM fun vote =>
    (codec.parseRecovery vote.2).map fun recovery => (vote.1, recovery)
  let done ← candidates.foldlM (retireCandidate codec H db b) ⟨db.domain, [], []⟩
  return (done.retired, { db with domain := done.tables })

end ZcashVoting.Voting
