import ZcashVoting.Voting.RetirementAgreement

/-!
# Ballot intents

The writers of `ballot_intent`: one decision, several in one transaction, a decision taken
from a draft, and its removal. A changed decision clears the recoveries that were signed
for another one, a batch as a whole, and is refused where a submission owns them or the
chain has seen them.
-/
namespace ZcashVoting.Voting

open ChainSubmission RoundPlanning KeyedData List RoundTables

variable {J : Type} (codec : RecoveryCodec J) (H : BatchSighash) (wire : GenerationWire J)
  (t : RoundTables J) (db : VotingDb J)

/-! ### Decisions -/

def validateVoteOptions (numOptions : Nat) : Except VotingError Unit :=
  if minVoteOptions ≤ numOptions ∧ numOptions ≤ maxVoteOptions then .ok ()
  else .error (.invalidInput s!"num_options must be {minVoteOptions}..={maxVoteOptions}, got {numOptions}")

def validateBallotIntentDecision (decision : Decision) (numOptions : Nat) :
    Except VotingError Unit :=
  match decision with
  | .choice choice => validateVoteDecision choice numOptions
  | .skipped => validateVoteOptions numOptions

/-- The option a decision chooses. -/
def chosen : Decision → Option Nat
  | .choice choice => some choice
  | .skipped => none

/-! ### Votes of a proposal -/

namespace RoundTables

/-- The votes for a proposal, in bundle order. -/
def proposalVotes (p : Nat) : List (Nat × VoteRow J) := (t.votes.entries.filterMap fun (key, row) =>
    if key.proposalId = p then some (key.bundleIndex, row) else none).insertionSort fun a b =>
      a.1 ≤ b.1

def ensureNoSubmittedVoteConflictForIntent (p : Nat) (decision : Decision) :
    Except VotingError Unit :=
  match (t.proposalVotes p).find? fun vote =>
    vote.2.witnessed && chosen decision ≠ some vote.2.choice with
  | some (b, _) => .error (.invalidInput s!"round {t.roundId} bundle {b} proposal {p} has a submitted vote that conflicts with ballot intent")
  | none => .ok ()

/-- The recovery of a signed vote, checked against its row. -/
def readRecovery (p : Nat) (vote : Nat × Nat × J) :
    Except VotingError (Nat × VoteRecoveryBundle) := do
  let recovery ← codec.parseRecovery vote.2.2
  t.validateRecoveryMatchesStoredVote recovery vote.1 p vote.2.1 none
  return (vote.1, recovery)

/-- The signed votes for a proposal: bundle, stored choice and recovery text. -/
def signedVotes (p : Nat) : List (Nat × Nat × J) := (t.proposalVotes p).filterMap fun vote =>
    vote.2.commitmentBundleJson.map fun json => (vote.1, vote.2.choice, json)

/-- The row is there and no witness says that it reached the chain. -/
def ensureUnsubmitted (b p : Nat) (missing submitted : VotingError) : Except VotingError Unit :=
  match t.vote? b p with
  | none => .error missing
  | some row => if row.witnessed then .error submitted else .ok ()

end RoundTables

/-! ### Invalidation -/

def ensureVoteRecoveryIsNotLifecycleOwned (b p : Nat) (batchDigest : Option Bytes32) :
    Except VotingError Unit :=
  if voteRecoveryIsLifecycleOwned db b p batchDigest then
    .error (.invalidInput s!"round {db.domain.roundId} bundle {b} proposal {p} has lifecycle-owned vote recovery and its ballot intent is locked")
  else .ok ()

/-- The checks on one batch that the decision for `p` would clear. -/
def checkBatch (p : Nat) (batch : Nat × Bytes32) : Except VotingError Unit := do
  ensureVoteRecoveryIsNotLifecycleOwned db batch.1 p (some batch.2)
  let recoveries ← db.domain.loadVoteBatchRecoveries codec H batch.1 batch.2
  recoveries.forM fun recovery => db.domain.ensureUnsubmitted batch.1 recovery.proposalId
    (.invalidInput s!"persisted atomic vote batch is missing proposal {recovery.proposalId} for round={db.domain.roundId}, bundle={batch.1}")
    (.invalidInput s!"round {db.domain.roundId} bundle {batch.1} has a submitted atomic vote batch that conflicts with ballot intent for proposal {p}")

def checkSingleton (p b : Nat) : Except VotingError Unit := do
  ensureVoteRecoveryIsNotLifecycleOwned db b p none
  db.domain.ensureUnsubmitted b p
    (.invalidInput s!"persisted singleton vote is missing for round={db.domain.roundId}, bundle={b}, proposal={p}")
    (.invalidInput s!"round {db.domain.roundId} bundle {b} has a submitted singleton vote that conflicts with ballot intent for proposal {p}")

/-- The batches among votes, each with its bundle. -/
def batchKeys (votes : List (Nat × VoteRecoveryBundle)) : List (Nat × Bytes32) :=
  votes.filterMap fun vote => (batchDigestOf vote.2).map fun digest => (vote.1, digest)

/-- The bundles of the votes that are in no batch. -/
def singletonKeys (votes : List (Nat × VoteRecoveryBundle)) : List Nat :=
  (votes.filter fun vote => (batchDigestOf vote.2).isNone).map Prod.fst

def invalidateUnsubmittedVoteRecoveriesForIntent (p : Nat) (choice : Option Nat) :
    Except VotingError (RoundTables J) := do
  let votes ← (db.domain.signedVotes p).mapM (db.domain.readRecovery codec p)
  let conflicting := votes.filter fun vote => choice ≠ some vote.2.voteDecision
  (batchKeys conflicting).forM (checkBatch codec H db p)
  (singletonKeys conflicting).forM (checkSingleton db p)
  let unbatched ← (batchKeys conflicting).foldlM (fun t batch =>
    (t.clearVoteBatchRecovery codec H batch.1 batch.2).map Prod.snd) db.domain
  (singletonKeys conflicting).foldlM (fun t b => t.clearUnsubmittedVoteRecovery b p) unbatched

/-! ### Writers -/

/-- A helper share that the decision for `p` leaves. -/
def keepsShare (t : RoundTables J) (p : Nat) (decision : Decision)
    (share : ShareDelegationRecord) : Bool :=
  share.proposalId ≠ p ||
    match decision with
    | .skipped => false
    | .choice choice => (t.vote? share.bundleIndex p).any fun row => row.choice = choice

/-- `write_ballot_intent_in_tx`, without the ledger of combined rejections. -/
def writeBallotIntentInTx (p : Nat) (decision : Decision) : Except VotingError (VotingDb J) := do
  db.domain.ensureNoSubmittedVoteConflictForIntent p decision
  let t ← invalidateUnsubmittedVoteRecoveriesForIntent codec H db p (chosen decision)
  return { db with domain := { t with
    intents := t.intents.set p decision
    shares := t.shares.filter (keepsShare t p decision) } }

def setBallotIntent (p : Nat) (decision : Decision) (numOptions : Nat) :
    Except VotingError (VotingDb J) := do
  validateProposalId p
  validateBallotIntentDecision decision numOptions
  writeBallotIntentInTx codec H db p decision

/-- A decision of a batch with the proposal's option count. -/
structure IntentEntry where
  proposalId : Nat
  decision : Decision
  numOptions : Nat
  deriving DecidableEq

def admitIntent (seen : List Nat) (entry : IntentEntry) : Except VotingError (List Nat) := do
  validateProposalId entry.proposalId
  validateBallotIntentDecision entry.decision entry.numOptions
  if seen.contains entry.proposalId then
    throw (.invalidInput s!"ballot intent batch decides proposal {entry.proposalId} twice")
  else return entry.proposalId :: seen

def setBallotIntents (expected : Network) (entries : List IntentEntry) :
    Except VotingError (VotingDb J) := do
  let _ ← entries.foldlM admitIntent []
  if db.domain.network ≠ expected then
    throw (.invalidInput s!"round {db.domain.roundId} is stored for network {debugNetwork db.domain.network} but the ballot intents are for {debugNetwork expected}")
  else entries.foldlM (fun db entry => writeBallotIntentInTx codec H db entry.proposalId entry.decision) db

def setBallotIntentForDraftVote (draft : DraftVote) : Except VotingError (VotingDb J) := do
  validateDraftVote draft
  writeBallotIntentInTx codec H db draft.proposalId (.choice draft.choice)

def votePhasesForProposal (p : Nat) : Except VotingError (List (Nat × VotePhase)) := do
  let claims ← loadAuthoritativeBatchPhases codec H wire db
  (db.domain.proposalVotes p).mapM fun vote =>
    (voteSubmissionPhase db claims ⟨vote.1, p⟩ vote.2).map fun phase => (vote.1, phase)

def clearBallotIntent (p : Nat) : Except VotingError (VotingDb J) := do
  validateProposalId p
  let phases ← votePhasesForProposal codec H wire db p
  match phases.find? fun vote => votePhaseIsLifecycleOwned vote.2 with
  | some (b, phase) => throw (.invalidInput s!"round {db.domain.roundId} bundle {b} proposal {p} vote is {phase.asStr} on the chain lifecycle; its intent cannot be cleared")
  | none => do
    let t ← invalidateUnsubmittedVoteRecoveriesForIntent codec H db p none
    return { db with domain := { t with intents := t.intents.filterKeys fun q => q ≠ p } }

inductive BallotEdit where
  | set (proposalId : Nat) (decision : Decision) (numOptions : Nat)
  | setAll (expected : Network) (entries : List IntentEntry)
  | draft (draft : DraftVote)
  | clear (proposalId : Nat)

def applyEdit : BallotEdit → Except VotingError (VotingDb J)
  | .set p decision numOptions => setBallotIntent codec H db p decision numOptions
  | .setAll expected entries => setBallotIntents codec H db expected entries
  | .draft draft => setBallotIntentForDraftVote codec H db draft
  | .clear p => clearBallotIntent codec H wire db p

/-! ### What an accepted decision clears -/

section

variable {codec H wire t db} {db' : VotingDb J} {t' : RoundTables J} {b p : Nat}
  {recovery : VoteRecoveryBundle} {choice : Option Nat} {votes : List (Nat × VoteRecoveryBundle)}
  {batch : Nat × Bytes32} {decision : Decision} {row : VoteRow J}

theorem RoundTables.mem_proposalVotes : (b, row) ∈ t.proposalVotes p ↔ t.vote? b p = some row := by
  rw [proposalVotes, mem_insertionSort, vote?, KeyedMap.get?_eq_some_iff, mem_filterMap]
  constructor
  · rintro ⟨⟨key, _⟩, hmem, hkey⟩
    by_cases hp : key.proposalId = p
    · simp only [if_pos hp, Option.some.injEq] at hkey
      obtain ⟨rfl, rfl⟩ := hkey
      rw [← hp]
      exact hmem
    · simp [if_neg hp] at hkey
  · intro hmem
    exact ⟨(⟨b, p⟩, row), hmem, by simp⟩

/-- The stored choice is the decision that was signed. -/
theorem RoundTables.readRecovery_ok {vote : Nat × Nat × J} {read : Nat × VoteRecoveryBundle}
    (h : t.readRecovery codec p vote = .ok read) :
    read.1 = vote.1 ∧ codec.parseRecovery vote.2.2 = .ok read.2 ∧
      read.2.voteDecision = vote.2.1 := by
  obtain ⟨_, hpa, h⟩ := bind_ok h
  obtain ⟨_, hv, h⟩ := bind_ok h
  cases h
  refine ⟨rfl, hpa, ?_⟩
  unfold validateRecoveryMatchesStoredVote at hv
  by_contra hde
  split at hv
  · cases hv
  · split at hv
    · cases hv
    · split at hv <;> cases hv

theorem RoundTables.mem_readRecoveries
    (h : (t.signedVotes p).mapM (t.readRecovery codec p) = .ok votes) :
    (b, recovery) ∈ votes ↔ Signed codec t b p recovery := by
  constructor
  · intro hmem
    obtain ⟨_, hv, hr⟩ := mem_mapM_ok h hmem
    obtain ⟨⟨b', row⟩, hrow, hj⟩ := mem_filterMap.mp hv
    obtain ⟨json, hte, rfl⟩ := Option.map_eq_some_iff.mp hj
    obtain ⟨hb, hp, -⟩ := readRecovery_ok hr
    refine ⟨json, ?_, hp⟩
    rw [show b = b' from hb, recoveryJson, mem_proposalVotes.mp hrow]
    exact hte
  · rintro ⟨json, hj, hp⟩
    obtain ⟨row, hrow, hj⟩ := Option.bind_eq_some_iff.mp hj
    have hv : (b, row.choice, json) ∈ t.signedVotes p :=
      mem_filterMap.mpr ⟨(b, row), mem_proposalVotes.mpr hrow, by simp [hj]⟩
    obtain ⟨⟨b', _⟩, hfo, hr⟩ := mapM_ok_of_mem h hv
    obtain ⟨hb, hp', -⟩ := readRecovery_ok hr
    rw [hp] at hp'
    rw [Except.ok.inj hp', ← show b' = b from hb]
    exact hfo

/-- What an accepted decision does to the recoveries: the units signed for another
decision are cleared, none of which a submission owns. -/
structure Invalidated (codec : RecoveryCodec J) (db : VotingDb J) (p : Nat) (choice : Option Nat)
    (t' : RoundTables J) (cleared : List VoteKey) : Prop where
  clears : Clears db.domain t' cleared
  origin : ∀ key ∈ cleared, ∃ recovery, Signed codec db.domain key.bundleIndex p recovery ∧
    choice ≠ some recovery.voteDecision ∧ db.domain.recorded key.bundleIndex p = false ∧
    ¬ExecutorOwned db key.bundleIndex (p, recovery) ∧
    InUnit codec db.domain key.bundleIndex (p, recovery) key.proposalId
  whole : ∀ b recovery q, Signed codec db.domain b p recovery →
    choice ≠ some recovery.voteDecision →
    InUnit codec db.domain b (p, recovery) q → ⟨b, q⟩ ∈ cleared
  decided : ∀ b recovery row, Signed codec db.domain b p recovery → db.domain.vote? b p = some row →
    recovery.voteDecision = row.choice
  /-- Every signed vote for the proposal was read. -/
  parsed : ∀ b, (db.domain.recoveryJson b p).isSome = true →
    ∃ recovery, Signed codec db.domain b p recovery

/-- The loop over the batches clears the recoveries that name one of them. -/
theorem clearBatches_clears {batches : List (Nat × Bytes32)} (hpro : ProperRecoveries codec t)
    (h : batches.foldlM (fun t batch =>
      (t.clearVoteBatchRecovery codec H batch.1 batch.2).map Prod.snd) t = .ok t') :
    ∃ cleared, Clears t t' cleared ∧ ∀ key, key ∈ cleared ↔
      ∃ batch ∈ batches, key.bundleIndex = batch.1 ∧
        ∃ member, Signed codec t batch.1 key.proposalId member ∧
          batchDigestOf member = some batch.2 := by
  refine foldlM_ok_induction (fun seen st => ∃ cleared, Clears t st cleared ∧
    ∀ key, key ∈ cleared ↔ ∃ batch ∈ seen, key.bundleIndex = batch.1 ∧
      ∃ member, Signed codec t batch.1 key.proposalId member ∧ batchDigestOf member = some batch.2)
    h ⟨[], .refl t, by simp⟩ ?_
  rintro seen ⟨b, D⟩ _ st _ - ⟨cleared, hc, hmem⟩ hst
  obtain ⟨done, hcl, rfl⟩ := map_ok hst
  obtain ⟨hne, _, hme, hpr⟩ := clearVoteBatchRecovery_clears hcl
  refine ⟨_, hc.trans hne, fun key => ?_⟩
  have hnew : key ∈ done.1.map (VoteKey.mk b) ↔ key.bundleIndex = b ∧ key ∉ cleared ∧
      ∃ member, Signed codec t b key.proposalId member ∧ batchDigestOf member = some D := by
    have hb {q : Nat} := mem_batchProposals (q := q) (hc.trims.proper hpro) hme
    rw [hpr, mem_map]
    constructor
    · rintro ⟨_, hq, rfl⟩
      obtain ⟨member, hs, hin⟩ := hb.mp hq
      rw [hc.trims.signed_iff] at hs
      exact ⟨rfl, hs.1, member, hs.2, hin⟩
    · rintro ⟨rfl, hout, member, hs, hin⟩
      exact ⟨key.proposalId, hb.mpr ⟨member, hc.trims.signed_iff.mpr ⟨hout, hs⟩, hin⟩, rfl⟩
  simp only [mem_append, hnew, mem_singleton, or_and_right, exists_or, ← hmem]
  by_cases hin : key ∈ cleared <;> simp [hin]

/-- The loop over the singletons clears the votes for `p` on their bundles. -/
theorem clearSingletons_clears {bundles : List Nat}
    (h : bundles.foldlM (fun t b => t.clearUnsubmittedVoteRecovery b p) t = .ok t') :
    Clears t t' (bundles.map fun b => ⟨b, p⟩) :=
  foldlM_ok_induction (fun seen st => Clears t st (seen.map fun b => ⟨b, p⟩)) h (.refl t)
    fun seen b _ st st' _ ih hst => by
      simpa using ih.trans (clearUnsubmittedVoteRecovery_clears hst)

theorem checkBatch_ok (h : checkBatch codec H db p batch = .ok ()) :
    voteRecoveryIsLifecycleOwned db batch.1 p (some batch.2) = false := by
  obtain ⟨_, ho, -⟩ := bind_ok h
  unfold ensureVoteRecoveryIsNotLifecycleOwned at ho
  by_contra hyes
  rw [if_pos (Bool.eq_true_of_not_eq_false hyes)] at ho
  cases ho

theorem checkSingleton_ok (h : checkSingleton db p b = .ok ()) :
    voteRecoveryIsLifecycleOwned db b p none = false := by
  obtain ⟨_, ho, -⟩ := bind_ok h
  unfold ensureVoteRecoveryIsNotLifecycleOwned at ho
  by_contra hyes
  rw [if_pos (Bool.eq_true_of_not_eq_false hyes)] at ho
  cases ho

theorem mem_batchKeys : batch ∈ batchKeys votes ↔
      ∃ recovery, (batch.1, recovery) ∈ votes ∧ batchDigestOf recovery = some batch.2 := by
  rw [batchKeys, mem_filterMap]
  constructor
  · rintro ⟨⟨_, recovery⟩, hmem, hdi⟩
    obtain ⟨_, hD, rfl⟩ := Option.map_eq_some_iff.mp hdi
    exact ⟨recovery, hmem, hD⟩
  · rintro ⟨recovery, hmem, hD⟩
    exact ⟨(batch.1, recovery), hmem, by simp [hD]⟩

theorem mem_singletonKeys :
    b ∈ singletonKeys votes ↔ ∃ recovery, (b, recovery) ∈ votes ∧
      batchDigestOf recovery = none := by
  simp [singletonKeys]

theorem invalidate_ok (hpr : ProperRecoveries codec db.domain)
    (h : invalidateUnsubmittedVoteRecoveriesForIntent codec H db p choice = .ok t') :
    ∃ cleared, Invalidated codec db p choice t' cleared := by
  obtain ⟨votes, hv, h⟩ := bind_ok h
  obtain ⟨_, hbat, h⟩ := bind_ok h
  obtain ⟨_, hsi, h⟩ := bind_ok h
  obtain ⟨_, hun, h⟩ := bind_ok h
  rw [forM_ok] at hbat hsi
  obtain ⟨batched, hcl, hmem⟩ := clearBatches_clears hpr hun
  have hd := hcl.trans (clearSingletons_clears h)
  have hco : ∀ b recovery, (b, recovery) ∈ votes.filter (fun vote =>
      choice ≠ some vote.2.voteDecision) ↔
      Signed codec db.domain b p recovery ∧ choice ≠ some recovery.voteDecision := by
    intro b recovery
    rw [mem_filter, mem_readRecoveries hv]
    simp
  refine ⟨_, hd, ?_, ?_, ?_, ?_⟩
  · intro key hkey
    rcases mem_append.mp hkey with hin | hin
    · obtain ⟨batch, hba, hb, member, hme, hdi⟩ := (hmem key).mp hin
      have ho := checkBatch_ok (hbat batch hba)
      obtain ⟨recovery, hc, hD⟩ := mem_batchKeys.mp hba
      obtain ⟨hs, hch⟩ := (hco _ _).mp hc
      refine ⟨recovery, hb ▸ hs, hch, ?_, ?_, ?_⟩
      · have hse : ⟨batch.1, p⟩ ∈ batched := (hmem _).mpr ⟨batch, hba, rfl, recovery, hs, hD⟩
        rw [hb]
        exact hcl.unrecorded _ hse
      · rw [ExecutorOwned, hD, hb, ho]
        simp
      · simp only [InUnit, hD, hb]
        exact ⟨member, hme, hdi⟩
    · obtain ⟨b, hb, rfl⟩ := mem_map.mp hin
      have ho := checkSingleton_ok (hsi b hb)
      obtain ⟨recovery, hc, hD⟩ := mem_singletonKeys.mp hb
      obtain ⟨hs, hch⟩ := (hco _ _).mp hc
      refine ⟨recovery, hs, hch, hd.unrecorded _ hkey, ?_, ?_⟩
      · rw [ExecutorOwned, hD, ho]
        simp
      · simp [InUnit, hD]
  · intro b recovery q hs hch hin
    have hc := (hco b recovery).mpr ⟨hs, hch⟩
    rw [mem_append]
    cases hD : batchDigestOf recovery with
    | none =>
      simp only [InUnit, hD] at hin
      rw [hin]
      exact .inr (mem_map.mpr ⟨b, mem_singletonKeys.mpr ⟨recovery, hc, hD⟩, rfl⟩)
    | some D =>
      simp only [InUnit, hD] at hin
      exact .inl ((hmem _).mpr ⟨(b, D), mem_batchKeys.mpr ⟨recovery, hc, hD⟩, rfl, hin⟩)
  · intro b recovery row hs hrow
    have hr := (mem_readRecoveries hv).mpr hs
    obtain ⟨_, hvo, hr⟩ := mem_mapM_ok hv hr
    obtain ⟨⟨b', _⟩, hrow', hj⟩ := mem_filterMap.mp hvo
    obtain ⟨json, -, rfl⟩ := Option.map_eq_some_iff.mp hj
    obtain ⟨hb, -, hde⟩ := readRecovery_ok hr
    have hsa := mem_proposalVotes.mp hrow'
    rw [← show b = b' from hb, hrow] at hsa
    rw [Option.some.inj hsa]
    exact hde
  · intro b hso
    obtain ⟨json, hj⟩ := Option.isSome_iff_exists.mp hso
    obtain ⟨row, hrow, hte⟩ := Option.bind_eq_some_iff.mp hj
    have hvo : (b, row.choice, json) ∈ db.domain.signedVotes p :=
      mem_filterMap.mpr ⟨(b, row), mem_proposalVotes.mpr hrow, by simp [hte]⟩
    obtain ⟨read, -, hr⟩ := mapM_ok_of_mem hv hvo
    exact ⟨read.2, json, hj, (readRecovery_ok hr).2.1⟩

/-! ### Accepted edits -/

/-- One accepted edit of the decision for `p`, through the tables `t'` that the
invalidation leaves. -/
structure Edited (codec : RecoveryCodec J) (db db' : VotingDb J) (p : Nat)
    (decision : Option Decision) (t' : RoundTables J) (cleared : List VoteKey) : Prop where
  invalidated : Invalidated codec db p (decision.bind chosen) t' cleared
  rest : db' = { db with domain :=
    { t' with intents := db'.domain.intents, shares := db'.domain.shares } }
  intents : ∀ q, db'.domain.intents.get? q = if q = p then decision else db.domain.intents.get? q
  shares : db'.domain.shares = t'.shares.filter fun share => decision.all (keepsShare t' p · share)
  /-- A vote that has reached the chain keeps its choice. -/
  witnessed : ∀ made b row, decision = some made → db.domain.vote? b p = some row →
    row.witnessed = true → chosen made = some row.choice

section

variable {decision : Option Decision} {cleared : List VoteKey}

section

variable (h : Edited codec db db' p decision t' cleared)
include h

theorem Edited.trims : Trims db.domain db'.domain cleared := by
  refine ⟨fun key => ?_, ?_⟩
  · rw [← h.invalidated.clears.votes, h.rest]
  · rw [h.rest, h.invalidated.clears.rest]

theorem Edited.submissions : db'.submissions = db.submissions := by
  rw [h.rest]

/-- A signed vote that the edit leaves has the decision that is made. -/
theorem Edited.decided (hs : Signed codec db.domain b p recovery) (hke : ⟨b, p⟩ ∉ cleared) :
    decision.bind chosen = some recovery.voteDecision := by
  by_contra hne
  exact hke (h.invalidated.whole b recovery p hs hne (inUnit_self hs))

end

end

theorem RoundTables.ensureNoSubmittedVoteConflictForIntent_ok
    (h : t.ensureNoSubmittedVoteConflictForIntent p decision = .ok ())
    (hrow : t.vote? b p = some row) (hw : row.witnessed = true) :
    chosen decision = some row.choice := by
  unfold ensureNoSubmittedVoteConflictForIntent at h
  split at h
  · cases h
  next hno =>
    have hfr := List.find?_eq_none.mp hno (b, row) (mem_proposalVotes.mpr hrow)
    simpa [hw] using hfr

theorem writeBallotIntentInTx_ok (hpr : ProperRecoveries codec db.domain)
    (h : writeBallotIntentInTx codec H db p decision = .ok db') :
    ∃ t' cleared, Edited codec db db' p (some decision) t' cleared := by
  obtain ⟨_, hco, h⟩ := bind_ok h
  obtain ⟨t', ht', h⟩ := bind_ok h
  obtain ⟨cleared, hinv⟩ := invalidate_ok hpr ht'
  cases h
  refine ⟨t', cleared, hinv, rfl, fun q => ?_, rfl, ?_⟩
  · rw [KeyedMap.get?_set, hinv.clears.rest]
  · intro made b row hma hrow hw
    cases hma
    exact ensureNoSubmittedVoteConflictForIntent_ok hco hrow hw

theorem clearBallotIntent_ok (hpr : ProperRecoveries codec db.domain)
    (h : clearBallotIntent codec H wire db p = .ok db') :
    ∃ t' cleared, Edited codec db db' p none t' cleared := by
  obtain ⟨_, -, h⟩ := bind_ok h
  obtain ⟨_, -, h⟩ := bind_ok h
  split at h
  · cases h
  obtain ⟨t', ht', h⟩ := bind_ok h
  obtain ⟨cleared, hinv⟩ := invalidate_ok hpr ht'
  cases h
  refine ⟨t', cleared, hinv, rfl, fun q => ?_, by simp, nofun⟩
  by_cases hq : q = p
  · rw [if_pos hq, KeyedMap.get?_filterKeys_eq_none (by simp [hq])]
  · rw [if_neg hq, KeyedMap.get?_filterKeys (by simp [hq]), hinv.clears.rest]

/-- One statement of an edit: a decision written or removed. -/
inductive EditStep (codec : RecoveryCodec J) (H : BatchSighash) (wire : GenerationWire J)
    (db db' : VotingDb J) : Prop where
  | write {p : Nat} {decision : Decision} (accepted : writeBallotIntentInTx codec H db p decision = .ok db')
  | clear {p : Nat} (accepted : clearBallotIntent codec H wire db p = .ok db')

theorem EditStep.edited (hp : ProperRecoveries codec db.domain) (h : EditStep codec H wire db db') :
    ∃ p decision t' cleared, Edited codec db db' p decision t' cleared := by
  cases h with
  | write accepted => exact ⟨_, _, writeBallotIntentInTx_ok hp accepted⟩
  | clear accepted => exact ⟨_, _, clearBallotIntent_ok hp accepted⟩

open Relation in
theorem writeAll_reach {entries : List IntentEntry} (h : entries.foldlM (fun db entry =>
      writeBallotIntentInTx codec H db entry.proposalId entry.decision) db = .ok db') :
    ReflTransGen (EditStep codec H wire) db db' :=
  foldlM_ok_induction (fun _ st => ReflTransGen (EditStep codec H wire) db st) h .refl
    fun _ _ _ _ _ _ ih hst => ih.tail (.write hst)

open Relation in
theorem applyEdit_reach {edit : BallotEdit} (h : applyEdit codec H wire db edit = .ok db') :
    ReflTransGen (EditStep codec H wire) db db' := by
  cases edit with
  | set =>
    obtain ⟨_, -, h⟩ := bind_ok h
    obtain ⟨_, -, h⟩ := bind_ok h
    exact .single (.write h)
  | setAll =>
    obtain ⟨_, -, h⟩ := bind_ok h
    split at h
    · cases h
    · exact writeAll_reach h
  | draft =>
    obtain ⟨_, -, h⟩ := bind_ok h
    exact .single (.write h)
  | clear => exact .single (.clear h)

open Relation in
/-- A sequence of accepted edits is a sequence of statements. -/
theorem edits_reach {edits : List BallotEdit}
    (h : edits.foldlM (applyEdit codec H wire) db = .ok db') :
    ReflTransGen (EditStep codec H wire) db db' :=
  foldlM_ok_induction (fun _ st => ReflTransGen (EditStep codec H wire) db st) h .refl
    fun _ _ _ _ _ _ ih hst => ih.trans (applyEdit_reach hst)

end

end ZcashVoting.Voting
