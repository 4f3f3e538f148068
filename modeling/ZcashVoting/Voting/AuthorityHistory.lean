import ZcashVoting.Voting.Authority

/-!
# The authority of a bundle over a history

Casts and confirmations move a bundle. A cast changes no witness; a confirmation adds
the witnesses of exactly the votes its generation names. So the mask of the next cast is
the full mask without the proposals confirmed so far, and inside a batch without those
of the earlier actions, each action taking over the note of the one before.
-/
namespace ZcashVoting.Voting

open ChainSubmission RoundPlanning KeyedData RoundTables List

variable {J : Type} {codec : RecoveryCodec J} {H : BatchSighash} {crypto : VotingCrypto J}
  {secret : List UInt8} {t t' : RoundTables J} {start db db' : VotingDb J} {b p i : Nat}
  {keys : List VoteKey} {plans : List (BatchProofPlan J)} {votes : List (PreparedVoteCommit J)}
  {spent : Nat → Prop} {initial : VotePreparationState J} {plan : BatchProofPlan J}
  {batch : AtomicVoteBatch} {network : Network}

/-! ### Confirmations -/

/-- The votes a generation confirms. -/
def confirmedKeys (derived : DerivedChainSubmission) : List VoteKey :=
  let b := derived.generation.identity.bundleIndex
  match derived.generation.identity.target with
  | .delegation => []
  | .vote p => [⟨b, p⟩]
  | .voteBatch _ | .delegateAndVoteBatch _ => derived.orderedProposalIds.map fun q => ⟨b, q⟩

theorem applyConfirmedGeneration_confirms {derived : DerivedChainSubmission}
    {confirmation : ValidatedChainSubmissionConfirmation}
    (h : applyConfirmedGeneration codec H t derived confirmation = .ok t') :
    Confirms codec t t' (confirmedKeys derived) := by
  unfold applyConfirmedGeneration at h
  unfold confirmedKeys
  simp only at h
  split at h
  next ht _ _ =>
    rw [ht]
    exact .of_bundles (applyDelegationConfirmation_ok h)
  next ht _ _ =>
    rw [ht]
    exact applyVoteConfirmation_ok h
  next ht _ =>
    rw [ht]
    exact applyBatch_ok h
  next ht _ =>
    rw [ht]
    exact applyBatch_ok h
  next => cases h

theorem Confirms.recorded_iff (h : Confirms codec t t' keys) :
    t'.recorded b p = true ↔ t.recorded b p = true ∨ ⟨b, p⟩ ∈ keys := by
  by_cases hkey : ⟨b, p⟩ ∈ keys
  · obtain ⟨_, _, -, hrow', hco⟩ := h.rows _ hkey
    simp [recorded, vote?, hrow', VoteRow.witnessed, hco.positioned, hkey]
  · simp [recorded, vote?, h.kept _ hkey, hkey]

/-! ### Masks -/

/-- The mask is the full one without exactly the spent proposals. -/
def MaskWithout (spent : Nat → Prop) (mask : AuthorityMask) : Prop :=
  ∀ q < 64, mask.getLsbD q = true ↔ maxProposalAuthority.getLsbD q = true ∧ ¬spent q

/-- The rows of the bundle are for proposals that a mask can hold. -/
def RowsInMask (t : RoundTables J) (b : Nat) : Prop := ∀ p row, t.vote? b p = some row → p < 64

theorem RowsInMask.recorded (h : RowsInMask t b) (hrec : t.recorded b p = true) : p < 64 := by
  rw [RoundTables.recorded, Option.any_eq_true] at hrec
  obtain ⟨row, hrow, -⟩ := hrec
  exact h p row hrow

theorem proposalAuthority_without (h : RowsInMask t b) :
    MaskWithout (fun q => t.recorded b q = true) (t.proposalAuthority b) := by
  intro q _
  rw [proposalAuthority, getLsbD_foldl_clearProposal, Bool.and_eq_true, Bool.not_eq_true',
    any_eq_false]
  refine and_congr_right fun _ => ⟨fun hno hrec => ?_, fun hrec r hr => ?_⟩
  · have hne := hno q (mem_recordedProposals.mpr hrec)
    simp [Nat.mod_eq_of_lt (h.recorded hrec)] at hne
  have hr' := mem_recordedProposals.mp hr
  rw [decide_eq_true_eq, Nat.mod_eq_of_lt (h.recorded hr')]
  rintro rfl
  exact hrec hr'

theorem MaskWithout.foldl_clearProposal {mask : AuthorityMask}
    {proposals : List Nat} (h : MaskWithout spent mask) (hpr : ∀ q ∈ proposals, q < 64) :
    MaskWithout (fun q => spent q ∨ q ∈ proposals) (proposals.foldl clearProposal mask) := by
  intro q hq
  rw [getLsbD_foldl_clearProposal, Bool.and_eq_true, Bool.not_eq_true', any_eq_false, h q hq,
    not_or, and_assoc]
  refine and_congr_right fun _ => and_congr_right fun _ => ⟨fun hno hmem => ?_, fun hmem r hr => ?_⟩
  · have hne := hno q hmem
    simp [Nat.mod_eq_of_lt hq] at hne
  · rw [decide_eq_true_eq, Nat.mod_eq_of_lt (hpr r hr)]
    rintro rfl
    exact hmem hr

theorem MaskWithout.unspent {mask : AuthorityMask} (h : MaskWithout spent mask)
    (hp : p < 64) (hbit : mask.getLsbD p = true) : ¬spent p :=
  ((h p hp).mp hbit).2

theorem MaskWithout.congr {spent' : Nat → Prop} {mask : AuthorityMask}
    (h : MaskWithout spent mask) (hiff : ∀ q, spent q ↔ spent' q) : MaskWithout spent' mask := by
  intro q hq
  rw [h q hq, hiff]

theorem maskBefore_succ {initial : AuthorityMask} (hi : plans[i]? = some plan) :
    maskBefore initial plans (i + 1) =
      clearProposal (maskBefore initial plans i) plan.draft.proposalId := by
  rw [maskBefore, take_add_one, hi, map_append, foldl_append]
  rfl

theorem Confirms.rowsInMask (h : Confirms codec t t' keys) (hr : RowsInMask t b) :
    RowsInMask t' b := by
  intro q row hrow
  by_cases hkey : ⟨b, q⟩ ∈ keys
  · obtain ⟨old, -, hold, -⟩ := h.rows _ hkey
    exact hr q old hold
  · rw [vote?, h.kept _ hkey] at hrow
    exact hr q row hrow

/-! ### The actions of a batch -/

/-- The new note of an action is the old note of the next. -/
theorem planBatch_chain {members : List (DraftVote × VotePreparationState J)}
    (hv : validateCapturedBatchState t batch network initial members = .ok ())
    (hp : planBatch crypto secret batch initial members = .ok plans)
    {next : BatchProofPlan J} (hi : plans[i]? = some plan) (hn : plans[i + 1]? = some next) :
    plan.transition.voteAuthorityNoteNew = next.transition.voteAuthorityNoteOld := by
  obtain ⟨-, hpl⟩ := planBatch_spends hp hi
  obtain ⟨-, hnex'⟩ := planBatch_spends hp hn
  obtain ⟨hne, hzkp2, -⟩ := planBatch_captured hv hp (mem_of_getElem? hi)
  obtain ⟨hne', hzkp2', -⟩ := planBatch_captured hv hp (mem_of_getElem? hn)
  have hkey : authorityKey secret plan.state = authorityKey secret next.state := by
    simp only [authorityKey, hne, hne', hzkp2, hzkp2']
  rw [hpl, hnex', maskBefore_succ hi, hkey]

/-- What holds of the actions of a batch that is proved afresh: each stores what is proved on its
plan, on the mask that the proposals spent before and the earlier actions leave, with its own
bit still set, and it takes over the note of the action before it. -/
structure ChainedActions (crypto : VotingCrypto J) (secret : List UInt8) (batch : AtomicVoteBatch)
    (spent : Nat → Prop) (votes : List (PreparedVoteCommit J))
    (plans : List (BatchProofPlan J)) : Prop where
  drafts : plans.map BatchProofPlan.draft = batch.drafts
  proved : ∀ vote ∈ votes, ∃ plan ∈ plans, ∃ bundle sealed metadata, vote.draft = plan.draft ∧
    buildBatchProof crypto secret batch.witness.anchorHeight plan = .ok bundle ∧
    bundle.voteAuthorityNoteNew = plan.transition.voteAuthorityNoteNew ∧
    vote.recovery = { recoveryFromParts batch.bundleIndex plan.draft
      plan.state.zkp2.votingRoundId batch.witness.anchorHeight bundle sealed with
        batch := some metadata }
  masks : ∀ i plan, plans[i]? = some plan →
    MaskWithout (fun q => spent q ∨ q ∈ (batch.drafts.take i).map DraftVote.proposalId)
      plan.proposalAuthority
  unspent : ∀ i plan, plans[i]? = some plan → ¬spent plan.draft.proposalId ∧
    plan.draft.proposalId ∉ (batch.drafts.take i).map DraftVote.proposalId
  notes : ∀ i plan next, plans[i]? = some plan → plans[i + 1]? = some next →
    plan.transition.voteAuthorityNoteNew = next.transition.voteAuthorityNoteOld

theorem buildBatchProof_note {anchorHeight : Nat} {bundle : VoteCommitmentBundle}
    (h : buildBatchProof crypto secret anchorHeight plan = .ok bundle) :
    bundle.voteAuthorityNoteNew = plan.transition.voteAuthorityNoteNew := by
  obtain ⟨_, -, h⟩ := bind_ok h
  obtain ⟨hno, h⟩ := guard_ok h
  cases h
  exact not_not.mp hno

/-- A batch of fresh votes on a mask that lacks exactly the spent proposals. -/
theorem chainedActions_of_fresh {reads : BatchReads J} {rest : List (VotePreparationState J)}
    (hdr : votes.map PreparedVoteCommit.draft = batch.drafts)
    (hle : (initial :: rest).length = batch.drafts.length)
    (hva : validateCapturedBatchState reads.captured batch network initial
      (batch.drafts.zip (initial :: rest)) = .ok ())
    (hpla : planBatch crypto secret batch initial (batch.drafts.zip (initial :: rest)) = .ok plans)
    (hvo : ∀ vote ∈ votes, FreshVote crypto secret reads batch plans vote)
    (hma : MaskWithout spent initial.zkp2.proposalAuthority) :
    ChainedActions crypto secret batch spent votes plans := by
  have hp : plans.map BatchProofPlan.draft = batch.drafts := by
    have hfst := congrArg (List.map Prod.fst) (planBatch_members hpla)
    rw [map_map, map_fst_zip (by omega)] at hfst
    exact hfst
  -- every draft belongs to a vote, and its proof bounds the proposal
  have hb : ∀ draft ∈ batch.drafts, draft.proposalId < 64 := by
    intro draft hd
    rw [← hdr] at hd
    obtain ⟨vote, hv, rfl⟩ := mem_map.mp hd
    obtain ⟨plan, -, bundle, heq, -, hpr, -⟩ := (hvo vote hv).planned
    rw [heq]
    exact (buildBatchProof_bit hpr).1
  have hm : ∀ i plan, plans[i]? = some plan →
      MaskWithout (fun q => spent q ∨ q ∈ (batch.drafts.take i).map DraftVote.proposalId)
        plan.proposalAuthority := by
    intro i plan hi
    obtain ⟨-, hpl⟩ := planBatch_spends hpla hi
    have hta : (plans.take i).map (fun plan => plan.draft.proposalId) =
        (batch.drafts.take i).map DraftVote.proposalId := by
      rw [← hp, ← map_take, map_map]
      rfl
    rw [BatchProofPlan.proposalAuthority, hpl, maskBefore, hta]
    refine hma.foldl_clearProposal fun q hq => ?_
    obtain ⟨draft, hd, rfl⟩ := mem_map.mp hq
    exact hb draft (mem_of_mem_take hd)
  refine ⟨hp, ?_, hm, ?_, fun i plan next hi hne =>
    planBatch_chain hva hpla hi hne⟩
  · intro vote hv
    obtain ⟨plan, hpl, bundle, heq, -, hpr, sealed, metadata, hre⟩ := (hvo vote hv).planned
    exact ⟨plan, hpl, bundle, sealed, metadata, heq, hpr, buildBatchProof_note hpr, hre⟩
  · intro i plan hi
    obtain ⟨hbit, hpl⟩ := planBatch_spends hpla hi
    have hmem : plan.draft ∈ batch.drafts := by
      rw [← hp]
      exact mem_map_of_mem (mem_of_getElem? hi)
    have hold : plan.proposalAuthority.getLsbD plan.draft.proposalId = true := by
      rw [BatchProofPlan.proposalAuthority, hpl]
      exact hbit
    exact not_or.mp ((hm i plan hi).unspent (hb _ hmem) hold)

/-! ### Histories -/

section

variable [DecidableEq J] {first : RoundTables J} {c : Nat}

/-- Casts and confirmations from `start`, with the votes confirmed on the way. A
transaction of the store that touches no voting table is a `store` step. -/
inductive AuthorityHistory (codec : RecoveryCodec J) (H : BatchSighash) (start : VotingDb J) :
    List VoteKey → VotingDb J → Prop where
  | start : AuthorityHistory codec H start [] start
  | cast {keys : List VoteKey} {db db' : VotingDb J} (hrun : AuthorityHistory codec H start keys db)
      (first : RoundTables J) (b : Nat) (votes : List (PreparedVoteCommit J))
      (h : Accepted codec first db db' b votes) : AuthorityHistory codec H start keys db'
  | confirm {keys : List VoteKey} {db db' : VotingDb J}
      (hrun : AuthorityHistory codec H start keys db) (derived : DerivedChainSubmission)
      (confirmation : ValidatedChainSubmissionConfirmation)
      (h : applyConfirmedGeneration codec H db.domain derived confirmation = .ok db'.domain) :
      AuthorityHistory codec H start (keys ++ confirmedKeys derived) db'
  | store {keys : List VoteKey} {db db' : VotingDb J}
      (hrun : AuthorityHistory codec H start keys db) (h : db'.domain = db.domain) :
      AuthorityHistory codec H start keys db'

/-- The vote had reached the chain at the start, or was confirmed since. -/
def Spent (start : VotingDb J) (keys : List VoteKey) (b q : Nat) : Prop :=
  start.domain.recorded b q = true ∨ ⟨b, q⟩ ∈ keys

theorem Accepted.recorded_eq (h : Accepted codec first db db' c votes) :
    db'.domain.recorded b p = db.domain.recorded b p := by
  obtain ⟨-, -, _, hpe, hdo⟩ := h.persisted
  rw [← hpe.recorded, hdo]
  rfl

theorem Accepted.rowsInMask (h : Accepted codec first db db' c votes)
    (hro : RowsInMask db.domain b) :
    RowsInMask db'.domain b := by
  obtain ⟨-, -, domain, hpe, hdo⟩ := h.persisted
  intro q row hrow
  have hrow' : domain.votes.get? ⟨b, q⟩ = some row := by
    rw [vote?, hdo] at hrow
    exact hrow
  rcases hpe.cases ⟨b, q⟩ with hke | ⟨vote, hvo, _, hca, hkey, -, -⟩
  · rw [hke] at hrow'
    exact hro q row hrow'
  · have hq : vote.draft.proposalId = q := congrArg VoteKey.proposalId hkey
    rw [← hq]
    exact (h.bit hvo hca).1

section

variable (h : AuthorityHistory codec H start keys db)
include h

/-- **Run.** What is recorded is what was recorded at the start or confirmed since. -/
theorem AuthorityHistory.recorded_iff : db.domain.recorded b p = true ↔ Spent start keys b p := by
  induction h with
  | start => simp [Spent]
  | cast _ _ _ _ hca ih => rw [hca.recorded_eq, ih]
  | confirm _ _ _ hco ih =>
    rw [(applyConfirmedGeneration_confirms hco).recorded_iff, ih, Spent, Spent,
      mem_append, or_assoc]
  | store _ hdo ih => rw [hdo, ih]

theorem AuthorityHistory.rowsInMask (hro : RowsInMask start.domain b) : RowsInMask db.domain b := by
  induction h with
  | start => exact hro
  | cast _ _ _ _ hca ih => exact hca.rowsInMask ih
  | confirm _ _ _ hco ih =>
    exact (applyConfirmedGeneration_confirms hco).rowsInMask ih
  | store _ hdo ih => rw [hdo]; exact ih

theorem AuthorityHistory.mask (hro : RowsInMask start.domain b) :
    MaskWithout (Spent start keys b) (db.domain.proposalAuthority b) :=
  (proposalAuthority_without (h.rowsInMask hro)).congr fun _ => h.recorded_iff

end

end

/-! ### A batch after a confirmation -/

/-- A vote for proposal 3 is stored. -/
def thirdStored : VotingDb VoteRecoveryBundle :=
  ⟨[], plainTables (.single ⟨0, 3⟩ (plainRow maxProposalAuthority ⟨3, 0, 2, 0, false⟩)) []⟩

/-- Its generation, found in the tree with the new note at leaf 5. -/
def thirdDerived : DerivedChainSubmission :=
  ⟨sampleGeneration (.vote 3), .vote "vote", .vote zeroBytes32 zeroBytes32, []⟩

def thirdConfirmation : ValidatedChainSubmissionConfirmation :=
  .tree ⟨none, 5, [6]⟩

def laterBatch : AtomicVoteBatch := ⟨0, [⟨1, 0, 2, 0, false⟩, ⟨2, 1, 2, 0, false⟩],
  ⟨List.replicate vanAuthPathLen zeroBytes32, 5, 100⟩, none⟩

/-- The vote for proposal 3 is confirmed, then proposals 1 and 2 are cast together. -/
def confirmThenCast : Except VotingError (RoundTables VoteRecoveryBundle ×
    PreparedAtomicVoteBatch VoteRecoveryBundle × VotingDb VoteRecoveryBundle) := do
  let t ← applyConfirmedGeneration plainCodec sampleSighash thirdStored.domain thirdDerived
    thirdConfirmation
  let prepared ← prepareAtomicVoteBatch plainCodec plainCrypto [] .testnet
    ⟨t, t, t, t, ⟨[], t⟩, t⟩ laterBatch
  let db' ← persistPreparedAtomicVoteBatch plainCodec plainCrypto ⟨[], t⟩ prepared
  return (t, prepared, db')

theorem confirmThenCast_fresh : confirmThenCast.map (fun result =>
    result.2.1.commitments.map PreparedVoteCommit.isFresh) = .ok [true, true] := by
  decide +kernel

theorem rowsInMask_thirdStored : RowsInMask thirdStored.domain 0 := by
  intro q row hrow
  have hmem := KeyedMap.mem_entries_of_get? hrow
  simp only [thirdStored, plainTables, KeyedMap.single, mem_singleton, Prod.mk.injEq,
    VoteKey.mk.injEq] at hmem
  omega

end ZcashVoting.Voting
