import ZcashVoting.Voting.ConfirmationEffects
import ZcashVoting.Voting.ProtectedVotes

/-!
# The authority an accepted cast spends

The mask of a bundle is the full mask without the proposals whose votes have reached the
chain. A batch threads it through its actions: each action starts from the mask, and
from the note, that the one before it left. A fresh vote is proved on a mask that has
its proposal's bit, so casting never touches a vote that has reached the chain.
-/
namespace ZcashVoting.Voting

open ChainSubmission RoundPlanning KeyedData RoundTables List

variable {J : Type} {codec : RecoveryCodec J} {crypto : VotingCrypto J} {secret : List UInt8}
  {t first : RoundTables J} {db db' : VotingDb J} {b p : Nat}

/-! ### Masks of a bundle -/

/-- A proposal with its bit set has not reached the chain. -/
theorem unrecorded_of_bit (hbit : (t.proposalAuthority b).getLsbD p = true) (hp : p < 64) :
    t.recorded b p = false := by
  rw [proposalAuthority, getLsbD_foldl_clearProposal, Bool.and_eq_true, Bool.not_eq_true',
    any_eq_false] at hbit
  cases hrec : t.recorded b p with
  | false => rfl
  | true =>
    have hne := hbit.2 p (mem_recordedProposals.mpr hrec)
    simp [Nat.mod_eq_of_lt hp] at hne

/-- A bit that survives the actions of a batch was set before them. -/
theorem bit_of_foldl_clearProposal {proposals : List Nat} {mask : AuthorityMask}
    (h : (proposals.foldl clearProposal mask).getLsbD p = true) : mask.getLsbD p = true := by
  rw [getLsbD_foldl_clearProposal, Bool.and_eq_true] at h
  exact h.1

theorem proposal_lt (h : p ≤ maxProposalId) : p < 64 := by
  unfold maxProposalId at h
  omega

/-! ### The actions of a batch -/

/-- The mask an action of a batch starts from: without the proposals of the actions
before it. -/
def maskBefore (initial : AuthorityMask) (plans : List (BatchProofPlan J)) (i : Nat) :
    AuthorityMask :=
  ((plans.take i).map fun plan => plan.draft.proposalId).foldl clearProposal initial

/-- The transition an action was planned with. -/
def Spends (crypto : VotingCrypto J) (secret : List UInt8) (mask : AuthorityMask)
    (plan : BatchProofPlan J) : Prop :=
  mask.getLsbD plan.draft.proposalId = true ∧
    plan.transition = ⟨crypto.authorityNote (authorityKey secret plan.state) mask,
      crypto.authorityNote (authorityKey secret plan.state)
        (clearProposal mask plan.draft.proposalId),
      mask, clearProposal mask plan.draft.proposalId⟩

variable {plan : BatchProofPlan J} {batch : AtomicVoteBatch}
  {initial captured : VotePreparationState J} {members : List (DraftVote × VotePreparationState J)}
  {plans : List (BatchProofPlan J)} {network : Network} {bundle : VoteCommitmentBundle}

/-- The loop threads the mask: each action spends its bit of what the earlier ones left. -/
theorem planBatch_spends (h : planBatch crypto secret batch initial members = .ok plans) {i : Nat}
    (hi : plans[i]? = some plan) :
    Spends crypto secret (maskBefore initial.zkp2.proposalAuthority plans i) plan := by
  obtain ⟨_, hpl, hdo⟩ := bind_ok h
  cases hdo
  have hlo := foldlM_ok_induction
    (fun (_ : List ((DraftVote × VotePreparationState J) × Nat)) (st : BatchPlanning J) =>
      st.authority = maskBefore initial.zkp2.proposalAuthority st.plans st.plans.length ∧
        ∀ i plan, st.plans[i]? = some plan →
          Spends crypto secret (maskBefore initial.zkp2.proposalAuthority st.plans i) plan)
    hpl ⟨rfl, by simp⟩ (by
      intro _ member _ st st' _ ih hst
      obtain ⟨_, _, _, htr, rfl⟩ := planAction_ok hst
      obtain ⟨hbit, rfl⟩ := crypto.transition_spends htr
      have hb : ∀ i, i ≤ st.plans.length → ∀ plan : BatchProofPlan J,
          maskBefore initial.zkp2.proposalAuthority (st.plans ++ [plan]) i =
            maskBefore initial.zkp2.proposalAuthority st.plans i := by
        intro i hle plan
        rw [maskBefore, take_append_of_le_length hle, maskBefore]
      refine ⟨?_, ?_⟩
      · -- the next action starts from what this one leaves
        rw [maskBefore, take_length, map_append, foldl_append, ih.1, maskBefore, take_length]
        rfl
      · intro i plan hget
        rcases Nat.lt_or_ge i st.plans.length with hlt | hge
        · rw [List.getElem?_append_left hlt] at hget
          rw [hb i (by omega)]
          exact ih.2 i plan hget
        · rw [List.getElem?_append_right hge, List.getElem?_singleton] at hget
          split at hget
          · cases hget
            have hi : i = st.plans.length := by omega
            rw [hi, hb _ le_rfl, ← ih.1]
            exact ⟨hbit, rfl⟩
          · cases hget)
  exact hlo.2 i plan hi

/-! ### Accepted casts -/

/-- A proof shows that the bit of its proposal is set. -/
theorem buildVoteCommitment_bit {inputs : VoteProofInputs}
    (h : buildVoteCommitment crypto inputs = .ok bundle) :
    inputs.proposalId < 64 ∧ inputs.proposalAuthority.getLsbD inputs.proposalId = true := by
  obtain ⟨-, hmax, hpr⟩ := buildVoteCommitment_ok h
  exact ⟨proposal_lt hmax, crypto.proof_spends hpr⟩

theorem buildBatchProof_bit {anchorHeight : Nat}
    (h : buildBatchProof crypto secret anchorHeight plan = .ok bundle) :
    plan.draft.proposalId < 64 ∧
      plan.transition.proposalAuthorityOld.getLsbD plan.draft.proposalId = true := by
  obtain ⟨_, hbu, -⟩ := bind_ok h
  exact buildVoteCommitment_bit hbu

/-- The captured members of a batch share one authority and agree with the ballot. -/
theorem validateCapturedBatchState_ok
    (h : validateCapturedBatchState t batch network initial members = .ok ())
    {member : DraftVote × VotePreparationState J} (hmem : member ∈ members) :
    member.2.network = network ∧ member.2.zkp2 = initial.zkp2 ∧
      requireBallotIntent t batch.bundleIndex member.2.ballotIntent member.1 = .ok () := by
  unfold validateCapturedBatchState at h
  by_cases hp :
    initial.vanPosition ≠ (if batch.delegation.isSome then none else some batch.witness.position)
  · simp only [if_pos hp] at h
    cases h
  simp only [if_neg hp] at h
  have hm := forM_ok.mp h member hmem
  obtain ⟨hd, hm⟩ := guard_ok hm
  simp only [Bool.or_eq_true, decide_eq_true_eq, not_or, not_not] at hd
  exact ⟨hd.1.1, hd.1.2, hm⟩

/-- Every plan of a batch was captured with the authority of its first state. -/
theorem planBatch_captured
    (hva : validateCapturedBatchState t batch network initial members = .ok ())
    (hpl : planBatch crypto secret batch initial members = .ok plans) (hpla : plan ∈ plans) :
    plan.state.network = network ∧ plan.state.zkp2 = initial.zkp2 ∧
      requireBallotIntent t batch.bundleIndex plan.state.ballotIntent plan.draft = .ok () := by
  have hme : (plan.draft, plan.state) ∈ members := by
    rw [← planBatch_members hpl]
    exact mem_map_of_mem hpla
  exact validateCapturedBatchState_ok hva hme

/-- A fresh vote was proved on a mask that has its bit. -/
theorem FreshVote.bit {reads : BatchReads J} {vote : PreparedVoteCommit J}
    (hva : validateCapturedBatchState reads.captured batch network initial members = .ok ())
    (hp : planBatch crypto secret batch initial members = .ok plans)
    (h : FreshVote crypto secret reads batch plans vote)
    (hc : vote.captured = .fresh captured) : vote.draft.proposalId < 64 ∧
      captured.zkp2.proposalAuthority.getLsbD vote.draft.proposalId = true := by
  obtain ⟨plan, hpl, _, hdr, hst, hpr, -⟩ := h.planned
  have hsa : captured = plan.state := by
    rw [hst] at hc
    cases hc
    rfl
  obtain ⟨_, hi⟩ := mem_iff_getElem?.mp hpl
  obtain ⟨hbit, -⟩ := planBatch_spends hp hi
  rw [hdr, hsa, (planBatch_captured hva hp hpl).2.1]
  exact ⟨(buildBatchProof_bit hpr).1, bit_of_foldl_clearProposal hbit⟩

section

variable [DecidableEq J] {votes : List (PreparedVoteCommit J)} {vote : PreparedVoteCommit J}

section

variable (h : Accepted codec first db db' b votes)
include h

/-- Every fresh vote of an accepted cast has its bit in the mask it was captured with. -/
theorem Accepted.bit (hv : vote ∈ votes) (hc : vote.captured = .fresh captured) :
    vote.draft.proposalId < 64 ∧
      captured.zkp2.proposalAuthority.getLsbD vote.draft.proposalId = true := by
  cases h with
  | single _ hp =>
    rw [mem_singleton.mp hv] at hc ⊢
    cases prepareCommit_ok hp with
    | recovered => cases hc
    | fresh _ _ _ hpr =>
      cases hc
      exact buildVoteCommitment_bit hpr
  | batch _ _ hp =>
    obtain ⟨-, -, hba⟩ := prepareAtomicVoteBatch_ok hp
    cases hba with
    | recovered hro =>
      obtain ⟨-, _, hrow⟩ := hro vote hv
      rw [hrow] at hc
      cases hc
    | fresh _ hva hpl hvo => exact (hvo vote hv).bit hva hpl hc

/-- The state a fresh vote was captured with is that of the tables it is written to. -/
theorem Accepted.authority (hv : vote ∈ votes) (hca : vote.captured = .fresh captured) :
    captured.zkp2.proposalAuthority = db.domain.proposalAuthority b := by
  obtain ⟨hin, -, _, hpe, -⟩ := h.persisted
  obtain ⟨hl, -⟩ := hpe.written vote hv captured hca
  rw [hin vote hv] at hl
  exact loadZkp2Inputs_authority (loadVotePreparationState_ok hl).1

/-- A fresh vote of an accepted cast is for a proposal that has not reached the chain. -/
theorem Accepted.unrecorded (hv : vote ∈ votes)
    (hfr : vote.isFresh = true) : db.domain.recorded b vote.draft.proposalId = false := by
  cases hc : vote.captured with
  | recovered => simp [PreparedVoteCommit.isFresh, hc] at hfr
  | fresh =>
    obtain ⟨hp, hbit⟩ := h.bit hv hc
    rw [h.authority hv hc] at hbit
    exact unrecorded_of_bit hbit hp

theorem Accepted.keeps : KeepsWitnessed db.domain db'.domain := by
  obtain ⟨hin, -, domain, hp, hd⟩ := h.persisted
  have hv : db'.domain.votes = domain.votes := by rw [hd]
  have hsh : ∀ key, db'.domain.voteShares key = domain.voteShares key := by
    intro key
    rw [hd, RoundTables.voteShares, RoundTables.voteShares]
  have hr : domain = { db.domain with votes := domain.votes, shares := domain.shares } := hp.rest
  refine ⟨?_, ?_, by rw [hd, hr], by rw [hd, hr], by rw [hd, hr]⟩
  · intro key row hrow hw
    have hk := hp.kept key (by
      intro vote hvo hfr hkey
      have hf := h.unrecorded hvo hfr
      rw [← hkey, PreparedVoteCommit.key, hin vote hvo] at hrow
      rw [recorded, RoundTables.vote?, hrow] at hf
      simp [hw] at hf)
    rw [hv, hsh, hk.1, hk.2]
    exact ⟨hrow, rfl⟩
  · intro b p hrec
    rw [← hp.recorded]
    rw [recorded, RoundTables.vote?, hv] at hrec
    exact hrec

end

end

end ZcashVoting.Voting
