import ZcashVoting.Voting.Cast

/-!
# What a preparation has checked

The inversions of `prepareCommit` and `prepareAtomicVoteBatch`: what a prepared vote is,
and what each read had shown when it was returned.
-/
namespace ZcashVoting.Voting

open ChainSubmission RoundPlanning KeyedData List

variable {J : Type} {codec : RecoveryCodec J} {crypto : VotingCrypto J} {secret : List UInt8}
  {network : Network} {b : Nat} {draft : DraftVote} {witness : VanWitness}

/-! ### Guards -/

variable {t : RoundTables J} {batch : AtomicVoteBatch} {prepared : PreparedAtomicVoteBatch J}
  {members : List (DraftVote × VotePreparationState J)} {vote : PreparedVoteCommit J}
  {first : VotePreparationState J} {bundle : VoteCommitmentBundle} {reads : BatchReads J} {p : Nat}

theorem ensureVoteRebuildAllowed_ok (h : t.ensureVoteRebuildAllowed b p = .ok ()) :
    t.recorded b p = false := by
  unfold RoundTables.ensureVoteRebuildAllowed at h
  cases hr : t.recorded b p with
  | false => rfl
  | true =>
    rw [RoundTables.recorded] at hr
    simp [hr] at h

theorem buildVoteCommitment_ok {inputs : VoteProofInputs}
    (h : buildVoteCommitment crypto inputs = .ok bundle) :
    minProposalId ≤ inputs.proposalId ∧ inputs.proposalId ≤ maxProposalId ∧
      crypto.buildVoteProof inputs = .ok bundle := by
  obtain ⟨_, -, hr⟩ := bind_ok h
  by_cases hra : minProposalId ≤ inputs.proposalId ∧ inputs.proposalId ≤ maxProposalId
  · rw [if_neg (not_not.mpr hra)] at hr
    obtain ⟨-, hr⟩ := guard_ok hr
    exact ⟨hra.1, hra.2, hr⟩
  · rw [if_pos hra] at hr
    cases hr

/-- The stored recovery text is absent or of another vote than the draft. -/
def DraftDiffers (codec : RecoveryCodec J) (t : RoundTables J) (b : Nat)
    (draft : DraftVote) : Prop :=
  ∀ json, t.recoveryJson b draft.proposalId = some json →
    ∃ recovery, codec.parseRecovery json = .ok recovery ∧
      recoveryMatchesDraft recovery draft = false

/-- The stored recovery text is that of the draft. -/
def RecoveryMatches (codec : RecoveryCodec J) (t : RoundTables J) (b : Nat) (draft : DraftVote) :
    Prop :=
  ∃ json recovery, t.recoveryJson b draft.proposalId = some json ∧
    codec.parseRecovery json = .ok recovery ∧ recoveryMatchesDraft recovery draft = true

theorem DraftDiffers.not_matches (h : DraftDiffers codec t b draft) :
    ¬ RecoveryMatches codec t b draft := by
  rintro ⟨_, _, hj, hpa, hm⟩
  obtain ⟨_, hpa', hne⟩ := h _ hj
  cases hpa.symm.trans hpa'
  rw [hm] at hne
  cases hne

theorem recoveryBundle_ok {found : Option VoteRecoveryBundle}
    (h : t.recoveryBundle codec b p = .ok found) : (t.recoveryJson b p = none ∧ found = none) ∨
      ∃ json recovery, t.recoveryJson b p = some json ∧ codec.parseRecovery json = .ok recovery ∧
        found = some recovery := by
  unfold RoundTables.recoveryBundle at h
  cases hj : t.recoveryJson b p with
  | none =>
    rw [hj] at h
    exact .inl ⟨rfl, (Except.ok.inj h).symm⟩
  | some json =>
    rw [hj] at h
    obtain ⟨recovery, hpa, hfo⟩ := map_ok h
    exact .inr ⟨json, recovery, rfl, hpa, hfo.symm⟩

/-! ### One vote -/

/-- The two ways in which the first read answers. -/
theorem recoverCommit_ok {found : Option (PreparedVoteCommit J)}
    (h : recoverCommit codec t b draft = .ok found) :
    (RecoveryMatches codec t b draft ∧
      ∃ recovery row, found = some ⟨t.walletId, b, draft, recovery, .recovered row⟩) ∨
      (found = none ∧ DraftDiffers codec t b draft) := by
  obtain ⟨_, hst, hr⟩ := bind_ok h
  rcases recoveryBundle_ok hst with ⟨hj, rfl⟩ | ⟨json, recovery, hj, hpa, rfl⟩
  · obtain ⟨_, -, hn⟩ := bind_ok hr
    refine .inr ⟨(Except.ok.inj hn).symm, ?_⟩
    intro json hs
    rw [hj] at hs
    cases hs
  · obtain ⟨_, -, hm⟩ := bind_ok hr
    cases hd : recoveryMatchesDraft recovery draft with
    | true =>
      simp only [hd] at hm
      cases hrow : t.vote? b draft.proposalId with
      | none =>
        rw [hrow] at hm
        cases hm
      | some row =>
        rw [hrow] at hm
        obtain ⟨_, -, hs⟩ := bind_ok hm
        exact .inl ⟨⟨json, recovery, hj, hpa, hd⟩, recovery, row, (Except.ok.inj hs).symm⟩
    | false =>
      simp only [hd, Bool.false_eq_true] at hm
      obtain ⟨_, -, hn⟩ := bind_ok hm
      refine .inr ⟨(Except.ok.inj hn).symm, ?_⟩
      intro json' hj'
      rw [hj] at hj'
      cases hj'
      exact ⟨recovery, hpa, hd⟩

/-- A prepared vote is the stored one, or was proved on the captured state. -/
inductive CommitPrepared (codec : RecoveryCodec J) (crypto : VotingCrypto J) (secret : List UInt8)
    (reads : CommitReads J) (b : Nat) (draft : DraftVote) (witness : VanWitness) :
    PreparedVoteCommit J → Prop where
  | recovered {walletId : String} {recovery : VoteRecoveryBundle} {row : VoteRow J}
      (hmatches : RecoveryMatches codec reads.recovered b draft) :
      CommitPrepared codec crypto secret reads b draft witness
        ⟨walletId, b, draft, recovery, .recovered row⟩
  | fresh {walletId : String} {state : VotePreparationState J} {bundle : VoteCommitmentBundle}
      {sealed : List UInt8}
      (hdiffers : DraftDiffers codec reads.recovered b draft)
      (hfree : reads.rebuild.recorded b draft.proposalId = false)
      (hstate : reads.captured.loadVotePreparationState b draft.proposalId = .ok state)
      (hproof : buildVoteCommitment crypto (proofInputs secret state draft witness.authPath
        witness.position witness.anchorHeight state.zkp2.proposalAuthority) = .ok bundle)
      (hballot : requireBallotIntent reads.captured b state.ballotIntent draft = .ok ()) :
      CommitPrepared codec crypto secret reads b draft witness ⟨walletId, b, draft,
          recoveryFromParts b draft state.zkp2.votingRoundId witness.anchorHeight bundle sealed,
          .fresh state⟩

theorem prepareVoteCommitment_ok {state : VotePreparationState J}
    (h : prepareVoteCommitment crypto secret network t b draft witness = .ok (state, bundle)) :
    t.loadVotePreparationState b draft.proposalId = .ok state ∧
      buildVoteCommitment crypto (proofInputs secret state draft witness.authPath witness.position
        witness.anchorHeight state.zkp2.proposalAuthority) = .ok bundle ∧
      requireBallotIntent t b state.ballotIntent draft = .ok () := by
  obtain ⟨_, -, hlo⟩ := bind_ok h
  obtain ⟨_, hst, hp⟩ := bind_ok hlo
  obtain ⟨-, hp⟩ := guard_ok hp
  obtain ⟨_, hba, hbui⟩ := bind_ok hp
  obtain ⟨_, hbu, hdo⟩ := bind_ok hbui
  cases hdo
  exact ⟨hst, hbu, hba⟩

theorem prepareCommit_ok {reads : CommitReads J}
    (h : prepareCommit codec crypto secret network reads b draft witness = .ok vote) :
    CommitPrepared codec crypto secret reads b draft witness vote := by
  obtain ⟨_, -, hne⟩ := bind_ok h
  obtain ⟨_, -, hrec⟩ := bind_ok hne
  obtain ⟨_, hfo, hr⟩ := bind_ok hrec
  rcases recoverCommit_ok hfo with ⟨hm, _, _, rfl⟩ | ⟨rfl, hdi⟩
  · cases hr
    exact .recovered hm
  obtain ⟨_, -, hre⟩ := bind_ok hr
  obtain ⟨_, hal, hpr⟩ := bind_ok hre
  obtain ⟨⟨_, _⟩, hpro, hpa⟩ := bind_ok hpr
  obtain ⟨_, -, hsi⟩ := bind_ok hpa
  obtain ⟨_, -, hdo⟩ := bind_ok hsi
  cases hdo
  obtain ⟨hst, hproo, hba⟩ := prepareVoteCommitment_ok hpro
  exact .fresh hdi (ensureVoteRebuildAllowed_ok hal) hst hproo hba

/-! ### A batch -/

theorem admitDraft_ok {seen seen' : List Nat} (h : admitDraft seen draft = .ok seen') :
    draft.proposalId ∉ seen ∧ seen' = draft.proposalId :: seen := by
  obtain ⟨_, -, hr⟩ := bind_ok h
  obtain ⟨hse, hr⟩ := guard_ok hr
  exact ⟨by simpa using hse, (Except.ok.inj hr).symm⟩

theorem validateAtomicVoteBatch_ok {drafts : List DraftVote}
    (h : validateAtomicVoteBatch drafts = .ok ()) :
    drafts ≠ [] ∧ (drafts.map DraftVote.proposalId).Nodup := by
  unfold validateAtomicVoteBatch at h
  by_cases hlen : maxVoteBatchActions < drafts.length
  · simp [if_pos hlen] at h
  rw [if_neg hlen] at h
  obtain ⟨hem, h⟩ := guard_ok h
  refine ⟨by simpa using hem, ?_⟩
  obtain ⟨_, hfo, -⟩ := map_ok h
  have hse := foldlM_ok_induction (fun visited st =>
    (visited.map DraftVote.proposalId).Nodup ∧ ∀ q, q ∈ st ↔
      q ∈ visited.map DraftVote.proposalId) hfo (by simp) (by
    intro visited draft rest st st' _ ih hst
    obtain ⟨_, rfl⟩ := admitDraft_ok hst
    have hnew' : draft.proposalId ∉ visited.map DraftVote.proposalId := by
      rwa [← ih.2]
    refine ⟨?_, ?_⟩
    · rw [map_append, nodup_append]
      refine ⟨ih.1, by simp, ?_⟩
      intro a ha c hc hac
      have hc' : c = draft.proposalId := by simpa using hc
      exact hnew' (hc' ▸ hac ▸ ha)
    · intro q
      rw [mem_cons, ih.2 q, map_append, mem_append]
      simp [or_comm])
  exact hse.1

theorem planAction_ok {st st' : BatchPlanning J}
    {member : (DraftVote × VotePreparationState J) × Nat}
    (h : planAction crypto secret batch st member = .ok st') : ∃ transition authPath position,
      crypto.deriveVoteAuthorityTransition (authorityKey secret member.1.2) member.1.1.proposalId
        st.authority = .ok transition ∧ st' = ⟨transition.proposalAuthorityNew,
        st.plans ++ [⟨member.1.1, member.1.2, authPath, position, transition⟩]⟩ := by
  obtain ⟨transition, htr, hvan⟩ := bind_ok h
  obtain ⟨-, hvan⟩ := guard_ok hvan
  obtain ⟨authPath, -, hdo⟩ := bind_ok hvan
  cases hdo
  exact ⟨transition, authPath, _, htr, rfl⟩

theorem planBatch_members {plans : List (BatchProofPlan J)}
    (h : planBatch crypto secret batch first members = .ok plans) :
    plans.map (fun plan => (plan.draft, plan.state)) = members := by
  obtain ⟨_, hpl, hdo⟩ := bind_ok h
  cases hdo
  have hmap := foldlM_ok_induction
    (fun (seen : List ((DraftVote × VotePreparationState J) × Nat)) (st : BatchPlanning J) =>
      st.plans.map (fun plan => (plan.draft, plan.state)) = seen.map Prod.fst) hpl rfl (by
    intro seen member rest st st' _ ih hst
    obtain ⟨_, _, _, -, rfl⟩ := planAction_ok hst
    rw [map_append, map_append, ih]
    rfl)
  rw [hmap, zipIdx_map_fst]

/-- A vote of a batch that was proved afresh. -/
structure FreshVote (crypto : VotingCrypto J) (secret : List UInt8)
    (reads : BatchReads J) (batch : AtomicVoteBatch) (plans : List (BatchProofPlan J))
    (vote : PreparedVoteCommit J) : Prop where
  bundleIndex : vote.bundleIndex = batch.bundleIndex
  /-- The vote is proved as one of the plans. -/
  planned : ∃ plan ∈ plans, ∃ bundle, vote.draft = plan.draft ∧ vote.captured = .fresh plan.state ∧
    buildBatchProof crypto secret batch.witness.anchorHeight plan = .ok bundle ∧
    ∃ sealed metadata,
      vote.recovery = { recoveryFromParts batch.bundleIndex plan.draft plan.state.zkp2.votingRoundId
          batch.witness.anchorHeight bundle sealed with batch := some metadata }
  unsigned : reads.captured.recoveryJson batch.bundleIndex vote.draft.proposalId = none
  free : reads.rebuild.recorded batch.bundleIndex vote.draft.proposalId = false
  state : ∀ captured, vote.captured = .fresh captured →
    reads.captured.loadVotePreparationState batch.bundleIndex vote.draft.proposalId = .ok captured

/-- A prepared batch is the stored one, or was proved on the captured states. -/
inductive BatchPrepared (crypto : VotingCrypto J) (secret : List UInt8)
    (network : Network) (reads : BatchReads J) (batch : AtomicVoteBatch)
    (prepared : PreparedAtomicVoteBatch J) : Prop where
  | recovered (hrows : ∀ vote ∈ prepared.commitments, vote.bundleIndex = batch.bundleIndex ∧
      ∃ row, vote.captured = .recovered row)
      (hstored : ∀ draft ∈ batch.drafts,
        (reads.captured.recoveryJson batch.bundleIndex draft.proposalId).isSome = true)
  | fresh {first : VotePreparationState J} {rest : List (VotePreparationState J)}
      {plans : List (BatchProofPlan J)}
      (hcaptured : batch.drafts.mapM (fun draft =>
        reads.captured.loadVotePreparationState batch.bundleIndex draft.proposalId) =
          .ok (first :: rest))
      (hvalid : validateCapturedBatchState reads.captured batch network first
        (batch.drafts.zip (first :: rest)) = .ok ())
      (hplans : planBatch crypto secret batch first (batch.drafts.zip (first :: rest)) = .ok plans)
      (hvotes : ∀ vote ∈ prepared.commitments, FreshVote crypto secret reads batch plans vote)

theorem prepareRecoveredVoteBatch_ok {members : List (DraftVote × VoteRecoveryBundle)}
    (h : prepareRecoveredVoteBatch crypto t b members = .ok prepared) :
    prepared.commitments.map PreparedVoteCommit.draft = members.map Prod.fst ∧
      ∀ vote ∈ prepared.commitments, vote.bundleIndex = b ∧ ∃ row,
        vote.captured = .recovered row := by
  have hv : ∀ member vote, recoveredVote t b member = .ok vote →
      vote.draft = member.1 ∧ vote.bundleIndex = b ∧ ∃ row, vote.captured = .recovered row := by
    intro member vote hm
    unfold recoveredVote at hm
    cases hrow : t.vote? b member.1.proposalId with
    | none => simp [hrow] at hm
    | some row =>
      rw [hrow] at hm
      cases hm
      exact ⟨rfl, rfl, row, rfl⟩
  obtain ⟨commitments, hc, hd⟩ := bind_ok h
  obtain ⟨_, -, hma⟩ := bind_ok hd
  have hpr : prepared.commitments = commitments := by
    cases members with
    | nil => cases hma
    | cons =>
      obtain ⟨_, -, hdo⟩ := bind_ok hma
      obtain ⟨_, hdo⟩ := guard_ok hdo
      cases hdo
      rfl
  rw [hpr]
  refine ⟨mapM_ok_map hc fun member vote hm => (hv member vote hm).1, ?_⟩
  intro vote hmem
  obtain ⟨member, -, hm⟩ := mem_mapM_ok hc hmem
  exact (hv member vote hm).2

theorem signMember_ok {digest : Bytes32} {member : (BatchProofPlan J × VoteCommitmentBundle) × Nat}
    (h : signMember crypto secret t batch digest member = .ok vote) :
    ∃ sealed metadata, vote = ⟨t.walletId, batch.bundleIndex, member.1.1.draft,
      { recoveryFromParts batch.bundleIndex member.1.1.draft member.1.1.state.zkp2.votingRoundId
          batch.witness.anchorHeight member.1.2 sealed with batch := some metadata },
      .fresh member.1.1.state⟩ := by
  obtain ⟨_, -, hsi⟩ := bind_ok h
  obtain ⟨sealed, -, hco⟩ := bind_ok hsi
  obtain ⟨_, -, hdo⟩ := bind_ok hco
  exact ⟨sealed, _, (Except.ok.inj hdo).symm⟩

/-- The parts of a batch that was proved afresh. -/
theorem prepareFreshBatch_ok
    (h : prepareFreshBatch crypto secret network reads batch first members = .ok prepared) :
    (∀ draft ∈ batch.drafts, reads.rebuild.recorded batch.bundleIndex draft.proposalId = false) ∧
      validateCapturedBatchState reads.captured batch network first members = .ok () ∧
      ∃ plans bundles digest, planBatch crypto secret batch first members = .ok plans ∧
        plans.mapM (buildBatchProof crypto secret batch.witness.anchorHeight) = .ok bundles ∧
        (plans.zip bundles).zipIdx.mapM (signMember crypto secret reads.captured batch digest) =
          .ok prepared.commitments := by
  obtain ⟨_, -, hau⟩ := bind_ok h
  obtain ⟨_, -, hre⟩ := bind_ok hau
  obtain ⟨_, hal, hst⟩ := bind_ok hre
  obtain ⟨_, hva, hpla⟩ := bind_ok hst
  obtain ⟨plans, hpl, hpr⟩ := bind_ok hpla
  obtain ⟨bundles, hbu, hha⟩ := bind_ok hpr
  obtain ⟨digest, -, hsi⟩ := bind_ok hha
  obtain ⟨_, hco, hdo⟩ := bind_ok hsi
  cases hdo
  refine ⟨?_, hva, plans, bundles, digest, hpl, hbu, hco⟩
  intro draft hdr
  exact ensureVoteRebuildAllowed_ok (forM_ok.mp hal draft hdr)

/-- The drafts of a prepared batch are the requested ones, which name distinct proposals. -/
theorem prepareAtomicVoteBatch_ok
    (h : prepareAtomicVoteBatch codec crypto secret network reads batch = .ok prepared) :
    (batch.drafts.map DraftVote.proposalId).Nodup ∧
    prepared.commitments.map PreparedVoteCommit.draft = batch.drafts ∧
      BatchPrepared crypto secret network reads batch prepared := by
  obtain ⟨_, hdr, hco⟩ := bind_ok h
  obtain ⟨-, hno⟩ := validateAtomicVoteBatch_ok hdr
  refine ⟨hno, ?_⟩
  by_cases hra : ¬ batch.bundleIndex < reads.bundleCount.bundles.entries.length
  · simp only [if_pos hra] at hco
    cases hco
  simp only [if_neg hra] at hco
  obtain ⟨_, -, hre⟩ := bind_ok hco
  obtain ⟨recoveries, hr, hf⟩ := bind_ok hre
  have hle := mapM_ok_length hr
  by_cases hp : (recoveries.filterMap id).length ≠ 0 ∧
    (recoveries.filterMap id).length ≠ recoveries.length
  · simp only [if_pos hp] at hf
    cases hf
  simp only [if_neg hp] at hf
  split at hf
  · rename_i hall
    obtain ⟨hmap, hro⟩ := prepareRecoveredVoteBatch_ok hf
    refine ⟨by rw [hmap, map_fst_zip (by omega)], .recovered hro fun draft hd => ?_⟩
    obtain ⟨found, hfo, hre⟩ := mapM_ok_of_mem hr hd
    have hso : found.isSome = true := filterMap_length_eq_length.mp hall found hfo
    rcases recoveryBundle_ok hre with ⟨-, rfl⟩ | ⟨_, _, hjs, -⟩
    · cases hso
    · rw [hjs]
      rfl
  · rename_i hall
    have hnil : recoveries.filterMap id = [] := by
      by_contra hcon
      have : (recoveries.filterMap id).length ≠ 0 := by simpa using hcon
      exact hp ⟨this, hall⟩
    obtain ⟨_, -, hca⟩ := bind_ok hf
    obtain ⟨captured, hc, hfr⟩ := bind_ok hca
    have hcap := mapM_ok_length hc
    cases captured with
    | nil => cases hfr
    | cons first rest =>
      obtain ⟨hfre, hva, plans, bundles, _, hpla, hb, hs⟩ := prepareFreshBatch_ok hfr
      have hme := planBatch_members hpla
      have hpl : plans.map BatchProofPlan.draft = batch.drafts := by
        have hfst := congrArg (List.map Prod.fst) hme
        rw [map_map, map_fst_zip (by omega)] at hfst
        exact hfst
      have hbu := mapM_ok_length hb
      refine ⟨?_, .fresh hc hva hpla ?_⟩
      · have hmap :=
          mapM_ok_map (g := PreparedVoteCommit.draft) (k := fun member => member.1.1.draft) hs (by
            intro member vote hm
            obtain ⟨sealed, metadata, rfl⟩ := signMember_ok hm
            rfl)
        rw [hmap, ← hpl]
        have hzip : ((plans.zip bundles).zipIdx.map Prod.fst).map Prod.fst = plans := by
          rw [zipIdx_map_fst, map_fst_zip (by omega)]
        conv_rhs => rw [← hzip]
        rw [map_map, map_map]
        rfl
      · intro vote hvo
        obtain ⟨⟨⟨plan, bundle⟩, _⟩, hmem, hm⟩ := mem_mapM_ok hs hvo
        obtain ⟨sealed, metadata, rfl⟩ := signMember_ok hm
        have hzip : (plan, bundle) ∈ plans.zip bundles := by
          have hfst := mem_map_of_mem (f := Prod.fst) hmem
          rwa [zipIdx_map_fst] at hfst
        have hplan : plan ∈ plans := (of_mem_zip hzip).1
        have hpa : (plan.draft, plan.state) ∈ batch.drafts.zip (first :: rest) := by
          rw [← hme]
          exact mem_map_of_mem hplan
        have hd : plan.draft ∈ batch.drafts := (of_mem_zip hpa).1
        refine ⟨rfl, ⟨plan, hplan, bundle, rfl, rfl, mapM_ok_zip hb hzip, sealed, metadata, rfl⟩,
          ?_, hfre _ hd, ?_⟩
        · obtain ⟨found, hfo, hre⟩ := mapM_ok_of_mem hr hd
          have hnon : found = none := by
            have := filterMap_eq_nil_iff.mp hnil found hfo
            simpa using this
          rcases recoveryBundle_ok hre with ⟨hjs, -⟩ | ⟨_, _, -, -, hso⟩
          · exact hjs
          · rw [hnon] at hso
            cases hso
        · intro captured hca'
          cases hca'
          exact mapM_ok_zip hc hpa

end ZcashVoting.Voting
