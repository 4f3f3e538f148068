import ZcashVoting.Voting.Witnesses

/-!
# The votes of a snapshot and the rows they come from

A loaded vote has the columns of its row. Its phase is that of a submission that names
the vote, as a singleton or through the batch its recovery names, and when no submission
does it is read from the columns.
-/
namespace ZcashVoting.Voting

open ChainSubmission RoundPlanning KeyedData RoundTables List

variable {J : Type} {codec : RecoveryCodec J} {H : BatchSighash} {wire : GenerationWire J}
  {db : VotingDb J} {b p : Nat} {claims : BatchClaims} {key : VoteKey} {row : VoteRow J}
  {vote : VoteSnapshot} {recovery : VoteRecoveryBundle} {digest : Option Bytes32}
  {t : RoundTables J} {D : Bytes32} {recoveries : List VoteRecoveryBundle} {cleared : List VoteKey}

def batchDigestOf (recovery : VoteRecoveryBundle) :
    Option Bytes32 := recovery.batch.map VoteBatchRecovery.digest

theorem inBatch_iff : recovery.inBatch D = true ↔ batchDigestOf recovery = some D := by
  cases hba : recovery.batch <;> simp [VoteRecoveryBundle.inBatch, batchDigestOf, hba]

/-- The vote is stored with this recovery. -/
def Signed (codec : RecoveryCodec J) (t : RoundTables J) (b p : Nat)
    (recovery : VoteRecoveryBundle) : Prop :=
  ∃ json, t.recoveryJson b p = some json ∧ codec.parseRecovery json = .ok recovery

theorem Signed.unique {other : VoteRecoveryBundle}
    (h : Signed codec t b p recovery) (h' : Signed codec t b p other) : other = recovery := by
  obtain ⟨_, hjs, hpa⟩ := h
  obtain ⟨_, hj', hp'⟩ := h'
  rw [hjs] at hj'
  cases hj'
  rw [hpa] at hp'
  exact (Except.ok.inj hp').symm

/-- Every recovery of the round names the proposal it is stored for. -/
def ProperRecoveries (codec : RecoveryCodec J) (t : RoundTables J) : Prop :=
  ∀ b p recovery, Signed codec t b p recovery → recovery.proposalId = p

theorem Trims.signed_iff {t' : RoundTables J} (h : Trims t t' cleared) :
    Signed codec t' b p recovery ↔ ⟨b, p⟩ ∉ cleared ∧ Signed codec t b p recovery := by
  unfold Signed
  rw [h.recoveryJson]
  by_cases hin : ⟨b, p⟩ ∈ cleared <;> simp [hin]

theorem Trims.proper {t' : RoundTables J} (h : Trims t t' cleared)
    (hpr : ProperRecoveries codec t) : ProperRecoveries codec t' :=
  fun b p recovery hsi => hpr b p recovery (h.signed_iff.mp hsi).2

theorem mem_candidates_iff {candidates : List VoteRecoveryBundle}
    (h : ((t.bundleVotes b).filterMap fun vote => vote.2.commitmentBundleJson).mapM
      codec.parseRecovery = .ok candidates) : recovery ∈ candidates ↔
        ∃ q, Signed codec t b q recovery := by
  constructor
  · intro hmem
    obtain ⟨json, hj, hp⟩ := mem_mapM_ok h hmem
    obtain ⟨⟨q, row⟩, hvo, ht⟩ := mem_filterMap.mp hj
    exact ⟨q, json, by rw [recoveryJson, mem_bundleVotes.mp hvo]; exact ht, hp⟩
  · rintro ⟨q, _, hj, hp⟩
    obtain ⟨row, hrow, ht⟩ := Option.bind_eq_some_iff.mp hj
    obtain ⟨_, hfo, hp'⟩ := mapM_ok_of_mem h
      (mem_filterMap.mpr ⟨(q, row), mem_bundleVotes.mpr hrow, ht⟩)
    rw [hp] at hp'
    exact Except.ok.inj hp' ▸ hfo

theorem mem_loadVoteBatchRecoveries (h : t.loadVoteBatchRecoveries codec H b D = .ok recoveries) :
    recovery ∈ recoveries ↔ (∃ q, Signed codec t b q recovery) ∧
      batchDigestOf recovery = some D := by
  obtain ⟨_, hca, h⟩ := bind_ok h
  rw [assemble_ok h, mem_batchMembers, inBatch_iff, mem_candidates_iff hca]

theorem mem_batchProposals {q : Nat} (hp : ProperRecoveries codec t)
    (h : t.loadVoteBatchRecoveries codec H b D = .ok recoveries) :
    q ∈ recoveries.map VoteRecoveryBundle.proposalId ↔
      ∃ member, Signed codec t b q member ∧ batchDigestOf member = some D := by
  rw [mem_map]
  constructor
  · rintro ⟨member, hmem, rfl⟩
    obtain ⟨⟨q, hs⟩, hin⟩ := (mem_loadVoteBatchRecoveries h).mp hmem
    rw [hp b q member hs]
    exact ⟨member, hs, hin⟩
  · rintro ⟨member, hs, hin⟩
    exact ⟨member, (mem_loadVoteBatchRecoveries h).mpr ⟨⟨q, hs⟩, hin⟩, hp b q member hs⟩

/-! ### Submissions that name a vote -/

/-- The submission is for the vote, or for the batch its recovery names. -/
def NamesVote (row : StoredChainSubmission) (p : Nat) (digest : Option Bytes32) : Prop :=
  row.identity.target = .vote p ∨
    row.identity.target.batchDigest.isSome = true ∧ row.identity.target.batchDigest = digest

/-- Some submission of the bundle names the vote. -/
def Named (db : VotingDb J) (b p : Nat) (digest : Option Bytes32) : Prop :=
  ∃ row ∈ db.submissions, onBundle db b row = true ∧ NamesVote row p digest

/-- Where a claim comes from: a stored batch and one of its members. -/
theorem claim_origin (h : loadAuthoritativeBatchPhases codec H wire db = .ok claims)
    {claim : VoteKey × VotePhase} (hc : claim ∈ claims) :
    ∃ row ∈ db.submissions, onBundle db claim.1.bundleIndex row = true ∧
      claim.2 = authoritativeSubmissionPhase row.durableState ∧
      ∃ D q recovery, row.identity.target.batchDigest = some D ∧
        Signed codec db.domain claim.1.bundleIndex q recovery ∧ batchDigestOf recovery = some D ∧
        recovery.proposalId = claim.1.proposalId := by
  refine foldlM_ok_induction (fun (_ : List StoredChainSubmission) (claims : BatchClaims) =>
    ∀ claim ∈ claims, ∃ row ∈ db.submissions, onBundle db claim.1.bundleIndex row = true ∧
      claim.2 = authoritativeSubmissionPhase row.durableState ∧
      ∃ D q recovery, row.identity.target.batchDigest = some D ∧
        Signed codec db.domain claim.1.bundleIndex q recovery ∧ batchDigestOf recovery = some D ∧
        recovery.proposalId = claim.1.proposalId) h (by simp) ?_ claim hc
  intro seen row rest claims claims' hli ih hs claim hc
  have hfi : row ∈ db.submissions.filter fun row =>
      db.domain.holdsRound row.identity.roundId row.identity.walletId &&
        row.identity.target.batchDigest.isSome := by simp [hli]
  obtain ⟨hmem, hr⟩ := mem_filter.mp hfi
  rw [Bool.and_eq_true] at hr
  unfold claimBatch at hs
  cases hd : row.identity.target.batchDigest with
  | none => simp [hd] at hr
  | some D =>
    simp only [hd] at hs
    obtain ⟨_, hre, hs⟩ := bind_ok hs
    split at hs
    · cases hs
    rw [claimMembers_claimed hs, mem_append] at hc
    rcases hc with hold | hnew
    · exact ih claim hold
    obtain ⟨q, hq, rfl⟩ := mem_map.mp hnew
    obtain ⟨recovery, hrec, rfl⟩ := mem_map.mp hq
    obtain ⟨⟨q, hsi⟩, hin⟩ :=
      (mem_loadVoteBatchRecoveries (validatedVoteBatch_ok hre).1).mp hrec
    exact ⟨row, hmem, by simp [onBundle, hr.1], rfl, D, q, recovery, hd, hsi, hin, rfl⟩

/-! ### Loaded votes -/

/-- A vote of the snapshot and the row it was loaded from. -/
structure Loaded (codec : RecoveryCodec J) (db : VotingDb J) (claims : BatchClaims) (key : VoteKey)
    (row : VoteRow J) (vote : VoteSnapshot) : Prop where
  stored : db.domain.votes.get? key = some row
  choice : vote.choice = row.choice
  txHash : vote.txHash = row.txHash
  position : vote.vcTreePosition = row.vcTreePosition
  phase : voteSubmissionPhase db claims key row = .ok vote.phase
  signed : vote.recovery.isSome = row.commitmentBundleJson.isSome
  recovery : ∀ recovery, vote.recovery = some recovery ↔
    Signed codec db.domain key.bundleIndex key.proposalId recovery

theorem loadVotes_loaded {votes : KeyedMap VoteKey VoteSnapshot}
    (h : loadVotes codec H wire db = .ok votes) :
    ∃ claims, loadAuthoritativeBatchPhases codec H wire db = .ok claims ∧
      (∀ key row, db.domain.votes.get? key = some row →
        ∃ vote, votes.get? key = some vote ∧ Loaded codec db claims key row vote) ∧
      ∀ key vote, votes.get? key = some vote → ∃ row, Loaded codec db claims key row vote := by
  obtain ⟨phases, hph, h⟩ := bind_ok h
  obtain ⟨claims, hcl, hph⟩ := bind_ok hph
  have hl : ∀ key row vote, db.domain.votes.get? key = some row →
      loadVote codec db phases key row = .ok vote → Loaded codec db claims key row vote := by
    intro key row vote hrow hv
    obtain ⟨_, hpha, hget⟩ := KeyedMap.traverse_ok hph hrow
    unfold loadVote at hv
    simp only [hget] at hv
    obtain ⟨_, hr, hdo⟩ := bind_ok hv
    cases hdo
    have hj : db.domain.recoveryJson key.bundleIndex key.proposalId = row.commitmentBundleJson := by
      rw [recoveryJson, vote?, hrow]
      rfl
    cases hs : row.commitmentBundleJson with
    | none =>
      rw [hs] at hr
      cases hr
      refine ⟨hrow, rfl, rfl, rfl, hpha, by rw [hs]; rfl, fun found => ⟨?_, ?_⟩⟩
      · intro hno
        cases hno
      · rintro ⟨json, hso, -⟩
        rw [hj, hs] at hso
        cases hso
    | some json =>
      rw [hs, Option.mapM_some] at hr
      cases hp : codec.parseRecovery json with
      | error =>
        rw [hp] at hr
        cases hr
      | ok =>
        rw [hp] at hr
        cases hr
        refine ⟨hrow, rfl, rfl, rfl, hpha, by rw [hs]; rfl, fun found => ⟨?_, ?_⟩⟩
        · intro hfo
          cases hfo
          exact ⟨json, hj.trans hs, hp⟩
        · rintro ⟨_, hj', hp'⟩
          rw [hj, hs] at hj'
          cases hj'
          rw [hp] at hp'
          rw [Except.ok.inj hp']
  refine ⟨claims, hcl, ?_, ?_⟩
  · intro key row hrow
    obtain ⟨vote, hv, hget⟩ := KeyedMap.traverse_ok h hrow
    exact ⟨vote, hget, hl key row vote hrow hv⟩
  · intro key vote hv
    obtain ⟨row, hrow, hlo⟩ := KeyedMap.of_traverse_ok h hv
    exact ⟨row, hl key row vote hrow hlo⟩

theorem properRecoveries_of_snapshot {s : RoundSnapshot}
    (h : loadVotes codec H wire db = .ok s.votes) : ProperRecoveries codec db.domain := by
  obtain ⟨_, -, hro, -⟩ := loadVotes_loaded h
  intro b p recovery hs
  obtain ⟨_, hjs, -⟩ := id hs
  obtain ⟨row, hrow, -⟩ := Option.bind_eq_some_iff.mp hjs
  obtain ⟨vote, hvo, hlo⟩ := hro ⟨b, p⟩ row hrow
  exact s.recovery_proposal _ vote recovery hvo ((hlo.recovery recovery).mpr hs)

theorem batchClaim?_of_named (hcl : loadAuthoritativeBatchPhases codec H wire db = .ok claims)
    (hpr : ProperRecoveries codec db.domain) {submission : StoredChainSubmission}
    (hmem : submission ∈ db.submissions) (hon : onBundle db b submission = true)
    (hdi : submission.identity.target.batchDigest = some D)
    (hs : Signed codec db.domain b p recovery) (hin : batchDigestOf recovery = some D) :
    (batchClaim? claims ⟨b, p⟩).isSome = true := by
  simp only [onBundle, Bool.and_eq_true, decide_eq_true_eq] at hon
  obtain ⟨_, hb⟩ := (loadAuthoritativeBatchPhases_ok hcl).2 submission hmem hon.1 D hdi
  have hl := hb.loaded
  rw [hon.2] at hl
  have hc := hb.claimed recovery ((mem_loadVoteBatchRecoveries hl).mpr ⟨⟨p, hs⟩, hin⟩)
  rw [hon.2, hpr b p recovery hs] at hc
  exact batchClaim?_of_claimed ⟨_, hc⟩

/-- The phase of a loaded vote: that of a submission naming it, or that of its columns. -/
theorem Loaded.phase_cases (h : Loaded codec db claims ⟨b, p⟩ row vote)
    (hcla : loadAuthoritativeBatchPhases codec H wire db = .ok claims)
    (hpr : ProperRecoveries codec db.domain) :
    (∃ submission ∈ db.submissions, onBundle db b submission = true ∧
      NamesVote submission p (vote.recovery.bind batchDigestOf) ∧
      vote.phase = authoritativeSubmissionPhase submission.durableState) ∨
    ¬Named db b p (vote.recovery.bind batchDigestOf) ∧
      vote.phase = votePhaseFromColumns row.txHash.isSome row.vcTreePosition.isSome
        row.commitmentBundleJson.isSome := by
  have hph := h.phase
  unfold voteSubmissionPhase at hph
  split at hph
  · cases hph
  next submission hs _ =>
    have ht := List.find?_some hs
    simp only [Bool.and_eq_true, decide_eq_true_eq] at ht
    exact .inl ⟨submission, mem_of_find?_eq_some hs, ht.1, .inl ht.2, (Except.ok.inj hph).symm⟩
  next phase _ hc =>
    obtain ⟨claim, hf, rfl⟩ := Option.map_eq_some_iff.mp hc
    have hkey : claim.1 = ⟨b, p⟩ := by simpa using List.find?_some hf
    obtain ⟨submission, hmem, hon, hst, D, q, recovery, hd, hsi, hin, hp⟩ :=
      claim_origin hcla (mem_of_find?_eq_some hf)
    rw [hkey] at hon hsi hp
    have hq : q = p := (hpr b q recovery hsi).symm.trans hp
    subst hq
    have hr := (h.recovery recovery).mpr hsi
    refine .inl ⟨submission, hmem, hon, .inr ?_, by rw [← hst]; exact (Except.ok.inj hph).symm⟩
    rw [hr, hd]
    exact ⟨rfl, hin.symm⟩
  next hs hc =>
    refine .inr ⟨?_, (Except.ok.inj hph).symm⟩
    rintro ⟨submission, hmem, hon, hvo | ⟨hso, hd⟩⟩
    · rw [singletonSubmission?, List.find?_eq_none] at hs
      exact hs submission hmem (by simp [hon, hvo])
    obtain ⟨_, hD⟩ := Option.isSome_iff_exists.mp hso
    rw [hD] at hd
    obtain ⟨recovery, hr, hin⟩ := Option.bind_eq_some_iff.mp hd.symm
    have hcl := batchClaim?_of_named hcla hpr hmem hon hD ((h.recovery recovery).mp hr) hin
    rw [hc] at hcl
    cases hcl

/-- The phase of a vote that a submission names is never one of the columns alone. -/
theorem authoritative_ne_committed (state : ChainSubmissionState) :
    authoritativeSubmissionPhase state ≠ .committed := by
  cases state <;> exact nofun

/-- The columns of a committed vote: signed, without a hash, and named by no submission. -/
theorem Loaded.committed_iff (h : Loaded codec db claims ⟨b, p⟩ row vote)
    (hcl : loadAuthoritativeBatchPhases codec H wire db = .ok claims)
    (hpr : ProperRecoveries codec db.domain) :
    vote.phase = .committed ↔ ¬Named db b p (vote.recovery.bind batchDigestOf) ∧
      row.txHash.isSome = false ∧ row.commitmentBundleJson.isSome = true := by
  rcases h.phase_cases hcl hpr with ⟨submission, hmem, hon, hna, hp⟩ | ⟨hun, hp⟩
  · rw [hp]
    refine ⟨fun heq => absurd heq (authoritative_ne_committed _), fun hall => ?_⟩
    exact absurd ⟨submission, hmem, hon, hna⟩ hall.1
  · rw [hp]
    simp only [hun, not_false_eq_true]
    unfold votePhaseFromColumns
    cases row.txHash.isSome <;> cases row.vcTreePosition.isSome <;>
      cases row.commitmentBundleJson.isSome <;> simp

end ZcashVoting.Voting
