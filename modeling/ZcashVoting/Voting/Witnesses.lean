import ZcashVoting.RoundPlanning.CastExclusion
import ZcashVoting.Voting.RoundRuns

/-!
# Votes that have reached the chain

A vote that carries a transaction hash or a tree position is to be left alone: it is not
planned for retirement or for a cast, and the retirement executor does not clear it. The
planner sees the phase of a vote only. The phase of a vote without a submission is read
from the columns, where a tree position without a hash counts for nothing.
-/
namespace ZcashVoting.Voting

open ChainSubmission RoundPlanning KeyedData RoundTables SqlTable List RoundObligations

variable {J : Type} {codec : RecoveryCodec J} {H : BatchSighash} {wire : GenerationWire J}
  {events : EventValidation} {db : VotingDb J} {b p : Nat}

/-! ### Claims of batches -/

/-- The vote is claimed by some batch. -/
def Claimed (claims : BatchClaims) (key : VoteKey) : Prop := ∃ phase, (key, phase) ∈ claims

variable {phase : VotePhase} {claims claims' : BatchClaims} {key : VoteKey}

theorem claimMember_ok (h : claimMember db b phase claims p = .ok claims') :
    claims' = claims ++ [(⟨b, p⟩, phase)] := by
  unfold claimMember at h
  split at h
  · cases h
  · exact (Except.ok.inj h).symm

theorem claimMembers_claimed {members : List Nat}
    (h : members.foldlM (claimMember db b phase) claims = .ok claims') :
    claims' = claims ++ members.map fun q => (⟨b, q⟩, phase) := by
  refine foldlM_ok_induction (fun (seen : List Nat) st =>
    st = claims ++ seen.map fun q => ((⟨b, q⟩ : VoteKey), phase)) h (by simp) ?_
  intro seen q _ st st' _ ih hst
  rw [claimMember_ok hst, ih, map_append, append_assoc]
  rfl

/-- The members a stored batch row claims. -/
structure BatchClaimed (codec : RecoveryCodec J) (H : BatchSighash) (wire : GenerationWire J)
    (db : VotingDb J) (claims : BatchClaims) (row : StoredChainSubmission) (digest : Bytes32)
    (recoveries : List VoteRecoveryBundle) : Prop where
  loaded : db.domain.loadVoteBatchRecoveries codec H row.identity.bundleIndex digest =
    .ok recoveries
  claimed : ∀ recovery ∈ recoveries, (⟨row.identity.bundleIndex, recovery.proposalId⟩,
    authoritativeSubmissionPhase row.durableState) ∈ claims

/-- Claiming a row adds its members, each with the phase of the row. -/
theorem claimBatch_ok {row : StoredChainSubmission}
    (h : claimBatch codec H wire db claims row = .ok claims') : (∃ added : List VoteKey, claims' =
      claims ++ added.map fun key => (key, authoritativeSubmissionPhase row.durableState)) ∧
    ∀ digest, row.identity.target.batchDigest = some digest →
      ∃ recoveries, BatchClaimed codec H wire db claims' row digest recoveries := by
  unfold claimBatch at h
  cases hd : row.identity.target.batchDigest with
  | none =>
    simp only [hd] at h
    cases h
    exact ⟨⟨[], by simp⟩, nofun⟩
  | some =>
    simp only [hd] at h
    obtain ⟨recoveries, hre, h⟩ := bind_ok h
    obtain ⟨-, h⟩ := guard_ok h
    have hc := claimMembers_claimed h
    refine ⟨⟨recoveries.map fun recovery => ⟨row.identity.bundleIndex, recovery.proposalId⟩, ?_⟩, ?_⟩
    · rw [hc, map_map, map_map]
      rfl
    intro found hfo
    cases hfo
    refine ⟨recoveries, (validatedVoteBatch_ok hre).1, ?_⟩
    intro recovery hmem
    rw [hc]
    refine mem_append_right _ (mem_map.mpr ⟨recovery.proposalId, ?_, rfl⟩)
    exact mem_map_of_mem hmem

/-- What the claims of the round hold: phases of submissions, and every member of every
stored batch. -/
theorem loadAuthoritativeBatchPhases_ok
    (h : loadAuthoritativeBatchPhases codec H wire db = .ok claims) :
    (∀ claim ∈ claims, ∃ state, claim.2 = authoritativeSubmissionPhase state) ∧
    ∀ row ∈ db.submissions, db.domain.holdsRound row.identity.roundId row.identity.walletId = true →
      ∀ digest, row.identity.target.batchDigest = some digest →
        ∃ recoveries, BatchClaimed codec H wire db claims row digest recoveries := by
  have hlo := foldlM_ok_induction (fun (seen : List StoredChainSubmission) (claims : BatchClaims) =>
      (∀ claim ∈ claims, ∃ state, claim.2 = authoritativeSubmissionPhase state) ∧
      ∀ row ∈ seen, ∀ digest, row.identity.target.batchDigest = some digest →
        ∃ recoveries, BatchClaimed codec H wire db claims row digest recoveries)
    h ⟨by simp, by simp⟩ (by
      intro seen row _ claims claims' _ ih hst
      obtain ⟨⟨_, ha⟩, hown⟩ := claimBatch_ok hst
      refine ⟨?_, ?_⟩
      · intro claim hc
        rw [ha, mem_append] at hc
        rcases hc with hold | hnew
        · exact ih.1 claim hold
        · obtain ⟨_, -, rfl⟩ := mem_map.mp hnew
          exact ⟨_, rfl⟩
      · intro row' hrow' digest hd
        rcases mem_append.mp hrow' with hse | hl
        · obtain ⟨recoveries, hold⟩ := ih.2 row' hse digest hd
          refine ⟨recoveries, hold.loaded, ?_⟩
          intro recovery hmem
          rw [ha]
          exact mem_append_left _ (hold.claimed recovery hmem)
        · rw [mem_singleton] at hl
          subst hl
          exact hown digest hd)
  refine ⟨hlo.1, ?_⟩
  intro row hrow hro digest hd
  exact hlo.2 row (mem_filter.mpr ⟨hrow, by simp [hro, hd]⟩) digest hd

theorem mem_of_loaded {t : RoundTables J} {digest : Bytes32} {recoveries : List VoteRecoveryBundle}
    {json : J} (h : t.loadVoteBatchRecoveries codec H b digest = .ok recoveries)
    (hjs : t.recoveryJson b p = some json)
    (hin : ∀ recovery, codec.parseRecovery json = .ok recovery →
      recovery.inBatch digest = true ∧ recovery.proposalId = p) :
        ∃ recovery ∈ recoveries, recovery.proposalId = p := by
  obtain ⟨_, hca, h⟩ := bind_ok h
  have hmem : json ∈ (t.bundleVotes b).filterMap fun vote => vote.2.commitmentBundleJson := by
    obtain ⟨row, hrow, hte⟩ := Option.bind_eq_some_iff.mp hjs
    refine mem_filterMap.mpr ⟨(p, row), ?_, hte⟩
    exact mem_filterMap.mpr ⟨(⟨b, p⟩, row), KeyedMap.mem_entries_of_get? hrow, by simp⟩
  obtain ⟨recovery, hcan, hpa⟩ := mapM_ok_of_mem hca hmem
  obtain ⟨hba, hp⟩ := hin recovery hpa
  rw [assemble_ok h]
  exact ⟨recovery, mem_batchMembers.mpr ⟨hcan, hba⟩, hp⟩

/-! ### Phases of witnessed votes -/

theorem owned_of_submission (state : ChainSubmissionState) :
    votePhaseIsLifecycleOwned (authoritativeSubmissionPhase state) = true := by
  cases state <;> rfl

theorem batchClaim?_of_claimed (h : Claimed claims key) :
    (batchClaim? claims key).isSome = true := by
  obtain ⟨_, hmem⟩ := h
  rw [batchClaim?, Option.isSome_map, List.find?_isSome]
  exact ⟨_, hmem, by simp⟩

/-- A covered vote is claimed by a batch or has a submission of its own. -/
theorem submission_of_covered (hcl : loadAuthoritativeBatchPhases codec H wire db = .ok claims)
    (h : Covered codec db b p) :
    (singletonSubmission? db b p).isSome = true ∨ (batchClaim? claims ⟨b, p⟩).isSome = true := by
  obtain ⟨identity, row, hr, hrow, -, hb, hco⟩ := h
  have hmem : row ∈ db.submissions := mem_of_lookup hrow
  have hid : row.identity = identity := key_of_lookup hrow
  rcases hco with hvo | ⟨digest, _, hdi, hjs, hin⟩
  · refine .inl ?_
    rw [singletonSubmission?, List.find?_isSome]
    exact ⟨row, hmem, by simp [onBundle, hid, hr, hb, hvo]⟩
  · obtain ⟨_, hba⟩ := (loadAuthoritativeBatchPhases_ok hcl).2 row hmem
      (by rw [hid]; exact hr) digest (by rw [hid]; exact hdi)
    have hl := hba.loaded
    rw [hid, hb] at hl
    obtain ⟨recovery, hre, hp⟩ := mem_of_loaded hl hjs hin
    have hc := hba.claimed recovery hre
    rw [hid, hb, hp] at hc
    exact .inr (batchClaim?_of_claimed ⟨_, hc⟩)

/-- The phase of a vote with a hash or a submission is the lifecycle's. -/
theorem voteSubmissionPhase_owned {row : VoteRow J}
    (hph : ∀ claim ∈ claims, ∃ state, claim.2 = authoritativeSubmissionPhase state)
    (h : voteSubmissionPhase db claims key row = .ok phase) (hs : row.txHash.isSome = true ∨
      (singletonSubmission? db key.bundleIndex key.proposalId).isSome = true ∨
      (batchClaim? claims key).isSome = true) : votePhaseIsLifecycleOwned phase = true := by
  unfold voteSubmissionPhase at h
  split at h
  · cases h
  · cases h
    exact owned_of_submission _
  · rename_i claimed _ hc
    cases h
    obtain ⟨claim, hfi, rfl⟩ := Option.map_eq_some_iff.mp hc
    obtain ⟨state, hst⟩ := hph claim (mem_of_find?_eq_some hfi)
    rw [hst]
    exact owned_of_submission state
  · rename_i hsi hc
    rw [hsi, hc] at hs
    have hha : row.txHash.isSome = true := by simpa using hs
    cases h
    cases hpo : row.vcTreePosition.isSome <;> cases hjs : row.commitmentBundleJson.isSome <;>
      simp [hha] <;> rfl

/-- The snapshot shows every witnessed vote of a covered round as the lifecycle's. -/
theorem loadVotes_owned {votes : KeyedMap VoteKey VoteSnapshot}
    (h : loadVotes codec H wire db = .ok votes) (hco : TreeCovered codec db)
    (hrec : db.domain.recorded b p = true) :
    ∃ vote, votes.get? ⟨b, p⟩ = some vote ∧ votePhaseIsLifecycleOwned vote.phase = true := by
  obtain ⟨row, hrow, hw⟩ := (Option.any_eq_true ..).mp hrec
  obtain ⟨_, hp, h⟩ := bind_ok h
  obtain ⟨_, hc, hp⟩ := bind_ok hp
  obtain ⟨phase, hph, hget⟩ := KeyedMap.traverse_ok hp hrow
  obtain ⟨vote, hv, hget'⟩ := KeyedMap.traverse_ok h hrow
  refine ⟨vote, hget', ?_⟩
  have hsa : vote.phase = phase := by
    unfold loadVote at hv
    simp only [hget] at hv
    obtain ⟨_, -, hdo⟩ := bind_ok hv
    cases hdo
    rfl
  rw [hsa]
  refine voteSubmissionPhase_owned (loadAuthoritativeBatchPhases_ok hc).1 hph ?_
  rw [VoteRow.witnessed, Bool.or_eq_true] at hw
  rcases hw with hha | hpo
  · exact .inl hha
  · exact (hco _ row hrow hpo).imp_right (submission_of_covered hc)

/-! ### Plans and retirement -/

/-- The plan leaves a vote of the lifecycle alone. -/
theorem not_planned_of_owned {s : RoundSnapshot} {proposalIds : List Nat} {plan : RoundObligations}
    {vote : VoteSnapshot} (h : classifyRound H s proposalIds = .ok plan)
    (row : s.vote? b p = some vote) (ho : votePhaseIsLifecycleOwned vote.phase = true) :
    ¬ plan.Retires b p ∧ plan.castDrafts b p = 0 := by
  rcases classifyRound_ok h with ⟨-, hn⟩ | ⟨_, _, _, _, _, -, -, hu, hp⟩
  · refine ⟨?_, by simp [castDrafts, hn]⟩
    rintro ⟨_, _, hmem, -⟩
    rw [hn] at hmem
    cases hmem
  · refine ⟨?_, ?_⟩
    · rw [hp.retires_iff hu]
      exact Classification.not_retirable_of_owned hu row ho
    rw [castDrafts, count_eq_zero, mem_flatMap]
    rintro ⟨obligation, hmem, hpa⟩
    cases obligation with
    | cast =>
      obtain ⟨draft, hdr, heq⟩ := mem_map.mp hpa
      cases heq
      obtain ⟨-, hout⟩ := (hp.pair_of_cast hmem).2 draft hdr
      obtain ⟨_, hch, hde⟩ := Classification.outcomeOf_eq_some hout
      have hli := Classification.not_due_of_owned hu hp.clear row ho hch
      cases hde with
      | cast due =>
        rw [hli] at due
        cases due
    | _ => cases hpa

/-- The vote is left alone: by every plan of a roster, and by every retirement. -/
structure LeftAlone (codec : RecoveryCodec J) (H : BatchSighash) (wire : GenerationWire J)
    (db : VotingDb J) (b p : Nat) : Prop where
  planned : ∀ (s : RoundSnapshot) (proposalIds : List Nat) (plan : RoundObligations),
    loadVotes codec H wire db = .ok s.votes → classifyRound H s proposalIds = .ok plan →
    ¬ plan.Retires b p ∧ plan.castDrafts b p = 0
  retired : ∀ (bundle : Nat) (roster retired : List Nat) (db' : VotingDb J),
    retireUndispatchedVotesOutsideRoster codec H db bundle roster = .ok (retired, db') →
    db'.domain.vote? b p = db.domain.vote? b p ∧
      db'.domain.voteShares ⟨b, p⟩ = db.domain.voteShares ⟨b, p⟩ ∧ (bundle = b → p ∉ retired)

theorem TreeCovered.leftAlone (h : TreeCovered codec db) (hrec : db.domain.recorded b p = true) :
    LeftAlone codec H wire db b p := by
  refine ⟨?_, ?_⟩
  · intro s proposalIds plan hlo hpl
    obtain ⟨_, hvo, hown⟩ := loadVotes_owned hlo h hrec
    exact not_planned_of_owned hpl hvo hown
  · intro bundle roster retired db' hre
    obtain ⟨-, hke, hfr⟩ := retireUndispatchedVotesOutsideRoster_ok hre
    obtain ⟨row, hrow, hw⟩ := (Option.any_eq_true ..).mp hrec
    obtain ⟨hrow', hsh⟩ := hke.rows _ row hrow hw
    refine ⟨hrow'.trans hrow.symm, hsh, ?_⟩
    rintro rfl hmem
    rw [hfr p hmem] at hrec
    cases hrec

/-- Every vote of the tables that has a tree position has a transaction hash as well. -/
def PositionsHashed (t : RoundTables J) : Prop :=
  ∀ key row, t.votes.get? key = some row → row.vcTreePosition.isSome = true →
    row.txHash.isSome = true

section

variable [DecidableEq J]

/-- In every state a round reaches from tables whose positions are hashed, a vote that has
reached the chain is left alone. -/
theorem witnessed_vote_is_left_alone {start : VotingDb J} (hstart : PositionsHashed start.domain)
    (hrun : Reached codec H wire events start db) (hrec : db.domain.recorded b p = true) :
    LeftAlone codec H wire db b p := by
  have hco : TreeCovered codec start := fun key row hrow hpo =>
    .inl (hstart key row hrow hpo)
  exact (hrun.treeCovered hco).leftAlone hrec

/-- The vote has a confirmation witness, and this choice. -/
def OnChain (t : RoundTables J) (b p choice : Nat) : Prop :=
  ∃ row, t.vote? b p = some row ∧ row.witnessed = true ∧ row.choice = choice

theorem OnChain.step (h : OnChain db.domain b p choice)
    (hpr : (db'.domain.vote? b p).isSome = true) (hst : RoundStep codec H wire events db db') :
    OnChain db'.domain b p choice := by
  obtain ⟨row, hrow, hw, hch⟩ := h
  have hk (h : KeepsWitnessed db.domain db'.domain) : OnChain db'.domain b p choice :=
    ⟨row, (h.rows _ row hrow hw).1, hw, hch⟩
  have hs (hd : db'.domain = db.domain) := hk (hd ▸ .refl _)
  cases hst with
  | cast _ _ _ hca => exact hk hca.keeps
  | transaction htr =>
    cases htr.effect with
    | unchanged hdb => exact hs (by rw [hdb])
    | inserted _ _ hins => exact hs hins.domain
    | rewritten _ _ _ _ _ _ _ hd | removed _ _ _ _ _ hd => exact hs hd
    | retired _ _ _ _ _ _ _ hd => exact hk (retired_keeps hd)
    | confirmed _ _ _ _ _ _ _ _ _ _ _ hd =>
      obtain ⟨keys, hc, -⟩ := applyConfirmedGeneration_ok hd
      by_cases hkey : ⟨b, p⟩ ∈ keys
      · obtain ⟨_, row', hold, hrow', hco⟩ := hc.rows _ hkey
        cases hrow.symm.trans hold
        exact ⟨row', hrow', by simp [VoteRow.witnessed, hco.positioned], hco.choice.trans hch⟩
      · exact ⟨row, (hc.kept _ hkey).trans hrow, hw, hch⟩
  | retire _ _ _ hre => exact hk (retireUndispatchedVotesOutsideRoster_ok hre).2.1
  | clearVote _ _ _ hc => exact hk (clearUnsubmittedVoteRecovery_clears hc).keepsWitnessed
  | clearBatch _ _ _ _ hc => exact hk (clearVoteBatchRecovery_clears hc).1.keepsWitnessed
  | other _ _ _ hv =>
    obtain ⟨_, hrow'⟩ := Option.isSome_iff_exists.mp hpr
    cases hrow.symm.trans (hv _ _ hrow')
    exact ⟨row, hrow', hw, hch⟩
  | clearRound hv => simp [vote?, hv] at hpr
  | elsewhere hdo => exact hs hdo

/-- Until its row is deleted a vote with a confirmation witness keeps one, and its choice,
over every run of casts, submissions, retirements and clears. -/
theorem votes_on_chain_stay (h : OnChain db.domain b p choice)
    (hrun : Relation.ReflTransGen (fun db db' => RoundStep codec H wire events db db' ∧
      (db'.domain.vote? b p).isSome = true) db db') : OnChain db'.domain b p choice := by
  induction hrun with
  | refl => exact h
  | tail _ hst ih => exact ih.step hst.2 hst.1

end

/-! ### Votes with a tree position only -/

/-- Derivations of a database without submissions. -/
def plainWire : GenerationWire VoteRecoveryBundle where
  deriveDelegation _ _ := .error (.internal "no delegation")
  delegationVan _ _ := .ok none
  generationDigest _ _ _ := zeroBytes32
  wireSubmission _ := .ok ""
  batchWire _ := ""
  combinedWire _ _ _ := .ok ""

def plainEvents : EventValidation :=
  ⟨fun _ _ _ => .error "no event", fun _ _ _ => .error "no event"⟩

/-- A vote for proposal 2 is cast next to the confirmed vote for proposal 1, which is left
alone afterwards. -/
theorem witnessed_vote_is_left_alone_next : PositionsHashed confirmedDb.domain ∧
    ∃ db, Reached plainCodec sampleSighash plainWire plainEvents confirmedDb db ∧
      db.domain.recorded 0 1 = true ∧ LeftAlone plainCodec sampleSighash plainWire db 0 1 := by
  have hh : PositionsHashed confirmedDb.domain := by
    intro key row hrow _
    have hmem := KeyedMap.mem_entries_of_get? hrow
    simp only [confirmedDb, plainTables, mem_singleton, Prod.mk.injEq] at hmem
    rw [hmem.2]
    rfl
  obtain ⟨vote, db', hc, -, -, -⟩ := castEffect_ok castEffect_confirmedDb
  have hrun : Reached plainCodec sampleSighash plainWire plainEvents confirmedDb db' :=
    .step .start (.cast _ 0 [vote] hc)
  have hrow := (hc.keeps.rows ⟨0, 1⟩ { plainRow maxProposalAuthority (plainDraft false) with
    txHash := some "vote", vcTreePosition := some 7 } rfl rfl).1
  have hrec : db'.domain.recorded 0 1 = true := by
    rw [recorded, RoundTables.vote?, hrow]
    rfl
  exact ⟨hh, db', hrun, hrec, witnessed_vote_is_left_alone hh hrun hrec⟩

theorem votes_on_chain_stay_cast :
    ∃ db, RoundStep plainCodec sampleSighash plainWire plainEvents confirmedDb db ∧
    OnChain db.domain 0 1 0 := by
  obtain ⟨_, db, hc, -⟩ := castEffect_ok castEffect_confirmedDb
  have hst : RoundStep plainCodec sampleSighash plainWire plainEvents confirmedDb db :=
    .cast _ 0 _ hc
  have hpr := Option.isSome_of_mem (hc.keeps.rows ⟨0, 1⟩ _ rfl rfl).1
  exact ⟨db, hst, votes_on_chain_stay ⟨_, rfl, rfl, rfl⟩ (.single ⟨hst, hpr⟩)⟩

/-- The row of the vote for proposal 1. -/
def legacyRow (signed : Bool) : VoteRow VoteRecoveryBundle :=
  { plainRow maxProposalAuthority (plainDraft false) with
    vcTreePosition := some 7
    commitmentBundleJson :=
      if signed then some (plainRecovery maxProposalAuthority (plainDraft false)) else none }

/-- A round from before the submission store: one vote with a tree position and no hash. -/
def legacyDb (signed : Bool) : VotingDb VoteRecoveryBundle :=
  ⟨[], plainTables (.single ⟨0, 1⟩ (legacyRow signed)) []⟩

/-- The snapshot of a round with one vote for proposal 1, and a ballot for proposal 1 or 2. -/
def legacySnapshot (vote : VoteSnapshot) (hvote : ∀ recovery, vote.recovery = some recovery →
    recovery.proposalId = 1) (chosen : Nat) : RoundSnapshot :=
  bundleRound (sampleIdentity .delegation).roundId .confirmed (.single ⟨0, 1⟩ vote)
    (.single chosen (.choice 0)) (by simp [KeyedMap.get?_eq_some_iff]) (by
      simp only [KeyedMap.get?_eq_some_iff, KeyedMap.single, mem_singleton, Prod.mk.injEq]
      rintro _ _ _ ⟨rfl, rfl⟩
      exact hvote _)

/-- The signed vote, which the columns call committed. -/
def signedLegacy : RoundSnapshot := legacySnapshot ⟨0, .committed, none, some 7,
    some (plainRecovery maxProposalAuthority (plainDraft false))⟩ (by intro r h; cases h; rfl) 2

/-- The vote without a recovery text, which the columns call prepared. -/
def unsignedLegacy :
    RoundSnapshot := legacySnapshot ⟨0, .prepared, none, some 7, none⟩ (by intro r h; cases h) 1

/-- Both votes have reached the chain. The signed one is planned for retirement when its
proposal is not on the roster, the unsigned one for another cast. -/
theorem tree_position_alone_is_retired_or_cast : ((legacyDb true).domain.recorded 0 1 = true ∧
      loadVotes plainCodec sampleSighash plainWire (legacyDb true) = .ok signedLegacy.votes ∧
      ∃ plan, classifyRound sampleSighash signedLegacy [2] = .ok plan ∧ plan.Retires 0 1) ∧
    (legacyDb false).domain.recorded 0 1 = true ∧
      loadVotes plainCodec sampleSighash plainWire (legacyDb false) = .ok unsignedLegacy.votes ∧
      ∃ plan, classifyRound sampleSighash unsignedLegacy [1] = .ok plan ∧
        plan.castDrafts 0 1 = 1 := by
  obtain ⟨retiring, hre, hret⟩ := map_ok
    (show (classifyRound sampleSighash signedLegacy [2]).map obligations =
      .ok [.retire (.singleton 0 1) [1], .cast 0 [⟨2, 0⟩] none false] by decide +kernel)
  obtain ⟨casting, hca, hcas⟩ := map_ok
    (show (classifyRound sampleSighash unsignedLegacy [1]).map obligations =
      .ok [.cast 0 [⟨1, 0⟩] none false] by decide +kernel)
  refine ⟨⟨rfl, rfl, retiring, hre, ?_⟩, rfl, rfl, casting, hca, ?_⟩
  · exact ⟨.singleton 0 1, [1], by rw [hret]; simp, rfl, by simp⟩
  · rw [castDrafts, hcas]
    rfl

end ZcashVoting.Voting
