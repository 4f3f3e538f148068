import ZcashVoting.RoundPlanning.Plannable
import ZcashVoting.Voting.BallotIntents

/-!
# Edits of the ballot keep a round plannable

An accepted edit clears the signed votes that disagree with it and that no submission
owns. As long as every submission that names an unwitnessed vote owns it, the cleared
votes are committed ones, whole batches at a time. The snapshot of the edited round then
differs in their phases and in the one decision only, and it is still classified.

A rejected singleton submission names its vote without owning it. Its vote stays on the
chain lifecycle for the planner, and an edit can contradict it.
-/
namespace ZcashVoting.Voting

open ChainSubmission RoundPlanning KeyedData RoundTables List

variable {J : Type} {codec : RecoveryCodec J} {H : BatchSighash} {wire : GenerationWire J}
  {t t' : RoundTables J} {db db' : VotingDb J} {s s' : RoundSnapshot} {b p : Nat}
  {recovery : VoteRecoveryBundle} {cleared : List VoteKey} {claims : BatchClaims}
  {decision : Option Decision}

/-! ### Batches that are left whole -/

/-- No member of the batch is cleared. -/
def LeavesBatch (codec : RecoveryCodec J) (t : RoundTables J) (cleared : List VoteKey) (b : Nat)
    (D : Bytes32) : Prop :=
  ∀ q member, Signed codec t b q member → batchDigestOf member = some D → ⟨b, q⟩ ∉ cleared

theorem nodup_candidates {candidates : List VoteRecoveryBundle} (hpr : ProperRecoveries codec t)
    (h : ((t.bundleVotes b).filterMap fun vote => vote.2.commitmentBundleJson).mapM
      codec.parseRecovery = .ok candidates) : candidates.Nodup := by
  rw [mapM_ok_filterMap h, bundleVotes, filterMap_filterMap, filterMap_filterMap]
  have hkey : ∀ entry ∈ t.votes.entries, ∀ found : VoteRecoveryBundle,
      ((if entry.1.bundleIndex = b then some (entry.1.proposalId, entry.2) else none).bind fun vote =>
        vote.2.commitmentBundleJson.bind fun json =>
          (codec.parseRecovery json).toOption) = some found →
      entry.1 = ⟨b, found.proposalId⟩ := by
    intro entry hmem found hf
    obtain ⟨vote, hv, hf⟩ := Option.bind_eq_some_iff.mp hf
    obtain ⟨json, hjs, hpa⟩ := Option.bind_eq_some_iff.mp hf
    split at hv
    next hb =>
      cases hv
      have hsi : Signed codec t b entry.1.proposalId found := by
        refine ⟨json, ?_, ?_⟩
        · have hget : t.vote? b entry.1.proposalId = some entry.2 := by
            rw [← hb]
            exact KeyedMap.get?_of_mem_entries hmem
          rw [recoveryJson, hget]
          exact hjs
        · exact except_of_toOption hpa
      rw [hpr b _ found hsi, ← hb]
    · cases hv
  refine KeyedMap.nodup_filterMap_entries fun entry hmem entry' hmem' found hf hfo' => ?_
  rw [hkey entry hmem found hf, hkey entry' hmem' found hfo']

variable {D : Bytes32} {vote : VoteSnapshot} {key : VoteKey} {q : Nat}
  {recoveries : List VoteRecoveryBundle} {start : RoundSnapshot} {row : VoteRow J}

theorem loadVoteBatchRecoveries_kept (ht : Trims t t' cleared) (hpr : ProperRecoveries codec t)
    (hle : LeavesBatch codec t cleared b D)
    (h : t.loadVoteBatchRecoveries codec H b D = .ok recoveries) :
    t'.loadVoteBatchRecoveries codec H b D = .ok recoveries := by
  obtain ⟨_, hc, hass⟩ := bind_ok h
  obtain ⟨candidates', hc'⟩ : ∃ candidates', ((t'.bundleVotes b).filterMap fun vote =>
      vote.2.commitmentBundleJson).mapM codec.parseRecovery = .ok candidates' := by
    refine mapM_exists_ok fun json hjs => ?_
    obtain ⟨⟨q, _⟩, hvo, hte⟩ := mem_filterMap.mp hjs
    have hst : t'.recoveryJson b q = some json := by
      rw [recoveryJson, mem_bundleVotes.mp hvo]
      exact hte
    rw [ht.recoveryJson] at hst
    split at hst
    · cases hst
    obtain ⟨row, hrow, hte⟩ := Option.bind_eq_some_iff.mp hst
    obtain ⟨found, -, hpa⟩ := mapM_ok_of_mem hc
      (mem_filterMap.mpr ⟨(q, row), mem_bundleVotes.mpr hrow, hte⟩)
    exact ⟨found, hpa⟩
  rw [loadVoteBatchRecoveries, hc', ht.roundId]
  refine assemble_of_mem hass (nodup_candidates (ht.proper hpr) hc') ?_
  intro member hin
  rw [mem_candidates_iff hc', mem_candidates_iff hc]
  constructor
  · rintro ⟨q, hs⟩
    exact ⟨q, (ht.signed_iff.mp hs).2⟩
  · rintro ⟨q, hs⟩
    exact ⟨q, ht.signed_iff.mpr ⟨hle q member hs (inBatch_iff.mp hin), hs⟩⟩

theorem loadValidatedVote_congr (hvo : t'.vote? b p = t.vote? b p) (hro : t'.roundId = t.roundId) :
    t'.loadValidatedVote codec b p = t.loadValidatedVote codec b p := by
  unfold loadValidatedVote recoveryBundle recoveryJson validateRecoveryMatchesStoredVote
    recoveryMismatch voteNotFound place
  rw [hvo, hro]

/-- The generation digests of batches read the round, its bundles and the recoveries they
are given. -/
structure FramedWire (wire : GenerationWire J) : Prop where
  generationDigest : ∀ {t t' : RoundTables J} {cleared}, Trims t t' cleared →
    wire.generationDigest t' = wire.generationDigest t
  delegationVan : ∀ {t t' : RoundTables J} {cleared}, Trims t t' cleared →
    wire.delegationVan t' = wire.delegationVan t

theorem validatedVoteBatch_kept {combined : Bool} (hwi : FramedWire wire) (ht : Trims t t' cleared)
    (hp : ProperRecoveries codec t) (hl : LeavesBatch codec t cleared b D)
    (h : t.validatedVoteBatch codec H wire b D combined = .ok recoveries) :
    t'.validatedVoteBatch codec H wire b D combined = .ok recoveries := by
  obtain ⟨loaded, hlo, h⟩ := bind_ok h
  have hme : ∀ anchor, ∀ member ∈ loaded,
      t'.validateBatchMember codec b D anchor member =
        t.validateBatchMember codec b D anchor member := by
    intro anchor member hmem
    obtain ⟨⟨q, hs⟩, hin⟩ := (mem_loadVoteBatchRecoveries hlo).mp hmem
    have hke : ⟨b, member.proposalId⟩ ∉ cleared := by
      rw [hp b q member hs]
      exact hl q member hs hin
    unfold validateBatchMember
    rw [loadValidatedVote_congr (ht.vote?_of_kept hke) ht.roundId]
  rw [validatedVoteBatch, loadVoteBatchRecoveries_kept ht hp hl hlo]
  cases loaded with
  | nil => exact h
  | cons first rest =>
    have hfo : (first :: rest).forM (t'.validateBatchMember codec b D first.anchorHeight) =
        (first :: rest).forM (t.validateBatchMember codec b D first.anchorHeight) :=
      forM_congr fun member hmem => hme _ member hmem
    have hvan : t'.validateCombinedVan wire b first.anchorHeight first.delegationVan =
        t.validateCombinedVan wire b first.anchorHeight first.delegationVan := by
      unfold validateCombinedVan
      rw [hwi.delegationVan ht]
    simp only [bind, Except.bind] at h ⊢
    rw [hfo, hvan]
    exact h

theorem holdsRound_of_trims (ht : Trims t t' cleared) (roundId walletId : String) :
    t'.holdsRound roundId walletId = t.holdsRound roundId walletId := by
  rw [holdsRound, holdsRound, ht.roundId, ht.walletId]

theorem claimMember_congr (hro : db'.domain.roundId = db.domain.roundId) (phase : VotePhase) :
    claimMember db' b phase = claimMember db b phase := by
  unfold claimMember place
  rw [hro]

/-- The claims of the authoritative batches are those of before, if no batch with a
submission loses a member. -/
theorem claims_kept (hw : FramedWire wire) (hsa : db'.submissions = db.submissions)
    (ht : Trims db.domain db'.domain cleared) (hpr : ProperRecoveries codec db.domain)
    (hle : ∀ submission ∈ db.submissions, ∀ b D, onBundle db b submission = true →
      submission.identity.target.batchDigest = some D → LeavesBatch codec db.domain cleared b D)
    (h : loadAuthoritativeBatchPhases codec H wire db = .ok claims) :
    loadAuthoritativeBatchPhases codec H wire db' = .ok claims := by
  have hfi : (db'.submissions.filter fun row =>
      db'.domain.holdsRound row.identity.roundId row.identity.walletId &&
        row.identity.target.batchDigest.isSome) = db.submissions.filter fun row =>
      db.domain.holdsRound row.identity.roundId row.identity.walletId &&
        row.identity.target.batchDigest.isSome := by
    rw [hsa]
    exact filter_congr fun row _ => by rw [holdsRound_of_trims ht]
  rw [loadAuthoritativeBatchPhases, hfi]
  refine foldlM_ok_of_steps h fun row hrow st st' hs => ?_
  obtain ⟨hmem, hr⟩ := mem_filter.mp hrow
  rw [Bool.and_eq_true] at hr
  unfold claimBatch at hs ⊢
  cases hd : row.identity.target.batchDigest with
  | none =>
    rw [hd] at hr
    cases hr.2
  | some D =>
    simp only [hd] at hs ⊢
    obtain ⟨_, hre, hs⟩ := bind_ok hs
    have hke := hle row hmem row.identity.bundleIndex D (by simp [onBundle, hr.1]) hd
    rw [validatedVoteBatch_kept hw ht hpr hke hre, ht.network, ht.roundId, hw.generationDigest ht]
    rw [claimMember_congr ht.roundId]
    exact hs

/-! ### The guard on submissions -/

/-- Every submission that names a vote without a witness owns its recovery. -/
structure Guarded (codec : RecoveryCodec J) (db : VotingDb J) : Prop where
  signed : ∀ b p row submission, db.domain.vote? b p = some row → row.witnessed = false →
    submission ∈ db.submissions → onBundle db b submission = true →
    submission.identity.target = .vote p → ∃ recovery, Signed codec db.domain b p recovery
  open_or_rejected : ∀ b p recovery submission, Signed codec db.domain b p recovery →
    db.domain.recorded b p = false → submission ∈ db.submissions → onBundle db b submission = true →
    NamesVote submission p (batchDigestOf recovery) → submission.state.isUnresolved = true ∨
      submission.durableState = .rejected ∧ submission.identity.target.batchDigest.isSome = true

theorem Guarded.unnamed (h : Guarded codec db) (hsi : Signed codec db.domain b p recovery)
    (hrec : db.domain.recorded b p = false) (hfr : ¬ExecutorOwned db b (p, recovery)) :
    ¬Named db b p (batchDigestOf recovery) := by
  rintro ⟨submission, hmem, hon, hn⟩
  exact hfr (executorOwned_iff.mpr ⟨submission, hmem, hon, hn,
    h.open_or_rejected b p recovery submission hsi hrec hmem hon hn⟩)

/-! ### Cleared votes -/

/-- The vote after an edit: prepared again, if it is among the cleared ones. -/
def clearedVote (cleared : List VoteKey) (key : VoteKey) (vote : VoteSnapshot) : VoteSnapshot :=
  if key ∈ cleared then { vote with phase := .prepared, recovery := none } else vote

theorem onBundle_congr (htr : Trims db.domain db'.domain cleared)
    (submission : StoredChainSubmission) :
    onBundle db' b submission = onBundle db b submission := by
  rw [onBundle, onBundle, holdsRound_of_trims htr]

theorem Loaded.parses (h : Loaded codec db claims key row vote) :
    ∃ recovery, row.commitmentBundleJson.mapM codec.parseRecovery = .ok recovery := by
  cases hj : row.commitmentBundleJson with
  | none => exact ⟨none, rfl⟩
  | some =>
    have hs := h.signed
    rw [hj] at hs
    obtain ⟨recovery, hre⟩ := Option.isSome_iff_exists.mp hs
    obtain ⟨_, hj', hpa⟩ := (h.recovery recovery).mp hre
    rw [recoveryJson, vote?, h.stored, Option.bind_some, hj] at hj'
    cases hj'
    exact ⟨some recovery, by rw [Option.mapM_some, hpa]; rfl⟩

section

variable (h : Edited codec db db' p decision t' cleared) (hguard : Guarded codec db)
  (hloa : Voting.loadVotes codec H wire db = .ok s.votes) (hclass : Classifiable H s)
include h hguard hloa hclass

theorem Edited.committed (hkey : key ∈ cleared) (hv : s.votes.get? key = some vote) :
    vote.phase = .committed := by
  obtain ⟨_, hcl, hro, -⟩ := loadVotes_loaded hloa
  have hpr := properRecoveries_of_snapshot hloa
  obtain ⟨recovery, hs, -, hrec, hfr, hin⟩ := h.invalidated.origin key hkey
  have hun := hguard.unnamed hs hrec hfr
  obtain ⟨_, hjs, -⟩ := id hs
  obtain ⟨row, hrow, hte⟩ := Option.bind_eq_some_iff.mp hjs
  obtain ⟨decided, hd, hl⟩ := hro ⟨key.bundleIndex, p⟩ row hrow
  have hr := (hl.recovery recovery).mpr hs
  have hph : decided.phase = .committed := by
    refine (hl.committed_iff hcl hpr).mpr ⟨by rw [hr]; exact hun, ?_, ?_⟩
    · rw [recorded, hrow, Option.any_some, VoteRow.witnessed, Bool.or_eq_false_iff] at hrec
      exact hrec.1
    · rw [hte]
      rfl
  cases hD : batchDigestOf recovery with
  | none =>
    simp only [InUnit, hD] at hin
    have hsa : key = ⟨key.bundleIndex, p⟩ := by rw [← hin]
    rw [hsa, hd] at hv
    rw [← Option.some.inj hv]
    exact hph
  | some =>
    -- the batch was read with its members in one phase
    simp only [InUnit, hD] at hin
    obtain ⟨member, hm, hdi⟩ := hin
    obtain ⟨batch, hba, hof⟩ := Option.map_eq_some_iff.mp hD
    obtain ⟨recoveries, _, hass, hsc, -⟩ := hclass.batches key.bundleIndex p decided batch
      hd ((groupedBatch_committed hph hr).trans hba)
    obtain ⟨_, hjs', -⟩ := id hm
    obtain ⟨row', hrow', -⟩ := Option.bind_eq_some_iff.mp hjs'
    obtain ⟨found, hfo, hlo'⟩ := hro key row' hrow'
    have hp := hpr _ _ member hm
    have hmem : member ∈ recoveries := by
      rw [assemble_ok hass, mem_batchMembers, inBatch_iff, mem_bundleRecoveries, hp, hof]
      exact ⟨⟨found, hfo, (hlo'.recovery member).mpr hm⟩, hdi⟩
    obtain ⟨_, ho, hsa, -⟩ := (scanMembers_ok hsc).2 member hmem
    rw [hp] at ho
    rw [← Option.some.inj (ho.symm.trans hv), hsa, hph]

theorem Edited.unnamed (hkey : ⟨b, q⟩ ∈ cleared) (hv : s.vote? b q = some vote) :
    ¬Named db b q (vote.recovery.bind batchDigestOf) := by
  obtain ⟨_, hcl, -, hvo⟩ := loadVotes_loaded hloa
  obtain ⟨_, hlo⟩ := hvo _ vote hv
  exact ((hlo.committed_iff hcl (properRecoveries_of_snapshot hloa)).mp
    (h.committed hguard hloa hclass hkey hv)).1

theorem Edited.sameClaims (hwi : FramedWire wire)
    (hcl : loadAuthoritativeBatchPhases codec H wire db = .ok claims) :
    loadAuthoritativeBatchPhases codec H wire db' = .ok claims := by
  obtain ⟨_, -, hro, -⟩ := loadVotes_loaded hloa
  refine claims_kept hwi h.submissions h.trims (properRecoveries_of_snapshot hloa) ?_ hcl
  intro submission hmem b D hon hdi q member hs hin hkey
  obtain ⟨_, hjs, -⟩ := id hs
  obtain ⟨row, hrow, -⟩ := Option.bind_eq_some_iff.mp hjs
  obtain ⟨_, hvo, hlo⟩ := hro ⟨b, q⟩ row hrow
  refine h.unnamed hguard hloa hclass hkey hvo ⟨submission, hmem, hon, .inr ?_⟩
  rw [(hlo.recovery member).mpr hs, hdi]
  exact ⟨rfl, hin.symm⟩

theorem Edited.phase (hcl : loadAuthoritativeBatchPhases codec H wire db = .ok claims)
    (hvo : s.votes.get? key = some vote) (hl : Loaded codec db claims key row vote) :
    voteSubmissionPhase db' claims key (clearedRow cleared key row) =
      .ok (clearedVote cleared key vote).phase := by
  have hsi : singletonSubmission? db' key.bundleIndex key.proposalId =
      singletonSubmission? db key.bundleIndex key.proposalId := by
    simp only [singletonSubmission?, h.submissions, onBundle_congr h.trims]
  have hp := hl.phase
  unfold voteSubmissionPhase at hp ⊢
  rw [hsi]
  by_cases hkey : key ∈ cleared
  · have hc := h.committed hguard hloa hclass hkey hvo
    have hco := (hl.committed_iff hcl (properRecoveries_of_snapshot hloa)).mp hc
    rw [hc] at hp
    simp only [clearedVote, clearedRow, if_pos hkey]
    split at hp
    · cases hp
    · exact absurd (Except.ok.inj hp) (authoritative_ne_committed _)
    next phase _ hcla =>
      obtain ⟨claim, hfi, rfl⟩ := Option.map_eq_some_iff.mp hcla
      obtain ⟨_, hst⟩ := (loadAuthoritativeBatchPhases_ok hcl).1 claim (mem_of_find?_eq_some hfi)
      rw [hst] at hp
      exact absurd (Except.ok.inj hp) (authoritative_ne_committed _)
    next hno hcla =>
      simp only [hco.2.1]
      rfl
  · simp only [clearedVote, clearedRow, if_neg hkey]
    rw [← hp, place, place, h.trims.roundId]

/-- A vote of the chain lifecycle agrees with the decision that is made. -/
theorem Edited.keeps_choice (hv : s.vote? b p = some vote)
    (ho : votePhaseIsLifecycleOwned vote.phase = true) {made : Decision}
    (hm : decision = some made) : chosen made = some vote.choice := by
  obtain ⟨_, hcl, -, hvo⟩ := loadVotes_loaded hloa
  have hpr := properRecoveries_of_snapshot hloa
  obtain ⟨row, hl⟩ := hvo _ vote hv
  rw [hl.choice]
  cases hw : row.witnessed with
  | true => exact h.witnessed made b row hm hl.stored hw
  | false =>
    have hke : ⟨b, p⟩ ∉ cleared := by
      intro hkey
      rw [h.committed hguard hloa hclass hkey hv] at ho
      cases ho
    have hs : ∃ recovery, Signed codec db.domain b p recovery := by
      rcases hl.phase_cases hcl hpr with ⟨submission, hmem, hon, hna, -⟩ | ⟨-, hph⟩
      · rcases hna with hta | ⟨hso, hdi⟩
        · exact hguard.signed b p row submission hl.stored hw hmem hon hta
        rw [hdi] at hso
        obtain ⟨_, hD⟩ := Option.isSome_iff_exists.mp hso
        obtain ⟨recovery, hre, -⟩ := Option.bind_eq_some_iff.mp hD
        exact ⟨recovery, (hl.recovery recovery).mp hre⟩
      · rw [VoteRow.witnessed, Bool.or_eq_false_iff] at hw
        rw [hph, votePhaseFromColumns, hw.1] at ho
        cases hjs : row.commitmentBundleJson.isSome <;>
          simp [hjs, votePhaseIsLifecycleOwned, LifecyclePosition.ofPhase,
            LifecyclePosition.isLifecycleOwned] at ho
    obtain ⟨recovery, hs⟩ := hs
    have hd := h.decided hs hke
    rw [hm, Option.bind_some] at hd
    rw [hd, h.invalidated.decided b recovery row hs hl.stored]

theorem Edited.loadVotes (hwi : FramedWire wire) :
    ∃ votes', loadVotes codec H wire db' = .ok votes' ∧
      ∀ key, votes'.get? key = (s.votes.get? key).map (clearedVote cleared key) := by
  obtain ⟨claims, hc, hro, hvo⟩ := loadVotes_loaded hloa
  have hc' := h.sameClaims hguard hloa hclass hwi hc
  have hold : ∀ key row', db'.domain.votes.get? key = some row' → ∃ row vote,
      row' = clearedRow cleared key row ∧ s.votes.get? key = some vote ∧
        Loaded codec db claims key row vote := by
    intro key row' hrow'
    rw [h.trims.votes] at hrow'
    obtain ⟨row, hrow, rfl⟩ := Option.map_eq_some_iff.mp hrow'
    obtain ⟨vote, hv, hl⟩ := hro key row hrow
    exact ⟨row, vote, rfl, hv, hl⟩
  obtain ⟨phases, hph⟩ : ∃ phases, db'.domain.votes.traverse (voteSubmissionPhase db' claims) =
      .ok phases := by
    refine KeyedMap.traverse_exists_ok fun key row' hrow' => ?_
    obtain ⟨row, vote, rfl, hv, hl⟩ := hold key row' hrow'
    exact ⟨_, h.phase hguard hloa hclass hc hv hl⟩
  have hst : loadVoteSubmissionStatuses codec H wire db' = .ok phases := by
    rw [loadVoteSubmissionStatuses, hc']
    exact hph
  obtain ⟨votes', hvo'⟩ :
      ∃ votes', db'.domain.votes.traverse (loadVote codec db' phases) = .ok votes' := by
    refine KeyedMap.traverse_exists_ok fun key row' hrow' => ?_
    obtain ⟨phase, -, hget⟩ := KeyedMap.traverse_ok hph hrow'
    obtain ⟨row, vote, rfl, hv, hl⟩ := hold key row' hrow'
    obtain ⟨recovery, hpa⟩ := hl.parses
    unfold loadVote
    rw [hget]
    by_cases hkey : key ∈ cleared
    · exact ⟨_, by simp only [clearedRow, if_pos hkey]; rfl⟩
    · exact ⟨_, by simp only [clearedRow, if_neg hkey, hpa]; rfl⟩
  have hlo : Voting.loadVotes codec H wire db' = .ok votes' := by
    rw [Voting.loadVotes, hst]
    exact hvo'
  refine ⟨votes', hlo, fun key => ?_⟩
  obtain ⟨_, hc₂, hro', hvo₂⟩ := loadVotes_loaded hlo
  rw [hc'] at hc₂
  cases hc₂
  cases hv : s.votes.get? key with
  | none =>
    cases hv' : votes'.get? key with
    | none => rfl
    | some vote' =>
      obtain ⟨row', hl'⟩ := hvo₂ key vote' hv'
      obtain ⟨row, vote, -, hs, -⟩ := hold key row' hl'.stored
      rw [hv] at hs
      cases hs
  | some vote =>
    obtain ⟨row, hl⟩ := hvo key vote hv
    obtain ⟨vote', hv', hl'⟩ := hro' key (clearedRow cleared key row) (by
      rw [h.trims.votes, hl.stored]
      rfl)
    rw [hv', Option.map_some]
    congr 1
    have hp := hl'.phase
    rw [h.phase hguard hloa hclass hc hv hl] at hp
    have hr : ∀ recovery, vote'.recovery = some recovery ↔
        key ∉ cleared ∧ vote.recovery = some recovery := by
      intro recovery
      rw [hl'.recovery, hl.recovery, h.trims.signed_iff]
    obtain ⟨_, _, _, _, stored⟩ := vote'
    have h1 := hl'.choice
    have h2 := hl'.txHash
    have h3 := hl'.position
    by_cases hkey : key ∈ cleared
    · have hno : stored = none := Option.eq_none_iff_forall_ne_some.mpr
        fun recovery hs => ((hr recovery).mp hs).1 hkey
      simp only [clearedRow, clearedVote, if_pos hkey] at h1 h2 h3 hp ⊢
      rw [← Except.ok.inj hp, hno, h1, h2, h3, hl.choice, hl.txHash, hl.position]
    · have hsa : stored = vote.recovery := Option.ext fun recovery => by
        simpa [hkey] using hr recovery
      simp only [clearedRow, clearedVote, if_neg hkey] at h1 h2 h3 hp ⊢
      rw [← Except.ok.inj hp, hsa, h1, h2, h3, ← hl.choice, ← hl.txHash, ← hl.position]

end

/-! ### The snapshot of the edited round -/

/-- `share_phases` of one row. -/
def sharePhaseRow (share : ShareDelegationRecord) : SharePhaseRow :=
  ⟨share.bundleIndex, share.proposalId, share.shareIndex,
    if share.confirmed then .confirmed else .submitted⟩

/-- The snapshot is one of this round: what it shows of votes, shares and decisions is
read from the tables, and every bundle with a delegation status is there. -/
structure RoundReads (codec : RecoveryCodec J) (H : BatchSighash) (wire : GenerationWire J)
    (db : VotingDb J) (s : RoundSnapshot) : Prop where
  roundId : s.roundId = db.domain.roundId
  votes : loadVotes codec H wire db = .ok s.votes
  intents : s.intents = db.domain.intents
  shares : s.shares = db.domain.shares
  sharePhases : s.sharePhases = db.domain.shares.map sharePhaseRow
  bundles : ∀ b ∈ s.bundleIndexes, (s.bundles.get? b).isSome = true

/-- The snapshots agree on what edits of the ballot do not write. -/
structure SameElsewhere (s s' : RoundSnapshot) : Prop where
  delegations : s'.delegations = s.delegations
  bundles : s'.bundles = s.bundles
  lifecycleHashes : s'.lifecycleHashes = s.lifecycleHashes

/-- The snapshot after the edit, in which only cleared votes are changed. -/
theorem Edited.snapshot (h : Edited codec db db' p decision t' cleared) (hwi : FramedWire wire)
    (hguard : Guarded codec db) (hre : RoundReads codec H wire db s) (hclass : Classifiable H s) :
    ∃ s', RoundReads codec H wire db' s' ∧ SameElsewhere s s' ∧
      ∀ key, s'.votes.get? key = (s.votes.get? key).map (clearedVote cleared key) := by
  obtain ⟨votes', hlo', hvo'⟩ := h.loadVotes hguard hre.votes hclass hwi
  have hs : (db'.domain.shares.map sharePhaseRow).Sublist s.sharePhases := by
    rw [h.shares, h.invalidated.clears.shares, hre.sharePhases]
    exact (filter_sublist.trans filter_sublist).map _
  refine ⟨{ s with
    votes := votes'
    shares := db'.domain.shares
    sharePhases := db'.domain.shares.map sharePhaseRow
    intents := db'.domain.intents
    vote_bundle := ?_
    recovery_proposal := ?_
    share_bundle := fun row hrow => s.share_bundle row (hs.subset hrow)
    share_key := (hs.map _).nodup s.share_key },
    ⟨hre.roundId.trans h.trims.roundId.symm, hlo', rfl, rfl, rfl, hre.bundles⟩,
    ⟨rfl, rfl, rfl⟩, hvo'⟩
  · intro key vote' hv'
    rw [hvo'] at hv'
    obtain ⟨vote, hv, -⟩ := Option.map_eq_some_iff.mp hv'
    exact s.vote_bundle key vote hv
  · intro key vote' recovery hv' hr
    rw [hvo'] at hv'
    obtain ⟨vote, hv, rfl⟩ := Option.map_eq_some_iff.mp hv'
    unfold clearedVote at hr
    split at hr
    · cases hr
    · exact s.recovery_proposal key vote recovery hv hr

/-! ### The edited round is classified -/

/-- A batch with a vote that is left is left whole. -/
theorem Edited.leavesBatch (h : Edited codec db db' p decision t' cleared)
    (hsi : Signed codec db.domain b q recovery) (hin : batchDigestOf recovery = some D)
    (hke : ⟨b, q⟩ ∉ cleared) : LeavesBatch codec db.domain cleared b D := by
  intro q' member hm hd hkey
  obtain ⟨first, hf, hch, -, -, hu⟩ := h.invalidated.origin _ hkey
  refine hke (h.invalidated.whole b first q hf hch ?_)
  cases hD : batchDigestOf first with
  | none =>
    simp only [InUnit, hD] at hu
    subst hu
    rw [← hm.unique hf, hD] at hd
    cases hd
  | some =>
    have hs := digest_of_inUnit (by rw [hD]; rfl) hu hm
    rw [hd, hD] at hs
    simp only [InUnit, hD, ← hs]
    exact ⟨recovery, hsi, hin⟩

theorem scanMember_congr {phase : VotePhase} {scan : BatchScan} (hro : s'.roundId = s.roundId)
    (hel : SameElsewhere s s') (hv : s'.vote? b recovery.proposalId = s.vote? b recovery.proposalId)
    (hba : ∀ member, s.vote? b recovery.proposalId = some member →
      conflictsWithBallot s'.intents member recovery =
        conflictsWithBallot s.intents member recovery) :
    scanMember s' b phase scan recovery = scanMember s b phase scan recovery := by
  have hha : s'.voteTxHash b recovery.proposalId = s.voteTxHash b recovery.proposalId := by
    rw [RoundSnapshot.voteTxHash, RoundSnapshot.voteTxHash, hv, RoundSnapshot.lifecycleHash,
      RoundSnapshot.lifecycleHash, hel.lifecycleHashes]
  unfold scanMember checkTxHash
  rw [hv, hro, hha]
  cases hme : s.vote? b recovery.proposalId with
  | none => rfl
  | some member => simp only [hba member hme]

theorem nodup_bundleRecoveries (s : RoundSnapshot) (b : Nat) : (s.bundleRecoveries b).Nodup := by
  refine KeyedMap.nodup_filterMap_entries fun entry hmem entry' hmem' recovery hf hfo' => ?_
  have hkey : ∀ entry ∈ s.votes.entries,
    (if entry.1.bundleIndex = b then entry.2.recovery else none) =
      some recovery → entry.1 = ⟨b, recovery.proposalId⟩ := by
    intro entry hmem hf
    split at hf
    next hb =>
      rw [s.recovery_proposal entry.1 entry.2 recovery (KeyedMap.get?_of_mem_entries hmem) hf, ← hb]
    · cases hf
  rw [hkey entry hmem hf, hkey entry' hmem' hfo']

theorem deliverObligation_congr (hro : s'.roundId = s.roundId) (hvo : s'.vote? b p = s.vote? b p)
    (hsh : s'.recordedShareIndexes b p = s.recordedShareIndexes b p) :
    deliverObligation s' b p = deliverObligation s b p := by
  unfold deliverObligation missingShareIndexes RoundSnapshot.confirmedTreePosition
  rw [hro, hvo, hsh]

section

variable (h : Edited codec db db' p decision t' cleared)
include h

/-- The helper shares of a vote that agrees with the decision are left. -/
theorem Edited.recordedShareIndexes (hr : RoundReads codec H wire db s)
    (hre' : RoundReads codec H wire db' s') (hvot : s.vote? b q = some vote) (hk : ⟨b, q⟩ ∉ cleared)
    (hag : ∀ made, decision = some made → q = p → chosen made = some vote.choice) :
    s'.recordedShareIndexes b q = s.recordedShareIndexes b q := by
  obtain ⟨_, -, -, hvo⟩ := loadVotes_loaded hr.votes
  obtain ⟨row, hl⟩ := hvo _ vote hvot
  unfold RoundSnapshot.recordedShareIndexes
  rw [hr.sharePhases, hre'.sharePhases, h.shares, h.invalidated.clears.shares, filter_map,
    filter_map, filter_filter, filter_filter]
  congr 2
  refine filter_congr fun share _ => ?_
  by_cases hs : share.bundleIndex = b ∧ share.proposalId = q
  · obtain ⟨rfl, rfl⟩ := hs
    have hsta : decision.all (keepsShare t' p · share) = true := by
      cases hma : decision with
      | none => rfl
      | some made =>
        by_cases hp : share.proposalId = p
        · have hc := hag made hma hp
          have hst : t'.vote? share.bundleIndex p = some row := by
            rw [← hp, h.invalidated.clears.trims.vote?_of_kept hk]
            exact hl.stored
          cases made with
          | skipped => cases hc
          | choice =>
            rw [hl.choice] at hc
            simp [keepsShare, hst, Option.some.inj hc]
        · simp [keepsShare, hp]
    simp [hsta, hk]
  · rcases not_and_or.mp hs with hb | hq
    · simp [sharePhaseRow, hb]
    · simp [sharePhaseRow, hq]

/-- The decision that is made does not contradict a signed vote that is left. -/
theorem Edited.not_conflicts (hre : RoundReads codec H wire db s)
    (hre' : RoundReads codec H wire db' s') {member : VoteSnapshot}
    (hsi : Signed codec db.domain b q recovery) (hp : recovery.proposalId = q)
    (hke : ⟨b, q⟩ ∉ cleared) (hb : conflictsWithBallot s.intents member recovery = false) :
    conflictsWithBallot s'.intents member recovery = false := by
  unfold conflictsWithBallot at hb ⊢
  rw [Bool.or_eq_false_iff] at hb ⊢
  refine ⟨hb.1, ?_⟩
  rw [hre'.intents, h.intents, hp]
  by_cases hq : q = p
  · subst hq
    have hde := h.decided hsi hke
    obtain ⟨made, hma, hc⟩ := Option.bind_eq_some_iff.mp hde
    rw [if_pos rfl, hma, Option.any_some]
    cases made with
    | skipped => cases hc
    | choice => simp [Option.some.inj hc]
  · rw [if_neg hq, ← hre.intents, ← hp]
    exact hb.2

theorem Edited.classifiable (hguard : Guarded codec db) (hre : RoundReads codec H wire db s)
    (hr' : RoundReads codec H wire db' s') (hel : SameElsewhere s s')
    (hvo' : ∀ key, s'.votes.get? key = (s.votes.get? key).map (clearedVote cleared key))
    (hclass : Classifiable H s) : Classifiable H s' := by
  have hro : s'.roundId = s.roundId := by rw [hr'.roundId, hre.roundId, h.trims.roundId]
  have hke : ∀ b q, ⟨b, q⟩ ∉ cleared → s'.vote? b q = s.vote? b q := by
    intro b q hk
    rw [RoundSnapshot.vote?, hvo', RoundSnapshot.vote?]
    cases s.votes.get? (⟨b, q⟩ : VoteKey) <;> simp [clearedVote, hk]
  have hli : ∀ b q vote', s'.vote? b q = some vote' → vote'.phase ≠ .prepared →
      ⟨b, q⟩ ∉ cleared ∧ s.vote? b q = some vote' := by
    intro b q vote' hv' hp
    have hk : ⟨b, q⟩ ∉ cleared := by
      intro hkey
      rw [RoundSnapshot.vote?, hvo'] at hv'
      obtain ⟨vote, -, rfl⟩ := Option.map_eq_some_iff.mp hv'
      exact hp (by rw [clearedVote, if_pos hkey])
    exact ⟨hk, (hke b q hk).symm.trans hv'⟩
  obtain ⟨_, -, -, hvo⟩ := loadVotes_loaded hre.votes
  have hsi : ∀ b q vote, s.vote? b q = some vote → ∀ recovery, vote.recovery = some recovery →
      Signed codec db.domain b q recovery := by
    intro b q vote hv recovery hr
    obtain ⟨_, hlo⟩ := hvo _ vote hv
    exact (hlo.recovery recovery).mp hr
  have hc : ∀ b q vote, s.vote? b q = some vote → votePhaseIsLifecycleOwned vote.phase = true →
      ∀ made, decision = some made → q = p → chosen made = some vote.choice := by
    intro b q vote hv ho made hmad hq
    subst hq
    exact h.keeps_choice hguard hre.votes hclass hv ho hmad
  refine ⟨?_, ?_, ?_, ?_⟩
  · intro b q vote batch hv' hba
    have hp : vote.phase ≠ .prepared := by
      intro hp
      simp [VoteSnapshot.groupedBatch, hp] at hba
    obtain ⟨hk, hv⟩ := hli b q vote hv' hp
    obtain ⟨recoveries, scan, ha, hsc, hdi⟩ := hclass.batches b q vote batch hv hba
    obtain ⟨recovery, hr, hna⟩ := groupedBatch_recovery hba
    have hle := h.leavesBatch (hsi b q vote hv recovery hr)
      (by rw [batchDigestOf, hna]; rfl) hk
    have hme : ∀ member ∈ s.bundleRecoveries b, member.inBatch batch.digest = true →
        Signed codec db.domain b member.proposalId member ∧ ⟨b, member.proposalId⟩ ∉ cleared := by
      intro member hmem hin
      obtain ⟨found, hf, hs⟩ := mem_bundleRecoveries.mp hmem
      have hm := hsi b _ found hf member hs
      exact ⟨hm, hle _ member hm (inBatch_iff.mp hin)⟩
    refine ⟨recoveries, scan, ?_, ?_, hdi⟩
    · rw [hro]
      refine assemble_of_mem ha (nodup_bundleRecoveries s' b) fun member hin => ?_
      rw [mem_bundleRecoveries, mem_bundleRecoveries]
      constructor
      · rintro ⟨found, hf, hs⟩
        rw [RoundSnapshot.vote?, hvo'] at hf
        obtain ⟨before, hb, rfl⟩ := Option.map_eq_some_iff.mp hf
        unfold clearedVote at hs
        split at hs
        · cases hs
        · exact ⟨before, hb, hs⟩
      · rintro ⟨found, hf, hs⟩
        have hl := (hme member (mem_bundleRecoveries.mpr ⟨found, hf, hs⟩) hin).2
        exact ⟨found, (hke b _ hl).trans hf, hs⟩
    · refine foldlM_ok_of_steps hsc fun member hmem st st' hst => ?_
      obtain ⟨found, hf, -, hbal⟩ := (scanMembers_ok hsc).2 member hmem
      rw [assemble_ok ha, mem_batchMembers] at hmem
      obtain ⟨hm, hl⟩ := hme member hmem.1 hmem.2
      rw [scanMember_congr hro hel (hke b _ hl)]
      · exact hst
      intro other hot
      obtain rfl : found = other := Option.some.inj (hf.symm.trans hot)
      rw [hbal]
      exact h.not_conflicts hre hr' hm rfl hl hbal
  · intro b q vote hv' ho
    obtain ⟨-, hv⟩ := hli b q vote hv' (fun hp => by rw [hp] at ho; cases ho)
    have hb := hclass.agrees b q vote hv ho
    unfold ballotRelation at hb ⊢
    rw [hr'.intents, h.intents]
    by_cases hq : q = p
    · rw [if_pos hq]
      cases hmad : decision with
      | none => simp
      | some made =>
        have hma := hc b q vote hv ho made hmad hq
        cases made with
        | skipped => cases hma
        | choice => simp [Option.some.inj hma]
    · rw [if_neg hq, ← hre.intents]
      exact hb
  · intro b q vote hv' hp
    obtain ⟨-, hv⟩ := hli b q vote hv' (by rw [hp]; simp)
    exact hclass.signed b q vote hv hp
  · intro b q vote hv' hp
    obtain ⟨hk, hv⟩ := hli b q vote hv' (by rw [hp]; simp)
    obtain ⟨owed, howe⟩ := hclass.shares b q vote hv hp
    refine ⟨owed, ?_⟩
    rw [deliverObligation_congr hro (hke b q hk)]
    · exact howe
    · exact h.recordedShareIndexes hre hr' hv hk (hc b q vote hv (by rw [hp]; rfl))

/-! ### Runs of edits -/

theorem Edited.guarded (hguard : Guarded codec db)
    (hloa : Voting.loadVotes codec H wire db = .ok s.votes) (hclass : Classifiable H s) :
    Guarded codec db' := by
  refine ⟨?_, ?_⟩
  · intro b q row' submission hrow' hw hmem hon ht
    rw [h.submissions] at hmem
    rw [onBundle_congr h.trims] at hon
    rw [vote?, h.trims.votes] at hrow'
    obtain ⟨row, hrow, rfl⟩ := Option.map_eq_some_iff.mp hrow'
    rw [clearedRow_witnessed] at hw
    obtain ⟨recovery, hs⟩ := hguard.signed b q row submission hrow hw hmem hon ht
    refine ⟨recovery, h.trims.signed_iff.mpr ⟨fun hkey => ?_, hs⟩⟩
    obtain ⟨_, -, hro, -⟩ := loadVotes_loaded hloa
    obtain ⟨_, hvo, -⟩ := hro _ row hrow
    exact h.unnamed hguard hloa hclass hkey hvo ⟨submission, hmem, hon, .inl ht⟩
  · intro b q recovery submission hs hrec hmem hon hna
    rw [h.submissions] at hmem
    rw [onBundle_congr h.trims] at hon
    rw [h.trims.recorded] at hrec
    exact hguard.open_or_rejected b q recovery submission
      (h.trims.signed_iff.mp hs).2 hrec hmem hon hna

end

/-- A round that is read by a snapshot the planner classifies, under the guard. -/
structure PlannableAt (codec : RecoveryCodec J) (H : BatchSighash) (wire : GenerationWire J)
    (start : RoundSnapshot) (db : VotingDb J) (s : RoundSnapshot) : Prop where
  reads : RoundReads codec H wire db s
  elsewhere : SameElsewhere start s
  classifiable : Classifiable H s
  guarded : Guarded codec db

theorem PlannableAt.step (hwi : FramedWire wire)
    (h : PlannableAt codec H wire start db s) (hst : EditStep codec H wire db db') :
    ∃ s', PlannableAt codec H wire start db' s' := by
  obtain ⟨_, _, _, _, hed⟩ := hst.edited (properRecoveries_of_snapshot h.reads.votes)
  obtain ⟨s', hr', he, hvo'⟩ := hed.snapshot hwi h.guarded h.reads h.classifiable
  refine ⟨s', hr', ?_, ?_, ?_⟩
  · exact ⟨he.delegations.trans h.elsewhere.delegations, he.bundles.trans h.elsewhere.bundles,
      he.lifecycleHashes.trans h.elsewhere.lifecycleHashes⟩
  · exact hed.classifiable h.guarded h.reads hr' he hvo' h.classifiable
  · exact hed.guarded h.guarded h.reads.votes h.classifiable

open Relation in
theorem PlannableAt.run (hwi : FramedWire wire)
    (h : PlannableAt codec H wire start db s) (hrun : ReflTransGen (EditStep codec H wire) db db') :
    ∃ s', PlannableAt codec H wire start db' s' := by
  induction hrun with
  | refl => exact ⟨s, h⟩
  | tail _ hst ih =>
    obtain ⟨_, hmid⟩ := ih
    exact hmid.step hwi hst

/-- Which bundles the ledger of rejections blocks does not matter to the classifier. -/
theorem classifiable_of_blocked (h : Classifiable H s) (blocked : List Nat) :
    Classifiable H { s with rejectionBlockedBundles := blocked } :=
  ⟨h.batches, h.agrees, h.signed, h.shares⟩

/-- Under the guard, a plannable round is plannable for the same roster after every
sequence of accepted edits, whichever bundles the ledger of rejections then blocks. -/
theorem accepted_edits_stay_plannable {roster : List Nat} {plan : RoundObligations}
    {edits : List BallotEdit} (hwire : FramedWire wire) (hread : RoundReads codec H wire db s)
    (hplan : classifyRound H s roster = .ok plan) (hguard : Guarded codec db)
    (hedits : edits.foldlM (applyEdit codec H wire) db = .ok db') (blocked : List Nat) :
    ∃ s' plan', RoundReads codec H wire db' s' ∧ SameElsewhere s s' ∧
      s'.rejectionBlockedBundles = blocked ∧ classifyRound H s' roster = .ok plan' := by
  have hst : PlannableAt codec H wire s db s :=
    ⟨hread, ⟨rfl, rfl, rfl⟩, classifiable_of_plan hplan, hguard⟩
  obtain ⟨s', hr', he, hclass, -⟩ := hst.run hwire (edits_reach hedits)
  obtain ⟨_, hba, -⟩ := bind_ok hplan
  obtain ⟨ballot', hba'⟩ : ∃ ballot', classifyBallotIntents roster s'.intents = .ok ballot' :=
    classifyBallotIntents_exists_ok hba
  obtain ⟨plan', hpl'⟩ := classifyRound_exists_ok (classifiable_of_blocked hclass blocked) hba'
    hr'.bundles
  exact ⟨{ s' with rejectionBlockedBundles := blocked }, plan',
    ⟨hr'.roundId, hr'.votes, hr'.intents, hr'.shares, hr'.sharePhases, hr'.bundles⟩,
    ⟨he.delegations, he.bundles, he.lifecycleHashes⟩, rfl, hpl'⟩

/-! ### A vote whose decision is changed -/

theorem framedWire_plain : FramedWire plainWire := ⟨fun _ => rfl, fun _ => rfl⟩

/-- The round of one signed vote with its ballot: option 0 for proposal 1, option 1 for
proposal 2. -/
def decidedSnapshot (phase : VotePhase) : RoundSnapshot :=
  { signedSnapshot phase with intents := twoChoices }

/-- The unsent vote is cleared when the voter changes to option 1, and the round is planned. -/
theorem accepted_edits_stay_plannable_unsent : ∃ db' s' plan',
    [BallotEdit.set 1 (.choice 1) 2].foldlM (applyEdit plainCodec sampleSighash plainWire)
      (signedDb []) = .ok db' ∧ db'.domain.recoveryJson 0 1 = none ∧
    RoundReads plainCodec sampleSighash plainWire db' s' ∧
      classifyRound sampleSighash s' [1, 2] = .ok plan' := by
  have hre : RoundReads plainCodec sampleSighash plainWire (signedDb [])
      (decidedSnapshot .committed) :=
    ⟨rfl, rfl, rfl, rfl, rfl, by decide⟩
  obtain ⟨_, hpl, -⟩ := map_ok
    (show (classifyRound sampleSighash (decidedSnapshot .committed) [1, 2]).map
      RoundObligations.obligations = .ok [.reconcileChain (.singleton 0 1) 0 [1] true none none] by
        decide +kernel)
  have hguard : Guarded plainCodec (signedDb []) := by
    refine ⟨?_, ?_⟩
    · intro b p row submission _ _ hmem
      cases hmem
    · intro b p recovery submission _ _ hmem
      cases hmem
  have he : [BallotEdit.set 1 (.choice 1) 2].foldlM
      (applyEdit plainCodec sampleSighash plainWire) (signedDb []) = .ok _ := rfl
  obtain ⟨s', plan', hre', -, -, hpl'⟩ :=
    accepted_edits_stay_plannable framedWire_plain hre hpl hguard he []
  exact ⟨_, s', plan', he, rfl, hre', hpl'⟩

/-- The round of a rejected vote is planned. The voter changes the decision, the edit is
accepted, and no snapshot of the round is planned any more. -/
theorem accepted_edit_contradicts_rejected_vote :
    RoundReads plainCodec sampleSighash plainWire (signedDb [rejectedVote])
      (decidedSnapshot .submissionRejected) ∧
    (∃ plan, classifyRound sampleSighash (decidedSnapshot .submissionRejected) [1, 2] = .ok plan) ∧
    ∃ db', applyEdit plainCodec sampleSighash plainWire (signedDb [rejectedVote])
      (.set 1 (.choice 1) 2) = .ok db' ∧
      ∀ s', RoundReads plainCodec sampleSighash plainWire db' s' →
        ∀ plan, classifyRound sampleSighash s' [1, 2] ≠ .ok plan := by
  obtain ⟨plan, hp, -⟩ := map_ok
    (show (classifyRound sampleSighash (decidedSnapshot .submissionRejected) [1, 2]).map
      RoundObligations.obligations = .ok [.cast 0 [⟨2, 1⟩] none false] by decide +kernel)
  refine ⟨⟨rfl, rfl, rfl, rfl, rfl, by decide⟩, ⟨plan, hp⟩, _, rfl, fun s' hr plan hp => ?_⟩
  have hvo := hr.votes
  have hin := hr.intents
  have hvot : s'.vote? 0 1 = some ⟨0, .submissionRejected, none, none, none⟩ := by
    rw [RoundSnapshot.vote?, ← Except.ok.inj hvo]
    rfl
  refine (classifiable_of_plan hp).agrees 0 1 _ hvot rfl ?_
  rw [hin]
  rfl

end ZcashVoting.Voting
