import ZcashVoting.RoundPlanning.BatchUnits

/-!
# When a round can be planned

The classifier refuses a snapshot for few reasons: a batch that cannot be assembled or
disagrees with the ballot, a vote of the lifecycle that conflicts with it, a submitted
vote without recovery material, and a confirmed vote whose shares cannot be found.
`Classifiable` lists them. It holds of every snapshot that was classified, and a snapshot
of which it holds is classified for every roster that is well formed.
-/
namespace ZcashVoting.RoundPlanning

open ChainSubmission KeyedData List

variable {H : BatchSighash} {s : RoundSnapshot} {b p : Nat} {vote : VoteSnapshot}
  {units : List VoteUnit} {unit : VoteUnit} {digest : Bytes32}
  {recoveries : List VoteRecoveryBundle} {proposalIds : List Nat}
  {ballot : BallotIntentClassification}

/-- The batch assembles from the stored recoveries and agrees with the votes and the ballot. -/
def BatchReads (H : BatchSighash) (s : RoundSnapshot) (b : Nat) (phase : VotePhase)
    (digest : Bytes32) : Prop :=
  ∃ recoveries scan, assembleVoteBatchRecoveries H s.roundId b digest (s.bundleRecoveries b) =
    .ok recoveries ∧
    recoveries.foldlM (scanMember s b phase) ⟨[], none⟩ = .ok scan ∧
    (recoveries.map VoteRecoveryBundle.proposalId).Nodup

structure Classifiable (H : BatchSighash) (s : RoundSnapshot) : Prop where
  batches : ∀ b p vote batch, s.vote? b p = some vote → vote.groupedBatch = some batch →
    BatchReads H s b vote.phase batch.digest
  agrees : ∀ b p vote, s.vote? b p = some vote → votePhaseIsLifecycleOwned vote.phase = true →
    ballotRelation s.intents p vote.choice ≠ .conflicts
  signed : ∀ b p vote, s.vote? b p = some vote → vote.phase = .submitted →
    vote.recovery.isSome = true
  shares : ∀ b p vote, s.vote? b p = some vote → vote.phase = .confirmed →
    ∃ owed, deliverObligation s b p = .ok owed

/-! ### Batches read from other candidates -/

/-- The members of a batch stand in the order of their indexes, none of which repeats. -/
theorem inOrder_pairwise {size : Nat} (h : inOrder digest size recoveries = true) :
    recoveries.Pairwise fun x y => x.batchIndex < y.batchIndex := by
  rw [pairwise_iff_getElem]
  intro i j hi hj hlt
  obtain ⟨_, hba, -, hin, -⟩ := inOrder_getElem? h (List.getElem?_eq_getElem hi)
  obtain ⟨_, hba', -, hin', -⟩ := inOrder_getElem? h (List.getElem?_eq_getElem hj)
  simpa [VoteRecoveryBundle.batchIndex, hba, hba', hin, hin'] using hlt

/-- Candidates with the same members of the batch, in any order, assemble to it. -/
theorem assemble_of_mem {roundId : String} {candidates candidates' : List VoteRecoveryBundle}
    (h : assembleVoteBatchRecoveries H roundId b digest candidates = .ok recoveries)
    (hno : candidates'.Nodup)
    (hmem : ∀ recovery : VoteRecoveryBundle, recovery.inBatch digest = true →
      (recovery ∈ candidates' ↔ recovery ∈ candidates)) :
    assembleVoteBatchRecoveries H roundId b digest candidates' = .ok recoveries := by
  obtain ⟨-, _, hor⟩ := assemble_inOrder h
  have hp := inOrder_pairwise hor
  have hm := assemble_ok h
  let le (x y : VoteRecoveryBundle) : Prop := x.batchIndex ≤ y.batchIndex
  have hpe : (batchMembers digest candidates').Perm recoveries := by
    refine (perm_ext_iff_of_nodup ?_ ?_).mpr fun recovery => ?_
    · exact (perm_insertionSort _ _).nodup_iff.mpr (hno.filter _)
    · exact hp.imp fun hlt heq => by rw [heq] at hlt; exact lt_irrefl _ hlt
    · rw [hm, mem_batchMembers, mem_batchMembers]
      exact and_congr_left fun hin => hmem recovery hin
  have hso : (batchMembers digest candidates').Pairwise le := pairwise_insertionSort le _
  have hsa : batchMembers digest candidates' = recoveries := by
    refine hpe.eq_of_pairwise ?_ hso (hp.imp fun hlt => Nat.le_of_lt hlt)
    -- two members of one index are the same member
    intro x y hx hy hxy hyx
    obtain ⟨i, hi, rfl⟩ := mem_iff_getElem.mp (hpe.mem_iff.mp hx)
    obtain ⟨j, hj, rfl⟩ := mem_iff_getElem.mp hy
    rw [pairwise_iff_getElem] at hp
    rcases Nat.lt_trichotomy i j with hlt | rfl | hlt
    · exact absurd hyx (Nat.not_le.mpr (hp i j hi hj hlt))
    · rfl
    · exact absurd hxy (Nat.not_le.mpr (hp j i hj hi hlt))
  unfold assembleVoteBatchRecoveries at h ⊢
  rw [hsa]
  rw [← hm] at h
  exact h

/-! ### A classified snapshot -/

theorem batchReads_of_unit (h : groupVoteUnits H s = .ok units) (hmem : unit ∈ units)
    (hid : unit.id = .batch b digest) : BatchReads H s b unit.phase digest := by
  obtain ⟨rfl, hb, recoveries, scan, hr⟩ := groupVoteUnits_reads h hmem hid
  refine ⟨recoveries, scan, hr.assembled, hr.scanned, ?_⟩
  rw [← scanMembers_ids hr.scanned, ← hr.members]
  exact hb.distinct

/-- What holds of every classified snapshot. -/
theorem classifiable_of_plan {plan : RoundObligations}
    (h : classifyRound H s proposalIds = .ok plan) : Classifiable H s := by
  rcases classifyRound_ok h with ⟨hem, -⟩ | ⟨_, _, _, _, _, hba, huni, hu, hpl⟩
  · -- a round without bundles has no votes
    have hn : ∀ b p vote, s.vote? b p ≠ some vote := by
      intro b p vote row
      have hmem := KeyedMap.mem_entries_of_get? row
      rw [RoundSnapshot.votes_of_empty hem] at hmem
      cases hmem
    constructor <;> intros <;> exact absurd ‹_› (hn _ _ _)
  refine ⟨?_, ?_, ?_, ?_⟩
  · intro b p vote batch row hb
    obtain ⟨unit, hmem, hhas⟩ := hu.covers b p vote row
    obtain ⟨found, hf, hp⟩ := hu.vote_of_has hmem hhas
    obtain rfl : found = vote := Option.some.inj (hf.symm.trans row)
    rcases hu.unit_of_row row hmem hhas with ⟨hn, -⟩ | ⟨_, hna, hid⟩
    · rw [hb] at hn
      cases hn
    rw [hb] at hna
    cases hna
    rw [hp]
    exact batchReads_of_unit huni hmem hid
  · intro b p vote row hown hco
    have hcl := Classification.not_stale_of_owned hpl.clear row hown
    exact hcl (Classification.mem_staleVoteKeys.mpr ⟨vote, row, hco⟩)
  · intro b p vote row hp
    obtain ⟨unit, hmem, hhas⟩ := hu.covers b p vote row
    obtain ⟨found, hf, hs⟩ := hu.vote_of_has hmem hhas
    obtain rfl : found = vote := Option.some.inj (hf.symm.trans row)
    have hpo : LifecyclePosition.ofPhase unit.phase = .onWire := by
      rw [← hs, hp]
      rfl
    have hdo := (hpl.asked _).mpr ((hpl.asked_onWire hu hba hpo).mpr hmem)
    have hsi := hpl.signed unit hdo (hs.symm.trans hp)
    rcases hu.unit_of_row row hmem hhas with ⟨-, rfl⟩ | ⟨_, hb, -⟩
    · exact hsi ⟨p, found.recovery⟩ (by simp [singletonUnit])
    · obtain ⟨_, hre, -⟩ := groupedBatch_recovery hb
      rw [hre]
      rfl
  · intro b p vote row hp
    have hask := (hpl.asked_shares hu hba).mpr ⟨vote, row, confirmed_iff_position.mpr hp⟩
    exact hpl.owed ⟨b, p⟩ ((hpl.asked _).mpr hask)

/-! ### Grouping succeeds -/

/-- Members that no earlier batch claimed can be claimed. -/
theorem claimMembers_exists_ok {members : List VoteMember} {grouped : List VoteKey}
    (hd : (members.map VoteMember.proposalId).Nodup)
    (hfr : ∀ member ∈ members, ⟨b, member.proposalId⟩ ∉ grouped) :
    ∃ grouped', members.foldlM (claimMember s b) grouped = .ok grouped' := by
  refine foldlM_exists_ok (fun seen claimed => ∀ key, key ∈ claimed ↔
    key ∈ grouped ∨ ∃ m ∈ seen, key = ⟨b, m.proposalId⟩) (by simp) ?_
  intro seen member rest claimed hl hc
  have hnew : ⟨b, member.proposalId⟩ ∉ claimed := by
    rw [hc]
    rintro (hold | ⟨m, hm, hsa⟩)
    · exact hfr member (by simp [hl]) hold
    · rw [hl, map_append, nodup_append] at hd
      have hids : m.proposalId = member.proposalId := by simpa using hsa.symm
      exact hd.2.2 _ (mem_map_of_mem hm) _ (by simp) hids
  refine ⟨⟨b, member.proposalId⟩ :: claimed, ?_, ?_⟩
  · rw [claimMember, if_neg (by simpa using hnew)]
  · exact mem_claimed_cons hc

/-- The members of a batch whose anchor is not grouped are not grouped. -/
theorem members_fresh {seen : List (VoteKey × VoteSnapshot)} {st : Grouping} {key : VoteKey}
    {batch : VoteBatchRecovery} {scan : BatchScan}
    (hinv : GroupedSoFar H s seen st) (row : s.votes.get? key = some vote)
    (hba : vote.groupedBatch = some batch) (hnot : key ∉ st.grouped)
    (hass : assembleVoteBatchRecoveries H s.roundId key.bundleIndex batch.digest
      (s.bundleRecoveries key.bundleIndex) = .ok recoveries)
    (hsc : recoveries.foldlM (scanMember s key.bundleIndex vote.phase) ⟨[], none⟩ = .ok scan)
    {recovery : VoteRecoveryBundle} (hmem : recovery ∈ recoveries) :
    ⟨key.bundleIndex, recovery.proposalId⟩ ∉ st.grouped := by
  intro hgr
  obtain ⟨member, hm, hph, -⟩ := (scanMembers_ok hsc).2 recovery hmem
  rw [assemble_ok hass, mem_batchMembers] at hmem
  obtain ⟨other, hot, hst⟩ := mem_bundleRecoveries.mp hmem.1
  obtain rfl : other = member := Option.some.inj (hot.symm.trans hm)
  have hn := groupedBatch_of_recovery hba hph hst
  obtain ⟨unit, hu, hbu, hp⟩ := hinv.grouped _ hgr
  rcases hinv.unit unit hu with ⟨k, v, hget, hno, rfl⟩ | ⟨found, hb⟩
  · -- a unit of one vote is not grouped by a batch
    have hpk : recovery.proposalId = k.proposalId := by
      simpa [singletonUnit, VoteUnit.proposalIds] using hp
    have hk : k = ⟨key.bundleIndex, recovery.proposalId⟩ := by
      rw [hpk, ← hbu]
      rfl
    rw [hk] at hget
    obtain rfl : v = other := Option.some.inj (hget.symm.trans hm)
    rw [hn] at hno
    simp [VoteRecoveryBundle.inBatch, hno] at hmem
  · -- the unit is this batch, and its anchor would be claimed
    obtain ⟨v, _, hget, -, hs, hdi, -⟩ := hb.vote _ hp
    rw [hbu] at hget
    obtain rfl : v = other := Option.some.inj (hget.symm.trans hm)
    rw [hn] at hs
    have hsa : batch.digest = found := by
      simp only [VoteRecoveryBundle.inBatch, hs, Option.any_some, decide_eq_true_eq] at hmem
      rw [← hdi, hmem.2]
    have hin := hb.complete key.proposalId vote batch (by rw [hbu]; exact row) hba hsa
    have hc := (hinv.claimed unit hu found hb).1 _ hin
    rw [hbu] at hc
    exact hnot hc

theorem groupVoteUnits_exists_ok (h : Classifiable H s) :
    ∃ units, groupVoteUnits H s = .ok units := by
  have hlo : ∃ st, s.votes.entries.foldlM (groupVote H s) ⟨[], []⟩ = .ok st := by
    refine foldlM_exists_ok (GroupedSoFar H s) (by constructor <;> simp) ?_
    intro seen entry rest st hsp hinv
    have he : entry ∈ s.votes.entries := by simp [hsp]
    have hget : s.votes.get? entry.1 = some entry.2 := KeyedMap.get?_of_mem_entries he
    suffices hok : ∃ st', groupVote H s st entry = .ok st' by
      obtain ⟨st', hst'⟩ := hok
      exact ⟨st', hst', groupedSoFar_step he (unvisited hsp) hinv hst'⟩
    unfold groupVote
    by_cases hin : st.grouped.contains entry.1 = true
    · exact ⟨st, if_pos hin⟩
    rw [if_neg hin]
    cases hb : entry.2.groupedBatch with
    | none => exact ⟨_, rfl⟩
    | some batch =>
      obtain ⟨recoveries, scan, ha, hs, hdi⟩ :=
        h.batches entry.1.bundleIndex entry.1.proposalId entry.2 batch hget hb
      have hids := scanMembers_ids hs
      have hfr : ∀ member ∈ scan.members, ⟨entry.1.bundleIndex,
          member.proposalId⟩ ∉ st.grouped := by
        intro member hme
        have hid : member.proposalId ∈ scan.members.map VoteMember.proposalId := mem_map_of_mem hme
        rw [hids] at hid
        obtain ⟨_, hre, hsa⟩ := mem_map.mp hid
        rw [← hsa]
        exact members_fresh hinv hget hb (by simpa using hin) ha hs hre
      obtain ⟨grouped, hcl⟩ := claimMembers_exists_ok (s := s) (by rw [hids]; exact hdi) hfr
      have hso : recoveries.isEmpty = false := by
        simpa using (assemble_inOrder ha).1
      refine ⟨⟨st.units ++ [⟨.batch entry.1.bundleIndex batch.digest, entry.1.bundleIndex,
        scan.members, entry.2.phase⟩], grouped⟩, ?_⟩
      simp only [groupBatch, ha, bind, Except.bind, hso, Bool.false_eq_true, hs, hcl]
      rfl
  obtain ⟨st, hst⟩ := hlo
  exact ⟨st.units, by simp [groupVoteUnits, hst, bind, Except.bind, pure, Except.pure]⟩

/-! ### The passes succeed -/

theorem members_signed (h : Classifiable H s) (huni : groupVoteUnits H s = .ok units)
    (hmem : unit ∈ units) (hph : unit.phase = .submitted) {member : VoteMember}
    (hm : member ∈ unit.members) : member.recovery.isSome = true := by
  have hu := groupVoteUnits_ok huni
  have hhas : unit.Has unit.bundleIndex member.proposalId := ⟨rfl, mem_map_of_mem hm⟩
  obtain ⟨vote, row, hsa⟩ := hu.vote_of_has hmem hhas
  rcases hu.unit_of_row row hmem hhas with ⟨-, hsi⟩ | ⟨_, -, hid⟩
  · rw [hsi] at hm
    rw [mem_singleton.mp hm]
    exact h.signed _ _ vote row (hsa.trans hph)
  · obtain ⟨index, hin⟩ := mem_iff_getElem?.mp hm
    obtain ⟨_, _, hac⟩ := (groupVoteUnits_whole huni hmem hid).ordered index member hin
    rw [hac.stored]
    rfl

theorem reconcile_exists_ok (works : Works) (hsi : unit.phase = .submitted →
    ∀ member ∈ unit.members, member.recovery.isSome = true) :
      ∃ works', reconcile s works unit = .ok works' := by
  have hno : (unit.members.find? fun member =>
      unit.phase = .submitted && member.recovery.isNone) = none := by
    rw [List.find?_eq_none]
    intro member hme ht
    simp only [Bool.and_eq_true, decide_eq_true_eq] at ht
    have hs := hsi ht.1 member hme
    rw [Option.isSome_iff_ne_none] at hs
    exact hs (by simpa using ht.2)
  unfold reconcile
  rw [hno]
  by_cases hin : works.reconciledUnits.contains unit.id = true
  · exact ⟨works, if_pos hin⟩
  · exact ⟨_, if_neg hin⟩

theorem deliver_exists_ok (works : Works) {owed : List Obligation}
    (h : deliverObligation s b p = .ok owed) : ∃ works', deliver s works b p = .ok works' := by
  unfold deliver
  by_cases hin : works.deliveredVotes.contains (⟨b, p⟩ : VoteKey) = true
  · exact ⟨works, if_pos hin⟩
  · rw [if_neg hin, h]
    exact ⟨_, rfl⟩

namespace Classification

variable {c : Classification}

section

variable (h : Classifiable H c.snapshot) (huni : groupVoteUnits H c.snapshot = .ok c.units)
include h huni

theorem visitPair_exists_ok (st : Passes) (pair : Nat × Nat) :
    ∃ st', c.visitPair st pair = .ok st' := by
  have hu := groupVoteUnits_ok huni
  unfold visitPair
  split
  · rename_i choice hget
    obtain ⟨outcome, hout⟩ := (expected_of_units hu).pair pair.1 pair.2 choice
    rw [hout]
    cases outcome with
    | held | blocked | cast | waits | ended => exact ⟨_, rfl⟩
    | deliver =>
      cases pairOutcome_ok hout with
      | deliver _ row position =>
        obtain ⟨_, howe⟩ := h.shares _ _ _ row (confirmed_iff_position.mp position)
        obtain ⟨works, hw⟩ := deliver_exists_ok st.works howe
        exact ⟨{ st with works }, by simp [applyOutcome, hw, bind, Except.bind, pure, Except.pure]⟩
    | reconcile =>
      cases pairOutcome_ok hout with
      | reconcile _ _ found =>
        obtain ⟨works, hw⟩ := reconcile_exists_ok (s := c.snapshot) st.works
          fun hph member => members_signed h huni (unitOf_ok found).1 hph
        exact ⟨{ st with works }, by simp [applyOutcome, hw, bind, Except.bind, pure, Except.pure]⟩
  · exact ⟨st, rfl⟩

theorem visitVote_exists_ok (works : Works) (entry : VoteKey × VoteSnapshot)
    (hen : entry ∈ c.snapshot.votes.entries) :
    ∃ works', c.visitVote works entry = .ok works' := by
  have hu := groupVoteUnits_ok huni
  have row : c.snapshot.vote? entry.1.bundleIndex entry.1.proposalId = some entry.2 :=
    KeyedMap.get?_of_mem_entries hen
  unfold visitVote
  by_cases hs : (c.snapshot.intents.contains entry.1.proposalId &&
      c.ballot.roster.contains entry.1.proposalId) = true
  · exact ⟨works, if_pos hs⟩
  rw [if_neg hs]
  cases hpos : LifecyclePosition.ofPhase entry.2.phase with
  | uncast | undispatched | terminal => exact ⟨works, rfl⟩
  | confirmed =>
    obtain ⟨_, howe⟩ := h.shares _ _ _ row (confirmed_iff_position.mp hpos)
    exact deliver_exists_ok works howe
  | onWire =>
    obtain ⟨_, hun⟩ := (expected_of_units hu).unit _ _ _ row
    rw [hun]
    exact reconcile_exists_ok works fun hph member =>
      members_signed h huni (unitOf_ok hun).1 hph

end

theorem delegationStep_exists_ok {needing : List Nat} {b : Nat}
    (hb : (c.snapshot.bundles.get? b).isSome = true) :
    ∃ os, c.delegationStep needing b = .ok os := by
  obtain ⟨_, hb⟩ := Option.isSome_iff_exists.mp hb
  unfold delegationStep
  split
  · exact ⟨_, rfl⟩
  split
  · exact ⟨_, by rw [delegationStep.advance, hb]⟩
  · exact ⟨_, by rw [delegationStep.advance, hb]⟩
  · exact ⟨_, rfl⟩
  · exact ⟨_, rfl⟩
  · exact ⟨_, rfl⟩

theorem conflictingKey_eq_none (h : Classifiable H c.snapshot) : c.conflictingKey = none := by
  rw [conflictingKey, List.find?_eq_none]
  intro key hst ho
  obtain ⟨vote, row, hco⟩ := mem_staleVoteKeys.mp hst
  rw [row, Option.any_some] at ho
  exact h.agrees key.bundleIndex key.proposalId vote row ho hco

theorem classify_exists_ok (h : Classifiable H c.snapshot)
    (huni : groupVoteUnits H c.snapshot = .ok c.units)
    (hbu : ∀ b ∈ c.snapshot.bundleIndexes, (c.snapshot.bundles.get? b).isSome = true) :
    ∃ plan, c.classify = .ok plan := by
  obtain ⟨st, hst⟩ :
      ∃ st, c.pairs.foldlM c.visitPair ⟨⟨c.retirements, [], []⟩, [], [], [], []⟩ = .ok st :=
    foldlM_exists_ok (fun _ _ => True) trivial fun _ pair _ st _ _ => by
      obtain ⟨st', hst'⟩ := visitPair_exists_ok h huni st pair
      exact ⟨st', hst', trivial⟩
  obtain ⟨works, hwo⟩ : ∃ works, c.snapshot.votes.entries.foldlM c.visitVote st.works = .ok works :=
    foldlM_exists_ok (fun _ _ => True) trivial fun _ entry _ works hli _ => by
      obtain ⟨works', hwo'⟩ := visitVote_exists_ok h huni works entry (by simp [hli])
      exact ⟨works', hwo', trivial⟩
  obtain ⟨steps, hste⟩ :
      ∃ steps, c.snapshot.bundleIndexes.mapM (c.delegationStep st.bundlesNeedingDelegation) =
        .ok steps :=
    mapM_exists_ok fun b hb => delegationStep_exists_ok (hbu b hb)
  have hde : c.delegationObligations st.bundlesNeedingDelegation = .ok steps.flatten := by
    rw [delegationObligations, hste]
    rfl
  rw [classify, conflictingKey_eq_none h]
  simp only [hst, hwo, hde, bind, Except.bind]
  exact ⟨_, rfl⟩

end Classification

theorem classifyRound_exists_ok (h : Classifiable H s)
    (hba : classifyBallotIntents proposalIds s.intents = .ok ballot)
    (hbu : ∀ b ∈ s.bundleIndexes, (s.bundles.get? b).isSome = true) :
    ∃ plan, classifyRound H s proposalIds = .ok plan := by
  obtain ⟨units, huni⟩ := groupVoteUnits_exists_ok h
  obtain ⟨plan, hpl⟩ := Classification.classify_exists_ok (c := ⟨s, units, ballot⟩) h huni hbu
  unfold classifyRound
  simp only [hba, bind, Except.bind]
  split
  · exact ⟨_, rfl⟩
  · simp only [huni]
    exact ⟨plan, hpl⟩

/-- The ballot of a roster is refused or not whatever the ballot records. -/
theorem classifyBallotIntents_exists_ok {intents intents' : KeyedMap Nat Decision}
    (h : classifyBallotIntents proposalIds intents = .ok ballot) :
    ∃ ballot', classifyBallotIntents proposalIds intents' = .ok ballot' := by
  obtain ⟨_, hli, -⟩ := bind_ok h
  exact ⟨_, by rw [classifyBallotIntents, hli]; rfl⟩

end ZcashVoting.RoundPlanning
