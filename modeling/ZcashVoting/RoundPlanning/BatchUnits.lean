import ZcashVoting.RoundPlanning.CastExclusion

/-!
# Batches stay whole

An atomic batch that the chain may still act on is one unit: every row of the bundle
that names the batch, in action order and in one phase. What the classifier plans for
units names them whole. A vote of a retired batch that is still rostered is cast anew,
and the shares of a confirmed batch are delivered vote by vote.
-/
namespace ZcashVoting.RoundPlanning

open ChainSubmission KeyedData List

/-! ### A batch is one unit -/

section

variable {H : BatchSighash} {s : RoundSnapshot} {b p : Nat} {vote : VoteSnapshot} {digest : Bytes32}
  {unit : VoteUnit} {units : List VoteUnit} {recoveries : List VoteRecoveryBundle}
  {roundId : String}

/-- The member at `index` of a batch of `size` actions. -/
structure ActionAt (digest : Bytes32) (size index : Nat) (member : VoteMember)
    (recovery : VoteRecoveryBundle) (batch : VoteBatchRecovery) : Prop where
  stored : member.recovery = some recovery
  proposal : recovery.proposalId = member.proposalId
  named : recovery.batch = some batch
  ofBatch : batch.digest = digest
  position : batch.index = index
  count : batch.size = size

/-- The unit is the whole batch: all rows that name it, in action order, in one phase. -/
structure WholeBatch (s : RoundSnapshot) (unit : VoteUnit) (digest : Bytes32) : Prop where
  inhabited : unit.members ≠ []
  ordered : ∀ index member, unit.members[index]? = some member →
    ∃ recovery batch, ActionAt digest unit.members.length index member recovery batch
  row : ∀ member ∈ unit.members, ∃ vote, s.vote? unit.bundleIndex member.proposalId = some vote ∧
    vote.phase = unit.phase ∧ vote.recovery = member.recovery
  complete : ∀ p vote recovery, s.vote? unit.bundleIndex p = some vote →
    vote.recovery = some recovery → recovery.inBatch digest = true → p ∈ unit.proposalIds

theorem verifyBatch_inOrder {first : VoteRecoveryBundle} {verified : List VoteRecoveryBundle}
    (h : verifyBatch H roundId digest first recoveries = .ok verified) :
    ∃ size, inOrder digest size recoveries = true := by
  unfold verifyBatch at h
  by_cases ho : inOrder digest ((first.batch.map VoteBatchRecovery.size).getD 0) recoveries = true
  · exact ⟨_, ho⟩
  · rw [if_pos (by simpa using ho)] at h
    cases h

/-- An assembled batch has a member, and each stands at its own index. -/
theorem assemble_inOrder {candidates : List VoteRecoveryBundle}
    (h : assembleVoteBatchRecoveries H roundId b digest candidates = .ok recoveries) :
    recoveries ≠ [] ∧ ∃ size, inOrder digest size recoveries = true := by
  unfold assembleVoteBatchRecoveries at h
  split at h
  · cases h
  · rw [verifyBatch_ok h]
    exact ⟨by simp, verifyBatch_inOrder h⟩

theorem inOrder_getElem? {size index : Nat} {recovery : VoteRecoveryBundle}
    (h : inOrder digest size recoveries = true) (hget : recoveries[index]? = some recovery) :
    ∃ batch, recovery.batch = some batch ∧ batch.digest = digest ∧ batch.index = index ∧
      batch.size = recoveries.length := by
  simp only [inOrder, Bool.and_eq_true, decide_eq_true_eq, all_eq_true] at h
  obtain ⟨hle, hall⟩ := h
  have hmem : (recovery, index) ∈ recoveries.zipIdx :=
    mem_iff_getElem?.mpr ⟨index, by simp [hget]⟩
  obtain ⟨batch, hba, ht⟩ := (Option.any_eq_true ..).mp (hall _ hmem)
  simp only [Bool.and_eq_true, decide_eq_true_eq] at ht
  exact ⟨batch, hba, ht.1.1, ht.1.2, ht.2.trans hle.symm⟩

theorem ReadBatch.whole {scan : BatchScan} (h : ReadBatch H s unit digest recoveries scan) :
    WholeBatch s unit digest := by
  obtain ⟨hinh, _, hor⟩ := assemble_inOrder h.assembled
  have hre := assemble_ok h.assembled
  have hf : ∀ recovery ∈ recoveries, ∃ vote,
    s.vote? unit.bundleIndex recovery.proposalId = some vote ∧
      vote.recovery = some recovery := by
    intro recovery hmem
    rw [hre] at hmem
    exact mem_bundleRecoveries.mp (mem_batchMembers.mp hmem).1
  have hm : unit.members = recoveries.map fun recovery => ⟨recovery.proposalId, some recovery⟩ := by
    rw [h.members, (scanMembers_ok h.scanned).1]
    refine map_congr_left fun recovery hmem => ?_
    obtain ⟨_, hv, hs⟩ := hf recovery hmem
    rw [hv, Option.bind_some, hs]
  refine ⟨?_, ?_, ?_, ?_⟩
  · simpa [hm] using hinh
  · intro index member hget
    simp only [hm, List.getElem?_map, Option.map_eq_some_iff] at hget
    obtain ⟨recovery, hr, rfl⟩ := hget
    obtain ⟨found, hfo, hdi, hind, hsi⟩ := inOrder_getElem? hor hr
    exact ⟨recovery, found, rfl, rfl, hfo, hdi, hind, by simp [hsi, hm]⟩
  · intro member hmem
    rw [hm, mem_map] at hmem
    obtain ⟨recovery, hr, rfl⟩ := hmem
    obtain ⟨vote, hv, hph, -⟩ := (scanMembers_ok h.scanned).2 recovery hr
    obtain ⟨_, hot, hs⟩ := hf recovery hr
    cases hv.symm.trans hot
    exact ⟨vote, hv, hph, hs⟩
  · intro p vote recovery hv hs hin
    have hp := s.recovery_proposal _ _ _ hv hs
    have hmem : recovery ∈ recoveries := by
      rw [hre]
      refine mem_batchMembers.mpr ⟨mem_bundleRecoveries.mpr ⟨vote, ?_, hs⟩, hin⟩
      rw [hp]
      exact hv
    simp only [VoteUnit.proposalIds, hm, map_map, mem_map]
    exact ⟨recovery, hmem, hp⟩

theorem groupVoteUnits_whole (h : groupVoteUnits H s = .ok units) (hmem : unit ∈ units)
    (hid : unit.id = .batch b digest) : WholeBatch s unit digest := by
  obtain ⟨-, -, _, _, hre⟩ := groupVoteUnits_reads h hmem hid
  exact hre.whole

/-! ### Every row is in one unit -/

/-- The units of a grouping: one unit for each row, the whole batch where the chain may
still act on it, and the row alone otherwise. -/
structure AtomicUnits (s : RoundSnapshot) (units : List VoteUnit) : Prop where
  one : ∀ b p vote, s.vote? b p = some vote →
    ∃ unit, units.filter (fun unit => unit.bundleIndex = b && unit.contains p) = [unit]
  member : ∀ unit ∈ units, unit.members ≠ [] ∧ unit.proposalIds.Nodup ∧ ∀ p ∈ unit.proposalIds,
    ∃ vote, s.vote? unit.bundleIndex p = some vote ∧ vote.phase = unit.phase
  batch : ∀ b p vote batch, s.vote? b p = some vote → vote.groupedBatch = some batch →
    ∃ unit ∈ units, unit.id = .batch b batch.digest ∧ unit.Has b p ∧ WholeBatch s unit batch.digest
  single : ∀ b p vote, s.vote? b p = some vote → vote.groupedBatch = none →
    singletonUnit ⟨b, p⟩ vote ∈ units

theorem has_iff : (unit.bundleIndex = b && unit.contains p) = true ↔ unit.Has b p := by
  simp [VoteUnit.Has, VoteUnit.contains]

/-- Of a list without repetition in which only `unit` passes the test, the test leaves `unit`. -/
theorem filter_eq_singleton {test : VoteUnit → Bool} (hdi : units.Nodup) (hmem : unit ∈ units)
    (hun : test unit = true) (hon : ∀ u ∈ units, test u = true → u = unit) :
    units.filter test = [unit] := by
  have hpe : (units.filter test).Perm [unit] := by
    rw [perm_ext_iff_of_nodup (hdi.filter _) (by simp)]
    intro u
    rw [mem_filter, mem_singleton]
    constructor
    · rintro ⟨hu, hte⟩
      exact hon u hu hte
    · rintro rfl
      exact ⟨hmem, hun⟩
  exact perm_singleton.mp hpe

/-- The unit of a row: the batch its recovery names, or the row alone. -/
theorem UnitsOf.unit_of_row (hu : UnitsOf s units) (row : s.vote? b p = some vote)
    (hmem : unit ∈ units) (hhas : unit.Has b p) :
    (vote.groupedBatch = none ∧ unit = singletonUnit ⟨b, p⟩ vote) ∨
    ∃ batch, vote.groupedBatch = some batch ∧ unit.id = .batch b batch.digest := by
  obtain ⟨rfl, hp⟩ := hhas
  rcases hu.shape unit hmem with ⟨key, found, hget, hno, rfl⟩ | ⟨_, hb⟩
  · obtain rfl : p = key.proposalId := by simpa [singletonUnit, VoteUnit.proposalIds] using hp
    have hsa : found = vote := Option.some.inj (hget.symm.trans row)
    subst hsa
    exact .inl ⟨hno, rfl⟩
  · obtain ⟨_, batch, hget, -, hso, hdi, -⟩ := hb.vote p hp
    rw [row] at hget
    cases hget
    exact .inr ⟨batch, hso, by rw [hb.id, hdi]⟩

theorem groupVoteUnits_atomic (h : groupVoteUnits H s = .ok units) : AtomicUnits s units := by
  have hu := groupVoteUnits_ok h
  refine ⟨?_, ?_, ?_, ?_⟩
  · intro b p vote row
    obtain ⟨unit, hmem, hhas⟩ := hu.covers b p vote row
    refine ⟨unit, filter_eq_singleton (nodup_groupVoteUnits h) hmem (has_iff.mpr hhas) ?_⟩
    intro other hot hte
    exact hu.eq_of_has hot hmem (has_iff.mp hte) hhas
  · intro unit hmem
    refine ⟨?_, hu.nodup_proposalIds hmem, fun p hp => hu.vote_of_has hmem ⟨rfl, hp⟩⟩
    obtain ⟨p, -, hp⟩ := hu.exists_has hmem
    intro hnil
    simp [VoteUnit.proposalIds, hnil] at hp
  · intro b p vote batch row hb
    obtain ⟨unit, hmem, hhas⟩ := hu.covers b p vote row
    rcases hu.unit_of_row row hmem hhas with ⟨hn, -⟩ | ⟨found, hf, hid⟩
    · rw [hb] at hn
      cases hn
    · rw [hb] at hf
      cases hf
      exact ⟨unit, hmem, hid, hhas, groupVoteUnits_whole h hmem hid⟩
  · intro b p vote row hn
    obtain ⟨_, hmem, hhas⟩ := hu.covers b p vote row
    rcases hu.unit_of_row row hmem hhas with ⟨-, rfl⟩ | ⟨_, hf, -⟩
    · exact hmem
    · rw [hn] at hf
      cases hf

end

/-! ### What is planned names units whole -/

/-- The lookups the passes expect to succeed do succeed. -/
structure Classification.Expected (c : Classification) : Prop where
  unit : ∀ b p vote, c.snapshot.vote? b p = some vote → ∃ unit, c.unitOf b p = .ok unit
  pair : ∀ b p choice, ∃ outcome, c.pairOutcome b p choice = .ok outcome

/-- What a plan names: retired and reconciled units with all their members, cast members
of a batch only if it retires the batch, and delivered votes that are units of their own. -/
structure NamesUnits (s : RoundSnapshot) (units : List VoteUnit)
    (plan : RoundObligations) : Prop where
  retire : ∀ id members, .retire id members ∈ plan.obligations →
    ∃ unit ∈ units, id = unit.id ∧ members = unit.proposalIds
  reconcile : ∀ id b members undispatched hash prerequisite,
    .reconcileChain id b members undispatched hash prerequisite ∈ plan.obligations →
    ∃ unit ∈ units, id = unit.id ∧ b = unit.bundleIndex ∧ members = unit.proposalIds
  cast : ∀ b drafts prerequisite signs, .cast b drafts prerequisite signs ∈ plan.obligations →
    ∀ draft ∈ drafts, ∀ unit ∈ units, ∀ digest, unit.id = .batch b digest →
      draft.proposalId ∈ unit.proposalIds → .retire unit.id unit.proposalIds ∈ plan.obligations
  deliver : ∀ b p position shares prerequisite,
    .deliver b p position shares prerequisite ∈ plan.obligations →
    ∃ vote, s.vote? b p = some vote ∧ vote.phase = .confirmed ∧ singletonUnit ⟨b, p⟩ vote ∈ units

namespace Classification

variable {c : Classification} {b p : Nat} {u : VoteUnit} {done : List Work} {st : Passes}
  {delegations : List Obligation} {plan : RoundObligations} {proposalIds : List Nat}

theorem expected_of_units (hu : UnitsOf c.snapshot c.units) : c.Expected := by
  have hun : ∀ b p vote, c.snapshot.vote? b p = some vote → ∃ unit, c.unitOf b p = .ok unit := by
    intro b p vote row
    obtain ⟨unit, hun, -⟩ := unitOf_of_vote hu row
    exact ⟨unit, hun⟩
  refine ⟨hun, ?_⟩
  intro b p choice
  unfold pairOutcome
  cases hdue : c.castDue b p choice with
  | true =>
    rw [if_pos rfl]
    split
    · exact ⟨_, rfl⟩
    · split <;> exact ⟨_, rfl⟩
  | false =>
    rw [if_neg (by simp)]
    cases row : c.snapshot.vote? b p with
    | none => simp [castDue, row] at hdue
    | some vote =>
      obtain ⟨_, hfo⟩ := hun b p vote row
      simp only [liveOutcome, hfo]
      split <;> exact ⟨_, rfl⟩

/-- A cast is due for a member of a batch only if the batch is retired. -/
theorem retired_of_castDue (hu : UnitsOf c.snapshot c.units) (hmem : u ∈ c.units)
    {digest : Bytes32} {choice : Nat} (hid : u.id = .batch b digest) (hp : p ∈ u.proposalIds)
    (hget : c.snapshot.intents.get? p = some (.choice choice))
    (hdue : c.castDue b p choice = true) :
    c.isRetired u = true := by
  rcases hu.shape u hmem with ⟨_, vote, -, -, rfl⟩ | ⟨found, hb⟩
  · cases hid
  obtain ⟨hbu, -⟩ : u.bundleIndex = b ∧ found = digest := by
    have hsa := hb.id.symm.trans hid
    simpa using hsa
  obtain ⟨vote, _, row, -, hba, -, hag⟩ := hb.vote p hp
  rw [hbu] at row
  have hs : ⟨b, p⟩ ∉ c.staleVoteKeys := by
    intro hs
    obtain ⟨_, ho, hco⟩ := mem_staleVoteKeys.mp hs
    rw [show c.snapshot.votes.get? ⟨b, p⟩ = some vote from row] at ho
    cases ho
    exact hag hco
  have hch := choice_of_not_stale row hs hget
  have hca : LifecyclePosition.ofPhase vote.phase ≠ .uncast := by
    intro hpos
    have hpr : vote.phase = .prepared := by
      cases hv : vote.phase <;> simp [hv, LifecyclePosition.ofPhase] at hpos ⊢
    simp [VoteSnapshot.groupedBatch, hpr] at hba
  have hre : ⟨b, p⟩ ∈ c.retirableVoteKeys := by
    simpa [castDue, row, hs, hch, hca] using hdue
  obtain ⟨_, hun, hret, hhas⟩ := mem_retirableVoteKeys.mp hre
  rwa [hu.eq_of_has hun hmem hhas ⟨hbu, hp⟩] at hret

theorem PlanOf.mem_retire (hpl : c.PlanOf done st delegations plan) {id : VoteUnitId}
    {members : List Nat} : .retire id members ∈ plan.obligations ↔
      ∃ unit ∈ c.units, c.isRetired unit = true ∧ id = unit.id ∧ members = unit.proposalIds := by
  rw [hpl.mem_obligations]
  constructor
  · rintro ⟨_, hpre, -, hfr⟩
    obtain ⟨unit, hun, rfl⟩ := mem_map.mp hfr
    cases hpre
    obtain ⟨hmem, hr⟩ := mem_filter.mp hun
    exact ⟨unit, hmem, hr, rfl, rfl⟩
  · rintro ⟨unit, hmem, hr, rfl, rfl⟩
    exact ⟨.retire unit.id unit.proposalIds, rfl, rfl,
      mem_map.mpr ⟨unit, mem_filter.mpr ⟨hmem, hr⟩, rfl⟩⟩

theorem PlanOf.namesUnits (hpl : c.PlanOf done st delegations plan)
    (hu : UnitsOf c.snapshot c.units) (hba : BallotOf proposalIds c.snapshot.intents c.ballot)
    (hat : AtomicUnits c.snapshot c.units) : NamesUnits c.snapshot c.units plan := by
  refine ⟨?_, ?_, ?_, ?_⟩
  · intro id members h
    obtain ⟨unit, hmem, -, hid, hme⟩ := hpl.mem_retire.mp h
    exact ⟨unit, hmem, hid, hme⟩
  · intro id b members undispatched hash prerequisite h
    obtain ⟨planned, hpre, -, w, hw, ho⟩ := hpl.mem_obligations.mp h
    rcases (Work.obligation_cases ho).2 with ⟨unit, rfl, rfl⟩ | ⟨key, position, missing, -, rfl⟩
    · cases hpre
      exact ⟨unit, hpl.owned unit hw, rfl, rfl, rfl⟩
    · cases hpre
  · intro b drafts prerequisite signs h draft hdr unit hun digest hid hp
    obtain ⟨-, hout⟩ := (hpl.pair_of_cast h).2 draft hdr
    obtain ⟨_, hget, hdec⟩ := outcomeOf_eq_some hout
    cases hdec with
    | cast due =>
      exact hpl.mem_retire.mpr ⟨unit, hun, retired_of_castDue hu hun hid hp hget due, rfl, rfl⟩
  · intro b p position shares prerequisite h
    obtain ⟨_, hpre, -, _, hw, ho⟩ := hpl.mem_obligations.mp h
    rcases (Work.obligation_cases ho).2 with ⟨_, rfl, rfl⟩ | ⟨_, _, _, rfl, rfl⟩
    · cases hpre
    cases hpre
    obtain ⟨vote, row, hpos⟩ := (hpl.asked_shares hu hba).mp ((hpl.asked _).mp hw)
    have hph : vote.phase = .confirmed := by
      cases hv : vote.phase <;> simp [hv, LifecyclePosition.ofPhase] at hpos ⊢
    refine ⟨vote, row, hph, hat.single _ _ vote row ?_⟩
    simp [VoteSnapshot.groupedBatch, hph]

end Classification

/-- Grouping gives each vote one unit and each live batch a unit of its own, whole and in
action order. The classifier finds the units it expects and plans them whole. -/
theorem batches_stay_whole {H : BatchSighash} {s : RoundSnapshot} {units : List VoteUnit}
    (h : groupVoteUnits H s = .ok units) :
    AtomicUnits s units ∧ (∀ ballot, Classification.Expected ⟨s, units, ballot⟩) ∧
      ∀ proposalIds plan, classifyRound H s proposalIds = .ok plan → NamesUnits s units plan := by
  have ha := groupVoteUnits_atomic h
  refine ⟨ha, fun ballot => Classification.expected_of_units (groupVoteUnits_ok h), ?_⟩
  intro proposalIds plan hp
  rcases classifyRound_ok hp with ⟨-, _⟩ | ⟨_, _, _, _, _, hba, hf, hu, hp⟩
  · constructor <;> intros <;> simp_all
  · rw [h] at hf
    cases hf
    exact hp.namesUnits hu hba ha

/-! ### A batch of two -/

/-- The recovery of action `p - 1` in a batch on proposals 1 and 2. -/
def pairMember (p : Nat) : VoteRecoveryBundle where
  voteRoundId := "0000000000000000000000000000000000000000000000000000000000000000"
  bundleIndex := 0
  proposalId := p
  voteDecision := 0
  numOptions := 2
  anchorHeight := 0
  vcTreePosition := 0
  singleShare := false
  vanNullifier := zeroBytes32
  voteAuthorityNoteNew := zeroBytes32
  voteCommitment := zeroBytes32
  proof := []
  rVpk := zeroBytes32
  sealed := []
  encryptedShares := [0]
  shareBlinds := [zeroBytes32]
  batch := some ⟨none, zeroBytes32, p - 1, 2⟩

/-- One bundle with the batch, and a ballot that chooses proposal 2 only. -/
def pairRound (phase : VotePhase) : RoundSnapshot :=
  bundleRound "0000000000000000000000000000000000000000000000000000000000000000" .confirmed
    ⟨[(⟨0, 1⟩, ⟨0, phase, none, none, some (pairMember 1)⟩),
      (⟨0, 2⟩, ⟨0, phase, none, none, some (pairMember 2)⟩)], by simp⟩
    (.single 2 (.choice 0)) (by simp +contextual [KeyedMap.get?_eq_some_iff, or_imp]) (by
      simp only [KeyedMap.get?_eq_some_iff, mem_cons, Prod.mk.injEq, not_mem_nil, or_false]
      rintro _ _ _ (⟨rfl, rfl⟩ | ⟨rfl, rfl⟩) ⟨⟩ <;> rfl)

def pairUnit (phase : VotePhase) : VoteUnit :=
  ⟨.batch 0 zeroBytes32, 0, [⟨1, some (pairMember 1)⟩, ⟨2, some (pairMember 2)⟩], phase⟩

def recastPlan : RoundObligations :=
  samplePlan [.retire (.batch 0 zeroBytes32) [1, 2], .cast 0 [⟨2, 0⟩] none false] [2] [] []

theorem groupVoteUnits_committed :
    groupVoteUnits sampleSighash (pairRound .committed) = .ok [pairUnit .committed] := by
  decide +kernel

theorem classifyRound_committed :
    classifyRound sampleSighash (pairRound .committed) [2] = .ok recastPlan := by
  decide +kernel

theorem batches_stay_whole_pair : AtomicUnits (pairRound .committed) [pairUnit .committed] ∧
    NamesUnits (pairRound .committed) [pairUnit .committed] recastPlan :=
  ⟨(batches_stay_whole groupVoteUnits_committed).1,
    (batches_stay_whole groupVoteUnits_committed).2.2 [2] recastPlan classifyRound_committed⟩

/-- When proposal 1 leaves the roster, the plan casts proposal 2 alone out of the batch it
retires. Once the batch is confirmed, its votes are two units. -/
theorem retired_batch_is_recast_in_part :
    (groupVoteUnits sampleSighash (pairRound .committed) = .ok [pairUnit .committed] ∧
      classifyRound sampleSighash (pairRound .committed) [2] = .ok recastPlan ∧
      .cast 0 [⟨2, 0⟩] none false ∈ recastPlan.obligations ∧
        (pairUnit .committed).proposalIds = [1, 2]) ∧
    (groupVoteUnits sampleSighash (pairRound .confirmed)).map (List.map VoteUnit.proposalIds) =
    .ok [[1], [2]] := by
  refine ⟨⟨groupVoteUnits_committed, classifyRound_committed, ?_, rfl⟩, by decide +kernel⟩
  exact .tail _ (.head _)

end ZcashVoting.RoundPlanning
