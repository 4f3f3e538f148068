import ZcashVoting.RoundPlanning.Steps

/-!
# What a completed round has left

A plan reports completion when a vote artifact exists and no foreground work remains. A
cast that the classifier withholds leaves no step, so it can be outstanding then: but only
while the ballot has an open proposal or an intent outside the roster. Every other chosen
vote is confirmed, with all its shares at the helpers.
-/
namespace ZcashVoting.RoundPlanning

open ChainSubmission KeyedData List LifecyclePosition

/-! ### Settled votes -/

/-- The helper-share row the phase is derived from. -/
def RoundSnapshot.shareOf (s : RoundSnapshot) (row : SharePhaseRow) :
    Option ShareDelegationRecord :=
  s.shares.find? fun share =>
    share.bundleIndex = row.bundleIndex && share.proposalId = row.proposalId &&
      share.shareIndex = row.shareIndex

/-- The share is confirmed, or a helper accepted it or may hold it. -/
def SharePhaseRow.Settled (s : RoundSnapshot) (row : SharePhaseRow) : Prop :=
  row.phase = .confirmed ∨ ∀ share, s.shareOf row = some share →
    share.confirmed = true ∨ share.sentToUrls ≠ [] ∨ share.ambiguousUrls ≠ [] ∨
      share.attemptingUrls ≠ []

/-- The vote is confirmed with the chosen option, and each of its shares is settled. -/
def VoteSettled (s : RoundSnapshot) (b p choice : Nat) : Prop :=
  ∃ vote recovery, s.vote? b p = some vote ∧ vote.phase = .confirmed ∧ vote.choice = choice ∧
    vote.recovery = some recovery ∧
    (∀ i ∈ recovery.sentShares, ∃ row ∈ s.sharePhases, row.key = ⟨b, p, i⟩) ∧
    ∀ row ∈ s.sharePhases, row.bundleIndex = b → row.proposalId = p → row.Settled s

/-! ### Nothing blocks the foreground -/

/-- What `blockingRecovery = false` says. -/
structure Unblocked (s : RoundSnapshot) (obligations : List Obligation) : Prop where
  managed : s.submissionManaged = false
  hashless : s.submittedWithoutHash = false
  rejected : s.submissionRejected = false
  retriable : s.rejectionBlockedBundles = []
  background : ∀ step ∈ nextSteps obligations, ∃ b p share, step = .confirmShare b p share ∧
    ⟨b, p, share⟩ ∉ blockingConfirmShareKeys obligations

section

variable {s : RoundSnapshot} {obligations : List Obligation} {b p : Nat}

theorem unblocked_of_not_blocking (h : blockingRecovery s obligations = false) :
    Unblocked s obligations := by
  simp only [blockingRecovery, Bool.or_eq_false_iff, Bool.not_eq_false', List.isEmpty_iff,
    any_eq_false] at h
  obtain ⟨⟨⟨⟨hma, hha⟩, hrej⟩, hre⟩, hst⟩ := h
  refine ⟨hma, hha, hrej, hre, fun step hste => ?_⟩
  have hb := hst step hste
  cases step with
  | confirmShare b p share => exact ⟨b, p, share, rfl, by simpa [NextStep.blocks] using hb⟩
  | _ => exact absurd rfl hb

/-- Neither the delegation nor a vote is in a phase that keeps the foreground open. -/
theorem Unblocked.vote (h : Unblocked s obligations) {vote : VoteSnapshot}
    (row : s.vote? b p = some vote) :
    vote.phase ≠ .submissionManaged ∧ vote.phase ≠ .submittedWithoutHash ∧
      vote.phase ≠ .submissionRejected := by
  have hn {phase : VotePhase} (hfl : s.someVote phase = false) : vote.phase ≠ phase := by
    simpa using any_eq_false.mp hfl _ (KeyedMap.mem_entries_of_get? row)
  exact ⟨hn (Bool.or_eq_false_iff.mp h.managed).2, hn (Bool.or_eq_false_iff.mp h.hashless).2,
    hn (Bool.or_eq_false_iff.mp h.rejected).2⟩

theorem Unblocked.delegation (h : Unblocked s obligations) (hb : b ∈ s.bundleIndexes)
    {phase : DelegationPhase} (hph : s.delegationPhase b = some phase) :
    delegationPhaseHoldsBundle phase = false := by
  have hn {other : DelegationPhase} (hfl : s.someDelegation other = false) : phase ≠ other := by
    have hot := any_eq_false.mp hfl b hb
    simpa [hph] using hot
  have hma := hn (Bool.or_eq_false_iff.mp h.managed).1
  have hha := hn (Bool.or_eq_false_iff.mp h.hashless).1
  have hre := hn (Bool.or_eq_false_iff.mp h.rejected).1
  cases phase <;> simp_all [delegationPhaseHoldsBundle]

end

namespace Classification

variable {c : Classification} {b p choice : Nat} {done : List Work} {st : Passes}
  {delegations : List Obligation} {plan : RoundObligations} {o : Obligation} {vote : VoteSnapshot}
  {proposalIds : List Nat}

section

variable (hpl : c.PlanOf done st delegations plan)
include hpl

section

variable (hfre : Unblocked c.snapshot plan.obligations)
include hfre

/-- Work that is executed is then the confirmation of a share. -/
theorem PlanOf.confirm_of_planned (hfr : c.PlannedBy done st delegations o o.kind)
    (hre : o.kind ≠ .retire) (hbl : o.kind ≠ .blocked) : o.kind = .confirm := by
  have ho := hpl.obligation_of_planned hfr
  have hwo := Obligation.executable_of_kind hre hbl
  obtain ⟨step, hs⟩ := exists_mem_of_ne_nil _ (hpl.has_step ho (by simpa using hwo))
  obtain ⟨_, _, _, rfl, -⟩ := hfre.background step (mem_nextSteps.mpr ⟨_, ho, hs⟩)
  have hk := (Obligation.of_step hs).1.1
  rw [Obligation.kind_withPrerequisite] at hk
  exact hk.symm

theorem PlanOf.idle_work {w : Work} (hw : w ∈ done) : w.obligations c.snapshot = [] := by
  refine eq_nil_iff_forall_not_mem.mpr fun planned hmem => ?_
  have hki := Work.kind_obligations hmem
  have hco := hpl.confirm_of_planned hfre (o := planned)
    (by rcases hki with hk | hk <;> (rw [hk]; exact ⟨w, hw, hmem⟩))
    (by rcases hki with hk | hk <;> simp [hk]) (by rcases hki with hk | hk <;> simp [hk])
  rcases hki with hk | hk <;> simp [hk] at hco

theorem PlanOf.not_reconciled {u : VoteUnit} : ¬c.Asked (.unit u) := by
  intro hask
  have hnil := hpl.idle_work hfre ((hpl.asked _).mpr hask)
  exact cons_ne_nil _ _ hnil

theorem PlanOf.not_cast (hpa : (b, p) ∈ c.pairs) : c.outcomeOf (b, p) ≠ some (.cast choice) := by
  intro hout
  obtain ⟨planned, hmem, -⟩ := mem_flatMap.mp ((mem_castPairs hpl).mpr ⟨hpa, choice, hout⟩)
  have hk := kind_casts hmem
  have hc := hpl.confirm_of_planned hfre (o := planned) (by rw [hk]; exact hmem)
    (by simp [hk]) (by simp [hk])
  rw [hk] at hc
  cases hc

/-! ### What is left of a chosen vote -/

/-- The unconfirmed shares of a vote that is not stale are at a helper, or may be. -/
theorem PlanOf.shares_settled (hst : ⟨b, p⟩ ∉ c.staleVoteKeys)
    {row : SharePhaseRow} (hrow : row ∈ c.snapshot.sharePhases) (hb : row.bundleIndex = b)
    (hp : row.proposalId = p) : row.Settled c.snapshot := by
  unfold SharePhaseRow.Settled
  cases hph : row.phase with
  | confirmed => exact .inl rfl
  | submitted =>
    refine .inr fun share hs => ?_
    by_contra hn
    simp only [not_or, not_not] at hn
    obtain ⟨hco, hse, ham, hat⟩ := hn
    -- the share would be planned as a blocking confirmation
    have hmem :
        .confirm row.bundleIndex row.proposalId row.shareIndex false false none ∈ c.confirms := by
      refine mem_map.mpr ⟨row, mem_filter.mpr ⟨hrow, ?_⟩, ?_⟩
      · simp [hb, hp, hst, hph]
      · unfold RoundSnapshot.shareOf at hs
        simp only [hs]
        simp [hco, hse, ham, hat]
    have ho := hpl.obligation_of_planned
      (o := .confirm row.bundleIndex row.proposalId row.shareIndex false false none) hmem
    have hste : .confirmShare row.bundleIndex row.proposalId row.shareIndex ∈
        nextSteps plan.obligations := mem_nextSteps.mpr ⟨_, ho, mem_singleton_self _⟩
    obtain ⟨_, _, _, heq, hkey⟩ := hfre.background _ hste
    cases heq
    exact hkey (mem_filterMap.mpr ⟨_, ho, rfl⟩)

/-- A live vote that the first loop delivers is settled. -/
theorem PlanOf.vote_settled (hpa : (b, p) ∈ c.pairs)
    (hout : c.outcomeOf (b, p) = some .deliver) (live : c.castDue b p choice = false)
    (row : c.snapshot.vote? b p = some vote) (hph : vote.phase = .confirmed) :
    VoteSettled c.snapshot b p choice := by
  have hask : c.Asked (.shares ⟨b, p⟩) :=
    .inl ⟨(b, p), hpa, by simp [pairWork, hout, PairOutcome.work]⟩
  obtain ⟨_, recovery, row', hre, -, hmi⟩ := hpl.delivers_missing hask
  cases row.symm.trans row'
  simp only [castDue, row, Bool.or_eq_false_iff, contains_eq_mem, decide_eq_false_iff_not,
    not_not] at live
  obtain ⟨⟨⟨hst, hch⟩, -⟩, -⟩ := live
  have hnon : plan.deliveredShares b p = [] := by
    unfold RoundObligations.deliveredShares
    rw [hpl.works_eq (fun o _ => Obligation.deliveredShares_withPrerequisite)
      (fun o _ hd => Obligation.deliveredShares_of_kind hd)]
    refine flatMap_eq_nil_iff.mpr fun w hw => ?_
    rw [hpl.idle_work hfre hw]
    rfl
  refine ⟨vote, recovery, row, hph, hch, hre, fun i hi => ?_, fun share hsh hb hp => ?_⟩
  · by_contra hno
    have hin : i ∈ plan.deliveredShares b p := by
      refine (hmi i).mpr ⟨hi, ?_⟩
      rintro share hsh ⟨hb, hp, hs⟩
      refine hno ⟨share, hsh, ?_⟩
      rw [SharePhaseRow.key, hb, hp, hs]
    rw [hnon] at hin
    cases hin
  · exact hpl.shares_settled hfre hst hsh hb hp

/-- A chosen vote is settled, or its cast is withheld. -/
theorem PlanOf.settled_or_withheld (hp : (b, p) ∈ c.pairs)
    (hget : c.snapshot.intents.get? p = some (.choice choice)) :
    VoteSettled c.snapshot b p choice ∨ p ∈ plan.withheldCasts := by
  obtain ⟨outcome, hout, hdec⟩ := hpl.decides hp hget
  have hwi (hco : outcome.condition = .withheld) : p ∈ plan.withheldCasts :=
    hpl.withheld_iff.mpr ⟨b, outcome, hp, hout, hco⟩
  cases hdec with
  | held | blocked | waits => exact .inr (hwi rfl)
  | cast => exact absurd hout (hpl.not_cast hfre hp)
  | @reconcile _ unit _ _ _ _ =>
    refine absurd (.inl ⟨(b, p), hp, ?_⟩) (hpl.not_reconciled hfre (u := unit))
    simp [pairWork, hout, PairOutcome.work]
  | @deliver _ live row position =>
    exact .inl (hpl.vote_settled hfre hp hout live row (confirmed_iff_position.mp position))
  | @ended vote _ row position =>
    obtain ⟨-, hha, hre⟩ := hfre.vote row
    revert position hha hre
    cases vote.phase <;> simp [ofPhase]

end

/-! ### A complete ballot withholds nothing -/

section

variable (hu : UnitsOf c.snapshot c.units) (hba : BallotOf proposalIds c.snapshot.intents c.ballot)
  (hfre : Unblocked c.snapshot plan.obligations)
include hu hba hfre

/-- A vote that holds its bundle, though nothing blocks, is committed and waits for the ballot. -/
theorem PlanOf.undecided_of_holds (row : c.snapshot.vote? b p = some vote)
    (hh : c.holds ⟨b, p⟩ vote = true) : c.ballot.openProposals ≠ [] := by
  simp only [holds, Bool.and_eq_true, Bool.not_eq_true', contains_eq_mem,
    decide_eq_false_iff_not] at hh
  obtain ⟨⟨hs, hr⟩, hh⟩ := hh
  obtain ⟨hma, hha, -⟩ := hfre.vote row
  obtain ⟨unit, hun, hp⟩ := unitOf_of_vote hu row
  obtain ⟨hmem, hhas⟩ := unitOf_ok hun
  have ho : ofPhase unit.phase ≠ .onWire := fun hpos =>
    hpl.not_reconciled hfre ((hpl.asked_onWire hu hba hpos).mpr hmem)
  have hc : ofPhase unit.phase = .undispatched := by
    rw [hp] at ho ⊢
    revert hh hma hha ho
    cases vote.phase <;> simp [votePhaseHoldsBundle, ofPhase]
  have hnot : c.isRetired unit = false := by
    by_contra hre
    exact hr (mem_retirableVoteKeys.mpr ⟨unit, hmem, by simpa using hre, hhas⟩)
  have hro : p ∈ c.ballot.roster := rostered_of_not_retired hc hnot p hhas.2
  cases hget : c.snapshot.intents.get? p with
  | none =>
    refine ne_nil_of_mem (a := p) ?_
    rw [hba.undecided, mem_filter]
    exact ⟨hro, by rw [hget]; rfl⟩
  | some decision =>
    cases decision with
    | skipped =>
      exact absurd (mem_staleVoteKeys.mpr ⟨vote, row, by simp [ballotRelation, hget]⟩) hs
    | choice choice =>
      have hpa : (b, p) ∈ c.pairs := (mem_pairs hba).mpr
        ⟨c.snapshot.bundle_of_vote row, (hba.roster p).mp hro, choice, hget⟩
      obtain ⟨outcome, hout, hdec⟩ := hpl.decides hpa hget
      have hpos : ofPhase vote.phase = .undispatched := by rw [← hp, hc]
      have hch := choice_of_not_stale row hs hget
      have hl : c.castDue b p choice = false := by
        simp [castDue, row, hs, hr, hch, hpos]
      cases ha : c.everyMemberAgrees b unit with
      | true =>
        have hou : outcome = .reconcile unit := by
          simpa [hpos, hun, ha] using hdec.live hl row
        refine absurd (.inl ⟨(b, p), hpa, ?_⟩) (hpl.not_reconciled hfre (u := unit))
        simp [pairWork, hout, hou, PairOutcome.work]
      | false =>
        obtain ⟨-, _, -, hop⟩ := undecided_of_waits hu hba hl row hun hpos ha
        exact ne_nil_of_mem hop

theorem PlanOf.no_withheld (ho : c.ballot.openProposals = [])
    (hro : c.unrosteredIntents = []) : plan.withheldCasts = [] := by
  have hte : c.rosterIsTerminal = true := by simp [rosterIsTerminal, ho, hro]
  refine eq_nil_iff_forall_not_mem.mpr fun p hp => ?_
  obtain ⟨_, _, -, hout, hco⟩ := hpl.withheld_iff.mp hp
  obtain ⟨_, -, hdec⟩ := outcomeOf_eq_some hout
  cases hdec with
  | held _ held =>
    rcases mem_heldBundles.mp held with ⟨q, _, row, hh⟩ | ⟨_, hph, hh, hb⟩ | hbl
    · exact hpl.undecided_of_holds hu hba hfre row hh ho
    · simp [hfre.delegation hb hph] at hh
    · rw [hfre.retriable] at hbl
      cases hbl
  | blocked _ _ unfinished =>
    rw [hte] at unfinished
    cases unfinished
  | @waits _ _ live row found position disagrees =>
    obtain ⟨-, _, -, hq⟩ := undecided_of_waits hu hba live row found position disagrees
    rw [ho] at hq
    cases hq
  | cast | deliver | reconcile | ended => cases hco

end

end

end Classification

/-! ### Completion -/

variable {s : RoundSnapshot} {plan : RoundObligations} {proposalIds : List Nat}

theorem project_ok {roundPlan : RoundPlan} (h : project s proposalIds plan = .ok roundPlan) :
    roundPlan.openProposals = plan.openProposals ∧
      roundPlan.unrosteredIntents = plan.unrosteredIntents ∧
      roundPlan.completedForDisplay = completedForDisplay s plan ∧
        roundPlan.primaryAction = primaryAction s plan := by
  obtain ⟨_, -, h⟩ := bind_ok h
  obtain ⟨_, -, h⟩ := bind_ok h
  cases h
  exact ⟨rfl, rfl, rfl, rfl⟩

theorem completed_of_done (h : primaryAction s plan = .done) :
    completedForDisplay s plan = true := by
  unfold primaryAction selectPrimaryAction at h
  by_contra hnot
  repeat' split at h
  all_goals cases h

theorem not_completed_of_empty (he : s.delegations = [])
    (plan : RoundObligations) : completedForDisplay s plan = false := by
  simp [completedForDisplay, RoundSnapshot.completedVoteArtifact, RoundSnapshot.votes_of_empty he,
    RoundSnapshot.sharePhases_of_empty he]

/-- When the plan's action is `Done`, or the round is shown as completed, each chosen vote is
settled on each bundle unless its cast is withheld, and casts are withheld only while the plan
reports an open proposal or an intent outside the roster. -/
theorem completed_round_settles_votes {H : BatchSighash} {s : RoundSnapshot}
    {proposalIds : List Nat}
    {plan : RoundObligations} {roundPlan : RoundPlan} (h : classifyRound H s proposalIds = .ok plan)
    (hproject : project s proposalIds plan = .ok roundPlan)
    (hdone : roundPlan.primaryAction = .done ∨ roundPlan.completedForDisplay = true) :
    (∀ b ∈ s.bundleIndexes, ∀ p ∈ proposalIds, ∀ choice, s.intents.get? p = some (.choice choice) →
      VoteSettled s b p choice ∨ p ∈ plan.withheldCasts) ∧
    (roundPlan.openProposals = [] → roundPlan.unrosteredIntents = [] →
      plan.withheldCasts = []) := by
  obtain ⟨hop, hun, hdi, hac⟩ := project_ok hproject
  rw [hop, hun]
  have hc : completedForDisplay s plan = true := by
    rcases hdone with hdone | hdone
    · exact completed_of_done (hac ▸ hdone)
    · exact hdi ▸ hdone
  rcases classifyRound_ok h with ⟨hem, -⟩ | ⟨_, _, _, _, _, hba, -, hu, hpl⟩
  · rw [not_completed_of_empty hem] at hc
    cases hc
  have hfre : Unblocked s plan.obligations :=
    unblocked_of_not_blocking (by simpa using (Bool.and_eq_true_iff.mp hc).2)
  refine ⟨fun b hb p hp choice hget => ?_, fun hno hall => ?_⟩
  · exact hpl.settled_or_withheld hfre ((Classification.mem_pairs hba).mpr ⟨hb, hp, choice, hget⟩) hget
  · exact hpl.no_withheld hu hba hfre (hpl.undecided ▸ hno) (hpl.unrostered ▸ hall)

/-! ### Three rounds -/

/-- The vote for proposal 1 is confirmed and both its shares are at the helpers, one of them not
yet confirmed. -/
def settledRound (intents : KeyedMap Nat Decision) : RoundSnapshot :=
  { confirmedRound .confirmed with
    intents
    shares := [⟨0, 1, 0, ["helper"], [], [], true⟩, ⟨0, 1, 1, [], ["helper"], [], false⟩]
    sharePhases := [⟨0, 1, 0, .confirmed⟩, ⟨0, 1, 1, .submitted⟩]
    share_bundle := by decide
    share_key := by decide }

/-- The whole ballot of a roster of one. -/
def oneChoice : KeyedMap Nat Decision := .single 1 (.choice 0)

def settledPlan : RoundObligations := samplePlan [.confirm 0 1 1 false true none] [1] [] []

theorem classifyRound_settled :
    classifyRound sampleSighash (settledRound oneChoice) [1] = .ok settledPlan := by
  decide +kernel

/-- The plan of a projection whose action was computed. -/
theorem exists_done (h : (project s proposalIds plan).map RoundPlan.primaryAction = .ok .done) :
    ∃ roundPlan, project s proposalIds plan = .ok roundPlan ∧ roundPlan.primaryAction = .done := by
  cases hp : project s proposalIds plan with
  | error =>
    rw [hp] at h
    cases h
  | ok roundPlan =>
    rw [hp] at h
    exact ⟨roundPlan, rfl, Except.ok.inj h⟩

theorem completed_round_settles_votes_settled : VoteSettled (settledRound oneChoice) 0 1 0 := by
  have hac : (project (settledRound oneChoice) [1] settledPlan).map RoundPlan.primaryAction =
      .ok .done := by decide +kernel
  obtain ⟨_, hpr, hdo⟩ := exists_done hac
  obtain ⟨hvo, -⟩ := completed_round_settles_votes classifyRound_settled hpr (.inl hdo)
  rcases hvo 0 (by decide) 1 (by decide) 0 (by decide) with hse | hwi
  · exact hse
  · cases hwi

/-- Proposal 2 is chosen but not cast, and proposal 3 is open. -/
def blockedPlan : RoundObligations :=
  samplePlan [.blocked 0 (.openBallot [3]), .confirm 0 1 1 false true none] [1, 2] [3] [2]

def waitingPlan : RoundObligations := samplePlan [] [2] [1] [2]

/-- The action is `Done` while the cast of proposal 2 is blocked, and while the only votes of the
round are a committed batch that was never dispatched. -/
theorem done_with_votes_outstanding :
    (classifyRound sampleSighash (settledRound twoChoices) [1, 2, 3] = .ok blockedPlan ∧
      (∃ roundPlan, project (settledRound twoChoices) [1, 2, 3] blockedPlan = .ok roundPlan ∧
        roundPlan.primaryAction = .done) ∧ blockedPlan.Blocks 0 ∧
          (settledRound twoChoices).vote? 0 2 = none) ∧
    (classifyRound sampleSighash (pairRound .committed) [1, 2] = .ok waitingPlan ∧
      (∃ roundPlan, project (pairRound .committed) [1, 2] waitingPlan = .ok roundPlan ∧
        roundPlan.primaryAction = .done) ∧
      ∀ p ∈ [1, 2], ((pairRound .committed).vote? 0 p).map VoteSnapshot.phase =
        some .committed) := by
  refine ⟨⟨by decide +kernel, exists_done (by decide +kernel), ⟨_, .head _⟩, by decide⟩,
    by decide +kernel, exists_done (by decide +kernel), ?_⟩
  intro p hp
  simp only [mem_cons, not_mem_nil, or_false] at hp
  rcases hp with rfl | rfl <;> rfl

end ZcashVoting.RoundPlanning
