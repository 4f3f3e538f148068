import ZcashVoting.RoundPlanning.Coverage

/-!
# The tally of a round's selected choices

A run counts a selected proposal as completed when no vote obligation covers it and no cast
of it is withheld. For a rostered choice the plan's pair conditions turn that absence into a
fact about every bundle.
-/
namespace ZcashVoting.RoundPlanning

open KeyedData LifecyclePosition List Classification

/-- The proposals a vote obligation owes work for. -/
def Obligation.covered : Obligation → List Nat
  | cast _ drafts .. => drafts.map CastDraft.proposalId
  | reconcileChain _ _ orderedProposalIds .. => orderedProposalIds
  | _ => []

def coveredProposals (obligations : RoundObligations) : List Nat :=
  sortedSet (obligations.obligations.flatMap Obligation.covered)

structure RoundWorkTally where
  (completedProposals totalProposals remainingObligations : Nat)
  deriving DecidableEq

structure VoteProgressBaseline where
  proposals : List Nat

namespace VoteProgressBaseline

def forSelectedChoices (obligations : RoundObligations) : VoteProgressBaseline :=
  ⟨sortedSet (obligations.choiceProposals ++ obligations.lifecycleOwnedChoices)⟩

/-- The proposals `tally` counts as completed. -/
def completed (baseline : VoteProgressBaseline) (obligations : RoundObligations) : List Nat :=
  baseline.proposals.filter fun p =>
    !(coveredProposals obligations).contains p && !obligations.withheldCasts.contains p

def tally (baseline : VoteProgressBaseline) (obligations : RoundObligations) : RoundWorkTally where
  completedProposals := (baseline.completed obligations).length
  totalProposals := baseline.proposals.length
  remainingObligations := (obligations.obligations.filter fun o => match o with
    | .blocked .. => false | .retire .. => false | _ => true).length

end VoteProgressBaseline

open VoteProgressBaseline

variable {H : BatchSighash} {s : RoundSnapshot} {proposalIds : List Nat} {plan : RoundObligations}
  {b p : Nat}

/-- A selected proposal has a choice, and waits for bundle setup while there is no bundle. -/
theorem selected_ok (h : classifyRound H s proposalIds = .ok plan)
    (hp : p ∈ (forSelectedChoices plan).proposals) :
    (∃ choice, s.intents.get? p = some (.choice choice)) ∧
      (s.delegations = [] → p ∈ proposalIds ∧ p ∈ plan.withheldCasts) := by
  have hch : isChoice (s.intents.get? p) = true → ∃ choice,
      s.intents.get? p = some (.choice choice) := by
    unfold isChoice
    split <;> simp_all
  simp only [forSelectedChoices, mem_sortedSet, mem_append] at hp
  obtain ⟨ballot, hb, h⟩ := bind_ok h
  have hb := classifyBallotIntents_ok hb
  have hm : p ∈ ballot.choiceProposals ↔ p ∈ proposalIds ∧ isChoice (s.intents.get? p) = true := by
    rw [hb.choice, mem_filter, hb.roster]
  split at h
  · cases h
    rcases hp with hp | hp
    · exact ⟨hch (hm.mp hp).2, fun _ => ⟨(hm.mp hp).1, mem_sortedSet.mpr hp⟩⟩
    · cases hp
  next hs =>
    obtain ⟨_, -, h⟩ := bind_ok h
    unfold classify at h
    split at h
    · cases h
    obtain ⟨_, -, h⟩ := bind_ok h
    obtain ⟨_, -, h⟩ := bind_ok h
    obtain ⟨_, -, h⟩ := bind_ok h
    cases h
    rcases hp with hp | hp
    · refine ⟨hch (hm.mp hp).2, fun he => absurd ?_ hs⟩
      simp [he, ne_nil_of_mem hp]
    · simp only [lifecycleOwnedChoices, mem_sortedSet, mem_filter, Bool.and_eq_true] at hp
      refine ⟨hch hp.2.2, fun he => ?_⟩
      simp [proposalIsOwned, RoundSnapshot.votes_of_empty he] at hp

theorem Obligation.mem_covered (o : Obligation) :
    p ∈ o.covered ↔ ∃ b, (b, p) ∈ o.castPairs ∨ (b, p) ∈ o.reconciledPairs := by
  cases o with
  | cast | reconcileChain | _ => simp [covered, castPairs, reconciledPairs]

namespace Classification

variable {c : Classification} {done : List Work} {st : Passes} {delegations : List Obligation}

section

variable (hpl : c.PlanOf done st delegations plan)
include hpl

theorem covered_iff : p ∈ coveredProposals plan ↔
    ∃ b, (b, p) ∈ c.pairs ∧ (∃ choice, c.outcomeOf (b, p) = some (.cast choice)) ∨
      ∃ u, c.Asked (.unit u) ∧ u.Has b p := by
  have hca := hpl.casts_eq (fun o _ => Obligation.castPairs_withPrerequisite)
    (fun o hk => Obligation.castPairs_of_kind hk)
  have hre := hpl.works_eq (fun o _ => Obligation.reconciledPairs_withPrerequisite)
    (fun o hr _ => Obligation.reconciledPairs_of_kind hr)
  simp only [← mem_castPairs hpl, ← mem_reconciledPairs hpl, ← hca, ← hre]
  simp only [coveredProposals, mem_sortedSet, mem_flatMap, Obligation.mem_covered]
  constructor
  · rintro ⟨o, ho, b, hc | hr⟩
    · exact ⟨b, .inl ⟨o, ho, hc⟩⟩
    · exact ⟨b, .inr ⟨o, ho, hr⟩⟩
  · rintro ⟨b, ⟨o, ho, hc⟩ | ⟨o, ho, hr⟩⟩
    · exact ⟨o, ho, b, .inl hc⟩
    · exact ⟨o, ho, b, .inr hr⟩

variable (hu : UnitsOf c.snapshot c.units) (hba : BallotOf proposalIds c.snapshot.intents c.ballot)
include hu hba

/-- What is left of a rostered choice that is neither covered nor withheld. -/
theorem rostered_done_iff {choice : Nat} (hr : p ∈ proposalIds)
    (hget : c.snapshot.intents.get? p = some (.choice choice)) :
    p ∉ coveredProposals plan ∧ p ∉ plan.withheldCasts ↔ ∀ b ∈ c.snapshot.bundleIndexes,
      PairCondition.confirmed.Holds H c.snapshot plan b p ∨
        PairCondition.ended.Holds H c.snapshot plan b p := by
  have hpair {b : Nat} (hb : b ∈ c.snapshot.bundleIndexes) : (b, p) ∈ c.pairs :=
    (mem_pairs hba).mpr ⟨hb, hr, choice, hget⟩
  rw [covered_iff hpl, hpl.withheld_iff]
  constructor
  · rintro ⟨hc, hw⟩ b hb
    obtain ⟨outcome, hout, hdec⟩ := hpl.decides (hpair hb) hget
    rw [confirmed_iff hpl hu hget hdec, ended_iff hpl hu hget hdec]
    cases outcome with
    | cast choice => exact absurd ⟨b, .inl ⟨hpair hb, choice, hout⟩⟩ hc
    | reconcile u =>
      have hask : c.Asked (.unit u) :=
        .inl ⟨(b, p), hpair hb, by simp [pairWork, hout, PairOutcome.work]⟩
      cases hdec with
      | reconcile _ _ found => exact absurd ⟨b, .inr ⟨u, hask, (unitOf_ok found).2⟩⟩ hc
    | held | blocked | waits => exact absurd ⟨b, _, hpair hb, hout, rfl⟩ hw
    | deliver => exact .inl rfl
    | ended => exact .inr rfl
  · intro hall
    -- a pair that is drafted, reconciled or withheld is in none of the two conditions
    have hno {b : Nat} {outcome : PairOutcome} (hb : b ∈ c.snapshot.bundleIndexes)
        (hdec : c.Decides b p choice outcome) : outcome.condition = .confirmed ∨
          outcome.condition = .ended := by
      rw [← confirmed_iff (H := H) hpl hu hget hdec, ← ended_iff (H := H) hpl hu hget hdec]
      exact hall b hb
    have hpd {b : Nat} {outcome : PairOutcome} (hp : (b, p) ∈ c.pairs)
      (hout : c.outcomeOf (b, p) = some outcome) :
        outcome.condition = .confirmed ∨ outcome.condition = .ended := by
      obtain ⟨_, hget', hdec⟩ := outcomeOf_eq_some hout
      cases hget.symm.trans hget'
      exact hno ((mem_pairs hba).mp hp).1 hdec
    refine ⟨?_, ?_⟩
    · rintro ⟨b, ⟨hp, _, hout⟩ | ⟨u, hask, hhas⟩⟩
      · simpa [PairOutcome.condition] using hpd hp hout
      · obtain ⟨_, row, -⟩ := hu.vote_of_has (hpl.owned u ((hpl.asked _).mpr hask)) hhas
        have hb := c.snapshot.bundle_of_vote row
        obtain ⟨outcome, hout, hdec⟩ := hpl.decides (hpair hb) hget
        have hno := hno hb hdec
        rw [outcome_of_asked hpl hu hget hdec hask hhas] at hno
        simp [PairOutcome.condition] at hno
    · rintro ⟨_, _, hp, hout, hco⟩
      simpa [hco] using hpd hp hout

/-- A choice that left the roster is covered while a vote of it is on the wire, and never withheld. -/
theorem unrostered_done_iff (hr : p ∉ proposalIds) :
    p ∉ coveredProposals plan ∧ p ∉ plan.withheldCasts ↔
    ∀ b vote, c.snapshot.vote? b p = some vote → ofPhase vote.phase ≠ .onWire := by
  have hno {b : Nat} : (b, p) ∉ c.pairs := fun hp => hr ((mem_pairs hba).mp hp).2.1
  rw [covered_iff hpl, hpl.withheld_iff]
  constructor
  · rintro ⟨hc, -⟩ b vote row hpos
    obtain ⟨u, hun, hp⟩ := unitOf_of_vote hu row
    have hask := (hpl.asked_onWire hu hba (hp ▸ hpos)).mpr (unitOf_ok hun).1
    exact hc ⟨b, .inr ⟨u, hask, (unitOf_ok hun).2⟩⟩
  · intro hw
    refine ⟨?_, fun ⟨_, _, hp, _⟩ => hno hp⟩
    rintro ⟨b, ⟨hp, -⟩ | ⟨u, hask, hhas⟩⟩
    · exact hno hp
    · obtain ⟨vote, row, hp⟩ := hu.vote_of_has (hpl.owned u ((hpl.asked _).mpr hask)) hhas
      rcases unit_of_asked hu hask with hpos | ⟨-, ha⟩
      · exact hw b vote row (hp ▸ hpos)
      · have hm := (Bool.and_eq_true_iff.mp (all_eq_true.mp ha p hhas.2)).1
        exact hr ((hba.roster p).mp (contains_iff_mem.mp hm))

end

end Classification

/-- A rostered choice counts as completed exactly if the round has bundles and its vote is
confirmed or ended in each; one that left the roster, if none of its votes is on the wire. -/
theorem completed_choices (h : classifyRound H s proposalIds = .ok plan)
    (hp : p ∈ (forSelectedChoices plan).proposals) :
    (p ∈ proposalIds → (p ∈ (forSelectedChoices plan).completed plan ↔ s.delegations ≠ [] ∧ ∀ b ∈ s.bundleIndexes,
        PairCondition.confirmed.Holds H s plan b p ∨ PairCondition.ended.Holds H s plan b p)) ∧
    (p ∉ proposalIds → (p ∈ (forSelectedChoices plan).completed plan ↔
      ∀ b vote, s.vote? b p = some vote → ofPhase vote.phase ≠ .onWire)) := by
  obtain ⟨⟨_, hget⟩, hs⟩ := selected_ok h hp
  have hc : p ∈ (forSelectedChoices plan).completed plan ↔
      p ∉ coveredProposals plan ∧ p ∉ plan.withheldCasts := by
    simp [completed, hp]
  rw [hc]
  rcases classifyRound_ok h with ⟨he, _⟩ | ⟨_, _, _, _, _, hba, _, hu, hpl⟩
  · obtain ⟨hm, hw⟩ := hs he
    simp [hm, hw, he]
  · refine ⟨fun hm => ?_, unrostered_done_iff hpl hu hba⟩
    have hr := rostered_done_iff (H := H) hpl hu hba hm hget
    rw [hr]
    refine ⟨fun hall => ⟨fun he => ?_, hall⟩, And.right⟩
    exact (hr.mpr hall).2 (hs he).2

theorem completed_choices_confirmed :
    1 ∈ (forSelectedChoices confirmedPlan).completed confirmedPlan := by
  refine ((completed_choices classifyRound_confirmedRound (by decide)).1 (by decide)).mpr
    ⟨by decide, ?_⟩
  intro b hb
  obtain rfl : b = 0 := by simpa [RoundSnapshot.mem_bundleIndexes, confirmedRound, eq_comm] using hb
  exact .inl ⟨_, rfl, rfl⟩

/-- The vote for proposal 1 was rejected in the first of two bundles, and proposal 1 left the roster. -/
def departedRound : RoundSnapshot :=
  { oneVoteRound 1 0 .submissionRejected with
    delegations := [⟨0, .confirmed⟩, ⟨1, .confirmed⟩]
    vote_bundle := by simp [oneVoteRound, bundleRound, KeyedMap.get?_eq_some_iff]
    share_bundle := by simp [oneVoteRound, bundleRound] }

/-- The choice counts as completed although the second bundle has no vote for it. -/
theorem departed_choice_completed : (classifyRound sampleSighash departedRound [2]).map (fun plan =>
      ((forSelectedChoices plan).proposals, (forSelectedChoices plan).completed plan)) =
        .ok ([1, 2], [1]) ∧
    1 ∈ departedRound.bundleIndexes ∧ departedRound.vote? 1 1 = none := by
  decide +kernel

end ZcashVoting.RoundPlanning
