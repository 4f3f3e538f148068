import ZcashVoting.RoundPlanning.Plan

/-!
# Dispatched work

Which votes are stale, retired or holding, and what follows when a round classifies: a
vote the chain lifecycle owns is none of the first two, so its work is planned whatever
the roster says. `PlanOf` is the whole classification inverted, and
`asked_shares`, `asked_onWire` say which dispatched work it contains.
-/
namespace ZcashVoting.RoundPlanning

open ChainSubmission KeyedData List LifecyclePosition PairOutcome

/-! ### The ballot -/

structure BallotOf (proposalIds : List Nat) (intents : KeyedMap Nat Decision)
    (ballot : BallotIntentClassification) : Prop where
  roster : ∀ p, p ∈ ballot.roster ↔ p ∈ proposalIds
  distinct : ballot.roster.Nodup
  choice : ballot.choiceProposals = ballot.roster.filter fun p => isChoice (intents.get? p)
  undecided : ballot.openProposals = ballot.roster.filter fun p => (intents.get? p).isNone

variable {proposalIds : List Nat}

theorem enrol_ok {listed : List Nat} (h : proposalIds.foldlM enrol [] = .ok listed) :
    ∀ p, p ∈ listed ↔ p ∈ proposalIds := by
  refine foldlM_ok_induction (fun seen listed => ∀ p, p ∈ listed ↔ p ∈ seen) h (by simp) ?_
  rintro seen q _ listed _ - hmem hs p
  obtain ⟨-, -, hs⟩ := bind_ok hs
  obtain ⟨-, hs⟩ := guard_ok hs
  cases hs
  simp [hmem, or_comm]

theorem classifyBallotIntents_ok {intents : KeyedMap Nat Decision}
    {ballot : BallotIntentClassification}
    (h : classifyBallotIntents proposalIds intents = .ok ballot) :
    BallotOf proposalIds intents ballot := by
  obtain ⟨_, hli, h⟩ := bind_ok h
  cases h
  exact ⟨fun p => by simp [enrol_ok hli], nodup_sortedSet _, rfl, rfl⟩

namespace Classification

variable {c : Classification} {b p choice : Nat} {u : VoteUnit} {vote : VoteSnapshot}
  {key : VoteKey} {plan : RoundObligations}

/-! ### Stale, retired and held -/

theorem mem_staleVoteKeys : key ∈ c.staleVoteKeys ↔ ∃ vote, c.snapshot.votes.get? key = some vote ∧
    ballotRelation c.snapshot.intents key.proposalId vote.choice = .conflicts := by
  simp only [staleVoteKeys, isStale, mem_map, mem_filter, Prod.exists, exists_and_right,
    exists_eq_right, decide_eq_true_eq, KeyedMap.get?_eq_some_iff]

theorem mem_retirableVoteKeys : key ∈ c.retirableVoteKeys ↔
    ∃ unit ∈ c.units, c.isRetired unit = true ∧ unit.Has key.bundleIndex key.proposalId := by
  simp only [retirableVoteKeys, retiredUnits, mem_flatMap, mem_filter, mem_map, and_assoc]
  refine exists_congr fun unit => and_congr_right fun _ => and_congr_right fun _ => ?_
  constructor
  · rintro ⟨_, hp, rfl⟩
    exact ⟨rfl, hp⟩
  · rintro ⟨hb, hp⟩
    exact ⟨key.proposalId, hp, by rw [hb]⟩

theorem undispatched_of_retirable (hu : UnitsOf c.snapshot c.units)
    (hkey : ⟨b, p⟩ ∈ c.retirableVoteKeys) (row : c.snapshot.vote? b p = some vote) :
    ofPhase vote.phase = .undispatched := by
  obtain ⟨_, hmem, hret, hhas⟩ := mem_retirableVoteKeys.mp hkey
  obtain ⟨_, row', hph⟩ := hu.vote_of_has hmem hhas
  rw [row] at row'
  cases row'
  rw [hph]
  simp only [isRetired, Bool.and_eq_true, decide_eq_true_eq] at hret
  exact hret.1

theorem mem_heldBundles : b ∈ c.heldBundles ↔
    (∃ p vote, c.snapshot.vote? b p = some vote ∧ c.holds ⟨b, p⟩ vote = true) ∨
    (∃ phase, c.snapshot.delegationPhase b = some phase ∧ delegationPhaseHoldsBundle phase = true ∧
      b ∈ c.snapshot.bundleIndexes) ∨ b ∈ c.snapshot.rejectionBlockedBundles := by
  simp only [heldBundles, mem_append, mem_map, mem_filter, Prod.exists, or_assoc,
    RoundSnapshot.vote?, KeyedMap.get?_eq_some_iff]
  refine or_congr ?_ (or_congr_left ?_)
  · constructor
    · rintro ⟨key, vote, ⟨hmem, hh⟩, rfl⟩
      exact ⟨key.proposalId, vote, hmem, hh⟩
    · rintro ⟨p, vote, hmem, hh⟩
      exact ⟨⟨b, p⟩, vote, ⟨hmem, hh⟩, rfl⟩
  · rw [and_comm, Option.any_eq_true]
    constructor
    · rintro ⟨⟨phase, hp, hh⟩, hb⟩
      exact ⟨phase, hp, hh, hb⟩
    · rintro ⟨phase, hp, hh, hb⟩
      exact ⟨⟨phase, hp, hh⟩, hb⟩

/-- When no conflict is reported, a vote the lifecycle owns is not stale. -/
theorem not_stale_of_owned (hc : c.conflictingKey = none)
    (row : c.snapshot.votes.get? key = some vote)
    (hown : votePhaseIsLifecycleOwned vote.phase = true) : key ∉ c.staleVoteKeys := by
  intro hst
  simp only [conflictingKey, List.find?_eq_none] at hc
  exact hc key hst (by simp [row, hown])

theorem not_retirable_of_owned (hu : UnitsOf c.snapshot c.units)
    (row : c.snapshot.vote? b p = some vote)
    (hown : votePhaseIsLifecycleOwned vote.phase = true) : ⟨b, p⟩ ∉ c.retirableVoteKeys := by
  intro hret
  have hpos := undispatched_of_retirable hu hret row
  simp [votePhaseIsLifecycleOwned, hpos, isLifecycleOwned] at hown

/-- The stored choice of a vote that is not stale is the one the ballot records. -/
theorem choice_of_not_stale (row : c.snapshot.vote? b p = some vote)
    (hst : ⟨b, p⟩ ∉ c.staleVoteKeys)
    (hget : c.snapshot.intents.get? p = some (.choice choice)) : vote.choice = choice := by
  by_contra hne
  refine hst (mem_staleVoteKeys.mpr ⟨vote, row, ?_⟩)
  simp only [ballotRelation, hget]
  rw [if_neg (fun h => hne h.symm)]

theorem not_due_of_owned (hu : UnitsOf c.snapshot c.units) (hcl : c.conflictingKey = none)
    (row : c.snapshot.vote? b p = some vote) (ho : votePhaseIsLifecycleOwned vote.phase = true)
    (hget : c.snapshot.intents.get? p = some (.choice choice)) : c.castDue b p choice = false := by
  have hs := not_stale_of_owned hcl row ho
  have hret := not_retirable_of_owned hu row ho
  have hch := choice_of_not_stale row hs hget
  have hun : ofPhase vote.phase ≠ .uncast := by
    intro hpos
    simp [votePhaseIsLifecycleOwned, hpos, isLifecycleOwned] at ho
  simp [castDue, row, hs, hret, hch, hun]

/-! ### The classification inverted -/

/-- Some pass asks for the work. -/
def Asked (c : Classification) (w : Work) : Prop :=
  (∃ pair ∈ c.pairs, w ∈ c.pairWork pair) ∨ ∃ entry ∈ c.snapshot.votes.entries, w ∈ c.voteWork entry

/-- The plan, by what its passes left: the work done, the records of the first loop and
the delegation obligations. -/
structure PlanOf (c : Classification) (done : List Work) (st : Passes)
    (delegations : List Obligation) (plan : RoundObligations) : Prop where
  clear : c.conflictingKey = none
  distinct : done.Nodup
  asked : ∀ w, w ∈ done ↔ c.Asked w
  owned : ∀ unit, .unit unit ∈ done → unit ∈ c.units
  owed : ∀ key, .shares key ∈ done →
    ∃ owed, deliverObligation c.snapshot key.bundleIndex key.proposalId = .ok owed
  signed : ∀ unit, .unit unit ∈ done → unit.phase = .submitted → ∀ member ∈ unit.members,
    member.recovery.isSome = true
  recorded : c.Recorded c.pairs st
  delegated : c.delegationObligations st.bundlesNeedingDelegation = .ok delegations
  obligations : plan.obligations =
    (c.retirements ++ done.flatMap (Work.obligations c.snapshot) ++ c.casts st ++ c.blocks st ++
      delegations ++ c.confirms).map
      (Obligation.withPrerequisite (delegations.filterMap delegationBundle))
  stale : plan.staleVoteKeys = c.staleVoteKeys
  withheld : plan.withheldCasts = sortedSet st.withheldCasts
  undecided : plan.openProposals = c.ballot.openProposals
  unrostered : plan.unrosteredIntents = c.unrosteredIntents

theorem classify_ok (hu : UnitsOf c.snapshot c.units)
    (h : c.classify = .ok plan) : ∃ done st delegations, c.PlanOf done st delegations plan := by
  unfold classify at h
  split at h
  · cases h
  rename_i hcl
  obtain ⟨st, hpa, h⟩ := bind_ok h
  obtain ⟨_, hvo, h⟩ := bind_ok h
  obtain ⟨delegations, hdel, h⟩ := bind_ok h
  cases h
  obtain ⟨⟨_, hP, hst⟩, hR⟩ := pairs_ok hu hpa
  obtain ⟨done, hP', hdo⟩ := votes_ok hu hP hvo
  refine ⟨done, st, delegations, hcl, hP'.distinct, fun w =>
    ?_, hP'.owned, hP'.owed, hP'.signed, hR,
    hdel, ?_, rfl, rfl, rfl, rfl⟩
  · rw [hdo, hst]
    rfl
  · rw [hP'.obligations]

/-! ### Dispatched work is planned whatever the roster -/

section

variable {proposalIds : List Nat} {done : List Work} {st : Passes} {delegations : List Obligation}
  {plan : RoundObligations}

theorem mem_pairs (hba : BallotOf proposalIds c.snapshot.intents c.ballot) :
    (b, p) ∈ c.pairs ↔ b ∈ c.snapshot.bundleIndexes ∧ p ∈ proposalIds ∧
      ∃ choice, c.snapshot.intents.get? p = some (.choice choice) := by
  have hch : isChoice (c.snapshot.intents.get? p) = true ↔
      ∃ choice, c.snapshot.intents.get? p = some (.choice choice) := by
    unfold isChoice
    split <;> simp_all
  simp only [pairs, mem_flatMap, mem_map, Prod.mk.injEq, hba.choice, mem_filter, hba.roster]
  constructor
  · rintro ⟨_, ⟨hq, hc⟩, _, hb', rfl, rfl⟩
    exact ⟨hb', hq, hch.mp hc⟩
  · rintro ⟨hb, hp, hc⟩
    exact ⟨p, ⟨hp, hch.mpr hc⟩, b, hb, rfl, rfl⟩

theorem PlanOf.decides (hpl : c.PlanOf done st delegations plan)
    (hpa : (b, p) ∈ c.pairs) (hget : c.snapshot.intents.get? p = some (.choice choice)) :
    ∃ outcome, c.outcomeOf (b, p) = some outcome ∧ c.Decides b p choice outcome := by
  obtain ⟨outcome, hout⟩ := hpl.recorded.decided (b, p) hpa choice hget
  obtain ⟨_, hget', hdec⟩ := outcomeOf_eq_some hout
  rw [hget] at hget'
  cases hget'
  exact ⟨outcome, hout, hdec⟩

/-- A vote that the first loop does not visit is visited by the on-wire pass, or stale. -/
theorem visited_of_row (hb : BallotOf proposalIds c.snapshot.intents c.ballot)
    (row : c.snapshot.vote? b p = some vote) (hst : ⟨b, p⟩ ∉ c.staleVoteKeys) :
    (b, p) ∈ c.pairs ∨ (c.snapshot.intents.contains p && c.ballot.roster.contains p) = false := by
  by_cases hs : (c.snapshot.intents.contains p && c.ballot.roster.contains p) = true
  · left
    simp only [Bool.and_eq_true, KeyedMap.contains, Option.isSome_iff_exists, contains_iff_mem,
      hb.roster] at hs
    obtain ⟨⟨decision, hget⟩, hro⟩ := hs
    refine (mem_pairs hb).mpr ⟨c.snapshot.bundle_of_vote row, hro, ?_⟩
    cases decision with
    | choice choice => exact ⟨choice, hget⟩
    | skipped =>
        exact absurd (mem_staleVoteKeys.mpr ⟨vote, row, by simp [ballotRelation, hget]⟩) hst
  · exact .inr (by simpa using hs)

/-- The decision where no cast is due, by the position of the vote. -/
theorem Decides.live {outcome : PairOutcome} (hdec : c.Decides b p choice outcome)
    (hli : c.castDue b p choice = false) (row : c.snapshot.vote? b p = some vote) :
    (ofPhase vote.phase = .confirmed ∧ outcome = .deliver) ∨
    (ofPhase vote.phase = .terminal ∧ outcome = .ended) ∨ ∃ unit, c.unitOf b p = .ok unit ∧
      ((ofPhase vote.phase = .onWire ∧ outcome = .reconcile unit) ∨
          (ofPhase vote.phase = .undispatched ∧
          outcome = if c.everyMemberAgrees b unit then .reconcile unit else .waits)) := by
  have hs {other : VoteSnapshot} (row' : c.snapshot.vote? b p = some other) : other = vote :=
    Option.some.inj (row'.symm.trans row)
  cases hdec with
  | held due | blocked due | cast due =>
    rw [hli] at due
    cases due
  | deliver _ row' position =>
    rw [hs row'] at position
    exact .inl ⟨position, rfl⟩
  | ended _ row' position =>
    rw [hs row'] at position
    exact .inr (.inl ⟨position, rfl⟩)
  | reconcile _ row' found position =>
    rw [hs row'] at position
    refine .inr (.inr ⟨_, found, ?_⟩)
    rcases position with hpos | ⟨hpos, hag⟩
    · exact .inl ⟨hpos, rfl⟩
    · exact .inr ⟨hpos, by rw [if_pos hag]⟩
  | waits _ row' found position disagrees =>
    rw [hs row'] at position
    exact .inr (.inr ⟨_, found, .inr ⟨position, by rw [if_neg (by simp [disagrees])]⟩⟩)

theorem owned_of_position {phase : VotePhase}
    (h : ofPhase phase = .onWire ∨ ofPhase phase = .confirmed) :
    votePhaseIsLifecycleOwned phase = true := by
  rcases h with h | h <;> simp [votePhaseIsLifecycleOwned, h, isLifecycleOwned]

/-- The shares asked for are those of the confirmed votes. -/
theorem PlanOf.asked_shares (hpl : c.PlanOf done st delegations plan)
    (hu : UnitsOf c.snapshot c.units) (hb : BallotOf proposalIds c.snapshot.intents c.ballot) :
    c.Asked (.shares ⟨b, p⟩) ↔ ∃ vote, c.snapshot.vote? b p = some vote ∧
      ofPhase vote.phase = .confirmed := by
  constructor
  · rintro (⟨⟨b', p'⟩, -, hw⟩ | ⟨⟨key, vote⟩, hmem, hw⟩)
    · obtain ⟨outcome, hout, hw⟩ : ∃ outcome, c.outcomeOf (b', p') = some outcome ∧
          Work.shares ⟨b, p⟩ ∈ outcome.work b' p' := by
        cases hout : c.outcomeOf (b', p') with
        | none => simp [pairWork, hout] at hw
        | some outcome => exact ⟨outcome, rfl, by simpa [pairWork, hout] using hw⟩
      obtain ⟨choice, -, hdec⟩ := outcomeOf_eq_some hout
      cases hdec with
      | deliver _ row position =>
        obtain ⟨rfl, rfl⟩ : b = b' ∧ p = p' := by simpa [work] using hw
        exact ⟨_, row, position⟩
      | held | blocked | cast | reconcile | waits | ended => simp [work] at hw
    · unfold voteWork at hw
      split at hw
      · simp at hw
      split at hw
      · simp at hw
      · rename_i hpos
        obtain rfl : key = ⟨b, p⟩ := by simpa [eq_comm] using hw
        exact ⟨vote, KeyedMap.get?_of_mem_entries hmem, hpos⟩
      · simp at hw
  · rintro ⟨vote, row, hpos⟩
    have ho := owned_of_position (.inr hpos)
    rcases visited_of_row hb row (not_stale_of_owned hpl.clear row ho) with hp | hsk
    · obtain ⟨-, -, _, hget⟩ := (mem_pairs hb).mp hp
      obtain ⟨outcome, hout, hdec⟩ := hpl.decides hp hget
      have hli := not_due_of_owned hu hpl.clear row ho hget
      have hou : outcome = .deliver := by simpa [hpos] using hdec.live hli row
      exact .inl ⟨(b, p), hp, by simp [pairWork, hout, hou, work]⟩
    · refine .inr ⟨(⟨b, p⟩, vote), KeyedMap.mem_entries_of_get? row, ?_⟩
      simp only [voteWork, hsk, hpos]
      simp

/-- A unit asked for is on the wire, or undispatched and agreed on by the whole ballot. -/
theorem unit_of_asked (hu : UnitsOf c.snapshot c.units) (hask : c.Asked (.unit u)) :
    ofPhase u.phase = .onWire ∨ ofPhase u.phase = .undispatched ∧
      c.everyMemberAgrees u.bundleIndex u = true := by
  have hp {b p : Nat} {vote : VoteSnapshot} (row : c.snapshot.vote? b p = some vote)
      (found : c.unitOf b p = .ok u) : vote.phase = u.phase := by
    obtain ⟨_, row', hp⟩ := hu.vote_of_has (unitOf_ok found).1 (unitOf_ok found).2
    rw [row] at row'
    cases row'
    exact hp
  rcases hask with ⟨⟨b, p⟩, -, hw⟩ | ⟨⟨key, _⟩, hmem, hw⟩
  · cases hout : c.outcomeOf (b, p) with
    | none => simp [pairWork, hout] at hw
    | some =>
      obtain ⟨_, -, hdec⟩ := outcomeOf_eq_some hout
      cases hdec with
      | @reconcile _ unit _ row found position =>
        have hun : unit = u := by simpa [pairWork, hout, work, eq_comm] using hw
        subst hun
        rw [hp row found] at position
        rcases position with hpos | ⟨hpos, hag⟩
        · exact .inl hpos
        · exact .inr ⟨hpos, by rw [(unitOf_ok found).2.1]; exact hag⟩
      | held | blocked | cast | deliver | waits | ended =>
        simp [pairWork, hout, work] at hw
  · unfold voteWork at hw
    split at hw
    · simp at hw
    split at hw
    · rename_i hpos
      cases hf : c.unitOf key.bundleIndex key.proposalId with
      | error => simp [hf, Except.toOption] at hw
      | ok unit =>
        have hun : unit = u := by simpa [hf, Except.toOption, eq_comm] using hw
        rw [hun] at hf
        rw [hp (KeyedMap.get?_of_mem_entries hmem) hf] at hpos
        exact .inl hpos
    · simp at hw
    · simp at hw

/-- The units on the wire are all asked for. -/
theorem PlanOf.asked_onWire (hp : c.PlanOf done st delegations plan)
    (hu : UnitsOf c.snapshot c.units) (hb : BallotOf proposalIds c.snapshot.intents c.ballot)
    (hpos : ofPhase u.phase = .onWire) : c.Asked (.unit u) ↔ u ∈ c.units := by
  constructor
  · intro hask
    exact hp.owned u ((hp.asked _).mpr hask)
  intro hmem
  obtain ⟨p, hhas⟩ := hu.exists_has hmem
  obtain ⟨vote, row, hph⟩ := hu.vote_of_has hmem hhas
  obtain ⟨_, hun, -⟩ := unitOf_of_vote hu row
  obtain rfl := hu.eq_of_has hmem (unitOf_ok hun).1 hhas (unitOf_ok hun).2
  rw [← hph] at hpos
  have ho := owned_of_position (.inl hpos)
  rcases visited_of_row hb row (not_stale_of_owned hp.clear row ho) with hpa | hsk
  · obtain ⟨-, -, _, hget⟩ := (mem_pairs hb).mp hpa
    obtain ⟨outcome, hout, hdec⟩ := hp.decides hpa hget
    have hli := not_due_of_owned hu hp.clear row ho hget
    have hou : outcome = .reconcile u := by simpa [hpos, hun] using hdec.live hli row
    exact .inl ⟨_, hpa, by simp [pairWork, hout, hou, work]⟩
  · refine .inr ⟨(⟨u.bundleIndex, p⟩, vote), KeyedMap.mem_entries_of_get? row, ?_⟩
    simp only [voteWork, hsk, hpos, hun, Except.toOption]
    simp

end

/-! ### Where an obligation of the plan comes from -/

section

variable {done : List Work} {st : Passes} {delegations : List Obligation} {plan : RoundObligations}
  {o : Obligation} {needing : List Nat}

theorem kind_retirements (h : o ∈ c.retirements) : o.kind = .retire := by
  obtain ⟨_, -, rfl⟩ := mem_map.mp h
  rfl

theorem kind_casts (h : o ∈ c.casts st) : o.kind = .cast := by
  obtain ⟨_, -, rfl⟩ := mem_map.mp h
  rfl

theorem kind_blocks (h : o ∈ c.blocks st) : o.kind = .blocked := by
  obtain ⟨_, -, rfl⟩ := mem_map.mp h
  rfl

theorem kind_confirms (h : o ∈ c.confirms) : o.kind = .confirm := by
  obtain ⟨_, -, rfl⟩ := mem_map.mp h
  rfl

/-- What the delegation pass plans for one bundle. -/
theorem delegationStep_ok {os : List Obligation} (h : c.delegationStep needing b = .ok os)
    (ho : o ∈ os) :
    (o = .delegate b ∧ b ∈ needing ∧ c.isCombined b = false ∧
      (c.snapshot.delegationPhase b = some .prepared ∨
        c.snapshot.delegationPhase b = some .pcztBuilt)) ∨
    ∃ imported phase, o = .advanceDelegation b imported phase (c.snapshot.delegationTxHash b) ∧
      c.isCombined b = false ∧ c.snapshot.delegationPhase b = some phase ∧
      (phase = .submitted ∨ phase = .submissionManaged) := by
  unfold delegationStep at h
  split at h
  · cases h
    simp at ho
  rename_i hc
  have ha (phase : DelegationPhase) (hadv : delegationStep.advance c b phase = .ok os) :
      ∃ imported, o = .advanceDelegation b imported phase (c.snapshot.delegationTxHash b) := by
    unfold delegationStep.advance at hadv
    split at hadv
    · cases hadv
    · cases hadv
      exact ⟨_, by simpa using ho⟩
  have hd (hok : (Except.ok (if needing.contains b then [Obligation.delegate b] else []) :
      Except VotingError (List Obligation)) = .ok os) : o = .delegate b ∧ b ∈ needing := by
    cases hok
    split at ho
    · rename_i hn
      exact ⟨by simpa using ho, by simpa using hn⟩
    · simp at ho
  split at h
  · rename_i hp
    obtain ⟨imported, rfl⟩ := ha _ h
    exact .inr ⟨imported, _, rfl, by simpa using hc, hp, .inl rfl⟩
  · rename_i hp
    obtain ⟨imported, rfl⟩ := ha _ h
    exact .inr ⟨imported, _, rfl, by simpa using hc, hp, .inr rfl⟩
  · rename_i hp
    obtain ⟨rfl, hn⟩ := hd h
    exact .inl ⟨rfl, hn, by simpa using hc, .inl hp⟩
  · rename_i hp
    obtain ⟨rfl, hn⟩ := hd h
    exact .inl ⟨rfl, hn, by simpa using hc, .inr hp⟩
  · cases h
    simp at ho

theorem mem_delegations (h : c.delegationObligations needing = .ok delegations)
    (ho : o ∈ delegations) :
    ∃ b ∈ c.snapshot.bundleIndexes, ∃ os, c.delegationStep needing b = .ok os ∧ o ∈ os := by
  obtain ⟨_, hst, h⟩ := bind_ok h
  cases h
  obtain ⟨os, hos, ho⟩ := mem_flatten.mp ho
  obtain ⟨b, hb, hste⟩ := mem_mapM_ok hst hos
  exact ⟨b, hb, os, hste, ho⟩

theorem PlanOf.kind_delegations (hpl : c.PlanOf done st delegations plan) (h : o ∈ delegations) :
    o.kind = .delegate ∨ o.kind = .advanceDelegation := by
  obtain ⟨_, -, _, hst, ho⟩ := mem_delegations hpl.delegated h
  rcases delegationStep_ok hst ho with ⟨rfl, -⟩ | ⟨_, _, rfl, -⟩
  · exact .inl rfl
  · exact .inr rfl

/-- The pass that plans an obligation of this kind plans `o`. -/
def PlannedBy (c : Classification) (done : List Work) (st : Passes) (delegations : List Obligation)
    (o : Obligation) : Obligation.Kind → Prop
  | .retire => o ∈ c.retirements
  | .reconcileChain => ∃ w ∈ done, o ∈ w.obligations c.snapshot
  | .deliver => ∃ w ∈ done, o ∈ w.obligations c.snapshot
  | .cast => o ∈ c.casts st
  | .blocked => o ∈ c.blocks st
  | .delegate => o ∈ delegations
  | .advanceDelegation => o ∈ delegations
  | .confirm => o ∈ c.confirms

theorem PlanOf.mem_obligations (hp : c.PlanOf done st delegations plan) :
    o ∈ plan.obligations ↔ ∃ planned,
      planned.withPrerequisite (delegations.filterMap delegationBundle) = o ∧
      planned.kind = o.kind ∧ c.PlannedBy done st delegations planned o.kind := by
  rw [hp.obligations]
  simp only [mem_map, mem_append, mem_flatMap, or_assoc]
  constructor
  · rintro ⟨planned, hf, rfl⟩
    refine ⟨planned, rfl, (Obligation.kind_withPrerequisite _ _).symm, ?_⟩
    rw [Obligation.kind_withPrerequisite]
    rcases hf with h | h | h | h | h | h
    · rw [kind_retirements h]
      exact h
    · obtain ⟨_, -, how⟩ := id h
      rcases Work.kind_obligations how with hk | hk
      · rw [hk]
        exact h
      · rw [hk]
        exact h
    · rw [kind_casts h]
      exact h
    · rw [kind_blocks h]
      exact h
    · rcases hp.kind_delegations h with hk | hk
      · rw [hk]
        exact h
      · rw [hk]
        exact h
    · rw [kind_confirms h]
      exact h
  · rintro ⟨planned, rfl, -, hf⟩
    refine ⟨planned, ?_, rfl⟩
    cases hk : (planned.withPrerequisite (delegations.filterMap delegationBundle)).kind <;>
      rw [hk] at hf
    case retire => exact .inl hf
    case reconcileChain | deliver => exact .inr (.inl hf)
    case cast => exact .inr (.inr (.inl hf))
    case blocked => exact .inr (.inr (.inr (.inl hf)))
    case delegate | advanceDelegation => exact .inr (.inr (.inr (.inr (.inl hf))))
    case confirm => exact .inr (.inr (.inr (.inr (.inr hf))))

theorem delegationBundle_mem (h : c.delegationObligations needing = .ok delegations) :
    b ∈ delegations.filterMap delegationBundle ↔ .delegate b ∈ delegations ∨
      b ∈ c.snapshot.bundleIndexes ∧ c.isCombined b = false ∧
        (c.snapshot.delegationPhase b = some .submitted ∨
          c.snapshot.delegationPhase b = some .submissionManaged) := by
  constructor
  · intro hmem
    obtain ⟨o, ho, hb⟩ := mem_filterMap.mp hmem
    obtain ⟨_, hb', os, hs, ho'⟩ := mem_delegations h ho
    rcases delegationStep_ok hs ho' with ⟨rfl, -⟩ | ⟨_, phase, rfl, hc, hp, hwh⟩
    · cases hb
      exact .inl ho
    cases hb
    refine .inr ⟨hb', hc, ?_⟩
    rw [hp]
    rcases hwh with rfl | rfl
    · exact .inl rfl
    · exact .inr rfl
  · rintro (hmem | ⟨hb, hc, hp⟩)
    · exact mem_filterMap.mpr ⟨_, hmem, rfl⟩
    obtain ⟨_, hst, h⟩ := bind_ok h
    cases h
    obtain ⟨os, hos, hs⟩ := mapM_ok_of_mem hst hb
    obtain ⟨o, ho, hbu⟩ : ∃ o ∈ os, delegationBundle o = some b := by
      unfold delegationStep at hs
      rw [if_neg (by simp [hc])] at hs
      have ha (phase : DelegationPhase) (hadv : delegationStep.advance c b phase = .ok os) :
          ∃ o ∈ os, delegationBundle o = some b := by
        unfold delegationStep.advance at hadv
        split at hadv
        · cases hadv
        · cases hadv
          exact ⟨_, mem_singleton_self _, rfl⟩
      rcases hp with hp | hp
      · rw [hp] at hs
        exact ha _ hs
      · rw [hp] at hs
        exact ha _ hs
    exact mem_filterMap.mpr ⟨o, mem_flatten.mpr ⟨os, hos, ho⟩, hbu⟩

/-! ### Held bundles are neither cast nor delegated -/

theorem PlanOf.free_of_needing (hpl : c.PlanOf done st delegations plan)
    (hb : b ∈ st.bundlesNeedingDelegation) : b ∉ c.heldBundles := by
  rw [hpl.recorded.needing, mem_reverse, mem_filterMap] at hb
  obtain ⟨⟨_, _⟩, -, hn⟩ := hb
  simp only [noted, Option.bind_eq_some_iff] at hn
  obtain ⟨_, hout, hdel⟩ := hn
  obtain ⟨_, -, hdec⟩ := outcomeOf_eq_some hout
  cases hdec with
  | blocked _ free | cast _ free =>
    cases hdel
    exact free
  | held | deliver | reconcile | waits | ended => cases hdel

theorem PlanOf.free_of_delegate (hp : c.PlanOf done st delegations plan)
    (hmem : .delegate b ∈ delegations) : b ∉ c.heldBundles := by
  obtain ⟨_, -, _, hst, ho⟩ := mem_delegations hp.delegated hmem
  rcases delegationStep_ok hst ho with ⟨heq, hne, -⟩ | ⟨_, _, heq, -⟩
  · cases heq
    exact hp.free_of_needing hne
  · cases heq

theorem held_of_unresolved (hu : UnitsOf c.snapshot c.units) (hcl : c.conflictingKey = none)
    (row : c.snapshot.vote? b p = some vote)
    (hp : vote.phase = .submitted ∨ vote.phase = .submissionManaged ∨
      vote.phase = .submittedWithoutHash) : b ∈ c.heldBundles := by
  have ho : votePhaseIsLifecycleOwned vote.phase = true := by
    rcases hp with h | h | h <;> rw [h] <;> rfl
  have hho : votePhaseHoldsBundle vote.phase = true := by
    rcases hp with h | h | h <;> rw [h] <;> rfl
  have hst := not_stale_of_owned hcl row ho
  have hret := not_retirable_of_owned hu row ho
  exact mem_heldBundles.mpr (.inl ⟨p, vote, row, by simp [holds, hst, hret, hho]⟩)

end

end Classification

/-- A classified round: a round without bundles whose ballot has a choice, or a plan. -/
theorem classifyRound_ok {H : BatchSighash} {s : RoundSnapshot}
    (h : classifyRound H s proposalIds = .ok plan) :
    (s.delegations = [] ∧ plan.obligations = []) ∨
    ∃ ballot units done st delegations, BallotOf proposalIds s.intents ballot ∧
      groupVoteUnits H s = .ok units ∧ UnitsOf s units ∧
      Classification.PlanOf ⟨s, units, ballot⟩ done st delegations plan := by
  obtain ⟨ballot, hba, h⟩ := bind_ok h
  split at h
  · rename_i hs
    cases h
    simp only [Bool.and_eq_true, List.isEmpty_iff] at hs
    exact .inl ⟨hs.2, rfl⟩
  · obtain ⟨units, hun, h⟩ := bind_ok h
    have hu := groupVoteUnits_ok hun
    obtain ⟨done, st, delegations, hpl⟩ := Classification.classify_ok hu h
    exact .inr ⟨ballot, units, done, st, delegations, classifyBallotIntents_ok hba, hun, hu, hpl⟩

end ZcashVoting.RoundPlanning
