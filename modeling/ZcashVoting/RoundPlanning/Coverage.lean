import ZcashVoting.RoundPlanning.Dispatch

/-!
# Every chosen vote has one place in the plan

For a bundle and a rostered proposal with a chosen option the plan says exactly one
thing: it casts the vote, it reconciles the unit of the vote, it withholds the cast, or
the vote has ended or is confirmed. A confirmed vote owes the shares no helper row
records, and the plan delivers those.
-/
namespace ZcashVoting.RoundPlanning

open ChainSubmission KeyedData List Obligation LifecyclePosition

/-! ### What a plan says of a pair -/

def VoteUnitId.bundleIndex : VoteUnitId → Nat
  | .singleton b _ => b
  | .batch b _ => b

namespace Obligation

/-- The votes a cast drafts. -/
def castPairs : Obligation → List (Nat × Nat)
  | .cast b drafts _ _ => drafts.map fun draft => (b, draft.proposalId)
  | _ => []

/-- The votes of the unit a chain reconciliation drives. -/
def reconciledPairs : Obligation → List (Nat × Nat)
  | .reconcileChain _ b ids _ _ _ => ids.map fun p => (b, p)
  | _ => []

/-- The shares a delivery of the vote names. -/
def deliveredShares (b p : Nat) : Obligation → List Nat
  | .deliver b' p' _ shares _ => if b' = b ∧ p' = p then shares else []
  | _ => []

end Obligation

namespace RoundObligations

variable (plan : RoundObligations) (b p : Nat)

/-- How many cast drafts name the vote. -/
def castDrafts : Nat := (plan.obligations.flatMap Obligation.castPairs).count (b, p)

/-- How many reconciled units have the vote as a member. -/
def reconciledUnits : Nat := (plan.obligations.flatMap Obligation.reconciledPairs).count (b, p)

def deliveredShares : List Nat := plan.obligations.flatMap (Obligation.deliveredShares b p)

def Retires : Prop := ∃ unit members, .retire unit members ∈ plan.obligations ∧
    unit.bundleIndex = b ∧ p ∈ members

def Blocks : Prop := ∃ reason, .blocked b reason ∈ plan.obligations

end RoundObligations

/-- A cast of the vote is due: there is no row, or it is unsigned, stale or retired. -/
def CastOwed (s : RoundSnapshot) (plan : RoundObligations) (b p : Nat) : Prop :=
  s.vote? b p = none ∨ ∃ vote, s.vote? b p = some vote ∧
    (vote.phase = .prepared ∨ ⟨b, p⟩ ∈ plan.staleVoteKeys ∨ plan.Retires b p)

/-- A live vote, the delegation or repeated rejections reserve the bundle. -/
def BundleHeld (s : RoundSnapshot) (plan : RoundObligations) (b : Nat) : Prop :=
  (∃ q vote, s.vote? b q = some vote ∧ votePhaseHoldsBundle vote.phase = true ∧
    ⟨b, q⟩ ∉ plan.staleVoteKeys ∧ ¬plan.Retires b q) ∨
  (∃ phase, s.delegationPhase b = some phase ∧ delegationPhaseHoldsBundle phase = true) ∨
  b ∈ s.rejectionBlockedBundles

/-- The vote is signed, in a unit of which another member is undecided. -/
def AwaitsBallot (H : BatchSighash) (s : RoundSnapshot) (plan : RoundObligations)
    (b p : Nat) : Prop :=
  ∃ units unit q, groupVoteUnits H s = .ok units ∧ unit ∈ units ∧ unit.Has b p ∧
    unit.phase = .committed ∧ q ∈ unit.proposalIds ∧ q ∈ plan.openProposals

inductive PairCondition where
  | cast
  | reconciled
  | withheld
  | ended
  | confirmed
  deriving DecidableEq

/-- The condition the decision of the first loop leads to. -/
def PairOutcome.condition : PairOutcome → PairCondition
  | .held => .withheld
  | .blocked => .withheld
  | .waits => .withheld
  | .cast _ => .cast
  | .reconcile _ => .reconciled
  | .ended => .ended
  | .deliver => .confirmed

/-- What each condition says of the plan and the vote. -/
def PairCondition.Holds (H : BatchSighash) (s : RoundSnapshot) (plan : RoundObligations)
    (b p : Nat) :
    PairCondition → Prop
  | cast => plan.castDrafts b p = 1
  | reconciled => plan.reconciledUnits b p = 1
  | withheld => p ∈ plan.withheldCasts ∧
      (CastOwed s plan b p ∧ (plan.Blocks b ∨ BundleHeld s plan b) ∨ AwaitsBallot H s plan b p)
  | ended => ∃ vote, s.vote? b p = some vote ∧ (vote.phase = .submissionRejected ∨
      vote.phase = .submittedWithoutHash)
  | confirmed => ∃ vote, s.vote? b p = some vote ∧ vote.phase = .confirmed

/-- The deliveries of the vote name each share without a helper row, once. -/
def DeliversMissing (s : RoundSnapshot) (plan : RoundObligations) (b p : Nat) : Prop :=
  ∃ vote recovery, s.vote? b p = some vote ∧ vote.recovery = some recovery ∧
    (plan.deliveredShares b p).Nodup ∧
    ∀ i, i ∈ plan.deliveredShares b p ↔ i ∈ recovery.sentShares ∧
      ∀ row ∈ s.sharePhases, ¬(row.bundleIndex = b ∧ row.proposalId = p ∧ row.shareIndex = i)

/-! ### The obligations of each pass -/

section

variable {o : Obligation} {bundles : List Nat} {b p : Nat}

namespace Obligation

@[simp] theorem castPairs_withPrerequisite :
    (o.withPrerequisite bundles).castPairs = o.castPairs := by
  cases o <;> rfl

@[simp] theorem reconciledPairs_withPrerequisite :
    (o.withPrerequisite bundles).reconciledPairs = o.reconciledPairs := by
  cases o <;> rfl

@[simp] theorem deliveredShares_withPrerequisite :
    (o.withPrerequisite bundles).deliveredShares b p = o.deliveredShares b p := by
  cases o <;> rfl

theorem castPairs_of_kind (h : o.kind ≠ .cast) : o.castPairs = [] := by
  cases o with
  | cast => exact absurd rfl h
  | _ => rfl

theorem reconciledPairs_of_kind (h : o.kind ≠ .reconcileChain) : o.reconciledPairs = [] := by
  cases o with
  | reconcileChain => exact absurd rfl h
  | _ => rfl

theorem deliveredShares_of_kind (h : o.kind ≠ .deliver) : o.deliveredShares b p = [] := by
  cases o with
  | deliver => exact absurd rfl h
  | _ => rfl

end Obligation

end

namespace Classification

variable {c : Classification} {b p choice q : Nat} {u : VoteUnit} {vote : VoteSnapshot}
  {proposalIds : List Nat} {done : List Work} {st : Passes} {delegations : List Obligation}
  {plan : RoundObligations} {o : Obligation} {s : RoundSnapshot}

section

variable {α : Type} {f : Obligation → List α} (hpl : c.PlanOf done st delegations plan)
  (hpre : ∀ o bundles, f (o.withPrerequisite bundles) = f o)
include hpl hpre

/-- A reading of the obligations that ignores prerequisites, pass by pass. -/
theorem PlanOf.flatMap_eq : plan.obligations.flatMap f = c.retirements.flatMap f ++
      done.flatMap (fun w => (w.obligations c.snapshot).flatMap f) ++ (c.casts st).flatMap f ++
      (c.blocks st).flatMap f ++ delegations.flatMap f ++ c.confirms.flatMap f := by
  rw [hpl.obligations, flatMap_map]
  simp only [hpre, flatMap_append, flatMap_assoc]

/-- A reading of casts and of the work of units and shares. -/
theorem PlanOf.driven_eq (hki : ∀ o, o.kind ≠ .cast → o.kind ≠ .reconcileChain → o.kind ≠ .deliver →
      f o = []) :
    plan.obligations.flatMap f =
      done.flatMap (fun w => (w.obligations c.snapshot).flatMap f) ++ (c.casts st).flatMap f := by
  have hnil {l : List Obligation}
      (hk : ∀ o ∈ l, o.kind ≠ .cast ∧ o.kind ≠ .reconcileChain ∧ o.kind ≠ .deliver) :
        l.flatMap f = [] :=
    flatMap_eq_nil_iff.mpr fun o ho => hki o (hk o ho).1 (hk o ho).2.1 (hk o ho).2.2
  have hre := hnil (l := c.retirements) fun o ho => by simp [kind_retirements ho]
  have hbl := hnil (l := c.blocks st) fun o ho => by simp [kind_blocks ho]
  have hdel := hnil (l := delegations) fun o ho => by
    rcases hpl.kind_delegations ho with hk | hk <;> simp [hk]
  have hco := hnil (l := c.confirms) fun o ho => by simp [kind_confirms ho]
  rw [hpl.flatMap_eq hpre, hre, hbl, hdel, hco]
  simp

theorem PlanOf.casts_eq (hki : ∀ o, o.kind ≠ .cast → f o = []) :
    plan.obligations.flatMap f = (c.casts st).flatMap f := by
  rw [hpl.driven_eq hpre fun o hc _ _ => hki o hc, flatMap_eq_nil_iff.mpr, nil_append]
  refine fun w _ => flatMap_eq_nil_iff.mpr fun o ho => hki o ?_
  rcases Work.kind_obligations ho with hk | hk <;> simp [hk]

theorem PlanOf.works_eq (hki : ∀ o, o.kind ≠ .reconcileChain → o.kind ≠ .deliver → f o = []) :
    plan.obligations.flatMap f = done.flatMap fun w => (w.obligations c.snapshot).flatMap f := by
  have hca : (c.casts st).flatMap f = [] :=
    flatMap_eq_nil_iff.mpr fun o ho => hki o (by simp [kind_casts ho]) (by simp [kind_casts ho])
  rw [hpl.driven_eq hpre fun o _ => hki o, hca, append_nil]

end

/-! ### Casts -/

theorem nodup_pairs (hba : BallotOf proposalIds c.snapshot.intents c.ballot) : c.pairs.Nodup := by
  have hch : c.ballot.choiceProposals.Nodup := by
    rw [hba.choice]
    exact hba.distinct.filter _
  refine nodup_flatMap.mpr ⟨fun p _ => ?_, ?_⟩
  · exact (nodup_sortedSet _).map fun b b' h => (Prod.mk.inj h).1
  refine hch.pairwise_of_forall_ne fun p _ q _ hne => ?_
  simp only [disjoint_left, mem_map]
  rintro _ ⟨_, -, rfl⟩ ⟨_, -, h⟩
  exact hne (Prod.mk.inj h).2.symm

section

variable (hpl : c.PlanOf done st delegations plan) {outcome : PairOutcome}
include hpl

theorem mem_drafts {draft : Nat × CastDraft} : draft ∈ st.drafts ↔
    (draft.1, draft.2.proposalId) ∈ c.pairs ∧
      c.outcomeOf (draft.1, draft.2.proposalId) = some (.cast draft.2.choice) := by
  rw [hpl.recorded.drafts, mem_filterMap]
  constructor
  · rintro ⟨⟨_, _⟩, hp, hn⟩
    simp only [noted, Option.bind_eq_some_iff] at hn
    obtain ⟨outcome, hout, hd⟩ := hn
    cases outcome with
    | cast =>
      cases hd
      exact ⟨hp, hout⟩
    | _ => cases hd
  · rintro ⟨hp, hout⟩
    exact ⟨_, hp, by simp [noted, hout, PairOutcome.draft]⟩

theorem nodup_drafts (hba : BallotOf proposalIds c.snapshot.intents c.ballot) :
    st.drafts.Nodup := by
  rw [hpl.recorded.drafts]
  refine (nodup_pairs hba).filterMap ?_
  -- a draft names the pair it was noted for
  have hp {pair : Nat × Nat} {draft : Nat × CastDraft}
      (h : draft ∈ c.noted PairOutcome.draft pair) : pair = (draft.1, draft.2.proposalId) := by
    simp only [noted, Option.mem_def, Option.bind_eq_some_iff] at h
    obtain ⟨outcome, -, hd⟩ := h
    cases outcome with
    | cast =>
      cases hd
      rfl
    | _ => cases hd
  intro pair pair' draft h h'
  rw [hp h, hp h']

theorem nodup_castPairs (hba : BallotOf proposalIds c.snapshot.intents c.ballot) :
    ((c.casts st).flatMap castPairs).Nodup := by
  unfold casts
  rw [flatMap_map]
  simp only [castPairs, map_map]
  refine nodup_flatMap.mpr ⟨fun b _ => ?_, ?_⟩
  · refine ((nodup_drafts hpl hba).filter _).map_on ?_
    rintro ⟨d, draft⟩ hd ⟨d', draft'⟩ hd' heq
    simp only [mem_filter, decide_eq_true_eq] at hd hd'
    obtain ⟨hd, rfl⟩ := hd
    obtain ⟨hd', rfl⟩ := hd'
    have hid : draft.proposalId = draft'.proposalId := by simpa using heq
    have hout := ((mem_drafts hpl).mp hd).2
    have hout' := ((mem_drafts hpl).mp hd').2
    cases draft
    cases draft'
    simp_all
  · refine (nodup_sortedSet _).pairwise_of_forall_ne fun b _ b' _ hne => ?_
    simp only [disjoint_left, mem_map]
    rintro _ ⟨_, -, rfl⟩ ⟨_, -, h⟩
    exact hne (Prod.mk.inj h).1.symm

theorem mem_castPairs : (b, p) ∈ (c.casts st).flatMap castPairs ↔
      (b, p) ∈ c.pairs ∧ ∃ choice, c.outcomeOf (b, p) = some (.cast choice) := by
  simp only [casts, mem_flatMap, mem_map, mem_sortedSet]
  constructor
  · rintro ⟨_, ⟨_, -, rfl⟩, hmem⟩
    simp only [castPairs, mem_map, mem_filter, decide_eq_true_eq] at hmem
    obtain ⟨_, ⟨_, ⟨hd, rfl⟩, rfl⟩, heq⟩ := hmem
    cases heq
    obtain ⟨hp, hout⟩ := (mem_drafts hpl).mp hd
    exact ⟨hp, _, hout⟩
  · rintro ⟨hp, choice, hout⟩
    have hd : (b, ⟨p, choice⟩) ∈ st.drafts := (mem_drafts hpl).mpr ⟨hp, hout⟩
    refine ⟨_, ⟨b, ⟨_, hd, rfl⟩, rfl⟩, ?_⟩
    simp only [castPairs, mem_map, mem_filter, decide_eq_true_eq]
    exact ⟨_, ⟨_, ⟨hd, rfl⟩, rfl⟩, rfl⟩

/-- The vote is drafted once where the first loop casts it, and nowhere else. -/
theorem PlanOf.castDrafts_eq (hba : BallotOf proposalIds c.snapshot.intents c.ballot)
    (hpa : (b, p) ∈ c.pairs) (hout : c.outcomeOf (b, p) = some outcome) :
    plan.castDrafts b p = if outcome.condition = .cast then 1 else 0 := by
  unfold RoundObligations.castDrafts
  rw [hpl.casts_eq (fun o _ => castPairs_withPrerequisite)
    (fun o hk => castPairs_of_kind hk), (nodup_castPairs hpl hba).count]
  refine if_congr ?_ rfl rfl
  rw [mem_castPairs hpl, hout]
  cases outcome <;> simp [hpa, PairOutcome.condition]

end

/-! ### Reconciled units -/

theorem Work.flatMap_reconciledPairs (w : Work) :
    (w.obligations s).flatMap reconciledPairs = match w with
      | .unit u => u.proposalIds.map fun p => (u.bundleIndex, p) | .shares _ => [] := by
  rcases Work.obligations_cases (s := s) w with ⟨_, rfl, hw⟩ | ⟨_, rfl, hw | ⟨_, _, hw⟩⟩
  · rw [hw]
    simp [reconcileObligation, reconciledPairs]
  · rw [hw]
    rfl
  · rw [hw]
    rfl

theorem nodup_reconciledPairs (hpl : c.PlanOf done st delegations plan)
    (hu : UnitsOf c.snapshot c.units) :
    (done.flatMap fun w => (w.obligations c.snapshot).flatMap reconciledPairs).Nodup := by
  simp only [Work.flatMap_reconciledPairs]
  refine nodup_flatMap.mpr ⟨?_, ?_⟩
  · rintro (u | key) hw
    · exact (hu.nodup_proposalIds (hpl.owned u hw)).map fun p p' h => (Prod.mk.inj h).2
    · exact nodup_nil
  · refine hpl.distinct.pairwise_of_forall_ne ?_
    rintro (u | key) hw (u' | key') hw' hne
    · simp only [disjoint_left, mem_map]
      rintro _ ⟨_, hp, rfl⟩ ⟨_, hp', h⟩
      obtain ⟨hb, rfl⟩ := Prod.mk.inj h
      refine hne (congrArg Work.unit ?_)
      exact hu.eq_of_has (hpl.owned u hw) (hpl.owned u' hw') ⟨rfl, hp⟩ ⟨hb, hp'⟩
    · simp
    · simp
    · simp

theorem mem_reconciledPairs (hpl : c.PlanOf done st delegations plan) :
    (b, p) ∈ (done.flatMap fun w => (w.obligations c.snapshot).flatMap reconciledPairs) ↔
      ∃ u, c.Asked (.unit u) ∧ u.Has b p := by
  simp only [Work.flatMap_reconciledPairs, mem_flatMap]
  constructor
  · rintro ⟨u | _, hw, hmem⟩
    · obtain ⟨_, hp', h⟩ := mem_map.mp hmem
      cases h
      exact ⟨u, (hpl.asked _).mp hw, rfl, hp'⟩
    · cases hmem
  · rintro ⟨u, hask, rfl, hp⟩
    exact ⟨.unit u, (hpl.asked _).mpr hask, mem_map.mpr ⟨p, hp, rfl⟩⟩

/-- A unit whose members are all rostered is not retired. -/
theorem not_retirable_of_agrees (hu : UnitsOf c.snapshot c.units) (hmem : u ∈ c.units)
    (hhas : u.Has b p) (hag : c.everyMemberAgrees b u = true) : ⟨b, p⟩ ∉ c.retirableVoteKeys := by
  intro hret
  obtain ⟨_, hun, hre, hhas'⟩ := mem_retirableVoteKeys.mp hret
  obtain rfl := hu.eq_of_has hmem hun hhas hhas'
  have hros : ∀ q ∈ u.proposalIds, c.ballot.roster.contains q = true := by
    intro q hq
    have hq' := all_eq_true.mp hag q hq
    exact (Bool.and_eq_true_iff.mp hq').1
  have hro : rosterRelation u.proposalIds c.ballot.roster = .rostered := by
    unfold rosterRelation
    rw [if_pos (all_eq_true.mpr hros)]
  simp [isRetired, hro] at hre

/-- A member of a unit the whole ballot agrees with is not stale. -/
theorem not_stale_of_agrees (hhas : u.Has b p) (hag : c.everyMemberAgrees b u = true) :
    ⟨b, p⟩ ∉ c.staleVoteKeys := by
  intro hst
  obtain ⟨vote, row, hc⟩ := mem_staleVoteKeys.mp hst
  have hs := (Bool.and_eq_true_iff.mp (all_eq_true.mp hag p hhas.2)).2
  have hrow : c.snapshot.vote? b p = some vote := row
  simp only [hrow, Option.any_some, decide_eq_true_eq] at hs
  rw [hs] at hc
  cases hc

section

variable (hpl : c.PlanOf done st delegations plan)
include hpl

/-- A member of a unit worked on is itself reconciled by the first loop. -/
theorem outcome_of_asked (hu : UnitsOf c.snapshot c.units)
    (hget : c.snapshot.intents.get? p = some (.choice choice)) (hdec : c.Decides b p choice outcome)
    (hask : c.Asked (.unit u)) (hhas : u.Has b p) : outcome = .reconcile u := by
  have hmem : u ∈ c.units := hpl.owned u ((hpl.asked _).mpr hask)
  obtain ⟨_, row, hp⟩ := hu.vote_of_has hmem hhas
  obtain ⟨_, hun, -⟩ := unitOf_of_vote hu row
  obtain rfl := hu.eq_of_has hmem (unitOf_ok hun).1 hhas (unitOf_ok hun).2
  rcases unit_of_asked hu hask with hpos | ⟨hpos, ha⟩
  · rw [← hp] at hpos
    have hl := not_due_of_owned hu hpl.clear row (owned_of_position (.inl hpos)) hget
    simpa [hpos, hun] using hdec.live hl row
  · rw [hhas.1] at ha
    rw [← hp] at hpos
    -- the member agrees, so no cast is due for it
    have hs := not_stale_of_agrees hhas ha
    have hret := not_retirable_of_agrees hu hmem hhas ha
    have hch := choice_of_not_stale row hs hget
    have hl : c.castDue b p choice = false := by simp [castDue, row, hs, hret, hch, hpos]
    simpa [hpos, hun, ha] using hdec.live hl row

theorem PlanOf.reconciledUnits_eq (hu : UnitsOf c.snapshot c.units) (hpa : (b, p) ∈ c.pairs)
    (hget : c.snapshot.intents.get? p = some (.choice choice))
    (hout : c.outcomeOf (b, p) = some outcome) (hdec : c.Decides b p choice outcome) :
    plan.reconciledUnits b p = if outcome.condition = .reconciled then 1 else 0 := by
  unfold RoundObligations.reconciledUnits
  rw [hpl.works_eq (fun o _ => reconciledPairs_withPrerequisite)
    (fun o hr _ => reconciledPairs_of_kind hr), (nodup_reconciledPairs hpl hu).count]
  refine if_congr ?_ rfl rfl
  rw [mem_reconciledPairs hpl]
  constructor
  · rintro ⟨_, hask, hhas⟩
    rw [outcome_of_asked hpl hu hget hdec hask hhas]
    rfl
  · intro hco
    cases hdec with
    | @reconcile _ unit _ _ found _ =>
      refine ⟨unit, .inl ⟨(b, p), hpa, ?_⟩, (unitOf_ok found).2⟩
      simp [pairWork, hout, PairOutcome.work]
    | held | blocked | cast | deliver | waits | ended => cases hco

/-! ### Withheld votes -/

theorem PlanOf.retires_iff (hu : UnitsOf c.snapshot c.units) :
    plan.Retires b p ↔ ⟨b, p⟩ ∈ c.retirableVoteKeys := by
  have hbu {unit : VoteUnit} (hmem : unit ∈ c.units) : unit.id.bundleIndex = unit.bundleIndex := by
    rcases hu.shape unit hmem with ⟨_, _, -, -, rfl⟩ | ⟨_, hb⟩
    · rfl
    · rw [hb.id]
      rfl
  rw [mem_retirableVoteKeys]
  constructor
  · rintro ⟨_, _, hmem, hid, hp⟩
    obtain ⟨_, hpre, -, hf⟩ := hpl.mem_obligations.mp hmem
    obtain ⟨unit, hun, rfl⟩ := mem_map.mp hf
    cases hpre
    obtain ⟨hmem', hr⟩ := mem_filter.mp hun
    exact ⟨unit, hmem', hr, by rw [← hid, hbu hmem'], hp⟩
  · rintro ⟨unit, hmem, hr, hb, hp⟩
    have hf : .retire unit.id unit.proposalIds ∈ c.retirements :=
      mem_map.mpr ⟨unit, mem_filter.mpr ⟨hmem, hr⟩, rfl⟩
    refine ⟨unit.id, unit.proposalIds, hpl.mem_obligations.mpr ⟨_, rfl, rfl, hf⟩, ?_, hp⟩
    rw [hbu hmem, hb]

theorem PlanOf.blocks_iff : plan.Blocks b ↔ ∃ p, (b, p) ∈ c.pairs ∧
    c.outcomeOf (b, p) = some .blocked := by
  have hst : b ∈ st.blocked ↔ ∃ p, (b, p) ∈ c.pairs ∧ c.outcomeOf (b, p) = some .blocked := by
    rw [hpl.recorded.blocked, mem_reverse, mem_filterMap]
    constructor
    · rintro ⟨⟨b', p⟩, hp, hn⟩
      simp only [noted, Option.bind_eq_some_iff] at hn
      obtain ⟨outcome, hout, hbl⟩ := hn
      cases outcome with
      | blocked =>
        cases hbl
        exact ⟨p, hp, hout⟩
      | _ => cases hbl
    · rintro ⟨p, hp, hout⟩
      exact ⟨(b, p), hp, by simp [noted, hout, PairOutcome.block]⟩
  rw [← hst]
  constructor
  · rintro ⟨_, hmem⟩
    obtain ⟨_, hpre, -, hf⟩ := hpl.mem_obligations.mp hmem
    obtain ⟨_, hb', rfl⟩ := mem_map.mp hf
    cases hpre
    exact mem_sortedSet.mp hb'
  · intro hb
    have hf : .blocked b c.blockedReason ∈ c.blocks st := mem_map.mpr ⟨b, mem_sortedSet.mpr hb, rfl⟩
    exact ⟨c.blockedReason, hpl.mem_obligations.mpr ⟨_, rfl, rfl, hf⟩⟩

theorem PlanOf.withheld_iff :
    p ∈ plan.withheldCasts ↔ ∃ b outcome, (b, p) ∈ c.pairs ∧ c.outcomeOf (b, p) = some outcome ∧
      outcome.condition = .withheld := by
  rw [hpl.withheld, mem_sortedSet, hpl.recorded.withheld, mem_reverse, mem_filterMap]
  constructor
  · rintro ⟨⟨b, _⟩, hp, hn⟩
    simp only [noted, Option.bind_eq_some_iff] at hn
    obtain ⟨outcome, hout, hw⟩ := hn
    refine ⟨b, outcome, ?_⟩
    cases outcome with
    | held | blocked | waits =>
      cases hw
      exact ⟨hp, hout, rfl⟩
    | _ => cases hw
  · rintro ⟨b, outcome, hp, hout, hco⟩
    refine ⟨(b, p), hp, ?_⟩
    cases outcome with
    | held | blocked | waits => simp [noted, hout, PairOutcome.withheld]
    | _ => cases hco

/-- `CastOwed` says of the plan what `castDue` computes. -/
theorem PlanOf.castOwed_iff
    (hu : UnitsOf c.snapshot c.units) (hget : c.snapshot.intents.get? p = some (.choice choice)) :
    CastOwed c.snapshot plan b p ↔ c.castDue b p choice = true := by
  unfold CastOwed castDue
  rw [hpl.retires_iff hu, hpl.stale]
  cases row : c.snapshot.vote? b p with
  | none => simp
  | some vote =>
    have hpr : ofPhase vote.phase = .uncast ↔ vote.phase = .prepared := by
      cases vote.phase <;> simp [ofPhase]
    have hch : ¬vote.choice = choice → ⟨b, p⟩ ∈ c.staleVoteKeys := by
      intro hne
      by_contra hst
      exact hne (choice_of_not_stale row hst hget)
    simp only [reduceCtorEq, false_or, Option.some.injEq, exists_eq_left', Bool.or_eq_true,
      contains_iff_mem, decide_eq_true_eq, hpr]
    constructor
    · rintro (h | h | h)
      · exact .inr h
      · exact .inl (.inl (.inl h))
      · exact .inl (.inr h)
    · rintro (((h | h) | h) | h)
      · exact .inr (.inl h)
      · exact .inr (.inl (hch h))
      · exact .inr (.inr h)
      · exact .inl h

theorem PlanOf.bundleHeld_iff (hu : UnitsOf c.snapshot c.units)
    (hb : b ∈ c.snapshot.bundleIndexes) :
    BundleHeld c.snapshot plan b ↔ b ∈ c.heldBundles := by
  rw [mem_heldBundles]
  unfold BundleHeld
  simp only [hpl.retires_iff hu, hpl.stale, holds, Bool.and_eq_true, Bool.not_eq_true',
    contains_eq_mem, decide_eq_false_iff_not, hb, and_true]
  refine or_congr_left (exists_congr fun q => exists_congr fun vote => and_congr_right fun _ => ?_)
  tauto

end

theorem rosterIsTerminal_of_undecided (hq : q ∈ c.ballot.openProposals) :
    c.rosterIsTerminal = false := by
  have hne : c.ballot.openProposals ≠ [] := ne_nil_of_mem hq
  simp [rosterIsTerminal, hne]

/-- The members of an undispatched unit that is not retired are rostered. -/
theorem rostered_of_not_retired (hpos : ofPhase u.phase = .undispatched)
    (hnot : c.isRetired u = false) : ∀ q ∈ u.proposalIds, q ∈ c.ballot.roster := by
  have hrel : rosterRelation u.proposalIds c.ballot.roster ≠ .leftRoster := by
    intro hrel
    simp [isRetired, hpos, hrel] at hnot
  unfold rosterRelation at hrel
  split at hrel
  · rename_i hall
    intro q hq
    simpa using all_eq_true.mp hall q hq
  · exact absurd rfl hrel

/-- No member of the unit of a vote that is not stale conflicts with the ballot. -/
theorem not_conflicts_of_member (hu : UnitsOf c.snapshot c.units) (hmem : u ∈ c.units)
    (hhas : u.Has b p) (hst : ⟨b, p⟩ ∉ c.staleVoteKeys) (hq : q ∈ u.proposalIds) :
    ∃ vote, c.snapshot.vote? b q = some vote ∧ ballotRelation c.snapshot.intents q vote.choice ≠
      .conflicts := by
  obtain ⟨rfl, hp⟩ := hhas
  rcases hu.shape u hmem with ⟨key, vote, hget, -, rfl⟩ | ⟨_, hb⟩
  · have hpk : p = key.proposalId := by simpa [singletonUnit, VoteUnit.proposalIds] using hp
    have hqk : q = key.proposalId := by simpa [singletonUnit, VoteUnit.proposalIds] using hq
    refine ⟨vote, by rw [hqk]; exact hget, fun hco => hst (mem_staleVoteKeys.mpr ⟨vote, ?_, ?_⟩)⟩
    · rw [hpk]
      exact hget
    · rw [hpk, ← hqk]
      exact hco
  · obtain ⟨vote, _, row, -, -, -, hne⟩ := hb.vote q hq
    exact ⟨vote, row, hne⟩

/-- A unit that waits has a member the ballot leaves open. -/
theorem undecided_of_waits (hu : UnitsOf c.snapshot c.units)
    (hba : BallotOf proposalIds c.snapshot.intents c.ballot) (live : c.castDue b p choice = false)
    (row : c.snapshot.vote? b p = some vote) (found : c.unitOf b p = .ok u)
    (position : ofPhase vote.phase = .undispatched) (disagrees : c.everyMemberAgrees b u = false) :
    u.phase = .committed ∧ ∃ q ∈ u.proposalIds, q ∈ c.ballot.openProposals := by
  obtain ⟨hmem, hhas⟩ := unitOf_ok found
  obtain ⟨vote', row', hph⟩ := hu.vote_of_has hmem hhas
  obtain rfl : vote = vote' := Option.some.inj (row.symm.trans row')
  rw [hph] at position
  simp only [castDue, row, Bool.or_eq_false_iff, contains_eq_mem, decide_eq_false_iff_not] at live
  obtain ⟨⟨⟨hst, -⟩, hret⟩, -⟩ := live
  have hnot : c.isRetired u = false := by
    by_contra hre
    exact hret (mem_retirableVoteKeys.mpr ⟨u, hmem, by simpa using hre, hhas⟩)
  have hr := rostered_of_not_retired position hnot
  obtain ⟨q, hq, hdis⟩ := all_eq_false.mp disagrees
  obtain ⟨other, rowq, hne⟩ := not_conflicts_of_member hu hmem hhas hst hq
  have hrel : ballotRelation c.snapshot.intents q other.choice ≠ .agrees := by
    simpa [rowq, hr q hq] using hdis
  refine ⟨?_, q, hq, ?_⟩
  · revert position
    cases u.phase <;> simp [ofPhase]
  rw [hba.undecided, mem_filter]
  refine ⟨hr q hq, ?_⟩
  unfold ballotRelation at hne hrel
  cases hget : c.snapshot.intents.get? q with
  | none => rfl
  | some decision =>
    rw [hget] at hne hrel
    cases decision with
    | skipped => exact absurd rfl hne
    | choice option =>
      by_cases heq : option = other.choice
      · exact absurd (if_pos heq) hrel
      · exact absurd (if_neg heq) hne

/-! ### The conditions and the decision of the first loop -/

section

variable {H : BatchSighash} {outcome : PairOutcome}

section

variable (hpl : c.PlanOf done st delegations plan)
include hpl

section

variable (huni : groupVoteUnits H c.snapshot = .ok c.units)
  (hba : BallotOf proposalIds c.snapshot.intents c.ballot)
include huni hba

theorem withheld_of_outcome (hp : (b, p) ∈ c.pairs)
    (hget : c.snapshot.intents.get? p = some (.choice choice))
    (hout : c.outcomeOf (b, p) = some outcome) (hdec : c.Decides b p choice outcome)
    (hc : outcome.condition = .withheld) : PairCondition.withheld.Holds H c.snapshot plan b p := by
  have hu := groupVoteUnits_ok huni
  have hb := ((mem_pairs hba).mp hp).1
  refine ⟨hpl.withheld_iff.mpr ⟨b, outcome, hp, hout, hc⟩, ?_⟩
  cases hdec with
  | held due held =>
    exact .inl ⟨(hpl.castOwed_iff hu hget).mpr due, .inr ((hpl.bundleHeld_iff hu hb).mpr held)⟩
  | blocked due =>
    exact .inl ⟨(hpl.castOwed_iff hu hget).mpr due, .inl (hpl.blocks_iff.mpr ⟨p, hp, hout⟩)⟩
  | @waits _ unit live row found position disagrees =>
    obtain ⟨hph, q, hq, hop⟩ := undecided_of_waits hu hba live row found position disagrees
    refine .inr ⟨c.units, unit, q, huni, (unitOf_ok found).1, (unitOf_ok found).2, hph, hq, ?_⟩
    rw [hpl.undecided]
    exact hop
  | cast | deliver | reconcile | ended => cases hc

/-- A vote that waits for the ballot is decided neither to be cast nor to be driven. -/
theorem outcome_of_awaits (hdec : c.Decides b p choice outcome)
    (haw : AwaitsBallot H c.snapshot plan b p) :
    outcome.condition = .withheld := by
  have hu := groupVoteUnits_ok huni
  obtain ⟨units, _, q, hun', hmem, hhas, hph, hq, ho⟩ := haw
  obtain rfl : c.units = units := Except.ok.inj (huni.symm.trans hun')
  rw [hpl.undecided] at ho
  have hun : c.snapshot.intents.get? q = none := by
    rw [hba.undecided, mem_filter] at ho
    simpa using ho.2
  obtain ⟨vote, row, hvp⟩ := hu.vote_of_has hmem hhas
  have hpos : ofPhase vote.phase = .undispatched := by
    rw [hvp, hph]
    rfl
  cases hdec with
  | held | blocked | waits => rfl
  | cast _ _ terminal => simp [rosterIsTerminal_of_undecided ho] at terminal
  | deliver _ row' position | ended _ row' position =>
    rw [Option.some.inj (row'.symm.trans row), hpos] at position
    cases position
  | @reconcile _ _ _ row' found position =>
    rw [Option.some.inj (row'.symm.trans row), hpos] at position
    rcases position with h | ⟨-, hag⟩
    · cases h
    obtain rfl := hu.eq_of_has hmem (unitOf_ok found).1 hhas (unitOf_ok found).2
    have hs := all_eq_true.mp hag q hq
    cases hro : c.snapshot.vote? b q with
    | none => simp [hro] at hs
    | some => simp [ballotRelation, hun] at hs

theorem outcome_of_withheld (hpa : (b, p) ∈ c.pairs)
    (hget : c.snapshot.intents.get? p = some (.choice choice)) (hdec : c.Decides b p choice outcome)
    (h : PairCondition.withheld.Holds H c.snapshot plan b p) : outcome.condition = .withheld := by
  have hu := groupVoteUnits_ok huni
  have hb := ((mem_pairs hba).mp hpa).1
  rcases h with ⟨-, ⟨howe, hre⟩ | haw⟩
  · have hdue := (hpl.castOwed_iff hu hget).mp howe
    cases hdec with
    | held | blocked | waits => rfl
    | cast _ free terminal =>
      exfalso
      rcases hre with hblo | hhe
      · -- a blocked pair means the roster is not terminal
        obtain ⟨_, -, hbl⟩ := hpl.blocks_iff.mp hblo
        obtain ⟨_, -, hot⟩ := outcomeOf_eq_some hbl
        cases hot with
        | blocked _ _ unfinished => simp [unfinished] at terminal
      · exact free ((hpl.bundleHeld_iff hu hb).mp hhe)
    | deliver live | reconcile live | ended live =>
      rw [live] at hdue
      cases hdue
  · exact outcome_of_awaits hpl huni hba hdec haw

end

section

variable (hu : UnitsOf c.snapshot c.units)
  (hget : c.snapshot.intents.get? p = some (.choice choice)) (hdec : c.Decides b p choice outcome)
include hu hget hdec

theorem confirmed_iff : PairCondition.confirmed.Holds H c.snapshot plan b p ↔
    outcome.condition = .confirmed := by
  constructor
  · rintro ⟨vote, row, hph⟩
    have hpos : ofPhase vote.phase = .confirmed := by rw [hph]; rfl
    have hli := not_due_of_owned hu hpl.clear row (owned_of_position (.inr hpos)) hget
    have hou : outcome = .deliver := by simpa [hpos] using hdec.live hli row
    rw [hou]
    rfl
  · intro hco
    cases hdec with
    | @deliver vote _ row position =>
      refine ⟨vote, row, ?_⟩
      revert position
      cases vote.phase <;> simp [ofPhase]
    | held | blocked | cast | reconcile | waits | ended => cases hco

theorem ended_iff : PairCondition.ended.Holds H c.snapshot plan b p ↔
    outcome.condition = .ended := by
  constructor
  · rintro ⟨vote, row, hph⟩
    have hpos : ofPhase vote.phase = .terminal := by
      rcases hph with h | h <;> rw [h] <;> rfl
    have hown : votePhaseIsLifecycleOwned vote.phase = true := by
      rw [votePhaseIsLifecycleOwned, hpos]
      rfl
    have hli := not_due_of_owned hu hpl.clear row hown hget
    have hou : outcome = .ended := by simpa [hpos] using hdec.live hli row
    rw [hou]
    rfl
  · intro hco
    cases hdec with
    | @ended vote _ row position =>
      refine ⟨vote, row, ?_⟩
      revert position
      cases vote.phase <;> simp [ofPhase]
    | held | blocked | cast | reconcile | waits | deliver => cases hco

end

/-- A condition holds of a pair exactly when the first loop decided so. -/
theorem holds_iff (huni : groupVoteUnits H c.snapshot = .ok c.units)
    (hba : BallotOf proposalIds c.snapshot.intents c.ballot) (hp : (b, p) ∈ c.pairs)
    (hget : c.snapshot.intents.get? p = some (.choice choice))
    (hout : c.outcomeOf (b, p) = some outcome) (hdec : c.Decides b p choice outcome)
    (condition : PairCondition) :
    condition.Holds H c.snapshot plan b p ↔ outcome.condition = condition := by
  have hu := groupVoteUnits_ok huni
  cases condition with
  | cast =>
    rw [PairCondition.Holds, hpl.castDrafts_eq hba hp hout]
    simp
  | reconciled =>
    rw [PairCondition.Holds, hpl.reconciledUnits_eq hu hp hget hout hdec]
    simp
  | withheld =>
    exact ⟨outcome_of_withheld hpl huni hba hp hget hdec,
      withheld_of_outcome hpl huni hba hp hget hout hdec⟩
  | ended => exact ended_iff hpl hu hget hdec
  | confirmed => exact confirmed_iff hpl hu hget hdec

end

end

/-! ### Deliveries -/

theorem missingShareIndexes_ok {missing : List Nat} (h : missingShareIndexes s b p = .ok missing) :
    ∃ vote recovery, s.vote? b p = some vote ∧ vote.recovery = some recovery ∧ missing.Nodup ∧
      ∀ i, i ∈ missing ↔ i ∈ recovery.sentShares ∧
        ∀ row ∈ s.sharePhases, ¬(row.bundleIndex = b ∧ row.proposalId = p ∧
            row.shareIndex = i) := by
  unfold missingShareIndexes at h
  cases hrec : (s.vote? b p).bind VoteSnapshot.recovery with
  | none => rw [hrec] at h; cases h
  | some recovery =>
    rw [hrec] at h
    obtain ⟨vote, row, hre⟩ := Option.bind_eq_some_iff.mp hrec
    obtain ⟨expected, hexp, h⟩ := bind_ok h
    have hse : expected = recovery.sentShares := by
      obtain ⟨-, -, hp⟩ := bind_ok hexp
      split at hp
      · cases hp
      · exact (Except.ok.inj hp).symm
    split at h
    · cases h
    cases h
    refine ⟨vote, recovery, row, hre, (nodup_sortedSet _).filter _, fun i => ?_⟩
    rw [mem_filter, mem_sortedSet, hse]
    simp only [RoundSnapshot.recordedShareIndexes, Bool.not_eq_true', contains_eq_mem,
      decide_eq_false_iff_not, mem_map, mem_filter, Bool.and_eq_true, decide_eq_true_eq,
      not_exists, not_and, and_imp]

theorem PlanOf.delivers_missing (hpl : c.PlanOf done st delegations plan)
    (hask : c.Asked (.shares ⟨b, p⟩)) : DeliversMissing c.snapshot plan b p := by
  have hdo := (hpl.asked _).mpr hask
  obtain ⟨owed, ho⟩ := hpl.owed _ hdo
  have hsh : (Work.shares ⟨b, p⟩).obligations c.snapshot = owed := by
    simp [Work.obligations, ho, Except.toOption]
  -- any other piece of work delivers nothing to this vote
  have hot : ∀ w ∈ done, w ≠ .shares ⟨b, p⟩ →
      (w.obligations c.snapshot).flatMap (deliveredShares b p) = [] := by
    intro w hw hne
    rcases Work.obligations_cases (s := c.snapshot) w with
      ⟨u, rfl, hw⟩ | ⟨key, rfl, hw | ⟨position, missing, hw⟩⟩
    · rw [hw]
      rfl
    · rw [hw]
      rfl
    · rw [hw]
      have hkey : ¬(key.bundleIndex = b ∧ key.proposalId = p) := by
        rintro ⟨rfl, rfl⟩
        exact hne rfl
      simp [deliveredShares, hkey]
  have hall : plan.deliveredShares b p = owed.flatMap (deliveredShares b p) := by
    unfold RoundObligations.deliveredShares
    rw [hpl.works_eq (fun o _ => deliveredShares_withPrerequisite)
      (fun o _ hd => deliveredShares_of_kind hd),
      flatMap_eq_of_unique hpl.distinct hdo hot, hsh]
  obtain ⟨missing, hmi, hca⟩ := deliverObligation_ok ho
  have hn : plan.deliveredShares b p = missing := by
    rw [hall]
    rcases hca with ⟨rfl, rfl⟩ | ⟨-, _, rfl⟩
    · rfl
    · simp [deliveredShares]
  obtain ⟨vote, recovery, row, hre, hno, hmem⟩ := missingShareIndexes_ok hmi
  refine ⟨vote, recovery, row, hre, ?_, ?_⟩
  · rw [hn]
    exact hno
  · rw [hn]
    exact hmem

end Classification

/-- A chosen vote of an existing bundle is cast, reconciled, withheld, ended or confirmed, and
only one of these; it is drafted or reconciled at most once, and a confirmed one is delivered
exactly the shares that have no helper row. -/
theorem chosen_vote_has_one_condition {H : BatchSighash} {s : RoundSnapshot}
    {proposalIds : List Nat}
    {plan : RoundObligations} (h : classifyRound H s proposalIds = .ok plan) {b p choice : Nat}
    (hbundle : b ∈ s.bundleIndexes) (hroster : p ∈ proposalIds)
    (hchoice : s.intents.get? p = some (.choice choice)) :
    (∃! condition : PairCondition, condition.Holds H s plan b p) ∧
      plan.castDrafts b p ≤ 1 ∧ plan.reconciledUnits b p ≤ 1 ∧
      (PairCondition.confirmed.Holds H s plan b p → DeliversMissing s plan b p) := by
  rcases classifyRound_ok h with ⟨hem, -⟩ | ⟨ballot, units, _, _, _, hba, huni, hu, hpl⟩
  · obtain ⟨_, hmem, -⟩ := s.mem_bundleIndexes.mp hbundle
    rw [hem] at hmem
    cases hmem
  · have hp : (b, p) ∈ Classification.pairs ⟨s, units, ballot⟩ :=
      (Classification.mem_pairs hba).mpr ⟨hbundle, hroster, choice, hchoice⟩
    obtain ⟨outcome, hout, hdec⟩ := hpl.decides hp hchoice
    have hiff := Classification.holds_iff hpl huni hba hp hchoice hout hdec
    refine ⟨⟨outcome.condition, (hiff _).mpr rfl, fun other hot => ((hiff other).mp hot).symm⟩,
      ?_, ?_, ?_⟩
    · rw [hpl.castDrafts_eq hba hp hout]
      split <;> omega
    · rw [hpl.reconciledUnits_eq hu hp hchoice hout hdec]
      split <;> omega
    · rintro ⟨vote, row, hph⟩
      refine hpl.delivers_missing ((hpl.asked_shares hu hba).mpr ⟨vote, row, ?_⟩)
      rw [hph, ofPhase]

/-! ### Two rounds -/

def zeroBytes32 : Bytes32 := Vector.replicate 32 0

def sampleSighash : BatchSighash := ⟨fun _ _ _ => .ok zeroBytes32, fun _ _ _ => .ok zeroBytes32⟩

/-- Option 0 for proposal 1, option 1 for proposal 2. -/
def twoChoices : KeyedMap Nat Decision := ⟨[(1, .choice 0), (2, .choice 1)], by decide⟩

/-- One bundle whose vote for proposal 1 is confirmed with one of two shares submitted, and
whose vote for proposal 2 is not cast. -/
def confirmedRound (delegation : DelegationPhase) : RoundSnapshot where
  roundId := "0000000000000000000000000000000000000000000000000000000000000000"
  delegations := [⟨0, delegation⟩]
  bundles := .single 0 ⟨false, none⟩
  votes := .single ⟨0, 1⟩ ⟨0, .confirmed, none, some 5, some {
    voteRoundId := "0000000000000000000000000000000000000000000000000000000000000000"
    bundleIndex := 0
    proposalId := 1
    voteDecision := 0
    numOptions := 2
    anchorHeight := 0
    vcTreePosition := 5
    singleShare := false
    vanNullifier := zeroBytes32
    voteAuthorityNoteNew := zeroBytes32
    voteCommitment := zeroBytes32
    proof := []
    rVpk := zeroBytes32
    sealed := []
    encryptedShares := [0, 1]
    shareBlinds := [zeroBytes32, zeroBytes32]
    batch := none }⟩
  shares := []
  sharePhases := [⟨0, 1, 0, .submitted⟩]
  intents := twoChoices
  lifecycleHashes := .empty
  rejectionBlockedBundles := []
  vote_bundle := by simp [KeyedMap.get?_eq_some_iff]
  recovery_proposal := by
    simp only [KeyedMap.get?_eq_some_iff, KeyedMap.single, mem_singleton, Prod.mk.injEq]
    rintro _ _ _ ⟨rfl, rfl⟩ ⟨⟩
    rfl
  share_bundle := by simp
  share_key := by simp

/-- A plan in which no vote is stale and no choice is off the roster or owned. -/
def samplePlan (obligations : List Obligation)
    (choiceProposals openProposals withheldCasts : List Nat) : RoundObligations :=
  ⟨obligations, choiceProposals, openProposals, [], [], false, withheldCasts, []⟩

def confirmedPlan : RoundObligations :=
  samplePlan [.deliver 0 1 5 [1] none, .cast 0 [⟨2, 1⟩] none false, .confirm 0 1 0 true false none]
    [1, 2] [] []

theorem classifyRound_confirmedRound :
    classifyRound sampleSighash (confirmedRound .confirmed) [1, 2] = .ok confirmedPlan := by
  decide +kernel

theorem chosen_vote_has_one_condition_confirmed : (∃! condition : PairCondition,
        condition.Holds sampleSighash (confirmedRound .confirmed) confirmedPlan 0 1) ∧
      DeliversMissing (confirmedRound .confirmed) confirmedPlan 0 1 := by
  obtain ⟨hone, -, -, hde⟩ := chosen_vote_has_one_condition classifyRound_confirmedRound
    (b := 0) (p := 1) (by decide) (by decide) (by decide : _ = some (Decision.choice 0))
  exact ⟨hone, hde ⟨_, rfl, rfl⟩⟩

/-- One delegated bundle with its votes and a ballot, and no share. -/
def bundleRound (roundId : String) (delegation : DelegationPhase)
    (votes : KeyedMap VoteKey VoteSnapshot)
    (intents : KeyedMap Nat Decision) (hbu : ∀ key vote, votes.get? key = some vote →
      key.bundleIndex = 0)
    (hre : ∀ key vote recovery, votes.get? key = some vote → vote.recovery = some recovery →
      recovery.proposalId = key.proposalId) : RoundSnapshot where
  roundId := roundId
  delegations := [⟨0, delegation⟩]
  bundles := .single 0 ⟨false, none⟩
  votes := votes
  shares := []
  sharePhases := []
  intents := intents
  lifecycleHashes := .empty
  rejectionBlockedBundles := []
  vote_bundle key vote h := ⟨_, mem_singleton_self _, (hbu key vote h).symm⟩
  recovery_proposal := hre
  share_bundle := by simp
  share_key := by simp

/-- One bundle with one vote, and a complete ballot of two choices. -/
def oneVoteRound (proposal option : Nat) (phase : VotePhase) : RoundSnapshot :=
  bundleRound "0000000000000000000000000000000000000000000000000000000000000000" .confirmed
    (.single ⟨0, proposal⟩ ⟨option, phase, none, none, none⟩) twoChoices
      (by simp [KeyedMap.get?_eq_some_iff])
    (by simp +contextual [KeyedMap.get?_eq_some_iff])

/-- The vote for proposal 1 was submitted without a hash. -/
def hashlessRound : RoundSnapshot := oneVoteRound 1 0 .submittedWithoutHash

def hashlessPlan : RoundObligations := samplePlan [] [1, 2] [] [2]

/-- Neither vote is cast, reconciled, blocked, waiting for the ballot, rejected or confirmed:
the first has ended without a hash, and the cast of the second waits for the bundle the
first holds. -/
theorem hashless_vote_leaves_no_listed_condition :
    classifyRound sampleSighash hashlessRound [1, 2] = .ok hashlessPlan ∧
    ∀ p ∈ [1, 2], hashlessPlan.castDrafts 0 p = 0 ∧ hashlessPlan.reconciledUnits 0 p = 0 ∧
      ¬hashlessPlan.Blocks 0 ∧ ¬AwaitsBallot sampleSighash hashlessRound hashlessPlan 0 p ∧
      ∀ vote, hashlessRound.vote? 0 p = some vote →
        vote.phase ≠ .submissionRejected ∧ vote.phase ≠ .confirmed := by
  refine ⟨by decide +kernel, ?_⟩
  intro p hp
  refine ⟨rfl, rfl, ?_, ?_, ?_⟩
  · rintro ⟨_, hmem⟩
    cases hmem
  · rintro ⟨_, _, _, -, -, -, -, -, hop⟩
    cases hop
  · intro vote row
    have hmem := KeyedMap.mem_entries_of_get? row
    simp_all [hashlessRound, oneVoteRound, bundleRound]

end ZcashVoting.RoundPlanning
