import ZcashVoting.RoundPlanning.Roster

/-!
# One spend of a bundle's authority at a time

A plan casts on a bundle, or delegates it, only while nothing else of the bundle is
unresolved: no unit the chain may still act on, no live unit that reserves the bundle
and no reserving delegation. There is one cast for a bundle at most, and none while the
ballot leaves a rostered proposal open. So a plan made after a cast was built, and
before it resolved, does not cast on that bundle again.
-/
namespace ZcashVoting.RoundPlanning

open ChainSubmission KeyedData List Classification

namespace Obligation

def castBundle : Obligation → List Nat
  | .cast b .. => [b]
  | _ => []

variable {o : Obligation}

@[simp] theorem castBundle_withPrerequisite {bundles : List Nat} :
    (o.withPrerequisite bundles).castBundle = o.castBundle := by
  cases o <;> rfl

theorem castBundle_of_kind (h : o.kind ≠ .cast) : o.castBundle = [] := by
  cases o with
  | cast => exact absurd rfl h
  | _ => rfl

end Obligation

/-- The plan builds or prepares a spend of the bundle's authority. -/
def RoundObligations.Spends (plan : RoundObligations) (b : Nat) : Prop :=
  (∃ drafts prerequisite signs, .cast b drafts prerequisite signs ∈ plan.obligations) ∨
    .delegate b ∈ plan.obligations

namespace VoteUnit

/-- The unit's submission is unresolved: the chain may have it, or may still act on it. -/
def Unresolved (unit : VoteUnit) : Prop :=
  unit.phase = .submitted ∨ unit.phase = .submissionManaged ∨ unit.phase = .submittedWithoutHash

/-- A live unit reserves its bundle: it is not stale, and the plan does not retire it. -/
def HoldsBundle (unit : VoteUnit) (plan : RoundObligations) : Prop :=
    votePhaseHoldsBundle unit.phase = true ∧
    (∀ p ∈ unit.proposalIds, ⟨unit.bundleIndex, p⟩ ∉ plan.staleVoteKeys) ∧
    ∀ members, .retire unit.id members ∉ plan.obligations

end VoteUnit

namespace Classification

variable {c : Classification} {b p : Nat} {u : VoteUnit} {done : List Work} {st : Passes}
  {delegations : List Obligation} {plan : RoundObligations} {proposalIds : List Nat}

section

variable (hpl : c.PlanOf done st delegations plan) {drafts : List CastDraft}
include hpl

theorem PlanOf.pair_of_cast {prerequisite : Option Nat} {signs : Bool}
    (h : .cast b drafts prerequisite signs ∈ plan.obligations) :
    drafts ≠ [] ∧ ∀ draft ∈ drafts, (b, draft.proposalId) ∈ c.pairs ∧
      c.outcomeOf (b, draft.proposalId) = some (.cast draft.choice) := by
  obtain ⟨_, hpre, -, hfr⟩ := hpl.mem_obligations.mp h
  obtain ⟨b', hb', rfl⟩ := mem_map.mp hfr
  obtain ⟨rfl, rfl⟩ : b' = b ∧ (st.drafts.filter fun draft =>
      draft.1 = b').map Prod.snd = drafts := by
    cases hpre
    exact ⟨rfl, rfl⟩
  constructor
  · obtain ⟨draft, hdr, hb⟩ := mem_map.mp (mem_sortedSet.mp hb')
    refine ne_nil_of_mem (mem_map.mpr ⟨draft, mem_filter.mpr ⟨hdr, ?_⟩, rfl⟩)
    simpa using hb
  · intro draft hdr
    obtain ⟨d, hd, rfl⟩ := mem_map.mp hdr
    obtain ⟨hmem, hb⟩ := mem_filter.mp hd
    have hbu : d.1 = b' := by simpa using hb
    rw [← hbu]
    exact (mem_drafts hpl).mp hmem

theorem PlanOf.free_of_spends (h : plan.Spends b) : b ∉ c.heldBundles := by
  rcases h with ⟨_, _, _, hmem⟩ | hmem
  · obtain ⟨hne, hdr⟩ := hpl.pair_of_cast hmem
    obtain ⟨draft, hdra⟩ := exists_mem_of_ne_nil _ hne
    obtain ⟨_, -, hdec⟩ := outcomeOf_eq_some (hdr draft hdra).2
    cases hdec with
    | cast _ free => exact free
  · exact hpl.free_of_delegate (hpl.mem_delegate.mp hmem)

theorem PlanOf.held_of_holdsBundle (hu : UnitsOf c.snapshot c.units) (hmem : u ∈ c.units)
    (hho : u.HoldsBundle plan) :
    u.bundleIndex ∈ c.heldBundles := by
  obtain ⟨hph, hst, hret⟩ := hho
  obtain ⟨p, hhas⟩ := hu.exists_has hmem
  obtain ⟨vote, row, hvp⟩ := hu.vote_of_has hmem hhas
  have hfr : ⟨u.bundleIndex, p⟩ ∉ c.staleVoteKeys := by
    rw [← hpl.stale]
    exact hst p hhas.2
  have hke : ⟨u.bundleIndex, p⟩ ∉ c.retirableVoteKeys := by
    intro hkey
    obtain ⟨_, hun, hre, hhas'⟩ := mem_retirableVoteKeys.mp hkey
    obtain rfl := hu.eq_of_has hmem hun hhas hhas'
    have hfro : .retire u.id u.proposalIds ∈ c.retirements :=
      mem_map.mpr ⟨u, mem_filter.mpr ⟨hmem, hre⟩, rfl⟩
    exact hret _ (hpl.mem_obligations.mpr ⟨_, rfl, rfl, hfro⟩)
  refine mem_heldBundles.mpr (.inl ⟨p, vote, row, ?_⟩)
  simp [holds, hfr, hke, hvp, hph]

/-- A unit the plan drives is unresolved, or a live unit that reserves its bundle. -/
theorem PlanOf.held_of_reconciled (hu : UnitsOf c.snapshot c.units) (hask : c.Asked (.unit u)) :
    u.bundleIndex ∈ c.heldBundles := by
  have hmem : u ∈ c.units := hpl.owned u ((hpl.asked _).mpr hask)
  obtain ⟨p, hhas⟩ := hu.exists_has hmem
  obtain ⟨vote, row, hp⟩ := hu.vote_of_has hmem hhas
  rcases unit_of_asked hu hask with hpos | ⟨hpos, ha⟩
  · refine held_of_unresolved hu hpl.clear row ?_
    rw [hp]
    revert hpos
    cases u.phase <;> simp [LifecyclePosition.ofPhase]
  · have hst := not_stale_of_agrees hhas ha
    have hke := not_retirable_of_agrees hu hmem hhas ha
    have hho : votePhaseHoldsBundle vote.phase = true := by
      rw [hp]
      revert hpos
      cases u.phase <;> simp [LifecyclePosition.ofPhase, votePhaseHoldsBundle]
    exact mem_heldBundles.mpr (.inl ⟨p, vote, row, by simp [holds, hst, hke, hho]⟩)

theorem PlanOf.nodup_castBundles : (plan.obligations.flatMap Obligation.castBundle).Nodup := by
  rw [hpl.casts_eq (fun o _ => Obligation.castBundle_withPrerequisite)
    (fun o hk => Obligation.castBundle_of_kind hk)]
  unfold casts
  rw [flatMap_map]
  simp only [Obligation.castBundle, flatMap_singleton']
  exact nodup_sortedSet _

end

end Classification

/-- What a plan guarantees about spends of a bundle's authority. -/
structure OneSpend (s : RoundSnapshot) (units : List VoteUnit) (proposalIds : List Nat)
    (plan : RoundObligations) : Prop where
  unresolved : ∀ b, plan.Spends b → ∀ unit ∈ units, unit.bundleIndex = b → ¬unit.Unresolved
  holding : ∀ b, plan.Spends b → ∀ unit ∈ units, unit.bundleIndex = b → ¬unit.HoldsBundle plan
  delegation : ∀ b, plan.Spends b → ∀ phase, s.delegationPhase b = some phase →
    delegationPhaseHoldsBundle phase = false
  driven : ∀ b, plan.Spends b → ∀ o ∈ plan.obligations, o.kind = .reconcileChain → o.bundleIndex ≠ b
  once : (plan.obligations.flatMap Obligation.castBundle).Nodup
  decided : ∀ b drafts prerequisite signs, .cast b drafts prerequisite signs ∈ plan.obligations →
    ∀ p ∈ proposalIds, s.intents.get? p ≠ none

/-- The drafts of a cast on `b` were built and stored, in units of drafted votes, and none of
them is resolved; the ballot and the roster still have the drafted choices. -/
structure CastStored (H : BatchSighash) (s : RoundSnapshot) (proposalIds : List Nat) (b : Nat)
    (drafts : List CastDraft) : Prop where
  stored : ∀ draft ∈ drafts, ∃ vote, s.vote? b draft.proposalId = some vote ∧
    vote.choice = draft.choice ∧ votePhaseHoldsBundle vote.phase = true
  together : ∀ units, groupVoteUnits H s = .ok units → ∀ unit ∈ units, ∀ draft ∈ drafts,
    unit.Has b draft.proposalId → ∀ p ∈ unit.proposalIds, ∃ other ∈ drafts, other.proposalId = p
  ballot : ∀ draft ∈ drafts, s.intents.get? draft.proposalId = some (.choice draft.choice)
  roster : ∀ draft ∈ drafts, draft.proposalId ∈ proposalIds

variable {ballot : BallotIntentClassification} {proposalIds : List Nat} {units : List VoteUnit}
  {s : RoundSnapshot}

theorem Classification.PlanOf.oneSpend {done : List Work} {st : Passes}
    {delegations : List Obligation} {plan : RoundObligations}
    (hpl : Classification.PlanOf ⟨s, units, ballot⟩ done st delegations plan)
    (hu : UnitsOf s units) (hba : BallotOf proposalIds s.intents ballot) :
    OneSpend s units proposalIds plan := by
  constructor
  · rintro b hs unit hmem rfl hunr
    obtain ⟨p, hhas⟩ := hu.exists_has hmem
    obtain ⟨_, row, hph⟩ := hu.vote_of_has hmem hhas
    refine hpl.free_of_spends hs ?_
    exact held_of_unresolved hu hpl.clear row (by rw [hph]; exact hunr)
  · rintro b hs unit hmem rfl hh
    exact hpl.free_of_spends hs (hpl.held_of_holdsBundle hu hmem hh)
  · intro b hs phase hph
    by_contra hh
    have hbu : b ∈ s.bundleIndexes := by
      obtain ⟨status, hf, -⟩ := Option.map_eq_some_iff.mp hph
      have hb : status.bundleIndex = b := by simpa using List.find?_some hf
      exact s.mem_bundleIndexes.mpr ⟨status, mem_reverse.mp (mem_of_find?_eq_some hf), hb⟩
    refine hpl.free_of_spends hs (mem_heldBundles.mpr (.inr (.inl ?_)))
    exact ⟨phase, hph, by simpa using hh, hbu⟩
  · rintro b hs o ho hki rfl
    obtain ⟨planned, rfl, hsa, hfr⟩ := hpl.mem_obligations.mp ho
    rw [hki] at hsa hfr
    obtain ⟨w, hw, how⟩ := hfr
    cases w with
    | unit u =>
      obtain rfl : planned = reconcileObligation s u := by simpa [Work.obligations] using how
      exact hpl.free_of_spends hs (hpl.held_of_reconciled hu ((hpl.asked _).mp hw))
    | shares =>
      rcases (Work.obligation_cases how).2 with ⟨_, hne, -⟩ | ⟨_, _, _, -, rfl⟩
      · cases hne
      · cases hsa
  · exact hpl.nodup_castBundles
  · intro b drafts prerequisite signs hmem p hp hno
    obtain ⟨hne, hdr⟩ := hpl.pair_of_cast hmem
    obtain ⟨draft, hdra⟩ := exists_mem_of_ne_nil _ hne
    obtain ⟨_, -, hdec⟩ := outcomeOf_eq_some (hdr draft hdra).2
    have hop : p ∈ ballot.openProposals := by
      rw [hba.undecided, mem_filter]
      exact ⟨(hba.roster p).mpr hp, by simp [hno]⟩
    cases hdec with
    | cast _ _ terminal =>
      have hun := rosterIsTerminal_of_undecided (c := ⟨s, units, ballot⟩) hop
      rw [hun] at terminal
      cases terminal

/-- A bundle whose last cast is stored and unresolved is held. -/
theorem CastStored.held {H : BatchSighash} {b : Nat} (hs : CastStored H s proposalIds b drafts)
    (hne : drafts ≠ [])
    (hun : groupVoteUnits H s = .ok units) (hba : BallotOf proposalIds s.intents ballot) :
    b ∈ heldBundles ⟨s, units, ballot⟩ := by
  obtain ⟨draft, hd⟩ := exists_mem_of_ne_nil _ hne
  obtain ⟨vote, row, hch, hho⟩ := hs.stored draft hd
  have hst : ⟨b, draft.proposalId⟩ ∉ staleVoteKeys ⟨s, units, ballot⟩ := by
    intro hst
    obtain ⟨vote', row', hc⟩ := mem_staleVoteKeys.mp hst
    have hsa : vote' = vote := Option.some.inj (row'.symm.trans row)
    rw [hsa, hch] at hc
    simp [ballotRelation, hs.ballot draft hd] at hc
  have hke : ⟨b, draft.proposalId⟩ ∉ retirableVoteKeys ⟨s, units, ballot⟩ := by
    intro hkey
    obtain ⟨unit, hmem, hre, hhas⟩ := mem_retirableVoteKeys.mp hkey
    -- every member of the unit is a drafted proposal, which is rostered
    have hro : rosterRelation unit.proposalIds ballot.roster = .rostered := by
      unfold rosterRelation
      rw [if_pos]
      refine all_eq_true.mpr fun p hp => ?_
      obtain ⟨other, hot, rfl⟩ := hs.together units hun unit hmem draft hd hhas p hp
      simpa [hba.roster] using hs.roster other hot
    simp [isRetired, hro] at hre
  exact mem_heldBundles.mpr
    (.inl ⟨draft.proposalId, vote, row, by simp [holds, hst, hke, hho]⟩)

/-- A plan spends a bundle's authority only while nothing of the bundle is unresolved, casts
on it once, and only with a complete ballot; and once its cast is stored, no later plan
spends that bundle before the cast resolves. -/
theorem cast_spends_authority_alone {H : BatchSighash} {s : RoundSnapshot} {proposalIds : List Nat}
    {plan : RoundObligations} (h : classifyRound H s proposalIds = .ok plan) :
    (∀ units, groupVoteUnits H s = .ok units → OneSpend s units proposalIds plan) ∧
    ∀ b drafts prerequisite signs, .cast b drafts prerequisite signs ∈ plan.obligations →
      ∀ s' proposalIds' plan', classifyRound H s' proposalIds' = .ok plan' →
        CastStored H s' proposalIds' b drafts → ¬plan'.Spends b := by
  rcases classifyRound_ok h with ⟨-, hnil⟩ | ⟨_, units, _, _, _, hba, hun, hu, hpl⟩
  · refine ⟨fun units _ => ?_, ?_⟩
    · constructor <;> simp [RoundObligations.Spends, hnil]
    · intro b drafts prerequisite signs hmem
      rw [hnil] at hmem
      cases hmem
  · constructor
    · intro units' hu'
      obtain rfl : units = units' := Except.ok.inj (hun.symm.trans hu')
      exact hpl.oneSpend hu hba
    · intro b drafts prerequisite signs hmem s' proposalIds' plan' h' hst hs
      have hne := (hpl.pair_of_cast hmem).1
      rcases classifyRound_ok h' with ⟨-, hnil⟩ | ⟨_, _, _, _, _, hba', hu', -, hpl'⟩
      · simp [RoundObligations.Spends, hnil] at hs
      · exact hpl'.free_of_spends hs (hst.held hne hu' hba')

/-- The round after the cast of proposal 2 was built. -/
theorem castStored_sample :
    CastStored sampleSighash (oneVoteRound 2 1 .committed) [1, 2] 0 [⟨2, 1⟩] := by
  have hun : groupVoteUnits sampleSighash (oneVoteRound 2 1 .committed) =
      .ok [⟨.singleton 0 2, 0, [⟨2, none⟩], .committed⟩] := by decide +kernel
  constructor
  · intro draft hd
    rw [mem_singleton] at hd
    subst hd
    exact ⟨_, rfl, rfl, rfl⟩
  · intro units hun' unit hmem draft hd hhas p hp
    cases hun.symm.trans hun'
    rw [mem_singleton] at hmem
    subst hmem
    exact ⟨⟨2, 1⟩, mem_singleton_self _, by simpa [VoteUnit.proposalIds, eq_comm] using hp⟩
  · intro draft hd
    rw [mem_singleton] at hd
    subst hd
    rfl
  · intro draft hd
    rw [mem_singleton] at hd
    subst hd
    decide

theorem cast_spends_authority_alone_sample :
    (∀ units, groupVoteUnits sampleSighash (confirmedRound .confirmed) = .ok units →
      OneSpend (confirmedRound .confirmed) units [1, 2] confirmedPlan) ∧
    ∀ plan', classifyRound sampleSighash (oneVoteRound 2 1 .committed) [1, 2] = .ok plan' →
      ¬plan'.Spends 0 := by
  obtain ⟨hone, hla⟩ := cast_spends_authority_alone classifyRound_confirmedRound
  refine ⟨hone, fun plan' h' => ?_⟩
  have hca : .cast 0 [⟨2, 1⟩] none false ∈ confirmedPlan.obligations := by decide
  exact hla 0 [⟨2, 1⟩] none false hca _ _ plan' h' castStored_sample

end ZcashVoting.RoundPlanning
