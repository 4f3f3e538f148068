import ZcashVoting.RoundPlanning.Coverage

/-!
# Dispatched work does not depend on the roster

Two classifications of one snapshot against two rosters. What they plan for units on the
wire, for the shares of confirmed votes and for submitted shares is the same work. Only
the delegation such work waits for may differ, and only on a bundle that one of the two
rosters wants delegated and the other does not.
-/
namespace ZcashVoting.RoundPlanning

open ChainSubmission KeyedData List Obligation Classification

namespace Obligation

def bundleIndex : Obligation → Nat
  | .delegate b => b
  | .advanceDelegation b .. => b
  | .retire (.singleton b _) _ => b
  | .retire (.batch b _) _ => b
  | .cast b .. => b
  | .blocked b _ => b
  | .reconcileChain _ b .. => b
  | .deliver b .. => b
  | .confirm b .. => b

def drivesOnWire : Obligation → Bool
  | .reconcileChain _ _ _ undispatched _ _ => !undispatched
  | _ => false

def concernsDispatched : Obligation → Bool
  | .reconcileChain _ _ _ undispatched _ _ => !undispatched
  | .deliver .. => true
  | .confirm .. => true
  | _ => false

/-- The obligation without what it waits for. -/
def work (o : Obligation) : Obligation := o.withPrerequisite []

variable {o : Obligation} {bundles bundles' : List Nat}

@[simp] theorem withPrerequisite_withPrerequisite :
    (o.withPrerequisite bundles).withPrerequisite bundles' = o.withPrerequisite bundles' := by
  cases o <;> rfl

@[simp] theorem work_withPrerequisite : (o.withPrerequisite bundles).work = o.work :=
  withPrerequisite_withPrerequisite

@[simp] theorem withPrerequisite_work :
    o.work.withPrerequisite bundles = o.withPrerequisite bundles :=
  withPrerequisite_withPrerequisite

@[simp] theorem bundleIndex_withPrerequisite :
    (o.withPrerequisite bundles).bundleIndex = o.bundleIndex := by
  cases o with
  | retire | _ => rfl

@[simp] theorem concernsDispatched_withPrerequisite :
    (o.withPrerequisite bundles).concernsDispatched = o.concernsDispatched := by
  cases o <;> rfl

@[simp] theorem drivesOnWire_withPrerequisite :
    (o.withPrerequisite bundles).drivesOnWire = o.drivesOnWire := by
  cases o <;> rfl

/-- What is waited for depends on the obligation's own bundle. -/
theorem withPrerequisite_congr (h : o.bundleIndex ∈ bundles ↔ o.bundleIndex ∈ bundles') :
    o.withPrerequisite bundles = o.withPrerequisite bundles' := by
  cases o with
  | retire => rfl
  | _ => simp_all [withPrerequisite, withPrerequisite.blockedBy, bundleIndex]

end Obligation

namespace Classification

variable {c : Classification} {b p : Nat} {done : List Work} {st : Passes}
  {delegations : List Obligation} {plan : RoundObligations} {proposalIds : List Nat}
  {o : Obligation}

/-- The work on what is dispatched, read off the snapshot and its units. -/
def DispatchedWork (s : RoundSnapshot) (units : List VoteUnit) (confirms : List Obligation)
    (o : Obligation) : Prop :=
  (∃ unit ∈ units, LifecyclePosition.ofPhase unit.phase = .onWire ∧
    o = reconcileObligation s unit) ∨
  (∃ key vote owed, s.votes.get? key = some vote ∧
    LifecyclePosition.ofPhase vote.phase = .confirmed ∧
    deliverObligation s key.bundleIndex key.proposalId = .ok owed ∧ o ∈ owed) ∨
  o ∈ confirms

section

variable (hpl : c.PlanOf done st delegations plan)
include hpl

section

variable (hu : UnitsOf c.snapshot c.units) (hba : BallotOf proposalIds c.snapshot.intents c.ballot)
include hu hba

/-- Work on the wire or on confirmed votes is dispatched work. -/
theorem PlanOf.dispatched_of_work {w : Work} (hw : w ∈ done) (ho : o ∈ w.obligations c.snapshot)
    (hdis : o.concernsDispatched = true) : DispatchedWork c.snapshot c.units c.confirms o := by
  cases w with
  | unit u =>
    obtain rfl : o = reconcileObligation c.snapshot u := by simpa [Work.obligations] using ho
    have hpos : LifecyclePosition.ofPhase u.phase ≠ .undispatched := by
      simpa [reconcileObligation, concernsDispatched] using hdis
    rcases unit_of_asked hu ((hpl.asked _).mp hw) with hwi | ⟨hund, -⟩
    · exact .inl ⟨u, hpl.owned u hw, hwi, rfl⟩
    · exact absurd hund hpos
  | shares key =>
    obtain ⟨owed, howe⟩ := hpl.owed key hw
    obtain ⟨vote, row, hpos⟩ := (hpl.asked_shares hu hba).mp ((hpl.asked _).mp hw)
    have ho' : o ∈ owed := by simpa [Work.obligations, howe, Except.toOption] using ho
    exact .inr (.inl ⟨key, vote, owed, row, hpos, howe, ho'⟩)

theorem PlanOf.planned_of_dispatched (h : DispatchedWork c.snapshot c.units c.confirms o) :
    o.concernsDispatched = true ∧ c.PlannedBy done st delegations o o.kind := by
  rcases h with ⟨u, hmem, hpos, rfl⟩ | ⟨key, vote, _, row, hpos, howe, ho⟩ | ho
  · have hd := (hpl.asked _).mpr ((hpl.asked_onWire hu hba hpos).mpr hmem)
    exact ⟨by simp [reconcileObligation, concernsDispatched, hpos], .unit u, hd,
      mem_singleton_self _⟩
  · have hd := (hpl.asked _).mpr ((hpl.asked_shares hu hba).mpr ⟨vote, row, hpos⟩)
    have hwo : o ∈ (Work.shares key).obligations c.snapshot := by
      simpa [Work.obligations, howe, Except.toOption] using ho
    obtain ⟨_, -, ⟨-, rfl⟩ | ⟨-, _, rfl⟩⟩ := deliverObligation_ok howe
    · cases ho
    · rw [mem_singleton] at ho
      subst ho
      exact ⟨rfl, _, hd, hwo⟩
  · obtain ⟨_, -, rfl⟩ := mem_map.mp ho
    exact ⟨rfl, ho⟩

/-- The dispatched part of a plan, in terms that do not name the roster. -/
theorem PlanOf.mem_dispatched : o ∈ plan.obligations ∧ o.concernsDispatched = true ↔ ∃ planned,
      planned.withPrerequisite (delegations.filterMap delegationBundle) = o ∧
      DispatchedWork c.snapshot c.units c.confirms planned := by
  rw [hpl.mem_obligations]
  constructor
  · rintro ⟨⟨planned, rfl, -, hf⟩, hdis⟩
    refine ⟨planned, rfl, ?_⟩
    cases planned with
    | reconcileChain | deliver =>
      obtain ⟨_, hw, ho⟩ := hf
      exact hpl.dispatched_of_work hu hba hw ho hdis
    | confirm => exact .inr (.inr hf)
    | delegate | advanceDelegation | retire | cast | blocked => cases hdis
  · rintro ⟨planned, rfl, h⟩
    obtain ⟨hdis, hf⟩ := hpl.planned_of_dispatched hu hba h
    refine ⟨⟨planned, rfl, (kind_withPrerequisite _ _).symm, ?_⟩, by simpa using hdis⟩
    rw [kind_withPrerequisite]
    exact hf

end

theorem PlanOf.mem_delegate : .delegate b ∈ plan.obligations ↔ .delegate b ∈ delegations := by
  rw [hpl.mem_obligations]
  constructor
  · rintro ⟨planned, hpre, -, hfr⟩
    cases planned with
    | delegate =>
      cases hpre
      exact hfr
    | _ => cases hpre
  · intro hmem
    exact ⟨.delegate b, rfl, rfl, hmem⟩

/-- A unit on the wire is on a bundle that is not delegated now. -/
theorem PlanOf.no_delegate_of_onWire (hu : UnitsOf c.snapshot c.units) {u : VoteUnit}
    (hmem : u ∈ c.units) (hpos : LifecyclePosition.ofPhase u.phase = .onWire) :
    .delegate u.bundleIndex ∉ plan.obligations := by
  rw [hpl.mem_delegate]
  intro hdel
  refine hpl.free_of_delegate hdel ?_
  obtain ⟨_, hhas⟩ := hu.exists_has hmem
  obtain ⟨_, row, hph⟩ := hu.vote_of_has hmem hhas
  refine held_of_unresolved hu hpl.clear row ?_
  rw [hph]
  revert hpos
  cases u.phase <;> simp [LifecyclePosition.ofPhase]

end

theorem not_dispatched_of_empty (hu : UnitsOf c.snapshot c.units)
    (he : c.snapshot.delegations = []) :
    ¬DispatchedWork c.snapshot c.units c.confirms o := by
  have hn : ∀ b, b ∉ c.snapshot.bundleIndexes := by
    simp [RoundSnapshot.bundleIndexes_of_empty he]
  rintro (⟨u, hmem, -⟩ | ⟨key, vote, -, row, -⟩ | ho)
  · obtain ⟨p, hhas⟩ := hu.exists_has hmem
    obtain ⟨_, row, -⟩ := hu.vote_of_has hmem hhas
    exact hn _ (c.snapshot.bundle_of_vote row)
  · exact hn key.bundleIndex (c.snapshot.bundle_of_vote (p := key.proposalId) row)
  · obtain ⟨_, hrow, -⟩ := mem_map.mp ho
    simp [RoundSnapshot.sharePhases_of_empty he] at hrow

end Classification

/-! ### Two rosters -/

/-- Two plans have the same dispatched work: the same obligations for units on the wire, the
same deliveries and confirmations, and these wait for the same delegation wherever the two
plans agree on delegating the bundle. -/
structure SameDispatched (plan₁ plan₂ : RoundObligations) : Prop where
  onWire : ∀ o : Obligation, o.drivesOnWire = true → (o ∈ plan₁.obligations ↔ o ∈ plan₂.obligations)
  work : ∀ w, (∃ o ∈ plan₁.obligations, o.concernsDispatched = true ∧ o.work = w) ↔
    ∃ o ∈ plan₂.obligations, o.concernsDispatched = true ∧ o.work = w
  waits : ∀ o₁ ∈ plan₁.obligations, ∀ o₂ ∈ plan₂.obligations, o₁.concernsDispatched = true →
    o₁.work = o₂.work →
    (.delegate o₁.bundleIndex ∈ plan₁.obligations ↔ .delegate o₁.bundleIndex ∈ plan₂.obligations) →
    o₁ = o₂

theorem Obligation.concernsDispatched_of_drivesOnWire {o : Obligation} (h : o.drivesOnWire = true) :
    o.concernsDispatched = true := by
  cases o <;> simp_all [drivesOnWire, concernsDispatched]

section

variable {plan₁ plan₂ : RoundObligations}

theorem SameDispatched.of_none (h₁ : ∀ o ∈ plan₁.obligations, o.concernsDispatched = false)
    (h₂ : ∀ o ∈ plan₂.obligations, o.concernsDispatched = false) : SameDispatched plan₁ plan₂ := by
  have hno {plan : RoundObligations} (h : ∀ o ∈ plan.obligations, o.concernsDispatched = false)
      {o : Obligation} (ho : o ∈ plan.obligations) : ¬o.concernsDispatched = true := by
    simp [h o ho]
  constructor
  · intro o hwi
    have hdis := concernsDispatched_of_drivesOnWire hwi
    exact ⟨fun ho => absurd hdis (hno h₁ ho), fun ho => absurd hdis (hno h₂ ho)⟩
  · intro w
    constructor
    · rintro ⟨o, ho, hdis, -⟩
      exact absurd hdis (hno h₁ ho)
    · rintro ⟨_, ho, hdis, -⟩
      exact absurd hdis (hno h₂ ho)
  · intro o₁ ho₁ o₂ ho₂ hdis
    exact absurd hdis (hno h₁ ho₁)

variable {s : RoundSnapshot} {units : List VoteUnit} {ballot₁ ballot₂ : BallotIntentClassification}
  {done₁ done₂ : List Work} {st₁ st₂ : Passes} {delegations₁ delegations₂ : List Obligation}
  {proposalIds₁ proposalIds₂ : List Nat}

/-- Two plans that agree on delegating a bundle agree on what its work waits for. -/
theorem delegated_congr {b : Nat}
    (hp₁ : Classification.PlanOf ⟨s, units, ballot₁⟩ done₁ st₁ delegations₁ plan₁)
    (hp₂ : Classification.PlanOf ⟨s, units, ballot₂⟩ done₂ st₂ delegations₂ plan₂)
    (ha : .delegate b ∈ plan₁.obligations ↔ .delegate b ∈ plan₂.obligations) :
    b ∈ delegations₁.filterMap delegationBundle ↔ b ∈ delegations₂.filterMap delegationBundle := by
  rw [hp₁.mem_delegate, hp₂.mem_delegate] at ha
  rw [delegationBundle_mem hp₁.delegated, delegationBundle_mem hp₂.delegated, ha]
  -- the other disjunct names the snapshot only
  exact Iff.rfl

theorem sameDispatched_of_plans (hu : UnitsOf s units)
    (hba₁ : BallotOf proposalIds₁ s.intents ballot₁)
    (hba₂ : BallotOf proposalIds₂ s.intents ballot₂)
    (hp₁ : Classification.PlanOf ⟨s, units, ballot₁⟩ done₁ st₁ delegations₁ plan₁)
    (hp₂ : Classification.PlanOf ⟨s, units, ballot₂⟩ done₂ st₂ delegations₂ plan₂) :
    SameDispatched plan₁ plan₂ := by
  have hmem₁ (o : Obligation) := hp₁.mem_dispatched (o := o) hu hba₁
  have hmem₂ (o : Obligation) := hp₂.mem_dispatched (o := o) hu hba₂
  constructor
  · intro o hwi
    have hdis := concernsDispatched_of_drivesOnWire hwi
    have hiff₁ := hmem₁ o
    have hiff₂ := hmem₂ o
    rw [and_iff_left hdis] at hiff₁ hiff₂
    rw [hiff₁, hiff₂]
    refine exists_congr fun planned => and_congr_left fun hw => ?_
    -- the bundle of a unit on the wire is delegated by neither plan
    suffices hs : planned.drivesOnWire = true →
      planned.withPrerequisite (delegations₁.filterMap delegationBundle) =
        planned.withPrerequisite (delegations₂.filterMap delegationBundle) by
      constructor
      · rintro rfl
        exact (hs (by simpa using hwi)).symm
      · rintro rfl
        exact hs (by simpa using hwi)
    intro hd
    refine withPrerequisite_congr (delegated_congr hp₁ hp₂ ?_)
    rcases hw with ⟨_, hmem, hpos, rfl⟩ | ⟨_, _, _, -, -, howe, ho⟩ | ho
    · exact iff_of_false (hp₁.no_delegate_of_onWire hu hmem hpos)
        (hp₂.no_delegate_of_onWire hu hmem hpos)
    · obtain ⟨_, -, ⟨-, rfl⟩ | ⟨-, _, rfl⟩⟩ := deliverObligation_ok howe
      · cases ho
      · rw [mem_singleton] at ho
        subst ho
        cases hd
    · obtain ⟨_, -, rfl⟩ := mem_map.mp ho
      cases hd
  · intro w
    constructor
    · rintro ⟨o, ho, hdis, rfl⟩
      obtain ⟨planned, rfl, hw⟩ := (hmem₁ o).mp ⟨ho, hdis⟩
      obtain ⟨ho₂, hdis₂⟩ := (hmem₂ _).mpr ⟨planned, rfl, hw⟩
      exact ⟨_, ho₂, hdis₂, by simp⟩
    · rintro ⟨o, ho, hdis, rfl⟩
      obtain ⟨planned, rfl, hw⟩ := (hmem₂ o).mp ⟨ho, hdis⟩
      obtain ⟨ho₁, hdis₁⟩ := (hmem₁ _).mpr ⟨planned, rfl, hw⟩
      exact ⟨_, ho₁, hdis₁, by simp⟩
  · intro o₁ ho₁ o₂ ho₂ hdis heq ha
    obtain ⟨_, rfl, -⟩ := hp₁.mem_obligations.mp ho₁
    obtain ⟨planned₂, rfl, -⟩ := hp₂.mem_obligations.mp ho₂
    simp only [work_withPrerequisite] at heq
    simp only [bundleIndex_withPrerequisite] at ha
    rw [← withPrerequisite_work (o := planned₂), ← heq, withPrerequisite_work]
    exact withPrerequisite_congr (delegated_congr hp₁ hp₂ ha)

end

/-- Whatever two rosters a round is classified against, the dispatched work is the same. -/
theorem dispatched_work_ignores_roster {H : BatchSighash} {s : RoundSnapshot}
    {proposalIds₁ proposalIds₂ : List Nat} {plan₁ plan₂ : RoundObligations}
    (h₁ : classifyRound H s proposalIds₁ = .ok plan₁)
    (h₂ : classifyRound H s proposalIds₂ = .ok plan₂) : SameDispatched plan₁ plan₂ := by
  -- without bundles there is nothing dispatched, in the bundle-setup answer or in a plan
  have hn (he : s.delegations = []) {proposalIds : List Nat} {plan : RoundObligations}
      (h : classifyRound H s proposalIds = .ok plan) :
      ∀ o ∈ plan.obligations, o.concernsDispatched = false := by
    intro o ho
    rcases classifyRound_ok h with ⟨-, hnil⟩ | ⟨_, units, _, _, _, hba, -, hu, hpl⟩
    · rw [hnil] at ho
      cases ho
    · by_contra hdis
      obtain ⟨_, -, hwo⟩ := (hpl.mem_dispatched hu hba).mp ⟨ho, by simpa using hdis⟩
      exact not_dispatched_of_empty hu he hwo
  rcases classifyRound_ok h₁ with ⟨he, -⟩ | ⟨_, units, _, _, _, hba₁, hun, hu, hpl₁⟩
  · exact .of_none (hn he h₁) (hn he h₂)
  · rcases classifyRound_ok h₂ with ⟨he, -⟩ | ⟨_, units₂, _, _, _, hba₂, hun₂, -, hpl₂⟩
    · exact .of_none (hn he h₁) (hn he h₂)
    · obtain rfl : units = units₂ := Except.ok.inj (hun.symm.trans hun₂)
      exact sameDispatched_of_plans hu hba₁ hba₂ hpl₁ hpl₂

/-- The plan of the round whose delegation is prepared, when both proposals are rostered. -/
def delegatingPlan : RoundObligations :=
  samplePlan [.deliver 0 1 5 [1] (some 0), .cast 0 [⟨2, 1⟩] (some 0) true, .delegate 0,
    .confirm 0 1 0 true false (some 0)] [1, 2] [] []

/-- The plan of the same round when only the confirmed vote's proposal is rostered. -/
def narrowPlan : RoundObligations :=
  { samplePlan [.deliver 0 1 5 [1] none, .confirm 0 1 0 true false none] [1] [] [] with
    unrosteredIntents := [2] }

theorem classifyRound_delegating :
    classifyRound sampleSighash (confirmedRound .prepared) [1, 2] = .ok delegatingPlan := by
  decide +kernel

theorem classifyRound_narrow :
    classifyRound sampleSighash (confirmedRound .prepared) [1] = .ok narrowPlan := by
  decide +kernel

theorem dispatched_work_ignores_roster_sample : SameDispatched delegatingPlan narrowPlan :=
  dispatched_work_ignores_roster classifyRound_delegating classifyRound_narrow

/-- Rostering a second proposal makes the delivery of the first wait for a delegation, so the
two rosters do not give the same obligations. -/
theorem roster_changes_delivery_prerequisite :
    classifyRound sampleSighash (confirmedRound .prepared) [1, 2] = .ok delegatingPlan ∧
    classifyRound sampleSighash (confirmedRound .prepared) [1] = .ok narrowPlan ∧
    ∃ o : Obligation, o.concernsDispatched = true ∧ o ∈ delegatingPlan.obligations ∧
      o ∉ narrowPlan.obligations :=
  ⟨classifyRound_delegating, classifyRound_narrow, .deliver 0 1 5 [1] (some 0),
    rfl, by decide, by decide⟩

end ZcashVoting.RoundPlanning
