import ZcashVoting.RoundPlanning.BatchUnits
import ZcashVoting.RoundPlanning.Projection

/-!
# Steps and obligations determine each other

A step names only some fields of the obligation it was made from. In a classified round
these are enough: no two obligations have a step in common, so the first obligation a step
matches is the one it was made from.
-/
namespace ZcashVoting.RoundPlanning

open ChainSubmission KeyedData List Obligation NextStep Classification RoundSnapshot

/-! ### Steps of one obligation -/

/-- The kind of the obligations a step is made from. -/
def NextStep.kind : NextStep → Obligation.Kind
  | .delegate _ => .delegate
  | .advanceDelegation _ => .advanceDelegation
  | .advanceImportedDelegation _ => .advanceDelegation
  | .castVote _ _ _ => .cast
  | .advanceVote _ _ => .reconcileChain
  | .advanceVoteBatch _ _ => .reconcileChain
  | .submitShares _ _ _ => .deliver
  | .confirmShare _ _ _ => .confirm

namespace Obligation

/-- The obligation is executed by a step; a retirement and a block are not. -/
def isExecutable : Obligation → Bool
  | .retire _ _ => false
  | .blocked _ _ => false
  | _ => true

/-- The bundle whose delegation must clear first. -/
def prerequisite : Obligation → Option Nat
  | .cast _ _ prerequisite _ => prerequisite
  | .reconcileChain _ _ _ _ _ prerequisite => prerequisite
  | .deliver _ _ _ _ prerequisite => prerequisite
  | .confirm _ _ _ _ _ prerequisite => prerequisite
  | _ => none

/-- A singleton unit is anchored on its own proposal. -/
def Anchored : Obligation → Prop
  | .reconcileChain (.singleton _ p) _ ids _ _ _ => anchorOf ids = p
  | _ => True

variable {o : Obligation} {step : NextStep} {bundles : List Nat}

@[simp] theorem steps_withPrerequisite : (o.withPrerequisite bundles).steps = o.steps := by
  cases o with
  | advanceDelegation _ imported => cases imported <;> rfl
  | reconcileChain unit => cases unit <;> rfl
  | _ => rfl

/-- The test of `resolveStep` accepts the steps of the obligation and no others. -/
theorem executes_iff (ha : o.Anchored) : o.executes step = true ↔ step ∈ o.steps := by
  cases o with
  | advanceDelegation _ imported =>
    cases imported <;> cases step <;> simp [executes, steps, eq_comm]
  | reconcileChain unit =>
    cases unit with
    | singleton =>
      rw [Anchored] at ha
      cases step with
      | advanceVote =>
        simp only [executes, steps, Bool.and_eq_true, decide_eq_true_eq, mem_singleton,
          advanceVote.injEq, ha]
        exact and_congr eq_comm eq_comm
      | _ => simp [executes, steps]
    | batch =>
      cases step with
      | advanceVoteBatch =>
        simp only [executes, steps, Bool.and_eq_true, decide_eq_true_eq, mem_singleton,
          advanceVoteBatch.injEq]
        exact and_congr eq_comm eq_comm
      | _ => simp [executes, steps]
  | cast =>
    cases step with
    | castVote =>
      simp only [executes, steps, Bool.and_eq_true, decide_eq_true_eq, any_eq_true, mem_map,
        castVote.injEq]
      constructor
      · rintro ⟨rfl, draft, hd, rfl, rfl⟩
        exact ⟨draft, hd, rfl, rfl, rfl⟩
      · rintro ⟨draft, hd, rfl, rfl, rfl⟩
        exact ⟨rfl, draft, hd, rfl, rfl⟩
    | _ => simp [executes, steps]
  | deliver =>
    cases step with
    | submitShares _ _ share =>
      simp only [executes, steps, Bool.and_eq_true, decide_eq_true_eq, contains_iff_mem, mem_map,
        submitShares.injEq]
      constructor
      · rintro ⟨⟨rfl, rfl⟩, hs⟩
        exact ⟨share, hs, rfl, rfl, rfl⟩
      · rintro ⟨_, hs, rfl, rfl, rfl⟩
        exact ⟨⟨rfl, rfl⟩, hs⟩
    | _ => simp [executes, steps]
  | confirm =>
    cases step with
    | confirmShare =>
      simp only [executes, steps, Bool.and_eq_true, decide_eq_true_eq, mem_singleton,
        confirmShare.injEq, and_assoc]
      exact and_congr eq_comm (and_congr eq_comm eq_comm)
    | _ => simp [executes, steps]
  | delegate => cases step <;> simp [executes, steps, eq_comm]
  | retire | blocked => cases step <;> simp [executes, steps]

@[simp] theorem anchored_withPrerequisite : (o.withPrerequisite bundles).Anchored ↔ o.Anchored := by
  cases o with
  | reconcileChain unit => cases unit <;> rfl
  | _ => rfl

theorem anchored_of_kind (h : o.kind ≠ .reconcileChain) : o.Anchored := by
  cases o with
  | reconcileChain => exact absurd rfl h
  | _ => trivial

@[simp] theorem delegationBundle_withPrerequisite :
    delegationBundle (o.withPrerequisite bundles) = delegationBundle o := by
  cases o <;> rfl

theorem prerequisite_withPrerequisite (hwo : (o.withPrerequisite bundles).isExecutable = true)
    (hvo : delegationBundle (o.withPrerequisite bundles) = none) :
    (o.withPrerequisite bundles).prerequisite =
      if bundles.contains o.bundleIndex then some o.bundleIndex else none := by
  cases o with
  | delegate | advanceDelegation => cases hvo
  | retire | blocked => cases hwo
  | _ => rfl

theorem executable_of_kind (hre : o.kind ≠ .retire) (hbl : o.kind ≠ .blocked) :
    o.isExecutable = true := by
  cases o with
  | retire => exact absurd rfl hre
  | blocked => exact absurd rfl hbl
  | _ => rfl

@[simp] theorem isExecutable_withPrerequisite :
    (o.withPrerequisite bundles).isExecutable = o.isExecutable := by
  cases o <;> rfl

/-- What a step tells of its obligation. -/
theorem of_step (h : step ∈ o.steps) : (step.kind = o.kind ∧ o.isExecutable = true) ∧
      step.delegatedBundle = delegationBundle o ∧
      (step.dependentBundle = none ∨ step.dependentBundle = some o.bundleIndex) ∧
      (step.dependentBundle = none ↔ (delegationBundle o).isSome) := by
  cases o with
  | advanceDelegation _ imported =>
    cases imported <;> rw [mem_singleton.mp h] <;>
      exact ⟨⟨rfl, rfl⟩, rfl, .inl rfl, by simp [dependentBundle, delegationBundle]⟩
  | reconcileChain unit =>
    cases unit <;> rw [mem_singleton.mp h] <;>
      exact ⟨⟨rfl, rfl⟩, rfl, .inr rfl, by simp [dependentBundle, delegationBundle]⟩
  | cast | deliver =>
    obtain ⟨_, -, rfl⟩ := mem_map.mp h
    exact ⟨⟨rfl, rfl⟩, rfl, .inr rfl, by simp [dependentBundle, delegationBundle]⟩
  | delegate | confirm =>
    rw [mem_singleton.mp h]
    simp [delegatedBundle, dependentBundle, delegationBundle, bundleIndex, NextStep.kind, kind,
      isExecutable]
  | retire | blocked => cases h

end Obligation

variable {obligations : List Obligation}

theorem mem_nextSteps {step : NextStep} : step ∈ nextSteps obligations ↔
    ∃ o ∈ obligations, step ∈ o.steps := by
  simp [nextSteps, stepsFromObligations]

theorem stepRank_lt {step later : NextStep} (hb : step.dependentBundle = some b)
    (hde : later.delegatedBundle = some b) : stepRank later < stepRank step := by
  cases later <;> simp only [delegatedBundle, reduceCtorEq] at hde <;> cases step <;>
    simp_all [dependentBundle, stepRank, Prod.Lex.toLex_lt_toLex]

/-- Whoever works through a plan in its order meets no step whose prerequisite is still listed. -/
theorem plan_order_clears_prerequisites (i : Fin (nextSteps obligations).length) :
    blockingPrerequisite ((nextSteps obligations).drop i) ((nextSteps obligations).get i) =
      none := by
  have hs : (nextSteps obligations).Pairwise (stepRank · ≤ stepRank ·) := pairwise_insertionSort ..
  unfold blockingPrerequisite
  split
  · rfl
  next hb =>
    refine find?_eq_none.mpr fun later hla hde => ?_
    obtain ⟨j, hj, rfl⟩ := mem_drop_iff_getElem.mp hla
    have hle := hs.rel_get_of_le (a := i) (b := ⟨i + j, by omega⟩) (Nat.le_add_right ..)
    exact hle.not_gt (stepRank_lt hb (by simpa using hde))

/-! ### A step names one obligation of a plan -/

namespace Classification

variable {c : Classification} {b p : Nat} {u : VoteUnit} {w w' : Work} {done : List Work}
  {st : Passes} {delegations os : List Obligation} {plan : RoundObligations} {o o' : Obligation}
  {step : NextStep} {needing : List Nat}

section

variable (hu : UnitsOf c.snapshot c.units)
include hu

theorem anchored_reconcile (hmem : u ∈ c.units) : (reconcileObligation c.snapshot u).Anchored := by
  rcases hu.shape u hmem with ⟨_, _, -, -, rfl⟩ | ⟨_, hb⟩
  · rfl
  · simp [reconcileObligation, Obligation.Anchored, hb.id]

theorem has_anchor (hmem : u ∈ c.units) : u.Has u.bundleIndex u.anchorProposalId := by
  obtain ⟨_, -, hp⟩ := hu.exists_has hmem
  refine ⟨rfl, ?_⟩
  unfold VoteUnit.anchorProposalId
  cases hids : u.proposalIds with
  | nil =>
    rw [hids] at hp
    cases hp
  | cons => exact mem_cons_self

theorem reconcile_step (hmem : u ∈ c.units) (h : step ∈ (reconcileObligation c.snapshot u).steps) :
    step = .advanceVote u.bundleIndex u.anchorProposalId ∨
      step = .advanceVoteBatch u.bundleIndex u.anchorProposalId := by
  have ha := anchored_reconcile hu hmem
  unfold reconcileObligation at h ha
  cases hid : u.id with
  | singleton _ p =>
    rw [hid] at h ha
    have hp : anchorOf u.proposalIds = p := ha
    left
    rw [mem_singleton.mp h, ← hp]
    rfl
  | batch =>
    rw [hid] at h
    exact .inr (mem_singleton.mp h)

theorem work_step (hown : ∀ unit, w = .unit unit → unit ∈ c.units)
    (h : step ∈ (w.obligations c.snapshot).flatMap steps) :
    (∃ unit, w = .unit unit ∧ (step = .advanceVote unit.bundleIndex unit.anchorProposalId ∨
      step = .advanceVoteBatch unit.bundleIndex unit.anchorProposalId)) ∨
    ∃ key share, w = .shares key ∧ step = .submitShares key.bundleIndex key.proposalId share := by
  obtain ⟨_, ho, hs⟩ := mem_flatMap.mp h
  rcases (Work.obligation_cases ho).2 with ⟨unit, rfl, rfl⟩ | ⟨key, _, _, rfl, rfl⟩
  · exact .inl ⟨unit, rfl, reconcile_step hu (hown unit rfl) hs⟩
  · obtain ⟨share, -, rfl⟩ := mem_map.mp hs
    exact .inr ⟨key, share, rfl, rfl⟩

theorem work_eq_of_step (ho : ∀ unit, .unit unit ∈ done → unit ∈ c.units) (hw : w ∈ done)
    (hw' : w' ∈ done) (h : step ∈ (w.obligations c.snapshot).flatMap steps)
    (h' : step ∈ (w'.obligations c.snapshot).flatMap steps) : w = w' := by
  have hun {unit unit' : VoteUnit} (hmem : .unit unit ∈ done) (hmem' : .unit unit' ∈ done)
      (hb : unit.bundleIndex = unit'.bundleIndex)
      (hp : unit.anchorProposalId = unit'.anchorProposalId) : unit = unit' := by
    have hhas' := has_anchor hu (ho unit' hmem')
    rw [← hb, ← hp] at hhas'
    exact hu.eq_of_has (ho unit hmem) (ho unit' hmem') (has_anchor hu (ho unit hmem)) hhas'
  rcases work_step hu (fun unit heq => ho unit (heq ▸ hw)) h with
    ⟨unit, rfl, hs⟩ | ⟨key, _, rfl, hs⟩
  · rcases work_step hu (fun unit heq => ho unit (heq ▸ hw')) h' with
      ⟨unit', rfl, hs'⟩ | ⟨key', share', rfl, hs'⟩
    · have hsa : unit.bundleIndex = unit'.bundleIndex ∧
          unit.anchorProposalId = unit'.anchorProposalId := by
        rcases hs with rfl | rfl
        · rcases hs' with heq | heq
          · exact advanceVote.inj heq
          · cases heq
        · rcases hs' with heq | heq
          · cases heq
          · exact advanceVoteBatch.inj heq
      rw [hun hw hw' hsa.1 hsa.2]
    · rcases hs with rfl | rfl <;> cases hs'
  · rcases work_step hu (fun unit heq => ho unit (heq ▸ hw')) h' with
      ⟨unit', rfl, hs'⟩ | ⟨key', share', rfl, hs'⟩
    · rcases hs' with rfl | rfl <;> cases hs
    · rw [hs] at hs'
      cases key
      simp_all

end

/-- The delegation pass plans at most one obligation for a bundle. -/
theorem delegationStep_length (h : c.delegationStep needing b = .ok os) : os.length ≤ 1 := by
  have ha {phase : DelegationPhase} (hadv : delegationStep.advance c b phase = .ok os) :
      os.length ≤ 1 := by
    unfold delegationStep.advance at hadv
    split at hadv
    · cases hadv
    · cases hadv
      simp
  have hd (hok : (Except.ok (if needing.contains b then [delegate b] else []) :
      Except VotingError (List Obligation)) = .ok os) : os.length ≤ 1 := by
    cases hok
    split <;> simp
  unfold delegationStep at h
  split at h
  · cases h
    simp
  split at h
  · exact ha h
  · exact ha h
  · exact hd h
  · exact hd h
  · cases h
    simp

theorem delegationStep_bundle
    (h : c.delegationStep needing b = .ok os) (ho : o ∈ os) : delegationBundle o = some b := by
  rcases delegationStep_ok h ho with ⟨rfl, -⟩ | ⟨_, _, rfl, -⟩
  · rfl
  · rfl

theorem delegation_eq (h : c.delegationObligations needing = .ok delegations) (ho : o ∈ delegations)
    (ho' : o' ∈ delegations) (hb : delegationBundle o = delegationBundle o') : o = o' := by
  obtain ⟨_, -, _, hs, hmem⟩ := mem_delegations h ho
  obtain ⟨_, -, _, hs', hmem'⟩ := mem_delegations h ho'
  rw [delegationStep_bundle hs hmem, delegationStep_bundle hs' hmem'] at hb
  cases hb
  cases hs.symm.trans hs'
  obtain ⟨_, rfl⟩ := length_eq_one_iff.mp
    (le_antisymm (delegationStep_length hs) (length_pos_of_mem hmem))
  rw [mem_singleton.mp hmem, mem_singleton.mp hmem']

section

variable (hpla : c.PlanOf done st delegations plan) {proposalIds : List Nat}
include hpla

/-- What a pass plans is in the plan, with what it waits for. -/
theorem PlanOf.obligation_of_planned (hfr : c.PlannedBy done st delegations o o.kind) :
    o.withPrerequisite (delegations.filterMap delegationBundle) ∈ plan.obligations := by
  refine hpla.mem_obligations.mpr ⟨o, rfl, (kind_withPrerequisite _ _).symm, ?_⟩
  rw [kind_withPrerequisite]
  exact hfr

/-- The pass that plans the obligation of a step. -/
theorem PlanOf.planned_of_step (ho : o ∈ plan.obligations) (h : step ∈ o.steps) : ∃ planned,
      planned.withPrerequisite (delegations.filterMap delegationBundle) = o ∧ step ∈ planned.steps ∧
      c.PlannedBy done st delegations planned step.kind := by
  obtain ⟨planned, rfl, -, hfr⟩ := hpla.mem_obligations.mp ho
  refine ⟨planned, rfl, by simpa using h, ?_⟩
  rw [(of_step h).1.1]
  exact hfr

section

variable (hu : UnitsOf c.snapshot c.units)
include hu

theorem PlanOf.eq_of_step (ho : o ∈ plan.obligations) (ho' : o' ∈ plan.obligations)
    (h : step ∈ o.steps) (h' : step ∈ o'.steps) : o = o' := by
  obtain ⟨planned, rfl, h, hf⟩ := hpla.planned_of_step ho h
  obtain ⟨planned', rfl, h', hf'⟩ := hpla.planned_of_step ho' h'
  suffices planned = planned' by rw [this]
  have hwo (hf : ∃ w ∈ done, planned ∈ w.obligations c.snapshot)
      (hf' : ∃ w ∈ done, planned' ∈ w.obligations c.snapshot) : planned = planned' := by
    obtain ⟨_, hw, hmem⟩ := hf
    obtain ⟨_, hw', hmem'⟩ := hf'
    obtain rfl := work_eq_of_step hu hpla.owned hw hw' (mem_flatMap.mpr ⟨_, hmem, h⟩)
      (mem_flatMap.mpr ⟨_, hmem', h'⟩)
    rw [(Work.obligation_cases hmem).1, mem_singleton] at hmem'
    exact hmem'.symm
  cases step with
  | delegate | advanceDelegation | advanceImportedDelegation =>
    refine delegation_eq hpla.delegated hf hf' ?_
    rw [← (of_step h).2.1, ← (of_step h').2.1]
  | castVote =>
    obtain ⟨_, -, rfl⟩ := mem_map.mp hf
    obtain ⟨_, -, rfl⟩ := mem_map.mp hf'
    obtain ⟨_, -, hdr⟩ := mem_map.mp h
    obtain ⟨_, -, hdr'⟩ := mem_map.mp h'
    cases hdr
    rw [(castVote.inj hdr').1]
  | advanceVote | advanceVoteBatch | submitShares => exact hwo hf hf'
  | confirmShare =>
    obtain ⟨_, -, rfl⟩ := mem_map.mp hf
    obtain ⟨_, -, rfl⟩ := mem_map.mp hf'
    have hrow := mem_singleton.mp h
    have hrow' := mem_singleton.mp h'
    rw [hrow] at hrow'
    obtain ⟨hb, hp, hs⟩ := confirmShare.inj hrow'
    rw [hb, hp, hs]

theorem PlanOf.anchored (ho : o ∈ plan.obligations) : o.Anchored := by
  by_cases hk : o.kind = .reconcileChain
  · obtain ⟨_, rfl, -, hf⟩ := hpla.mem_obligations.mp ho
    rw [hk] at hf
    obtain ⟨_, hw, hmem⟩ := hf
    rw [anchored_withPrerequisite]
    rcases (Work.obligation_cases hmem).2 with ⟨unit, rfl, rfl⟩ | ⟨_, _, _, -, rfl⟩
    · exact anchored_reconcile hu (hpla.owned unit hw)
    · trivial
  · exact anchored_of_kind hk

/-- A step resolves to the obligation it was made from, and to nothing else. -/
theorem PlanOf.resolveStep_iff :
    resolveStep plan.obligations step = some o ↔ o ∈ plan.obligations ∧ step ∈ o.steps := by
  unfold resolveStep
  constructor
  · intro h
    have hmem := mem_of_find?_eq_some h
    have ht : o.executes step = true := by simpa using List.find?_some h
    exact ⟨hmem, (executes_iff (hpla.anchored hu hmem)).mp ht⟩
  · rintro ⟨hmem, hs⟩
    have hso : (plan.obligations.find? (·.executes step)).isSome := by
      rw [List.find?_isSome]
      exact ⟨o, hmem, (executes_iff (hpla.anchored hu hmem)).mpr hs⟩
    obtain ⟨found, hf⟩ := Option.isSome_iff_exists.mp hso
    have hfm := mem_of_find?_eq_some hf
    have ht : found.executes step = true := by simpa using List.find?_some hf
    have hfs := (executes_iff (hpla.anchored hu hfm)).mp ht
    rw [hf, hpla.eq_of_step hu hfm hmem hfs hs]

/-! ### No step is listed twice -/

theorem nodup_work_steps :
    (done.flatMap fun w => (w.obligations c.snapshot).flatMap steps).Nodup := by
  refine nodup_flatMap_of_unique hpla.distinct ?_ fun w hw w' hw' step =>
    work_eq_of_step hu hpla.owned hw hw'
  rintro (unit | key) hw
  · have hst : (reconcileObligation c.snapshot unit).steps.length = 1 := by
      unfold reconcileObligation
      cases unit.id <;> rfl
    obtain ⟨_, hsi⟩ := length_eq_one_iff.mp hst
    simp [Work.obligations, hsi]
  · obtain ⟨owed, ho⟩ := hpla.owed key hw
    have hsh : (Work.shares key).obligations c.snapshot = owed := by
      simp [Work.obligations, ho, Except.toOption]
    rw [hsh]
    obtain ⟨_, hmi, ⟨-, rfl⟩ | ⟨-, _, rfl⟩⟩ := deliverObligation_ok ho
    · exact nodup_nil
    · obtain ⟨-, -, -, -, hno, -⟩ := missingShareIndexes_ok hmi
      simp only [flatMap_singleton]
      exact hno.map fun share share' h => (submitShares.inj h).2.2

end

def castPair : NextStep → Nat × Nat
  | .castVote b p _ => (b, p)
  | _ => (0, 0)

def confirmedShare : NextStep → ShareKey
  | .confirmShare b p share => ⟨b, p, share⟩
  | _ => ⟨0, 0, 0⟩

theorem nodup_cast_steps (hba : BallotOf proposalIds c.snapshot.intents c.ballot) :
    ((c.casts st).flatMap steps).Nodup := by
  -- a cast step names its pair, and the pairs are distinct
  have hpa : ((c.casts st).flatMap steps).map castPair = (c.casts st).flatMap castPairs := by
    rw [map_flatMap]
    refine flatMap_congr fun o ho => ?_
    obtain ⟨_, -, rfl⟩ := mem_map.mp ho
    simp [steps, castPairs, castPair]
  refine List.Nodup.of_map castPair ?_
  rw [hpa]
  exact nodup_castPairs hpla hba

end

theorem nodup_delegations (h : c.delegationObligations needing = .ok delegations) :
    delegations.Nodup := by
  obtain ⟨planned, hpl, h⟩ := bind_ok h
  cases h
  have hmap : planned = c.snapshot.bundleIndexes.map fun b =>
      (c.delegationStep needing b).toOption.getD [] := by
    rw [← map_id planned]
    refine mapM_ok_map hpl fun b os hos => ?_
    simp [hos, Except.toOption]
  have hs {b : Nat} {o : Obligation} (ho : o ∈ (c.delegationStep needing b).toOption.getD []) :
      delegationBundle o = some b := by
    cases hos : c.delegationStep needing b with
    | error => simp [hos, Except.toOption] at ho
    | ok => exact delegationStep_bundle hos (by simpa [hos, Except.toOption] using ho)
  rw [hmap, ← flatMap_def]
  refine nodup_flatMap_of_unique (nodup_sortedSet _) (fun b _ => ?_) fun b _ b' _ o ho ho' => ?_
  · cases hos : c.delegationStep needing b with
    | error => simp [Except.toOption]
    | ok os =>
      have hle := delegationStep_length hos
      rcases os with _ | ⟨o, _ | _⟩
      · exact nodup_nil
      · exact nodup_singleton o
      · simp at hle
  · exact Option.some.inj ((hs ho).symm.trans (hs ho'))

theorem nodup_delegation_steps (hpla : c.PlanOf done st delegations plan) :
    (delegations.flatMap steps).Nodup := by
  refine nodup_flatMap_of_unique (nodup_delegations hpla.delegated) ?_ ?_
  · intro o ho
    obtain ⟨_, -, _, hst, hmem⟩ := mem_delegations hpla.delegated ho
    rcases delegationStep_ok hst hmem with ⟨rfl, -⟩ | ⟨imported, _, rfl, -⟩
    · exact nodup_singleton _
    · cases imported <;> exact nodup_singleton _
  · intro o ho o' ho' step h h'
    refine delegation_eq hpla.delegated ho ho' ?_
    rw [← (of_step h).2.1, ← (of_step h').2.1]

theorem nodup_confirm_steps : (c.confirms.flatMap steps).Nodup := by
  have hke :
    (c.confirms.flatMap steps).map confirmedShare = (c.snapshot.sharePhases.filter fun row =>
        !c.staleVoteKeys.contains ⟨row.bundleIndex, row.proposalId⟩ &&
          row.phase = .submitted).map SharePhaseRow.key := by
    unfold confirms
    rw [flatMap_map, map_flatMap]
    simp only [steps, map_cons, map_nil, ← map_eq_flatMap]
    rfl
  refine List.Nodup.of_map confirmedShare ?_
  rw [hke]
  exact c.snapshot.share_key.sublist (filter_sublist.map _)

theorem kind_of_listed {P : Obligation.Kind → Prop}
    (hki : ∀ o ∈ obligations, P o.kind) (h : step ∈ obligations.flatMap steps) : P step.kind := by
  obtain ⟨o, ho, hst⟩ := mem_flatMap.mp h
  rw [(of_step hst).1.1]
  exact hki o ho

section

variable (hpla : c.PlanOf done st delegations plan)
include hpla

theorem PlanOf.nodup_nextSteps
    (hu : UnitsOf c.snapshot c.units) (hba : BallotOf proposalIds c.snapshot.intents c.ballot) :
    (nextSteps plan.obligations).Nodup := by
  rw [nextSteps, (perm_insertionSort _ _).nodup_iff, stepsFromObligations,
    hpla.flatMap_eq fun o _ => steps_withPrerequisite]
  have hre : c.retirements.flatMap steps = [] := by
    refine flatMap_eq_nil_iff.mpr fun o ho => ?_
    obtain ⟨_, -, rfl⟩ := mem_map.mp ho
    rfl
  have hbl : (c.blocks st).flatMap steps = [] := by
    refine flatMap_eq_nil_iff.mpr fun o ho => ?_
    obtain ⟨_, -, rfl⟩ := mem_map.mp ho
    rfl
  rw [hre, hbl, nil_append, append_nil]
  -- each pass makes steps of its own kinds
  have hw {step : NextStep}
      (h : step ∈ done.flatMap fun w => (w.obligations c.snapshot).flatMap steps) :
      step.kind = .reconcileChain ∨ step.kind = .deliver := by
    obtain ⟨_, -, h⟩ := mem_flatMap.mp h
    exact kind_of_listed (P := fun kind => kind = .reconcileChain ∨ kind = .deliver)
      (fun o => Work.kind_obligations) h
  have hc {step : NextStep} : step ∈ (c.casts st).flatMap steps → step.kind = .cast :=
    kind_of_listed (P := (· = .cast)) fun o => kind_casts
  have hd {step : NextStep} : step ∈ delegations.flatMap steps →
      step.kind = .delegate ∨ step.kind = .advanceDelegation :=
    kind_of_listed (P := fun kind => kind = .delegate ∨ kind = .advanceDelegation) fun o =>
      hpla.kind_delegations
  have hco {step : NextStep} : step ∈ c.confirms.flatMap steps → step.kind = .confirm :=
    kind_of_listed (P := (· = .confirm)) fun o => kind_confirms
  refine nodup_append.mpr ⟨nodup_append.mpr ⟨nodup_append.mpr
    ⟨nodup_work_steps hpla hu, nodup_cast_steps hpla hba, ?_⟩, nodup_delegation_steps hpla, ?_⟩,
    nodup_confirm_steps, ?_⟩
  · rintro step h _ h' rfl
    rcases hw h with hk | hk <;> simp [hc h'] at hk
  · rintro step h _ h' rfl
    rcases mem_append.mp h with h | h
    · rcases hw h with hk | hk <;> rcases hd h' with hk' | hk' <;> simp [hk] at hk'
    · rcases hd h' with hk | hk <;> simp [hc h] at hk
  · rintro step h _ h' rfl
    have hk' := hco h'
    simp only [mem_append] at h
    rcases h with (h | h) | h
    · rcases hw h with hk | hk <;> simp [hk] at hk'
    · simp [hc h] at hk'
    · rcases hd h with hk | hk <;> simp [hk] at hk'

/-! ### What else a plan reports of its steps -/

theorem PlanOf.has_step (ho : o ∈ plan.obligations) (hwo : o.isExecutable = true) :
    o.steps ≠ [] := by
  cases o with
  | advanceDelegation _ imported => cases imported <;> exact cons_ne_nil _ _
  | reconcileChain unit =>
    cases unit <;> exact cons_ne_nil _ _
  | delegate | confirm => exact cons_ne_nil _ _
  | retire | blocked => cases hwo
  | cast =>
    intro hnil
    exact (hpla.pair_of_cast ho).1 (map_eq_nil_iff.mp hnil)
  | deliver _ _ _ shares =>
    intro hnil
    obtain ⟨planned, hpre, -, w, hw, hmem⟩ := hpla.mem_obligations.mp ho
    cases w with
    | unit =>
      rw [mem_singleton.mp hmem] at hpre
      cases hpre
    | shares key =>
      obtain ⟨owed, howe⟩ := hpla.owed key hw
      have hmem : planned ∈ owed := by simpa [Work.obligations, howe, Except.toOption] using hmem
      obtain ⟨_, -, ⟨-, rfl⟩ | ⟨hne, _, rfl⟩⟩ := deliverObligation_ok howe
      · cases hmem
      · rw [mem_singleton.mp hmem] at hpre
        cases hpre
        exact hne (map_eq_nil_iff.mp hnil)

/-- The bundles with a delegation step are those whose delegation the plan advances. -/
theorem PlanOf.delegation_step_iff :
    (∃ step ∈ nextSteps plan.obligations, step.delegatedBundle = some b) ↔
      b ∈ delegations.filterMap delegationBundle := by
  rw [mem_filterMap]
  constructor
  · rintro ⟨step, hs, hb⟩
    obtain ⟨o, ho, hs⟩ := mem_nextSteps.mp hs
    rw [(of_step hs).2.1] at hb
    obtain ⟨planned, rfl, -, hf⟩ := hpla.planned_of_step ho hs
    refine ⟨planned, ?_, by simpa using hb⟩
    rw [(of_step hs).1.1] at hf
    cases planned with
    | delegate | advanceDelegation => exact hf
    | _ => cases hb
  · rintro ⟨planned, hmem, hb⟩
    have hki := hpla.kind_delegations hmem
    have ho := hpla.obligation_of_planned (o := planned) (by
      rcases hki with hk | hk <;> (rw [hk]; exact hmem))
    have hwo : planned.isExecutable = true := by
      apply executable_of_kind <;> rcases hki with hk | hk <;> simp [hk]
    have hne := hpla.has_step ho (by simpa using hwo)
    obtain ⟨step, hs⟩ := exists_mem_of_ne_nil _ hne
    refine ⟨step, mem_nextSteps.mpr ⟨_, ho, hs⟩, ?_⟩
    rw [(of_step hs).2.1, delegationBundle_withPrerequisite, hb]

/-- What a step waits for is what its obligation records. -/
theorem PlanOf.prerequisite_eq (ho : o ∈ plan.obligations) (h : step ∈ o.steps) :
    (blockingPrerequisite (nextSteps plan.obligations) step).bind delegatedBundle =
    o.prerequisite := by
  obtain ⟨-, hdepe, hn⟩ := (of_step h).2
  unfold blockingPrerequisite
  rcases hdepe with hdep | hdep
  · rw [hdep]
    have hde := hn.mp hdep
    cases o with
    | delegate | advanceDelegation => rfl
    | _ => cases hde
  · rw [hdep]
    have hvo : delegationBundle o = none := by
      cases hb : delegationBundle o with
      | none => rfl
      | some => simp [hb, hdep] at hn
    obtain ⟨planned, rfl, -, -⟩ := hpla.planned_of_step ho h
    rw [prerequisite_withPrerequisite (of_step h).1.2 hvo]
    rw [bundleIndex_withPrerequisite] at hdep ⊢
    cases hf : (nextSteps plan.obligations).find? fun candidate =>
        candidate.delegatedBundle = some planned.bundleIndex with
    | none =>
      have hfr : planned.bundleIndex ∉ delegations.filterMap delegationBundle := by
        rw [← hpla.delegation_step_iff]
        rintro ⟨candidate, hmem, hb⟩
        simpa [hb] using List.find?_eq_none.mp hf candidate hmem
      rw [if_neg (by simpa using hfr)]
      simp only [hf, Option.bind_none]
    | some found =>
      have hb : found.delegatedBundle = some planned.bundleIndex := by
        simpa using List.find?_some hf
      have hbu : planned.bundleIndex ∈ delegations.filterMap delegationBundle :=
        hpla.delegation_step_iff.mp ⟨found, mem_of_find?_eq_some hf, hb⟩
      rw [if_pos (by simpa using hbu)]
      simpa only [hf, Option.bind_some] using hb

end

end Classification

/-! ### The projection reaches no unreachable branch -/

section

variable {s : RoundSnapshot} {obligations : List Obligation} {step : NextStep} {message : String}

theorem orVoting_ne_unreachable {α : Type} {result : Except VotingError α} :
    orVoting result ≠ .error (.unreachable message) := by
  cases result <;> simp [orVoting, Except.mapError]

theorem advanceVoteWork_reached {b p : Nat} (hki : ∀ o, resolveStep obligations step = some o →
    o.kind = .reconcileChain) :
      advanceVoteWork s obligations step b p ≠ .error (.unreachable message) := by
  unfold advanceVoteWork
  split
  · exact orVoting_ne_unreachable
  · exact nofun
  · exact nofun
  rename_i o hnot hnot' hre
  have hk := hki o hre
  cases o with
  | reconcileChain unit =>
    cases unit with
    | singleton => exact (hnot _ _ _ _ _ _ _ rfl).elim
    | batch => exact (hnot' _ _ _ _ _ _ _ rfl).elim
  | _ => cases hk

/-- Each listed step resolves to an obligation of its own kind. -/
def ResolvesByKind (obligations : List Obligation) (step : NextStep) : Prop :=
  ∃ o, resolveStep obligations step = some o ∧ o.kind = step.kind

theorem visitVoteStep_reached {work : List VoteRecoveryWork} (h : ResolvesByKind obligations step) :
    visitVoteStep s obligations work step ≠ .error (.unreachable message) := by
  obtain ⟨o, hr, hki⟩ := h
  have had {b p : Nat} (hk : o.kind = .reconcileChain) : (do
      let item ← advanceVoteWork s obligations step b p
      return work ++ [item] : Except ProjectionFailure (List VoteRecoveryWork)) ≠
        .error (.unreachable message) := by
    have hite : advanceVoteWork s obligations step b p ≠ .error (.unreachable message) := by
      refine advanceVoteWork_reached fun o' ho' => ?_
      rw [Option.some.inj (ho'.symm.trans hr)]
      exact hk
    intro hf
    rcases bind_error hf with hwo | ⟨_, -, hf⟩
    · exact hite hwo
    · cases hf
  cases step with
  | advanceVote | advanceVoteBatch => exact had hki
  | submitShares =>
    unfold visitVoteStep
    cases o with
    | deliver => simp [hr]
    | _ => cases hki
  | confirmShare b p =>
    simp only [visitVoteStep]
    split
    · cases hpo : s.confirmedTreePosition b p with
      | error => simp [orVoting, Except.mapError, bind, Except.bind]
      | ok position =>
        cases position <;> simp [orVoting, Except.mapError, bind, Except.bind, missingRecoveryField,
          pure, Except.pure]
    · simp
  | delegate | advanceDelegation | advanceImportedDelegation | castVote => exact nofun

theorem project_reached {plan : RoundObligations}
    (h : ∀ step ∈ nextSteps plan.obligations, ResolvesByKind plan.obligations step) :
    project s proposalIds plan ≠ .error (.unreachable message) := by
  intro hf
  rcases bind_error hf with hdel | ⟨_, -, hf⟩
  · exact orVoting_ne_unreachable hdel
  rcases bind_error hf with hvo | ⟨_, -, hf⟩
  · obtain ⟨step, hst, _, hfa⟩ := foldlM_error hvo
    exact visitVoteStep_reached (h step hst) hfa
  · cases hf

end

/-! ### Pending recovery -/

/-- A managed delegation that a combined batch of the bundle signs is managed through the votes
of that batch. -/
def RoundSnapshot.ManagedByVotes (s : RoundSnapshot) : Prop :=
  ∀ b q vote recovery, s.delegationPhase b = some .submissionManaged → s.vote? b q = some vote →
    vote.recovery = some recovery → recovery.delegationVan.isSome = true →
    ∃ p other, s.vote? b p = some other ∧ other.phase = .submissionManaged

namespace Classification

variable {c : Classification} {b p : Nat} {vote : VoteSnapshot} {done : List Work} {st : Passes}
  {delegations : List Obligation} {plan : RoundObligations} {proposalIds : List Nat}

section

variable (hpla : c.PlanOf done st delegations plan) (hu : UnitsOf c.snapshot c.units)
  (hba : BallotOf proposalIds c.snapshot.intents c.ballot)
include hpla hu hba

theorem PlanOf.steps_of_onWire (row : c.snapshot.vote? b p = some vote)
    (hpos : LifecyclePosition.ofPhase vote.phase = .onWire) : nextSteps plan.obligations ≠ [] := by
  obtain ⟨unit, hun, hph⟩ := unitOf_of_vote hu row
  have hmem := (unitOf_ok hun).1
  have hdo : .unit unit ∈ done :=
    (hpla.asked _).mpr ((hpla.asked_onWire hu hba (by rw [hph]; exact hpos)).mpr hmem)
  have ho := hpla.obligation_of_planned (o := reconcileObligation c.snapshot unit)
    ⟨_, hdo, mem_singleton_self _⟩
  obtain ⟨_, hst⟩ := exists_mem_of_ne_nil _ (hpla.has_step ho rfl)
  exact ne_nil_of_mem (mem_nextSteps.mpr ⟨_, ho, hst⟩)

theorem PlanOf.steps_of_managed (hvo : c.snapshot.ManagedByVotes)
    (h : c.snapshot.submissionManaged = true) :
    nextSteps plan.obligations ≠ [] := by
  have hv {b p : Nat} {vote : VoteSnapshot} (row : c.snapshot.vote? b p = some vote)
      (hp : vote.phase = .submissionManaged) : nextSteps plan.obligations ≠ [] :=
    hpla.steps_of_onWire hu hba row (by rw [hp]; rfl)
  simp only [submissionManaged, someDelegation, someVote, Bool.or_eq_true, any_eq_true,
    decide_eq_true_eq] at h
  rcases h with ⟨b, hb, hp⟩ | ⟨⟨key, vote⟩, hmem, hp⟩
  · by_cases hc : c.isCombined b = true
    · obtain ⟨⟨key, vote⟩, hmem, hvan⟩ := any_eq_true.mp hc
      simp only [Bool.and_eq_true, decide_eq_true_eq, Option.isSome_iff_exists,
        Option.bind_eq_some_iff] at hvan
      obtain ⟨rfl, _, recovery, hre, hso⟩ := hvan
      have row := KeyedMap.get?_of_mem_entries hmem
      obtain ⟨_, _, hot, hma⟩ := hvo key.bundleIndex key.proposalId vote recovery hp row
        hre (by rw [hso]; rfl)
      exact hv hot hma
    · have hpl : b ∈ delegations.filterMap delegationBundle :=
        (delegationBundle_mem hpla.delegated).mpr (.inr ⟨hb, by simpa using hc, .inr hp⟩)
      obtain ⟨_, hst, -⟩ := hpla.delegation_step_iff.mpr hpl
      exact ne_nil_of_mem hst
  · exact hv (KeyedMap.get?_of_mem_entries hmem) hp

end

end Classification

/-- The steps of a plan and its obligations are two views of one list of work. -/
structure StepsInverse (s : RoundSnapshot) (proposalIds : List Nat)
    (plan : RoundObligations) : Prop where
  resolves : ∀ step o, resolveStep plan.obligations step = some o ↔
    o ∈ plan.obligations ∧ step ∈ o.steps
  listed : ∀ step, step ∈ nextSteps plan.obligations ↔
    ∃ o, resolveStep plan.obligations step = some o
  executable : ∀ o ∈ plan.obligations, o.isExecutable = true ↔
    ∃ step ∈ nextSteps plan.obligations, resolveStep plan.obligations step = some o
  distinct : (nextSteps plan.obligations).Nodup
  reached : ∀ message, project s proposalIds plan ≠ .error (.unreachable message)
  pending : nextSteps plan.obligations ≠ [] → pendingRecovery s plan.obligations = true
  /-- A managed delegation without votes on the wire can leave recovery pending with no step. -/
  stepped : s.ManagedByVotes → pendingRecovery s plan.obligations = true →
    nextSteps plan.obligations ≠ []
  prerequisite : ∀ step o, resolveStep plan.obligations step = some o →
    (blockingPrerequisite (nextSteps plan.obligations) step).bind NextStep.delegatedBundle =
      o.prerequisite

theorem submissionManaged_of_empty {s : RoundSnapshot} (he : s.delegations = []) :
    s.submissionManaged = false := by
  simp [submissionManaged, someDelegation, someVote, votes_of_empty he, bundleIndexes_of_empty he]

/-- A classified round, whatever its snapshot. -/
theorem stepsInverse_of_classified {H : BatchSighash} {s : RoundSnapshot} {proposalIds : List Nat}
    {plan : RoundObligations} (h : classifyRound H s proposalIds = .ok plan) :
    StepsInverse s proposalIds plan := by
  rcases classifyRound_ok h with ⟨hem, hn⟩ | ⟨_, _, _, _, _, hba, -, hu, hpla⟩
  · have hs : nextSteps plan.obligations = [] := by
      rw [hn]
      rfl
    refine ⟨?_, ?_, ?_, ?_, ?_, ?_, ?_, ?_⟩
    · simp [hn, resolveStep]
    · rw [hs]
      simp [hn, resolveStep]
    · simp [hn]
    · simp [hs]
    · intro message
      refine project_reached ?_
      simp [hs]
    · exact fun hne => absurd hs hne
    · simp [pendingRecovery, submissionManaged_of_empty hem]
    · simp [hn, resolveStep]
  · have hr (step : NextStep) (o : Obligation) : resolveStep plan.obligations step = some o ↔
        o ∈ plan.obligations ∧ step ∈ o.steps := hpla.resolveStep_iff hu
    have hl (step : NextStep) : step ∈ nextSteps plan.obligations ↔
        ∃ o, resolveStep plan.obligations step = some o := by
      simp only [mem_nextSteps, hr]
    refine ⟨hr, hl, fun o ho => ⟨fun hwo => ?_, ?_⟩, hpla.nodup_nextSteps hu hba,
      fun message => project_reached fun step hst => ?_, fun hne => ?_, fun hvotes hpe => ?_,
      fun step o hre => ?_⟩
    · obtain ⟨step, hst⟩ := exists_mem_of_ne_nil _ (hpla.has_step ho hwo)
      exact ⟨step, mem_nextSteps.mpr ⟨o, ho, hst⟩, (hr step o).mpr ⟨ho, hst⟩⟩
    · rintro ⟨step, -, hre⟩
      exact (of_step ((hr step o).mp hre).2).1.2
    · obtain ⟨o, hre⟩ := (hl step).mp hst
      exact ⟨o, hre, (of_step ((hr step o).mp hre).2).1.1.symm⟩
    · simp [pendingRecovery, hne]
    · rcases Bool.or_eq_true_iff.mp hpe with hma | hs
      · exact hpla.steps_of_managed hu hba hvotes hma
      · simpa using hs
    · obtain ⟨ho, hst⟩ := (hr step o).mp hre
      exact hpla.prerequisite_eq ho hst

/-- The steps and the plan of a batch that is retired and cast again in part. -/
theorem stepsInverse_of_classified_recast :
    StepsInverse (pairRound .committed) [2] recastPlan ∧ (pairRound .committed).ManagedByVotes := by
  refine ⟨stepsInverse_of_classified classifyRound_committed, ?_⟩
  intro b q vote recovery hph
  simp [delegationPhase, pairRound, bundleRound] at hph

/-- The delegation of the bundle is on the wire by itself, and its vote is signed in a
combined batch that was not sent. -/
def managedRound : RoundSnapshot :=
  bundleRound "0000000000000000000000000000000000000000000000000000000000000000" .submissionManaged
    (.single ⟨0, 1⟩ ⟨0, .committed, none, none,
      some { pairMember 1 with batch := some ⟨some zeroBytes32, zeroBytes32, 0, 1⟩ }⟩)
    .empty (by simp [KeyedMap.get?_eq_some_iff]) (by
      simp only [KeyedMap.get?_eq_some_iff, KeyedMap.single, mem_singleton, Prod.mk.injEq]
      rintro _ _ _ ⟨rfl, rfl⟩ ⟨⟩
      rfl)

/-- When the proposal leaves the roster the vote is retired, no step is left and recovery is
reported as pending. -/
theorem pending_without_step : ∃ plan, classifyRound sampleSighash managedRound [2] = .ok plan ∧
    nextSteps plan.obligations = [] ∧ pendingRecovery managedRound plan.obligations = true := by
  refine ⟨_, rfl, ?_⟩
  decide +kernel

end ZcashVoting.RoundPlanning
