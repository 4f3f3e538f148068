import Mathlib
import ZcashVoting.RoundPlanning.Roster

/-!
# The plan a host consumes

From obligations to the ordered step list, the grouped recovery work and the derived
flags. Nothing here decides what work exists. A step is matched back to an obligation by
its fields (`resolveStep`); what makes that exact is proved in `Steps`.
-/
namespace ZcashVoting.RoundPlanning

open ChainSubmission KeyedData

/-! ### Steps -/

inductive NextStep where
  | delegate (bundleIndex : Nat)
  | advanceDelegation (bundleIndex : Nat)
  | advanceImportedDelegation (bundleIndex : Nat)
  | castVote (bundleIndex proposalId choice : Nat)
  | advanceVote (bundleIndex proposalId : Nat)
  | advanceVoteBatch (bundleIndex proposalId : Nat)
  | submitShares (bundleIndex proposalId shareIndex : Nat)
  | confirmShare (bundleIndex proposalId shareIndex : Nat)
  deriving DecidableEq

/-- `ordered_proposal_ids[0]`; a unit has a member. -/
def anchorOf (orderedProposalIds : List Nat) : Nat := orderedProposalIds.headD 0

/-- The steps of one obligation. Retired and blocked work has none. -/
def Obligation.steps : Obligation → List NextStep
  | .delegate b => [.delegate b]
  | .advanceDelegation b true _ _ => [.advanceImportedDelegation b]
  | .advanceDelegation b false _ _ => [.advanceDelegation b]
  | .cast b drafts _ _ => drafts.map fun draft => .castVote b draft.proposalId draft.choice
  | .reconcileChain (.singleton _ p) b _ _ _ _ => [.advanceVote b p]
  | .reconcileChain (.batch _ _) b ids _ _ _ => [.advanceVoteBatch b (anchorOf ids)]
  | .deliver b p _ shares _ => shares.map (.submitShares b p ·)
  | .confirm b p share _ _ _ => [.confirmShare b p share]
  | .retire _ _ => []
  | .blocked _ _ => []

variable (obligations : List Obligation)

def stepsFromObligations : List NextStep := obligations.flatMap Obligation.steps

/-- The test of `resolve_step`. -/
def Obligation.executes : Obligation → NextStep → Bool
  | .delegate b, .delegate b' => b = b'
  | .advanceDelegation b false _ _, .advanceDelegation b' => b = b'
  | .advanceDelegation b true _ _, .advanceImportedDelegation b' => b = b'
  | .cast b drafts _ _, .castVote b' p choice =>
    b = b' && drafts.any fun draft => draft.proposalId = p && draft.choice = choice
  | .reconcileChain (.singleton _ _) b ids _ _ _, .advanceVote b' p => b = b' && anchorOf ids = p
  | .reconcileChain (.batch _ _) b ids _ _ _, .advanceVoteBatch b' p => b = b' && anchorOf ids = p
  | .deliver b p _ shares _, .submitShares b' p' share => b = b' && p = p' && shares.contains share
  | .confirm b p share _ _ _, .confirmShare b' p' share' => b = b' && p = p' && share = share'
  | _, _ => false

/-- The obligation a step executes, in the plan it was classified for. -/
def resolveStep (step : NextStep) : Option Obligation :=
  obligations.find? (·.executes step)

/-- Delegation first, then votes and shares by proposal, then share confirmation. -/
def stepRank : NextStep → Nat ×ₗ Nat ×ₗ Nat ×ₗ Nat
  | .delegate b => toLex (0, toLex (0, toLex (b, 0)))
  | .advanceDelegation b => toLex (0, toLex (0, toLex (b, 0)))
  | .advanceImportedDelegation b => toLex (0, toLex (0, toLex (b, 0)))
  | .castVote b p _ => toLex (1, toLex (p, toLex (b, 0)))
  | .advanceVote b p => toLex (1, toLex (p, toLex (b, 0)))
  | .advanceVoteBatch b p => toLex (1, toLex (p, toLex (b, 0)))
  | .submitShares b p share => toLex (1, toLex (p, toLex (b, share)))
  | .confirmShare b p share => toLex (2, toLex (p, toLex (b, share)))

/-- `next_steps` of the plan: the steps in the order of their rank. -/
def nextSteps : List NextStep :=
  (stepsFromObligations obligations).insertionSort fun a b => stepRank a ≤ stepRank b

def NextStep.delegatedBundle : NextStep → Option Nat
  | .delegate b => some b
  | .advanceDelegation b => some b
  | .advanceImportedDelegation b => some b
  | _ => none

/-- The bundle whose delegation a vote or share step waits for. -/
def NextStep.dependentBundle : NextStep → Option Nat
  | .castVote b _ _ => some b
  | .advanceVote b _ => some b
  | .advanceVoteBatch b _ => some b
  | .submitShares b _ _ => some b
  | .confirmShare b _ _ => some b
  | _ => none

variable (steps : List NextStep)

/-- The step that must clear before `step` can run. -/
def blockingPrerequisite (step : NextStep) : Option NextStep :=
  match step.dependentBundle with
  | none => none
  | some b => steps.find? fun candidate => candidate.delegatedBundle = some b

/-! ### Grouped recovery work -/

/-- A panic of the source is kept apart from its errors. -/
inductive ProjectionFailure where
  | voting (error : VotingError)
  | unreachable (message : String)
  deriving DecidableEq

def orVoting {α : Type} (result : Except VotingError α) :
    Except ProjectionFailure α := result.mapError .voting

inductive DelegationRecoveryWorkKind where
  | delegate
  | advanceDelegation
  | advanceImportedDelegation
  deriving DecidableEq

structure DelegationRecoveryWork where
  kind : DelegationRecoveryWorkKind
  bundleIndex : Nat
  phase : DelegationPhase
  txHash : Option String
  deriving DecidableEq

/-- The phase and hash an advance obligation carries. -/
def advanced (step : NextStep) : Option (DelegationPhase × Option String) :=
  match resolveStep obligations step with
  | some (.advanceDelegation _ _ phase txHash) => some (phase, txHash)
  | _ => none

def missingRecoveryField {α : Type} (message : String) :
    Except VotingError α := .error (.internal message)

variable (s : RoundSnapshot)

/-- The body of the loop over the steps. -/
def delegationWork (obligations : List Obligation) (step : NextStep) :
    Except VotingError (List DelegationRecoveryWork) :=
  match step with
  | .delegate b =>
    match s.delegationPhase b with
    | some phase => .ok [⟨.delegate, b, phase, none⟩]
    | none => missingRecoveryField s!"delegate step missing phase for round={s.roundId}, bundle={b}"
  | .advanceDelegation b =>
    match advanced obligations step with
    | some (phase, txHash) => .ok [⟨.advanceDelegation, b, phase, txHash⟩]
    | none => missingRecoveryField s!"poll delegation step missing phase for round={s.roundId}, bundle={b}"
  | .advanceImportedDelegation b =>
    match advanced obligations step with
    | some (phase, txHash) => .ok [⟨.advanceImportedDelegation, b, phase, txHash⟩]
    | none => missingRecoveryField s!"imported delegation step missing phase for round={s.roundId}, bundle={b}"
  | _ => .ok []

def recoveredDelegationWorkFromSteps (obligations : List Obligation)
    (steps : List NextStep) : Except VotingError (List DelegationRecoveryWork) := do
  let work ← steps.mapM (delegationWork s obligations)
  return work.flatten

inductive VoteRecoveryWorkKind where
  | advanceVote
  | advanceVoteBatch
  | submitShares
  deriving DecidableEq

structure VoteRecoveryWork where
  kind : VoteRecoveryWorkKind
  (bundleIndex proposalId : Nat)
  txHash : Option String
  vcTreePosition : Option Nat
  shareIndexes : List Nat
  deriving DecidableEq

/-- Adds a share to the submission of its vote, the first one listed. -/
def pushSubmitShareWork (b p share position : Nat) : List VoteRecoveryWork → List VoteRecoveryWork
  | [] => [⟨.submitShares, b, p, none, some position, [share]⟩]
  | item :: rest =>
    if item.kind = .submitShares ∧ item.bundleIndex = b ∧ item.proposalId = p then
      { item with shareIndexes := sortedSet (item.shareIndexes ++ [share]) } :: rest
    else item :: pushSubmitShareWork b p share position rest

/-- The unconfirmed shares that no helper has accepted or may hold. -/
def blockingConfirmShareKeys : List ShareKey := obligations.filterMap fun
    | .confirm b p share false false _ => some ⟨b, p, share⟩
    | _ => none

/-- Every member of a unit whose chain work is pending. -/
def pendingVoteConfirmationKeys : List VoteKey := obligations.flatMap fun
    | .reconcileChain _ b ids _ _ _ => ids.map fun p => ⟨b, p⟩
    | _ => []

/-- The work of an `AdvanceVote` or `AdvanceVoteBatch`. -/
def advanceVoteWork (obligations : List Obligation) (step : NextStep) (b p : Nat) :
    Except ProjectionFailure VoteRecoveryWork :=
  match resolveStep obligations step with
  | none => orVoting (missingRecoveryField s!"advance vote batch step missing active batch for round={s.roundId}, bundle={b}, proposal={p}")
  | some (.reconcileChain (.singleton _ _) _ _ _ txHash _) =>
    .ok ⟨.advanceVote, b, p, txHash, none, []⟩
  | some (.reconcileChain (.batch _ _) _ _ _ txHash _) =>
    .ok ⟨.advanceVoteBatch, b, p, txHash, none, []⟩
  | some _ =>
      .error (.unreachable "resolve_step pairs an advance step with its reconcile obligation")

def visitVoteStep (obligations : List Obligation) (work : List VoteRecoveryWork)
    (step : NextStep) : Except ProjectionFailure (List VoteRecoveryWork) :=
  match step with
  | .advanceVote b p => do
    let item ← advanceVoteWork s obligations step b p
    return work ++ [item]
  | .advanceVoteBatch b p => do
    let item ← advanceVoteWork s obligations step b p
    return work ++ [item]
  | .submitShares b p share =>
    match resolveStep obligations step with
    | some (.deliver _ _ position _ _) => .ok (pushSubmitShareWork b p share position work)
    | _ => .error (.unreachable "a SubmitShares step is projected from a Deliver obligation")
  | .confirmShare b p share =>
    if (blockingConfirmShareKeys obligations).contains ⟨b, p, share⟩ &&
        !(pendingVoteConfirmationKeys obligations).contains ⟨b, p⟩ then do
      match ← orVoting (s.confirmedTreePosition b p) with
      | some position => return pushSubmitShareWork b p share position work
      | none => orVoting (missingRecoveryField s!"submit shares step missing vc_tree_position for round={s.roundId}, bundle={b}, proposal={p}")
    else .ok work
  | _ => .ok work

def recoveredVoteWorkFromSteps (obligations : List Obligation)
    (steps : List NextStep) : Except ProjectionFailure (List VoteRecoveryWork) :=
  steps.foldlM (visitVoteStep s obligations) []

/-! ### The summary of the work -/

structure PlanWorkSummary where
  (needsDelegationSigning hasInFlightDelegation : Bool)
  (delegationBundlesNeedingWork delegationBundlesNeedingSigning : List Nat)
  (needsVotePolling hasRemainingVoteOrShareWork hasRecoverableVoteOrShareWork : Bool)
  deriving DecidableEq

namespace NextStep

/-- A fresh delegation is counted as work, not as signing. -/
def signingBundle : NextStep → Option Nat
  | .advanceDelegation b => some b
  | _ => none

def inFlight : NextStep → Bool
  | .advanceDelegation _ => true
  | .advanceImportedDelegation _ => true
  | _ => false

/-- Casting, advancing a chain submission, or submitting shares. -/
def isVoteWork : NextStep → Bool
  | .castVote _ _ _ => true
  | .advanceVote _ _ => true
  | .advanceVoteBatch _ _ => true
  | .submitShares _ _ _ => true
  | _ => false

def isConfirm : NextStep → Bool
  | .confirmShare _ _ _ => true
  | _ => false

def isDelegation (step : NextStep) : Bool := step.delegatedBundle.isSome

end NextStep

def summarizePlanWork (blockingShareWork : Bool) : PlanWorkSummary where
  needsDelegationSigning := steps.any fun step => step.signingBundle.isSome
  hasInFlightDelegation := steps.any NextStep.inFlight
  delegationBundlesNeedingWork := sortedSet (steps.filterMap NextStep.delegatedBundle)
  delegationBundlesNeedingSigning := sortedSet (steps.filterMap NextStep.signingBundle)
  needsVotePolling := steps.any NextStep.isVoteWork
  hasRemainingVoteOrShareWork := steps.any fun step =>
    step.isVoteWork || step.isConfirm && blockingShareWork
  hasRecoverableVoteOrShareWork := steps.any fun step => step.isVoteWork || step.isConfirm

/-- The bundles whose cast signs the delegation, one for each listed cast step. -/
def signingCasts : List Nat :=
  let signing := obligations.filterMap fun
    | .cast b _ _ true => some b
    | _ => none
  steps.filterMap fun
    | .castVote b _ _ => if signing.contains b then some b else none
    | _ => none

/-- The summary with the casts that sign their own delegation. -/
def workSummary (blockingShareWork : Bool) : PlanWorkSummary :=
  let summary := summarizePlanWork steps blockingShareWork
  let casts := signingCasts obligations steps
  let needingSigning := sortedSet (summary.delegationBundlesNeedingSigning ++ casts)
  { summary with
    delegationBundlesNeedingSigning := needingSigning
    delegationBundlesNeedingWork := sortedSet (summary.delegationBundlesNeedingWork ++ casts)
    needsDelegationSigning := !needingSigning.isEmpty }

/-! ### The plan -/

inductive RoundPlanAction where
  | idle
  | delegate
  | vote
  | submitShares
  | done
  deriving DecidableEq

def selectPrimaryAction (blockingRecovery blockingShareWork completedForDisplay : Bool) :
    RoundPlanAction :=
  if completedForDisplay then .done
  else if !blockingRecovery then .idle
  else if steps.any NextStep.isDelegation then .delegate
  else if steps.any NextStep.isVoteWork then .vote
  else if blockingShareWork then .submitShares
  else .idle

structure CompletedVoteChoice where
  proposalId : Nat
  choice : Option Nat
  deriving DecidableEq

/-- The one option the stored votes for the proposal name, stale ones aside. -/
def displayedChoice (staleVoteKeys : List VoteKey) (p : Nat) : Option Nat :=
  let choices := sortedSet ((s.votes.entries.filter fun (key, _) =>
    key.proposalId = p && !staleVoteKeys.contains key).map fun (_, vote) => vote.choice)
  match s.intents.get? p with
  | some (.choice _) => if choices.length = 1 then choices.head? else none
  | _ => none

def completedVoteDisplay (proposalIds : List Nat) (staleVoteKeys : List VoteKey) :
    List CompletedVoteChoice :=
  proposalIds.map fun p => ⟨p, displayedChoice s staleVoteKeys p⟩

structure DelegationStatus where
  bundleIndex : Nat
  phase : DelegationPhase
  txHash : Option String
  terminal : Bool
  deriving DecidableEq

def isTerminalDelegationPhase : DelegationPhase → Bool
  | .submittedWithoutHash => true
  | .submissionRejected => true
  | .prepared => false
  | .pcztBuilt => false
  | .proved => false
  | .submitted => false
  | .submissionManaged => false
  | .confirmed => false

structure RoundPlan where
  roundId : String
  pendingRecovery : Bool
  nextSteps : List NextStep
  (openProposals unrosteredIntents : List Nat)
  allDecided : Bool
  delegationStatuses : List DelegationStatus
  (blockingRecovery blockingShareWork hasUnconfirmedShares hotkeyBound completedVoteArtifact : Bool)
  completedForDisplay : Bool
  completedVoteDisplay : Option (List CompletedVoteChoice)
  (needsDraftSetup needsBundleSetup : Bool)
  primaryAction : RoundPlanAction
  work : PlanWorkSummary
  recoveredDelegationWork : List DelegationRecoveryWork
  recoveredVoteWork : List VoteRecoveryWork
  deriving DecidableEq

namespace RoundSnapshot

variable (s : RoundSnapshot)

def someDelegation (phase : DelegationPhase) : Bool :=
  s.bundleIndexes.any fun b => s.delegationPhase b = some phase

def someVote (phase : VotePhase) : Bool := s.votes.entries.any fun (_, vote) => vote.phase = phase

def submissionManaged : Bool := s.someDelegation .submissionManaged || s.someVote .submissionManaged

def submittedWithoutHash : Bool :=
    s.someDelegation .submittedWithoutHash || s.someVote .submittedWithoutHash

def submissionRejected : Bool :=
    s.someDelegation .submissionRejected || s.someVote .submissionRejected

def hotkeyBound : Bool := (s.bundleIndexes.any fun b => s.delegationPhase b ≠ some .prepared) ||
    !s.votes.entries.isEmpty || !s.sharePhases.isEmpty

/-- The proposal is skipped, or its choice is confirmed on every bundle. -/
def isDecided (p : Nat) : Bool :=
  match s.intents.get? p with
  | some .skipped => true
  | some (.choice choice) =>
    !s.bundleIndexes.isEmpty && s.bundleIndexes.all fun b =>
      (s.vote? b p).any fun vote => vote.choice = choice && vote.phase = .confirmed
  | none => false

/-- A vote of the chosen option, or a helper share of a chosen proposal, is stored. -/
def completedVoteArtifact (staleVoteKeys : List VoteKey) : Bool :=
    (s.votes.entries.any fun (key, vote) =>
    !staleVoteKeys.contains key && s.intents.get? key.proposalId = some (.choice vote.choice)) ||
  s.sharePhases.any fun row =>
    !staleVoteKeys.contains ⟨row.bundleIndex, row.proposalId⟩ &&
      isChoice (s.intents.get? row.proposalId)

end RoundSnapshot

/-- The step keeps the foreground open: all but confirmations a helper can still settle. -/
def NextStep.blocks (blocking : List ShareKey) : NextStep → Bool
  | .confirmShare b p share => blocking.contains ⟨b, p, share⟩
  | _ => true

def blockingRecovery (obligations : List Obligation) : Bool :=
  s.submissionManaged || s.submittedWithoutHash || s.submissionRejected ||
    !s.rejectionBlockedBundles.isEmpty ||
    (nextSteps obligations).any (NextStep.blocks (blockingConfirmShareKeys obligations))

def completedForDisplay (plan : RoundObligations) : Bool :=
  s.completedVoteArtifact plan.staleVoteKeys && !blockingRecovery s plan.obligations

def pendingRecovery (obligations : List Obligation) : Bool :=
  s.submissionManaged || !(nextSteps obligations).isEmpty

def primaryAction (plan : RoundObligations) : RoundPlanAction :=
  if plan.needsBundleSetup then .delegate
  else selectPrimaryAction (nextSteps plan.obligations) (blockingRecovery s plan.obligations)
    (!(blockingConfirmShareKeys plan.obligations).isEmpty) (completedForDisplay s plan)

def project (proposalIds : List Nat) (plan : RoundObligations) :
    Except ProjectionFailure RoundPlan := do
  let steps := nextSteps plan.obligations
  let blockingShareWork := !(blockingConfirmShareKeys plan.obligations).isEmpty
  let allDecided := proposalIds.all s.isDecided
  let recoveredDelegationWork ← orVoting (recoveredDelegationWorkFromSteps s plan.obligations steps)
  let recoveredVoteWork ← recoveredVoteWorkFromSteps s plan.obligations steps
  return {
    roundId := s.roundId
    pendingRecovery := pendingRecovery s plan.obligations
    nextSteps := steps
    openProposals := plan.openProposals
    unrosteredIntents := plan.unrosteredIntents
    allDecided
    delegationStatuses := s.delegations.map fun status =>
      ⟨status.bundleIndex, status.phase, s.delegationTxHash status.bundleIndex,
        isTerminalDelegationPhase status.phase⟩
    blockingRecovery := blockingRecovery s plan.obligations
    blockingShareWork
    hasUnconfirmedShares := s.shares.any fun share => !share.confirmed
    hotkeyBound := s.hotkeyBound
    completedVoteArtifact := s.completedVoteArtifact plan.staleVoteKeys
    completedForDisplay := completedForDisplay s plan
    completedVoteDisplay :=
      if completedForDisplay s plan then
        some (RoundPlanning.completedVoteDisplay s proposalIds plan.staleVoteKeys)
      else none
    needsDraftSetup :=
      !blockingRecovery s plan.obligations && !allDecided && !plan.openProposals.isEmpty
    needsBundleSetup := plan.needsBundleSetup
    primaryAction := primaryAction s plan
    work := workSummary plan.obligations steps blockingShareWork
    recoveredDelegationWork
    recoveredVoteWork }

end ZcashVoting.RoundPlanning
