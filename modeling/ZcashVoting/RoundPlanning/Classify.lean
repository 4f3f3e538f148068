import ZcashVoting.RoundPlanning.VoteUnits

/-!
# The rule table

From a snapshot, its vote units and the ballot to the obligations the round still owes.
Each pass of the source is one definition here. The first loop runs over the rostered
choices and the bundles; `pairOutcome` is the decision of its body for one pair, and
`applyOutcome` what the body then does to the accumulators.
-/
namespace ZcashVoting.RoundPlanning

open ChainSubmission KeyedData

/-! ### Helper shares of a confirmed vote -/

def byteLength (text : String) : Nat := (text.toList.map Char.utf8Size).sum

def isLowerHex (c : Char) : Bool := c.isDigit || ('a' ≤ c && c ≤ 'f')

def hexValue (c : Char) : Nat := if c.isDigit then c.toNat - 48 else c.toNat - 87

/-- The little-endian number of a hex text. -/
def littleEndianHex : List Char → Nat
  | high :: low :: rest => 16 * hexValue high + hexValue low + 256 * littleEndianHex rest
  | _ => 0

/-- The modulus of the Pallas base field. -/
def pallasModulus : Nat := 0x40000000000000000000000000000000224698fc094cf91b992d30ed00000001

def validateVoteRoundIdHex (roundId : String) : Except VotingError Unit :=
  if byteLength roundId ≠ 64 then
    .error (.invalidInput s!"vote_round_id must be 64 lowercase hex characters, got {byteLength roundId}")
  else if !roundId.toList.all isLowerHex then
    .error (.invalidInput "vote_round_id must be lowercase hex")
  else if pallasModulus ≤ littleEndianHex roundId.toList then
    .error (.invalidInput "vote_round_id is not a canonical Pallas field element")
  else .ok ()

def minVoteOptions : Nat := 2
def maxVoteOptions : Nat := 8

def validateVoteDecision (decision numOptions : Nat) : Except VotingError Unit :=
  if ¬(minVoteOptions ≤ numOptions ∧ numOptions ≤ maxVoteOptions) then
    .error (.invalidInput s!"num_options must be {minVoteOptions}..={maxVoteOptions}, got {numOptions}")
  else if numOptions ≤ decision then
    .error (.invalidInput s!"vote_decision must be in [0, {numOptions}), got {decision}")
  else .ok ()

def validateRecoveryBundleVoteFields (recovery : VoteRecoveryBundle) : Except VotingError Unit := do
  validateVoteRoundIdHex recovery.voteRoundId
  validateProposalId recovery.proposalId
  validateVoteDecision recovery.voteDecision recovery.numOptions

/-- The shares a vote sends to helpers: all of them, or only the first. -/
def VoteRecoveryBundle.sentShares (recovery : VoteRecoveryBundle) : List Nat :=
  if recovery.singleShare then recovery.encryptedShares.take 1 else recovery.encryptedShares

/-- `recover_payloads`, of which planning reads each payload's share index. -/
def recoverPayloads (recovery : VoteRecoveryBundle) : Except VotingError (List Nat) := do
  validateRecoveryBundleVoteFields recovery
  if recovery.shareBlinds.length < recovery.sentShares.length then
    throw (.invalidInput s!"missing primary blind for encrypted share index {recovery.shareBlinds.length}")
  else return recovery.sentShares

variable (s : RoundSnapshot)

def RoundSnapshot.recordedShareIndexes (b p : Nat) : List Nat :=
  (s.sharePhases.filter fun row => row.bundleIndex = b && row.proposalId = p).map SharePhaseRow.shareIndex

def missingShareIndexes (b p : Nat) : Except VotingError (List Nat) :=
  match (s.vote? b p).bind VoteSnapshot.recovery with
  | none => .error (.invalidInput s!"confirmed vote for round {s.roundId} bundle {b} proposal {p} is missing recovery material for helper-share submission")
  | some recovery => do
    let expected ← recoverPayloads recovery
    if expected.isEmpty then
      throw (.invalidInput s!"confirmed vote for round {s.roundId} bundle {b} proposal {p} has no recoverable helper shares")
    else
      return (sortedSet expected).filter fun index => !(s.recordedShareIndexes b p).contains index

/-! ### Obligations -/

structure CastDraft where
  (proposalId choice : Nat)
  deriving DecidableEq

inductive BlockedReason where
  | openBallot (proposals : List Nat)
  | unrosteredIntents (proposals : List Nat)
  deriving DecidableEq

inductive Obligation where
  | delegate (bundleIndex : Nat)
  | advanceDelegation (bundleIndex : Nat) (imported : Bool) (phase : DelegationPhase)
      (txHash : Option String)
  | retire (unit : VoteUnitId) (members : List Nat)
  | cast (bundleIndex : Nat) (drafts : List CastDraft) (prerequisite : Option Nat)
      (signsDelegation : Bool)
  | blocked (bundleIndex : Nat) (reason : BlockedReason)
  | reconcileChain (unit : VoteUnitId) (bundleIndex : Nat) (orderedProposalIds : List Nat)
      (undispatched : Bool) (txHash : Option String) (prerequisite : Option Nat)
  | deliver (bundleIndex proposalId vcTreePosition : Nat) (shareIndexes : List Nat)
      (prerequisite : Option Nat)
  | confirm (bundleIndex proposalId shareIndex : Nat) (accepted outcomeUnknown : Bool)
      (prerequisite : Option Nat)
  deriving DecidableEq

/-- The last pass: work on a bundle waits for that bundle's planned delegation. -/
def Obligation.withPrerequisite (delegationBundles : List Nat) : Obligation → Obligation
  | cast b drafts _ signs => cast b drafts (blockedBy b) signs
  | reconcileChain unit b ids undispatched hash _ =>
    reconcileChain unit b ids undispatched hash (blockedBy b)
  | deliver b p position shares _ => deliver b p position shares (blockedBy b)
  | confirm b p share accepted unknown _ => confirm b p share accepted unknown (blockedBy b)
  | other => other
where
  blockedBy (b : Nat) : Option Nat := if delegationBundles.contains b then some b else none

structure RoundObligations where
  obligations : List Obligation
  (choiceProposals openProposals unrosteredIntents : List Nat)
  staleVoteKeys : List VoteKey
  needsBundleSetup : Bool
  (withheldCasts lifecycleOwnedChoices : List Nat)
  deriving DecidableEq

/-! ### Facts fixed before the passes -/

/-- The inputs of one classification. -/
structure Classification where
  snapshot : RoundSnapshot
  units : List VoteUnit
  ballot : BallotIntentClassification

namespace Classification

variable (c : Classification)

/-- Some vote for the proposal is owned by the chain lifecycle. -/
def proposalIsOwned (p : Nat) : Bool := c.snapshot.votes.entries.any fun (key, vote) =>
    key.proposalId = p && votePhaseIsLifecycleOwned vote.phase

def unrosteredIntents : List Nat := c.ballot.unrosteredIntents.filter fun p => !c.proposalIsOwned p

def lifecycleOwnedChoices : List Nat := sortedSet (c.ballot.unrosteredIntents.filter fun p =>
    c.proposalIsOwned p && isChoice (c.snapshot.intents.get? p))

def rosterIsTerminal : Bool := c.ballot.openProposals.isEmpty && c.unrosteredIntents.isEmpty

def isStale (key : VoteKey) (vote : VoteSnapshot) : Bool :=
  ballotRelation c.snapshot.intents key.proposalId vote.choice = .conflicts

def staleVoteKeys : List VoteKey :=
  (c.snapshot.votes.entries.filter fun (key, vote) => c.isStale key vote).map Prod.fst

/-- An undispatched unit of which a member left the roster. -/
def isRetired (unit : VoteUnit) : Bool := LifecyclePosition.ofPhase unit.phase = .undispatched &&
    rosterRelation unit.proposalIds c.ballot.roster = .leftRoster

def retiredUnits : List VoteUnit := c.units.filter c.isRetired

def retirableVoteKeys : List VoteKey :=
  c.retiredUnits.flatMap fun unit => unit.proposalIds.map fun p => ⟨unit.bundleIndex, p⟩

/-- A live vote that reserves its bundle. -/
def holds (key : VoteKey) (vote : VoteSnapshot) : Bool :=
  !c.staleVoteKeys.contains key && !c.retirableVoteKeys.contains key &&
    votePhaseHoldsBundle vote.phase

def heldBundles :
    List Nat := (c.snapshot.votes.entries.filter fun (key, vote) => c.holds key vote).map
      (fun (key, _) => key.bundleIndex) ++
    (c.snapshot.bundleIndexes.filter fun b =>
      (c.snapshot.delegationPhase b).any delegationPhaseHoldsBundle) ++
    c.snapshot.rejectionBlockedBundles

/-- A stale vote the chain may have seen. -/
def conflictingKey : Option VoteKey := c.staleVoteKeys.find? fun key =>
    (c.snapshot.votes.get? key).any fun vote => votePhaseIsLifecycleOwned vote.phase

def unitOf (b p : Nat) : Except VotingError VoteUnit :=
  match c.units.find? fun unit => unit.bundleIndex = b && unit.contains p with
  | some unit => .ok unit
  -- `expect`
  | none => .error (.internal "every vote row is in exactly one unit")

end Classification

/-! ### Work planned once -/

/-- What the passes have planned so far, with the units and votes it covers. -/
structure Works where
  obligations : List Obligation
  reconciledUnits : List VoteUnitId
  deliveredVotes : List VoteKey

def reconcileObligation (unit : VoteUnit) : Obligation :=
  .reconcileChain unit.id unit.bundleIndex unit.proposalIds
    (LifecyclePosition.ofPhase unit.phase = .undispatched)
    (match unit.orderedBatchDigest with
      | some digest => s.voteBatchTxHash unit.bundleIndex digest unit.anchorProposalId
      | none => s.voteTxHash unit.bundleIndex unit.anchorProposalId)
    none

def reconcile (works : Works) (unit : VoteUnit) : Except VotingError Works :=
  match unit.members.find? fun member => unit.phase = .submitted && member.recovery.isNone with
  | some member => .error (.invalidInput s!"round {s.roundId} bundle {unit.bundleIndex} proposal {member.proposalId} has a submitted vote without recovery material")
  | none =>
    if works.reconciledUnits.contains unit.id then .ok works
    else .ok { works with
      reconciledUnits := unit.id :: works.reconciledUnits
      obligations := works.obligations ++ [reconcileObligation s unit] }

/-- The `Deliver` of a confirmed vote, if a share is missing. -/
def deliverObligation (b p : Nat) : Except VotingError (List Obligation) := do
  let shareIndexes ← missingShareIndexes s b p
  if shareIndexes.isEmpty then return []
  else
    match ← s.confirmedTreePosition b p with
    | none => throw (.internal s!"submit shares step missing vc_tree_position for round={s.roundId}, bundle={b}, proposal={p}")
    | some position => return [.deliver b p position shareIndexes none]

def deliver (works : Works) (b p : Nat) : Except VotingError Works :=
  if works.deliveredVotes.contains ⟨b, p⟩ then .ok works
  else do
    let owed ← deliverObligation s b p
    return { works with
      deliveredVotes := ⟨b, p⟩ :: works.deliveredVotes
      obligations := works.obligations ++ owed }

/-! ### Fresh casts and the work of votes that agree with the ballot -/

/-- What the first loop decides for a bundle and a chosen proposal. -/
inductive PairOutcome where
  | held
  | blocked
  | cast (choice : Nat)
  | deliver
  | reconcile (unit : VoteUnit)
  | waits
  | ended
  deriving DecidableEq

/-- The accumulators of the first loop. -/
structure Passes where
  works : Works
  bundlesNeedingDelegation : List Nat
  drafts : List (Nat × CastDraft)
  (blocked withheldCasts : List Nat)

namespace Classification

variable (c : Classification)

def castDue (b p choice : Nat) : Bool :=
  match c.snapshot.vote? b p with
  | none => true
  | some vote =>
    c.staleVoteKeys.contains ⟨b, p⟩ || vote.choice ≠ choice ||
      c.retirableVoteKeys.contains ⟨b, p⟩ || LifecyclePosition.ofPhase vote.phase = .uncast

/-- The ballot agrees with every member, each of them rostered. -/
def everyMemberAgrees (b : Nat) (unit : VoteUnit) : Bool := unit.proposalIds.all fun p =>
    c.ballot.roster.contains p && (c.snapshot.vote? b p).any fun vote =>
      ballotRelation c.snapshot.intents p vote.choice = .agrees

/-- The outcome of a pair whose vote agrees with the ballot. -/
def liveOutcome (b p : Nat) (vote : VoteSnapshot) : Except VotingError PairOutcome :=
  match LifecyclePosition.ofPhase vote.phase with
  | .confirmed => .ok .deliver
  | .undispatched => do
    let unit ← c.unitOf b p
    return if c.everyMemberAgrees b unit then .reconcile unit else .waits
  | .onWire => do
    let unit ← c.unitOf b p
    return .reconcile unit
  | .terminal => .ok .ended
  | .uncast => .ok .ended

def pairOutcome (b p choice : Nat) : Except VotingError PairOutcome :=
  if c.castDue b p choice then
    if c.heldBundles.contains b then .ok .held
    else if c.rosterIsTerminal then .ok (.cast choice)
    else .ok .blocked
  else
    match c.snapshot.vote? b p with
    -- `expect`
    | none => .error (.internal "a due cast covers the missing row")
    | some vote => c.liveOutcome b p vote

def applyOutcome (st : Passes) (b p : Nat) : PairOutcome → Except VotingError Passes
  | .held => .ok { st with withheldCasts := p :: st.withheldCasts }
  | .blocked => .ok { st with
      bundlesNeedingDelegation := b :: st.bundlesNeedingDelegation
      blocked := b :: st.blocked
      withheldCasts := p :: st.withheldCasts }
  | .cast choice => .ok { st with
      bundlesNeedingDelegation := b :: st.bundlesNeedingDelegation
      drafts := st.drafts ++ [(b, ⟨p, choice⟩)] }
  | .deliver => do
    let works ← RoundPlanning.deliver c.snapshot st.works b p
    return { st with works }
  | .reconcile unit => do
    let works ← RoundPlanning.reconcile c.snapshot st.works unit
    return { st with works }
  | .waits => .ok { st with withheldCasts := p :: st.withheldCasts }
  | .ended => .ok st

/-- The body of the first loop for one bundle and proposal. -/
def visitPair (st : Passes) (pair : Nat × Nat) : Except VotingError Passes :=
  match c.snapshot.intents.get? pair.2 with
  | some (.choice choice) => do
    let outcome ← c.pairOutcome pair.1 pair.2 choice
    c.applyOutcome st pair.1 pair.2 outcome
  | _ => .ok st

/-- Bundles and chosen proposals in the order of the nested loops. -/
def pairs : List (Nat × Nat) :=
  c.ballot.choiceProposals.flatMap fun p => c.snapshot.bundleIndexes.map fun b => (b, p)

/-- The body of the on-wire pass. -/
def visitVote (works : Works) (entry : VoteKey × VoteSnapshot) : Except VotingError Works :=
  if c.snapshot.intents.contains entry.1.proposalId && c.ballot.roster.contains entry.1.proposalId
  then .ok works
  else
    match LifecyclePosition.ofPhase entry.2.phase with
    | .onWire => do
      let unit ← c.unitOf entry.1.bundleIndex entry.1.proposalId
      RoundPlanning.reconcile c.snapshot works unit
    | .confirmed =>
      RoundPlanning.deliver c.snapshot works entry.1.bundleIndex entry.1.proposalId
    | _ => .ok works

/-! ### The remaining passes -/

def signsDelegation (b : Nat) : Bool :=
    !((c.snapshot.bundles.get? b).any BundleSnapshot.capabilityImported) &&
    (c.snapshot.delegationPhase b).any fun phase => phase ≠ .confirmed

/-- One cast for each bundle with drafts, in bundle order. -/
def casts (st : Passes) : List Obligation := (sortedSet (st.drafts.map Prod.fst)).map fun b =>
    .cast b ((st.drafts.filter fun draft => draft.1 = b).map Prod.snd) none (c.signsDelegation b)

def blockedReason : BlockedReason :=
  if c.ballot.openProposals.isEmpty then .unrosteredIntents c.unrosteredIntents
  else .openBallot c.ballot.openProposals

def blocks (st : Passes) : List Obligation := (sortedSet st.blocked).map fun b =>
    .blocked b c.blockedReason

/-- The bundle's votes sign their delegation in a combined batch. -/
def isCombined (b : Nat) : Bool := c.snapshot.votes.entries.any fun (key, vote) =>
    key.bundleIndex = b && (vote.recovery.bind VoteRecoveryBundle.delegationVan).isSome

/-- The delegation obligation of one bundle. -/
def delegationStep (needing : List Nat) (b : Nat) : Except VotingError (List Obligation) :=
  if c.isCombined b then .ok []
  else
    match c.snapshot.delegationPhase b with
    | some .submitted => advance .submitted
    | some .submissionManaged => advance .submissionManaged
    | some .prepared => .ok (if needing.contains b then [.delegate b] else [])
    | some .pcztBuilt => .ok (if needing.contains b then [.delegate b] else [])
    | _ => .ok []
where
  advance (phase : DelegationPhase) : Except VotingError (List Obligation) :=
    match c.snapshot.bundles.get? b with
    | none => .error (.invalidInput s!"bundle not found for round {c.snapshot.roundId} index {b}")
    | some bundle =>
        .ok [.advanceDelegation b bundle.capabilityImported phase (c.snapshot.delegationTxHash b)]

def delegationObligations (needing : List Nat) : Except VotingError (List Obligation) := do
  let steps ← c.snapshot.bundleIndexes.mapM (c.delegationStep needing)
  return steps.flatten

/-- The bundles whose delegation this plan advances. -/
def delegationBundle : Obligation → Option Nat
  | .delegate b => some b
  | .advanceDelegation b .. => some b
  | _ => none

/-- Confirmation of the helper shares already submitted. -/
def confirms : List Obligation := (c.snapshot.sharePhases.filter fun row =>
    !c.staleVoteKeys.contains ⟨row.bundleIndex, row.proposalId⟩ && row.phase = .submitted).map
    fun row =>
      let share := c.snapshot.shares.find? fun share =>
        share.bundleIndex = row.bundleIndex && share.proposalId = row.proposalId &&
          share.shareIndex = row.shareIndex
      .confirm row.bundleIndex row.proposalId row.shareIndex
        (share.all fun share => share.confirmed || !share.sentToUrls.isEmpty)
        (share.any fun share => !share.ambiguousUrls.isEmpty || !share.attemptingUrls.isEmpty) none

def retirements : List Obligation := c.retiredUnits.map fun unit => .retire unit.id unit.proposalIds

def classify : Except VotingError RoundObligations :=
  match c.conflictingKey with
  | some key => .error (.invalidInput s!"round {c.snapshot.roundId} bundle {key.bundleIndex} proposal {key.proposalId} has a submitted vote that conflicts with ballot intent")
  | none => do
    let st ← c.pairs.foldlM c.visitPair ⟨⟨c.retirements, [], []⟩, [], [], [], []⟩
    let works ← c.snapshot.votes.entries.foldlM c.visitVote st.works
    let delegations ← c.delegationObligations st.bundlesNeedingDelegation
    let planned := works.obligations ++ c.casts st ++ c.blocks st ++ delegations ++ c.confirms
    return {
      obligations :=
        planned.map (Obligation.withPrerequisite (delegations.filterMap delegationBundle))
      choiceProposals := c.ballot.choiceProposals
      openProposals := c.ballot.openProposals
      unrosteredIntents := c.unrosteredIntents
      staleVoteKeys := c.staleVoteKeys
      needsBundleSetup := false
      withheldCasts := sortedSet st.withheldCasts
      lifecycleOwnedChoices := c.lifecycleOwnedChoices }

end Classification

def classifyRound (H : BatchSighash) (s : RoundSnapshot) (proposalIds : List Nat) :
    Except VotingError RoundObligations := do
  let ballot ← classifyBallotIntents proposalIds s.intents
  if !ballot.choiceProposals.isEmpty && s.delegations.isEmpty then
    return {
      obligations := []
      choiceProposals := ballot.choiceProposals
      openProposals := ballot.openProposals
      unrosteredIntents := ballot.unrosteredIntents
      staleVoteKeys := []
      needsBundleSetup := true
      withheldCasts := sortedSet ballot.choiceProposals
      lifecycleOwnedChoices := [] }
  else
    let units ← groupVoteUnits H s
    Classification.classify ⟨s, units, ballot⟩

end ZcashVoting.RoundPlanning
