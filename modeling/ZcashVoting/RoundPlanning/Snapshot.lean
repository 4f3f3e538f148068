import ZcashVoting.Lib.KeyedMap
import ZcashVoting.ChainSubmission.Vocabulary

/-!
# What the planner reads of one round

The durable state of a round as one read transaction returns it, the phases of votes,
delegations and helper shares, and the three relations the rule table is made of: where
a vote stands in the chain lifecycle, whether its unit is in the roster, and whether it
agrees with the ballot.

`RoundSnapshot` carries what the tables guarantee: a vote row and a helper-share row
belong to a bundle row, a recovery bundle is stored in the row of its own proposal, and
there is one row for a helper share.
-/
namespace ZcashVoting.RoundPlanning

open ChainSubmission KeyedData

/-! ### Phases and decisions -/

inductive VotePhase where
  | prepared
  | committed
  | submitted
  | submissionManaged
  | submittedWithoutHash
  | submissionRejected
  | confirmed
  deriving DecidableEq

def VotePhase.asStr : VotePhase → String
  | prepared => "prepared"
  | committed => "committed"
  | submitted => "submitted"
  | submissionManaged => "submission_managed"
  | submittedWithoutHash => "submitted_without_hash"
  | submissionRejected => "submission_rejected"
  | confirmed => "confirmed"

inductive DelegationPhase where
  | prepared
  | pcztBuilt
  | proved
  | submitted
  | submissionManaged
  | submittedWithoutHash
  | submissionRejected
  | confirmed
  deriving DecidableEq

inductive SharePhase where
  | submitted
  | confirmed
  deriving DecidableEq

inductive Decision where
  | choice (option : Nat)
  | skipped
  deriving DecidableEq

/-! ### Rows -/

/-- Recovery metadata shared by the actions of one atomic batch. -/
structure VoteBatchRecovery where
  delegationVan : Option Bytes32
  digest : Bytes32
  (index size : Nat)
  deriving DecidableEq

/-- A persisted vote. -/
structure VoteRecoveryBundle where
  voteRoundId : String
  (bundleIndex proposalId voteDecision numOptions anchorHeight vcTreePosition : Nat)
  singleShare : Bool
  (vanNullifier voteAuthorityNoteNew voteCommitment : Bytes32)
  proof : List UInt8
  rVpk : Bytes32
  /-- What is stored but not read again here: the shares hash, the signature and its
  randomizer, the ciphertexts and the share commitments. -/
  sealed : List UInt8
  /-- `share_index` of each encrypted share. -/
  encryptedShares : List Nat
  shareBlinds : List Bytes32
  batch : Option VoteBatchRecovery
  deriving DecidableEq

structure VoteSnapshot where
  choice : Nat
  phase : VotePhase
  txHash : Option String
  vcTreePosition : Option Int
  recovery : Option VoteRecoveryBundle
  deriving DecidableEq

structure BundleSnapshot where
  capabilityImported : Bool
  delegationTxHash : Option String
  deriving DecidableEq

structure DelegationSubmissionStatus where
  bundleIndex : Nat
  phase : DelegationPhase
  deriving DecidableEq

/-- The columns of a helper-share row that planning reads. -/
structure ShareDelegationRecord where
  (bundleIndex proposalId shareIndex : Nat)
  (sentToUrls ambiguousUrls attemptingUrls : List String)
  confirmed : Bool
  deriving DecidableEq

structure SharePhaseRow where
  (bundleIndex proposalId shareIndex : Nat)
  phase : SharePhase
  deriving DecidableEq

structure ShareKey where
  (bundleIndex proposalId shareIndex : Nat)
  deriving DecidableEq

def SharePhaseRow.key (row : SharePhaseRow) : ShareKey :=
    ⟨row.bundleIndex, row.proposalId, row.shareIndex⟩

structure VoteKey where
  (bundleIndex proposalId : Nat)
  deriving DecidableEq

inductive LifecycleHashKey where
  | delegation (bundleIndex : Nat)
  | vote (bundleIndex proposalId : Nat)
  | voteBatch (bundleIndex : Nat) (orderedBatchDigest : Bytes32)
  deriving DecidableEq

/-- Everything the planner reads about one wallet's round. -/
structure RoundSnapshot where
  roundId : String
  delegations : List DelegationSubmissionStatus
  bundles : KeyedMap Nat BundleSnapshot
  votes : KeyedMap VoteKey VoteSnapshot
  shares : List ShareDelegationRecord
  sharePhases : List SharePhaseRow
  intents : KeyedMap Nat Decision
  /-- The distinct transaction hashes the lifecycle knows for a target. -/
  lifecycleHashes : KeyedMap LifecycleHashKey (List String)
  rejectionBlockedBundles : List Nat
  /-- `votes` references `bundles`, and every bundle has a delegation status. -/
  vote_bundle : ∀ key vote, votes.get? key = some vote →
    ∃ status ∈ delegations, status.bundleIndex = key.bundleIndex
  recovery_proposal : ∀ key vote recovery, votes.get? key = some vote →
    vote.recovery = some recovery → recovery.proposalId = key.proposalId
  /-- `share_delegations` references `bundles`. -/
  share_bundle : ∀ row ∈ sharePhases, ∃ status ∈ delegations, status.bundleIndex = row.bundleIndex
  /-- The primary key of `share_delegations`. -/
  share_key : (sharePhases.map SharePhaseRow.key).Nodup

namespace RoundSnapshot

variable (s : RoundSnapshot) {b : Nat}

def vote? (bundleIndex proposalId : Nat) : Option VoteSnapshot :=
    s.votes.get? ⟨bundleIndex, proposalId⟩

/-- The one distinct hash the lifecycle knows, or none. -/
def lifecycleHash (key : LifecycleHashKey) : Option String :=
  match s.lifecycleHashes.get? key with
  | some [hash] => some hash
  | _ => none

def delegationTxHash (bundleIndex : Nat) : Option String :=
    (s.lifecycleHash (.delegation bundleIndex)).or
    ((s.bundles.get? bundleIndex).bind BundleSnapshot.delegationTxHash)

def voteTxHash (bundleIndex proposalId : Nat) : Option String :=
  (s.lifecycleHash (.vote bundleIndex proposalId)).or
    ((s.vote? bundleIndex proposalId).bind VoteSnapshot.txHash)

def voteBatchTxHash (bundleIndex : Nat) (digest : Bytes32) (anchorProposalId : Nat) :
    Option String :=
  (s.lifecycleHash (.voteBatch bundleIndex digest)).or (s.voteTxHash bundleIndex anchorProposalId)

def confirmedTreePosition (bundleIndex proposalId : Nat) : Except VotingError (Option Nat) :=
  match s.vote? bundleIndex proposalId with
  | none => .error (.internal s!"failed to get commitment bundle: vote not found for round={s.roundId}, bundle={bundleIndex}, proposal={proposalId}")
  | some vote =>
    match vote.recovery, vote.vcTreePosition with
    | some _, some position =>
      if 0 ≤ position then .ok (some position.toNat)
      else .error (.internal s!"stored vc_tree_position must be non-negative, got {position}")
    | some _, none => .error (.internal "commitment bundle is stored without vc_tree_position; refusing to assume position 0")
    | none, _ => .ok none

/-- The recovery bundles stored on a bundle, in proposal order. -/
def bundleRecoveries (bundleIndex : Nat) : List VoteRecoveryBundle :=
    s.votes.entries.filterMap fun (key, vote) =>
    if key.bundleIndex = bundleIndex then vote.recovery else none

/-- The delegation phase of a bundle; a later status replaces an earlier one. -/
def delegationPhase (bundleIndex : Nat) : Option DelegationPhase :=
  (s.delegations.reverse.find? fun status => status.bundleIndex = bundleIndex).map DelegationSubmissionStatus.phase

def bundleIndexes : List Nat := sortedSet (s.delegations.map DelegationSubmissionStatus.bundleIndex)

theorem mem_bundleIndexes : b ∈ s.bundleIndexes ↔ ∃ status ∈ s.delegations,
    status.bundleIndex = b := by
  simp [bundleIndexes]

theorem bundle_of_vote {p : Nat} {vote : VoteSnapshot} (h : s.vote? b p = some vote) :
    b ∈ s.bundleIndexes :=
  s.mem_bundleIndexes.mpr (s.vote_bundle _ _ h)

section

variable {s} (hem : s.delegations = [])
include hem

theorem bundleIndexes_of_empty : s.bundleIndexes = [] := by
  refine List.eq_nil_iff_forall_not_mem.mpr fun b hb => ?_
  obtain ⟨_, hmem, -⟩ := s.mem_bundleIndexes.mp hb
  rw [hem] at hmem
  cases hmem

theorem votes_of_empty : s.votes.entries = [] := by
  refine List.eq_nil_iff_forall_not_mem.mpr fun ⟨key, vote⟩ hmem => ?_
  obtain ⟨_, hs, -⟩ := s.vote_bundle key vote (KeyedMap.get?_of_mem_entries hmem)
  rw [hem] at hs
  cases hs

theorem sharePhases_of_empty : s.sharePhases = [] := by
  refine List.eq_nil_iff_forall_not_mem.mpr fun row hmem => ?_
  obtain ⟨_, hs, -⟩ := s.share_bundle row hmem
  rw [hem] at hs
  cases hs

end

end RoundSnapshot

/-! ### The lifecycle -/

/-- Coarse position of a vote in the chain lifecycle. -/
inductive LifecyclePosition where
  | uncast
  | undispatched
  | onWire
  | terminal
  | confirmed
  deriving DecidableEq

namespace LifecyclePosition

/-- `LifecyclePosition::of` -/
def ofPhase : VotePhase → LifecyclePosition
  | .prepared => uncast
  | .committed => undispatched
  | .submitted => onWire
  | .submissionManaged => onWire
  | .submittedWithoutHash => terminal
  | .submissionRejected => terminal
  | .confirmed => confirmed

def isLifecycleOwned : LifecyclePosition → Bool
  | uncast => false
  | undispatched => false
  | onWire => true
  | terminal => true
  | confirmed => true

end LifecyclePosition

theorem confirmed_iff_position {phase : VotePhase} :
    LifecyclePosition.ofPhase phase = .confirmed ↔ phase = .confirmed := by
  cases phase <;> simp [LifecyclePosition.ofPhase]

def votePhaseIsLifecycleOwned (phase : VotePhase) : Bool :=
    (LifecyclePosition.ofPhase phase).isLifecycleOwned

def votePhaseHoldsBundle : VotePhase → Bool
  | .committed => true
  | .submitted => true
  | .submissionManaged => true
  | .submittedWithoutHash => true
  | .prepared => false
  | .submissionRejected => false
  | .confirmed => false

def delegationPhaseHoldsBundle : DelegationPhase → Bool
  | .submissionManaged => true
  | .submittedWithoutHash => true
  | .submissionRejected => true
  | .prepared => false
  | .pcztBuilt => false
  | .proved => false
  | .submitted => false
  | .confirmed => false

inductive RosterRelation where
  | rostered
  | leftRoster
  deriving DecidableEq

def rosterRelation (proposalIds roster : List Nat) : RosterRelation :=
  if proposalIds.all (roster.contains ·) then .rostered else .leftRoster

inductive BallotRelation where
  | agrees
  | unrecorded
  | conflicts
  deriving DecidableEq

def ballotRelation (intents : KeyedMap Nat Decision) (proposalId storedChoice : Nat) :
    BallotRelation :=
  match intents.get? proposalId with
  | none => .unrecorded
  | some (.choice option) => if option = storedChoice then .agrees else .conflicts
  | some .skipped => .conflicts

/-! ### The ballot -/

def minProposalId : Nat := 1
def maxProposalId : Nat := 50

def validateProposalId (proposalId : Nat) : Except VotingError Unit :=
  if minProposalId ≤ proposalId ∧ proposalId ≤ maxProposalId then .ok ()
  else .error (.invalidInput s!"proposal_id must be {minProposalId}..={maxProposalId}, got {proposalId}")

structure BallotIntentClassification where
  (roster choiceProposals openProposals unrosteredIntents : List Nat)

def enrol (roster : List Nat) (proposalId : Nat) : Except VotingError (List Nat) := do
  validateProposalId proposalId
  if roster.contains proposalId then
    throw (.invalidInput s!"proposal roster contains duplicate id {proposalId}")
  else return proposalId :: roster

def isChoice : Option Decision → Bool
  | some (.choice _) => true
  | _ => false

def classifyBallotIntents (proposalIds : List Nat) (intents : KeyedMap Nat Decision) :
    Except VotingError BallotIntentClassification := do
  let listed ← proposalIds.foldlM enrol []
  let roster := sortedSet listed
  return {
    roster
    choiceProposals := roster.filter fun p => isChoice (intents.get? p)
    openProposals := roster.filter fun p => (intents.get? p).isNone
    unrosteredIntents := intents.keys.filter fun p => !roster.contains p }

end ZcashVoting.RoundPlanning
