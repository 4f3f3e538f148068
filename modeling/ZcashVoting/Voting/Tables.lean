import ZcashVoting.RoundPlanning.Classify

/-!
# The voting tables of one round

The rows of one wallet's round that casting, confirming and retiring votes read and
write, and the statements on them. Every statement names the round and the wallet, so
the tables here are those of one round; the two names appear in error texts only.

The column `commitment_bundle_json` holds text of a type `J` that an external JSON
library reads and writes.
-/
namespace ZcashVoting.Voting

open ChainSubmission RoundPlanning KeyedData List

/-! ### Rows -/

structure DraftVote where
  (proposalId choice numOptions vcTreePosition : Nat)
  singleShare : Bool
  deriving DecidableEq

structure VoteRow (J : Type) where
  choice : Nat
  (commitment txHash : Option String)
  vcTreePosition : Option Int
  commitmentBundleJson : Option J
  deriving DecidableEq

/-- Either witness says that the vote has reached the chain. -/
def VoteRow.witnessed {J : Type} (row : VoteRow J) : Bool :=
    row.txHash.isSome || row.vcTreePosition.isSome

/-- The columns of a row of `bundles` that voting reads. -/
structure BundleRow where
  vanCommRand : Option (List UInt8)
  (totalNoteValue addressIndex : Option Nat)
  vanLeafPosition : Option Int
  delegationTxHash : Option String
  /-- `note_positions_blob IS NULL` -/
  capabilityImported : Bool
  deriving DecidableEq

/-- A row of `delegate_cast_recovery`, keyed by bundle and batch digest. -/
structure CombinedAuthorizationRow where
  delegationGenerationDigest : Bytes32
  spendAuthSignature : List UInt8
  deriving DecidableEq

structure RoundTables (J : Type) where
  (roundId walletId : String)
  network : Network
  eaPk : List UInt8
  bundles : KeyedMap Nat BundleRow
  votes : KeyedMap VoteKey (VoteRow J)
  shares : List ShareDelegationRecord
  intents : KeyedMap Nat Decision
  authorizations : KeyedMap (Nat × Bytes32) CombinedAuthorizationRow

/-- The external JSON library at the recovery format. Text it wrote is read back as what
was written, if it is read at all. -/
structure RecoveryCodec (J : Type) where
  encode : VoteRecoveryBundle → J
  parseRecovery : J → Except VotingError VoteRecoveryBundle
  /-- A field `batch_digest`, `batch_index` or `batch_size` is present and not null. -/
  hasBatchMarkers : J → Except VotingError Bool
  /-- SQLite's `json_extract` of `delegation_van` is not null. -/
  hasDelegationVan : J → Except VotingError Bool
  parse_encode : ∀ {bundle parsed : VoteRecoveryBundle},
    parseRecovery (encode bundle) = .ok parsed → parsed = bundle

variable {J : Type} (codec : RecoveryCodec J) (t : RoundTables J)

def serializeRecovery (recovery : VoteRecoveryBundle) : Except VotingError J := do
  validateRecoveryBundleVoteFields recovery
  return codec.encode recovery

/-- The JSON object whose bytes are the column `commitment`. -/
def storedVoteCommitmentBytes (recovery : VoteRecoveryBundle) : String :=
  "\x7b\"proof\":\"" ++ hexEncodeBytes recovery.proof ++ "\",\"van_nullifier\":\"" ++
    hexEncode recovery.vanNullifier ++
    "\",\"vote_authority_note_new\":\"" ++ hexEncode recovery.voteAuthorityNoteNew ++
    "\",\"vote_commitment\":\"" ++ hexEncode recovery.voteCommitment ++ "\"\x7d"

namespace RoundTables

/-! ### Reads -/

/-- `load_vote_row_state` -/
def vote? (b p : Nat) : Option (VoteRow J) := t.votes.get? ⟨b, p⟩

/-- The text `round=…, bundle=…, proposal=…` of an error. -/
def place (b p : Nat) : String := s!"round={t.roundId}, bundle={b}, proposal={p}"

def voteNotFound (b p : Nat) : VotingError := .invalidInput s!"vote not found for {t.place b p}"

def recoveryJson (b p : Nat) : Option J := (t.vote? b p).bind VoteRow.commitmentBundleJson

def recoveryBundle (b p : Nat) : Except VotingError (Option VoteRecoveryBundle) :=
  match t.recoveryJson b p with
  | none => .ok none
  | some json => (codec.parseRecovery json).map some

def bundleVotes (b : Nat) : List (Nat × VoteRow J) := t.votes.entries.filterMap fun (key, row) =>
    if key.bundleIndex = b then some (key.proposalId, row) else none

def voteShares (key : VoteKey) : List ShareDelegationRecord :=
  t.shares.filter fun share => (⟨share.bundleIndex, share.proposalId⟩ : VoteKey) = key

/-- What `DELETE FROM share_delegations` for one vote leaves. -/
def otherShares (key : VoteKey) : List ShareDelegationRecord :=
  t.shares.filter fun share => (⟨share.bundleIndex, share.proposalId⟩ : VoteKey) ≠ key

end RoundTables

/-! ### Authority -/

/-- A proposal-authority mask: bit 0 is a sentinel, bits 1 to 50 the proposals. -/
abbrev AuthorityMask := BitVec 64

def maxProposalAuthority : AuthorityMask := (1#64 <<< (maxProposalId + 1)) - 1#64

/-- `authority &= !(1u64 << pid)`; the shift amount counts modulo 64. -/
def clearProposal (authority : AuthorityMask) (proposalId : Nat) : AuthorityMask :=
  authority &&& ~~~(1#64 <<< (proposalId % 64))

structure Zkp2DelegationData where
  govCommRand : List UInt8
  (totalNoteValue addressIndex : Nat)
  eaPk : List UInt8
  votingRoundId : String
  proposalAuthority : AuthorityMask
  deriving DecidableEq

/-- What a vote is prepared from, and what persisting it checks again. -/
structure VotePreparationState (J : Type) where
  network : Network
  zkp2 : Zkp2DelegationData
  vanPosition : Option Nat
  ballotIntent : Option Decision
  vote : Option (VoteRow J)
  deriving DecidableEq

namespace RoundTables

/-- The proposals of a bundle whose votes have reached the chain. -/
def recordedProposals (b : Nat) :
    List Nat := ((t.bundleVotes b).filter fun vote => vote.2.witnessed).map Prod.fst

def proposalAuthority (b : Nat) : AuthorityMask :=
    (t.recordedProposals b).foldl clearProposal maxProposalAuthority

def zkp2Error (b : Nat) (cause : String) : VotingError :=
  .invalidInput s!"failed to load ZKP2 inputs for round={t.roundId}, bundle={b} ({cause})"

def loadZkp2Inputs (b : Nat) : Except VotingError Zkp2DelegationData :=
  match t.bundles.get? b with
  | none => .error (t.zkp2Error b "Query returned no rows")
  | some bundle =>
    match bundle.vanCommRand, bundle.totalNoteValue, bundle.addressIndex with
    | none, _, _ =>
      .error (t.zkp2Error b "Invalid column type Null at index: 0, name: van_comm_rand")
    | _, none, _ =>
      .error (t.zkp2Error b "Invalid column type Null at index: 1, name: total_note_value")
    | _, _, none =>
      .error (t.zkp2Error b "Invalid column type Null at index: 2, name: address_index")
    | some rand, some value, some address =>
      .ok ⟨rand, value, address, t.eaPk, t.roundId, t.proposalAuthority b⟩

def loadOptionalVanPosition (b : Nat) : Except VotingError (Option Nat) :=
  match t.bundles.get? b with
  | none => .error (.invalidInput s!"no van_leaf_position for round={t.roundId}, bundle={b} (Query returned no rows)")
  | some bundle =>
    match bundle.vanLeafPosition with
    | none => .ok none
    | some position =>
      if 0 ≤ position then .ok (some position.toNat)
      else .error (.internal s!"stored van_leaf_position for round={t.roundId}, bundle={b} must be non-negative, got {position}")

/-- `u32::try_from` on a stored position. -/
def circuitPosition : Option Nat → Except VotingError (Option Nat)
  | none => .ok none
  | some position =>
    if position < 2 ^ 32 then .ok (some position)
    else .error (.invalidInput "VAN position exceeds circuit range")

def loadVotePreparationState (b p : Nat) : Except VotingError (VotePreparationState J) := do
  let zkp2 ← t.loadZkp2Inputs b
  let stored ← t.loadOptionalVanPosition b
  let vanPosition ← circuitPosition stored
  return ⟨t.network, zkp2, vanPosition, t.intents.get? p, t.vote? b p⟩

/-! ### Guards -/

/-- Either witness refuses a rebuild. -/
def ensureVoteRebuildAllowed (b p : Nat) : Except VotingError Unit :=
  if (t.vote? b p).any VoteRow.witnessed then
    .error (.invalidInput s!"round {t.roundId} bundle {b} proposal {p} has a submitted vote that conflicts with requested draft")
  else .ok ()

/-- A signed vote of the bundle that has no tree position. -/
def isPending (row : VoteRow J) : Bool :=
    row.commitmentBundleJson.isSome && row.vcTreePosition.isNone

/-- Votes with a pending chain, in proposal order. -/
def pendingProposals (b : Nat) : List Nat :=
  (((t.bundleVotes b).filter fun vote => isPending vote.2).map Prod.fst).insertionSort (· ≤ ·)

def ensureNoCompetingPendingVoteChain (b : Nat) (proposalIds : List Nat) :
    Except VotingError Unit :=
  match (t.pendingProposals b).find? fun p => !proposalIds.contains p with
  | some p => .error (.invalidInput s!"round {t.roundId} bundle {b} already has a pending vote chain for proposal {p}; recover and confirm it before preparing another vote chain")
  | none => .ok ()

/-- An imported round creates votes only once each delegation is confirmed. -/
def requireCapabilityDelegationsConfirmed : Except VotingError Unit :=
  if t.bundles.entries.any fun entry => entry.2.capabilityImported then
    match (t.bundles.entries.filter fun entry => entry.2.vanLeafPosition.isNone).map Prod.fst
      |>.insertionSort (· ≤ ·) with
    | [] => .ok ()
    | b :: _ => .error (.invalidInput s!"imported capability round {t.roundId} cannot create votes until every delegation is confirmed; bundle {b} is still unconfirmed")
  else .ok ()

/-! ### Writes -/

def setVote (b p : Nat) (row : VoteRow J) : RoundTables J :=
    { t with votes := t.votes.set ⟨b, p⟩ row }

/-- `store_vote`: an unchanged vote is kept; a changed one replaces the row, whose other
columns become null, and loses its helper shares. -/
def storeVote (b p choice : Nat) (commitment : String) : Except VotingError (RoundTables J) :=
  let fresh : VoteRow J := ⟨choice, some commitment, none, none, none⟩
  match t.vote? b p with
  | none => .ok (t.setVote b p fresh)
  | some row =>
    if row.choice = choice ∧ row.commitment = some commitment then .ok t
    else if row.witnessed then
      .error (.invalidInput s!"cannot replace submitted vote for round={t.roundId}, wallet={t.walletId}, bundle={b}, proposal={p}")
    else .ok { t.setVote b p fresh with shares := t.otherShares ⟨b, p⟩ }

def voteChanged (b p : Nat) (action : String) : VotingError :=
  .invalidInput s!"vote changed while {action} for {t.place b p}; retry with the current ballot intent"

def storeRecoveryJsonForVote (b p choice : Nat) (commitment : String) (json : J) :
    Except VotingError (RoundTables J) :=
  match t.vote? b p with
  | none => .error (t.voteNotFound b p)
  | some row =>
    if row.choice = choice ∧ row.commitment = some commitment then
      .ok (t.setVote b p { row with commitmentBundleJson := some json })
    else .error (t.voteChanged b p "storing recovery")

end RoundTables

/-! ### Masks -/

theorem getLsbD_clearProposal (authority : AuthorityMask) (proposalId i : Nat) :
    (clearProposal authority proposalId).getLsbD i =
    (authority.getLsbD i && !decide (proposalId % 64 = i)) := by
  by_cases hi : i < 64
  · have hlt : proposalId % 64 < 64 := Nat.mod_lt _ (by decide)
    have hone : (1#64 <<< (proposalId % 64)).getLsbD i = decide (proposalId % 64 = i) := by
      rw [BitVec.getLsbD_shiftLeft, BitVec.getLsbD_one]
      by_cases heq : proposalId % 64 = i
      · simp [heq, hi]
      simp only [heq, hi, decide_true]
      by_cases hlow : i < proposalId % 64
      · simp [hlow]
      · have hne : i - proposalId % 64 ≠ 0 := by omega
        simp [hne]
    rw [clearProposal, BitVec.getLsbD_and, BitVec.getLsbD_not, hone]
    simp [hi]
  · have hbit : authority.getLsbD i = false := BitVec.getLsbD_of_ge _ _ (by omega)
    rw [clearProposal, BitVec.getLsbD_and, hbit]
    simp

theorem getLsbD_foldl_clearProposal (proposals : List Nat) (authority : AuthorityMask) (i : Nat) :
    (proposals.foldl clearProposal authority).getLsbD i =
      (authority.getLsbD i && !proposals.any fun p => p % 64 = i) := by
  induction proposals generalizing authority with
  | nil => simp
  | cons _ _ ih =>
    rw [foldl_cons, ih, getLsbD_clearProposal, any_cons, Bool.not_or, Bool.and_assoc]

namespace RoundTables

variable {t} {t' : RoundTables J} {b p : Nat}

theorem mem_bundleVotes {row : VoteRow J} : (p, row) ∈ t.bundleVotes b ↔
    t.vote? b p = some row := by
  rw [vote?, KeyedMap.get?_eq_some_iff, bundleVotes, mem_filterMap]
  constructor
  · intro h
    obtain ⟨⟨key, _⟩, hmem, hkey⟩ := h
    by_cases hb : key.bundleIndex = b
    · simp only [if_pos hb, Option.some.injEq] at hkey
      obtain ⟨rfl, rfl⟩ := hkey
      rw [← hb]
      exact hmem
    · simp [if_neg hb] at hkey
  · intro h
    exact ⟨(⟨b, p⟩, row), h, by simp⟩

def recorded (t : RoundTables J) (b p : Nat) : Bool := (t.vote? b p).any VoteRow.witnessed

theorem mem_recordedProposals : p ∈ t.recordedProposals b ↔ t.recorded b p = true := by
  simp only [recordedProposals, mem_map, mem_filter, Prod.exists, recorded]
  constructor
  · intro h
    obtain ⟨_, row, ⟨hmem, hw⟩, rfl⟩ := h
    rw [mem_bundleVotes.mp hmem]
    exact hw
  · intro h
    cases hrow : t.vote? b p with
    | none => simp [hrow] at h
    | some row =>
      rw [hrow] at h
      exact ⟨p, row, ⟨mem_bundleVotes.mpr hrow, h⟩, rfl⟩

/-- The authority of a bundle depends only on which of its votes reached the chain. -/
theorem proposalAuthority_congr (h : ∀ p, t'.recorded b p = t.recorded b p) :
    t'.proposalAuthority b = t.proposalAuthority b := by
  have hmem : ∀ p, p ∈ t'.recordedProposals b ↔ p ∈ t.recordedProposals b := by
    intro p
    rw [mem_recordedProposals, mem_recordedProposals, h]
  apply BitVec.eq_of_getLsbD_eq
  intro i _
  rw [proposalAuthority, proposalAuthority, getLsbD_foldl_clearProposal,
    getLsbD_foldl_clearProposal]
  congr 2
  rw [Bool.eq_iff_iff, any_eq_true, any_eq_true]
  constructor
  · intro h
    obtain ⟨p, hp, hbit⟩ := h
    exact ⟨p, (hmem p).mp hp, hbit⟩
  · intro h
    obtain ⟨p, hp, hbit⟩ := h
    exact ⟨p, (hmem p).mpr hp, hbit⟩

theorem loadZkp2Inputs_authority {zkp2 : Zkp2DelegationData} (h : t.loadZkp2Inputs b = .ok zkp2) :
    zkp2.proposalAuthority = t.proposalAuthority b := by
  unfold loadZkp2Inputs at h
  cases hb : t.bundles.get? b with
  | none => simp [hb] at h
  | some bundle =>
    rw [hb] at h
    cases hra : bundle.vanCommRand <;> cases hva : bundle.totalNoteValue <;>
      cases had : bundle.addressIndex <;> simp [hra, hva, had] at h
    rw [← h]

theorem loadVotePreparationState_ok {state : VotePreparationState J}
    (h : t.loadVotePreparationState b p = .ok state) :
    t.loadZkp2Inputs b = .ok state.zkp2 ∧ state.network = t.network ∧
      state.ballotIntent = t.intents.get? p ∧ state.vote = t.vote? b p := by
  obtain ⟨_, hzkp2, h⟩ := bind_ok h
  obtain ⟨_, -, h⟩ := bind_ok h
  obtain ⟨_, -, h⟩ := bind_ok h
  cases h
  exact ⟨hzkp2, rfl, rfl, rfl⟩

/-- Tables that agree on what a preparation reads give the same captured state. -/
theorem loadVotePreparationState_congr (hr : t' = { t with votes := t'.votes, shares := t'.shares })
    (hau : ∀ q, t'.recorded b q = t.recorded b q) (hvo : t'.vote? b p = t.vote? b p) :
    t'.loadVotePreparationState b p = t.loadVotePreparationState b p := by
  have hma := proposalAuthority_congr hau
  have hb : t'.bundles = t.bundles := by rw [hr]
  have hzkp2 : t'.loadZkp2Inputs b = t.loadZkp2Inputs b := by
    unfold loadZkp2Inputs zkp2Error
    rw [hb, hma, show t'.roundId = t.roundId by rw [hr], show t'.eaPk = t.eaPk by rw [hr]]
  have hpo : t'.loadOptionalVanPosition b = t.loadOptionalVanPosition b := by
    unfold loadOptionalVanPosition
    rw [hb, show t'.roundId = t.roundId by rw [hr]]
  unfold loadVotePreparationState
  rw [hzkp2, hpo, hvo, show t'.network = t.network by rw [hr],
    show t'.intents = t.intents by rw [hr]]

end RoundTables

end ZcashVoting.Voting
