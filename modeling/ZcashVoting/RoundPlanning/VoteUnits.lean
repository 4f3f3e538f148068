import ZcashVoting.RoundPlanning.Snapshot

/-!
# Vote units

The votes of a round grouped into what the chain dispatches: singletons and atomic
batches. `groupVoteUnits` follows the source's loop; `UnitsOf` says what its result is,
a partition of the vote rows into units of one phase.
-/
namespace ZcashVoting.RoundPlanning

open ChainSubmission KeyedData List VoteRecoveryBundle

/-- One action as the batch sighash commits to it. -/
structure SighashAction where
  (rVpk vanNullifier voteAuthorityNoteNew voteCommitment : Bytes32)
  proposalId : Nat
  deriving DecidableEq

/-- The two batch sighashes, which hash outside this development. Each takes the round
id as text and may refuse it. -/
structure BatchSighash where
  castVoteBatch : String → Nat → List SighashAction → Except VotingError Bytes32
  delegateAndVoteBatch : String → Bytes32 → List SighashAction → Except VotingError Bytes32

def VoteRecoveryBundle.sighashAction (recovery : VoteRecoveryBundle) : SighashAction :=
  ⟨recovery.rVpk, recovery.vanNullifier, recovery.voteAuthorityNoteNew, recovery.voteCommitment,
    recovery.proposalId⟩

def VoteRecoveryBundle.delegationVan (recovery : VoteRecoveryBundle) : Option Bytes32 :=
  recovery.batch.bind VoteBatchRecovery.delegationVan

/-- The bundle names the atomic batch `digest`. -/
def VoteRecoveryBundle.inBatch (digest : Bytes32) (recovery : VoteRecoveryBundle) : Bool :=
  recovery.batch.any fun batch => batch.digest = digest

def VoteRecoveryBundle.batchIndex (recovery : VoteRecoveryBundle) : Nat :=
  (recovery.batch.map VoteBatchRecovery.index).getD 0

/-- The members of a batch among the candidates, in batch order. -/
def batchMembers (digest : Bytes32) (candidates : List VoteRecoveryBundle) :
    List VoteRecoveryBundle :=
  (candidates.filter (VoteRecoveryBundle.inBatch digest)).insertionSort fun a b =>
    a.batchIndex ≤ b.batchIndex

/-- Every member stands at its own index of a batch of `size` members. -/
def inOrder (digest : Bytes32) (size : Nat) (recoveries : List VoteRecoveryBundle) : Bool :=
  recoveries.length = size && recoveries.zipIdx.all fun (recovery, index) =>
    recovery.batch.any fun batch =>
      batch.digest = digest && batch.index = index && batch.size = size

variable (H : BatchSighash)

/-- The sighash of the batch's own actions, which its digest must equal. -/
def batchSighash (roundId : String) (first : VoteRecoveryBundle)
    (recoveries : List VoteRecoveryBundle) : Except VotingError Bytes32 :=
  let actions := recoveries.map VoteRecoveryBundle.sighashAction
  match first.delegationVan with
  | some van => H.delegateAndVoteBatch roundId van actions
  | none => H.castVoteBatch roundId first.anchorHeight actions

/-- Some member disagrees with the first about the combined authorization. -/
def authorizationDiffers (first : VoteRecoveryBundle)
    (recoveries : List VoteRecoveryBundle) : Bool :=
  recoveries.any fun recovery => recovery.delegationVan ≠ first.delegationVan ||
    first.delegationVan.isSome && recovery.anchorHeight ≠ 0

def verifyBatch (roundId : String) (digest : Bytes32)
    (first : VoteRecoveryBundle) (recoveries : List VoteRecoveryBundle) :
    Except VotingError (List VoteRecoveryBundle) :=
  if !inOrder digest ((first.batch.map VoteBatchRecovery.size).getD 0) recoveries then
    .error (.invalidInput "persisted atomic vote batch is incomplete or out of order")
  else if authorizationDiffers first recoveries then
    .error (.invalidInput "inconsistent combined batch authorization")
  else do
    let recomputed ← batchSighash H roundId first recoveries
    if recomputed ≠ digest then
      throw (.invalidInput "persisted atomic vote batch digest does not match its actions")
    else return recoveries

def assembleVoteBatchRecoveries (roundId : String) (bundleIndex : Nat)
    (digest : Bytes32) (candidates : List VoteRecoveryBundle) :
    Except VotingError (List VoteRecoveryBundle) :=
  match batchMembers digest candidates with
  | [] => .error (.invalidInput s!"vote batch recovery not found for round={roundId}, bundle={bundleIndex}, digest={hexEncode digest}")
  | first :: rest => verifyBatch H roundId digest first (first :: rest)

/-! ### Units -/

inductive VoteUnitId where
  | singleton (bundleIndex proposalId : Nat)
  | batch (bundleIndex : Nat) (orderedBatchDigest : Bytes32)
  deriving DecidableEq

structure VoteMember where
  proposalId : Nat
  recovery : Option VoteRecoveryBundle
  deriving DecidableEq

structure VoteUnit where
  id : VoteUnitId
  bundleIndex : Nat
  members : List VoteMember
  phase : VotePhase
  deriving DecidableEq

namespace VoteUnit

variable (unit : VoteUnit)

def proposalIds : List Nat := unit.members.map VoteMember.proposalId

/-- `members[0]`; a unit has a member. -/
def anchorProposalId : Nat := unit.proposalIds.headD 0

def orderedBatchDigest : Option Bytes32 :=
  match unit.id with
  | .singleton .. => none
  | .batch _ digest => some digest

def contains (proposalId : Nat) : Bool := unit.proposalIds.contains proposalId

/-- The unit has the vote `(bundleIndex, proposalId)` as a member. -/
def Has (bundleIndex proposalId : Nat) : Prop :=
  unit.bundleIndex = bundleIndex ∧ proposalId ∈ unit.proposalIds

end VoteUnit

/-- The batch a vote is grouped by: one its recovery names, in a phase the chain may
still act on. -/
def VoteSnapshot.groupedBatch (vote : VoteSnapshot) : Option VoteBatchRecovery :=
  match vote.phase with
  | .committed => vote.recovery.bind VoteRecoveryBundle.batch
  | .submitted => vote.recovery.bind VoteRecoveryBundle.batch
  | .submissionManaged => vote.recovery.bind VoteRecoveryBundle.batch
  | _ => none

def singletonUnit (key : VoteKey) (vote : VoteSnapshot) : VoteUnit :=
  ⟨.singleton key.bundleIndex key.proposalId, key.bundleIndex, [⟨key.proposalId, vote.recovery⟩],
    vote.phase⟩

/-- The ballot records something else than the recovery's own decision. -/
def conflictsWithBallot (intents : KeyedMap Nat Decision) (member : VoteSnapshot)
    (recovery : VoteRecoveryBundle) : Bool :=
  member.choice ≠ recovery.voteDecision ||
    (intents.get? recovery.proposalId).any fun intent => intent ≠ .choice recovery.voteDecision

/-- Members collected so far, and the hash the submitted ones share. -/
structure BatchScan where
  members : List VoteMember
  sharedTxHash : Option String

variable (s : RoundSnapshot)

/-- The hash of a submitted member, which must agree with the one seen before. -/
def checkTxHash (bundleIndex : Nat) (phase : VotePhase) (shared : Option String)
    (proposalId : Nat) : Except VotingError (Option String) :=
  if phase = .submitted then
    match s.voteTxHash bundleIndex proposalId with
    | none => .ok shared
    | some hash =>
      if shared.any (· ≠ hash) then
        .error (.invalidInput s!"submitted atomic vote batch has conflicting transaction hashes for round={s.roundId}, bundle={bundleIndex}")
      else .ok (some hash)
  else .ok shared

def scanMember (bundleIndex : Nat) (phase : VotePhase) (scan : BatchScan)
    (recovery : VoteRecoveryBundle) : Except VotingError BatchScan :=
  match s.vote? bundleIndex recovery.proposalId with
  | none => .error (.invalidInput s!"persisted atomic vote batch is missing proposal {recovery.proposalId} for round={s.roundId}, bundle={bundleIndex}")
  | some member =>
    if member.phase ≠ phase then
      .error (.invalidInput s!"persisted atomic vote batch has mixed phases for round={s.roundId}, bundle={bundleIndex}: proposal {recovery.proposalId} is {member.phase.asStr}, expected {phase.asStr}")
    else if conflictsWithBallot s.intents member recovery then
      .error (.invalidInput s!"persisted atomic vote batch conflicts with ballot intent for round={s.roundId}, bundle={bundleIndex}, proposal={recovery.proposalId}")
    else do
      let shared ← checkTxHash s bundleIndex phase scan.sharedTxHash recovery.proposalId
      return ⟨scan.members ++ [⟨recovery.proposalId, member.recovery⟩], shared⟩

def claimMember (bundleIndex : Nat) (grouped : List VoteKey)
    (member : VoteMember) : Except VotingError (List VoteKey) :=
  let key : VoteKey := ⟨bundleIndex, member.proposalId⟩
  if grouped.contains key then
    .error (.invalidInput s!"vote belongs to more than one atomic batch for round={s.roundId}, bundle={bundleIndex}, proposal={member.proposalId}")
  else .ok (key :: grouped)

/-- Units built so far and the votes that batches claimed. -/
structure Grouping where
  units : List VoteUnit
  grouped : List VoteKey

def groupBatch (st : Grouping) (key : VoteKey)
    (phase : VotePhase) (batch : VoteBatchRecovery) : Except VotingError Grouping := do
  let recoveries ← assembleVoteBatchRecoveries H s.roundId key.bundleIndex batch.digest
    (s.bundleRecoveries key.bundleIndex)
  if recoveries.isEmpty then
    throw (.invalidInput s!"persisted atomic vote batch is empty for round={s.roundId}, bundle={key.bundleIndex}")
  else
    let scan ← recoveries.foldlM (scanMember s key.bundleIndex phase) ⟨[], none⟩
    let grouped ← scan.members.foldlM (claimMember s key.bundleIndex) st.grouped
    return ⟨st.units ++ [⟨.batch key.bundleIndex batch.digest, key.bundleIndex, scan.members, phase⟩], grouped⟩

def groupVote (st : Grouping) (entry : VoteKey × VoteSnapshot) : Except VotingError Grouping :=
  if st.grouped.contains entry.1 then .ok st
  else
    match entry.2.groupedBatch with
    | none => .ok { st with units := st.units ++ [singletonUnit entry.1 entry.2] }
    | some batch => groupBatch H s st entry.1 entry.2.phase batch

def groupVoteUnits : Except VotingError (List VoteUnit) := do
  let st ← s.votes.entries.foldlM (groupVote H s) ⟨[], []⟩
  return st.units

/-! ### What the loops of the grouping establish -/

section

variable {H : BatchSighash} {s : RoundSnapshot} {b p : Nat} {phase : VotePhase}
  {vote : VoteSnapshot} {digest : Bytes32} {recovery : VoteRecoveryBundle}
  {recoveries candidates : List VoteRecoveryBundle} {batch : VoteBatchRecovery} {st st' : Grouping}
  {seen : List (VoteKey × VoteSnapshot)} {units : List VoteUnit} {entry : VoteKey × VoteSnapshot}
  {roundId : String} {key : VoteKey} {grouped' : List VoteKey}

theorem mem_batchMembers : recovery ∈ batchMembers digest candidates ↔
      recovery ∈ candidates ∧ recovery.inBatch digest = true := by
  simp [batchMembers]

theorem verifyBatch_ok {first : VoteRecoveryBundle} {verified : List VoteRecoveryBundle}
    (h : verifyBatch H roundId digest first recoveries = .ok verified) : verified = recoveries := by
  unfold verifyBatch at h
  split at h
  · cases h
  split at h
  · cases h
  obtain ⟨_, -, h⟩ := bind_ok h
  split at h
  · cases h
  · exact (Except.ok.inj h).symm

theorem assemble_ok
    (h : assembleVoteBatchRecoveries H roundId b digest candidates = .ok recoveries) :
    recoveries = batchMembers digest candidates := by
  unfold assembleVoteBatchRecoveries at h
  split at h
  · cases h
  · rename_i first rest heq
    rw [verifyBatch_ok h, heq]

theorem mem_bundleRecoveries : recovery ∈ s.bundleRecoveries b ↔
      ∃ vote, s.vote? b recovery.proposalId = some vote ∧ vote.recovery = some recovery := by
  simp only [RoundSnapshot.bundleRecoveries, mem_filterMap, Prod.exists]
  constructor
  · rintro ⟨key, vote, hmem, hrec⟩
    split at hrec
    · rename_i hb
      have hget := KeyedMap.get?_of_mem_entries hmem
      have hp := s.recovery_proposal key vote recovery hget hrec
      refine ⟨vote, ?_, hrec⟩
      rw [RoundSnapshot.vote?, hp, ← hb]
      exact hget
    · cases hrec
  · rintro ⟨vote, hget, hrec⟩
    exact ⟨_, vote, KeyedMap.mem_entries_of_get? hget, by simpa using hrec⟩

/-- A vote whose choice is its recovery's, where the ballot says nothing else. -/
theorem not_conflicts_of_checked (h : conflictsWithBallot s.intents vote recovery = false) :
    ballotRelation s.intents recovery.proposalId vote.choice ≠ .conflicts := by
  simp only [conflictsWithBallot, Bool.or_eq_false_iff, decide_eq_false_iff_not, not_not] at h
  obtain ⟨hch, hin⟩ := h
  unfold ballotRelation
  cases hget : s.intents.get? recovery.proposalId with
  | none => simp
  | some intent =>
    rw [hget] at hin
    have hi : intent = .choice recovery.voteDecision := by simpa using hin
    subst hi
    simp [hch]

theorem scanMember_ok {scan scan' : BatchScan}
    (h : scanMember s b phase scan recovery = .ok scan') :
    ∃ member, s.vote? b recovery.proposalId = some member ∧ member.phase = phase ∧
      conflictsWithBallot s.intents member recovery = false ∧
      scan'.members = scan.members ++ [⟨recovery.proposalId, member.recovery⟩] := by
  unfold scanMember at h
  split at h
  · cases h
  next member hvo =>
  obtain ⟨hph, h⟩ := guard_ok h
  obtain ⟨hco, h⟩ := guard_ok h
  obtain ⟨_, -, h⟩ := bind_ok h
  cases h
  exact ⟨member, hvo, not_not.mp hph, by simpa using hco, rfl⟩

section

variable {scan : BatchScan} (h : recoveries.foldlM (scanMember s b phase) ⟨[], none⟩ = .ok scan)
include h

theorem scanMembers_ok : scan.members = recoveries.map (fun recovery =>
      ⟨recovery.proposalId, (s.vote? b recovery.proposalId).bind VoteSnapshot.recovery⟩) ∧
    ∀ recovery ∈ recoveries, ∃ member, s.vote? b recovery.proposalId = some member ∧
      member.phase = phase ∧ conflictsWithBallot s.intents member recovery = false := by
  refine foldlM_ok_induction (fun seen scan => scan.members = seen.map (fun recovery =>
      ⟨recovery.proposalId, (s.vote? b recovery.proposalId).bind VoteSnapshot.recovery⟩) ∧
    ∀ recovery ∈ seen, ∃ member, s.vote? b recovery.proposalId = some member ∧
      member.phase = phase ∧ conflictsWithBallot s.intents member recovery = false) h (by simp) ?_
  rintro seen recovery _ scan _ - ⟨hmap, hall⟩ hst
  obtain ⟨member, hv, hph, hco, hme⟩ := scanMember_ok hst
  refine ⟨by simp [hme, hmap, hv], fun r hr => ?_⟩
  rcases mem_append.mp hr with hr | hr
  · exact hall r hr
  · rw [mem_singleton.mp hr]
    exact ⟨member, hv, hph, hco⟩

theorem scanMembers_ids : scan.members.map VoteMember.proposalId = recoveries.map proposalId := by
  rw [(scanMembers_ok h).1, map_map]
  rfl

end

theorem mem_claimed_cons {grouped claimed : List VoteKey} {seen : List VoteMember}
    {member : VoteMember}
    (h : ∀ key, key ∈ claimed ↔ key ∈ grouped ∨ ∃ m ∈ seen, key = ⟨b, m.proposalId⟩)
    (key : VoteKey) :
    key ∈ ⟨b, member.proposalId⟩ :: claimed ↔ key ∈ grouped ∨ ∃ m ∈ seen ++ [member],
      key = ⟨b, m.proposalId⟩ := by
  simp only [mem_cons, h, mem_append, not_mem_nil, or_false]
  constructor
  · rintro (rfl | hg | ⟨m, hm, rfl⟩)
    · exact .inr ⟨member, .inr rfl, rfl⟩
    · exact .inl hg
    · exact .inr ⟨m, .inl hm, rfl⟩
  · rintro (hg | ⟨m, hm | rfl, rfl⟩)
    · exact .inr (.inl hg)
    · exact .inr (.inr ⟨m, hm, rfl⟩)
    · exact .inl rfl

theorem claimMembers_ok {members : List VoteMember} {grouped : List VoteKey}
    (h : members.foldlM (claimMember s b) grouped = .ok grouped') :
    (∀ key, key ∈ grouped' ↔ key ∈ grouped ∨ ∃ m ∈ members, key = ⟨b, m.proposalId⟩) ∧
    (members.map VoteMember.proposalId).Nodup := by
  refine foldlM_ok_induction (fun seen claimed =>
    (∀ key, key ∈ claimed ↔ key ∈ grouped ∨ ∃ m ∈ seen, key = ⟨b, m.proposalId⟩) ∧
    (seen.map VoteMember.proposalId).Nodup) h (by simp) ?_
  rintro seen member _ claimed _ - ⟨hmem, hno⟩ hs
  obtain ⟨hin, hs⟩ := guard_ok hs
  cases hs
  have hfr : ⟨b, member.proposalId⟩ ∉ claimed := by simpa using hin
  refine ⟨mem_claimed_cons hmem, ?_⟩
  rw [map_append, nodup_append]
  refine ⟨hno, by simp, ?_⟩
  rintro q hq _ hq' rfl
  obtain ⟨m, hm, rfl⟩ := mem_map.mp hq
  have hsa : m.proposalId = member.proposalId := by simpa using hq'
  exact hfr ((hmem _).mpr (.inr ⟨m, hm, by rw [hsa]⟩))

/-! ### The grouping is a partition -/

/-- A unit made of one vote row that is grouped by no batch. -/
def IsSingleton (s : RoundSnapshot) (unit : VoteUnit) : Prop :=
  ∃ key vote, s.votes.get? key = some vote ∧ vote.groupedBatch = none ∧
    unit = singletonUnit key vote

/-- A unit made of every vote row of its bundle that names its batch. -/
structure IsBatch (s : RoundSnapshot) (unit : VoteUnit) (digest : Bytes32) : Prop where
  id : unit.id = .batch unit.bundleIndex digest
  inhabited : unit.proposalIds ≠ []
  distinct : unit.proposalIds.Nodup
  vote : ∀ p ∈ unit.proposalIds, ∃ vote batch, s.vote? unit.bundleIndex p = some vote ∧
    vote.phase = unit.phase ∧ vote.groupedBatch = some batch ∧ batch.digest = digest ∧
    ballotRelation s.intents p vote.choice ≠ .conflicts
  complete : ∀ p vote batch, s.vote? unit.bundleIndex p = some vote →
    vote.groupedBatch = some batch → batch.digest = digest → p ∈ unit.proposalIds

/-- The unit is what the stored recoveries of its bundle read as. -/
structure ReadBatch (H : BatchSighash) (s : RoundSnapshot) (unit : VoteUnit) (digest : Bytes32)
    (recoveries : List VoteRecoveryBundle) (scan : BatchScan) : Prop where
  assembled : assembleVoteBatchRecoveries H s.roundId unit.bundleIndex digest
    (s.bundleRecoveries unit.bundleIndex) = .ok recoveries
  scanned : recoveries.foldlM (scanMember s unit.bundleIndex unit.phase) ⟨[], none⟩ = .ok scan
  members : unit.members = scan.members

/-- What the loop knows after visiting the votes `seen`. -/
structure GroupedSoFar (H : BatchSighash) (s : RoundSnapshot) (seen : List (VoteKey × VoteSnapshot))
    (st : Grouping) : Prop where
  unit : ∀ unit ∈ st.units, IsSingleton s unit ∨ ∃ digest, IsBatch s unit digest
  seenSingleton : ∀ unit ∈ st.units, ∀ b p, unit.id = .singleton b p →
    ∃ vote, (⟨⟨b, p⟩, vote⟩ : VoteKey × VoteSnapshot) ∈ seen
  covered : ∀ entry ∈ seen, ∃ unit ∈ st.units, unit.Has entry.1.bundleIndex entry.1.proposalId
  claimed : ∀ unit ∈ st.units, ∀ digest, IsBatch s unit digest →
    (∀ p ∈ unit.proposalIds, ⟨unit.bundleIndex, p⟩ ∈ st.grouped) ∧
      ∃ recoveries scan, ReadBatch H s unit digest recoveries scan
  grouped : ∀ key ∈ st.grouped, ∃ unit ∈ st.units, unit.Has key.bundleIndex key.proposalId
  byId : ∀ u ∈ st.units, ∀ v ∈ st.units, u.id = v.id → u = v
  distinct : st.units.Nodup

theorem groupedBatch_recovery (h : vote.groupedBatch = some batch) :
    ∃ recovery, vote.recovery = some recovery ∧ recovery.batch = some batch := by
  unfold VoteSnapshot.groupedBatch at h
  split at h
  all_goals first | exact Option.bind_eq_some_iff.mp h | cases h

theorem groupedBatch_of_recovery {other : VoteSnapshot} (ho : other.groupedBatch = some batch)
    (hph : vote.phase = other.phase) (hrec : vote.recovery = some recovery) :
    vote.groupedBatch = recovery.batch := by
  unfold VoteSnapshot.groupedBatch at ho ⊢
  split at ho
  all_goals simp_all

/-- The batch pushed for one vote is the unit of every row that names its digest. -/
theorem groupBatch_ok (hba : vote.groupedBatch = some batch)
    (h : groupBatch H s st key vote.phase batch = .ok st') :
    ∃ unit, st'.units = st.units ++ [unit] ∧ unit.bundleIndex = key.bundleIndex ∧
      IsBatch s unit batch.digest ∧
      (∃ recoveries scan, ReadBatch H s unit batch.digest recoveries scan) ∧
      ∀ k, k ∈ st'.grouped ↔ k ∈ st.grouped ∨ unit.Has k.bundleIndex k.proposalId := by
  obtain ⟨_, ha, h⟩ := bind_ok h
  obtain rfl := assemble_ok ha
  split at h
  · cases h
  rename_i hso
  obtain ⟨scan, hs, h⟩ := bind_ok h
  obtain ⟨_, hcl, h⟩ := bind_ok h
  cases h
  have hids := scanMembers_ids hs
  have hme := (scanMembers_ok hs).2
  obtain ⟨hgr, hdi⟩ := claimMembers_ok hcl
  -- a proposal of the unit is the proposal of a recovery that names the batch
  have hpr : ∀ p, p ∈ scan.members.map VoteMember.proposalId ↔
    ∃ recovery ∈ s.bundleRecoveries key.bundleIndex,
        recovery.inBatch batch.digest = true ∧ recovery.proposalId = p := by
    intro p
    rw [hids]
    simp only [mem_map, mem_batchMembers, and_assoc]
  refine ⟨⟨.batch key.bundleIndex batch.digest, key.bundleIndex, scan.members, vote.phase⟩, rfl, rfl,
    ⟨rfl, ?_, hdi, ?_, ?_⟩, ⟨_, scan, ha, hs, rfl⟩, ?_⟩
  · intro hnil
    have hids' : (batchMembers batch.digest (s.bundleRecoveries key.bundleIndex)).map
        proposalId = [] := hids.symm.trans hnil
    exact hso (by simpa using hids')
  · intro p hp
    obtain ⟨recovery, hmem, hin, rfl⟩ := (hpr p).mp hp
    obtain ⟨member, hv, hph, hco⟩ := hme recovery (mem_batchMembers.mpr ⟨hmem, hin⟩)
    obtain ⟨other, ho, hrec⟩ := mem_bundleRecoveries.mp hmem
    rw [hv] at ho
    cases ho
    obtain ⟨named, hn, hd⟩ : ∃ named, recovery.batch = some named ∧
        named.digest = batch.digest := by
      simpa [inBatch, Option.any_eq_true] using hin
    refine ⟨member, named, hv, hph, ?_, hd, not_conflicts_of_checked hco⟩
    rw [groupedBatch_of_recovery hba hph hrec, hn]
  · intro p other named hv hn hd
    obtain ⟨recovery, hrec, hba'⟩ := groupedBatch_recovery hn
    have hp := s.recovery_proposal _ _ _ hv hrec
    refine (hpr p).mpr ⟨recovery, mem_bundleRecoveries.mpr ⟨other, ?_, hrec⟩, ?_, hp⟩
    · rw [hp]
      exact hv
    · simp [inBatch, hba', hd]
  · intro k
    rw [hgr k]
    refine or_congr_right ⟨?_, ?_⟩
    · rintro ⟨m, hm, rfl⟩
      exact ⟨rfl, mem_map_of_mem hm⟩
    rintro ⟨_, hkp⟩
    obtain ⟨m, hm, _⟩ := mem_map.mp hkp
    refine ⟨m, hm, ?_⟩
    simp_all

theorem GroupedSoFar.push {unit : VoteUnit}
    (hinv : GroupedSoFar H s seen st) (hun : IsSingleton s unit ∨ ∃ digest, IsBatch s unit digest)
    (hse : unit.Has key.bundleIndex key.proposalId)
    (hsi : ∀ b p, unit.id = .singleton b p → key = ⟨b, p⟩)
    (hnew : ∀ u ∈ st.units, u.id ≠ unit.id) (hold : ∀ k ∈ st.grouped, k ∈ grouped')
    (hcla : ∀ digest, IsBatch s unit digest → (∀ p ∈ unit.proposalIds, ⟨unit.bundleIndex, p⟩ ∈ grouped') ∧
        ∃ recoveries scan, ReadBatch H s unit digest recoveries scan)
    (hgr : ∀ k ∈ grouped', k ∈ st.grouped ∨ unit.Has k.bundleIndex k.proposalId) :
    GroupedSoFar H s (seen ++ [(key, vote)]) ⟨st.units ++ [unit], grouped'⟩ := by
  have hc : ∀ u ∈ st.units ++ [unit], u ∈ st.units ∨ u = unit := by
    intro u hu
    simpa using hu
  refine ⟨?_, ?_, ?_, ?_, ?_, ?_, ?_⟩
  · intro u hu
    rcases hc u hu with h | rfl
    · exact hinv.unit u h
    · exact hun
  · intro u hu b p hid
    rcases hc u hu with h | rfl
    · obtain ⟨v, hv⟩ := hinv.seenSingleton u h b p hid
      exact ⟨v, by simp [hv]⟩
    · rw [← hsi b p hid]
      exact ⟨vote, by simp⟩
  · intro entry hen
    rcases mem_append.mp hen with h | h
    · obtain ⟨u, hu, hhas⟩ := hinv.covered entry h
      exact ⟨u, by simp [hu], hhas⟩
    · obtain rfl : entry = (key, vote) := by simpa using h
      exact ⟨unit, by simp, hse⟩
  · intro u hu digest hb
    rcases hc u hu with h | rfl
    · exact (hinv.claimed u h digest hb).imp_left fun hcl p hp => hold _ (hcl p hp)
    · exact hcla digest hb
  · intro k hk
    rcases hgr k hk with h | h
    · obtain ⟨u, hu, hhas⟩ := hinv.grouped k h
      exact ⟨u, by simp [hu], hhas⟩
    · exact ⟨unit, by simp, h⟩
  · intro u hu v hv hid
    rcases hc u hu with hold | hu' <;> rcases hc v hv with hold' | hv'
    · exact hinv.byId u hold v hold' hid
    · rw [hv'] at hid
      exact absurd hid (hnew u hold)
    · rw [hu'] at hid
      exact absurd hid.symm (hnew v hold')
    · rw [hu', hv']
  · simpa using hinv.distinct.concat fun hmem => hnew unit hmem rfl

theorem groupedSoFar_step (hmem : entry ∈ s.votes.entries) (hfr : ∀ vote, (entry.1, vote) ∉ seen)
    (hinv : GroupedSoFar H s seen st) (hs : groupVote H s st entry = .ok st') :
    GroupedSoFar H s (seen ++ [entry]) st' := by
  obtain ⟨key, vote⟩ := entry
  have hget : s.votes.get? key = some vote := KeyedMap.get?_of_mem_entries hmem
  unfold groupVote at hs
  split at hs
  · rename_i hin
    cases hs
    refine { hinv with seenSingleton := ?_, covered := ?_ }
    · intro unit hu b p hid
      obtain ⟨v, hv⟩ := hinv.seenSingleton unit hu b p hid
      exact ⟨v, by simp [hv]⟩
    · intro entry hen
      rcases mem_append.mp hen with h | h
      · exact hinv.covered entry h
      · obtain rfl : entry = (key, vote) := by simpa using h
        exact hinv.grouped key (by simpa using hin)
  · rename_i hin
    have hnot : key ∉ st.grouped := by simpa using hin
    cases hba : vote.groupedBatch with
    | none =>
      simp only [hba, Except.ok.injEq] at hs
      subst hs
      refine hinv.push (.inl ⟨key, vote, hget, hba, rfl⟩)
        ⟨rfl, by simp [singletonUnit, VoteUnit.proposalIds]⟩ ?_ ?_ (fun k hk => hk) ?_
        (fun k hk => .inl hk)
      · rintro b p hid
        obtain ⟨rfl, rfl⟩ : key.bundleIndex = b ∧ key.proposalId = p := by
          simpa [singletonUnit] using hid
        rfl
      · -- an earlier singleton with this identity would be this row, visited twice
        intro u hu hid
        obtain ⟨v, hv⟩ := hinv.seenSingleton u hu _ _ hid
        exact hfr v hv
      · intro digest hb
        exact absurd hb.id (by simp [singletonUnit])
    | some batch =>
      simp only [hba] at hs
      obtain ⟨unit, huni, hbu, hun, hre, hg⟩ := groupBatch_ok hba hs
      have hse : key.proposalId ∈ unit.proposalIds :=
        hun.complete _ vote batch (by rw [hbu]; exact hget) hba rfl
      obtain ⟨_, _⟩ := st'
      subst huni
      refine hinv.push (.inr ⟨_, hun⟩) ⟨hbu, hse⟩ ?_ ?_ (fun k hk => (hg k).mpr (.inl hk))
        (fun digest hb => ⟨fun p hp => (hg _).mpr (.inr ⟨rfl, hp⟩), ?_⟩) (fun k hk => (hg k).mp hk)
      · intro b p hid
        rw [hun.id] at hid
        cases hid
      · -- an earlier batch with this identity would have claimed this row
        intro u hu hid
        rw [hun.id] at hid
        rcases hinv.unit u hu with ⟨_, _, -, -, rfl⟩ | ⟨digest, hb⟩
        · cases hid
        obtain ⟨hbb, hdd⟩ : u.bundleIndex = unit.bundleIndex ∧ digest = batch.digest := by
          have := hb.id.symm.trans hid
          simpa using this
        have hp : key.proposalId ∈ u.proposalIds :=
          hb.complete _ vote batch (by rw [hbb, hbu]; exact hget) hba hdd.symm
        have hc := (hinv.claimed u hu digest hb).1 _ hp
        rw [hbb, hbu] at hc
        exact hnot hc
      · obtain rfl : batch.digest = digest := by simpa using hun.id.symm.trans hb.id
        exact hre

/-- The vote units of a snapshot: a partition of its vote rows into units of one phase. -/
structure UnitsOf (s : RoundSnapshot) (units : List VoteUnit) : Prop where
  shape : ∀ unit ∈ units, IsSingleton s unit ∨ ∃ digest, IsBatch s unit digest
  covers : ∀ b p vote, s.vote? b p = some vote → ∃ unit ∈ units, unit.Has b p
  byId : ∀ u ∈ units, ∀ v ∈ units, u.id = v.id → u = v

/-- The keys are distinct, so a row is visited once. -/
theorem unvisited {rest : List (VoteKey × VoteSnapshot)}
    (hsp : s.votes.entries = seen ++ entry :: rest) (vote : VoteSnapshot) :
    (entry.1, vote) ∉ seen := by
  intro hse
  have hd := s.votes.distinct
  rw [hsp, map_append, nodup_append] at hd
  exact hd.2.2 entry.1 (mem_map.mpr ⟨_, hse, rfl⟩) entry.1 (by simp) rfl

theorem groupedSoFar_all (h : groupVoteUnits H s = .ok units) :
    ∃ grouped, GroupedSoFar H s s.votes.entries ⟨units, grouped⟩ := by
  obtain ⟨st, hfo, hret⟩ := bind_ok h
  cases hret
  refine ⟨st.grouped, foldlM_ok_induction (GroupedSoFar H s) hfo ?_ ?_⟩
  · constructor <;> simp
  · intro seen entry rest st st' hs hinv hst
    exact groupedSoFar_step (by rw [hs]; simp) (unvisited hs) hinv hst

theorem groupVoteUnits_ok (h : groupVoteUnits H s = .ok units) : UnitsOf s units := by
  obtain ⟨_, hinv⟩ := groupedSoFar_all h
  exact ⟨hinv.unit, fun b p vote hvo =>
    hinv.covered ⟨⟨b, p⟩, vote⟩ (KeyedMap.mem_entries_of_get? hvo), hinv.byId⟩

/-- A batch unit of a grouping was read for its bundle. -/
theorem groupVoteUnits_reads {unit : VoteUnit} (h : groupVoteUnits H s = .ok units)
    (hmem : unit ∈ units)
    (hid : unit.id = .batch b digest) : unit.bundleIndex = b ∧ IsBatch s unit digest ∧
      ∃ recoveries scan, ReadBatch H s unit digest recoveries scan := by
  obtain ⟨_, hinv⟩ := groupedSoFar_all h
  rcases hinv.unit unit hmem with ⟨_, _, -, -, rfl⟩ | ⟨_, hb⟩
  · cases hid
  obtain ⟨rfl, rfl⟩ : unit.bundleIndex = b ∧ _ = digest := by simpa using hb.id.symm.trans hid
  exact ⟨rfl, hb, (hinv.claimed unit hmem _ hb).2⟩

theorem nodup_groupVoteUnits (h : groupVoteUnits H s = .ok units) : units.Nodup := by
  obtain ⟨_, hinv⟩ := groupedSoFar_all h
  exact hinv.distinct

namespace UnitsOf

variable {units : List VoteUnit} {unit u v : VoteUnit}

section

variable (hu : UnitsOf s units) (hmem : unit ∈ units)
include hu hmem

theorem vote_of_has (hhas : unit.Has b p) : ∃ vote, s.vote? b p = some vote ∧
    vote.phase = unit.phase := by
  obtain ⟨rfl, hp⟩ := hhas
  rcases hu.shape unit hmem with ⟨key, vote, hget, -, rfl⟩ | ⟨_, hb⟩
  · obtain rfl : p = key.proposalId := by simpa [singletonUnit, VoteUnit.proposalIds] using hp
    exact ⟨vote, hget, rfl⟩
  · obtain ⟨vote, _, hget, hph, -⟩ := hb.vote p hp
    exact ⟨vote, hget, hph⟩

theorem exists_has : ∃ p, unit.Has unit.bundleIndex p := by
  rcases hu.shape unit hmem with ⟨key, _, -, -, rfl⟩ | ⟨_, hb⟩
  · exact ⟨key.proposalId, rfl, by simp [singletonUnit, VoteUnit.proposalIds]⟩
  · obtain ⟨p, hp⟩ := exists_mem_of_ne_nil _ hb.inhabited
    exact ⟨p, rfl, hp⟩

theorem nodup_proposalIds : unit.proposalIds.Nodup := by
  rcases hu.shape unit hmem with ⟨_, _, -, -, rfl⟩ | ⟨_, hb⟩
  · simp [singletonUnit, VoteUnit.proposalIds]
  · exact hb.distinct

end

theorem eq_of_has (hu : UnitsOf s units) (hmem : u ∈ units) (hmem' : v ∈ units)
    (hhas : u.Has b p) (hhas' : v.Has b p) : u = v := by
  refine hu.byId u hmem v hmem' ?_
  obtain ⟨rfl, hp⟩ := hhas
  obtain ⟨hb', hp'⟩ := hhas'
  rcases hu.shape u hmem with ⟨key, vote, hget, hno, rfl⟩ | ⟨_, hb⟩ <;>
    rcases hu.shape v hmem' with ⟨key', vote', hget', hno', rfl⟩ | ⟨_, hba'⟩
  · have h1 : p = key.proposalId := by simpa [singletonUnit, VoteUnit.proposalIds] using hp
    have h2 : p = key'.proposalId := by simpa [singletonUnit, VoteUnit.proposalIds] using hp'
    have h3 : key'.bundleIndex = key.bundleIndex := hb'
    simp [singletonUnit, h3, ← h1, ← h2]
  · obtain rfl : p = key.proposalId := by simpa [singletonUnit, VoteUnit.proposalIds] using hp
    obtain ⟨other, batch, ho, -, hs, -⟩ := hba'.vote _ hp'
    rw [hb'] at ho
    have hsa : other = vote := Option.some.inj (ho.symm.trans hget)
    rw [hsa, hno] at hs
    cases hs
  · obtain rfl : p = key'.proposalId := by simpa [singletonUnit, VoteUnit.proposalIds] using hp'
    obtain ⟨other, batch, ho, -, hs, -⟩ := hb.vote _ hp
    rw [← hb'] at ho
    have hsa : other = vote' := Option.some.inj (ho.symm.trans hget')
    rw [hsa, hno'] at hs
    cases hs
  · obtain ⟨vote, _, hget, -, hs, hdi, -⟩ := hb.vote p hp
    obtain ⟨_, _, hget', -, hs', hdi', -⟩ := hba'.vote p hp'
    rw [hb', hget] at hget'
    cases hget'
    rw [hs] at hs'
    cases hs'
    rw [hb.id, hba'.id, hb', ← hdi, ← hdi']

end UnitsOf

end

end ZcashVoting.RoundPlanning
