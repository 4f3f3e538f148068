import ZcashVoting.Voting.ClearedVotes

/-!
# What confirmations and retirements write

A confirmation gives its own votes a tree position and leaves the other rows
(`Confirms`). Everything else that the lifecycle writes to votes keeps each vote that
has reached the chain (`KeepsWitnessed`). The voting tables then are an instance of the
tables the submission store works on.
-/
namespace ZcashVoting.Voting

open ChainSubmission RoundPlanning KeyedData List

variable {J : Type} {codec : RecoveryCodec J} {H : BatchSighash} {wire : GenerationWire J}
  {t t' t'' : RoundTables J} {b p : Nat}

/-! ### Writes that keep the votes on chain -/

/-- The write leaves each vote that has reached the chain, with its shares, and brings no
vote to the chain. -/
structure KeepsWitnessed (t t' : RoundTables J) : Prop where
  rows : ∀ key row, t.votes.get? key = some row → row.witnessed = true →
    t'.votes.get? key = some row ∧ t'.voteShares key = t.voteShares key
  recorded : ∀ b p, t'.recorded b p = true → t.recorded b p = true
  roundId : t'.roundId = t.roundId
  walletId : t'.walletId = t.walletId
  network : t'.network = t.network

theorem KeepsWitnessed.refl (t : RoundTables J) : KeepsWitnessed t t :=
  ⟨fun _ _ hrow _ => ⟨hrow, rfl⟩, fun _ _ h => h, rfl, rfl, rfl⟩

theorem KeepsWitnessed.trans (h : KeepsWitnessed t t') (h' : KeepsWitnessed t' t'') :
    KeepsWitnessed t t'' := by
  refine ⟨?_, fun b p hrec => h.recorded b p (h'.recorded b p hrec), h'.roundId.trans h.roundId,
    h'.walletId.trans h.walletId, h'.network.trans h.network⟩
  intro key row hrow hw
  obtain ⟨hrow', hsh⟩ := h.rows key row hrow hw
  obtain ⟨hrow'', hsh'⟩ := h'.rows key row hrow' hw
  exact ⟨hrow'', hsh'.trans hsh⟩

open RoundTables

/-- Only votes that have not reached the chain are cleared. -/
theorem Clears.keepsWitnessed {cleared : List VoteKey} (h : Clears t t' cleared) :
    KeepsWitnessed t t' := by
  refine ⟨?_, fun b p hrec => h.trims.recorded b p ▸ hrec, h.trims.roundId, h.trims.walletId,
    h.trims.network⟩
  intro key row hrow hw
  have hk : key ∉ cleared := by
    intro hin
    have hnot := h.unrecorded key hin
    rw [recorded, vote?, hrow] at hnot
    exact absurd (hw.symm.trans hnot) (by simp)
  refine ⟨by simp [h.votes, hrow, clearedRow, hk], ?_⟩
  rw [voteShares, voteShares, h.shares, filter_filter]
  refine filter_congr fun share _ => ?_
  by_cases hs : (⟨share.bundleIndex, share.proposalId⟩ : VoteKey) = key <;> simp [hs, hk]

variable {digest : Bytes32} {recovery : VoteRecoveryBundle}
  {confirmation : ValidatedChainSubmissionConfirmation} {derived : DerivedChainSubmission}
  {commitments : List Bytes32}

/-! ### Confirmed votes -/

/-- What a confirmation makes of the row of a vote. -/
structure ConfirmedRow (codec : RecoveryCodec J) (p : Nat) (row row' : VoteRow J) : Prop where
  choice : row'.choice = row.choice
  positioned : row'.vcTreePosition.isSome = true
  hashed : row.txHash.isSome = true → row'.txHash.isSome = true
  /-- The recovery text changes in its position only. -/
  text : ∀ json, row.commitmentBundleJson = some json → ∃ recovery position,
    codec.parseRecovery json = .ok recovery ∧ recovery.proposalId = p ∧
      row'.commitmentBundleJson = some (codec.encode { recovery with vcTreePosition := position })

theorem ConfirmedRow.trans {row row' row'' : VoteRow J} (h : ConfirmedRow codec p row row')
    (h' : ConfirmedRow codec p row' row'') : ConfirmedRow codec p row row'' := by
  refine ⟨h'.choice.trans h.choice, h'.positioned, fun hash => h'.hashed (h.hashed hash), ?_⟩
  intro json hjs
  obtain ⟨recovery, _, hpa, hp, hjs'⟩ := h.text json hjs
  obtain ⟨_, position', hpa', -, hjs''⟩ := h'.text _ hjs'
  refine ⟨recovery, position', hpa, hp, ?_⟩
  rw [hjs'', codec.parse_encode hpa']

/-- The confirmation of the votes in `keys`. -/
structure Confirms (codec : RecoveryCodec J) (t t' : RoundTables J)
    (keys : List VoteKey) : Prop where
  kept : ∀ key, key ∉ keys → t'.votes.get? key = t.votes.get? key
  rows : ∀ key ∈ keys, ∃ row row', t.votes.get? key = some row ∧ t'.votes.get? key = some row' ∧
    ConfirmedRow codec key.proposalId row row'
  signed : ∀ key ∈ keys, (t.recoveryJson key.bundleIndex key.proposalId).isSome = true
  rest : t' = { t with votes := t'.votes, bundles := t'.bundles }

theorem Confirms.of_bundles (ht : t' = { t with bundles := t'.bundles }) : Confirms codec t t' [] :=
  ⟨fun key _ => by rw [ht], by simp, by simp, by rw [ht]⟩

theorem Confirms.trans {keys keys' : List VoteKey} (h : Confirms codec t t' keys)
    (h' : Confirms codec t' t'' keys') : Confirms codec t t'' (keys ++ keys') := by
  refine ⟨?_, ?_, ?_, ?_⟩
  · intro key hkey
    rw [mem_append, not_or] at hkey
    exact (h'.kept key hkey.2).trans (h.kept key hkey.1)
  · intro key hkey
    by_cases hf : key ∈ keys
    · obtain ⟨row, row', hrow, hrow', hc⟩ := h.rows key hf
      by_cases hs : key ∈ keys'
      · obtain ⟨_, row'', hmid, hrow'', hco'⟩ := h'.rows key hs
        cases hmid.symm.trans hrow'
        exact ⟨row, row'', hrow, hrow'', hc.trans hco'⟩
      · exact ⟨row, row', hrow, (h'.kept key hs).trans hrow', hc⟩
    · have hs : key ∈ keys' := by simpa [hf] using hkey
      obtain ⟨row, row', hrow, hrow', hc⟩ := h'.rows key hs
      exact ⟨row, row', (h.kept key hf).symm.trans hrow, hrow', hc⟩
  · intro key hkey
    by_cases hf : key ∈ keys
    · exact h.signed key hf
    · have hsi := h'.signed key (by simpa [hf] using hkey)
      rw [RoundTables.recoveryJson, RoundTables.vote?, h.kept key hf] at hsi
      exact hsi
  · rw [h'.rest, h.rest]

namespace RoundTables

theorem recordVoteSubmission_ok {txHash : String} (h : t.recordVoteSubmission b p txHash = .ok t') :
    ∃ row, t.vote? b p = some row ∧ t' = t.setVote b p { row with txHash := some txHash } := by
  obtain ⟨_, -, h⟩ := bind_ok h
  cases hrow : t.vote? b p with
  | none => simp [hrow, throw, throwThe] at h
  | some row =>
    simp only [hrow] at h
    obtain ⟨-, h⟩ := guard_ok h
    exact ⟨row, rfl, (Except.ok.inj h).symm⟩

variable {txHash : Option String} {position vanPosition : Nat}

theorem recordOptionalSubmission_ok (h : t.recordOptionalSubmission b p txHash = .ok t') :
    t' = t ∨ ∃ row hash,
      t.vote? b p = some row ∧ t' = t.setVote b p { row with txHash := some hash } := by
  cases txHash with
  | none => exact .inl (Except.ok.inj h).symm
  | some hash =>
    obtain ⟨row, hrow, ht⟩ := recordVoteSubmission_ok h
    exact .inr ⟨row, hash, hrow, ht⟩

theorem validateRecoveryMatchesStoredVote_ok {choice : Nat} {commitment : Option String}
    (h : t.validateRecoveryMatchesStoredVote recovery b p choice commitment = .ok ()) :
    recovery.bundleIndex = b ∧ recovery.proposalId = p := by
  obtain ⟨-, h⟩ := guard_ok h
  obtain ⟨hbu, h⟩ := guard_ok h
  by_cases hp : recovery.proposalId ≠ p
  · rw [if_pos hp] at h
    cases h
  exact ⟨not_not.mp hbu, not_not.mp hp⟩

theorem recordVcPosition_ok (h : t.recordVcPosition codec b p position = .ok t') :
    ∃ row row', t.vote? b p = some row ∧ t' = t.setVote b p row' ∧ row'.txHash = row.txHash ∧
      ConfirmedRow codec p row row' := by
  obtain ⟨-, h⟩ := guard_ok h
  cases hrow : t.vote? b p with
  | none => simp [hrow] at h
  | some row =>
    simp only [hrow] at h
    obtain ⟨_, -, h⟩ := bind_ok h
    obtain ⟨_, hj, h⟩ := bind_ok h
    refine ⟨row, _, rfl, (Except.ok.inj h).symm, rfl, rfl, rfl, fun hash => hash, ?_⟩
    intro stored hst
    rw [positionedJson, hst] at hj
    obtain ⟨recovery, hpa, hj⟩ := bind_ok hj
    obtain ⟨_, hva, hj⟩ := bind_ok hj
    obtain ⟨_, hup, hj⟩ := bind_ok hj
    cases hj
    rw [(serializeRecovery_ok hup).2]
    exact ⟨recovery, position, hpa, (validateRecoveryMatchesStoredVote_ok hva).2, rfl⟩

theorem advanceVanPosition_ok (h : t.advanceVanPosition b position = .ok t') :
    t' = { t with bundles := t'.bundles } := by
  obtain ⟨bundle, -, h⟩ := bind_ok h
  cases hs : bundle.vanLeafPosition with
  | none =>
    simp only [hs] at h
    rw [← Except.ok.inj h]
    rfl
  | some =>
    simp only [hs] at h
    obtain ⟨-, h⟩ := guard_ok h
    split at h
    · rw [← Except.ok.inj h]
    · rw [← Except.ok.inj h]
      rfl

theorem requireVoteRecoveryJson_ok (h : t.requireVoteRecoveryJson b p = .ok ()) :
    (t.recoveryJson b p).isSome = true := by
  unfold requireVoteRecoveryJson at h
  rw [recoveryJson]
  cases hrow : t.vote? b p with
  | none => simp [hrow] at h
  | some row =>
    by_cases hs : row.commitmentBundleJson.isSome = true
    · exact hs
    · simp [hrow, hs] at h

/-- The hash, if there is one, and then the position of one vote. -/
theorem confirms_vote {hashed advanced : RoundTables J}
    (hha : t.recordOptionalSubmission b p txHash = .ok hashed)
    (hsi : hashed.requireVoteRecoveryJson b p = .ok ())
    (hb : advanced = { hashed with bundles := advanced.bundles })
    (hpo : advanced.recordVcPosition codec b p position = .ok t') :
    Confirms codec t t' [⟨b, p⟩] := by
  obtain ⟨row, row', hrow, ht', htx, hc⟩ := recordVcPosition_ok hpo
  have hrow' : hashed.vote? b p = some row := by
    rw [hb] at hrow
    exact hrow
  subst ht'
  have hget : (advanced.setVote b p row').votes.get? ⟨b, p⟩ = some row' := vote?_setVote
  have hso := requireVoteRecoveryJson_ok hsi
  rcases recordOptionalSubmission_ok hha with hsa | ⟨stored, _, hs, hset⟩
  · subst hsa
    refine ⟨?_, ?_, ?_, ?_⟩
    · intro key hkey
      rw [votes_setVote_of_ne (by simpa using hkey), hb]
    · intro key hkey
      obtain rfl := mem_singleton.mp hkey
      exact ⟨row, row', hrow', hget, hc⟩
    · intro key hkey
      obtain rfl := mem_singleton.mp hkey
      exact hso
    · rw [setVote, hb]
  · subst hset
    rw [vote?_setVote] at hrow'
    cases hrow'
    refine ⟨?_, ?_, ?_, ?_⟩
    · intro key hkey
      have hne : key ≠ ⟨b, p⟩ := by simpa using hkey
      rw [votes_setVote_of_ne hne, hb]
      exact votes_setVote_of_ne hne
    · intro key hkey
      obtain rfl := mem_singleton.mp hkey
      refine ⟨stored, row', hs, hget, hc.choice, hc.positioned, ?_, hc.text⟩
      intro _
      rw [htx]
      rfl
    · intro key hkey
      obtain rfl := mem_singleton.mp hkey
      rw [recoveryJson, vote?_setVote] at hso
      rw [recoveryJson, hs]
      exact hso
    · rw [setVote, hb]
      rfl

theorem applyVoteConfirmation_ok {vcPosition : Nat}
    (h : t.applyVoteConfirmation codec b p txHash vanPosition vcPosition = .ok t') :
    Confirms codec t t' [⟨b, p⟩] := by
  obtain ⟨_, -, h⟩ := bind_ok h
  obtain ⟨_, -, h⟩ := bind_ok h
  obtain ⟨_, -, h⟩ := bind_ok h
  obtain ⟨_, -, h⟩ := bind_ok h
  obtain ⟨_, hha, h⟩ := bind_ok h
  obtain ⟨_, hsi, h⟩ := bind_ok h
  obtain ⟨_, had, h⟩ := bind_ok h
  exact confirms_vote hha hsi (advanceVanPosition_ok had) h

theorem confirmMember_ok {member : VoteRecoveryBundle × Nat}
    (h : confirmMember codec b txHash t member = .ok t') :
    Confirms codec t t' [⟨b, member.1.proposalId⟩] := by
  obtain ⟨_, hha, h⟩ := bind_ok h
  obtain ⟨_, hsi, h⟩ := bind_ok h
  exact confirms_vote hha hsi rfl h

theorem applyVoteBatchConfirmation_ok {vcPositions proposalIds : List Nat}
    (h : t.applyVoteBatchConfirmation codec H b digest txHash vanPosition vcPositions proposalIds =
      .ok t') : Confirms codec t t' (proposalIds.map fun q => ⟨b, q⟩) := by
  obtain ⟨_, -, h⟩ := bind_ok h
  obtain ⟨_, -, h⟩ := bind_ok h
  obtain ⟨_, -, h⟩ := bind_ok h
  obtain ⟨recoveries, -, h⟩ := bind_ok h
  obtain ⟨hids, h⟩ := guard_ok h
  obtain ⟨_, h⟩ := guard_ok h
  obtain ⟨_, hco, h⟩ := bind_ok h
  have hl := foldlM_ok_induction (fun (seen : List (VoteRecoveryBundle × Nat)) st =>
      Confirms codec t st (seen.map fun member => ⟨b, member.1.proposalId⟩)) hco
    (.of_bundles rfl) (by
      intro seen member _ st st' _ ih hst
      rw [map_append]
      exact ih.trans (confirmMember_ok hst))
  have hke : (recoveries.zip vcPositions).map (fun member => (⟨b, member.1.proposalId⟩ : VoteKey)) =
      proposalIds.map fun q => ⟨b, q⟩ := by
    have hfst : (recoveries.zip vcPositions).map Prod.fst = recoveries := map_fst_zip (by omega)
    rw [not_not.mp hids, map_map]
    conv_rhs => rw [← hfst]
    rw [map_map]
    rfl
  rw [hke] at hl
  simpa using hl.trans (.of_bundles (advanceVanPosition_ok h))

theorem storeDelegationTxHash_ok {txHash : String} (h : t.storeDelegationTxHash b txHash = .ok t') :
    t' = { t with bundles := t'.bundles } := by
  unfold storeDelegationTxHash at h
  cases hb : t.bundles.get? b with
  | none => simp [hb] at h
  | some =>
    simp only [hb] at h
    obtain ⟨-, h⟩ := guard_ok h
    rw [← Except.ok.inj h]
    rfl

theorem storeOptionalTxHash_ok (h : t.storeOptionalTxHash b txHash = .ok t') :
    t' = { t with bundles := t'.bundles } := by
  cases txHash with
  | none => rw [← Except.ok.inj h]
  | some => exact storeDelegationTxHash_ok h

theorem applyDelegationConfirmation_ok
    (h : t.applyDelegationConfirmation b txHash position = .ok t') :
    t' = { t with bundles := t'.bundles } := by
  obtain ⟨_, -, h⟩ := bind_ok h
  obtain ⟨_, -, h⟩ := bind_ok h
  obtain ⟨_, -, h⟩ := bind_ok h
  obtain ⟨shouldStore, -, h⟩ := bind_ok h
  obtain ⟨_, hha, h⟩ := bind_ok h
  have hb := storeOptionalTxHash_ok hha
  cases shouldStore with
  | false =>
    cases h
    exact hb
  | true =>
    obtain ⟨_, -, h⟩ := bind_ok h
    rw [← Except.ok.inj h, setBundle, hb]

end RoundTables

/-- What a generation confirms: the vote it names, or the members of its batch. -/
def Names (derived : DerivedChainSubmission) (key : VoteKey) : Prop :=
  key.bundleIndex = derived.generation.identity.bundleIndex ∧
    (derived.generation.identity.target = .vote key.proposalId ∨
      ∃ digest final commitments, derived.generation.identity.target.batchDigest = some digest ∧
        derived.expectedLayout = .voteBatch final commitments ∧
        key.proposalId ∈ derived.orderedProposalIds)

theorem applyBatch_ok {positions : List Nat}
    (h : applyConfirmedGeneration.batch codec H t derived confirmation digest commitments positions =
      .ok t') : Confirms codec t t' (derived.orderedProposalIds.map fun q =>
      ⟨derived.generation.identity.bundleIndex, q⟩) := by
  obtain ⟨-, h⟩ := guard_ok h
  obtain ⟨_, hco, h⟩ := bind_ok h
  have hb := applyVoteBatchConfirmation_ok hco
  unfold storeCombinedHash at h
  split at h
  · simpa using hb.trans (.of_bundles (storeOptionalTxHash_ok h))
  · cases h
    exact hb

/-- A confirmation confirms what its generation names and nothing else. -/
theorem applyConfirmedGeneration_ok
    (h : applyConfirmedGeneration codec H t derived confirmation = .ok t') :
    ∃ keys, Confirms codec t t' keys ∧ ∀ key ∈ keys, Names derived key := by
  unfold applyConfirmedGeneration at h
  have hn : ∀ digest final commitments,
    derived.generation.identity.target.batchDigest = some digest →
      derived.expectedLayout = .voteBatch final commitments →
      ∀ key ∈ derived.orderedProposalIds.map fun q =>
        (⟨derived.generation.identity.bundleIndex, q⟩ : VoteKey), Names derived key := by
    intro digest final commitments hdi hl key hkey
    obtain ⟨_, hq, rfl⟩ := mem_map.mp hkey
    exact ⟨rfl, .inr ⟨digest, final, commitments, hdi, hl, hq⟩⟩
  simp only at h
  split at h
  · exact ⟨[], .of_bundles (applyDelegationConfirmation_ok h), by simp⟩
  · rename_i p _ _ position ht _ _
    refine ⟨[⟨derived.generation.identity.bundleIndex, p⟩], applyVoteConfirmation_ok h, ?_⟩
    intro key hkey
    obtain rfl := mem_singleton.mp hkey
    exact ⟨rfl, .inl ht⟩
  · rename_i _ digest final commitments ht hl
    exact ⟨_, applyBatch_ok h, hn digest final commitments (by rw [ht]; rfl) hl⟩
  · rename_i _ digest final commitments ht hl
    exact ⟨_, applyBatch_ok h, hn digest final commitments (by rw [ht]; rfl) hl⟩
  · cases h

/-! ### Derived generations -/

def InBatch (codec : RecoveryCodec J) (t : RoundTables J) (digest : Bytes32) (b p : Nat) : Prop :=
  ∃ json recovery, t.recoveryJson b p = some json ∧ codec.parseRecovery json = .ok recovery ∧
    recovery.proposalId = p ∧ recovery.inBatch digest = true

namespace RoundTables

theorem loadValidatedVote_ok (h : t.loadValidatedVote codec b p = .ok recovery) :
    ∃ json, t.recoveryJson b p = some json ∧ codec.parseRecovery json = .ok recovery ∧
      recovery.proposalId = p := by
  obtain ⟨_, hfo, h⟩ := bind_ok h
  rcases recoveryBundle_ok hfo with ⟨-, rfl⟩ | ⟨json, _, hjs, hpa, rfl⟩
  · cases h
  cases hrow : t.vote? b p with
  | none => simp [hrow, throw, throwThe] at h
  | some =>
    simp only [hrow] at h
    obtain ⟨_, hva, h⟩ := bind_ok h
    cases h
    exact ⟨json, hjs, hpa, (validateRecoveryMatchesStoredVote_ok hva).2⟩

theorem validateBatchMember_ok {anchorHeight : Nat}
    (h : t.validateBatchMember codec b digest anchorHeight recovery = .ok ()) :
    InBatch codec t digest b recovery.proposalId := by
  obtain ⟨-, h⟩ := guard_ok h
  obtain ⟨validated, hva, h⟩ := bind_ok h
  obtain ⟨json, hjs, hpa, hp⟩ := loadValidatedVote_ok hva
  cases hin : validated.inBatch digest with
  | false =>
    simp only [hin, Bool.not_false] at h
    cases h
  | true => exact ⟨json, validated, hjs, hpa, hp, hin⟩

/-- A validated batch is the loaded one, and each vote it names is a member of it. -/
theorem validatedVoteBatch_ok {combined : Bool} {recoveries : List VoteRecoveryBundle}
    (h : t.validatedVoteBatch codec H wire b digest combined = .ok recoveries) :
    t.loadVoteBatchRecoveries codec H b digest = .ok recoveries ∧
      ∀ recovery ∈ recoveries, InBatch codec t digest b recovery.proposalId := by
  obtain ⟨loaded, hlo, h⟩ := bind_ok h
  cases loaded with
  | nil => cases h
  | cons =>
    obtain ⟨-, h⟩ := guard_ok h
    obtain ⟨_, hme, h⟩ := bind_ok h
    obtain ⟨-, h⟩ := guard_ok h
    obtain ⟨_, -, h⟩ := bind_ok h
    cases h
    refine ⟨hlo, ?_⟩
    intro recovery hmem
    exact validateBatchMember_ok (forM_ok.mp hme recovery hmem)

end RoundTables

/-- The proposals of a derived batch are those of votes that name the batch. -/
theorem deriveBody_batch {request : SubmissionDerivationRequest} {body : DerivedBody}
    {final : Bytes32} (h : deriveBody codec H t wire request = .ok body)
    (hl : body.expectedLayout = .voteBatch final commitments) :
    ∃ digest, request.identity.target.batchDigest = some digest ∧
      ∀ q ∈ body.orderedProposalIds, InBatch codec t digest request.identity.bundleIndex q := by
  have hde : deriveBody.delegation t wire request ≠ .ok body := by
    intro hd
    obtain ⟨_, -, rfl⟩ := map_ok hd
    cases hl
  cases request with
  | delegation | importedDelegation => exact absurd h hde
  | vote identity =>
    unfold deriveBody deriveVote at h
    cases ht : identity.target with
    | vote =>
      simp only [ht] at h
      obtain ⟨recovery, -, h⟩ := bind_ok h
      obtain ⟨request, -, h⟩ := bind_ok h
      rw [← Except.ok.inj h] at hl
      cases hl
    | _ => simp [ht] at h
  | voteBatch identity =>
    unfold deriveBody deriveVoteBatch at h
    cases hdi : identity.target.batchDigest with
    | none => simp [hdi] at h
    | some digest =>
      simp only [hdi] at h
      obtain ⟨_, hre, h⟩ := bind_ok h
      obtain ⟨_, -, h⟩ := bind_ok h
      obtain ⟨_, -, h⟩ := bind_ok h
      rw [← Except.ok.inj h]
      refine ⟨digest, hdi, ?_⟩
      intro q hq
      obtain ⟨recovery, hmem, rfl⟩ := mem_map.mp hq
      exact (validatedVoteBatch_ok hre).2 recovery hmem

/-! ### The tables of the store -/

/-- The parsers of the chain's confirmation events. -/
structure EventValidation where
  validateHashConfirmation : DerivedChainSubmission → CandidateTransactionHash → List TxEvent →
    Except String ValidatedChainSubmissionConfirmation
  validateImportedDelegationConfirmation : DerivedChainSubmission → CandidateTransactionHash →
    List TxEvent → Except String ValidatedChainSubmissionConfirmation

/-- The round is the one these tables hold. -/
def RoundTables.holdsRound (t : RoundTables J) (roundId walletId : String) : Bool :=
  roundId = t.roundId && walletId = t.walletId

def RoundTables.roundNetwork (t : RoundTables J) (roundId walletId : String) :
    Except VotingError Network :=
  if t.holdsRound roundId walletId then .ok t.network
  else .error (.invalidInput s!"round not found: {roundId}")

theorem RoundTables.roundNetwork_congr (hro : t'.roundId = t.roundId)
    (hwa : t'.walletId = t.walletId) (hne : t'.network = t.network) :
    t'.roundNetwork = t.roundNetwork := by
  funext roundId walletId
  rw [RoundTables.roundNetwork, RoundTables.roundNetwork, holdsRound, holdsRound, hro, hwa, hne]

theorem retired_keeps {identity : ChainSubmissionIdentity} {e : VotingError}
    (h : (if t.holdsRound identity.roundId identity.walletId then
      retireRejectedCombinedGeneration codec H t identity else .error e) = .ok t') :
        KeepsWitnessed t t' := by
  split at h
  · obtain ⟨_, _, -, hcl⟩ := retireRejectedCombinedGeneration_clears h
    exact hcl.keepsWitnessed
  · cases h

variable (codec H wire) in
/-- The voting tables of one round as the submission store uses them. -/
def votingTables (events : EventValidation) : DomainTables (RoundTables J) where
  roundNetwork t := t.roundNetwork
  deriveBody t request := deriveBody codec H t wire request
  delegationRecorded t roundId walletId b :=
    if t.holdsRound roundId walletId then
      (t.bundles.get? b).map fun bundle =>
        bundle.delegationTxHash.isSome || bundle.vanLeafPosition.isSome
    else none
  combinedRecoveryExists t roundId walletId b :=
    t.holdsRound roundId walletId && t.authorizations.entries.any fun entry => entry.1.1 = b
  validateHashConfirmation := events.validateHashConfirmation
  validateImportedDelegationConfirmation := events.validateImportedDelegationConfirmation
  applyConfirmedGeneration t derived confirmation :=
    applyConfirmedGeneration codec H t derived confirmation
  retireRejectedCombinedGeneration t identity _ _ :=
    if t.holdsRound identity.roundId identity.walletId then
      retireRejectedCombinedGeneration codec H t identity
    else .error (.internal "rejected combined generation has no persisted authorization")
  applyConfirmedGeneration_network h := by
    obtain ⟨keys, hconfirms, -⟩ := applyConfirmedGeneration_ok h
    apply RoundTables.roundNetwork_congr <;> rw [hconfirms.rest]
  retireRejectedCombinedGeneration_network h := by
    have hkeeps := retired_keeps h
    exact RoundTables.roundNetwork_congr hkeeps.roundId hkeeps.walletId hkeeps.network

end ZcashVoting.Voting
