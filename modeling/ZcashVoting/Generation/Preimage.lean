import ZcashVoting.Lib.Transcript
import ZcashVoting.RoundPlanning.BatchUnits

/-!
# The byte strings hashed into generations

The digest of a generation hashes a transcript of tagged fields: the identity, then the
setup and proof of a delegation, the public evidence of an imported one, the recovery
bundles of a vote or batch, or both for a combined batch. The transcript determines what
it hashes, across all kinds and lengths.
-/
namespace ZcashVoting.Generation

open Transcript Bytes ChainSubmission RoundPlanning ChainSubmissionIdentity

/-! ### Inputs -/

structure EncryptedShare where
  (c1 c2 : List UInt8)
  (shareIndex plaintextValue : Nat)
  randomness : List UInt8
  deriving DecidableEq

/-- A recovery bundle with all it stores. -/
structure VoteRecoveryBundle where
  voteRoundId : String
  (bundleIndex proposalId voteDecision anchorHeight vcTreePosition : Nat)
  singleShare : Bool
  numOptions : Nat
  (vanNullifier voteAuthorityNoteNew voteCommitment : Bytes32)
  proof : List UInt8
  (sharesHash rVpk alphaV : Bytes32)
  voteAuthSig : Vector UInt8 64
  encryptedShares : List EncryptedShare
  (shareBlinds shareComms : List Bytes32)
  batch : Option VoteBatchRecovery
  deriving DecidableEq

def VoteRecoveryBundle.planned (recovery : VoteRecoveryBundle) :
    RoundPlanning.VoteRecoveryBundle where
  voteRoundId := recovery.voteRoundId
  bundleIndex := recovery.bundleIndex
  proposalId := recovery.proposalId
  voteDecision := recovery.voteDecision
  numOptions := recovery.numOptions
  anchorHeight := recovery.anchorHeight
  vcTreePosition := recovery.vcTreePosition
  singleShare := recovery.singleShare
  vanNullifier := recovery.vanNullifier
  voteAuthorityNoteNew := recovery.voteAuthorityNoteNew
  voteCommitment := recovery.voteCommitment
  proof := recovery.proof
  rVpk := recovery.rVpk
  sealed := recovery.sharesHash.toList ++ recovery.alphaV.toList ++ recovery.voteAuthSig.toList ++
    recovery.encryptedShares.flatMap (fun share =>
      share.c1 ++ share.c2 ++ beBytes 8 share.plaintextValue ++ share.randomness) ++
    recovery.shareComms.flatMap Vector.toList
  encryptedShares := recovery.encryptedShares.map EncryptedShare.shareIndex
  shareBlinds := recovery.shareBlinds
  batch := recovery.batch

structure DelegationGenerationInputs where
  notePositions : List Nat
  noteIdentityHashes : List Bytes32
  vanCommRand : Bytes32
  dummyNullifiers : List Bytes32
  rhoSigned : Bytes32
  paddedNoteData : List Bytes32
  (nfSigned cmxNew alpha rseedSigned rseedOutput govComm : Bytes32)
  (totalNoteValue addressIndex : Nat)
  rk : Bytes32
  govNullifiers : List Bytes32
  paddedNoteSecrets : List (Bytes32 × Bytes32)
  pcztSighash : Bytes32
  (tx1Effects proof : List UInt8)
  deriving DecidableEq

/-! ### Transcripts -/

def generationDomainV1 :
    List UInt8 := textBytes "zcash_voting.chain_submission.generation.v1" ++ [0]

def importedDelegationDomainV1 :
    List UInt8 := textBytes "zcash_voting.chain_submission.imported_delegation.v1" ++ [0]

def bytes32 (tag : String) (value : Bytes32) : Emitted := field tag value.toList

def networkName : Network → String
  | .mainnet => "mainnet"
  | .testnet => "testnet"
  | .regtest => "regtest"

def hashTarget : ChainSubmissionTarget → Emitted
  | .delegation => concatAll [field "identity.kind" (textBytes "delegation")]
  | .vote proposalId => concatAll [field "identity.kind" (textBytes "vote"),
      u32 "identity.proposal_id" proposalId]
  | .voteBatch digest =>
    concatAll [field "identity.kind" (textBytes "vote_batch"),
      bytes32 "identity.ordered_batch_digest" digest]
  | .delegateAndVoteBatch digest =>
    concatAll [field "identity.kind" (textBytes "delegate_and_cast_vote_batch"),
      bytes32 "identity.ordered_batch_digest" digest]

def hashIdentity (identity : ChainSubmissionIdentity) : Emitted := concatAll [
    field "identity.wallet_id" (textBytes identity.walletId),
    field "identity.network" (textBytes (networkName identity.network)),
    bytes32 "identity.vote_round_id" identity.voteRoundId,
    u32 "identity.bundle_index" identity.bundleIndex,
    hashTarget identity.target]

def hashPaddedNoteSecret (index : Nat) (secret : Bytes32 × Bytes32) : Emitted := concatAll [
    bytes32 s!"delegation.padded_note_secrets.{index}.rho" secret.1,
    bytes32 s!"delegation.padded_note_secrets.{index}.rseed" secret.2]

def hashDelegationInputs (inputs : DelegationGenerationInputs) : Emitted := concatAll [
    sequence "delegation.note_positions" inputs.notePositions
      fun index => u64 s!"delegation.note_positions.{index}",
    sequence "delegation.note_identity_hashes" inputs.noteIdentityHashes
      fun index => bytes32 s!"delegation.note_identity_hashes.{index}",
    bytes32 "delegation.van_comm_rand" inputs.vanCommRand,
    sequence "delegation.dummy_nullifiers" inputs.dummyNullifiers
      fun index => bytes32 s!"delegation.dummy_nullifiers.{index}",
    bytes32 "delegation.rho_signed" inputs.rhoSigned,
    sequence "delegation.padded_note_data" inputs.paddedNoteData
      fun index => bytes32 s!"delegation.padded_note_data.{index}",
    bytes32 "delegation.nf_signed" inputs.nfSigned,
    bytes32 "delegation.cmx_new" inputs.cmxNew,
    bytes32 "delegation.alpha" inputs.alpha,
    bytes32 "delegation.rseed_signed" inputs.rseedSigned,
    bytes32 "delegation.rseed_output" inputs.rseedOutput,
    bytes32 "delegation.gov_comm" inputs.govComm,
    u64 "delegation.total_note_value" inputs.totalNoteValue,
    u32 "delegation.address_index" inputs.addressIndex,
    bytes32 "delegation.rk" inputs.rk,
    sequence "delegation.gov_nullifiers" inputs.govNullifiers
      fun index => bytes32 s!"delegation.gov_nullifiers.{index}",
    sequence "delegation.padded_note_secrets" inputs.paddedNoteSecrets hashPaddedNoteSecret,
    bytes32 "delegation.pczt_sighash" inputs.pcztSighash,
    field "delegation.tx1_effects" inputs.tx1Effects,
    field "delegation.proof" inputs.proof]

def hashEncryptedShare (base : String) (share : EncryptedShare) :
    Emitted := concatAll [field s!"{base}.c1" share.c1,
    field s!"{base}.c2" share.c2,
    u32 s!"{base}.share_index" share.shareIndex,
    u64 s!"{base}.plaintext_value" share.plaintextValue,
    field s!"{base}.randomness" share.randomness]

/-- Who a vote is batched with; the initial authority note of a combined batch is bound by
the delegation inputs. -/
def hashBatch (base : String) : Option VoteBatchRecovery → Emitted
  | none => concatAll [field s!"{base}.batch" (textBytes "singleton")]
  | some batch =>
    concatAll [field s!"{base}.batch" (textBytes "member"),
      bytes32 s!"{base}.batch.digest" batch.digest,
      u32 s!"{base}.batch.index" batch.index,
      u32 s!"{base}.batch.size" batch.size]

def hashVoteRecovery (base : String) (recovery : VoteRecoveryBundle) : Emitted := concatAll [
    field s!"{base}.vote_round_id" (textBytes recovery.voteRoundId),
    u32 s!"{base}.bundle_index" recovery.bundleIndex,
    u32 s!"{base}.proposal_id" recovery.proposalId,
    u32 s!"{base}.vote_decision" recovery.voteDecision,
    u32 s!"{base}.anchor_height" recovery.anchorHeight,
    bool s!"{base}.single_share" recovery.singleShare,
    u32 s!"{base}.num_options" recovery.numOptions,
    bytes32 s!"{base}.van_nullifier" recovery.vanNullifier,
    bytes32 s!"{base}.vote_authority_note_new" recovery.voteAuthorityNoteNew,
    bytes32 s!"{base}.vote_commitment" recovery.voteCommitment,
    field s!"{base}.proof" recovery.proof,
    bytes32 s!"{base}.shares_hash" recovery.sharesHash,
    bytes32 s!"{base}.r_vpk" recovery.rVpk,
    bytes32 s!"{base}.alpha_v" recovery.alphaV,
    field s!"{base}.vote_auth_sig" recovery.voteAuthSig.toList,
    sequence s!"{base}.encrypted_shares" recovery.encryptedShares
      fun index => hashEncryptedShare s!"{base}.encrypted_shares.{index}",
    sequence s!"{base}.share_blinds" recovery.shareBlinds
      fun index => bytes32 s!"{base}.share_blinds.{index}",
    sequence s!"{base}.share_comms" recovery.shareComms
      fun index => bytes32 s!"{base}.share_comms.{index}",
    hashBatch base recovery.batch]

def hashVotes (recoveries : List VoteRecoveryBundle) : Emitted :=
  sequence "votes" recoveries fun index => hashVoteRecovery s!"votes.{index}"

/-- What a generation binds next to its identity. -/
inductive BoundInputs where
  | delegation (inputs : DelegationGenerationInputs)
  | importedDelegation (governanceCommitment transactionHash : Bytes32)
  | votes (recoveries : List VoteRecoveryBundle)
  | combined (inputs : DelegationGenerationInputs) (recoveries : List VoteRecoveryBundle)

def preimage (identity : ChainSubmissionIdentity) : BoundInputs → Emitted
  | .delegation inputs =>
    concatAll [some generationDomainV1, hashIdentity identity, hashDelegationInputs inputs]
  | .importedDelegation governanceCommitment transactionHash =>
    concatAll [some importedDelegationDomainV1, hashIdentity identity,
      bytes32 "imported_delegation.gov_comm" governanceCommitment,
      bytes32 "imported_delegation.transaction_hash" transactionHash]
  | .votes recoveries =>
    concatAll [some generationDomainV1, hashIdentity identity, hashVotes recoveries]
  | .combined inputs recoveries =>
    concatAll [some generationDomainV1, hashIdentity identity, hashDelegationInputs inputs,
      hashVotes recoveries]

/-! ### What a transcript determines -/

variable {α : Type} {bytes : List UInt8}

theorem separates_bytes32 (tag : String) (value : α → Bytes32) :
    Separates (fun a => bytes32 tag (value a)) fun a b => value a = value b :=
  (separates_field tag fun a => (value a).toList).mono fun _ _ h => Vector.toList_inj.mp h

theorem separates_text (tag : String) (text : α → String) :
    Separates (fun a => field tag (textBytes (text a))) fun a b => text a = text b :=
  (separates_field tag fun a => textBytes (text a)).mono fun _ _ h => textBytes_injective h

theorem networkName_injective {network network' : Network}
    (h : networkName network = networkName network') :
    network = network' := by
  cases network <;> cases network' <;> first | rfl | exact absurd h (by decide)

/-- The word under `identity.kind`. -/
def kindName : ChainSubmissionTarget → String
  | .delegation => "delegation"
  | .vote _ => "vote"
  | .voteBatch _ => "vote_batch"
  | .delegateAndVoteBatch _ => "delegate_and_cast_vote_batch"

/-- What follows the kind. -/
def kindFields : ChainSubmissionTarget → List Emitted
  | .delegation => []
  | .vote proposalId => [u32 "identity.proposal_id" proposalId]
  | .voteBatch digest => [bytes32 "identity.ordered_batch_digest" digest]
  | .delegateAndVoteBatch digest => [bytes32 "identity.ordered_batch_digest" digest]

theorem hashTarget_eq (target : ChainSubmissionTarget) :
    hashTarget target = concatAll (field "identity.kind" (textBytes (kindName target)) :: kindFields target) := by
  cases target <;> rfl

theorem separates_target : Separates hashTarget (· = ·) := by
  rw [show hashTarget = _ from funext hashTarget_eq]
  refine ((separates_text "identity.kind" kindName).branch (S := (· = ·)) ?_).mono fun _ _ h => h.2
  intro target target' bytes bytes' after after' hki hx hy heq
  -- the kind tells which field follows
  cases target <;> cases target' <;> try (simp [kindName] at hki; done)
  case delegation.delegation =>
    cases hx
    cases hy
    exact ⟨rfl, heq⟩
  case vote.vote p q =>
    obtain ⟨⟨rfl, -⟩, ha⟩ :=
      ((separates_u32 "identity.proposal_id" id).cons separates_nil) p q _ _ _ _ hx hy heq
    exact ⟨rfl, ha⟩
  all_goals
    next D D' =>
    obtain ⟨⟨rfl, -⟩, ha⟩ :=
      ((separates_bytes32 "identity.ordered_batch_digest" id).cons separates_nil) D D'
        _ _ _ _ hx hy heq
    exact ⟨rfl, ha⟩

theorem separates_identity : Separates hashIdentity (· = ·) := by
  refine (Separates.cons (separates_text _ walletId)
    (.cons (separates_text _ fun identity => networkName identity.network)
    (.cons (separates_bytes32 _ voteRoundId)
    (.cons (separates_u32 _ bundleIndex)
    (.cons (separates_target.comp target) separates_nil))))).mono ?_
  rintro identity _ ⟨hwa, hne, hro, hbu, hta, -⟩
  rw [mk.injEq]
  exact ⟨hwa, networkName_injective hne, hro, hbu, hta⟩

theorem separates_paddedNoteSecret (index : Nat) :
    Separates (hashPaddedNoteSecret index) (· = ·) := by
  refine (Separates.cons (separates_bytes32 _ Prod.fst) (.cons (separates_bytes32 _ Prod.snd) separates_nil)).mono ?_
  rintro _ _ ⟨hrho, hrs, -⟩
  exact Prod.ext hrho hrs

theorem separates_blobs (tag : String) (tags : Nat → String) (values : α → List Bytes32) :
    Separates (fun a => sequence tag (values a) fun index => bytes32 (tags index)) fun a b =>
      values a = values b :=
  separates_sequence_eq (fun index => separates_bytes32 (tags index) id) tag values

section

open DelegationGenerationInputs

theorem separates_delegationInputs : Separates hashDelegationInputs (· = ·) := by
  have hpo := separates_sequence_eq
    (fun index => separates_u64 s!"delegation.note_positions.{index}" id) "delegation.note_positions"
    notePositions
  refine (hpo.cons (.cons (separates_blobs _ _ noteIdentityHashes)
    (.cons (separates_bytes32 _ vanCommRand)
    (.cons (separates_blobs _ _ dummyNullifiers)
    (.cons (separates_bytes32 _ rhoSigned)
    (.cons (separates_blobs _ _ paddedNoteData)
    (.cons (separates_bytes32 _ nfSigned)
    (.cons (separates_bytes32 _ cmxNew)
    (.cons (separates_bytes32 _ alpha)
    (.cons (separates_bytes32 _ rseedSigned)
    (.cons (separates_bytes32 _ rseedOutput)
    (.cons (separates_bytes32 _ govComm)
    (.cons (separates_u64 _ totalNoteValue)
    (.cons (separates_u32 _ addressIndex)
    (.cons (separates_bytes32 _ rk)
    (.cons (separates_blobs _ _ govNullifiers)
    (.cons (separates_sequence_eq separates_paddedNoteSecret _ paddedNoteSecrets)
    (.cons (separates_bytes32 _ pcztSighash)
    (.cons (separates_field _ tx1Effects)
    (.cons (separates_field _ proof) separates_nil)))))))))))))))))))).mono ?_
  intro inputs inputs' h
  rw [DelegationGenerationInputs.mk.injEq]
  simpa only [and_true] using h

end

theorem separates_encryptedShare (base : String) : Separates (hashEncryptedShare base) (· = ·) := by
  refine (Separates.cons (separates_field _ EncryptedShare.c1) (.cons (separates_field _ EncryptedShare.c2)
    (.cons (separates_u32 _ EncryptedShare.shareIndex)
    (.cons (separates_u64 _ EncryptedShare.plaintextValue)
    (.cons (separates_field _ EncryptedShare.randomness) separates_nil))))).mono ?_
  intro share share' h
  rw [EncryptedShare.mk.injEq]
  simpa only [and_true] using h

/-- The batch fields that are hashed. -/
def hashedBatch (batch : Option VoteBatchRecovery) : Option VoteBatchRecovery :=
  batch.map fun batch => { batch with delegationVan := none }

/-- The word under `batch`. -/
def batchName (batch : Option VoteBatchRecovery) :
    String := if batch.isSome then "member" else "singleton"

def batchFields (base : String) : Option VoteBatchRecovery → List Emitted
  | none => []
  | some batch =>
    [bytes32 s!"{base}.batch.digest" batch.digest, u32 s!"{base}.batch.index" batch.index,
      u32 s!"{base}.batch.size" batch.size]

theorem hashBatch_eq (base : String) (batch : Option VoteBatchRecovery) : hashBatch base batch =
      concatAll (field s!"{base}.batch" (textBytes (batchName batch)) :: batchFields base batch) := by
  cases batch <;> rfl

theorem separates_batch (base : String) : Separates (hashBatch base) fun a b =>
    hashedBatch a = hashedBatch b := by
  rw [show hashBatch base = _ from funext (hashBatch_eq base)]
  refine ((separates_text _ batchName).branch (S := fun a b => hashedBatch a = hashedBatch b) ?_).mono fun _ _ h => h.2
  intro batch batch' bytes bytes' after after' hn hx hy heq
  cases batch with
  | none =>
    cases batch' with
    | none =>
      cases hx
      cases hy
      exact ⟨rfl, heq⟩
    | some => exact absurd hn (by simp [batchName])
  | some member =>
    cases batch' with
    | none => exact absurd hn (by simp [batchName])
    | some member' =>
      have hfi := (separates_bytes32 s!"{base}.batch.digest" VoteBatchRecovery.digest).cons
        (.cons (separates_u32 s!"{base}.batch.index" VoteBatchRecovery.index)
          (.cons (separates_u32 s!"{base}.batch.size" VoteBatchRecovery.size) separates_nil))
      obtain ⟨⟨hdi, hin, hsi, -⟩, haf⟩ := hfi member member' _ _ _ _ hx hy heq
      refine ⟨?_, haf⟩
      simp only [hashedBatch, Option.map_some, hdi, hin, hsi]

/-- The bundle as far as it is hashed. -/
def VoteRecoveryBundle.hashed (recovery : VoteRecoveryBundle) : VoteRecoveryBundle :=
  { recovery with vcTreePosition := 0, batch := hashedBatch recovery.batch }

section

open Generation.VoteRecoveryBundle

theorem separates_voteRecovery (base : String) : Separates (hashVoteRecovery base) fun a b =>
    a.hashed = b.hashed := by
  refine (Separates.cons (separates_text _ voteRoundId)
    (.cons (separates_u32 _ VoteRecoveryBundle.bundleIndex)
    (.cons (separates_u32 _ proposalId)
    (.cons (separates_u32 _ voteDecision)
    (.cons (separates_u32 _ anchorHeight)
    (.cons (separates_bool _ singleShare)
    (.cons (separates_u32 _ numOptions)
    (.cons (separates_bytes32 _ vanNullifier)
    (.cons (separates_bytes32 _ voteAuthorityNoteNew)
    (.cons (separates_bytes32 _ voteCommitment)
    (.cons (separates_field _ proof)
    (.cons (separates_bytes32 _ sharesHash)
    (.cons (separates_bytes32 _ rVpk)
    (.cons (separates_bytes32 _ alphaV)
    (.cons (separates_field _ fun recovery : VoteRecoveryBundle => recovery.voteAuthSig.toList)
    (.cons (separates_sequence_eq (fun index => separates_encryptedShare s!"{base}.encrypted_shares.{index}") _
      encryptedShares)
    (.cons (separates_blobs _ _ shareBlinds)
    (.cons (separates_blobs _ _ shareComms)
    (.cons ((separates_batch base).comp batch) separates_nil))))))))))))))))))).mono ?_
  intro recovery recovery' h
  simpa only [hashed, VoteRecoveryBundle.mk.injEq, Vector.toList_inj, and_true, true_and] using h

end

/-! ### Across kinds -/

theorem separates_votes : Separates hashVotes fun recoveries recoveries' =>
      recoveries.map VoteRecoveryBundle.hashed = recoveries'.map VoteRecoveryBundle.hashed := by
  refine (separates_sequence (fun index => separates_voteRecovery s!"votes.{index}") "votes" id).mono ?_
  intro recoveries recoveries' h
  rwa [← List.forall₂_eq_eq_eq, List.forall₂_map_left_iff, List.forall₂_map_right_iff]

def BoundInputs.domain : BoundInputs → List UInt8
  | .importedDelegation _ _ => importedDelegationDomainV1
  | _ => generationDomainV1

/-- What follows the identity. -/
def BoundInputs.fields : BoundInputs → List Emitted
  | .delegation inputs => [hashDelegationInputs inputs]
  | .importedDelegation governanceCommitment transactionHash =>
    [bytes32 "imported_delegation.gov_comm" governanceCommitment,
      bytes32 "imported_delegation.transaction_hash" transactionHash]
  | .votes recoveries => [hashVotes recoveries]
  | .combined inputs recoveries => [hashDelegationInputs inputs, hashVotes recoveries]

theorem preimage_eq (identity : ChainSubmissionIdentity) (inputs : BoundInputs) :
    preimage identity inputs = concatAll (some inputs.domain :: hashIdentity identity :: inputs.fields) := by
  cases inputs <;> rfl

/-- The domains differ after the words they share. -/
theorem domains_differ (rest rest' : List UInt8) :
    generationDomainV1 ++ rest ≠ importedDelegationDomainV1 ++ rest' := by
  intro h
  have hb := congrArg (fun bytes : List UInt8 => bytes[30]?) h
  have hge : generationDomainV1[30]? = some 103 := by decide +kernel
  have him : importedDelegationDomainV1[30]? = some 105 := by decide +kernel
  rw [List.getElem?_append_left (by decide +kernel), List.getElem?_append_left (by decide +kernel),
    hge, him] at hb
  exact absurd hb (by decide)

theorem domain_inj {inputs inputs' : BoundInputs} {rest rest' : List UInt8}
    (h : inputs.domain ++ rest = inputs'.domain ++ rest') :
    inputs.domain = inputs'.domain ∧ rest = rest' := by
  have hd : inputs.domain = inputs'.domain := by
    cases inputs <;> cases inputs' <;>
      first | rfl | exact absurd h (domains_differ _ _) | exact absurd h.symm (domains_differ _ _)
  rw [hd] at h
  exact ⟨hd, List.append_cancel_left h⟩

/-- The inputs are of the kind the target names. -/
def BoundInputs.OfTarget : BoundInputs → ChainSubmissionTarget → Prop
  | .delegation _, .delegation => True
  | .importedDelegation _ _, .delegation => True
  | .votes _, .vote _ => True
  | .votes _, .voteBatch _ => True
  | .combined _ _, .delegateAndVoteBatch _ => True
  | _, _ => False

def BoundInputs.hashed : BoundInputs → BoundInputs
  | .votes recoveries => .votes (recoveries.map VoteRecoveryBundle.hashed)
  | .combined inputs recoveries => .combined inputs (recoveries.map VoteRecoveryBundle.hashed)
  | inputs => inputs

theorem preimage_hashed (identity : ChainSubmissionIdentity) (inputs : BoundInputs) :
    preimage identity inputs.hashed = preimage identity inputs := by
  have hre (base : String) (recovery : VoteRecoveryBundle) :
      hashVoteRecovery base recovery.hashed = hashVoteRecovery base recovery := by
    unfold hashVoteRecovery
    rw [show hashBatch base recovery.hashed.batch = hashBatch base recovery.batch by
      cases hba : recovery.batch <;> simp [VoteRecoveryBundle.hashed, hba, hashedBatch, hashBatch]]
    rfl
  have hvo (recoveries : List VoteRecoveryBundle) :
      hashVotes (recoveries.map VoteRecoveryBundle.hashed) = hashVotes recoveries := by
    rw [hashVotes, sequence_map]
    simp only [hre]
    rfl
  cases inputs <;> simp only [BoundInputs.hashed, preimage, hvo]

/-- The fields of inputs of one target and one domain determine them. -/
theorem fields_inj {target : ChainSubmissionTarget} {inputs inputs' : BoundInputs}
    (hof : inputs.OfTarget target) (hof' : inputs'.OfTarget target)
    (hdo : inputs.domain = inputs'.domain)
    (h : concatAll inputs.fields = some bytes) (h' : concatAll inputs'.fields = some bytes) :
    inputs.hashed = inputs'.hashed := by
  have hd : generationDomainV1 ≠ importedDelegationDomainV1 := by decide +kernel
  cases inputs with
  | delegation =>
    cases target <;> try exact absurd hof id
    cases inputs' <;> try exact absurd hof' id
    case importedDelegation => exact absurd hdo hd
    obtain ⟨⟨rfl, -⟩, -⟩ := (separates_delegationInputs.cons separates_nil) _ _ _ _ [] [] h h' rfl
    rfl
  | importedDelegation van hash =>
    cases target <;> try exact absurd hof id
    cases inputs' <;> try exact absurd hof' id
    case delegation => exact absurd hdo.symm hd
    case importedDelegation van' hash' =>
    have hf := (separates_bytes32 "imported_delegation.gov_comm" Prod.fst).cons
      (.cons (separates_bytes32 "imported_delegation.transaction_hash" (Prod.snd (α := Bytes32))) separates_nil)
    obtain ⟨⟨hvan, hha, -⟩, -⟩ := hf (van, hash) (van', hash') _ _ [] [] h h' rfl
    exact congrArg₂ BoundInputs.importedDelegation hvan hha
  | votes =>
    have hv : ∃ recoveries', inputs' = .votes recoveries' := by
      cases target <;> cases inputs' <;>
        first | exact absurd hof id | exact absurd hof' id | exact ⟨_, rfl⟩
    obtain ⟨recoveries', rfl⟩ := hv
    obtain ⟨⟨hv, -⟩, -⟩ := (separates_votes.cons separates_nil) _ _ _ _ [] [] h h' rfl
    exact congrArg BoundInputs.votes hv
  | combined inputs recoveries =>
    cases target <;> try exact absurd hof id
    cases inputs' <;> try exact absurd hof' id
    case combined inputs' recoveries' =>
    have hf := (separates_delegationInputs.comp Prod.fst).cons
      (.cons (separates_votes.comp (Prod.snd (α := DelegationGenerationInputs))) separates_nil)
    obtain ⟨⟨hin, hv, -⟩, -⟩ := hf (inputs, recoveries) (inputs', recoveries') _ _ [] [] h h' rfl
    exact congrArg₂ BoundInputs.combined hin hv

/-- What is hashed determines the identity and, as far as they are hashed, the inputs. -/
theorem preimage_inj {identity identity' : ChainSubmissionIdentity} {inputs inputs' : BoundInputs}
    (hof : inputs.OfTarget identity.target) (hof' : inputs'.OfTarget identity'.target)
    (h : preimage identity inputs = some bytes) (h' : preimage identity' inputs' = some bytes) :
    identity = identity' ∧ inputs.hashed = inputs'.hashed := by
  rw [preimage_eq] at h h'
  obtain ⟨_, _, hd, hre, rfl⟩ := concatAll_cons h
  obtain ⟨_, _, hdo', hre', heq⟩ := concatAll_cons h'
  cases hd
  cases hdo'
  obtain ⟨hd, rfl⟩ := domain_inj heq
  obtain ⟨head, tail, hhe, hta, rfl⟩ := concatAll_cons hre
  obtain ⟨head', tail', hhe', hta', heq⟩ := concatAll_cons hre'
  obtain ⟨rfl, rfl⟩ := separates_identity identity' identity head' head tail' tail hhe' hhe heq
  exact ⟨rfl, fields_inj hof hof' hd.symm hta hta'⟩

end ZcashVoting.Generation
