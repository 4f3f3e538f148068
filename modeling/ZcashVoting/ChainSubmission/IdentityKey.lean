import ZcashVoting.ChainSubmission.Coordination
import ZcashVoting.Generation.Preimage

/-!
# The durable key of a submission identity

The row of a submission is found under a byte string; the locks of the process are found
under a structured key. Both tell exactly the same identities apart.
-/
namespace ZcashVoting.ChainSubmission

open Bytes Transcript Coordination Generation List SubmissionOperationKey

def lengthPrefixed (value : List UInt8) : List UInt8 := beBytes 8 value.length ++ value

def targetBytes (target : ChainSubmissionTarget) : List UInt8 :=
  match target with
  | .delegation => [0]
  | .vote proposalId => 1 :: beBytes 4 proposalId
  | .voteBatch digest | .delegateAndVoteBatch digest =>
      (if target.isCombined then 3 else 2) :: digest.toList

def submissionIdentityKey (identity : ChainSubmissionIdentity) : List UInt8 :=
  textBytes "zcash_voting.chain_submission.identity.v1\x00" ++
    (lengthPrefixed (textBytes identity.walletId) ++
      (lengthPrefixed (textBytes (networkName identity.network)) ++ (lengthPrefixed identity.voteRoundId.toList ++
          (beBytes 4 identity.bundleIndex ++ targetBytes identity.target))))

/-- The numbers are of 32 bits, and the wallet id is no longer than memory can be. -/
structure ChainSubmissionIdentity.MachineSized (identity : ChainSubmissionIdentity) : Prop where
  wallet : (textBytes identity.walletId).length < 2 ^ 64
  bundle : identity.bundleIndex < 2 ^ 32
  proposal : ∀ proposalId, identity.target = .vote proposalId → proposalId < 2 ^ 32

theorem lengthPrefixed_append_inj {value value' rest rest' : List UInt8}
    (hfi : value.length < 2 ^ 64) (hfi' : value'.length < 2 ^ 64)
    (h : lengthPrefixed value ++ rest = lengthPrefixed value' ++ rest') :
    value = value' ∧ rest = rest' := by
  obtain ⟨hle, h⟩ := beBytes_append_inj 8 hfi hfi' h
  exact append_inj h hle

theorem networkName_fits (network : Network) :
    (textBytes (networkName network)).length < 2 ^ 64 := by
  cases network <;> decide

theorem networkRank_injective {network network' : Network}
    (h : networkRank network = networkRank network') :
    network = network' := by
  revert h
  cases network <;> cases network' <;> decide

/-- The tag byte is the kind of the target. -/
theorem targetBytes_eq (target : ChainSubmissionTarget) :
    targetBytes target = .ofNat (targetKey target).1 :: (targetKey target).2 := by
  cases target <;> rfl

theorem targetKey_of_targetBytes {target target' : ChainSubmissionTarget}
    (h : targetBytes target = targetBytes target') : targetKey target = targetKey target' := by
  rw [targetBytes_eq, targetBytes_eq] at h
  obtain ⟨htag, hva⟩ := List.cons.inj h
  refine Prod.ext ?_ hva
  revert htag
  cases target <;> cases target' <;> simp [targetKey]

theorem targetKey_injective {target target' : ChainSubmissionTarget}
    (hfi : ∀ proposalId, target = .vote proposalId → proposalId < 2 ^ 32)
    (hfi' : ∀ proposalId, target' = .vote proposalId → proposalId < 2 ^ 32)
    (h : targetKey target = targetKey target') : target = target' := by
  cases target <;> cases target' <;> simp only [targetKey, Prod.mk.injEq] at h <;> try omega
  case delegation.delegation => rfl
  case vote.vote proposalId proposalId' =>
    have hre : beBytes 4 proposalId ++ [] = beBytes 4 proposalId' ++ [] := by rw [h.2]
    rw [(beBytes_append_inj 4 (hfi _ rfl) (hfi' _ rfl) hre).1]
  case voteBatch.voteBatch => rw [Vector.toList_inj.mp h.2]
  case delegateAndVoteBatch.delegateAndVoteBatch => rw [Vector.toList_inj.mp h.2]

variable {a b : ChainSubmissionIdentity}

theorem operationKey_of_identityKey (ha : a.MachineSized) (hb : b.MachineSized)
    (h : submissionIdentityKey a = submissionIdentityKey b) : fromIdentity a = fromIdentity b := by
  have hr (identity : ChainSubmissionIdentity) : identity.voteRoundId.toList.length < 2 ^ 64 := by
    rw [Vector.length_toList]
    decide
  obtain ⟨hwa, h⟩ := lengthPrefixed_append_inj ha.wallet hb.wallet (append_cancel_left h)
  obtain ⟨hne, h⟩ := lengthPrefixed_append_inj (networkName_fits _) (networkName_fits _) h
  obtain ⟨hr, h⟩ := lengthPrefixed_append_inj (hr a) (hr b) h
  obtain ⟨hbu, hta⟩ := beBytes_append_inj 4 ha.bundle hb.bundle h
  rw [fromIdentity, fromIdentity, BundleOperationKey.fromIdentity,
    BundleOperationKey.fromIdentity, roundKey, roundKey, textBytes_injective hwa, hbu,
    networkName_injective (textBytes_injective hne), Vector.toList_inj.mp hr,
    targetKey_of_targetBytes hta]

theorem eq_of_operationKey (ha : a.MachineSized) (hb : b.MachineSized)
    (h : fromIdentity a = fromIdentity b) : a = b := by
  obtain ⟨_, _, _, _, target⟩ := a
  obtain ⟨_, _, _, _, target'⟩ := b
  simp only [fromIdentity, BundleOperationKey.fromIdentity, roundKey,
    mk.injEq, BundleOperationKey.mk.injEq, RoundOperationKey.mk.injEq] at h
  obtain ⟨⟨⟨rfl, hne, rfl⟩, rfl⟩, hki, hva⟩ := h
  obtain rfl := networkRank_injective hne
  obtain rfl : target = target' := targetKey_injective ha.proposal hb.proposal (Prod.ext hki hva)
  rfl

/-- The row and the lock speak about the same submission: their keys agree on the same
pairs of identities, those that are equal. -/
theorem identityKey_eq_iff_operationKey_eq (ha : a.MachineSized) (hb : b.MachineSized) :
    (submissionIdentityKey a = submissionIdentityKey b ↔
        SubmissionOperationKey.fromIdentity a = SubmissionOperationKey.fromIdentity b) ∧
      (SubmissionOperationKey.fromIdentity a = SubmissionOperationKey.fromIdentity b ↔
        a.walletId = b.walletId ∧ a.network = b.network ∧ a.voteRoundId = b.voteRoundId ∧
          a.bundleIndex = b.bundleIndex ∧ a.target = b.target) := by
  have hi (h : fromIdentity a = fromIdentity b) : a = b :=
    eq_of_operationKey ha hb h
  refine ⟨⟨operationKey_of_identityKey ha hb, fun h => by rw [hi h]⟩, fun h => ?_, ?_⟩
  · rw [hi h]
    exact ⟨rfl, rfl, rfl, rfl, rfl⟩
  · rintro ⟨hwa, hne, hro, hbu, hta⟩
    simp only [fromIdentity, BundleOperationKey.fromIdentity, roundKey, hwa, hne, hro, hbu, hta]

/-- Two votes of one wallet, on two proposals. -/
def voteIdentity (proposalId : Nat) : ChainSubmissionIdentity :=
  ⟨"w", .testnet, Vector.replicate 32 1, 0, .vote proposalId⟩

theorem voteIdentity_machineSized {proposalId : Nat} (h : proposalId < 2 ^ 32) :
    (voteIdentity proposalId).MachineSized where
  wallet := show (textBytes "w").length < 2 ^ 64 by decide
  bundle := show 0 < 2 ^ 32 by decide
  proposal := fun _ heq => ChainSubmissionTarget.vote.inj heq ▸ h

theorem identityKey_of_two_proposals : (voteIdentity 1).MachineSized ∧
    (voteIdentity 2).MachineSized ∧
      submissionIdentityKey (voteIdentity 1) ≠ submissionIdentityKey (voteIdentity 2) := by
  have hone : (voteIdentity 1).MachineSized := voteIdentity_machineSized (by decide)
  have htwo : (voteIdentity 2).MachineSized := voteIdentity_machineSized (by decide)
  refine ⟨hone, htwo, fun h => ?_⟩
  obtain ⟨hke, hfi⟩ := identityKey_eq_iff_operationKey_eq hone htwo
  exact absurd (hfi.mp (hke.mp h)).2.2.2.2 (by decide)

end ZcashVoting.ChainSubmission
