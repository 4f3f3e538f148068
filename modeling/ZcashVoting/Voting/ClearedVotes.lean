import ZcashVoting.Voting.Confirmation
import ZcashVoting.Voting.CastFrame

/-!
# Cleared recoveries

Retirement and changed intents clear recovery material. What they do to the tables is
said by the keys they clear: those rows lose their recovery text and their helper shares,
and nothing else changes but combined authorizations.
-/
namespace ZcashVoting.Voting

open ChainSubmission RoundPlanning KeyedData RoundTables List

variable {J : Type} {codec : RecoveryCodec J} {H : BatchSighash} {t t' t'' : RoundTables J}
  {b p : Nat} {cleared cleared' : List VoteKey}

/-- The row without its recovery text, if it is among the cleared ones. -/
def clearedRow (cleared : List VoteKey) (key : VoteKey) (row : VoteRow J) : VoteRow J :=
  if key ∈ cleared then { row with commitmentBundleJson := none } else row

theorem clearedRow_witnessed (key : VoteKey) (row : VoteRow J) :
    (clearedRow cleared key row).witnessed = row.witnessed := by
  unfold clearedRow
  split <;> rfl

/-- The recoveries of `cleared` are gone, whatever else happened to the ballot, the helper
shares and the combined authorizations. -/
structure Trims (t t' : RoundTables J) (cleared : List VoteKey) : Prop where
  votes : ∀ key, t'.votes.get? key = (t.votes.get? key).map (clearedRow cleared key)
  rest : t' = { t with
    votes := t'.votes, shares := t'.shares, intents := t'.intents, authorizations :=
      t'.authorizations }

section

variable (h : Trims t t' cleared)
include h

theorem Trims.roundId : t'.roundId = t.roundId := by rw [h.rest]

theorem Trims.walletId : t'.walletId = t.walletId := by rw [h.rest]

theorem Trims.network : t'.network = t.network := by rw [h.rest]

theorem Trims.vote?_of_kept (hke : ⟨b, p⟩ ∉ cleared) : t'.vote? b p = t.vote? b p := by
  rw [vote?, vote?, h.votes]
  cases t.votes.get? (⟨b, p⟩ : VoteKey) <;> simp [clearedRow, hke]

theorem Trims.recorded (b p : Nat) : t'.recorded b p = t.recorded b p := by
  rw [RoundTables.recorded, RoundTables.recorded, vote?, vote?, h.votes]
  cases t.votes.get? (⟨b, p⟩ : VoteKey) with
  | none => rfl
  | some row => exact clearedRow_witnessed _ row

theorem Trims.recoveryJson (b p : Nat) :
    t'.recoveryJson b p = if ⟨b, p⟩ ∈ cleared then none else t.recoveryJson b p := by
  rw [RoundTables.recoveryJson, RoundTables.recoveryJson, vote?, vote?, h.votes]
  cases t.votes.get? (⟨b, p⟩ : VoteKey) with
  | none => simp
  | some =>
    by_cases hin : ⟨b, p⟩ ∈ cleared <;> simp [clearedRow, hin]

end

/-- The recoveries of `cleared`, none of which has reached the chain, are gone with their
helper shares. -/
structure Clears (t t' : RoundTables J) (cleared : List VoteKey) : Prop where
  votes : ∀ key, t'.votes.get? key = (t.votes.get? key).map (clearedRow cleared key)
  unrecorded : ∀ key ∈ cleared, t.recorded key.bundleIndex key.proposalId = false
  shares : t'.shares = t.shares.filter fun share =>
    ⟨share.bundleIndex, share.proposalId⟩ ∉ cleared
  rest : t' = { t with votes := t'.votes, shares := t'.shares, authorizations := t'.authorizations }

theorem Clears.trims (h : Clears t t' cleared) : Trims t t' cleared := by
  refine ⟨h.votes, ?_⟩
  rw [h.rest]

theorem Clears.authorizations (t : RoundTables J)
    (authorizations : KeyedMap (Nat × Bytes32) CombinedAuthorizationRow) :
    Clears t { t with authorizations } [] := by
  refine ⟨fun key => ?_, by simp, by simp, rfl⟩
  cases t.votes.get? key <;> simp [clearedRow]

theorem Clears.refl (t : RoundTables J) : Clears t t [] := .authorizations t t.authorizations

theorem Clears.trans (h : Clears t t' cleared) (h' : Clears t' t'' cleared') :
    Clears t t'' (cleared ++ cleared') := by
  refine ⟨fun key => ?_, ?_, ?_, ?_⟩
  · rw [h'.votes, h.votes, Option.map_map]
    congr 1
    funext row
    by_cases hin : key ∈ cleared <;> by_cases hin' : key ∈ cleared' <;> simp [clearedRow, hin]
  · intro key hkey
    rcases mem_append.mp hkey with hin | hin
    · exact h.unrecorded key hin
    · rw [← h.trims.recorded]
      exact h'.unrecorded key hin
  · rw [h'.shares, h.shares, filter_filter]
    refine filter_congr fun share _ => ?_
    simp [Bool.and_comm]
  · rw [h'.rest, h.rest]

theorem clearUnsubmittedVoteRecovery_clears (h : t.clearUnsubmittedVoteRecovery b p = .ok t') :
    Clears t t' [⟨b, p⟩] := by
  unfold clearUnsubmittedVoteRecovery at h
  cases hrow : t.vote? b p with
  | none => simp [hrow, clearUnsubmittedVoteRecovery.changed] at h
  | some row =>
    rw [hrow] at h
    cases hw : row.witnessed with
    | true => simp [hw, clearUnsubmittedVoteRecovery.changed] at h
    | false =>
      simp only [hw, Bool.false_eq_true, if_false, Except.ok.injEq] at h
      subst h
      refine ⟨fun key => ?_, ?_, ?_, rfl⟩
      · by_cases hkey : key = ⟨b, p⟩
        · subst hkey
          rw [show t.votes.get? ⟨b, p⟩ = some row from hrow]
          simp [setVote, clearedRow]
        · rw [setVote, KeyedMap.get?_set_of_ne hkey]
          cases t.votes.get? key <;> simp [clearedRow, hkey]
      · intro key hkey
        rw [mem_singleton.mp hkey, RoundTables.recorded, hrow]
        exact hw
      · simp [otherShares]

theorem clearVoteBatchRecovery_clears {D : Bytes32} {proposals : List Nat}
    (h : t.clearVoteBatchRecovery codec H b D = .ok (proposals, t')) :
    Clears t t' (proposals.map (VoteKey.mk b)) ∧ ∃ members,
      t.loadVoteBatchRecoveries codec H b D = .ok members ∧
        proposals = members.map VoteRecoveryBundle.proposalId := by
  obtain ⟨members, hm, h⟩ := bind_ok h
  obtain ⟨done, hdo, h⟩ := bind_ok h
  have hl := foldlM_ok_induction (fun seen st => Clears t st (seen.map (VoteKey.mk b))) hdo
    (.refl t) fun seen q _ st st' _ ih hst => by
      simpa using ih.trans (clearUnsubmittedVoteRecovery_clears hst)
  split at h
  · cases h
    exact ⟨hl, members, hm, rfl⟩
  obtain ⟨_, hr, h⟩ := bind_ok h
  cases h
  refine ⟨?_, members, hm, rfl⟩
  obtain ⟨_, -, hr⟩ := bind_ok hr
  have hla : Clears done t' [] := by
    rw [← Except.ok.inj hr]
    split
    · exact .refl done
    · exact .authorizations done _
  simpa using hl.trans hla

/-- A rejected combined generation loses the recoveries of its own batch. -/
theorem retireRejectedCombinedGeneration_clears {identity : ChainSubmissionIdentity}
    (h : retireRejectedCombinedGeneration codec H t identity = .ok t') :
    ∃ D members, t.loadVoteBatchRecoveries codec H identity.bundleIndex D = .ok members ∧
      Clears t t' ((members.map VoteRecoveryBundle.proposalId).map (VoteKey.mk identity.bundleIndex)) := by
  unfold retireRejectedCombinedGeneration at h
  cases ht : identity.target with
  | delegateAndVoteBatch digest =>
    simp only [ht] at h
    split at h
    · cases h
    obtain ⟨⟨_, _⟩, hcl, h⟩ := bind_ok h
    obtain ⟨hcle, members, hme, rfl⟩ := clearVoteBatchRecovery_clears hcl
    split at h
    · cases h
    · cases h
      exact ⟨digest, members, hme, hcle⟩
  | _ => simp [ht] at h

end ZcashVoting.Voting
