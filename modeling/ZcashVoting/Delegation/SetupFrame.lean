import ZcashVoting.Delegation.Setup

/-!
# What keeps the setup of a broadcast bundle

`HasEvidence` is what `first_broadcast_evidence` looks for. Every function that refuses on
evidence leaves such a bundle alone. Two guards are weaker than the evidence: the cleanup
of unsigned setups does not look for votes and helper shares, and the comparison that lets
an unchanged setup be written again leaves out three columns that the write fills in.
-/
namespace ZcashVoting.Delegation

open ChainSubmission KeyedData DelegationBundle KeyedMap

namespace DelegationTables

variable {t t' : DelegationTables} {b b' : Nat} {w : SetupWrite} {bundleIndex : Option Nat}
  {selected : Nat → Bool} {stored : SetupColumns} {scope : BundleScope}

/-! ### Evidence -/

/-- Some table shows that the delegation of the bundle may be on chain. -/
def HasEvidence (t : DelegationTables) (b : Nat) : Prop := ∃ evidence, b ∈ t.evidenceRows evidence

theorem mem_evidenceChecks (evidence : DelegationBroadcastEvidence) :
    evidence ∈ evidenceChecks := by
  cases evidence <;> decide

theorem firstBroadcastEvidence_eq_none :
    t.firstBroadcastEvidence scope = none ↔ ∀ b, scope.contains b = true → ¬ t.HasEvidence b := by
  rw [firstBroadcastEvidence, List.findSome?_eq_none_iff]
  constructor
  · rintro h b hs ⟨evidence, hmem⟩
    have hn := h evidence (mem_evidenceChecks evidence)
    rw [Option.map_eq_none_iff, List.find?_eq_none] at hn
    exact hn b hmem hs
  · intro h evidence _
    rw [Option.map_eq_none_iff, List.find?_eq_none]
    intro b hmem hs
    exact h b hs ⟨evidence, hmem⟩

theorem firstBroadcastEvidence_one : (t.firstBroadcastEvidence (.one b)).isSome = true ↔
    t.HasEvidence b := by
  rw [← not_iff_not, Option.not_isSome_iff_eq_none, firstBroadcastEvidence_eq_none]
  simp [BundleScope.contains]

theorem refuseIfBroadcast_ok {action : String}
    (h : t.refuseIfBroadcast scope action = .ok ()) (hsc : scope.contains b = true) :
    ¬ t.HasEvidence b := by
  unfold refuseIfBroadcast at h
  cases hf : t.firstBroadcastEvidence scope with
  | none => exact firstBroadcastEvidence_eq_none.mp hf b hsc
  | some =>
    simp only [hf] at h
    cases h

theorem bundle_of_mem_evidenceRows (h : b ∈ t.evidenceRows .delegationTxHash ∨
    b ∈ t.evidenceRows .vanLeafPosition) : ∃ row, t.bundles.get? b = some row ∧
      (row.delegationTxHash.isSome = true ∨ row.vanLeafPosition.isSome = true) := by
  rcases h with h | h <;>
  · obtain ⟨⟨_, row⟩, hmem, rfl⟩ := List.mem_map.mp h
    obtain ⟨hen, -⟩ := List.mem_filter.mp hmem
    exact ⟨row, get?_of_mem_entries hen, by simp_all⟩

/-! ### What is kept -/

/-- The setup columns and the proof of the bundle are the same before and after. -/
structure KeepsSetup (t t' : DelegationTables) (b : Nat) : Prop where
  setup : (t'.bundles.get? b).map DelegationBundle.setup =
    (t.bundles.get? b).map DelegationBundle.setup
  proof : t'.proofs.get? b = t.proofs.get? b

theorem KeepsSetup.refl (t : DelegationTables) (b : Nat) : KeepsSetup t t b := ⟨rfl, rfl⟩

theorem KeepsSetup.trans {t'' : DelegationTables} (h : KeepsSetup t t' b)
    (h' : KeepsSetup t' t'' b) :
    KeepsSetup t t'' b := ⟨h'.setup.trans h.setup, h'.proof.trans h.proof⟩

theorem keepsSetup_iff (hpr : t'.proofs = t.proofs) : KeepsSetup t t' b ↔
    (t'.bundles.get? b).map setup = (t.bundles.get? b).map setup :=
  ⟨KeepsSetup.setup, fun hse => ⟨hse, by rw [hpr]⟩⟩

theorem clearSetups_of_unselected (h : selected b = false) :
    (t.clearSetups selected).get? b = t.bundles.get? b := by
  rw [clearSetups, get?_mapValues]
  cases t.bundles.get? b with
  | none => rfl
  | some => simp [h]

theorem guard_of_evidence {submissions votes shares : List Nat}
    (hsu : t.chainSubmissions = some submissions) (hvo : t.votes = some votes)
    (hsh : t.shareDelegations = some shares) (h : t.HasEvidence b) :
    t.unbroadcastGuard submissions votes shares bundleIndex b = false := by
  by_contra hg
  simp only [Bool.not_eq_false, unbroadcastGuard, Bool.and_eq_true, Option.any_eq_true] at hg
  obtain ⟨⟨⟨⟨-, _, _, _, _⟩, _⟩, _⟩, _⟩ := hg
  have hb : ∀ found, t.bundles.get? b = some found →
      ¬(found.delegationTxHash.isSome = true ∨ found.vanLeafPosition.isSome = true) := by
    intro found hf hco
    rcases hco with hc | hc <;> simp_all
  obtain ⟨evidence, hmem⟩ := h
  cases evidence with
  | delegationTxHash =>
    obtain ⟨found, hf, hco⟩ := bundle_of_mem_evidenceRows (.inl hmem)
    exact hb found hf hco
  | vanLeafPosition =>
    obtain ⟨found, hf, hco⟩ := bundle_of_mem_evidenceRows (.inr hmem)
    exact hb found hf hco
  | chainSubmission | vote | shareDelegation => simp_all [evidenceRows]

theorem requireTable_ok {failure : String → VotingError} {context table : String}
    {rows : Option (List Nat)} {found : List Nat}
    (h : requireTable failure context table rows = .ok found) : rows = some found := by
  cases rows with
  | none => cases h
  | some =>
    cases h
    rfl

/-- A discard leaves the bundles with evidence and those outside its scope. -/
theorem discardWithin_keeps {cleared : Nat}
    (h : t.discardUnbroadcastDelegationSetupWithin bundleIndex = .ok (cleared, t'))
    (hke : t.HasEvidence b ∨ bundleIndex.any (· ≠ b) = true) : KeepsSetup t t' b := by
  obtain ⟨submissions, hsu, h⟩ := bind_ok h
  obtain ⟨votes, hvo, h⟩ := bind_ok h
  obtain ⟨shares, hsh, h⟩ := bind_ok h
  obtain ⟨_, -, h⟩ := bind_ok h
  cases h
  have hg : t.unbroadcastGuard submissions votes shares bundleIndex b = false := by
    rcases hke with hev | hsc
    · exact guard_of_evidence (requireTable_ok hsu) (requireTable_ok hvo)
        (requireTable_ok hsh) hev
    · obtain ⟨index, rfl, hne⟩ := (Option.any_eq_true ..).mp hsc
      have hne' : index ≠ b := by simpa using hne
      simp [unbroadcastGuard, hne']
  refine ⟨?_, get?_filterKeys (by simp [hg])⟩
  rw [clearSetups_of_unselected hg]

/-! ### Writes -/

/-- What a write leaves NULL no longer, though the comparison of the setup passes. -/
def FillsNull (w : SetupWrite) (stored : SetupColumns) : Prop :=
  stored.delegationPczt = none ∧ (stored.paddedNoteSecrets = none ∨ stored.pcztSighash = none ∨
    stored.tx1Effects = none ∧ w.tx1Effects ≠ none)

instance (w : SetupWrite) (stored : SetupColumns) : Decidable (FillsNull w stored) :=
  inferInstanceAs (Decidable (_ ∧ _))

/-- A write that passes the comparison changes only the three columns that it leaves out. -/
theorem update_of_changesNothing (h : w.changesNothing stored = true)
    (hp : stored.delegationPczt = none) :
    w.update stored = { stored with
      paddedNoteSecrets := coalesce stored.paddedNoteSecrets (some w.secretsBlob)
      pcztSighash := coalesce stored.pcztSighash (some w.pcztSighash)
      tx1Effects := coalesce stored.tx1Effects w.tx1Effects } := by
  have hc : ∀ given old : Option Blob, given.isNone = true ∨ old = given →
      coalesce given old = old := by
    rintro given old (hno | rfl)
    · rw [Option.isNone_iff_eq_none.mp hno]
      rfl
    · cases old <;> rfl
  simp only [SetupWrite.changesNothing, Bool.and_eq_true, Bool.or_eq_true, decide_eq_true_eq] at h
  obtain ⟨⟨⟨⟨⟨⟨⟨⟨⟨⟨⟨⟨⟨⟨hra, hdu⟩, hrho⟩, hpa⟩, hnf⟩, hcmx⟩, hal⟩, hsi⟩, hou⟩, hgov⟩, hva⟩, had⟩, hr⟩, hrk⟩, hnu⟩ := h
  rw [hp] at hr
  have hgi : w.delegationPczt = none := by
    cases hw : w.delegationPczt with
    | none => rfl
    | some =>
      rw [hw] at hr
      cases hr
  rw [SetupWrite.update, SetupColumns.mk.injEq]
  refine ⟨hra.symm, hdu.symm, hrho.symm, hpa.symm, hnf.symm, hcmx.symm, hal.symm,
    hsi.symm, hou.symm, hgov.symm, hva.symm, had.symm, hc _ _ hrk,
    hc _ _ hnu, rfl, rfl, rfl, ?_⟩
  rw [hp, hgi]
  rfl

/-- Such a write keeps the setup exactly when none of the three columns is filled in. -/
theorem update_eq_iff (h : w.changesNothing stored = true) (hpc : stored.delegationPczt = none) :
    w.update stored = stored ↔ ¬ FillsNull w stored := by
  rw [update_of_changesNothing h hpc]
  obtain ⟨_, _, _, _, _, _, _, _, _, _, _, _, _, _, secrets, sighash, effects, _⟩ := stored
  cases secrets <;> cases sighash <;> cases effects <;> cases hw : w.tx1Effects <;>
    simp_all [FillsNull, coalesce]

/-- What an accepted write did: nothing, or the update of the row of its bundle, which has
evidence only if the comparison passed. -/
inductive StoreEffect (t t' : DelegationTables) (b : Nat) (w : SetupWrite) : Prop where
  | present {row : DelegationBundle} (hrow : t.bundles.get? b = some row)
      (hpczt : row.setup.delegationPczt ≠ none) (ht : t' = t)
  | updated {row : DelegationBundle} (hrow : t.bundles.get? b = some row)
      (hpczt : row.setup.delegationPczt = none)
      (hguard : w.changesNothing row.setup = true ∨ ¬ t.HasEvidence b)
      (hbundles : t'.bundles = t.bundles.set b { row with setup := w.update row.setup })
      (hproofs : t'.proofs = t.proofs)

theorem storeDelegationSetupWithin_ok (h : t.storeDelegationSetupWithin b w = .ok t') :
    StoreEffect t t' b w := by
  unfold storeDelegationSetupWithin at h
  cases hrow : t.bundles.get? b with
  | none => simp [hrow] at h
  | some row =>
    simp only [hrow] at h
    cases hf : w.overwrites row.setup with
    | some => simp [hf] at h
    | none =>
      simp only [hf] at h
      cases hp : row.setup.delegationPczt with
      | some =>
        cases hw : w.delegationPczt with
        | none =>
          -- an absent request over a stored one is an overwrite
          simp only [SetupWrite.overwrites] at hf
          split_ifs at hf
          simp_all
        | some =>
          simp only [hp, hw, Option.isSome_some, Bool.and_self] at h
          exact .present hrow (by simp [hp]) (Except.ok.inj h).symm
      | none =>
        simp only [hp, Option.isSome_none, Bool.false_and, Bool.false_eq_true] at h
        cases hs : w.changesNothing row.setup with
        | true =>
          simp only [hs] at h
          cases h
          exact .updated hrow hp (.inl hs) rfl rfl
        | false =>
          simp only [hs] at h
          obtain ⟨_, hre, h⟩ := bind_ok h
          obtain ⟨_, -, h⟩ := bind_ok h
          cases h
          exact .updated hrow hp (.inr (refuseIfBroadcast_ok hre (by simp [BundleScope.contains]))) rfl rfl

theorem StoreEffect.keeps_of_ne (h : StoreEffect t t' b' w) (hne : b ≠ b') : KeepsSetup t t' b := by
  cases h with
  | present _ _ ht => exact ht ▸ .refl t b
  | updated _ _ _ hbu hpr =>
    rw [keepsSetup_iff hpr, hbu, get?_set_of_ne hne]

/-- On a bundle with evidence a write keeps the setup exactly when it fills in no column. -/
theorem StoreEffect.keeps_iff (h : StoreEffect t t' b w) (hev : t.HasEvidence b) :
    KeepsSetup t t' b ↔ ¬ ∃ row, t.bundles.get? b = some row ∧ FillsNull w row.setup := by
  cases h with
  | @present _ hrow hp ht =>
    refine ⟨?_, fun _ => ht ▸ .refl t b⟩
    rintro - ⟨_, hfo, hfi⟩
    cases hrow.symm.trans hfo
    exact hp hfi.1
  | @updated _ hrow hp hgu hbu hpr =>
    have hsa := hgu.resolve_right (not_not.mpr hev)
    rw [keepsSetup_iff hpr, hbu, get?_set_self, hrow, Option.map_some,
      Option.map_some, Option.some.injEq, update_eq_iff hsa hp]
    simp

/-! ### Cleanup and deletion -/

theorem clearSetups_keeps_iff :
    ((t.clearSetups selected).get? b).map setup = (t.bundles.get? b).map setup ↔
      ¬ ∃ row, t.bundles.get? b = some row ∧ selected b = true ∧ row.setup ≠ .cleared := by
  rw [clearSetups, get?_mapValues]
  cases hrow : t.bundles.get? b with
  | none => simp
  | some =>
    cases hse : selected b with
    | false => simp
    | true => simp [eq_comm]

theorem deleteBundles_keeps {deleted : Nat → Bool} (h : deleted b = false) :
    KeepsSetup t (t.deleteBundles deleted) b := by
  have hbu : (t.bundles.filterKeys fun b => !deleted b).get? b = t.bundles.get? b :=
    get?_filterKeys (by simp [h])
  exact ⟨congrArg _ hbu, get?_filterKeys (by simp [h])⟩

theorem deleteBundlesFrom_keeps {fromIndex deleted : Nat}
    (h : t.deleteBundlesFrom fromIndex = .ok (deleted, t')) (hev : t.HasEvidence b) :
    KeepsSetup t t' b := by
  obtain ⟨-, h⟩ := guard_ok h
  obtain ⟨_, hre, h⟩ := bind_ok h
  have hbe : b < fromIndex := by
    by_contra hge
    refine refuseIfBroadcast_ok hre ?_ hev
    simpa [BundleScope.contains] using hge
  have hk : KeepsSetup t (t.deleteBundles fun b => fromIndex ≤ b) b :=
    deleteBundles_keeps (by simpa using hbe)
  cases h
  by_cases he : (t.deleteBundles fun b => fromIndex ≤ b).bundles.entries.isEmpty = true
  · rw [if_pos he]
    exact ⟨hk.setup, hk.proof⟩
  · rw [if_neg he]
    exact hk

/-- A bundle with evidence refuses the replacement of its own setup. -/
theorem replace_keeps {data : DelegationData} {tx1Effects delegationPczt rk : Blob}
    {govNullifiers : List Blob}
    (h : t.replaceUnbroadcastDelegationSetup b' data tx1Effects delegationPczt rk govNullifiers = .ok t')
    (he : t.HasEvidence b) : KeepsSetup t t' b := by
  obtain ⟨_, -, h⟩ := bind_ok h
  obtain ⟨_, hre, h⟩ := bind_ok h
  obtain ⟨⟨_, _⟩, hdi, h⟩ := bind_ok h
  have hne : b ≠ b' := by
    rintro rfl
    exact refuseIfBroadcast_ok hre (by simp [BundleScope.contains]) he
  exact (discardWithin_keeps hdi (.inl he)).trans ((storeDelegationSetupWithin_ok h).keeps_of_ne hne)

end DelegationTables

/-! ### Every operation on a setup -/

open DelegationTables

/-- A call that writes, replaces, discards, cleans up or deletes setups. -/
inductive SetupOperation where
  | write (b : Nat) (data : DelegationData) (tx1Effects delegationPczt rk govNullifiersBlob : Option Blob)
  | replace (b : Nat) (data : DelegationData) (tx1Effects delegationPczt rk : Blob)
      (govNullifiers : List Blob)
  | discard (checked : DelegationTables) (bundleIndex : Option Nat)
  | clearUnsigned
  | deleteFrom (fromIndex : Nat)
  | clearRound

namespace SetupOperation

def run (t : DelegationTables) : SetupOperation → Except VotingError DelegationTables
  | write b data tx1Effects delegationPczt rk govNullifiersBlob =>
    t.storeDelegationDataInner b data tx1Effects delegationPczt rk govNullifiersBlob
  | replace b data tx1Effects delegationPczt rk govNullifiers =>
    t.replaceUnbroadcastDelegationSetup b data tx1Effects delegationPczt rk govNullifiers
  | discard checked bundleIndex =>
    (t.discardUnbroadcastDelegation checked bundleIndex).map Prod.snd
  | clearUnsigned => t.clearUnsignedDelegationSetupFields
  | deleteFrom fromIndex => (t.deleteBundlesFrom fromIndex).map Prod.snd
  | clearRound => t.clearRound

/-- The two ways in which a guard misses evidence: a write fills in a column that was NULL,
and the cleanup takes the setup of a bundle that has only votes or helper shares. -/
def Changes (t : DelegationTables) (b : Nat) : SetupOperation → Prop
  | write b' data tx1Effects delegationPczt rk govNullifiersBlob =>
      b' = b ∧ ∃ row, t.bundles.get? b = some row ∧
      FillsNull (data.encoded tx1Effects delegationPczt rk govNullifiersBlob) row.setup
  | clearUnsigned => ∃ row submissions, t.bundles.get? b = some row ∧
    t.chainSubmissions = some submissions ∧ t.unsignedSetup submissions b row = true ∧
    row.setup ≠ .cleared
  | _ => False

end SetupOperation

/-- On a bundle with broadcast evidence, an accepted operation keeps the setup and the proof
byte for byte exactly when it is not one of the two. -/
theorem broadcast_setup_kept_iff {t t' : DelegationTables} {operation : SetupOperation} {b : Nat}
    (hevidence : (t.firstBroadcastEvidence (.one b)).isSome = true)
    (h : operation.run t = .ok t') : KeepsSetup t t' b ↔ ¬ operation.Changes t b := by
  rw [firstBroadcastEvidence_one] at hevidence
  cases operation with
  | write b' =>
    obtain ⟨_, -, hst⟩ := bind_ok h
    have he := storeDelegationSetupWithin_ok hst
    by_cases hb : b' = b
    · subst hb
      rw [he.keeps_iff hevidence, SetupOperation.Changes]
      simp
    · simp [SetupOperation.Changes, hb, he.keeps_of_ne (Ne.symm hb)]
  | replace =>
    simp [SetupOperation.Changes, replace_keeps h hevidence]
  | discard =>
    obtain ⟨_, hd, rfl⟩ := map_ok h
    obtain ⟨_, -, hd⟩ := bind_ok hd
    simp [SetupOperation.Changes, discardWithin_keeps hd (.inl hevidence)]
  | clearUnsigned =>
    obtain ⟨submissions, hsu, hdo⟩ := bind_ok h
    have hta := requireTable_ok hsu
    have ht := Except.ok.inj hdo
    have hpr : t'.proofs = t.proofs := by rw [← ht]
    rw [keepsSetup_iff hpr, ← ht, clearSetups_keeps_iff, SetupOperation.Changes, hta]
    refine not_congr (exists_congr fun row => ?_)
    constructor
    · rintro ⟨hrow, hse, hs⟩
      exact ⟨submissions, hrow, rfl, by simpa [hrow] using hse, hs⟩
    · rintro ⟨_, hrow, heq, hun, hs⟩
      cases heq
      exact ⟨hrow, by simpa [hrow] using hun, hs⟩
  | deleteFrom =>
    obtain ⟨_, hde, rfl⟩ := map_ok h
    simp [SetupOperation.Changes, deleteBundlesFrom_keeps hde hevidence]
  | clearRound =>
    obtain ⟨_, hre, -⟩ := bind_ok h
    exact absurd hevidence (refuseIfBroadcast_ok hre rfl)

/-! ### A bundle with a vote and a bundle with a transaction hash -/

/-- The action data of a delegation without padding. -/
def sampleData : DelegationData := ⟨[1], [], [2], [], [3], [4], [5], [6], [7], [8], 100, 0, [], [9]⟩

/-- The setup stored from it, without a request and with the given effects. -/
def sampleSetup (tx1Effects : Option Blob) : SetupColumns where
  vanCommRand := some [1]
  dummyNullifiers := some []
  rhoSigned := some [2]
  paddedNoteData := some []
  nfSigned := some [3]
  cmxNew := some [4]
  alpha := some [5]
  rseedSigned := some [6]
  rseedOutput := some [7]
  govComm := some [8]
  totalNoteValue := some 100
  addressIndex := some 0
  rk := none
  govNullifiersBlob := none
  paddedNoteSecrets := some []
  pcztSighash := some [9]
  tx1Effects := tx1Effects
  delegationPczt := none

def sampleEffects : Blob := 1 :: List.replicate 820 0

/-- One bundle with a setup, and the votes of the round. -/
def sampleTables (txHash : Option String) (tx1Effects : Option Blob) (votes : List Nat) :
    DelegationTables where
  roundId := "round"
  bundlePolicyJson := none
  bundles := .single 0 ⟨some [0], none, txHash, none, sampleSetup tx1Effects⟩
  proofs := .empty
  keystoneSignatures := []
  witnesses := []
  combinedCastRejections := some []
  chainSubmissions := some []
  votes := some votes
  shareDelegations := some []

theorem validateTx1Effects_sampleEffects : validateTx1Effects sampleEffects = .ok () := by
  decide +kernel

/-- A write of the stored data fills in the effects if there are none. -/
theorem run_sampleWrite {effects : Blob} {stored : Option Blob}
    (hva : validateTx1Effects effects = .ok ()) (hst : stored = none ∨ stored = some effects) :
    ∃ t', (SetupOperation.write 0 sampleData (some effects) none none none).run
        (sampleTables (some "hash") stored []) = .ok t' ∧
      (t'.bundles.get? 0).map setup = some (sampleSetup (some effects)) := by
  have hwi : (SetupOperation.write 0 sampleData (some effects) none none none).run
      (sampleTables (some "hash") stored []) = (do
        validateTx1Effects effects
        (sampleTables (some "hash") stored []).storeDelegationSetupWithin 0
          (sampleData.encoded (some effects) none none none)) := rfl
  rw [hwi, hva]
  rcases hst with rfl | rfl
  · exact ⟨_, rfl, rfl⟩
  refine ⟨{ sampleTables (some "hash") (some effects) [] with
    bundles := (sampleTables (some "hash") (some effects) []).bundles.set 0
      ⟨some [0], none, some "hash", none, sampleSetup (some effects)⟩ }, ?_, rfl⟩
  have hfi : SetupWrite.overwrites (sampleData.encoded (some effects) none none none)
      (sampleSetup (some effects)) = none := by
    simp [SetupWrite.overwrites, sampleSetup, sampleData, DelegationData.encoded,
      encodePaddedNoteSecrets]
  rw [storeDelegationSetupWithin]
  simp only [show (sampleTables (some "hash") (some effects) []).bundles.get? 0 =
    some ⟨some [0], none, some "hash", none, sampleSetup (some effects)⟩ from rfl, hfi]
  rfl

/-- The same data over the complete setup of a submitted delegation changes nothing. -/
theorem broadcast_setup_kept_iff_resume :
    ((sampleTables (some "hash") (some sampleEffects) []).firstBroadcastEvidence (.one 0)).isSome = true ∧
    ∃ t', (SetupOperation.write 0 sampleData (some sampleEffects) none none none).run
        (sampleTables (some "hash") (some sampleEffects) []) = .ok t' ∧
      KeepsSetup (sampleTables (some "hash") (some sampleEffects) []) t' 0 := by
  obtain ⟨t', hrun, -⟩ := run_sampleWrite validateTx1Effects_sampleEffects (.inr rfl)
  refine ⟨rfl, t', hrun, (broadcast_setup_kept_iff rfl hrun).mpr ?_⟩
  rintro ⟨-, _, hrow, -, hnu⟩
  cases hrow
  simp [sampleSetup] at hnu

/-- Both bundles have evidence. The cleanup clears the setup of the one with a vote, and a
write fills in the effects of the one with a transaction hash. -/
theorem broadcast_setup_is_changed :
    (((sampleTables none none [0]).firstBroadcastEvidence (.one 0)).isSome = true ∧
      ∃ t', SetupOperation.clearUnsigned.run (sampleTables none none [0]) = .ok t' ∧
        (t'.bundles.get? 0).map DelegationBundle.setup = some .cleared) ∧
    ((sampleTables (some "hash") none []).firstBroadcastEvidence (.one 0)).isSome = true ∧
      ∃ t', (SetupOperation.write 0 sampleData (some sampleEffects) none none none).run
          (sampleTables (some "hash") none []) = .ok t' ∧
        (t'.bundles.get? 0).map DelegationBundle.setup = some (sampleSetup (some sampleEffects)) :=
  ⟨⟨rfl, _, rfl, rfl⟩, rfl, run_sampleWrite validateTx1Effects_sampleEffects (.inl rfl)⟩

end ZcashVoting.Delegation
