import ZcashVoting.ChainSubmission.Vocabulary
import ZcashVoting.Lib.KeyedMap

/-!
# Delegation setup

The setup of a bundle is what its delegation was built from. Once the delegation may be
on chain, the stored setup is all that reproduces the voting weight of the bundle. The
functions below write it, replace it, discard it, clean it up or delete it with its
bundle or round, each behind a guard of its own.

The tables are those of one round of one wallet. A table that the database does not have
yet is `none`.
-/
namespace ZcashVoting.Delegation

open ChainSubmission KeyedData

abbrev Blob := List UInt8

/-! ### Tables -/

/-- The setup columns of a row of `bundles`. -/
structure SetupColumns where
  (vanCommRand dummyNullifiers rhoSigned paddedNoteData nfSigned cmxNew alpha : Option Blob)
  (rseedSigned rseedOutput govComm : Option Blob)
  (totalNoteValue addressIndex : Option Int)
  (rk govNullifiersBlob paddedNoteSecrets pcztSighash tx1Effects delegationPczt : Option Blob)
  deriving DecidableEq

/-- Every column is NULL. -/
def SetupColumns.cleared : SetupColumns :=
  ⟨none, none, none, none, none, none, none, none, none, none, none, none, none, none, none, none,
    none, none⟩

structure DelegationBundle where
  (notePositionsBlob noteIdentityHashesBlob : Option Blob)
  delegationTxHash : Option String
  vanLeafPosition : Option Int
  setup : SetupColumns
  deriving DecidableEq

structure ProofRow where
  (witness proof : Option Blob)
  success : Int
  deriving DecidableEq

/-- The tables the setup functions use. A table that is only searched for bundles is the
list of the bundle indexes of its rows. -/
structure DelegationTables where
  roundId : String
  bundlePolicyJson : Option String
  bundles : KeyedMap Nat DelegationBundle
  proofs : KeyedMap Nat ProofRow
  (keystoneSignatures witnesses : List Nat)
  (combinedCastRejections chainSubmissions votes shareDelegations : Option (List Nat))

/-! ### Broadcast evidence -/

inductive DelegationBroadcastEvidence where
  | delegationTxHash
  | vanLeafPosition
  | chainSubmission
  | vote
  | shareDelegation
  deriving DecidableEq

def DelegationBroadcastEvidence.asStr : DelegationBroadcastEvidence → String
  | delegationTxHash => "a delegation transaction hash"
  | vanLeafPosition => "a VAN leaf position"
  | chainSubmission => "a chain submission"
  | vote => "a vote"
  | shareDelegation => "a delivered helper share"

inductive BundleScope where
  | round
  | one (bundleIndex : Nat)
  | fromIndex (bundleIndex : Nat)

def BundleScope.contains : BundleScope → Nat → Bool
  | round, _ => true
  | one index, b => b = index
  | fromIndex index, b => index ≤ b

def BundleScope.ofOption : Option Nat → BundleScope
  | some index => one index
  | none => round

def alreadyBroadcast (roundId : String) (b : Nat) (evidence : DelegationBroadcastEvidence)
    (action : String) : VotingError :=
  .delegationAlreadyBroadcast b s!"{evidence.asStr} for round {roundId}, refusing to {action}"

namespace DelegationTables

variable (t : DelegationTables)

/-- The bundles one check of `first_broadcast_evidence` finds. -/
def evidenceRows : DelegationBroadcastEvidence → List Nat
  | .delegationTxHash => (t.bundles.entries.filter fun entry =>
        entry.2.delegationTxHash.isSome).map Prod.fst
  | .vanLeafPosition => (t.bundles.entries.filter fun entry =>
      entry.2.vanLeafPosition.isSome).map Prod.fst
  | .chainSubmission => t.chainSubmissions.getD []
  | .vote => t.votes.getD []
  | .shareDelegation => t.shareDelegations.getD []

def evidenceChecks : List DelegationBroadcastEvidence :=
  [.delegationTxHash, .vanLeafPosition, .chainSubmission, .vote, .shareDelegation]

def firstBroadcastEvidence (scope : BundleScope) : Option (Nat × DelegationBroadcastEvidence) :=
  evidenceChecks.findSome? fun evidence =>
    ((t.evidenceRows evidence).find? scope.contains).map fun b => (b, evidence)

def refuseIfBroadcast (scope : BundleScope) (action : String) : Except VotingError Unit :=
  match t.firstBroadcastEvidence scope with
  | some (b, evidence) => .error (alreadyBroadcast t.roundId b evidence action)
  | none => .ok ()

/-- The rows of a table that a statement names. -/
def requireTable (failure : String → VotingError) (context table : String) :
    Option (List Nat) → Except VotingError (List Nat)
  | some rows => .ok rows
  | none => .error (failure s!"{context}: no such table: {table}")

/-! ### Discard -/

/-- The guard of every statement of a discard. -/
def unbroadcastGuard (submissions votes shares : List Nat) (bundleIndex : Option Nat)
    (b : Nat) : Bool :=
  bundleIndex.all (· = b) &&
    (t.bundles.get? b).any (fun row => row.delegationTxHash.isNone && row.vanLeafPosition.isNone) &&
    !submissions.contains b && !votes.contains b && !shares.contains b

def clearSetups (selected : Nat → Bool) : KeyedMap Nat DelegationBundle :=
  t.bundles.mapValues fun b row => if selected b then { row with setup := .cleared } else row

/-- `discard_unbroadcast_delegation_setup_within`. No statement writes what the guard reads,
so the guard is the same for all of them. -/
def discardUnbroadcastDelegationSetupWithin (bundleIndex : Option Nat) :
    Except VotingError (Nat × DelegationTables) := do
  let context := "failed to prepare clear delegation setup"
  let submissions ← requireTable .internal context "chain_submissions" t.chainSubmissions
  let votes ← requireTable .internal context "votes" t.votes
  let shares ← requireTable .internal context "share_delegations" t.shareDelegations
  let rejections ← requireTable .internal "failed to prepare discard combined cast rejections"
    "combined_cast_rejections" t.combinedCastRejections
  let guarded := t.unbroadcastGuard submissions votes shares bundleIndex
  return ((t.bundles.keys.filter guarded).length, { t with
      bundles := t.clearSetups guarded
      proofs := t.proofs.filterKeys fun b => !guarded b
      keystoneSignatures := t.keystoneSignatures.filter fun b => !guarded b
      witnesses := t.witnesses.filter fun b => !guarded b
      combinedCastRejections := some (rejections.filter fun b => !guarded b) })

/-! ### Setup writes -/

end DelegationTables

/-- The arguments of `store_delegation_setup_within`, with the blobs encoded. -/
structure SetupWrite where
  (vanCommRand dummyBlob rhoSigned paddedBlob nfSigned cmxNew alpha rseedSigned rseedOutput : Blob)
  govComm : Blob
  (totalNoteValue addressIndex : Nat)
  (secretsBlob pcztSighash : Blob)
  (tx1Effects delegationPczt rk govNullifiersBlob : Option Blob)

/-- `u64 as i64` -/
def asI64 (n : Nat) : Int := if n ≤ i64Max then n else (n : Int) - 2 ^ 64

/-- SQL's `COALESCE` of two values. -/
def coalesce {α : Type} (a b : Option α) : Option α := a.or b

namespace SetupWrite

variable (w : SetupWrite) (stored : SetupColumns)

/-- `write_changes_nothing`: the columns that are compared are already those written. -/
def changesNothing : Bool :=
  stored.vanCommRand = some w.vanCommRand && stored.dummyNullifiers = some w.dummyBlob &&
    stored.rhoSigned = some w.rhoSigned && stored.paddedNoteData = some w.paddedBlob &&
    stored.nfSigned = some w.nfSigned && stored.cmxNew = some w.cmxNew &&
    stored.alpha = some w.alpha && stored.rseedSigned = some w.rseedSigned &&
    stored.rseedOutput = some w.rseedOutput && stored.govComm = some w.govComm &&
    stored.totalNoteValue = some (asI64 w.totalNoteValue) &&
    stored.addressIndex = some (w.addressIndex : Int) &&
    stored.delegationPczt = coalesce w.delegationPczt stored.delegationPczt &&
    (w.rk.isNone || stored.rk = w.rk) &&
    (w.govNullifiersBlob.isNone || stored.govNullifiersBlob = w.govNullifiersBlob)

/-- The `UPDATE` of the setup columns. -/
def update : SetupColumns where
  vanCommRand := some w.vanCommRand
  dummyNullifiers := some w.dummyBlob
  rhoSigned := some w.rhoSigned
  paddedNoteData := some w.paddedBlob
  nfSigned := some w.nfSigned
  cmxNew := some w.cmxNew
  alpha := some w.alpha
  rseedSigned := some w.rseedSigned
  rseedOutput := some w.rseedOutput
  govComm := some w.govComm
  totalNoteValue := some (asI64 w.totalNoteValue)
  addressIndex := some (w.addressIndex : Int)
  rk := coalesce w.rk stored.rk
  govNullifiersBlob := coalesce w.govNullifiersBlob stored.govNullifiersBlob
  paddedNoteSecrets := coalesce stored.paddedNoteSecrets (some w.secretsBlob)
  pcztSighash := coalesce stored.pcztSighash (some w.pcztSighash)
  tx1Effects := coalesce stored.tx1Effects w.tx1Effects
  delegationPczt := coalesce stored.delegationPczt w.delegationPczt

/-- The first stored field that the write would overwrite. -/
def overwrites : Option DelegationSetupField :=
  if stored.paddedNoteSecrets.any (· ≠ w.secretsBlob) then some .paddedNoteSecrets
  else if stored.pcztSighash.any (· ≠ w.pcztSighash) then some .pcztSighash
  else if stored.tx1Effects.any fun old => w.tx1Effects.any (old ≠ ·) then some .tx1Effects
  else if stored.delegationPczt.isSome && w.delegationPczt.isNone then some .delegationPczt
  else if stored.delegationPczt.any fun old => w.delegationPczt.any (old ≠ ·) then
    some .delegationPczt
  else none

end SetupWrite

namespace DelegationTables

variable (t : DelegationTables)

def bundleNotFound (b : Nat) : VotingError :=
  .invalidInput s!"bundle not found: round={t.roundId}, bundle={b}"

/-- A write that changes the setup ends the rejection streak of the bundle. -/
def clearCombinedRejectionLedger (b : Nat) : Except VotingError DelegationTables := do
  let rejections ← requireTable .storage "clear combined rejection ledger" "combined_cast_rejections"
    t.combinedCastRejections
  return { t with combinedCastRejections := some (rejections.filter (· ≠ b)) }

def storeDelegationSetupWithin (b : Nat) (w : SetupWrite) : Except VotingError DelegationTables :=
  match t.bundles.get? b with
  | none => .error (t.bundleNotFound b)
  | some row =>
    match w.overwrites row.setup with
    | some field => .error (.setupAlreadyPersisted t.roundId b field)
    | none =>
      -- the exact request is stored already
      if row.setup.delegationPczt.isSome && w.delegationPczt.isSome then .ok t
      else
        let written :=
          { t with bundles := t.bundles.set b { row with setup := w.update row.setup } }
        if w.changesNothing row.setup then .ok written
        else do
          t.refuseIfBroadcast (.one b) "replace delegation setup"
          written.clearCombinedRejectionLedger b

end DelegationTables

/-! ### Entry points -/

def tx1EffectsVersion : UInt8 := 1
def tx1EffectsLen : Nat := 1 + 1 * (5 * 32 + 580 + 80)

def validateTx1Effects (effects : Blob) : Except VotingError Unit :=
  if effects.length ≠ tx1EffectsLen then
    .error (.invalidInput s!"tx1_effects must be {tx1EffectsLen} bytes, got {effects.length}")
  else if effects.headD 0 ≠ tx1EffectsVersion then
    .error (.invalidInput s!"unsupported tx1_effects version: expected {tx1EffectsVersion}, got {effects.headD 0}")
  else .ok ()

structure DelegationData where
  vanCommRand : Blob
  dummyNullifiers : List Blob
  rhoSigned : Blob
  paddedCmx : List Blob
  (nfSigned cmxNew alpha rseedSigned rseedOutput govComm : Blob)
  (totalNoteValue addressIndex : Nat)
  paddedNoteSecrets : List (Blob × Blob)
  pcztSighash : Blob

def encodePaddedNoteSecrets (secrets : List (Blob × Blob)) : Blob :=
  secrets.flatMap fun secret => secret.1 ++ secret.2

def encodeGovNullifiersBlob (nullifiers : List Blob) : Blob := nullifiers.flatten

def DelegationData.encoded (data : DelegationData)
    (tx1Effects delegationPczt rk govNullifiersBlob : Option Blob) : SetupWrite where
  vanCommRand := data.vanCommRand
  dummyBlob := data.dummyNullifiers.flatten
  rhoSigned := data.rhoSigned
  paddedBlob := data.paddedCmx.flatten
  nfSigned := data.nfSigned
  cmxNew := data.cmxNew
  alpha := data.alpha
  rseedSigned := data.rseedSigned
  rseedOutput := data.rseedOutput
  govComm := data.govComm
  totalNoteValue := data.totalNoteValue
  addressIndex := data.addressIndex
  secretsBlob := encodePaddedNoteSecrets data.paddedNoteSecrets
  pcztSighash := data.pcztSighash
  tx1Effects := tx1Effects
  delegationPczt := delegationPczt
  rk := rk
  govNullifiersBlob := govNullifiersBlob

namespace DelegationTables

variable (t : DelegationTables)

def storeDelegationDataInner (b : Nat) (data : DelegationData)
    (tx1Effects delegationPczt rk govNullifiersBlob : Option Blob) :
    Except VotingError DelegationTables := do
  tx1Effects.forM validateTx1Effects
  t.storeDelegationSetupWithin b (data.encoded tx1Effects delegationPczt rk govNullifiersBlob)

def storeDelegationData (b : Nat) (data : DelegationData) (tx1Effects : Blob) :
    Except VotingError DelegationTables :=
  t.storeDelegationDataInner b data (some tx1Effects) none none none

def storeDelegationDataWithPcztFields (b : Nat) (data : DelegationData)
    (tx1Effects delegationPczt rk : Blob) (govNullifiers : List Blob) :
    Except VotingError DelegationTables :=
  t.storeDelegationDataInner b data (some tx1Effects) (some delegationPczt) (some rk)
    (some (encodeGovNullifiersBlob govNullifiers))

def replaceUnbroadcastDelegationSetup (b : Nat) (data : DelegationData)
    (tx1Effects delegationPczt rk : Blob) (govNullifiers : List Blob) :
    Except VotingError DelegationTables := do
  validateTx1Effects tx1Effects
  t.refuseIfBroadcast (.one b) "replace delegation setup"
  let (_, discarded) ← t.discardUnbroadcastDelegationSetupWithin (some b)
  discarded.storeDelegationSetupWithin b (data.encoded (some tx1Effects) (some delegationPczt)
    (some rk) (some (encodeGovNullifiersBlob govNullifiers)))

/-- `discard_unbroadcast_delegation`: the evidence is read from `checked`, and the discard
is a transaction of its own. -/
def discardUnbroadcastDelegation (checked : DelegationTables) (bundleIndex : Option Nat) :
    Except VotingError (Nat × DelegationTables) := do
  checked.refuseIfBroadcast (.ofOption bundleIndex) "discard delegation setup"
  t.discardUnbroadcastDelegationSetupWithin bundleIndex

/-! ### Cleanup and deletion -/

/-- The bundles whose setup `clear_unsigned_delegation_setup_fields` clears. -/
def unsignedSetup (submissions : List Nat) (b : Nat) (row : DelegationBundle) : Bool :=
  row.notePositionsBlob.isSome && row.delegationTxHash.isNone && row.vanLeafPosition.isNone &&
    !(t.proofs.get? b).any (fun proof => proof.success = 1) &&
    !t.keystoneSignatures.contains b && !submissions.contains b

def clearUnsignedDelegationSetupFields : Except VotingError DelegationTables := do
  let submissions ← requireTable .internal "failed to clear unsigned delegation setup fields"
    "chain_submissions" t.chainSubmissions
  return { t with
    bundles := t.clearSetups fun b => (t.bundles.get? b).any (t.unsignedSetup submissions b) }

def roundHasImportedCapabilityBundles : Bool := t.bundles.entries.any fun entry =>
    entry.2.notePositionsBlob.isNone

/-- `DELETE FROM bundles` with its cascades. -/
def deleteBundles (deleted : Nat → Bool) : DelegationTables :=
  { t with
    bundles := t.bundles.filterKeys fun b => !deleted b
    proofs := t.proofs.filterKeys fun b => !deleted b
    keystoneSignatures := t.keystoneSignatures.filter fun b => !deleted b
    witnesses := t.witnesses.filter fun b => !deleted b
    votes := t.votes.map fun rows => rows.filter fun b => !deleted b
    shareDelegations := t.shareDelegations.map fun rows => rows.filter fun b => !deleted b }

def deleteBundlesFrom (fromIndex : Nat) : Except VotingError (Nat × DelegationTables) :=
  if t.roundHasImportedCapabilityBundles then
    .error (.invalidInput s!"imported capability round {t.roundId} cannot delete bundles independently; clear the round before importing a complete replacement capability")
  else do
    t.refuseIfBroadcast (.fromIndex fromIndex) "prune bundles"
    let left := t.deleteBundles fun b => fromIndex ≤ b
    return (t.bundles.entries.length - left.bundles.entries.length,
      if left.bundles.entries.isEmpty then { left with bundlePolicyJson := none } else left)

/-- `DELETE FROM rounds` with its cascades. -/
def cleared : DelegationTables :=
  { t.deleteBundles (fun _ => true) with
    bundlePolicyJson := none
    combinedCastRejections := t.combinedCastRejections.map fun _ => []
    chainSubmissions := t.chainSubmissions.map fun _ => [] }

/-- `clear_round` with its check. -/
def clearRound : Except VotingError DelegationTables := do
  t.refuseIfBroadcast .round "clear round"
  return t.cleared

end DelegationTables

end ZcashVoting.Delegation
