import ZcashVoting.Delegation.Setup
import ZcashVoting.Lib.Bytes
import ZcashVoting.NoteBundling.Conservation

/-!
# The bundles of a round in the database

`ensure_bundles` plans the notes of a round and stores the bundles with the policy they
were planned under. A later call plans the notes again under the stored policy and
compares the plan with the rows, note by note. `BLAKE2b` is a parameter.
-/
namespace ZcashVoting.NoteBundling

open Delegation Bytes KeyedData

variable (json : PolicyJson) (blake2b : List UInt8 → Bytes32) (t : DelegationTables)

/-! ### Identities of notes -/

def noteIdentityDomain : List UInt8 := "zcash-voting-note-identity-v1".toUTF8.toList

def lenPrefixed (bytes : List UInt8) : List UInt8 := leBytes 8 bytes.length ++ bytes

/-- The bytes of a note that its identity hash covers. -/
def NoteInfo.identityBytes (note : NoteInfo) : List UInt8 :=
  noteIdentityDomain ++ leBytes 8 note.position.toNat ++ leBytes 8 note.value.toNat ++
    leBytes 4 note.scope.toNat ++ lenPrefixed note.commitment ++ lenPrefixed note.nullifier ++
    lenPrefixed note.diversifier ++ lenPrefixed note.rho ++ lenPrefixed note.rseed ++
    lenPrefixed note.ufvkStr.toUTF8.toList

def noteIdentityHash (note : NoteInfo) : Bytes32 := blake2b note.identityBytes

variable (notes : List NoteInfo)

def notePositionsBlob : Blob := notes.flatMap fun note => leBytes 8 note.position.toNat

def noteIdentityHashesBlob : Blob :=
  notes.flatMap fun note => (noteIdentityHash blake2b note).toList

def decodeNotePositionsBlob (blob : Blob) : Except VotingError (List UInt64) :=
  if blob.length % 8 ≠ 0 then
    .error (.internal s!"corrupt note_positions_blob: length {blob.length} is not a multiple of 8")
  else .ok ((chunksExact 8 blob).map fun chunk => .ofNat (ofLeBytes chunk))

/-! ### Rows and policy -/

/-- `get_bundle_count`, a `u32`. -/
def getBundleCount : Nat := t.bundles.entries.length % 2 ^ 32

/-- A stored policy that cannot be read counts as none. -/
def getRoundBundlePolicy : Option BundlePolicy :=
  t.bundlePolicyJson.bind fun text => (decodeBundlePolicy json text).toOption

/-- The policy is stored only beside bundle rows. -/
def setRoundBundlePolicy (policy : BundlePolicy) : DelegationTables :=
  if t.bundles.entries.isEmpty then t
  else { t with bundlePolicyJson := some (encodeBundlePolicy json policy) }

def effectiveBundlePolicy (requested : BundlePolicy) : BundlePolicy :=
  match getRoundBundlePolicy json t with
  | some stored => stored
  | none => if 0 < getBundleCount t then requested.withMaxPrivacyBundles none else requested

/-- The row of a freshly planned bundle. -/
def plannedRow : DelegationBundle where
  notePositionsBlob := some (NoteBundling.notePositionsBlob notes)
  noteIdentityHashesBlob := some (NoteBundling.noteIdentityHashesBlob blake2b notes)
  delegationTxHash := none
  vanLeafPosition := none
  setup := .cleared

def insertBundleNotes (bundleIndex : Nat) (notes : List NoteInfo) :
    Except VotingError DelegationTables :=
  if t.bundles.contains bundleIndex then
    .error (.internal "failed to insert bundle: UNIQUE constraint failed: bundles.round_id, bundles.wallet_id, bundles.bundle_index")
  else .ok { t with bundles := t.bundles.set bundleIndex (plannedRow blake2b notes) }

/-- `persist_bundle_plan`, one transaction. The index of a bundle is a `u32`. -/
def persistBundlePlan (plan : ChunkResult) (policy : BundlePolicy) :
    Except VotingError ((Nat × UInt64) × DelegationTables) := do
  let inserted ← plan.bundles.zipIdx.foldlM
    (fun t bundle => insertBundleNotes blake2b t (bundle.2 % 2 ^ 32) bundle.1) t
  return ((plan.bundles.length % 2 ^ 32, plan.eligibleWeight),
    setRoundBundlePolicy json inserted policy)

/-! ### Comparing notes with rows -/

def bundleNotFound (bundleIndex : Nat) (e : String) : VotingError :=
  .invalidInput s!"bundle not found: round={t.roundId}, bundle={bundleIndex} ({e})"

/-- The hashes of a row that has them are those of the notes. -/
def requireNoteIdentities (bundleIndex : Nat) (blob : Blob) (notes : List NoteInfo) :
    Except VotingError Unit :=
  if blob.length % 32 ≠ 0 then
    .error (.internal s!"corrupt note_identity_hashes_blob: length {blob.length} is not a multiple of 32")
  else
    let stored := chunksExact 32 blob
    if stored.length ≠ notes.length then
      .error (.invalidInput s!"bundle_index {bundleIndex} note identity count mismatch: stored {stored.length}, requested {notes.length}")
    else (stored.zip notes).zipIdx.forM fun ((hash, note), index) =>
      if hash ≠ (noteIdentityHash blake2b note).toList then
        .error (.invalidInput s!"bundle_index {bundleIndex} note identity mismatch at index {index}")
      else .ok ()

def requireBundleNotes (bundleIndex : Nat) (notes : List NoteInfo) : Except VotingError Unit :=
  match t.bundles.get? bundleIndex with
  | none => .error (bundleNotFound t bundleIndex "Query returned no rows")
  | some row =>
    match row.notePositionsBlob with
    | none => .error (bundleNotFound t bundleIndex "Invalid column type Null at index: 0, name: note_positions_blob")
    | some blob => do
      let stored ← decodeNotePositionsBlob blob
      let requested := notes.map NoteInfo.position
      if stored ≠ requested then
        throw (.invalidInput s!"bundle_index {bundleIndex} notes do not match persisted setup: stored positions {stored}, requested positions {requested}")
      else
        match row.noteIdentityHashesBlob with
        | none => return ()
        | some hashes => requireNoteIdentities blake2b bundleIndex hashes notes

def validatePersistedBundleNotes (bundles : List (List NoteInfo)) : Except VotingError Unit :=
  bundles.zipIdx.forM fun bundle => requireBundleNotes blake2b t (bundle.2 % 2 ^ 32) bundle.1

/-! ### Weights -/

def rawBundleWeight : Except VotingError UInt64 :=
  notes.foldlM (fun acc note => match checkedAdd acc note.value with
    | some sum => .ok sum
    | none => .error (.invalidInput "delegation bundle weight overflows u64")) 0

def quantizedBundleWeight : Except VotingError UInt64 := do
  let raw ← rawBundleWeight notes
  return raw / ballotDivisor * ballotDivisor

def quantizedBundleSetWeight (bundles : List (List NoteInfo)) : Except VotingError UInt64 :=
  bundles.foldlM (fun acc bundle => do
    let weight ← quantizedBundleWeight bundle
    match checkedAdd acc weight with
    | some sum => return sum
    | none => throw (.invalidInput "delegation bundle set weight overflows u64")) 0

/-! ### Entry points -/

structure BundleLayout where
  bundleCount : Nat
  eligibleWeight : UInt64
  droppedCount : Nat
  privacyTrim : PrivacyTrim
  deriving DecidableEq

def ensureBundlesWithPolicy (requested : BundlePolicy) :
    Except VotingError (BundleLayout × DelegationTables) := do
  let policy := effectiveBundlePolicy json t requested
  let plan ← canonicalNoteBundlePlanForNotes notes policy
  let expectedCount := plan.bundles.length % 2 ^ 32
  let existingCount := getBundleCount t
  if existingCount = 0 then
    let ((bundleCount, eligibleWeight), persisted) ← persistBundlePlan json blake2b t plan policy
    return (⟨bundleCount, eligibleWeight, plan.droppedCount % 2 ^ 32, plan.privacyTrim⟩, persisted)
  else if existingCount ≠ expectedCount then
    throw (.invalidInput s!"existing bundle count {existingCount} does not match planned bundle count {expectedCount}")
  else
    validatePersistedBundleNotes blake2b t plan.bundles
    return (⟨expectedCount, plan.eligibleWeight, plan.droppedCount % 2 ^ 32, plan.privacyTrim⟩,
      setRoundBundlePolicy json t policy)

/-- The checks of a call on stored rows: the plan's first bundles are those rows. -/
def plannedPrefix (policy : BundlePolicy) :
    Except VotingError (List (List NoteInfo) × PrivacyTrim) := do
  let storedCount := getBundleCount t
  let plan ← canonicalNoteBundlePlanForNotes notes policy
  if plan.bundles.length < storedCount then
    throw (.invalidInput s!"current note selection produces {plan.bundles.length} delegation bundles, but {storedCount} bundle rows are already persisted for round {t.roundId}")
  else
    validatePersistedBundleNotes blake2b t (plan.bundles.take storedCount)
    return (plan.bundles.take storedCount, plan.privacyTrim)

/-- The outcome of a call and the tables it leaves; a failed call leaves them as they were. -/
def committed {α : Type} (t : DelegationTables) (call : Except VotingError (α × DelegationTables)) :
    Except VotingError α × DelegationTables :=
  match call with
  | .ok (result, t') => (.ok result, t')
  | .error e => (.error e, t)

/-- `ensure_bundles_with_skipped_suffix_with_policy`. The weight is summed after the policy
is stored. -/
def ensureBundlesWithSkippedSuffixWithPolicy (requested : BundlePolicy) :
    Except VotingError BundleLayout × DelegationTables :=
  match validateNotesForRound notes with
  | .error e => (.error e, t)
  | .ok _ =>
    if getBundleCount t = 0 then committed t (ensureBundlesWithPolicy json blake2b t notes requested)
    else
      let policy := effectiveBundlePolicy json t requested
      match plannedPrefix blake2b t notes policy with
      | .error e => (.error e, t)
      | .ok (storedBundles, trim) =>
        ((quantizedBundleSetWeight storedBundles).map fun weight =>
          ⟨getBundleCount t, weight, 0, trim⟩,
          setRoundBundlePolicy json t policy)

end ZcashVoting.NoteBundling
