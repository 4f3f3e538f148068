import ZcashVoting.ChainSubmission.Vocabulary

/-!
# Bundle policies

The policy says how many notes a bundle may hold, when another note would make it too
large, and how much value may be given up for fewer bundles. Its fields are private to
the library, so every policy comes from a builder: the capacity and the drop share are
in range by the type. A round keeps its policy as versioned JSON.
-/
namespace ZcashVoting.NoteBundling

/-- Zatoshi of one ballot. -/
def ballotDivisor : UInt64 := 12500000

def bundleNoteSlots : Nat := 5

def maxPrivacyDropBps : UInt32 := 500

def bpsDenominator : Nat := 10000

inductive BundlePlannerVersion where
  | v1
  deriving DecidableEq

structure PrivacyTrimPolicy where
  maxBundles : Nat
  dropBps : UInt32
  maxDropZatoshi : Option UInt64
  deriving DecidableEq

/-- `PrivacyTrimPolicy::default`, the recoverable values of version 1. -/
def PrivacyTrimPolicy.default : PrivacyTrimPolicy := ⟨2, 100, some 100000000000⟩

structure BundlePolicy where
  plannerVersion : BundlePlannerVersion
  maxRealNotesPerBundle : Nat
  bundleAdditionThreshold : Option UInt64
  privacyTrim : Option PrivacyTrimPolicy
  /-- Checked by `new_with_planner_version`. -/
  capacity : 1 ≤ maxRealNotesPerBundle ∧ maxRealNotesPerBundle ≤ bundleNoteSlots
  /-- Checked by `with_privacy_drop_bps`. -/
  bounded : ∀ trim ∈ privacyTrim, trim.dropBps ≤ maxPrivacyDropBps
  deriving DecidableEq

namespace BundlePolicy

/-! ### Builders -/

theorem default_bounded : ∀ trim ∈ some PrivacyTrimPolicy.default,
    trim.dropBps ≤ maxPrivacyDropBps := by
  intro trim htr
  cases Option.mem_some.mp htr
  decide

def newWithPlannerVersion (maxRealNotesPerBundle : Nat) (plannerVersion : BundlePlannerVersion) :
    Except VotingError BundlePolicy :=
  if h : 1 ≤ maxRealNotesPerBundle ∧ maxRealNotesPerBundle ≤ bundleNoteSlots then
    .ok ⟨plannerVersion, maxRealNotesPerBundle, none, some .default, h, default_bounded⟩
  else .error (.invalidInput s!"max_real_notes_per_bundle must be in 1..={bundleNoteSlots}, got {maxRealNotesPerBundle}")

def new (maxRealNotesPerBundle : Nat) : Except VotingError BundlePolicy :=
  newWithPlannerVersion maxRealNotesPerBundle .v1

def default : BundlePolicy where
  plannerVersion := .v1
  maxRealNotesPerBundle := 5
  bundleAdditionThreshold := none
  privacyTrim := some .default
  capacity := by decide
  bounded := default_bounded

def fromOptionalMaxRealNotesPerBundle : Option Nat → Except VotingError BundlePolicy
  | some value => new value
  | none => .ok default

variable (policy : BundlePolicy)

def withBundleAdditionThreshold (threshold : UInt64) : BundlePolicy :=
  { policy with bundleAdditionThreshold := some threshold }

/-- The trim a target is set on: the policy's own, or the default. -/
def trimOrDefault : PrivacyTrimPolicy := policy.privacyTrim.getD .default

theorem trimOrDefault_bounded (policy : BundlePolicy) :
    policy.trimOrDefault.dropBps ≤ maxPrivacyDropBps := by
  unfold trimOrDefault
  cases htr : policy.privacyTrim with
  | none => exact default_bounded _ rfl
  | some trim => exact policy.bounded trim htr

def withMaxPrivacyBundles (maxPrivacyBundles : Option Nat) : BundlePolicy :=
  { policy with
    privacyTrim := maxPrivacyBundles.map fun maxBundles => { policy.trimOrDefault with maxBundles }
    bounded := by
      intro trim htrim
      obtain ⟨maxBundles, -, rfl⟩ := Option.map_eq_some_iff.mp htrim
      exact policy.trimOrDefault_bounded }

def withPrivacyDropBps (dropBps : UInt32) : Except VotingError BundlePolicy :=
  if h : dropBps ≤ maxPrivacyDropBps then
    .ok { policy with
      privacyTrim := policy.privacyTrim.map fun trim => { trim with dropBps }
      bounded := by
        intro trim htrim
        obtain ⟨before, -, rfl⟩ := Option.map_eq_some_iff.mp htrim
        exact h }
  else .error (.invalidInput s!"privacy_drop_bps must be <= {maxPrivacyDropBps}, got {dropBps}")

def withMaxPrivacyDropZatoshi (maxDropZatoshi : Option UInt64) : BundlePolicy :=
  { policy with
    privacyTrim := policy.privacyTrim.map fun trim => { trim with maxDropZatoshi }
    bounded := by
      intro trim htrim
      obtain ⟨before, hbefore, rfl⟩ := Option.map_eq_some_iff.mp htrim
      exact policy.bounded before hbefore }

/-- `recoverable_bundle_policy_v1` -/
def recoverableV1 : BundlePolicy := default.withBundleAdditionThreshold 2500000000000

/-! ### Reads -/

def maxPrivacyBundles : Option Nat := policy.privacyTrim.map PrivacyTrimPolicy.maxBundles

def privacyDropBps : UInt32 := (policy.privacyTrim.map PrivacyTrimPolicy.dropBps).getD 100

def maxPrivacyDropZatoshi : Option UInt64 :=
  (policy.privacyTrim.map PrivacyTrimPolicy.maxDropZatoshi).getD (some 100000000000)

/-- `privacy_drop_budget_v1`, in `u128`. -/
def privacyDropBudget (totalValue : Nat) : Nat :=
  match policy.privacyTrim with
  | none => 0
  | some trim =>
    let budget := totalValue * trim.dropBps.toNat % 2 ^ 128 / bpsDenominator
    match trim.maxDropZatoshi with
    | some clamp => min budget clamp.toNat
    | none => budget

end BundlePolicy

/-- One note a bundle, nothing given up for privacy. -/
def oneNoteEach : BundlePolicy where
  plannerVersion := .v1
  maxRealNotesPerBundle := 1
  bundleAdditionThreshold := none
  privacyTrim := none
  capacity := by decide
  bounded := by simp

/-! ### The persisted form -/

def bundlePolicySchemaVersion : Nat := 1

structure PersistedBundlePolicyV1 where
  maxRealNotesPerBundle : Nat
  bundleAdditionThresholdZatoshi : Option UInt64
  maxPrivacyBundles : Option Nat
  privacyDropBps : UInt32
  maxPrivacyDropZatoshi : Option UInt64
  deriving DecidableEq

namespace PersistedBundlePolicyV1

def ofPolicy (policy : BundlePolicy) : PersistedBundlePolicyV1 :=
  match policy.plannerVersion with
  | .v1 => ⟨policy.maxRealNotesPerBundle, policy.bundleAdditionThreshold, policy.maxPrivacyBundles,
      policy.privacyDropBps, policy.maxPrivacyDropZatoshi⟩

def intoPolicy (persisted : PersistedBundlePolicyV1) : Except VotingError BundlePolicy := do
  let policy ← BundlePolicy.newWithPlannerVersion persisted.maxRealNotesPerBundle .v1
  let policy := match persisted.bundleAdditionThresholdZatoshi with
    | some threshold => policy.withBundleAdditionThreshold threshold
    | none => policy
  let policy ← (policy.withMaxPrivacyBundles persisted.maxPrivacyBundles).withPrivacyDropBps
    persisted.privacyDropBps
  return policy.withMaxPrivacyDropZatoshi persisted.maxPrivacyDropZatoshi

/-- The trim columns of a policy, set on one that agrees with it elsewhere, give it back. -/
theorem with_trim_columns {before policy : BundlePolicy}
    (hve : before.plannerVersion = policy.plannerVersion)
    (hno : before.maxRealNotesPerBundle = policy.maxRealNotesPerBundle)
    (hth : before.bundleAdditionThreshold = policy.bundleAdditionThreshold) :
    ((before.withMaxPrivacyBundles policy.maxPrivacyBundles).withPrivacyDropBps
      policy.privacyDropBps).map (·.withMaxPrivacyDropZatoshi policy.maxPrivacyDropZatoshi) =
        .ok policy := by
  have hbps : policy.privacyDropBps ≤ maxPrivacyDropBps := by
    unfold BundlePolicy.privacyDropBps
    cases htr : policy.privacyTrim with
    | none => exact BundlePolicy.default_bounded _ rfl
    | some trim => exact policy.bounded trim htr
  rw [BundlePolicy.withPrivacyDropBps, dif_pos hbps]
  obtain ⟨_, _, _, trim, _, _⟩ := policy
  cases hno
  cases hth
  cases trim <;> rfl

theorem intoPolicy_ofPolicy (policy : BundlePolicy) :
    (ofPolicy policy).intoPolicy = .ok policy := by
  unfold intoPolicy ofPolicy BundlePolicy.newWithPlannerVersion
  rw [dif_pos policy.capacity]
  cases ht : policy.bundleAdditionThreshold with
  | none | some => exact with_trim_columns rfl rfl ht.symm

end PersistedBundlePolicyV1

/-- The external JSON library at the envelope of a persisted policy: the version and the
policy under it, which is read only if the version is known. -/
structure PolicyJson where
  encode : Nat → PersistedBundlePolicyV1 → String
  version : String → Except String Nat
  policy : String → Except String PersistedBundlePolicyV1
  version_encode : ∀ n persisted, version (encode n persisted) = .ok n
  policy_encode : ∀ n persisted, policy (encode n persisted) = .ok persisted

def encodeBundlePolicy (json : PolicyJson) (policy : BundlePolicy) : String :=
  json.encode bundlePolicySchemaVersion (.ofPolicy policy)

def decodeBundlePolicy (json : PolicyJson) (text : String) : Except String BundlePolicy := do
  let version ← (json.version text).mapError fun e => s!"invalid versioned policy: {e}"
  if version ≠ bundlePolicySchemaVersion then
    throw s!"unsupported schema version {version}"
  else
    let persisted ← (json.policy text).mapError fun e => s!"invalid version 1 policy: {e}"
    persisted.intoPolicy.mapError fun e => s!"invalid policy value: {e.toText}"

theorem decode_encode_bundlePolicy (json : PolicyJson) (policy : BundlePolicy) :
    decodeBundlePolicy json (encodeBundlePolicy json policy) = .ok policy := by
  unfold decodeBundlePolicy encodeBundlePolicy
  rw [json.version_encode, json.policy_encode]
  change (PersistedBundlePolicyV1.ofPolicy policy).intoPolicy.mapError _ = _
  rw [PersistedBundlePolicyV1.intoPolicy_ofPolicy]
  rfl

end ZcashVoting.NoteBundling
