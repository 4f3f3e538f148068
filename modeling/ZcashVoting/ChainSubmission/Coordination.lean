import Mathlib
import ZcashVoting.ChainSubmission.Vocabulary
import ZcashVoting.Lib.Bytes
import ZcashVoting.Lib.LockTable

/-!
# Process-local coordination

A submission operation shares the gates of its account and its round, then locks its
bundle and the identities it may settle, in sorted order, and waits for each. A delegation
setup takes the first three and gives up when one is taken. Cleanup takes the gate of a
round or of an account exclusively, or gives up.

The registries are mutexes of their own, held for one look-up only. Nothing but the end of
another task can happen inside a look-up, and it might as well have happened before. A
poisoned registry fails the look-up, which drops the task.
-/
namespace ZcashVoting.Coordination

open ChainSubmission Locks Bytes List

/-! ### Keys -/

structure RoundOperationKey where
  walletId : String
  network : Nat
  voteRoundId : Bytes32
  deriving DecidableEq

structure BundleOperationKey where
  round : RoundOperationKey
  bundleIndex : Nat
  deriving DecidableEq

structure SubmissionOperationKey where
  bundle : BundleOperationKey
  targetKind : Nat
  targetValue : List UInt8
  deriving DecidableEq

def networkRank : Network → Nat
  | .mainnet => 0
  | .testnet => 1
  | .regtest => 2

def roundKey (identity : ChainSubmissionIdentity) : RoundOperationKey :=
  ⟨identity.walletId, networkRank identity.network, identity.voteRoundId⟩

def BundleOperationKey.fromIdentity (identity : ChainSubmissionIdentity) : BundleOperationKey :=
  ⟨roundKey identity, identity.bundleIndex⟩

/-- The kind of a target, and its value as bytes. -/
def targetKey : ChainSubmissionTarget → Nat × List UInt8
  | .delegation => (0, [])
  | .vote proposalId => (1, beBytes 4 proposalId)
  | .voteBatch digest => (2, digest.toList)
  | .delegateAndVoteBatch digest => (3, digest.toList)

def SubmissionOperationKey.fromIdentity (identity : ChainSubmissionIdentity) :
    SubmissionOperationKey :=
  ⟨.fromIdentity identity, (targetKey identity.target).1, (targetKey identity.target).2⟩

/-! ### The order of identity locks -/

/-- What the derived order compares, field by field. -/
def SubmissionOperationKey.fields (key : SubmissionOperationKey) :
    String ×ₗ Nat ×ₗ List Nat ×ₗ Nat ×ₗ Nat ×ₗ List Nat :=
  toLex (key.bundle.round.walletId, toLex (key.bundle.round.network,
    toLex (key.bundle.round.voteRoundId.toList.map UInt8.toNat, toLex (key.bundle.bundleIndex,
      toLex (key.targetKind, key.targetValue.map UInt8.toNat)))))

theorem map_toNat_injective {bytes bytes' : List UInt8}
    (h : bytes.map UInt8.toNat = bytes'.map UInt8.toNat) :
    bytes = bytes' :=
  map_injective_iff.mpr (fun _ _ => UInt8.toNat_inj.mp) h

theorem SubmissionOperationKey.fields_injective :
    Function.Injective SubmissionOperationKey.fields := by
  rintro ⟨⟨⟨_, _, _⟩, _⟩, _, _⟩ ⟨⟨⟨_, _, _⟩, _⟩, _, _⟩ h
  simp only [fields, EmbeddingLike.apply_eq_iff_eq, Prod.mk.injEq] at h
  obtain ⟨rfl, rfl, hro, rfl, rfl, hva⟩ := h
  rw [map_toNat_injective hva, Vector.toList_inj.mp (map_toNat_injective hro)]

instance : LinearOrder SubmissionOperationKey :=
  LinearOrder.lift' SubmissionOperationKey.fields SubmissionOperationKey.fields_injective

/-- The identities of an operation, sorted and each once. -/
def identityKeys (identity : ChainSubmissionIdentity) (applicable : List ChainSubmissionIdentity) :
    List SubmissionOperationKey :=
  ((applicable.map SubmissionOperationKey.fromIdentity ++ [SubmissionOperationKey.fromIdentity identity]).insertionSort
    (· ≤ ·)).destutter (· ≠ ·)

theorem identityKeys_increasing (identity : ChainSubmissionIdentity)
    (applicable : List ChainSubmissionIdentity) :
    (identityKeys identity applicable).Pairwise (· < ·) := by
  have hs := pairwise_insertionSort (· ≤ ·)
    (applicable.map SubmissionOperationKey.fromIdentity ++ [SubmissionOperationKey.fromIdentity identity])
  have hke := hs.sublist (destutter_sublist (· ≠ ·) _)
  have hdi : (identityKeys identity applicable).Nodup := by
    rw [identityKeys, hs.destutter_eq_dedup]
    exact nodup_dedup _
  exact hke.imp₂ (fun _ _ hle hne => lt_of_le_of_ne hle hne) hdi

/-! ### Leases -/

/-- A lock of one of the four registries. -/
inductive LockKey where
  | account (walletId : String)
  | round (key : RoundOperationKey)
  | bundle (key : BundleOperationKey)
  | identity (key : SubmissionOperationKey)
  deriving DecidableEq

/-- The registries in the order of the locks. -/
def LockKey.registry : LockKey → Nat
  | account _ => 0
  | round _ => 1
  | bundle _ => 2
  | identity _ => 3

/-- The locks of an operation; `true` is a lock taken exclusively. -/
def acquire (identity : ChainSubmissionIdentity) (applicable : List ChainSubmissionIdentity) :
    List (LockKey × Bool) :=
  [(.account identity.walletId, false), (.round (roundKey identity), false),
    (.bundle (.fromIdentity identity), true)] ++
    (identityKeys identity applicable).map fun key => (.identity key, true)

def tryAcquireDelegationSetup (identity : ChainSubmissionIdentity) : List (LockKey × Bool) :=
  [(.account identity.walletId, false), (.round (roundKey identity), false),
    (.bundle (.fromIdentity identity), true)]

def tryAcquireRoundExclusive (identity : ChainSubmissionIdentity) : List (LockKey × Bool) :=
  [(.round (roundKey identity), true)]

def tryAcquireAccountExclusive (walletId : String) :
    List (LockKey × Bool) := [(.account walletId, true)]

inductive LeaseRequest where
  | operation (identity : ChainSubmissionIdentity) (applicable : List ChainSubmissionIdentity)
  | delegationSetup (identity : ChainSubmissionIdentity)
  | roundExclusive (identity : ChainSubmissionIdentity)
  | accountExclusive (walletId : String)

def LeaseRequest.locks : LeaseRequest → List (LockKey × Bool)
  | operation identity applicable => acquire identity applicable
  | delegationSetup identity => tryAcquireDelegationSetup identity
  | roundExclusive identity => tryAcquireRoundExclusive identity
  | accountExclusive walletId => tryAcquireAccountExclusive walletId

/-- Only an operation waits. -/
def LeaseRequest.waits : LeaseRequest → Bool
  | operation _ _ => true
  | _ => false

def submissionCoordination : Discipline LeaseRequest LockKey where
  plan := LeaseRequest.locks
  waits := LeaseRequest.waits
  registryOf := LockKey.registry

/-- The identity a lease works for: an operation or a delegation setup. -/
def LeaseRequest.worksFor : LeaseRequest → Option ChainSubmissionIdentity
  | operation identity _ => some identity
  | delegationSetup identity => some identity
  | _ => none

/-- The order in which locks are taken: by registry, identities among themselves by key. -/
def LockKey.rank : LockKey → Nat ×ₗ WithBot SubmissionOperationKey
  | account _ => toLex (0, ⊥)
  | round _ => toLex (1, ⊥)
  | bundle _ => toLex (2, ⊥)
  | identity key => toLex (3, key)

theorem identity_rank_lt {key key' : SubmissionOperationKey} (h : key < key') :
    (LockKey.identity key).rank < (LockKey.identity key').rank := by
  rw [LockKey.rank, LockKey.rank, Prod.Lex.toLex_lt_toLex]
  exact .inr ⟨rfl, WithBot.coe_lt_coe.mpr h⟩

theorem locks_increasing (request : LeaseRequest) :
    (request.locks.map Prod.fst).Pairwise (LockKey.rank · < LockKey.rank ·) := by
  have hl (wallet : String) (round : RoundOperationKey) (bundle : BundleOperationKey) :
      [LockKey.account wallet, .round round, .bundle bundle].Pairwise
        (LockKey.rank · < LockKey.rank ·) := by
    simp [LockKey.rank, Prod.Lex.toLex_lt_toLex]
  cases request with
  | operation identity applicable =>
    rw [LeaseRequest.locks, acquire, map_append, map_map, pairwise_append]
    refine ⟨hl _ _ _, ?_, ?_⟩
    · rw [pairwise_map]
      exact (identityKeys_increasing identity applicable).imp identity_rank_lt
    intro key hkey key' hkey'
    obtain ⟨_, -, rfl⟩ := mem_map.mp hkey'
    simp only [map_cons, map_nil, mem_cons, not_mem_nil, or_false] at hkey
    rcases hkey with rfl | rfl | rfl <;> exact Prod.Lex.toLex_lt_toLex.mpr (.inl (by simp))
  | delegationSetup => exact hl _ _ _
  | roundExclusive | accountExclusive => exact pairwise_singleton _ _

/-! ### Safety -/

/-- What coordination guarantees at any time. -/
structure Coordinated (t : Table LeaseRequest LockKey) : Prop where
  acyclic : ∀ i, ¬ Relation.TransGen t.WaitsFor i i
  oneLock : ∀ {i j key lock lock'}, t.Refers i key lock → t.Refers j key lock' → lock = lock'
  /-- An exclusive holder is alone, in whatever state of its request it and the others are. -/
  alone : ∀ {i j key exclusive}, t.Holds i key true → t.Holds j key exclusive → i = j
  bundle : ∀ {i j request request' identity identity'}, t.Leased i request → t.Leased j request' →
    request.worksFor = some identity → request'.worksFor = some identity' →
    BundleOperationKey.fromIdentity identity = .fromIdentity identity' → i = j
  round : ∀ {i j request identity identity'}, t.Leased i (.roundExclusive identity) →
    t.Leased j request →
    request.worksFor = some identity' → roundKey identity ≠ roundKey identity'
  account : ∀ {i j request walletId identity}, t.Leased i (.accountExclusive walletId) →
    t.Leased j request →
    request.worksFor = some identity → walletId ≠ identity.walletId

/-- The first three locks of an operation or a setup. -/
theorem locks_of_worksFor {request : LeaseRequest} {identity : ChainSubmissionIdentity}
    (h : request.worksFor = some identity) :
    (LockKey.account identity.walletId, false) ∈ request.locks ∧
      (LockKey.round (roundKey identity), false) ∈ request.locks ∧
      (LockKey.bundle (.fromIdentity identity), true) ∈ request.locks := by
  cases request with
  | operation =>
    cases h
    simp [LeaseRequest.locks, acquire]
  | delegationSetup =>
    cases h
    simp [LeaseRequest.locks, tryAcquireDelegationSetup]
  | roundExclusive | accountExclusive => cases h

/-- Operations, setups and exclusive leases in any number and any interleaving, with tasks
dropped at any point. -/
theorem run_coordinated {actions : List (Action LeaseRequest)} {t : Table LeaseRequest LockKey}
    (h : Table.run submissionCoordination actions = some t) : Coordinated t := by
  have hv := valid_of_run h
  have ha {i j : Nat} {key : LockKey} {exclusive : Bool} (hi : t.Holds i key true)
      (hj : t.Holds j key exclusive) : i = j := by
    by_contra hne
    exact absurd (hv.shared hi hj hne).1 (by decide)
  -- an exclusive lease and one that shares the lock are two tasks
  have he {i j : Nat} {request request' : LeaseRequest} {key : LockKey} (hi : t.Leased i request)
      (hj : t.Leased j request') (hl : (key, true) ∈ request.locks)
        (hlo' : (key, false) ∈ request'.locks) :
      i = j :=
    ha (hv.holds_of_leased hi hl) (hv.holds_of_leased hj hlo')
  have hs {i : Nat} {request request' : LeaseRequest} (hi : t.Leased i request)
    (hi' : t.Leased i request') :
      request = request' := by
    obtain ⟨_, hst, rfl, -⟩ := hi
    obtain ⟨_, hst', rfl, -⟩ := hi'
    rw [Option.some.inj (hst.symm.trans hst')]
  constructor
  case acyclic => exact hv.acyclic locks_increasing
  case oneLock => exact fun hi hj => hv.one_lock hi hj
  case alone => exact ha
  case bundle =>
    intro i j request request' identity identity' hi hj hw hwo' hbu
    have hh := hv.holds_of_leased hi (locks_of_worksFor hw).2.2
    rw [hbu] at hh
    exact ha hh (hv.holds_of_leased hj (locks_of_worksFor hwo').2.2)
  case round =>
    intro i j request identity identity' hi hj hw hro
    have hl := (locks_of_worksFor hw).2.1
    rw [← hro] at hl
    obtain rfl := he hi hj (mem_singleton.mpr rfl) hl
    obtain rfl := hs hi hj
    cases hw
  case account =>
    intro i j request walletId identity hi hj hw hac
    have hl := (locks_of_worksFor hw).1
    rw [← hac] at hl
    obtain rfl := he hi hj (mem_singleton.mpr rfl) hl
    obtain rfl := hs hi hj
    cases hw

section

/-- A vote of the first bundle. -/
def sampleIdentity (proposalId : Nat) : ChainSubmissionIdentity :=
  ⟨"wallet", .testnet, Vector.replicate 32 1, 0, .vote proposalId⟩

/-- A task takes its next lock. -/
def takes (id : Nat) : List (Action LeaseRequest) := [.lookUp id, .enqueue id, .grant id]

/-- The first operation has all its locks, the second waits for the bundle, and the
deletion of the round has given up. -/
def contended : List (Action LeaseRequest) :=
  [.spawn 1 (.operation (sampleIdentity 1) [])] ++ takes 1 ++ takes 1 ++ takes 1 ++ takes 1 ++
    [.spawn 2 (.operation (sampleIdentity 2) [])] ++ takes 2 ++ takes 2 ++
      [.lookUp 2, .enqueue 2] ++
    [.spawn 3 (.roundExclusive (sampleIdentity 1)), .lookUp 3, .attempt 3]

theorem contended_some : (Table.run submissionCoordination contended).isSome := by decide +kernel

theorem run_coordinated_contended : ∃ t, Table.run submissionCoordination contended = some t ∧
      (t.tasks.get? 2).map (fun task => task.phase.pending.map Guard.key) =
        some [.bundle (.fromIdentity (sampleIdentity 2))] ∧ Coordinated t := by
  obtain ⟨t, ht⟩ := Option.isSome_iff_exists.mp contended_some
  have hs : ((Table.run submissionCoordination contended).bind fun t => t.tasks.get? 2).map
      (fun task => task.phase.pending.map Guard.key) =
        some [.bundle (.fromIdentity (sampleIdentity 2))] := by
    decide +kernel
  rw [ht] at hs
  exact ⟨t, ht, hs, run_coordinated ht⟩

end

end ZcashVoting.Coordination
