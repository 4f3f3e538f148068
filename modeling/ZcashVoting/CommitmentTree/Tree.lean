import ZcashVoting.Lib.Merkle

/-!
# The vote commitment tree

Leaves and nodes are field elements under one two-to-one hash. The crates that keep the
trees are not part of the library. What it calls of them is a parameter, and what it
relies on is stated as laws over the list of leaves that a tree stands for.
-/
namespace ZcashVoting.CommitmentTree

open List

def treeDepth : Nat := 24

def treeCapacity : Nat := 2 ^ treeDepth

/-- The order of the field of leaves and nodes. -/
def fpModulus : Nat := 0x40000000000000000000000000000000224698fc094cf91b992d30ed00000001

/-- `MerkleHashVote` with the hash it combines nodes by. -/
structure VoteHash (H : Type) where
  poseidon : H → H → H
  zero : H

variable {H : Type}

def VoteHash.emptyLeaf (hash : VoteHash H) : H := hash.poseidon hash.zero hash.zero

def VoteHash.emptyRoot (hash : VoteHash H) : H :=
  Merkle.emptyRoot hash.poseidon hash.emptyLeaf treeDepth

def VoteHash.root (hash : VoteHash H) (leaves : List H) : H :=
  Merkle.root hash.poseidon hash.emptyLeaf treeDepth leaves

/-! ### Frontiers -/

/-- What the library calls of `incrementalmerkletree`: an append-only frontier. -/
structure FrontierCrate (F H : Type) where
  empty : F
  append : F → H → Option F
  root : F → H

/-- What the library relies on: `StandsFor frontier leaves` is what the crate keeps true
of a frontier of the tree's depth and the leaves it was given. -/
structure FrontierCrate.Laws {F : Type} (crate : FrontierCrate F H) (hash : VoteHash H)
    (StandsFor : F → List H → Prop) : Prop where
  empty : StandsFor crate.empty []
  append_some : ∀ {frontier next leaves leaf}, StandsFor frontier leaves →
    crate.append frontier leaf = some next →
      leaves.length < treeCapacity ∧ StandsFor next (leaves ++ [leaf])
  append_none : ∀ {frontier leaves leaf}, StandsFor frontier leaves →
    crate.append frontier leaf = none → ¬ leaves.length < treeCapacity
  root : ∀ {frontier leaves}, StandsFor frontier leaves → crate.root frontier = hash.root leaves

/-- The frontier that keeps its leaves. -/
def listFrontier (hash : VoteHash H) : FrontierCrate (List H) H where
  empty := []
  append leaves leaf := if leaves.length < treeCapacity then some (leaves ++ [leaf]) else none
  root := hash.root

theorem listFrontier_laws (hash : VoteHash H) : (listFrontier hash).Laws hash Eq where
  empty := rfl
  append_some hs h := by
    subst hs
    obtain ⟨hlt, heq⟩ := Option.ite_none_right_eq_some.mp h
    exact ⟨hlt, (Option.some.inj heq).symm⟩
  append_none hs h hlt := by
    subst hs
    cases (if_pos hlt).symm.trans h
  root hs := congrArg hash.root hs

/-! ### Shard trees -/

def maxCheckpoints : Nat := 1000

/-- What a shard tree stands for: the appended leaves and, for each retained checkpoint
id, how many leaves there were. -/
structure Contents (H : Type) where
  leaves : List H
  checkpoints : List (Nat × Nat)
  deriving DecidableEq

namespace Contents

def append (contents : Contents H) (leaf : H) : Contents H :=
  { contents with leaves := contents.leaves ++ [leaf] }

/-- An id that is not above every retained one is passed over; the oldest checkpoints
are dropped. -/
def checkpoint (contents : Contents H) (id : Nat) : Contents H :=
  if contents.checkpoints.any fun entry => decide (id ≤ entry.1) then contents
  else
    let checkpoints := contents.checkpoints ++ [(id, contents.leaves.length)]
    { contents with checkpoints := checkpoints.drop (checkpoints.length - maxCheckpoints) }

/-- The leaves up to a checkpoint. -/
def leavesAt (contents : Contents H) (id : Nat) : Option (List H) :=
  (contents.checkpoints.find? fun entry => decide (entry.1 = id)).map fun entry =>
    contents.leaves.take entry.2

/-- The newest checkpoint is `id` and covers every leaf. -/
structure Covered (contents : Contents H) (id : Nat) : Prop where
  newest : ∃ older, contents.checkpoints = older ++ [(id, contents.leaves.length)] ∧
    ∀ entry ∈ older, entry.1 < id

variable {contents : Contents H} {id : Nat}

@[simp] theorem leaves_checkpoint : (contents.checkpoint id).leaves = contents.leaves := by
  unfold checkpoint
  split <;> rfl

theorem covered_checkpoint (h : ∀ entry ∈ contents.checkpoints, entry.1 < id) :
    (contents.checkpoint id).Covered id := by
  have hnew : ¬ contents.checkpoints.any (fun entry => decide (id ≤ entry.1)) = true := by
    rw [any_eq_true]
    rintro ⟨entry, he, hle⟩
    exact absurd (h entry he) (Nat.not_lt.mpr (of_decide_eq_true hle))
  rw [checkpoint, if_neg hnew]
  refine ⟨contents.checkpoints.drop (contents.checkpoints.length + 1 - maxCheckpoints), ?_,
    fun entry he => h entry (mem_of_mem_drop he)⟩
  have hle : contents.checkpoints.length + 1 - maxCheckpoints ≤ contents.checkpoints.length := by
    unfold maxCheckpoints
    omega
  simp only [length_append, length_singleton]
  rw [drop_append_of_le_length hle]

theorem Covered.leavesAt (h : contents.Covered id) :
    contents.leavesAt id = some contents.leaves := by
  obtain ⟨older, heq, holder⟩ := h.newest
  have hfi : contents.checkpoints.find? (fun entry => decide (entry.1 = id)) =
      some (id, contents.leaves.length) := by
    rw [heq, List.find?_append]
    have hno : older.find? (fun entry => decide (entry.1 = id)) = none :=
      List.find?_eq_none.mpr fun entry hen => by
        simpa using Nat.ne_of_lt (holder entry hen)
    rw [hno]
    simp
  rw [Contents.leavesAt, hfi, Option.map_some, take_length]

end Contents

inductive Retention where
  | ephemeral
  | marked
  deriving DecidableEq

/-- What the library calls of `shardtree`, over the states `S` of a tree's store; the
crate keeps nothing beside it. `ε` is what the crate fails with. -/
structure ShardTreeCrate (S H ε : Type) where
  empty : S
  append : S → H → Retention → Except ε Unit × S
  checkpoint : S → Nat → Except ε Unit × S
  rootAtCheckpointId : S → Nat → Except ε (Option H)
  /-- the position and the sibling hashes from the leaf to the root -/
  witnessAtCheckpointId : S → (position id : Nat) → Except ε (Option (Nat × List H))

namespace ShardTreeCrate

variable {S ε : Type}

/-- What the library relies on, for what a tree stands for. A store may fail to write, and
then keeps that; it is read without failure. -/
structure Laws (crate : ShardTreeCrate S H ε) (hash : VoteHash H)
    (StandsFor : S → Contents H → Prop) : Prop where
  empty : StandsFor crate.empty ⟨[], []⟩
  capacity : ∀ {s contents}, StandsFor s contents → contents.leaves.length ≤ treeCapacity
  append_ok : ∀ {s s' contents leaf retention}, StandsFor s contents →
    crate.append s leaf retention = (.ok (), s') →
      contents.leaves.length < treeCapacity ∧ StandsFor s' (contents.append leaf)
  append_error : ∀ {s s' contents leaf retention e}, StandsFor s contents →
    crate.append s leaf retention = (.error e, s') → StandsFor s' contents
  checkpoint_ok : ∀ {s s' contents id}, StandsFor s contents →
    crate.checkpoint s id = (.ok (), s') → StandsFor s' (contents.checkpoint id)
  checkpoint_error : ∀ {s s' contents id e}, StandsFor s contents →
    crate.checkpoint s id = (.error e, s') → StandsFor s' contents
  root : ∀ {s contents} id, StandsFor s contents →
    crate.rootAtCheckpointId s id = .ok ((contents.leavesAt id).map hash.root)
  witness : ∀ {s contents position id path}, StandsFor s contents →
    crate.witnessAtCheckpointId s position id = .ok (some path) →
      ∃ leaves, contents.leavesAt id = some leaves ∧ position < leaves.length ∧
        path = (position, Merkle.siblings hash.poseidon hash.emptyLeaf treeDepth leaves position)

/-- A store in memory does not fail: a leaf is refused only by a full tree. -/
structure InMemory (crate : ShardTreeCrate S H ε) (hash : VoteHash H)
    (StandsFor : S → Contents H → Prop) : Prop extends crate.Laws hash StandsFor where
  append_full : ∀ {s s' contents leaf retention e}, StandsFor s contents →
    crate.append s leaf retention = (.error e, s') → ¬ contents.leaves.length < treeCapacity
  checkpoint_total : ∀ {s s' id e}, crate.checkpoint s id ≠ (.error e, s')

end ShardTreeCrate

/-- The tree that keeps what it stands for. -/
def listTree (hash : VoteHash H) : ShardTreeCrate (Contents H) H Unit where
  empty := ⟨[], []⟩
  append contents leaf _ :=
    if contents.leaves.length < treeCapacity then (.ok (), contents.append leaf)
    else (.error (), contents)
  checkpoint contents id := (.ok (), contents.checkpoint id)
  rootAtCheckpointId contents id := .ok ((contents.leavesAt id).map hash.root)
  witnessAtCheckpointId contents position id := .ok ((contents.leavesAt id).bind fun leaves =>
    if position < leaves.length then
      some (position, Merkle.siblings hash.poseidon hash.emptyLeaf treeDepth leaves position)
    else none)

theorem listTree_append_ok {hash : VoteHash H} {contents next : Contents H} {leaf : H}
    {retention : Retention} : (listTree hash).append contents leaf retention = (.ok (), next) ↔
      contents.leaves.length < treeCapacity ∧ next = contents.append leaf := by
  unfold listTree
  dsimp only
  split <;> simp_all [eq_comm]

theorem listTree_append_error {hash : VoteHash H} {contents next : Contents H} {leaf : H}
    {retention : Retention} {e : Unit} :
    (listTree hash).append contents leaf retention = (.error e, next) ↔
      ¬ contents.leaves.length < treeCapacity ∧ next = contents := by
  unfold listTree
  dsimp only
  split <;> simp_all [eq_comm]

/-- Contents stand for themselves. -/
def Kept (kept contents : Contents H) : Prop :=
  kept = contents ∧ contents.leaves.length ≤ treeCapacity

theorem listTree_inMemory (hash : VoteHash H) : (listTree hash).InMemory hash Kept where
  empty := ⟨rfl, Nat.zero_le _⟩
  capacity hs := hs.2
  append_ok hs h := by
    obtain ⟨hlt, rfl⟩ := listTree_append_ok.mp h
    rw [← hs.1]
    exact ⟨hlt, rfl, by simpa [Contents.append] using hlt⟩
  append_error hs h := ⟨(listTree_append_error.mp h).2.trans hs.1, hs.2⟩
  checkpoint_ok hs h := ⟨hs.1 ▸ (Prod.mk.inj h).2.symm, by simpa using hs.2⟩
  checkpoint_error _ h := nomatch (Prod.mk.inj h).1
  root _ hs := hs.1 ▸ rfl
  witness hs h := by
    obtain ⟨rfl, -⟩ := hs
    obtain ⟨leaves, hl, h⟩ := Option.bind_eq_some_iff.mp (Except.ok.inj h)
    obtain ⟨hlt, heq⟩ := Option.ite_none_right_eq_some.mp h
    exact ⟨leaves, hl, hlt, (Option.some.inj heq).symm⟩
  append_full hs h := hs.1 ▸ (listTree_append_error.mp h).1
  checkpoint_total h := nomatch (Prod.mk.inj h).1

end ZcashVoting.CommitmentTree
