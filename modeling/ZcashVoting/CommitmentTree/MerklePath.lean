import Mathlib
import ZcashVoting.CommitmentTree.Client
import ZcashVoting.CommitmentTree.Serde

/-!
# Merkle paths of the vote commitment tree

A path verifies a leaf of its tree, and no other leaf when the node hash is injective. The
walk reads 24 bits of the position, and the decoder takes all 32: a position past the
capacity of the tree stands for the slot that its low bits name.
-/
namespace ZcashVoting.CommitmentTree

open Bytes

structure MerklePath (H : Type) where
  position : Nat
  authPath : List H
  deriving DecidableEq

namespace MerklePath

variable {H : Type}

/-- `From` the path of `incrementalmerkletree` -/
def ofPath (path : Nat × List H) : MerklePath H := ⟨path.1 % 2 ^ 32, path.2⟩

def root (hash : VoteHash H) (path : MerklePath H) (leaf : H) : H :=
  Merkle.walk hash.poseidon path.position leaf path.authPath

def verify [DecidableEq H] (hash : VoteHash H) (path : MerklePath H) (leaf root : H) : Bool :=
  decide (path.root hash leaf = root)

def toBytes (nodeBytes : H → List UInt8) (path : MerklePath H) : List UInt8 :=
  leBytes 4 path.position ++ path.authPath.flatMap nodeBytes

def readNodes (readNode : List UInt8 → Option H) : Nat → List UInt8 → Option (List H)
  | 0, _ => some []
  | count + 1, bytes => do
    let node ← readNode (bytes.take 32)
    let rest ← readNodes readNode count (bytes.drop 32)
    return node :: rest

/-- Bytes past the path are not looked at. -/
def fromBytes (readNode : List UInt8 → Option H) (bytes : List UInt8) : Option (MerklePath H) :=
  if bytes.length < 4 + 32 * treeDepth then none
  else (readNodes readNode treeDepth (bytes.drop 4)).map fun nodes =>
    ⟨ofLeBytes (bytes.take 4), nodes⟩

/-- The path whose nodes lie beside the way from a slot to the root. -/
def along (hash : VoteHash H) (leaves : List H) (position : Nat) : MerklePath H :=
  .ofPath (position, Merkle.siblings hash.poseidon hash.emptyLeaf treeDepth leaves position)

variable {hash : VoteHash H} {nodeBytes : H → List UInt8} {readNode : List UInt8 → Option H}
  {leaves : List H} {position : Nat} {path : MerklePath H}

theorem length_of_readNodes {count : Nat} {bytes : List UInt8} {nodes : List H}
    (h : readNodes readNode count bytes = some nodes) : nodes.length = count := by
  induction count generalizing bytes nodes with
  | zero => rw [← Option.some.inj h, List.length_nil]
  | succ _ ih =>
    simp only [readNodes, Option.bind_eq_bind, Option.bind_eq_some_iff] at h
    obtain ⟨_, -, _, hre, h⟩ := h
    rw [← Option.some.inj h, List.length_cons, ih hre]

/-- The nodes are read back from the 32 bytes they are written to. -/
def Encoded (nodeBytes : H → List UInt8) (readNode : List UInt8 → Option H) (nodes : List H) :
    Prop :=
  ∀ node ∈ nodes, (nodeBytes node).length = 32 ∧ readNode (nodeBytes node) = some node

theorem readNodes_flatMap {nodes : List H} (h : Encoded nodeBytes readNode nodes) :
    readNodes readNode nodes.length (nodes.flatMap nodeBytes) = some nodes ∧
      (nodes.flatMap nodeBytes).length = 32 * nodes.length := by
  induction nodes with
  | nil => exact ⟨rfl, rfl⟩
  | cons node _ ih =>
    obtain ⟨⟨hl, hre⟩, hrest⟩ := List.forall_mem_cons.mp h
    obtain ⟨hread, hlen⟩ := ih hrest
    refine ⟨by simp [readNodes, List.take_left' hl, List.drop_left' hl, hre, hread], ?_⟩
    rw [List.flatMap_cons, List.length_append, hl, hlen, List.length_cons]
    omega

theorem fromBytes_toBytes_along
    (h : Encoded nodeBytes readNode (along hash leaves position).authPath) :
    fromBytes readNode ((along hash leaves position).toBytes nodeBytes) =
      some (along hash leaves position) := by
  have hle : (along hash leaves position).authPath.length = treeDepth := Merkle.length_siblings
  obtain ⟨hr, hb⟩ := readNodes_flatMap h
  rw [hle] at hr hb
  rw [fromBytes, toBytes, if_neg (by rw [List.length_append, length_leBytes, hb]; omega),
    List.drop_left' (length_leBytes 4 _), List.take_left' (length_leBytes 4 _), hr,
    ofLeBytes_leBytes]
  simp [along, ofPath]

theorem slot_eq (h : position < treeCapacity) :
    Merkle.slot hash.emptyLeaf treeDepth leaves position = leaves.getD position hash.emptyLeaf := by
  rw [Merkle.slot, Nat.mod_eq_of_lt (by exact h)]

theorem verify_along [DecidableEq H] (hpo : position < 2 ^ 32) :
    (along hash leaves position).verify hash (Merkle.slot hash.emptyLeaf treeDepth leaves position)
    (hash.root leaves) = true := by
  rw [verify, decide_eq_true_eq, root, along, ofPath, Nat.mod_eq_of_lt hpo]
  exact Merkle.walk_siblings

end MerklePath

def TreeClient.witness {S H ε : Type} (crate : ShardTreeCrate S H ε) (client : TreeClient S)
    (position anchorHeight : Nat) : Option (MerklePath H) :=
  (crate.witnessAtCheckpointId client.inner position anchorHeight).toOption.join.map .ofPath

namespace MerklePath

variable {S H ε : Type} {crate : ShardTreeCrate S H ε} {hash : VoteHash H}
  {StandsFor : S → Contents H → Prop} {client : TreeClient S} {contents : Contents H} {height : Nat}
  {leaves : List H} {nodeBytes : H → List UInt8} {readNode : List UInt8 → Option H}

theorem witness_along (laws : crate.Laws hash StandsFor) (htree : StandsFor client.inner contents)
    (hleaves : contents.leavesAt height = some leaves) {position : Nat} {path : MerklePath H}
    (h : client.witness crate position height = some path) :
    position < leaves.length ∧ path = along hash leaves position := by
  obtain ⟨raw, hraw, rfl⟩ := Option.map_eq_some_iff.mp h
  rcases hw : crate.witnessAtCheckpointId client.inner position height with _ | answer
  · rw [hw] at hraw
    cases hraw
  rw [hw] at hraw
  obtain rfl : answer = some raw := hraw
  obtain ⟨found, hf, hlt, rfl⟩ := laws.witness htree hw
  cases hleaves.symm.trans hf
  exact ⟨hlt, rfl⟩

/-- The path that a tree gives for a position verifies the leaf there, also when written and
read back. And a position that a decoded path can carry is accepted only for its own slot
exactly when it is inside the tree. -/
theorem paths_complete_and_sound [DecidableEq H] (laws : crate.Laws hash StandsFor)
    (htree : StandsFor client.inner contents) (hleaves : contents.leavesAt height = some leaves)
    (hinj : ∀ a b c d, hash.poseidon a b = hash.poseidon c d → a = c ∧ b = d) :
    (∀ position path, client.witness crate position height = some path →
      Encoded nodeBytes readNode path.authPath →
      fromBytes readNode (path.toBytes nodeBytes) = some path ∧ path.position = position ∧
        position < leaves.length ∧
        path.verify hash (leaves.getD position hash.emptyLeaf) (hash.root leaves) = true) ∧
    ∀ position < 2 ^ 32, Encoded nodeBytes readNode (along hash leaves position).authPath →
      ((∀ bytes path leaf, fromBytes readNode bytes = some path → path.position = position →
        path.verify hash leaf (hash.root leaves) = true →
          position < treeCapacity ∧ leaf = leaves.getD position hash.emptyLeaf) ↔
        position < treeCapacity) := by
  refine ⟨fun position path hpath henc => ?_, fun position hsmall henc => ⟨fun hsound => ?_,
    fun hp bytes path leaf hr hpos hve => ⟨hp, ?_⟩⟩⟩
  · obtain ⟨hlt, rfl⟩ := witness_along laws htree hleaves hpath
    have hcap : position < treeCapacity := by
      have hroom := laws.capacity htree
      unfold Contents.leavesAt at hleaves
      obtain ⟨_, -, rfl⟩ := Option.map_eq_some_iff.mp hleaves
      rw [List.length_take] at hlt
      omega
    have hsmall : position < 2 ^ 32 := Nat.lt_trans hcap (by decide)
    rw [← slot_eq hcap]
    exact ⟨fromBytes_toBytes_along henc, Nat.mod_eq_of_lt hsmall, hlt, verify_along hsmall⟩
  · exact (hsound _ _ _ (fromBytes_toBytes_along henc) (Nat.mod_eq_of_lt hsmall)
      (verify_along hsmall)).1
  · rw [fromBytes, Option.ite_none_left_eq_some, Option.map_eq_some_iff] at hr
    obtain ⟨-, _, hno, rfl⟩ := hr
    dsimp only at hpos
    rw [← slot_eq hp, ← hpos]
    exact Merkle.leaf_of_walk hinj (length_of_readNodes hno) (of_decide_eq_true hve)

/-- Two leaves, with the pairing of numbers for a hash: the path of the second verifies it,
and the first position past the tree is one that another slot answers to. -/
theorem paths_of_two_leaves :
    let hash : VoteHash Nat := ⟨Nat.pair, 0⟩
    let client : TreeClient (Contents Nat) := ⟨⟨[0, 1], [(5, 2)]⟩, 2, some 5, [1]⟩
    (∃ path, client.witness (listTree hash) 1 5 = some path ∧
      path.verify hash 1 (hash.root [0, 1]) = true) ∧
    ¬ ∀ bytes path leaf, fromBytes (fun bytes => some (ofLeBytes bytes)) bytes = some path →
      path.position = treeCapacity + 1 → path.verify hash leaf (hash.root [0, 1]) = true →
        treeCapacity + 1 < treeCapacity ∧ leaf = [0, 1].getD (treeCapacity + 1) 0 := by
  intro hash client
  have henc (position : Nat) (hn : ∀ node ∈ (along hash [0, 1] position).authPath, node < 2) :
      Encoded (leBytes 32) (fun bytes => some (ofLeBytes bytes))
        (along hash [0, 1] position).authPath := by
    refine fun node hmem => ⟨length_leBytes 32 node, ?_⟩
    show some (ofLeBytes (leBytes 32 node)) = some node
    rw [ofLeBytes_leBytes, Nat.mod_eq_of_lt ((hn node hmem).trans (by decide))]
  have hp := @paths_complete_and_sound _ _ _ (listTree hash) hash Kept client _ 5 [0, 1]
    (leBytes 32) (fun bytes => some (ofLeBytes bytes)) _ (listTree_inMemory hash).toLaws
    ⟨rfl, by decide⟩ rfl fun a b c d h => Nat.pair_eq_pair.mp h
  refine ⟨⟨_, rfl, (hp.1 1 _ rfl (henc 1 (by decide +kernel))).2.2.2⟩, fun hsound => ?_⟩
  exact absurd ((hp.2 _ (by decide) (henc _ (by decide +kernel))).mp hsound) (by decide)

/-- Whatever the hash, the first slot is also accepted under the position past the last. -/
theorem position_past_capacity_accepted : ∃ leaf : MerkleHashVote, leaf.val = 7 ∧
    ∀ hash : VoteHash MerkleHashVote, ∃ bytes path,
      fromBytes Serde.fromBytes bytes = some path ∧ path.position = treeCapacity ∧
      path.verify hash leaf (hash.root [leaf]) = true ∧
      ∃ bytes path, fromBytes Serde.fromBytes bytes = some path ∧ path.position = 0 ∧
        path.verify hash leaf (hash.root [leaf]) = true := by
  have henc (nodes : List MerkleHashVote) : Encoded Serde.toBytes Serde.fromBytes nodes :=
    fun node _ => ⟨length_leBytes 32 node.val, Serde.fromBytes_toBytes node⟩
  obtain ⟨leaf, hle⟩ : ∃ leaf : MerkleHashVote, leaf.val = 7 := ⟨⟨7, by decide⟩, rfl⟩
  refine ⟨leaf, hle, fun hash => ?_⟩
  exact ⟨_, along hash [leaf] treeCapacity, fromBytes_toBytes_along (henc _), rfl,
    verify_along (by decide),
    _, along hash [leaf] 0, fromBytes_toBytes_along (henc _), rfl, verify_along (by decide)⟩

end MerklePath

end ZcashVoting.CommitmentTree
