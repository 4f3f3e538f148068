import ZcashVoting.CommitmentTree.Tree
import ZcashVoting.Lib.OrderedMap
import ZcashVoting.Lib.Reader

/-!
# Binary forms of shards and checkpoints

Shards are written as tagged nodes in preorder behind a version byte, checkpoints as an
optional position and a counted list of marks. What is written is read back, and no strict
prefix of it is accepted.
-/
namespace ZcashVoting.CommitmentTree

open List

abbrev MerkleHashVote := Fin fpModulus

/-- The retention flags `CHECKPOINT`, `MARKED` and `REFERENCE` of a leaf. -/
abbrev RetentionFlags := Fin 8

abbrev Position := UInt64

inductive PrunableTree where
  | parent (ann : Option MerkleHashVote) (left right : PrunableTree)
  | leaf (hash : MerkleHashVote) (flags : RetentionFlags)
  | nil
  deriving DecidableEq

abbrev OrderedSet (κ : Type) [LT κ] := OrderedMap κ Unit

/-- A checkpoint: the position of the last leaf, none for an empty tree, and the marks
removed since the previous one. -/
structure Checkpoint where
  position : Option Position
  marksRemoved : OrderedSet Position

inductive ReadError where
  | unexpectedEof
  | invalidData (message : String)
  deriving DecidableEq

namespace Serde

open Reader Bytes

def shardSerVersion : UInt8 := 1
def nodeNil : UInt8 := 0
def nodeLeaf : UInt8 := 1
def nodeParent : UInt8 := 2

def toBytes (hash : MerkleHashVote) : List UInt8 := leBytes 32 hash.val

/-- Refused for an encoding that is not canonical. -/
def fromBytes (bytes : List UInt8) : Option MerkleHashVote :=
  if h : ofLeBytes bytes < fpModulus then some ⟨ofLeBytes bytes, h⟩ else none

def RetentionFlags.bits (flags : RetentionFlags) : UInt8 := .ofNat flags.val

def RetentionFlags.fromBitsTruncate (bits : UInt8) :
    RetentionFlags := ⟨bits.toNat % 8, Nat.mod_lt _ (by decide)⟩

def writeAnn : Option MerkleHashVote → List UInt8
  | none => [0]
  | some hash => 1 :: toBytes hash

def writeNode : PrunableTree → List UInt8
  | .parent ann left right => nodeParent :: (writeAnn ann ++ (writeNode left ++ writeNode right))
  | .leaf hash flags => nodeLeaf :: (toBytes hash ++ [RetentionFlags.bits flags])
  | .nil => [nodeNil]

def writeShardVote (tree : PrunableTree) : List UInt8 := shardSerVersion :: writeNode tree

def readByte : Reader ReadError UInt8 := fun input =>
  match input with
  | [] => .error .unexpectedEof
  | byte :: rest => .ok (byte, rest)

def readHash : Reader ReadError MerkleHashVote := do
  let bytes ← readExact .unexpectedEof 32
  match fromBytes bytes with
  | some hash => pure hash
  | none => throw (.invalidData "invalid MerkleHashVote")

def readAnn : Reader ReadError (Option MerkleHashVote) := do
  let annFlag ← readByte
  if annFlag = 1 then some <$> readHash else pure none

/-- Every node takes a byte, so a budget of the input's length is never spent before the
input is. -/
def readNode : (budget : Nat) → Reader ReadError PrunableTree
  | 0 => throw .unexpectedEof
  | budget + 1 => do
    let tag ← readByte
    if tag = nodeNil then pure .nil
    else if tag = nodeLeaf then do
      let hash ← readHash
      let flag ← readByte
      pure (.leaf hash (RetentionFlags.fromBitsTruncate flag))
    else if tag = nodeParent then do
      let ann ← readAnn
      let left ← readNode budget
      let right ← readNode budget
      pure (.parent ann left right)
    else throw (.invalidData s!"unknown node tag: {tag.toNat}")

def readVersion : Reader ReadError Unit := do
  let version ← readByte
  if version = shardSerVersion then pure ()
  else throw (.invalidData s!"unknown shard version: {version.toNat}")

/-- What follows the tree is not looked at. -/
def readShardVote (data : List UInt8) : Except ReadError PrunableTree :=
  ((do readVersion; readNode data.length) : Reader ReadError PrunableTree).run' data

def writePosition (position : Position) : List UInt8 := leBytes 8 position.toNat

def writeTreeState : Option Position → List UInt8
  | none => [0]
  | some position => 1 :: writePosition position

/-- The number of marks is cut to 32 bits. -/
def writeCheckpoint (cp : Checkpoint) : List UInt8 := writeTreeState cp.position ++
    (leBytes 4 cp.marksRemoved.keys.length ++ cp.marksRemoved.keys.flatMap writePosition)

def readPosition : Reader ReadError Position := do
  let bytes ← readExact .unexpectedEof 8
  pure (.ofNat (ofLeBytes bytes))

def readTreeState : Reader ReadError (Option Position) := do
  let flag ← readByte
  if flag = 0 then pure none else some <$> readPosition

def readMarks : (count : Nat) → OrderedSet Position → Reader ReadError (OrderedSet Position)
  | 0, marks => pure marks
  | count + 1, marks => do
    let mark ← readPosition
    readMarks count (marks.insert mark ())

def readCount : Reader ReadError Nat := ofLeBytes <$> readExact .unexpectedEof 4

def checkpointReader : Reader ReadError Checkpoint := do
  let position ← readTreeState
  let count ← readCount
  let marks ← readMarks count .empty
  pure ⟨position, marks⟩

def readCheckpoint (data : List UInt8) : Except ReadError Checkpoint := checkpointReader.run' data

/-! ### Round trips -/

theorem fromBytes_toBytes (hash : MerkleHashVote) : fromBytes (toBytes hash) = some hash := by
  have hre : ofLeBytes (leBytes 32 hash.val) = hash.val := by
    rw [ofLeBytes_leBytes]
    exact Nat.mod_eq_of_lt (hash.isLt.trans (by decide))
  simp only [fromBytes, toBytes, hre, hash.isLt, dif_pos]

theorem fromBitsTruncate_bits (flags : RetentionFlags) :
    RetentionFlags.fromBitsTruncate (RetentionFlags.bits flags) = flags := by
  revert flags
  decide

theorem reads_readByte (byte : UInt8) : Reads readByte [byte] byte := fun _ => rfl

theorem reads_readHash (hash : MerkleHashVote) : Reads readHash (toBytes hash) hash := by
  have hby := reads_readExact_of_length ReadError.unexpectedEof (length_leBytes 32 hash.val)
  refine hby.bind ?_
  have hha : fromBytes (leBytes 32 hash.val) = some hash := fromBytes_toBytes hash
  rw [hha]
  exact reads_pure hash

theorem reads_readAnn (ann : Option MerkleHashVote) : Reads readAnn (writeAnn ann) ann := by
  cases ann with
  | none => exact (reads_readByte 0).bind (reads_pure none)
  | some hash => exact (reads_readByte 1).bind ((reads_readHash hash).map some)

theorem length_writeNode_pos (tree : PrunableTree) : 0 < (writeNode tree).length := by
  cases tree <;> simp [writeNode]

theorem reads_readNode (tree : PrunableTree) {budget : Nat} (h : (writeNode tree).length ≤ budget) :
    Reads (readNode budget) (writeNode tree) tree := by
  induction tree generalizing budget with
  | nil =>
    obtain ⟨budget, rfl⟩ : ∃ n, budget = n + 1 :=
      ⟨budget - 1, by have := length_writeNode_pos .nil; omega⟩
    exact (reads_readByte nodeNil).bind (reads_pure PrunableTree.nil)
  | leaf hash flags =>
    obtain ⟨budget, rfl⟩ : ∃ n, budget = n + 1 :=
      ⟨budget - 1, by have := length_writeNode_pos (.leaf hash flags); omega⟩
    refine (reads_readByte nodeLeaf).bind ?_
    refine (reads_readHash hash).bind ?_
    have hfl := (reads_readByte (RetentionFlags.bits flags)).bind_pure fun flag =>
      PrunableTree.leaf hash (RetentionFlags.fromBitsTruncate flag)
    rwa [fromBitsTruncate_bits] at hfl
  | parent ann left right ihleft ihright =>
    obtain ⟨budget, rfl⟩ : ∃ n, budget = n + 1 :=
      ⟨budget - 1, by have := length_writeNode_pos (.parent ann left right); omega⟩
    simp only [writeNode, length_cons, length_append] at h
    refine (reads_readByte nodeParent).bind ?_
    refine (reads_readAnn ann).bind ((ihleft (by omega)).bind ?_)
    exact (ihright (by omega)).bind_pure fun right => PrunableTree.parent ann left right

/-- `read_shard_vote` on the cursor. -/
def shardReader (data : List UInt8) : Except ReadError (PrunableTree × List UInt8) :=
  ((do readVersion; readNode data.length) : Reader ReadError PrunableTree) data

theorem shardReader_writeShardVote (tree : PrunableTree) (rest : List UInt8) :
    shardReader (writeShardVote tree ++ rest) = .ok (tree, rest) := by
  have hve : Reads readVersion [shardSerVersion] () :=
    (reads_readByte shardSerVersion).bind (reads_pure ())
  have hno : Reads (readNode (writeShardVote tree ++ rest).length) (writeNode tree) tree :=
    reads_readNode tree (by simp only [writeShardVote, length_cons, length_append]; omega)
  exact hve.bind hno rest

theorem readShardVote_writeShardVote (tree : PrunableTree) :
    readShardVote (writeShardVote tree) = .ok tree := by
  have hr := shardReader_writeShardVote tree []
  rw [append_nil] at hr
  change (fun read => read.1) <$> shardReader (writeShardVote tree) = _
  rw [hr]
  rfl

theorem reads_readPosition (position : Position) :
    Reads readPosition (writePosition position) position := by
  have hby :=
    (reads_readExact_of_length ReadError.unexpectedEof (length_leBytes 8 position.toNat)).bind_pure
    fun bytes => (UInt64.ofNat (ofLeBytes bytes) : Position)
  have hva : UInt64.ofNat (ofLeBytes (leBytes 8 position.toNat)) = position := by
    rw [ofLeBytes_leBytes, Nat.mod_eq_of_lt (show position.toNat < 256 ^ 8 from position.toNat_lt),
      UInt64.ofNat_toNat]
  rwa [hva] at hby

theorem reads_readTreeState (position : Option Position) :
    Reads readTreeState (writeTreeState position) position := by
  cases position with
  | none => exact (reads_readByte 0).bind (reads_pure none)
  | some position => exact (reads_readByte 1).bind ((reads_readPosition position).map some)

theorem reads_readMarks (keys : List Position) (marks : OrderedSet Position) :
    Reads (readMarks keys.length marks) (keys.flatMap writePosition)
      (keys.foldl (fun read key => read.insert key ()) marks) := by
  induction keys generalizing marks with
  | nil => exact reads_pure marks
  | cons key _ ih => exact (reads_readPosition key).bind (ih (marks.insert key ()))

theorem reads_checkpointReader (cp : Checkpoint) (h : cp.marksRemoved.keys.length < 2 ^ 32) :
    Reads checkpointReader (writeCheckpoint cp) cp := by
  have hco :
      Reads readCount (leBytes 4 cp.marksRemoved.keys.length) cp.marksRemoved.keys.length := by
    have hby := (reads_readExact_of_length ReadError.unexpectedEof
      (length_leBytes 4 cp.marksRemoved.keys.length)).map ofLeBytes
    rwa [ofLeBytes_leBytes, Nat.mod_eq_of_lt (show _ < 256 ^ 4 from h)] at hby
  have hm := reads_readMarks cp.marksRemoved.keys .empty
  have hsa : cp.marksRemoved.keys.foldl (fun read key =>
      read.insert key ()) .empty = cp.marksRemoved := by
    rw [OrderedMap.keys, foldl_map]
    exact OrderedMap.foldl_insert_entries cp.marksRemoved
  rw [hsa] at hm
  exact (reads_readTreeState cp.position).bind (hco.bind
    (hm.bind_pure fun marks => (⟨cp.position, marks⟩ : Checkpoint)))

theorem readCheckpoint_writeCheckpoint (cp : Checkpoint)
    (h : cp.marksRemoved.keys.length < 2 ^ 32) :
    readCheckpoint (writeCheckpoint cp) = .ok cp := (reads_checkpointReader cp h).run'

/-! ### Truncated blobs -/

theorem extends_readByte : Extends readByte readByte := by
  intro input value rest suffix h
  cases input with
  | nil => cases h
  | cons =>
    cases h
    rfl

theorem extends_readHash : Extends readHash readHash := by
  refine (extends_readExact _ 32).bind fun bytes => ?_
  cases fromBytes bytes with
  | none => exact extends_throw _
  | some hash => exact extends_pure hash

theorem extends_readPosition : Extends readPosition readPosition :=
  (extends_readExact _ 8).bind fun _ => extends_pure _

theorem extends_readNode {budget more : Nat} (h : budget ≤ more) :
    Extends (readNode budget) (readNode more) := by
  induction budget generalizing more with
  | zero => exact extends_throw _
  | succ budget ih =>
    obtain ⟨more, rfl⟩ : ∃ n, more = n + 1 := ⟨more - 1, by omega⟩
    have hc : Extends (readNode budget) (readNode more) := ih (by omega)
    refine extends_readByte.bind fun tag => ?_
    split
    · exact extends_pure _
    split
    · exact extends_readHash.bind fun hash => extends_readByte.bind fun flag => extends_pure _
    split
    · have hann : Extends readAnn readAnn := by
        refine extends_readByte.bind fun annFlag => ?_
        split
        · exact extends_readHash.map some
        · exact extends_pure none
      exact hann.bind fun ann => hc.bind fun left => hc.bind fun right => extends_pure _
    · exact extends_throw _

theorem extends_readMarks (count : Nat) (marks : OrderedSet Position) :
    Extends (readMarks count marks) (readMarks count marks) := by
  induction count generalizing marks with
  | zero => exact extends_pure marks
  | succ _ ih => exact extends_readPosition.bind fun mark => ih (marks.insert mark ())

/-- **Shards and checkpoints are prefix codes.** What is written is read back with exactly its
bytes consumed, distinct values are written differently, and a truncated blob is refused. -/
theorem blobs_decode_uniquely : Decodes shardReader writeShardVote (fun _ => True) ∧
    Decodes checkpointReader writeCheckpoint (fun cp => cp.marksRemoved.keys.length < 2 ^ 32) ∧
    ∀ data, readShardVote data = (shardReader data).map Prod.fst ∧
      readCheckpoint data = (checkpointReader data).map Prod.fst := by
  refine ⟨decodes_of_extends (fun tree _ => shardReader_writeShardVote tree) ?_,
    decodes_of_extends (fun cp hcp => reads_checkpointReader cp hcp) ?_, fun data => ⟨rfl, rfl⟩⟩
  · intro data tree rest suffix hre
    have hve : Extends readVersion readVersion := by
      refine extends_readByte.bind fun version => ?_
      split
      · exact extends_pure ()
      · exact extends_throw _
    have hno : Extends (readNode data.length) (readNode (data ++ suffix).length) :=
      extends_readNode (by rw [length_append]; omega)
    exact hve.bind (fun _ => hno) data tree rest suffix hre
  · have hst : Extends readTreeState readTreeState := by
      refine extends_readByte.bind fun flag => ?_
      split
      · exact extends_pure none
      · exact extends_readPosition.map some
    refine hst.bind fun position => ((extends_readExact _ 4).map ofLeBytes).bind fun count => ?_
    exact (extends_readMarks count .empty).bind fun marks => extends_pure _

end Serde

end ZcashVoting.CommitmentTree
