import ZcashVoting.CommitmentTree.Serde

/-!
# The shard store over a key-value store

`KvShardStore` forwards every operation of a shard store to callbacks of a key-value
store. The callbacks are arbitrary here: each may fail, and each may change the state
behind it.
-/
namespace ZcashVoting.CommitmentTree

open Bytes Serde

inductive KvError where
  | ioError
  | deserialization
  | serialization
  deriving DecidableEq

abbrev KvKey := List UInt8
abbrev KvBlob := List UInt8

scoped instance isPreorderUInt8 : Std.IsPreorder UInt8 := inferInstance
scoped instance isPreorderUInt32 : Std.IsPreorder UInt32 := inferInstance

/-! ### Callbacks -/

/-- The return codes 0, 1 and any other one of a lookup. -/
inductive GetReply where
  | found (value : KvBlob)
  | notFound
  | failed

/-- The return codes 0, 1 and any other one of an iteration step. -/
inductive IterReply where
  | entry (key : KvKey) (value : KvBlob)
  | exhausted
  | failed

/-- The callbacks with the state behind them. A write says whether its return code was 0;
an iteration gives no handle, or the replies to its steps. -/
structure KvCallbacks (σ : Type) where
  getFn : KvKey → StateM σ GetReply
  setFn : KvKey → KvBlob → StateM σ Bool
  deleteFn : KvKey → StateM σ Bool
  iterFn : (leading : KvKey) → (reverse : Bool) → StateM σ (Option (List IterReply))

/-- Operations keep what they wrote when they fail. -/
abbrev KvM (σ : Type) := ExceptT KvError (StateM σ)

/-- The entries up to the first step that returns none, whatever its code. -/
def iterEntries : List IterReply → List (KvKey × KvBlob)
  | .entry key value :: rest => (key, value) :: iterEntries rest
  | _ => []

namespace KvCallbacks

variable {σ : Type} (cb : KvCallbacks σ)

def get (key : KvKey) : KvM σ (Option KvBlob) := do
  match ← liftM (cb.getFn key) with
  | .found value => pure (some value)
  | .notFound => pure none
  | .failed => throw .ioError

def set (key : KvKey) (value : KvBlob) : KvM σ Unit := do
  match ← liftM (cb.setFn key value) with
  | true => pure ()
  | false => throw .ioError

def delete (key : KvKey) : KvM σ Unit := do
  match ← liftM (cb.deleteFn key) with
  | true => pure ()
  | false => throw .ioError

/-- A missing handle iterates over nothing. -/
def iter (leading : KvKey) (reverse : Bool) : KvM σ (List (KvKey × KvBlob)) := do
  match ← liftM (cb.iterFn leading reverse) with
  | some replies => pure (iterEntries replies)
  | none => pure []

end KvCallbacks

/-! ### Keys -/

def shardPrefix : UInt8 := 0x0F
def capKeyByte : UInt8 := 0x10
def checkpointPrefix : UInt8 := 0x11
def retainedCheckpointPrefix : UInt8 := 0x12

def shardKey (index : UInt64) : KvKey := shardPrefix :: beBytes 8 index.toNat
def capKey : KvKey := [capKeyByte]
def checkpointKey (id : UInt32) : KvKey := checkpointPrefix :: beBytes 4 id.toNat
def retainedCheckpointKey (id : UInt32) : KvKey := retainedCheckpointPrefix :: beBytes 4 id.toNat

/-- The index in bytes 1 to 8 of a key; shorter keys have none. -/
def keyIndex (key : KvKey) : Option UInt64 :=
  if key.length < 9 then none else some (.ofNat (ofBeBytes ((key.drop 1).take 8)))

/-- The id in bytes 1 to 4 of a key; shorter keys have none. -/
def keyId (key : KvKey) : Option UInt32 :=
  if key.length < 5 then none else some (.ofNat (ofBeBytes ((key.drop 1).take 4)))

/-! ### Shards at their addresses -/

def shardHeight : Nat := 4

def PrunableTree.height : PrunableTree → Nat
  | .parent _ left right => max left.height right.height + 1
  | _ => 0

/-- A tree that fits a shard. -/
structure Shard where
  root : PrunableTree
  fits : root.height ≤ shardHeight
  deriving DecidableEq

/-- A shard at the address of shard level with this index. -/
structure LocatedShard where
  index : UInt64
  shard : Shard
  deriving DecidableEq

/-- `LocatedTree::from_parts` at shard level. -/
def LocatedShard.fromParts (index : UInt64) (root : PrunableTree) : Option LocatedShard :=
  if h : root.height ≤ shardHeight then some ⟨index, root, h⟩ else none

/-! ### Operations -/

namespace KvShardStore

variable {σ : Type} (cb : KvCallbacks σ)

def readLocated (index : UInt64) (blob : KvBlob) : KvM σ (Option LocatedShard) :=
  match readShardVote blob with
  | .ok tree => pure (LocatedShard.fromParts index tree)
  | .error _ => throw .deserialization

def getShard (index : UInt64) : KvM σ (Option LocatedShard) := do
  match ← cb.get (shardKey index) with
  | none => pure none
  | some blob => readLocated index blob

def lastShard : KvM σ (Option LocatedShard) := do
  match ← cb.iter [shardPrefix] true with
  | [] => pure none
  | (key, value) :: _ =>
    match keyIndex key with
    | none => pure none
    | some index => readLocated index value

def putShard (subtree : LocatedShard) : KvM σ Unit :=
  cb.set (shardKey subtree.index) (writeShardVote subtree.shard.root)

def getShardRoots : KvM σ (List UInt64) := do
  let entries ← cb.iter [shardPrefix] false
  pure (entries.filterMap fun entry => keyIndex entry.1)

/-- One after the other, up to the first failure. -/
def deleteAll : List KvKey → KvM σ Unit
  | [] => pure ()
  | key :: rest => do
    cb.delete key
    deleteAll rest

def truncateShards (shardIndex : UInt64) : KvM σ Unit := do
  let entries ← cb.iter [shardPrefix] false
  let toDelete := entries.filter fun entry => (keyIndex entry.1).any fun index =>
    decide (shardIndex ≤ index)
  deleteAll cb (toDelete.map Prod.fst)

def getCap : KvM σ PrunableTree := do
  match ← cb.get capKey with
  | none => pure .nil
  | some blob =>
    match readShardVote blob with
    | .ok cap => pure cap
    | .error _ => throw .deserialization

def putCap (cap : PrunableTree) : KvM σ Unit := cb.set capKey (writeShardVote cap)

def minCheckpointId : KvM σ (Option UInt32) := do
  let entries ← cb.iter [checkpointPrefix] false
  pure (entries.head?.bind fun entry => keyId entry.1)

def maxCheckpointId : KvM σ (Option UInt32) := do
  let entries ← cb.iter [checkpointPrefix] true
  pure (entries.head?.bind fun entry => keyId entry.1)

def addCheckpoint (id : UInt32) (checkpoint : Checkpoint) : KvM σ Unit :=
  cb.set (checkpointKey id) (writeCheckpoint checkpoint)

def checkpointCount : KvM σ Nat := do
  let entries ← cb.iter [checkpointPrefix] false
  pure entries.length

/-- An entry of the checkpoint region that decodes. -/
def readEntry (entry : KvKey × KvBlob) : Option (UInt32 × Checkpoint) :=
  (keyId entry.1).bind fun id => (readCheckpoint entry.2).toOption.map fun cp => (id, cp)

def getCheckpointAtDepth (checkpointDepth : Nat) : KvM σ (Option (UInt32 × Checkpoint)) := do
  let entries ← cb.iter [checkpointPrefix] true
  pure ((entries[checkpointDepth]?).bind readEntry)

def getCheckpoint (id : UInt32) : KvM σ (Option Checkpoint) := do
  match ← cb.get (checkpointKey id) with
  | none => pure none
  | some blob => pure (readCheckpoint blob).toOption

/-- A callback over checkpoints: from the calls made so far, the last one included, whether
it goes on. -/
abbrev Visitor := List (UInt32 × Checkpoint) → Except KvError Unit

/-- The visits made, and how the visitor left. Entries with a short key are not counted
against the limit, entries that do not decode are. -/
def visitEntries (visitor : Visitor) : (remaining : Nat) → List (KvKey × KvBlob) →
    List (UInt32 × Checkpoint) →
      List (UInt32 × Checkpoint) × Except KvError Unit
  | 0, _, visited => (visited, .ok ())
  | _ + 1, [], visited => (visited, .ok ())
  | remaining + 1, entry :: rest, visited =>
    match keyId entry.1 with
    | none => visitEntries visitor (remaining + 1) rest visited
    | some id =>
      match readCheckpoint entry.2 with
      | .error _ => visitEntries visitor remaining rest visited
      | .ok cp =>
        match visitor (visited ++ [(id, cp)]) with
        | .error error => (visited ++ [(id, cp)], .error error)
        | .ok () => visitEntries visitor remaining rest (visited ++ [(id, cp)])

def forEachCheckpoint (limit : Nat) (visitor : Visitor) :
    KvM σ (List (UInt32 × Checkpoint) × Except KvError Unit) := do
  let entries ← cb.iter [checkpointPrefix] false
  pure (visitEntries visitor limit entries [])

def withCheckpoints (limit : Nat) (visitor : Visitor) :
    KvM σ (List (UInt32 × Checkpoint) × Except KvError Unit) := forEachCheckpoint cb limit visitor

def updateCheckpointWith (id : UInt32) (update : Checkpoint → Except KvError Checkpoint) :
    KvM σ Bool := do
  match ← cb.get (checkpointKey id) with
  | none => pure false
  | some blob =>
    match readCheckpoint blob with
    | .error _ => pure false
    | .ok cp =>
      match update cp with
      | .error error => throw error
      | .ok updated => do
        cb.set (checkpointKey id) (writeCheckpoint updated)
        pure true

def removeCheckpoint (id : UInt32) : KvM σ Unit := cb.delete (checkpointKey id)

def addRetainedCheckpoint (id : UInt32) : KvM σ Unit := cb.set (retainedCheckpointKey id) []

def removeRetainedCheckpoint (id : UInt32) : KvM σ Unit := cb.delete (retainedCheckpointKey id)

def retainedCheckpoints : KvM σ (OrderedSet UInt32) := do
  let entries ← cb.iter [retainedCheckpointPrefix] false
  pure ((entries.filterMap fun entry => keyId entry.1).foldl (fun retained id => retained.insert id ()) .empty)

/-- The keys below the id, up to the first that is not. -/
def keysBelow (id : UInt32) : List (KvKey × KvBlob) → List KvKey
  | [] => []
  | entry :: rest =>
    match keyId entry.1 with
    | none => keysBelow id rest
    | some entryId => if entryId < id then entry.1 :: keysBelow id rest else []

/-- The marks of the checkpoint that stays. -/
def clearMarks (id : UInt32) : KvM σ Unit := do
  match ← cb.get (checkpointKey id) with
  | none => pure ()
  | some blob =>
    match readCheckpoint blob with
    | .error _ => pure ()
    | .ok cp => cb.set (checkpointKey id) (writeCheckpoint ⟨cp.position, .empty⟩)

/-- Deletes the checkpoints below the id and keeps those above it. -/
def truncateCheckpointsRetaining (id : UInt32) : KvM σ Unit := do
  let entries ← cb.iter [checkpointPrefix] false
  deleteAll cb (keysBelow id entries)
  clearMarks cb id

end KvShardStore

end ZcashVoting.CommitmentTree
