import ZcashVoting.CommitmentTree.KvShardStore

/-!
# The in-memory shard store and a faithful key-value store

The reference for `KvShardStore` is the in-memory store of the shard tree crate, taken at
its contract: a vector of shards that a write fills up with empty ones, a map of
checkpoints of which a truncation keeps those up to the given id, and a set of retained
ids. A faithful key-value store keeps what is written and iterates in byte order.
-/
namespace ZcashVoting.CommitmentTree

open Bytes Serde

/-! ### The reference -/

structure MemoryShardStore where
  shards : List Shard
  checkpoints : OrderedMap UInt32 Checkpoint
  cap : PrunableTree
  retained : OrderedSet UInt32

namespace MemoryShardStore

def empty : MemoryShardStore := ⟨[], .empty, .nil, .empty⟩

def emptyShard : Shard := ⟨.nil, by decide⟩

variable (store : MemoryShardStore)

def getShard (index : UInt64) : Option LocatedShard :=
  store.shards[index.toNat]?.map fun shard => ⟨index, shard⟩

def lastShard : Option LocatedShard :=
  store.shards.getLast?.map fun shard => ⟨.ofNat (store.shards.length - 1), shard⟩

def putShard (subtree : LocatedShard) : MemoryShardStore :=
  let missing := subtree.index.toNat + 1 - store.shards.length
  { store with
    shards :=
      (store.shards ++ List.replicate missing emptyShard).set subtree.index.toNat subtree.shard }

def getShardRoots : List UInt64 := (List.range store.shards.length).map UInt64.ofNat

def truncateShards (shardIndex : UInt64) : MemoryShardStore :=
  { store with shards := store.shards.take shardIndex.toNat }

def getCheckpointAtDepth (checkpointDepth : Nat) : Option (UInt32 × Checkpoint) :=
  store.checkpoints.entries.reverse[checkpointDepth]?

def visitEntries (visitor : KvShardStore.Visitor) :
    (remaining : Nat) → List (UInt32 × Checkpoint) → List (UInt32 × Checkpoint) →
      List (UInt32 × Checkpoint) × Except KvError Unit
  | 0, _, visited => (visited, .ok ())
  | _ + 1, [], visited => (visited, .ok ())
  | remaining + 1, entry :: rest, visited =>
    match visitor (visited ++ [entry]) with
    | .error error => (visited ++ [entry], .error error)
    | .ok () => visitEntries visitor remaining rest (visited ++ [entry])

def updateCheckpointWith (id : UInt32) (update : Checkpoint →
      Checkpoint) : Bool × MemoryShardStore :=
  match store.checkpoints.get? id with
  | none => (false, store)
  | some cp => (true, { store with checkpoints := store.checkpoints.insert id (update cp) })

/-- Keeps the checkpoints up to the id and clears the marks of the one that has it. -/
def truncateCheckpointsRetaining (id : UInt32) : MemoryShardStore :=
  let below := store.checkpoints.filter fun key => decide (key < id)
  match store.checkpoints.get? id with
  | none => { store with checkpoints := below }
  | some cp => { store with checkpoints := below.insert id ⟨cp.position, .empty⟩ }

end MemoryShardStore

/-! ### Operations on either store -/

inductive StoreOperation where
  | getShard (index : UInt64)
  | lastShard
  | putShard (subtree : LocatedShard)
  | getShardRoots
  | truncateShards (shardIndex : UInt64)
  | getCap
  | putCap (cap : PrunableTree)
  | minCheckpointId
  | maxCheckpointId
  | addCheckpoint (id : UInt32) (checkpoint : Checkpoint)
  | checkpointCount
  | getCheckpointAtDepth (checkpointDepth : Nat)
  | getCheckpoint (id : UInt32)
  | withCheckpoints (limit : Nat) (visitor : KvShardStore.Visitor)
  | forEachCheckpoint (limit : Nat) (visitor : KvShardStore.Visitor)
  | updateCheckpointWith (id : UInt32) (update : Checkpoint → Checkpoint)
  | removeCheckpoint (id : UInt32)
  | addRetainedCheckpoint (id : UInt32)
  | removeRetainedCheckpoint (id : UInt32)
  | retainedCheckpoints
  | truncateCheckpointsRetaining (id : UInt32)

inductive StoreReply where
  | shard (shard : Option LocatedShard)
  | roots (roots : List UInt64)
  | cap (cap : PrunableTree)
  | checkpointId (id : Option UInt32)
  | count (count : Nat)
  | checkpointAt (entry : Option (UInt32 × Checkpoint))
  | checkpoint (checkpoint : Option Checkpoint)
  | visits (visits : List (UInt32 × Checkpoint) × Except KvError Unit)
  | updated (found : Bool)
  | retained (ids : OrderedSet UInt32)
  | done

def KvShardStore.perform {σ : Type} (cb : KvCallbacks σ) : StoreOperation → KvM σ StoreReply
  | .getShard index => .shard <$> getShard cb index
  | .lastShard => .shard <$> lastShard cb
  | .putShard subtree => (fun _ => .done) <$> putShard cb subtree
  | .getShardRoots => .roots <$> getShardRoots cb
  | .truncateShards shardIndex => (fun _ => .done) <$> truncateShards cb shardIndex
  | .getCap => .cap <$> getCap cb
  | .putCap cap => (fun _ => .done) <$> putCap cb cap
  | .minCheckpointId => .checkpointId <$> minCheckpointId cb
  | .maxCheckpointId => .checkpointId <$> maxCheckpointId cb
  | .addCheckpoint id checkpoint => (fun _ => .done) <$> addCheckpoint cb id checkpoint
  | .checkpointCount => .count <$> checkpointCount cb
  | .getCheckpointAtDepth checkpointDepth =>
      .checkpointAt <$> getCheckpointAtDepth cb checkpointDepth
  | .getCheckpoint id => .checkpoint <$> getCheckpoint cb id
  | .withCheckpoints limit visitor => .visits <$> withCheckpoints cb limit visitor
  | .forEachCheckpoint limit visitor => .visits <$> forEachCheckpoint cb limit visitor
  | .updateCheckpointWith id update => .updated <$> updateCheckpointWith cb id fun cp =>
      .ok (update cp)
  | .removeCheckpoint id => (fun _ => .done) <$> removeCheckpoint cb id
  | .addRetainedCheckpoint id => (fun _ => .done) <$> addRetainedCheckpoint cb id
  | .removeRetainedCheckpoint id => (fun _ => .done) <$> removeRetainedCheckpoint cb id
  | .retainedCheckpoints => .retained <$> retainedCheckpoints cb
  | .truncateCheckpointsRetaining id => (fun _ => .done) <$> truncateCheckpointsRetaining cb id

def MemoryShardStore.perform (store : MemoryShardStore) :
    StoreOperation → StoreReply × MemoryShardStore
  | .getShard index => (.shard (store.getShard index), store)
  | .lastShard => (.shard store.lastShard, store)
  | .putShard subtree => (.done, store.putShard subtree)
  | .getShardRoots => (.roots store.getShardRoots, store)
  | .truncateShards shardIndex => (.done, store.truncateShards shardIndex)
  | .getCap => (.cap store.cap, store)
  | .putCap cap => (.done, { store with cap := cap })
  | .minCheckpointId => (.checkpointId store.checkpoints.keys.head?, store)
  | .maxCheckpointId => (.checkpointId store.checkpoints.keys.getLast?, store)
  | .addCheckpoint id checkpoint =>
      (.done, { store with checkpoints := store.checkpoints.insert id checkpoint })
  | .checkpointCount => (.count store.checkpoints.entries.length, store)
  | .getCheckpointAtDepth checkpointDepth =>
      (.checkpointAt (store.getCheckpointAtDepth checkpointDepth), store)
  | .getCheckpoint id => (.checkpoint (store.checkpoints.get? id), store)
  | .withCheckpoints limit visitor =>
      (.visits (visitEntries visitor limit store.checkpoints.entries []), store)
  | .forEachCheckpoint limit visitor =>
      (.visits (visitEntries visitor limit store.checkpoints.entries []), store)
  | .updateCheckpointWith id update =>
    let (found, updated) := store.updateCheckpointWith id update
    (.updated found, updated)
  | .removeCheckpoint id => (.done, { store with checkpoints := store.checkpoints.erase id })
  | .addRetainedCheckpoint id => (.done, { store with retained := store.retained.insert id () })
  | .removeRetainedCheckpoint id => (.done, { store with retained := store.retained.erase id })
  | .retainedCheckpoints => (.retained store.retained, store)
  | .truncateCheckpointsRetaining id => (.done, store.truncateCheckpointsRetaining id)

/-! ### A faithful key-value store -/

abbrev KvState := OrderedMap KvKey KvBlob

/-- The entries under a leading part of the key, in byte order. -/
def KvState.under (kv : KvState) (leading : KvKey) :
    KvState := kv.filter fun key => leading.isPrefixOf key

/-- Nothing fails, what is written is read, and iteration is in byte order. -/
def faithfulCallbacks : KvCallbacks KvState where
  getFn key := do
    let kv ← get
    pure ((kv.get? key).elim .notFound .found)
  setFn key value := do
    modify fun kv => kv.insert key value
    pure true
  deleteFn key := do
    modify fun kv => kv.erase key
    pure true
  iterFn leading reverse := do
    let kv ← get
    let entries := (kv.under leading).entries
    let ordered := if reverse then entries.reverse else entries
    pure (some (ordered.map fun entry => .entry entry.1 entry.2))

def KvM.exec {σ α : Type} (operation : KvM σ α) (state : σ) : Except KvError α × σ :=
  (ExceptT.run operation).run state

namespace KvM

variable {σ α β : Type} {operation : KvM σ α} {value : α}

@[simp] theorem exec_pure (value : α) (state : σ) :
    exec (pure value) state = (.ok value, state) := rfl

theorem exec_bind {next : α → KvM σ β} {state after : σ}
    (h : exec operation state = (.ok value, after)) :
    exec (operation >>= next) state = exec (next value) after := by
  unfold exec at h ⊢
  rw [ExceptT.run_bind, StateT.run_bind, h]
  rfl

theorem exec_map {state after : σ} (f : α → β) (h : exec operation state = (.ok value, after)) :
    exec (f <$> operation) state = (.ok (f value), after) :=
  exec_bind h

end KvM

section

open KvM

variable (kv : KvState) (key leading : KvKey)

theorem exec_get : exec (faithfulCallbacks.get key) kv = (.ok (kv.get? key), kv) := by
  have hraw : exec (liftM (faithfulCallbacks.getFn key)) kv =
      (.ok ((kv.get? key).elim .notFound .found), kv) := rfl
  unfold KvCallbacks.get
  rw [exec_bind hraw]
  cases kv.get? key <;> rfl

theorem exec_set (value : KvBlob) :
    exec (faithfulCallbacks.set key value) kv = (.ok (), kv.insert key value) := rfl

theorem exec_delete : exec (faithfulCallbacks.delete key) kv = (.ok (), kv.erase key) := rfl

theorem iterEntries_map (entries : List (KvKey × KvBlob)) :
    iterEntries (entries.map fun entry => .entry entry.1 entry.2) = entries := by
  induction entries with
  | nil => rfl
  | cons _ _ ih => rw [List.map_cons, iterEntries, ih]

theorem exec_iter (reverse : Bool) : exec (faithfulCallbacks.iter leading reverse) kv =
    (.ok (if reverse then (kv.under leading).entries.reverse else (kv.under leading).entries), kv) := by
  have hre : exec (faithfulCallbacks.iter leading reverse) kv = (.ok (iterEntries
      ((if reverse then (kv.under leading).entries.reverse else (kv.under leading).entries).map
        fun entry => .entry entry.1 entry.2)), kv) := rfl
  rw [hre, iterEntries_map]

end

end ZcashVoting.CommitmentTree
