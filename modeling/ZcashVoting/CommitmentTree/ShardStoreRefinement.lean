import ZcashVoting.CommitmentTree.MemoryShardStore

/-!
# The key-value shard store against the in-memory one

The three regions of the key-value store hold the shards, checkpoints and retained ids of
the reference in order. Each operation keeps this and gives the answer of the reference,
except that checkpoints are truncated from the other side and that shards written past the
end leave gaps.
-/
namespace ZcashVoting.CommitmentTree

open Bytes Serde KvM List KvShardStore OrderedMap

/-! ### Keys in byte order -/

variable {tag : UInt8}

theorem tagged_lt {width m n : Nat} (hn : n < 256 ^ width) (h : m < n) :
    tag :: beBytes width m < tag :: beBytes width n :=
  cons_lt_cons_iff.mpr (.inr ⟨rfl, beBytes_lt hn h⟩)

theorem capKey_ne_tagged (h : tag ≠ capKeyByte) (bytes : List UInt8) : capKey ≠ tag :: bytes :=
  fun heq => h (List.cons.inj heq).1.symm

theorem capKey_ne_shardKey (index : UInt64) : capKey ≠ shardKey index :=
    capKey_ne_tagged (by decide) _

theorem capKey_ne_checkpointKey (id : UInt32) : capKey ≠ checkpointKey id :=
    capKey_ne_tagged (by decide) _

theorem capKey_ne_retainedCheckpointKey (id : UInt32) : capKey ≠ retainedCheckpointKey id :=
  capKey_ne_tagged (by decide) _

@[simp] theorem keyIndex_shardKey (index : UInt64) : keyIndex (shardKey index) = some index := by
  have hle : ¬ (shardKey index).length < 9 := by simp [shardKey]
  have hby : ((shardKey index).drop 1).take 8 = beBytes 8 index.toNat := by
    rw [shardKey, drop_one, tail_cons]
    exact take_of_length_le (by simp)
  rw [keyIndex, if_neg hle, hby, ofBeBytes_beBytes (show _ < 256 ^ 8 from index.toNat_lt),
    UInt64.ofNat_toNat]

theorem keyId_tagged (tag : UInt8) (id : UInt32) : keyId (tag :: beBytes 4 id.toNat) = some id := by
  have hle : ¬ (tag :: beBytes 4 id.toNat).length < 5 := by simp
  have hby : ((tag :: beBytes 4 id.toNat).drop 1).take 4 = beBytes 4 id.toNat := by
    exact take_of_length_le (by simp)
  rw [keyId, if_neg hle, hby, ofBeBytes_beBytes (show _ < 256 ^ 4 from id.toNat_lt),
    UInt32.ofNat_toNat]

@[simp] theorem keyId_checkpointKey (id : UInt32) :
    keyId (checkpointKey id) = some id := keyId_tagged _ id

@[simp] theorem keyId_retainedCheckpointKey (id : UInt32) :
    keyId (retainedCheckpointKey id) = some id :=
  keyId_tagged _ id

def shardLayout : OrderedMap.Layout KvKey UInt64 Shard KvBlob where
  region key := [shardPrefix].isPrefixOf key
  key := shardKey
  value shard := writeShardVote shard.root
  mem_region _ := by simp [shardKey]
  key_lt {_ j} h := tagged_lt (show j.toNat < 256 ^ 8 from j.toNat_lt) (UInt64.lt_iff_toNat_lt.mp h)

def checkpointLayout : OrderedMap.Layout KvKey UInt32 Checkpoint KvBlob where
  region key := [checkpointPrefix].isPrefixOf key
  key := checkpointKey
  value := writeCheckpoint
  mem_region _ := by simp [checkpointKey]
  key_lt {_ j} h := tagged_lt (show j.toNat < 256 ^ 4 from j.toNat_lt) (UInt32.lt_iff_toNat_lt.mp h)

def retainedLayout : OrderedMap.Layout KvKey UInt32 Unit KvBlob where
  region key := [retainedCheckpointPrefix].isPrefixOf key
  key := retainedCheckpointKey
  value _ := []
  mem_region _ := by simp [retainedCheckpointKey]
  key_lt {_ j} h := tagged_lt (show j.toNat < 256 ^ 4 from j.toNat_lt) (UInt32.lt_iff_toNat_lt.mp h)

/-! ### Shards by number -/

variable {shard : Shard}

theorem toNat_ofNat_of_mem {shards : List Shard} (h : shards.length ≤ 2 ^ 64) {index : Nat}
    (hmem : (shard, index) ∈ shards.zipIdx) : (UInt64.ofNat index).toNat = index := by
  have hlt := (mem_zipIdx hmem).2.1
  exact Nat.mod_eq_of_lt (by omega)

/-- The shards of a vector with their indices. -/
def numbered (shards : List Shard) (h : shards.length ≤ 2 ^ 64) : OrderedMap UInt64 Shard where
  entries := shards.zipIdx.map fun entry => (UInt64.ofNat entry.2, entry.1)
  sorted := by
    have hindices : shards.zipIdx.Pairwise fun a b => a.2 < b.2 := by
      refine pairwise_map.mp ?_
      rw [zipIdx_map_snd]
      exact pairwise_lt_range' 1
    refine pairwise_map.mpr (hindices.imp_of_mem fun ha hb hlt => ?_)
    rw [UInt64.lt_iff_toNat_lt, toNat_ofNat_of_mem h ha, toNat_ofNat_of_mem h hb]
    exact hlt

variable {shards : List Shard} {hbo : shards.length ≤ 2 ^ 64} {store : MemoryShardStore}
  {subtree : LocatedShard}

theorem mem_numbered {index : UInt64} :
    (index, shard) ∈ (numbered shards hbo).entries ↔ shards[index.toNat]? = some shard := by
  constructor
  · intro h
    obtain ⟨⟨_, _⟩, hmem, heq⟩ := mem_map.mp h
    cases heq
    rw [toNat_ofNat_of_mem hbo hmem]
    exact mk_mem_zipIdx_iff_getElem?.mp hmem
  · intro h
    refine mem_map.mpr ⟨(shard, index.toNat), mk_mem_zipIdx_iff_getElem?.mpr h, ?_⟩
    rw [UInt64.ofNat_toNat]

theorem get?_numbered (index : UInt64) : (numbered shards hbo).get? index = shards[index.toNat]? :=
  Option.ext fun _ => get?_eq_some_iff.trans mem_numbered

theorem keys_numbered :
    (numbered shards hbo).keys = (List.range shards.length).map UInt64.ofNat := by
  rw [range_eq_range', ← zipIdx_map_snd, map_map, OrderedMap.keys, numbered, map_map]
  rfl

/-- A write inside the vector or at its end. -/
theorem numbered_putShard (hbo : store.shards.length ≤ 2 ^ 64)
    (hbo' : (store.putShard subtree).shards.length ≤ 2 ^ 64)
    (hind : subtree.index.toNat ≤ store.shards.length) :
    numbered (store.putShard subtree).shards hbo' =
      (numbered store.shards hbo).insert subtree.index subtree.shard := by
  refine ext_mem fun ⟨index, shard⟩ => ?_
  rw [mem_numbered, mem_insert, mem_numbered]
  simp only [MemoryShardStore.putShard, List.getElem?_set, length_append, length_replicate]
  by_cases hs : subtree.index.toNat = index.toNat
  · obtain rfl := UInt64.toNat_inj.mp hs
    rw [if_pos rfl, if_pos (by omega)]
    simp [eq_comm]
  · have hne : index ≠ subtree.index := fun h => hs (h ▸ rfl)
    rw [if_neg hs]
    -- At most the position of the write itself is filled up.
    have hold : (store.shards ++ List.replicate (subtree.index.toNat + 1 - store.shards.length)
        MemoryShardStore.emptyShard)[index.toNat]? = store.shards[index.toNat]? := by
      rcases Nat.lt_or_ge index.toNat store.shards.length with hin | hout
      · exact List.getElem?_append_left hin
      · rw [List.getElem?_eq_none hout, List.getElem?_eq_none]
        rw [length_append, length_replicate]
        omega
    rw [hold]
    simp [hne]

theorem numbered_truncateShards {shardIndex : UInt64} (hbo : store.shards.length ≤ 2 ^ 64)
    (hbo' : (store.truncateShards shardIndex).shards.length ≤ 2 ^ 64) :
    numbered (store.truncateShards shardIndex).shards hbo' =
      ((numbered store.shards hbo).keys.filter fun index => decide (shardIndex ≤ index)).foldl
        erase (numbered store.shards hbo) := by
  refine ext_mem fun ⟨index, shard⟩ => ?_
  rw [mem_numbered, mem_foldl_erase, mem_numbered]
  simp only [MemoryShardStore.truncateShards, List.getElem?_take, mem_filter,
    decide_eq_true_eq, not_and, UInt64.le_iff_toNat_le]
  constructor
  · intro h
    split at h
    case isTrue hlt => exact ⟨fun _ => Nat.not_le.mpr hlt, h⟩
    case isFalse => cases h
  · rintro ⟨hke, h⟩
    have hkey : index ∈ (numbered store.shards hbo).keys :=
      mem_map.mpr ⟨(index, shard), mem_numbered.mpr h, rfl⟩
    rw [if_pos (Nat.not_le.mp (hke hkey))]
    exact h

/-! ### What the key-value store holds -/

/-- The regions of the key-value store hold the reference. -/
structure Represents (kv : KvState) (store : MemoryShardStore) : Prop where
  bounded : store.shards.length ≤ 2 ^ 64
  shards : OrderedMap.Stores shardLayout kv (numbered store.shards bounded)
  cap : kv.get? capKey = some (writeShardVote store.cap) ∨ kv.get? capKey = none ∧ store.cap = .nil
  checkpoints : OrderedMap.Stores checkpointLayout kv store.checkpoints
  readable : ∀ entry ∈ store.checkpoints.entries, entry.2.marksRemoved.keys.length < 2 ^ 32
  retained : OrderedMap.Stores retainedLayout kv store.retained

variable {kv : KvState} {store : MemoryShardStore}

/-! ### Shard operations -/

theorem exec_readLocated (index : UInt64) (shard : Shard) (kv : KvState) :
    exec (readLocated index (writeShardVote shard.root)) kv = (.ok (some ⟨index, shard⟩), kv) := by
  unfold readLocated
  rw [readShardVote_writeShardVote]
  simp only [LocatedShard.fromParts, shard.fits, dif_pos, exec_pure]

theorem Represents.exec_getShard (h : Represents kv store) (index : UInt64) :
    exec (getShard faithfulCallbacks index) kv = (.ok (store.getShard index), kv) := by
  have hget : kv.get? (shardKey index) = store.shards[index.toNat]?.map fun shard =>
      writeShardVote shard.root := by
    rw [← get?_numbered]
    exact h.shards.get? index
  unfold getShard MemoryShardStore.getShard
  rw [exec_bind (exec_get kv _), hget]
  cases store.shards[index.toNat]? with
  | none => rfl
  | some shard => exact exec_readLocated index shard kv

theorem Represents.under_shards (h : Represents kv store) : (kv.under [shardPrefix]).entries =
    (numbered store.shards h.bounded).entries.map fun entry =>
    (shardKey entry.1, writeShardVote entry.2.root) :=
  h.shards

theorem Represents.exec_lastShard (h : Represents kv store) :
    exec (lastShard faithfulCallbacks) kv = (.ok store.lastShard, kv) := by
  unfold lastShard MemoryShardStore.lastShard
  rw [exec_bind (exec_iter kv _ true), if_pos rfl, h.under_shards]
  rcases eq_nil_or_concat' store.shards with hnil | ⟨init, last, hl⟩
  · simp only [numbered, hnil, zipIdx_nil, map_nil, List.getLast?_nil]
    rfl
  have hen : (numbered store.shards h.bounded).entries =
      (init.zipIdx.map fun entry => (UInt64.ofNat entry.2, entry.1)) ++
        [(UInt64.ofNat init.length, last)] := by
    simp [numbered, hl, zipIdx_append]
  rw [hen, map_append, map_singleton, reverse_append, reverse_singleton, singleton_append]
  simp only [keyIndex_shardKey, exec_readLocated, hl, List.getLast?_concat, Option.map_some,
    length_append, length_singleton, Nat.add_sub_cancel]

theorem Represents.exec_getShardRoots (h : Represents kv store) :
    exec (getShardRoots faithfulCallbacks) kv = (.ok store.getShardRoots, kv) := by
  unfold getShardRoots MemoryShardStore.getShardRoots
  rw [exec_bind (exec_iter kv _ false), exec_pure, if_neg Bool.false_ne_true, h.under_shards,
    filterMap_map, ← @keys_numbered _ h.bounded]
  simp only [Function.comp_def, keyIndex_shardKey, OrderedMap.keys, ← filterMap_eq_map]
theorem Represents.putShard (h : Represents kv store)
    (hin : subtree.index.toNat ≤ store.shards.length) :
    Represents (kv.insert (shardKey subtree.index) (writeShardVote subtree.shard.root))
      (store.putShard subtree) := by
  have hlt := subtree.index.toNat_lt
  have hbo : (store.putShard subtree).shards.length ≤ 2 ^ 64 := by
    have := h.bounded
    simp only [MemoryShardStore.putShard, length_set, length_append, length_replicate]
    omega
  refine ⟨hbo, ?_, ?_, h.checkpoints.insert_outside rfl _, h.readable,
    h.retained.insert_outside rfl _⟩
  · rw [numbered_putShard h.bounded hbo hin]
    exact h.shards.insert subtree.index subtree.shard
  · rw [get?_insert_of_ne (capKey_ne_shardKey _)]
    exact h.cap

theorem exec_deleteAll (keys : List KvKey) (kv : KvState) :
    exec (deleteAll faithfulCallbacks keys) kv = (.ok (), keys.foldl erase kv) := by
  induction keys generalizing kv with
  | nil => rfl
  | cons key _ ih =>
    rw [deleteAll, exec_bind (exec_delete kv key), ih]
    rfl

section

variable (h : Represents kv store)
include h

theorem Represents.truncateShards (shardIndex : UInt64) :
    ∃ kv', exec (truncateShards faithfulCallbacks shardIndex) kv = (.ok (), kv') ∧
      Represents kv' (store.truncateShards shardIndex) := by
  have hbo : (store.truncateShards shardIndex).shards.length ≤ 2 ^ 64 :=
    (length_take_le' _ _).trans h.bounded
  let doomed := (numbered store.shards h.bounded).keys.filter fun index =>
    decide (shardIndex ≤ index)
  have hexe : exec (KvShardStore.truncateShards faithfulCallbacks shardIndex) kv =
      (.ok (), (doomed.map shardKey).foldl erase kv) := by
    unfold KvShardStore.truncateShards
    rw [exec_bind (exec_iter kv _ false), exec_deleteAll, if_neg Bool.false_ne_true, h.under_shards,
      filter_map, map_map]
    simp only [doomed, OrderedMap.keys, filter_map, map_map, Function.comp_def, keyIndex_shardKey,
      Option.any_some]
  refine ⟨_, hexe, hbo, ?_, ?_, ?_, h.readable, ?_⟩
  · rw [numbered_truncateShards h.bounded hbo]
    exact h.shards.foldl_erase doomed
  · have hcap : capKey ∉ doomed.map shardKey := by
      intro hmem
      obtain ⟨index, -, heq⟩ := mem_map.mp hmem
      exact capKey_ne_shardKey index heq.symm
    rw [get?_foldl_erase_of_not_mem hcap]
    exact h.cap
  · exact h.checkpoints.foldl_erase_outside (forall_mem_map.mpr fun _ _ => rfl)
  · exact h.retained.foldl_erase_outside (forall_mem_map.mpr fun _ _ => rfl)

/-! ### The cap -/

theorem Represents.exec_getCap : exec (getCap faithfulCallbacks) kv = (.ok store.cap, kv) := by
  unfold getCap
  rw [exec_bind (exec_get kv capKey)]
  rcases h.cap with hcap | ⟨hno, hnil⟩
  · rw [hcap]
    dsimp only
    rw [readShardVote_writeShardVote]
    rfl
  · rw [hno, hnil]
    rfl

theorem Represents.putCap (cap : PrunableTree) :
    Represents (kv.insert capKey (writeShardVote cap)) { store with cap := cap } :=
  ⟨h.bounded, h.shards.insert_outside rfl _, .inl get?_insert_self,
    h.checkpoints.insert_outside rfl _,
    h.readable, h.retained.insert_outside rfl _⟩

/-! ### Checkpoint operations -/

theorem Represents.under_checkpoints : (kv.under [checkpointPrefix]).entries =
    store.checkpoints.entries.map fun entry => (checkpointKey entry.1, writeCheckpoint entry.2) :=
  h.checkpoints

theorem Represents.readCheckpoint {entry : UInt32 × Checkpoint}
    (hen : entry ∈ store.checkpoints.entries) :
    Serde.readCheckpoint (writeCheckpoint entry.2) = .ok entry.2 :=
  readCheckpoint_writeCheckpoint entry.2 (h.readable entry hen)

theorem Represents.exec_minCheckpointId :
    exec (minCheckpointId faithfulCallbacks) kv = (.ok store.checkpoints.keys.head?, kv) := by
  unfold minCheckpointId
  rw [exec_bind (exec_iter kv _ false), exec_pure, if_neg Bool.false_ne_true, h.under_checkpoints,
    OrderedMap.keys]
  cases store.checkpoints.entries with
  | nil => rfl
  | cons => simp only [map_cons, List.head?_cons, Option.bind_some, keyId_checkpointKey]

theorem Represents.exec_maxCheckpointId :
    exec (maxCheckpointId faithfulCallbacks) kv = (.ok store.checkpoints.keys.getLast?, kv) := by
  unfold maxCheckpointId
  rw [exec_bind (exec_iter kv _ true), exec_pure, if_pos rfl, h.under_checkpoints, OrderedMap.keys,
    ← List.head?_reverse, ← map_reverse, ← map_reverse]
  cases store.checkpoints.entries.reverse with
  | nil => rfl
  | cons => simp only [map_cons, List.head?_cons, Option.bind_some, keyId_checkpointKey]

theorem Represents.exec_checkpointCount :
    exec (checkpointCount faithfulCallbacks) kv = (.ok store.checkpoints.entries.length, kv) := by
  unfold checkpointCount
  rw [exec_bind (exec_iter kv _ false), exec_pure, if_neg Bool.false_ne_true, h.under_checkpoints,
    length_map]

theorem Represents.exec_getCheckpointAtDepth (checkpointDepth : Nat) :
    exec (getCheckpointAtDepth faithfulCallbacks checkpointDepth) kv =
      (.ok (store.getCheckpointAtDepth checkpointDepth), kv) := by
  unfold getCheckpointAtDepth MemoryShardStore.getCheckpointAtDepth
  rw [exec_bind (exec_iter kv _ true), exec_pure, if_pos rfl, h.under_checkpoints, ← map_reverse,
    List.getElem?_map]
  rcases hen : store.checkpoints.entries.reverse[checkpointDepth]? with _ | _
  · rfl
  · have hmem := mem_reverse.mp (mem_of_getElem? hen)
    simp only [Option.map_some, Option.bind_some, readEntry, keyId_checkpointKey,
      h.readCheckpoint hmem, Except.toOption]

theorem Represents.exec_getCheckpoint (id : UInt32) :
    exec (getCheckpoint faithfulCallbacks id) kv = (.ok (store.checkpoints.get? id), kv) := by
  have hget : kv.get? (checkpointKey id) = (store.checkpoints.get? id).map writeCheckpoint :=
    h.checkpoints.get? id
  unfold getCheckpoint
  rw [exec_bind (exec_get kv _), hget]
  rcases hcp : store.checkpoints.get? id with _ | _
  · rfl
  · have hre := h.readCheckpoint (get?_eq_some_iff.mp hcp)
    simp only [Option.map_some, hre, Except.toOption, exec_pure]

end

/-- Visiting the stored entries visits the checkpoints. -/
theorem visitEntries_map (visitor : KvShardStore.Visitor) {entries : List (UInt32 × Checkpoint)}
    (hr : ∀ entry ∈ entries, Serde.readCheckpoint (writeCheckpoint entry.2) = .ok entry.2)
    (remaining : Nat) (visited : List (UInt32 × Checkpoint)) : visitEntries visitor remaining
        (entries.map fun entry => (checkpointKey entry.1, writeCheckpoint entry.2)) visited =
      MemoryShardStore.visitEntries visitor remaining entries visited := by
  induction entries generalizing remaining visited with
  | nil => cases remaining <;> rfl
  | cons entry _ ih =>
    cases remaining with
    | zero => rfl
    | succ remaining =>
      have hre := ih fun other hot => hr other (mem_cons_of_mem entry hot)
      simp only [map_cons, visitEntries, MemoryShardStore.visitEntries, keyId_checkpointKey,
        hr entry mem_cons_self]
      cases visitor (visited ++ [entry]) with
      | error => rfl
      | ok => exact hre remaining _

section

variable (h : Represents kv store)
include h

theorem Represents.exec_forEachCheckpoint (limit : Nat) (visitor : KvShardStore.Visitor) :
    exec (forEachCheckpoint faithfulCallbacks limit visitor) kv =
      (.ok (MemoryShardStore.visitEntries visitor limit store.checkpoints.entries []), kv) := by
  unfold forEachCheckpoint
  rw [exec_bind (exec_iter kv _ false), exec_pure, if_neg Bool.false_ne_true, h.under_checkpoints,
    visitEntries_map visitor fun entry hen => h.readCheckpoint hen]

theorem Represents.addCheckpoint (id : UInt32) {cp : Checkpoint}
    (hcp : cp.marksRemoved.keys.length < 2 ^ 32) :
    Represents (kv.insert (checkpointKey id) (writeCheckpoint cp))
      { store with checkpoints := store.checkpoints.insert id cp } := by
  refine ⟨h.bounded, h.shards.insert_outside rfl _, ?_,
    h.checkpoints.insert id cp, fun entry hen => ?_,
    h.retained.insert_outside rfl _⟩
  · rw [get?_insert_of_ne (capKey_ne_checkpointKey _)]
    exact h.cap
  · rcases mem_insert.mp hen with rfl | ⟨-, hold⟩
    · exact hcp
    · exact h.readable entry hold

theorem Represents.removeCheckpoint (id : UInt32) :
    Represents (kv.erase (checkpointKey id)) { store with checkpoints := store.checkpoints.erase id } := by
  refine ⟨h.bounded, h.shards.erase_outside rfl, ?_, h.checkpoints.erase id, fun entry hen => ?_,
    h.retained.erase_outside rfl⟩
  · rw [get?_erase_of_ne (capKey_ne_checkpointKey _)]
    exact h.cap
  · exact h.readable entry (mem_erase.mp hen).2

theorem Represents.updateCheckpointWith (id : UInt32) {update : Checkpoint → Checkpoint}
    (hup : ∀ cp, store.checkpoints.get? id = some cp →
      (update cp).marksRemoved.keys.length < 2 ^ 32) :
    ∃ kv', exec (updateCheckpointWith faithfulCallbacks id fun cp => .ok (update cp)) kv =
        (.ok (store.updateCheckpointWith id update).1, kv') ∧
      Represents kv' (store.updateCheckpointWith id update).2 := by
  have hget : kv.get? (checkpointKey id) = (store.checkpoints.get? id).map writeCheckpoint :=
    h.checkpoints.get? id
  unfold KvShardStore.updateCheckpointWith MemoryShardStore.updateCheckpointWith
  rw [exec_bind (exec_get kv _), hget]
  rcases hcp : store.checkpoints.get? id with _ | cp
  · exact ⟨kv, rfl, h⟩
  have hre := h.readCheckpoint (get?_eq_some_iff.mp hcp)
  refine ⟨_, ?_, h.addCheckpoint id (hup cp hcp)⟩
  simp only [Option.map_some, hre]
  exact exec_bind (exec_set kv _ _)

/-! ### Retained ids -/

theorem Represents.addRetainedCheckpoint (id : UInt32) :
    Represents (kv.insert (retainedCheckpointKey id) [])
      { store with retained := store.retained.insert id () } := by
  refine ⟨h.bounded, h.shards.insert_outside rfl _, ?_, h.checkpoints.insert_outside rfl _,
    h.readable, h.retained.insert id ()⟩
  rw [get?_insert_of_ne (capKey_ne_retainedCheckpointKey _)]
  exact h.cap

theorem Represents.removeRetainedCheckpoint (id : UInt32) :
    Represents (kv.erase (retainedCheckpointKey id))
      { store with retained := store.retained.erase id } := by
  refine ⟨h.bounded, h.shards.erase_outside rfl, ?_, h.checkpoints.erase_outside rfl, h.readable,
    h.retained.erase id⟩
  rw [get?_erase_of_ne (capKey_ne_retainedCheckpointKey _)]
  exact h.cap

theorem Represents.exec_retainedCheckpoints :
    exec (retainedCheckpoints faithfulCallbacks) kv = (.ok store.retained, kv) := by
  have hen : (kv.under [retainedCheckpointPrefix]).entries =
      store.retained.entries.map fun entry => (retainedCheckpointKey entry.1, []) := h.retained
  unfold retainedCheckpoints
  rw [exec_bind (exec_iter kv _ false), exec_pure, if_neg Bool.false_ne_true, hen, filterMap_map]
  have hids : store.retained.entries.filterMap ((fun entry : KvKey × KvBlob => keyId entry.1) ∘
      fun entry => (retainedCheckpointKey entry.1, [])) = store.retained.entries.map Prod.fst := by
    simp only [Function.comp_def, keyId_retainedCheckpointKey, ← filterMap_eq_map]
  rw [hids, foldl_map]
  exact congrArg (fun retained => (Except.ok retained, kv)) (foldl_insert_entries store.retained)

/-! ### Truncation of checkpoints -/

/-- Where a store holds no checkpoint but the retained one, both truncations clear its
marks. -/
theorem Represents.truncateCheckpointsRetaining {id : UInt32}
    (hon : ∀ key ∈ store.checkpoints.keys, key = id) :
    ∃ kv', exec (truncateCheckpointsRetaining faithfulCallbacks id) kv = (.ok (), kv') ∧
      Represents kv' (store.truncateCheckpointsRetaining id) := by
  have hk : ∀ entry ∈ store.checkpoints.entries, entry.1 = id := fun entry he =>
    hon entry.1 (mem_map_of_mem he)
  have hno : keysBelow id
      (store.checkpoints.entries.map fun entry => (checkpointKey entry.1, writeCheckpoint entry.2)) =
        [] := by
    rcases hen : store.checkpoints.entries with _ | ⟨entry, _⟩
    · rfl
    · have hid := hk entry (hen ▸ mem_cons_self)
      simp [keysBelow, hid]
  have hem : (store.checkpoints.filter fun key => decide (key < id)) = .empty := by
    refine ext_mem fun entry => ⟨fun hmem => ?_, nofun⟩
    obtain ⟨he, hlt⟩ := mem_filter.mp hmem
    rw [hk entry he] at hlt
    simp at hlt
  have hget : kv.get? (checkpointKey id) = (store.checkpoints.get? id).map writeCheckpoint :=
    h.checkpoints.get? id
  unfold KvShardStore.truncateCheckpointsRetaining MemoryShardStore.truncateCheckpointsRetaining
  rw [exec_bind (exec_iter kv _ false), if_neg Bool.false_ne_true, h.under_checkpoints, hno,
    exec_bind (exec_deleteAll [] kv), clearMarks, exec_bind (exec_get _ _)]
  dsimp only [foldl_nil]
  rw [hget, hem]
  rcases hcp : store.checkpoints.get? id with _ | cp
  · -- Without the retained checkpoint there is none.
    have hall : store.checkpoints = .empty := by
      refine ext_mem fun entry => ⟨fun hmem => ?_, nofun⟩
      have hs :=
        get?_eq_some_iff.mpr (hk entry hmem ▸ hmem : (id, entry.2) ∈ store.checkpoints.entries)
      rw [hcp] at hs
      cases hs
    exact ⟨kv, rfl, hall ▸ h⟩
  · have hre := h.readCheckpoint (get?_eq_some_iff.mp hcp)
    have hsa : store.checkpoints.insert id ⟨cp.position, .empty⟩ =
        empty.insert id ⟨cp.position, .empty⟩ := by
      refine ext_mem fun entry => ?_
      rw [mem_insert, mem_insert]
      constructor
      · rintro (hnew | ⟨hne, hold⟩)
        · exact .inl hnew
        · exact absurd (hk entry hold) hne
      · rintro (hnew | ⟨-, hold⟩)
        · exact .inl hnew
        · cases hold
    have hma : (⟨cp.position, .empty⟩ : Checkpoint).marksRemoved.keys.length < 2 ^ 32 :=
      Nat.two_pow_pos 32
    have hc := h.addCheckpoint id hma
    rw [hsa] at hc
    refine ⟨_, ?_, hc⟩
    simp only [Option.map_some, hre]
    exact exec_set kv _ _

end

/-! ### Runs -/

/-- The operations on which the stores agree: shards are written without gaps, a checkpoint
has fewer than `2 ^ 32` marks, and a truncation finds no checkpoint but the retained one. -/
def Admissible (store : MemoryShardStore) : StoreOperation → Prop
  | .putShard subtree => subtree.index.toNat ≤ store.shards.length
  | .addCheckpoint _ checkpoint => checkpoint.marksRemoved.keys.length < 2 ^ 32
  | .updateCheckpointWith id update =>
    ∀ cp, store.checkpoints.get? id = some cp → (update cp).marksRemoved.keys.length < 2 ^ 32
  | .truncateCheckpointsRetaining id => ∀ key ∈ store.checkpoints.keys, key = id
  | _ => True

def AdmissibleRun : MemoryShardStore → List StoreOperation → Prop
  | _, [] => True
  | store, operation :: rest => Admissible store operation ∧
      AdmissibleRun (store.perform operation).2 rest

def runKv : KvState → List StoreOperation → List (Except KvError StoreReply) × KvState
  | kv, [] => ([], kv)
  | kv, operation :: rest =>
    let (reply, after) := exec (KvShardStore.perform faithfulCallbacks operation) kv
    let (replies, final) := runKv after rest
    (reply :: replies, final)

def runMemory : MemoryShardStore → List StoreOperation → List StoreReply × MemoryShardStore
  | store, [] => ([], store)
  | store, operation :: rest =>
    let (reply, after) := store.perform operation
    let (replies, final) := runMemory after rest
    (reply :: replies, final)

theorem Represents.perform (h : Represents kv store) {operation : StoreOperation}
    (hadm : Admissible store operation) :
    ∃ kv', exec (perform faithfulCallbacks operation) kv = (.ok (store.perform operation).1, kv') ∧
      Represents kv' (store.perform operation).2 := by
  cases operation with
  | getShard index => exact ⟨kv, exec_map _ (h.exec_getShard index), h⟩
  | lastShard => exact ⟨kv, exec_map _ h.exec_lastShard, h⟩
  | putShard => exact ⟨_, exec_map _ (exec_set kv _ _), h.putShard hadm⟩
  | getShardRoots => exact ⟨kv, exec_map _ h.exec_getShardRoots, h⟩
  | truncateShards shardIndex =>
    obtain ⟨kv', he, ha⟩ := h.truncateShards shardIndex
    exact ⟨kv', exec_map _ he, ha⟩
  | getCap => exact ⟨kv, exec_map _ h.exec_getCap, h⟩
  | putCap cap => exact ⟨_, exec_map _ (exec_set kv _ _), h.putCap cap⟩
  | minCheckpointId => exact ⟨kv, exec_map _ h.exec_minCheckpointId, h⟩
  | maxCheckpointId => exact ⟨kv, exec_map _ h.exec_maxCheckpointId, h⟩
  | addCheckpoint id => exact ⟨_, exec_map _ (exec_set kv _ _), h.addCheckpoint id hadm⟩
  | checkpointCount => exact ⟨kv, exec_map _ h.exec_checkpointCount, h⟩
  | getCheckpointAtDepth checkpointDepth =>
      exact ⟨kv, exec_map _ (h.exec_getCheckpointAtDepth checkpointDepth), h⟩
  | getCheckpoint id => exact ⟨kv, exec_map _ (h.exec_getCheckpoint id), h⟩
  | withCheckpoints limit visitor | forEachCheckpoint limit visitor =>
      exact ⟨kv, exec_map _ (h.exec_forEachCheckpoint limit visitor), h⟩
  | updateCheckpointWith id =>
    obtain ⟨kv', he, ha⟩ := h.updateCheckpointWith id hadm
    exact ⟨kv', exec_map _ he, ha⟩
  | removeCheckpoint id => exact ⟨_, exec_map _ (exec_delete kv _), h.removeCheckpoint id⟩
  | addRetainedCheckpoint id => exact ⟨_, exec_map _ (exec_set kv _ _), h.addRetainedCheckpoint id⟩
  | removeRetainedCheckpoint id =>
    exact ⟨_, exec_map _ (exec_delete kv _), h.removeRetainedCheckpoint id⟩
  | retainedCheckpoints => exact ⟨kv, exec_map _ h.exec_retainedCheckpoints, h⟩
  | truncateCheckpointsRetaining =>
    obtain ⟨kv', he, ha⟩ := h.truncateCheckpointsRetaining hadm
    exact ⟨kv', exec_map _ he, ha⟩

theorem Represents.run (h : Represents kv store) {operations : List StoreOperation}
    (hadm : AdmissibleRun store operations) :
    (runKv kv operations).1 = (runMemory store operations).1.map .ok ∧
      Represents (runKv kv operations).2 (runMemory store operations).2 := by
  induction operations generalizing kv store with
  | nil => exact ⟨rfl, h⟩
  | cons _ _ ih =>
    obtain ⟨_, hexe, haf⟩ := h.perform hadm.1
    obtain ⟨hre, hfi⟩ := ih haf hadm.2
    simp only [runKv, hexe, runMemory]
    exact ⟨congrArg _ hre, hfi⟩

/-- A key-value store without entries of a shard store, whatever else it holds. -/
structure Unused (kv : KvState) : Prop where
  shards : (kv.under [shardPrefix]).entries = []
  cap : kv.get? capKey = none
  checkpoints : (kv.under [checkpointPrefix]).entries = []
  retained : (kv.under [retainedCheckpointPrefix]).entries = []

theorem Unused.represents (h : Unused kv) : Represents kv .empty :=
  ⟨Nat.zero_le _, h.shards, .inr ⟨h.cap, rfl⟩, h.checkpoints, nofun, h.retained⟩

/-- Over every admissible sequence the key-value store answers as the reference does, and
so does any admissible operation after it. -/
theorem kv_refines_memory (hunused : Unused kv) {operations : List StoreOperation}
    (hadm : AdmissibleRun .empty operations) :
    (runKv kv operations).1 = (runMemory .empty operations).1.map .ok ∧
      ∀ operation, Admissible (runMemory .empty operations).2 operation →
        (exec (KvShardStore.perform faithfulCallbacks operation) (runKv kv operations).2).1 =
          .ok ((runMemory .empty operations).2.perform operation).1 := by
  obtain ⟨hre, hfi⟩ := hunused.represents.run hadm
  refine ⟨hre, fun operation hop => ?_⟩
  obtain ⟨_, hexe, -⟩ := hfi.perform hop
  rw [hexe]

theorem kv_refines_memory_checkpoint : let operations : List StoreOperation :=
      [.putShard ⟨0, MemoryShardStore.emptyShard⟩, .addCheckpoint 3 ⟨some 0, .empty⟩,
        .maxCheckpointId]
    (runKv .empty operations).1 = [.ok .done, .ok .done, .ok (.checkpointId (some 3))] := by
  intro operations
  have hun : Unused .empty := ⟨rfl, rfl, rfl, rfl⟩
  have hadm : AdmissibleRun .empty operations :=
    ⟨Nat.zero_le _, Nat.two_pow_pos 32, trivial, trivial⟩
  exact (kv_refines_memory hun hadm).1

/-- Retaining checkpoint two of one to three: the reference keeps one and two, the
key-value store two and three. -/
theorem truncation_keeps_later_checkpoints :
    let operations :
      List StoreOperation := [.addCheckpoint 1 ⟨none, .empty⟩, .addCheckpoint 2 ⟨none, .empty⟩,
      .addCheckpoint 3 ⟨none, .empty⟩, .truncateCheckpointsRetaining 2, .minCheckpointId,
        .maxCheckpointId]
    (runKv .empty operations).1.drop 4 = [.ok (.checkpointId (some 2)),
      .ok (.checkpointId (some 3))] ∧
      (runMemory .empty operations).1.drop 4 = [.checkpointId (some 1),
        .checkpointId (some 2)] := by
  intro operations
  exact ⟨rfl, rfl⟩

-- A shard written past the end: the reference fills up the vector, the key-value store
-- has nothing at the lower index.
example :
    let operations :
      List StoreOperation := [.putShard ⟨1, MemoryShardStore.emptyShard⟩, .getShard 0]
    (runKv .empty operations).1.getLast? = some (.ok (.shard none)) ∧
      (runMemory .empty operations).1.getLast? =
        some (.shard (some ⟨0, MemoryShardStore.emptyShard⟩)) :=
  ⟨rfl, rfl⟩

end ZcashVoting.CommitmentTree
