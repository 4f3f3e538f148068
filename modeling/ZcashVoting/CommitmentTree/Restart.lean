import ZcashVoting.CommitmentTree.MerklePath
import ZcashVoting.CommitmentTree.Server
import ZcashVoting.CommitmentTree.ShardStoreRefinement

/-!
# Restarting the key-value tree server

A tree server keeps its latest checkpoint and its leaf count beside the store. A restart
has only the store: it finds the checkpoint under the largest checkpoint key, and the host
tells it the count.
-/
namespace ZcashVoting.CommitmentTree

open Bytes List

variable {H ε : Type}

inductive AppendFromKvError (ε : Type) where
  | kv (error : KvError)
  | missingLeaf (index : Nat)
  | malformedLeaf (index : Nat)
  | tree (error : ε)

namespace GenericTreeServer

/-- `TreeServer::new`; an unreadable store has no checkpoint. -/
def new (kv : KvState) (nextPosition : Nat) : GenericTreeServer KvState where
  inner := kv
  latestCheckpoint :=
    (KvM.exec (KvShardStore.maxCheckpointId faithfulCallbacks) kv).1.toOption.join.map UInt32.toNat
  nextPosition := nextPosition

def leafKey (index : Nat) : KvKey := 0x02 :: beBytes 8 index

/-- What an outside caller does between two restarts; `putLeaf` is the application's own
write of a leaf that `append_from_kv` will read. -/
inductive Operation (H : Type) where
  | append (leaf : H)
  | appendTwo (first second : H)
  | putLeaf (index : Nat) (blob : KvBlob)
  | appendFromKv (cursor count : Nat)
  | checkpoint (height : Nat)

structure Answers (H : Type) where
  size : Nat
  latestCheckpoint : Option Nat
  root : H
  rootAtHeight : Nat → Option H
  path : Nat → Nat → Option (MerklePath H)

section Model

variable (crate : ShardTreeCrate KvState H ε) (fromRepr : KvBlob → Option H)
  (server : GenericTreeServer KvState)

def path (position anchorHeight : Nat) : Option (MerklePath H) :=
  (crate.witnessAtCheckpointId server.inner position anchorHeight).toOption.join.map .ofPath

def appendTwo (first second : H) : Except ε Nat × GenericTreeServer KvState :=
  match server.append crate first with
  | (.error error, server) => (.error error, server)
  | (.ok index, server) =>
    match server.append crate second with
    | (.error error, server) => (.error error, server)
    | (.ok _, server) => (.ok index, server)

/-- The leaf that the body of the loop of `append_from_kv` appends. -/
def readLeaf (index : Nat) : Except (AppendFromKvError ε) H :=
  match (KvM.exec (faithfulCallbacks.get (leafKey index)) server.inner).1 with
  | .error error => .error (.kv error)
  | .ok none => .error (.missingLeaf index)
  | .ok (some blob) =>
    if blob.length ≠ 32 then .error (.malformedLeaf index)
    else (fromRepr blob).elim (.error (.malformedLeaf index)) .ok

/-- `append_from_kv`; the leaves before a failure stay. -/
def appendFromKv (cursor : Nat) : (count : Nat) → GenericTreeServer KvState →
    Except (AppendFromKvError ε) Unit × GenericTreeServer KvState
  | 0, server => (.ok (), server)
  | count + 1, server =>
    match server.readLeaf fromRepr cursor with
    | .error error => (.error error, server)
    | .ok leaf =>
      match server.append crate leaf with
      | (.error error, server) => (.error (.tree error), server)
      | (.ok _, server) => appendFromKv (cursor + 1) count server

/-- The server after an operation, refused or not. -/
def perform : Operation H → GenericTreeServer KvState
  | .append leaf => (server.append crate leaf).2
  | .appendTwo first second => (server.appendTwo crate first second).2
  | .putLeaf index blob => { server with inner := server.inner.insert (leafKey index) blob }
  | .appendFromKv cursor count => (appendFromKv crate fromRepr cursor count server).2
  | .checkpoint height => (server.checkpoint crate height).2

def run (operations : List (Operation H)) : GenericTreeServer KvState :=
  operations.foldl (perform crate fromRepr) server

def answers (hash : VoteHash H) : Answers H :=
  ⟨server.size, server.latestCheckpoint, server.root crate hash, server.rootAtHeight crate,
    server.path crate⟩

end Model

/-- The server after the operations `done` from a first boot on `kv`, with restarts
anywhere between them. The host restarts it with the number of leaves in the store. -/
inductive Reached (crate : ShardTreeCrate KvState H ε) (fromRepr : KvBlob → Option H)
    (StandsFor : KvState → Contents H → Prop) (kv : KvState) :
    List (Operation H) → GenericTreeServer KvState → Prop
  | boot : Reached crate fromRepr StandsFor kv [] (new kv 0)
  | perform {done server} (operation : Operation H) :
      Reached crate fromRepr StandsFor kv done server →
      Reached crate fromRepr StandsFor kv (done ++ [operation])
        (server.perform crate fromRepr operation)
  | restart {done server} (nextIndex : Nat) :
      Reached crate fromRepr StandsFor kv done server →
      (∀ contents, StandsFor server.inner contents → nextIndex = contents.leaves.length) →
      Reached crate fromRepr StandsFor kv done (new server.inner nextIndex)

/-- What is relied on for a tree over the key-value store: its checkpoints are the
checkpoints of the store, and the application's leaves are no part of it. -/
structure KvLaws (crate : ShardTreeCrate KvState H ε) (hash : VoteHash H)
    (StandsFor : KvState → Contents H → Prop) : Prop extends crate.Laws hash StandsFor where
  checkpoints : ∀ {kv contents}, StandsFor kv contents → ∃ store, Represents kv store ∧
    store.checkpoints.keys.map UInt32.toNat = contents.checkpoints.map Prod.fst
  putLeaf : ∀ {kv contents} index blob, StandsFor kv contents →
    StandsFor (kv.insert (leafKey index) blob) contents

theorem latestCheckpoint_new {kv : KvState} {store : MemoryShardStore} (h : Represents kv store)
    (nextPosition : Nat) : (new kv nextPosition).latestCheckpoint =
      (store.checkpoints.keys.map UInt32.toNat).getLast? := by
  rw [new, h.exec_maxCheckpointId, getLast?_map]
  rfl

section Runs

variable {crate : ShardTreeCrate KvState H ε} {fromRepr : KvBlob → Option H} {hash : VoteHash H}
  {StandsFor : KvState → Contents H → Prop} {contents : Contents H}
  {server : GenericTreeServer KvState} {kv : KvState} (laws : KvLaws crate hash StandsFor)

include laws

/-- What a restart finds in the store is what the running server kept beside it. -/
theorem new_eq (h : server.Consistent StandsFor contents) :
    new server.inner contents.leaves.length = server := by
  obtain ⟨store, hs, hids⟩ := laws.checkpoints h.stands
  have hlatest : (contents.checkpoints.map Prod.fst).getLast? = server.latestCheckpoint := by
    rcases hl : server.latestCheckpoint with _ | id
    · simp [h.unmarked hl]
    · obtain ⟨older, count, heq, -⟩ := h.newest id hl
      simp [heq]
  calc new server.inner contents.leaves.length
      = ⟨server.inner, (new server.inner contents.leaves.length).latestCheckpoint,
          contents.leaves.length⟩ := rfl
    _ = ⟨server.inner, server.latestCheckpoint, server.nextPosition⟩ := by
        rw [latestCheckpoint_new hs, hids, hlatest, h.position]

theorem consistent_boot (h : StandsFor kv ⟨[], []⟩) : (new kv 0).Consistent StandsFor ⟨[], []⟩ := by
  obtain ⟨store, hs, hids⟩ := laws.checkpoints h
  have hlatest : (new kv 0).latestCheckpoint = none := by
    rw [latestCheckpoint_new hs, hids]
    rfl
  exact ⟨h, rfl, fun _ => rfl, fun id hid => nomatch hlatest.symm.trans hid⟩

/-! ### What one operation keeps -/

theorem Consistent.append_snd (h : server.Consistent StandsFor contents) (leaf : H) :
    ∃ contents', (server.append crate leaf).2.Consistent StandsFor contents' := by
  rcases h.append laws.toLaws leaf with ⟨_, heq, -, hs⟩ | ⟨_, _, heq, -, hs⟩
  · rw [heq]
    exact ⟨_, hs⟩
  · rw [heq]
    exact ⟨_, hs⟩

theorem Consistent.appendTwo (h : server.Consistent StandsFor contents) (first second : H) :
    ∃ contents', (server.appendTwo crate first second).2.Consistent StandsFor contents' := by
  obtain ⟨contents', hs⟩ := h.append_snd laws first
  unfold GenericTreeServer.appendTwo
  split
  next heq => exact ⟨contents', heq ▸ hs⟩
  next heq =>
    rw [heq] at hs
    obtain ⟨contents'', hs'⟩ := hs.append_snd laws second
    split
    next heq' => exact ⟨contents'', heq' ▸ hs'⟩
    next heq' =>
      rw [heq'] at hs'
      exact ⟨contents'', hs'⟩

theorem Consistent.appendFromKv (h : server.Consistent StandsFor contents) (cursor count : Nat) :
    ∃ contents', (appendFromKv crate fromRepr cursor count server).2.Consistent StandsFor
      contents' := by
  induction count generalizing server contents cursor with
  | zero => exact ⟨contents, h⟩
  | succ _ ih =>
    unfold GenericTreeServer.appendFromKv
    split
    · exact ⟨contents, h⟩
    next leaf _ =>
      obtain ⟨contents', hs⟩ := h.append_snd laws leaf
      split
      next heq =>
        rw [heq] at hs
        exact ⟨contents', hs⟩
      next heq =>
        rw [heq] at hs
        exact ih hs (cursor + 1)

theorem Consistent.perform (h : server.Consistent StandsFor contents) (operation : Operation H) :
    ∃ contents', (server.perform crate fromRepr operation).Consistent StandsFor contents' := by
  cases operation with
  | append leaf => exact h.append_snd laws leaf
  | appendTwo first second => exact h.appendTwo laws first second
  | putLeaf index blob =>
    exact ⟨contents, laws.putLeaf index blob h.stands, h.position, h.unmarked, h.newest⟩
  | appendFromKv cursor count => exact h.appendFromKv laws cursor count
  | checkpoint height =>
    rw [GenericTreeServer.perform]
    rcases h.checkpoint laws.toLaws height with ⟨_, heq, -, -, -, -, hs⟩ | ⟨_, _, heq, -, hs⟩
    · rw [heq]
      exact ⟨_, hs⟩
    · rw [heq]
      exact ⟨_, hs⟩

/-- Restarts leave no trace: the store, the latest checkpoint and the count are those of
the same operations without one. -/
theorem Reached.eq_run (hboot : StandsFor kv ⟨[], []⟩) {done : List (Operation H)}
    (h : Reached crate fromRepr StandsFor kv done server) :
    server = run crate fromRepr (new kv 0) done ∧
      ∃ contents, server.Consistent StandsFor contents := by
  induction h with
  | boot => exact ⟨rfl, _, consistent_boot laws hboot⟩
  | perform operation _ ih =>
    obtain ⟨heq, _, hs⟩ := ih
    exact ⟨by rw [run, foldl_append, heq]; rfl, hs.perform laws operation⟩
  | restart nextIndex _ hnext ih =>
    obtain ⟨heq, contents, hs⟩ := ih
    rw [hnext contents hs.stands, new_eq laws hs]
    exact ⟨heq, contents, hs⟩

end Runs

/-! ### A tree over the store -/

/-- A cap that says how many leaves there are. -/
def tally : Nat → PrunableTree
  | 0 => .nil
  | count + 1 => .parent none .nil (tally count)

def readTally : PrunableTree → Nat
  | .parent _ _ right => readTally right + 1
  | _ => 0

theorem readTally_tally (count : Nat) : readTally (tally count) = count := by
  induction count with
  | zero => rfl
  | succ _ ih => rw [tally, readTally, ih]

def leafCount (kv : KvState) : Nat :=
  (KvM.exec (KvShardStore.getCap faithfulCallbacks) kv).1.toOption.elim 0 readTally

/-- The tree of leaves that do not differ, with one checkpoint. -/
def tallyTree : ShardTreeCrate KvState Unit Unit where
  empty := .empty
  append kv _ _ :=
    if leafCount kv < treeCapacity then
      (.ok (), kv.insert capKey (Serde.writeShardVote (tally (leafCount kv + 1))))
    else (.error (), kv)
  checkpoint kv id :=
    if (new kv 0).latestCheckpoint = none ∧ id < 2 ^ 32 then
      (.ok (), kv.insert (checkpointKey (.ofNat id)) (Serde.writeCheckpoint ⟨none, .empty⟩))
    else (.error (), kv)
  rootAtCheckpointId kv id :=
    .ok (if (new kv 0).latestCheckpoint = some id then some () else none)
  witnessAtCheckpointId _ _ _ := .ok none

structure Tallied (kv : KvState) (contents : Contents Unit) : Prop where
  kept : ∃ store, Represents kv store ∧ store.cap = tally contents.leaves.length ∧
    store.checkpoints.keys.map UInt32.toNat = contents.checkpoints.map Prod.fst
  capacity : contents.leaves.length ≤ treeCapacity
  single : contents.checkpoints.length ≤ 1

section TallyTree

variable {kv : KvState} {contents : Contents Unit}

theorem Tallied.leafCount_eq (h : Tallied kv contents) :
    leafCount kv = contents.leaves.length := by
  obtain ⟨store, hs, hcap, -⟩ := h.kept
  rw [leafCount, hs.exec_getCap, hcap]
  exact readTally_tally _

theorem Tallied.latestCheckpoint_eq (h : Tallied kv contents) :
    (new kv 0).latestCheckpoint = (contents.checkpoints.map Prod.fst).getLast? := by
  obtain ⟨store, hs, -, hids⟩ := h.kept
  rw [latestCheckpoint_new hs, hids]

/-- A key outside the store leaves it as it is. -/
theorem represents_putLeaf {store : MemoryShardStore} (h : Represents kv store) (index : Nat)
    (blob : KvBlob) : Represents (kv.insert (leafKey index) blob) store := by
  refine ⟨h.bounded, h.shards.insert_outside rfl _, ?_, h.checkpoints.insert_outside rfl _,
    h.readable, h.retained.insert_outside rfl _⟩
  rw [OrderedMap.get?_insert_of_ne (by simp [leafKey, capKey, beBytes])]
  exact h.cap

theorem Tallied.append (h : Tallied kv contents) (leaf : Unit)
    (hroom : contents.leaves.length < treeCapacity) :
    Tallied (kv.insert capKey (Serde.writeShardVote (tally (contents.leaves.length + 1))))
      (contents.append leaf) := by
  obtain ⟨store, hs, -, hids⟩ := h.kept
  refine ⟨⟨_, hs.putCap _, by simp [Contents.append], hids⟩, ?_, h.single⟩
  simpa [Contents.append] using hroom

theorem Tallied.checkpoint (h : Tallied kv contents) {id : Nat}
    (hno : (new kv 0).latestCheckpoint = none) (hid : id < 2 ^ 32) :
    Tallied (kv.insert (checkpointKey (.ofNat id)) (Serde.writeCheckpoint ⟨none, .empty⟩))
      (contents.checkpoint id) := by
  obtain ⟨store, hs, hcap, hids⟩ := h.kept
  rw [h.latestCheckpoint_eq, getLast?_map, Option.map_eq_none_iff, getLast?_eq_none_iff] at hno
  have hstored : store.checkpoints = .empty := by
    rw [hno, map_nil, map_eq_nil_iff, OrderedMap.keys, map_eq_nil_iff] at hids
    exact OrderedMap.ext_mem fun _ => by rw [hids]; rfl
  have hcontents : contents.checkpoint id = { contents with
      checkpoints := [(id, contents.leaves.length)] } := by
    simp [Contents.checkpoint, hno, maxCheckpoints]
  rw [hcontents]
  refine ⟨⟨_, hs.addCheckpoint (.ofNat id) (Nat.two_pow_pos 32), hcap, ?_⟩, h.capacity, by simp⟩
  rw [hstored]
  exact congrArg (fun id => [id]) (Nat.mod_eq_of_lt hid)

theorem Tallied.leavesAt (h : Tallied kv contents) (id : Nat) :
    (contents.leavesAt id).map (fun _ => ()) =
      if (new kv 0).latestCheckpoint = some id then some () else none := by
  rw [h.latestCheckpoint_eq, Contents.leavesAt]
  rcases hc : contents.checkpoints with _ | ⟨entry, rest⟩
  · rfl
  · obtain rfl : rest = [] := by
      have := h.single
      simpa [hc] using this
    by_cases he : entry.1 = id
    · simp [he]
    · simp [he]

theorem tallyTree_laws : KvLaws tallyTree ⟨fun _ _ => (), ()⟩ Tallied where
  empty := by
    have hunused : Unused .empty := ⟨rfl, rfl, rfl, rfl⟩
    exact ⟨⟨_, hunused.represents, rfl, rfl⟩, Nat.zero_le _, Nat.zero_le _⟩
  capacity h := h.capacity
  append_ok h heq := by
    unfold tallyTree at heq
    dsimp only at heq
    rw [h.leafCount_eq] at heq
    split at heq
    next hroom =>
      obtain rfl := (Prod.mk.inj heq).2
      exact ⟨hroom, h.append _ hroom⟩
    · cases (Prod.mk.inj heq).1
  append_error h heq := by
    unfold tallyTree at heq
    dsimp only at heq
    split at heq
    · cases (Prod.mk.inj heq).1
    · exact (Prod.mk.inj heq).2 ▸ h
  checkpoint_ok h heq := by
    unfold tallyTree at heq
    dsimp only at heq
    split at heq
    next hno =>
      obtain rfl := (Prod.mk.inj heq).2
      exact h.checkpoint hno.1 hno.2
    · cases (Prod.mk.inj heq).1
  checkpoint_error h heq := by
    unfold tallyTree at heq
    dsimp only at heq
    split at heq
    · cases (Prod.mk.inj heq).1
    · exact (Prod.mk.inj heq).2 ▸ h
  root id h := congrArg Except.ok (h.leavesAt id).symm
  witness _ heq := nomatch Except.ok.inj heq
  checkpoints h := by
    obtain ⟨store, hs, -, hids⟩ := h.kept
    exact ⟨store, hs, hids⟩
  putLeaf index blob h := by
    obtain ⟨store, hs, hcap, hids⟩ := h.kept
    exact ⟨⟨store, represents_putLeaf hs index blob, hcap, hids⟩, h.capacity, h.single⟩

end TallyTree

end GenericTreeServer

end ZcashVoting.CommitmentTree
