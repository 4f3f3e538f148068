import ZcashVoting.CommitmentTree.Mirroring

/-!
# The syncable server

`SyncableServer` keeps, next to its tree, the leaves of each block that a client can
download. The blocks tile the leaves appended since the tree was wrapped, and they are
numbered from zero: they describe the tree only if it was wrapped without leaves.
-/
namespace ZcashVoting.CommitmentTree

open List TreeClient

variable {S H ε : Type} {hash : VoteHash H} {StandsFor : S → Contents H → Prop}
  {contents : Contents H}

inductive CheckpointError (ε : Type) where
  | notMonotonic (prev requested : Nat)
  | tree (error : ε)
  deriving DecidableEq

/-! ### The tree -/

structure GenericTreeServer (S : Type) where
  inner : S
  latestCheckpoint : Option Nat
  nextPosition : Nat
  deriving DecidableEq

namespace GenericTreeServer

variable (crate : ShardTreeCrate S H ε) (tree : GenericTreeServer S)

def append (leaf : H) : Except ε Nat × GenericTreeServer S :=
  match crate.append tree.inner leaf .marked with
  | (.error error, inner) => (.error error, { tree with inner := inner })
  | (.ok (), inner) =>
    (.ok tree.nextPosition,
      { tree with inner := inner, nextPosition := tree.nextPosition + 1 })

def checkpoint (height : Nat) : Except (CheckpointError ε) Unit × GenericTreeServer S :=
  match tree.latestCheckpoint.filter fun prev => decide (height ≤ prev) with
  | some prev => (.error (.notMonotonic prev height), tree)
  | none =>
    match crate.checkpoint tree.inner height with
    | (.error error, inner) => (.error (.tree error), { tree with inner := inner })
    | (.ok (), inner) => (.ok (), { tree with inner := inner, latestCheckpoint := some height })

def rootAtHeight (height : Nat) : Option H :=
  (crate.rootAtCheckpointId tree.inner height).toOption.join

def root (hash : VoteHash H) : H :=
  match tree.latestCheckpoint with
  | some id => (tree.rootAtHeight crate id).getD hash.emptyRoot
  | none => hash.emptyRoot

def size : Nat := tree.nextPosition

/-- What the tree stands for, with the counters beside it. -/
structure Consistent (StandsFor : S → Contents H → Prop) (contents : Contents H)
    (tree : GenericTreeServer S) : Prop where
  stands : StandsFor tree.inner contents
  position : tree.nextPosition = contents.leaves.length
  unmarked : tree.latestCheckpoint = none → contents.checkpoints = []
  newest : ∀ id, tree.latestCheckpoint = some id → ∃ older count,
    contents.checkpoints = older ++ [(id, count)] ∧ (∀ entry ∈ older, entry.1 < id) ∧
      count ≤ contents.leaves.length

variable {crate tree} {height : Nat}

theorem rootAtHeight_eq (laws : crate.Laws hash StandsFor) (h : tree.Consistent StandsFor contents)
    (height : Nat) : tree.rootAtHeight crate height = (contents.leavesAt height).map hash.root := by
  rw [rootAtHeight, laws.root height h.stands]
  rfl

/-- A leaf goes in, or what the tree stands for is left as it was. -/
theorem Consistent.append (laws : crate.Laws hash StandsFor)
    (h : tree.Consistent StandsFor contents) (leaf : H) :
    (∃ tree', tree.append crate leaf = (.ok tree.nextPosition, tree') ∧
        tree'.latestCheckpoint = tree.latestCheckpoint ∧
        tree'.Consistent StandsFor (contents.append leaf)) ∨
      ∃ error tree', tree.append crate leaf = (.error error, tree') ∧
        tree'.latestCheckpoint = tree.latestCheckpoint ∧ tree'.Consistent StandsFor contents := by
  unfold GenericTreeServer.append
  split
  next hc =>
    exact .inr ⟨_, _, rfl, rfl, laws.append_error h.stands hc, h.position, h.unmarked, h.newest⟩
  next hc =>
    refine .inl ⟨_, rfl, rfl, (laws.append_ok h.stands hc).2, ?_, h.unmarked, fun id hid => ?_⟩
    · simp [Contents.append, h.position]
    · obtain ⟨older, count, heq, holder, hco⟩ := h.newest id hid
      exact ⟨older, count, heq, holder, by simpa [Contents.append] using Nat.le_succ_of_le hco⟩

/-- Every checkpoint is below a height that a checkpoint accepts. -/
theorem Consistent.below (h : tree.Consistent StandsFor contents)
    (hnew : ∀ prev, tree.latestCheckpoint = some prev → prev < height) :
    ∀ entry ∈ contents.checkpoints, entry.1 < height := by
  intro entry he
  rcases hl : tree.latestCheckpoint with _ | prev
  · rw [h.unmarked hl] at he
    cases he
  obtain ⟨_, _, heq, holder, -⟩ := h.newest prev hl
  rw [heq] at he
  rcases mem_append.mp he with hold | hla
  · exact Nat.lt_trans (holder entry hold) (hnew prev hl)
  · rw [mem_singleton.mp hla]
    exact hnew prev hl

/-- A checkpoint covers the tree, or what the tree stands for is left as it was. -/
theorem Consistent.checkpoint (laws : crate.Laws hash StandsFor)
    (h : tree.Consistent StandsFor contents) (height : Nat) :
    (∃ tree', tree.checkpoint crate height = (.ok (), tree') ∧
        (∀ prev, tree.latestCheckpoint = some prev → prev < height) ∧
        tree'.nextPosition = tree.nextPosition ∧ tree'.latestCheckpoint = some height ∧
        (contents.checkpoint height).Covered height ∧
        tree'.Consistent StandsFor (contents.checkpoint height)) ∨
      ∃ error tree', tree.checkpoint crate height = (.error error, tree') ∧
        tree'.latestCheckpoint = tree.latestCheckpoint ∧ tree'.Consistent StandsFor contents := by
  unfold GenericTreeServer.checkpoint
  split
  · exact .inr ⟨_, _, rfl, rfl, h⟩
  next hfilter =>
  split
  next hc =>
    exact .inr ⟨_, _, rfl, rfl, laws.checkpoint_error h.stands hc, h.position, h.unmarked, h.newest⟩
  next hc =>
    have hnew : ∀ prev, tree.latestCheckpoint = some prev → prev < height := by
      intro prev hp
      simpa [hp, Option.filter] using hfilter
    have hcov := Contents.covered_checkpoint (h.below hnew)
    refine .inl ⟨_, rfl, hnew, rfl, rfl, hcov, laws.checkpoint_ok h.stands hc, ?_, nofun, ?_⟩
    · simpa using h.position
    · rintro id ⟨⟩
      obtain ⟨older, heq, holder⟩ := hcov.newest
      exact ⟨older, _, heq, holder, Nat.le_refl _⟩

end GenericTreeServer

/-! ### The server -/

structure SyncableServer (S H : Type) where
  tree : GenericTreeServer S
  /-- The completed blocks by ascending height. -/
  blocks : List (BlockCommitments H)
  pendingLeaves : List H
  pendingStart : Nat
  deriving DecidableEq

def insertBlock : List (BlockCommitments H) → BlockCommitments H → List (BlockCommitments H)
  | [], block => [block]
  | first :: rest, block =>
    if block.height < first.height then block :: first :: rest
    else if block.height = first.height then block :: rest
    else first :: insertBlock rest block

variable {blocks : List (BlockCommitments H)} {block : BlockCommitments H}

theorem insertBlock_of_above (h : ∀ earlier ∈ blocks, earlier.height < block.height) :
    insertBlock blocks block = blocks ++ [block] := by
  induction blocks with
  | nil => rfl
  | cons first _ ih =>
    have hf := h first mem_cons_self
    rw [insertBlock, if_neg (Nat.lt_asymm hf), if_neg (Nat.ne_of_gt hf),
      ih fun earlier hea => h earlier (mem_cons_of_mem first hea), cons_append]

namespace SyncableServer

def new (tree : GenericTreeServer S) : SyncableServer S H := ⟨tree, [], [], 0⟩

variable (crate : ShardTreeCrate S H ε) (server : SyncableServer S H)

def append (leaf : H) : Except ε Nat × SyncableServer S H :=
  match server.tree.append crate leaf with
  | (.error error, tree) => (.error error, { server with tree := tree })
  | (.ok index, tree) =>
    (.ok index, { server with tree := tree, pendingLeaves := server.pendingLeaves ++ [leaf] })

/-- A refused second leaf leaves the first in the tree. -/
def appendTwo (first second : H) : Except ε Nat × SyncableServer S H :=
  match server.append crate first with
  | (.error error, server) => (.error error, server)
  | (.ok index, server) =>
    match server.append crate second with
    | (.error error, server) => (.error error, server)
    | (.ok _, server) => (.ok index, server)

variable (hash : VoteHash H)

def checkpoint (height : Nat) : Except (CheckpointError ε) Unit × SyncableServer S H :=
  match server.tree.checkpoint crate height with
  | (.error error, tree) => (.error error, { server with tree := tree })
  | (.ok (), tree) =>
    let root := (tree.rootAtHeight crate height).getD (tree.root crate hash)
    let commitments : BlockCommitments H :=
      ⟨height, server.pendingStart, server.pendingLeaves, root⟩
    (.ok (), ⟨tree, insertBlock server.blocks commitments, [], tree.nextPosition⟩)

def root : H := server.tree.root crate hash

def size (server : SyncableServer S H) : Nat := server.tree.size

def getBlockCommitments (server : SyncableServer S H) (fromHeight toHeight : Nat) :
    BlockCommitmentsPage H :=
  ⟨server.blocks.filter fun block =>
    decide (fromHeight ≤ block.height) && decide (block.height ≤ toHeight), 0⟩

def getTreeState : TreeState H :=
  ⟨server.size, server.root crate hash, server.tree.latestCheckpoint.getD 0⟩

/-- The server as a client sees it; it never fails. -/
def api (elapsed : Nat → Nat) : TreeSyncApi H Empty where
  state := .ok (server.getTreeState crate hash)
  page := fun _ fromHeight toHeight => .ok (server.getBlockCommitments fromHeight toHeight)
  elapsed := elapsed

inductive Operation (H : Type) where
  | append (leaf : H)
  | appendTwo (first second : H)
  | checkpoint (height : Nat)

/-- The server after an operation, refused or not. -/
def perform : Operation H → SyncableServer S H
  | .append leaf => (server.append crate leaf).2
  | .appendTwo first second => (server.appendTwo crate first second).2
  | .checkpoint height => (server.checkpoint crate hash height).2

def run (operations : List (Operation H)) : SyncableServer S H :=
  operations.foldl (fun server => server.perform crate hash) server

/-! ### The recorded blocks -/

/-- Each block starts at the position of its first leaf, after the leaves `before` it, and
carries the root of the tree up to its last leaf. -/
def Tiles (hash : VoteHash H) : (before : List H) → List (BlockCommitments H) → Prop
  | _, [] => True
  | before, block :: rest =>
    block.startIndex = before.length ∧ block.root = hash.root (before ++ block.leaves) ∧
      Tiles hash (before ++ block.leaves) rest

variable {hash} {server}

theorem Tiles.concat {before : List H} (h : Tiles hash before blocks)
    (hs : block.startIndex = (before ++ receivedLeaves blocks).length)
    (hr : block.root = hash.root (before ++ receivedLeaves blocks ++ block.leaves)) :
    Tiles hash before (blocks ++ [block]) := by
  induction blocks generalizing before with
  | nil =>
    simp only [receivedLeaves, flatMap_nil, append_nil] at hs hr
    exact ⟨hs, hr, trivial⟩
  | cons _ _ ih =>
    simp only [receivedLeaves, flatMap_cons, ← append_assoc] at hs hr
    exact ⟨h.1, h.2.1, ih h.2.2 hs hr⟩

def Ascending (blocks : List (BlockCommitments H)) : Prop := blocks.Pairwise (·.height < ·.height)

theorem Ascending.topped (h : Ascending blocks) : Topped blocks := by
  rcases eq_nil_or_concat blocks with rfl | ⟨before, top, rfl⟩
  · exact fun _ hl => nomatch hl
  · intro last hl
    rw [concat_eq_append, getLast?_concat] at hl
    cases hl
    rw [Ascending, concat_eq_append, pairwise_append] at h
    exact ⟨before, top, [], concat_eq_append .., rfl,
      fun earlier he => h.2.2 earlier he top (mem_singleton_self top), nofun⟩

/-- The records of a server against what its tree stands for. -/
structure Recorded (hash : VoteHash H) (StandsFor : S → Contents H → Prop)
    (contents : Contents H) (server : SyncableServer S H) : Prop where
  consistent : server.tree.Consistent StandsFor contents
  leaves : contents.leaves = receivedLeaves server.blocks ++ server.pendingLeaves
  start : server.pendingStart = (receivedLeaves server.blocks).length
  tiles : Tiles hash [] server.blocks
  ascending : Ascending server.blocks
  heights : ∀ block ∈ server.blocks, ∃ latest,
    server.tree.latestCheckpoint = some latest ∧ block.height ≤ latest
  settled : server.pendingLeaves = [] → ∀ latest, server.tree.latestCheckpoint = some latest →
    contents.Covered latest

theorem recorded_new {tree : GenericTreeServer S} (h : tree.Consistent StandsFor contents)
    (he : contents.leaves = []) : Recorded hash StandsFor contents (new tree) where
  consistent := h
  leaves := he
  start := rfl
  tiles := trivial
  ascending := List.Pairwise.nil
  heights := nofun
  settled := by
    intro _ latest hla
    obtain ⟨older, count, heq, holder, hc⟩ := h.newest latest hla
    have hle : count = contents.leaves.length := by
      rw [he, length_nil] at hc ⊢
      exact Nat.le_zero.mp hc
    exact ⟨older, hle ▸ heq, holder⟩

section

/-- A failed operation changes the tree of a server and not what it stands for. -/
theorem Recorded.failed (h : Recorded hash StandsFor contents server) {tree : GenericTreeServer S}
    (ht : tree.Consistent StandsFor contents)
    (hl : tree.latestCheckpoint = server.tree.latestCheckpoint) :
    Recorded hash StandsFor contents { server with tree := tree } :=
  ⟨ht, h.leaves, h.start, h.tiles, h.ascending, by simpa only [hl] using h.heights,
    by simpa only [hl] using h.settled⟩

variable {crate} (laws : crate.Laws hash StandsFor) (h : Recorded hash StandsFor contents server)
include laws h

theorem Recorded.append (leaf : H) :
    ∃ contents, Recorded hash StandsFor contents (server.append crate leaf).2 := by
  unfold SyncableServer.append
  rcases h.consistent.append laws leaf with ⟨tree, hrun, hl, ht⟩ | ⟨_, tree, hrun, hl, ht⟩
  · rw [hrun]
    refine ⟨_, ht, ?_, h.start, h.tiles, h.ascending, by simpa only [hl] using h.heights,
      fun hno => ?_⟩
    · simp only [Contents.append, h.leaves, append_assoc]
    · simp at hno
  · rw [hrun]
    exact ⟨contents, h.failed ht hl⟩

theorem Recorded.appendTwo (first second : H) :
    ∃ contents, Recorded hash StandsFor contents (server.appendTwo crate first second).2 := by
  obtain ⟨_, hf⟩ := h.append laws first
  unfold SyncableServer.appendTwo
  rcases hone : server.append crate first with ⟨error | _, next⟩ <;> rw [hone] at hf
  · exact ⟨_, hf⟩
  · obtain ⟨_, hs⟩ := hf.append laws second
    dsimp only at hs ⊢
    rcases htwo : next.append crate second with ⟨_ | _, _⟩ <;> rw [htwo] at hs <;> exact ⟨_, hs⟩

theorem Recorded.checkpoint (height : Nat) :
    ∃ contents, Recorded hash StandsFor contents (server.checkpoint crate hash height).2 := by
  unfold SyncableServer.checkpoint
  rcases h.consistent.checkpoint laws height with
    ⟨tree, hrun, hnew, hpos, hl, hcov, ht⟩ | ⟨_, tree, hrun, hl, ht⟩
  · have hbe : ∀ block ∈ server.blocks, block.height < height := by
      intro block hb
      obtain ⟨latest, hso, hle⟩ := h.heights block hb
      exact Nat.lt_of_le_of_lt hle (hnew latest hso)
    rw [hrun]
    dsimp only
    rw [insertBlock_of_above hbe]
    refine ⟨_, ht, ?_, ?_, ?_, ?_, fun block hb => ⟨height, hl, ?_⟩, fun _ latest hso => ?_⟩
    · simpa only [receivedLeaves_concat, Contents.leaves_checkpoint, append_nil] using h.leaves
    · rw [receivedLeaves_concat, ← h.leaves, hpos]
      exact h.consistent.position
    · refine h.tiles.concat h.start ?_
      rw [GenericTreeServer.rootAtHeight_eq laws ht, hcov.leavesAt, Contents.leaves_checkpoint,
        Option.map_some, Option.getD_some, nil_append, h.leaves]
    · refine pairwise_append.mpr ⟨h.ascending, pairwise_singleton _ _, ?_⟩
      intro earlier hea block hb
      rw [mem_singleton.mp hb]
      exact hbe earlier hea
    · rcases mem_append.mp hb with hold | hla
      · exact Nat.le_of_lt (hbe block hold)
      · obtain rfl := mem_singleton.mp hla
        exact Nat.le_refl _
    · cases hl.symm.trans hso
      exact hcov
  · rw [hrun]
    exact ⟨contents, h.failed ht hl⟩

theorem Recorded.run (operations : List (Operation H)) :
    ∃ contents, Recorded hash StandsFor contents (server.run crate hash operations) := by
  induction operations generalizing server contents with
  | nil => exact ⟨contents, h⟩
  | cons operation _ ih =>
    have hstep : ∃ contents, Recorded hash StandsFor contents
        (server.perform crate hash operation) := by
      cases operation with
      | append leaf => exact h.append laws leaf
      | appendTwo first second => exact h.appendTwo laws first second
      | checkpoint height => exact h.checkpoint laws height
    obtain ⟨_, hnext⟩ := hstep
    exact ih hnext

end

/-! ### A fresh client -/

variable {crate}

theorem Recorded.filter_all (h : Recorded hash StandsFor contents server) :
    (server.getBlockCommitments 0 (server.tree.latestCheckpoint.getD 0)).blocks =
    server.blocks := by
  refine filter_eq_self.mpr fun block hbl => ?_
  obtain ⟨_, hla, hle⟩ := h.heights block hbl
  simp [hla, hle]

/-- With nothing pending the server's root is the Merkle root of its leaves. -/
theorem Recorded.root (laws : crate.Laws hash StandsFor)
    (h : Recorded hash StandsFor contents server) (hs : server.pendingLeaves = []) :
    server.root crate hash = hash.root (receivedLeaves server.blocks) := by
  have hle := h.leaves
  rw [hs, append_nil] at hle
  unfold SyncableServer.root GenericTreeServer.root
  rcases hl : server.tree.latestCheckpoint with _ | latest
  · have hno : server.blocks = [] := eq_nil_iff_forall_not_mem.mpr fun block hbl => by
      obtain ⟨latest, hso, -⟩ := h.heights block hbl
      rw [hl] at hso
      cases hso
    rw [hno]
    exact (Merkle.root_nil ..).symm
  · dsimp only
    rw [GenericTreeServer.rootAtHeight_eq laws h.consistent, (h.settled hs latest hl).leavesAt,
      Option.map_some, Option.getD_some, hle]

theorem Recorded.size (h : Recorded hash StandsFor contents server) :
    server.size = (receivedLeaves server.blocks).length + server.pendingLeaves.length := by
  have hpo : server.size = contents.leaves.length := h.consistent.position
  rw [hpo, h.leaves, length_append]

section

variable [DecidableEq H] {M μ E : Type} {memory : ShardTreeCrate M H μ}
  {InMemory : M → Contents H → Prop} (mlaws : memory.InMemory hash InMemory)
  {done : List (BlockCommitments H)} {client : TreeClient M}
include mlaws

/-- A block at the client's position with the root of the extended tree is applied. -/
theorem syncBlock_of_next (h : Mirrors InMemory done client) (hasc : Ascending (done ++ [block]))
    (hst : block.startIndex = (receivedLeaves done).length)
    (hro : block.root = hash.root (receivedLeaves done ++ block.leaves))
    (hfi : (receivedLeaves done).length + block.leaves.length ≤ treeCapacity) :
    ∃ synced, (syncBlock memory client block : Outcome M H E) = (.ok (), synced) ∧
      Mirrors InMemory (done ++ [block]) synced := by
  have hpos : client.nextPosition = (receivedLeaves done).length := by
    rw [h.holds.position, leaves_contentsOf]
  rcases syncBlock_cases (E := E) mlaws h.holds block with
    ⟨hin, -⟩ | ⟨⟨-, -, hfull⟩, -⟩ | ⟨-, synced, hsy, hheight, hrun⟩
  · exact absurd (hst.trans hpos.symm) hin.2
  · omega
  · rw [← contentsOf_concat] at hsy hrun
    have hlast : block ∈ (done ++ [block]).getLast? := getLast?_concat
    have hcov := hasc.topped.covered hlast
    rw [hcov.leavesAt, leaves_contentsOf, receivedLeaves_concat, Option.map_some, ← hro] at hrun
    refine ⟨synced, hrun.trans (by simp), hsy, ?_⟩
    rw [hheight, getLast?_concat]
    rfl

theorem syncBlocks_of_tiles (h : Mirrors InMemory done client) (hasc : Ascending (done ++ blocks))
    (hti : Tiles hash (receivedLeaves done) blocks)
    (hf : (receivedLeaves (done ++ blocks)).length ≤ treeCapacity) :
    ∃ synced, (syncBlocks memory client blocks : Outcome M H E) = (.ok (), synced) ∧
      Mirrors InMemory (done ++ blocks) synced := by
  induction blocks generalizing done client with
  | nil => exact ⟨client, rfl, by rwa [append_nil]⟩
  | cons block rest ih =>
    rw [append_cons] at hasc hf ⊢
    obtain ⟨hst, hroo, hr⟩ := hti
    have hro : (receivedLeaves done).length + block.leaves.length ≤ treeCapacity := by
      simp only [receivedLeaves, flatMap_append, length_append, flatMap_singleton] at hf ⊢
      omega
    obtain ⟨synced, hbl, hm⟩ :=
      syncBlock_of_next (E := E) mlaws h (pairwise_append.mp hasc).1 hst hroo hro
    rw [syncBlocks, hbl]
    rw [← receivedLeaves_concat] at hr
    exact ih hm hasc hr hf

/-- A fresh client that is not cut off in time mirrors the server exactly when nothing is
pending. -/
theorem Recorded.fresh_sync (laws : crate.Laws hash StandsFor)
    (h : Recorded hash StandsFor contents server) {elapsed : Nat → Nat}
    (hti : ∀ n, elapsed n ≤ SyncLimits.default.maxDuration) :
    (∃ client, sync memory hash (server.api crate hash elapsed) (empty memory) = (.ok (), client) ∧
      client.size = server.size ∧ client.root memory hash = server.root crate hash) ↔
      server.pendingLeaves = [] := by
  have hl : ∀ n, late (server.api crate hash elapsed) .default n = false := fun n =>
    decide_eq_false (Nat.not_lt.mpr (hti n))
  have hsi := h.size
  have hge := mirrors_empty mlaws
  have hcap : (receivedLeaves server.blocks).length ≤ treeCapacity := by
    have hle := laws.capacity h.consistent.stands
    rw [h.leaves, length_append] at hle
    omega
  obtain ⟨synced, hbl, hm⟩ :=
    syncBlocks_of_tiles (E := Empty) mlaws hge h.ascending h.tiles hcap
  have hpa : syncPages memory (server.api crate hash elapsed) .default
      (server.tree.latestCheckpoint.getD 0) (4095 + 1) 0 (empty memory) = (.ok (), synced) :=
    syncPages_of_last memory hl rfl (h.filter_all.symm ▸ hbl) rfl
  have hsize : synced.size = (receivedLeaves server.blocks).length := by
    rw [TreeClient.size, hm.holds.position, leaves_contentsOf, nil_append]
  by_cases hn : server.size = 0
  · -- Nothing to fetch: both trees are empty.
    have hs : server.pendingLeaves = [] := length_eq_zero_iff.mp (by omega)
    have he : (empty memory).root memory hash = server.root crate hash := by
      have hno : (receivedLeaves server.blocks).length = 0 := by omega
      rw [h.root laws hs, length_eq_zero_iff.mp hno]
      exact (Merkle.root_nil ..).symm
    exact ⟨fun _ => hs,
      fun _ => ⟨empty memory, syncWithLimits_of_same memory hash hl rfl hn he, hn.symm, he⟩⟩
  · have hrun : sync memory hash (server.api crate hash elapsed) (empty memory) = _ :=
      syncWithLimits_of_pages memory hash hl rfl hn (Nat.zero_le _) hpa
    have hend : (server.getTreeState crate hash).nextIndex = server.size := rfl
    have hpos : synced.nextPosition = (receivedLeaves server.blocks).length := hsize
    rw [hrun, hend, hpos]
    refine ⟨fun hsynced => ?_, fun hs => ?_⟩
    · obtain ⟨_, hok, -⟩ := hsynced
      split at hok
      · cases hok
      next heq => exact length_eq_zero_iff.mp (by omega)
    · have hall : (receivedLeaves server.blocks).length = server.size := by
        rw [hsi, hs, length_nil, Nat.add_zero]
      have hsa : synced.root memory hash = server.root crate hash :=
        (hm.root mlaws h.ascending.topped).trans (h.root laws hs).symm
      rw [if_neg (not_not_intro hall), (checkRoot_ok_iff memory hash).mpr fun _ => hsa]
      exact ⟨synced, rfl, hsize.trans hall, hsa⟩

end

end SyncableServer

end ZcashVoting.CommitmentTree
