import Mathlib
import ZcashVoting.CommitmentTree.Tree

/-!
# Client synchronization

`TreeClient::sync` mirrors a server's tree from block commitments, page by page, and
compares roots on the way. The server is whatever answers; a failed synchronization
keeps the leaves it applied.
-/
namespace ZcashVoting.CommitmentTree

structure BlockCommitments (H : Type) where
  (height startIndex : Nat)
  leaves : List H
  root : H
  deriving DecidableEq

structure BlockCommitmentsPage (H : Type) where
  blocks : List (BlockCommitments H)
  nextFromHeight : Nat

structure TreeState (H : Type) where
  nextIndex : Nat
  root : H
  height : Nat

/-- Resource limits of one synchronization, the duration in nanoseconds. -/
structure SyncLimits where
  (maxPages maxDuration : Nat)

def SyncLimits.default : SyncLimits := ⟨4096, 5 * 60 * 1000000000⟩

/-- The answers of a server during one call, and the clock: `page n` answers the `n`-th
page request, and `elapsed n` is the time since the start at the `n`-th check. -/
structure TreeSyncApi (H E : Type) where
  state : Except E (TreeState H)
  page : Nat → (fromHeight toHeight : Nat) → Except E (BlockCommitmentsPage H)
  elapsed : Nat → Nat

inductive SyncError (H E : Type) where
  | api (error : E)
  | startIndexMismatch (height expected got : Nat)
  | rootMismatch (height : Nat) (computed : Option H) (server : H)
  | incompleteSync (localNextIndex serverNextIndex : Nat)
  | invalidPagination (current next : Nat)
  | pageLimitExceeded (maxPages : Nat)
  | timeLimitExceeded (maxDuration : Nat)
  /-- An `expect` of the source that does not hold: the process stops. -/
  | panic (message : String)
  deriving DecidableEq

structure TreeClient (S : Type) where
  inner : S
  nextPosition : Nat
  lastSyncedHeight : Option Nat
  /-- the positions registered for witnesses -/
  markedPositions : List Nat
  deriving DecidableEq

namespace TreeClient

variable {S H E ε : Type} (crate : ShardTreeCrate S H ε)

def empty : TreeClient S := ⟨crate.empty, 0, none, []⟩

def markPosition (client : TreeClient S) (position : Nat) : TreeClient S :=
  { client with markedPositions := position :: client.markedPositions }

def rootAtHeight (client : TreeClient S) (height : Nat) : Option H :=
  (crate.rootAtCheckpointId client.inner height).toOption.join

def root (hash : VoteHash H) (client : TreeClient S) : H :=
  match client.lastSyncedHeight with
  | some id => (client.rootAtHeight crate id).getD hash.emptyRoot
  | none => hash.emptyRoot

def size (client : TreeClient S) : Nat := client.nextPosition

/-- A call returns its result and the client it leaves behind. -/
abbrev Outcome (S H E : Type) := Except (SyncError H E) Unit × TreeClient S

def retention (client : TreeClient S) : Retention :=
  if client.nextPosition ∈ client.markedPositions then .marked else .ephemeral

def appendLeaves : TreeClient S → List H → Outcome S H E
  | client, [] => (.ok (), client)
  | client, leaf :: rest =>
    match crate.append client.inner leaf client.retention with
    | (.ok (), inner) =>
      appendLeaves { client with inner := inner, nextPosition := client.nextPosition + 1 } rest
    | (.error _, inner) =>
      (.error (.panic "append must succeed (tree not full)"), { client with inner := inner })

def checkpoint (client : TreeClient S) (height : Nat) : Outcome S H E :=
  match crate.checkpoint client.inner height with
  | (.ok (), inner) => (.ok (), { client with inner := inner, lastSyncedHeight := some height })
  | (.error _, inner) => (.error (.panic "checkpoint must succeed"), { client with inner := inner })

section

variable [DecidableEq H]

def syncBlock (client : TreeClient S) (block : BlockCommitments H) : Outcome S H E :=
  if block.leaves ≠ [] ∧ block.startIndex ≠ client.nextPosition then
    (.error (.startIndexMismatch block.height client.nextPosition block.startIndex), client)
  else
    match appendLeaves crate client block.leaves with
    | (.error error, appended) => (.error error, appended)
    | (.ok (), appended) =>
      match appended.checkpoint crate block.height with
      | (.error error, synced) => (.error error, synced)
      | (.ok (), synced) =>
        let computed := synced.rootAtHeight crate block.height
        if computed ≠ some block.root then
          (.error (.rootMismatch block.height computed block.root), synced)
        else (.ok (), synced)

def syncBlocks : TreeClient S → List (BlockCommitments H) → Outcome S H E
  | client, [] => (.ok (), client)
  | client, block :: rest =>
    match syncBlock crate client block with
    | (.error error, synced) => (.error error, synced)
    | (.ok (), synced) => syncBlocks synced rest

variable (hash : VoteHash H) (api : TreeSyncApi H E) (limits : SyncLimits)

/-- `check_sync_duration`: whether the budget is spent at the `n`-th check. -/
def late (n : Nat) : Bool := decide (limits.maxDuration < api.elapsed n)

/-- The loop over the pages, with the number of pages still allowed. -/
def syncPages (toHeight : Nat) : (remaining pageFrom : Nat) → TreeClient S → Outcome S H E
  | 0, _, client =>
    if late api limits (2 * limits.maxPages + 1) then
      (.error (.timeLimitExceeded limits.maxDuration), client)
    else (.error (.pageLimitExceeded limits.maxPages), client)
  | remaining + 1, pageFrom, client =>
    let fetched := limits.maxPages - (remaining + 1)
    if late api limits (2 * fetched + 1) then
      (.error (.timeLimitExceeded limits.maxDuration), client)
    else
      match api.page fetched pageFrom toHeight with
      | .error error => (.error (.api error), client)
      | .ok page =>
        if late api limits (2 * fetched + 2) then
          (.error (.timeLimitExceeded limits.maxDuration), client)
        else
          match syncBlocks crate client page.blocks with
          | (.error error, synced) => (.error error, synced)
          | (.ok (), synced) =>
            if page.nextFromHeight = 0 then (.ok (), synced)
            else if page.nextFromHeight ≤ pageFrom ∨ toHeight < page.nextFromHeight then
              (.error (.invalidPagination pageFrom page.nextFromHeight), synced)
            else syncPages toHeight remaining page.nextFromHeight synced

variable (client : TreeClient S)

/-- The comparison with the advertised root, which is not made for an empty tree. -/
def checkRoot (state : TreeState H) : Except (SyncError H E) Unit :=
  if 0 < state.nextIndex ∧ client.root crate hash ≠ state.root then
    .error (.rootMismatch state.height (some (client.root crate hash)) state.root)
  else .ok ()

/-- The height to ask from, in the 32 bits of a height. -/
def fromHeight : Nat :=
  match client.lastSyncedHeight with
  | some height => (height + 1) % 2 ^ 32
  | none => 0

def syncWithLimits : Outcome S H E :=
  match api.state with
  | .error error => (.error (.api error), client)
  | .ok state =>
    if late api limits 0 then (.error (.timeLimitExceeded limits.maxDuration), client)
    else if state.nextIndex = client.nextPosition then (checkRoot crate hash client state, client)
    else if state.height < client.fromHeight then (.ok (), client)
    else
      match syncPages crate api limits state.height limits.maxPages client.fromHeight client with
      | (.error error, synced) => (.error error, synced)
      | (.ok (), synced) =>
        if synced.nextPosition ≠ state.nextIndex then
          (.error (.incompleteSync synced.nextPosition state.nextIndex), synced)
        else (checkRoot crate hash synced state, synced)

def sync : Outcome S H E := syncWithLimits crate hash api .default client

end

end TreeClient

end ZcashVoting.CommitmentTree
