import ZcashVoting.ChainSubmission.Coordinator
import ZcashVoting.CommitmentTree.Tree
import ZcashVoting.Lib.Bytes
import ZcashVoting.Lib.KeyedMap
import ZcashVoting.Lib.Occurrence
import ZcashVoting.Lib.Text

/-!
# The exact-tree pass

`scan_exact_layout` fixes a snapshot of the round's commitment tree, downloads its leaves
page by page, rebuilds the root, and looks for the leaves a generation must have
produced. The loop hands every admitted leaf to a visitor, and the pass visits with the
window search. Which downloads are admissible is said apart from the loop, over the list
of all pages.
-/
namespace ZcashVoting.ChainSubmission

open CommitmentTree Occurrence List KeyedData

def ExpectedTreeLayout.leaves : ExpectedTreeLayout → List Bytes32
  | .delegation delegationVan => [delegationVan]
  | .vote successorVan voteCommitment => [successorVan, voteCommitment]
  | .voteBatch finalSuccessorVan voteCommitments => finalSuccessorVan :: voteCommitments

theorem ExpectedTreeLayout.leaves_ne_nil (layout : ExpectedTreeLayout) : layout.leaves ≠ [] := by
  cases layout <;> exact cons_ne_nil _ _

/-- The positions of the vote commitments, behind the final note at `start`. -/
def ExpectedTreeLayout.commitmentPositions (layout : ExpectedTreeLayout) (start : Nat) : List Nat :=
  (List.range' 1 (layout.leaves.length - 1)).map (start + ·)

/-! ### Responses -/

structure TreeState where
  nextIndex : Nat
  root : Option String
  height : Nat

structure LatestResponse where
  tree : Option TreeState

structure LeafBlock where
  (height startIndex : Nat)
  leaves : List String
  root : Option String

structure LeavesResponse where
  blocks : List LeafBlock
  nextFromHeight : Nat

/-- A response as the transport hands it over; `body` is what JSON parsing gives. -/
structure RecoveryHttpResponse (R : Type) where
  status : Nat
  contentType : Option String
  bodyLength : Nat
  body : Option R

inductive RecoveryScanFailure where
  | transport (error : ChainTransportError)
  | invalid (diagnostic : ChainSubmissionDiagnostic)
  | interrupted
  deriving DecidableEq

inductive RecoveryScanOutcome where
  | found (finalVanPosition : Nat) (voteCommitmentPositions : List Nat)
  | noMatch
  deriving DecidableEq

/-- What the server, the host and the clock do during one pass. The `n`-th request for
leaves, from a height on, is answered by `page n`; `interrupted n` and `exhausted n` are
read before it, and once more at the end. -/
structure RecoveryWorld where
  (hasEndpoint latestInterrupted : Bool)
  latest : Except ChainTransportError (RecoveryHttpResponse LatestResponse)
  page : Nat → (fromHeight : Nat) →
    Except ChainTransportError (RecoveryHttpResponse LeavesResponse)
  (interrupted interruptedGet exhausted : Nat → Bool)

def RecoveryScanFailure.message (message : String) : RecoveryScanFailure :=
  .invalid (.fromRedactedMessage .invalidProtocolResponse message)

def maxRecoveryLeaves : Nat := 2 ^ treeDepth

def voteSdkPageLeafTarget : Nat := 5000

def maximumWholeBlockPageCount (leaves target : Nat) : Nat :=
  leaves / (target + 1) * 2 + if leaves % (target + 1) = 0 then 0 else 1

def maxRecoveryLeafRequests : Nat :=
  maximumWholeBlockPageCount maxRecoveryLeaves voteSdkPageLeafTarget

def maxRecoveryResponseBytes : Nat := 8 * 1024 * 1024

def maxRecoveryTotalBytes : Nat := (maxRecoveryLeafRequests + 1) * maxRecoveryResponseBytes

/-- ASCII case is ignored in the media type; its parameters are not read. -/
def hasJsonContentType (contentType : Option String) : Bool := contentType.any fun value =>
  (Text.trim ((Text.split ';' value.toList).headD [])).map Char.toLower =
    "application/json".toList

def getJsonWithSize {R : Type} (interrupted : Bool)
    (answer : Except ChainTransportError (RecoveryHttpResponse R)) :
    Except RecoveryScanFailure (R × Nat) :=
  if interrupted then .error .interrupted
  else
    match answer with
    | .error error => .error (.transport error)
    | .ok response =>
      if response.status ≠ 200 ∨ maxRecoveryResponseBytes < response.bodyLength ∨
          hasJsonContentType response.contentType = false then
        .error (.message "tree recovery response has invalid HTTP metadata")
      else
        match response.body with
        | some value => .ok (value, response.bodyLength)
        | none => .error (.message "tree recovery response is malformed")

section

variable {F μ : Type} (crate : FrontierCrate F Bytes32) (decode : String → Option (List UInt8))

/-- Base64 of the 32 bytes of a canonical field element. -/
def decodeLeaf (encoded label : String) : Except RecoveryScanFailure Bytes32 :=
  match decode encoded with
  | none => .error (.message s!"{label} is invalid base64")
  | some bytes =>
    if h : bytes.length = 32 then
      if Bytes.ofLeBytes bytes < fpModulus then .ok ⟨bytes.toArray, h⟩
      else .error (.message s!"{label} is noncanonical")
    else .error (.message s!"{label} has invalid length")

/-- The snapshot a pass is fixed to, with its decoded root. -/
structure Snapshot where
  (nextIndex height : Nat)
  root : Option Bytes32

def readSnapshot (latest : LatestResponse) : Except RecoveryScanFailure Snapshot :=
  match latest.tree with
  | none => .error (.message "tree recovery latest response omitted tree state")
  | some tree =>
    if maxRecoveryLeaves < tree.nextIndex ∨ 2 ^ 32 - 1 < tree.height then
      .error (.message "tree recovery snapshot exceeds protocol bounds")
    else if tree.root.getD "" ≠ "" then do
      let root ← decodeLeaf decode (tree.root.getD "") "snapshot root"
      .ok ⟨tree.nextIndex, tree.height, some root⟩
    else if tree.nextIndex = 0 then .ok ⟨tree.nextIndex, tree.height, none⟩
    else .error (.message "nonempty tree recovery snapshot omitted its root")

/-- What the checks of the pass carry from leaf to leaf. -/
structure Walk (F : Type) where
  frontier : F
  nextIndex : Nat
  previousHeight : Option Nat

variable (snapshot : Snapshot) (visit : μ → Nat → Bytes32 → Except RecoveryScanFailure μ)

/-- One leaf: appended, then visited with the number of leaves up to it. -/
def scanLeaf (state : Walk F × μ) (encoded : String) : Except RecoveryScanFailure (Walk F × μ) :=
  if snapshot.nextIndex ≤ state.1.nextIndex then
    .error (.message "tree recovery leaf sequence exceeds the fixed snapshot")
  else do
    let leaf ← decodeLeaf decode encoded "tree leaf"
    match crate.append state.1.frontier leaf with
    | none => .error (.message "tree recovery leaf sequence exceeds the fixed snapshot")
    | some frontier =>
      let visited ← visit state.2 (state.1.nextIndex + 1) leaf
      .ok ({ state.1 with frontier := frontier, nextIndex := state.1.nextIndex + 1 }, visited)

def checkBlock (walk : Walk F) (block : LeafBlock) : Except RecoveryScanFailure (Walk F) :=
  if snapshot.height < block.height ∨
      walk.previousHeight.any (fun height => decide (block.height ≤ height)) ∨
      (block.leaves ≠ [] ∧ block.startIndex ≠ walk.nextIndex) then
    .error (.message "tree recovery block sequence is discontinuous")
  else .ok { walk with previousHeight := some block.height }

def checkBlockRoot (walk : Walk F) (block : LeafBlock) : Except RecoveryScanFailure Unit :=
  match block.root with
  | none => .error (.message "tree recovery block omitted its root")
  | some encoded => do
    let root ← decodeLeaf decode encoded "block root"
    if crate.root walk.frontier ≠ root then
      .error (.message "tree recovery block root contradicts its leaves")
    else .ok ()

def scanBlock (state : Walk F × μ) (block : LeafBlock) :
    Except RecoveryScanFailure (Walk F × μ) := do
  let walk ← checkBlock snapshot state.1 block
  let state ← block.leaves.foldlM (scanLeaf crate decode snapshot visit) (walk, state.2)
  checkBlockRoot crate decode state.1 block
  .ok state

def leafTotal (blocks : List LeafBlock) : Nat := (blocks.map fun block => block.leaves.length).sum

/-- The range to ask for next, which must move forward inside the snapshot. -/
def nextCursor (walk : Walk F) (fromHeight : Nat) (page : LeavesResponse) :
    Except RecoveryScanFailure Nat :=
  if walk.nextIndex < snapshot.nextIndex then
    if page.nextFromHeight ≤ fromHeight ∨ snapshot.height < page.nextFromHeight then
      .error (.message "tree recovery pagination cursor is invalid")
    else .ok page.nextFromHeight
  else if page.nextFromHeight ≠ 0 then
    .error (.message "tree recovery pagination continued beyond the fixed snapshot")
  else .ok fromHeight

variable (world : RecoveryWorld)

/-- The download before the `request`-th page is read. -/
def fetchPage (request fromHeight totalBytes : Nat) (walk : Walk F) :
    Except RecoveryScanFailure (LeavesResponse × Nat) :=
  if world.interrupted request then .error .interrupted
  else if world.exhausted request then .error (.message "tree recovery exhausted its bounded pass")
  else do
    let (page, bytes) ← getJsonWithSize (world.interruptedGet request)
      (world.page request fromHeight)
    let totalBytes := min (totalBytes + bytes) (2 ^ 64 - 1)
    if maxRecoveryTotalBytes < totalBytes then
      .error (.message "tree recovery responses exceed the total byte limit")
    else if snapshot.nextIndex - walk.nextIndex < leafTotal page.blocks then
      .error (.message "tree recovery page exceeds the fixed snapshot")
    else .ok (page, totalBytes)

/-- The loop over the pages, with the number of requests still allowed. -/
def scanPages : (remaining fromHeight totalBytes : Nat) → Walk F × μ →
    Except RecoveryScanFailure (Walk F × μ)
  | 0, _, _, state =>
    if state.1.nextIndex < snapshot.nextIndex then
      if world.interrupted maxRecoveryLeafRequests then .error .interrupted
      else .error (.message "tree recovery exhausted its bounded pass")
    else .ok state
  | remaining + 1, fromHeight, totalBytes, state =>
    if state.1.nextIndex < snapshot.nextIndex then do
      let (page, totalBytes) ← fetchPage snapshot world
        (maxRecoveryLeafRequests - (remaining + 1)) fromHeight totalBytes state.1
      let state ← page.blocks.foldlM (scanBlock crate decode snapshot visit) state
      let fromHeight ← nextCursor snapshot state.1 fromHeight page
      scanPages remaining fromHeight totalBytes state
    else .ok state

def checkFinal (walk : Walk F) : Except RecoveryScanFailure Unit :=
  if world.exhausted (maxRecoveryLeafRequests + 1) then
    .error (.message "tree recovery exhausted its bounded pass")
  else if snapshot.root.any fun root => decide (crate.root walk.frontier ≠ root) then
    .error (.message "tree recovery final root contradicts the fixed snapshot")
  else .ok ()

/-- A whole pass with any visitor. -/
def scanTreeWith (start : μ) : Except RecoveryScanFailure (Walk F × μ) :=
  if world.hasEndpoint = false then .error (.message "tree recovery has no configured endpoint")
  else do
    let (latest, latestBytes) ← getJsonWithSize world.latestInterrupted world.latest
    let snapshot ← readSnapshot decode latest
    let state ← scanPages crate decode snapshot visit world maxRecoveryLeafRequests 0 latestBytes
      (⟨crate.empty, 0, none⟩, start)
    checkFinal crate snapshot world state.1
    .ok state

def multipleLayouts : RecoveryScanFailure :=
  .message "tree recovery found multiple exact generation layouts"

/-- The pass of the library: the window search for the expected leaves. -/
def scanExactLayout (layout : ExpectedTreeLayout) :
    Except RecoveryScanFailure RecoveryScanOutcome := do
  let (_, finder) ← scanTreeWith crate decode (Finder.see multipleLayouts layout.leaves) world
    Finder.start
  match finder.found with
  | some start => .ok (.found start (layout.commitmentPositions start))
  | none => .ok .noMatch

end

/-! ### Admissible answers -/

section

variable (decode : String → Option (List UInt8)) (hash : VoteHash Bytes32)

/-- The leaf or root that a text stands for. -/
def leafOf (encoded : String) : Option Bytes32 := (decodeLeaf decode encoded "").toOption

def Holds (blocks : List LeafBlock) (leaves : List Bytes32) : Prop :=
  (blocks.flatMap LeafBlock.leaves).map (leafOf decode) = leaves.map some

/-- A response of the protocol with this body. -/
structure Plain {R : Type} (response : RecoveryHttpResponse R) (value : R) : Prop where
  status : response.status = 200
  short : response.bodyLength ≤ maxRecoveryResponseBytes
  json : hasJsonContentType response.contentType = true
  body : response.body = some value

/-- What a block says, after the blocks before it: it is above them and inside the
snapshot, it starts where they end, and its root is that of all leaves up to it. -/
structure BlockAfter (height : Nat) (before : List LeafBlock) (block : LeafBlock) : Prop where
  inside : block.height ≤ height
  above : ∀ earlier ∈ before.getLast?, earlier.height < block.height
  start : block.leaves ≠ [] → block.startIndex = leafTotal before
  root : ∃ leaves encoded, Holds decode (before ++ [block]) leaves ∧ block.root = some encoded ∧
    leafOf decode encoded = some (hash.root leaves)

/-- Pages with the lengths of their bodies. -/
abbrev Pages := List (LeavesResponse × Nat)

def Pages.blocks (pages : Pages) : List LeafBlock := pages.flatMap fun page => page.1.blocks

/-- Where the request after these pages starts. -/
def Pages.cursor (pages : Pages) : Nat :=
  (pages.getLast?.map fun page => page.1.nextFromHeight).getD 0

/-- What a page says, after the pages before it: leaves were missing, it was served in
time, and it points forward inside the snapshot as long as leaves are missing. -/
structure PageAfter (world : RecoveryWorld) (nextIndex height : Nat) (before : Pages)
    (page : LeavesResponse × Nat) : Prop where
  missing : leafTotal before.blocks < nextIndex
  uninterrupted : world.interrupted before.length = false ∧
    world.interruptedGet before.length = false
  inTime : world.exhausted before.length = false
  served : ∃ response, world.page before.length before.cursor = .ok response ∧
    Plain response page.1 ∧ response.bodyLength = page.2
  forward : leafTotal (Pages.blocks (before ++ [page])) < nextIndex →
    before.cursor < page.1.nextFromHeight ∧ page.1.nextFromHeight ≤ height
  last : leafTotal (Pages.blocks (before ++ [page])) = nextIndex → page.1.nextFromHeight = 0

/-- The server advertises a tree and serves its leaves on these pages. -/
structure Download (world : RecoveryWorld) (leaves : List Bytes32)
    (latest : RecoveryHttpResponse LatestResponse) (tree : TreeState) (pages : Pages) : Prop where
  endpoint : world.hasEndpoint = true
  uninterrupted : world.latestInterrupted = false
  advertised : world.latest = .ok latest ∧ Plain latest ⟨some tree⟩
  size : tree.nextIndex = leaves.length
  bounds : leaves.length ≤ maxRecoveryLeaves ∧ tree.height < 2 ^ 32
  /-- Only an empty tree may come without a root. -/
  root : tree.root.getD "" = "" ∧ leaves = [] ∨
    tree.root.getD "" ≠ "" ∧ leafOf decode (tree.root.getD "") = some (hash.root leaves)
  held : Holds decode pages.blocks leaves
  eachBlock : EachAfter (BlockAfter decode hash tree.height) [] pages.blocks
  eachPage : EachAfter (PageAfter world tree.nextIndex tree.height) [] pages
  requests : pages.length ≤ maxRecoveryLeafRequests
  bytes : latest.bodyLength + (pages.map Prod.snd).sum ≤ maxRecoveryTotalBytes
  inTime : world.exhausted (maxRecoveryLeafRequests + 1) = false

/-- The leaves, in whatever split into blocks and pages. -/
def Admissible (world : RecoveryWorld) (leaves : List Bytes32) : Prop :=
  ∃ latest tree pages, Download decode hash world leaves latest tree pages

end

end ZcashVoting.ChainSubmission
