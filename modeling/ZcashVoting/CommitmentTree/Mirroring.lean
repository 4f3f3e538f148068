import ZcashVoting.CommitmentTree.Client

/-!
# What a synchronized client mirrors

A synchronization applies the blocks it receives in order, whatever the server sends, so
the client's tree always stands for the blocks since genesis. The checkpoint that its
root is read from covers all leaves when the last height was new and no leaf came after
it: the tree passes over a checkpoint that is not new, and its root is then an older one.
-/
namespace ZcashVoting.CommitmentTree

open List
namespace TreeClient

variable {S H E ε : Type} {crate : ShardTreeCrate S H ε} {hash : VoteHash H}
  {StandsFor : S → Contents H → Prop} {contents : Contents H} {client synced : TreeClient S}
  {block : BlockCommitments H} {blocks : List (BlockCommitments H)}

/-! ### One block -/

/-- What the client's tree stands for, with the counter beside it. -/
structure Holds (StandsFor : S → Contents H → Prop) (contents : Contents H)
    (client : TreeClient S) : Prop where
  tree : StandsFor client.inner contents
  position : client.nextPosition = contents.leaves.length

def extend (contents : Contents H) (leaves : List H) : Contents H :=
  { contents with leaves := contents.leaves ++ leaves }

def applyBlock (contents : Contents H) (block : BlockCommitments H) : Contents H :=
  (extend contents block.leaves).checkpoint block.height

/-- What a tree stands for that was given the blocks. -/
def contentsOf (blocks : List (BlockCommitments H)) : Contents H :=
  blocks.foldl applyBlock ⟨[], []⟩

@[simp] theorem contentsOf_concat :
    contentsOf (blocks ++ [block]) = applyBlock (contentsOf blocks) block :=
  foldl_concat ..

def Panicked (outcome : Outcome S H E) : Prop := ∃ message, outcome.1 = .error (.panic message)

theorem not_panicked_of_ok {outcome : Outcome S H E} (h : outcome.1 = .ok ()) :
    ¬ Panicked outcome := by
  rintro ⟨_, hp⟩
  cases h.symm.trans hp

section

variable (laws : crate.InMemory hash StandsFor)
include laws

theorem rootAtHeight_eq (h : Holds StandsFor contents client) (height : Nat) :
    client.rootAtHeight crate height = (contents.leavesAt height).map hash.root := by
  rw [rootAtHeight, laws.root height h.tree]
  rfl

/-- Either all leaves go in, or the tree is full and the process stops. -/
theorem appendLeaves_cases (h : Holds StandsFor contents client) (leaves : List H) :
    (leaves ≠ [] → contents.leaves.length + leaves.length ≤ treeCapacity) ∧
        (∃ appended, (appendLeaves crate client leaves : Outcome S H E) = (.ok (), appended) ∧
          Holds StandsFor (extend contents leaves) appended) ∨
      (leaves ≠ [] ∧ treeCapacity < contents.leaves.length + leaves.length) ∧
        Panicked (appendLeaves crate client leaves : Outcome S H E) := by
  induction leaves generalizing client contents with
  | nil => exact .inl ⟨nofun, client, rfl, by simpa [extend] using h⟩
  | cons leaf rest ih =>
    have hne : leaf :: rest ≠ [] := cons_ne_nil leaf rest
    unfold appendLeaves
    split
    next inner happ =>
      obtain ⟨hlt, hin⟩ := laws.append_ok h.tree happ
      have hnext : Holds StandsFor (contents.append leaf)
          { client with inner := inner, nextPosition := client.nextPosition + 1 } :=
        ⟨hin, by simp [Contents.append, h.position]⟩
      have hlen : (contents.append leaf).leaves.length = contents.leaves.length + 1 := by
        simp [Contents.append]
      rcases ih hnext with ⟨hfit, appended, hrun, hap⟩ | ⟨⟨-, hfull⟩, hp⟩
      · refine .inl ⟨fun _ => ?_, appended, hrun, by simpa [extend, Contents.append] using hap⟩
        rcases eq_or_ne rest [] with rfl | hrest
        · exact hlt
        · have hfit := hfit hrest
          rw [hlen] at hfit
          rw [length_cons]
          omega
      · rw [hlen] at hfull
        exact .inr ⟨⟨hne, by rw [length_cons]; omega⟩, hp⟩
    next happ =>
      have hfull := laws.append_full h.tree happ
      exact .inr ⟨⟨hne, by rw [length_cons]; omega⟩, _, rfl⟩

variable [DecidableEq H]

/-- What one block can do: be refused, stop the process, or be applied. -/
theorem syncBlock_cases (h : Holds StandsFor contents client) (block : BlockCommitments H) :
    (block.leaves ≠ [] ∧ block.startIndex ≠ client.nextPosition) ∧
        (syncBlock crate client block : Outcome S H E) =
          (.error (.startIndexMismatch block.height client.nextPosition block.startIndex),
            client) ∨
      (block.leaves ≠ [] ∧ block.startIndex = client.nextPosition ∧
          treeCapacity < block.startIndex + block.leaves.length) ∧
        Panicked (syncBlock crate client block : Outcome S H E) ∨
      (block.leaves ≠ [] → block.startIndex = client.nextPosition ∧
          block.startIndex + block.leaves.length ≤ treeCapacity) ∧
        ∃ synced, Holds StandsFor (applyBlock contents block) synced ∧
          synced.lastSyncedHeight = some block.height ∧
          let computed := ((applyBlock contents block).leavesAt block.height).map hash.root
          (syncBlock crate client block : Outcome S H E) =
            (if computed ≠ some block.root then
              .error (.rootMismatch block.height computed block.root) else .ok (), synced) := by
  unfold syncBlock
  split
  next hne => exact .inl ⟨hne, rfl⟩
  next hin =>
  have hstart : block.leaves ≠ [] → block.startIndex = client.nextPosition :=
    fun hne => not_not.mp fun hs => hin ⟨hne, hs⟩
  rcases appendLeaves_cases (E := E) laws h block.leaves with
    ⟨hfit, appended, happ, hap⟩ | ⟨⟨hne, hfull⟩, message, hp⟩
  · refine .inr (.inr ⟨fun hne => ⟨hstart hne, ?_⟩, ?_⟩)
    · rw [hstart hne, h.position]
      exact hfit hne
    rw [happ]
    dsimp only
    unfold checkpoint
    split
    next error _ hc =>
      split at hc
      · cases hc
      next hcr => exact absurd hcr laws.checkpoint_total
    next synced hc =>
      split at hc
      next inner hcr =>
        cases hc
        have hsy : Holds StandsFor (applyBlock contents block)
            { appended with inner := inner, lastSyncedHeight := some block.height } :=
          ⟨laws.checkpoint_ok hap.tree hcr, by simpa [applyBlock] using hap.position⟩
        refine ⟨_, hsy, rfl, ?_⟩
        rw [rootAtHeight_eq laws hsy]
        split <;> rfl
      · cases hc
  · rw [← h.position, ← hstart hne] at hfull
    refine .inr (.inl ⟨⟨hne, hstart hne, hfull⟩, message, ?_⟩)
    rcases happ : (appendLeaves crate client block.leaves : Outcome S H E) with ⟨_, _⟩
    rw [happ] at hp
    subst hp
    rfl

end

/-! ### One synchronization -/

section

variable [DecidableEq H] (crate)

/-- The blocks of a page that reached the tree. -/
def receivedBlocks (E : Type) :
    TreeClient S → List (BlockCommitments H) → List (BlockCommitments H)
  | _, [] => []
  | client, block :: rest =>
    match (syncBlock crate client block : Outcome S H E) with
    | (.ok (), synced) => block :: receivedBlocks E synced rest
    | (.error (.rootMismatch _ _ _), _) => [block]
    | (.error _, _) => []

theorem receivedBlocks_of_ok
    (h : (syncBlocks crate client blocks : Outcome S H E) = (.ok (), synced)) :
    receivedBlocks crate E client blocks = blocks := by
  induction blocks generalizing client with
  | nil => rfl
  | cons block _ ih =>
    rcases hb : (syncBlock crate client block : Outcome S H E) with ⟨_ | _, _⟩
    · rw [syncBlocks, hb] at h
      cases h
    rw [syncBlocks, hb] at h
    rw [receivedBlocks, hb]
    dsimp only
    rw [ih h]

variable (hash) (api : TreeSyncApi H E) (limits : SyncLimits) {state : TreeState H} {toHeight : Nat}

def receivedPages (toHeight : Nat) :
    (remaining pageFrom : Nat) → TreeClient S → List (BlockCommitments H)
  | 0, _, _ => []
  | remaining + 1, pageFrom, client =>
    let fetched := limits.maxPages - (remaining + 1)
    if late api limits (2 * fetched + 1) then []
    else
      match api.page fetched pageFrom toHeight with
      | .error _ => []
      | .ok page =>
        if late api limits (2 * fetched + 2) then []
        else
          match (syncBlocks crate client page.blocks : Outcome S H E) with
          | (.error _, _) => receivedBlocks crate E client page.blocks
          | (.ok (), synced) =>
            if page.nextFromHeight = 0 then page.blocks
            else if page.nextFromHeight ≤ pageFrom ∨ toHeight < page.nextFromHeight then
              page.blocks
            else page.blocks ++ receivedPages toHeight remaining page.nextFromHeight synced

/-- The blocks that one synchronization receives into the tree. -/
def received (client : TreeClient S) : List (BlockCommitments H) :=
  match api.state with
  | .error _ => []
  | .ok state =>
    if late api limits 0 then []
    else if state.nextIndex = client.nextPosition then []
    else if state.height < client.fromHeight then []
    else receivedPages crate api limits state.height limits.maxPages client.fromHeight client

theorem checkRoot_ok_iff :
    (checkRoot crate hash client state : Except (SyncError H E) Unit) = .ok () ↔
      (0 < state.nextIndex → client.root crate hash = state.root) := by
  unfold checkRoot
  split
  case isTrue hd => exact ⟨nofun, fun h => absurd (h hd.1) hd.2⟩
  case isFalse hsa =>
    exact ⟨fun _ hpos => not_not.mp fun hne => hsa ⟨hpos, hne⟩, fun _ => rfl⟩

/-- A synchronization that returned stopped at a height below its own, or has the
advertised size and, with leaves, the advertised root. -/
theorem syncWithLimits_ok (hst : api.state = .ok state)
    (h : syncWithLimits crate hash api limits client = (.ok (), synced)) :
    (state.nextIndex ≠ client.nextPosition ∧ state.height < client.fromHeight ∧ synced = client) ∨
      (state.nextIndex = client.nextPosition ∨ client.fromHeight ≤ state.height) ∧
        synced.nextPosition = state.nextIndex ∧
        (0 < state.nextIndex → synced.root crate hash = state.root) := by
  unfold syncWithLimits at h
  rw [hst] at h
  dsimp only at h
  split at h
  · cases h
  split at h
  case isTrue hsa =>
    obtain ⟨hr, rfl⟩ := Prod.mk.inj h
    exact .inr ⟨.inl hsa, hsa.symm, (checkRoot_ok_iff crate hash).mp hr⟩
  case isFalse hmo =>
  split at h
  case isTrue hra =>
    cases h
    exact .inl ⟨hmo, hra, rfl⟩
  case isFalse hra =>
  split at h
  · cases h
  split at h
  · cases h
  case isFalse hre =>
    obtain ⟨hr, rfl⟩ := Prod.mk.inj h
    exact .inr ⟨.inr (Nat.not_lt.mp hra), not_ne_iff.mp hre, (checkRoot_ok_iff crate hash).mp hr⟩

variable {api limits} in
/-- In time, a page whose blocks are applied and that has no successor ends the loop. -/
theorem syncPages_of_last {remaining pageFrom : Nat}
    {page : BlockCommitmentsPage H} (hti : ∀ n, late api limits n = false)
    (hpa : api.page (limits.maxPages - (remaining + 1)) pageFrom toHeight = .ok page)
    (hbl : syncBlocks crate client page.blocks = ((.ok (), synced) : Outcome S H E))
    (hla : page.nextFromHeight = 0) :
    syncPages crate api limits toHeight (remaining + 1) pageFrom client = (.ok (), synced) := by
  simp only [syncPages, hti, Bool.false_eq_true, if_false, hpa, hbl, hla, if_true]

variable {api limits} in
theorem syncWithLimits_of_same (hti : ∀ n, late api limits n = false)
    (hst : api.state = .ok state) (hsa : state.nextIndex = client.nextPosition)
    (hro : client.root crate hash = state.root) :
    syncWithLimits crate hash api limits client = (.ok (), client) := by
  simp only [syncWithLimits, hst, hti, Bool.false_eq_true, if_false, hsa, if_true,
    (checkRoot_ok_iff crate hash).mpr fun _ => hro]

variable {api limits} in
theorem syncWithLimits_of_pages (hti : ∀ n, late api limits n = false)
    (hst : api.state = .ok state) (hmo : state.nextIndex ≠ client.nextPosition)
    (hra : client.fromHeight ≤ state.height)
    (hpa : syncPages crate api limits state.height limits.maxPages client.fromHeight client =
      (.ok (), synced)) :
    syncWithLimits crate hash api limits client =
      if synced.nextPosition ≠ state.nextIndex then
        (.error (.incompleteSync synced.nextPosition state.nextIndex), synced)
      else (checkRoot crate hash synced state, synced) := by
  simp only [syncWithLimits, hst, hti, Bool.false_eq_true, if_false, hmo, Nat.not_lt.mpr hra, hpa]

end

/-! ### From genesis -/

def receivedLeaves (blocks : List (BlockCommitments H)) : List H := blocks.flatMap (·.leaves)

theorem receivedLeaves_concat (blocks : List (BlockCommitments H)) (block : BlockCommitments H) :
    receivedLeaves (blocks ++ [block]) = receivedLeaves blocks ++ block.leaves := by
  simp [receivedLeaves]

theorem leaves_contentsOf (blocks : List (BlockCommitments H)) :
    (contentsOf blocks).leaves = receivedLeaves blocks := by
  induction blocks using List.reverseRecOn with
  | nil => rfl
  | append_singleton blocks block ih =>
    rw [contentsOf_concat, receivedLeaves_concat, ← ih]
    simp [applyBlock, extend]

/-- The last height was above all earlier ones when it came, and after it there was no
higher one and no leaf. -/
def Topped (blocks : List (BlockCommitments H)) : Prop :=
  ∀ last ∈ blocks.getLast?, ∃ before top after, blocks = before ++ top :: after ∧
    top.height = last.height ∧ (∀ earlier ∈ before, earlier.height < top.height) ∧
    ∀ later ∈ after, later.height ≤ top.height ∧ later.leaves = []

/-- No checkpoint is above the heights of the blocks. -/
theorem checkpoint_height {bound : Nat} (h : ∀ block ∈ blocks, block.height < bound) :
    ∀ entry ∈ (contentsOf blocks).checkpoints, entry.1 < bound := by
  induction blocks using List.reverseRecOn with
  | nil =>
    intro entry he
    cases he
  | append_singleton blocks block ih =>
    rw [contentsOf_concat, applyBlock, Contents.checkpoint]
    have hold := ih fun earlier he => h earlier (mem_append_left _ he)
    split
    · exact hold
    · intro entry he
      dsimp only at he
      rcases mem_append.mp (mem_of_mem_drop he) with hmem | hmem
      · exact hold entry hmem
      · rw [mem_singleton.mp hmem]
        exact h block (mem_append_right _ (mem_singleton_self block))

/-- Blocks without leaves and new heights leave a covered tree as it is. -/
theorem foldl_applyBlock_of_covered {top : Nat} (h : contents.Covered top)
    (hblocks : ∀ block ∈ blocks, block.height ≤ top ∧ block.leaves = []) :
    blocks.foldl applyBlock contents = contents := by
  induction blocks with
  | nil => rfl
  | cons block rest ih =>
    obtain ⟨⟨hle, hno⟩, hrest⟩ := forall_mem_cons.mp hblocks
    have hsame : applyBlock contents block = contents := by
      obtain ⟨older, heq, -⟩ := h.newest
      have hany : contents.checkpoints.any (fun entry => decide (block.height ≤ entry.1)) := by
        simp [heq, hle]
      simp [applyBlock, extend, Contents.checkpoint, hno, hany]
    rw [foldl_cons, hsame, ih hrest]

theorem Topped.covered (h : Topped blocks) {last : BlockCommitments H}
    (hlast : last ∈ blocks.getLast?) : (contentsOf blocks).Covered last.height := by
  obtain ⟨before, top, after, rfl, hheight, hbefore, hafter⟩ := h last hlast
  have htop : (contentsOf (before ++ [top])).Covered top.height := by
    rw [contentsOf_concat]
    exact Contents.covered_checkpoint (checkpoint_height hbefore)
  have hall : contentsOf (before ++ top :: after) = contentsOf (before ++ [top]) := by
    rw [← singleton_append, ← append_assoc, contentsOf, foldl_append]
    exact foldl_applyBlock_of_covered htop hafter
  rw [hall, ← hheight]
  exact htop

/-- The client's tree stands for the blocks, and its height is that of the last. -/
structure Mirrors (StandsFor : S → Contents H → Prop) (blocks : List (BlockCommitments H))
    (client : TreeClient S) : Prop where
  holds : Holds StandsFor (contentsOf blocks) client
  height : client.lastSyncedHeight = blocks.getLast?.map (·.height)

section

variable (laws : crate.InMemory hash StandsFor)
include laws

theorem mirrors_empty : Mirrors StandsFor ([] : List (BlockCommitments H)) (empty crate) :=
  ⟨⟨laws.empty, rfl⟩, rfl⟩

theorem Mirrors.root (h : Mirrors StandsFor blocks client) (htop : Topped blocks) :
    client.root crate hash = hash.root (receivedLeaves blocks) := by
  unfold TreeClient.root
  rw [h.height]
  rcases hend : blocks.getLast? with _ | last
  · rw [List.getLast?_eq_none_iff.mp hend]
    exact (Merkle.root_nil ..).symm
  · dsimp only [Option.map_some]
    rw [rootAtHeight_eq laws h.holds, (htop.covered hend).leavesAt, leaves_contentsOf,
      Option.map_some, Option.getD_some]

variable [DecidableEq H] (h : Mirrors StandsFor blocks client)
include h

theorem Mirrors.syncBlocks (page : List (BlockCommitments H))
    (hlive : ¬ Panicked (syncBlocks crate client page : Outcome S H E)) :
    Mirrors StandsFor (blocks ++ receivedBlocks crate E client page)
      (syncBlocks crate client page : Outcome S H E).2 := by
  induction page generalizing blocks client with
  | nil => rwa [receivedBlocks, append_nil]
  | cons block rest ih =>
    unfold TreeClient.syncBlocks at hlive ⊢
    unfold receivedBlocks
    rcases syncBlock_cases (E := E) laws h.holds block with
      ⟨-, hrun⟩ | ⟨-, message, hp⟩ | ⟨-, synced, hsy, hheight, hrun⟩
    · rw [hrun]
      simpa using h
    · rcases hrun : (syncBlock crate client block : Outcome S H E) with ⟨_, _⟩
      rw [hrun] at hp
      subst hp
      rw [hrun] at hlive
      exact absurd ⟨message, rfl⟩ hlive
    · have hnext : Mirrors StandsFor (blocks ++ [block]) synced :=
        ⟨contentsOf_concat ▸ hsy, by rw [hheight, getLast?_concat]; rfl⟩
      dsimp only at hrun
      split at hrun
      · rw [hrun]
        exact hnext
      · rw [hrun] at hlive ⊢
        dsimp only at hlive ⊢
        rw [append_cons]
        exact ih hnext hlive

variable (api : TreeSyncApi H E) (limits : SyncLimits)

theorem Mirrors.syncPages (toHeight remaining pageFrom : Nat)
    (hlive : ¬ Panicked (syncPages crate api limits toHeight remaining pageFrom client)) :
    Mirrors StandsFor
      (blocks ++ receivedPages crate api limits toHeight remaining pageFrom client)
      (syncPages crate api limits toHeight remaining pageFrom client).2 := by
  induction remaining generalizing pageFrom client blocks with
  | zero =>
    rw [TreeClient.syncPages, receivedPages, append_nil]
    split <;> exact h
  | succ remaining ih =>
    rw [TreeClient.syncPages] at hlive ⊢
    rw [receivedPages]
    split
    · rwa [append_nil]
    next hl =>
    rw [if_neg hl] at hlive
    rcases hpa : api.page (limits.maxPages - (remaining + 1)) pageFrom toHeight with error | page
    · rwa [append_nil]
    rw [hpa] at hlive
    dsimp only at hlive ⊢
    split
    · rwa [append_nil]
    next hs =>
    rw [if_neg hs] at hlive
    have hb := h.syncBlocks (E := E) laws page.blocks
    rcases hsy : (TreeClient.syncBlocks crate client page.blocks : Outcome S H E) with
      ⟨_ | _, synced⟩
    · rw [hsy] at hlive hb
      exact hb hlive
    rw [hsy, receivedBlocks_of_ok crate hsy] at hb
    rw [hsy] at hlive
    have hall := hb (not_panicked_of_ok rfl)
    dsimp only at hlive hall ⊢
    split
    · exact hall
    next hmo =>
    rw [if_neg hmo] at hlive
    split
    · exact hall
    next hva =>
      rw [if_neg hva] at hlive
      rw [← append_assoc]
      exact ih hall _ hlive

/-- Whatever the server answers, a synchronization that returns has applied exactly the
blocks it received. -/
theorem Mirrors.syncWithLimits (hlive : ¬ Panicked (syncWithLimits crate hash api limits client)) :
    Mirrors StandsFor (blocks ++ received crate api limits client)
      (syncWithLimits crate hash api limits client).2 := by
  unfold TreeClient.syncWithLimits at hlive ⊢
  unfold received
  rcases hst : api.state with error | state
  · rwa [append_nil]
  rw [hst] at hlive
  dsimp only at hlive ⊢
  split
  · rwa [append_nil]
  next hla =>
  split
  · rwa [append_nil]
  next hmo =>
  split
  · rwa [append_nil]
  next hra =>
  rw [if_neg hla, if_neg hmo, if_neg hra] at hlive
  have hp := h.syncPages laws api limits state.height limits.maxPages client.fromHeight
  rcases hs : TreeClient.syncPages crate api limits state.height limits.maxPages client.fromHeight
    client with ⟨_ | _, _⟩
  · rw [hs] at hlive hp
    exact hp hlive
  rw [hs] at hp
  have hall := hp (not_panicked_of_ok rfl)
  dsimp only at hall ⊢
  split <;> exact hall

end

section

variable [DecidableEq H]

/-- A client after any number of synchronizations with any servers, successful or not, and
the blocks it received since genesis. -/
inductive History (crate : ShardTreeCrate S H ε) (hash : VoteHash H) (E : Type) :
    List (BlockCommitments H) → TreeClient S → Prop where
  | genesis : History crate hash E [] (empty crate)
  | mark {blocks : List (BlockCommitments H)} {client : TreeClient S}
      (earlier : History crate hash E blocks client) (position : Nat) :
      History crate hash E blocks (client.markPosition position)
  | sync {blocks : List (BlockCommitments H)} {client : TreeClient S}
      (earlier : History crate hash E blocks client) (api : TreeSyncApi H E) (limits : SyncLimits)
      (hlive : ¬ Panicked (syncWithLimits crate hash api limits client)) :
      History crate hash E (blocks ++ received crate api limits client)
        (syncWithLimits crate hash api limits client).2

theorem History.mirrors (laws : crate.InMemory hash StandsFor)
    (h : History crate hash E blocks client) : Mirrors StandsFor blocks client := by
  induction h with
  | genesis => exact mirrors_empty laws
  | mark _ _ ih => exact ⟨⟨ih.holds.tree, ih.holds.position⟩, ih.height⟩
  | sync _ api limits hli ih => exact ih.syncWithLimits laws api limits hli

/-- A synchronization that returns has a tree of exactly the leaves received since genesis.
When the last height covers them, its root is their Merkle root; and it is the advertised
tree exactly when the server does not advertise another size below the client's height,
and advertises an empty tree with its own root. -/
theorem sync_ok_mirrors {api : TreeSyncApi H E} {limits : SyncLimits} {state : TreeState H}
    (laws : crate.InMemory hash StandsFor) (history : History crate hash E blocks client)
    (hstate : api.state = .ok state)
    (hsync : syncWithLimits crate hash api limits client = (.ok (), synced)) :
    let leaves := receivedLeaves (blocks ++ received crate api limits client)
    (∃ contents, StandsFor synced.inner contents ∧ contents.leaves = leaves) ∧
      synced.size = leaves.length ∧
      (Topped (blocks ++ received crate api limits client) →
        synced.root crate hash = hash.root leaves ∧
        ((synced.size = state.nextIndex ∧ synced.root crate hash = state.root) ↔
          (state.nextIndex = client.nextPosition ∨ client.fromHeight ≤ state.height) ∧
            (state.nextIndex = 0 → state.root = hash.emptyRoot))) := by
  intro leaves
  have hm := (history.mirrors laws).syncWithLimits laws api limits
    (not_panicked_of_ok (congrArg Prod.fst hsync))
  rw [hsync] at hm
  have hsize : synced.size = leaves.length := by
    rw [size, hm.holds.position, leaves_contentsOf]
  refine ⟨⟨_, hm.holds.tree, leaves_contentsOf _⟩, hsize, fun htop => ?_⟩
  have hroot : synced.root crate hash = hash.root leaves := hm.root laws htop
  -- without leaves no root is compared, and the client's is that of the empty tree
  have hempty : synced.size = 0 → synced.root crate hash = hash.emptyRoot := by
    intro hz
    rw [hroot, length_eq_zero_iff.mp (hsize.symm.trans hz)]
    exact Merkle.root_nil ..
  refine ⟨hroot, ?_, ?_⟩
  · rintro ⟨hs, hr⟩
    refine ⟨?_, fun hz => hr.symm.trans (hempty (hs.trans hz))⟩
    rcases syncWithLimits_ok crate hash api limits hstate hsync with ⟨hne, -, rfl⟩ | ⟨hra, -⟩
    · exact absurd hs.symm hne
    · exact hra
  · rintro ⟨hra, hz⟩
    rcases syncWithLimits_ok crate hash api limits hstate hsync with
      ⟨hne, hlow, -⟩ | ⟨-, hs, had⟩
    · exact absurd hlow (Nat.not_lt.mpr (hra.resolve_left hne))
    · refine ⟨hs, ?_⟩
      rcases Nat.eq_zero_or_pos state.nextIndex with hzero | hpos
      · rw [hempty (hs.trans hzero), hz hzero]
      · exact had hpos

/-- A node that depends on both children. -/
def weighted : VoteHash Nat := ⟨fun left right => 2 * left + 3 * right + 1, 0⟩

/-- A server that advertises `state` and answers with one page of `blocks`. -/
def onePage (state : TreeState H) (blocks : List (BlockCommitments H)) : TreeSyncApi H E :=
  ⟨.ok state, fun _ _ _ => .ok ⟨blocks, 0⟩, fun _ => 0⟩

def oneLeaf : TreeSyncApi Nat Empty :=
  onePage ⟨1, weighted.root [7], 5⟩ [⟨5, 0, [7], weighted.root [7]⟩]

def oneLeafClient : TreeClient (Contents Nat) := ⟨⟨[7], [(5, 1)]⟩, 1, some 5, []⟩

theorem oneLeaf_history : History (listTree weighted) weighted Empty
    [⟨5, 0, [7], weighted.root [7]⟩] oneLeafClient := by
  have hli : ¬ Panicked (syncWithLimits (listTree weighted) weighted oneLeaf .default
      (empty (listTree weighted))) :=
    not_panicked_of_ok rfl
  have hge : History (listTree weighted) weighted Empty [] (empty (listTree weighted)) := .genesis
  exact hge.sync oneLeaf .default hli

theorem sync_ok_mirrors_second :
    let second : TreeSyncApi Nat Empty := onePage ⟨2, weighted.root [7, 8], 6⟩
      [⟨5, 1, [], weighted.root [7]⟩, ⟨6, 1, [8], weighted.root [7, 8]⟩]
    let synced : TreeClient (Contents Nat) := ⟨⟨[7, 8], [(5, 1), (6, 2)]⟩, 2, some 6, []⟩
    syncWithLimits (listTree weighted) weighted second .default oneLeafClient = (.ok (), synced) ∧
      synced.size = 2 ∧ synced.root (listTree weighted) weighted = weighted.root [7, 8] := by
  intro second synced
  have hs : syncWithLimits (listTree weighted) weighted second .default oneLeafClient =
      (.ok (), synced) := by
    decide +kernel
  have hst : second.state = .ok ⟨2, weighted.root [7, 8], 6⟩ := rfl
  obtain ⟨-, -, h⟩ := sync_ok_mirrors (listTree_inMemory weighted) oneLeaf_history hst hs
  have htop : Topped ([⟨5, 0, [7], weighted.root [7]⟩] ++
      received (listTree weighted) second .default oneLeafClient) := by
    rintro last hlast
    refine ⟨[⟨5, 0, [7], weighted.root [7]⟩, ⟨5, 1, [], weighted.root [7]⟩],
      ⟨6, 1, [8], weighted.root [7, 8]⟩, [], by decide +kernel, ?_, by decide, by decide⟩
    cases hlast
    rfl
  exact ⟨hs, (h htop).2.mpr (by decide)⟩

/-- After one leaf at height five a server advertises seven leaves at height three: the
client takes itself to be up to date. -/
theorem stale_height_accepted :
    History (listTree weighted) weighted Empty [⟨5, 0, [7], weighted.root [7]⟩] oneLeafClient ∧
      syncWithLimits (listTree weighted) weighted (onePage (E := Empty) ⟨7, 0, 3⟩ []) .default
        oneLeafClient = (.ok (), oneLeafClient) ∧
      oneLeafClient.size ≠ 7 ∧ oneLeafClient.root (listTree weighted) weighted ≠ 0 :=
  ⟨oneLeaf_history, by decide +kernel, by decide, by decide +kernel⟩

-- Heights that do not ascend: the second block repeats height five and the root of the
-- first. Its checkpoint is passed over, and both root checks read the older checkpoint.
example :
    let repeated : TreeSyncApi Nat Empty :=
      onePage ⟨2, weighted.root [7], 6⟩ [⟨5, 1, [8], weighted.root [7]⟩]
    let synced : TreeClient (Contents Nat) := ⟨⟨[7, 8], [(5, 1)]⟩, 2, some 5, []⟩
    syncWithLimits (listTree weighted) weighted repeated .default oneLeafClient =
        (.ok (), synced) ∧
      synced.root (listTree weighted) weighted ≠ weighted.root synced.inner.leaves := by
  decide +kernel

end

end TreeClient

end ZcashVoting.CommitmentTree
