import ZcashVoting.CommitmentTree.Mirroring

/-!
# What a server can do to a synchronizing client

A block stops the process exactly when it starts at the client's position and reaches past
the capacity of the tree, and the height to ask from wraps exactly at the last height there
is. The cursor moves forward in the range that was asked for, so the pages end by
themselves.
-/
namespace ZcashVoting.CommitmentTree.TreeClient

open List

variable {S H E ε : Type} {crate : ShardTreeCrate S H ε} {hash : VoteHash H}
  {StandsFor : S → Contents H → Prop} {api : TreeSyncApi H E} {limits : SyncLimits}
  {fits limited : Prop} {client : TreeClient S} {block : BlockCommitments H}

/-- The client's counter is the number of its leaves, as it is after every run. -/
def Counted (StandsFor : S → Contents H → Prop) (client : TreeClient S) : Prop :=
  ∃ contents, Holds StandsFor contents client

/-- A block that starts inside the tree ends inside it. -/
def Fits (block : BlockCommitments H) : Prop :=
  block.startIndex ≤ treeCapacity → block.startIndex + block.leaves.length ≤ treeCapacity

/-- The process goes on when the blocks fit, the client counts its leaves right, and the
page limit is only met when `limited`. -/
structure Survives (StandsFor : S → Contents H → Prop) (fits limited : Prop)
    (outcome : Outcome S H E) : Prop where
  live : fits → ¬ Panicked outcome
  counted : ¬ Panicked outcome → Counted StandsFor outcome.2
  pages : ∀ n, outcome.1 = .error (.pageLimitExceeded n) → limited

/-- A result that is neither a panic nor the page limit. -/
theorem survives_of (h : Counted StandsFor client) {result : Except (SyncError H E) Unit}
    (hp : ∀ message, result ≠ .error (.panic message))
    (hl : ∀ n, result ≠ .error (.pageLimitExceeded n)) :
    Survives StandsFor fits limited (result, client) :=
  ⟨fun _ ⟨message, hm⟩ => hp message hm, fun _ => h, fun n hn => absurd hn (hl n)⟩

section

variable [DecidableEq H] (laws : crate.InMemory hash StandsFor) (h : Counted StandsFor client)
include laws h

theorem syncBlock_survives (hfit : fits → Fits block) :
    Survives StandsFor fits limited (syncBlock crate client block : Outcome S H E) := by
  obtain ⟨contents, hho⟩ := id h
  rcases syncBlock_cases (E := E) laws hho block with
    ⟨-, hrun⟩ | ⟨⟨-, hstart, hfull⟩, hp⟩ | ⟨-, synced, hsy, -, hrun⟩
  · rw [hrun]
    exact survives_of h (by simp) (by simp)
  · refine ⟨fun hf => ?_, fun hn => absurd hp hn, fun n hn => ?_⟩
    · rw [hstart, hho.position] at hfull
      have := hfit hf (by rw [hstart, hho.position]; exact laws.capacity hho.tree)
      rw [hstart, hho.position] at this
      omega
    · obtain ⟨_, hm⟩ := hp
      cases hm.symm.trans hn
  · rw [hrun]
    split <;> exact survives_of ⟨_, hsy⟩ (by simp) (by simp)

theorem syncBlocks_survives {blocks : List (BlockCommitments H)}
    (hfit : fits → ∀ block ∈ blocks, Fits block) :
    Survives StandsFor fits limited (syncBlocks crate client blocks : Outcome S H E) := by
  induction blocks generalizing client with
  | nil => exact survives_of h (by simp) (by simp)
  | cons block rest ih =>
    have hs : Survives StandsFor fits limited (syncBlock crate client block : Outcome S H E) :=
      syncBlock_survives laws h fun hf => (forall_mem_cons.mp (hfit hf)).1
    unfold syncBlocks
    split
    next heq => exact heq ▸ hs
    next heq =>
      rw [heq] at hs
      exact ih (hs.counted (not_panicked_of_ok rfl)) fun hf => (forall_mem_cons.mp (hfit hf)).2

variable (limits) (hfit : fits → ∀ n fromHeight toHeight page,
      api.page n fromHeight toHeight = .ok page →
  ∀ block ∈ page.blocks, Fits block)
include hfit

/-- The cursor moves forward, so pages that cover the rest of the range are not used up. -/
theorem syncPages_survives {toHeight remaining pageFrom : Nat} (hfr : pageFrom ≤ toHeight) :
    Survives StandsFor fits (pageFrom + remaining ≤ toHeight)
      (syncPages crate api limits toHeight remaining pageFrom client) := by
  induction remaining generalizing pageFrom client with
  | zero =>
    unfold syncPages
    split
    · exact survives_of h (by simp) (by simp)
    · refine ⟨fun _ hp => ?_, fun _ => h, fun _ _ => hfr⟩
      obtain ⟨_, hm⟩ := hp
      cases hm
  | succ remaining ih =>
    unfold syncPages
    dsimp only
    split
    · exact survives_of h (by simp) (by simp)
    split
    · exact survives_of h (by simp) (by simp)
    next page hpa =>
    split
    · exact survives_of h (by simp) (by simp)
    have hb : Survives StandsFor fits (pageFrom + (remaining + 1) ≤ toHeight)
        (syncBlocks crate client page.blocks : Outcome S H E) :=
      syncBlocks_survives laws h fun hf => hfit hf _ _ _ page hpa
    split
    next heq => exact heq ▸ hb
    next synced heq =>
    rw [heq] at hb
    have hc : Counted StandsFor synced := hb.counted (not_panicked_of_ok rfl)
    split
    · exact survives_of hc (by simp) (by simp)
    split
    · exact survives_of hc (by simp) (by simp)
    next hcu =>
      obtain ⟨hlive, hend, hli⟩ := ih hc (Nat.not_lt.mp (not_or.mp hcu).2)
      exact ⟨hlive, hend, fun n hn => by have := hli n hn; omega⟩

theorem syncWithLimits_survives :
    Survives StandsFor fits (∃ state, api.state = .ok state ∧ limits.maxPages ≤ state.height)
      (syncWithLimits crate hash api limits client) := by
  have hro {client : TreeClient S} (state : TreeState H) (h : Counted StandsFor client)
      {limited : Prop} : Survives StandsFor fits limited
        ((checkRoot crate hash client state, client) : Outcome S H E) := by
    unfold checkRoot
    split <;> exact survives_of h (by simp) (by simp)
  unfold syncWithLimits
  split
  · exact survives_of h (by simp) (by simp)
  next state hs =>
  split
  · exact survives_of h (by simp) (by simp)
  split
  · exact hro state h
  split
  · exact survives_of h (by simp) (by simp)
  next hra =>
  have hsy : Survives StandsFor fits (client.fromHeight + limits.maxPages ≤ state.height)
      (syncPages crate api limits state.height limits.maxPages client.fromHeight client) :=
    syncPages_survives limits laws h hfit (Nat.not_lt.mp hra)
  split
  next heq =>
    rw [heq] at hsy
    exact ⟨hsy.live, hsy.counted, fun n hn => ⟨state, hs, by have := hsy.pages n hn; omega⟩⟩
  next synced heq =>
  rw [heq] at hsy
  have hc : Counted StandsFor synced := hsy.counted (not_panicked_of_ok rfl)
  split
  · exact survives_of hc (by simp) (by simp)
  · exact hro state hc

end

/-! ### A block that does not fit -/

/-- A server with one page that holds one block stops the client as the block does. -/
theorem sync_onePage_panics [DecidableEq H] (hash : VoteHash H)
    (hfresh : client.lastSyncedHeight = none)
    (hp : Panicked (syncBlock crate client block : Outcome S H E)) :
    Panicked (syncWithLimits crate hash
      (onePage (E := E) ⟨client.nextPosition + 1, hash.zero, 0⟩ [block]) ⟨1, 0⟩ client) := by
  obtain ⟨message, hp⟩ := hp
  rcases hrun : (syncBlock crate client block : Outcome S H E) with ⟨_, _⟩
  rw [hrun] at hp
  subst hp
  exact ⟨message, by
    simp [syncWithLimits, onePage, late, syncPages, syncBlocks, hrun, fromHeight, hfresh]⟩

/-- A client with a given number of leaves. -/
theorem exists_counted (laws : crate.InMemory hash StandsFor) {count : Nat}
    (hcount : count ≤ treeCapacity) : ∃ client contents, Holds StandsFor contents client ∧
      contents.leaves.length = count ∧ client.lastSyncedHeight = none := by
  have hge : Holds StandsFor ⟨[], []⟩ (empty crate) := ⟨laws.empty, rfl⟩
  rcases appendLeaves_cases (E := Empty) laws hge (replicate count hash.zero) with
    ⟨-, appended, -, hap⟩ | ⟨⟨-, hfull⟩, -⟩
  · exact ⟨{ appended with lastSyncedHeight := none }, _, ⟨hap.tree, hap.position⟩,
      by simp [extend], rfl⟩
  · simp only [length_nil, length_replicate, Nat.zero_add] at hfull
    omega

theorem sync_overfull {leaves : List Nat} (hfull : treeCapacity < leaves.length) :
    ∃ message, (syncWithLimits (listTree weighted) weighted
      (onePage (E := Empty) ⟨1, 0, 0⟩ [⟨5, 0, leaves, 0⟩]) ⟨1, 0⟩ (empty (listTree weighted))).1 =
        .error (.panic message) := by
  have hge : Holds Kept ⟨[], []⟩ (empty (listTree weighted)) := ⟨⟨rfl, Nat.zero_le _⟩, rfl⟩
  refine sync_onePage_panics weighted rfl ?_
  rcases syncBlock_cases (listTree_inMemory weighted) hge ⟨5, 0, leaves, 0⟩ with
    ⟨hin, -⟩ | ⟨-, hp⟩ | ⟨hroom, -⟩
  · exact absurd rfl hin.2
  · exact hp
  · have hroom := (hroom (ne_nil_of_length_pos (Nat.zero_lt_of_lt hfull))).2
    dsimp only at hroom
    omega

end ZcashVoting.CommitmentTree.TreeClient
