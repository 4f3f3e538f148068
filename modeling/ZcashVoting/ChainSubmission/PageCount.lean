import ZcashVoting.ChainSubmission.ScanAnswers
import ZcashVoting.Lib.Packing

/-!
# The pages of an honest server

A request for leaves is answered with whole blocks, as many as fit the leaf target and at
least one. The pass allows the number of requests that a full tree can need.
-/
namespace ZcashVoting.ChainSubmission

open CommitmentTree List Packing KeyedData

/-- `maximum_whole_block_page_count` on its own integers: `target + 1` overflows at the largest
target. -/
def maximumWholeBlockPageCountU64 (leaves target : UInt64) : Option UInt64 :=
  if target.toNat + 1 = 2 ^ 64 then none
  else some (leaves / (target + 1) * 2 + if leaves % (target + 1) = 0 then 0 else 1)

/-! ### The count -/

section

variable {leaves target k : Nat}

theorem le_pageCount (h : k / 2 * (target + 1) + k % 2 ≤ leaves) :
    k ≤ maximumWholeBlockPageCount leaves target := by
  have hq : k / 2 ≤ leaves / (target + 1) := by
    rw [Nat.le_div_iff_mul_le (Nat.succ_pos target)]
    exact (Nat.le_add_right ..).trans h
  have hl := Nat.div_add_mod' leaves (target + 1)
  unfold maximumWholeBlockPageCount
  rcases hq.lt_or_eq with hlt | heq
  · omega
  · rw [heq] at h
    split <;> omega

/-- Blocks of one leaf and of `target` leaves in turn, each a page of its own. -/
theorem exists_blocks (ht : 0 < target) (leaves : Nat) :
    ∃ blocks : List Nat, (∀ block ∈ blocks, 0 < block) ∧
    blocks.sum = leaves ∧ blocks.IsChain (fun a b => target < id a + id b) ∧
    blocks.length = maximumWholeBlockPageCount leaves target := by
  induction leaves using Nat.strongRecOn with
  | ind leaves ih =>
    by_cases hs : leaves ≤ target
    · have hd : leaves / (target + 1) = 0 := Nat.div_eq_of_lt (by omega)
      have hm : leaves % (target + 1) = leaves := Nat.mod_eq_of_lt (by omega)
      unfold maximumWholeBlockPageCount
      rw [hd, hm]
      by_cases hz : leaves = 0
      · exact ⟨[], by simp, by simp [hz], .nil, by simp [hz]⟩
      · exact ⟨[leaves], by simp; omega, by simp, .singleton _, by simp [hz]⟩
    · obtain ⟨rest, rfl⟩ := Nat.exists_eq_add_of_le (show target + 1 ≤ leaves by omega)
      obtain ⟨blocks, hp, hsum, hch, hl⟩ := ih rest (by omega)
      refine ⟨1 :: target :: blocks, ?_, by simp [hsum]; omega, ?_, ?_⟩
      · simpa [ht] using hp
      · refine isChain_cons_cons.mpr ⟨by simp, isChain_cons.mpr ⟨fun block hb => ?_, hch⟩⟩
        have := hp block (mem_of_mem_head? hb)
        simp only [id]
        omega
      · unfold maximumWholeBlockPageCount at hl ⊢
        rw [Nat.add_div_left _ (show 0 < target + 1 by omega), Nat.add_mod_left]
        simp only [length_cons, hl]
        omega

end

theorem pageCountU64_eq {leaves target : UInt64} (hp : 0 < target.toNat)
    (hf : target.toNat + 1 < 2 ^ 64) :
    ∃ count, maximumWholeBlockPageCountU64 leaves target = some count ∧
      count.toNat = maximumWholeBlockPageCount leaves.toNat target.toNat := by
  refine ⟨_, if_neg (by omega), ?_⟩
  have hd : (target + 1).toNat = target.toNat + 1 := by
    rw [UInt64.toNat_add]
    exact Nat.mod_eq_of_lt hf
  have hz : leaves % (target + 1) = 0 ↔ leaves.toNat % (target.toNat + 1) = 0 := by
    rw [← UInt64.toNat_inj, UInt64.toNat_mod, hd]
    rfl
  have hq : leaves.toNat / (target.toNat + 1) * 2 + 1 < 2 ^ 64 := by
    have hh : leaves.toNat / (target.toNat + 1) ≤ leaves.toNat / 2 :=
      Nat.div_le_div_left (by omega) (by decide)
    have hlt := leaves.toNat_lt
    omega
  rw [UInt64.toNat_add, UInt64.toNat_mul, UInt64.toNat_div, hd, maximumWholeBlockPageCount]
  simp only [hz]
  split <;> simp <;> omega

/-! ### The pass over an honest server -/

section

variable {F μ : Type} (crate : FrontierCrate F Bytes32) (decode : String → Option (List UInt8))
  (snapshot : Snapshot) (visit : μ → Nat → Bytes32 → Except RecoveryScanFailure μ)
  (world : RecoveryWorld)

/-- Where the loop over the pages can start a round, were its requests not counted. -/
inductive LoopHead (bytes : Nat) (start : μ) :
    (requests fromHeight totalBytes : Nat) → Walk F × μ → Prop where
  | first : LoopHead bytes start 0 0 bytes (⟨crate.empty, 0, none⟩, start)
  | next {requests fromHeight fromHeight' totalBytes totalBytes' page state state'}
      (h : LoopHead bytes start requests fromHeight totalBytes state)
      (hm : state.1.nextIndex < snapshot.nextIndex)
      (hf : fetchPage snapshot world requests fromHeight totalBytes state.1 =
        .ok (page, totalBytes'))
      (hb : page.blocks.foldlM (scanBlock crate decode snapshot visit) state = .ok state')
      (hc : nextCursor snapshot state'.1 fromHeight page = .ok fromHeight') :
      LoopHead bytes start (requests + 1) fromHeight' totalBytes' state'

def leafCount (block : LeafBlock) : Nat := block.leaves.length

/-- The pages of the blocks from a height on. -/
def pagesFrom (blocks : List LeafBlock) (height : Nat) : List (List LeafBlock) :=
  packWithin leafCount voteSdkPageLeafTarget (blocks.filter fun block => height ≤ block.height)

/-- The server has the blocks of the snapshot. It answers with the first page from the height
asked for, and with the height where the others start. -/
structure ServesWholeBlocks (blocks : List LeafBlock) : Prop where
  filled : ∀ block ∈ blocks, block.leaves ≠ []
  whole : load leafCount blocks = snapshot.nextIndex
  page : ∀ n fromHeight response page, world.page n fromHeight = .ok response →
    response.body = some page →
    pagesFrom blocks fromHeight ≠ [] → pagesFrom blocks fromHeight = page.blocks ::
      if page.nextFromHeight = 0 then [] else pagesFrom blocks page.nextFromHeight

variable {crate decode snapshot visit world} {bytes requests fromHeight totalBytes : Nat}
  {start : μ} {state state' : Walk F × μ} {blocks : List LeafBlock}

theorem foldlM_load {α β ε : Type} {step : β → α → Except ε β} {xs : List α} {init final : β}
    (size : β → Nat)
    (weight : α → Nat) (hs : ∀ b a b', step b a = .ok b' → size b' = size b + weight a)
    (h : xs.foldlM step init = .ok final) : size final = size init + load weight xs := by
  refine foldlM_ok_induction (fun seen b => size b = size init + load weight seen) h rfl ?_
  intro seen a rest b b' _ hb hst
  rw [hs b a b' hst, hb, load, load, map_append, sum_append, Nat.add_assoc]
  rfl

theorem scanBlock_nextIndex {block : LeafBlock}
    (h : scanBlock crate decode snapshot visit state block = .ok state') :
    state'.1.nextIndex = state.1.nextIndex + leafCount block := by
  obtain ⟨walk, hw, h⟩ := bind_ok h
  obtain ⟨scanned, hl, h⟩ := bind_ok h
  obtain ⟨_, -, h⟩ := bind_ok h
  cases h
  obtain ⟨-, rfl⟩ := checkBlock_ok.mp hw
  have hsum := foldlM_load (fun state : Walk F × μ => state.1.nextIndex) (fun _ => 1) ?_ hl
  · simpa [load, leafCount] using hsum
  intro before encoded after hst
  unfold scanLeaf at hst
  split at hst
  · cases hst
  obtain ⟨leaf, -, hst⟩ := bind_ok hst
  split at hst
  · cases hst
  obtain ⟨_, -, hst⟩ := bind_ok hst
  cases hst
  rfl

theorem nextCursor_moves {walk : Walk F} {fromHeight' : Nat} {page : LeavesResponse}
    (h : nextCursor snapshot walk fromHeight page = .ok fromHeight')
    (hm : walk.nextIndex < snapshot.nextIndex) :
    page.nextFromHeight = fromHeight' ∧ page.nextFromHeight ≠ 0 := by
  obtain ⟨hmoves, hnext⟩ := nextCursor_ok.mp h
  rw [if_pos hm] at hnext
  rw [Moves, if_pos hm] at hmoves
  exact ⟨hnext, by omega⟩

theorem ServesWholeBlocks.page_left {done : List (List LeafBlock)}
    (hs : ServesWholeBlocks snapshot world blocks)
    (hd : pagesFrom blocks 0 = done ++ pagesFrom blocks fromHeight)
    (hm : load leafCount done.flatten < snapshot.nextIndex) : pagesFrom blocks fromHeight ≠ [] := by
  intro hn
  rw [hn, append_nil] at hd
  rw [← hd, pagesFrom, flatten_packWithin] at hm
  simp [hs.whole] at hm

/-- While leaves are missing, the requests so far took one page each. -/
theorem LoopHead.served
    (h : LoopHead crate decode snapshot visit world bytes start requests fromHeight totalBytes state)
    (hs : ServesWholeBlocks snapshot world blocks) (hm : state.1.nextIndex < snapshot.nextIndex) :
    ∃ done, pagesFrom blocks 0 = done ++ pagesFrom blocks fromHeight ∧ done.length = requests ∧
      state.1.nextIndex = load leafCount done.flatten := by
  induction h with
  | first => exact ⟨[], rfl, rfl, rfl⟩
  | next h hm' hf hb hc ih =>
    obtain ⟨done, hd, hl, hi⟩ := ih hm'
    obtain ⟨-, -, ⟨response, hr, hplain, -⟩, -⟩ := fetchPage_ok.mp hf
    obtain ⟨rfl, hz⟩ := nextCursor_moves hc hm
    have hp := hs.page _ _ _ _ hr hplain.body (hs.page_left hd (hi ▸ hm'))
    rw [if_neg hz] at hp
    refine ⟨done ++ [_], by rw [hd, hp, append_assoc, singleton_append], by simp [hl], ?_⟩
    rw [foldlM_load (fun state : Walk F × μ => state.1.nextIndex) leafCount
      (fun _ _ _ => scanBlock_nextIndex) hb, hi]
    simp [load]

theorem LoopHead.lt_limit
    (h : LoopHead crate decode snapshot visit world bytes start requests fromHeight totalBytes state)
    (hs : ServesWholeBlocks snapshot world blocks) (hl : snapshot.nextIndex ≤ maxRecoveryLeaves)
    (hm : state.1.nextIndex < snapshot.nextIndex) : requests < maxRecoveryLeafRequests := by
  obtain ⟨done, hd, rfl, hi⟩ := h.served hs hm
  have hp : ∀ block ∈ blocks, 0 < leafCount block := fun block hb =>
    length_pos_of_ne_nil (hs.filled block hb)
  have hk : (pagesFrom blocks 0).length ≤ maxRecoveryLeafRequests := by
    simp only [pagesFrom, Nat.zero_le, decide_true, filter_true]
    exact le_pageCount (((packWithin_load hp rfl).trans_eq hs.whole).trans hl)
  rw [hd, length_append] at hk
  exact Nat.lt_of_lt_of_le (Nat.lt_add_of_pos_right (length_pos_of_ne_nil (hs.page_left hd (hi ▸ hm)))) hk

theorem LoopHead.scanPages_eq
    (h : LoopHead crate decode snapshot visit world bytes start requests fromHeight totalBytes state)
    (hr : requests ≤ maxRecoveryLeafRequests) :
    scanPages crate decode snapshot visit world maxRecoveryLeafRequests 0 bytes
        (⟨crate.empty, 0, none⟩, start) =
      scanPages crate decode snapshot visit world (maxRecoveryLeafRequests - requests) fromHeight
        totalBytes state := by
  induction h with
  | first => rfl
  | @next requests _ _ _ _ _ _ _ h hm hf hb hc ih =>
    obtain ⟨rest, hrest⟩ := Nat.exists_eq_add_of_le' hr
    rw [ih (by omega), show maxRecoveryLeafRequests - requests = rest + 1 by omega,
      show maxRecoveryLeafRequests - (requests + 1) = rest by omega, scanPages, if_pos hm,
      show maxRecoveryLeafRequests - (rest + 1) = requests by omega, hf]
    simp only [bind, Except.bind, hb, hc]

end

/-- Greedy pages of whole blocks are never more than the count, some blocks need as many, and
a server that packs its blocks so is not asked more often than the pass allows. -/
theorem pages_within_limit (leaves target : UInt64) (hp : 0 < target.toNat)
    (hf : target.toNat + 1 < 2 ^ 64) :
    ∃ count, maximumWholeBlockPageCountU64 leaves target = some count ∧
      (∀ blocks : List Nat, (∀ block ∈ blocks, 0 < block) → blocks.sum = leaves.toNat →
        (packWithin id target.toNat blocks).length ≤ count.toNat) ∧
      (∃ blocks : List Nat, (∀ block ∈ blocks, 0 < block) ∧ blocks.sum = leaves.toNat ∧
        (packWithin id target.toNat blocks).length = count.toNat) ∧
      ∀ (F μ : Type) (crate : FrontierCrate F Bytes32) (decode : String → Option (List UInt8))
        (snapshot : Snapshot) (visit : μ → Nat → Bytes32 → Except RecoveryScanFailure μ)
        (world : RecoveryWorld) (blocks : List LeafBlock) (latest : LatestResponse)
        (bytes requests fromHeight totalBytes : Nat) (start : μ) (state : Walk F × μ),
        readSnapshot decode latest = .ok snapshot → ServesWholeBlocks snapshot world blocks →
        LoopHead crate decode snapshot visit world bytes start requests fromHeight totalBytes
          state →
        state.1.nextIndex < snapshot.nextIndex → requests < maxRecoveryLeafRequests ∧
          scanPages crate decode snapshot visit world maxRecoveryLeafRequests 0 bytes
              (⟨crate.empty, 0, none⟩, start) =
            scanPages crate decode snapshot visit world (maxRecoveryLeafRequests - requests)
              fromHeight totalBytes state := by
  obtain ⟨count, hc, hn⟩ := @pageCountU64_eq leaves target hp hf
  refine ⟨count, hc, fun blocks hb hs => ?_, ?_, ?_⟩
  · rw [hn]
    exact le_pageCount ((packWithin_load (show ∀ block ∈ blocks, 0 < id block from hb) rfl).trans_eq (by simp [load, hs]))
  · obtain ⟨blocks, hb, hs, hch, hl⟩ := exists_blocks hp leaves.toNat
    refine ⟨blocks, hb, hs, ?_⟩
    rw [packWithin_of_isChain hch, length_map, hl, hn]
  · intro F μ crate decode snapshot visit world blocks latest bytes requests fromHeight totalBytes
      start state hr hs h hm
    obtain ⟨_, -, ⟨hl, -⟩, ⟨hn, -⟩, -⟩ := readSnapshot_ok.mp hr
    have hlt := h.lt_limit hs (hn.trans_le hl) hm
    exact ⟨hlt, h.scanPages_eq hlt.le⟩

theorem pages_within_limit_ten : maximumWholeBlockPageCountU64 10 3 = some 5 ∧ ∃ blocks : List Nat,
    blocks.sum = 10 ∧
    (packWithin id 3 blocks).length = 5 := by
  obtain ⟨count, hc, -, ⟨blocks, -, hs, hl⟩, -⟩ := pages_within_limit 10 3 (by decide) (by decide)
  cases hc
  exact ⟨rfl, blocks, hs, hl⟩

/-- One block of one leaf is one page, whatever the target. -/
theorem largest_target_has_no_count : maximumWholeBlockPageCountU64 1 (2 ^ 64 - 1) = none ∧
    (packWithin id (2 ^ 64 - 1) [1]).length = 1 := by
  decide +kernel

end ZcashVoting.ChainSubmission
