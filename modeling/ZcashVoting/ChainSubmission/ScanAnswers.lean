import ZcashVoting.ChainSubmission.TreeScan

/-!
# The answers of the exact-tree pass

Every part of the pass reads just what is admissible at its place. So the whole pass comes
to its end on admissible downloads only, and its answer is the one of the window search
over their leaves.
-/
namespace ZcashVoting.ChainSubmission

open CommitmentTree Occurrence List KeyedData

/-! ### What a part of the pass reads -/

section

variable {F μ : Type} {crate : FrontierCrate F Bytes32} {decode : String → Option (List UInt8)}
  {hash : VoteHash Bytes32} {StandsFor : F → List Bytes32 → Prop} {snapshot : Snapshot}
  {world : RecoveryWorld} {visit : μ → Nat → Bytes32 → Except RecoveryScanFailure μ}
  {seen leaves : List Bytes32} {height : Option Nat} {walk : Walk F} {start : μ}

/-! #### Texts -/

theorem decodeLeaf_ok {encoded label : String} {leaf : Bytes32} :
    decodeLeaf decode encoded label = .ok leaf ↔ leafOf decode encoded = some leaf := by
  unfold leafOf decodeLeaf
  cases decode encoded with
  | none => simp [Except.toOption]
  | some bytes =>
    dsimp only
    split
    · split <;> simp [Except.toOption]
    · simp [Except.toOption]

theorem Holds.length (h : Holds decode blocks leaves) : leaves.length = leafTotal blocks := by
  have hl := congrArg List.length h
  simpa [leafTotal, length_flatMap] using hl.symm

theorem holds_append {blocks blocks' : List LeafBlock} : Holds decode (blocks ++ blocks') leaves ↔
    ∃ front back, leaves = front ++ back ∧ Holds decode blocks front ∧
      Holds decode blocks' back := by
  unfold Holds
  rw [flatMap_append, map_append, eq_comm, map_eq_append_iff]
  constructor
  · rintro ⟨front, back, heq, hf, hb⟩
    exact ⟨front, back, heq, hf.symm, hb.symm⟩
  · rintro ⟨front, back, heq, hf, hb⟩
    exact ⟨front, back, heq, hf.symm, hb.symm⟩

theorem Holds.append {blocks' : List LeafBlock} {leaves' : List Bytes32}
    (h : Holds decode blocks leaves) (h' : Holds decode blocks' leaves') :
    Holds decode (blocks ++ blocks') (leaves ++ leaves') :=
  holds_append.mpr ⟨_, _, rfl, h, h'⟩

theorem Holds.unique (h : Holds decode blocks leaves) (h' : Holds decode blocks seen) :
    leaves = seen :=
  map_injective_iff.mpr (Option.some_injective _) (h.symm.trans h')

/-! #### Parts -/

variable (StandsFor) in
/-- The state of a pass that has read `seen`, the last block at `height`. -/
structure At (seen : List Bytes32) (height : Option Nat) (walk : Walk F) : Prop where
  stands : StandsFor walk.frontier seen
  count : walk.nextIndex = seen.length
  height : walk.previousHeight = height

variable (StandsFor visit) in
/-- Part of a pass after the leaves `seen`. What is good to read is read and shown to the
visitor, and nothing else is read to the end. -/
structure Reads (seen : List Bytes32) (start : μ) (Good : List Bytes32 → Option Nat → Prop)
    (result : Except RecoveryScanFailure (Walk F × μ)) : Prop where
  accepts : ∀ leaves height, Good leaves height → ∃ walk,
    At StandsFor (seen ++ leaves) height walk ∧
    result = (visitFrom visit seen.length start leaves).map (walk, ·)
  only : ∀ walk visited, result = .ok (walk, visited) →
    ∃ leaves height, Good leaves height ∧ At StandsFor (seen ++ leaves) height walk

variable {Good Good' : List Bytes32 → Option Nat → Prop}
  {result : Except RecoveryScanFailure (Walk F × μ)}

theorem Reads.congr (h : Reads StandsFor visit seen start Good result)
    (hgood : ∀ leaves height, Good leaves height ↔ Good' leaves height) :
    Reads StandsFor visit seen start Good' result := by
  obtain rfl : Good = Good' := funext₂ fun leaves height => propext (hgood leaves height)
  exact h

theorem Reads.pure (hat : At StandsFor seen height walk) :
    Reads StandsFor visit seen start (fun leaves height' => leaves = [] ∧ height' = height)
      (.ok (walk, start)) where
  accepts := by
    rintro _ _ ⟨rfl, rfl⟩
    exact ⟨walk, by rwa [append_nil], rfl⟩
  only := by
    rintro _ _ ⟨⟩
    exact ⟨[], height, ⟨rfl, rfl⟩, by rwa [append_nil]⟩

theorem Reads.bind {next : Walk F × μ → Except RecoveryScanFailure (Walk F × μ)}
    {N : List Bytes32 → Option Nat → List Bytes32 → Option Nat → Prop}
    (h : Reads StandsFor visit seen start Good result)
    (hnext : ∀ leaves height walk visited, Good leaves height →
      At StandsFor (seen ++ leaves) height walk →
      Reads StandsFor visit (seen ++ leaves) visited (N leaves height) (next (walk, visited))) :
    Reads StandsFor visit seen start (fun leaves height => ∃ front middle back,
      Good front middle ∧ N front middle back height ∧ leaves = front ++ back)
      (result >>= next) where
  accepts := by
    rintro _ height ⟨front, middle, back, hgood, hback, rfl⟩
    obtain ⟨walk, hat, hresult⟩ := h.accepts front middle hgood
    rw [hresult, visitFrom_append]
    cases visitFrom visit seen.length start front with
    | error =>
      -- the visitor stopped inside the first part; where the pass would end is still known
      obtain ⟨walk', hat', -⟩ := (hnext front middle walk start hgood hat).accepts back height hback
      exact ⟨walk', by rwa [← append_assoc], rfl⟩
    | ok visited =>
      obtain ⟨walk', hat', hresult'⟩ :=
        (hnext front middle walk visited hgood hat).accepts back height hback
      refine ⟨walk', by rwa [← append_assoc], ?_⟩
      rw [length_append] at hresult'
      exact hresult'
  only := by
    intro walk' visited' hok
    obtain ⟨⟨walk, visited⟩, hresult, hok⟩ := bind_ok hok
    obtain ⟨front, middle, hgood, hat⟩ := h.only walk visited hresult
    obtain ⟨back, height, hback, hat'⟩ :=
      (hnext front middle walk visited hgood hat).only walk' visited' hok
    exact ⟨_, height, ⟨front, middle, back, hgood, hback, rfl⟩, by rwa [← append_assoc]⟩

theorem Reads.check {α : Type} {check : Except RecoveryScanFailure α}
    {next : α → Except RecoveryScanFailure (Walk F × μ)}
    (hcheck : ∀ leaves height, Good leaves height → ∃ a, check = .ok a)
    (h : ∀ a, check = .ok a → Reads StandsFor visit seen start Good (next a)) :
    Reads StandsFor visit seen start Good (check >>= next) where
  accepts leaves height hgood := by
    obtain ⟨a, ha⟩ := hcheck leaves height hgood
    obtain ⟨walk, hat, hresult⟩ := (h a ha).accepts leaves height hgood
    exact ⟨walk, hat, by rw [ha]; exact hresult⟩
  only walk visited hok := by
    obtain ⟨a, ha, hok⟩ := bind_ok hok
    exact (h a ha).only walk visited hok

theorem Reads.fail {e : RecoveryScanFailure} (h : ∀ leaves height, ¬ Good leaves height) :
    Reads StandsFor visit seen start Good (.error e) where
  accepts leaves height hgood := absurd hgood (h leaves height)
  only _ _ hok := nomatch hok

/-! #### Leaves and blocks -/

section

variable (laws : crate.Laws hash StandsFor) (hfits : snapshot.nextIndex ≤ maxRecoveryLeaves)

include laws hfits

theorem scanLeaf_reads (hat : At StandsFor seen height walk) (encoded : String) :
    Reads StandsFor visit seen start
      (fun leaves height' => ∃ leaf, leaves = [leaf] ∧ leafOf decode encoded = some leaf ∧
        seen.length < snapshot.nextIndex ∧ height' = height)
      (scanLeaf crate decode snapshot visit (walk, start) encoded) where
  accepts := by
    rintro _ _ ⟨leaf, rfl, hleaf, hlt, rfl⟩
    obtain ⟨frontier, happ⟩ : ∃ frontier, crate.append walk.frontier leaf = some frontier := by
      cases happ : crate.append walk.frontier leaf with
      | none => exact absurd (hlt.trans_le hfits) (laws.append_none hat.stands happ)
      | some frontier => exact ⟨frontier, rfl⟩
    refine ⟨⟨frontier, walk.nextIndex + 1, walk.previousHeight⟩,
      ⟨(laws.append_some hat.stands happ).2, by simp [hat.count], hat.height⟩, ?_⟩
    unfold scanLeaf
    rw [if_neg (by rw [hat.count]; omega), decodeLeaf_ok.mpr hleaf]
    simp only [bind, Except.bind, happ]
    rw [visitFrom, ← hat.count]
    cases visit start (walk.nextIndex + 1) leaf with
    | error | ok => rfl
  only := by
    intro walk' visited hok
    obtain ⟨hlt, hok⟩ := guard_ok hok
    obtain ⟨leaf, hleaf, hok⟩ := bind_ok hok
    split at hok
    · cases hok
    next happ =>
      obtain ⟨_, -, hok⟩ := bind_ok hok
      cases hok
      have hseen := hat.count
      dsimp only at hlt
      exact ⟨[leaf], height, ⟨leaf, rfl, decodeLeaf_ok.mp hleaf, by omega, rfl⟩,
        (laws.append_some hat.stands happ).2, by simp [hseen], hat.height⟩

theorem scanLeaves_reads (hat : At StandsFor seen height walk)
    (hseen : seen.length ≤ snapshot.nextIndex) (texts : List String) :
    Reads StandsFor visit seen start
      (fun leaves height' => texts.map (leafOf decode) = leaves.map some ∧
        seen.length + leaves.length ≤ snapshot.nextIndex ∧ height' = height)
      (texts.foldlM (scanLeaf crate decode snapshot visit) (walk, start)) := by
  induction texts generalizing seen walk start height with
  | nil =>
    refine (Reads.pure hat).congr fun leaves height' => ?_
    constructor
    · rintro ⟨rfl, rfl⟩
      exact ⟨rfl, hseen, rfl⟩
    · rintro ⟨hnil, -, rfl⟩
      exact ⟨map_eq_nil_iff.mp hnil.symm, rfl⟩
  | cons text texts ih =>
    rw [foldlM_cons]
    refine ((scanLeaf_reads laws hfits hat text).bind
      (N := fun front middle back height' => texts.map (leafOf decode) = back.map some ∧
        (seen ++ front).length + back.length ≤ snapshot.nextIndex ∧ height' = middle)
      fun front middle walk' visited hgood hat' => ?_).congr fun leaves height' => ?_
    · obtain ⟨leaf, rfl, -, hlt, -⟩ := hgood
      exact ih hat' (by simpa using hlt)
    · constructor
      · rintro ⟨_, _, back, ⟨leaf, rfl, hleaf, hlt, rfl⟩, ⟨hback, hle, rfl⟩, rfl⟩
        refine ⟨by simp [hleaf, hback], ?_, rfl⟩
        rwa [length_append, Nat.add_assoc, ← length_append] at hle
      · rintro ⟨htexts, hle, rfl⟩
        cases leaves with
        | nil => simp at htexts
        | cons leaf back =>
          obtain ⟨hleaf, hback⟩ := cons.inj htexts
          rw [length_cons] at hle
          refine ⟨[leaf], _, back, ⟨leaf, rfl, hleaf, by omega, rfl⟩, ⟨hback, ?_, rfl⟩, rfl⟩
          rw [length_append, length_singleton]
          omega

omit laws hfits in
theorem checkBlock_ok {block : LeafBlock} {walk' : Walk F} :
    checkBlock snapshot walk block = .ok walk' ↔
      (block.height ≤ snapshot.height ∧ (∀ height ∈ walk.previousHeight, height < block.height) ∧
        (block.leaves ≠ [] → block.startIndex = walk.nextIndex)) ∧
      { walk with previousHeight := some block.height } = walk' := by
  unfold checkBlock
  split
  next hbad =>
    refine ⟨(fun h => nomatch h), fun ⟨⟨hinside, habove, hstart⟩, _⟩ => ?_⟩
    rcases hbad with hout | hany | ⟨hne, hother⟩
    · omega
    · obtain ⟨height, hheight, hle⟩ := (Option.any_eq_true _ _).mp hany
      exact absurd (habove height hheight) (not_lt.mpr (of_decide_eq_true hle))
    · exact absurd (hstart hne) hother
  next hgood =>
    simp only [not_or, not_lt, not_and, not_not] at hgood
    obtain ⟨hinside, habove, hstart⟩ := hgood
    rw [Except.ok.injEq]
    refine ⟨fun h => ⟨⟨hinside, fun height hheight => ?_, hstart⟩, h⟩, And.right⟩
    rw [Option.mem_def.mp hheight] at habove
    simpa using habove

omit laws hfits in
theorem checkBlockRoot_ok {block : LeafBlock} : checkBlockRoot crate decode walk block = .ok () ↔
    ∃ encoded, block.root = some encoded ∧
      leafOf decode encoded = some (crate.root walk.frontier) := by
  unfold checkBlockRoot
  cases block.root with
  | none => simp
  | some encoded =>
    simp only [bind_ok_iff, decodeLeaf_ok, Option.some.injEq, exists_eq_left']
    constructor
    · rintro ⟨root, hroot, h⟩
      rw [hroot, not_not.mp (guard_ok h).1]
    · exact fun h => ⟨_, h, if_neg (not_not.mpr rfl)⟩

variable {before : List LeafBlock}

theorem scanBlock_reads (hat : At StandsFor seen (before.getLast?.map LeafBlock.height) walk)
    (hheld : Holds decode before seen) (hseen : seen.length ≤ snapshot.nextIndex)
    (block : LeafBlock) :
    Reads StandsFor visit seen start
      (fun leaves height => BlockAfter decode hash snapshot.height before block ∧
        Holds decode [block] leaves ∧ seen.length + leaves.length ≤ snapshot.nextIndex ∧
        height = some block.height)
      (scanBlock crate decode snapshot visit (walk, start) block) := by
  have hcount : walk.nextIndex = leafTotal before := hat.count.trans hheld.length
  refine Reads.check (fun leaves height ⟨hafter, _⟩ => ⟨_, checkBlock_ok.mpr ⟨⟨hafter.inside,
    fun height hheight => ?_, fun hne => (hafter.start hne).trans hcount.symm⟩, rfl⟩⟩)
    fun walk' hwalk => ?_
  · rw [hat.height] at hheight
    obtain ⟨earlier, hearlier, rfl⟩ := Option.mem_map.mp hheight
    exact hafter.above earlier hearlier
  obtain ⟨⟨hinside, habove, hstart⟩, rfl⟩ := checkBlock_ok.mp hwalk
  have hat' : At StandsFor seen (some block.height)
      { walk with previousHeight := some block.height } := ⟨hat.stands, hat.count, rfl⟩
  refine ((scanLeaves_reads laws hfits hat' hseen block.leaves).bind
    (N := fun front middle back height => (back = [] ∧ height = middle) ∧ ∃ encoded,
      block.root = some encoded ∧ leafOf decode encoded = some (hash.root (seen ++ front)))
    fun front middle walk'' visited _ hat'' => ?_).congr fun leaves height => ?_
  · have hroot := laws.root hat''.stands
    refine Reads.check (fun back height hgood => ⟨(), ?_⟩) fun _ hok => ?_
    · rw [checkBlockRoot_ok, hroot]
      exact hgood.2
    · rw [checkBlockRoot_ok, hroot] at hok
      exact (Reads.pure hat'').congr fun back height => (and_iff_left hok).symm
  · constructor
    · rintro ⟨front, _, _, ⟨htexts, hle, rfl⟩, ⟨⟨rfl, rfl⟩, hroot⟩, rfl⟩
      rw [append_nil]
      have hblock : Holds decode [block] front := by simpa [Holds] using htexts
      obtain ⟨encoded, henc, hleaf⟩ := hroot
      refine ⟨⟨hinside, fun earlier hearlier => ?_, fun hne => (hstart hne).trans hcount,
        _, encoded, hheld.append hblock, henc, hleaf⟩, hblock, hle, rfl⟩
      exact habove _ (hat.height ▸ Option.mem_map_of_mem _ hearlier)
    · rintro ⟨hafter, hblock, hle, rfl⟩
      obtain ⟨all, encoded, hall, henc, hleaf⟩ := hafter.root
      rw [hall.unique (hheld.append hblock)] at hleaf
      exact ⟨leaves, _, [], ⟨by simpa [Holds] using hblock, hle, rfl⟩,
        ⟨⟨rfl, rfl⟩, encoded, henc, hleaf⟩, (append_nil _).symm⟩

theorem scanBlocks_reads (hat : At StandsFor seen (before.getLast?.map LeafBlock.height) walk)
    (hheld : Holds decode before seen) (hseen : seen.length ≤ snapshot.nextIndex)
    (blocks : List LeafBlock) :
    Reads StandsFor visit seen start
      (fun leaves height => EachAfter (BlockAfter decode hash snapshot.height) before blocks ∧
        Holds decode blocks leaves ∧ seen.length + leaves.length ≤ snapshot.nextIndex ∧
        height = (before ++ blocks).getLast?.map LeafBlock.height)
      (blocks.foldlM (scanBlock crate decode snapshot visit) (walk, start)) := by
  induction blocks generalizing before seen walk start with
  | nil =>
    refine (Reads.pure hat).congr fun leaves height => ?_
    rw [append_nil]
    constructor
    · rintro ⟨rfl, rfl⟩
      exact ⟨eachAfter_nil, rfl, hseen, rfl⟩
    · rintro ⟨-, hnil, -, rfl⟩
      exact ⟨map_eq_nil_iff.mp hnil.symm, rfl⟩
  | cons block blocks ih =>
    rw [foldlM_cons]
    refine ((scanBlock_reads laws hfits hat hheld hseen block).bind
      (N := fun front _ back height =>
        EachAfter (BlockAfter decode hash snapshot.height) (before ++ [block]) blocks ∧
        Holds decode blocks back ∧ (seen ++ front).length + back.length ≤ snapshot.nextIndex ∧
        height = (before ++ [block] ++ blocks).getLast?.map LeafBlock.height)
      fun front middle walk' visited hgood hat' => ?_).congr fun leaves height => ?_
    · obtain ⟨-, hblock, hle, rfl⟩ := hgood
      refine ih ?_ (hheld.append hblock) (by rwa [length_append])
      simpa using hat'
    · rw [eachAfter_cons, append_assoc, singleton_append]
      constructor
      · rintro ⟨front, _, back, ⟨hafter, hblock, -, rfl⟩, ⟨heach, hback, hle, rfl⟩, rfl⟩
        rw [length_append, Nat.add_assoc, ← length_append] at hle
        exact ⟨⟨hafter, heach⟩, hblock.append hback, hle, rfl⟩
      · rintro ⟨⟨hafter, heach⟩, hheld', hle, rfl⟩
        obtain ⟨front, back, rfl, hblock, hback⟩ := holds_append.mp
          (show Holds decode ([block] ++ blocks) leaves from hheld')
        rw [length_append] at hle
        refine ⟨front, _, back, ⟨hafter, hblock, by omega, rfl⟩, ⟨heach, hback, ?_, rfl⟩, rfl⟩
        rw [length_append]
        omega

/-! #### Pages -/

omit laws hfits

theorem getJsonWithSize_ok {R : Type} {interrupted : Bool} {value : R} {bytes : Nat}
    {answer : Except ChainTransportError (RecoveryHttpResponse R)} :
    getJsonWithSize interrupted answer = .ok (value, bytes) ↔ interrupted = false ∧
      ∃ response, answer = .ok response ∧ Plain response value ∧ response.bodyLength = bytes := by
  unfold getJsonWithSize
  cases interrupted with
  | true => simp
  | false =>
    cases answer with
    | error => simp
    | ok response =>
      simp only [Bool.false_eq_true, if_false, true_and, Except.ok.injEq, exists_eq_left']
      constructor
      · intro h
        obtain ⟨hmeta, h⟩ := guard_ok h
        simp only [not_or, not_not, not_lt, Bool.not_eq_false] at hmeta
        cases hbody : response.body with
        | none => simp [hbody] at h
        | some =>
          simp only [hbody, Except.ok.injEq, Prod.mk.injEq] at h
          exact ⟨⟨hmeta.1, hmeta.2.1, hmeta.2.2, hbody.trans (congrArg some h.1)⟩, h.2⟩
      · rintro ⟨hplain, rfl⟩
        rw [if_neg, hplain.body]
        simp only [not_or, not_not, not_lt, Bool.not_eq_false]
        exact ⟨hplain.status, hplain.short, hplain.json⟩

theorem fetchPage_ok {request fromHeight totalBytes total : Nat} {page : LeavesResponse} :
    fetchPage snapshot world request fromHeight totalBytes walk = .ok (page, total) ↔
      (world.interrupted request = false ∧ world.interruptedGet request = false) ∧
      world.exhausted request = false ∧
      (∃ response, world.page request fromHeight = .ok response ∧ Plain response page ∧
        totalBytes + response.bodyLength = total) ∧
      total ≤ maxRecoveryTotalBytes ∧
        leafTotal page.blocks ≤ snapshot.nextIndex - walk.nextIndex := by
  have hmax : maxRecoveryTotalBytes < 2 ^ 64 - 1 := by decide
  unfold fetchPage
  cases hi : world.interrupted request with
  | true => simp
  | false =>
  cases hx : world.exhausted request with
  | true => simp
  | false =>
  simp only [Bool.false_eq_true, if_false, bind_ok_iff, true_and, Prod.exists]
  constructor
  · rintro ⟨page', bytes, hget, h⟩
    obtain ⟨hinterrupted, response, hpage, hplain, rfl⟩ := getJsonWithSize_ok.mp hget
    obtain ⟨htotal, h⟩ := guard_ok h
    obtain ⟨hfew, h⟩ := guard_ok h
    obtain ⟨rfl, rfl⟩ := Prod.mk.inj (Except.ok.inj h)
    exact ⟨hinterrupted, ⟨response, hpage, hplain, by omega⟩, by omega, by omega⟩
  · rintro ⟨hget, ⟨response, hpage, hplain, rfl⟩, htotal, hfew⟩
    refine ⟨page, _, getJsonWithSize_ok.mpr ⟨hget, response, hpage, hplain, rfl⟩, ?_⟩
    rw [Nat.min_eq_left (by omega), if_neg (by omega), if_neg (by omega)]

variable (snapshot) in
/-- Where a page may point to, with so many leaves read. -/
def Moves (count fromHeight : Nat) (page : LeavesResponse) : Prop :=
  if count < snapshot.nextIndex then
    fromHeight < page.nextFromHeight ∧ page.nextFromHeight ≤ snapshot.height
  else page.nextFromHeight = 0

theorem nextCursor_ok {fromHeight next : Nat} {page : LeavesResponse} :
    nextCursor snapshot walk fromHeight page = .ok next ↔
      Moves snapshot walk.nextIndex fromHeight page ∧
        (if walk.nextIndex < snapshot.nextIndex then page.nextFromHeight else fromHeight) =
          next := by
  unfold nextCursor Moves
  split
  · split
    next hbad => exact ⟨(fun h => nomatch h), fun h => absurd hbad (by omega)⟩
    next hgood =>
      rw [Except.ok.injEq]
      exact (and_iff_right (by omega)).symm
  · split
    next hbad => exact ⟨(fun h => nomatch h), fun h => absurd h.1 hbad⟩
    next hgood =>
      rw [Except.ok.injEq]
      exact (and_iff_right (not_not.mp hgood)).symm

@[simp] theorem Pages.blocks_cons {page : LeavesResponse × Nat} {pages : Pages} :
    Pages.blocks (page :: pages) = page.1.blocks ++ pages.blocks := rfl

@[simp] theorem Pages.blocks_concat {page : LeavesResponse × Nat} {pages : Pages} :
    Pages.blocks (pages ++ [page]) = pages.blocks ++ page.1.blocks := by
  simp [Pages.blocks]

@[simp] theorem Pages.cursor_concat {page : LeavesResponse × Nat} {pages : Pages} :
    Pages.cursor (pages ++ [page]) = page.1.nextFromHeight := by
  simp [Pages.cursor]

theorem leafTotal_append {blocks blocks' : List LeafBlock} :
    leafTotal (blocks ++ blocks') = leafTotal blocks + leafTotal blocks' := by
  simp [leafTotal]

variable (decode hash snapshot world) in
/-- The pages after `done`, when `seen` leaves are read and so many requests and bytes
were spent. -/
structure Remaining (done : Pages) (seen : List Bytes32) (requests bytes : Nat) (pages : Pages)
    (leaves : List Bytes32) (height : Option Nat) : Prop where
  eachPage : EachAfter (PageAfter world snapshot.nextIndex snapshot.height) done pages
  eachBlock : EachAfter (BlockAfter decode hash snapshot.height) done.blocks pages.blocks
  held : Holds decode pages.blocks leaves
  size : seen.length + leaves.length = snapshot.nextIndex
  requests : pages.length ≤ requests
  bytes : bytes + (pages.map Prod.snd).sum ≤ maxRecoveryTotalBytes
  height : height = (done.blocks ++ pages.blocks).getLast?.map LeafBlock.height

variable {done rest : Pages} {remaining fromHeight totalBytes : Nat}

theorem remaining_nil (hheld : Holds decode done.blocks seen)
    (hsize : seen.length = snapshot.nextIndex) (hlow : totalBytes ≤ maxRecoveryTotalBytes) :
    (∃ rest, Remaining decode hash snapshot world done seen remaining totalBytes rest leaves height) ↔
      leaves = [] ∧ height = done.blocks.getLast?.map LeafBlock.height := by
  constructor
  · rintro ⟨rest, h⟩
    have hsize' := h.size
    have hnil : leaves = [] := length_eq_zero_iff.mp (by omega)
    cases rest with
    | nil => exact ⟨hnil, by simpa [Pages.blocks] using h.height⟩
    | cons page rest =>
      have hmissing := (eachAfter_cons.mp h.eachPage).1.missing
      rw [← hheld.length] at hmissing
      omega
  · rintro ⟨rfl, rfl⟩
    exact ⟨[], eachAfter_nil, eachAfter_nil, rfl, hsize, Nat.zero_le _,
      hlow, by simp [Pages.blocks]⟩

theorem remaining_cons (hmissing : seen.length < snapshot.nextIndex) :
    (∃ rest, Remaining decode hash snapshot world done seen (remaining + 1) totalBytes rest leaves
      height) ↔
    ∃ page front back, leaves = front ++ back ∧ Holds decode page.1.blocks front ∧
      PageAfter world snapshot.nextIndex snapshot.height done page ∧
      EachAfter (BlockAfter decode hash snapshot.height) done.blocks page.1.blocks ∧
      ∃ rest, Remaining decode hash snapshot world (done ++ [page]) (seen ++ front) remaining
        (totalBytes + page.2) rest back height := by
  constructor
  · rintro ⟨rest, h⟩
    cases rest with
    | nil =>
      have hsize := h.size
      rw [h.held.length] at hsize
      simp only [Pages.blocks, flatMap_nil, leafTotal, map_nil, sum_nil] at hsize
      omega
    | cons page rest =>
      obtain ⟨hpage, hpages⟩ := eachAfter_cons.mp h.eachPage
      obtain ⟨hblock, hblocks⟩ := eachAfter_append.mp h.eachBlock
      obtain ⟨front, back, rfl, hfront, hback⟩ := holds_append.mp h.held
      have hsize := h.size
      have hbytes := h.bytes
      rw [map_cons, sum_cons] at hbytes
      rw [length_append] at hsize
      refine ⟨page, front, back, rfl, hfront, hpage, hblock, rest, hpages, ?_, hback, ?_,
        Nat.le_of_succ_le_succ h.requests, by omega, ?_⟩
      · rwa [Pages.blocks_concat]
      · rw [length_append]
        omega
      · simpa using h.height
  · rintro ⟨page, front, back, rfl, hfront, hpage, hblock, rest, h⟩
    have hsize := h.size
    have hbytes := h.bytes
    have hblocks := h.eachBlock
    rw [length_append] at hsize
    rw [Pages.blocks_concat] at hblocks
    refine ⟨page :: rest, eachAfter_cons.mpr ⟨hpage, h.eachPage⟩,
      eachAfter_append.mpr ⟨hblock, hblocks⟩, hfront.append h.held, ?_,
      Nat.succ_le_succ h.requests, ?_, ?_⟩
    · rw [length_append]
      omega
    · rw [map_cons, sum_cons]
      omega
    · simpa using h.height

include laws hfits

theorem scanPages_reads (hat : At StandsFor seen (done.blocks.getLast?.map LeafBlock.height) walk)
    (hheld : Holds decode done.blocks seen) (hseen : seen.length ≤ snapshot.nextIndex)
    (hleft : done.length + remaining = maxRecoveryLeafRequests)
    (hcursor : seen.length < snapshot.nextIndex → fromHeight = done.cursor)
    (hlow : totalBytes ≤ maxRecoveryTotalBytes) :
    Reads StandsFor visit seen start
      (fun leaves height => ∃ rest, Remaining decode hash snapshot world done seen remaining
        totalBytes rest leaves height)
      (scanPages crate decode snapshot visit world remaining fromHeight totalBytes (walk, start)) := by
  induction remaining generalizing done seen walk start fromHeight totalBytes with
  | zero =>
    unfold scanPages
    split
    next hmissing =>
      have hnone : ∀ leaves height, ¬ ∃ rest, Remaining decode hash snapshot world done seen 0
          totalBytes rest leaves height := by
        rintro leaves height ⟨rest, h⟩
        have hsize := h.size
        rw [h.held.length, length_eq_zero_iff.mp (Nat.le_zero.mp h.requests)] at hsize
        simp only [hat.count, Pages.blocks, flatMap_nil, leafTotal, map_nil, sum_nil]
          at hsize hmissing
        omega
      split <;> exact .fail hnone
    next hdone =>
      have hsize : seen.length = snapshot.nextIndex := by
        have hcount := hat.count
        dsimp only at hdone
        omega
      exact (Reads.pure hat).congr fun leaves height => (remaining_nil hheld hsize hlow).symm
  | succ remaining ih =>
    unfold scanPages
    split
    next hdone' =>
      have hmissing : seen.length < snapshot.nextIndex := hat.count ▸ hdone'
      obtain rfl := hcursor hmissing
      rw [show maxRecoveryLeafRequests - (remaining + 1) = done.length by omega]
      refine Reads.check (fun leaves height hgood => ?_) fun ⟨page, total⟩ hfetch => ?_
      · obtain ⟨page, front, back, rfl, hfront, hpage, -, rest, h⟩ :=
          (remaining_cons hmissing).mp hgood
        obtain ⟨response, hserved, hplain, hbytes⟩ := hpage.served
        refine ⟨(page.1, totalBytes + page.2), fetchPage_ok.mpr ⟨hpage.uninterrupted, hpage.inTime,
          ⟨response, hserved, hplain, by rw [hbytes]⟩, ?_, ?_⟩⟩
        · exact (Nat.le_add_right _ _).trans h.bytes
        · have hsize := h.size
          rw [length_append, hfront.length] at hsize
          rw [hat.count]
          omega
      · obtain ⟨hun, hin, ⟨response, hserved, hplain, rfl⟩, hlow', -⟩ := fetchPage_ok.mp hfetch
        let after : Pages := done ++ [(page, response.bodyLength)]
        have hblocks : after.blocks = done.blocks ++ page.blocks := Pages.blocks_concat
        refine ((scanBlocks_reads laws hfits hat hheld hseen page.blocks).bind
          (N := fun front _ back height => Moves snapshot (seen ++ front).length done.cursor page ∧
            ∃ rest, Remaining decode hash snapshot world after (seen ++ front) remaining
              (totalBytes + response.bodyLength) rest back height)
          fun front middle walk' visited hgood hat' => ?_).congr fun leaves height => ?_
        · obtain ⟨-, hfront, hle, rfl⟩ := hgood
          refine Reads.check (fun back height hnext =>
            ⟨_, nextCursor_ok.mpr ⟨hat'.count ▸ hnext.1, rfl⟩⟩) fun next hnext => ?_
          obtain ⟨hmoves, hnext⟩ := nextCursor_ok.mp hnext
          rw [hat'.count] at hmoves hnext
          refine (ih (hblocks ▸ hat') (hblocks ▸ hheld.append hfront) (by rwa [length_append])
            ?_ (fun hmore => ?_) hlow').congr fun back height => (and_iff_right hmoves).symm
          · simp only [after, length_append, length_singleton]
            omega
          · rw [← hnext, if_pos hmore]
            exact (@Pages.cursor_concat (page, response.bodyLength) done).symm
        · rw [remaining_cons hmissing]
          have htotal : ∀ {front}, Holds decode page.blocks front →
              leafTotal after.blocks = (seen ++ front).length := fun hfront => by
            rw [hblocks, leafTotal_append, length_append, hheld.length, hfront.length]
          constructor
          · rintro ⟨front, _, back, ⟨hblock, hfront, -, rfl⟩, ⟨hnext, hrest⟩, rfl⟩
            refine ⟨(page, response.bodyLength), front, back, rfl, hfront, ⟨hheld.length ▸ hmissing,
              hun, hin, ⟨response, hserved, hplain, rfl⟩, fun hmore => ?_, fun hall => ?_⟩,
              hblock, hrest⟩
            · have hlt : (seen ++ front).length < snapshot.nextIndex := htotal hfront ▸ hmore
              rwa [Moves, if_pos hlt] at hnext
            · have heq := (htotal hfront).symm.trans hall
              rwa [Moves, if_neg (by omega)] at hnext
          · rintro ⟨page', front, back, rfl, hfront, hpage, hblock, rest, h⟩
            obtain ⟨response', hserved', hplain', hbytes⟩ := hpage.served
            obtain rfl := Except.ok.inj (hserved'.symm.trans hserved)
            obtain rfl : page' = (page, response'.bodyLength) :=
              Prod.ext (Option.some.inj (hplain'.body.symm.trans hplain.body)) hbytes.symm
            have hsize := h.size
            refine ⟨front, _, back, ⟨hblock, hfront, ?_, rfl⟩, ⟨?_, rest, h⟩, rfl⟩
            · rw [← length_append]
              omega
            · unfold Moves
              split
              next hmore => exact hpage.forward (htotal hfront ▸ hmore)
              next hall => exact hpage.last ((htotal hfront).trans (by omega))
    next hdone =>
      have hsize : seen.length = snapshot.nextIndex := by
        have hcount := hat.count
        dsimp only at hdone
        omega
      exact (Reads.pure hat).congr fun leaves height => (remaining_nil hheld hsize hlow).symm

/-! #### The whole pass -/

omit laws hfits

theorem readSnapshot_ok {latest : LatestResponse} : readSnapshot decode latest = .ok snapshot ↔
    ∃ tree, latest.tree = some tree ∧ (tree.nextIndex ≤ maxRecoveryLeaves ∧ tree.height < 2 ^ 32) ∧
      (snapshot.nextIndex = tree.nextIndex ∧ snapshot.height = tree.height) ∧
      (tree.root.getD "" = "" ∧ tree.nextIndex = 0 ∧ snapshot.root = none ∨
        tree.root.getD "" ≠ "" ∧ ∃ root, leafOf decode (tree.root.getD "") = some root ∧
          snapshot.root = some root) := by
  unfold readSnapshot
  obtain ⟨nextIndex, height, root⟩ := snapshot
  cases latest.tree with
  | none => simp
  | some tree =>
    simp only [Option.some.injEq, exists_eq_left']
    split
    next hout => exact ⟨(fun h => nomatch h), fun h => absurd h.1 (by omega)⟩
    next hin =>
    rw [and_iff_right (by omega : tree.nextIndex ≤ maxRecoveryLeaves ∧ tree.height < 2 ^ 32)]
    split
    next hroot =>
      simp only [bind_ok_iff, decodeLeaf_ok, Except.ok.injEq, Snapshot.mk.injEq]
      grind
    next hroot =>
      split
      next hzero =>
        simp only [Except.ok.injEq, Snapshot.mk.injEq]
        grind
      next hzero => exact ⟨(fun h => nomatch h), fun h => by grind⟩

theorem checkFinal_ok : checkFinal crate snapshot world walk = .ok () ↔
    world.exhausted (maxRecoveryLeafRequests + 1) = false ∧
      ∀ root ∈ snapshot.root, crate.root walk.frontier = root := by
  unfold checkFinal
  cases world.exhausted (maxRecoveryLeafRequests + 1) with
  | true => simp
  | false =>
    cases snapshot.root with
    | none => simp
    | some root => by_cases heq : crate.root walk.frontier = root <;> simp [heq]

include laws

/-- The pass reads what is admissible, and nothing else to the end. -/
theorem scanTreeWith_reads : Reads StandsFor visit [] start
    (fun leaves height => ∃ latest tree pages, Download decode hash world leaves latest tree pages ∧
      height = pages.blocks.getLast?.map LeafBlock.height)
    (scanTreeWith crate decode visit world start) := by
  unfold scanTreeWith
  split
  next hno =>
    refine .fail fun leaves height ⟨_, _, _, h, _⟩ => ?_
    cases hno.symm.trans h.endpoint
  next hend =>
  refine Reads.check (fun leaves height ⟨latest, tree, pages, h, _⟩ => ⟨_, getJsonWithSize_ok.mpr
    ⟨h.uninterrupted, latest, h.advertised.1, h.advertised.2, rfl⟩⟩) fun ⟨value, bytes⟩ hget => ?_
  obtain ⟨hun, response, hlatest, hplain, rfl⟩ := getJsonWithSize_ok.mp hget
  have hsame : ∀ {leaves latest tree pages},
      Download decode hash world leaves latest tree pages →
        latest = response ∧ value = ⟨some tree⟩ := by
    intro leaves latest tree pages h
    obtain rfl := Except.ok.inj (h.advertised.1.symm.trans hlatest)
    exact ⟨rfl, Option.some.inj (hplain.body.symm.trans h.advertised.2.body)⟩
  refine Reads.check (fun leaves height ⟨latest, tree, pages, h, _⟩ => ?_) fun snapshot hsnap => ?_
  · obtain ⟨rfl, rfl⟩ := hsame h
    have hbounds : tree.nextIndex ≤ maxRecoveryLeaves ∧ tree.height < 2 ^ 32 := h.size ▸ h.bounds
    rcases h.root with ⟨hempty, hnil⟩ | ⟨hroot, hleaf⟩
    · exact ⟨⟨tree.nextIndex, tree.height, none⟩, readSnapshot_ok.mpr ⟨tree, rfl, hbounds, ⟨rfl, rfl⟩,
        .inl ⟨hempty, by rw [h.size, hnil]; rfl, rfl⟩⟩⟩
    · exact ⟨⟨tree.nextIndex, tree.height, _⟩, readSnapshot_ok.mpr ⟨tree, rfl, hbounds, ⟨rfl, rfl⟩,
        .inr ⟨hroot, _, hleaf, rfl⟩⟩⟩
  obtain ⟨tree, htree, hbounds, ⟨hindex, hheight⟩, hroot⟩ := readSnapshot_ok.mp hsnap
  have hfits : snapshot.nextIndex ≤ maxRecoveryLeaves := hindex ▸ hbounds.1
  have hat : At StandsFor [] ((Pages.blocks []).getLast?.map LeafBlock.height)
      ⟨crate.empty, 0, none⟩ := ⟨laws.empty, rfl, rfl⟩
  refine ((scanPages_reads laws hfits hat rfl (Nat.zero_le _) (Nat.zero_add _) (fun _ => rfl)
    (hplain.short.trans (by decide))).bind
    (N := fun front middle back height => (back = [] ∧ height = middle) ∧
      world.exhausted (maxRecoveryLeafRequests + 1) = false ∧
      ∀ root ∈ snapshot.root, hash.root front = root)
    fun front middle walk visited _ hat' => ?_).congr fun leaves height => ?_
  · have hfront := laws.root hat'.stands
    rw [nil_append] at hfront
    refine Reads.check (fun back height hgood => ⟨(), checkFinal_ok.mpr (hfront ▸ hgood.2)⟩)
      fun _ hok => ?_
    rw [checkFinal_ok, hfront] at hok
    exact (Reads.pure hat').congr fun back height => (and_iff_left hok).symm
  · constructor
    · rintro ⟨front, middle, _, ⟨pages, h⟩, ⟨⟨rfl, rfl⟩, hin, hfinal⟩, rfl⟩
      obtain rfl : value = ⟨some tree⟩ := by rw [← htree]
      have hsize : tree.nextIndex = front.length := by
        rw [← hindex, ← h.size, length_nil, Nat.zero_add]
      have hpages := h.eachPage
      have hblocks := h.eachBlock
      rw [hindex, hheight] at hpages
      rw [hheight] at hblocks
      rw [append_nil]
      refine ⟨response, tree, pages, ⟨by simpa using hend, hun, ⟨hlatest, hplain⟩, hsize,
        hsize ▸ hbounds, ?_, h.held, hblocks, hpages, h.requests, h.bytes, hin⟩, h.height⟩
      rcases hroot with ⟨hempty, hzero, -⟩ | ⟨hne, root, hleaf, hroot⟩
      · exact .inl ⟨hempty, length_eq_zero_iff.mp (hsize.symm.trans hzero)⟩
      · exact .inr ⟨hne, hleaf.trans (congrArg some (hfinal root hroot).symm)⟩
    · rintro ⟨latest, tree', pages, h, rfl⟩
      obtain ⟨rfl, rfl⟩ := hsame h
      obtain rfl := Option.some.inj htree
      refine ⟨leaves, _, [], ⟨pages, ?_, ?_, h.held, ?_, h.requests, h.bytes, rfl⟩,
        ⟨⟨rfl, rfl⟩, h.inTime, fun root hmem => ?_⟩, (append_nil _).symm⟩
      · rw [hindex, hheight]
        exact h.eachPage
      · rw [hheight]
        exact h.eachBlock
      · rw [hindex, h.size, length_nil, Nat.zero_add]
      · rcases h.root with ⟨hempty, -⟩ | ⟨-, hleaf⟩
        · simp [hempty, Option.mem_def.mp hmem] at hroot
        · obtain ⟨root', hleaf', hsome⟩ :=
            (hroot.resolve_left fun hnone => nomatch hnone.2.2.symm.trans hmem).2
          cases hsome.symm.trans hmem
          exact Option.some.inj (hleaf.symm.trans hleaf')

theorem scanTreeWith_of_admissible (h : Admissible decode hash world leaves) :
    ∃ walk, scanTreeWith crate decode visit world start =
      (visitFrom visit 0 start leaves).map (walk, ·) := by
  obtain ⟨latest, tree, pages, h⟩ := h
  obtain ⟨walk, -, hresult⟩ :=
    (scanTreeWith_reads laws).accepts leaves _ ⟨latest, tree, pages, h, rfl⟩
  exact ⟨walk, hresult⟩

theorem admissible_of_scanTreeWith_ok {state : Walk F × μ}
    (h : scanTreeWith crate decode visit world start = .ok state) :
    ∃ leaves, Admissible decode hash world leaves := by
  obtain ⟨leaves, _, ⟨latest, tree, pages, h, -⟩, -⟩ :=
    (scanTreeWith_reads laws).only state.1 state.2 h
  exact ⟨leaves, latest, tree, pages, h⟩

end

/-! ### Answers -/

def layoutAnswer (layout : ExpectedTreeLayout) (leaves : List Bytes32) :
    Except RecoveryScanFailure RecoveryScanOutcome :=
  match visitFrom (Finder.see multipleLayouts layout.leaves) 0 Finder.start leaves with
  | .error e => .error e
  | .ok finder =>
    match finder.found with
    | some start => .ok (.found start (layout.commitmentPositions start))
    | none => .ok .noMatch

theorem layoutAnswer_cases (layout : ExpectedTreeLayout) (leaves : List Bytes32) :
    (layoutAnswer layout leaves = .ok .noMatch ∧ ∀ p, ¬ OccursAt layout.leaves leaves p) ∨
    (∃ p, layoutAnswer layout leaves = .ok (.found p (layout.commitmentPositions p)) ∧
      ∀ q, OccursAt layout.leaves leaves q ↔ q = p) ∨
    (layoutAnswer layout leaves = .error multipleLayouts ∧
      ∃ p q, p ≠ q ∧ OccursAt layout.leaves leaves p ∧ OccursAt layout.leaves leaves q) := by
  have hv : Finder.Verdict multipleLayouts layout.leaves leaves
      (visitFrom (Finder.see multipleLayouts layout.leaves) 0 Finder.start leaves) :=
    (Finder.tracks_start layout.leaves_ne_nil).visitFrom layout.leaves_ne_nil
  unfold layoutAnswer
  generalize visitFrom (Finder.see multipleLayouts layout.leaves) 0 Finder.start leaves =
    result at hv
  cases hv with
  | twice p q hne hp hq => exact .inr (.inr ⟨rfl, p, q, hne, hp, hq⟩)
  | @tracked finder ht =>
    cases hf : finder.found with
    | none => exact .inl ⟨by simp only [hf], ht.absent hf⟩
    | some p => exact .inr (.inl ⟨p, by simp only [hf], ht.unique p hf⟩)

variable {layout : ExpectedTreeLayout}

theorem scanExactLayout_of_admissible (laws : crate.Laws hash StandsFor)
    (h : Admissible decode hash world leaves) :
    scanExactLayout crate decode world layout = layoutAnswer layout leaves := by
  obtain ⟨walk, hscan⟩ : ∃ walk, scanTreeWith crate decode
      (Finder.see multipleLayouts layout.leaves) world Finder.start = _ :=
    scanTreeWith_of_admissible laws h
  rw [scanExactLayout, layoutAnswer, hscan]
  cases visitFrom (Finder.see multipleLayouts layout.leaves) 0 Finder.start leaves with
  | error | ok => rfl

variable (decode hash world) in
/-- The leaves are as many as advertised, and their root is the advertised one. Only an
empty tree may come without a root. -/
def Reproduces (leaves : List Bytes32) : Prop :=
  ∃ response tree, world.latest = .ok response ∧ response.body = some ⟨some tree⟩ ∧
    leaves.length = tree.nextIndex ∧ leaves.length ≤ maxRecoveryLeaves ∧
    (tree.root.getD "" = "" ∧ leaves = [] ∨
      decodeLeaf decode (tree.root.getD "") "snapshot root" = .ok (hash.root leaves))

theorem Admissible.reproduces (h : Admissible decode hash world leaves) :
    Reproduces decode hash world leaves := by
  obtain ⟨latest, tree, pages, h⟩ := h
  exact ⟨latest, tree, h.advertised.1, h.advertised.2.body, h.size.symm, h.bounds.1,
    h.root.imp id fun hroot => decodeLeaf_ok.mpr hroot.2⟩

theorem admissible_of_answer (laws : crate.Laws hash StandsFor) {outcome : RecoveryScanOutcome}
    (h : scanExactLayout crate decode world layout = .ok outcome) :
    ∃ leaves, Admissible decode hash world leaves := by
  obtain ⟨_, hscan, -⟩ := bind_ok h
  exact admissible_of_scanTreeWith_ok laws hscan

variable (crate decode hash world layout) in
/-- What the answers of a pass mean, for every way the server splits the tree. -/
structure ExactAnswers : Prop where
  answered : ∀ outcome, scanExactLayout crate decode world layout = .ok outcome →
    ∃ leaves, Admissible decode hash world leaves ∧ Reproduces decode hash world leaves
  found : ∀ leaves, Admissible decode hash world leaves → ∀ p positions,
    scanExactLayout crate decode world layout = .ok (.found p positions) ↔
      positions = layout.commitmentPositions p ∧ ∀ q, OccursAt layout.leaves leaves q ↔ q = p
  noMatch : ∀ leaves, Admissible decode hash world leaves →
    (scanExactLayout crate decode world layout = .ok .noMatch ↔
      ∀ p, ¬ OccursAt layout.leaves leaves p)
  twice : ∀ leaves, Admissible decode hash world leaves → ∀ p q, p ≠ q →
    OccursAt layout.leaves leaves p → OccursAt layout.leaves leaves q →
    scanExactLayout crate decode world layout = .error multipleLayouts
  unsplit : ∀ leaves world', Admissible decode hash world leaves →
    Admissible decode hash world' leaves →
    scanExactLayout crate decode world layout = scanExactLayout crate decode world' layout

theorem scan_answers_exactly (laws : crate.Laws hash StandsFor)
    (decode : String → Option (List UInt8)) (world : RecoveryWorld) (layout : ExpectedTreeLayout) :
    ExactAnswers crate decode hash world layout where
  answered := by
    intro outcome h
    obtain ⟨leaves, hadm⟩ := admissible_of_answer laws h
    exact ⟨leaves, hadm, hadm.reproduces⟩
  found := by
    intro leaves hadm p positions
    rw [scanExactLayout_of_admissible laws hadm]
    rcases layoutAnswer_cases layout leaves with
      ⟨ha, hab⟩ | ⟨p', ha, hu⟩ | ⟨ha, q, q', hne, hq, hq'⟩
    · rw [ha]
      exact ⟨fun h => (by cases h), fun ⟨_, h⟩ => absurd ((h p).mpr rfl) (hab p)⟩
    · rw [ha]
      constructor
      · intro h
        cases h
        exact ⟨rfl, hu⟩
      · rintro ⟨rfl, h⟩
        have hsa : p = p' := (hu p).mp ((h p).mpr rfl)
        rw [hsa]
    · rw [ha]
      exact ⟨fun h => (by cases h),
        fun ⟨_, h⟩ => absurd (((h q).mp hq).trans ((h q').mp hq').symm) hne⟩
  noMatch := by
    intro leaves hadm
    rw [scanExactLayout_of_admissible laws hadm]
    rcases layoutAnswer_cases layout leaves with
      ⟨ha, hab⟩ | ⟨p, ha, hu⟩ | ⟨ha, q, q', hne, hq, hq'⟩
    · exact ⟨fun _ => hab, fun _ => ha⟩
    · rw [ha]
      exact ⟨fun h => (by cases h), fun h => absurd ((hu p).mpr rfl) (h p)⟩
    · rw [ha]
      exact ⟨fun h => (by cases h), fun h => absurd hq (h q)⟩
  twice := by
    intro leaves hadm p q hne hp hq
    rw [scanExactLayout_of_admissible laws hadm]
    rcases layoutAnswer_cases layout leaves with
      ⟨-, hab⟩ | ⟨p', -, hu⟩ | ⟨ha, -⟩
    · exact absurd hp (hab p)
    · exact absurd (((hu p).mp hp).trans ((hu q).mp hq).symm) hne
    · exact ha
  unsplit := by
    intro leaves world' hadm hadm'
    rw [scanExactLayout_of_admissible laws hadm, scanExactLayout_of_admissible laws hadm']

/-- A match is the only place of the layout in leaves with the advertised root. -/
theorem scanExactLayout_meaning (laws : crate.Laws hash StandsFor) {p : Nat} {positions : List Nat}
    (h : scanExactLayout crate decode world layout = .ok (.found p positions)) :
    ∃ leaves, Reproduces decode hash world leaves ∧ positions = layout.commitmentPositions p ∧
      ∀ q, OccursAt layout.leaves leaves q ↔ q = p := by
  obtain ⟨leaves, hadm⟩ := admissible_of_answer laws h
  rw [scanExactLayout_of_admissible laws hadm] at h
  refine ⟨leaves, hadm.reproduces, ?_⟩
  rcases layoutAnswer_cases layout leaves with ⟨ha, -⟩ | ⟨_, ha, hun⟩ | ⟨ha, -⟩
  · rw [ha] at h
    cases h
  · rw [ha] at h
    cases h
    exact ⟨rfl, hun⟩
  · rw [ha] at h
    cases h

end

/-! ### Two pages -/

def letterLeaf (letter : Char) : Bytes32 :=
  ⟨(.ofNat letter.toNat :: List.replicate 31 0 : List UInt8).toArray, rfl⟩

/-- Every root of this hash is the first leaf. -/
def firstLeafHash : VoteHash Bytes32 := ⟨fun left _ => left, letterLeaf '0'⟩

def readLetter (encoded : String) : Option (List UInt8) :=
  encoded.toList.head?.map fun letter => (letterLeaf letter).toList

def plainResponse {R : Type} (body : R) : RecoveryHttpResponse R :=
  ⟨200, some "application/json", 0, some body⟩

/-- Three leaves in two blocks, each on its own page. -/
def twoPages : RecoveryWorld where
  hasEndpoint := true
  latestInterrupted := false
  latest := .ok (plainResponse ⟨some ⟨3, some "a", 6⟩⟩)
  page _ fromHeight := .ok (plainResponse
    (if fromHeight = 0 then ⟨[⟨4, 0, ["a", "b"], some "a"⟩], 5⟩ else ⟨[⟨6, 2, ["c"], some "a"⟩], 0⟩))
  interrupted _ := false
  interruptedGet _ := false
  exhausted _ := false

/-- The expected leaves lie across the two pages. -/
theorem scan_answers_exactly_two_pages :
    ∃ leaves, Admissible readLetter firstLeafHash twoPages leaves ∧ leaves.length = 3 ∧
      (∀ q, OccursAt [letterLeaf 'b', letterLeaf 'c'] leaves q ↔ q = 1) := by
  have h := scan_answers_exactly (listFrontier_laws firstLeafHash) readLetter twoPages
    (.vote (letterLeaf 'b') (letterLeaf 'c'))
  have hfound : scanExactLayout (listFrontier firstLeafHash) readLetter twoPages
      (.vote (letterLeaf 'b') (letterLeaf 'c')) = .ok (.found 1 [2]) := by decide +kernel
  obtain ⟨leaves, hadm, response, tree, hlatest, hbody, hlength, -⟩ := h.answered _ hfound
  cases hlatest
  cases hbody
  exact ⟨leaves, hadm, hlength, ((h.found leaves hadm 1 [2]).mp hfound).2⟩

end ZcashVoting.ChainSubmission
