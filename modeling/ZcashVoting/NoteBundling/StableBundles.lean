import Mathlib
import ZcashVoting.Delegation.SetupFrame
import ZcashVoting.NoteBundling.BundleStore

/-!
# Stored bundles stay planned

The rows a first call stores hold the note positions and identities of the plan's
bundles, and the policy it was made under. No later call, setup write or suffix deletion
changes that for the rows that are left, so planning the same notes again gives those
rows, whatever policy the caller asks for.
-/
namespace ZcashVoting.NoteBundling

open Delegation Bytes KeyedData List KeyedMap

variable {json : PolicyJson} {blake2b : List UInt8 → Bytes32} {t t' : DelegationTables}
  {notes notes' : List NoteInfo} {policy requested : BundlePolicy} {plan : ChunkResult}
  {bundles : List (List NoteInfo)} {b k : Nat} {layout : BundleLayout}

/-! ### Rows that hold notes -/

/-- The columns of a row that say which notes it holds. -/
def noteColumns (row : DelegationBundle) : Option Blob × Option Blob :=
  (row.notePositionsBlob, row.noteIdentityHashesBlob)

theorem decodeNotePositionsBlob_encode (notes : List NoteInfo) :
    decodeNotePositionsBlob (notePositionsBlob notes) = .ok (notes.map NoteInfo.position) := by
  have hle : (notePositionsBlob notes).length = notes.length * 8 :=
    length_flatMap_const (fun _ => length_leBytes 8 _) notes
  have hch : chunksExact 8 (notePositionsBlob notes) = notes.map fun note =>
      leBytes 8 note.position.toNat :=
    chunksExact_flatMap (by decide) (fun _ => length_leBytes 8 _) notes
  have hre : ∀ note ∈ notes, (fun chunk => UInt64.ofNat (ofLeBytes chunk))
      (leBytes 8 note.position.toNat) = note.position := by
    intro note _
    have hra : note.position.toNat < 256 ^ 8 := note.position.toNat_lt
    change UInt64.ofNat (ofLeBytes (leBytes 8 note.position.toNat)) = note.position
    rw [ofLeBytes_leBytes, Nat.mod_eq_of_lt hra, UInt64.ofNat_toNat]
  rw [decodeNotePositionsBlob, if_neg (by rw [hle]; simp), hch, map_map]
  exact congrArg Except.ok (map_congr_left hre)

theorem chunks_noteIdentityHashesBlob (notes : List NoteInfo) :
    chunksExact 32 (noteIdentityHashesBlob blake2b notes) =
    notes.map fun note => (noteIdentityHash blake2b note).toList :=
  chunksExact_flatMap (by decide) (by simp) notes

theorem requireNoteIdentities_encode (b : Nat) (notes : List NoteInfo) :
    requireNoteIdentities blake2b b (noteIdentityHashesBlob blake2b notes) notes = .ok () := by
  have hle : (noteIdentityHashesBlob blake2b notes).length = notes.length * 32 :=
    length_flatMap_const (by simp) notes
  rw [requireNoteIdentities, if_neg (by rw [hle]; simp), chunks_noteIdentityHashesBlob]
  simp only [length_map, ne_eq, not_true_eq_false, if_false]
  rw [forM_ok]
  have hzip : (notes.map fun note => (noteIdentityHash blake2b note).toList).zip notes =
      notes.map fun note => ((noteIdentityHash blake2b note).toList, note) := by
    have hpa :=
      zip_map' (f := fun note => (noteIdentityHash blake2b note).toList) (g := id) (l := notes)
    rwa [map_id] at hpa
  rintro ⟨⟨_, _⟩, _⟩ hmem
  rw [hzip] at hmem
  obtain ⟨_, -, heq⟩ := mem_map.mp (fst_mem_of_mem_zipIdx hmem)
  cases heq
  exact if_neg (by simp)

/-- Notes pass the comparison with the row that was stored for them. -/
theorem requireBundleNotes_of_columns
    (h : (t.bundles.get? b).map noteColumns = some (noteColumns (plannedRow blake2b notes))) :
    requireBundleNotes blake2b t b notes = .ok () := by
  obtain ⟨_, hrow, hco⟩ := Option.map_eq_some_iff.mp h
  obtain ⟨hpo, hha⟩ := Prod.mk.inj hco
  unfold requireBundleNotes
  rw [hrow]
  simp only [hpo, hha, plannedRow]
  rw [decodeNotePositionsBlob_encode]
  change (if notes.map NoteInfo.position ≠ notes.map NoteInfo.position then _ else _) = _
  rw [if_neg (by simp)]
  exact requireNoteIdentities_encode b notes

/-! ### What is stored -/

/-- The first `k` bundles are stored, with the policy they were planned under. -/
structure Stored (json : PolicyJson) (blake2b : List UInt8 → Bytes32) (policy : BundlePolicy)
    (bundles : List (List NoteInfo)) (k : Nat) (t : DelegationTables) : Prop where
  policy : t.bundlePolicyJson = some (encodeBundlePolicy json policy)
  rows : ∀ i, (t.bundles.get? i).map noteColumns =
    if i < k then bundles[i]?.map fun notes => noteColumns (plannedRow blake2b notes) else none
  some : 1 ≤ k
  planned : k ≤ bundles.length
  counted : k < 2 ^ 32

section

variable (h : Stored json blake2b policy bundles k t)

include h

theorem Stored.length : t.bundles.entries.length = k := by
  have hke : t.bundles.keys.Perm (List.range k) := by
    refine (perm_ext_iff_of_nodup t.bundles.distinct nodup_range).mpr fun i => ?_
    rw [mem_range]
    have hrow := h.rows i
    constructor
    · intro hkey
      by_contra hout
      obtain ⟨⟨_, row⟩, hen, rfl⟩ := mem_map.mp hkey
      rw [if_neg hout, get?_of_mem_entries hen] at hrow
      cases hrow
    · intro hin
      rw [if_pos hin, List.getElem?_eq_getElem (hin.trans_le h.planned), Option.map_some] at hrow
      obtain ⟨row, hget, -⟩ := Option.map_eq_some_iff.mp hrow
      exact mem_map.mpr ⟨(i, row), mem_entries_of_get? hget, rfl⟩
  have hle := hke.length_eq
  rwa [length_range, KeyedMap.keys, length_map] at hle

theorem Stored.count : getBundleCount t = k := by
  rw [getBundleCount, h.length, Nat.mod_eq_of_lt h.counted]

theorem Stored.count_ne_zero : ¬getBundleCount t = 0 := by
  have := h.some
  rw [h.count]
  omega

theorem Stored.effective (requested : BundlePolicy) :
    effectiveBundlePolicy json t requested = policy := by
  rw [effectiveBundlePolicy, getRoundBundlePolicy, h.policy, Option.bind_some,
    decode_encode_bundlePolicy]
  rfl

theorem Stored.setPolicy : setRoundBundlePolicy json t policy = t := by
  have hne : t.bundles.entries.isEmpty = false := by
    have hle := h.length
    have hso := h.some
    cases hen : t.bundles.entries with
    | nil => rw [hen, length_nil] at hle; omega
    | cons => rfl
  rw [setRoundBundlePolicy, hne, if_neg (by simp), ← h.policy]

theorem Stored.validate : validatePersistedBundleNotes blake2b t (bundles.take k) = .ok () := by
  rw [validatePersistedBundleNotes, forM_ok]
  rintro ⟨_, _⟩ hmem
  have hn := mem_zipIdx_iff_getElem?.mp hmem
  rw [List.getElem?_take] at hn
  split at hn
  next hlt =>
    refine requireBundleNotes_of_columns ?_
    rw [Nat.mod_eq_of_lt (hlt.trans h.counted), h.rows, if_pos hlt, hn, Option.map_some]
  · cases hn

end

/-! ### The first call -/

theorem zipIdx_split {α : Type} {xs : List α} {seen rest : List (α × Nat)} {x : α} {index : Nat}
    (h : xs.zipIdx = seen ++ (x, index) :: rest) :
    xs[seen.length]? = some x ∧ index = seen.length := by
  have hat : xs.zipIdx[seen.length]? = some (x, index) := by rw [h]; simp
  rw [List.getElem?_zipIdx] at hat
  obtain ⟨_, hfo, heq⟩ := Option.map_eq_some_iff.mp hat
  cases heq
  exact ⟨hfo, Nat.zero_add _⟩

/-- The loop that stores the bundles: each at its own index, of which there are `2 ^ 32`. -/
theorem insertBundles_ok (hem : t.bundles.entries = [])
    (h : bundles.zipIdx.foldlM (fun t bundle => insertBundleNotes blake2b t (bundle.2 % 2 ^ 32) bundle.1) t
      = .ok t') : bundles.length ≤ 2 ^ 32 ∧ ∀ i,
        t'.bundles.get? i = bundles[i]?.map (plannedRow blake2b) := by
  have hinv := foldlM_ok_induction (fun seen st => seen.length ≤ 2 ^ 32 ∧
    ∀ i, st.bundles.get? i =
      if i < seen.length then bundles[i]?.map (plannedRow blake2b) else none) h
    ⟨by simp, fun i => by simp [get?, hem]⟩ ?_
  · rw [length_zipIdx] at hinv
    refine ⟨hinv.1, fun i => ?_⟩
    rw [hinv.2 i]
    split
    · rfl
    next hout => rw [List.getElem?_eq_none (Nat.not_lt.mp hout), Option.map_none]
  · rintro seen ⟨_, _⟩ _ st _ hsp ⟨-, hr⟩ hs
    obtain ⟨hn, rfl⟩ := zipIdx_split hsp
    unfold insertBundleNotes at hs
    split at hs
    · cases hs
    next hfr =>
      cases hs
      -- an index that wraps is taken already
      have hlt : seen.length < 2 ^ 32 := by
        by_contra hge
        refine hfr ?_
        have hmod : seen.length % 2 ^ 32 < seen.length :=
          (Nat.mod_lt _ (by decide)).trans_le (Nat.not_lt.mp hge)
        have hbo : seen.length < bundles.length := (List.getElem?_eq_some_iff.mp hn).1
        rw [KeyedMap.contains, hr, if_pos hmod, List.getElem?_eq_getElem (hmod.trans hbo)]
        rfl
      refine ⟨by rw [length_append, length_singleton]; omega, fun i => ?_⟩
      simp only [Nat.mod_eq_of_lt hlt]
      rw [get?_set, length_append, length_singleton]
      by_cases hi : i = seen.length
      · rw [if_pos hi, if_pos (by omega), hi, hn, Option.map_some]
      rw [if_neg hi, hr]
      by_cases hlt' : i < seen.length
      · rw [if_pos hlt', if_pos (by omega)]
      · rw [if_neg hlt', if_neg (by omega)]

theorem stored_of_first (he : t.bundles.entries = [])
    (h : ensureBundlesWithPolicy json blake2b t notes requested = .ok (layout, t'))
    (hre : 0 < layout.bundleCount) :
    ∃ plan, canonicalNoteBundlePlanForNotes notes (effectiveBundlePolicy json t requested) =
      .ok plan ∧
      Stored json blake2b (effectiveBundlePolicy json t requested) plan.bundles plan.bundles.length t' ∧
      layout.bundleCount = plan.bundles.length ∧ layout.eligibleWeight = plan.eligibleWeight := by
  obtain ⟨plan, hpl, h⟩ := bind_ok h
  have hno : getBundleCount t = 0 := by rw [getBundleCount, he]; rfl
  simp only [hno] at h
  obtain ⟨⟨⟨_, _⟩, _⟩, hpe, h⟩ := bind_ok h
  cases h
  obtain ⟨inserted, hin, hpe⟩ := bind_ok hpe
  cases hpe
  obtain ⟨hli, hr⟩ := insertBundles_ok he hin
  have hp : 0 < plan.bundles.length % 2 ^ 32 := hre
  have hlt : plan.bundles.length < 2 ^ 32 := by
    rcases hli.lt_or_eq with hlt | heq
    · exact hlt
    · rw [heq, Nat.mod_self] at hp
      exact absurd hp (Nat.lt_irrefl 0)
  rw [Nat.mod_eq_of_lt hlt] at hp
  have hne : inserted.bundles.entries.isEmpty = false := by
    have hf := hr 0
    rw [List.getElem?_eq_getElem hp, Option.map_some] at hf
    have hmem := mem_entries_of_get? hf
    cases hen : inserted.bundles.entries with
    | nil => rw [hen] at hmem; cases hmem
    | cons => rfl
  refine ⟨plan, hpl, ⟨?_, fun i => ?_, hp, le_rfl, hlt⟩, Nat.mod_eq_of_lt hlt, rfl⟩
  · rw [setRoundBundlePolicy, hne, if_neg (by simp)]
  rw [setRoundBundlePolicy, hne, if_neg (by simp)]
  rw [hr, Option.map_map]
  split
  · rfl
  next hout => rw [List.getElem?_eq_none (Nat.not_lt.mp hout), Option.map_none]

/-- A first call stores the bundles it planned and the policy. -/
theorem ensure_of_inserted (he : t.bundles.entries = [])
    (hpl : canonicalNoteBundlePlanForNotes notes (effectiveBundlePolicy json t requested) = .ok plan)
    (hin : plan.bundles.zipIdx.foldlM (fun t bundle =>
      insertBundleNotes blake2b t (bundle.2 % 2 ^ 32) bundle.1) t = .ok t')
    (hc : plan.bundles.length < 2 ^ 32) : ensureBundlesWithPolicy json blake2b t notes requested =
      .ok (⟨plan.bundles.length, plan.eligibleWeight, plan.droppedCount % 2 ^ 32,
        plan.privacyTrim⟩,
          setRoundBundlePolicy json t' (effectiveBundlePolicy json t requested)) := by
  have hnon : getBundleCount t = 0 := by rw [getBundleCount, he]; rfl
  refine bind_ok_iff.mpr ⟨plan, hpl, ?_⟩
  simp only [hnon]
  refine bind_ok_iff.mpr ⟨_, bind_ok_iff.mpr ⟨t', hin, rfl⟩, ?_⟩
  simp only [Nat.mod_eq_of_lt hc]
  rfl

/-! ### Weights -/

/-- The value of bundles in whole ballots, each rounded down. -/
def ballotWeight (bundles : List (List NoteInfo)) : Nat :=
  (bundles.map fun bundle => noteSum bundle / ballotDivisor.toNat * ballotDivisor.toNat).sum

theorem checkedAdd_of_fits {a b : UInt64} (h : a.toNat + b.toNat < 2 ^ 64) :
    checkedAdd a b = some (a + b) ∧ (a + b).toNat = a.toNat + b.toNat := by
  rw [checkedAdd, if_pos h, UInt64.toNat_add, Nat.mod_eq_of_lt h]
  exact ⟨rfl, rfl⟩

/-- A checked sum that fits is the sum. -/
theorem foldlM_checked {α : Type} {step : UInt64 → α → Except VotingError UInt64} {value : α → Nat}
    {l : List α} (hstep : ∀ a ∈ l, ∀ acc : UInt64, acc.toNat + value a < 2 ^ 64 →
      ∃ next, step acc a = .ok next ∧ next.toNat = acc.toNat + value a) (acc : UInt64)
    (hf : acc.toNat + (l.map value).sum < 2 ^ 64) :
    ∃ weight, l.foldlM step acc = .ok weight ∧ weight.toNat = acc.toNat + (l.map value).sum := by
  induction l generalizing acc with
  | nil => exact ⟨acc, rfl, rfl⟩
  | cons a rest ih =>
    rw [map_cons, sum_cons] at hf ⊢
    obtain ⟨next, hne, _⟩ := hstep a mem_cons_self acc (by omega)
    obtain ⟨weight, hw, _⟩ := ih (fun a ha => hstep a (mem_cons_of_mem _ ha)) next (by omega)
    refine ⟨weight, ?_, by omega⟩
    rw [foldlM_cons, hne]
    exact hw

theorem rawBundleWeight_ok (hf : noteSum notes < 2 ^ 64) :
    ∃ weight, rawBundleWeight notes = .ok weight ∧ weight.toNat = noteSum notes := by
  rw [noteSum, ← Nat.zero_add (sum _)] at hf ⊢
  refine foldlM_checked (fun note _ acc hn => ?_) 0 hf
  obtain ⟨hadd, hsum⟩ := checkedAdd_of_fits hn
  exact ⟨acc + note.value, by rw [hadd], hsum⟩

theorem quantizedBundleWeight_ok (hfi : noteSum notes < 2 ^ 64) :
    ∃ weight, quantizedBundleWeight notes = .ok weight ∧
      weight.toNat = noteSum notes / ballotDivisor.toNat * ballotDivisor.toNat := by
  obtain ⟨raw, hraw, hsum⟩ := rawBundleWeight_ok hfi
  refine ⟨_, by rw [quantizedBundleWeight, hraw]; rfl, ?_⟩
  have hle := Nat.div_mul_le_self raw.toNat ballotDivisor.toNat
  rw [UInt64.toNat_mul, UInt64.toNat_div, Nat.mod_eq_of_lt (hle.trans_lt raw.toNat_lt), hsum]

theorem ballotWeight_le : ballotWeight bundles ≤ noteSum bundles.flatten := by
  induction bundles with
  | nil => exact Nat.le_refl 0
  | cons bundle rest ih =>
    rw [flatten_cons, noteSum_append]
    exact Nat.add_le_add (Nat.div_mul_le_self _ _) ih

theorem quantizedBundleSetWeight_ok (hf : noteSum bundles.flatten < 2 ^ 64) :
    ∃ weight, quantizedBundleSetWeight bundles = .ok weight ∧
      weight.toNat = ballotWeight bundles := by
  have hle : ballotWeight bundles ≤ _ := ballotWeight_le
  rw [ballotWeight, ← Nat.zero_add (sum _)] at hle ⊢
  refine foldlM_checked (fun bundle hb acc hn => ?_) 0 (hle.trans_lt hf)
  obtain ⟨before, after, rfl⟩ := append_of_mem hb
  rw [flatten_append, flatten_cons, noteSum_append, noteSum_append] at hf
  obtain ⟨own, hown, hval⟩ := quantizedBundleWeight_ok (show noteSum bundle < 2 ^ 64 by omega)
  rw [← hval] at hn ⊢
  obtain ⟨hadd, hsum⟩ := checkedAdd_of_fits hn
  exact ⟨acc + own, bind_ok_iff.mpr ⟨own, hown, by rw [hadd]; rfl⟩, hsum⟩

/-- The values of the first bundles of a plan fit, and its weight is theirs. -/
theorem plan_weights (hpl : canonicalNoteBundlePlanForNotes notes policy = .ok plan)
    (hf : noteSum (distinctNotesByNullifier notes) < 2 ^ 64) :
    plan.eligibleWeight.toNat = ballotWeight plan.bundles ∧ ∀ k,
      noteSum (plan.bundles.take k).flatten < 2 ^ 64 := by
  obtain ⟨-, rfl⟩ := plan_eq_of_ok hpl
  obtain ⟨_, subBallot, dropped, h⟩ := chunkNotes_chunked (distinctNotesByNullifier notes) policy
  refine ⟨h.eligibleWeight_eq hf, fun k => lt_of_le_of_lt ?_ hf⟩
  rw [← noteSum_perm h.conserved, noteSum_append, ← h.flatten]
  set bundles := (chunkNotesWithPolicy (distinctNotesByNullifier notes) policy).bundles
  calc noteSum (bundles.take k).flatten
      ≤ noteSum ((bundles.take k).flatten ++ (bundles.drop k).flatten) := by
        rw [noteSum_append]; exact Nat.le_add_right _ _
    _ = noteSum bundles.flatten := by rw [← flatten_append, take_append_drop]
    _ ≤ noteSum bundles.flatten + noteSum (notesOf subBallot ++ notesOf dropped) :=
      Nat.le_add_right _ _

/-! ### Later calls -/

section

variable (h : Stored json blake2b policy bundles k t)

include h

/-- A call on stored rows leaves them, whatever the notes. -/
theorem Stored.ensure_keeps
    (hc : ensureBundlesWithPolicy json blake2b t notes requested = .ok (layout, t')) : t' = t := by
  obtain ⟨_, -, hc⟩ := bind_ok hc
  rw [h.effective] at hc
  simp only [if_neg h.count_ne_zero] at hc
  split at hc
  · cases hc
  · obtain ⟨_, -, hc⟩ := bind_ok hc
    cases hc
    exact h.setPolicy

theorem Stored.skipped_keeps (notes : List NoteInfo) (requested : BundlePolicy) :
    (ensureBundlesWithSkippedSuffixWithPolicy json blake2b t notes requested).2 = t := by
  unfold ensureBundlesWithSkippedSuffixWithPolicy
  split
  · rfl
  simp only [if_neg h.count_ne_zero, h.effective]
  split
  · rfl
  · exact h.setPolicy

/-- The same plan again, with all its bundles stored. -/
theorem Stored.ensure_again (hall : k = plan.bundles.length) (hbu : bundles = plan.bundles)
    (hpl : canonicalNoteBundlePlanForNotes notes policy = .ok plan) :
    ensureBundlesWithPolicy json blake2b t notes requested =
      .ok (⟨k, plan.eligibleWeight, plan.droppedCount % 2 ^ 32, plan.privacyTrim⟩, t) := by
  have hco : ¬k = 0 := by have := h.some; omega
  have hv := h.validate
  rw [hbu, hall, take_length] at hv
  refine bind_ok_iff.mpr ⟨plan, by rw [h.effective]; exact hpl, ?_⟩
  simp only [h.count, if_neg hco, ← hall, Nat.mod_eq_of_lt h.counted, ne_eq, not_true_eq_false,
    h.effective, h.setPolicy]
  exact bind_ok_iff.mpr ⟨(), hv, rfl⟩

/-- The same plan again, with its first bundles stored. -/
theorem Stored.skipped_again {weight : UInt64} (hbu : bundles = plan.bundles)
    (hpl : canonicalNoteBundlePlanForNotes notes policy = .ok plan)
    (hwe : quantizedBundleSetWeight (plan.bundles.take k) = .ok weight) :
    ensureBundlesWithSkippedSuffixWithPolicy json blake2b t notes requested =
      (.ok ⟨k, weight, 0, plan.privacyTrim⟩, t) := by
  have hco : ¬k = 0 := by have := h.some; omega
  have hv := h.validate
  have hp := h.planned
  rw [hbu] at hv hp
  have hfi : plannedPrefix blake2b t notes policy = .ok (plan.bundles.take k,
      plan.privacyTrim) := by
    unfold plannedPrefix
    rw [hpl]
    change (if plan.bundles.length < getBundleCount t then _ else _) = _
    rw [h.count, if_neg (Nat.not_lt.mpr hp), hv]
    rfl
  unfold ensureBundlesWithSkippedSuffixWithPolicy
  rw [(plan_eq_of_ok hpl).1]
  simp only [h.count, if_neg hco, h.effective, hfi, hwe, h.setPolicy, Except.map]

/-- A suffix deletion that leaves a row leaves the first rows. -/
theorem Stored.prune {fromIndex deleted : Nat}
    (hd : t.deleteBundlesFrom fromIndex = .ok (deleted, t'))
    (hl : t'.bundles.entries ≠ []) : Stored json blake2b policy bundles (min k fromIndex) t' := by
  unfold DelegationTables.deleteBundlesFrom at hd
  split at hd
  · cases hd
  obtain ⟨_, -, hd⟩ := bind_ok hd
  have hg : t' = t.deleteBundles (fun b => fromIndex ≤ b) := by
    obtain ⟨-, ht'⟩ := Prod.mk.inj (Except.ok.inj hd)
    split at ht'
    next hem =>
      refine absurd ?_ hl
      rw [← ht']
      exact List.isEmpty_iff.mp hem
    · exact ht'.symm
  have hr : ∀ i, (t'.bundles.get? i).map noteColumns =
      if i < min k fromIndex then bundles[i]?.map fun notes =>
        noteColumns (plannedRow blake2b notes)
      else none := by
    intro i
    rw [hg]
    change ((t.bundles.filterKeys fun b => !decide (fromIndex ≤ b)).get? i).map noteColumns = _
    by_cases hi : i < fromIndex
    · rw [get?_filterKeys (by simpa using hi), h.rows]
      by_cases hk : i < k
      · rw [if_pos hk, if_pos (lt_min hk hi)]
      · rw [if_neg hk, if_neg fun hlt => hk (hlt.trans_le (min_le_left _ _))]
    · rw [get?_filterKeys_eq_none (by simpa using hi),
        if_neg fun hlt => hi (hlt.trans_le (min_le_right _ _)), Option.map_none]
  refine ⟨by rw [hg]; exact h.policy, hr, ?_, (min_le_left _ _).trans h.planned,
    (min_le_left _ _).trans_lt h.counted⟩
  obtain ⟨⟨i, _⟩, hen⟩ := exists_mem_of_ne_nil _ hl
  have hrow := hr i
  rw [get?_of_mem_entries hen] at hrow
  split at hrow
  next hlt => omega
  · cases hrow

end

/-! ### Runs -/

/-- One write to the round after its bundles are stored. -/
inductive BundleStep (json : PolicyJson) (blake2b : List UInt8 → Bytes32)
    (t t' : DelegationTables) : Prop where
  | ensure (notes : List NoteInfo) (requested : BundlePolicy)
      (outcome : Except VotingError BundleLayout)
      (h : committed t (ensureBundlesWithPolicy json blake2b t notes requested) = (outcome, t'))
  | skipped (notes : List NoteInfo) (requested : BundlePolicy)
      (outcome : Except VotingError BundleLayout)
      (h : ensureBundlesWithSkippedSuffixWithPolicy json blake2b t notes requested = (outcome, t'))
  | prune (keepCount deleted : Nat) (h : t.deleteBundlesFrom keepCount = .ok (deleted, t'))
      (hleft : t'.bundles.entries ≠ [])
  /-- Any other write: it leaves the policy and says nothing else about the notes. -/
  | other (hpolicy : t'.bundlePolicyJson = t.bundlePolicyJson)
      (hrows : ∀ b, (t'.bundles.get? b).map noteColumns = (t.bundles.get? b).map noteColumns)

theorem Stored.step (h : Stored json blake2b policy bundles k t)
    (hst : BundleStep json blake2b t t') :
    ∃ left, Stored json blake2b policy bundles left t' := by
  cases hst with
  | ensure notes requested _ hc =>
    cases hr : ensureBundlesWithPolicy json blake2b t notes requested with
    | error =>
      rw [hr] at hc
      cases hc
      exact ⟨k, h⟩
    | ok =>
      rw [hr] at hc
      cases hc
      rw [h.ensure_keeps hr]
      exact ⟨k, h⟩
  | skipped notes requested _ hc =>
    have hk := h.skipped_keeps notes requested
    rw [hc] at hk
    cases hk
    exact ⟨k, h⟩
  | prune _ _ hde hle => exact ⟨_, h.prune hde hle⟩
  | other hpo hro =>
    exact ⟨k, hpo.trans h.policy, fun i => (hro i).trans (h.rows i), h.some, h.planned, h.counted⟩

theorem Stored.run {start : DelegationTables} (h : Stored json blake2b policy bundles k start)
    (hrun : Relation.ReflTransGen (BundleStep json blake2b) start t) :
    ∃ left, Stored json blake2b policy bundles left t := by
  induction hrun with
  | refl => exact ⟨k, h⟩
  | tail _ hste ih =>
    obtain ⟨_, hst⟩ := ih
    exact hst.step hste

/-! ### Stored bundles stay planned -/

/-- What calls do while the first `k` of the planned bundles are stored. -/
structure StaysPlanned (json : PolicyJson) (blake2b : List UInt8 → Bytes32) (notes : List NoteInfo)
    (layout : BundleLayout) (plan : ChunkResult) (k : Nat) (t : DelegationTables) : Prop where
  /-- With every bundle stored, the same notes are accepted and nothing is written. -/
  ensure : k = layout.bundleCount → ∀ notes' requested, (∀ note, note ∈ notes ↔ note ∈ notes') →
    ∃ again, ensureBundlesWithPolicy json blake2b t notes' requested = .ok (again, t) ∧
      again.bundleCount = layout.bundleCount ∧ again.eligibleWeight = layout.eligibleWeight ∧
      again.eligibleWeight.toNat = ballotWeight plan.bundles
  /-- With a prefix stored, they are accepted where a suffix may be missing. -/
  skipped : ∀ notes' requested, (∀ note, note ∈ notes ↔ note ∈ notes') →
    ∃ again, ensureBundlesWithSkippedSuffixWithPolicy json blake2b t notes' requested =
      (.ok again, t) ∧
      again.bundleCount = k ∧ again.eligibleWeight.toNat = ballotWeight (plan.bundles.take k)
  /-- Other notes change no row. -/
  others : ∀ notes' requested,
    (committed t (ensureBundlesWithPolicy json blake2b t notes' requested)).2.bundles = t.bundles ∧
      (ensureBundlesWithSkippedSuffixWithPolicy json blake2b t notes' requested).2.bundles =
        t.bundles

/-- A call on a round without rows is the plain call, whichever of the two is made. -/
theorem first_call {outcome : Except VotingError BundleLayout} (hem : t.bundles.entries = [])
    (h : committed t (ensureBundlesWithPolicy json blake2b t notes requested) = (outcome, t') ∨
      ensureBundlesWithSkippedSuffixWithPolicy json blake2b t notes requested =
      (outcome, t')) (hok : outcome = .ok layout) :
    ensureBundlesWithPolicy json blake2b t notes requested = .ok (layout, t') := by
  subst hok
  have hp : committed t (ensureBundlesWithPolicy json blake2b t notes requested) =
      (.ok layout, t') := by
    rcases h with h | h
    · exact h
    unfold ensureBundlesWithSkippedSuffixWithPolicy at h
    split at h
    · cases h
    · rwa [if_pos (by rw [getBundleCount, hem]; rfl)] at h
  unfold committed at hp
  split at hp
  next result hre =>
    cases hp
    exact hre
  · cases hp

/-- Notes that were bundled once are bundled the same way ever after. -/
theorem stored_bundles_stay_planned {start first : DelegationTables} {layout : BundleLayout}
    (hempty : start.bundles.entries = [])
    (hfirst : committed start (ensureBundlesWithPolicy json blake2b start notes requested) = (.ok layout, first) ∨
      ensureBundlesWithSkippedSuffixWithPolicy json blake2b start notes requested =
        (.ok layout, first))
    (hreported : 0 < layout.bundleCount) (hpositions : ∀ a ∈ notes, ∀ b ∈ notes,
      a.position = b.position → a = b)
    (hnullifiers : ∀ a ∈ notes, ∀ b ∈ notes, a.nullifier = b.nullifier → a = b)
    (hfits : noteSum (distinctNotesByNullifier notes) < 2 ^ 64)
    (hrun : Relation.ReflTransGen (BundleStep json blake2b) first t) :
    ∃ stored plan k, canonicalNoteBundlePlanForNotes notes stored = .ok plan ∧
      Stored json blake2b stored plan.bundles k t ∧
        StaysPlanned json blake2b notes layout plan k t := by
  obtain ⟨plan, hp, hst, hco, hla⟩ :=
    stored_of_first hempty (first_call hempty hfirst rfl) hreported
  obtain ⟨k, h⟩ := hst.run hrun
  obtain ⟨hwe, hfits⟩ := plan_weights hp hfits
  refine ⟨_, plan, k, hp, h, ?_, ?_, ?_⟩
  · intro hall notes' requested' hs
    have hp' := plan_of_same_notes hs hpositions hnullifiers hp
    exact ⟨_, h.ensure_again (hall.trans hco) rfl hp', hall, hla.symm, hwe⟩
  · intro notes' requested' hs
    have hp' := plan_of_same_notes hs hpositions hnullifiers hp
    obtain ⟨_, hset, hsum⟩ := quantizedBundleSetWeight_ok (hfits k)
    exact ⟨_, h.skipped_again rfl hp' hset, rfl, hsum⟩
  · intro notes' requested'
    refine ⟨?_, by rw [h.skipped_keeps]⟩
    cases hca : ensureBundlesWithPolicy json blake2b t notes' requested' with
    | error => rfl
    | ok =>
      rw [committed, h.ensure_keeps hca]

/-! ### Two notes -/

/-- A codec of policies that writes a number in unary. -/
def unaryJson : PolicyJson where
  encode n persisted := .ofList (.replicate (Encodable.encode (n, persisted.maxRealNotesPerBundle,
    persisted.bundleAdditionThresholdZatoshi.map UInt64.toNat, persisted.maxPrivacyBundles,
    persisted.privacyDropBps.toNat, persisted.maxPrivacyDropZatoshi.map UInt64.toNat)) '1')
  version text := match (Encodable.decode text.length :
      Option (Nat × Nat × Option Nat × Option Nat × Nat × Option Nat)) with
    | some fields => .ok fields.1
    | none => .error "not a policy"
  policy text := match (Encodable.decode text.length :
      Option (Nat × Nat × Option Nat × Option Nat × Nat × Option Nat)) with
    | some (_, notes, threshold, target, bps, ceiling) =>
      .ok ⟨notes, threshold.map UInt64.ofNat, target, .ofNat bps, ceiling.map UInt64.ofNat⟩
    | none => .error "not a policy"
  version_encode n persisted := by simp
  policy_encode n persisted := by simp [Function.comp_def]

def emptyRound : DelegationTables where
  roundId := "round"
  bundlePolicyJson := none
  bundles := .empty
  proofs := .empty
  keystoneSignatures := []
  witnesses := []
  combinedCastRejections := some []
  chainSubmissions := some []
  votes := some []
  shareDelegations := some []

def sampleHash : List UInt8 → Bytes32 := fun _ => .replicate 32 0

def noteA : NoteInfo := sampleNote 20000000 4 1
def noteB : NoteInfo := sampleNote 13000000 7 2

/-- A round with a bundle for each of two notes. -/
def twoBundles (json : PolicyJson) (blake2b : List UInt8 → Bytes32) (a b : NoteInfo) :
    DelegationTables :=
  setRoundBundlePolicy json { emptyRound with
    bundles := (KeyedMap.empty.set 0 (plannedRow blake2b [a])).set 1 (plannedRow blake2b [b]) }
    oneNoteEach

def twoStored : DelegationTables := twoBundles unaryJson sampleHash noteA noteB

/-- The second bundle is deleted; the notes come back in the other order and under another
policy. -/
theorem stored_bundles_stay_planned_two : ∃ layout pruned again,
    committed emptyRound (ensureBundlesWithPolicy unaryJson sampleHash emptyRound [noteA, noteB]
      oneNoteEach) = (.ok layout, twoStored) ∧ layout.bundleCount = 2 ∧
    twoStored.deleteBundlesFrom 1 = .ok (1, pruned) ∧
    ensureBundlesWithSkippedSuffixWithPolicy unaryJson sampleHash pruned [noteB, noteA] .default =
      (.ok again, pruned) ∧ again.bundleCount = 1 := by
  have hb : (chunkNotesWithPolicy (distinctNotesByNullifier [noteA, noteB])
      (effectiveBundlePolicy unaryJson emptyRound oneNoteEach)).bundles = [[noteA], [noteB]] := by
    decide +kernel
  have hplan : canonicalNoteBundlePlanForNotes [noteA, noteB]
      (effectiveBundlePolicy unaryJson emptyRound oneNoteEach) = _ := plan_of_valid (by decide)
  have hfirst : committed emptyRound (ensureBundlesWithPolicy unaryJson sampleHash emptyRound
      [noteA, noteB] oneNoteEach) = (_, twoStored) :=
    congrArg (committed emptyRound) (ensure_of_inserted rfl hplan
      (by rw [hb]; rfl) (by rw [hb]; decide))
  have hpruned : ∃ pruned, twoStored.deleteBundlesFrom 1 = .ok (1, pruned) ∧
      pruned.bundles.entries.length = 1 := ⟨_, rfl, rfl⟩
  obtain ⟨pruned, hdelete, hlength⟩ := hpruned
  have hleft : pruned.bundles.entries ≠ [] := ne_nil_of_length_eq_add_one hlength
  obtain ⟨_, _, k, -, hst, hstays⟩ := stored_bundles_stay_planned rfl (.inl hfirst)
    (by rw [hb]; decide) (by decide) (by decide) (by decide) (.single (.prune 1 1 hdelete hleft))
  obtain ⟨again, hagain, hcount, -⟩ := hstays.skipped [noteB, noteA] .default
    fun note => by rw [mem_pair, mem_pair, or_comm]
  exact ⟨_, pruned, again, hfirst, by rw [hb]; rfl, hdelete, hagain,
    hcount.trans (hst.length.symm.trans hlength)⟩

/-! ### Notes of one position -/

/-- Rows with identities accept only notes of those identities. -/
theorem requireBundleNotes_identities {stored : List NoteInfo}
    (hrow : (t.bundles.get? b).map noteColumns = some (noteColumns (plannedRow blake2b stored)))
    (h : requireBundleNotes blake2b t b notes = .ok ()) :
    stored.map (fun note => (noteIdentityHash blake2b note).toList) =
      notes.map fun note => (noteIdentityHash blake2b note).toList := by
  obtain ⟨_, hget, hco⟩ := Option.map_eq_some_iff.mp hrow
  obtain ⟨hpo, hha⟩ := Prod.mk.inj hco
  unfold requireBundleNotes at h
  rw [hget] at h
  simp only [hpo, hha, plannedRow] at h
  obtain ⟨_, -, h⟩ := bind_ok h
  split at h
  · cases h
  unfold requireNoteIdentities at h
  split at h
  · cases h
  simp only [chunks_noteIdentityHashesBlob] at h
  split at h
  · cases h
  next hle =>
    rw [forM_ok] at h
    refine ext_getElem (by simpa using hle) fun i hi hi' => ?_
    rw [length_map] at hi hi'
    have hmem : (((noteIdentityHash blake2b stored[i]).toList, notes[i]), i) ∈
        ((stored.map fun note => (noteIdentityHash blake2b note).toList).zip notes).zipIdx := by
      rw [mem_zipIdx_iff_getElem?, List.getElem?_zip_eq_some]
      simp [hi]
    have hch := h _ hmem
    by_contra hne
    simp only [getElem_map] at hne
    simp [hne] at hch

/-- Two notes of one value and one position. -/
def twinA : NoteInfo := sampleNote 20000000 4 1
def twinB : NoteInfo := sampleNote 20000000 4 2

/-- Notes that share value and position are planned in the order they are given, so the
other order is refused. -/
theorem reordered_twins_refused : twinA.position = twinB.position ∧
    ∀ (json : PolicyJson) (blake2b : List UInt8 → Bytes32),
    noteIdentityHash blake2b twinA ≠ noteIdentityHash blake2b twinB → ∃ layout first,
      committed emptyRound (ensureBundlesWithPolicy json blake2b emptyRound [twinA, twinB] oneNoteEach) =
        (.ok layout, first) ∧ layout.bundleCount = 2 ∧
      ∃ e, ensureBundlesWithPolicy json blake2b first [twinB, twinA] oneNoteEach = .error e := by
  refine ⟨rfl, fun json blake2b hha => ?_⟩
  have hef : effectiveBundlePolicy json emptyRound oneNoteEach = oneNoteEach := rfl
  have hp : canonicalNoteBundlePlanForNotes [twinA,
    twinB] (effectiveBundlePolicy json emptyRound oneNoteEach) =
        .ok (chunkNotesWithPolicy (distinctNotesByNullifier [twinA, twinB]) oneNoteEach) :=
    plan_of_valid (by decide)
  have hb : (chunkNotesWithPolicy (distinctNotesByNullifier [twinA, twinB]) oneNoteEach).bundles =
      [[twinA], [twinB]] := by
    decide +kernel
  have hbu' : (chunkNotesWithPolicy (distinctNotesByNullifier [twinB, twinA]) oneNoteEach).bundles =
      [[twinB], [twinA]] := by
    decide +kernel
  have hf : ensureBundlesWithPolicy json blake2b emptyRound [twinA, twinB] oneNoteEach =
      .ok (_, twoBundles json blake2b twinA twinB) :=
    ensure_of_inserted rfl hp (by rw [hb]; rfl) (by rw [hb]; decide)
  refine ⟨_, _, congrArg (committed emptyRound) hf, by rw [hb]; rfl, ?_⟩
  obtain ⟨_, hpl', hs, -, -⟩ := stored_of_first rfl hf (by rw [hb]; decide)
  cases hp.symm.trans hpl'
  cases hc : ensureBundlesWithPolicy json blake2b (twoBundles json blake2b twinA twinB)
    [twinB, twinA] oneNoteEach with
  | error e => exact ⟨e, rfl⟩
  | ok =>
    exfalso
    obtain ⟨_, ha, hc⟩ := bind_ok hc
    rw [hs.effective, hef] at ha
    obtain ⟨-, rfl⟩ := plan_eq_of_ok ha
    have hco := hs.count
    simp only [hco] at hc
    rw [if_neg (by decide), hbu', if_neg (by decide)] at hc
    obtain ⟨_, hv, -⟩ := bind_ok hc
    rw [validatePersistedBundleNotes, forM_ok] at hv
    have hze := hv ([twinB], 0) (by simp)
    have hrow := hs.rows 0
    rw [hb] at hrow
    have hsa := requireBundleNotes_identities hrow hze
    rw [map_singleton, map_singleton, singleton_inj] at hsa
    exact hha (Vector.toList_inj.mp hsa)

end ZcashVoting.NoteBundling
