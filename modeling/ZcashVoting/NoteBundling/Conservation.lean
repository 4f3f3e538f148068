import ZcashVoting.NoteBundling.Planner

/-!
# What a plan accounts for

Every distinct note ends in a bundle, in the drop below one ballot or in the privacy
drop. The packing keeps the notes in order, so the bundles hold each note once, and every
later step is a permutation or a split of the bundles. The running totals are those of
the notes as long as the values fit.
-/
namespace ZcashVoting.NoteBundling

open Packing List PackedBundle

variable {policy : BundlePolicy} {notes : List NoteInfo} {bundle : PackedBundle}
  {bundles bundles' : List PackedBundle} {st : Trimming} {note : NoteInfo}

/-- The value of notes, without a bound. -/
def noteSum (notes : List NoteInfo) : Nat := (notes.map fun note => note.value.toNat).sum

@[simp] theorem noteSum_nil : noteSum [] = 0 := rfl

@[simp] theorem noteSum_append (notes notes' : List NoteInfo) :
    noteSum (notes ++ notes') = noteSum notes + noteSum notes' := by
  simp [noteSum]

theorem noteSum_perm {notes' : List NoteInfo} (h : notes.Perm notes') :
    noteSum notes = noteSum notes' :=
  (h.map _).sum_nat

def notesOf (bundles : List PackedBundle) : List NoteInfo := bundles.flatMap PackedBundle.notes

/-- The notes in the bundles are counted bundle by bundle. -/
def noteCount (bundles : List PackedBundle) : Nat :=
    (bundles.map fun bundle => bundle.notes.length).sum

def weightSum (bundles : List PackedBundle) : Nat :=
    (bundles.map fun bundle => bundle.weight.toNat).sum

@[simp] theorem notesOf_append (bundles bundles' : List PackedBundle) :
    notesOf (bundles ++ bundles') = notesOf bundles ++ notesOf bundles' :=
  flatMap_append

theorem noteCount_perm (h : bundles.Perm bundles') : noteCount bundles = noteCount bundles' :=
  (h.map fun bundle : PackedBundle => bundle.notes.length).sum_nat

theorem weightSum_perm (h : bundles.Perm bundles') : weightSum bundles = weightSum bundles' :=
  (h.map fun bundle : PackedBundle => bundle.weight.toNat).sum_nat

theorem length_notesOf : (notesOf bundles).length = noteCount bundles := by
  simp [notesOf, noteCount]

theorem noteSum_notesOf :
    noteSum (notesOf bundles) = (bundles.map fun bundle => noteSum bundle.notes).sum := by
  induction bundles with
  | nil => rfl
  | cons _ _ ih =>
    rw [map_cons, sum_cons, ← ih]
    exact noteSum_append _ _

theorem noteSum_le_of_mem (h : bundle ∈ bundles) :
    noteSum bundle.notes ≤ noteSum (notesOf bundles) := by
  obtain ⟨_, _, rfl⟩ := append_of_mem h
  simp [notesOf]
  omega

/-! ### Packing -/

/-- What holds of every bundle that packing makes. -/
structure Packed (policy : BundlePolicy) (bundle : PackedBundle) : Prop where
  nonempty : 1 ≤ bundle.notes.length
  limited : bundle.notes.length ≤ policy.maxRealNotesPerBundle
  total : bundle.total.toNat = noteSum bundle.notes % 2 ^ 64
  /-- Notes were added only within the threshold, which no sum below it wraps. -/
  threshold : 2 ≤ bundle.notes.length → ∀ limit ∈ policy.bundleAdditionThreshold,
    noteSum bundle.notes ≤ limit.toNat

theorem Packed.total_eq (h : Packed policy bundle) (hfi : noteSum bundle.notes < 2 ^ 64) :
    bundle.total.toNat = noteSum bundle.notes := by
  rw [h.total, Nat.mod_eq_of_lt hfi]

theorem noteSum_push (note : NoteInfo) :
    noteSum (bundle.push note).notes = noteSum bundle.notes + note.value.toNat := by
  simp [push, noteSum]

theorem total_push (h : bundle.total.toNat = noteSum bundle.notes % 2 ^ 64) :
    (bundle.push note).total.toNat = noteSum (bundle.push note).notes % 2 ^ 64 := by
  rw [noteSum_push, push, UInt64.toNat_add, h, Nat.mod_add_mod]

theorem packed_single (policy : BundlePolicy) (note : NoteInfo) :
    Packed policy (empty.push note) := by
  refine ⟨by simp [push], ?_, total_push rfl, ?_⟩
  · simpa [push, empty] using policy.capacity.1
  · intro htwo
    simp [push, empty] at htwo

/-- An addition that is not refused stays within the threshold. -/
theorem le_of_not_exceeds {current value : UInt64} {threshold : Option UInt64} {limit : UInt64}
    (h : bundleAdditionWouldExceedThreshold current value threshold = false)
    (hli : limit ∈ threshold) : current.toNat + value.toNat ≤ limit.toNat := by
  rw [Option.mem_def.mp hli] at h
  simp only [bundleAdditionWouldExceedThreshold, checkedAdd] at h
  split at h
  next hfi =>
    rw [Option.all_some, decide_eq_false_iff_not, UInt64.not_lt, UInt64.le_iff_toNat_le,
      UInt64.toNat_add, Nat.mod_eq_of_lt hfi] at h
    exact h
  · cases h

theorem Packed.push (h : Packed policy bundle)
    (hr : needsNewBundle policy bundle note = false) : Packed policy (bundle.push note) := by
  have hno : bundle.notes.isEmpty = false := by
    have := h.nonempty
    cases hli : bundle.notes <;> simp_all
  unfold needsNewBundle at hr
  split at hr
  · cases hr
  next hco =>
    rw [hno, if_neg (by simp)] at hr
    refine ⟨by simp [PackedBundle.push], ?_, total_push h.total, ?_⟩
    · simp only [PackedBundle.push, length_append, length_singleton]
      omega
    intro _ limit hl
    -- the total before the addition has not wrapped: one note, or within the threshold
    have hfi : noteSum bundle.notes < 2 ^ 64 := by
      by_cases htwo : 2 ≤ bundle.notes.length
      · exact (h.threshold htwo limit hl).trans_lt limit.toNat_lt
      obtain ⟨only, hon⟩ := length_eq_one_iff.mp
        (show bundle.notes.length = 1 by have := h.nonempty; omega)
      rw [hon]
      simpa [noteSum] using only.value.toNat_lt
    rw [noteSum_push, ← h.total_eq hfi]
    exact le_of_not_exceeds hr hl

theorem packed_of_mem (h : bundle ∈ packNotes policy notes) : Packed policy bundle :=
  pack_forall (fun note _ => packed_single policy note) (fun _ _ _ hpa hro => hpa.push hro) bundle h

theorem notesOf_packNotes : (notesOf (packNotes policy notes)).Perm notes := by
  have hco : notesOf (packNotes policy notes) = notes.insertionSort NoteInfo.before :=
    flatMap_pack rfl (fun _ _ => rfl) _
  rw [hco]
  exact perm_insertionSort _ _

/-! ### Dropping below one ballot -/

/-- The bundle is worth at least one ballot. -/
def hasBallot (bundle : PackedBundle) : Bool := ballotDivisor ≤ bundle.total

theorem foldl_visit (st : Survivors) (bundles : List PackedBundle) :
    (bundles.foldl Survivors.visit st).surviving = st.surviving ++ bundles.filter hasBallot ∧
      (bundles.foldl Survivors.visit st).eligibleWeight.toNat =
        (st.eligibleWeight.toNat + weightSum (bundles.filter hasBallot)) % 2 ^ 64 ∧
      (bundles.foldl Survivors.visit st).survivingNotes = st.survivingNotes +
        noteCount (bundles.filter hasBallot) := by
  induction bundles generalizing st with
  | nil => simp [weightSum, noteCount]
  | cons bundle rest ih =>
    obtain ⟨hsu, hwe, hno⟩ := ih (st.visit bundle)
    rw [foldl_cons, hsu, hwe, hno]
    by_cases hb : ballotDivisor ≤ bundle.total
    · have hke : (bundle :: rest).filter hasBallot = bundle :: rest.filter hasBallot := by
        simp [hasBallot, hb]
      rw [hke, Survivors.visit, if_pos hb]
      refine ⟨by simp, ?_, ?_⟩
      · rw [UInt64.toNat_add, Nat.mod_add_mod, weightSum, weightSum, map_cons, sum_cons,
          Nat.add_assoc]
      · simp [noteCount, Nat.add_assoc]
    · have hdr : (bundle :: rest).filter hasBallot = rest.filter hasBallot := by
        simp [hasBallot, hb]
      rw [hdr, Survivors.visit, if_neg hb]
      exact ⟨rfl, rfl, rfl⟩

theorem survivors_surviving : (survivors bundles).surviving = bundles.filter hasBallot := by
  rw [survivors, (foldl_visit ⟨[], 0, 0⟩ bundles).1, nil_append]

theorem survivors_notes :
    (survivors bundles).survivingNotes = noteCount (bundles.filter hasBallot) := by
  rw [survivors, (foldl_visit ⟨[], 0, 0⟩ bundles).2.2, Nat.zero_add]

theorem survivors_weight (hfi : weightSum (bundles.filter hasBallot) < 2 ^ 64) :
    (survivors bundles).eligibleWeight.toNat = weightSum (bundles.filter hasBallot) := by
  have h := (foldl_visit ⟨[], 0, 0⟩ bundles).2.1
  rw [survivors, h]
  simpa using hfi

theorem weight_toNat :
    bundle.weight.toNat = bundle.total.toNat / ballotDivisor.toNat * ballotDivisor.toNat := by
  have hle := Nat.div_mul_le_self bundle.total.toNat ballotDivisor.toNat
  rw [weight, UInt64.toNat_mul, UInt64.toNat_div, Nat.mod_eq_of_lt (hle.trans_lt bundle.total.toNat_lt)]

theorem weight_le_total : bundle.weight.toNat ≤ bundle.total.toNat := by
  rw [weight_toNat]
  exact Nat.div_mul_le_self _ _

theorem weightSum_le (h : ∀ bundle ∈ bundles, Packed policy bundle) :
    weightSum bundles ≤ noteSum (notesOf bundles) := by
  induction bundles with
  | nil => rfl
  | cons bundle _ ih =>
    have hhe : bundle.weight.toNat ≤ noteSum bundle.notes := by
      refine weight_le_total.trans ?_
      rw [(h bundle (.head _)).total]
      exact Nat.mod_le _ _
    have hta := ih fun other hot => h other (.tail _ hot)
    simp only [weightSum, notesOf, map_cons, sum_cons, flatMap_cons, noteSum_append] at hta ⊢
    omega

/-! ### Ordering -/

theorem sortNotes_perm (bundle : PackedBundle) : bundle.sortNotes.notes.Perm bundle.notes :=
  perm_insertionSort _ _

theorem Packed.sortNotes (h : Packed policy bundle) : Packed policy bundle.sortNotes := by
  have hp := sortNotes_perm bundle
  refine ⟨?_, ?_, ?_, ?_⟩
  · rw [hp.length_eq]; exact h.nonempty
  · rw [hp.length_eq]; exact h.limited
  · rw [noteSum_perm hp]; exact h.total
  · rw [hp.length_eq, noteSum_perm hp]; exact h.threshold

theorem orderBundles_perm (bundles : List PackedBundle) :
    (orderBundles bundles).Perm (bundles.map sortNotes) :=
  perm_insertionSort _ _

theorem notesOf_perm (h : bundles.Perm bundles') : (notesOf bundles).Perm (notesOf bundles') :=
  h.flatMap_right _

theorem notesOf_orderBundles (bundles : List PackedBundle) :
    (notesOf (orderBundles bundles)).Perm (notesOf bundles) := by
  refine (notesOf_perm (orderBundles_perm bundles)).trans ?_
  induction bundles with
  | nil => exact .nil
  | cons bundle _ ih => exact (sortNotes_perm bundle).append ih

theorem weightSum_orderBundles (bundles : List PackedBundle) :
    weightSum (orderBundles bundles) = weightSum bundles := by
  rw [weightSum_perm (orderBundles_perm bundles), weightSum, map_map]
  rfl

theorem mem_orderBundles (h : bundle ∈ orderBundles bundles) :
    ∃ before ∈ bundles, bundle = before.sortNotes := by
  obtain ⟨before, hbe, rfl⟩ := mem_map.mp ((orderBundles_perm bundles).mem_iff.mp h)
  exact ⟨before, hbe, rfl⟩

theorem orderBundles_sorted (bundles : List PackedBundle) :
    (orderBundles bundles).Pairwise fun a b : PackedBundle => b.total.toNat ≤ a.total.toNat := by
  have hb (a b : PackedBundle) : a.before b ↔ b.total.toNat < a.total.toNat ∨
      a.total.toNat = b.total.toNat ∧ a.firstPosition.toNat ≤ b.firstPosition.toNat := by
    simp only [before, UInt64.lt_iff_toNat_lt, UInt64.le_iff_toNat_le, ← UInt64.toNat_inj]
  have : Std.Total before := ⟨fun a b => by rw [hb, hb]; omega⟩
  have : IsTrans PackedBundle before :=
    ⟨fun a b c hab hbc => by rw [hb] at hab hbc ⊢; omega⟩
  refine (pairwise_insertionSort before _).imp fun hab => ?_
  rw [hb] at hab
  omega

/-! ### Trimming -/

/-- What the trim loop did to the bundles from the last to the first: it dropped some at
the end, counted them, and stopped at the target or at the budget. -/
structure Trimmed (target budget : Nat) (before : List PackedBundle) (st : Trimming)
    (kept : List PackedBundle) (st' : Trimming) (dropped : List PackedBundle) : Prop where
  split : before = dropped ++ kept
  value : st'.droppedValue = (st.droppedValue + (dropped.map fun bundle => bundle.total.toNat).sum) % 2 ^ 128
  notes : st'.droppedNotes.toNat = (st.droppedNotes.toNat + noteCount dropped) % 2 ^ 32
  weight : st.eligibleWeight.toNat = weightSum before → st'.eligibleWeight.toNat = weightSum kept
  spent : st.droppedValue ≤ budget → st'.droppedValue ≤ budget
  enough : dropped = [] ∨ target ≤ kept.length
  stopped : ∀ last earlier, kept = last :: earlier →
    kept.length ≤ target ∨ budget < (st'.droppedValue + last.total.toNat) % 2 ^ 128

theorem drop_weight {rest : List PackedBundle}
    (h : st.eligibleWeight.toNat = weightSum (bundle :: rest)) :
    (st.drop bundle).eligibleWeight.toNat = weightSum rest := by
  have hsum : weightSum (bundle :: rest) = bundle.weight.toNat + weightSum rest := by
    simp [weightSum]
  have hle : bundle.weight ≤ st.eligibleWeight := by
    rw [UInt64.le_iff_toNat_le, h, hsum]
    omega
  rw [Trimming.drop, UInt64.toNat_sub_of_le _ _ hle, h, hsum]
  omega

theorem Trimmed.stop {target budget : Nat} {before : List PackedBundle}
    (hva : st.droppedValue < 2 ^ 128) (hst : ∀ last earlier, before = last :: earlier →
      before.length ≤ target ∨ budget < (st.droppedValue + last.total.toNat) % 2 ^ 128) :
    Trimmed target budget before st before st [] := by
  refine ⟨rfl, ?_, ?_, fun h => h, fun h => h, .inl rfl, hst⟩
  · simpa using (Nat.mod_eq_of_lt hva).symm
  · simp [noteCount]

theorem Trimmed.cons {target budget : Nat} {last : PackedBundle}
    {earlier kept dropped : List PackedBundle}
    {st' : Trimming} (h : Trimmed target budget earlier (st.drop last) kept st' dropped)
    (ht : target < (last :: earlier).length) (hbu : (st.drop last).droppedValue ≤ budget) :
    Trimmed target budget (last :: earlier) st kept st' (last :: dropped) := by
  refine ⟨?_, ?_, ?_, fun hwe => h.weight (drop_weight hwe), fun _ =>
    h.spent hbu, .inr ?_, h.stopped⟩
  · rw [h.split, cons_append]
  · rw [h.value, Trimming.drop, Nat.mod_add_mod, map_cons, sum_cons, Nat.add_assoc]
  · rw [h.notes, Trimming.drop, UInt32.toNat_add, UInt32.toNat_ofNat', Nat.add_mod_mod,
      Nat.mod_add_mod, noteCount, noteCount, map_cons, sum_cons, Nat.add_assoc]
  · rcases h.enough with rfl | hle
    · rw [h.split] at ht
      exact Nat.le_of_lt_succ ht
    · exact hle

theorem trimLoop_trimmed (target budget : Nat) (before : List PackedBundle) (st : Trimming)
    (hv : st.droppedValue < 2 ^ 128) :
    ∃ dropped, Trimmed target budget before st (trimLoop target budget before st).1
      (trimLoop target budget before st).2 dropped := by
  induction before generalizing st with
  | nil => exact ⟨[], .stop hv (by simp)⟩
  | cons last earlier ih =>
    by_cases ht : target < (last :: earlier).length
    · by_cases hb : budget < (st.droppedValue + last.total.toNat) % 2 ^ 128
      · rw [trimLoop, if_pos ht, if_pos hb]
        refine ⟨[], .stop hv ?_⟩
        rintro _ _ heq
        cases heq
        exact .inr hb
      · rw [trimLoop, if_pos ht, if_neg hb]
        obtain ⟨dropped, h⟩ := ih (st.drop last) (Nat.mod_lt _ (by decide))
        exact ⟨last :: dropped, h.cons ht (Nat.not_lt.mp hb)⟩
    · rw [trimLoop, if_neg ht]
      exact ⟨[], .stop hv fun _ _ _ => .inl (Nat.not_lt.mp ht)⟩

/-- Bundles are given up within the budget, until the target is reached or the next one is
too dear. -/
structure GivenUp (policy : BundlePolicy) (totalValue : Nat)
    (kept dropped : List PackedBundle) : Prop where
  spent : (dropped.map fun bundle => bundle.total.toNat).sum % 2 ^ 128 ≤
    policy.privacyDropBudget totalValue
  enough : ∀ target ∈ policy.maxPrivacyBundles, dropped = [] ∨ max target 1 ≤ kept.length
  stopped : ∀ target ∈ policy.maxPrivacyBundles, kept.length ≤ max target 1 ∨
    ∃ front last, kept = front ++ [last] ∧ policy.privacyDropBudget totalValue <
      ((dropped.map fun bundle => bundle.total.toNat).sum % 2 ^ 128 + last.total.toNat) % 2 ^ 128

/-- What step 7 did to the ordered bundles. -/
structure PrivacyTrimmed (policy : BundlePolicy) (totalValue : Nat) (result : List PackedBundle ×
    UInt64 × PrivacyTrim) (kept dropped : List PackedBundle) : Prop where
  bundles : result.1 = kept
  notes : result.2.2.droppedNotes.toNat = noteCount dropped % 2 ^ 32
  givenUp : GivenUp policy totalValue kept dropped

theorem privacyTrim_trimmed (policy : BundlePolicy) (totalValue : Nat) (bundles : List PackedBundle)
    (weight : UInt64) : ∃ kept dropped, bundles = kept ++ dropped ∧
      PrivacyTrimmed policy totalValue (privacyTrim policy totalValue bundles weight) kept dropped ∧
      (weight.toNat = weightSum bundles →
        (privacyTrim policy totalValue bundles weight).2.1.toNat = weightSum kept) := by
  unfold privacyTrim
  cases ht : policy.maxPrivacyBundles with
  | none =>
    exact ⟨bundles, [], by simp, ⟨rfl, rfl, Nat.zero_le _, by simp, by simp [ht]⟩, fun h => h⟩
  | some target =>
    obtain ⟨dropped, h⟩ := trimLoop_trimmed (max target 1) (policy.privacyDropBudget totalValue)
      bundles.reverse ⟨0, 0, 0, weight⟩ (Nat.two_pow_pos 128)
    set loop := trimLoop (max target 1) (policy.privacyDropBudget totalValue) bundles.reverse
      ⟨0, 0, 0, weight⟩ with hlo
    have hto : (dropped.reverse.map fun bundle => bundle.total.toNat).sum =
        (dropped.map fun bundle => bundle.total.toNat).sum :=
      ((reverse_perm dropped).map fun bundle => bundle.total.toNat).sum_nat
    refine ⟨loop.1.reverse, dropped.reverse, ?_, ⟨rfl, ?_, ?_, ?_, ?_⟩, ?_⟩
    · rw [← reverse_append, ← h.split, reverse_reverse]
    · rw [noteCount_perm (reverse_perm dropped), ← Nat.zero_add (noteCount dropped)]
      exact h.notes
    · rw [hto, ← Nat.zero_add (sum _), ← h.value]
      exact h.spent (Nat.zero_le _)
    · intro target' ht'
      cases Option.mem_some.mp (ht ▸ ht')
      rw [reverse_eq_nil_iff, length_reverse]
      exact h.enough
    · intro target' ht'
      cases Option.mem_some.mp (ht ▸ ht')
      cases hk : loop.1 with
      | nil => exact .inl (by simp)
      | cons last earlier =>
        rw [length_reverse, hto]
        refine (h.stopped last earlier hk).imp (fun hlen => by rw [← hk]; exact hlen) fun hd => ?_
        refine ⟨earlier.reverse, last, reverse_cons, ?_⟩
        rw [h.value, Nat.zero_add] at hd
        exact hd
    · intro hwe
      rw [weightSum_perm (reverse_perm _)]
      exact h.weight (by rw [weightSum_perm (reverse_perm _)]; exact hwe)

/-! ### Plans -/

/-- How the plan splits the packed bundles: those it keeps, those below one ballot and
those given up for privacy. -/
structure Chunked (notes : List NoteInfo) (policy : BundlePolicy) (plan : ChunkResult)
    (kept subBallot dropped : List PackedBundle) : Prop where
  split : orderBundles (survivors (packNotes policy notes)).surviving = kept ++ dropped
  bundles : plan.bundles = kept.map PackedBundle.notes
  conserved : (notesOf kept ++ (notesOf subBallot ++ notesOf dropped)).Perm notes
  packed : ∀ bundle ∈ kept ++ dropped, Packed policy bundle ∧ hasBallot bundle = true
  light : ∀ bundle ∈ subBallot, Packed policy bundle ∧ hasBallot bundle = false
  droppedCount : plan.droppedCount = noteCount subBallot
  droppedNotes : plan.privacyTrim.droppedNotes.toNat = noteCount dropped % 2 ^ 32
  weight : noteSum notes < 2 ^ 64 → plan.eligibleWeight.toNat = weightSum kept
  givenUp : GivenUp policy (totalValue notes) kept dropped

theorem Packed.of_mem_orderBundles (hb : ∀ bundle ∈ bundles, Packed policy bundle ∧
    hasBallot bundle = true) (h : bundle ∈ orderBundles bundles) :
      Packed policy bundle ∧ hasBallot bundle = true := by
  obtain ⟨before, hbe, rfl⟩ := mem_orderBundles h
  exact ⟨(hb before hbe).1.sortNotes, (hb before hbe).2⟩

theorem chunkNotes_chunked (notes : List NoteInfo) (policy : BundlePolicy) :
    ∃ kept subBallot dropped,
      Chunked notes policy (chunkNotesWithPolicy notes policy) kept subBallot dropped := by
  by_cases he : notes.isEmpty = true
  · have hpl : chunkNotesWithPolicy notes policy = ⟨[], 0, 0, ⟨0, 0, 0⟩⟩ := by
      rw [chunkNotesWithPolicy, if_pos he]
    rw [hpl, List.isEmpty_iff.mp he]
    exact ⟨[], [], [], rfl, rfl, .nil, by simp, by simp, rfl, rfl, fun _ => rfl,
      Nat.zero_le _, by simp, by simp⟩
  · set packed := packNotes policy notes with hpa
    have hin : ∀ bundle ∈ packed, Packed policy bundle := fun bundle h => packed_of_mem h
    obtain ⟨kept, dropped, hs, ht, hwe⟩ := privacyTrim_trimmed policy (totalValue notes)
      (orderBundles (survivors packed).surviving) (survivors packed).eligibleWeight
    rw [survivors_surviving] at hs
    refine ⟨kept, packed.filter fun bundle => !hasBallot bundle, dropped, ?_, ?_, ?_, ?_, ?_, ?_,
      ?_, ?_, ht.givenUp⟩
    · rw [survivors_surviving, hs]
    · rw [chunkNotesWithPolicy, if_neg he]
      exact congrArg _ ht.bundles
    · -- the notes of the packed bundles, split by weight and then by the trim
      have hn : (notesOf (kept ++ dropped)).Perm (notesOf (packed.filter hasBallot)) := by
        rw [← hs]
        exact notesOf_orderBundles _
      have hall : (notesOf (packed.filter hasBallot) ++
          notesOf (packed.filter fun bundle => !hasBallot bundle)).Perm notes := by
        have := notesOf_perm (filter_append_perm hasBallot packed)
        rw [notesOf_append] at this
        exact this.trans notesOf_packNotes
      refine List.Perm.trans ?_ hall
      rw [notesOf_append] at hn
      refine List.Perm.trans ?_ (hn.append_right _)
      rw [append_assoc]
      exact perm_append_comm.append_left _
    · rw [← hs]
      intro bundle hb
      refine Packed.of_mem_orderBundles (fun before hbe => ?_) hb
      rw [mem_filter] at hbe
      exact ⟨hin before hbe.1, hbe.2⟩
    · intro bundle hb
      rw [mem_filter, Bool.not_eq_true'] at hb
      exact ⟨hin bundle hb.1, hb.2⟩
    · rw [chunkNotesWithPolicy, if_neg he]
      change noteCount packed - (survivors packed).survivingNotes = _
      rw [survivors_notes]
      have hsum : noteCount (packed.filter hasBallot) +
          noteCount (packed.filter fun bundle => !hasBallot bundle) = noteCount packed := by
        rw [← noteCount_perm (filter_append_perm hasBallot packed)]
        simp [noteCount]
      omega
    · rw [chunkNotesWithPolicy, if_neg he]
      exact ht.notes
    · intro hfi
      rw [chunkNotesWithPolicy, if_neg he]
      refine hwe ?_
      rw [survivors_surviving, weightSum_orderBundles]
      refine survivors_weight (lt_of_le_of_lt ?_ hfi)
      calc weightSum (packed.filter hasBallot)
          ≤ noteSum (notesOf (packed.filter hasBallot)) :=
            weightSum_le fun bundle h => hin bundle (mem_filter.mp h).1
        _ ≤ noteSum (notesOf packed) := by
            rw [noteSum_perm (notesOf_perm (filter_append_perm hasBallot packed).symm),
              notesOf_append, noteSum_append]
            exact Nat.le_add_right _ _
        _ = noteSum notes := noteSum_perm notesOf_packNotes

/-- The notes left out, below one ballot and for privacy: with the bundles they are all
the notes, each once, and the plan counts them. -/
structure Accounted (notes : List NoteInfo) (plan : ChunkResult)
    (subBallot privacyDropped : List NoteInfo) : Prop where
  conserved : (plan.bundles.flatten ++ (subBallot ++ privacyDropped)).Perm notes
  once : (plan.bundles.flatten ++ (subBallot ++ privacyDropped)).Nodup
  subBallot : plan.droppedCount = subBallot.length
  privacy : plan.privacyTrim.droppedNotes.toNat = privacyDropped.length

/-- The plan is a sound bundling of the notes. What it leaves out are the packed bundles
below one ballot and those given up for privacy within the budget. -/
structure SoundPlan (notes : List NoteInfo) (policy : BundlePolicy) (plan : ChunkResult) :
    Prop where
  accounted : ∃ kept subBallot dropped, Chunked notes policy plan kept subBallot dropped ∧
    Accounted notes plan (notesOf subBallot) (notesOf dropped)
  sized : ∀ bundle ∈ plan.bundles, 1 ≤ bundle.length ∧ bundle.length ≤ policy.maxRealNotesPerBundle
  ballot : ∀ bundle ∈ plan.bundles, ballotDivisor.toNat ≤ noteSum bundle
  threshold : ∀ bundle ∈ plan.bundles, 2 ≤ bundle.length → ∀ limit ∈ policy.bundleAdditionThreshold,
    noteSum bundle ≤ limit.toNat
  weight : plan.eligibleWeight.toNat =
    (plan.bundles.map fun bundle => noteSum bundle / ballotDivisor.toNat * ballotDivisor.toNat).sum

section

variable {plan : ChunkResult} {kept subBallot dropped : List PackedBundle}

section

variable (h : Chunked notes policy plan kept subBallot dropped)
include h

theorem Chunked.flatten : plan.bundles.flatten = notesOf kept := by
  rw [h.bundles, notesOf, List.flatMap]

theorem Chunked.count :
    noteCount kept + (noteCount subBallot + noteCount dropped) = notes.length := by
  rw [← h.conserved.length_eq, length_append, length_append, length_notesOf, length_notesOf,
    length_notesOf]

theorem Chunked.accounted (hno : notes.Nodup) (hco : notes.length < 2 ^ 32) :
    Accounted notes plan (notesOf subBallot) (notesOf dropped) := by
  have hc : (plan.bundles.flatten ++ (notesOf subBallot ++ notesOf dropped)).Perm notes := by
    rw [h.flatten]
    exact h.conserved
  refine ⟨hc, hc.nodup_iff.mpr hno, ?_, ?_⟩
  · rw [length_notesOf, h.droppedCount]
  · have hsum := h.count
    rw [length_notesOf, h.droppedNotes, Nat.mod_eq_of_lt (by omega)]

theorem Chunked.total_eq (hfi : noteSum notes < 2 ^ 64) (hb : bundle ∈ kept ++ dropped) :
    bundle.total.toNat = noteSum bundle.notes := by
  refine (h.packed bundle hb).1.total_eq (lt_of_le_of_lt ?_ hfi)
  have hle := noteSum_le_of_mem hb
  rw [notesOf_append, noteSum_append] at hle
  rw [← noteSum_perm h.conserved, noteSum_append, noteSum_append]
  omega

theorem Chunked.eligibleWeight_eq (hf : noteSum notes < 2 ^ 64) : plan.eligibleWeight.toNat =
      (plan.bundles.map fun bundle => noteSum bundle / ballotDivisor.toNat * ballotDivisor.toNat).sum := by
  rw [h.weight hf, h.bundles, map_map, weightSum]
  congr 1
  refine map_congr_left fun bundle hbu => ?_
  rw [weight_toNat, h.total_eq hf (mem_append_left _ hbu)]
  rfl

theorem Chunked.sound (hno : notes.Nodup)
    (hf : noteSum notes < 2 ^ 64) (hco : notes.length < 2 ^ 32) : SoundPlan notes policy plan := by
  have hk : ∀ notes' ∈ plan.bundles, ∃ bundle ∈ kept, bundle.notes = notes' := by
    intro notes' hn'
    rw [h.bundles] at hn'
    exact mem_map.mp hn'
  refine ⟨⟨kept, subBallot, dropped, h, h.accounted hno hco⟩, ?_, ?_, ?_, ?_⟩
  · intro notes' hn'
    obtain ⟨bundle, hb, rfl⟩ := hk notes' hn'
    have hp := (h.packed bundle (mem_append_left _ hb)).1
    exact ⟨hp.nonempty, hp.limited⟩
  · intro notes' hn'
    obtain ⟨bundle, hb, rfl⟩ := hk notes' hn'
    have hba := (h.packed bundle (mem_append_left _ hb)).2
    rw [hasBallot, decide_eq_true_eq, UInt64.le_iff_toNat_le,
      h.total_eq hf (mem_append_left _ hb)] at hba
    exact hba
  · intro notes' hn'
    obtain ⟨bundle, hb, rfl⟩ := hk notes' hn'
    exact (h.packed bundle (mem_append_left _ hb)).1.threshold
  · exact h.eligibleWeight_eq hf

end

end

/-- Valid notes have a plan that bundles every distinct note once or counts it as left out. -/
theorem plan_accounts_for_notes (hvalid : validateNotesForRound notes = .ok ())
    (hfits : noteSum (distinctNotesByNullifier notes) < 2 ^ 64)
    (hcount : (distinctNotesByNullifier notes).length < 2 ^ 32) :
    ∃ plan, canonicalNoteBundlePlanForNotes notes policy = .ok plan ∧
      SoundPlan (distinctNotesByNullifier notes) policy plan := by
  obtain ⟨_, _, _, hch⟩ := chunkNotes_chunked (distinctNotesByNullifier notes) policy
  exact ⟨_, plan_of_valid hvalid, hch.sound (nodup_distinctBy notes) hfits hcount⟩

theorem plan_accounts_for_notes_three :
    ∃ plan, canonicalNoteBundlePlanForNotes [sampleNote 13000000 7 2, sampleNote 20000000 4 1,
      sampleNote 13000000 7 2] .recoverableV1 = .ok plan ∧
      SoundPlan (distinctNotesByNullifier [sampleNote 13000000 7 2, sampleNote 20000000 4 1,
        sampleNote 13000000 7 2]) .recoverableV1 plan :=
  plan_accounts_for_notes (by decide) (by decide) (by decide)

/-! ### More notes than the counter holds -/

/-- A policy of one note a bundle that gives up to a twentieth of the value for one bundle. -/
def greedyTrim : BundlePolicy :=
  { oneNoteEach with
    privacyTrim := some ⟨1, 500, none⟩
    bounded := by
      intro trim htrim
      cases Option.mem_some.mp htrim
      decide }

/-- The 32 bytes of a number below `256 ^ 5`. -/
def tagBytes (n : Nat) : List UInt8 :=
  [.ofNat n, .ofNat (n / 256), .ofNat (n / 65536), .ofNat (n / 16777216),
    .ofNat (n / 4294967296)] ++ .replicate 27 0

/-- Note number `n`, worth one ballot. -/
def ballotNote (n : Nat) : NoteInfo :=
  ⟨.replicate 32 1, tagBytes n, ballotDivisor, .ofNat n, [], [], [], 0, ""⟩

def manyNotes : List NoteInfo := (List.range (20 * 2 ^ 32)).map ballotNote

theorem tagBytes_injective {m n : Nat} (hm : m < 256 ^ 5) (hn : n < 256 ^ 5)
    (h : tagBytes m = tagBytes n) : m = n := by
  simp only [tagBytes, cons_append, List.cons.injEq, ← UInt8.toNat_inj, UInt8.toNat_ofNat'] at h
  omega

theorem distinct_manyNotes : distinctNotesByNullifier manyNotes = manyNotes := by
  have hke : (manyNotes.map NoteInfo.nullifier).Nodup := by
    rw [manyNotes, map_map]
    refine List.Nodup.map_on ?_ nodup_range
    intro m hm n hn h
    rw [mem_range] at hm hn
    exact tagBytes_injective (by omega) (by omega) h
  exact distinctBy_eq_self hke

theorem noteSum_manyNotes : noteSum manyNotes = 20 * 2 ^ 32 * 12500000 := by
  have hva : (fun note : NoteInfo => note.value.toNat) ∘ ballotNote = fun _ => 12500000 := rfl
  rw [noteSum, manyNotes, map_map, hva, map_const', sum_replicate_nat, length_range]

theorem valid_manyNotes : validateNotesForRound manyNotes = .ok () := by
  rw [validateNotesForRound_iff]
  constructor
  · simp [manyNotes]
  · intro note hno
    obtain ⟨_, -, rfl⟩ := mem_map.mp hno
    exact ⟨rfl, rfl⟩

section

variable {plan : ChunkResult} {kept subBallot dropped : List PackedBundle}

/-- Bundles of one note each, every note worth one ballot. -/
theorem total_of_single (hp : Packed greedyTrim bundle)
    (hno : ∀ note ∈ bundle.notes, note ∈ manyNotes) :
    bundle.notes.length = 1 ∧ bundle.total = ballotDivisor := by
  have hone : bundle.notes.length = 1 := le_antisymm hp.limited hp.nonempty
  obtain ⟨note, hn⟩ := length_eq_one_iff.mp hone
  obtain ⟨_, -, rfl⟩ := mem_map.mp (hno note (by simp [hn]))
  refine ⟨hone, ?_⟩
  rw [← UInt64.toNat_inj, hp.total, hn]
  rfl

theorem Chunked.mem_notes (h : Chunked notes policy plan kept subBallot dropped)
    (hbu : bundle ∈ kept ++ (subBallot ++ dropped)) : ∀ note ∈ bundle.notes, note ∈ notes := by
  intro note hno
  rw [← h.conserved.mem_iff, ← notesOf_append, ← notesOf_append]
  exact mem_flatMap.mpr ⟨bundle, hbu, hno⟩

theorem noteCount_of_single (h : ∀ bundle ∈ bundles, bundle.notes.length = 1) :
    noteCount bundles = bundles.length := by
  rw [noteCount, map_congr_left h, map_const', sum_replicate_nat, Nat.mul_one]

/-- At least `2 ^ 32` bundles are given up: the budget pays for that many. -/
theorem Chunked.many_dropped (h : Chunked manyNotes greedyTrim plan kept subBallot dropped) :
    subBallot = [] ∧ 2 ^ 32 ≤ noteCount dropped := by
  have hk : ∀ bundle ∈ kept, bundle.notes.length = 1 ∧ bundle.total = ballotDivisor :=
    fun bundle hbu => total_of_single (h.packed bundle (mem_append_left _ hbu)).1
      (h.mem_notes (mem_append_left _ hbu))
  have hd : ∀ bundle ∈ dropped, bundle.notes.length = 1 ∧ bundle.total = ballotDivisor :=
    fun bundle hbu => total_of_single (h.packed bundle (mem_append_right _ hbu)).1
      (h.mem_notes (by simp [hbu]))
  have hsub : subBallot = [] := by
    rw [eq_nil_iff_forall_not_mem]
    intro bundle hbu
    have ht := (total_of_single (h.light bundle hbu).1 (h.mem_notes (by simp [hbu]))).2
    have hl := (h.light bundle hbu).2
    rw [hasBallot, ht] at hl
    exact absurd hl (by decide)
  have hco := h.count
  have hle : manyNotes.length = 20 * 2 ^ 32 := by
    rw [manyNotes, length_map, length_range]
  rw [hsub, hle, noteCount_of_single fun bundle hb => (hk bundle hb).1,
    noteCount_of_single fun bundle hb => (hd bundle hb).1] at hco
  refine ⟨hsub, ?_⟩
  rw [noteCount_of_single fun bundle hb => (hd bundle hb).1]
  have hze : noteCount [] = 0 := rfl
  rcases h.givenUp.stopped 1 rfl with hfew | ⟨_, last, rfl, hde⟩
  · have : kept.length ≤ 1 := hfew
    omega
  have hva : (dropped.map fun bundle => bundle.total.toNat).sum = dropped.length * 12500000 := by
    rw [map_congr_left fun bundle hb => by rw [(hd bundle hb).2], map_const', sum_replicate_nat]
    rfl
  have hbud : greedyTrim.privacyDropBudget (totalValue manyNotes) = 2 ^ 32 * 12500000 := by
    have ht : totalValue manyNotes = 20 * 2 ^ 32 * 12500000 := by
      have hmod : totalValue manyNotes = noteSum manyNotes % 2 ^ 128 := by
        rw [totalValue, noteSum]
      rw [hmod, noteSum_manyNotes, Nat.mod_eq_of_lt (by decide)]
    rw [ht]
    decide
  rw [hbud, hva, (hk last (by simp)).2, show ballotDivisor.toNat = 12500000 from rfl] at hde
  by_contra hfew
  have hs : dropped.length * 12500000 + 12500000 < 2 ^ 128 := by
    clear hde
    omega
  rw [Nat.mod_eq_of_lt ((Nat.le_add_right _ _).trans_lt hs), Nat.mod_eq_of_lt hs] at hde
  omega

/-- With more notes than the counter of the privacy drop can hold, the plan counts too few. -/
theorem privacy_count_wraps : ∃ notes policy plan,
    noteSum (distinctNotesByNullifier notes) < 2 ^ 64 ∧
      canonicalNoteBundlePlanForNotes notes policy = .ok plan ∧ ∀ subBallot privacyDropped,
        ¬Accounted (distinctNotesByNullifier notes) plan subBallot privacyDropped := by
  refine ⟨manyNotes, greedyTrim, _, ?_, plan_of_valid valid_manyNotes, ?_⟩
  · rw [distinct_manyNotes, noteSum_manyNotes]
    decide
  rw [distinct_manyNotes]
  intro subBallot privacyDropped ha
  obtain ⟨_, _, _, h⟩ := chunkNotes_chunked manyNotes greedyTrim
  obtain ⟨hl, _⟩ := h.many_dropped
  have hle := ha.conserved.length_eq
  have hsub := ha.subBallot
  have hpr := ha.privacy
  rw [h.droppedCount, hl] at hsub
  rw [length_append, length_append, h.flatten, length_notesOf, ← hsub, ← hpr, ← h.count, hl] at hle
  have hlt := (chunkNotesWithPolicy manyNotes greedyTrim).privacyTrim.droppedNotes.toNat_lt
  omega

end

/-! ### The cheapest trim -/

/-- The bundles given up are worth no more than the budget and leave the target. No choice of
the bundles that does the same is larger, and none of the same size is cheaper. -/
theorem trim_is_cheapest {target : Nat} (hfits : noteSum notes < 2 ^ 64)
    (htarget : policy.maxPrivacyBundles = some target) : ∃ kept dropped,
      orderBundles (survivors (packNotes policy notes)).surviving = kept ++ dropped ∧
      (chunkNotesWithPolicy notes policy).bundles = kept.map PackedBundle.notes ∧
      noteSum (notesOf dropped) ≤ policy.privacyDropBudget (totalValue notes) ∧
      (dropped = [] ∨ max target 1 ≤ kept.length) ∧ ∀ removed : List PackedBundle,
        removed.Sublist (kept ++ dropped) →
        noteSum (notesOf removed) ≤ policy.privacyDropBudget (totalValue notes) →
        max target 1 + removed.length ≤ (kept ++ dropped).length → removed.length ≤ dropped.length ∧
          (removed.length = dropped.length → noteSum (notesOf dropped) ≤ noteSum (notesOf removed)) := by
  obtain ⟨kept, _, dropped, h⟩ := chunkNotes_chunked notes policy
  -- sums of totals are sums of notes, and the counter of the loop holds them
  have hsum {chosen : List PackedBundle} (hch : chosen.Sublist (kept ++ dropped)) :
      (chosen.map fun bundle => bundle.total.toNat).sum = noteSum (notesOf chosen) := by
    rw [map_congr_left fun bundle hmem => h.total_eq hfits (hch.subset hmem), noteSum_notesOf]
  have hle : noteSum (notesOf kept) + noteSum (notesOf dropped) ≤ noteSum notes := by
    rw [← noteSum_perm h.conserved, noteSum_append, noteSum_append]
    omega
  have hd := hsum (sublist_append_right kept dropped)
  have hs := h.split ▸ orderBundles_sorted (survivors (packNotes policy notes)).surviving
  obtain ⟨hsp, hen, hst⟩ := h.givenUp
  rw [hd, Nat.mod_eq_of_lt (by omega)] at hsp
  refine ⟨kept, dropped, h.split, h.bundles, hsp, hen target htarget, fun removed hr hbu hlef => ?_⟩
  refine ⟨?_, fun hlen => ?_⟩
  · by_contra hmo
    rcases hst target htarget with hfew | ⟨front, last, rfl, hde⟩
    · rw [length_append] at hlef
      omega
    · -- the bundle that stopped the loop belongs to the end of the list that is as long
      have hl := sum_suffix_le hr hs (append_assoc front [last] dropped) (by simp; omega)
      have hla := last.total.toNat_lt
      rw [hd, Nat.mod_eq_of_lt (by omega), Nat.mod_eq_of_lt (by omega)] at hde
      rw [hsum hr, map_append, sum_append, hd] at hl
      simp only [map_cons, map_nil, sum_cons, sum_nil] at hl
      omega
  · rw [← hd, ← hsum hr]
    exact sum_suffix_le hr hs rfl hlen.ge

theorem trim_is_cheapest_two : ∃ kept dropped : List PackedBundle,
    (chunkNotesWithPolicy [sampleNote 400000000 4 1, sampleNote 13000000 7 2] greedyTrim).bundles =
      kept.map PackedBundle.notes ∧ (dropped = [] ∨ 1 ≤ kept.length) := by
  have hfi : noteSum [sampleNote 400000000 4 1, sampleNote 13000000 7 2] < 2 ^ 64 := by decide
  obtain ⟨kept, dropped, -, hbu, -, hen, -⟩ :=
    trim_is_cheapest hfi (show greedyTrim.maxPrivacyBundles = some 1 from rfl)
  exact ⟨kept, dropped, hbu, hen⟩

/-- The total of a bundle wraps, and the bundle is given up for less than it is worth. -/
theorem wrapped_bundle_given_up : ∃ notes policy kept dropped,
    orderBundles (survivors (packNotes policy notes)).surviving = kept ++ dropped ∧
      (chunkNotesWithPolicy notes policy).bundles = kept.map PackedBundle.notes ∧
      policy.privacyDropBudget (totalValue notes) < noteSum (notesOf dropped) := by
  let notes :=
    [sampleNote (2 ^ 63 + 12500000) 1 1, sampleNote (2 ^ 63) 2 2, sampleNote (2 ^ 62) 3 3]
  let policy : BundlePolicy := { greedyTrim with maxRealNotesPerBundle := 2, capacity := by decide }
  let eligible := orderBundles (survivors (packNotes policy notes)).surviving
  exact ⟨notes, policy, eligible.take 1, eligible.drop 1,
    (take_append_drop 1 _).symm, by decide +kernel, by decide +kernel⟩

end ZcashVoting.NoteBundling
