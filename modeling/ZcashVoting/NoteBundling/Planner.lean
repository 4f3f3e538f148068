import ZcashVoting.Lib.KeyedMap
import ZcashVoting.Lib.Packing
import ZcashVoting.NoteBundling.Policy

/-!
# The bundle planner

The canonical plan of a set of notes, version 1: notes of one nullifier are taken once,
sorted by value, packed in sequence, and the bundles below one ballot are dropped. The
bundles that are left are sorted by value, and the cheapest are given up while the policy
allows it. Values and totals are `u64`, counters `u32`, and the value given up is a
`u128`, all of which wrap.
-/
namespace ZcashVoting.NoteBundling

open Packing List

structure NoteInfo where
  (commitment nullifier : List UInt8)
  (value position : UInt64)
  (diversifier rho rseed : List UInt8)
  scope : UInt32
  ufvkStr : String
  deriving DecidableEq

/-! ### Validation and duplicates -/

def validate32Bytes (bytes : List UInt8) (name : String) : Except VotingError Unit :=
  if bytes.length ≠ 32 then
    .error (.invalidInput s!"{name} must be 32 bytes, got {bytes.length}")
  else .ok ()

def validateNote (note : NoteInfo × Nat) : Except VotingError Unit := do
  validate32Bytes note.1.commitment s!"notes[{note.2}].commitment"
  validate32Bytes note.1.nullifier s!"notes[{note.2}].nullifier"

variable (notes : List NoteInfo)

def validateNotesForRound : Except VotingError Unit :=
  if notes.isEmpty then .error (.invalidInput "notes must not be empty")
  else notes.zipIdx.forM validateNote

/-- `distinct_notes_by_nullifier_v1` -/
def distinctNotesByNullifier : List NoteInfo := distinctBy NoteInfo.nullifier notes

/-! ### Packing -/

/-- A bundle under construction, with its running total. -/
structure PackedBundle where
  total : UInt64
  notes : List NoteInfo
  deriving DecidableEq

namespace PackedBundle

def empty : PackedBundle := ⟨0, []⟩

def push (bundle : PackedBundle) (note : NoteInfo) : PackedBundle :=
  ⟨bundle.total + note.value, bundle.notes ++ [note]⟩

/-- The bundle's voting weight in whole ballots. -/
def weight (bundle : PackedBundle) : UInt64 := bundle.total / ballotDivisor * ballotDivisor

end PackedBundle

def checkedAdd (a b : UInt64) : Option UInt64 :=
  if a.toNat + b.toNat < 2 ^ 64 then some (a + b) else none

/-- `bundle_addition_would_exceed_threshold_v1` -/
def bundleAdditionWouldExceedThreshold (currentTotal noteValue : UInt64)
    (threshold : Option UInt64) : Bool :=
  match threshold with
  | some threshold => (checkedAdd currentTotal noteValue).all (threshold < ·)
  | none => false

variable (policy : BundlePolicy)

def needsNewBundle (bundle : PackedBundle) (note : NoteInfo) : Bool :=
  if policy.maxRealNotesPerBundle ≤ bundle.notes.length then true
  else if bundle.notes.isEmpty then false
  else bundleAdditionWouldExceedThreshold bundle.total note.value policy.bundleAdditionThreshold

/-- Larger values first, then smaller positions. -/
def NoteInfo.before (a b : NoteInfo) : Prop := b.value < a.value ∨ a.value = b.value ∧
    a.position ≤ b.position

instance : DecidableRel NoteInfo.before := fun _ _ => inferInstanceAs (Decidable (_ ∨ _))

/-- Steps 1 to 3: the notes in order, filled into bundles. -/
def packNotes (notes : List NoteInfo) : List PackedBundle :=
  pack .empty .push (needsNewBundle policy) (notes.insertionSort NoteInfo.before)

/-! ### Dropping bundles below one ballot -/

/-- The loop of step 4. -/
structure Survivors where
  surviving : List PackedBundle
  eligibleWeight : UInt64
  survivingNotes : Nat

def Survivors.visit (st : Survivors) (bundle : PackedBundle) : Survivors :=
  if ballotDivisor ≤ bundle.total then
    ⟨st.surviving ++ [bundle], st.eligibleWeight + bundle.weight,
      st.survivingNotes + bundle.notes.length⟩
  else st

def survivors (bundles : List PackedBundle) : Survivors := bundles.foldl Survivors.visit ⟨[], 0, 0⟩

/-- Step 5: the notes of a bundle by position. -/
def PackedBundle.sortNotes (bundle : PackedBundle) : PackedBundle :=
  { bundle with notes := bundle.notes.insertionSort fun a b => a.position ≤ b.position }

def PackedBundle.firstPosition (bundle : PackedBundle) : UInt64 :=
  (bundle.notes.head?.map NoteInfo.position).getD (.ofNat (2 ^ 64 - 1))

/-- Larger totals first, then smaller first positions. -/
def PackedBundle.before (a b : PackedBundle) : Prop :=
  b.total < a.total ∨ a.total = b.total ∧ a.firstPosition ≤ b.firstPosition

instance : DecidableRel PackedBundle.before := fun _ _ => inferInstanceAs (Decidable (_ ∨ _))

/-- Steps 5 and 6. -/
def orderBundles (bundles : List PackedBundle) : List PackedBundle :=
  (bundles.map PackedBundle.sortNotes).insertionSort PackedBundle.before

/-! ### Privacy trim -/

structure PrivacyTrim where
  (droppedBundles droppedNotes : UInt32)
  droppedValue : UInt64
  deriving DecidableEq

/-- The counters of the trim loop. -/
structure Trimming where
  droppedValue : Nat
  (droppedBundles droppedNotes : UInt32)
  eligibleWeight : UInt64

def Trimming.drop (st : Trimming) (bundle : PackedBundle) : Trimming where
  droppedValue := (st.droppedValue + bundle.total.toNat) % 2 ^ 128
  droppedBundles := st.droppedBundles + 1
  droppedNotes := st.droppedNotes + .ofNat bundle.notes.length
  eligibleWeight := st.eligibleWeight - bundle.weight

/-- The loop of step 7, on the bundles from the last to the first. -/
def trimLoop (target budget : Nat) : List PackedBundle → Trimming → List PackedBundle × Trimming
  | [], st => ([], st)
  | last :: earlier, st =>
    if target < (last :: earlier).length then
      if budget < (st.droppedValue + last.total.toNat) % 2 ^ 128 then (last :: earlier, st)
      else trimLoop target budget earlier (st.drop last)
    else (last :: earlier, st)

/-- Step 7 -/
def privacyTrim (totalValue : Nat) (bundles : List PackedBundle)
    (eligibleWeight : UInt64) : List PackedBundle × UInt64 × PrivacyTrim :=
  match policy.maxPrivacyBundles with
  | none => (bundles, eligibleWeight, ⟨0, 0, 0⟩)
  | some target =>
    let (kept, st) := trimLoop (max target 1) (policy.privacyDropBudget totalValue)
      bundles.reverse ⟨0, 0, 0, eligibleWeight⟩
    (kept.reverse, st.eligibleWeight, ⟨st.droppedBundles, st.droppedNotes, .ofNat (min st.droppedValue (2 ^ 64 - 1))⟩)

/-! ### The plan -/

structure ChunkResult where
  bundles : List (List NoteInfo)
  eligibleWeight : UInt64
  droppedCount : Nat
  privacyTrim : PrivacyTrim
  deriving DecidableEq

/-- The value of all notes, a `u128`. -/
def totalValue : Nat := (notes.map fun note => note.value.toNat).sum % 2 ^ 128

/-- `chunk_notes_v1_with_policy` -/
def chunkNotesWithPolicy : ChunkResult :=
  if notes.isEmpty then ⟨[], 0, 0, ⟨0, 0, 0⟩⟩
  else
    let packed := packNotes policy notes
    let totalNotes := (packed.map fun bundle => bundle.notes.length).sum
    let st := survivors packed
    let (kept, eligibleWeight, trim) :=
      privacyTrim policy (totalValue notes) (orderBundles st.surviving) st.eligibleWeight
    ⟨kept.map PackedBundle.notes, eligibleWeight, totalNotes - st.survivingNotes, trim⟩

/-- `canonical_note_bundle_plan_v1_for_notes`, the only planner version. -/
def canonicalNoteBundlePlanForNotes : Except VotingError ChunkResult := do
  validateNotesForRound notes
  return match policy.plannerVersion with
    | .v1 => chunkNotesWithPolicy (distinctNotesByNullifier notes) policy

/-! ### Order does not matter -/

section

variable {notes notes' : List NoteInfo} {policy : BundlePolicy} {plan : ChunkResult}

instance : Std.Total NoteInfo.before where
  total a b := by
    simp only [NoteInfo.before, UInt64.lt_iff_toNat_lt, UInt64.le_iff_toNat_le, ← UInt64.toNat_inj]
    omega

instance : IsTrans NoteInfo NoteInfo.before where
  trans a b c hab hbc := by
    simp only [NoteInfo.before, UInt64.lt_iff_toNat_lt,
      UInt64.le_iff_toNat_le, ← UInt64.toNat_inj] at hab hbc ⊢
    omega

theorem position_eq_of_before {a b : NoteInfo} (hab : a.before b) (hba : b.before a) :
    a.position = b.position := by
  simp only [NoteInfo.before, UInt64.lt_iff_toNat_lt,
    UInt64.le_iff_toNat_le, ← UInt64.toNat_inj] at hab hba ⊢
  omega

theorem chunkNotesWithPolicy_perm (hp : notes.Perm notes')
    (hpo : ∀ a ∈ notes, ∀ b ∈ notes, a.position = b.position → a = b) :
    chunkNotesWithPolicy notes policy = chunkNotesWithPolicy notes' policy := by
  have hem : notes.isEmpty = notes'.isEmpty := by
    rw [Bool.eq_iff_iff, List.isEmpty_iff, List.isEmpty_iff]
    exact ⟨fun h => by rw [h] at hp; exact hp.symm.eq_nil, fun h => by rw [h] at hp; exact hp.eq_nil⟩
  have hpa : packNotes policy notes = packNotes policy notes' := by
    unfold packNotes
    rw [insertionSort_eq_of_perm hp fun a ha b hb hab hba =>
      hpo a ha b hb (position_eq_of_before hab hba)]
  have hto : totalValue notes = totalValue notes' := by
    unfold totalValue
    rw [(hp.map fun note => note.value.toNat).sum_nat]
  unfold chunkNotesWithPolicy
  rw [hem, hpa, hto]

theorem validateNote_iff (note : NoteInfo × Nat) : validateNote note = .ok () ↔
    note.1.commitment.length = 32 ∧ note.1.nullifier.length = 32 := by
  simp only [validateNote, KeyedData.bind_ok_iff, validate32Bytes]
  constructor
  · rintro ⟨_, hc, hn⟩
    constructor
    · by_contra hne
      rw [if_pos hne] at hc
      cases hc
    · by_contra hne
      rw [if_pos hne] at hn
      cases hn
  · rintro ⟨hc, hn⟩
    exact ⟨(), by rw [if_neg (not_not.mpr hc)], by rw [if_neg (not_not.mpr hn)]⟩

/-- Notes are valid or not whatever their order. -/
theorem validateNotesForRound_iff : validateNotesForRound notes = .ok () ↔ notes ≠ [] ∧
    ∀ note ∈ notes, note.commitment.length = 32 ∧ note.nullifier.length = 32 := by
  unfold validateNotesForRound
  cases notes with
  | nil => simp
  | cons =>
    rw [isEmpty_cons, if_neg (by simp), KeyedData.forM_ok]
    simp only [validateNote_iff]
    constructor
    · intro h
      refine ⟨by simp, fun note hno => ?_⟩
      obtain ⟨index, hin⟩ := mem_iff_getElem?.mp hno
      exact h (note, index) (mem_zipIdx_iff_getElem?.mpr hin)
    · rintro ⟨-, h⟩ ⟨note, _⟩ hmem
      exact h note (fst_mem_of_mem_zipIdx hmem)

theorem plan_eq_of_ok (h : canonicalNoteBundlePlanForNotes notes policy = .ok plan) :
    validateNotesForRound notes = .ok () ∧
      plan = chunkNotesWithPolicy (distinctNotesByNullifier notes) policy := by
  obtain ⟨_, hva, h⟩ := KeyedData.bind_ok h
  refine ⟨hva, ?_⟩
  cases hve : policy.plannerVersion
  exact (Except.ok.inj h).symm

theorem plan_of_valid (hva : validateNotesForRound notes = .ok ()) :
    canonicalNoteBundlePlanForNotes notes policy =
      .ok (chunkNotesWithPolicy (distinctNotesByNullifier notes) policy) := by
  unfold canonicalNoteBundlePlanForNotes
  rw [hva]
  rfl

/-- Plans of the same notes, given in any order and with any number of identical copies,
are the same. -/
theorem plan_of_same_notes (hs : ∀ note, note ∈ notes ↔ note ∈ notes')
    (hpo : ∀ a ∈ notes, ∀ b ∈ notes, a.position = b.position → a = b)
    (hnu : ∀ a ∈ notes, ∀ b ∈ notes, a.nullifier = b.nullifier → a = b)
    (h : canonicalNoteBundlePlanForNotes notes policy = .ok plan) :
    canonicalNoteBundlePlanForNotes notes' policy = .ok plan := by
  obtain ⟨hv, rfl⟩ := plan_eq_of_ok h
  have hva' : validateNotesForRound notes' = .ok () := by
    rw [validateNotesForRound_iff] at hv ⊢
    obtain ⟨hne, hby⟩ := hv
    obtain ⟨note, hn⟩ := exists_mem_of_ne_nil notes hne
    exact ⟨ne_nil_of_mem ((hs note).mp hn), fun note hn => hby note ((hs note).mpr hn)⟩
  rw [plan_of_valid hva']
  congr 1
  refine (chunkNotesWithPolicy_perm (distinctBy_perm hs hnu) fun a ha b hb => ?_).symm
  exact hpo a (distinctFrom_sublist.subset ha) b (distinctFrom_sublist.subset hb)

/-- A wallet that loads its notes in another order plans the same bundles. -/
theorem plan_of_reordered_notes (hperm : notes.Perm notes')
    (hpositions : ∀ a ∈ notes, ∀ b ∈ notes, a.position = b.position → a = b)
    (hnullifiers : ∀ a ∈ notes, ∀ b ∈ notes, a.nullifier = b.nullifier → a = b) :
    (canonicalNoteBundlePlanForNotes notes' policy).toOption =
      (canonicalNoteBundlePlanForNotes notes policy).toOption := by
  have hs : ∀ note, note ∈ notes ↔ note ∈ notes' := fun note => hperm.mem_iff
  cases hp : canonicalNoteBundlePlanForNotes notes policy with
  | ok => rw [plan_of_same_notes hs hpositions hnullifiers hp]
  | error =>
    cases hpl' : canonicalNoteBundlePlanForNotes notes' policy with
    | error => rfl
    | ok =>
      -- the notes in the other order are no less distinct
      have hba := plan_of_same_notes (fun note => (hs note).symm)
        (fun a ha b hb => hpositions a ((hs a).mpr ha) b ((hs b).mpr hb))
        (fun a ha b hb => hnullifiers a ((hs a).mpr ha) b ((hs b).mpr hb)) hpl'
      rw [hp] at hba
      cases hba

/-- A note with the given value and position, and a nullifier of one repeated byte. -/
def sampleNote (value position : UInt64) (tag : UInt8) : NoteInfo :=
  ⟨.replicate 32 1, .replicate 32 tag, value, position, [], [], [], 0, ""⟩

theorem plan_of_reordered_notes_two :
    (canonicalNoteBundlePlanForNotes [sampleNote 13000000 7 2, sampleNote 20000000 4 1,
      sampleNote 13000000 7 2] .default).toOption =
      (canonicalNoteBundlePlanForNotes [sampleNote 20000000 4 1, sampleNote 13000000 7 2,
        sampleNote 13000000 7 2] .default).toOption :=
  plan_of_reordered_notes (.swap _ _ _) (by decide) (by decide)

end

end ZcashVoting.NoteBundling
