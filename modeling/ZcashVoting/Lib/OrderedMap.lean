import Mathlib

/-!
# Ordered maps

Maps as lists of entries in strictly ascending key order, and one map stored inside
another: an encoding of its keys that keeps their order places it, entry by entry, in the
region of the outer map that its keys occupy.
-/
set_option linter.unusedSectionVars false

namespace ZcashVoting

open List

structure OrderedMap (κ ν : Type) [LT κ] where
  entries : List (κ × ν)
  sorted : entries.Pairwise fun a b => a.1 < b.1

namespace OrderedMap

variable {κ ν ι μ : Type} [LT κ] [DecidableLT κ] [DecidableEq κ]
  [Trans (fun a b : κ => a < b) (fun a b : κ => a < b) (fun a b : κ => a < b)]
  [Std.Irrefl (fun a b : κ => a < b)] [Std.Trichotomous (fun a b : κ => a < b)]

section

variable {m n : OrderedMap κ ν} {k k' : κ} {v : ν} {entry : κ × ν}

def empty : OrderedMap κ ν := ⟨[], List.Pairwise.nil⟩

def get? (m : OrderedMap κ ν) (k : κ) : Option ν :=
  (m.entries.find? fun entry => decide (entry.1 = k)).map Prod.snd

def keys (m : OrderedMap κ ν) : List κ := m.entries.map Prod.fst

def insert (m : OrderedMap κ ν) (k : κ) (v : ν) : OrderedMap κ ν where
  entries := (m.entries.filter fun entry => decide (entry.1 < k)) ++
    (k, v) :: m.entries.filter fun entry => decide (k < entry.1)
  sorted := by
    refine pairwise_append.mpr ⟨m.sorted.filter _, pairwise_cons.mpr ⟨?_, m.sorted.filter _⟩, ?_⟩
    · intro entry hentry
      exact of_decide_eq_true (mem_filter.mp hentry).2
    intro below hbelow entry hentry
    have hlow := of_decide_eq_true (mem_filter.mp hbelow).2
    rcases mem_cons.mp hentry with rfl | habove
    · exact hlow
    · exact Std.lt_trans hlow (of_decide_eq_true (mem_filter.mp habove).2)

def filter (m : OrderedMap κ ν) (keep : κ → Bool) : OrderedMap κ ν where
  entries := m.entries.filter fun entry => keep entry.1
  sorted := m.sorted.filter _

def erase (m : OrderedMap κ ν) (k : κ) : OrderedMap κ ν := m.filter fun key => decide (key ≠ k)

theorem value_unique {w : ν} (hv : (k, v) ∈ m.entries) (hw : (k, w) ∈ m.entries) : v = w := by
  have hno : (m.entries.map Prod.fst).Nodup :=
    pairwise_map.mpr (m.sorted.imp fun hlt => Std.ne_of_lt hlt)
  exact congrArg Prod.snd (inj_on_of_nodup_map hno hv hw rfl)

theorem get?_eq_some_iff : m.get? k = some v ↔ (k, v) ∈ m.entries := by
  constructor
  · intro h
    obtain ⟨entry, hf, rfl⟩ := Option.map_eq_some_iff.mp h
    have hkey : entry.1 = k := by simpa using List.find?_some hf
    exact hkey ▸ mem_of_find?_eq_some hf
  · intro h
    rcases hf : m.entries.find? (fun entry => decide (entry.1 = k)) with _ | ⟨key, _⟩
    · exact absurd (decide_eq_true rfl) (List.find?_eq_none.mp hf (k, v) h)
    · obtain rfl : key = k := by simpa using List.find?_some hf
      rw [get?, hf, value_unique h (mem_of_find?_eq_some hf)]
      rfl

theorem mem_insert : entry ∈ (m.insert k v).entries ↔
    entry = (k, v) ∨ (entry.1 ≠ k ∧ entry ∈ m.entries) := by
  simp only [insert, mem_append, mem_filter, mem_cons, decide_eq_true_eq]
  constructor
  · rintro (⟨hmem, hlt⟩ | rfl | ⟨hmem, hlt⟩)
    · exact .inr ⟨Std.ne_of_lt hlt, hmem⟩
    · exact .inl rfl
    · exact .inr ⟨(Std.ne_of_lt hlt).symm, hmem⟩
  · rintro (rfl | ⟨hne, hmem⟩)
    · exact .inr (.inl rfl)
    rcases Std.lt_trichotomy entry.1 k with hlt | heq | hgt
    · exact .inl ⟨hmem, hlt⟩
    · exact absurd heq hne
    · exact .inr (.inr ⟨hmem, hgt⟩)

theorem mem_erase : entry ∈ (m.erase k).entries ↔ entry.1 ≠ k ∧ entry ∈ m.entries := by
  simp only [erase, filter, mem_filter, decide_eq_true_eq]
  exact and_comm

theorem get?_insert_self : (m.insert k v).get? k = some v :=
    get?_eq_some_iff.mpr (mem_insert.mpr (.inl rfl))

theorem get?_insert_of_ne (h : k' ≠ k) : (m.insert k v).get? k' = m.get? k' := by
  refine Option.ext fun w => ?_
  rw [get?_eq_some_iff, get?_eq_some_iff, mem_insert]
  constructor
  · rintro (heq | ⟨-, hold⟩)
    · exact absurd (Prod.mk.inj heq).1 h
    · exact hold
  · exact fun hold => .inr ⟨h, hold⟩

theorem mem_foldl_erase {ks : List κ} : entry ∈ (ks.foldl erase m).entries ↔
    entry.1 ∉ ks ∧ entry ∈ m.entries := by
  induction ks generalizing m with
  | nil => simp
  | cons _ _ ih => rw [foldl_cons, ih, mem_erase, mem_cons, not_or, and_assoc, and_left_comm]

theorem get?_foldl_erase_of_not_mem {ks : List κ} (h : k ∉ ks) :
    (ks.foldl erase m).get? k = m.get? k := by
  refine Option.ext fun w => ?_
  rw [get?_eq_some_iff, get?_eq_some_iff, mem_foldl_erase]
  exact ⟨fun hold => hold.2, fun hold => ⟨h, hold⟩⟩

theorem get?_erase_of_ne (h : k' ≠ k) : (m.erase k).get? k' = m.get? k' :=
  get?_foldl_erase_of_not_mem (show k' ∉ [k] by simpa using h)

theorem ext_mem (h : ∀ entry, entry ∈ m.entries ↔ entry ∈ n.entries) : m = n := by
  obtain ⟨_, hx⟩ := m
  obtain ⟨_, hy⟩ := n
  obtain rfl := hx.eq_of_mem_iff hy h
  rfl

theorem foldl_insert_entries (m : OrderedMap κ ν) :
    m.entries.foldl (fun read entry => read.insert entry.1 entry.2) empty = m := by
  -- What has been read so far holds the earlier entries, all below the rest.
  have hre : ∀ (rest : List (κ × ν)) (read : OrderedMap κ ν),
      (∀ early ∈ read.entries, ∀ late ∈ rest, early.1 < late.1) →
        rest.Pairwise (fun a b => a.1 < b.1) →
      (rest.foldl (fun read entry => read.insert entry.1 entry.2) read).entries = read.entries ++
        rest := by
    intro rest
    induction rest with
    | nil => simp
    | cons entry _ ih =>
      intro read hb hso
      obtain ⟨hen, hres⟩ := pairwise_cons.mp hso
      have hi : (read.insert entry.1 entry.2).entries = read.entries ++ [entry] := by
        refine (OrderedMap.sorted _).eq_of_mem_iff ?_ fun other => ?_
        · refine pairwise_append.mpr ⟨read.sorted,
            pairwise_singleton _ _, fun early he late hl => ?_⟩
          rw [mem_singleton.mp hl]
          exact hb early he entry mem_cons_self
        · rw [mem_insert, mem_append, mem_singleton]
          constructor
          · rintro (hnew | ⟨-, hold⟩)
            · exact .inr hnew
            · exact .inl hold
          · rintro (hold | hnew)
            · exact .inr ⟨Std.ne_of_lt (hb other hold entry mem_cons_self), hold⟩
            · exact .inl hnew
      rw [foldl_cons, ih _ ?_ hres, hi, append_assoc, singleton_append]
      intro early he late hl
      rw [hi] at he
      rcases mem_append.mp he with hold | hnew
      · exact hb early hold late (mem_cons_of_mem entry hl)
      · rw [mem_singleton.mp hnew]
        exact hen late hl
  refine ext_mem fun entry => ?_
  rw [hre m.entries empty nofun m.sorted]
  rfl

end

/-! ### A map stored in another -/

section

variable [LT ι] [DecidableLT ι] [DecidableEq ι]
  [Trans (fun a b : ι => a < b) (fun a b : ι => a < b) (fun a b : ι => a < b)]
  [Std.Irrefl (fun a b : ι => a < b)] [Std.Trichotomous (fun a b : ι => a < b)]

/-- How the entries of an inner map are written into an outer one: an order-preserving
encoding of the keys into a region, and an encoding of the values. -/
structure Layout (κ ι ν μ : Type) [LT κ] [LT ι] where
  region : κ → Bool
  key : ι → κ
  value : ν → μ
  mem_region : ∀ i, region (key i) = true
  key_lt : ∀ {i j}, i < j → key i < key j

/-- The region of the outer map consists of the entries of the inner one. -/
def Stores (layout : Layout κ ι ν μ) (outer : OrderedMap κ μ) (inner : OrderedMap ι ν) : Prop :=
  (outer.filter layout.region).entries = inner.entries.map fun entry =>
    (layout.key entry.1, layout.value entry.2)

variable {layout : Layout κ ι ν μ} {outer : OrderedMap κ μ} {inner : OrderedMap ι ν} {i j : ι}
  {v : ν}

theorem Layout.key_injective (h : layout.key i = layout.key j) : i = j := by
  rcases Std.lt_trichotomy i j with hlt | heq | hgt
  · exact absurd (h ▸ layout.key_lt hlt) Std.lt_irrefl
  · exact heq
  · exact absurd (h ▸ layout.key_lt hgt) Std.lt_irrefl

theorem stores_iff : Stores layout outer inner ↔ ∀ entry,
    (entry ∈ outer.entries ∧ layout.region entry.1 = true) ↔
      ∃ i v, (i, v) ∈ inner.entries ∧ entry = (layout.key i, layout.value v) := by
  have hmem : ∀ entry, entry ∈ (outer.filter layout.region).entries ↔
      entry ∈ outer.entries ∧ layout.region entry.1 = true := fun entry => mem_filter
  have hmap : ∀ entry, entry ∈ inner.entries.map (fun e => (layout.key e.1, layout.value e.2)) ↔
      ∃ i v, (i, v) ∈ inner.entries ∧ entry = (layout.key i, layout.value v) := by
    intro entry
    simp only [mem_map, Prod.exists, eq_comm (a := entry)]
  constructor
  · intro h entry
    rw [← hmem, ← hmap]
    exact iff_of_eq (congrArg (entry ∈ ·) h)
  · intro h
    refine (OrderedMap.sorted _).eq_of_mem_iff ?_ fun entry => by rw [hmem, hmap, h]
    exact pairwise_map.mpr (inner.sorted.imp fun hlt => layout.key_lt hlt)

section

variable (h : Stores layout outer inner) {k : κ}
include h

theorem Stores.get? (i : ι) : outer.get? (layout.key i) = (inner.get? i).map layout.value := by
  refine Option.ext fun w => ?_
  rw [get?_eq_some_iff, Option.map_eq_some_iff]
  constructor
  · intro hmem
    obtain ⟨_, v, hi, heq⟩ := (stores_iff.mp h _).mp ⟨hmem, layout.mem_region i⟩
    obtain ⟨hkey, rfl⟩ := Prod.mk.inj heq
    obtain rfl := Layout.key_injective hkey
    exact ⟨v, get?_eq_some_iff.mpr hi, rfl⟩
  · rintro ⟨v, hi, rfl⟩
    exact ((stores_iff.mp h _).mpr ⟨i, v, get?_eq_some_iff.mp hi, rfl⟩).1

theorem Stores.insert (i : ι) (v : ν) :
    Stores layout (outer.insert (layout.key i) (layout.value v)) (inner.insert i v) := by
  refine stores_iff.mpr fun entry => ?_
  constructor
  · rintro ⟨hmem, hre⟩
    rcases mem_insert.mp hmem with rfl | ⟨hne, hold⟩
    · exact ⟨i, v, mem_insert.mpr (.inl rfl), rfl⟩
    · obtain ⟨j, w, hi, rfl⟩ := (stores_iff.mp h entry).mp ⟨hold, hre⟩
      exact ⟨j, w, mem_insert.mpr (.inr ⟨fun hij => hne (congrArg layout.key hij), hi⟩), rfl⟩
  · rintro ⟨j, w, hi, rfl⟩
    refine ⟨mem_insert.mpr ?_, layout.mem_region j⟩
    rcases mem_insert.mp hi with heq | ⟨hne, hold⟩
    · cases heq
      exact .inl rfl
    · exact .inr ⟨fun hkey => hne (Layout.key_injective hkey),
        ((stores_iff.mp h _).mpr ⟨j, w, hold, rfl⟩).1⟩

theorem Stores.erase (i : ι) : Stores layout (outer.erase (layout.key i)) (inner.erase i) := by
  refine stores_iff.mpr fun entry => ?_
  constructor
  · rintro ⟨hmem, hre⟩
    obtain ⟨hne, hold⟩ := mem_erase.mp hmem
    obtain ⟨j, w, hi, rfl⟩ := (stores_iff.mp h entry).mp ⟨hold, hre⟩
    exact ⟨j, w, mem_erase.mpr ⟨fun hij => hne (congrArg layout.key hij), hi⟩, rfl⟩
  · rintro ⟨j, w, hi, rfl⟩
    obtain ⟨hne, hold⟩ := mem_erase.mp hi
    exact ⟨mem_erase.mpr ⟨fun hkey => hne (Layout.key_injective hkey),
      ((stores_iff.mp h _).mpr ⟨j, w, hold, rfl⟩).1⟩, layout.mem_region j⟩

/-- Entries outside the region do not matter. -/
theorem Stores.of_region {outer' : OrderedMap κ μ}
    (hr : ∀ entry, layout.region entry.1 = true → (entry ∈ outer'.entries ↔ entry ∈ outer.entries)) :
    Stores layout outer' inner := by
  refine stores_iff.mpr fun entry => ?_
  rw [← stores_iff.mp h entry]
  exact and_congr_left (hr entry)

theorem Stores.insert_outside (hk : layout.region k = false) (w : μ) :
    Stores layout (outer.insert k w) inner := by
  refine h.of_region fun entry hr => ?_
  have hne : entry.1 ≠ k := by
    rintro rfl
    rw [hk] at hr
    cases hr
  rw [mem_insert, and_iff_right hne]
  exact or_iff_right fun heq => hne (congrArg Prod.fst heq)

theorem Stores.foldl_erase (is : List ι) :
    Stores layout ((is.map layout.key).foldl OrderedMap.erase outer)
      (is.foldl OrderedMap.erase inner) := by
  induction is generalizing outer inner with
  | nil => exact h
  | cons i _ ih => exact ih (h.erase i)

theorem Stores.foldl_erase_outside {ks : List κ} (hks : ∀ k ∈ ks, layout.region k = false) :
    Stores layout (ks.foldl OrderedMap.erase outer) inner := by
  refine h.of_region fun entry hr => ?_
  rw [mem_foldl_erase]
  refine and_iff_right fun hmem => ?_
  rw [hks _ hmem] at hr
  cases hr

theorem Stores.erase_outside (hk : layout.region k = false) : Stores layout (outer.erase k) inner :=
  h.foldl_erase_outside (show ∀ k' ∈ [k], layout.region k' = false by simpa using hk)

end

end

end OrderedMap

end ZcashVoting
