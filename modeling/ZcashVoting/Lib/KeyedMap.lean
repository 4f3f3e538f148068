import Mathlib

/-!
# Ordered maps as entry lists, and folds that may fail

A map is the list of its entries in iteration order with distinct keys. Nothing below
depends on that order, so it may be the key order of a balanced tree.

`foldlM_ok_induction` is the rule for a loop that may stop with an error: what holds at
the start and is kept by every step that succeeds holds, of everything visited, when
the loop succeeds.
-/
namespace KeyedData

open List

structure KeyedMap (κ ν : Type) where
  entries : List (κ × ν)
  distinct : (entries.map Prod.fst).Nodup

variable {κ ν α β ε : Type}

namespace KeyedMap

@[simps] def empty : KeyedMap κ ν := ⟨[], nodup_nil⟩

@[simps] def single (k : κ) (v : ν) : KeyedMap κ ν := ⟨[(k, v)], nodup_singleton k⟩

variable [DecidableEq κ] {m : KeyedMap κ ν} {k : κ} {v v' : ν} {keep : κ → Bool}

def get? (m : KeyedMap κ ν) (k : κ) :
    Option ν := (m.entries.find? fun entry => entry.1 = k).map Prod.snd

def keys (m : KeyedMap κ ν) : List κ := m.entries.map Prod.fst

def contains (m : KeyedMap κ ν) (k : κ) : Bool := (m.get? k).isSome

theorem mem_entries_of_get? (h : m.get? k = some v) : (k, v) ∈ m.entries := by
  simp only [get?, Option.map_eq_some_iff] at h
  obtain ⟨entry, hf, rfl⟩ := h
  have hkey : entry.1 = k := by simpa using List.find?_some hf
  have hmem := mem_of_find?_eq_some hf
  rw [← hkey]
  exact hmem

theorem get?_of_mem_entries (h : (k, v) ∈ m.entries) : m.get? k = some v := by
  cases hget : m.get? k with
  | none =>
    simp only [get?, Option.map_eq_none_iff, List.find?_eq_none] at hget
    exact absurd (decide_eq_true rfl) (hget (k, v) h)
  | some =>
    have heq := inj_on_of_nodup_map m.distinct (mem_entries_of_get? hget) h rfl
    rw [(Prod.mk.inj heq).2]

theorem get?_eq_some_iff : m.get? k = some v ↔ (k, v) ∈ m.entries :=
    ⟨mem_entries_of_get?, get?_of_mem_entries⟩

/-- Stores `v` under `k`, in place of what was there. -/
def set (m : KeyedMap κ ν) (k : κ) (v : ν) : KeyedMap κ ν where
  entries := m.entries.filter (fun entry => entry.1 ≠ k) ++ [(k, v)]
  distinct := by
    rw [map_append, nodup_append]
    refine ⟨m.distinct.sublist (filter_sublist.map _), by simp, ?_⟩
    intro a ha b hb hab
    obtain ⟨entry, hentry, rfl⟩ := mem_map.mp ha
    have hne : entry.1 ≠ k := by simpa using (mem_filter.mp hentry).2
    simp only [map_cons, map_nil, mem_singleton] at hb
    exact hne (hab.trans hb)

theorem get?_set (k' : κ) : (m.set k v).get? k' = if k' = k then some v else m.get? k' := by
  by_cases hk : k' = k
  · subst hk
    rw [if_pos rfl]
    exact get?_of_mem_entries (by simp [set])
  · rw [if_neg hk]
    apply Option.ext
    intro v'
    rw [get?_eq_some_iff, get?_eq_some_iff]
    simp [set, hk]

@[simp] theorem get?_set_self : (m.set k v).get? k = some v := by rw [get?_set, if_pos rfl]

theorem get?_set_of_ne {k' : κ} (h : k' ≠ k) : (m.set k v).get? k' = m.get? k' := by
  rw [get?_set, if_neg h]

def filterKeys (m : KeyedMap κ ν) (keep : κ → Bool) : KeyedMap κ ν where
  entries := m.entries.filter fun entry => keep entry.1
  distinct := m.distinct.sublist (filter_sublist.map _)

theorem get?_filterKeys (h : keep k = true) : (m.filterKeys keep).get? k = m.get? k := by
  apply Option.ext
  intro v
  rw [get?_eq_some_iff, get?_eq_some_iff, filterKeys, mem_filter]
  simp [h]

theorem get?_filterKeys_eq_none (h : keep k = false) : (m.filterKeys keep).get? k = none := by
  rw [Option.eq_none_iff_forall_ne_some]
  intro v hv
  have hmem := mem_entries_of_get? hv
  simp [filterKeys, h] at hmem

def mapValues (f : κ → ν → ν) (m : KeyedMap κ ν) : KeyedMap κ ν where
  entries := m.entries.map fun entry => (entry.1, f entry.1 entry.2)
  distinct := by
    rw [map_map]
    exact m.distinct

theorem get?_mapValues {f : κ → ν → ν} : (m.mapValues f).get? k = (m.get? k).map (f k) := by
  apply Option.ext
  intro w
  rw [get?_eq_some_iff, mapValues, mem_map, Option.map_eq_some_iff]
  constructor
  · rintro ⟨⟨_, v⟩, hmem, heq⟩
    cases heq
    exact ⟨v, get?_of_mem_entries hmem, rfl⟩
  · rintro ⟨v, hv, rfl⟩
    exact ⟨(k, v), mem_entries_of_get? hv, rfl⟩

end KeyedMap

/-- The elements of a list as an ordered set: sorted and without repetition. -/
def sortedSet (xs : List Nat) : List Nat := xs.dedup.insertionSort (· ≤ ·)

@[simp] theorem mem_sortedSet {xs : List Nat} {x : Nat} : x ∈ sortedSet xs ↔ x ∈ xs := by
  simp [sortedSet]

theorem nodup_sortedSet (xs : List Nat) : (sortedSet xs).Nodup :=
  (perm_insertionSort _ _).nodup_iff.mpr xs.nodup_dedup

variable {xs : List α} {x a : α} {f : α → Except ε β} {ys : List β} {step : β → α → Except ε β}
  {init final b : β} {e : ε}

/-- Only one element of the list contributes. -/
theorem flatMap_eq_of_unique {f : α → List β} (hno : xs.Nodup) (hx : x ∈ xs)
    (hnil : ∀ y ∈ xs, y ≠ x → f y = []) : xs.flatMap f = f x := by
  obtain ⟨before, after, rfl⟩ := append_of_mem hx
  obtain ⟨-, haf, hbe⟩ := nodup_append.mp hno
  have hnon : before.flatMap f = [] := flatMap_eq_nil_iff.mpr fun y hy =>
    hnil y (by simp [hy]) (hbe y hy x (by simp))
  have hno' : after.flatMap f = [] := flatMap_eq_nil_iff.mpr fun y hy =>
    hnil y (by simp [hy]) fun heq => (nodup_cons.mp haf).1 (heq ▸ hy)
  simp [hnon, hno']

/-- Pieces without repetition, no element in two of them. -/
theorem nodup_flatMap_of_unique {f : α → List β} (hno : xs.Nodup) (hpi : ∀ x ∈ xs, (f x).Nodup)
    (hun : ∀ x ∈ xs, ∀ x' ∈ xs, ∀ y, y ∈ f x → y ∈ f x' → x = x') : (xs.flatMap f).Nodup := by
  refine nodup_flatMap.mpr ⟨hpi, hno.pairwise_of_forall_ne fun x hx x' hx' hne => ?_⟩
  intro y hy hy'
  exact hne (hun x hx x' hx' y hy hy')

theorem bind_ok_iff {x : Except ε α} : (x >>= f) = .ok b ↔ ∃ a, x = .ok a ∧ f a = .ok b := by
  cases x with
  | error | ok => simp [bind, Except.bind]

theorem bind_ok {x : Except ε α} (h : (x >>= f) = .ok b) :
    ∃ a, x = .ok a ∧ f a = .ok b := bind_ok_iff.mp h

theorem bind_error {x : Except ε α} {f : α → Except ε β} (h : (x >>= f) = .error e) :
    x = .error e ∨ ∃ a, x = .ok a ∧ f a = .error e := by
  cases x with
  | error =>
    cases h
    exact .inl rfl
  | ok a => exact .inr ⟨a, rfl, h⟩

theorem map_ok {x : Except ε α} {f : α → β} (h : x.map f = .ok b) : ∃ a, x = .ok a ∧ f a = b := by
  cases x <;> simp_all [Except.map]

/-- A check that passed, and what comes after it. -/
theorem guard_ok {c : Prop} [Decidable c] {x : Except ε α}
    (h : (if c then .error e else x) = .ok a) :
    ¬ c ∧ x = .ok a := by
  by_cases hc : c <;> simp_all

theorem except_of_toOption {x : Except ε α} (h : x.toOption = some a) : x = .ok a := by
  cases x with
  | error => cases h
  | ok => rw [Option.some.inj h]

section

variable (h : xs.mapM f = .ok ys) {γ : Type} {y : β}
include h

theorem mapM_ok_eq : xs.map f = ys.map .ok := by
  induction xs generalizing ys with
  | nil =>
    cases h
    rfl
  | cons _ _ ih =>
    rw [mapM_cons] at h
    obtain ⟨_, hy, h⟩ := bind_ok h
    obtain ⟨_, hys, h⟩ := bind_ok h
    cases h
    rw [map_cons, map_cons, hy, ih hys]

theorem mapM_ok_forall₂ : Forall₂ (fun x y => f x = .ok y) xs ys := by
  have heq := mapM_ok_eq h
  rwa [← forall₂_eq_eq_eq, forall₂_map_left_iff, forall₂_map_right_iff] at heq

theorem mem_mapM_ok (hy : y ∈ ys) : ∃ x ∈ xs, f x = .ok y := by
  rw [← mem_map, mapM_ok_eq h]
  exact mem_map_of_mem hy

theorem mapM_ok_of_mem (hx : x ∈ xs) : ∃ y ∈ ys, f x = .ok y := by
  have hmem := mem_map_of_mem (f := f) hx
  rw [mapM_ok_eq h] at hmem
  simpa [eq_comm] using hmem

theorem mapM_ok_map {g : β → γ} {k : α → γ} (hf : ∀ x y, f x = .ok y → g y = k x) :
    ys.map g = xs.map k := by
  rw [eq_comm, ← forall₂_eq_eq_eq, forall₂_map_left_iff, forall₂_map_right_iff]
  exact (mapM_ok_forall₂ h).imp fun x y hy => (hf x y hy).symm

theorem mapM_ok_length : ys.length = xs.length := (mapM_ok_forall₂ h).length_eq.symm

theorem mapM_ok_zip (hxy : (x, y) ∈ xs.zip ys) : f x = .ok y := forall₂_zip (mapM_ok_forall₂ h) hxy

theorem mapM_ok_filterMap : ys = xs.filterMap fun x => (f x).toOption := by
  have heq := congrArg (filterMap Except.toOption) (mapM_ok_eq h)
  rw [filterMap_map, filterMap_map] at heq
  exact (filterMap_some.symm.trans heq.symm :)

end

theorem forM_ok {f : α → Except ε Unit} : xs.forM f = .ok () ↔ ∀ x ∈ xs, f x = .ok () := by
  induction xs with
  | nil => simp [pure, Except.pure]
  | cons x xs ih =>
    change (f x >>= fun _ => xs.forM f) = _ ↔ _
    rw [bind_ok_iff, forall_mem_cons, ← ih]
    constructor
    · intro h
      obtain ⟨⟨⟩, hx, hxs⟩ := h
      exact ⟨hx, hxs⟩
    · intro h
      exact ⟨(), h⟩

theorem forM_congr {f g : α → Except ε Unit} (h : ∀ x ∈ xs, f x = g x) : xs.forM f = xs.forM g := by
  induction xs with
  | nil => rfl
  | cons x _ ih =>
    rw [List.forM, List.forM, h x (by simp), ih fun y hy => h y (by simp [hy])]

/-- The rule gives the step the list it came from: the part seen, the element and the
rest. -/
theorem foldlM_ok_induction (P : List α → β → Prop) (h : xs.foldlM step init = .ok final)
    (hin : P [] init)
    (hst : ∀ seen x rest st st', xs = seen ++ x :: rest → P seen st → step st x = .ok st' →
      P (seen ++ [x]) st') : P xs final := by
  induction xs using List.reverseRecOn generalizing final with
  | nil =>
    cases h
    exact hin
  | append_singleton xs x ih =>
    rw [foldlM_append] at h
    obtain ⟨st, hseen, h⟩ := bind_ok h
    have hP := ih hseen fun seen y rest st st' hs => hst seen y (rest ++ [x]) st st' (by simp [hs])
    exact hst xs x [] st final rfl hP (by simpa using h)

theorem foldlM_error (h : xs.foldlM step init = .error e) :
    ∃ x ∈ xs, ∃ st, step st x = .error e := by
  induction xs generalizing init with
  | nil => cases h
  | cons x _ ih =>
    rcases bind_error h with hst | ⟨_, -, h⟩
    · exact ⟨x, mem_cons_self, init, hst⟩
    · obtain ⟨x', hx', st', hfa⟩ := ih h
      exact ⟨x', mem_cons_of_mem _ hx', st', hfa⟩

/-- A loop succeeds when every step from a state of the invariant does. -/
theorem foldlM_exists_ok (P : List α → β → Prop) (hin : P [] init)
    (hst : ∀ seen x rest st, xs = seen ++ x :: rest → P seen st →
      ∃ st', step st x = .ok st' ∧ P (seen ++ [x]) st')
    : ∃ final, xs.foldlM step init = .ok final := by
  suffices h : ∃ final, xs.foldlM step init = .ok final ∧ P xs final from h.imp fun _ => And.left
  induction xs using List.reverseRecOn with
  | nil => exact ⟨init, rfl, hin⟩
  | append_singleton xs x ih =>
    obtain ⟨st, hseen, hP⟩ := ih fun seen y rest st hs => hst seen y (rest ++ [x]) st (by simp [hs])
    obtain ⟨st', hx, hP'⟩ := hst xs x [] st rfl hP
    refine ⟨st', ?_, hP'⟩
    rw [foldlM_append, hseen]
    exact (bind_pure (step st x)).trans hx

/-- A loop whose every successful step is also one of `step'` runs the same way with it. -/
theorem foldlM_ok_of_steps {step' : β → α → Except ε β} (h : xs.foldlM step init = .ok final)
    (hs : ∀ x ∈ xs, ∀ st st', step st x = .ok st' → step' st x = .ok st') :
    xs.foldlM step' init = .ok final := by
  induction xs generalizing init with
  | nil => exact h
  | cons x _ ih =>
    rw [foldlM_cons] at h ⊢
    obtain ⟨st, hx, h⟩ := bind_ok h
    rw [hs x (by simp) init st hx]
    exact ih h fun y hy => hs y (by simp [hy])

section

variable {γ : Type} {strict : Prop} {R : β → γ → Prop}

/-- `y` succeeds where `x` does, with a related value. If `strict`, it also fails where
`x` does, with the same error. -/
def Follows (strict : Prop) (R : β → γ → Prop) : Except ε β → Except ε γ → Prop
  | .ok b, y => ∃ c, y = .ok c ∧ R b c
  | .error e, y => strict → y = .error e

theorem Follows.of_cases {x : Except ε β} {y : Except ε γ}
    (hok : ∀ b, x = .ok b → ∃ c, y = .ok c ∧ R b c)
    (her : strict → ∀ e, x = .error e → y = .error e) : Follows strict R x y := by
  cases x with
  | error e => exact fun hst => her hst e rfl
  | ok b => exact hok b rfl

theorem Follows.same {x : Except ε α} {f : α → Except ε β} {g : α → Except ε γ}
    (h : ∀ a, Follows strict R (f a) (g a)) : Follows strict R (x >>= f) (x >>= g) := by
  cases x with
  | error => exact fun _ => rfl
  | ok a => exact h a

theorem Follows.bind {δ ζ : Type} {S : δ → ζ → Prop} {x : Except ε β} {y : Except ε γ}
    {f : β → Except ε δ} {g : γ → Except ε ζ} (h : Follows strict R x y)
    (hf : ∀ b c, R b c → Follows strict S (f b) (g c)) : Follows strict S (x >>= f) (y >>= g) := by
  cases x with
  | error =>
    intro hst
    rw [h hst]
    rfl
  | ok b =>
    obtain ⟨c, rfl, hR⟩ := h
    exact hf b c hR

theorem Follows.foldlM {step' : γ → α → Except ε γ} {init' : γ} (hi : R init init')
    (hs : ∀ x ∈ xs, ∀ b c, R b c → Follows strict R (step b x) (step' c x)) :
    Follows strict R (xs.foldlM step init) (xs.foldlM step' init') := by
  induction xs generalizing init init' with
  | nil => exact ⟨init', rfl, hi⟩
  | cons x _ ih =>
    rw [foldlM_cons, foldlM_cons]
    exact (hs x (by simp) init init' hi).bind fun b c hR => ih hR fun y hy => hs y (by simp [hy])

end

theorem mapM_exists_ok (h : ∀ x ∈ xs, ∃ y, f x = .ok y) : ∃ ys, xs.mapM f = .ok ys := by
  induction xs with
  | nil => exact ⟨[], rfl⟩
  | cons x _ ih =>
    obtain ⟨y, hy⟩ := h x (by simp)
    obtain ⟨ys, hys⟩ := ih fun x' hx' => h x' (by simp [hx'])
    exact ⟨y :: ys, by rw [mapM_cons, hy, hys]; rfl⟩

namespace KeyedMap

variable {μ : Type} {f : κ → ν → Except ε μ} {m : KeyedMap κ ν} {m' : KeyedMap κ μ} {k : κ}

/-- Entries that give the same result under one key only give distinct results. -/
theorem nodup_filterMap_entries {f : κ × ν → Option β}
    (h : ∀ entry ∈ m.entries, ∀ entry' ∈ m.entries, ∀ y, f entry = some y → f entry' = some y →
      entry.1 = entry'.1) : (m.entries.filterMap f).Nodup := by
  refine pairwise_filterMap.mpr ?_
  have hdi : m.entries.Pairwise fun entry entry' => entry.1 ≠ entry'.1 := pairwise_map.mp m.distinct
  refine hdi.imp_of_mem fun hmem hmem' hne y hy y' hy' heq => hne ?_
  rw [← heq] at hy'
  exact h _ hmem _ hmem' y hy hy'

/-- Rewrites every value, or stops at the first that fails. -/
def traverse (f : κ → ν → Except ε μ) (m : KeyedMap κ ν) : Except ε (KeyedMap κ μ) :=
  match h : m.entries.mapM fun entry => (f entry.1 entry.2).map fun w => (entry.1, w) with
  | .error e => .error e
  | .ok entries => .ok ⟨entries, by
      have hkeys := mapM_ok_map (g := Prod.fst) (k := Prod.fst) h (by
        intro entry result hresult
        obtain ⟨w, -, rfl⟩ := map_ok hresult
        rfl)
      rw [hkeys]
      exact m.distinct⟩

theorem traverse_exists_ok [DecidableEq κ]
    (h : ∀ k v, m.get? k = some v → ∃ w, f k v = .ok w) : ∃ m', m.traverse f = .ok m' := by
  have hea : ∀ entry ∈ m.entries, ∃ y, ((f entry.1 entry.2).map fun w => (entry.1, w)) = .ok y := by
    intro entry hmem
    obtain ⟨w, hw⟩ := h entry.1 entry.2 (get?_of_mem_entries hmem)
    exact ⟨(entry.1, w), by simp [hw, Except.map]⟩
  obtain ⟨_, he⟩ := mapM_exists_ok hea
  unfold traverse
  split
  · rename_i e her
    rw [her] at he
    cases he
  · exact ⟨_, rfl⟩

theorem traverse_ok [DecidableEq κ] (h : m.traverse f = .ok m') {v : ν} (hv : m.get? k = some v) :
    ∃ w, f k v = .ok w ∧ m'.get? k = some w := by
  unfold traverse at h
  split at h
  · cases h
  rename_i entries hen
  cases h
  obtain ⟨_, hmem, hre⟩ := mapM_ok_of_mem hen (mem_entries_of_get? hv)
  obtain ⟨w, hf, rfl⟩ := map_ok hre
  exact ⟨w, hf, get?_of_mem_entries hmem⟩

theorem of_traverse_ok [DecidableEq κ] (h : m.traverse f = .ok m') {w : μ}
    (hw : m'.get? k = some w) :
    ∃ v, m.get? k = some v ∧ f k v = .ok w := by
  unfold traverse at h
  split at h
  · cases h
  rename_i entries hen
  cases h
  obtain ⟨⟨_, v⟩, hmem, hre⟩ := mem_mapM_ok hen (mem_entries_of_get? hw)
  obtain ⟨_, hf, heq⟩ := map_ok hre
  cases heq
  exact ⟨v, get?_of_mem_entries hmem, hf⟩

end KeyedMap

end KeyedData
