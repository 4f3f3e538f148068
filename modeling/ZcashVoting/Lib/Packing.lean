import Mathlib

/-!
# Sequential packing, first occurrences and canonical order

Items are placed one after the other into the last of a row of groups, and a group that
is full for the next item is followed by a new one. The groups hold the items in order,
and what holds of a one-item group and is kept by adding an item holds of every group.

Keeping the first item of each key and sorting the rest give a list that depends on the
set of items only, where keys and order tell the items apart.
-/
namespace ZcashVoting.Packing

open List

/-! ### Placing items in the last group -/

section

variable {α β : Type} (empty : β) (push : β → α → β) (full : β → α → Bool)

def pushLast (a : α) : List β → List β
  | [] => []
  | [g] => [push g a]
  | g :: h :: rest => g :: pushLast a (h :: rest)

/-- One step: a new group if there is none or the last is full, then the item. -/
def place (groups : List β) (a : α) : List β :=
  pushLast push a (if groups.getLast?.all (full · a) then groups ++ [empty] else groups)

def pack (items : List α) : List β := items.foldl (place empty push full) []

variable {empty push full} {a : α} {g : β} {groups : List β} {items : List α}

@[simp] theorem pushLast_concat : pushLast push a (groups ++ [g]) = groups ++ [push g a] := by
  induction groups with
  | nil => rfl
  | cons _ rest ih =>
    cases rest with
    | nil => rfl
    | cons => simpa [pushLast] using ih

theorem place_nil : place empty push full [] a = [push empty a] := rfl

/-- A full last group is left as it is, any other takes the item. -/
theorem place_concat : place empty push full (groups ++ [g]) a =
    if full g a then groups ++ [g] ++ [push empty a] else groups ++ [push g a] := by
  unfold place
  rw [List.getLast?_concat, Option.all_some]
  by_cases hf : full g a = true
  · rw [if_pos hf, if_pos hf, pushLast_concat]
  · rw [if_neg hf, if_neg hf, pushLast_concat]

theorem flatMap_pack {contents : β → List α} (he : contents empty = [])
    (hp : ∀ g a, contents (push g a) = contents g ++ [a]) (items : List α) :
    (pack empty push full items).flatMap contents = items := by
  have hst : ∀ groups a, (place empty push full groups a).flatMap contents =
      groups.flatMap contents ++ [a] := by
    intro groups a
    rcases eq_nil_or_concat groups with rfl | ⟨_, last, rfl⟩
    · simp [place_nil, hp, he]
    rw [concat_eq_append, place_concat]
    by_cases hf : full last a = true
    · simp [hf, hp, he]
    · simp [hf, hp]
  have hfo : ∀ groups, (items.foldl (place empty push full) groups).flatMap contents =
      groups.flatMap contents ++ items := by
    induction items with
    | nil => simp
    | cons _ _ ih =>
      intro groups
      rw [foldl_cons, ih, hst, append_assoc, singleton_append]
  simpa [pack] using hfo []

/-- What a one-item group has and an added item keeps, every group has. -/
theorem pack_forall {P : β → Prop} (hnew : ∀ a ∈ items, P (push empty a))
    (hgro : ∀ g, ∀ a ∈ items, P g → full g a = false → P (push g a)) :
    ∀ g ∈ pack empty push full items, P g := by
  have hst : ∀ groups, (∀ g ∈ groups, P g) → ∀ a ∈ items,
      ∀ g ∈ place empty push full groups a, P g := by
    intro groups hgr a ha g hg
    rcases eq_nil_or_concat groups with rfl | ⟨_, last, rfl⟩
    · rw [place_nil, mem_singleton] at hg
      rw [hg]
      exact hnew a ha
    · simp only [concat_eq_append, mem_append, mem_singleton] at hgr hg
      rw [place_concat] at hg
      by_cases hf : full last a = true
      · rw [if_pos hf, mem_append, mem_append, mem_singleton, mem_singleton] at hg
        rcases hg with hold | rfl
        · exact hgr g hold
        · exact hnew a ha
      · rw [if_neg hf, mem_append, mem_singleton] at hg
        rcases hg with hold | rfl
        · exact hgr g (.inl hold)
        · exact hgro last a ha (hgr last (.inr rfl)) (Bool.eq_false_iff.mpr hf)
  have hfo : ∀ rest : List α, (∀ a ∈ rest, a ∈ items) → ∀ groups, (∀ g ∈ groups, P g) →
      ∀ g ∈ rest.foldl (place empty push full) groups, P g := by
    intro rest
    induction rest with
    | nil => exact fun _ groups hgr => hgr
    | cons a _ ih =>
      intro hsub groups hgr
      exact ih (fun b hb => hsub b (.tail _ hb)) _ (hst groups hgr a (hsub a (.head _)))
  exact hfo items (fun _ ha => ha) [] (by simp)

end

/-! ### Packing by weight -/

section

variable {α : Type} (weight : α → Nat) (target : Nat)

def load (items : List α) : Nat := (items.map weight).sum

/-- A group takes the next item while its load stays within the target. -/
def packWithin (items : List α) : List (List α) :=
  pack [] (fun group a => group ++ [a]) (fun group a => target < load weight group + weight a) items

variable {weight target} {items : List α}

theorem flatten_packWithin : (packWithin weight target items).flatten = items := by
  rw [← flatMap_id]
  exact flatMap_pack rfl (fun _ _ => rfl) items

/-- Two neighbours are heavier than the target, so the load grows with the groups. -/
theorem packWithin_load (hp : ∀ a ∈ items, 0 < weight a) {k : Nat}
    (hk : (packWithin weight target items).length = k) :
    k / 2 * (target + 1) + k % 2 ≤ load weight items := by
  let Loaded (groups : List (List α)) : Prop :=
    groups.length / 2 * (target + 1) + groups.length % 2 ≤ load weight groups.flatten
  have h : Loaded (packWithin weight target items) ∧
      Loaded (packWithin weight target items).dropLast := by
    refine foldlRecOn (motive := fun groups => Loaded groups ∧ Loaded groups.dropLast) _ _
      (by simp [Loaded]) ?_
    rintro groups ⟨hall, hfront⟩ a ha
    have hpos : 1 ≤ weight a := hp a ha
    rcases eq_nil_or_concat groups with rfl | ⟨front, last, rfl⟩
    · simpa [place_nil, Loaded, load] using hpos
    rw [concat_eq_append] at hall hfront ⊢
    rw [dropLast_concat] at hfront
    rw [place_concat]
    split
    next hf =>
      rw [dropLast_concat]
      refine ⟨?_, hall⟩
      have hf : target < load weight last + weight a := by simpa using hf
      have hhalf : (front.length + 1 + 1) / 2 = front.length / 2 + 1 := by omega
      simp only [Loaded, load, length_append, length_singleton, flatten_append, map_append,
        sum_append, flatten_singleton, map_singleton, sum_singleton, nil_append, hhalf,
          Nat.succ_mul] at hfront hf ⊢
      omega
    · rw [dropLast_concat]
      refine ⟨?_, hfront⟩
      simp only [Loaded, load, length_append, length_singleton, flatten_append, map_append,
        sum_append, flatten_singleton] at hall ⊢
      omega
  simpa only [Loaded, hk, flatten_packWithin] using h.1

/-- Items of which no two neighbours fit together are packed one by one. -/
theorem packWithin_of_isChain (h : items.IsChain fun a b => target < weight a + weight b) :
    packWithin weight target items = items.map fun a => [a] := by
  induction items using reverseRecOn with
  | nil => rfl
  | append_singleton front a ih =>
    obtain ⟨hf, -, hl⟩ := isChain_append.mp h
    rw [packWithin, pack, foldl_concat, ← pack, ← packWithin, ih hf]
    rcases eq_nil_or_concat front with rfl | ⟨_, last, rfl⟩
    · rfl
    rw [concat_eq_append, map_append, map_singleton, place_concat, if_pos]
    · simp
    · simpa [load] using hl last (by simp) a (by simp)

end

/-! ### First occurrences -/

section

variable {α κ : Type} [DecidableEq κ] (key : α → κ)

/-- The items whose key has not been seen. -/
def distinctFrom (seen : List κ) : List α → List α
  | [] => []
  | a :: rest =>
    if seen.contains (key a) then distinctFrom seen rest
    else a :: distinctFrom (key a :: seen) rest

/-- The first item of each key, in order. -/
def distinctBy (items : List α) : List α := distinctFrom key [] items

variable {key} {seen : List κ} {items items' : List α} {a : α}

theorem distinctFrom_sublist : (distinctFrom key seen items).Sublist items := by
  induction items generalizing seen with
  | nil => exact .slnil
  | cons a _ ih =>
    unfold distinctFrom
    split
    · exact ih.cons a
    · exact ih.cons_cons a

theorem key_notMem_seen (h : a ∈ distinctFrom key seen items) : key a ∉ seen := by
  induction items generalizing seen with
  | nil => cases h
  | cons _ _ ih =>
    unfold distinctFrom at h
    split at h
    · exact ih h
    next hfr =>
      rcases mem_cons.mp h with rfl | hta
      · simpa using hfr
      · exact fun hse => ih hta (.tail _ hse)

theorem nodup_keys_distinctBy (items : List α) : ((distinctBy key items).map key).Nodup := by
  suffices h : ∀ seen, ((distinctFrom key seen items).map key).Nodup from h []
  induction items with
  | nil => exact fun _ => .nil
  | cons _ _ ih =>
    intro seen
    unfold distinctFrom
    split
    · exact ih seen
    rw [map_cons, nodup_cons]
    refine ⟨fun hmem => ?_, ih _⟩
    obtain ⟨_, hb, hkey⟩ := mem_map.mp hmem
    exact key_notMem_seen hb (hkey ▸ .head _)

theorem nodup_distinctBy (items : List α) : (distinctBy key items).Nodup :=
  (nodup_keys_distinctBy items).of_map key

theorem distinctBy_eq_self (h : (items.map key).Nodup) : distinctBy key items = items := by
  suffices hgen : ∀ seen, (∀ a ∈ items, key a ∉ seen) →
    distinctFrom key seen items = items from hgen [] (by simp)
  induction items with
  | nil => exact fun _ _ => rfl
  | cons a _ ih =>
    intro seen hs
    rw [map_cons, nodup_cons] at h
    rw [distinctFrom, if_neg (by simpa using hs a (.head _)), ih h.2]
    intro b hb
    rw [mem_cons, not_or]
    exact ⟨fun heq => h.1 (heq ▸ mem_map_of_mem hb), hs b (.tail _ hb)⟩

theorem exists_mem_distinctBy (h : a ∈ items) : ∃ b ∈ distinctBy key items, key b = key a := by
  suffices hgen : ∀ seen, key a ∉ seen → ∃ b ∈ distinctFrom key seen items,
    key b = key a from hgen [] (by simp)
  induction items with
  | nil => cases h
  | cons c rest ih =>
    intro seen hs
    unfold distinctFrom
    by_cases hkey : key c = key a
    · rw [if_neg (by simpa [hkey] using hs)]
      exact ⟨c, .head _, hkey⟩
    have hr : a ∈ rest := (mem_cons.mp h).resolve_left fun heq => hkey (by rw [heq])
    split
    · exact ih hr seen hs
    · obtain ⟨b, hb, hsa⟩ := ih hr (key c :: seen) (by simp [hs, Ne.symm hkey])
      exact ⟨b, .tail _ hb, hsa⟩

/-- Items of one key that are all the same are kept. -/
theorem mem_distinctBy (hkey : ∀ a ∈ items, ∀ b ∈ items, key a = key b → a = b) :
    a ∈ distinctBy key items ↔ a ∈ items := by
  refine ⟨fun h => distinctFrom_sublist.subset h, fun h => ?_⟩
  have hke : ∃ b ∈ distinctBy key items, key b = key a := exists_mem_distinctBy h
  obtain ⟨b, hb, hsa⟩ := hke
  rw [← hkey b (distinctFrom_sublist.subset hb) a h hsa]
  exact hb

theorem distinctBy_perm (hs : ∀ a, a ∈ items ↔ a ∈ items')
    (hkey : ∀ a ∈ items, ∀ b ∈ items, key a = key b → a = b) :
    (distinctBy key items).Perm (distinctBy key items') := by
  rw [perm_ext_iff_of_nodup (nodup_distinctBy items) (nodup_distinctBy items')]
  intro a
  have hkey' : ∀ a ∈ items', ∀ b ∈ items', key a = key b → a = b := fun a ha b hb =>
    hkey a ((hs a).mpr ha) b ((hs b).mpr hb)
  rw [mem_distinctBy hkey, mem_distinctBy hkey', hs]

end

/-- A sort does not depend on the order it is given, where the order tells items apart. -/
theorem insertionSort_eq_of_perm {α : Type} {r : α → α → Prop} [DecidableRel r] [Std.Total r]
    [IsTrans α r] {items items' : List α} (hp : items.Perm items')
    (han : ∀ a ∈ items, ∀ b ∈ items, r a b → r b a → a = b) :
    items.insertionSort r = items'.insertionSort r := by
  refine List.Perm.eq_of_pairwise ?_ (pairwise_insertionSort r _) (pairwise_insertionSort r _) ?_
  · intro a b ha hb
    rw [mem_insertionSort] at ha hb
    exact han a ha b (hp.mem_iff.mpr hb)
  · exact (perm_insertionSort r items).trans (hp.trans (perm_insertionSort r items').symm)

/-- In a list that falls, no choice of as many items is worth less than the end of the list. -/
theorem sum_suffix_le {α : Type} {f : α → Nat} {items chosen : List α} (h : chosen.Sublist items)
    {front suffix : List α} (hso : items.Pairwise fun a b => f b ≤ f a)
    (hs : items = front ++ suffix)
    (hl : suffix.length ≤ chosen.length) : (suffix.map f).sum ≤ (chosen.map f).sum := by
  induction h generalizing front suffix with
  | slnil => simp [(append_eq_nil_iff.mp hs.symm).2]
  | cons _ h ih =>
    cases front with
    | nil =>
      have := h.length_le
      rw [nil_append] at hs
      rw [← hs, length_cons] at hl
      omega
    | cons => exact ih hso.of_cons (cons.inj hs).2 hl
  | @cons_cons _ items a _ ih =>
    cases suffix with
    | nil => simp
    | cons b suffix =>
      obtain ⟨rest, hre⟩ : ∃ rest, items = rest ++ suffix := by
        cases front with
        | nil => exact ⟨[], (cons.inj hs).2⟩
        | cons _ front => exact ⟨front ++ [b], by simpa using (cons.inj hs).2⟩
      have hb : f b ≤ f a := by
        have hmem : b ∈ a :: items := by simp [hs]
        rcases mem_cons.mp hmem with rfl | hmem
        · exact Nat.le_refl _
        · exact rel_of_pairwise_cons hso hmem
      have := ih hso.of_cons hre (Nat.le_of_succ_le_succ hl)
      simp only [map_cons, sum_cons]
      omega

end ZcashVoting.Packing
