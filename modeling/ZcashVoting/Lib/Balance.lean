import Mathlib

/-!
# Least-used selection

Items are used in rounds, and every round takes the least used ones. The uses then stay
within one of each other, so the room below a quota is the quota times the number of
items less what was used: a round fails only when the total is out of reach.
-/
namespace ZcashVoting.Balance

open List

variable {α : Type} {usage : α → Nat} {items selected : List α} {quota n : Nat}

/-- Uses differ by at most one. -/
def Balanced (usage : α → Nat) (items : List α) : Prop :=
    ∀ a ∈ items, ∀ b ∈ items, usage a ≤ usage b + 1

/-- Nothing passed over was used less than what was selected. -/
def LeastUsed (usage : α → Nat) (items selected : List α) : Prop :=
  ∀ a ∈ selected, ∀ b ∈ items, b ∉ selected → usage a ≤ usage b

def used [DecidableEq α] (usage : α → Nat) (selected : List α) (a : α) : Nat :=
  usage a + if a ∈ selected then 1 else 0

/-- The first items of a list sorted by use, where the ones left out by `keep` are used
more than the ones kept. -/
theorem leastUsed_take_filter {keep : α → Bool} (hso : items.Pairwise (usage · ≤ usage ·))
    (hke : ∀ a b, keep a = true → keep b = false → usage a ≤ usage b) :
    LeastUsed usage items ((items.filter keep).take n) := by
  intro a ha b hb hpa
  have hkep : keep a = true := (mem_filter.mp (mem_of_mem_take ha)).2
  cases hb' : keep b with
  | false => exact hke a b hkep hb'
  | true =>
    have hf := hso.filter keep
    rw [← take_append_drop n (items.filter keep), pairwise_append] at hf
    have hmem : b ∈ (items.filter keep).take n ++ (items.filter keep).drop n := by
      rw [take_append_drop]
      exact mem_filter.mpr ⟨hb, hb'⟩
    exact hf.2.2 a ha b ((mem_append.mp hmem).resolve_left hpa)

section

variable [DecidableEq α]

theorem Balanced.used (h : Balanced usage items) (hle : LeastUsed usage items selected) :
    Balanced (used usage selected) items := by
  intro a ha b hb
  have hold := h a ha b hb
  unfold Balance.used
  by_cases hs : a ∈ selected
  · by_cases hse : b ∈ selected
    · rw [if_pos hs, if_pos hse]
      omega
    · have hles := hle a hs b hb hse
      rw [if_pos hs, if_neg hse]
      omega
  · rw [if_neg hs]
    omega

theorem sum_used (hi : items.Nodup) (hse : selected.Nodup) (hsub : selected ⊆ items) :
    (items.map (used usage selected)).sum = (items.map usage).sum + selected.length := by
  have hp : (items.filter (· ∈ selected)).Perm selected := by
    refine (perm_ext_iff_of_nodup (hi.filter _) hse).mpr fun a => ?_
    rw [mem_filter, decide_eq_true_iff]
    exact ⟨And.right, fun ha => ⟨hsub ha, ha⟩⟩
  have hco : (items.map fun a => if a ∈ selected then 1 else 0).sum = selected.length := by
    rw [← hp.length_eq, ← countP_eq_length_filter]
    clear hi hsub hp
    induction items with
    | nil => rfl
    | cons _ _ ih =>
      rw [map_cons, sum_cons, ih, countP_cons, Nat.add_comm]
      simp only [decide_eq_true_eq]
  rw [← hco, ← sum_map_add]
  rfl

end

/-- As long as the total leaves room for `n` more uses, `n` items are below the quota. -/
theorem Balanced.le_length_free (h : Balanced usage items)
    (hro : (items.map usage).sum + n ≤ quota * items.length) (hn : n ≤ items.length) :
    n ≤ (items.filter fun a => decide (usage a < quota)).length := by
  by_cases hf : ∃ a ∈ items, quota ≤ usage a
  · -- one item at the quota puts every other one at most one below it
    obtain ⟨a, ha, _⟩ := hf
    have hne : ∀ b ∈ items, quota ≤ usage b + if usage b < quota then 1 else 0 := by
      intro b hb
      have := h a ha b hb
      split <;> omega
    have hlo : quota * items.length ≤
        (items.map usage).sum + (items.filter fun a => decide (usage a < quota)).length := by
      clear h hro hn ha
      induction items with
      | nil => simp
      | cons b _ ih =>
        have hre := ih fun c hc => hne c (.tail _ hc)
        have hb := hne b (.head _)
        rw [map_cons, sum_cons, length_cons, Nat.mul_succ]
        by_cases hlt : usage b < quota
        · rw [filter_cons_of_pos (by simpa using hlt), length_cons]
          rw [if_pos hlt] at hb
          omega
        · rw [filter_cons_of_neg (by simpa using hlt)]
          omega
    omega
  · rw [filter_eq_self.mpr fun a ha => decide_eq_true (not_le.mp fun hle => hf ⟨a, ha, hle⟩)]
    exact hn

end ZcashVoting.Balance
