import Mathlib

/-!
# Searching a pattern with a sliding window

A pattern is searched in a stream of elements by keeping the last few of them. The
finder stops at a second occurrence, overlapping or not; until then it holds the only
one. `visitFrom` is the loop that hands it the elements with their running count.
-/
namespace ZcashVoting.Occurrence

open List

variable {α ε μ : Type} {pat xs ys : List α} {p q : Nat} {a : α}

/-- The pattern stands at position `p`. -/
def OccursAt (pat xs : List α) (p : Nat) : Prop := pat <+: xs.drop p

theorem OccursAt.append (h : OccursAt pat xs p) : OccursAt pat (xs ++ ys) p := by
  unfold OccursAt at h ⊢
  rw [drop_append]
  exact h.trans (prefix_append _ _)

theorem OccursAt.le_length (hpat : pat ≠ []) (h : OccursAt pat xs p) :
    p + pat.length ≤ xs.length := by
  have hle := h.length_le
  have hpos := length_pos_iff.mpr hpat
  rw [length_drop] at hle
  omega

/-- The last elements, at most `n` of them. -/
def lastN (n : Nat) (xs : List α) : List α := xs.drop (xs.length - n)

/-- A new element enters a window of `n`, and the oldest leaves. -/
def slide (n : Nat) (window : List α) (a : α) : List α :=
  if n < (window ++ [a]).length then (window ++ [a]).tail else window ++ [a]

theorem slide_lastN {n : Nat} : slide n (lastN n xs) a = lastN n (xs ++ [a]) := by
  have hwi : lastN n xs ++ [a] = (xs ++ [a]).drop (xs.length - n) := by
    rw [lastN, drop_append, Nat.sub_eq_zero_of_le (Nat.sub_le _ _), drop_zero]
  rw [slide, hwi, length_drop, length_append, length_singleton]
  unfold lastN
  rw [length_append, length_singleton]
  split
  · rw [tail_drop]
    congr 1
    omega
  · congr 1
    omega

/-- A longer list has the occurrences of the shorter one and perhaps one at its end. -/
theorem occursAt_concat (hpat : pat ≠ []) : OccursAt pat (xs ++ [a]) p ↔
    OccursAt pat xs p ∨ lastN pat.length (xs ++ [a]) = pat ∧ p + pat.length = xs.length + 1 := by
  constructor
  · intro h
    have hle := h.le_length hpat
    rw [length_append, length_singleton] at hle
    by_cases hend : p + pat.length = xs.length + 1
    · refine .inr ⟨?_, hend⟩
      have hs : (xs ++ [a]).length - pat.length = p := by
        rw [length_append, length_singleton]
        omega
      rw [lastN, hs]
      refine (h.eq_of_length ?_).symm
      rw [length_drop, length_append, length_singleton]
      omega
    · refine .inl ?_
      unfold OccursAt at h ⊢
      rw [drop_append, Nat.sub_eq_zero_of_le (by omega), drop_zero] at h
      exact prefix_of_prefix_length_le h (prefix_append _ _) (by rw [length_drop]; omega)
  · rintro (h | ⟨hl, hend⟩)
    · exact h.append
    have hs : (xs ++ [a]).length - pat.length = p := by
      rw [length_append, length_singleton]
      omega
    rw [lastN, hs] at hl
    unfold OccursAt
    rw [hl]

/-! ### Visiting a stream -/

/-- Hands elements to a visitor that may stop, with the count of those handed out. -/
def visitFrom (visit : μ → Nat → α → Except ε μ) : Nat → μ → List α → Except ε μ
  | _, m, [] => .ok m
  | count, m, a :: rest =>
    match visit m (count + 1) a with
    | .ok m' => visitFrom visit (count + 1) m' rest
    | .error e => .error e

theorem visitFrom_append {visit : μ → Nat → α → Except ε μ} {count : Nat} {m : μ} :
    visitFrom visit count m (xs ++ ys) = match visitFrom visit count m xs with
      | .ok m' => visitFrom visit (count + xs.length) m' ys | .error e => .error e := by
  induction xs generalizing count m with
  | nil => rfl
  | cons a _ ih =>
    rw [cons_append, visitFrom, visitFrom]
    cases visit m (count + 1) a with
    | error => rfl
    | ok =>
      simp only [ih, length_cons]
      rw [Nat.add_right_comm count 1, Nat.add_assoc]

/-! ### Elements with what stands before them -/

/-- Every element of `xs` is as it must be after `done` and the elements before it. -/
def EachAfter (P : List α → α → Prop) (done xs : List α) : Prop :=
  ∀ before x after, xs = before ++ x :: after → P (done ++ before) x

theorem eachAfter_nil {P : List α → α → Prop} : EachAfter P ys [] :=
  fun _ _ _ h => absurd h.symm (by simp)

theorem eachAfter_cons {P : List α → α → Prop} :
    EachAfter P ys (a :: xs) ↔ P ys a ∧ EachAfter P (ys ++ [a]) xs := by
  constructor
  · intro h
    refine ⟨by simpa using h [] a xs rfl, fun before x after heq => ?_⟩
    simpa using h (a :: before) x after (by simp [heq])
  · rintro ⟨ha, h⟩ (_ | ⟨b, before⟩) x after heq
    · obtain ⟨rfl, -⟩ := cons.inj heq
      simpa using ha
    · obtain ⟨rfl, hrest⟩ := cons.inj heq
      simpa using h before x after hrest

theorem eachAfter_append {P : List α → α → Prop} {zs : List α} :
    EachAfter P ys (xs ++ zs) ↔ EachAfter P ys xs ∧ EachAfter P (ys ++ xs) zs := by
  induction xs generalizing ys with
  | nil => simp [eachAfter_nil]
  | cons a _ ih =>
    rw [cons_append, eachAfter_cons, eachAfter_cons, ih, and_assoc, append_assoc, singleton_append]

/-! ### The finder -/

structure Finder (α : Type) where
  window : List α
  found : Option Nat

/-- One element, the `count`-th of the stream; a second occurrence is the error `twice`. -/
def Finder.see [DecidableEq α] (twice : ε) (pat : List α) (finder : Finder α)
    (count : Nat) (a : α) :
    Except ε (Finder α) :=
  let window := slide pat.length finder.window a
  if window = pat then
    if finder.found.isSome then .error twice else .ok ⟨window, some (count - pat.length)⟩
  else .ok ⟨window, finder.found⟩

def Finder.start : Finder α := ⟨[], none⟩

/-- The finder holds the last elements and the only occurrence among those seen. -/
structure Finder.Tracks (pat xs : List α) (finder : Finder α) : Prop where
  window : finder.window = lastN pat.length xs
  absent : finder.found = none → ∀ p, ¬ OccursAt pat xs p
  unique : ∀ p, finder.found = some p → ∀ q, OccursAt pat xs q ↔ q = p

theorem Finder.tracks_start (hpat : pat ≠ []) : (Finder.start : Finder α).Tracks pat [] where
  window := drop_nil.symm
  absent := fun _ p h => by
    have hle := h.le_length hpat
    have hpos := length_pos_iff.mpr hpat
    rw [length_nil] at hle
    omega
  unique := nofun

variable [DecidableEq α] {twice e : ε} {finder finder' : Finder α}

/-- What the finder says of a whole stream. -/
inductive Finder.Verdict (twice : ε) (pat xs : List α) : Except ε (Finder α) → Prop where
  | tracked {finder : Finder α} (h : finder.Tracks pat xs) : Verdict twice pat xs (.ok finder)
  | twice (p q : Nat) (hne : p ≠ q) (hp : OccursAt pat xs p) (hq : OccursAt pat xs q) :
    Verdict twice pat xs (.error twice)

theorem Finder.Tracks.see (hpat : pat ≠ []) (h : finder.Tracks pat xs) :
    Finder.Verdict twice pat (xs ++ [a]) (finder.see twice pat (xs.length + 1) a) := by
  have hwi : slide pat.length finder.window a = lastN pat.length (xs ++ [a]) := by
    rw [h.window, slide_lastN]
  simp only [Finder.see, hwi]
  split
  next hm =>
    have hlen := congrArg List.length hm
    rw [lastN, length_drop, length_append, length_singleton] at hlen
    cases hf : finder.found with
    | some p =>
      have hold := (h.unique p hf p).mpr rfl
      have hle := hold.le_length hpat
      refine .twice p (xs.length + 1 - pat.length) (by omega) hold.append ?_
      exact (occursAt_concat hpat).mpr (.inr ⟨hm, by omega⟩)
    | none =>
      refine .tracked ⟨rfl, fun ha => absurd ha (Option.some_ne_none _), fun p hp q => ?_⟩
      rw [occursAt_concat hpat, ← Option.some.inj hp]
      constructor
      · rintro (hold | ⟨-, hend⟩)
        · exact absurd hold (h.absent hf q)
        · omega
      · exact fun hq => .inr ⟨hm, by omega⟩
  next hm =>
    have hs : ∀ q, OccursAt pat (xs ++ [a]) q ↔ OccursAt pat xs q := fun q => by
      rw [occursAt_concat hpat]
      exact ⟨fun hq => hq.resolve_right fun hend => hm hend.1, .inl⟩
    exact .tracked ⟨rfl, fun ha p hp => h.absent ha p ((hs p).mp hp),
      fun p hp q => (hs q).trans (h.unique p hp q)⟩

theorem Finder.Tracks.visitFrom (hpat : pat ≠ []) (h : finder.Tracks pat xs) :
    Finder.Verdict twice pat (xs ++ ys) (visitFrom (Finder.see twice pat) xs.length finder ys) := by
  induction ys generalizing xs finder with
  | nil =>
    rw [append_nil]
    exact .tracked h
  | cons a rest ih =>
    rw [Occurrence.visitFrom, append_cons]
    have hst : Finder.Verdict twice pat (xs ++ [a]) (finder.see twice pat (xs.length + 1) a) :=
      h.see hpat
    generalize finder.see twice pat (xs.length + 1) a = result at hst ⊢
    cases hst with
    | tracked h =>
      have hn := ih h
      rw [length_append, length_singleton] at hn
      exact hn
    | twice p q hne hp hq => exact .twice p q hne hp.append hq.append

end ZcashVoting.Occurrence
