import Mathlib

/-!
# Programs that talk to a world, and what holds when they are cut

A program asks the world one command at a time and resumes with the answer. The
world is a relation: for a command and a state it says which answers are possible
and what the state is afterwards. A run may be cut between any two commands, which
is how a process crash looks from outside, so a safety property is stated at every
state some cut of the program can leave behind.

`Safe` computes that obligation over the program text. Its rules follow the
program's own structure: `safe_perform`, `Safe.bind` for sequencing and
`SafeE` with `safeE_bind` for computations that may stop with an error.
-/
namespace Interaction

/-- The commands of an interface, each with the type of its answers. -/
structure Signature where
  Cmd : Type
  Answer : Cmd → Type

/-- A program that asks commands of `S` and returns a value of type `α`. -/
inductive Prog (S : Signature) (α : Type) : Type where
  | ret (a : α) : Prog S α
  | ask (c : S.Cmd) (k : S.Answer c → Prog S α) : Prog S α

variable {S : Signature} {W α β ε : Type}

namespace Prog

def bind : Prog S α → (α → Prog S β) → Prog S β
  | ret a, f => f a
  | ask c k, f => ask c fun r => (k r).bind f

instance : Monad (Prog S) where
  pure := ret
  bind := bind

/-- Asks one command and returns its answer. -/
def perform (c : S.Cmd) : Prog S (S.Answer c) := ask c ret

end Prog

/-- What the world may answer to a command, and the state that answer leaves. -/
abbrev Handler (S : Signature) (W : Type) := (c : S.Cmd) → W → S.Answer c → W → Prop

/-- One command is answered. -/
inductive Step (H : Handler S W) : Prog S α × W → Prog S α × W → Prop where
  | answer {c : S.Cmd} {k : S.Answer c → Prog S α} {w : W} {r : S.Answer c} {w' : W}
      (h : H c w r w') : Step H (.ask c k, w) (k r, w')

/-- Cutting the program `p`, started in `w`, may leave the state `w'`. -/
def CutAt (H : Handler S W) (p : Prog S α) (w w' : W) : Prop :=
  ∃ q : Prog S α, Relation.ReflTransGen (Step H) (p, w) (q, w')

/-- `I` holds at every state the program passes through, the first included, and
`Q` holds of the value and state it returns with. -/
def Safe (H : Handler S W) (I : W → Prop) : Prog S α → (α → W → Prop) → W → Prop
  | .ret a, Q, w => I w ∧ Q a w
  | .ask c k, Q, w => I w ∧ ∀ r w', H c w r w' → Safe H I (k r) Q w'

variable {p : Prog S α}

section

variable {H : Handler S W} {I : W → Prop} {Q Q' : α → W → Prop} {w w' : W} {R : β → W → Prop}
  {q : Prog S α} {c : S.Cmd}

theorem Safe.invariant (h : Safe H I p Q w) : I w := by
  cases p with
  | ret | ask => exact h.1

theorem Safe.mono (h : Safe H I p Q w) (hQ : ∀ a v, I v → Q a v → Q' a v) : Safe H I p Q' w := by
  induction p generalizing w with
  | ret a => exact ⟨h.1, hQ a w h.1 h.2⟩
  | ask _ _ ih => exact ⟨h.1, fun r v hv => ih r (h.2 r v hv)⟩

/-- A weaker invariant holds at the same states. -/
theorem Safe.weakenInvariant {J : W → Prop} (h : Safe H I p Q w) (hJ : ∀ v, I v → J v) :
    Safe H J p Q w := by
  induction p generalizing w with
  | ret => exact ⟨hJ w h.1, h.2⟩
  | ask _ _ ih => exact ⟨hJ w h.1, fun r v hv => ih r (h.2 r v hv)⟩

theorem Safe.bind {f : α → Prog S β}
    (h : Safe H I p (fun a v => Safe H I (f a) R v) w) : Safe H I (p.bind f) R w := by
  induction p generalizing w with
  | ret => exact h.2
  | ask _ _ ih => exact ⟨h.1, fun r v hv => ih r (h.2 r v hv)⟩

theorem safe_perform {Q : S.Answer c → W → Prop} (hI : I w)
    (h : ∀ r v, H c w r v → I v ∧ Q r v) : Safe H I (Prog.perform c) Q w :=
  ⟨hI, h⟩

theorem Safe.step (h : Safe H I p Q w) (hs : Step H (p, w) (q, w')) : Safe H I q Q w' := by
  cases hs with
  | answer hc => exact h.2 _ _ hc

theorem Safe.steps (h : Safe H I p Q w) (hs : Relation.ReflTransGen (Step H) (p, w) (q, w')) :
    Safe H I q Q w' := by
  generalize hx : (p, w) = x at hs
  generalize hy : (q, w') = y at hs
  induction hs generalizing q w' with
  | refl => cases hx; cases hy; exact h
  | tail _ hla ih =>
    subst hy
    exact (ih rfl).step hla

theorem Safe.of_cutAt (h : Safe H I p Q w) (hc : CutAt H p w w') : I w' := by
  obtain ⟨_, hq⟩ := hc
  exact (h.steps hq).invariant

end

section

/-- Runs a program for at most `fuel` commands against fixed answers. -/
def Prog.play (answer : (c : S.Cmd) → W → S.Answer c × W) : Nat → Prog S α → W → W
  | 0, _, w => w
  | _ + 1, .ret _, w => w
  | fuel + 1, .ask c k, w => (k (answer c w).1).play answer fuel (answer c w).2

/-- Playing answers the world may give is a cut of the program. -/
theorem cutAt_play {H : Handler S W} {answer : (c : S.Cmd) → W → S.Answer c × W}
    (h : ∀ c w, H c w (answer c w).1 (answer c w).2) (fuel : Nat) (p : Prog S α) (w : W) :
    CutAt H p w (p.play answer fuel w) := by
  induction fuel generalizing p w with
  | zero => exact ⟨p, .refl⟩
  | succ _ ih =>
    cases p with
    | ret a => exact ⟨.ret a, .refl⟩
    | ask c k =>
      obtain ⟨q, hq⟩ := ih (k (answer c w).1) (answer c w).2
      exact ⟨q, .head (.answer (h c w)) hq⟩

end

section

/-! ### Computations that may stop with an error -/

/-- `Safe` for a computation that returns `Q` or stops with an error satisfying `E`. -/
def SafeE (H : Handler S W) (I : W → Prop) (m : ExceptT ε (Prog S) α)
    (Q : α → W → Prop) (E : ε → W → Prop) (w : W) : Prop :=
  Safe H I m.run (fun r v => match r with | .ok a => Q a v | .error e => E e v) w

variable {H : Handler S W} {I : W → Prop} {Q Q' : α → W → Prop} {E : ε → W → Prop} {w : W}

theorem safeE_pure {a : α} (hI : I w) (h : Q a w) :
    SafeE H I (pure a : ExceptT ε (Prog S) α) Q E w := ⟨hI, h⟩

theorem safeE_throw {e : ε} (hI : I w) (h : E e w) :
    SafeE H I (throw e : ExceptT ε (Prog S) α) Q E w := ⟨hI, h⟩

variable {m : ExceptT ε (Prog S) α} {E' : ε → W → Prop}

theorem safeE_bind {f : α → ExceptT ε (Prog S) β}
    (h : SafeE H I m (fun a v => SafeE H I (f a) R E v) E w) : SafeE H I (m >>= f) R E w := by
  refine Safe.bind (Safe.mono h ?_)
  rintro (e | a) v hI hv
  · exact ⟨hI, hv⟩
  · exact hv

theorem safeE_lift (h : Safe H I p Q w) : SafeE H I (liftM p : ExceptT ε (Prog S) α) Q E w := by
  refine Safe.bind (Safe.mono h ?_)
  intro a v hI hv
  exact ⟨hI, hv⟩

theorem SafeE.mono (h : SafeE H I m Q E w) (hQ : ∀ a v, I v → Q a v → Q' a v) :
    SafeE H I m Q' E w := by
  refine Safe.mono h ?_
  rintro (e | a) v hI hv
  · exact hv
  · exact hQ a v hI hv

theorem SafeE.weaken (h : SafeE H I m Q E w) (hE : ∀ e v, I v → E e v → E' e v) :
    SafeE H I m Q E' w := by
  refine Safe.mono h ?_
  rintro (e | a) v hI hv
  · exact hE e v hI hv
  · exact hv

theorem safeE_adapt {g : ε → ε} (h : SafeE H I m Q E w) (hE : ∀ e v, I v → E e v → E (g e) v) :
    SafeE H I (m.adapt g) Q E w := by
  refine Safe.bind (Safe.mono h ?_)
  rintro (e | a) v hI hv
  · exact ⟨hI, hE e v hI hv⟩
  · exact ⟨hI, hv⟩

theorem safeE_tryCatch {handle : ε → ExceptT ε (Prog S) α}
    (h : SafeE H I m Q (fun e v => SafeE H I (handle e) Q E' v) w) :
    SafeE H I (tryCatch m handle) Q E' w := by
  refine Safe.bind (Safe.mono h ?_)
  rintro (e | a) v hI hv
  · exact hv
  · exact ⟨hI, hv⟩

end

end Interaction
