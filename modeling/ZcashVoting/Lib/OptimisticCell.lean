import Mathlib

/-!
# Guarded writes by many connections

A cell is shared by connections that each run operations in the optimistic style: read
the cell, compute a guarded write from what was read, and let the write take effect only
where its guard still accepts the cell; otherwise read again. Reads and writes of
different connections interleave in any order.

What an operation computes may also depend on an input `E` it sees at the time of its
read. The cell changes by accepted writes alone, so a run of the whole system is a path
of accepted writes, and a property of a run is proved write by write.
-/
namespace Optimistic

open List

/-- What an operation does once it has read the cell. -/
inductive Attempt (C β : Type) where
  | finish (result : β)
  | swap (guard : C → Bool) (next : C → C) (result : C → β)

/-- An attempt whose write follows its read with no other write in between. -/
def Attempt.Runs {C β : Type} : Attempt C β → C → β → C → Prop
  | finish result, c, r, c' => r = result ∧ c' = c
  | swap guard next result, c, r, c' => guard c = true ∧ r = result c ∧ c' = next c

/-- Operations of a type `O` on a cell of type `C`. -/
structure Operations (C O E : Type) where
  Result : O → Type
  attempt : (op : O) → E → C → Attempt C (Result op)

variable {C O E ι : Type} (A : Operations C O E)

/-- Where a connection stands. -/
inductive Phase where
  | idle
  | loading (op : O)
  | writing (op : O) (attempt : Attempt C (A.Result op))

structure System (ι : Type) where
  cell : C
  phase : ι → Phase A

inductive Event (O E ι : Type) where
  /-- The connection takes up an operation. -/
  | start (i : ι) (op : O)
  /-- The connection reads the cell. -/
  | load (i : ι) (input : E)
  /-- The connection sends its guarded write. -/
  | write (i : ι)
  /-- The connection is dropped. -/
  | drop (i : ι)

/-- The event takes up no operation outside `P`. -/
def Event.Starts (P : O → Prop) : Event O E ι → Prop
  | .start _ op => P op
  | _ => True

variable {A} [DecidableEq ι]

namespace System

def setPhase (s : System A ι) (i : ι) (phase : Phase A) : System A ι :=
  { s with phase := Function.update s.phase i phase }

/-- One event; an event that does not fit the phase of its connection does nothing. -/
def step (s : System A ι) : Event O E ι → System A ι
  | .start i op =>
    match s.phase i with
    | .idle => s.setPhase i (.loading op)
    | _ => s
  | .load i input =>
    match s.phase i with
    | .loading op =>
      match A.attempt op input s.cell with
      | .finish _ => s.setPhase i .idle
      | .swap guard next result => s.setPhase i (.writing op (.swap guard next result))
    | _ => s
  | .write i =>
    match s.phase i with
    | .writing op (.swap guard next _) =>
      if guard s.cell then { s.setPhase i .idle with cell := next s.cell }
      else s.setPhase i (.loading op)
    | _ => s
  | .drop i => s.setPhase i .idle

def run (s : System A ι) (events : List (Event O E ι)) : System A ι := events.foldl step s

/-- Every operation under way satisfies `P`, and every write under way was computed by its
operation from some read. -/
def Computed (P : O → Prop) (s : System A ι) : Prop := (∀ i op, s.phase i = .loading op → P op) ∧
    ∀ i op attempt, s.phase i = .writing op attempt →
      P op ∧ ∃ input read, A.attempt op input read = attempt

end System

/-- The operations whose writes led from one cell to another. -/
inductive Path (A : Operations C O E) : C → List O → C → Prop where
  | nil (c : C) : Path A c [] c
  | cons {c c' : C} {op : O} {ops : List O} {input : E} {read : C} {guard : C → Bool}
      {next : C → C} {result : C → A.Result op}
      (attempt : A.attempt op input read = .swap guard next result) (accepted : guard c = true)
      (rest : Path A (next c) ops c') : Path A c (op :: ops) c'

variable {s : System A ι} {P : O → Prop} {ops : List O}

namespace System

variable {phase : Phase A} {i : ι}

theorem phase_of_setPhase {j : ι} {current : Phase A} (h : (s.setPhase i phase).phase j = current) :
    phase = current ∨ s.phase j = current := by
  simp only [setPhase, Function.update_apply] at h
  split at h
  · exact .inl h
  · exact .inr h

omit [DecidableEq ι] in
theorem computed_of_idle (h : ∀ i, s.phase i = .idle) : s.Computed P := by
  constructor
  · intro i op hi
    rw [h i] at hi
    cases hi
  · intro i op attempt hi
    rw [h i] at hi
    cases hi

theorem Computed.setPhase (h : s.Computed P) (hlo : ∀ op, phase = .loading op → P op)
    (hwr : ∀ op attempt, phase = .writing op attempt →
      P op ∧ ∃ input read, A.attempt op input read = attempt) :
        (s.setPhase i phase).Computed P := by
  constructor
  · intro j op hj
    exact (phase_of_setPhase hj).elim (hlo op) (h.1 j op)
  · intro j op attempt hj
    exact (phase_of_setPhase hj).elim (hwr op attempt) (h.2 j op attempt)

theorem Computed.setIdle (h : s.Computed P) (i : ι) : (s.setPhase i .idle).Computed P :=
  h.setPhase (by simp) (by simp)

theorem Computed.setLoading (h : s.Computed P) (i : ι) {op : O} (hop : P op) :
    (s.setPhase i (.loading op)).Computed P := by
  refine h.setPhase ?_ (by simp)
  intro op' heq
  cases heq
  exact hop

/-- One event keeps the writes under way computed, and changes the cell by at most one
accepted write. -/
theorem Computed.step (h : s.Computed P) {event : Event O E ι} (hev : event.Starts P) :
    (s.step event).Computed P ∧ ∃ ops, (∀ op ∈ ops, P op) ∧
      Path A s.cell ops (s.step event).cell := by
  have hq : ∀ c : C, ∃ ops, (∀ op ∈ ops, P op) ∧ Path A c ops c := fun c => ⟨[], by simp, .nil c⟩
  cases event with
  | start i =>
    simp only [System.step]
    split
    · exact ⟨h.setLoading i hev, hq _⟩
    · exact ⟨h, hq _⟩
  | load i input =>
    simp only [System.step]
    split
    · next op hp =>
      split
      · exact ⟨h.setIdle i, hq _⟩
      next ha =>
      refine ⟨h.setPhase (by simp) ?_, hq _⟩
      intro op' attempt heq
      cases heq
      exact ⟨h.1 i op hp, input, s.cell, ha⟩
    · exact ⟨h, hq _⟩
  | write i =>
    simp only [System.step]
    split
    · next op guard next result hp =>
      obtain ⟨hop, _, _, ha⟩ := h.2 i op _ hp
      split
      · next hgu =>
        have hid := h.setIdle i
        exact ⟨hid, [op], by simpa using hop, .cons ha hgu (.nil _)⟩
      · exact ⟨h.setLoading i hop, hq _⟩
    · exact ⟨h, hq _⟩
  | drop i => exact ⟨h.setIdle i, hq _⟩

end System

theorem Path.trans {c c' c'' : C} {ops' : List O} (h : Path A c ops c')
    (h' : Path A c' ops' c'') : Path A c (ops ++ ops') c'' := by
  induction h with
  | nil => exact h'
  | cons hat hac _ ih => exact .cons hat hac (ih h')

/-- Whatever the interleaving, the cell moves along a path of accepted writes. -/
theorem System.run_path (h : s.Computed P) {events : List (Event O E ι)}
    (he : ∀ event ∈ events, event.Starts P) : (s.run events).Computed P ∧
      ∃ ops, (∀ op ∈ ops, P op) ∧ Path A s.cell ops (s.run events).cell := by
  induction events generalizing s with
  | nil => exact ⟨h, [], by simp, .nil _⟩
  | cons event _ ih =>
    obtain ⟨hst, ops, hops, hpa⟩ := h.step (he event mem_cons_self)
    obtain ⟨hrun, ops', hops', hpa'⟩ := ih hst fun event' hmem => he event' (mem_cons_of_mem _ hmem)
    refine ⟨hrun, ops ++ ops', ?_, hpa.trans hpa'⟩
    intro op hop
    exact (mem_append.mp hop).elim (hops op) (hops' op)

/-- An invariant that each accepted write keeps holds at the end of a path, and a relation
that each accepted write establishes and that composes holds between its ends. -/
theorem Path.induction {I : C → Prop} {R : List O → C → C → Prop} {c c' : C}
    (h : Path A c ops c') (hops : ∀ op ∈ ops, P op) (hI : I c) (refl : ∀ c, R [] c c)
    (write : ∀ op input read guard next result c, P op →
      A.attempt op input read = .swap guard next result → guard c = true → I c →
        I (next c) ∧ R [op] c (next c))
    (trans : ∀ op ops c c' c'', R [op] c c' → R ops c' c'' → R (op :: ops) c c'') :
    I c' ∧ R ops c c' := by
  induction h with
  | nil c => exact ⟨hI, refl c⟩
  | @cons c _ op ops _ _ _ _ _ hat hac _ ih =>
    obtain ⟨hne, hR⟩ := write op _ _ _ _ _ c (hops op mem_cons_self) hat hac hI
    obtain ⟨hla, hre⟩ := ih (fun op' hop' => hops op' (mem_cons_of_mem _ hop')) hne
    exact ⟨hla, trans op ops _ _ _ hR hre⟩

end Optimistic
