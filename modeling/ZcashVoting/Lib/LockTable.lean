import Mathlib
import ZcashVoting.Lib.KeyedMap

/-!
# Locks created on demand and taken in order

Tasks take locks one after another, each for a request whose plan lists the keys. A lock
is created when its key is first looked up and lives as long as a task refers to it: a
registry keeps it weakly and forgets dead locks. A task that waits is queued; another
kind of task gives up when a lock is taken. Any task may be dropped at any point and then
releases what it holds, one lock after another and in any order.

Whatever the interleaving, a live lock is the one its registry names, so a key has at most
one, and an exclusive holder is alone. If every plan goes up in some order, the waits
have no cycle.
-/
namespace ZcashVoting.Locks

open KeyedData List KeyedMap

set_option linter.unusedSectionVars false

variable {ρ κ : Type}

/-! ### Tasks -/

/-- A lock under its key, held or asked for. -/
structure Guard (κ : Type) where
  key : κ
  exclusive : Bool
  lock : Nat
  deriving DecidableEq

def Guard.claim (guard : Guard κ) : κ × Bool := (guard.key, guard.exclusive)

inductive Phase (κ : Type) where
  /-- Before the next look-up, or with every lock held. -/
  | ready
  /-- The lock is looked up and not yet asked for. -/
  | asked (guard : Guard κ)
  | waiting (guard : Guard κ)
  /-- Given up, dropped or over. What is left is being released. -/
  | ended

/-- The lock a task refers to without holding it. -/
def Phase.pending : Phase κ → List (Guard κ)
  | .ready => []
  | .asked guard => [guard]
  | .waiting guard => [guard]
  | .ended => []

structure Task (ρ κ : Type) where
  request : ρ
  guards : List (Guard κ)
  phase : Phase κ
  remaining : List (κ × Bool)

/-- The strong references of a task. -/
def Task.references (task : Task ρ κ) : List (Guard κ) := task.guards ++ task.phase.pending

def Task.take (task : Task ρ κ) (guard : Guard κ) : Task ρ κ :=
  { task with guards := task.guards ++ [guard], phase := .ready }

/-- How requests take locks. -/
structure Discipline (ρ κ : Type) where
  /-- The keys in order, each with whether it is taken exclusively. -/
  plan : ρ → List (κ × Bool)
  /-- Whether the request waits for a lock or gives up. -/
  waits : ρ → Bool
  /-- The registry that holds the lock of a key. -/
  registryOf : κ → Nat

/-- The registries, as one map, with the tasks and the order in which tasks wait. -/
structure Table (ρ κ : Type) where
  registry : KeyedMap κ Nat
  next : Nat
  tasks : KeyedMap Nat (Task ρ κ)
  queue : List Nat

namespace Table

variable [DecidableEq κ] (d : Discipline ρ κ) (t : Table ρ κ)

def empty : Table ρ κ := ⟨⟨[], by simp⟩, 0, ⟨[], by simp⟩, []⟩

def setTask (id : Nat) (task : Task ρ κ) : Table ρ κ := { t with tasks := t.tasks.set id task }

/-- Some task refers to the lock. -/
def live (lock : Nat) : Bool :=
  t.tasks.entries.any fun entry => entry.2.references.any fun guard => guard.lock = lock

/-- The look-up of `key` drops the dead locks of its own registry only. -/
def retains (key other : κ) : Bool :=
    d.registryOf other ≠ d.registryOf key || (t.registry.get? other).any t.live

def retained (key : κ) : KeyedMap κ Nat := t.registry.filterKeys (t.retains d key)

/-- The live lock of the key, or a new one. -/
def sharedLock (key : κ) : Nat × Table ρ κ :=
  match (t.retained d key).get? key with
  | some lock => (lock, { t with registry := t.retained d key })
  | none => (t.next, { t with registry := (t.retained d key).set key t.next, next := t.next + 1 })

/-- No holder stands in the way. -/
def available (guard : Guard κ) : Bool := t.tasks.entries.all fun entry =>
    entry.2.guards.all fun held =>
    held.lock ≠ guard.lock || (!held.exclusive && !guard.exclusive)

end Table

/-! ### Steps -/

inductive Action (ρ : Type) where
  | spawn (id : Nat) (request : ρ)
  | lookUp (id : Nat)
  | enqueue (id : Nat)
  | attempt (id : Nat)
  | grant (id : Nat)
  | drop (id : Nat)
  | release (id lock : Nat)

namespace Table

variable [DecidableEq κ] (d : Discipline ρ κ) (t : Table ρ κ)

def lookUp (id : Nat) (task : Task ρ κ) : Option (Table ρ κ) :=
  match task.phase, task.remaining with
  | .ready, (key, exclusive) :: rest =>
    let found := t.sharedLock d key
    some (found.2.setTask id { task with phase := .asked ⟨key, exclusive, found.1⟩, remaining := rest })
  | _, _ => none

def enqueue (id : Nat) (task : Task ρ κ) : Option (Table ρ κ) :=
  match task.phase with
  | .asked guard =>
    if d.waits task.request then
      some { t.setTask id { task with phase := .waiting guard } with queue := t.queue ++ [id] }
    else none
  | _ => none

def attempt (id : Nat) (task : Task ρ κ) : Option (Table ρ κ) :=
  match task.phase with
  | .asked guard =>
    if d.waits task.request then none
    else if t.available guard then some (t.setTask id (task.take guard))
    else some (t.setTask id { task with phase := .ended })
  | _ => none

def grant (id : Nat) (task : Task ρ κ) : Option (Table ρ κ) :=
  match task.phase with
  | .waiting guard =>
    if t.available guard then some { t.setTask id (task.take guard) with queue := t.queue.erase id } else none
  | _ => none

def drop (id : Nat) (task : Task ρ κ) : Option (Table ρ κ) :=
  some { t.setTask id { task with phase := .ended } with queue := t.queue.erase id }

def release (id lock : Nat) (task : Task ρ κ) : Option (Table ρ κ) :=
  match task.phase with
  | .ended =>
      some (t.setTask id { task with guards := task.guards.filter fun guard => guard.lock ≠ lock })
  | _ => none

def step : Action ρ → Option (Table ρ κ)
  | .spawn id request =>
    if (t.tasks.get? id).isSome then none
    else some (t.setTask id ⟨request, [], .ready, d.plan request⟩)
  | .lookUp id => (t.tasks.get? id).bind (t.lookUp d id)
  | .enqueue id => (t.tasks.get? id).bind (t.enqueue d id)
  | .attempt id => (t.tasks.get? id).bind (t.attempt d id)
  | .grant id => (t.tasks.get? id).bind (t.grant id)
  | .drop id => (t.tasks.get? id).bind (t.drop id)
  | .release id lock => (t.tasks.get? id).bind (t.release id lock)

/-- The table after a run, if every action of it can be taken. -/
def run (actions : List (Action ρ)) : Option (Table ρ κ) :=
    actions.foldlM (fun t action => t.step d action) empty

end Table

/-! ### What a step changes -/

/-- The references of a task and what it will still ask for make up its plan. -/
structure Task.Follows (d : Discipline ρ κ) (task : Task ρ κ) : Prop where
  planned : (task.references.map Guard.claim).Sublist (d.plan task.request)
  complete : task.phase ≠ .ended → task.references.map Guard.claim ++
    task.remaining = d.plan task.request

variable {d : Discipline ρ κ} {task old : Task ρ κ} {id i lock j : Nat} {queue : List Nat}
  {guard : Guard κ} {key key' : κ} {exclusive : Bool}

theorem Task.Follows.ended (h : task.Follows d) (guards : List (Guard κ))
    (hsub : guards.Sublist task.guards) :
    Task.Follows d { task with guards := guards, phase := .ended } := by
  refine ⟨?_, fun hph => absurd rfl hph⟩
  have hre : (guards ++ []).Sublist task.references := hsub.append (nil_sublist task.phase.pending)
  exact (hre.map Guard.claim).trans h.planned

variable [DecidableEq κ] {t t' : Table ρ κ} {actions : List (Action ρ)} {action : Action ρ}
  {other : κ}

/-- A step looks up a lock, takes one, or changes a task without new references. -/
inductive Change (d : Discipline ρ κ) (t : Table ρ κ) : Table ρ κ → Prop
  | keep {id : Nat} {task : Task ρ κ} {queue : List Nat}
      (references : ∀ guard ∈ task.references, ∃ old, t.tasks.get? id = some old ∧
        guard ∈ old.references)
      (guards : ∀ guard ∈ task.guards, ∃ old, t.tasks.get? id = some old ∧ guard ∈ old.guards)
      (follows : (∀ old, t.tasks.get? id = some old → old.Follows d) → task.Follows d) :
      Change d t { t.setTask id task with queue := queue }
  | take {id : Nat} {old : Task ρ κ} {guard : Guard κ} {queue : List Nat}
      (stored : t.tasks.get? id = some old)
      (pending : old.phase.pending = [guard]) (free : t.available guard = true) :
      Change d t { t.setTask id (old.take guard) with queue := queue }
  | lookUp {id : Nat} {old : Task ρ κ} {key : κ} {exclusive : Bool} {rest : List (κ × Bool)}
      (stored : t.tasks.get? id = some old) (ready : old.phase = .ready)
      (remaining : old.remaining = (key, exclusive) :: rest) :
      Change d t ((t.sharedLock d key).2.setTask id
        { old with phase := .asked ⟨key, exclusive, (t.sharedLock d key).1⟩, remaining := rest })

theorem change_ended {guards : List (Guard κ)} (hs : t.tasks.get? id = some old)
    (hsub : guards.Sublist old.guards) :
    Change d t { t.setTask id { old with guards := guards, phase := .ended } with queue := queue } := by
  refine .keep (fun guard hmem => ⟨old, hs, ?_⟩) (fun guard hmem => ⟨old, hs, hsub.mem hmem⟩) ?_
  · have hmem : guard ∈ guards := by simpa [Task.references, Phase.pending] using hmem
    exact mem_append_left _ (hsub.mem hmem)
  · intro hfo
    exact (hfo old hs).ended guards hsub

theorem step_change (h : t.step d action = some t') : Change d t t' := by
  cases action with
  | spawn =>
    simp only [Table.step] at h
    split at h
    · cases h
    cases h
    refine .keep (fun guard hmem => ?_) (fun guard hmem => ?_) fun _ => ⟨?_, fun _ => rfl⟩
    · simp [Task.references, Phase.pending] at hmem
    · simp at hmem
    · exact nil_sublist _
  | lookUp =>
    obtain ⟨old, hs, h⟩ := Option.bind_eq_some_iff.mp h
    unfold Table.lookUp at h
    split at h
    · next key exclusive rest hrea hre =>
      cases h
      exact .lookUp hs hrea hre
    · cases h
  | enqueue =>
    obtain ⟨old, hs, h⟩ := Option.bind_eq_some_iff.mp h
    unfold Table.enqueue at h
    split at h
    · next guard hp =>
      split at h
      · cases h
        have hr : old.guards ++ [guard] = old.references := by
          rw [Task.references, hp]
          rfl
        refine .keep (fun other hmem => ⟨old, hs, ?_⟩) (fun other hmem => ⟨old, hs, hmem⟩) ?_
        · rw [← hr]
          exact hmem
        intro hfo
        obtain ⟨hpl, hc⟩ := hfo old hs
        rw [← hr] at hpl hc
        exact ⟨hpl, fun _ => hc (by rw [hp]; simp)⟩
      · cases h
    · cases h
  | attempt =>
    obtain ⟨old, hs, h⟩ := Option.bind_eq_some_iff.mp h
    unfold Table.attempt at h
    split at h
    · next guard hp =>
      split at h
      · cases h
      split at h
      · next hf =>
        cases h
        exact .take hs (by rw [hp]; rfl) hf
      · cases h
        exact change_ended hs (List.Sublist.refl _)
    · cases h
  | grant =>
    obtain ⟨old, hs, h⟩ := Option.bind_eq_some_iff.mp h
    unfold Table.grant at h
    split at h
    · next guard hp =>
      split at h
      · next hf =>
        cases h
        exact .take hs (by rw [hp]; rfl) hf
      · cases h
    · cases h
  | drop =>
    obtain ⟨old, hs, h⟩ := Option.bind_eq_some_iff.mp h
    cases h
    exact change_ended hs (List.Sublist.refl _)
  | release _ lock =>
    obtain ⟨old, hs, h⟩ := Option.bind_eq_some_iff.mp h
    unfold Table.release at h
    split at h
    · next hp =>
      cases h
      have hold :
          { old with guards := old.guards.filter (·.lock ≠ lock), phase := .ended } =
          { old with guards := old.guards.filter fun guard => guard.lock ≠ lock } := by
        rw [← hp]
      rw [← hold]
      exact change_ended hs filter_sublist
    · cases h

/-! ### Invariant -/

/-- A live lock is the one its registry names, and an exclusive holder is alone. -/
structure Valid (d : Discipline ρ κ) (t : Table ρ κ) : Prop where
  follows : ∀ {i task}, t.tasks.get? i = some task → task.Follows d
  registered : ∀ {i task guard}, t.tasks.get? i = some task → guard ∈ task.references →
    t.registry.get? guard.key = some guard.lock
  fresh : ∀ {key lock}, t.registry.get? key = some lock → lock < t.next
  distinct : ∀ {key key' lock}, t.registry.get? key = some lock → t.registry.get? key' = some lock →
    key = key'
  exclusion : ∀ {i j task other guard held}, t.tasks.get? i = some task →
    t.tasks.get? j = some other → i ≠ j →
    guard ∈ task.guards → held ∈ other.guards → guard.lock = held.lock →
    guard.exclusive = false ∧ held.exclusive = false

theorem valid_empty : Valid d Table.empty where
  follows h := nomatch h
  registered h := nomatch h
  fresh h := nomatch h
  distinct h := nomatch h
  exclusion h := nomatch h

theorem live_of_reference (hst : t.tasks.get? i = some task) (hmem : guard ∈ task.references) :
    t.live guard.lock = true := by
  rw [Table.live, any_eq_true]
  refine ⟨(i, task), mem_entries_of_get? hst, ?_⟩
  rw [any_eq_true]
  exact ⟨guard, hmem, by simp⟩

theorem available_apply {held : Guard κ} (h : t.available guard = true)
    (hst : t.tasks.get? i = some task) (hmem : held ∈ task.guards)
    (hlo : held.lock = guard.lock) : held.exclusive = false ∧ guard.exclusive = false := by
  rw [Table.available, all_eq_true] at h
  have hta := all_eq_true.mp (h (i, task) (mem_entries_of_get? hst)) held hmem
  simpa [hlo] using hta

/-- What a registry keeps it had before, and it keeps the locks that are referred to. -/
theorem retained_some (h : (t.retained d key).get? other = some lock) :
    t.registry.get? other = some lock := by
  cases hk : t.retains d key other with
  | true => rwa [Table.retained, get?_filterKeys hk] at h
  | false =>
    rw [Table.retained, get?_filterKeys_eq_none hk] at h
    cases h

theorem retained_of_live (h : t.registry.get? other = some lock)
    (hli : t.live lock = true) : (t.retained d key).get? other = some lock := by
  have hke : t.retains d key other = true := by simp [Table.retains, h, hli]
  rw [Table.retained, get?_filterKeys hke, h]

/-- What a look-up leaves: the key names the lock it returns, live locks stay named, and a
lock is named under one key only. -/
structure Found (t : Table ρ κ) (key : κ) (found : Nat × Table ρ κ) : Prop where
  tasks : found.2.tasks = t.tasks
  named : found.2.registry.get? key = some found.1
  kept : ∀ {other lock}, t.registry.get? other = some lock → t.live lock = true →
    found.2.registry.get? other = some lock
  fresh : ∀ {other lock}, found.2.registry.get? other = some lock → lock < found.2.next
  distinct : ∀ {other other' lock}, found.2.registry.get? other = some lock →
    found.2.registry.get? other' = some lock → other = other'

theorem Valid.sharedLock_found (h : Valid d t) (key : κ) : Found t key (t.sharedLock d key) := by
  unfold Table.sharedLock
  split
  · next lock hlo =>
    exact {
      tasks := rfl
      named := hlo
      kept := fun ho hl => retained_of_live ho hl
      fresh := fun ho => h.fresh (retained_some ho)
      distinct := fun ho ho' => h.distinct (retained_some ho) (retained_some ho') }
  · next hno =>
    have hb {other : κ} {lock : Nat} (ho : (t.retained d key).get? other = some lock) :
        lock < t.next :=
      h.fresh (retained_some ho)
    refine ⟨rfl, get?_set_self, ?_, ?_, ?_⟩
    · intro other lock ho hl
      have hr : (t.retained d key).get? other = some lock := retained_of_live ho hl
      have hne : other ≠ key := by
        rintro rfl
        rw [hno] at hr
        cases hr
      rw [get?_set_of_ne hne]
      exact hr
    · intro other lock ho
      rw [get?_set] at ho
      split at ho
      · cases ho
        exact Nat.lt_succ_self _
      · exact Nat.lt_succ_of_lt (hb ho)
    · intro other other' lock ho ho'
      rw [get?_set] at ho ho'
      split at ho <;> split at ho'
      · next hkey hkey' => rw [hkey, hkey']
      · cases ho
        exact absurd (hb ho') (Nat.lt_irrefl _)
      · cases ho'
        exact absurd (hb ho) (Nat.lt_irrefl _)
      · exact h.distinct (retained_some ho) (retained_some ho')

theorem setTask_cases {found : Task ρ κ} {tasks : KeyedMap Nat (Task ρ κ)}
    (h : (tasks.set id task).get? i = some found) :
    i = id ∧ found = task ∨ i ≠ id ∧ tasks.get? i = some found := by
  rw [get?_set] at h
  split at h
  · next heq => exact .inl ⟨heq, (Option.some.inj h).symm⟩
  · next hne => exact .inr ⟨hne, h⟩

/-- A table in which one task is replaced and the registry may name more. -/
theorem Valid.set (h : Valid d t) (hts : t'.tasks = t.tasks) (hfo : task.Follows d)
    (hre : ∀ guard ∈ task.references, t'.registry.get? guard.key = some guard.lock)
    (hke : ∀ {i task guard}, t.tasks.get? i = some task → guard ∈ task.references →
      t'.registry.get? guard.key = some guard.lock)
    (hfr : ∀ {key lock}, t'.registry.get? key = some lock → lock < t'.next)
    (hdi : ∀ {key key' lock}, t'.registry.get? key = some lock → t'.registry.get? key' = some lock →
      key = key')
    (hex : ∀ {j other guard held}, t.tasks.get? j = some other → id ≠ j → guard ∈ task.guards →
      held ∈ other.guards → guard.lock = held.lock →
        guard.exclusive = false ∧ held.exclusive = false) :
    Valid d { t'.setTask id task with queue := queue } where
  follows hi := by
    rcases setTask_cases hi with ⟨rfl, rfl⟩ | ⟨-, hi'⟩
    · exact hfo
    · exact h.follows (hts ▸ hi')
  registered hi hmem := by
    rcases setTask_cases hi with ⟨rfl, rfl⟩ | ⟨-, hi'⟩
    · exact hre _ hmem
    · exact hke (hts ▸ hi') hmem
  fresh := hfr
  distinct := hdi
  exclusion hi hj hne hg hh hl := by
    rcases setTask_cases hi with ⟨rfl, rfl⟩ | ⟨-, hi'⟩ <;>
      rcases setTask_cases hj with ⟨rfl, rfl⟩ | ⟨-, hj'⟩
    · exact absurd rfl hne
    · exact hex (hts ▸ hj') hne hg hh hl
    · exact (hex (hts ▸ hi') hne.symm hh hg hl.symm).symm
    · exact h.exclusion (hts ▸ hi') (hts ▸ hj') hne hg hh hl

theorem Valid.keep (h : Valid d t)
    (hre : ∀ guard ∈ task.references, ∃ old, t.tasks.get? id = some old ∧ guard ∈ old.references)
    (hgu : ∀ guard ∈ task.guards, ∃ old, t.tasks.get? id = some old ∧ guard ∈ old.guards)
    (hfo : task.Follows d) : Valid d { t.setTask id task with queue := queue } := by
  refine h.set rfl hfo ?_ h.registered h.fresh h.distinct ?_
  · intro guard hmem
    obtain ⟨_, hold, hmem⟩ := hre guard hmem
    exact h.registered hold hmem
  · intro j other guard held hj hne hg
    obtain ⟨_, hold, hg⟩ := hgu guard hg
    exact h.exclusion hold hj hne hg

theorem take_references (hpe : old.phase.pending = [guard]) :
    (old.take guard).references = old.references := by
  rw [Task.references, Task.references, hpe]
  exact append_nil _

theorem Valid.take (h : Valid d t) (hs : t.tasks.get? id = some old)
    (hp : old.phase.pending = [guard]) (hf : t.available guard = true) :
    Valid d { t.setTask id (old.take guard) with queue := queue } := by
  have hr := take_references hp
  refine h.set rfl ?_ ?_ h.registered h.fresh h.distinct ?_
  · obtain ⟨hpl, hco⟩ := h.follows hs
    have hac : old.phase ≠ .ended := fun hen => by simp [hen, Phase.pending] at hp
    exact ⟨by rw [hr]; exact hpl, fun _ => by rw [hr]; exact hco hac⟩
  · rw [hr]
    exact fun _ hmem => h.registered hs hmem
  · intro j other guard held hj hne hg hh hl
    rcases mem_append.mp hg with hg | hg
    · exact h.exclusion hs hj hne hg hh hl
    · obtain rfl := mem_singleton.mp hg
      exact (available_apply hf hj hh hl.symm).symm

theorem Valid.lookUp {rest : List (κ × Bool)} (h : Valid d t) (hs : t.tasks.get? id = some old)
    (hrea : old.phase = .ready) (hre : old.remaining = (key, exclusive) :: rest) :
    Valid d ((t.sharedLock d key).2.setTask id
      { old with
        phase := .asked ⟨key, exclusive, (t.sharedLock d key).1⟩, remaining := rest }) := by
  have hf := h.sharedLock_found key
  generalize t.sharedLock d key = found at hf ⊢
  have hr : old.references = old.guards := by
    simp [Task.references, hrea, Phase.pending]
  have hk {i : Nat} {task : Task ρ κ} {guard : Guard κ} (hi : t.tasks.get? i = some task)
      (hmem : guard ∈ task.references) : found.2.registry.get? guard.key = some guard.lock :=
    hf.kept (h.registered hi hmem) (live_of_reference hi hmem)
  refine h.set hf.tasks ?_ ?_ hk hf.fresh hf.distinct fun hj hne hg => h.exclusion hs hj hne hg
  · obtain ⟨-, hco⟩ := h.follows hs
    have hp := hco (by rw [hrea]; simp)
    rw [hr, hre] at hp
    -- the key moves from what remains to what is asked for
    have hm : (old.guards ++ [(⟨key, exclusive, found.1⟩ : Guard κ)]).map Guard.claim ++
        rest = d.plan old.request := by
      rw [← hp, map_append, append_assoc]
      rfl
    refine ⟨?_, fun _ => hm⟩
    rw [← hm]
    exact sublist_append_left _ _
  · intro guard hmem
    rcases mem_append.mp hmem with hmem | hmem
    · exact hk hs (by rw [hr]; exact hmem)
    · obtain rfl := mem_singleton.mp hmem
      exact hf.named

theorem Valid.step (h : Valid d t) (hst : t.step d action = some t') : Valid d t' := by
  cases step_change hst with
  | keep hre hgu hfo => exact h.keep hre hgu (hfo fun _ hold => h.follows hold)
  | take hs hpe hfr => exact h.take hs hpe hfr
  | lookUp hs hrea hrem => exact h.lookUp hs hrea hrem

theorem Valid.run (h : Valid d t)
    (hrun : actions.foldlM (fun t action => t.step d action) t = some t') : Valid d t' := by
  induction actions generalizing t with
  | nil =>
    cases hrun
    exact h
  | cons _ _ ih =>
    obtain ⟨_, hst, hre⟩ := Option.bind_eq_some_iff.mp hrun
    exact ih (h.step hst) hre

theorem valid_of_run (h : Table.run d actions = some t) : Valid d t :=
  valid_empty.run h

/-! ### Holders -/

/-- The task refers to this lock under this key: it holds it, or has it looked up. -/
def Table.Refers (t : Table ρ κ) (i : Nat) (key : κ) (lock : Nat) : Prop :=
  ∃ task guard, t.tasks.get? i = some task ∧ guard ∈ task.references ∧ guard.key = key ∧
    guard.lock = lock

/-- The task holds the lock of this key. -/
def Table.Holds (t : Table ρ κ) (i : Nat) (key : κ) (exclusive : Bool) : Prop :=
  ∃ task guard, t.tasks.get? i = some task ∧ guard ∈ task.guards ∧ guard.key = key ∧
    guard.exclusive = exclusive

/-- The task has every lock of its request and has not been dropped. -/
def Table.Leased (t : Table ρ κ) (i : Nat) (request : ρ) : Prop :=
  ∃ task, t.tasks.get? i = some task ∧ task.request = request ∧ task.phase = .ready ∧
    task.remaining = []

/-- Live locks of one key are one lock. -/
theorem Valid.one_lock (h : Valid d t) {lock' : Nat} (hi : t.Refers i key lock)
    (hj : t.Refers j key lock') : lock = lock' := by
  obtain ⟨_, _, hi, hmem, rfl, rfl⟩ := hi
  obtain ⟨_, _, hj, hmem', hkey, rfl⟩ := hj
  have hna := h.registered hi hmem
  have hn' := h.registered hj hmem'
  rw [hkey, hna] at hn'
  exact Option.some.inj hn'

theorem Valid.shared (h : Valid d t) {exclusive' : Bool} (hi : t.Holds i key exclusive)
    (hj : t.Holds j key exclusive') (hne : i ≠ j) : exclusive = false ∧ exclusive' = false := by
  obtain ⟨task, guard, hi, hmem, hkey, rfl⟩ := hi
  obtain ⟨other, held, hj, hmem', hkey', rfl⟩ := hj
  have hlo : guard.lock = held.lock :=
    h.one_lock ⟨task, guard, hi, mem_append_left _ hmem, hkey, rfl⟩
      ⟨other, held, hj, mem_append_left _ hmem', hkey', rfl⟩
  exact h.exclusion hi hj hne hmem hmem' hlo

theorem Valid.holds_of_leased (h : Valid d t) {request : ρ} (hle : t.Leased i request)
    (hp : (key, exclusive) ∈ d.plan request) : t.Holds i key exclusive := by
  obtain ⟨task, hi, rfl, hr, hno⟩ := hle
  have hc := (h.follows hi).complete (by rw [hr]; simp)
  rw [Task.references, hr, hno] at hc
  simp only [Phase.pending, append_nil] at hc
  rw [← hc] at hp
  obtain ⟨guard, hmem, hcl⟩ := mem_map.mp hp
  cases hcl
  exact ⟨task, guard, hi, hmem, rfl, rfl⟩

/-! ### Waits -/

/-- Task `i` waits for `j`, which holds the lock or stands before `i` in the queue for it. -/
def Table.WaitsFor (t : Table ρ κ) (i j : Nat) : Prop :=
  ∃ task guard other, t.tasks.get? i = some task ∧ task.phase = .waiting guard ∧
    t.tasks.get? j = some other ∧
    ((∃ held ∈ other.guards, held.lock = guard.lock) ∨
      ∃ asked, other.phase = .waiting asked ∧ asked.lock = guard.lock ∧
        t.queue.idxOf j < t.queue.idxOf i)

/-- The key a task waits at. -/
def Table.WaitsAt (t : Table ρ κ) (i : Nat) (key : κ) : Prop :=
  ∃ task guard, t.tasks.get? i = some task ∧ task.phase = .waiting guard ∧ guard.key = key

theorem waitsAt_unique (h : t.WaitsAt i key) (h' : t.WaitsAt i key') : key = key' := by
  obtain ⟨_, _, hi, hph, rfl⟩ := h
  obtain ⟨_, _, hi', hph', rfl⟩ := h'
  cases hi.symm.trans hi'
  cases hph.symm.trans hph'
  rfl

theorem WaitsFor.waitsAt (h : t.WaitsFor i j) : ∃ key, t.WaitsAt i key := by
  obtain ⟨task, guard, _, hi, hph, -⟩ := h
  exact ⟨guard.key, task, guard, hi, hph, rfl⟩

section

variable {α : Type} [Preorder α] {rank : κ → α}

/-- Where a task stands: how far it is in the order, then how near the head of the queue. -/
def Table.standing (rank : κ → α) (t : Table ρ κ) (key : κ) (i : Nat) : α ×ₗ Natᵒᵈ :=
  toLex (rank key, OrderDual.toDual (t.queue.idxOf i))

section

variable (h : Valid d t)
  (hra : ∀ request, ((d.plan request).map Prod.fst).Pairwise (rank · < rank ·))
include h hra

/-- A task waits only for tasks that stand further. -/
theorem Valid.standing_lt (hwa : t.WaitsFor i j) (hi : t.WaitsAt i key) (hj : t.WaitsAt j key') :
    t.standing rank key i < t.standing rank key' j := by
  obtain ⟨task, guard, other, hs, hph, ho, hed⟩ := hwa
  obtain rfl := waitsAt_unique hi ⟨task, guard, hs, hph, rfl⟩
  obtain ⟨_, guard', hot', hp', rfl⟩ := hj
  cases ho.symm.trans hot'
  have hg : guard ∈ task.references := by simp [Task.references, hph, Phase.pending]
  have hgu' : guard' ∈ other.references := by simp [Task.references, hp', Phase.pending]
  rw [Table.standing, Table.standing, Prod.Lex.toLex_lt_toLex]
  rcases hed with ⟨held, hh, hl⟩ | ⟨_, hask, hl, hbe⟩
  · -- the holder waits further on in its own plan
    have hkey : held.key = guard.key :=
      h.distinct (h.registered ho (mem_append_left _ hh)) (by rw [hl]; exact h.registered hs hg)
    have hp := (hra other.request).sublist ((h.follows ho).planned.map Prod.fst)
    rw [Task.references, hp', map_append, map_append, pairwise_append] at hp
    refine .inl ?_
    rw [← hkey]
    exact hp.2.2 held.key
      (mem_map.mpr ⟨held.claim, mem_map_of_mem hh, rfl⟩) guard'.key
        (by simp [Phase.pending, Guard.claim])
  · -- the other waits for the same lock, before this task
    cases hp'.symm.trans hask
    have hkey : guard'.key = guard.key :=
      h.distinct (h.registered ho hgu') (by rw [hl]; exact h.registered hs hg)
    exact .inr ⟨by rw [hkey], hbe⟩

theorem Valid.standing_lt_of_path
    (hpa : Relation.TransGen t.WaitsFor i j) (hi : t.WaitsAt i key) (hj : t.WaitsAt j key') :
    t.standing rank key i < t.standing rank key' j := by
  induction hpa generalizing key' with
  | single he => exact h.standing_lt hra he hi hj
  | tail _ he ih =>
    obtain ⟨_, hm⟩ := WaitsFor.waitsAt he
    exact lt_trans (ih hm) (h.standing_lt hra he hm hj)

/-- If every plan goes up, no task waits for itself through others. -/
theorem Valid.acyclic (i : Nat) : ¬ Relation.TransGen t.WaitsFor i i := by
  intro hc
  obtain ⟨_, hed, -⟩ := Relation.TransGen.head'_iff.mp hc
  obtain ⟨_, hkey⟩ := WaitsFor.waitsAt hed
  exact lt_irrefl _ (h.standing_lt_of_path hra hc hkey hkey)

end

end

end ZcashVoting.Locks
