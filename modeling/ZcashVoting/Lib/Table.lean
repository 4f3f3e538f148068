import Mathlib

/-!
# Keyed tables and transactions

A table is the list of its rows, each with a key. `lookup`, `replace` and `delete`
are `SELECT`, `UPDATE` and `DELETE` restricted to one key; an `INSERT` appends.
The lemmas say which rows each statement leaves, and that keys stay unique.

A transaction is a state-passing computation that may fail. A failed one has no
state to continue from, which is a rollback.
-/
namespace SqlTable

open List

variable {α κ : Type} [DecidableEq κ] (key : α → κ)

def lookup (k : κ) (rows : List α) : Option α := rows.find? fun row => key row = k

def replace (row : α) (rows : List α) : List α := rows.map fun old =>
    if key old = key row then row else old

def delete (k : κ) (rows : List α) : List α := rows.filter fun row => key row ≠ k

variable {key} {k : κ} {row old : α} {rows : List α}

theorem mem_of_lookup (h : lookup key k rows = some row) : row ∈ rows := mem_of_find?_eq_some h

theorem key_of_lookup (h : lookup key k rows = some row) : key row = k := by
  simpa using List.find?_some h

theorem lookup_eq_none : lookup key k rows = none ↔ ∀ row ∈ rows, key row ≠ k := by
  simp [lookup]

theorem lookup_of_mem (hn : (rows.map key).Nodup) (h : row ∈ rows) :
    lookup key (key row) rows = some row := by
  cases hf : lookup key (key row) rows with
  | none => exact absurd rfl (lookup_eq_none.mp hf row h)
  | some => rw [inj_on_of_nodup_map hn (mem_of_lookup hf) h (key_of_lookup hf)]

theorem mem_replace : old ∈ replace key row rows ↔
    (old ∈ rows ∧ key old ≠ key row) ∨ (old = row ∧ ∃ r ∈ rows, key r = key row) := by
  simp only [replace, mem_map]
  constructor
  · rintro ⟨r, hr, rfl⟩
    by_cases hk : key r = key row
    · rw [if_pos hk]
      exact .inr ⟨rfl, r, hr, hk⟩
    · rw [if_neg hk]
      exact .inl ⟨hr, hk⟩
  · rintro (⟨hm, hk⟩ | ⟨rfl, r, hr, hk⟩)
    · exact ⟨old, hm, by rw [if_neg hk]⟩
    · exact ⟨r, hr, by rw [if_pos hk]⟩

theorem mem_delete : row ∈ delete key k rows ↔ row ∈ rows ∧ key row ≠ k := by
  simp [delete]

@[simp] theorem keys_replace : (replace key row rows).map key = rows.map key := by
  rw [replace, map_map]
  refine map_congr_left fun r _ => ?_
  by_cases hk : key r = key row <;> simp [hk]

theorem nodup_replace (hn : (rows.map key).Nodup) : ((replace key row rows).map key).Nodup := by
  rwa [keys_replace]

theorem nodup_insert (hn : (rows.map key).Nodup) (hfr : lookup key (key row) rows = none) :
    ((rows ++ [row]).map key).Nodup := by
  rw [map_append, nodup_append]
  refine ⟨hn, by simp, ?_⟩
  rintro a ha b hb rfl
  obtain ⟨r, hr, rfl⟩ := mem_map.mp ha
  exact lookup_eq_none.mp hfr r hr (by simpa using hb)

theorem lookup_replace : lookup key k (replace key row rows) =
    (lookup key k rows).map fun old => if key old = key row then row else old := by
  rw [lookup, replace, List.find?_map, lookup]
  congr 2
  funext r
  by_cases hr : key r = key row <;> simp [hr]

theorem lookup_replace_self (h : ∃ r ∈ rows, key r = key row) :
    lookup key (key row) (replace key row rows) = some row := by
  obtain ⟨r, hr, hk⟩ := h
  rw [lookup_replace]
  cases hf : lookup key (key row) rows with
  | none => exact absurd hk (lookup_eq_none.mp hf r hr)
  | some => rw [Option.map_some, if_pos (key_of_lookup hf)]

theorem lookup_replace_of_ne (hk : k ≠ key row) :
    lookup key k (replace key row rows) = lookup key k rows := by
  rw [lookup_replace]
  cases hf : lookup key k rows with
  | none => rfl
  | some => rw [Option.map_some, if_neg (by rw [key_of_lookup hf]; exact hk)]

theorem lookup_delete_of_ne {j : κ} (hj : j ≠ k) :
    lookup key j (delete key k rows) = lookup key j rows := by
  rw [lookup, delete, List.find?_filter, lookup]
  congr 1
  funext r
  by_cases hr : key r = j <;> simp [hr, hj]

theorem lookup_insert (hf : lookup key (key row) rows = none) :
    lookup key k (rows ++ [row]) = if k = key row then some row else lookup key k rows := by
  simp only [lookup, List.find?_append] at hf ⊢
  by_cases hk : k = key row
  · subst hk
    rw [hf]
    simp
  · have hk' : ¬ key row = k := fun e => hk e.symm
    simp [hk, hk']

end SqlTable

namespace Transaction

/-- A transaction on a database `D` that may fail with `ε`. -/
abbrev Tx (D ε α : Type) := StateT D (Except ε) α

variable {D ε α β : Type} {db : D} {r : α × D} {x : Except ε α} {a : α} {e : ε}

def refuse (condition : Bool) (e : ε) : Tx D ε Unit :=
  if condition then throw e else pure ()

def mapFailure (f : ε → ε) (tx : Tx D ε α) : Tx D ε α := fun db => (tx db).mapError f

theorem bind_ok {x : Tx D ε α} {f : α → Tx D ε β} {r : β × D} :
    (x >>= f) db = .ok r ↔ ∃ a db₁, x db = .ok (a, db₁) ∧ f a db₁ = .ok r := by
  simp only [bind, StateT.bind, Except.bind]
  cases hx : x db with
  | error => simp
  | ok p => obtain ⟨_, _⟩ := p; simp

theorem pure_ok : (pure a : Tx D ε α) db = .ok r ↔ r = (a, db) := by
  simp [pure, StateT.pure, Except.pure, eq_comm]

theorem get_ok {r : D × D} : (get : Tx D ε D) db = .ok r ↔ r = (db, db) := by
  simp [get, getThe, MonadStateOf.get, StateT.get, pure, Except.pure, eq_comm]

theorem throw_ok : (throw e : Tx D ε α) db = .ok r ↔ False := by
  simp [throw, throwThe, MonadExceptOf.throw, StateT.lift, bind, Except.bind]

theorem set_ok {new : D} {r : PUnit × D} : (set new : Tx D ε PUnit) db = .ok r ↔ r = (⟨⟩, new) := by
  simp [set, StateT.set, pure, Except.pure, eq_comm]

theorem lift_ok : (liftM x : Tx D ε α) db = .ok r ↔ x = .ok r.1 ∧ r.2 = db := by
  obtain ⟨_, _⟩ := r
  cases x with
  | error => simp [liftM, monadLift, MonadLift.monadLift, StateT.lift, bind, Except.bind]
  | ok =>
    simp [liftM, monadLift, MonadLift.monadLift, StateT.lift, bind, Except.bind, pure,
      Except.pure, eq_comm]

theorem refuse_ok {condition : Bool} {r : Unit × D} :
    (refuse condition e : Tx D ε Unit) db = .ok r ↔ condition = false ∧ r = ((), db) := by
  cases condition <;> simp [refuse, throw_ok, pure_ok]

theorem mapError_ok {ε' : Type} {f : ε → ε'} (h : x.mapError f = .ok a) : x = .ok a := by
  cases x with
  | error => cases h
  | ok => exact congrArg Except.ok (Except.ok.inj h)

theorem mapFailure_ok {f : ε → ε} {tx : Tx D ε α} : mapFailure f tx db = .ok r ↔ tx db = .ok r := by
  unfold mapFailure
  cases tx db <;> simp [Except.mapError]

end Transaction
