import ZcashVoting.Lib.KeyedMap

/-!
# Helper health

Helpers that keep failing are asked last for a while. A cooldown expires when its helper is
next asked for or fails, and the clock may go back in between. What the tracker does to a
helper depends on that helper's state alone (`get?_run`), so its laws are those of one state
under the events that reach it.
-/
namespace ZcashVoting.ShareDelivery

open KeyedData KeyedMap List

structure HelperState where
  consecutiveFailures : Nat
  openedAt : Option Nat
  deriving DecidableEq

/-- The scores that clones of a tracker share. -/
abbrev HealthTable := KeyedMap String HelperState

/-- The thresholds of a tracker; its counters are `u32`. -/
structure HelperHealth where
  (failureThreshold cooldownSeconds : Nat)
  positive : 1 ≤ failureThreshold
  fits : failureThreshold < 2 ^ 32

inductive HealthEvent where
  | success (url : String)
  | failure (url : String) (now : Nat)
  | query (urls : List String) (now : Nat)

namespace HelperHealth

def new (failureThreshold : UInt32) (cooldownSeconds : Nat) : HelperHealth where
  failureThreshold := max failureThreshold.toNat 1
  cooldownSeconds
  positive := le_max_right _ _
  fits := max_lt failureThreshold.toNat_lt (by decide)

/- `key` is `helper_identity_key`. -/
variable (health : HelperHealth) (key : String → String) (now : Nat) (table : HealthTable)

def expireCooldownIfElapsed (state : HelperState) : HelperState :=
  match state.openedAt with
  | none => state
  | some openedAt =>
      if now - openedAt < health.cooldownSeconds then state else ⟨health.failureThreshold - 1, none⟩

def isAvailable (url : String) : Bool × HealthTable :=
  match table.get? (key url) with
  | none => (true, table)
  | some state =>
    let state := health.expireCooldownIfElapsed now state
    (state.openedAt.isNone, table.set (key url) state)

/-- The loop of `candidate_servers`: the available helpers, the degraded ones and the scores. -/
def rank (st : List String × List String × HealthTable) (url : String) :
    List String × List String × HealthTable :=
  let asked := health.isAvailable key now st.2.2 url
  if asked.1 then (st.1 ++ [url], st.2.1, asked.2) else (st.1, st.2.1 ++ [url], asked.2)

def candidateServers (urls : List String) : List String × HealthTable :=
  if urls.isEmpty then ([], table)
  else
    let (available, degraded, table) := urls.foldl (health.rank key now) ([], [], table)
    (if available.isEmpty then urls else available ++ degraded, table)

def failed (state : Option HelperState) : HelperState :=
  let state := health.expireCooldownIfElapsed now (state.getD ⟨0, none⟩)
  let failures := min (state.consecutiveFailures + 1) (2 ^ 32 - 1)
  ⟨failures, if health.failureThreshold ≤ failures ∧
    state.openedAt = none then some now else state.openedAt⟩

def recordFailure (url : String) :
    HealthTable := table.set (key url) (health.failed now (table.get? (key url)))

def recordSuccess (url : String) : HealthTable := table.filterKeys (· ≠ key url)

def step : HealthEvent → HealthTable
  | .success url => recordSuccess key table url
  | .failure url now => health.recordFailure key now table url
  | .query urls now => (health.candidateServers key now table urls).2

def run (events : List HealthEvent) : HealthTable := events.foldl (health.step key) table

/-- The helper is in a cooldown that has not elapsed. -/
def isDegraded (url : String) : Bool :=
  ((table.get? (key url)).bind HelperState.openedAt).any (now - · < health.cooldownSeconds)

/-! ### One helper -/

/-- What an event does to the state of the helper `k`. -/
def onHelper (k : String) (state : Option HelperState) : HealthEvent → Option HelperState
  | .success url => if k = key url then none else state
  | .failure url now => if k = key url then some (health.failed now state) else state
  | .query urls now =>
      if k ∈ urls.map key then state.map (health.expireCooldownIfElapsed now) else state

variable {health key now table} {url k : String} {urls : List String} {events : List HealthEvent}

theorem openedAt_expire (state : HelperState) :
    (health.expireCooldownIfElapsed now state).openedAt =
    state.openedAt.filter fun openedAt => now - openedAt < health.cooldownSeconds := by
  unfold expireCooldownIfElapsed
  cases ho : state.openedAt with
  | none => exact ho
  | some =>
    simp only [Option.filter_some, decide_eq_true_eq]
    split
    · exact ho
    · rfl

theorem expire_of_lasting {state : HelperState}
    (h : ∀ openedAt, state.openedAt = some openedAt → now - openedAt < health.cooldownSeconds) :
    health.expireCooldownIfElapsed now state = state := by
  unfold expireCooldownIfElapsed
  split
  next => rfl
  next openedAt hop => exact if_pos (h openedAt hop)

theorem expire_expire (state : HelperState) : health.expireCooldownIfElapsed now
    (health.expireCooldownIfElapsed now state) = health.expireCooldownIfElapsed now state := by
  refine expire_of_lasting fun openedAt ho => ?_
  rw [openedAt_expire, Option.filter_eq_some_iff] at ho
  exact of_decide_eq_true ho.2

theorem get?_isAvailable (url k : String) : (health.isAvailable key now table url).2.get? k =
    health.onHelper key k (table.get? k) (.query [url] now) := by
  unfold isAvailable
  by_cases hk : k = key url
  · subst hk
    cases hget : table.get? (key url) <;> simp [onHelper, hget]
  · cases table.get? (key url) <;> simp [onHelper, hk, get?_set_of_ne]

theorem isAvailable_eq (url : String) :
    (health.isAvailable key now table url).1 = !health.isDegraded key now table url := by
  unfold isAvailable isDegraded
  cases table.get? (key url) with
  | none => rfl
  | some => simp only [openedAt_expire, ← Option.not_isSome, Option.isSome_filter, Option.bind_some]

/-- Asking for a helper leaves every answer at that time as it was. -/
theorem isDegraded_isAvailable (url : String) :
    health.isDegraded key now (health.isAvailable key now table url).2 =
      health.isDegraded key now table := by
  funext other
  simp only [isDegraded, get?_isAvailable, onHelper]
  split
  · cases table.get? (key other) <;> simp [openedAt_expire, Option.any_filter]
  · rfl

theorem foldl_rank (st : List String × List String × HealthTable) :
    (urls.foldl (health.rank key now) st).1 =
      st.1 ++ urls.filter (!health.isDegraded key now st.2.2 ·) ∧
    (urls.foldl (health.rank key now) st).2.1 =
      st.2.1 ++ urls.filter (health.isDegraded key now st.2.2) ∧
    ∀ k, (urls.foldl (health.rank key now) st).2.2.get? k =
      health.onHelper key k (st.2.2.get? k) (.query urls now) := by
  induction urls generalizing st with
  | nil => simp [onHelper]
  | cons url _ ih =>
    have ht : (health.rank key now st url).2.2 = (health.isAvailable key now st.2.2 url).2 := by
      simp only [rank]
      split <;> rfl
    obtain ⟨hh, hd, hget⟩ := ih (health.rank key now st url)
    rw [ht, isDegraded_isAvailable] at hh hd
    rw [foldl_cons, hh, hd]
    refine ⟨?_, ?_, fun k => ?_⟩
    · cases hurl : health.isDegraded key now st.2.2 url <;> simp [rank, isAvailable_eq, hurl]
    · cases hurl : health.isDegraded key now st.2.2 url <;> simp [rank, isAvailable_eq, hurl]
    · rw [hget, ht, get?_isAvailable]
      by_cases hk : k = key url
      · cases st.2.2.get? k <;> simp [onHelper, hk, expire_expire]
      · simp [onHelper, hk]

theorem candidateServers_eq (urls : List String) : (health.candidateServers key now table urls).1 =
    urls.filter (!health.isDegraded key now table ·) ++
      urls.filter (health.isDegraded key now table) := by
  unfold candidateServers
  split
  next hem => simp [List.isEmpty_iff.mp hem]
  obtain ⟨hav, hde, -⟩ :
      _ ∧ _ ∧ ∀ k, (urls.foldl (health.rank key now) ([], [], table)).2.2.get? k = _ :=
    foldl_rank ([], [], table)
  simp only [hav, hde, nil_append]
  split
  next hn =>
    -- no helper is available, so the degraded ones are all of the input
    rw [List.isEmpty_iff] at hn
    rw [hn, nil_append, eq_comm, filter_eq_self]
    simpa [filter_eq_nil_iff] using hn
  next => rfl

variable (health key now table urls) in
theorem candidateServers_perm : (health.candidateServers key now table urls).1.Perm urls := by
  rw [candidateServers_eq]
  exact perm_append_comm.trans (by simpa using filter_append_perm (health.isDegraded key now table) urls)

theorem get?_step (event : HealthEvent) :
    (health.step key table event).get? k = health.onHelper key k (table.get? k) event := by
  cases event with
  | success =>
    simp only [step, recordSuccess, onHelper]
    split
    next hk => exact get?_filterKeys_eq_none (by simpa using hk)
    next hk => exact get?_filterKeys (by simpa using hk)
  | failure =>
    simp only [step, recordFailure, onHelper, get?_set]
    split
    next hk => rw [hk]
    next => rfl
  | query =>
    simp only [step, candidateServers]
    split
    next hem => simp [List.isEmpty_iff.mp hem, onHelper]
    next => exact (foldl_rank ([], [], table)).2.2 k

theorem get?_run :
    (health.run key table events).get? k = events.foldl (health.onHelper key k) (table.get? k) := by
  induction events generalizing table with
  | nil => rfl
  | cons _ _ ih => exact ih.trans (by rw [get?_step]; rfl)

/-! ### Cooldowns -/

variable (health key) in
/-- The event is not a success of the helper, and reaches it only while a cooldown opened at
`openedAt` lasts. -/
def During (k : String) (openedAt : Nat) : HealthEvent → Prop
  | .success url => k ≠ key url
  | .failure url now => k = key url → now - openedAt < health.cooldownSeconds
  | .query urls now => k ∈ urls.map key → now - openedAt < health.cooldownSeconds

variable (key) in
/-- The event is neither a success nor a failure of the helper. -/
def Spares (k : String) : HealthEvent → Prop
  | .success url => k ≠ key url
  | .failure url _ => k ≠ key url
  | .query .. => True

theorem onHelper_during {state : Option HelperState} {openedAt : Nat} {event : HealthEvent}
    (he : During health key k openedAt event)
    (h : state.bind HelperState.openedAt = some openedAt) :
    (health.onHelper key k state event).bind HelperState.openedAt = some openedAt := by
  obtain ⟨state, rfl, ho⟩ := Option.bind_eq_some_iff.mp h
  have hexp {now : Nat} (hnow : now - openedAt < health.cooldownSeconds) :
      health.expireCooldownIfElapsed now state = state :=
    expire_of_lasting fun _ hso => by cases ho.symm.trans hso; exact hnow
  cases event with
  | success => rwa [onHelper, if_neg he]
  | failure =>
    simp only [onHelper]
    split
    next hk => simp [failed, hexp (he hk), ho]
    next => exact h
  | query =>
    simp only [onHelper]
    split
    next hk => simp [hexp (he hk), ho]
    next => exact h

theorem onHelper_spares {state : HelperState} {event : HealthEvent} (he : Spares key k event)
    (h : state.openedAt = none) : health.onHelper key k (some state) event = some state := by
  cases event with
  | success | failure => exact if_neg he
  | query => simp [onHelper, expireCooldownIfElapsed, h]

/-- A failure of a helper that has failed once too often, or may not fail once more. -/
theorem openedAt_failed {state : HelperState} (ho : ∀ openedAt, state.openedAt = some openedAt →
      openedAt + health.cooldownSeconds ≤ now) (hf : state.openedAt = none →
      state = ⟨health.failureThreshold - 1, none⟩) :
        (health.failed now (some state)).openedAt = some now := by
  have he : health.expireCooldownIfElapsed now state = ⟨health.failureThreshold - 1, none⟩ := by
    unfold expireCooldownIfElapsed
    split
    next hno => exact hf hno
    next openedAt hso =>
      have hend := ho openedAt hso
      exact if_neg (by omega)
  have hth : min (health.failureThreshold - 1 + 1) (2 ^ 32 - 1) = health.failureThreshold := by
    have := health.positive
    have := health.fits
    omega
  simp only [failed, Option.getD_some, he, hth, le_rfl, and_self, if_true]

/-- Candidates are the input with the healthy helpers first. A cooldown ends when it was
opened to end, whatever failures and queries it sees: the helper is degraded until then. From
then on the first query readmits it, and its next failure degrades it again, whether or not a
query has come first. -/
theorem candidates_and_cooldowns (health : HelperHealth) (key : String → String)
    (table : HealthTable) :
    (∀ now urls, (health.candidateServers key now table urls).1.Perm urls ∧
      (health.candidateServers key now table urls).1 =
        urls.filter (!health.isDegraded key now table ·) ++
          urls.filter (health.isDegraded key now table) ∧
      ((∀ url ∈ urls, health.isDegraded key now table url = true) →
        (health.candidateServers key now table urls).1 = urls)) ∧
    ∀ url openedAt during, (table.get? (key url)).bind HelperState.openedAt = some openedAt →
      (∀ event ∈ during, During health key (key url) openedAt event) →
      (∀ now, health.isDegraded key now (health.run key table during) url =
        decide (now - openedAt < health.cooldownSeconds)) ∧
      (∀ again t, openedAt + health.cooldownSeconds ≤ again → health.isDegraded key t
        (health.run key table (during ++ [.failure url again])) url =
          decide (t - again < health.cooldownSeconds)) ∧
      ∀ urls now after, url ∈ urls → openedAt + health.cooldownSeconds ≤ now →
        (∀ event ∈ after, Spares key (key url) event) →
        (∀ t, health.isDegraded key t (health.run key table (during ++ .query urls now :: after)) url = false) ∧
        ∀ again t, health.isDegraded key t
          (health.run key table (during ++ .query urls now :: (after ++ [.failure url again]))) url =
            decide (t - again < health.cooldownSeconds) := by
  refine ⟨fun now urls => ?_, fun url openedAt during ho hd => ?_⟩
  · refine ⟨health.candidateServers_perm key now table urls, ?_⟩
    rw [candidateServers_eq]
    refine ⟨rfl, fun hall => ?_⟩
    rw [filter_eq_self.mpr hall, filter_eq_nil_iff.mpr (by simpa using hall), nil_append]
  have hc : (during.foldl (health.onHelper key (key url)) (table.get? (key url))).bind
      HelperState.openedAt = some openedAt :=
    foldlRecOn (motive := fun state => Option.bind state HelperState.openedAt = some openedAt)
      during _ ho fun _ h event he => onHelper_during (hd event he) h
  obtain ⟨state, hs, ho⟩ := Option.bind_eq_some_iff.mp hc
  simp only [isDegraded, get?_run, foldl_append, foldl_cons, foldl_nil, hs, Option.bind_some, ho]
  refine ⟨fun now => rfl, fun again t hend => ?_, fun urls now after hurl hend ha => ?_⟩
  · rw [onHelper, if_pos rfl, Option.bind_some, openedAt_failed _ fun hn =>
      absurd (hn.symm.trans ho) nofun]
    · rfl
    · intro _ hso
      cases ho.symm.trans hso
      exact hend
  have hr : after.foldl (health.onHelper key (key url)) (health.onHelper key (key url) (some state)
      (.query urls now)) = some ⟨health.failureThreshold - 1, none⟩ := by
    refine foldlRecOn (motive := (· = some (HelperState.mk (health.failureThreshold - 1) none)))
      after _ ?_ ?_
    · rw [onHelper, if_pos (mem_map_of_mem hurl), Option.map_some, expireCooldownIfElapsed, ho]
      simp only [if_neg (show ¬now - openedAt < health.cooldownSeconds by omega)]
    · rintro _ rfl event he
      exact onHelper_spares (ha event he) rfl
  rw [hr]
  refine ⟨fun t => rfl, fun again t => ?_⟩
  rw [onHelper, if_pos rfl, Option.bind_some, openedAt_failed (fun _ hso => by cases hso) fun _ => rfl]
  rfl

/-- A failure after the end of a cooldown comes before the first query from then on, which
finds the helper degraded. -/
theorem failure_after_end_degrades_again : let health := HelperHealth.new 3 30
    let degraded := health.run id ⟨[], nodup_nil⟩ [.failure "a" 0, .failure "a" 0, .failure "a" 0]
    (degraded.get? "a").bind HelperState.openedAt = some 0 ∧ 0 + health.cooldownSeconds ≤ 31 ∧
      (health.candidateServers id 31 (health.run id degraded [.failure "a" 30]) ["a", "b"]).1 =
        ["b", "a"] := by
  decide

end HelperHealth

end ZcashVoting.ShareDelivery
