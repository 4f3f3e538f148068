import ZcashVoting.ShareDelivery.HelperHealth
import ZcashVoting.ShareDelivery.PostWorld

/-!
# Polling the helpers for a share's confirmation

`poll_share_helpers_with_budget` as a machine: its own steps follow the statements of the
loop, and between any two of them a running poll may finish. `poll_and_confirm_share` marks the
share on what the poll ends with.
-/
namespace ZcashVoting.ShareDelivery

open List Interaction

def shareStatusMaxConcurrentPolls : Nat := 4

/-- Where the function is. -/
inductive PollStage where
  | draining | checking | spawning | waiting | expired
  | ended (outcome : ShareStatusOutcome)
  deriving DecidableEq

/-- Its variables, the polls that are finished but not joined with whether the helper reported
confirmation, and two records: the helpers that have reported it, and those that had when the
set was last drained. -/
structure Polling where
  (remaining running : List String)
  finished : List (String × Bool)
  confirmations : Nat
  quorumObserved : Bool
  (reported drained : List String)

namespace Polling

def isEmpty (s : Polling) : Bool := s.running.isEmpty && s.finished.isEmpty

def recordCompletedPoll (s : Polling) (confirmed : Bool) (rest : List (String × Bool)) : Polling :=
  { s with finished := rest, confirmations := s.confirmations + confirmed.toNat }

/-- The checks between two rounds of polls. -/
def checked (s : Polling) (cancel expired : Bool) : PollStage :=
  if s.isEmpty && s.remaining.isEmpty then .ended .quorumNotObserved
  else if cancel then .ended .cancelled
  else if expired then .expired
  else .spawning

inductive Step (required : Nat) :
    PollStage × Polling → PollStage × Polling → Prop where
  /-- A poll finishes; one that panicked or was aborted reports nothing. -/
  | finish {stage s} (server before after) (confirmed : Bool)
      (hs : ∀ outcome, stage ≠ .ended outcome)
      (hr : s.running = before ++ server :: after) : Step required (stage, s) (stage, { s with
        running := before ++ after
        finished := s.finished ++ [(server, confirmed)]
        reported := if confirmed then server :: s.reported else s.reported })
  /-- `try_join_next` and `join_next` -/
  | joinNext {stage s server confirmed rest} (hs : stage = .draining ∨ stage = .waiting)
      (hf : s.finished = (server, confirmed) :: rest) : Step required (stage, s)
        (if s.confirmations + confirmed.toNat = required then .ended .quorumObserved else .draining,
          s.recordCompletedPoll confirmed rest)
  | drained {s} (hf : s.finished = []) :
      Step required (.draining, s) (.checking, { s with drained := s.reported })
  | check {s} (cancel expired : Bool) :
      Step required (.checking, s) (s.checked cancel expired, { s with quorumObserved := false })
  | spawn {s server rest} (hr : s.remaining = server :: rest)
      (hl : s.running.length + s.finished.length < shareStatusMaxConcurrentPolls) :
      Step required (.spawning, s)
        (.spawning, { s with remaining := rest, running := server :: s.running })
  | spawned {s}
      (hl : s.remaining = [] ∨
        shareStatusMaxConcurrentPolls ≤ s.running.length + s.finished.length) :
      Step required (.spawning, s) (if s.isEmpty then .ended .quorumNotObserved else .waiting, s)
  | timeout {s} : Step required (.waiting, s) (.draining, s)
  /-- `finish_expired_polls` -/
  | joinExpired {s server confirmed rest} (hf : s.finished = (server, confirmed) :: rest) :
      Step required (.expired, s) (.expired, { s.recordCompletedPoll confirmed rest with
        quorumObserved := s.quorumObserved || s.confirmations + confirmed.toNat == required })
  | joinedExpired {s} (hf : s.isEmpty = true) :
      Step required (.expired, s)
        (.ended (if s.quorumObserved then .quorumObserved else .quorumNotObserved), s)

def required (serverUrls : List String) : Nat := min 2 serverUrls.length

def start (serverUrls candidates : List String) : PollStage × Polling :=
  (if required serverUrls = 0 then .ended .quorumNotObserved else .draining,
    ⟨candidates, [], [], 0, false, [], []⟩)

/-- What the stage says of the count. -/
def At (required : Nat) (s : Polling) : PollStage → Prop
  | .draining | .spawning | .waiting => s.confirmations < required
  | .checking => s.confirmations < required ∧ s.drained.length ≤ s.confirmations
  | .expired => if s.quorumObserved then required ≤ s.confirmations else s.confirmations < required
  | .ended .quorumObserved => required ≤ s.confirmations
  | .ended .quorumNotObserved => s.reported.length < required ∨ required = 0
  | .ended .cancelled => s.drained.length < required

structure Counted (serverUrls : List String) (required : Nat) (stage : PollStage) (s : Polling) :
    Prop where
  once : s.remaining ++ s.running ++ s.reported <+~ serverUrls
  late : s.drained <:+ s.reported
  count : s.confirmations + s.finished.countP Prod.snd = s.reported.length
  stage : At required s stage

variable {serverUrls : List String} {n : Nat} {stage stage' : PollStage} {s s' : Polling}

theorem Counted.of_isEmpty (h : Counted serverUrls n stage s) (he : s.isEmpty = true) :
    s.confirmations = s.reported.length := by
  have hf : s.finished = [] := by simpa using (Bool.and_eq_true_iff.mp he).2
  simpa [hf] using h.count

/-- A joined poll leaves the set and enters the count. -/
theorem Counted.joined {server : String} {confirmed : Bool} {rest : List (String × Bool)}
    (h : Counted serverUrls n stage s) (hf : s.finished = (server, confirmed) :: rest) :
    s.confirmations + confirmed.toNat + rest.countP Prod.snd = s.reported.length := by
  have hc := h.count
  cases confirmed with
  | false => simpa [hf] using hc
  | true =>
    rw [hf, countP_cons_of_pos rfl] at hc
    simp only [Bool.toNat_true]
    omega

theorem Counted.step (h : Counted serverUrls n stage s) (hs : Step n (stage, s) (stage', s')) :
    Counted serverUrls n stage' s' := by
  cases hs with
  | finish _ _ _ confirmed hs hr =>
    have ho := h.once
    rw [hr] at ho
    refine ⟨Subperm.trans ?_ ho, ?_, ?_, ?_⟩
    · cases confirmed with
      | false =>
        exact (((sublist_cons_self _ _).append_left _).append_left _ |>.append_right _).subperm
      | true => exact (perm_iff_count.mpr fun _ => by simp [count_cons]; omega).subperm
    · cases confirmed with
      | false => exact h.late
      | true => exact h.late.trans (suffix_cons _ _)
    · have hc := h.count
      cases confirmed with
      | false => simpa using hc
      | true =>
        simp
        omega
    · have hg := h.stage
      cases stage with
      | ended outcome => exact absurd rfl (hs outcome)
      | _ => exact hg
  | joinNext hs hf =>
    refine ⟨h.once, h.late, h.joined hf, ?_⟩
    have hl : s.confirmations < n := by
      rcases hs with rfl | rfl <;> exact h.stage
    split
    next he => exact he.ge
    next confirmed _ he =>
      have hb := Bool.toNat_le confirmed
      show s.confirmations + confirmed.toNat < n
      omega
  | drained hf =>
    refine ⟨h.once, suffix_rfl, h.count, h.stage, ?_⟩
    have hc := h.count
    rw [hf] at hc
    exact hc.ge
  | check =>
    refine ⟨h.once, h.late, h.count, ?_⟩
    obtain ⟨hl, hd⟩ := h.stage
    unfold checked
    split
    next he => exact .inl (h.of_isEmpty (Bool.and_eq_true_iff.mp he).1 ▸ hl)
    split
    next => exact hd.trans_lt hl
    split
    next => exact hl
    next => exact hl
  | spawn hr =>
    refine ⟨Subperm.trans ?_ h.once, h.late, h.count, h.stage⟩
    rw [hr]
    exact (perm_middle.append_right _).subperm
  | spawned =>
    refine ⟨h.once, h.late, h.count, ?_⟩
    have hg : s.confirmations < n := h.stage
    split
    next he => exact .inl (h.of_isEmpty he ▸ hg)
    next => exact hg
  | timeout => exact ⟨h.once, h.late, h.count, h.stage⟩
  | @joinExpired _ _ confirmed _ hf =>
    refine ⟨h.once, h.late, h.joined hf, ?_⟩
    have hg := h.stage
    have hb := Bool.toNat_le confirmed
    simp only [At, recordCompletedPoll, Bool.or_eq_true, beq_iff_eq] at hg ⊢
    split at hg
    next hq =>
      rw [if_pos (.inl hq)]
      omega
    next hq =>
      split
      next he => exact (he.resolve_left hq).ge
      next he =>
        rw [not_or] at he
        omega
  | joinedExpired he =>
    refine ⟨h.once, h.late, h.count, ?_⟩
    have hg := h.stage
    simp only [At] at hg
    split
    next hq =>
      rw [if_pos hq] at hg
      exact hg
    next hq => exact .inl (h.of_isEmpty he ▸ by simpa [hq] using hg)

theorem counted_of_steps {candidates : List String} {x : PollStage × Polling}
    (hp : candidates.Perm serverUrls)
    (h : Relation.ReflTransGen (Step (required serverUrls)) (start serverUrls candidates) x) :
    Counted serverUrls (required serverUrls) x.1 x.2 := by
  induction h with
  | refl =>
    refine ⟨by simpa [start] using hp.subperm, suffix_rfl, rfl, ?_⟩
    unfold start
    split
    next hz => exact .inr hz
    next hz => exact Nat.pos_of_ne_zero hz
  | tail _ hs ih => exact ih.step hs

/-! ### Marking the share -/

/-- The world of `poll_and_confirm_share` when its poll ends with `outcome`. -/
def polledWith (library : UrlLibrary) (place : SharePlace) (outcome : ShareStatusOutcome) :
    Handler deliverySignature DeliveryWorld
  | .pollShareHelpers, w, answer, w' => w' = w ∧ answer = outcome
  | c, w, answer, w' => deliveryHandler library place c w answer w'

/-- Without an observed quorum the row is left alone. -/
theorem unmarked_of_polled {library : UrlLibrary} {place : SharePlace}
    {outcome : ShareStatusOutcome} {share : LoadedShare} {w w' : DeliveryWorld}
    (ho : outcome ≠ .quorumObserved)
    (h : CutAt (polledWith library place outcome)
      (TrackingContext.pollAndConfirm share).run w w') : w' = w := by
  have hsafe : Safe (polledWith library place outcome) (· = w)
      (TrackingContext.pollAndConfirm share).run (fun _ _ => True) w := by
    refine ⟨rfl, ?_⟩
    intro answer _ hr
    obtain ⟨rfl, rfl⟩ := id hr
    cases answer with
    | quorumObserved => exact absurd rfl ho
    | quorumNotObserved | cancelled => exact ⟨rfl, trivial⟩
  exact hsafe.of_cutAt h

/-- What the reports of a poll have to do with how it ends. -/
structure ReportsCounted (serverUrls : List String) (stage : PollStage) (s : Polling) :
    Prop where
  distinct : s.reported.Nodup
  configured : s.reported ⊆ serverUrls
  observed : stage = .ended .quorumObserved → required serverUrls ≤ s.reported.length
  missed : stage = .ended .quorumNotObserved →
    s.reported.length < required serverUrls ∨ serverUrls = []
  /-- A search is cancelled with too few reports at its last drain; later ones are lost. -/
  cancelled : stage = .ended .cancelled →
    s.drained <:+ s.reported ∧ s.drained.length < required serverUrls
  /-- With no such later report the quorum is missing when the search is cancelled. -/
  current : stage = .ended .cancelled → s.reported = s.drained →
    s.reported.length < required serverUrls
  /-- The share is marked only if enough helpers have reported it. -/
  marked (library : UrlLibrary) (place : SharePlace) (share : LoadedShare)
    (outcome : ShareStatusOutcome) (w w' : DeliveryWorld) : stage = .ended outcome →
    CutAt (polledWith library place outcome) (TrackingContext.pollAndConfirm share).run w w' →
    w'.cell ≠ w.cell → required serverUrls ≤ s.reported.length

/-- In every order of finished polls, checks and expiry. -/
theorem polls_count_reports (hu : serverUrls.Nodup) (health : HelperHealth)
    (key : String → String) (now : Nat) (table : HealthTable)
    (h : Relation.ReflTransGen (Step (required serverUrls))
      (start serverUrls (health.candidateServers key now table serverUrls).1) (stage, s)) :
    ReportsCounted serverUrls stage s := by
  obtain ⟨ho, hlate, hc, hg⟩ :=
    counted_of_steps (health.candidateServers_perm key now table serverUrls) h
  obtain ⟨_, hp, hl⟩ := (sublist_append_right _ _).subperm.trans ho
  have hobserved : stage = .ended .quorumObserved → required serverUrls ≤ s.reported.length := by
    rintro rfl
    have hg : required serverUrls ≤ s.confirmations := hg
    simp only at hc
    omega
  have hcancelled : stage = .ended .cancelled → s.drained.length < required serverUrls := by
    rintro rfl
    exact hg
  constructor
  case distinct => exact hp.nodup_iff.mp (hl.nodup hu)
  case configured => exact fun x hx => hl.subset (hp.symm.subset hx)
  case observed => exact hobserved
  case missed =>
    rintro rfl
    refine (show _ ∨ _ from hg).imp_right fun hz => ?_
    simpa [required] using hz
  case cancelled => exact fun hs => ⟨hlate, hcancelled hs⟩
  case current => exact fun hs heq => heq ▸ hcancelled hs
  case marked =>
    intro library place share outcome w w' hs hcut hne
    by_cases hout : outcome = .quorumObserved
    · exact hobserved (hout ▸ hs)
    · exact absurd (congrArg DeliveryWorld.cell (unmarked_of_polled hout hcut)) hne

/-- What polling the helpers reaches. -/
def Polled (serverUrls : List String) (x : PollStage × Polling) : Prop :=
  Relation.ReflTransGen (Step (required serverUrls)) (start serverUrls
    ((HelperHealth.new 3 30).candidateServers id 0 ⟨[], nodup_nil⟩ serverUrls).1) x

/-- The second of two reports completes the quorum. -/
theorem polls_count_reports_two :
    Polled ["a", "b"] (.ended .quorumObserved, ⟨[], [], [], 2, false, ["b", "a"], ["a"]⟩) ∧
      required ["a", "b"] = 2 ∧ ReportsCounted ["a", "b"] (.ended .quorumObserved)
        ⟨[], [], [], 2, false, ["b", "a"], ["a"]⟩ := by
  have hspawned : Polled ["a", "b"] (.waiting, ⟨[], ["b", "a"], [], 0, false, [], []⟩) :=
    .head (.drained rfl) (.head (.check false false) (.head (.spawn rfl (by decide))
      (.head (.spawn rfl (by decide)) (.single (.spawned (.inl rfl))))))
  have hfirst : Polled ["a", "b"] (.waiting, ⟨[], ["b"], [], 1, false, ["a"], ["a"]⟩) :=
    (((((hspawned.tail (.finish "a" ["b"] [] true nofun rfl)).tail
      (.joinNext (.inr rfl) rfl)).tail (.drained rfl)).tail (.check false false)).tail
      (.spawned (.inl rfl)))
  have hs : Polled ["a", "b"]
      (.ended .quorumObserved, ⟨[], [], [], 2, false, ["b", "a"], ["a"]⟩) :=
    (hfirst.tail (.finish "b" [] [] true nofun rfl)).tail
      (@Step.joinNext 2 .waiting ⟨[], [], [("b", true)], 1, false, ["b", "a"], ["a"]⟩
        "b" true [] (.inr rfl) rfl)
  exact ⟨hs, rfl, polls_count_reports (by decide) _ _ _ _ hs⟩

/-- A report that comes in between the drain and the check for cancellation is lost. -/
theorem cancelled_with_quorum :
    Polled ["a"] (.ended .cancelled, ⟨[], [], [("a", true)], 0, false, ["a"], []⟩) ∧
      required ["a"] ≤ ["a"].length := by
  have hwaiting : Polled ["a"] (.waiting, ⟨[], ["a"], [], 0, false, [], []⟩) :=
    .head (.drained rfl) (.head (.check false false)
      (.head (.spawn rfl (by decide)) (.single (.spawned (.inl rfl)))))
  exact ⟨(((hwaiting.tail .timeout).tail (.drained rfl)).tail
    (.finish "a" [] [] true nofun rfl)).tail (.check true false), by decide⟩

end Polling

end ZcashVoting.ShareDelivery
