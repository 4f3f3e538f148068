import ZcashVoting.ChainSubmission.State
import ZcashVoting.Lib.KeyedMap

/-!
# Histories of one row

A row starts absent and takes observations in any order; one that its state does not admit
changes nothing. Between observations the store may retire the candidate of a recovering
row when it reserves a retry. The transition function sees the state only. What a state
says about the past is kept here as an invariant of the state and of the observations
accepted so far.
-/
namespace ZcashVoting.ChainSubmission

open KeyedData

/-- The state of a row and the observations it has accepted, oldest first. -/
structure RowHistory where
  state : Option SubmissionRecordState
  applied : List SubmissionObservation

inductive RowEvent where
  | observed (observation : SubmissionObservation)
  /-- The reservation of a recovery retry. -/
  | candidateRetired

namespace RowHistory

def absent : RowHistory := ⟨none, []⟩

def observe (row : RowHistory) (observation : SubmissionObservation) : RowHistory :=
  match applySubmissionObservation row.state observation with
  | .ok state => ⟨state, row.applied ++ [observation]⟩
  | .error _ => row

def retireCandidate (row : RowHistory) : RowHistory :=
  match row.state with
  | some (.recovering _ diagnostic) => { row with state := some (.recovering none diagnostic) }
  | _ => row

def next (row : RowHistory) : RowEvent → RowHistory
  | .observed observation => row.observe observation
  | .candidateRetired => row.retireCandidate

def run (row : RowHistory) (events : List RowEvent) : RowHistory := events.foldl next row

end RowHistory

/-- Observations after which the submission may have reached the chain. -/
def SubmissionObservation.mayHaveDispatched : SubmissionObservation → Bool
  | usableCandidateHash _ => true
  | possiblyDispatched _ => true
  | abandonedSubmitting _ => true
  | _ => false

/-! ### Transitions by where they lead -/

section

variable {current next : Option SubmissionRecordState} {state : SubmissionRecordState}
  {observation : SubmissionObservation} {confirmation : ChainSubmissionConfirmation}

theorem apply_absent (h : applySubmissionObservation current observation = .ok none) :
    current = some .submitting ∧ observation = .definitelyUnsent := by
  unfold applySubmissionObservation at h
  split at h
  case h_2 => exact ⟨rfl, rfl⟩
  all_goals first
    | cases h
    | (obtain ⟨_, -, h⟩ := bind_ok h; cases h)
    | (split at h <;> cases h)

theorem apply_submitting
    (h : applySubmissionObservation current observation = .ok (some .submitting)) :
    current = none ∧ observation = .reserveFreshSubmission := by
  unfold applySubmissionObservation at h
  split at h
  case h_1 => exact ⟨rfl, rfl⟩
  all_goals first
    | cases h
    | (obtain ⟨_, -, h⟩ := bind_ok h; cases h)
    | (split at h <;> cases h)

theorem apply_confirmed {confirmed : ValidatedChainSubmissionConfirmation}
    (h : applySubmissionObservation current observation = .ok (some (.confirmed confirmed))) :
    observation = .confirmed confirmed := by
  unfold applySubmissionObservation at h
  split at h
  case h_15 =>
    obtain ⟨_, -, h⟩ := bind_ok h
    cases h
    rfl
  case h_25 =>
    obtain ⟨_, -, h⟩ := bind_ok h
    cases h
    rfl
  case h_26 =>
    split at h
    · next heq =>
      cases h
      rw [heq]
    · cases h
  all_goals first
    | cases h
    | (split at h <;> cases h)

/-- A terminal state admits only the confirmation it holds. -/
theorem apply_terminal (ht : state.isTerminal = true)
    (h : applySubmissionObservation (some state) observation = .ok next) :
    next = some state ∧ ∃ confirmation, state = .confirmed confirmation ∧
      observation = .confirmed confirmation := by
  cases state with
  | submitting | tracking | recovering => cases ht
  | submittedWithoutHash | rejected => cases observation <;> cases h
  | confirmed existing =>
    cases observation with
    | confirmed =>
      simp only [applySubmissionObservation] at h
      split at h
      · next heq => exact ⟨(Except.ok.inj h).symm, existing, rfl, by rw [heq]⟩
      · cases h
    | _ => cases h

theorem apply_terminalRejection {diagnostic : ChainSubmissionDiagnostic}
    (h : applySubmissionObservation current (.terminalRejection diagnostic) = .ok next) :
    current = some .submitting := by
  cases current with
  | none => cases h
  | some state =>
    cases state with
    | submitting => rfl
    | _ => cases h

/-- A confirmation by hash names the candidate of the row, or repeats the one the row holds. -/
theorem apply_hash
    (h : applySubmissionObservation current (.confirmed (.hash confirmation)) = .ok next) :
    next = some (.confirmed (.hash confirmation)) ∧
      (current = some (.confirmed (.hash confirmation)) ∨
        ∃ candidate, confirmation.transactionHash = some candidate ∧
          current.bind SubmissionRecordState.candidateColumn = some candidate) := by
  have hm {candidate : CandidateTransactionHash}
      (h : requireHashConfirmationForCandidate (.hash confirmation) candidate = .ok ()) :
      confirmation.transactionHash = some candidate := by
    simp only [requireHashConfirmationForCandidate] at h
    split at h
    · assumption
    · cases h
  cases current with
  | none => cases h
  | some state =>
    cases state with
    | submitting | submittedWithoutHash | rejected => cases h
    | tracking candidate =>
      obtain ⟨_, hr, h⟩ := bind_ok h
      exact ⟨(Except.ok.inj h).symm, .inr ⟨candidate, hm hr, rfl⟩⟩
    | recovering candidate =>
      cases candidate with
      | none => cases h
      | some candidate =>
        obtain ⟨_, hr, h⟩ := bind_ok h
        exact ⟨(Except.ok.inj h).symm, .inr ⟨candidate, hm hr, rfl⟩⟩
    | confirmed =>
      simp only [applySubmissionObservation] at h
      split at h
      · next heq =>
        subst heq
        exact ⟨(Except.ok.inj h).symm, .inl rfl⟩
      · cases h

end

/-! ### What a state says about the past -/

namespace RowHistory

variable {row : RowHistory}

/-- A row without a dispatch behind it has only been reserved and found unsent. A row
confirmed by hash has a hash. -/
structure Remembers (row : RowHistory) : Prop where
  undispatched : row.state = none ∨ row.state = some .submitting →
    ∀ observation ∈ row.applied, observation = .reserveFreshSubmission ∨
      observation = .definitelyUnsent
  hashed : ∀ confirmation, row.state = some (.confirmed (.hash confirmation)) →
    confirmation.transactionHash.isSome = true

theorem remembers_absent : Remembers absent where
  undispatched _ _ hmem := nomatch hmem
  hashed _ h := nomatch h

/-- Into a state before any dispatch leads only a state before any dispatch. -/
theorem undispatched_before {current next : Option SubmissionRecordState}
    {observation : SubmissionObservation}
    (h : applySubmissionObservation current observation = .ok next)
    (hne : next = none ∨ next = some .submitting) :
    (current = none ∨ current = some .submitting) ∧
      (observation = .reserveFreshSubmission ∨ observation = .definitelyUnsent) := by
  rcases hne with rfl | rfl
  · obtain ⟨rfl, rfl⟩ := apply_absent h
    exact ⟨.inr rfl, .inr rfl⟩
  · obtain ⟨rfl, rfl⟩ := apply_submitting h
    exact ⟨.inl rfl, .inl rfl⟩

theorem Remembers.observe (h : row.Remembers) (observation : SubmissionObservation) :
    (row.observe observation).Remembers := by
  unfold RowHistory.observe
  split
  case h_2 => exact h
  case h_1 next ha =>
  refine ⟨fun hn seen hs => ?_, fun confirmation hn => ?_⟩
  · obtain ⟨hc, hob⟩ := undispatched_before ha hn
    rcases List.mem_append.mp hs with hs | hs
    · exact h.undispatched hc seen hs
    · obtain rfl := List.mem_singleton.mp hs
      exact hob
  · dsimp only at hn
    subst hn
    obtain rfl := apply_confirmed ha
    obtain ⟨-, hc | ⟨_, hha, -⟩⟩ := apply_hash ha
    · exact h.hashed confirmation hc
    · rw [hha]
      rfl

theorem Remembers.retireCandidate (h : row.Remembers) : row.retireCandidate.Remembers := by
  unfold RowHistory.retireCandidate
  split
  · exact ⟨fun hs => (by rcases hs with hs | hs <;> cases hs), nofun⟩
  · exact h

theorem Remembers.run (h : row.Remembers) (events : List RowEvent) :
    (row.run events).Remembers := by
  induction events generalizing row with
  | nil => exact h
  | cons event _ ih =>
    cases event with
    | observed observation => exact ih (h.observe observation)
    | candidateRetired => exact ih h.retireCandidate

theorem run_terminal {state : SubmissionRecordState} (hs : row.state = some state)
    (ht : state.isTerminal = true) (events : List RowEvent) :
    (row.run events).state = some state := by
  induction events generalizing row with
  | nil => exact hs
  | cons event _ ih =>
    refine @ih (row.next event) ?_
    cases event with
    | observed =>
      rw [RowHistory.next, RowHistory.observe]
      split
      · next ha =>
        rw [hs] at ha
        exact (apply_terminal ht ha).1
      · exact hs
    | candidateRetired =>
      rw [RowHistory.next, RowHistory.retireCandidate]
      split
      · next candidate diagnostic hre =>
        cases hs.symm.trans hre
        cases ht
      · exact hs

/-! ### The lifecycle over whole histories -/

/-- What a row admits next, given its history. -/
structure Disciplined (row : RowHistory) : Prop where
  absorbing : ∀ {state observation next}, row.state = some state → state.isTerminal = true →
    applySubmissionObservation row.state observation = .ok next →
    next = row.state ∧ ∃ confirmation, state = .confirmed confirmation ∧
      observation = .confirmed confirmation
  replayed : ∀ {confirmation}, row.state = some (.confirmed confirmation) →
    applySubmissionObservation row.state (.confirmed confirmation) = .ok row.state
  final : ∀ {state} (events : List RowEvent), row.state = some state → state.isTerminal = true →
    (row.run events).state = row.state
  removed : ∀ {observation}, applySubmissionObservation row.state observation = .ok none →
    row.state = some .submitting
  candidate : ∀ {confirmation next},
    applySubmissionObservation row.state (.confirmed (.hash confirmation)) = .ok next →
    ∃ candidate, confirmation.transactionHash = some candidate ∧
      row.state.bind SubmissionRecordState.candidateColumn = some candidate
  rejection : ∀ {diagnostic next},
    applySubmissionObservation row.state (.terminalRejection diagnostic) = .ok next →
    ∀ observation ∈ row.applied, observation.mayHaveDispatched = false

/-- Every history of a row that starts absent keeps to the lifecycle. -/
theorem run_disciplined (events : List RowEvent) : (absent.run events).Disciplined := by
  have hr := remembers_absent.run events
  constructor
  case absorbing =>
    intro state observation next hs ht ha
    rw [hs] at ha ⊢
    exact apply_terminal ht ha
  case replayed =>
    intro confirmation hs
    rw [hs]
    simp [applySubmissionObservation]
  case final =>
    intro state events hs ht
    rw [run_terminal hs ht events, hs]
  case removed => exact fun ha => (apply_absent ha).1
  case candidate =>
    intro confirmation next ha
    obtain ⟨-, hs | hca⟩ := apply_hash ha
    · obtain ⟨candidate, hh⟩ := Option.isSome_iff_exists.mp (hr.hashed confirmation hs)
      exact ⟨candidate, hh, by rw [hs]; exact hh⟩
    · exact hca
  case rejection =>
    intro diagnostic next ha observation hmem
    rcases hr.undispatched (.inr (apply_terminalRejection ha)) observation hmem with rfl | rfl <;>
      rfl

/-- A row that was found unsent and reserved again can still be rejected for good. -/
example (diagnostic : ChainSubmissionDiagnostic) :
    (absent.run [.observed .reserveFreshSubmission, .observed .definitelyUnsent, .observed .reserveFreshSubmission,
      .observed (.terminalRejection diagnostic)]).state = some (.rejected diagnostic) := rfl

end RowHistory

end ZcashVoting.ChainSubmission
