import Mathlib
import ZcashVoting.ShareDelivery.HelperUrl

/-!
# Delivery state of one share

What is known about each helper: nothing, a POST in flight, a POST of unknown outcome, or
an acceptance. The state keeps a list of helpers for each of the last three; that no
helper is in two of them is part of the state. Read as a function from helpers to
evidence, every report raises the evidence of the helper it names to at least its own
rank, and only a definite failure lowers it, from in flight.
-/
namespace ZcashVoting.ShareDelivery

open KeyedData List

/-! ### Evidence -/

/-- What is known about a helper's copy of a share. -/
inductive Evidence where
  | unrecorded
  | inFlight
  | outcomeUnknown
  | accepted
  deriving DecidableEq

namespace Evidence

def rank : Evidence → Nat
  | unrecorded => 0
  | inFlight => 1
  | outcomeUnknown => 2
  | accepted => 3

/-- Evidence with at least the rank of the one reported. -/
def raise (reported known : Evidence) : Evidence :=
    if known.rank < reported.rank then reported else known

/-- A definite failure ends a POST in flight; it says nothing about earlier ones. -/
def fail : Evidence → Evidence
  | inFlight => unrecorded
  | known => known

end Evidence

/-! ### The state -/

/-- `ShareDeliveryState`. A helper has exactly one state. -/
structure ShareDeliveryState where
  (acceptedUrls outcomeUnknownUrls inFlightUrls : List String)
  accepted_unknown : ∀ url ∈ acceptedUrls, url ∉ outcomeUnknownUrls
  accepted_inFlight : ∀ url ∈ acceptedUrls, url ∉ inFlightUrls
  unknown_inFlight : ∀ url ∈ outcomeUnknownUrls, url ∉ inFlightUrls

/-- `retain(|candidate| candidate != url)` -/
def removeUrl (urls : List String) (url : String) :
    List String := urls.filter fun candidate => candidate ≠ url

theorem mem_removeUrl {urls : List String} {url u : String} :
    u ∈ removeUrl urls url ↔ u ∈ urls ∧ u ≠ url := by
  simp [removeUrl]

namespace ShareDeliveryState

/-- `Default` -/
def empty : ShareDeliveryState := ⟨[], [], [], by simp, by simp, by simp⟩

variable (s : ShareDeliveryState)

def contains (url : String) : Bool :=
  s.acceptedUrls.contains url || s.outcomeUnknownUrls.contains url || s.inFlightUrls.contains url

def markAcceptedCanonical (url : String) : ShareDeliveryState where
  acceptedUrls := pushNew s.acceptedUrls url
  outcomeUnknownUrls := removeUrl s.outcomeUnknownUrls url
  inFlightUrls := removeUrl s.inFlightUrls url
  accepted_unknown := by
    intro u hu hmem
    rw [mem_pushNew] at hu
    rw [mem_removeUrl] at hmem
    exact hu.elim (fun h => s.accepted_unknown u h hmem.1) hmem.2
  accepted_inFlight := by
    intro u hu hmem
    rw [mem_pushNew] at hu
    rw [mem_removeUrl] at hmem
    exact hu.elim (fun h => s.accepted_inFlight u h hmem.1) hmem.2
  unknown_inFlight := by
    intro u hu hmem
    rw [mem_removeUrl] at hu hmem
    exact s.unknown_inFlight u hu.1 hmem.1

def markOutcomeUnknownCanonical (url : String) : ShareDeliveryState where
  acceptedUrls := s.acceptedUrls
  outcomeUnknownUrls :=
    if url ∉ s.acceptedUrls ∧ url ∉ s.outcomeUnknownUrls then s.outcomeUnknownUrls ++ [url]
    else s.outcomeUnknownUrls
  inFlightUrls := removeUrl s.inFlightUrls url
  accepted_unknown := by
    intro u hu
    split
    · next hnew =>
      rw [mem_append, mem_singleton, not_or]
      exact ⟨s.accepted_unknown u hu, fun heq => hnew.1 (heq ▸ hu)⟩
    · exact s.accepted_unknown u hu
  accepted_inFlight := by
    intro u hu hmem
    rw [mem_removeUrl] at hmem
    exact s.accepted_inFlight u hu hmem.1
  unknown_inFlight := by
    intro u hu hmem
    rw [mem_removeUrl] at hmem
    split at hu
    · rw [mem_append, mem_singleton] at hu
      exact hu.elim (fun h => s.unknown_inFlight u h hmem.1) hmem.2
    · exact s.unknown_inFlight u hu hmem.1

/-- The POST to a helper with no state goes in flight. -/
def startCanonical (url : String) : ShareDeliveryState :=
  if h : s.contains url then s
  else {
    s with
    inFlightUrls := s.inFlightUrls ++ [url]
    accepted_inFlight := by
      intro u hu hmem
      rcases mem_append.mp hmem with hold | hnew
      · exact s.accepted_inFlight u hu hold
      · rw [mem_singleton] at hnew
        subst hnew
        exact h (by simp [contains, hu])
    unknown_inFlight := by
      intro u hu hmem
      rcases mem_append.mp hmem with hold | hnew
      · exact s.unknown_inFlight u hu hold
      · rw [mem_singleton] at hnew
        subst hnew
        exact h (by simp [contains, hu]) }

def failCanonical (url : String) : ShareDeliveryState where
  acceptedUrls := s.acceptedUrls
  outcomeUnknownUrls := s.outcomeUnknownUrls
  inFlightUrls := removeUrl s.inFlightUrls url
  accepted_unknown := s.accepted_unknown
  accepted_inFlight := by
    intro u hu hmem
    exact s.accepted_inFlight u hu (mem_removeUrl.mp hmem).1
  unknown_inFlight := by
    intro u hu hmem
    exact s.unknown_inFlight u hu (mem_removeUrl.mp hmem).1

section

variable (library : UrlLibrary)

variable (s : ShareDeliveryState)

/-- Merges a persisted report; weaker evidence never replaces stronger evidence. -/
def mergePersistedReport (acceptedUrls outcomeUnknownUrls : List String) :
    Except VotingError ShareDeliveryState := do
  let accepted ← canonicalHelperUrlList library acceptedUrls
  let unknown ← canonicalHelperUrlList library outcomeUnknownUrls
  return unknown.foldl markOutcomeUnknownCanonical (accepted.foldl markAcceptedCanonical s)

def fromUrlLists (acceptedUrls outcomeUnknownUrls inFlightUrls : List String) :
    Except VotingError ShareDeliveryState := do
  let state ← empty.mergePersistedReport library acceptedUrls outcomeUnknownUrls
  let inFlight ← canonicalHelperUrlList library inFlightUrls
  return inFlight.foldl startCanonical state

/-- Starts a new attempt unless this helper already has any delivery state. -/
def begin (url : String) : Except VotingError (Bool × ShareDeliveryState) := do
  let url ← canonicalizeHelperBaseUrl library url
  return (!s.contains url, s.startCanonical url)

def markAccepted (url : String) : Except VotingError ShareDeliveryState := do
  let url ← canonicalizeHelperBaseUrl library url
  return s.markAcceptedCanonical url

def markOutcomeUnknown (url : String) : Except VotingError ShareDeliveryState := do
  let url ← canonicalizeHelperBaseUrl library url
  return s.markOutcomeUnknownCanonical url

def markDefiniteFailure (url : String) : Except VotingError ShareDeliveryState := do
  let url ← canonicalizeHelperBaseUrl library url
  return s.failCanonical url

end

/-! ### The state as evidence -/

/-- What the state knows about a helper. -/
def evidence (url : String) : Evidence :=
  if url ∈ s.acceptedUrls then .accepted
  else if url ∈ s.outcomeUnknownUrls then .outcomeUnknown
  else if url ∈ s.inFlightUrls then .inFlight
  else .unrecorded

variable {s : ShareDeliveryState} {url u : String}

theorem evidence_eq_accepted : s.evidence u = .accepted ↔ u ∈ s.acceptedUrls := by
  unfold evidence
  split
  · simp [*]
  · split
    · simp [*]
    · split <;> simp [*]

theorem evidence_eq_unknown : s.evidence u = .outcomeUnknown ↔ u ∈ s.outcomeUnknownUrls := by
  unfold evidence
  split
  · next h => simp [s.accepted_unknown u h]
  · split
    · simp [*]
    · split <;> simp [*]

theorem evidence_eq_inFlight : s.evidence u = .inFlight ↔ u ∈ s.inFlightUrls := by
  unfold evidence
  split
  · next h => simp [s.accepted_inFlight u h]
  · split
    · next h => simp [s.unknown_inFlight u h]
    · split <;> simp [*]

theorem contains_iff : s.contains u = true ↔ s.evidence u ≠ .unrecorded := by
  unfold evidence
  simp only [contains, Bool.or_eq_true]
  split
  · simp [*]
  · split
    · simp [*]
    · split <;> simp [*]

@[simp] theorem evidence_empty : empty.evidence u = .unrecorded := rfl

theorem evidence_markAcceptedCanonical :
    (s.markAcceptedCanonical url).evidence u = if u = url then .accepted else s.evidence u := by
  by_cases hu : u = url
  · rw [if_pos hu, evidence_eq_accepted]
    simp [markAcceptedCanonical, mem_pushNew, hu]
  · rw [if_neg hu]
    simp [evidence, markAcceptedCanonical, mem_pushNew, mem_removeUrl, hu]

theorem evidence_markOutcomeUnknownCanonical : (s.markOutcomeUnknownCanonical url).evidence u =
      if u = url then .raise .outcomeUnknown (s.evidence u) else s.evidence u := by
  by_cases hu : u = url
  · subst hu
    rw [if_pos rfl]
    by_cases ha : u ∈ s.acceptedUrls
    · rw [evidence_eq_accepted.mpr ha]
      exact evidence_eq_accepted.mpr ha
    have hun : (s.markOutcomeUnknownCanonical u).evidence u = .outcomeUnknown := by
      rw [evidence_eq_unknown]
      by_cases h : u ∈ s.outcomeUnknownUrls <;> simp [markOutcomeUnknownCanonical, ha, h]
    have hnot : s.evidence u ≠ .accepted := fun h => ha (evidence_eq_accepted.mp h)
    cases h : s.evidence u <;> simp_all [Evidence.raise, Evidence.rank]
  · rw [if_neg hu]
    have hmem : u ∈ (s.markOutcomeUnknownCanonical url).outcomeUnknownUrls ↔
        u ∈ s.outcomeUnknownUrls := by
      unfold markOutcomeUnknownCanonical
      split <;> simp [hu]
    simp only [evidence, hmem]
    simp [markOutcomeUnknownCanonical, mem_removeUrl, hu]

theorem evidence_startCanonical : (s.startCanonical url).evidence u =
      if u = url then .raise .inFlight (s.evidence u) else s.evidence u := by
  unfold startCanonical
  split
  · next hc =>
    split
    · next hu =>
      have hkn := contains_iff.mp hc
      cases h : s.evidence u <;> simp_all [Evidence.raise, Evidence.rank]
    · rfl
  · next hc =>
    by_cases hu : u = url
    · subst hu
      have hno : s.evidence u = .unrecorded := by
        by_contra hne
        exact hc (contains_iff.mpr hne)
      rw [if_pos rfl, hno, show Evidence.raise .inFlight .unrecorded = .inFlight from rfl,
        evidence_eq_inFlight]
      simp
    · rw [if_neg hu]
      simp [evidence, hu]

/-! ### Reports -/

/-- A report on each helper of a list, where repeating a report changes nothing. -/
theorem evidence_foldl {mark : ShareDeliveryState → String → ShareDeliveryState}
    (change : Evidence → Evidence)
    (hma : ∀ s url u, (mark s url).evidence u = if u = url then change (s.evidence u) else s.evidence u)
    (hch : ∀ e, change (change e) = change e) (urls : List String) (s : ShareDeliveryState)
    (u : String) :
    (urls.foldl mark s).evidence u = if u ∈ urls then change (s.evidence u) else s.evidence u := by
  induction urls generalizing s with
  | nil => simp
  | cons url _ ih =>
    rw [foldl_cons, ih, hma]
    by_cases hu : u = url
    · subst hu
      simp [hch]
    · simp [hu]

theorem evidence_foldl_markAccepted (urls : List String) (s : ShareDeliveryState) (u : String) :
    (urls.foldl markAcceptedCanonical s).evidence u =
    if u ∈ urls then .accepted else s.evidence u :=
  evidence_foldl (fun _ => .accepted) (fun _ _ _ => evidence_markAcceptedCanonical)
    (fun _ => rfl) urls s u

theorem raise_raise (reported known : Evidence) :
    Evidence.raise reported (.raise reported known) = .raise reported known := by
  cases reported <;> cases known <;> rfl

theorem evidence_foldl_markOutcomeUnknown (urls : List String) (s : ShareDeliveryState)
    (u : String) :
    (urls.foldl markOutcomeUnknownCanonical s).evidence u =
      if u ∈ urls then .raise .outcomeUnknown (s.evidence u) else s.evidence u :=
  evidence_foldl (.raise .outcomeUnknown) (fun _ _ _ =>
    evidence_markOutcomeUnknownCanonical) (raise_raise _) urls s u

theorem evidence_foldl_start (urls : List String) (s : ShareDeliveryState) (u : String) :
    (urls.foldl startCanonical s).evidence u =
      if u ∈ urls then .raise .inFlight (s.evidence u) else s.evidence u :=
  evidence_foldl (.raise .inFlight) (fun _ _ _ => evidence_startCanonical) (raise_raise _) urls s u

variable {library : UrlLibrary} {s' : ShareDeliveryState} {accepted unknown inFlight : List String}

/-- What an accepted report does to the evidence about each helper. -/
theorem evidence_mergePersistedReport (h : s.mergePersistedReport library accepted unknown = .ok s')
    (u : String) : s'.evidence u = if u ∈ canonicalForms library accepted then .accepted
      else if u ∈ canonicalForms library unknown then .raise .outcomeUnknown (s.evidence u)
      else s.evidence u := by
  obtain ⟨_, hac, h⟩ := bind_ok h
  obtain ⟨_, hun, h⟩ := bind_ok h
  cases h
  rw [evidence_foldl_markOutcomeUnknown, evidence_foldl_markAccepted]
  simp only [mem_canonicalHelperUrlList hac, mem_canonicalHelperUrlList hun]
  by_cases hu : u ∈ canonicalForms library accepted
  · simp [hu, Evidence.raise, Evidence.rank]
  · simp [hu]

/-- The state of three lists: the strongest list that names a helper counts. -/
theorem evidence_fromUrlLists (h : fromUrlLists library accepted unknown inFlight = .ok s)
    (u : String) :
    s.evidence u = if u ∈ canonicalForms library accepted then .accepted
      else if u ∈ canonicalForms library unknown then .outcomeUnknown
      else if u ∈ canonicalForms library inFlight then .inFlight else .unrecorded := by
  obtain ⟨_, hme, h⟩ := bind_ok h
  obtain ⟨_, hin, h⟩ := bind_ok h
  cases h
  rw [evidence_foldl_start, evidence_mergePersistedReport hme, evidence_empty]
  simp only [mem_canonicalHelperUrlList hin]
  by_cases hac : u ∈ canonicalForms library accepted <;>
    by_cases hun : u ∈ canonicalForms library unknown <;>
    by_cases hfl : u ∈ canonicalForms library inFlight <;>
    simp [hac, hun, Evidence.raise, Evidence.rank]

end ShareDeliveryState

end ZcashVoting.ShareDelivery
