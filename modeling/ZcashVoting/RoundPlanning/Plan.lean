import ZcashVoting.RoundPlanning.Classify

/-!
# What the passes plan

The accumulators of the classifier in closed form. The first loop and the on-wire pass
ask for work: a unit to reconcile, or the shares of a vote to deliver. Every piece asked
for is planned exactly once, whoever asks (`Planned`). What the first loop records beside
that is read off the outcome of each pair it visited (`Recorded`).
-/
namespace ZcashVoting.RoundPlanning

open ChainSubmission KeyedData List PairOutcome

namespace Obligation

inductive Kind where
  | delegate
  | advanceDelegation
  | retire
  | cast
  | blocked
  | reconcileChain
  | deliver
  | confirm
  deriving DecidableEq

def kind : Obligation → Kind
  | .delegate .. => .delegate
  | .advanceDelegation .. => .advanceDelegation
  | .retire .. => .retire
  | .cast .. => .cast
  | .blocked .. => .blocked
  | .reconcileChain .. => .reconcileChain
  | .deliver .. => .deliver
  | .confirm .. => .confirm

@[simp] theorem kind_withPrerequisite (bundles : List Nat) (o : Obligation) :
    (o.withPrerequisite bundles).kind = o.kind := by
  cases o <;> rfl

end Obligation

/-- A piece of work the passes ask for. -/
inductive Work where
  | unit (unit : VoteUnit)
  | shares (key : VoteKey)
  deriving DecidableEq

def Work.obligations (s : RoundSnapshot) : Work → List Obligation
  | unit u => [reconcileObligation s u]
  | shares key => (deliverObligation s key.bundleIndex key.proposalId).toOption.getD []

variable {s : RoundSnapshot}

/-- The `Deliver` of a vote names its missing shares; none is planned when none is missing. -/
theorem deliverObligation_ok {b p : Nat} {owed : List Obligation}
    (h : deliverObligation s b p = .ok owed) : ∃ missing, missingShareIndexes s b p = .ok missing ∧
      (missing = [] ∧ owed = [] ∨ missing ≠ [] ∧ ∃ position,
          owed = [.deliver b p position missing none]) := by
  obtain ⟨missing, hmi, h⟩ := bind_ok h
  refine ⟨missing, hmi, ?_⟩
  split at h
  · rename_i hnil
    exact .inl ⟨by simpa using hnil, (Except.ok.inj h).symm⟩
  rename_i hnil
  obtain ⟨position, -, h⟩ := bind_ok h
  cases position with
  | none => cases h
  | some position => exact .inr ⟨by simpa using hnil, position, (Except.ok.inj h).symm⟩

/-- A piece of work plans at most one obligation. -/
theorem Work.obligations_cases (w : Work) :
    (∃ u, w = .unit u ∧ w.obligations s = [reconcileObligation s u]) ∨
    ∃ key, w = .shares key ∧ (w.obligations s = [] ∨ ∃ position missing,
      w.obligations s = [.deliver key.bundleIndex key.proposalId position missing none]) := by
  cases w with
  | unit u => exact .inl ⟨u, rfl, rfl⟩
  | shares key =>
    refine .inr ⟨key, rfl, ?_⟩
    cases hok : deliverObligation s key.bundleIndex key.proposalId with
    | error => exact .inl (by simp [Work.obligations, hok, Except.toOption])
    | ok owed =>
      have ho : Work.obligations s (.shares key) = owed := by
        simp [Work.obligations, hok, Except.toOption]
      obtain ⟨missing, -, ⟨-, rfl⟩ | ⟨-, position, rfl⟩⟩ := deliverObligation_ok hok
      · exact .inl ho
      · exact .inr ⟨position, missing, ho⟩

variable {o : Obligation} {w : Work}

theorem Work.obligation_cases (h : o ∈ w.obligations s) :
    w.obligations s = [o] ∧ ((∃ u, w = .unit u ∧ o = reconcileObligation s u) ∨
        ∃ key position missing,
      w = .shares key ∧ o = .deliver key.bundleIndex key.proposalId position missing none) := by
  rcases Work.obligations_cases (s := s) w with ⟨u, rfl, hw⟩ | ⟨key, rfl,
    hw | ⟨position, missing, hw⟩⟩
  · obtain rfl := mem_singleton.mp (hw ▸ h)
    exact ⟨hw, .inl ⟨u, rfl, rfl⟩⟩
  · rw [hw] at h
    cases h
  · obtain rfl := mem_singleton.mp (hw ▸ h)
    exact ⟨hw, .inr ⟨key, position, missing, rfl, rfl⟩⟩

theorem Work.kind_obligations (h : o ∈ w.obligations s) :
    o.kind = .reconcileChain ∨ o.kind = .deliver := by
  rcases (Work.obligation_cases h).2 with ⟨_, -, rfl⟩ | ⟨_, _, _, -, rfl⟩
  · exact .inl rfl
  · exact .inr rfl

namespace Classification

variable {c : Classification} {b p : Nat} {u : VoteUnit} {vote : VoteSnapshot}

theorem unitOf_ok (h : c.unitOf b p = .ok u) : u ∈ c.units ∧ u.Has b p := by
  unfold unitOf at h
  split at h
  · rename_i unit hf
    cases h
    refine ⟨mem_of_find?_eq_some hf, ?_⟩
    have hhas := List.find?_some hf
    simpa [VoteUnit.Has, VoteUnit.contains] using hhas
  · cases h

theorem unitOf_of_vote (hu : UnitsOf c.snapshot c.units) (hv : c.snapshot.vote? b p = some vote) :
    ∃ unit, c.unitOf b p = .ok unit ∧ unit.phase = vote.phase := by
  obtain ⟨unit, hmem, hhas⟩ := hu.covers b p vote hv
  have hso : (c.units.find? fun unit => unit.bundleIndex = b && unit.contains p).isSome := by
    rw [List.find?_isSome]
    exact ⟨unit, hmem, by simpa [VoteUnit.Has, VoteUnit.contains] using hhas⟩
  obtain ⟨found, hfo⟩ := Option.isSome_iff_exists.mp hso
  have hok : c.unitOf b p = .ok found := by simp only [unitOf, hfo]
  obtain ⟨hfm, hfh⟩ := unitOf_ok hok
  obtain ⟨_, hv', hph⟩ := hu.vote_of_has hfm hfh
  rw [hv] at hv'
  cases hv'
  exact ⟨found, hok, hph.symm⟩

/-! ### Work is planned once -/

/-- The obligations are the retirements and those of the work `done`. -/
structure Planned (c : Classification) (done : List Work) (works : Works) : Prop where
  distinct : done.Nodup
  obligations : works.obligations = c.retirements ++ done.flatMap (Work.obligations c.snapshot)
  reconciled : ∀ unit ∈ c.units, unit.id ∈ works.reconciledUnits ↔ .unit unit ∈ done
  delivered : ∀ key, key ∈ works.deliveredVotes ↔ .shares key ∈ done
  owned : ∀ unit, .unit unit ∈ done → unit ∈ c.units
  owed : ∀ key, .shares key ∈ done →
    ∃ owed, deliverObligation c.snapshot key.bundleIndex key.proposalId = .ok owed
  signed : ∀ unit, .unit unit ∈ done → unit.phase = .submitted → ∀ member ∈ unit.members,
    member.recovery.isSome = true

theorem planned_start (c : Classification) : c.Planned [] ⟨c.retirements, [], []⟩ := by
  constructor <;> simp

variable {done : List Work} {works works' : Works}

theorem mem_or_eq_of_mem {work : Work} (h : work ∈ done) (w : Work) :
    w ∈ done ↔ w ∈ done ∨ w = work :=
  ⟨.inl, fun hw => hw.elim id fun heq => heq ▸ h⟩

theorem Planned.reconcile (hP : c.Planned done works) (hu : UnitsOf c.snapshot c.units)
    (hmem : u ∈ c.units) (h : RoundPlanning.reconcile c.snapshot works u = .ok works') :
    ∃ done', c.Planned done' works' ∧ ∀ w, w ∈ done' ↔ w ∈ done ∨ w = .unit u := by
  unfold RoundPlanning.reconcile at h
  split at h
  · cases h
  rename_i hs
  split at h
  · rename_i hin
    cases h
    exact ⟨done, hP, mem_or_eq_of_mem ((hP.reconciled u hmem).mp (by simpa using hin))⟩
  · rename_i hin
    cases h
    have hnew : Work.unit u ∉ done := fun hd => hin (by simpa using (hP.reconciled u hmem).mpr hd)
    refine ⟨done ++ [.unit u], ⟨?_, ?_, ?_, ?_, ?_, ?_, ?_⟩, by simp⟩
    · simpa using hP.distinct.concat hnew
    · simp [hP.obligations, Work.obligations]
    · intro unit hun
      simp only [mem_cons, mem_append, not_mem_nil, or_false, hP.reconciled unit hun,
        Work.unit.injEq]
      constructor
      · rintro (hid | hd)
        · exact .inr (hu.byId unit hun u hmem hid)
        · exact .inl hd
      · rintro (hd | rfl)
        · exact .inr hd
        · exact .inl rfl
    · simpa using hP.delivered
    · intro unit hun
      rcases mem_append.mp hun with hd | hd
      · exact hP.owned unit hd
      · obtain rfl : unit = u := by simpa using hd
        exact hmem
    · simpa using hP.owed
    · intro unit hun hp member hm
      rcases mem_append.mp hun with hd | hd
      · exact hP.signed unit hd hp member hm
      · obtain rfl : unit = u := by simpa using hd
        rw [List.find?_eq_none] at hs
        simpa [hp, Option.isSome_iff_ne_none] using hs member hm

theorem Planned.deliver (hP : c.Planned done works)
    (h : RoundPlanning.deliver c.snapshot works b p = .ok works') :
    ∃ done', c.Planned done' works' ∧ ∀ w, w ∈ done' ↔ w ∈ done ∨ w = .shares ⟨b, p⟩ := by
  unfold RoundPlanning.deliver at h
  split at h
  · rename_i hin
    cases h
    exact ⟨done, hP, mem_or_eq_of_mem ((hP.delivered _).mp (by simpa using hin))⟩
  · rename_i hin
    obtain ⟨owed, ho, h⟩ := bind_ok h
    cases h
    have hnew : Work.shares ⟨b, p⟩ ∉ done := fun hd => hin (by simpa using (hP.delivered _).mpr hd)
    refine ⟨done ++ [.shares ⟨b, p⟩], ⟨?_, ?_, ?_, ?_, ?_, ?_, by simpa using hP.signed⟩, by simp⟩
    · simpa using hP.distinct.concat hnew
    · simp [hP.obligations, Work.obligations, ho, Except.toOption]
    · simpa using hP.reconciled
    · intro key
      simp [hP.delivered, or_comm]
    · simpa using hP.owned
    intro key hkey
    rcases mem_append.mp hkey with hd | hd
    · exact hP.owed key hd
    · obtain rfl : key = ⟨b, p⟩ := by simpa using hd
      exact ⟨owed, ho⟩

end Classification

/-! ### What each visit asks for -/

namespace PairOutcome

def work (b p : Nat) : PairOutcome → List Work
  | .deliver => [.shares ⟨b, p⟩]
  | .reconcile unit => [.unit unit]
  | _ => []

def draft (b p : Nat) : PairOutcome → Option (Nat × CastDraft)
  | .cast choice => some (b, ⟨p, choice⟩)
  | _ => none

/-- The bundle to delegate. -/
def delegation (b _p : Nat) : PairOutcome → Option Nat
  | .blocked => some b
  | .cast _ => some b
  | _ => none

/-- The bundle to report as blocked. -/
def block (b _p : Nat) : PairOutcome → Option Nat
  | .blocked => some b
  | _ => none

/-- The proposal to report as withheld. -/
def withheld (_b p : Nat) : PairOutcome → Option Nat
  | .held => some p
  | .blocked => some p
  | .waits => some p
  | _ => none

end PairOutcome

namespace Classification

variable {c : Classification} {b p : Nat} {vote : VoteSnapshot} {done : List Work}
  {works works' : Works}

/-- The decision of the first loop for a visited pair. -/
def outcomeOf (c : Classification) (pair : Nat × Nat) : Option PairOutcome :=
  match c.snapshot.intents.get? pair.2 with
  | some (.choice choice) => (c.pairOutcome pair.1 pair.2 choice).toOption
  | _ => none

/-- What the first loop notes of one pair. -/
def noted {α : Type} (c : Classification) (note : Nat → Nat → PairOutcome → Option α)
    (pair : Nat × Nat) : Option α :=
  (c.outcomeOf pair).bind (note pair.1 pair.2)

def pairWork (c : Classification) (pair : Nat × Nat) : List Work :=
  (c.outcomeOf pair).elim [] (PairOutcome.work pair.1 pair.2)

def voteWork (c : Classification) (entry : VoteKey × VoteSnapshot) : List Work :=
  if c.snapshot.intents.contains entry.1.proposalId && c.ballot.roster.contains entry.1.proposalId
  then []
  else
    match LifecyclePosition.ofPhase entry.2.phase with
    | .onWire =>
      ((c.unitOf entry.1.bundleIndex entry.1.proposalId).toOption.map Work.unit).toList
    | .confirmed => [.shares entry.1]
    | _ => []

/-- What the first loop has recorded after the pairs `seen`, beside the work. -/
structure Recorded (c : Classification) (seen : List (Nat × Nat)) (st : Passes) : Prop where
  drafts : st.drafts = seen.filterMap (c.noted PairOutcome.draft)
  needing : st.bundlesNeedingDelegation = (seen.filterMap (c.noted PairOutcome.delegation)).reverse
  blocked : st.blocked = (seen.filterMap (c.noted PairOutcome.block)).reverse
  withheld : st.withheldCasts = (seen.filterMap (c.noted PairOutcome.withheld)).reverse
  decided : ∀ pair ∈ seen, ∀ choice, c.snapshot.intents.get? pair.2 = some (.choice choice) →
    ∃ outcome, c.outcomeOf pair = some outcome

theorem recorded_start (works : Works) : c.Recorded [] ⟨works, [], [], [], []⟩ := by
  constructor <;> simp

variable {seen : List (Nat × Nat)} {st st' : Passes} {outcome : PairOutcome} {pair : Nat × Nat}
  {choice : Nat}

theorem Recorded.skip (hR : c.Recorded seen st) (hn : c.outcomeOf pair = none)
    (hch : ∀ choice, c.snapshot.intents.get? pair.2 ≠ some (.choice choice)) :
    c.Recorded (seen ++ [pair]) st := by
  constructor
  · simp [hR.drafts, noted, hn]
  · simp [hR.needing, noted, hn]
  · simp [hR.blocked, noted, hn]
  · simp [hR.withheld, noted, hn]
  intro other hmem choice hget
  rcases mem_append.mp hmem with hs | hs
  · exact hR.decided other hs choice hget
  · obtain rfl : other = pair := by simpa using hs
    exact absurd hget (hch choice)

theorem Recorded.note (hR : c.Recorded seen st) (hout : c.outcomeOf pair = some outcome)
    (hdr : st'.drafts = st.drafts ++ (outcome.draft pair.1 pair.2).toList)
    (hne : st'.bundlesNeedingDelegation = (outcome.delegation pair.1 pair.2).toList ++ st.bundlesNeedingDelegation)
    (hbl : st'.blocked = (outcome.block pair.1 pair.2).toList ++ st.blocked)
    (hwi : st'.withheldCasts = (outcome.withheld pair.1 pair.2).toList ++ st.withheldCasts) :
    c.Recorded (seen ++ [pair]) st' := by
  constructor
  · cases hd : outcome.draft pair.1 pair.2 <;> simp [hdr, hR.drafts, noted, hout, hd]
  · cases hd : outcome.delegation pair.1 pair.2 <;> simp [hne, hR.needing, noted, hout, hd]
  · cases hd : outcome.block pair.1 pair.2 <;> simp [hbl, hR.blocked, noted, hout, hd]
  · cases hd : outcome.withheld pair.1 pair.2 <;> simp [hwi, hR.withheld, noted, hout, hd]
  intro other hmem choice hget
  rcases mem_append.mp hmem with hs | hs
  · exact hR.decided other hs choice hget
  · obtain rfl : other = pair := by simpa using hs
    exact ⟨outcome, hout⟩

/-- The decision table of the first loop. -/
inductive Decides (c : Classification) (b p choice : Nat) : PairOutcome → Prop
  | held (due : c.castDue b p choice = true) (held : b ∈ c.heldBundles) : Decides c b p choice .held
  | blocked (due : c.castDue b p choice = true) (free : b ∉ c.heldBundles)
      (unfinished : c.rosterIsTerminal = false) : Decides c b p choice .blocked
  | cast (due : c.castDue b p choice = true) (free : b ∉ c.heldBundles)
      (terminal : c.rosterIsTerminal = true) : Decides c b p choice (.cast choice)
  | deliver {vote : VoteSnapshot} (live : c.castDue b p choice = false)
      (row : c.snapshot.vote? b p = some vote)
      (position : LifecyclePosition.ofPhase vote.phase = .confirmed) : Decides c b p choice .deliver
  | reconcile {vote : VoteSnapshot} {unit : VoteUnit} (live : c.castDue b p choice = false)
      (row : c.snapshot.vote? b p = some vote) (found : c.unitOf b p = .ok unit)
      (position : LifecyclePosition.ofPhase vote.phase = .onWire ∨
        LifecyclePosition.ofPhase vote.phase = .undispatched ∧ c.everyMemberAgrees b unit = true) :
      Decides c b p choice (.reconcile unit)
  | waits {vote : VoteSnapshot} {unit : VoteUnit} (live : c.castDue b p choice = false)
      (row : c.snapshot.vote? b p = some vote) (found : c.unitOf b p = .ok unit)
      (position : LifecyclePosition.ofPhase vote.phase = .undispatched)
      (disagrees : c.everyMemberAgrees b unit = false) : Decides c b p choice .waits
  | ended {vote : VoteSnapshot} (live : c.castDue b p choice = false)
      (row : c.snapshot.vote? b p = some vote)
      (position : LifecyclePosition.ofPhase vote.phase = .terminal) : Decides c b p choice .ended

theorem not_uncast (live : c.castDue b p choice = false)
    (row : c.snapshot.vote? b p = some vote) : LifecyclePosition.ofPhase vote.phase ≠ .uncast := by
  intro hpos
  simp [castDue, row, hpos] at live

theorem liveOutcome_ok (live : c.castDue b p choice = false)
    (row : c.snapshot.vote? b p = some vote) (h : c.liveOutcome b p vote = .ok outcome) :
    c.Decides b p choice outcome := by
  unfold liveOutcome at h
  cases hpos : LifecyclePosition.ofPhase vote.phase with
  | confirmed =>
    rw [hpos] at h
    cases h
    exact .deliver live row hpos
  | terminal =>
    rw [hpos] at h
    cases h
    exact .ended live row hpos
  | uncast => exact absurd hpos (not_uncast live row)
  | onWire =>
    rw [hpos] at h
    obtain ⟨unit, hun, h⟩ := bind_ok h
    cases h
    exact .reconcile live row hun (.inl hpos)
  | undispatched =>
    rw [hpos] at h
    obtain ⟨unit, hun, h⟩ := bind_ok h
    cases ha : c.everyMemberAgrees b unit with
    | true =>
      rw [if_pos ha] at h
      cases h
      exact .reconcile live row hun (.inr ⟨hpos, ha⟩)
    | false =>
      rw [if_neg (by simp [ha])] at h
      cases h
      exact .waits live row hun hpos ha

theorem pairOutcome_ok (h : c.pairOutcome b p choice = .ok outcome) :
    c.Decides b p choice outcome := by
  unfold pairOutcome at h
  cases hdue : c.castDue b p choice with
  | true =>
    rw [if_pos hdue] at h
    split at h
    · rename_i hh
      cases h
      exact .held hdue (by simpa using hh)
    · rename_i hh
      have hf : b ∉ c.heldBundles := by simpa using hh
      cases ht : c.rosterIsTerminal with
      | true =>
        rw [if_pos ht] at h
        cases h
        exact .cast hdue hf ht
      | false =>
        rw [if_neg (by simp [ht])] at h
        cases h
        exact .blocked hdue hf ht
  | false =>
    rw [if_neg (by simp [hdue])] at h
    cases hrow : c.snapshot.vote? b p with
    | none => rw [hrow] at h; cases h
    | some =>
      rw [hrow] at h
      exact liveOutcome_ok hdue hrow h

theorem outcomeOf_eq_some (h : c.outcomeOf (b, p) = some outcome) :
    ∃ choice, c.snapshot.intents.get? p = some (.choice choice) ∧ c.Decides b p choice outcome := by
  unfold outcomeOf at h
  split at h
  · rename_i choice hget
    refine ⟨choice, hget, pairOutcome_ok ?_⟩
    cases hout : c.pairOutcome b p choice with
    | error => rw [hout] at h; cases h
    | ok => rw [hout] at h; cases h; rfl
  · cases h

/-! ### The loops -/

section

variable (hu : UnitsOf c.snapshot c.units)
include hu

theorem applyOutcome_ok (hP : c.Planned done st.works) (hR : c.Recorded seen st)
    (hout : c.outcomeOf (b, p) = some outcome) (h : c.applyOutcome st b p outcome = .ok st') :
    (∃ done', c.Planned done' st'.works ∧ ∀ w, w ∈ done' ↔ w ∈ done ∨ w ∈ c.pairWork (b, p)) ∧
      c.Recorded (seen ++ [(b, p)]) st' := by
  cases outcome with
  | reconcile =>
    obtain ⟨works, hw, h⟩ := bind_ok h
    cases h
    obtain ⟨_, -, hdec⟩ := outcomeOf_eq_some hout
    cases hdec with
    | reconcile _ _ found =>
      obtain ⟨done', hP', hd⟩ := hP.reconcile hu (unitOf_ok found).1 hw
      refine ⟨⟨done', hP', by simpa [pairWork, hout, work] using hd⟩, ?_⟩
      exact hR.note hout (by simp [draft]) rfl rfl rfl
  | deliver =>
    obtain ⟨_, hw, h⟩ := bind_ok h
    cases h
    obtain ⟨done', hP', hd⟩ := hP.deliver hw
    refine ⟨⟨done', hP', by simpa [pairWork, hout, work] using hd⟩, ?_⟩
    exact hR.note hout (by simp [draft]) rfl rfl rfl
  | cast =>
    cases h
    exact ⟨⟨done, hP, by simp [pairWork, hout, work]⟩, hR.note hout rfl rfl rfl rfl⟩
  | held | blocked | waits | ended =>
    cases h
    refine ⟨⟨done, hP, by simp [pairWork, hout, work]⟩, ?_⟩
    exact hR.note hout (by simp [draft]) rfl rfl rfl

/-- The work and the records of the first loop after one more pair. -/
theorem visitPair_ok (hP : c.Planned done st.works) (hR : c.Recorded seen st)
    (h : c.visitPair st pair = .ok st') :
    (∃ done', c.Planned done' st'.works ∧ ∀ w, w ∈ done' ↔ w ∈ done ∨ w ∈ c.pairWork pair) ∧
      c.Recorded (seen ++ [pair]) st' := by
  obtain ⟨b, p⟩ := pair
  unfold visitPair at h
  by_cases hc : ∃ choice, c.snapshot.intents.get? p = some (.choice choice)
  · obtain ⟨choice, hget⟩ := hc
    simp only [hget] at h
    obtain ⟨outcome, hpa, h⟩ := bind_ok h
    have hout : c.outcomeOf (b, p) = some outcome := by
      simp [outcomeOf, hget, hpa, Except.toOption]
    exact applyOutcome_ok hu hP hR hout h
  · have hn : c.outcomeOf (b, p) = none := by
      unfold outcomeOf
      split
      · rename_i choice hget
        exact absurd ⟨choice, hget⟩ hc
      · rfl
    split at h
    · rename_i choice hget
      exact absurd ⟨choice, hget⟩ hc
    · cases h
      refine ⟨⟨done, hP, by simp [pairWork, hn]⟩, hR.skip hn ?_⟩
      exact fun choice hget => hc ⟨choice, hget⟩

theorem pairs_ok
    (h : c.pairs.foldlM c.visitPair ⟨⟨c.retirements, [], []⟩, [], [], [], []⟩ = .ok st) :
    (∃ done, c.Planned done st.works ∧ ∀ w, w ∈ done ↔ ∃ pair ∈ c.pairs, w ∈ c.pairWork pair) ∧
      c.Recorded c.pairs st := by
  refine foldlM_ok_induction (fun seen (st : Passes) =>
    (∃ done, c.Planned done st.works ∧ ∀ w, w ∈ done ↔ ∃ pair ∈ seen, w ∈ c.pairWork pair) ∧
      c.Recorded seen st) h ⟨⟨[], planned_start c, by simp⟩, recorded_start _⟩ ?_
  rintro seen pair _ st _ - ⟨⟨_, hP, hdo⟩, hR⟩ hst
  obtain ⟨⟨done', hP', hdo'⟩, hR'⟩ := visitPair_ok hu hP hR hst
  refine ⟨⟨done', hP', fun w => ?_⟩, hR'⟩
  rw [hdo', hdo]
  simp only [mem_append, mem_singleton, or_and_right, exists_or, exists_eq_left]

theorem visitVote_ok {entry : VoteKey × VoteSnapshot}
    (hP : c.Planned done works) (h : c.visitVote works entry = .ok works') :
    ∃ done', c.Planned done' works' ∧ ∀ w, w ∈ done' ↔ w ∈ done ∨ w ∈ c.voteWork entry := by
  have hn (hwo : c.voteWork entry = []) (hsa : works' = works) :
      ∃ done', c.Planned done' works' ∧ ∀ w, w ∈ done' ↔ w ∈ done ∨ w ∈ c.voteWork entry :=
    ⟨done, hsa ▸ hP, by simp [hwo]⟩
  unfold visitVote at h
  by_cases hs : (c.snapshot.intents.contains entry.1.proposalId &&
      c.ballot.roster.contains entry.1.proposalId) = true
  · rw [if_pos hs] at h
    exact hn (by rw [voteWork, if_pos hs]) (Except.ok.inj h).symm
  · rw [if_neg hs] at h
    cases hpos : LifecyclePosition.ofPhase entry.2.phase with
    | onWire =>
      rw [hpos] at h
      obtain ⟨_, hun, h⟩ := bind_ok h
      obtain ⟨done', hP', hd⟩ := hP.reconcile hu (unitOf_ok hun).1 h
      refine ⟨done', hP', ?_⟩
      rw [voteWork, if_neg hs, hpos]
      simpa [hun, Except.toOption] using hd
    | confirmed =>
      rw [hpos] at h
      obtain ⟨done', hP', hd⟩ := hP.deliver h
      refine ⟨done', hP', ?_⟩
      rw [voteWork, if_neg hs, hpos]
      simpa using hd
    | uncast | undispatched | terminal =>
      rw [hpos] at h
      exact hn (by rw [voteWork, if_neg hs, hpos]) (Except.ok.inj h).symm

theorem votes_ok {start : List Work} (hP : c.Planned start works)
    (h : c.snapshot.votes.entries.foldlM c.visitVote works = .ok works') :
    ∃ done, c.Planned done works' ∧
      ∀ w, w ∈ done ↔ w ∈ start ∨ ∃ entry ∈ c.snapshot.votes.entries, w ∈ c.voteWork entry := by
  refine foldlM_ok_induction (fun seen works => ∃ done, c.Planned done works ∧
    ∀ w, w ∈ done ↔ w ∈ start ∨ ∃ entry ∈ seen, w ∈ c.voteWork entry) h
    ⟨start, hP, by simp⟩ ?_
  rintro seen entry _ works works' - ⟨_, hP, hdo⟩ hst
  obtain ⟨done', hP', hdo'⟩ := visitVote_ok hu hP hst
  refine ⟨done', hP', fun w => ?_⟩
  rw [hdo', hdo]
  simp only [mem_append, mem_singleton, or_and_right, exists_or, exists_eq_left, or_assoc]

end

end Classification

end ZcashVoting.RoundPlanning
