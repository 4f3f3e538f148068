import ZcashVoting.ShareDelivery.DeliveryRuns
import ZcashVoting.ShareDelivery.Recovery

/-!
# The world of a share

Its row, and the helpers with a released POST that no definite failure has answered.
`Standing` says that those helpers are in a list of the row. Here it is proved for the
statements of the store and for the requests of the helper client; deliveries and recovery
passes are composed of these.
-/
namespace ZcashVoting.ShareDelivery

open KeyedData Interaction Optimistic List ShareOp PostAnswer ShareDeliveryState

/-! ### The world -/

structure DeliveryWorld where
  cell : Option ShareRow
  /-- Helpers of released posts without a definite failure, one entry for each POST. -/
  outstanding : List String

variable (library : UrlLibrary)

/-- `load_share_delegations` -/
def loadRow : Option ShareRow → Except VotingError (Option LoadedShare)
  | none => .ok none
  | some row => do
    let state ← row.deliveryState library
    return some ⟨state.acceptedUrls, state.outcomeUnknownUrls, state.inFlightUrls, row.targetCount,
      row.nullifier, row.confirmed, row.submitAt⟩

/-- `share_is_confirmed_for_generation` -/
def rowConfirmed (nullifier : List UInt8) (cell : Option ShareRow) : Option Bool :=
  (cell.filter fun row => row.nullifier = nullifier).map ShareRow.confirmed

/-- What the world may answer. Storage may fail before it changes anything. -/
def deliveryHandler (place : SharePlace) : Handler deliverySignature DeliveryWorld
  | .store op, w, r, w' =>
    (w' = w ∧ ∃ e, r = .error e) ∨
      ∃ input, ((shareOperations library place).attempt op input w.cell).Runs w.cell r w'.cell ∧
        w'.outstanding = w.outstanding
  | .loadShare, w, r, w' => w' = w ∧ (r = loadRow library w.cell ∨ ∃ e, r = .error e)
  | .isConfirmed nullifier, w, r, w' => w' = w ∧
      (r = .ok (rowConfirmed nullifier w.cell) ∨ ∃ e, r = .error e)
  | .release target, w, _, w' => w' = { w with outstanding := target :: w.outstanding }
  | .awaitAnswer target, w, answer, w' =>
    w' = if answer.any PostAnswer.isDefiniteFailure then
      { w with outstanding := w.outstanding.erase target } else w
  | .candidateServers group, w, order, w' => w' = w ∧ List.Perm (α := String) order group
  | .shuffle group, w, order, w' => w' = w ∧ List.Perm (α := String) order group
  | .pollOrder wave, w, order, w' => w' = w ∧ List.Perm (α := String) order wave
  | _, w, _, w' => w' = w

/-- A list of the row has an entry that stands for the helper. -/
def Recorded (cell : Option ShareRow) (helper : String) : Prop :=
  ∃ row, cell = some row ∧ ∃ entry ∈ row.sentToUrls ++ row.ambiguousUrls ++ row.attemptingUrls,
    helperIdentity library entry = helper

/-- The helper has accepted the share. -/
def Accepted (cell : Option ShareRow) (helper : String) : Prop :=
  ∃ row, cell = some row ∧ row.evidence library helper = .accepted

/-- What holds between any two commands: helpers with outstanding posts are recorded, the
helpers of `known` are recorded and those of `accepted` have accepted. -/
structure Standing (known accepted : String → Prop) (w : DeliveryWorld) : Prop where
  sound : SoundCell library w.cell
  outstanding : ∀ t ∈ w.outstanding, Recorded library w.cell t
  known : ∀ u, known u → Recorded library w.cell u
  accepted : ∀ u, accepted u → Accepted library w.cell u

variable {library : UrlLibrary} {place : SharePlace} {known accepted : String → Prop}
  {w w' : DeliveryWorld} {cell : Option ShareRow} {op : ShareOp} {u t server : String}

theorem recorded_iff : Recorded library cell u ↔ ∃ row, cell = some row ∧
    row.evidence library u ≠ .unrecorded := by
  have hrow : ∀ row : ShareRow,
    (∃ entry ∈ row.sentToUrls ++ row.ambiguousUrls ++ row.attemptingUrls,
      helperIdentity library entry = u) ↔ row.evidence library u ≠ .unrecorded := by
    intro row
    have hmem : ∀ urls : List String, u ∈ identities library urls ↔
        ∃ entry ∈ urls, helperIdentity library entry = u := fun urls => mem_map
    unfold ShareRow.evidence
    simp only [hmem, mem_append, or_and_right, exists_or]
    split
    · simp [*]
    · split
      · simp [*]
      · split <;> simp [*]
  simp only [Recorded, hrow]

theorem Accepted.recorded (h : Accepted library cell u) : Recorded library cell u := by
  obtain ⟨row, hce, hrow⟩ := h
  exact recorded_iff.mpr ⟨row, hce, by rw [hrow]; decide⟩

theorem Standing.weaken {known' accepted' : String → Prop} (h : Standing library known accepted w)
    (hkn : ∀ u, known' u → known u) (hac : ∀ u, accepted' u → accepted u) :
    Standing library known' accepted' w :=
  ⟨h.sound, h.outstanding, fun u hu => h.known u (hkn u hu), fun u hu => h.accepted u (hac u hu)⟩

/-! ### Statements of the store -/

variable {r : Except VotingError ShareOpResult} {expected : Option (List UInt8)}

section

variable (hsta : ∀ url ∈ op.helperUrls, Stable library url)
  (h : deliveryHandler library place (.store op) w r w')
include hsta h

/-- What a statement on stable URLs leaves of a row. -/
theorem store_row (hso : SoundCell library w.cell) :
    SoundCell library w'.cell ∧ w'.outstanding = w.outstanding ∧
      ∀ row, w.cell = some row → ∃ row', w'.cell = some row' ∧
        (row' = row ∨ Written library op row row') := by
  rcases h with ⟨rfl, -⟩ | ⟨input, hr, ho⟩
  · exact ⟨hso, rfl, fun row hrow => ⟨row, hrow, .inl rfl⟩⟩
  cases ha : (shareOperations library place).attempt op input w.cell with
  | finish =>
    rw [ha] at hr
    rw [hr.2]
    exact ⟨hso, ho, fun row hrow => ⟨row, hrow, .inl rfl⟩⟩
  | swap =>
    rw [ha] at hr
    obtain ⟨hgu, -, hce⟩ := hr
    have hwr := attempt_writes hsta ha hgu
    rw [hce]
    refine ⟨?_, ho, ?_⟩
    · intro row' hrow'
      cases hc : w.cell with
      | none => exact hwr.inserts hc row' hrow'
      | some row =>
        obtain ⟨_, hn, hw⟩ := hwr.rewrites row hc (hso row hc)
        rw [hn] at hrow'
        cases hrow'
        exact hw.sound
    · intro row hrow
      obtain ⟨row', hn, hw⟩ := hwr.rewrites row hrow (hso row hrow)
      exact ⟨row', hn, .inr hw⟩

/-- A statement keeps a helper recorded where its report does not take the evidence away. -/
theorem store_keeps (hw : Standing library known accepted w)
    (hop : ∀ u row, w.cell = some row → row.evidence library u ≠ .unrecorded →
      (u ∈ w.outstanding ∨ known u) → op.reported library u (row.evidence library u) ≠ .unrecorded)
    : Standing library known accepted w' ∧ w'.outstanding = w.outstanding := by
  obtain ⟨hso, ho, hr⟩ := store_row hsta h hw.sound
  have hk : ∀ u, (u ∈ w.outstanding ∨ known u) → Recorded library w.cell u →
      Recorded library w'.cell u := by
    intro u hu hre
    obtain ⟨row, hc, he⟩ := recorded_iff.mp hre
    obtain ⟨row', hc', hrow'⟩ := hr row hc
    refine recorded_iff.mpr ⟨row', hc', ?_⟩
    rcases hrow' with rfl | hwr
    · exact he
    rw [hwr.evidence]
    split
    · exact he
    · exact hop u row hc he hu
  refine ⟨⟨hso, ?_, ?_, ?_⟩, ho⟩
  · intro t ht
    rw [ho] at ht
    exact hk t (.inl ht) (hw.outstanding t ht)
  · intro u hu
    exact hk u (.inr hu) (hw.known u hu)
  · intro u hu
    obtain ⟨row, hc, he⟩ := hw.accepted u hu
    obtain ⟨row', hc', hrow'⟩ := hr row hc
    refine ⟨row', hc', ?_⟩
    rcases hrow' with rfl | hwr
    · exact he
    rw [hwr.evidence, he]
    split
    · rfl
    · exact reported_accepted

end

/-- Only a definite failure takes evidence away. -/
theorem reported_ne_unrecorded (hop : ∀ server expected, op ≠ .removeAttempting server expected)
    {e : Evidence} (he : e ≠ .unrecorded) : op.reported library u e ≠ .unrecorded := by
  have hr : ∀ reported : Evidence, Evidence.raise reported e ≠ .unrecorded := by
    intro reported
    cases reported <;> cases e <;> first | exact absurd rfl he | decide
  cases op with
  | addAttempting =>
    rw [reported]
    split
    · exact hr _
    · exact he
  | removeAttempting serverUrl expected => exact absurd rfl (hop serverUrl expected)
  | mergeUrls _ merge =>
    rw [reported_mergeUrls]
    split
    · cases merge with
      | definiteAcceptance => rintro ⟨⟩
      | outcomeUnknown => exact hr _
    · exact he
  | record =>
    rw [reported]
    split
    · decide
    · split
      · exact hr _
      · exact he
  | markConfirmed => exact he

/-- Statements other than the one for a definite failure keep everything. -/
theorem store_standing (hsta : ∀ url ∈ op.helperUrls, Stable library url)
    (hop : ∀ server expected, op ≠ .removeAttempting server expected)
    (h : deliveryHandler library place (.store op) w r w') (hw : Standing library known accepted w)
    : Standing library known accepted w' ∧ w'.outstanding = w.outstanding :=
  store_keeps hsta h hw fun _ _ _ hev _ => reported_ne_unrecorded hop hev

section

variable (hse : canonicalizeHelperBaseUrl library server = .ok server)
  {policy : ShareAttemptCapacityPolicy} {placement : List String} {targetCount : Nat} {reset : Bool}
include hse

/-- A definite failure may be recorded for a helper without an outstanding POST that is not
among the known ones, and for one that has accepted. -/
theorem removeAttempting_standing
    (h : deliveryHandler library place (.store (.removeAttempting server expected)) w r w')
    (hw : Standing library known accepted w)
    (hfr : (server ∉ w.outstanding ∧ ¬ known server) ∨ Accepted library w.cell server) :
    Standing library known accepted w' ∧ w'.outstanding = w.outstanding := by
  have hsta : Stable library server := stable_of_canonical hse hse
  refine store_keeps (by simpa [helperUrls] using hsta) h hw ?_
  intro u row hce hev hu
  rw [reported]
  split
  · next hmem =>
    rw [mem_canonicalForms_singleton hse] at hmem
    subst hmem
    rcases hfr with ⟨hout, hkn⟩ | ⟨_, hc', hac⟩
    · exact absurd hu (by simp [hout, hkn])
    rw [hce] at hc'
    cases hc'
    rw [hac]
    decide
  · exact hev

/-- The statement that resolves an attempt. -/
theorem resolve_standing {nullifier : List UInt8} {outcome : ShareDeliveryAttemptOutcome}
    (h : deliveryHandler library place
      (.store (resolveDeliveryAttemptForGeneration server nullifier outcome reset)) w r w')
    (hw : Standing library known accepted w) (hfr : outcome = .definiteFailure →
      (server ∉ w.outstanding ∧ ¬ known server) ∨ Accepted library w.cell server)
    : Standing library known accepted w' ∧ w'.outstanding = w.outstanding := by
  have hsta : ∀ merge, ∀ url ∈ (mergeUrls [server] merge reset (some nullifier)).helperUrls,
      Stable library url := by
    intro merge
    simpa [helperUrls] using stable_of_canonical hse hse
  cases outcome with
  | accepted | ambiguous => exact store_standing (hsta _) (by rintro _ _ ⟨⟩) h hw
  | definiteFailure => exact removeAttempting_standing hse h hw (hfr rfl)

section

variable
  (h : deliveryHandler library place (.store (.addAttempting server placement targetCount policy expected)) w (.ok (.reservation .started)) w')
  (hso : SoundCell library w.cell)
include h hso

/-- A reservation is only made for a helper that no list has, and it writes the row. -/
theorem started_written :
    ∃ row row', w.cell = some row ∧ row.evidence library server = .unrecorded ∧
      w'.cell = some row' ∧
      Written library (.addAttempting server placement targetCount policy expected) row row' := by
  rcases h with ⟨-, e, he⟩ | ⟨input, hru, -⟩
  · cases he
  cases hr : (addAttempting server placement targetCount policy expected).read library place
      input w.cell with
  | error e => simp [shareOperations, hr, Attempt.Runs] at hru
  | ok attempt =>
    have hs : attempt.Runs w.cell (.ok (.reservation .started)) w'.cell := by
      simpa [shareOperations, hr] using hru
    obtain ⟨_, -, hr⟩ := bind_ok hr
    obtain ⟨_, hc, hr⟩ := bind_ok hr
    rw [hse] at hc
    cases hc
    split at hr
    · cases hr
    split at hr
    · cases hr
      cases hs.1
    next row hce =>
    split at hr
    · obtain ⟨_, -, hr⟩ := bind_ok hr
      obtain ⟨state, hst, hr⟩ := bind_ok hr
      split at hr
      · cases hr
        cases hs.1
      next hnew =>
      split at hr
      · cases hr
        cases hs.1
      obtain ⟨_, hbe, hr⟩ := bind_ok hr
      cases hr
      have hrow := hso row hce
      have hev : state.evidence server = .unrecorded := by
        by_contra hk
        rw [← ne_eq, ← contains_iff] at hk
        simp [hk] at hnew
      rw [hrow.evidence_deliveryState hst, not_isLegacy_of_ok hse] at hev
      exact ⟨row, _, hce, hev, hs.2.2.trans (by rw [hce]; rfl),
        written_addAttempting hrow (stable_of_canonical hse hse) hse hst hbe⟩
    · cases hr
      cases hs.1

theorem started_unrecorded : ¬ Recorded library w.cell server ∧
    Recorded library w'.cell server := by
  obtain ⟨_, row', hce, he, hce', hwr⟩ := started_written hse h hso
  constructor
  · intro hre
    obtain ⟨_, hnow, hkn⟩ := recorded_iff.mp hre
    rw [hce] at hnow
    cases hnow
    exact hkn he
  · refine recorded_iff.mpr ⟨row', hce', ?_⟩
    rw [hwr.evidence, not_isLegacy_of_ok hse, he]
    simp [reported, mem_canonicalForms_singleton hse, Evidence.raise, Evidence.rank]

end

theorem merged_accepted
    (h : deliveryHandler library place (.store (.mergeUrls [server] .definiteAcceptance reset expected)) w
      (.ok (.updated true)) w') (hso : SoundCell library w.cell) :
        Accepted library w'.cell server := by
  rcases h with ⟨-, e, he⟩ | ⟨input, hru, -⟩
  · cases he
  cases ha : (shareOperations library place).attempt
      (.mergeUrls [server] .definiteAcceptance reset expected) input w.cell with
  | finish result =>
    rw [ha] at hru
    obtain ⟨hre, -⟩ := hru
    subst hre
    -- only a write is reported as an update
    cases hr : (mergeUrls [server] .definiteAcceptance reset expected).read library place
        input w.cell with
    | error e => simp [shareOperations, hr] at ha
    | ok attempt =>
      have hfi : attempt = .finish (.ok (.updated true)) := by
        simpa [shareOperations, hr] using ha
      subst hfi
      simp only [ShareOp.read, mergeShareDelegationUrls] at hr
      split at hr
      · cases hr
      split at hr
      · obtain ⟨_, -, hr⟩ := bind_ok hr
        obtain ⟨_, -, hr⟩ := bind_ok hr
        obtain ⟨_, -, hr⟩ := bind_ok hr
        cases hr
      · cases hr
  | swap guard next result =>
    rw [ha] at hru
    obtain ⟨hgu, -, hce⟩ := hru
    have hsta : Stable library server := stable_of_canonical hse hse
    have hwri := attempt_writes (by simpa [helperUrls] using hsta) ha hgu
    cases hc : w.cell with
    | none =>
      simp [shareOperations, ShareOp.read, mergeShareDelegationUrls, hc, RowAttempt.done, pure,
        Except.pure] at ha
    | some row =>
      obtain ⟨row', hne, hwr⟩ := hwri.rewrites row hc (hso row hc)
      refine ⟨row', hce.trans hne, ?_⟩
      rw [hwr.evidence, not_isLegacy_of_ok hse]
      simp [reported, mem_canonicalForms_singleton hse]

end

/-! ### Programs -/

section

variable {α β : Type} {I E : DeliveryWorld → Prop}

/-- The computation keeps `I` at every point, returns with `Q` or stops with an error in a
world of `E`. -/
def Keeps (library : UrlLibrary) (place : SharePlace) (I E : DeliveryWorld → Prop) (m : Delivery α)
    (Q : α → DeliveryWorld → Prop) (w : DeliveryWorld) : Prop :=
  SafeE (deliveryHandler library place) I m Q (fun _ v => E v) w

/-- The computation keeps what stands and may stop with any error. -/
abbrev Sustains (library : UrlLibrary) (place : SharePlace) (known accepted : String → Prop) :
    Delivery α → (α → DeliveryWorld → Prop) → DeliveryWorld → Prop :=
  Keeps library place (Standing library known accepted) fun _ => True

variable {m : Delivery α} {Q : α → DeliveryWorld → Prop}

theorem Keeps.bind {f : α → Delivery β} {R : β → DeliveryWorld → Prop}
    (h : Keeps library place I E m (fun a v => Keeps library place I E (f a) R v) w) :
    Keeps library place I E (m >>= f) R w :=
  safeE_bind h

theorem keeps_pure {a : α} (hI : I w) (h : Q a w) :
    Keeps library place I E (pure a) Q w := safeE_pure hI h

theorem keeps_throw {e : VotingError} (hI : I w) (hE : E w) :
    Keeps library place I E (throw e) Q w :=
  safeE_throw hI hE

theorem keeps_lift {p : Post α} (h : Safe (deliveryHandler library place) I p Q w) :
    Keeps library place I E (liftM p) Q w :=
  safeE_lift h

theorem keeps_except {e : Except VotingError α} (hI : I w) (hE : E w) (h : ∀ a, e = .ok a → Q a w) :
    Keeps library place I E (liftM e) Q w := by
  cases e with
  | error => exact ⟨hI, hE⟩
  | ok a => exact ⟨hI, h a rfl⟩

theorem keeps_mk {p : Post (Except VotingError α)} (h : Safe (deliveryHandler library place) I p
      (fun r v => (∀ a, r = .ok a → Q a v) ∧ ((∃ e, r = .error e) → E v)) w)
    : Keeps library place I E (ExceptT.mk p) Q w := by
  refine Safe.mono h ?_
  intro r v _ hr
  cases r with
  | error e => exact hr.2 ⟨e, rfl⟩
  | ok a => exact hr.1 a rfl

theorem Keeps.mono {Q' : α → DeliveryWorld → Prop} (h : Keeps library place I E m Q w)
    (hQ : ∀ a v, I v → Q a v → Q' a v) : Keeps library place I E m Q' w :=
  SafeE.mono h hQ

theorem Keeps.weaken {E' : DeliveryWorld → Prop} (h : Keeps library place I E m Q w)
    (hE : ∀ v, E v → E' v) : Keeps library place I E' m Q w :=
  SafeE.weaken h fun _ v _ hv => hE v hv

/-- A command that leaves the world as it is. -/
theorem safe_quiet {c : DeliveryCmd} {Q : c.Answer → DeliveryWorld → Prop} (hI : I w)
    (h : ∀ r, deliveryHandler library place c w r w → Q r w)
    (hc : ∀ r v, deliveryHandler library place c w r v →
      v = w := by intro _ _ hv; first | exact hv | exact hv.1) :
    Safe (deliveryHandler library place) I (ask c) Q w := by
  apply safe_perform hI
  intro r v hv
  cases hc r v hv
  exact ⟨hI, h r hv⟩

theorem safe_isCancelled {Q : Bool → DeliveryWorld → Prop} (hI : I w) (h : ∀ b, Q b w) :
    Safe (deliveryHandler library place) I isCancelled Q w :=
  safe_quiet hI fun r _ => h r

/-- A statement of the store; a failed one leaves no further obligation. -/
theorem keeps_store {op : ShareOp} {Q : ShareOpResult → DeliveryWorld → Prop} (hI : I w)
    (h : ∀ r v, deliveryHandler library place (.store op) w r v → I v ∧
      ∀ result, r = .ok result → Q result v) :
    Keeps library place I (fun _ => True) (store op) Q w := by
  refine keeps_mk (safe_perform hI ?_)
  intro r v hv
  exact ⟨(h r v hv).1, (h r v hv).2, fun _ => trivial⟩

end

/-! ### The helper client -/

/-- What a POST to a helper leaves: posts to others are as before, and a definite failure
leaves none to this one. -/
structure Posted (target : String) (definite : Prop) (w v : DeliveryWorld) : Prop where
  cell : v.cell = w.cell
  others : ∀ t, t ≠ target → t ∈ v.outstanding → t ∈ w.outstanding
  definite : definite → target ∉ w.outstanding → target ∉ v.outstanding

theorem Posted.refl (target : String) (definite : Prop) (w : DeliveryWorld) :
    Posted target definite w w :=
  ⟨rfl, fun _ _ h => h, fun _ h => h⟩

/-- The world while a POST is under way. -/
def DeliveryWorld.posting (w : DeliveryWorld) (target : String) : DeliveryWorld :=
  { w with outstanding := target :: w.outstanding }

variable {target : String} {I : DeliveryWorld → Prop} {error : HelperError}

theorem Standing.posting (hw : Standing library known accepted w)
    (hta : Recorded library w.cell target) :
    Standing library known accepted (w.posting target) := by
  refine ⟨hw.sound, ?_, hw.known, hw.accepted⟩
  intro t ht
  rcases mem_cons.mp ht with rfl | ht
  · exact hta
  · exact hw.outstanding t ht

theorem posted_posting (target : String) {definite : Prop} (hde : ¬ definite) (w : DeliveryWorld) :
    Posted target definite w (w.posting target) := by
  refine ⟨rfl, ?_, fun h => absurd h hde⟩
  intro t hne ht
  rcases mem_cons.mp ht with rfl | ht
  · exact absurd rfl hne
  · exact ht

/-- An answer with a definite failure ends the POST; every other answer leaves it. -/
theorem awaitAnswer_cases {answer : Option PostAnswer} {v : DeliveryWorld}
    (h : deliveryHandler library place (.awaitAnswer target) (w.posting target) answer v) :
    (v = w ∧ ∃ e, answer.map outcome = some (.error e) ∧ e.isAmbiguous = false) ∨
      (v = w.posting target ∧ ∀ e, answer.map outcome = some (.error e) →
          e.isAmbiguous = true) := by
  have hv : v = if answer.any isDefiniteFailure then
      { w.posting target with outstanding := (w.posting target).outstanding.erase target }
      else w.posting target := h
  cases answer with
  | none => exact .inr ⟨hv, nofun⟩
  | some a =>
    have hany : (some a).any isDefiniteFailure = a.isDefiniteFailure := rfl
    rw [hany] at hv
    cases ho : a.outcome with
    | ok =>
      have hnot : a.isDefiniteFailure = false := by simp [isDefiniteFailure, ho]
      rw [hnot] at hv
      refine .inr ⟨hv, ?_⟩
      intro e he
      simp [ho] at he
    | error e =>
      have hiff : a.isDefiniteFailure = !e.isAmbiguous := by simp [isDefiniteFailure, ho]
      rw [hiff] at hv
      cases ha : e.isAmbiguous with
      | false =>
        rw [ha] at hv
        refine .inl ⟨hv.trans ?_, e, by simp [ho], ha⟩
        simp [DeliveryWorld.posting]
      | true =>
        rw [ha] at hv
        refine .inr ⟨hv, ?_⟩
        intro e' he'
        simp only [Option.map_some, ho, Option.some.injEq, Except.error.injEq] at he'
        rw [← he', ha]

theorem safe_awaitAnswer {Q : Option PostAnswer → DeliveryWorld → Prop} (hw : I w)
    (hp : I (w.posting target))
    (hfa : ∀ answer e, answer.map outcome = some (.error e) → e.isAmbiguous = false → Q answer w)
    (hot : ∀ answer, (∀ e, answer.map outcome = some (.error e) → e.isAmbiguous = true) →
      Q answer (w.posting target)) :
    Safe (deliveryHandler library place) I (awaitAnswer target) Q (w.posting target) := by
  apply safe_perform hp
  intro answer v hv
  rcases awaitAnswer_cases hv with ⟨rfl, e, he, ham⟩ | ⟨rfl, han⟩
  · exact ⟨hw, hfa answer e he ham⟩
  · exact ⟨hp, hot answer han⟩

theorem safe_retryWait {Q : Option PostOutcome → DeliveryWorld → Prop} (hI : I w) (h : ∀ o, Q o w) :
    Safe (deliveryHandler library place) I (retryWait error) Q w := by
  refine Safe.bind (safe_isCancelled hI fun cancelled => ?_)
  split
  · exact ⟨hI, h _⟩
  refine Safe.bind (safe_quiet hI fun fits _ => ?_)
  split
  · exact ⟨hI, h _⟩
  refine Safe.bind (safe_isCancelled hI fun cancelled => ?_)
  split
  · exact ⟨hI, h _⟩
  · exact ⟨hI, h _⟩

/-- One attempt: what is left to `next` is a failure, and a definite one leaves the world as
it was. -/
theorem safe_attemptPost (hw : Standing library known accepted w)
    (ht : Recorded library w.cell target)
    {held : Option HelperError} {next : HelperError → Post PostOutcome}
    {Q : PostOutcome → DeliveryWorld → Prop} (hb : ∀ error, Q (.failed error) w)
    (hp : ∀ outcome, outcome.attemptOutcome ≠ .definiteFailure → Q outcome (w.posting target))
    (hde : ∀ error, error.isAmbiguous = false →
      Safe (deliveryHandler library place) (Standing library known accepted) (next error) Q w)
    (ham : ∀ error, error.isAmbiguous = true →
      Safe (deliveryHandler library place) (Standing library known accepted) (next error) Q
        (w.posting target)) :
    Safe (deliveryHandler library place) (Standing library known accepted)
      (attemptPost target held next) Q w := by
  refine Safe.bind (safe_isCancelled hw fun cancelled => ?_)
  split
  · exact ⟨hw, hb _⟩
  refine Safe.bind (safe_quiet hw fun timeLeft _ => ?_)
  split
  · exact ⟨hw, hb _⟩
  refine Safe.bind (safe_perform hw fun _ v hv => ?_)
  cases hv
  refine ⟨hw.posting ht, Safe.bind (safe_awaitAnswer hw (hw.posting ht) ?_ ?_)⟩
  · intro answer e he hnot
    rw [he]
    exact hde e hnot
  · intro answer han
    split
    · exact ⟨hw.posting ht, hp _ nofun⟩
    · exact ⟨hw.posting ht, hp _ nofun⟩
    · next error her => exact ham error (han error her)

theorem posted_of_ambiguous (h : error.isAmbiguous = true) (w : DeliveryWorld) :
    Posted target ((PostOutcome.failed error).attemptOutcome = .definiteFailure) w
      (w.posting target) :=
  posted_posting target (by simp [PostOutcome.failed, PostOutcome.attemptOutcome, h]) w

/-- A definite outcome of a POST with its retries means that no attempt is outstanding. -/
theorem safe_withRetry (hw : Standing library known accepted w)
    (ht : Recorded library w.cell target) (attempts : Nat) (held : Option HelperError) :
    Safe (deliveryHandler library place) (Standing library known accepted)
      (withRetry target attempts held)
      (fun outcome v => Posted target (outcome.attemptOutcome = .definiteFailure) w v) w := by
  induction attempts generalizing held with
  | zero =>
    refine safe_attemptPost hw ht (fun _ => .refl ..) (fun _ h => posted_posting target h w) ?_ ?_
    · intro error _
      exact ⟨hw, .refl ..⟩
    · intro error ha
      exact ⟨hw.posting ht, posted_of_ambiguous ha w⟩
  | succ _ ih =>
    refine safe_attemptPost hw ht (fun _ => .refl ..) (fun _ h => posted_posting target h w) ?_ ?_
    · intro error _
      split
      · -- the failed attempt is gone, so the next one starts from the same world
        refine Safe.bind (safe_retryWait hw fun waited => ?_)
        cases waited with
        | some => exact ⟨hw, .refl ..⟩
        | none => exact ih (some error)
      · exact ⟨hw, .refl ..⟩
    · intro error ha
      rw [if_neg (by simp [ha])]
      exact ⟨hw.posting ht, posted_of_ambiguous ha w⟩

theorem target_of_canonical {client : HelperClient}
    (hse : canonicalizeHelperBaseUrl client.library server = .ok server)
    (h : client.target server = .ok target) : target = server := by
  have hcanonical : client.canonicalUrl server = .ok server := by
    unfold HelperClient.canonicalUrl
    rw [hse]
  obtain ⟨_, hfirst, hsecond⟩ := bind_ok h
  rw [hcanonical] at hfirst
  cases hfirst
  split at hsecond
  · cases hsecond
  · exact (Except.ok.inj (hcanonical.symm.trans hsecond)).symm

variable {client : HelperClient}

theorem safe_submitShareWithTimeout
    (hse : canonicalizeHelperBaseUrl client.library server = .ok server)
    (hw : Standing client.library known accepted w) (hre : Recorded client.library w.cell server) :
    Safe (deliveryHandler client.library place) (Standing client.library known accepted)
      (client.submitShareWithTimeout server)
      (fun outcome v => Posted server (outcome.attemptOutcome = .definiteFailure) w v) w := by
  refine Safe.bind (safe_quiet hw fun timeLeft _ => ?_)
  split
  · exact ⟨hw, .refl ..⟩
  split
  · exact ⟨hw, .refl ..⟩
  · next target hta =>
    rw [target_of_canonical hse hta]
    exact safe_withRetry hw hre _ _

def DefiniteError (answer : Except HelperError Unit) : Prop :=
    ∃ e, answer = .error e ∧ e.isAmbiguous = false

theorem safe_resubmitShare (hse : canonicalizeHelperBaseUrl client.library server = .ok server)
    (hw : Standing client.library known accepted w) (hr : Recorded client.library w.cell server) :
    Safe (deliveryHandler client.library place) (Standing client.library known accepted)
      (client.resubmitShare server) (fun answer v =>
          Posted server (DefiniteError answer) w v) w := by
  unfold HelperClient.resubmitShare
  split
  · exact ⟨hw, .refl ..⟩
  next target hta =>
  rw [target_of_canonical hse hta]
  refine Safe.bind (safe_isCancelled hw fun cancelled => ?_)
  split
  · exact ⟨hw, .refl ..⟩
  refine Safe.bind (safe_perform hw fun _ v hv => ?_)
  cases hv
  refine ⟨hw.posting hr, Safe.bind (safe_awaitAnswer hw (hw.posting hr) ?_ ?_)⟩
  · intro answer e _ _
    exact ⟨hw, .refl ..⟩
  intro answer han
  refine ⟨hw.posting hr, posted_posting server ?_ w⟩
  intro hde
  obtain ⟨e, he, hnot⟩ := hde
  cases answer with
  | none =>
    cases he
    cases hnot
  | some =>
    have hyes := han e (by simpa using he)
    rw [hnot] at hyes
    cases hyes

/-! ### Loaded rows -/

theorem mem_forms_of_canonical {urls : List String}
    (h : ∀ x ∈ urls, canonicalizeHelperBaseUrl library x = .ok x) :
    u ∈ canonicalForms library urls ↔ u ∈ urls := by
  rw [mem_canonicalForms]
  constructor
  · intro hu
    obtain ⟨x, hx, hc⟩ := hu
    rw [h x hx] at hc
    cases hc
    exact hx
  · intro hu
    exact ⟨u, hu, h u hu⟩

/-- A state built from the helpers of a canonical fleet knows none but the listed ones. -/
theorem evidence_of_fleet {fleet sent unknown inFlight : List String} {state : ShareDeliveryState}
    (hca : ∀ x ∈ fleet, canonicalizeHelperBaseUrl library x = .ok x)
    (h : fromUrlLists library (sent.filter fun u => fleet.contains u) (unknown.filter fun u => fleet.contains u)
      (inFlight.filter fun u => fleet.contains u) = .ok state) :
    (∀ u, state.evidence u ≠ .unrecorded → u ∈ sent ++ unknown ++ inFlight) ∧
    ∀ u ∈ state.acceptedUrls, u ∈ sent := by
  have hf : ∀ (urls : List String) u, u ∈ canonicalForms library (urls.filter fun u =>
    fleet.contains u) ↔
      u ∈ urls ∧ u ∈ fleet := by
    intro urls u
    rw [mem_forms_of_canonical fun x hx => hca x (by simpa using (mem_filter.mp hx).2)]
    simp
  have he : ∀ u, state.evidence u = if u ∈ sent ∧ u ∈ fleet then .accepted
      else if u ∈ unknown ∧ u ∈ fleet then .outcomeUnknown
      else if u ∈ inFlight ∧ u ∈ fleet then .inFlight else .unrecorded := by
    intro u
    rw [evidence_fromUrlLists h]
    simp only [hf]
  constructor
  · intro u hu
    rw [he] at hu
    by_contra hnot
    simp only [mem_append, not_or] at hnot
    simp [hnot] at hu
  · intro u hu
    rw [← evidence_eq_accepted, he] at hu
    by_contra hnot
    rw [if_neg fun hin => hnot hin.1] at hu
    split at hu
    · cases hu
    · split at hu <;> cases hu

/-- What the lists of a loaded share say about its row. -/
structure LoadedShare.Shows (library : UrlLibrary) (cell : Option ShareRow)
    (share : LoadedShare) : Prop where
  recorded : ∀ u ∈ share.sentToUrls ++ share.ambiguousUrls ++ share.attemptingUrls,
    Recorded library cell u
  accepted : ∀ u ∈ share.sentToUrls, Accepted library cell u

theorem loadRow_shows (hso : SoundCell library cell) {share : LoadedShare}
    (h : loadRow library cell = .ok (some share)) : share.Shows library cell := by
  cases cell with
  | none => cases h
  | some row =>
    obtain ⟨state, hst, hsh⟩ := bind_ok h
    cases hsh
    have hrow := hso row rfl
    have he : ∀ u, state.evidence u ≠ .unrecorded → row.evidence library u = state.evidence u := by
      intro u hu
      rw [hrow.evidence_deliveryState hst] at hu ⊢
      by_cases hl : isLegacy library u = true
      · simp [hl] at hu
      · simp [hl]
    constructor
    · intro u hu
      have hu' : state.evidence u ≠ .unrecorded := by
        rw [← contains_iff]
        simpa [ShareDeliveryState.contains, or_assoc] using hu
      exact recorded_iff.mpr ⟨row, rfl, by rwa [he u hu']⟩
    · intro u hu
      have hu' := evidence_eq_accepted.mpr hu
      exact ⟨row, rfl, by rw [he u (by rw [hu']; decide), hu']⟩

theorem keeps_loadShare {E : DeliveryWorld → Prop} {Q : Option LoadedShare → DeliveryWorld → Prop}
    (hI : I w) (hE : E w) (hso : SoundCell library w.cell)
    (h : ∀ loaded, (∀ share, loaded = some share → share.Shows library w.cell) → Q loaded w) :
    Keeps library place I E loadShare Q w := by
  refine keeps_mk (safe_quiet hI fun r hr => ⟨?_, fun _ => hE⟩)
  intro loaded hl
  apply h
  rintro share rfl
  rcases hr.2 with hlo | ⟨_, he⟩
  · exact loadRow_shows hso (hlo.symm.trans hl)
  · rw [hl] at he
    cases he

end ZcashVoting.ShareDelivery
