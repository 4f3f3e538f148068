import ZcashVoting.ShareDelivery.FanOut

/-!
# Released posts are recorded

A run is any sequence of first deliveries and recovery passes, each cut wherever the
process stops. At every point of such a run every helper with a released POST that no
definite failure has answered is in a list of the row, provided the canonical forms of the
configured URLs are canonical.
-/
namespace ZcashVoting.ShareDelivery

open KeyedData Interaction Optimistic List

variable {library : UrlLibrary} {place : SharePlace} {known accepted : String → Prop}
  {w w' : DeliveryWorld} {server : String}

/-! ### One walk -/

namespace ResubmitRequest

variable {request : ResubmitRequest} {server : String} {place : SharePlace}
  {attempted : List String}

/-- The lists of a request are canonical, and helpers to be tried again are known. -/
structure Ready (request : ResubmitRequest) (known : String → Prop) : Prop where
  canonical : ∀ u ∈ request.configuredUrls ++ request.interruptedAttemptUrls ++
    request.ambiguousUrls,
    canonicalizeHelperBaseUrl request.client.library u = .ok u
  known : ∀ u, u ∈ request.interruptedAttemptUrls ∨ u ∈ request.ambiguousUrls → known u

/-- What holds throughout a walk. -/
abbrev Walking (request : ResubmitRequest) (known : String → Prop) : DeliveryWorld → Prop :=
  Standing request.client.library known fun u => u ∈ request.definiteAcceptanceUrls

abbrev Walks {α : Type} (request : ResubmitRequest) (place : SharePlace) (known : String → Prop) :
    Delivery α → (α → DeliveryWorld → Prop) → DeliveryWorld → Prop :=
  Sustains request.client.library place known fun u => u ∈ request.definiteAcceptanceUrls

theorem mem_eligibleServers (h : server ∈ request.eligibleServers attempted) :
    server ∈ request.configuredUrls := by
  unfold eligibleServers at h
  split at h
  · exact (mem_filter.mp (mem_dedup.mp h)).1
  · cases h

theorem safe_recoveryOrder {I : DeliveryWorld → Prop} (hI : I w) (attempted : List String) :
    Safe (deliveryHandler library place) I (request.recoveryOrder attempted) (fun order v =>
        v = w ∧ ∀ s ∈ order,
        s ∈ request.configuredUrls ++ request.interruptedAttemptUrls ++
          request.ambiguousUrls) w := by
  have hre : ∀ group s, s ∈ request.retryUrls attempted group → s ∈ group := fun group s hs =>
    (mem_filter.mp hs).1
  refine Safe.bind (safe_quiet hI fun (randomUntried : List String) hun => ?_)
  refine Safe.bind (safe_quiet hI fun (randomSent : List String) hse => ?_)
  have hr : ∀ s ∈ randomUntried ++ randomSent, s ∈ request.configuredUrls := by
    intro s hs
    rcases mem_append.mp hs with hs | hs
    · exact mem_eligibleServers (mem_filter.mp (hun.2.subset hs)).1
    · exact mem_eligibleServers (mem_filter.mp (hse.2.subset hs)).1
  refine Safe.bind (safe_quiet hI fun (fresh : List String) hfr => ?_)
  refine Safe.bind (safe_quiet hI fun (interrupted : List String) hin => ?_)
  have hf : ∀ s ∈ fresh ++ interrupted,
      s ∈ request.configuredUrls ++ request.interruptedAttemptUrls ++ request.ambiguousUrls := by
    intro s hs
    apply mem_append_left
    rcases mem_append.mp hs with hs | hs
    · exact mem_append_left _ (hr s (takeWhile_subset _ (hfr.2.subset hs)))
    · exact mem_append_right _ (hre _ s (hin.2.subset hs))
  split
  · refine Safe.bind (safe_quiet hI fun ambiguous ham => ?_)
    refine Safe.bind (safe_quiet hI fun previous hpr => ?_)
    refine ⟨hI, rfl, ?_⟩
    intro s hs
    rcases mem_append.mp hs with hs | hs
    · rcases mem_append.mp hs with hs | hs
      · exact hf s hs
      · exact mem_append_right _ (hre _ s (ham.2.subset hs))
    · exact mem_append_left _
        (mem_append_left _ (hr s (dropWhile_subset _ (hpr.2.subset hs))))
  · exact ⟨hI, rfl, hf⟩

/-- A helper that may be posted to: it is recorded, and if the attempt is a fresh one then
it has no outstanding POST and was not known before. -/
def Admitted (request : ResubmitRequest) (known : String → Prop) (server : String)
    (w : DeliveryWorld) : Prop :=
  Recorded request.client.library w.cell server ∧
    (request.journalsFreshAttempt server = true → server ∉ w.outstanding ∧ ¬ known server)

theorem journalsFreshAttempt_eq_false (h : request.journalsFreshAttempt server = false) :
    server ∈ request.ambiguousUrls ∨ server ∈ request.interruptedAttemptUrls ∨
      server ∈ request.definiteAcceptanceUrls := by
  simp only [journalsFreshAttempt, retriesAmbiguous, retriesInterrupted, retriesAccepted,
    Bool.and_eq_false_iff, Bool.not_eq_false', contains_iff_mem] at h
  rcases h with (h | h) | h
  · exact .inl h
  · exact .inr (.inl h)
  · exact .inr (.inr h)

/-- A step that reports an acceptance has written it. -/
def Acknowledges (request : ResubmitRequest) (server : String) (step : HelperStep)
    (w : DeliveryWorld) : Prop :=
  ∀ s, step = .stop (.definitelyAcceptedByHelper s) →
    s = server ∧ Accepted request.client.library w.cell server

section

variable (hse : canonicalizeHelperBaseUrl request.client.library server = .ok server)
  (hw : request.Walking known w)
include hse hw

/-- A fresh attempt is journaled first; a recorded helper has its entry already. -/
theorem keeps_admitHelper (hre : request.Ready known) (reached : Bool) :
    request.Walks place known (request.admitHelper server reached)
      (fun admission v => (admission = .dispatch → request.Admitted known server v) ∧
        ∀ outcome, admission = .stop outcome → outcome = .staleGeneration) w := by
  unfold admitHelper
  split
  · split
    · exact keeps_pure hw (by simp)
    refine Keeps.bind (keeps_store hw fun r v hv => ?_)
    have hst : ∀ url ∈ (ShareOp.addAttempting server request.configuredUrls request.targetCount
        request.capacityPolicy (some request.nullifier)).helperUrls,
          Stable request.client.library url := by
      simpa [ShareOp.helperUrls] using stable_of_canonical hse hse
    obtain ⟨hs, hou⟩ := store_standing hst (by simp) hv hw
    refine ⟨hs, ?_⟩
    rintro _ rfl
    split
    · refine keeps_pure hs ⟨fun _ => ?_, by simp⟩
      obtain ⟨hnew, hr⟩ := started_unrecorded hse hv hw.sound
      refine ⟨hr, fun _ => ?_⟩
      rw [hou]
      exact ⟨fun hout => hnew (hw.outstanding server hout), fun hkn => hnew (hw.known server hkn)⟩
    · exact keeps_pure hs (by simp)
    · exact keeps_pure hs (by simp)
    · exact keeps_pure hs ⟨by simp, fun _ h => (Admission.stop.inj h).symm⟩
  · next hr =>
    have hr : request.journalsFreshAttempt server = false := Bool.eq_false_iff.mpr hr
    refine Keeps.bind (keeps_mk (safe_quiet hw fun r _ =>
      ⟨fun confirmed _ => ?_, fun _ => trivial⟩))
    split
    · exact keeps_pure hw (by simp)
    · refine keeps_pure hw ⟨fun _ => ⟨?_, fun hf => ?_⟩, by simp⟩
      · rcases journalsFreshAttempt_eq_false hr with hmem | hmem | hmem
        · exact hw.known server (hre.known server (.inr hmem))
        · exact hw.known server (hre.known server (.inl hmem))
        · exact (hw.accepted server hmem).recorded
      · rw [hr] at hf
        cases hf
    · exact keeps_pure hw ⟨by simp, fun _ h => (Admission.stop.inj h).symm⟩

theorem keeps_resolve {outcome : ShareDeliveryAttemptOutcome} {step : HelperStep}
    (hfr : outcome = .definiteFailure →
      (server ∉ w.outstanding ∧ ¬ known server) ∨ Accepted request.client.library w.cell server)
    (hste : ∀ s, step = .stop (.definitelyAcceptedByHelper s) → s = server ∧ outcome = .accepted) :
    request.Walks place known
      (request.resolve server outcome step) (fun step v =>
          request.Acknowledges server step v) w := by
  refine Keeps.bind (keeps_store hw fun r v hv => ?_)
  obtain ⟨hst, -⟩ := resolve_standing hse hv hw hfr
  refine ⟨hst, ?_⟩
  rintro _ rfl
  split
  · next hup =>
    subst hup
    refine keeps_pure hst ?_
    intro s hs
    obtain ⟨hsa, hout⟩ := hste s hs
    subst hout
    exact ⟨hsa, merged_accepted hse hv hw.sound⟩
  · exact keeps_pure hst nofun

/-- The answer of a POST, in the world it leaves. -/
theorem keeps_settle {u : DeliveryWorld} {answer : Except HelperError Unit}
    (had : request.Admitted known server u) (hpo : Posted server (DefiniteError answer) u w) :
    request.Walks place known (request.settle server answer)
      (fun step v => request.Acknowledges server step v) w := by
  -- a fresh attempt that failed definitely has no POST outstanding
  have hfr : request.journalsFreshAttempt server = true → DefiniteError answer →
      server ∉ w.outstanding ∧ ¬ known server := by
    intro hf hde
    obtain ⟨hout, hk⟩ := had.2 hf
    exact ⟨hpo.definite hde hout, hk⟩
  unfold settle
  split
  · refine keeps_resolve hse hw nofun ?_
    intro s hs
    cases hs
    exact ⟨rfl, rfl⟩
  · split
    · next hf => exact keeps_resolve hse hw (fun _ => .inl (hfr hf ⟨_, rfl, rfl⟩)) nofun
    · exact keeps_pure hw nofun
  · next error _ =>
    split
    · split
      · exact keeps_pure hw nofun
      · exact keeps_resolve hse hw nofun nofun
    · next ham =>
      split
      · exact keeps_resolve hse hw nofun nofun
      next hin =>
      split
      · exact keeps_pure hw nofun
      next hk =>
      refine keeps_resolve hse hw (fun _ => ?_) nofun
      by_cases ha : request.retriesAccepted server = true
      · exact .inr (hw.accepted server (contains_iff_mem.mp ha))
      · refine .inl (hfr ?_ ⟨error, rfl, Bool.eq_false_iff.mpr ham⟩)
        simp [journalsFreshAttempt, hin, hk, ha]

theorem keeps_tryHelper (hre : request.Ready known) (reached : Bool) :
    request.Walks place known (request.tryHelper server reached)
      (fun result v => request.Acknowledges server result.1 v) w := by
  refine Keeps.bind (keeps_lift (safe_isCancelled hw fun cancelled => ?_))
  split
  · exact keeps_pure hw nofun
  refine Keeps.bind (keeps_lift (safe_quiet hw fun windowOpen _ => ?_))
  split
  · exact keeps_pure hw nofun
  refine Keeps.bind (Keeps.mono (keeps_admitHelper hse hw hre reached) ?_)
  intro admission v hv ⟨had, hst⟩
  split
  · next outcome =>
    cases hst outcome rfl
    exact keeps_pure hv nofun
  · exact keeps_pure hv nofun
  · have hr := had rfl
    refine Keeps.bind (keeps_lift (Safe.mono (safe_resubmitShare hse hv hr.1) ?_))
    intro answer v' hv' hpo
    refine Keeps.bind (Keeps.mono (keeps_settle hse hv' hr hpo) ?_)
    intro step v'' hv'' hste
    exact keeps_pure hv'' hste

end

/-- An outcome that names an accepting helper is backed by the row. -/
def Confirms (request : ResubmitRequest) (outcome : ResubmitOutcome) (w : DeliveryWorld) : Prop :=
  ∀ s, outcome = .definitelyAcceptedByHelper s →
    canonicalizeHelperBaseUrl request.client.library s = .ok s ∧
      Accepted request.client.library w.cell s

theorem keeps_walk (hre : request.Ready known) (order : List String)
    (ho : ∀ s ∈ order, canonicalizeHelperBaseUrl request.client.library s = .ok s)
    (hw : request.Walking known w) (state : WalkState) :
    request.Walks place known (request.walk order state)
      (fun result v => request.Confirms result.1 v) w := by
  induction order generalizing w state with
  | nil => exact keeps_pure hw nofun
  | cons server _ ih =>
    have hse := ho server mem_cons_self
    refine Keeps.bind (Keeps.mono (keeps_tryHelper hse hw hre _) ?_)
    rintro ⟨_, _⟩ v hv hst
    dsimp only
    split
    · next outcome =>
      refine keeps_pure hv ?_
      rintro s rfl
      obtain ⟨rfl, hac⟩ := hst s rfl
      exact ⟨hse, hac⟩
    · exact ih (fun s hs => ho s (mem_cons_of_mem _ hs)) hv _

theorem keeps_resubmitToNextHelper (hr : request.Ready known) (hw : request.Walking known w)
    (attempted : List String) :
    request.Walks place known
      (request.resubmitToNextHelper attempted) (fun result v => request.Confirms result.1 v) w := by
  refine Keeps.bind (keeps_mk (safe_quiet hw fun r _ =>
    ⟨fun material _ => ?_, fun _ => trivial⟩))
  split
  · exact keeps_pure hw nofun
  · exact keeps_pure hw nofun
  · exact keeps_pure hw nofun
  · next isCurrent =>
    refine keeps_pure hw ?_
    intro s hs
    split at hs <;> cases hs
  · refine Keeps.bind (keeps_lift (Safe.mono (safe_recoveryOrder hw attempted) ?_))
    rintro order v _ ⟨rfl, hor⟩
    exact keeps_walk hr order (fun s hs => hr.canonical s (hor s hs)) hw _

end ResubmitRequest

/-! ### One pass -/

namespace TrackingContext

variable {ctx : TrackingContext} {share : LoadedShare} {state : ShareDeliveryState}
  {urls : List String}

/-- The fleet is canonical, what the share shows is known, and the acceptances of the local
state are those of canonical helpers. -/
structure Tracking (ctx : TrackingContext) (known : String → Prop) (share : LoadedShare)
    (state : ShareDeliveryState) : Prop where
  fleet : ∀ url ∈ ctx.configuredUrls, canonicalizeHelperBaseUrl ctx.client.library url = .ok url
  known : ∀ u, u ∈ share.attemptingUrls ∨ u ∈ share.ambiguousUrls → known u

theorem Tracking.ready (h : ctx.Tracking known share state) (overdue interruptedOnly : Bool) :
    (ctx.request share state overdue interruptedOnly).Ready known := by
  constructor
  · intro u hu
    apply h.fleet
    simp only [request, configured, mem_append, mem_filter, contains_iff_mem] at hu
    rcases hu with (hu | hu) | hu
    · exact hu
    · exact hu.2
    · exact hu.2
  · intro u hu
    apply h.known
    rcases hu with hu | hu
    · exact .inl (mem_filter.mp hu).1
    · exact .inr (mem_filter.mp hu).1

theorem recordAmbiguous_accepted {recorded : ShareDeliveryState}
    (h : ctx.recordAmbiguous state urls = .ok recorded) :
    recorded.acceptedUrls = state.acceptedUrls := by
  induction urls generalizing state with
  | nil =>
    cases h
    rfl
  | cons _ _ ih =>
    obtain ⟨_, hma, hre⟩ := bind_ok h
    obtain ⟨_, -, hmar⟩ := bind_ok hma
    cases hmar
    have hsa := ih hre
    exact hsa

/-- The walks of a pass. The acceptances each of them starts with are in the row. -/
theorem keeps_walks (overdue interruptedOnly : Bool) (rounds : Nat)
    (ht : ctx.Tracking known share state)
    (hw : Standing ctx.client.library known (fun u => u ∈ state.acceptedUrls) w) :
    Sustains ctx.client.library place known (fun _ => False)
      (ctx.walks share overdue interruptedOnly rounds state attempted) (fun _ _ => True) w := by
  induction rounds generalizing w state attempted with
  | zero => exact keeps_pure (hw.weaken (fun _ h => h) fun _ => False.elim) trivial
  | succ _ ih =>
    refine Keeps.bind (Safe.weakenInvariant (Safe.mono
      (ResubmitRequest.keeps_resubmitToNextHelper (ht.ready overdue interruptedOnly) hw attempted) ?_)
      fun v hv => hv.weaken (fun _ h => h) fun _ => False.elim)
    intro result v hv hres
    have hs : Standing ctx.client.library known (fun _ => False) v :=
      hv.weaken (fun _ h => h) fun _ => False.elim
    cases result with
    | error => trivial
    | ok result =>
      obtain ⟨_, _⟩ := result
      dsimp only
      split
      · next server =>
        obtain ⟨hse, hac⟩ := hres server rfl
        refine Keeps.bind (keeps_except hs trivial fun recorded hre => ?_)
        refine Keeps.bind (keeps_except hs trivial fun marked hma => ?_)
        obtain ⟨c, hc, hmar⟩ := bind_ok hma
        cases hmar
        have hc' : c = server := by
          have hsa := hc.symm.trans hse
          exact Except.ok.inj hsa
        split
        · exact keeps_pure hs trivial
        refine ih ⟨ht.fleet, ht.known⟩ ⟨hv.sound, hv.outstanding, hv.known, ?_⟩
        intro u hu
        rcases mem_pushNew.mp hu with hu | rfl
        · rw [recordAmbiguous_accepted hre] at hu
          exact hv.accepted u hu
        · exact hc' ▸ hac
      · exact keeps_pure hs trivial

theorem keeps_pollAndConfirm {accepted : String → Prop} (share : LoadedShare)
    (hw : Standing library known accepted w) :
    Sustains library place known (fun _ => False) (pollAndConfirm share)
      (fun _ v => Standing library known accepted v) w := by
  have hs : Standing library known (fun _ => False) w :=
    hw.weaken (fun _ h => h) fun _ => False.elim
  refine Keeps.bind (keeps_lift (safe_quiet hs fun status _ => ?_))
  split
  · exact keeps_pure hs hw
  · exact keeps_pure hs hw
  refine Keeps.bind (keeps_store hs fun r v hv => ?_)
  obtain ⟨ha, -⟩ := store_standing (by simp [ShareOp.helperUrls]) (by simp) hv hw
  have hwe : Standing library known (fun _ => False) v :=
    ha.weaken (fun _ h => h) fun _ => False.elim
  exact ⟨hwe, fun _ _ => keeps_pure hwe ha⟩

theorem keeps_recover (htr : ctx.Tracking known share state)
    (hw : Standing ctx.client.library known (fun u => u ∈ state.acceptedUrls) w)
    (flags : ShareTrackingFlags) :
    Sustains ctx.client.library place known (fun _ =>
        False) (ctx.recover share state flags) (fun _ _ => True) w := by
  have hs : Standing ctx.client.library known (fun _ => False) w :=
    hw.weaken (fun _ h => h) fun _ => False.elim
  refine Keeps.bind (keeps_lift (safe_quiet hs fun windowOpen _ => ?_))
  dsimp only
  split
  · exact keeps_walks _ _ _ htr hw
  · exact keeps_pure hs trivial

/-- A pass over the share. What the row shows when the pass loads it is known. -/
theorem keeps_trackPendingShare (ctx : TrackingContext)
    (hf : ∀ url ∈ ctx.configuredUrls, canonicalizeHelperBaseUrl ctx.client.library url = .ok url)
    (hw : Standing ctx.client.library known (fun _ => False) w)
    (hkn : ∀ u, Recorded ctx.client.library w.cell u → known u) :
    Sustains ctx.client.library place known (fun _ => False)
      ctx.trackPendingShare (fun _ _ => True) w := by
  refine Keeps.bind (keeps_lift (safe_isCancelled hw fun cancelled => ?_))
  split
  · exact keeps_pure hw trivial
  refine Keeps.bind (keeps_mk (safe_quiet hw fun r _ => ⟨fun locked _ => ?_, fun _ => trivial⟩))
  split
  · exact keeps_pure hw trivial
  refine Keeps.bind (keeps_loadShare hw trivial hw.sound fun loaded hlo => ?_)
  split
  · exact keeps_pure hw trivial
  next share hsh =>
  have hs := hlo share (Option.filter_eq_some_iff.mp hsh).1
  refine Keeps.bind (keeps_except hw trivial fun state hst => ?_)
  have ht : ctx.Tracking known share state := by
    refine ⟨hf, ?_⟩
    intro u hu
    apply hkn u (hs.recorded u _)
    rcases hu with hu | hu
    · exact mem_append_right _ hu
    · exact mem_append_left _ (mem_append_right _ hu)
  have hl : Standing ctx.client.library known (fun u => u ∈ state.acceptedUrls) w := by
    refine ⟨hw.sound, hw.outstanding, hw.known, ?_⟩
    intro u hu
    exact hs.accepted u ((evidence_of_fleet hf hst).2 u hu)
  refine Keeps.bind (keeps_lift (safe_quiet hw fun flags _ => ?_))
  split
  · exact keeps_pure hw trivial
  split
  · refine Keeps.bind (Keeps.mono (keeps_pollAndConfirm share hl) ?_)
    rintro ⟨_, _⟩ v hv hv'
    dsimp only
    split
    · exact keeps_pure hv trivial
    · refine Keeps.bind (keeps_lift (safe_quiet hv fun flags _ => ?_))
      exact keeps_recover ht hv' flags
  · refine Keeps.bind (keeps_lift (safe_quiet hw fun flags _ => ?_))
    exact keeps_recover ht hl flags

end TrackingContext

theorem keeps_walkPendingShare {client : HelperClient}
    {nullifier : List UInt8} (hur : ∀ url ∈ urls, Stable client.library url)
    (hw : Standing client.library known (fun _ => False) w)
    (hkn : ∀ u, Recorded client.library w.cell u → known u) :
    Sustains client.library place known (fun _ => False)
      (walkPendingShare client urls nullifier) (fun _ _ => True) w := by
  refine Keeps.bind (keeps_except hw trivial fun fleet hfl => ?_)
  exact TrackingContext.keeps_trackPendingShare ⟨client, fleet, nullifier⟩
    (configuredHelperFleet_canonical hur hfl) hw hkn

/-! ### Runs -/

/-- What a process may take up for a share. -/
inductive ShareWork where
  | deliver (request : CommittedShareSubmissionRequest)
  | recover (client : HelperClient) (configuredServerUrls : List String) (nullifier : List UInt8)

namespace ShareWork

def client : ShareWork → HelperClient
  | deliver request => request.client
  | recover client _ _ => client

def configuredServerUrls : ShareWork → List String
  | deliver request => request.configuredServerUrls
  | recover _ configuredServerUrls _ => configuredServerUrls

/-- The work, started in `w`, may be cut in `w'`. -/
def CutsAt (library : UrlLibrary) (place : SharePlace) (w w' : DeliveryWorld) : ShareWork → Prop
  | deliver request =>
      CutAt (deliveryHandler library place) request.submitCommittedShareToHelpers.run w w'
  | recover client urls nullifier =>
    CutAt (deliveryHandler library place) (walkPendingShare client urls nullifier).run w w'

def Uses (library : UrlLibrary) (work : ShareWork) : Prop := work.client.library = library

/-- Canonical forms of the configured URLs are canonical. -/
def StableFleet (library : UrlLibrary) (work : ShareWork) : Prop :=
  work.Uses library ∧ ∀ url ∈ work.configuredServerUrls, Stable library url

end ShareWork

/-- The worlds of a share that works of a kind `P` lead to, each of them cut anywhere. -/
inductive Reached (library : UrlLibrary) (place : SharePlace) (P : ShareWork → Prop) :
    DeliveryWorld → Prop where
  | start (cell : Option ShareRow) (h : SoundCell library cell) : Reached library place P ⟨cell, []⟩
  | work {w w' : DeliveryWorld} (work : ShareWork) (hwork : P work) (h : Reached library place P w)
      (hcut : work.CutsAt library place w w') : Reached library place P w'

/-- A cut of any work keeps what was recorded, and the posts it releases are recorded. -/
theorem ShareWork.CutsAt.standing {work : ShareWork} (hwo : work.StableFleet library)
    (hcut : work.CutsAt library place w w')
    (hw : Standing library (Recorded library w.cell) (fun _ => False) w) :
    Standing library (Recorded library w.cell) (fun _ => False) w' := by
  obtain ⟨hl, hu⟩ := hwo
  cases work with
  | deliver =>
    cases hl
    exact Safe.of_cutAt (CommittedShareSubmissionRequest.keeps_submit hu hw) hcut
  | recover =>
    cases hl
    exact Safe.of_cutAt (keeps_walkPendingShare hu hw fun _ h => h) hcut

theorem Reached.standing (h : Reached library place (ShareWork.StableFleet library) w) :
    Standing library (Recorded library w.cell) (fun _ => False) w := by
  induction h with
  | start _ hce => exact ⟨hce, nofun, fun _ h => h, nofun⟩
  | work _ hwo _ hcut ih =>
    have ha := hcut.standing hwo ih
    exact ⟨ha.sound, ha.outstanding, fun _ h => h, nofun⟩

/-- A world that lets everything happen and answers no POST. -/
def silentWorld (library : UrlLibrary) (place : SharePlace) :
    (c : DeliveryCmd) → DeliveryWorld → c.Answer × DeliveryWorld
  | .cancelled, w => (false, w)
  | .lockShare, w => (.ok true, w)
  | .candidateServers group, w => (group, w)
  | .shuffle group, w => (group, w)
  | .pollOrder wave, w => (wave, w)
  | .budgetLeft, w => (true, w)
  | .timeLeft, w => (true, w)
  | .backoffFits, w => (true, w)
  | .acquirePermit, w => (.ok (), w)
  | .store op, w =>
    match (shareOperations library place).attempt op noBallot w.cell with
    | .finish result => (result, w)
    | .swap guard next result =>
      if guard w.cell then (result w.cell, { w with cell := next w.cell })
      else (.error (.busy "database is locked"), w)
  | .loadShare, w => (loadRow library w.cell, w)
  | .isConfirmed nullifier, w => (.ok (rowConfirmed nullifier w.cell), w)
  | .release target, w => ((), w.posting target)
  | .awaitAnswer _, w => (none, w)
  | .recoveryMaterial _, w => (.ok .ready, w)
  | .windowOpen, w => (true, w)
  | .trackingFlags, w => (⟨false, false⟩, w)
  | .pollShareHelpers, w => (.quorumNotObserved, w)

theorem silentWorld_answers (library : UrlLibrary) (place : SharePlace) (c : DeliveryCmd)
    (w : DeliveryWorld) :
    deliveryHandler library place c w (silentWorld library place c w).1
      (silentWorld library place c w).2 := by
  cases c with
  | store op =>
    simp only [silentWorld]
    cases ha : (shareOperations library place).attempt op noBallot w.cell with
    | finish => exact .inr ⟨noBallot, by rw [ha]; exact ⟨rfl, rfl⟩, rfl⟩
    | swap _ next =>
      dsimp only
      split
      · next hgu => exact .inr ⟨noBallot, by rw [ha]; exact ⟨hgu, rfl, rfl⟩, rfl⟩
      · exact .inl ⟨rfl, _, rfl⟩
  | candidateServers group | shuffle group => exact ⟨rfl, .refl group⟩
  | pollOrder wave => exact ⟨rfl, .refl wave⟩
  | loadShare | isConfirmed => exact ⟨rfl, .inl rfl⟩
  | _ => rfl

def sampleClient : HelperClient := ⟨plainUrls, true, 0⟩

/-- The helper and another one are configured; the share is planned for the helper. -/
def sampleDelivery (helper : String) : CommittedShareSubmissionRequest :=
  ⟨sampleClient, samplePlace, [7], [helper, "https://other.example"],
    [helper, "https://other.example"], [helper], 1, 0⟩

/-- A delivery that stops once the row exists, and a recovery pass that posts to the two helpers
and gets no answer from either. -/
def unansweredRun (helper : String) : DeliveryWorld :=
  (walkPendingShare sampleClient [helper, "https://other.example"] [7]).run.play
    (silentWorld plainUrls samplePlace) 25
    ((sampleDelivery helper).submitCommittedShareToHelpers.run.play
      (silentWorld plainUrls samplePlace) 2 ⟨none, []⟩)

theorem unansweredRun_reached {P : ShareWork → Prop} (helper : String)
    (hde : P (.deliver (sampleDelivery helper)))
    (hre : P (.recover sampleClient [helper, "https://other.example"] [7])) :
    Reached plainUrls samplePlace P (unansweredRun helper) :=
  .work _ hre (.work _ hde (.start none nofun) (cutAt_play (silentWorld_answers _ _) 2 _ _))
    (cutAt_play (silentWorld_answers _ _) 25 _ _)

theorem plainFleet_stable :
    ∀ url ∈ ["https://helper.example", "https://other.example"], Stable plainUrls url := by
  intro url hurl
  rcases mem_cons.mp hurl with rfl | hurl
  · exact stable_of_canonical (c := "https://helper.example") (by decide +kernel)
      (by decide +kernel)
  · rw [mem_singleton.mp hurl]
    exact stable_of_canonical (c := "https://other.example") (by decide +kernel) (by decide +kernel)

end ZcashVoting.ShareDelivery
