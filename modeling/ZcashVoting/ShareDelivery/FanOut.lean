import ZcashVoting.ShareDelivery.PostWorld

/-!
# The first delivery keeps posted helpers recorded

A wave reserves helpers that no list has, so none of them has an outstanding POST. Each
POST is released while its helper is in the in-flight list, and the entry is taken out
again only when every attempt has failed definitely.
-/
namespace ZcashVoting.ShareDelivery

open KeyedData Interaction Optimistic List

variable {library : UrlLibrary} {place : SharePlace} {known accepted : String → Prop}
  {w : DeliveryWorld} {server : String}

/-! ### The fan-out -/

namespace DeliveryContext

variable {ctx : DeliveryContext} {place : SharePlace} {wave : Wave} {state : ShareDeliveryState}

/-- The helpers of the fleet are their own canonical forms. -/
def Canonical (ctx : DeliveryContext) : Prop :=
  ∀ url ∈ ctx.candidates, canonicalizeHelperBaseUrl ctx.client.library url = .ok url

/-- The helpers reserved so far: they are pairwise different, no POST to them is
outstanding and none of them was known. -/
structure Reserving (ctx : DeliveryContext) (known : String → Prop) (wave : Wave)
    (w : DeliveryWorld) : Prop where
  candidates : ∀ s ∈ wave.remaining ++ wave.reserved, s ∈ ctx.candidates
  nodup : wave.reserved.Nodup
  taken : ∀ s ∈ wave.reserved, s ∉ wave.remaining
  free : ∀ s ∈ wave.reserved, s ∉ w.outstanding ∧ ¬ known s

theorem Reserving.of_outstanding {v : DeliveryWorld} (h : Reserving ctx known wave w)
    (hv : v.outstanding = w.outstanding) : Reserving ctx known wave v :=
  ⟨h.candidates, h.nodup, h.taken, by rw [hv]; exact h.free⟩

theorem Reserving.remove (h : Reserving ctx known wave w) (server : String) :
    Reserving ctx known { wave with remaining := removeUrl wave.remaining server } w := by
  refine ⟨?_, h.nodup, ?_, h.free⟩
  · intro s hs
    apply h.candidates
    rcases mem_append.mp hs with hs | hs
    · exact mem_append_left _ (mem_removeUrl.mp hs).1
    · exact mem_append_right _ hs
  · intro s hs hmem
    exact h.taken s hs (mem_removeUrl.mp hmem).1

theorem Reserving.reserve (h : Reserving ctx known wave w) (hse : server ∈ wave.remaining)
    (hfr : server ∉ w.outstanding ∧ ¬ known server) : Reserving ctx known { wave with
      remaining := removeUrl wave.remaining server, reserved := wave.reserved ++ [server] } w := by
  have hr := h.remove server
  refine ⟨?_, ?_, ?_, ?_⟩
  · intro s hs
    simp only [mem_append, mem_singleton] at hs
    rcases hs with hs | hs | rfl
    · exact hr.candidates s (mem_append_left _ hs)
    · exact h.candidates s (mem_append_right _ hs)
    · exact h.candidates s (mem_append_left _ hse)
  · rw [nodup_append]
    refine ⟨h.nodup, nodup_singleton _, ?_⟩
    intro a ha b hb
    rw [mem_singleton] at hb
    rintro rfl
    exact h.taken a ha (hb ▸ hse)
  · intro s hs hmem
    rcases mem_append.mp hs with hs | hs
    · exact hr.taken s hs hmem
    · exact (mem_removeUrl.mp hmem).2 (mem_singleton.mp hs)
  · intro s hs
    rcases mem_append.mp hs with hs | hs
    · exact h.free s hs
    · rw [mem_singleton] at hs
      exact hs ▸ hfr

theorem safe_nextServer {I : DeliveryWorld → Prop} (hI : I w) (remaining : List String) :
    Safe (deliveryHandler library place) I (ctx.nextServer remaining)
      (fun next v => v = w ∧ ∀ s, next.1 = some s → s ∈ remaining) w := by
  refine Safe.bind (safe_isCancelled hI fun cancelled => ?_)
  split
  · exact ⟨hI, rfl, nofun⟩
  refine Safe.bind (safe_quiet hI fun ordered hor => ?_)
  have hgr : ∀ s ∈ ctx.activeGroup remaining, s ∈ remaining := by
    intro s hs
    unfold activeGroup at hs
    split at hs
    · exact (mem_filter.mp hs).1
    · exact hs
  split
  · exact ⟨hI, rfl, nofun⟩
  next server rest =>
  refine Safe.bind (safe_quiet hI fun budget _ => ?_)
  split
  · exact ⟨hI, rfl, nofun⟩
  refine ⟨hI, rfl, ?_⟩
  rintro s hs
  cases hs
  exact hgr server (hor.2.subset mem_cons_self)

/-- The result of a post is a definite failure. -/
def Definite (result : Except VotingError PostOutcome) : Prop :=
  ∃ outcome, result = .ok outcome ∧ outcome.attemptOutcome = .definiteFailure

section

variable (hw : Standing ctx.client.library known accepted w)
include hw

theorem keeps_beginAttempt {target : Nat}
    (hs : canonicalizeHelperBaseUrl ctx.client.library server = .ok server)
    {Q : ShareOpResult → DeliveryWorld → Prop}
    (hQ : ∀ result v, Standing ctx.client.library known accepted v → v.outstanding = w.outstanding →
      (result = .reservation .started → server ∉ w.outstanding ∧ ¬ known server) → Q result v) :
    Sustains ctx.client.library place known accepted (ctx.beginAttempt server target) Q w := by
  refine keeps_store hw fun r v hv => ?_
  have hsta : ∀ url ∈ (ShareOp.addAttempting server ctx.candidates target .enforcePlacementTarget
      (some ctx.nullifier)).helperUrls, Stable ctx.client.library url := by
    simpa [ShareOp.helperUrls] using stable_of_canonical hs hs
  obtain ⟨hst, hou⟩ := store_standing hsta (by simp) hv hw
  refine ⟨hst, ?_⟩
  rintro result rfl
  refine hQ result v hst hou ?_
  rintro rfl
  have hnew := (started_unrecorded hs hv hw.sound).1
  exact ⟨fun hout => hnew (hw.outstanding server hout), fun hkn => hnew (hw.known server hkn)⟩

variable (hctx : ctx.Canonical)
include hctx

theorem keeps_loadCurrentDeliveryState :
    Keeps ctx.client.library place (Standing ctx.client.library known accepted) (fun v => v = w)
      ctx.loadCurrentDeliveryState
      (fun state v => v = w ∧ ∀ u, state.evidence u ≠ .unrecorded →
          Recorded ctx.client.library w.cell u) w := by
  refine Keeps.bind (keeps_loadShare hw rfl hw.sound fun loaded hlo => ?_)
  split
  · exact keeps_throw hw rfl
  next share hsh =>
  have hsho := hlo share (Option.filter_eq_some_iff.mp hsh).1
  refine keeps_except hw rfl ?_
  intro state hst
  refine ⟨rfl, ?_⟩
  intro u hu
  exact hsho.recorded u ((evidence_of_fleet hctx hst).1 u hu)

theorem keeps_reserveWave (target need rounds : Nat) (hwa : Reserving ctx known wave w) :
    Sustains ctx.client.library place known accepted
      (ctx.reserveWave target need rounds wave) (fun wave' v => Reserving ctx known wave' v) w := by
  induction rounds generalizing wave w with
  | zero => exact keeps_pure hw hwa
  | succ _ ih =>
    rw [reserveWave]
    split
    · exact keeps_pure hw hwa
    refine Keeps.bind (keeps_lift (Safe.mono (safe_nextServer hw wave.remaining) ?_))
    rintro ⟨next, _⟩ v _ ⟨rfl, hne⟩
    cases next with
    | none => exact keeps_pure hw ⟨hwa.candidates, hwa.nodup, hwa.taken, hwa.free⟩
    | some server =>
      have hmem := hne server rfl
      have hse := hctx server (hwa.candidates server (mem_append_left _ hmem))
      refine Keeps.bind (keeps_beginAttempt hw hse ?_)
      intro result v' hs ho hst
      split
      · exact ih hs ((hwa.reserve hmem (hst rfl)).of_outstanding ho)
      · exact ih hs ((hwa.remove server).of_outstanding ho)
      · exact keeps_pure hs (hwa.of_outstanding ho)
      · exact keeps_throw hs trivial

/-- The row is read again before a POST is released, so the helper is in it. A post that
stops with an error has released nothing. -/
theorem safe_post (hse : server ∈ ctx.candidates) :
    Safe (deliveryHandler ctx.client.library place) (Standing ctx.client.library known accepted)
      (ctx.post server).run (fun result v => Posted server (Definite result) w v) w := by
  suffices hke : Keeps ctx.client.library place (Standing ctx.client.library known accepted)
      (fun v => v = w) (ctx.post server)
      (fun outcome v => Posted server (outcome.attemptOutcome = .definiteFailure) w v) w by
    refine Safe.mono hke ?_
    intro result v _ hv
    cases result with
    | error =>
      cases hv
      exact .refl ..
    | ok =>
      refine ⟨hv.cell, hv.others, ?_⟩
      rintro ⟨_, hsa, hde⟩
      cases hsa
      exact hv.definite hde
  refine Keeps.bind (keeps_lift (safe_quiet hw fun admission _ => ?_))
  split
  · exact keeps_pure hw (.refl ..)
  refine Keeps.bind (Keeps.mono (keeps_loadCurrentDeliveryState hw hctx) ?_)
  rintro _ v _ ⟨rfl, hcu⟩
  split
  · exact keeps_throw hw rfl
  next hfl =>
  have hre := hcu server (by
    rw [ShareDeliveryState.evidence_eq_inFlight.mpr (not_not.mp hfl)]
    decide)
  exact keeps_lift (safe_submitShareWithTimeout (hctx server hse) hw hre)

/-- The posts of a wave: a helper whose post has failed definitely has none outstanding. -/
theorem safe_joinAll (order : List String) (hor : ∀ s ∈ order, s ∈ ctx.candidates)
    (hn : order.Nodup) (hf : ∀ s ∈ order, s ∉ w.outstanding) :
    Safe (deliveryHandler ctx.client.library place) (Standing ctx.client.library known accepted)
      (ctx.joinAll order)
      (fun outcomes v => (∀ t, t ∉ order → t ∈ v.outstanding → t ∈ w.outstanding) ∧
        ∀ entry ∈ outcomes, Definite entry.2 → entry.1 ∉ v.outstanding) w := by
  induction order generalizing w with
  | nil => exact ⟨hw, fun _ _ h => h, nofun⟩
  | cons server rest ih =>
    rw [nodup_cons] at hn
    refine Safe.bind (Safe.mono (safe_post hw hctx (hor server mem_cons_self)) ?_)
    intro result v hv hp
    have hre : ∀ s ∈ rest, s ∉ v.outstanding := by
      intro s hs hmem
      have hne : s ≠ server := fun hsa => hn.1 (hsa ▸ hs)
      exact hf s (mem_cons_of_mem _ hs) (hp.others s hne hmem)
    refine Safe.bind (Safe.mono (ih hv (fun s hs => hor s (mem_cons_of_mem _ hs)) hn.2 hre) ?_)
    intro outcomes v' hv' ⟨ho, hde⟩
    refine ⟨hv', ?_, ?_⟩
    · intro t ht hmem
      rw [mem_cons, not_or] at ht
      exact hp.others t ht.1 (ho t ht.2 hmem)
    · intro entry he hdef
      rcases mem_cons.mp he with rfl | he
      · intro hmem
        exact hp.definite hdef (hf server mem_cons_self) (ho server hn.1 hmem)
      · exact hde entry he hdef

theorem keeps_applyOutcomes (outcomes : List (String × Except VotingError PostOutcome))
    (wave : List String) {elapsed : Bool} (hwa : ∀ s ∈ wave, s ∈ ctx.candidates ∧ ¬ known s)
    (hf : ∀ entry ∈ outcomes, Definite entry.2 → entry.1 ∉ w.outstanding) :
    Sustains ctx.client.library place known accepted
      (ctx.applyOutcomes outcomes wave state elapsed) (fun _ _ => True) w := by
  induction wave generalizing w state elapsed with
  | nil => exact keeps_pure hw trivial
  | cons server _ ih =>
    refine Keeps.bind (keeps_except hw trivial ?_)
    intro outcome ho
    have hre : outcome.attemptOutcome = .definiteFailure → server ∉ w.outstanding := by
      intro hd
      cases hl : outcomes.lookup server with
      | none => simp [hl] at ho
      | some result =>
        rw [hl] at ho
        obtain ⟨_, _, hsp, -⟩ := lookup_eq_some_iff.mp hl
        exact hf (server, result) (by simp [hsp]) ⟨outcome, ho, hd⟩
    refine Keeps.bind (Keeps.bind (keeps_store hw fun r v hv => ?_))
    obtain ⟨hca, hun⟩ := hwa server mem_cons_self
    obtain ⟨hst, hou⟩ := resolve_standing (hctx server hca) hv hw
      fun hd => .inl ⟨hre hd, hun⟩
    refine ⟨hst, fun result _ => ?_⟩
    split
    · refine keeps_pure hst (Keeps.bind (keeps_except hst trivial fun state' _ => ?_))
      refine ih hst (fun s hs => hwa s (mem_cons_of_mem _ hs)) ?_
      rw [hou]
      exact hf
    · exact keeps_throw hst trivial

theorem keeps_waves (target rounds : Nat) {remaining : List String}
    (hre : ∀ s ∈ remaining, s ∈ ctx.candidates) :
    Sustains ctx.client.library place known accepted (ctx.waves target rounds remaining state)
      (fun _ _ => True) w := by
  induction rounds generalizing w remaining state with
  | zero => exact keeps_pure hw trivial
  | succ _ ih =>
    rw [waves]
    split
    · exact keeps_pure hw trivial
    refine Keeps.bind (keeps_lift (safe_isCancelled hw fun cancelled => ?_))
    split
    · exact keeps_pure hw trivial
    have hst : Reserving ctx known ⟨remaining, [], false⟩ w :=
      ⟨by simpa using hre, nodup_nil, by simp, by simp⟩
    refine Keeps.bind (Keeps.mono (keeps_reserveWave hw hctx _ _ _ hst) ?_)
    intro wave v hv hwa
    have hr : ∀ s ∈ wave.reserved, s ∈ ctx.candidates :=
      fun s hs => hwa.candidates s (mem_append_right _ hs)
    split
    · exact keeps_pure hv trivial
    refine Keeps.bind (keeps_lift (Safe.bind (safe_quiet hv fun order hor => ?_)))
    have hp : List.Perm order wave.reserved := hor.2
    refine Safe.mono (safe_joinAll hv hctx order (fun s hs => hr s (hp.subset hs))
      (hp.nodup_iff.mpr hwa.nodup) fun s hs => (hwa.free s (hp.subset hs)).1) ?_
    intro outcomes v' hv' ⟨_, hde⟩
    refine Keeps.bind (Keeps.mono (keeps_applyOutcomes hv' hctx outcomes wave.reserved
      (fun s hs => ⟨hr s hs, (hwa.free s hs).2⟩) hde) ?_)
    intro applied v'' hv'' _
    split
    · exact keeps_pure hv'' trivial
    · exact ih hv'' fun s hs => hwa.candidates s (mem_append_left _ hs)

theorem keeps_dispatch : Sustains ctx.client.library place known accepted
      ctx.dispatchShareToCanonicalHelpers (fun _ _ => True) w := by
  have hl : ∀ v, Standing ctx.client.library known accepted v →
      Sustains ctx.client.library place known accepted
        ctx.loadCurrentDeliveryState (fun _ _ => True) v := by
    intro v hv
    refine Keeps.weaken (Keeps.mono (keeps_loadCurrentDeliveryState hv hctx) ?_) fun _ _ => trivial
    intro _ _ _ _
    trivial
  refine Keeps.bind (keeps_mk (safe_quiet hw fun locked _ => ⟨fun locked _ => ?_, fun _ => trivial⟩))
  split
  · exact hl w hw
  refine Keeps.bind (Keeps.mono (hl w hw) ?_)
  intro state v hv _
  refine Keeps.bind (Keeps.mono (keeps_waves hv hctx _ _ ?_) ?_)
  · intro s hs
    exact (mem_filter.mp hs).1
  · intro _ v' hv' _
    exact hl v' hv'

end

end DeliveryContext

/-! ### A delivery -/

theorem configuredHelperFleet_canonical {urls fleet : List String}
    (hur : ∀ url ∈ urls, Stable library url) (h : configuredHelperFleet library urls = .ok fleet) :
    ∀ url ∈ fleet, canonicalizeHelperBaseUrl library url = .ok url := by
  unfold configuredHelperFleet at h
  split at h
  · cases h
  obtain ⟨_, hca, h⟩ := bind_ok h
  split at h
  · cases h
  · cases h
    intro url hurl
    exact canonical_of_mem_forms hur ((mem_canonicalHelperUrlList hca).mp hurl)

namespace CommittedShareSubmissionRequest

variable {request : CommittedShareSubmissionRequest}

section

variable (hur : ∀ url ∈ request.configuredServerUrls, Stable request.client.library url)
include hur

theorem context_canonical {ctx : DeliveryContext} (h : request.context = .ok ctx) :
    ctx.client = request.client ∧ ctx.Canonical := by
  obtain ⟨_, hco, h⟩ := bind_ok h
  obtain ⟨_, -, h⟩ := bind_ok h
  obtain ⟨_, -, h⟩ := bind_ok h
  obtain ⟨_, -, h⟩ := bind_ok h
  cases h
  refine ⟨rfl, ?_⟩
  intro url hurl
  apply configuredHelperFleet_canonical hur hco
  rcases mem_append.mp hurl with hpl | hfa
  · simpa using (mem_filter.mp hpl).2
  · exact (mem_filter.mp hfa).1

theorem keeps_submit (hw : Standing request.client.library known accepted w) :
    Sustains request.client.library place known accepted request.submitCommittedShareToHelpers
      (fun _ _ => True) w := by
  refine Keeps.bind (keeps_except hw trivial ?_)
  intro ctx hctx
  obtain ⟨hcl, hca⟩ := context_canonical hur hctx
  refine Keeps.bind (keeps_mk (safe_quiet hw fun r _ => ⟨fun material _ => ?_, fun _ => trivial⟩))
  refine Keeps.bind (keeps_except hw trivial fun _ _ => ?_)
  refine Keeps.bind (keeps_store hw fun r v hv => ?_)
  obtain ⟨hs, -⟩ := store_standing (by simp [ShareOp.helperUrls]) (by simp) hv hw
  refine ⟨hs, fun _ _ => Keeps.bind (keeps_loadShare hs trivial hs.sound fun loaded _ => ?_)⟩
  split
  · exact keeps_throw hs trivial
  · rw [← hcl] at hs ⊢
    exact DeliveryContext.keeps_dispatch hs hca

end

end CommittedShareSubmissionRequest

end ZcashVoting.ShareDelivery
