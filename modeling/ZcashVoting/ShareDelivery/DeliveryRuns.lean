import ZcashVoting.ShareDelivery.DeliveryEvidence

/-!
# Runs of the delivery operations

What an accepted write of each operation does to a row, and from it what any interleaving
of any number of connections does.
-/
namespace ZcashVoting.ShareDelivery

open KeyedData Optimistic List ShareRow ShareOp

variable {library : UrlLibrary} {place : SharePlace} {input : DeliveryInput} {op : ShareOp}
  {row row' : ShareRow} {state state' : ShareDeliveryState} {u c serverUrl : String}
  {sent ambiguous : List String}

structure Written (library : UrlLibrary) (op : ShareOp) (row row' : ShareRow) : Prop where
  sound : row'.Sound library
  evidence : ∀ u, row'.evidence library u =
    if isLegacy library u then row.evidence library u
    else op.reported library u (row.evidence library u)
  confirmed : row.confirmed = true → row'.confirmed = true
  nullifier : row'.nullifier = row.nullifier

/-! ### One lemma for each write -/

/-- The lists written back from a state that knows what the operation reports. -/
theorem written_of_state (hrow : row.Sound library) (hs : ∀ u, state.evidence u =
      if isLegacy library u then .unrecorded else op.reported library u (row.evidence library u))
    (hop : ∀ url ∈ op.helperUrls, Stable library url)
    {legacySent legacyAmbiguous legacyAttempting : List String}
    (hse : ∀ x, x ∈ legacySent ↔ x ∈ row.legacySent library)
    (ham : ∀ x, x ∈ legacyAmbiguous ↔ x ∈ row.legacyAmbiguous library)
    (hat : ∀ x, x ∈ legacyAttempting ↔ x ∈ row.legacyAttempting library)
    (hli : row'.sentToUrls = serializeUrlList state.acceptedUrls legacySent ∧
      row'.ambiguousUrls = serializeUrlList state.outcomeUnknownUrls legacyAmbiguous ∧
      row'.attemptingUrls = serializeUrlList state.inFlightUrls legacyAttempting)
    (hco : row'.confirmed = row.confirmed) (hnu : row'.nullifier = row.nullifier) :
    Written library op row row' := by
  have hca : ∀ u, state.evidence u ≠ .unrecorded → canonicalizeHelperBaseUrl library u = .ok u := by
    intro u hu
    rw [hs] at hu
    by_cases hl : isLegacy library u = true
    · simp [hl] at hu
    rw [if_neg hl] at hu
    by_cases hmem : u ∈ canonicalForms library op.helperUrls
    · exact canonical_of_mem_forms hop hmem
    · rw [reported_eq_of_not_mem hmem] at hu
      exact hrow.canonical (Bool.eq_false_iff.mpr hl) hu
  obtain ⟨hst, hmem⟩ := serialized_partition hrow.stable_sent
    (fun c hc => hca c (by rw [ShareDeliveryState.evidence_eq_accepted.mpr hc]; decide)) hse
  obtain ⟨hs', hmem'⟩ := serialized_partition hrow.stable_ambiguous
    (fun c hc => hca c (by rw [ShareDeliveryState.evidence_eq_unknown.mpr hc]; decide)) ham
  obtain ⟨hs'', hmem''⟩ := serialized_partition hrow.stable_attempting
    (fun c hc => hca c (by rw [ShareDeliveryState.evidence_eq_inFlight.mpr hc]; decide)) hat
  rw [← hli.1] at hst hmem
  rw [← hli.2.1] at hs' hmem'
  rw [← hli.2.2] at hs'' hmem''
  obtain ⟨hso, hev⟩ := sound_of_members
    (e := fun u => if isLegacy library u then row.evidence library u
      else op.reported library u (row.evidence library u)) hst hs' hs''
    (by
      intro u
      rw [hmem, mem_sent, ← ShareDeliveryState.evidence_eq_accepted, hs]
      by_cases hl : isLegacy library u = true <;> simp [hl])
    (by
      intro u
      rw [hmem', hrow.mem_ambiguous, ← ShareDeliveryState.evidence_eq_unknown, hs]
      by_cases hl : isLegacy library u = true <;> simp [hl])
    (by
      intro u
      rw [hmem'', hrow.mem_attempting, ← ShareDeliveryState.evidence_eq_inFlight, hs]
      by_cases hl : isLegacy library u = true <;> simp [hl])
  exact ⟨hso, hev, by simp [hco], hnu⟩

theorem written_of_attempting (hrow : row.Sound library) {canonical : List String}
    (hca : ∀ c ∈ canonical, canonicalizeHelperBaseUrl library c = .ok c)
    (hmem : ∀ u, isLegacy library u = false →
      (u ∈ canonical ↔ op.reported library u (row.evidence library u) = .inFlight))
    (hac : ∀ u e, op.reported library u e = .accepted ↔ e = .accepted)
    (hun : ∀ u e, op.reported library u e = .outcomeUnknown ↔ e = .outcomeUnknown)
    (hli : row'.sentToUrls = row.sentToUrls ∧ row'.ambiguousUrls = row.ambiguousUrls ∧
      row'.attemptingUrls = serializeUrlList canonical (row.legacyAttempting library))
    (hco : row'.confirmed = row.confirmed) (hnu : row'.nullifier = row.nullifier) :
    Written library op row row' := by
  obtain ⟨hse, ha, hat⟩ := hli
  obtain ⟨hs, hi⟩ := serialized_partition hrow.stable_attempting hca
    fun x => (Iff.rfl : x ∈ row.legacyAttempting library ↔ _)
  rw [← hat] at hs hi
  obtain ⟨hso, hev⟩ := sound_of_members
    (e := fun u => if isLegacy library u then row.evidence library u
      else op.reported library u (row.evidence library u))
    (hse ▸ hrow.stable_sent) (ha ▸ hrow.stable_ambiguous) hs
    (by
      intro u
      rw [hse, mem_sent]
      by_cases hl : isLegacy library u = true <;> simp [hl, hac])
    (by
      intro u
      rw [ha, hrow.mem_ambiguous]
      by_cases hl : isLegacy library u = true <;> simp [hl, hun])
    (by
      intro u
      rw [hi, hrow.mem_attempting]
      by_cases hl : isLegacy library u = true
      · simp [hl]
      · simp [hl, hmem u (Bool.eq_false_iff.mpr hl)])
  exact ⟨hso, hev, by simp [hco], hnu⟩

theorem mem_canonicalForms_singleton (h : canonicalizeHelperBaseUrl library serverUrl = .ok c) :
    u ∈ canonicalForms library [serverUrl] ↔ u = c := by
  simp [canonicalForms, h, Except.toOption]

variable {targetCount submitAt : Nat} {expected : Option (List UInt8)} {merge : HelperUrlMerge}
  {newUrls urls placement : List String} {reset : Bool} {nullifier : List UInt8}
  {policy : ShareAttemptCapacityPolicy} {x : String}

theorem written_addAttempting (hrow : row.Sound library) (hst : Stable library serverUrl)
    (hs : canonicalizeHelperBaseUrl library serverUrl = .ok c)
    (hsta : row.deliveryState library = .ok state) {began : Bool × ShareDeliveryState}
    (hbeg : state.begin library c = .ok began) :
    Written library (.addAttempting serverUrl placement targetCount policy expected) row
      { row with attemptingUrls := serializeUrlList began.2.inFlightUrls (row.legacyAttempting library) } := by
  obtain ⟨_, hc', hbe⟩ := bind_ok hbeg
  rw [hst c hs] at hc'
  cases hc'
  cases hbe
  have he : ∀ u, u ∈ (state.startCanonical c).inFlightUrls ↔
      (if u = c then .raise .inFlight (state.evidence u) else state.evidence u) = .inFlight := by
    intro u
    rw [← ShareDeliveryState.evidence_eq_inFlight, ShareDeliveryState.evidence_startCanonical]
  refine written_of_attempting hrow ?_ ?_ ?_ ?_ ⟨rfl, rfl, rfl⟩ rfl rfl
  · intro u hu
    rw [he, hrow.evidence_deliveryState hsta] at hu
    by_cases huc : u = c
    · rw [huc]
      exact hst c hs
    rw [if_neg huc] at hu
    by_cases hl : isLegacy library u = true
    · simp [hl] at hu
    · rw [if_neg hl] at hu
      exact hrow.canonical (Bool.eq_false_iff.mpr hl) (by rw [hu]; decide)
  · intro u hl
    rw [he, hrow.evidence_deliveryState hsta]
    simp [reported, mem_canonicalForms_singleton hs, hl]
  all_goals
    intro u e
    rw [reported]
    split
    · cases e <;> simp [Evidence.raise, Evidence.rank]
    · rfl

/-- A definite failure ends the POST in flight and touches nothing else. -/
theorem written_removeAttempting (hrow : row.Sound library)
    (hst : ShareDeliveryState.fromUrlLists library [] []
      (partitionStoredHelperUrls library row.attemptingUrls).1 = .ok state)
    (hf : state.markDefiniteFailure library serverUrl = .ok state') :
    Written library (.removeAttempting serverUrl expected) row
      { row with attemptingUrls := serializeUrlList state'.inFlightUrls (row.legacyAttempting library) } := by
  obtain ⟨c, hse, hf⟩ := bind_ok hf
  cases hf
  have he : ∀ u, u ∈ (state.failCanonical c).inFlightUrls ↔
      u ∈ canonicalForms library row.attemptingUrls ∧ u ≠ c := by
    intro u
    have hkn : state.evidence u = .inFlight ↔ u ∈ canonicalForms library row.attemptingUrls := by
      rw [ShareDeliveryState.evidence_fromUrlLists hst]
      simp only [mem_forms_partition hrow.stable_attempting]
      simp [canonicalForms]
    rw [← hkn, ShareDeliveryState.evidence_eq_inFlight]
    exact mem_removeUrl
  refine written_of_attempting hrow ?_ ?_ ?_ ?_ ⟨rfl, rfl, rfl⟩ rfl rfl
  · intro u hu
    rw [he] at hu
    exact canonical_of_mem_forms hrow.stable_attempting hu.1
  · intro u hle
    have hro : row.evidence library u = .inFlight ↔
        u ∈ canonicalForms library row.attemptingUrls := by
      rw [← hrow.mem_attempting, mem_identities hrow.stable_attempting]
      simp [hle]
    rw [he, ← hro]
    simp only [reported, mem_canonicalForms_singleton hse]
    by_cases huc : u = c
    · simp only [huc, ne_eq, not_true_eq_false, and_false]
      cases row.evidence library c <;> simp [Evidence.fail]
    · simp [huc]
  all_goals
    intro u e
    rw [reported]
    split
    · cases e <;> simp [Evidence.fail]
    · rfl

/-- What one reported URL does to the evidence. -/
def HelperUrlMerge.change : HelperUrlMerge → Evidence → Evidence
  | definiteAcceptance, _ => .accepted
  | outcomeUnknown, known => .raise .outcomeUnknown known

theorem HelperUrlMerge.change_change (merge : HelperUrlMerge) (known : Evidence) :
    merge.change (merge.change known) = merge.change known := by
  cases merge with
  | definiteAcceptance => rfl
  | outcomeUnknown => exact ShareDeliveryState.raise_raise _ _

theorem HelperUrlMerge.mark_ok (h : merge.mark library state serverUrl = .ok state') :
    ∃ c, canonicalizeHelperBaseUrl library serverUrl = .ok c ∧
      ∀ u, state'.evidence u =
        if u = c then merge.change (state.evidence u) else state.evidence u := by
  cases merge with
  | definiteAcceptance =>
    obtain ⟨c, hc, h⟩ := bind_ok h
    cases h
    exact ⟨c, hc, fun _ => ShareDeliveryState.evidence_markAcceptedCanonical⟩
  | outcomeUnknown =>
    obtain ⟨c, hc, h⟩ := bind_ok h
    cases h
    exact ⟨c, hc, fun _ => ShareDeliveryState.evidence_markOutcomeUnknownCanonical⟩

theorem evidence_foldlM_mark (h : newUrls.foldlM (merge.mark library) state = .ok state')
    (u : String) : state'.evidence u =
      if u ∈ canonicalForms library newUrls then merge.change (state.evidence u)
      else state.evidence u := by
  induction newUrls generalizing state with
  | nil =>
    cases h
    simp [canonicalForms]
  | cons url rest ih =>
    obtain ⟨_, hma, hre⟩ := bind_ok h
    obtain ⟨c, hc, hev⟩ := merge.mark_ok hma
    have hhe : u ∈ canonicalForms library (url :: rest) ↔
        u = c ∨ u ∈ canonicalForms library rest := by
      simp [canonicalForms, hc, Except.toOption]
    rw [ih hre, hev]
    simp only [hhe]
    by_cases huc : u = c <;> by_cases hmem : u ∈ canonicalForms library rest <;>
      simp [huc, merge.change_change]

theorem reported_mergeUrls {known : Evidence} :
    (mergeUrls newUrls merge reset expected).reported library u known =
      if u ∈ canonicalForms library newUrls then merge.change known else known := by
  cases merge <;> rfl

/-- No operation on stable URLs reports on a legacy entry. -/
theorem not_isLegacy_of_mem_forms (hst : ∀ x ∈ urls, Stable library x)
    (h : u ∈ canonicalForms library urls) : isLegacy library u = false :=
  not_isLegacy_of_ok (canonical_of_mem_forms hst h)

/-- Evidence newly reported by the helpers of a merge. -/
theorem written_mergeUrls (hrow : row.Sound library) (hs : ∀ url ∈ newUrls, Stable library url)
    (hst : row.deliveryState library = .ok state)
    (hme : newUrls.foldlM (merge.mark library) state = .ok state') :
    Written library (.mergeUrls newUrls merge reset expected) row
      { row.rewritten library state' with submitAt := submitAt } := by
  refine written_of_state hrow ?_ hs (fun _ => Iff.rfl) (fun _ => Iff.rfl) (fun _ => Iff.rfl)
    ⟨rfl, rfl, rfl⟩ rfl rfl
  intro u
  rw [evidence_foldlM_mark hme, hrow.evidence_deliveryState hst, reported_mergeUrls]
  by_cases hmem : u ∈ canonicalForms library newUrls
  · simp [not_isLegacy_of_mem_forms hs hmem]
  · simp [hmem]

theorem evidence_of_record (hst : ∀ url ∈ sent ++ ambiguous, Stable library url)
    {known : String → Evidence}
    (hkn : ∀ u, state.evidence u = if isLegacy library u then .unrecorded else known u)
    (hme : state.mergePersistedReport library sent ambiguous = .ok state') (u : String) :
    state'.evidence u = if isLegacy library u then .unrecorded
      else (record sent ambiguous targetCount nullifier submitAt).reported library u (known u) := by
  rw [ShareDeliveryState.evidence_mergePersistedReport hme, hkn, reported]
  have hse : u ∈ canonicalForms library sent → isLegacy library u = false :=
    not_isLegacy_of_mem_forms fun x hx => hst x (mem_append_left _ hx)
  have ham : u ∈ canonicalForms library ambiguous → isLegacy library u = false :=
    not_isLegacy_of_mem_forms fun x hx => hst x (mem_append_right _ hx)
  by_cases hs : u ∈ canonicalForms library sent
  · simp [hse hs]
  · by_cases ha : u ∈ canonicalForms library ambiguous
    · simp [ham ha]
    · simp [hs, ha]

theorem mem_identities_of_legacy (h : x ∈ (partitionStoredHelperUrls library urls).2) :
    x ∈ identities library urls := by
  rw [mem_partition_legacy] at h
  rw [identities, mem_map]
  exact ⟨x, h.1, helperIdentity_of_isLegacy h.2⟩

/-- A report on a share that has a row. Its legacy entries are in one list each, so the
filters leave them where they are. -/
theorem written_record (hrow : row.Sound library) (hst : ∀ url ∈ sent ++ ambiguous,
      Stable library url) (hsta : row.deliveryState library = .ok state)
    (hmer : state.mergePersistedReport library sent ambiguous = .ok state')
    {legacyUnknown legacyInFlight : List String}
    (hun : legacyUnknown = (row.legacyAmbiguous library).filter fun url =>
      !(row.legacySent library).contains url) (hin :
        legacyInFlight = (row.legacyAttempting library).filter fun url =>
      !(row.legacySent library).contains url && !legacyUnknown.contains url)
    (hli : row'.sentToUrls = serializeUrlList state'.acceptedUrls (row.legacySent library) ∧
      row'.ambiguousUrls = serializeUrlList state'.outcomeUnknownUrls legacyUnknown ∧
      row'.attemptingUrls = serializeUrlList state'.inFlightUrls legacyInFlight)
    (hco : row'.confirmed = row.confirmed) (hnu : row'.nullifier = row.nullifier) :
    Written library (.record sent ambiguous targetCount nullifier submitAt) row row' := by
  have hm : ∀ x, x ∈ legacyUnknown ↔ x ∈ row.legacyAmbiguous library := by
    intro x
    rw [hun, mem_filter]
    refine ⟨And.left, fun hx => ⟨hx, ?_⟩⟩
    have hnot : x ∉ row.legacySent library := fun hs =>
      hrow.sent_ambiguous x (mem_identities_of_legacy hs) (mem_identities_of_legacy hx)
    simp [hnot]
  have hme : ∀ x, x ∈ legacyInFlight ↔ x ∈ row.legacyAttempting library := by
    intro x
    rw [hin, mem_filter]
    refine ⟨And.left, fun hx => ⟨hx, ?_⟩⟩
    have hs : x ∉ row.legacySent library := fun hs =>
      hrow.sent_attempting x (mem_identities_of_legacy hs) (mem_identities_of_legacy hx)
    have ha : x ∉ legacyUnknown := fun ha =>
      hrow.ambiguous_attempting x (mem_identities_of_legacy ((hm x).mp ha))
        (mem_identities_of_legacy hx)
    simp [hs, ha]
  exact written_of_state hrow
    (evidence_of_record hst (fun _ => hrow.evidence_deliveryState hsta) hmer) hst
    (fun _ => Iff.rfl) hm hme hli hco hnu

def ShareRow.blank (nullifier : List UInt8) : ShareRow := ⟨[], [], [], 0, nullifier, false, 0, 0⟩

theorem ShareRow.sound_blank (nullifier : List UInt8) : (blank nullifier).Sound library := by
  constructor <;> simp [blank, identities]

theorem sound_insert (hs : ∀ url ∈ sent ++ ambiguous, Stable library url)
    (hst : ShareDeliveryState.fromUrlLists library sent ambiguous [] = .ok state)
    (hl : row'.sentToUrls = serializeUrlList state.acceptedUrls [] ∧
      row'.ambiguousUrls = serializeUrlList state.outcomeUnknownUrls [] ∧
      row'.attemptingUrls = serializeUrlList [] []) (hco : row'.confirmed = false) :
        row'.Sound library := by
  have hbl : (blank row'.nullifier).Sound library := sound_blank row'.nullifier
  have hin : state.inFlightUrls = [] := by
    apply eq_nil_iff_forall_not_mem.mpr
    intro u hu
    rw [← ShareDeliveryState.evidence_eq_inFlight,
      ShareDeliveryState.evidence_fromUrlLists hst] at hu
    split at hu
    · cases hu
    · split at hu <;> cases hu
  obtain ⟨merged, hme, hem⟩ := bind_ok hst
  cases hem
  have hev : ∀ u, merged.evidence u = if isLegacy library u then .unrecorded
      else (record sent ambiguous 0 [] 0).reported library u
        ((blank row'.nullifier).evidence library u) :=
    evidence_of_record hs (fun u => by simp [evidence, blank, identities]) hme
  have hwr : Written library (.record sent ambiguous 0 [] 0) (blank row'.nullifier) row' := by
    refine written_of_state hbl hev hs (fun _ => Iff.rfl) (fun _ => Iff.rfl)
      (fun _ => Iff.rfl) ?_ hco rfl
    refine ⟨hl.1, hl.2.1, hl.2.2.trans ?_⟩
    rw [show merged.inFlightUrls = [] from hin]
    rfl
  exact hwr.sound

theorem written_markConfirmed (hrow : row.Sound library) {confirmed : Bool}
    (hco : row.confirmed = true → confirmed = true) :
    Written library (.markConfirmed expected) row { row with confirmed := confirmed } := by
  refine ⟨⟨hrow.stable_sent, hrow.stable_ambiguous, hrow.stable_attempting, hrow.sent_ambiguous,
    hrow.sent_attempting, hrow.ambiguous_attempting⟩, ?_, hco, rfl⟩
  intro u
  exact (ite_self _).symm

/-! ### Accepted writes -/

/-- A write of the operation takes a sound row to a written one, and creates sound rows. -/
structure WritesCell (library : UrlLibrary) (op : ShareOp)
    (cell cell' : Option ShareRow) : Prop where
  rewrites : ∀ row, cell = some row → row.Sound library →
    ∃ row', cell' = some row' ∧ Written library op row row'
  inserts : cell = none → ∀ row', cell' = some row' → row'.Sound library

variable {cell read : Option ShareRow} {guard : Option ShareRow → Bool}
  {next : Option ShareRow → Option ShareRow} {result : Option ShareRow →
      Except VotingError ShareOpResult} {ops : List ShareOp}

theorem WritesCell.of_row (hc : cell = some row) (hne : row.Sound library →
    ∃ row', next cell = some row' ∧ Written library op row row') :
      WritesCell library op cell (next cell) where
  rewrites := by
    intro row' hrow' hso
    rw [hc] at hrow'
    cases hrow'
    exact hne hso
  inserts := by
    intro hn
    rw [hc] at hn
    cases hn

theorem ShareRow.unchangedSince_iff {now read : ShareRow} : now.unchangedSince read = true ↔
    now.nullifier = read.nullifier ∧ now.sentToUrls = read.sentToUrls ∧
      now.ambiguousUrls = read.ambiguousUrls ∧ now.attemptingUrls = read.attemptingUrls := by
  simp [unchangedSince, and_assoc]

/-- A row that has not changed since it was read gives the state that was computed. -/
theorem ShareRow.deliveryState_of_unchanged (library : UrlLibrary) {now read : ShareRow}
    (h : now.unchangedSince read = true) :
    now.deliveryState library = read.deliveryState library ∧
      now.legacySent library = read.legacySent library ∧
      now.legacyAmbiguous library = read.legacyAmbiguous library ∧
      now.legacyAttempting library = read.legacyAttempting library := by
  obtain ⟨_, hse, ham, hat⟩ := unchangedSince_iff.mp h
  simp only [deliveryState, legacySent, legacyAmbiguous, legacyAttempting, hse, ham, hat, and_self]

theorem addAttempting_writes (hst : Stable library serverUrl)
    (h : addAttemptingServerForGeneration library place input serverUrl placement targetCount policy
      expected read = .ok (.swap guard next result)) (hgu : guard cell = true) :
    WritesCell library (.addAttempting serverUrl placement targetCount policy expected) cell
      (next cell) := by
  obtain ⟨_, -, h⟩ := bind_ok h
  obtain ⟨_, hse, h⟩ := bind_ok h
  split at h
  · cases h
  split at h
  · cases h
  next row =>
  split at h
  · obtain ⟨_, -, h⟩ := bind_ok h
    obtain ⟨_, hsta, h⟩ := bind_ok h
    split at h
    · cases h
    split at h
    · cases h
    obtain ⟨_, hbe, h⟩ := bind_ok h
    cases h
    obtain ⟨_, hc, hnow⟩ := Option.any_eq_true .. |>.mp hgu
    simp only [Bool.and_eq_true] at hnow
    obtain ⟨hsa, -, -, hle⟩ := deliveryState_of_unchanged library hnow.2
    refine .of_row hc fun hso => ⟨_, by rw [hc]; rfl, ?_⟩
    rw [← hle]
    exact written_addAttempting hso hst hse (hsa.trans hsta) hbe
  · cases h

theorem removeAttempting_writes
    (h : removeAttemptingServerForGeneration library place input serverUrl expected read =
      .ok (.swap guard next result)) (hgu : guard cell = true) :
    WritesCell library (.removeAttempting serverUrl expected) cell (next cell) := by
  unfold removeAttemptingServerForGeneration at h
  split at h
  · cases h
  next row =>
  split at h
  · obtain ⟨_, -, h⟩ := bind_ok h
    obtain ⟨_, hs, h⟩ := bind_ok h
    obtain ⟨_, hfa, h⟩ := bind_ok h
    cases h
    obtain ⟨_, hc, hnow⟩ := Option.any_eq_true .. |>.mp hgu
    obtain ⟨-, -, -, hat⟩ := unchangedSince_iff.mp hnow
    obtain ⟨-, -, -, hle⟩ := deliveryState_of_unchanged library hnow
    refine .of_row hc fun hso => ⟨_, by rw [hc]; rfl, ?_⟩
    rw [← hle]
    rw [← hat] at hs
    exact written_removeAttempting hso hs hfa
  · cases h

theorem mergeUrls_writes (hst : ∀ url ∈ newUrls, Stable library url)
    (h : mergeShareDelegationUrls library place input newUrls merge reset expected read =
      .ok (.swap guard next result)) (hgu : guard cell = true) :
    WritesCell library (.mergeUrls newUrls merge reset expected) cell (next cell) := by
  unfold mergeShareDelegationUrls at h
  split at h
  · cases h
  next row =>
  split at h
  · obtain ⟨_, -, h⟩ := bind_ok h
    obtain ⟨_, hsta, h⟩ := bind_ok h
    obtain ⟨_, hme, h⟩ := bind_ok h
    cases h
    obtain ⟨_, hc, hnow⟩ := Option.any_eq_true .. |>.mp hgu
    obtain ⟨hsa, hse, ham, hat⟩ := deliveryState_of_unchanged library hnow
    refine .of_row hc fun hso => ⟨_, by rw [hc]; rfl, ?_⟩
    simp only [rewritten, ← hse, ← ham, ← hat]
    exact written_mergeUrls hso hst (hsa.trans hsta) hme
  · cases h

theorem record_writes (hst : ∀ url ∈ sent ++ ambiguous, Stable library url)
    (h : recordShareDelegationInner library place input sent ambiguous targetCount nullifier submitAt read =
      .ok (.swap guard next result)) (hg : guard cell = true) :
    WritesCell library (.record sent ambiguous targetCount nullifier submitAt) cell
      (next cell) := by
  obtain ⟨_, -, h⟩ := bind_ok h
  split at h
  · obtain ⟨state, hs, h⟩ := bind_ok h
    cases h
    have hc : cell = none := Option.isNone_iff_eq_none.mp hg
    constructor
    · intro row hrow
      rw [hc] at hrow
      cases hrow
    · intro _ row' hrow'
      cases hrow'
      exact sound_insert hst hs ⟨rfl, rfl, rfl⟩ rfl
  · next row =>
    split at h
    · obtain ⟨_, hs, h⟩ := bind_ok h
      obtain ⟨_, hme, h⟩ := bind_ok h
      cases h
      obtain ⟨_, hc, hnow⟩ := Option.any_eq_true .. |>.mp hg
      simp only [Bool.and_eq_true] at hnow
      obtain ⟨hsa, hse, ham, hat⟩ := deliveryState_of_unchanged library hnow.1
      refine .of_row hc fun hso => ⟨_, by rw [hc]; rfl, ?_⟩
      simp only [← hse, ← ham, ← hat]
      exact written_record hso hst (hsa.trans hs) hme rfl rfl ⟨rfl, rfl, rfl⟩ rfl rfl
    · cases h

theorem markConfirmed_writes
    (h : markShareConfirmed place input expected read = .ok (.swap guard next result)) :
    WritesCell library (.markConfirmed expected) cell (next cell) := by
  unfold markShareConfirmed at h
  split at h
  · cases h
  next row =>
  split at h
  · obtain ⟨_, -, h⟩ := bind_ok h
    cases h
    constructor
    · intro now hnow hs
      subst hnow
      refine ⟨_, rfl, ?_⟩
      dsimp only
      split
      · exact written_markConfirmed hs fun _ => rfl
      · exact written_markConfirmed hs id
    · intro hno row' hrow'
      subst hno
      cases hrow'
  · cases h

theorem attempt_writes (hs : ∀ url ∈ op.helperUrls, Stable library url)
    (h : (shareOperations library place).attempt op input read = .swap guard next result)
    (hg : guard cell = true) : WritesCell library op cell (next cell) := by
  have hr : op.read library place input read = .ok (.swap guard next result) := by
    simp only [shareOperations] at h
    split at h
    · next hr => rw [hr, h]
    · cases h
  cases op with
  | addAttempting serverUrl => exact addAttempting_writes (hs serverUrl mem_cons_self) hr hg
  | removeAttempting => exact removeAttempting_writes hr hg
  | mergeUrls => exact mergeUrls_writes hs hr hg
  | record => exact record_writes hs hr hg
  | markConfirmed => exact markConfirmed_writes hr

/-! ### Any interleaving -/

/-- What happens to the row of a share between two points of a run, where `ops` are the
operations whose writes took effect in between. -/
structure Advances (library : UrlLibrary) (ops : List ShareOp) (row row' : ShareRow) : Prop where
  accepted : ∀ u, row.evidence library u = .accepted → row'.evidence library u = .accepted
  outcomeUnknown : ∀ u, row.evidence library u = .outcomeUnknown →
    row'.evidence library u = .outcomeUnknown ∨ row'.evidence library u = .accepted
  inFlight : ∀ u, row.evidence library u = .inFlight → row'.evidence library u = .inFlight ∨
    ∃ op ∈ ops, u ∈ canonicalForms library op.outcomeUrls
  confirmed : row.confirmed = true → row'.confirmed = true
  legacy : ∀ x, isLegacy library x = true →
    (x ∈ row.sentToUrls → x ∈ row'.sentToUrls) ∧ (x ∈ row.ambiguousUrls → x ∈ row'.ambiguousUrls) ∧
      (x ∈ row.attemptingUrls → x ∈ row'.attemptingUrls)

theorem Advances.refl (row : ShareRow) : Advances library [] row row :=
  ⟨fun _ => id, fun _ => .inl, fun _ => .inl, id, fun _ _ => ⟨id, id, id⟩⟩

theorem Advances.trans {row'' : ShareRow} (h : Advances library [op] row row')
    (h' : Advances library ops row' row'') : Advances library (op :: ops) row row'' where
  accepted u hu := h'.accepted u (h.accepted u hu)
  outcomeUnknown u hu := by
    rcases h.outcomeUnknown u hu with hu' | hu'
    · exact h'.outcomeUnknown u hu'
    · exact .inr (h'.accepted u hu')
  inFlight u hu := by
    rcases h.inFlight u hu with hu' | ⟨o, ho, hmem⟩
    · rcases h'.inFlight u hu' with hu'' | ⟨o, ho, hmem⟩
      · exact .inl hu''
      · exact .inr ⟨o, mem_cons_of_mem _ ho, hmem⟩
    · rw [mem_singleton] at ho
      exact .inr ⟨o, by simp [ho], hmem⟩
  confirmed hc := h'.confirmed (h.confirmed hc)
  legacy x hx := by
    obtain ⟨hse, ham, hat⟩ := h.legacy x hx
    obtain ⟨hse', ham', hat'⟩ := h'.legacy x hx
    exact ⟨hse' ∘ hse, ham' ∘ ham, hat' ∘ hat⟩

theorem mem_identities_legacy (hst : ∀ x ∈ urls, Stable library x)
    (hx : isLegacy library x = true) : x ∈ identities library urls ↔ x ∈ urls := by
  simp [mem_identities hst, hx]

theorem Written.advances (hrow : row.Sound library) (h : Written library op row row') :
    Advances library [op] row row' := by
  have hev : ∀ u e, row.evidence library u = e → row'.evidence library u = e ∨
      row'.evidence library u = op.reported library u e := by
    intro u e he
    rw [h.evidence, he]
    split
    · exact .inl rfl
    · exact .inr rfl
  refine ⟨?_, ?_, ?_, h.confirmed, ?_⟩
  · intro u hu
    rcases hev u _ hu with hs | hr
    · exact hs
    · rw [hr, reported_accepted]
  · intro u hu
    rcases hev u _ hu with hs | hr
    · exact .inl hs
    · rw [hr]
      exact reported_outcomeUnknown
  · intro u hu
    rcases hev u _ hu with hs | hr
    · exact .inl hs
    · by_cases hmem : u ∈ canonicalForms library op.outcomeUrls
      · exact .inr ⟨op, mem_singleton_self op, hmem⟩
      · exact .inl (hr.trans (reported_inFlight hmem))
  · intro x hx
    have hs : row'.evidence library x = row.evidence library x := by
      rw [h.evidence, if_pos hx]
    refine ⟨?_, ?_, ?_⟩
    · intro hmem
      rw [← mem_identities_legacy hrow.stable_sent hx, mem_sent, ← hs] at hmem
      rwa [← mem_identities_legacy h.sound.stable_sent hx, mem_sent]
    · intro hmem
      rw [← mem_identities_legacy hrow.stable_ambiguous hx, hrow.mem_ambiguous, ← hs] at hmem
      rwa [← mem_identities_legacy h.sound.stable_ambiguous hx, h.sound.mem_ambiguous]
    · intro hmem
      rw [← mem_identities_legacy hrow.stable_attempting hx, hrow.mem_attempting, ← hs] at hmem
      rwa [← mem_identities_legacy h.sound.stable_attempting hx, h.sound.mem_attempting]

def SoundCell (library : UrlLibrary) (cell : Option ShareRow) : Prop :=
    ∀ row, cell = some row → row.Sound library

/-- The row of a cell stays and advances; a row may come to be. -/
def AdvancesCell (library : UrlLibrary) (ops : List ShareOp)
    (cell cell' : Option ShareRow) : Prop :=
  ∀ row, cell = some row → ∃ row', cell' = some row' ∧ Advances library ops row row'

theorem path_advances {cell cell' : Option ShareRow}
    (hpa : Path (shareOperations library place) cell ops cell')
    (hops : ∀ op ∈ ops, ∀ url ∈ op.helperUrls, Stable library url) (hce : SoundCell library cell) :
    SoundCell library cell' ∧ AdvancesCell library ops cell cell' := by
  refine hpa.induction (R := AdvancesCell library) hops hce ?_ ?_ ?_
  · intro cell row hrow
    exact ⟨row, hrow, .refl row⟩
  · intro op input read guard next result cell hop hat hgu hs
    have hwr := attempt_writes hop hat hgu
    constructor
    · intro row' hrow'
      cases hc : cell with
      | none => exact hwr.inserts hc row' hrow'
      | some row =>
        obtain ⟨_, hn, hw⟩ := hwr.rewrites row hc (hs row hc)
        rw [hn] at hrow'
        cases hrow'
        exact hw.sound
    · intro row hrow
      obtain ⟨row', hn, hw⟩ := hwr.rewrites row hrow (hs row hrow)
      exact ⟨row', hn, hw.advances (hs row hrow)⟩
  · intro op ops c c' c'' h h' row hrow
    obtain ⟨row', hrow', had⟩ := h row hrow
    obtain ⟨row'', hrow'', had'⟩ := h' row' hrow'
    exact ⟨row'', hrow'', had.trans had'⟩

/-- Whatever the connections do and however their reads and writes interleave: the three
lists stay disjoint, evidence about a helper only grows, a helper leaves the in-flight list
with an outcome, a confirmed share stays confirmed and legacy entries stay. -/
theorem delivery_evidence_grows {ι : Type} [DecidableEq ι]
    (s : System (shareOperations library place) ι)
    (hidle : ∀ i, s.phase i = .idle) (hcell : SoundCell library s.cell)
    (before after : List (Event ShareOp DeliveryInput ι)) (hstable : ∀ event ∈ before ++ after,
      event.Starts fun op => ∀ url ∈ op.helperUrls, Stable library url) :
    SoundCell library ((s.run before).run after).cell ∧ ∃ ops,
      (∀ op ∈ ops, ∃ i, .start i op ∈ before ++ after) ∧
        AdvancesCell library ops (s.run before).cell ((s.run before).run after).cell := by
  have hs : ∀ event ∈ before ++ after, event.Starts fun op =>
      (∀ url ∈ op.helperUrls, Stable library url) ∧ ∃ i, .start i op ∈ before ++ after := by
    intro event he
    cases event with
    | start i => exact ⟨hstable _ he, i, he⟩
    | load | write | drop => trivial
  obtain ⟨hco, _, hops, hpa⟩ := System.run_path (System.computed_of_idle hidle)
    fun event he => hs event (mem_append_left _ he)
  obtain ⟨hmi, -⟩ := path_advances hpa (fun op hop => (hops op hop).1) hcell
  obtain ⟨-, ops', hops', hpa'⟩ := System.run_path hco
    fun event he => hs event (mem_append_right _ he)
  obtain ⟨hfi, had⟩ := path_advances hpa' (fun op hop => (hops' op hop).1) hmi
  exact ⟨hfi, ops', fun op hop => (hops' op hop).2, had⟩

/-! ### A host that ends in several dots -/

/-- A URL library at URLs of the plain form `https://host/path`, whose parts it reads and
prints as they stand. -/
def plainUrls : UrlLibrary where
  parse text :=
    if "https://".toList.isPrefixOf text.toList then
      let rest := text.toList.drop 8
      let path := rest.dropWhile (· ≠ '/')
      .ok ⟨"https", "", none, some (.domain (String.ofList (rest.takeWhile (· ≠ '/')))), none,
        if path = [] then "/" else String.ofList path, none, none⟩
    else .error "relative URL without a base"
  setHost url host :=
    if host = "" then .error "empty host" else .ok { url with host := some (.domain host) }
  clearPort url := some { url with port := none }
  setPath url path := { url with path := path }
  asStr url :=
    url.scheme ++ "://" ++ (match url.host with
      | some (.domain name) => name
      | some (.address text) => text
      | none => "") ++ url.path

def samplePlace : SharePlace := ⟨"round", "wallet", 0, 1, 0⟩

def noBallot : DeliveryInput := ⟨none, none, 5⟩

/-- Two connections on a share without a row. -/
def sampleSystem : System (shareOperations plainUrls samplePlace) Bool := ⟨none, fun _ => .idle⟩

/-- One connection runs an operation without interference. -/
def alone (op : ShareOp) : List (Event ShareOp DeliveryInput Bool) :=
  [.start false op, .load false noBallot, .write false]

/-- A POST of unknown outcome to a helper whose host ends in three dots is recorded. Two of
them are left in the stored entry, which stands for the helper with one. -/
def dottedReport : List (Event ShareOp DeliveryInput Bool) :=
  alone (.record [] ["https://helper.example.../"] 2 [7] 0)

/-- Another helper accepts the share. -/
def otherAcceptance : List (Event ShareOp DeliveryInput Bool) :=
  alone (.mergeUrls ["https://other.example"] .definiteAcceptance false (some [7]))

/-- The acceptance by another helper rewrites the entry, and the unknown outcome is lost. -/
theorem dotted_helper_forgotten : ((sampleSystem.run dottedReport).cell.map fun row =>
        row.evidence plainUrls "https://helper.example.") = some .outcomeUnknown ∧
      (((sampleSystem.run dottedReport).run otherAcceptance).cell.map fun row =>
        row.evidence plainUrls "https://helper.example.") = some .unrecorded := by
  decide +kernel

def sampleReservation : List (Event ShareOp DeliveryInput Bool) :=
  alone (.record [] [] 2 [7] 0) ++ alone (.addAttempting "https://helper.example/"
    ["https://helper.example"] 2 .enforcePlacementTarget (some [7]))

/-- While one connection clears the attempt, the other reports an acceptance. The write of the
first finds another row than it has read, so it reads again. -/
def racedFailure : List (Event ShareOp DeliveryInput Bool) :=
  [.start false (.removeAttempting "https://helper.example" (some [7])), .load false noBallot,
    .start true (.mergeUrls ["https://helper.example"] .definiteAcceptance false (some [7])),
    .load true noBallot, .write true, .write false, .load false noBallot, .write false]

theorem stable_of_canonical (h : canonicalizeHelperBaseUrl library serverUrl = .ok c)
    (hc : canonicalizeHelperBaseUrl library c = .ok c) : Stable library serverUrl := by
  intro c' hc'
  rw [h] at hc'
  cases hc'
  exact hc

/-- The acceptance is there in the end. -/
theorem delivery_evidence_grows_reservation :
    (((sampleSystem.run sampleReservation).run racedFailure).cell.map fun row =>
        row.evidence plainUrls "https://helper.example") = some .accepted ∧
      SoundCell plainUrls ((sampleSystem.run sampleReservation).run racedFailure).cell ∧
      ∃ ops, (∀ op ∈ ops, ∃ i, .start i op ∈ sampleReservation ++ racedFailure) ∧
        AdvancesCell plainUrls ops (sampleSystem.run sampleReservation).cell
          ((sampleSystem.run sampleReservation).run racedFailure).cell := by
  have hf : canonicalizeHelperBaseUrl plainUrls "https://helper.example" =
      .ok "https://helper.example" := by
    decide +kernel
  have hsl : canonicalizeHelperBaseUrl plainUrls "https://helper.example/" =
      .ok "https://helper.example" := by
    decide +kernel
  refine ⟨by decide +kernel,
    delivery_evidence_grows sampleSystem (fun _ => rfl) (by rintro _ ⟨⟩) _ _ ?_⟩
  simp only [sampleReservation, racedFailure, alone, cons_append, nil_append,
    forall_mem_cons, Event.Starts, helperUrls, not_mem_nil,
    false_imp_iff, implies_true, true_and, and_true]
  exact ⟨stable_of_canonical hsl hf, stable_of_canonical hf hf, stable_of_canonical hf hf⟩

end ZcashVoting.ShareDelivery
