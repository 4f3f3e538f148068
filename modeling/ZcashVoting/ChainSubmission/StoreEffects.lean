import ZcashVoting.ChainSubmission.Sqlite

/-!
# What each store transaction does

One inversion lemma for each transaction: when it commits, which row it read, which
checks held and which table it leaves. Later proofs use these and never unfold a
transaction again.
-/
namespace ZcashVoting.ChainSubmission

open Transaction SqlTable SubmissionRecordState

variable {σ : Type} {T : DomainTables σ} {db db' : ChainDb σ} {identity : ChainSubmissionIdentity}
  {record : StoredChainSubmission} {generation : ChainSubmissionGeneration}

def ChainDb.row (db : ChainDb σ) (identity : ChainSubmissionIdentity) :
    Option StoredChainSubmission :=
  lookup StoredChainSubmission.identity identity db.submissions

/-- The row `persist_mutable` writes for a record. -/
def StoredChainSubmission.asRow (record : StoredChainSubmission) : StoredChainSubmission :=
  { record with diagnostic := record.diagnosticColumns }

/-- What a row keeps of an earlier one. -/
structure StoredChainSubmission.Keeps (row record : StoredChainSubmission) : Prop where
  digest : record.generationDigest = row.generationDigest
  created : record.createdAt = row.createdAt
  updated : row.updatedAt ≤ record.updatedAt
  started : record.trackingStartedAt = row.trackingStartedAt ∨ row.trackingStartedAt = none

/-- The checks of the table on the times of a row. -/
structure StoredChainSubmission.Timed (row : StoredChainSubmission) : Prop where
  ordered : row.createdAt ≤ row.updatedAt
  submitting : row.durableState = .submitting → row.trackingStartedAt = none
  tracking : row.durableState = .tracking → row.trackingStartedAt.isSome = true

/-- A record that replaces the row. -/
structure StoredChainSubmission.Succeeds
    (row record : StoredChainSubmission) : Prop extends row.Keeps record where
  tracking : record.durableState = .tracking → record.trackingStartedAt.isSome = true
  classified : record.durableState ≠ .submitting

/-- `db'` is `db` with the row of `record` rewritten. -/
structure ChainDb.Rewrites (db db' : ChainDb σ) (record : StoredChainSubmission) : Prop where
  rows : db'.submissions = replace StoredChainSubmission.identity record.asRow db.submissions
  unowned : violatesHashIndex db.submissions record = false
  succeeds : ∃ row, db.row record.identity = some row ∧ row.Succeeds record

theorem ChainDb.Rewrites.row {db db' : ChainDb σ} {record : StoredChainSubmission}
    (h : db.Rewrites db' record) : db'.row record.identity = some record.asRow := by
  obtain ⟨_, hrow, -⟩ := h.succeeds
  have hkey : ∃ row ∈ db.submissions, row.identity = record.asRow.identity :=
    ⟨_, mem_of_lookup hrow, key_of_lookup hrow⟩
  rw [ChainDb.row, h.rows]
  exact lookup_replace_self hkey

section

variable (row : StoredChainSubmission) (state : SubmissionRecordState)

@[simp] theorem asRow_identity : row.asRow.identity = row.identity := rfl
@[simp] theorem asRow_state : row.asRow.state = row.state := rfl
@[simp] theorem reloaded_state : row.reloaded.state = row.state.reloaded := rfl

@[simp] theorem reloaded_isUnresolved : state.reloaded.isUnresolved = state.isUnresolved := by
  cases state <;> rfl

@[simp] theorem reloaded_isConfirmed : state.reloaded.isConfirmed = state.isConfirmed := by
  cases state <;> rfl

@[simp] theorem reloaded_hasUnresolvedDispatch :
    state.reloaded.hasUnresolvedDispatch = state.hasUnresolvedDispatch := by
  cases state <;> rfl

@[simp] theorem reloaded_eq_submitting : state.reloaded = .submitting ↔ state = .submitting := by
  cases state <;> simp [reloaded]

end

variable {row after : StoredChainSubmission} {absent changed : String} {u : Unit}
  {request : StoreAdvancementRequest} {now ordinal : Nat} {admission : StoreAdmission}
  {validate : DerivedChainSubmission → Except String ValidatedChainSubmissionConfirmation}
  {authorization : RecoveryRetryAuthorization} {committed : ConfirmationCommit}
  {observation : SubmissionObservation} {derived : DerivedChainSubmission}
  {workAllowed rosterChecked commitAllowed : Bool}

section

variable {state state' : SubmissionRecordState} {observation : SubmissionObservation}
  {diagnostic : Option ChainSubmissionDiagnostic}

section

variable (h : applySubmissionObservation (some state) observation = .ok (some state'))
include h

theorem unresolved_of_applied (hu : state'.isUnresolved = true) : state.isUnresolved = true := by
  cases state with
  | confirmed =>
    cases observation <;> simp only [applySubmissionObservation, reduceCtorEq] at h
    split at h
    · cases h; simp [isUnresolved] at hu
    · cases h
  | rejected =>
    cases observation <;> simp only [applySubmissionObservation, reduceCtorEq] at h
  | _ => rfl

theorem open_or_confirmed_of_applied : state.isUnresolved = true ∨ state.isConfirmed = true := by
  cases state with
  | rejected =>
    cases observation <;> simp only [applySubmissionObservation, reduceCtorEq] at h
  | confirmed => exact .inr rfl
  | _ => exact .inl rfl

theorem confirmed_of_applied (hc : state.isConfirmed = true) : state'.isConfirmed = true := by
  cases state with
  | confirmed =>
    cases observation <;> simp only [applySubmissionObservation, reduceCtorEq] at h
    split at h
    · cases h; rfl
    · cases h
  | _ => cases hc

theorem classified_of_applied : state'.durableState ≠ .submitting := by
  cases state <;> cases observation <;>
    simp only [applySubmissionObservation, bind, Except.bind, pure, Except.pure, reduceCtorEq] at h
  all_goals grind [durableState]

end

theorem settle_succeeds {previous : ChainSubmissionState} (hst : state.durableState ≠ .submitting) :
    row.Succeeds
      (StoredChainSubmission.settleAfterTransition { row.reloaded with state := state } previous diagnostic now) := by
  refine ⟨⟨rfl, rfl, Nat.le_max_right _ _, ?_⟩, fun htr => ?_, hst⟩
  · simp only [StoredChainSubmission.settleAfterTransition]
    split
    next h => exact .inr h.2
    · exact .inl rfl
  · simp only [StoredChainSubmission.settleAfterTransition]
    split
    · rfl
    next h => exact Option.isSome_iff_ne_none.mpr fun hno => h ⟨htr, hno⟩

theorem confirmed_of_confirmation {confirmation : ValidatedChainSubmissionConfirmation}
    (h : applySubmissionObservation (some state) (.confirmed confirmation) = .ok (some state')) :
    state'.isConfirmed = true := by
  cases state with
  | confirmed => exact confirmed_of_applied h rfl
  | tracking | recovering =>
    simp only [applySubmissionObservation, bind, Except.bind] at h
    split at h
    · cases h
    · cases h; rfl
  | _ => simp only [applySubmissionObservation, reduceCtorEq] at h

theorem observe_ok {removed : String} (h : observe record observation removed = .ok after) :
    ∃ state', applySubmissionObservation (some record.state) observation = .ok (some state') ∧
      after = { record with state := state' } := by
  unfold observe at h
  split at h
  · cases h
  · cases h
  · rename_i state' happ
    exact ⟨state', happ, (Except.ok.inj h).symm⟩

end

/-! ### Reading and writing one row -/

theorem loadSubmission_ok {r : Option StoredChainSubmission × ChainDb σ} :
    loadSubmission identity db = .ok r ↔
      r = ((db.row identity).map StoredChainSubmission.reloaded, db) := by
  simp only [loadSubmission, bind_ok, get_ok, pure_ok, ChainDb.row]
  constructor
  · rintro ⟨_, _, h, rfl⟩
    cases h
    rfl
  · rintro rfl
    exact ⟨db, db, rfl, rfl⟩

theorem requireSubmission_ok (h : requireSubmission identity absent db = .ok (record, db')) :
    db' = db ∧ ∃ row, db.row identity = some row ∧ record = row.reloaded := by
  simp only [requireSubmission, bind_ok, loadSubmission_ok] at h
  obtain ⟨_, _, heq, h⟩ := h
  cases heq
  cases hrow : db.row identity with
  | none => simp [hrow, throw_ok] at h
  | some row =>
    simp only [hrow, Option.map_some, pure_ok, Prod.mk.injEq] at h
    exact ⟨h.2, row, rfl, h.1⟩

theorem persistMutable_ok (h : persistMutable record db = .ok (u, db'))
    (hrow : db.row identity = some row)
    (hid : record.identity = row.identity) (hne : row.Succeeds record) :
    db.Rewrites db' record ∧ db'.domain = db.domain := by
  rw [← key_of_lookup hrow, ← hid] at hrow
  simp only [persistMutable, bind_ok, get_ok, refuse_ok, set_ok] at h
  obtain ⟨_, _, h₀, _, _, ⟨-, h₁⟩, _, _, ⟨hun, h₂⟩, h₃⟩ := h
  cases h₀; cases h₁; cases h₂; cases h₃
  exact ⟨⟨rfl, hun, row, hrow, hne⟩, rfl⟩

theorem insertRow_ok (h : insertRow record db = .ok (u, db')) :
    db'.submissions = db.submissions ++ [record] ∧
    violatesHashIndex db.submissions record = false ∧ db'.domain = db.domain := by
  simp only [insertRow, bind_ok, get_ok, refuse_ok, set_ok] at h
  obtain ⟨_, _, h₀, _, _, ⟨-, h₁⟩, _, _, ⟨hun, h₂⟩, h₃⟩ := h
  cases h₀; cases h₁; cases h₂; cases h₃
  exact ⟨rfl, hun, rfl⟩

theorem deleteRow_ok (h : deleteRow identity db = .ok (u, db')) :
    db'.submissions = delete StoredChainSubmission.identity identity db.submissions ∧
      db'.domain = db.domain := by
  simp only [deleteRow, bind_ok, get_ok, set_ok] at h
  obtain ⟨_, _, h₀, h₁⟩ := h
  cases h₀; cases h₁
  exact ⟨rfl, rfl⟩

theorem ensureGeneration_ok (h : ensureGeneration record generation db = .ok (u, db')) :
    db' = db ∧ record.identity = generation.identity ∧
      record.generationDigest = generation.digest := by
  simp only [ensureGeneration, refuse_ok, Bool.or_eq_false_iff, bne_eq_false_iff_eq] at h
  obtain ⟨⟨hid, hdi⟩, heq⟩ := h
  cases heq
  exact ⟨rfl, hid, hdi⟩

/-- What a committed derivation read: the round is on the identity's network, and the
voting tables hold the generation. -/
structure DerivedFrom (T : DomainTables σ) (domain : σ) (request : SubmissionDerivationRequest)
    (derived : DerivedChainSubmission) : Prop where
  identity : derived.generation.identity = request.identity
  network : T.roundNetwork domain request.identity.roundId request.identity.walletId =
    .ok request.identity.network
  body : T.deriveBody domain request = .ok ⟨derived.generation.digest, derived.request,
    derived.expectedLayout, derived.orderedProposalIds⟩

theorem derive_ok {request : SubmissionDerivationRequest}
    (h : derive T request db = .ok (derived, db')) :
    db' = db ∧ DerivedFrom T db.domain request derived := by
  simp only [derive, bind_ok, get_ok, lift_ok, pure_ok] at h
  obtain ⟨_, _, h₀, _, _, ⟨hbo, h₁⟩, h₂⟩ := h
  cases h₀
  cases h₂
  refine ⟨h₁, rfl, ?_, ?_⟩
  all_goals
    simp only [validateIdentityContext] at hbo
    cases hn : T.roundNetwork db.domain request.identity.roundId request.identity.walletId with
    | error => simp [hn, bind, Except.bind, Except.mapError] at hbo
    | ok network =>
      by_cases he : network = request.identity.network
      · subst he
        cases hb : T.deriveBody db.domain request with
        | error => simp [hn, hb, bind, Except.bind, Except.mapError, pure, Except.pure] at hbo
        | ok => simp_all [bind, Except.bind, Except.mapError, pure, Except.pure]
      · simp [hn, he, bind, Except.bind, Except.mapError, throw, throwThe,
          MonadExceptOf.throw] at hbo

theorem deriveVerified_ok (h : deriveVerified T request db = .ok (derived, db')) :
    db' = db ∧ DerivedFrom T db.domain request.derivation derived := by
  simp only [deriveVerified, bind_ok, lift_ok, pure_ok] at h
  obtain ⟨_, _, hd, _, _, ⟨-, h₁⟩, h₂⟩ := h
  obtain ⟨rfl, hde⟩ := derive_ok hd
  cases h₂
  exact ⟨h₁, hde⟩

/-! ### Admission -/

theorem normalizeAbandoned_ok {settled : StoredChainSubmission}
    (hrow : db.row row.identity = some row) (hs : row.state = .submitting)
    (h : normalizeAbandoned row.reloaded now db = .ok (settled, db')) :
    settled.identity = row.identity ∧ settled.state = .recovering none abandonedDiagnostic ∧
      db.Rewrites db' settled ∧ db'.domain = db.domain := by
  simp only [normalizeAbandoned, mapFailure_ok, bind_ok, lift_ok, pure_ok] at h
  obtain ⟨_, _, ⟨hobs, rfl⟩, _, _, hp, heq⟩ := h
  obtain ⟨state', happ, hob⟩ := observe_ok hobs
  rw [reloaded_state, hs] at happ
  have hst : state' = .recovering none abandonedDiagnostic := by
    simpa [applySubmissionObservation, reloaded] using happ.symm
  subst hob hst
  obtain ⟨hrw, hdom⟩ :=
    persistMutable_ok hp hrow rfl ⟨⟨rfl, rfl, Nat.le_max_right _ _, .inl rfl⟩, nofun, nofun⟩
  cases heq
  exact ⟨rfl, rfl, hrw, hdom⟩

theorem admitExisting_ok (h : admitExisting T request record db = .ok (admission, db')) :
    db' = db ∧ (admission = .authoritative record ∨ ∃ derived,
        admission = .ready derived record false ∧
        derived.generation.identity = request.identity ∧
          record.identity = derived.generation.identity ∧
        record.generationDigest = derived.generation.digest) := by
  simp only [admitExisting, bind_ok, mapFailure_ok] at h
  obtain ⟨derived, _, hd, _, _, he, h⟩ := h
  obtain ⟨rfl, hde⟩ := deriveVerified_ok hd
  have hid := hde.identity
  obtain ⟨rfl, hrec, hdig⟩ := ensureGeneration_ok he
  cases pure_ok.mp h
  refine ⟨rfl, ?_⟩
  by_cases ht : record.state.isTerminal
  · exact .inl (if_pos ht)
  · exact .inr ⟨derived, if_neg ht, hid, hrec, hdig⟩

/-- The refusals of admission that keep a bundle's submissions apart. -/
structure BundleFree (db : ChainDb σ) (identity : ChainSubmissionIdentity) : Prop where
  noPredecessor : hasUnresolvedPredecessor db.submissions identity = false
  notSuperseded : identity.target = .delegation → hasConfirmedCast db.submissions identity = false

theorem refuseOccupiedCombined_ok (h : refuseOccupiedCombined T identity db = .ok (u, db')) :
    db' = db := by
  obtain ⟨_, _, h₀, h⟩ := bind_ok.mp h
  cases get_ok.mp h₀
  split at h
  · cases hr :
      T.delegationRecorded db.domain identity.roundId identity.walletId identity.bundleIndex with
    | none => exact absurd h (by simp [hr, throw_ok])
    | some =>
      simp only [hr] at h
      exact (Prod.mk.inj (refuse_ok.mp h).2).2
  · exact (Prod.mk.inj (pure_ok.mp h)).2

theorem refuseOccupiedBundle_ok (h : refuseOccupiedBundle T identity db = .ok (u, db')) :
    db' = db ∧ BundleFree db identity := by
  simp only [refuseOccupiedBundle, bind_ok, get_ok, refuse_ok] at h
  obtain ⟨_, _, h₀, _, _, h₁, _, _, ⟨-, h₂⟩, _, _, ⟨hpr, h₃⟩, hsup, h₄⟩ := h
  obtain rfl := refuseOccupiedCombined_ok h₀
  cases h₁; cases h₂; cases h₃; cases h₄
  refine ⟨rfl, hpr, fun ht => ?_⟩
  simpa [ht] using hsup

/-- `db'` is `db` with `record` inserted into a bundle free for it. -/
structure ChainDb.Inserts (T : DomainTables σ) (db db' : ChainDb σ)
    (record : StoredChainSubmission) : Prop where
  rows : db'.submissions = db.submissions ++ [record]
  unowned : violatesHashIndex db.submissions record = false
  domain : db'.domain = db.domain
  timed : record.Timed
  free : BundleFree db record.identity
  network : T.roundNetwork db.domain record.identity.roundId record.identity.walletId =
    .ok record.identity.network
  derived : ∃ (request : StoreAdvancementRequest) (derived : DerivedChainSubmission),
    request.targetMatches = true ∧ DerivedFrom T db.domain request.derivation derived ∧
      derived.generation.identity = record.identity

theorem deriveBatchFirst_ok (h : deriveBatchFirst T request db = .ok (u, db')) : db' = db := by
  unfold deriveBatchFirst at h
  split at h
  · obtain ⟨_, _, hd, hp⟩ := bind_ok.mp h
    obtain ⟨rfl, -⟩ := deriveVerified_ok hd
    exact (Prod.mk.inj (pure_ok.mp hp)).2
  · exact (Prod.mk.inj (pure_ok.mp h)).2

theorem validateTarget_ok (h : request.validateTarget = .ok u) : request.targetMatches = true := by
  unfold StoreAdvancementRequest.validateTarget at h
  split at h
  next hma => exact hma
  · cases h

theorem admitAbsent_ok (ht : request.targetMatches = true)
    (h : admitAbsent T request ordinal now db = .ok (admission, db')) :
    ∃ derived record fresh, admission = .ready derived record fresh ∧
      derived.generation.identity = request.identity ∧ db.Inserts T db' record ∧
      ((fresh = true ∧ record = .fresh derived.generation ordinal now) ∨
          (fresh = false ∧ ∃ candidate,
          record = .adoptedImportedDelegation derived.generation candidate now)) := by
  simp only [admitAbsent, bind_ok] at h
  obtain ⟨_, _, hba, _, _, hf, h⟩ := h
  obtain rfl := deriveBatchFirst_ok hba
  obtain ⟨rfl, hf⟩ := refuseOccupiedBundle_ok hf
  split at h
  · simp only [admitImported, bind_ok] at h
    obtain ⟨derived, db₃, hd, h⟩ := h
    obtain ⟨rfl, hde⟩ := derive_ok hd
    have hid : derived.generation.identity = request.identity := hde.identity
    cases hc : derived.importedCandidate with
    | none => exact absurd h (by simp [hc, throw_ok])
    | some candidate =>
      simp only [hc, bind_ok, get_ok, refuse_ok] at h
      obtain ⟨_, db₄, h₀, _, _, ⟨-, h₁⟩, _, _, hins, hp⟩ := h
      cases h₀; cases h₁
      obtain ⟨hr, hu, hdom⟩ := insertRow_ok hins
      cases pure_ok.mp hp
      refine ⟨derived, _, false, rfl, hid, ⟨hr, hu, hdom, ⟨Nat.le_refl _, nofun, fun _ => rfl⟩, ?_, ?_, request, derived, ht, hde, rfl⟩,
        .inr ⟨rfl, candidate, rfl⟩⟩
      · rw [StoredChainSubmission.adoptedImportedDelegation, hid]; exact hf
      · rw [StoredChainSubmission.adoptedImportedDelegation, hid]; exact hde.network
  · simp only [bind_ok] at h
    obtain ⟨derived, _, hd, _, _, hins, hp⟩ := h
    obtain ⟨rfl, hde⟩ := deriveVerified_ok hd
    have hid : derived.generation.identity = request.identity := hde.identity
    obtain ⟨hr, hu, hdom⟩ := insertRow_ok hins
    cases pure_ok.mp hp
    refine ⟨derived, _, true, rfl, hid, ⟨hr, hu, hdom, ⟨Nat.le_refl _, fun _ => rfl, nofun⟩, ?_, ?_, request, derived, ht, hde, rfl⟩,
      .inl ⟨rfl, rfl⟩⟩
    · rw [StoredChainSubmission.fresh, hid]; exact hf
    · rw [StoredChainSubmission.fresh, hid]; exact hde.network

/-- What a committed admission did: it read, normalized or inserted the row. -/
inductive AdmitEffect (T : DomainTables σ) (request : StoreAdvancementRequest) (ordinal now : Nat)
    (db db' : ChainDb σ) : StoreAdmission → Prop where
  | absent (hrow : db.row request.identity = none) (hdb : db' = db) :
      AdmitEffect T request ordinal now db db' .noAuthoritativeState
  | normalized {row settled : StoredChainSubmission} (hrow : db.row request.identity = some row)
      (hs : row.state = .submitting) (hid : settled.identity = request.identity)
      (hstate : settled.state = .recovering none abandonedDiagnostic)
      (hrw : db.Rewrites db' settled) (hdom : db'.domain = db.domain) :
      AdmitEffect T request ordinal now db db' (.authoritative settled)
  | existing {row : StoredChainSubmission} (hrow : db.row request.identity = some row)
      (hs : row.state ≠ .submitting) (hdb : db' = db) :
      AdmitEffect T request ordinal now db db' (.authoritative row.reloaded)
  | ready {row : StoredChainSubmission} {derived : DerivedChainSubmission}
      (hrow : db.row request.identity = some row) (hs : row.state ≠ .submitting)
      (hid : derived.generation.identity = request.identity) (hdb : db' = db) :
      AdmitEffect T request ordinal now db db' (.ready derived row.reloaded false)
  | reserved {derived : DerivedChainSubmission} (hrow : db.row request.identity = none)
      (hid : derived.generation.identity = request.identity)
      (hins : db.Inserts T db' (.fresh derived.generation ordinal now)) :
      AdmitEffect T request ordinal now db db' (.ready derived (.fresh derived.generation ordinal now) true)
  | adopted {derived : DerivedChainSubmission} {candidate : CandidateTransactionHash}
      (hrow : db.row request.identity = none)
      (hid : derived.generation.identity = request.identity)
      (hins : db.Inserts T db' (.adoptedImportedDelegation derived.generation candidate now)) :
      AdmitEffect T request ordinal now db db'
        (.ready derived (.adoptedImportedDelegation derived.generation candidate now) false)

theorem admit_ok (h : admitSubmission T request workAllowed ordinal now db = .ok (admission, db')) :
    AdmitEffect T request ordinal now db db' admission := by
  simp only [admitSubmission, bind_ok, lift_ok, loadSubmission_ok] at h
  obtain ⟨_, db₁, ⟨hta, e₁⟩, _, _, heq, h⟩ := h
  subst e₁
  cases heq
  cases hrow : db₁.row request.identity with
  | none =>
    simp only [hrow, Option.map_none] at h
    split at h
    · obtain ⟨derived, _, _, rfl, hid, hins, hca⟩ := admitAbsent_ok (validateTarget_ok hta) h
      obtain ⟨rfl, rfl⟩ | ⟨rfl, _, rfl⟩ := hca
      · exact .reserved hrow hid hins
      · exact .adopted hrow hid hins
    · cases pure_ok.mp h
      exact .absent hrow rfl
  | some row =>
    simp only [hrow, Option.map_some] at h
    have hkey : row.identity = request.identity := key_of_lookup hrow
    by_cases hs : row.state = .submitting
    · rw [if_pos (by simpa using hs)] at h
      obtain ⟨_, _, hn, hp⟩ := bind_ok.mp h
      obtain ⟨hid, hst, hrw, hdom⟩ := normalizeAbandoned_ok (hkey ▸ hrow) hs hn
      cases pure_ok.mp hp
      exact .normalized hrow hs (hid.trans hkey) hst hrw hdom
    · rw [if_neg (by simpa using hs)] at h
      split at h
      · obtain ⟨rfl, rfl | ⟨_, rfl, hid, -⟩⟩ := admitExisting_ok h
        · exact .existing hrow hs rfl
        · exact .ready hrow hs hid rfl
      · cases pure_ok.mp h
        exact .existing hrow hs rfl

/-! ### Removal, observation and reservation -/

theorem removeFreshReservation_ok (h : removeFreshReservation generation db = .ok (u, db')) :
    ∃ row, db.row generation.identity = some row ∧ row.state = .submitting ∧
      db'.submissions = delete StoredChainSubmission.identity generation.identity db.submissions ∧
      db'.domain = db.domain := by
  simp only [removeFreshReservation, bind_ok, refuse_ok] at h
  obtain ⟨_, _, hreq, _, _, hens, _, _, ⟨hsub, heq⟩, hdel⟩ := h
  obtain ⟨rfl, row, hrow, rfl⟩ := requireSubmission_ok hreq
  obtain ⟨rfl, -⟩ := ensureGeneration_ok hens
  cases heq
  obtain ⟨hro, hdom⟩ := deleteRow_ok hdel
  exact ⟨row, hrow, by simpa using hsub, hro, hdom⟩

/-- What a committed observation did: it rewrote the row, or retired a combined row. -/
theorem applyObservation_ok
    (h : applyObservation T generation observation diagnostic now db = .ok (after, db')) :
    ∃ row, db.row generation.identity = some row ∧ after.identity = generation.identity ∧
      applySubmissionObservation (some row.state.reloaded)
        (resolveObservation db.submissions generation.identity observation) =
          .ok (some after.state) ∧ ((db.Rewrites db' after ∧ db'.domain = db.domain) ∨
        (after.durableState = .rejected ∧ db'.submissions =
          delete StoredChainSubmission.identity generation.identity db.submissions ∧
          ∃ cause, T.retireRejectedCombinedGeneration db.domain generation.identity cause
            after.updatedAt = .ok db'.domain)) := by
  simp only [applyObservation, bind_ok, get_ok, lift_ok] at h
  obtain ⟨_, _, hreq, _, _, hens, _, _, h₀, _, _, ⟨hobs, h₁⟩, h⟩ := h
  obtain ⟨rfl, row, hrow, rfl⟩ := requireSubmission_ok hreq
  obtain ⟨rfl, hid, -⟩ := ensureGeneration_ok hens
  cases h₀
  subst h₁
  obtain ⟨state', happ, hob⟩ := observe_ok hobs
  subst hob
  refine ⟨row, hrow, ?_⟩
  split at h
  · rename_i hret
    have hrej := hret
    simp only [StoredChainSubmission.retiresCombinedGeneration, Bool.and_eq_true,
      beq_iff_eq] at hrej
    cases hc : StoredChainSubmission.diagnostic (StoredChainSubmission.settleAfterTransition
        { row.reloaded with state := state' } row.reloaded.durableState diagnostic now) with
    | none =>
      rw [hc] at h
      exact absurd h (by simp [throw_ok])
    | some cause =>
      simp only [hc, bind_ok, lift_ok, set_ok] at h
      obtain ⟨_, db₅, ⟨hdo, h₂⟩, _, _, h₃, _, _, hdel, hp⟩ := h
      subst h₂
      cases h₃
      obtain ⟨hro, hdom⟩ := deleteRow_ok hdel
      cases pure_ok.mp hp
      exact ⟨hid, happ, .inr ⟨hrej.1.1, hro, cause, hdom ▸ mapError_ok hdo⟩⟩
  · simp only [bind_ok] at h
    obtain ⟨_, _, hpe, hp⟩ := h
    obtain ⟨hrw, hdom⟩ :=
      persistMutable_ok hpe hrow rfl (settle_succeeds (classified_of_applied happ))
    cases pure_ok.mp hp
    exact ⟨hid, happ, .inl ⟨hrw, hdom⟩⟩

theorem reserveAmbiguousRetry_ok (h : reserveAmbiguousRetry generation now db = .ok (after, db')) :
    ∃ row, db.row generation.identity = some row ∧ after.identity = generation.identity ∧
      after.state = row.state.reloaded ∧ after.state.permitsAmbiguousRetry = true ∧
      db.Rewrites db' after ∧ db'.domain = db.domain := by
  simp only [reserveAmbiguousRetry, bind_ok, refuse_ok] at h
  obtain ⟨_, _, hreq, _, _, hens, _, _, ⟨hpe, h₁⟩, _, _, ⟨-, h₂⟩, _, _, hp, hr⟩ := h
  obtain ⟨rfl, row, hrow, rfl⟩ := requireSubmission_ok hreq
  obtain ⟨rfl, hid, -⟩ := ensureGeneration_ok hens
  cases h₁; cases h₂
  have hpe : row.state.reloaded.permitsAmbiguousRetry = true := by simpa using hpe
  obtain ⟨_, hst⟩ := permitsAmbiguousRetry_hashless hpe
  have hk : row.state.reloaded.durableState = .recovering := by rw [hst]; rfl
  obtain ⟨hrw, hdom⟩ := persistMutable_ok hp hrow rfl ⟨⟨rfl, rfl, Nat.le_max_right _ _, .inl rfl⟩,
    (nomatch hk.symm.trans ·), (nomatch hk.symm.trans ·)⟩
  cases pure_ok.mp hr
  exact ⟨row, hrow, hid, rfl, hpe, hrw, hdom⟩

theorem authorizedDiagnostic_some {state : SubmissionRecordState}
    {diagnostic : ChainSubmissionDiagnostic}
    (h : authorizedDiagnostic authorization state = some diagnostic) :
    state = .recovering authorization.candidate diagnostic := by
  cases state with
  | recovering =>
    simp only [authorizedDiagnostic] at h
    split at h
    · rename_i hc
      cases h
      rw [hc]
    · cases h
  | _ => simp [authorizedDiagnostic] at h

theorem reserveRecoveryRetry_ok
    (h : reserveRecoveryRetry T request authorization now db = .ok (after, db')) :
    ∃ row diagnostic, db.row request.identity = some row ∧ after.identity = request.identity ∧
      row.state.reloaded = .recovering authorization.candidate diagnostic ∧
      after.state = .recovering none diagnostic ∧ db.Rewrites db' after ∧
        db'.domain = db.domain := by
  simp only [reserveRecoveryRetry, bind_ok, refuse_ok, mapFailure_ok] at h
  obtain ⟨_, _, ⟨hre, h₁⟩, _, _, hreq, _, _, ⟨-, h₃⟩, _, _, hd, _, _, hens, h⟩ := h
  cases h₁
  obtain ⟨rfl, row, hrow, rfl⟩ := requireSubmission_ok hreq
  cases h₃
  obtain ⟨rfl, hde⟩ := deriveVerified_ok hd
  have hid := hde.identity
  obtain ⟨rfl, hrec, -⟩ := ensureGeneration_ok hens
  have hre : request.identity = authorization.identity := by simpa using hre
  cases ha : authorizedDiagnostic authorization row.reloaded.state with
  | none =>
    rw [ha] at h
    exact absurd h (by simp [throw_ok])
  | some diagnostic =>
    simp only [ha, bind_ok, refuse_ok] at h
    obtain ⟨_, _, ⟨-, h₆⟩, _, _, hp, hr⟩ := h
    cases h₆
    obtain ⟨hrw, hdom⟩ :=
      persistMutable_ok hp hrow rfl ⟨⟨rfl, rfl, Nat.le_max_right _ _, .inl rfl⟩, nofun, nofun⟩
    cases pure_ok.mp hr
    refine ⟨row, diagnostic, by rw [hre]; exact hrow, ?_, authorizedDiagnostic_some ha, rfl,
      hrw, hdom⟩
    exact hrec.trans hid

/-! ### Confirmation -/

/-- What a committed confirmation did: nothing, or it made the row confirmed. -/
theorem confirmGeneration_ok
    (h : confirmGeneration T request generation absent changed rosterChecked validate commitAllowed
      now db = .ok (committed, db')) : ∃ row, db.row generation.identity = some row ∧
      ((committed = .interrupted row.reloaded ∧ db' = db) ∨
        ∃ derived confirmation after, committed = .confirmed after ∧
          after.identity = generation.identity ∧
          applySubmissionObservation (some row.state.reloaded) (.confirmed confirmation) =
            .ok (some after.state) ∧ db.Rewrites db' after ∧ derived.generation = generation ∧
          DerivedFrom T db.domain request.derivation derived ∧
          T.applyConfirmedGeneration db.domain derived confirmation = .ok db'.domain) := by
  simp only [confirmGeneration, bind_ok, mapFailure_ok, refuse_ok] at h
  obtain ⟨_, _, hreq, _, db₂, hens, derived, db₃, hd, _, _, ⟨hsa, h₄⟩, h⟩ := h
  obtain ⟨rfl, row, hrow, rfl⟩ := requireSubmission_ok hreq
  obtain ⟨rfl, hid, -⟩ := ensureGeneration_ok hens
  have hde : db₃ = db₂ ∧ DerivedFrom T db₂.domain request.derivation derived := by
    split at hd
    · exact deriveVerified_ok hd
    · exact derive_ok hd
  obtain ⟨rfl, hde⟩ := hde
  cases h₄
  refine ⟨row, hrow, ?_⟩
  split at h
  · simp only [bind_ok, lift_ok, get_ok, set_ok] at h
    obtain ⟨confirmation, _, ⟨-, h₅⟩, _, _, ⟨hobs, h₆⟩, _, _, h₇, _, _, ⟨hdo, h₈⟩, _, _, h₉, _, _,
        hp, hr⟩ := h
    subst h₅ h₆
    cases h₇
    subst h₈
    cases h₉
    obtain ⟨state', happ, rfl⟩ := observe_ok hobs
    have hk : state'.durableState = .confirmed := by
      have hco := confirmed_of_confirmation happ
      cases state' <;> first | rfl | cases hco
    obtain ⟨hrw, hdom⟩ := persistMutable_ok hp hrow rfl ⟨⟨rfl, rfl, Nat.le_max_right _ _, .inl rfl⟩,
      (nomatch hk.symm.trans ·), (nomatch hk.symm.trans ·)⟩
    cases pure_ok.mp hr
    exact .inr ⟨derived, confirmation, _, rfl, hid, happ,
      ⟨hrw.rows, hrw.unowned, hrw.succeeds⟩, by simpa using hsa, hde,
      hdom ▸ mapError_ok hdo⟩
  · cases pure_ok.mp h
    exact .inl ⟨rfl, rfl⟩

/-! ### Every transaction -/

/-- One committed transaction of the adapter. -/
inductive StoreTransaction (T : DomainTables σ) (db db' : ChainDb σ) : Prop where
  | admitSubmission (request : StoreAdvancementRequest) (workAllowed : Bool) (ordinal now : Nat)
      (admission : StoreAdmission)
      (h : ChainSubmission.admitSubmission T request workAllowed ordinal now db = .ok (admission, db'))
  | remove (generation : ChainSubmissionGeneration)
      (h : removeFreshReservation generation db = .ok ((), db'))
  | classify (generation : ChainSubmissionGeneration) (observation : SubmissionObservation)
      (now : Nat) (record : StoredChainSubmission)
      (h : classifyPost T generation observation now db = .ok (record, db'))
  | reconcile (generation : ChainSubmissionGeneration) (observation : SubmissionObservation)
      (diagnostic : Option ChainSubmissionDiagnostic) (now : Nat) (record : StoredChainSubmission)
      (h : ChainSubmission.reconcile T generation observation diagnostic now db = .ok (record, db'))
  | ambiguousRetry (generation : ChainSubmissionGeneration) (now : Nat)
      (record : StoredChainSubmission)
      (h : reserveAmbiguousRetry generation now db = .ok (record, db'))
  | recoveryRetry (request : StoreAdvancementRequest) (authorization : RecoveryRetryAuthorization)
      (now : Nat) (record : StoredChainSubmission)
      (h : reserveRecoveryRetry T request authorization now db = .ok (record, db'))
  | confirmHash (request : StoreAdvancementRequest) (generation : ChainSubmissionGeneration)
      (candidate : CandidateTransactionHash) (events : List TxEvent) (allowed : Bool) (now : Nat)
      (committed : ConfirmationCommit)
      (h : confirmCommitted T request generation candidate events allowed now db = .ok (committed, db'))
  | confirmTree (request : StoreAdvancementRequest) (generation : ChainSubmissionGeneration)
      (finalVanPosition : Nat) (positions : List Nat) (allowed : Bool) (now : Nat)
      (committed : ConfirmationCommit)
      (h : ChainSubmission.confirmTree T request generation finalVanPosition positions allowed now
        db = .ok (committed, db'))

/-- What a committed transaction can do: nothing, insert a row into a free bundle, rewrite
a row by a transition, remove a row that was not confirmed, or write a confirmation or a
rejection to the row and the voting tables together. -/
inductive TransactionEffect (T : DomainTables σ) (db db' : ChainDb σ) : Prop where
  | unchanged (hdb : db' = db)
  | inserted (record : StoredChainSubmission) (hrow : db.row record.identity = none)
      (h : db.Inserts T db' record)
  | rewritten (row record : StoredChainSubmission) (hrow : db.row record.identity = some row)
      (hopen : record.state.isUnresolved = true → row.state.isUnresolved = true)
      (hconf : record.state.isConfirmed = true → row.state.isUnresolved = true ∨
        row.state.isConfirmed = true)
      (hkept : row.state.isConfirmed = true → record.state.isConfirmed = true)
      (hrows : db.Rewrites db' record) (hdomain : db'.domain = db.domain)
  | removed (row : StoredChainSubmission) (identity : ChainSubmissionIdentity)
      (hrow : db.row identity = some row) (hconf : row.state.isConfirmed = false)
      (hrows : db'.submissions = delete StoredChainSubmission.identity identity db.submissions)
      (hdomain : db'.domain = db.domain)
  | confirmed (row record : StoredChainSubmission) (request : StoreAdvancementRequest)
      (derived : DerivedChainSubmission) (confirmation : ValidatedChainSubmissionConfirmation)
      (hrow : db.row record.identity = some row)
      (hwas : row.state.isUnresolved = true ∨ row.state.isConfirmed = true)
      (hconf : record.state.isConfirmed = true)
      (hid : derived.generation.identity = record.identity)
      (hderived : DerivedFrom T db.domain request.derivation derived)
      (hrows : db.Rewrites db' record)
      (hdomain : T.applyConfirmedGeneration db.domain derived confirmation = .ok db'.domain)
  | retired (row : StoredChainSubmission) (identity : ChainSubmissionIdentity)
      (cause : ChainSubmissionDiagnostic) (now : Nat)
      (hrow : db.row identity = some row) (hconf : row.state.isConfirmed = false)
      (hrows : db'.submissions = delete StoredChainSubmission.identity identity db.submissions)
      (hdomain : T.retireRejectedCombinedGeneration db.domain identity cause now = .ok db'.domain)

theorem TransactionEffect.of_applyObservation {record : StoredChainSubmission}
    (h : applyObservation T generation observation diagnostic now db = .ok (record, db')) :
    TransactionEffect T db db' := by
  obtain ⟨row, hrow, hid, happ, ⟨hrw, hdom⟩ | ⟨hrej, hdel, cause, hret⟩⟩ := applyObservation_ok h
  · refine .rewritten row record (hid ▸ hrow) ?_ ?_ ?_ hrw hdom
    · intro hu
      simpa using unresolved_of_applied happ hu
    · intro _
      simpa using open_or_confirmed_of_applied happ
    · intro hc
      exact confirmed_of_applied happ (by simpa using hc)
  · refine .retired row generation.identity cause record.updatedAt hrow ?_ hdel hret
    cases hc : row.state.isConfirmed with
    | false => rfl
    | true =>
      have hre := confirmed_of_applied happ (by simpa using hc)
      cases hs : record.state <;> simp [hs, isConfirmed, StoredChainSubmission.durableState,
        durableState] at hre hrej

theorem TransactionEffect.of_admission
    (h : ChainSubmission.admitSubmission T request workAllowed ordinal now db = .ok (admission, db'))
    : TransactionEffect T db db' := by
  cases admit_ok h with
  | absent _ hdb | existing _ _ hdb | ready _ _ _ hdb => exact .unchanged hdb
  | @normalized row settled hrow hs hid hst hrw hdom =>
    refine .rewritten row settled (hid ▸ hrow) ?_ ?_ ?_ hrw hdom
    · intro _
      rw [hs]
      rfl
    · intro hc
      rw [hst] at hc
      cases hc
    · intro hc
      rw [hs] at hc
      cases hc
  | @reserved _ hrow hid hins =>
    refine .inserted _ ?_ hins
    rw [StoredChainSubmission.fresh, hid]
    exact hrow
  | @adopted _ _ hrow hid hins =>
    refine .inserted _ ?_ hins
    rw [StoredChainSubmission.adoptedImportedDelegation, hid]
    exact hrow

theorem TransactionEffect.of_confirmGeneration
    (h : confirmGeneration T request generation absent changed rosterChecked validate commitAllowed
      now db = .ok (committed, db')) : TransactionEffect T db db' := by
  obtain ⟨row, hrow, ⟨-, hdb⟩ | ⟨derived, confirmation, record, -, hid, happ, hrw, hgen, hde,
    hdo⟩⟩ := confirmGeneration_ok h
  · exact .unchanged hdb
  · refine .confirmed row record request derived confirmation (hid ▸ hrow) ?_ ?_ ?_ hde hrw hdo
    · simpa using open_or_confirmed_of_applied happ
    · exact confirmed_of_confirmation happ
    · rw [hgen, hid]

theorem StoreTransaction.effect (h : StoreTransaction T db db') : TransactionEffect T db db' := by
  cases h with
  | admitSubmission _ _ _ _ _ h => exact .of_admission h
  | remove generation h =>
    obtain ⟨row, hrow, hs, hro, hdom⟩ := removeFreshReservation_ok h
    refine .removed row generation.identity hrow ?_ hro hdom
    rw [hs]
    rfl
  | classify _ _ _ _ h | reconcile _ _ _ _ _ h => exact .of_applyObservation h
  | ambiguousRetry _ _ record h =>
    obtain ⟨row, hrow, hid, hst, -, hrw, hdom⟩ := reserveAmbiguousRetry_ok h
    refine .rewritten row record (hid ▸ hrow) ?_ ?_ ?_ hrw hdom
    · intro hu
      simpa [hst] using hu
    · intro hc
      exact .inr (by simpa [hst] using hc)
    · intro hc
      simpa [hst] using hc
  | recoveryRetry _ _ _ record h =>
    obtain ⟨row, _, hrow, hid, hwas, hst, hrw, hdom⟩ := reserveRecoveryRetry_ok h
    refine .rewritten row record (hid ▸ hrow) ?_ ?_ ?_ hrw hdom
    · intro _
      rw [← reloaded_isUnresolved, hwas]
      rfl
    · intro hc
      rw [hst] at hc
      cases hc
    · intro hc
      rw [← reloaded_isConfirmed, hwas] at hc
      cases hc
  | confirmHash _ _ _ _ _ _ _ h | confirmTree _ _ _ _ _ _ _ h =>
    exact .of_confirmGeneration h

end ZcashVoting.ChainSubmission
