import ZcashVoting.ChainSubmission.Exclusion

/-!
# Times and hashes of the stored rows

The writers take their time from the caller, and the clock may jump back. The columns do
not: the creation time stays, the update time never falls and the start of tracking is set
once. A transaction hash belongs to one row.
-/
namespace ZcashVoting.ChainSubmission

open SqlTable List

variable {σ : Type} {T : DomainTables σ} {db db' : ChainDb σ} {domain : σ}
  {row record : StoredChainSubmission} {hash : CandidateTransactionHash}

theorem StoredChainSubmission.Keeps.trans {later : StoredChainSubmission} (h : row.Keeps record)
    (h' : record.Keeps later) : row.Keeps later := by
  refine ⟨h'.digest.trans h.digest, h'.created.trans h.created,
    Nat.le_trans h.updated h'.updated, ?_⟩
  rcases h.started with hs | hs
  · rw [← hs]
    exact h'.started
  · exact .inr hs

/-- A row holds no other hash than its candidate. -/
theorem ownsHash_iff : ownsHash row hash = true ↔ row.state.candidateColumn = some hash := by
  simp only [ownsHash, Bool.or_eq_true, beq_iff_eq, or_iff_left_iff_imp]
  cases row.state <;> simp [SubmissionRecordState.confirmedHashColumn,
    SubmissionRecordState.candidateColumn]

structure SoundColumns (db : ChainDb σ) : Prop where
  timed : ∀ row ∈ db.submissions, row.Timed
  owned : ∀ row ∈ db.submissions, ∀ other ∈ db.submissions, ∀ hash, ownsHash row hash = true →
    ownsHash other hash = true → row.identity = other.identity

theorem not_owned_of_unowned (h : violatesHashIndex db.submissions record = false)
    (hrow : row ∈ db.submissions)
    (hne : row.identity ≠ record.identity) (hh : ownsHash record hash = true) :
    ownsHash row hash ≠ true := by
  intro ho
  rw [ownsHash_iff] at hh ho
  simpa [hne, hh, ho] using any_eq_false.mp h row hrow

section

variable (hinv : BundleExclusion T db) (h : SoundColumns db)
include h

theorem SoundColumns.written (hmem : ∀ row ∈ db'.submissions,
      row ∈ db.submissions ∧ row.identity ≠ record.identity ∨ row = record)
    (hf : violatesHashIndex db.submissions record = false) (hti : record.Timed) :
    SoundColumns db' := by
  refine ⟨fun row hrow => ?_, fun row hrow other hot hash hh hh' => ?_⟩
  · rcases hmem row hrow with ⟨hold, -⟩ | rfl
    · exact h.timed row hold
    · exact hti
  · rcases hmem row hrow with ⟨hr, hne⟩ | rfl <;> rcases hmem other hot with ⟨ho, hne'⟩ | rfl
    · exact h.owned row hr other ho hash hh hh'
    · exact absurd hh (not_owned_of_unowned hf hr hne hh')
    · exact absurd hh' (not_owned_of_unowned hf ho hne' hh)
    · rfl

include hinv

theorem columns_step (hst : StoreStep T db db') : SoundColumns db' ∧
    ∀ row ∈ db'.submissions, ∀ old, db.row row.identity = some old → old.Keeps row := by
  have hsa {row old : StoredChainSubmission} (hmem : row ∈ db.submissions)
      (hold : db.row row.identity = some old) : old.Keeps row := by
    cases (lookup_of_mem hinv.keys hmem).symm.trans hold
    exact ⟨rfl, rfl, Nat.le_refl _, .inl rfl⟩
  cases hst.tableStep with
  | insert record hrow hins =>
    have hmem : ∀ row ∈ db'.submissions, row ∈ db.submissions ∧ row.identity ≠ record.identity ∨
        row = record := by
      intro row hmem
      rw [hins.rows, mem_append, mem_singleton] at hmem
      exact hmem.imp_left fun hold => ⟨hold, lookup_eq_none.mp hrow row hold⟩
    refine ⟨h.written hmem hins.unowned hins.timed, fun row hrow' old hold => ?_⟩
    rcases hmem row hrow' with ⟨hr, -⟩ | rfl
    · exact hsa hr hold
    · rw [hrow] at hold
      cases hold
  | rewrite _ record _ _ _ hro =>
    have hmem : ∀ row ∈ db'.submissions,
        row ∈ db.submissions ∧ row.identity ≠ record.asRow.identity ∨ row = record.asRow := by
      intro row hmem
      rw [hro.rows] at hmem
      exact (mem_replace.mp hmem).imp_right And.left
    obtain ⟨old, hold, hn⟩ := hro.succeeds
    have hk : old.Keeps record.asRow := ⟨hn.digest, hn.created, hn.updated, hn.started⟩
    have hor := (h.timed old (mem_of_lookup hold)).ordered
    refine ⟨h.written hmem hro.unowned ⟨hk.created ▸ Nat.le_trans hor hk.updated,
      fun hs => absurd hs hn.classified, hn.tracking⟩, fun row hrow old' hold' => ?_⟩
    rcases hmem row hrow with ⟨hr, -⟩ | rfl
    · exact hsa hr hold'
    · cases hold.symm.trans hold'
      exact hk
  | shrink hro =>
    exact ⟨⟨fun row hrow => h.timed row (hro.subset hrow), fun row hrow other hot =>
      h.owned row (hro.subset hrow) other (hro.subset hot)⟩, fun row hrow _ =>
        hsa (hro.subset hrow)⟩

end

variable (h : Relation.ReflTransGen (StoreStep T) ⟨[], domain⟩ db)
include h

theorem columns_run : SoundColumns db := by
  induction h with
  | refl => exact ⟨fun _ hmem => absurd hmem not_mem_nil, fun _ hmem => absurd hmem not_mem_nil⟩
  | tail hrun hst ih => exact (columns_step (bundleExclusion_run hrun) ih hst).1

/-- Whatever the clock, the next step writes no row that a check or trigger on the times
refuses, and a row that stays in the table keeps its digest, its creation time and its
start of tracking, and its update time does not fall. -/
theorem rows_keep_times : (∀ db', StoreStep T db db' → ∀ row ∈ db'.submissions, row.Timed ∧
      ∀ old, db.row row.identity = some old → old.Keeps row) ∧
    ∀ identity row, db.row identity = some row → ∀ db', Relation.ReflTransGen (fun db db' =>
        StoreStep T db db' ∧ (db'.row identity).isSome = true) db db' →
      ∃ row', db'.row identity = some row' ∧ row.Keeps row' ∧ row'.createdAt ≤ row'.updatedAt := by
  have hn {db₁ db₂ : ChainDb σ} (hrun : Relation.ReflTransGen (StoreStep T) ⟨[], domain⟩ db₁)
      (hs : StoreStep T db₁ db₂) := columns_step (bundleExclusion_run hrun) (columns_run hrun) hs
  refine ⟨fun db' hs row hmem => ⟨(hn h hs).1.timed row hmem, (hn h hs).2 row hmem⟩, ?_⟩
  intro identity row hrow db' hli
  suffices hke : Relation.ReflTransGen (StoreStep T) ⟨[], domain⟩ db' ∧
      ∃ row', db'.row identity = some row' ∧ row.Keeps row' by
    obtain ⟨hrun, row', hrow', hk⟩ := hke
    exact ⟨row', hrow', hk, ((columns_run hrun).timed row' (mem_of_lookup hrow')).ordered⟩
  induction hli with
  | refl => exact ⟨h, row, hrow, rfl, rfl, Nat.le_refl _, .inl rfl⟩
  | tail _ hs ih =>
    obtain ⟨hrun, row₁, hrow₁, hk⟩ := ih
    obtain ⟨row₂, hrow₂⟩ := Option.isSome_iff_exists.mp hs.2
    refine ⟨hrun.tail hs.1, row₂, hrow₂, hk.trans ((hn hrun hs.1).2 row₂ (mem_of_lookup hrow₂) row₁ ?_)⟩
    rw [key_of_lookup hrow₂, hrow₁]

/-- A hash belongs to one row. The answer of a POST with a hash of another row leaves a row
without candidate possibly dispatched, and a row with a candidate in the state it was read in. -/
theorem hashes_owned_once : (∀ row ∈ db.submissions, ∀ other ∈ db.submissions, ∀ hash,
      ownsHash row hash = true → ownsHash other hash = true → row = other) ∧
    ∀ generation hash now after db',
      hashOwnedElsewhere db.submissions generation.identity hash = true →
      classifyPost T generation (.usableCandidateHash hash) now db = .ok (after, db') →
      ∃ row, db.row generation.identity = some row ∧
        db'.row generation.identity = some after.asRow ∧
        (row.state.candidateColumn = none → after.state.hasUnresolvedDispatch = true ∧
          ∃ diagnostic, after.state = .recovering none diagnostic ∧
            diagnostic.kind = .invalidProtocolResponse) ∧
        ∀ candidate, row.state.candidateColumn = some candidate →
          after.state = row.state.reloaded ∧
          ∃ diagnostic, row.state = .recovering (some candidate) diagnostic := by
  refine ⟨fun row hrow other ho hash hha hha' =>
    inj_on_of_nodup_map (bundleExclusion_run h).keys hrow ho
      ((columns_run h).owned row hrow other ho hash hha hha'), ?_⟩
  intro generation hash now after db' hown hpo
  obtain ⟨row, hrow, hid, happ, hwr⟩ := applyObservation_ok hpo
  simp only [resolveObservation, hown, if_true] at happ
  have hrecovering : ∃ candidate diagnostic, after.state = .recovering candidate diagnostic := by
    generalize after.state = state at happ
    cases hs : row.state with
    | submitting =>
      rw [hs] at happ
      cases happ
      exact ⟨_, _, rfl⟩
    | recovering candidate =>
      rw [hs] at happ
      cases candidate <;> (cases happ; exact ⟨_, _, rfl⟩)
    | _ =>
      rw [hs] at happ
      cases happ
  refine ⟨row, hrow, ?_, ?_⟩
  · rcases hwr with ⟨hro, -⟩ | ⟨hr, -⟩
    · exact hid ▸ hro.row
    · obtain ⟨_, _, hst⟩ := hrecovering
      rw [StoredChainSubmission.durableState, hst] at hr
      cases hr
  · generalize after.state = state at happ
    cases hs : row.state with
    | submitting =>
      rw [hs] at happ
      cases happ
      exact ⟨fun _ => ⟨rfl, _, rfl, rfl⟩, fun _ hc => by cases hc⟩
    | recovering candidate diagnostic =>
      rw [hs] at happ
      cases candidate with
      | none =>
        cases happ
        exact ⟨fun _ => ⟨rfl, _, rfl, rfl⟩, fun _ hc => by cases hc⟩
      | some =>
        cases happ
        exact ⟨(fun hn => by cases hn), fun _ hc => ⟨rfl, diagnostic, by rw [Option.some.inj hc]⟩⟩
    | _ =>
      rw [hs] at happ
      cases happ

omit h

theorem rows_keep_times_sample :
    (StoredChainSubmission.fresh (sampleGeneration (.vote 1)) 1 40).Timed :=
  ((rows_keep_times sampleDb_reached).1 sampleDb (.domain rfl fun _ _ => rfl) _ (.tail _ (.head _))).1

theorem hashes_owned_once_sample : ∃ row ∈ sampleDb.submissions,
    ownsHash row (Vector.replicate 32 9) = true ∧
    ∀ other ∈ sampleDb.submissions, ownsHash other (Vector.replicate 32 9) = true → row = other :=
  ⟨_, .head _, rfl, fun other hother => (hashes_owned_once sampleDb_reached).1 _ (.head _) other hother _ rfl⟩

/-- Two bundles are submitted. The first POST of one is classified after the row was taken
for abandoned, sent again, tracked and given up: its hash is that of the other, and the row
keeps its candidate. -/
theorem late_answer_keeps_candidate : ∃ db after db' candidate hash,
    Relation.ReflTransGen (StoreStep sampleDomain) ⟨[], ()⟩ db ∧
      hashOwnedElsewhere db.submissions (sampleIdentity .delegation) hash = true ∧
      classifyPost sampleDomain (sampleGeneration .delegation) (.usableCandidateHash hash) 60 db =
        .ok (after, db') ∧
      after.state.candidateColumn = some candidate := by
  let request : StoreAdvancementRequest :=
    ⟨.delegation { sampleIdentity .delegation with bundleIndex := 1 } (Vector.replicate 64 5), [], none⟩
  have hrun := ((Relation.ReflTransGen.refl (r := StoreStep sampleDomain) (a := ⟨[], ()⟩)).tail
    (.transaction (.admitSubmission sampleDelegation true 1 10 _ rfl))).tail
    (.transaction (.admitSubmission sampleDelegation true 1 10 _ rfl)) |>.tail
    (.transaction (.ambiguousRetry (sampleGeneration .delegation) 15 _ rfl)) |>.tail
    (.transaction (.classify (sampleGeneration .delegation) (.usableCandidateHash (Vector.replicate 32 9)) 20 _ rfl)) |>.tail
    (.transaction (.reconcile (sampleGeneration .delegation)
      (.trackingWindowExpired (.fromRedactedMessage .ambiguousDispatch "")) none 30 _ rfl)) |>.tail
    (.transaction (.admitSubmission request true 1 40 _ rfl)) |>.tail
    (.transaction (.classify ⟨request.identity, Vector.replicate 32 7⟩
      (.usableCandidateHash (Vector.replicate 32 8)) 50 _ rfl))
  exact ⟨_, _, _, Vector.replicate 32 9, Vector.replicate 32 8, hrun, rfl, rfl, rfl⟩

end ZcashVoting.ChainSubmission
