import ZcashVoting.ChainSubmission.Crash
import ZcashVoting.Voting.Authority
import ZcashVoting.Voting.Phases

/-!
# Runs of a round

A round moves by casts, by the transactions of the submission store, by retirements and
by the other writes to its tables. A vote is confirmed by its tree position alone only
through the store, so a position without a transaction hash always has a confirmed
submission behind it (`TreeCovered`), unless the row was there before the store.
-/
namespace ZcashVoting.Voting

open ChainSubmission RoundPlanning KeyedData RoundTables SqlTable List VoteBatchRecovery

variable {J σ : Type} {codec : RecoveryCodec J} {H : BatchSighash} {wire : GenerationWire J}
  {events : EventValidation} {db db' : VotingDb J} {b p : Nat} {identity : ChainSubmissionIdentity}
  {candidate : Nat × VoteRecoveryBundle} {t : RoundTables J} {json : J}
  {row : StoredChainSubmission} {roster : List Nat}

/-! ### Retirement -/

/-- What a candidate does: it was cleared before, a submission owns it, or its batch or
its own recovery is cleared. -/
theorem retireCandidate_cases {st st' : Retiring J}
    (h : retireCandidate codec H db b st candidate = .ok st') :
    (candidate.1 ∈ st.cleared ∧ st' = { st with retired := st.retired ++ [candidate.1] }) ∨
    (voteRecoveryIsLifecycleOwned db b candidate.1
      (candidate.2.batch.map digest) = true ∧ st' = st) ∨
    candidate.1 ∉ st.cleared ∧ voteRecoveryIsLifecycleOwned db b candidate.1
      (candidate.2.batch.map digest) = false ∧
      ((∃ digest cleared tables, candidate.2.batch.map VoteBatchRecovery.digest = some digest ∧
        st.tables.clearVoteBatchRecovery codec H b digest = .ok (cleared, tables) ∧
        st' = ⟨tables, st.retired ++ [candidate.1], st.cleared ++ cleared⟩) ∨
      ∃ tables, candidate.2.batch.map digest = none ∧
        st.tables.clearUnsubmittedVoteRecovery b candidate.1 = .ok tables ∧
        st' = ⟨tables, st.retired ++ [candidate.1], st.cleared⟩) := by
  unfold retireCandidate at h
  by_cases hc : st.cleared.contains candidate.1 = true
  · rw [if_pos hc] at h
    exact .inl ⟨by simpa using hc, (Except.ok.inj h).symm⟩
  rw [if_neg hc] at h
  cases ho : voteRecoveryIsLifecycleOwned db b candidate.1
      (candidate.2.batch.map digest) with
  | true =>
    rw [if_pos ho] at h
    exact .inr (.inl ⟨rfl, (Except.ok.inj h).symm⟩)
  | false =>
    rw [if_neg (by simp [ho])] at h
    refine .inr (.inr ⟨by simpa using hc, rfl, ?_⟩)
    cases hd : candidate.2.batch.map digest with
    | some digest =>
      simp only [hd] at h
      obtain ⟨⟨cleared, tables⟩, ht, h⟩ := bind_ok h
      exact .inl ⟨digest, cleared, tables, rfl, ht, (Except.ok.inj h).symm⟩
    | none =>
      simp only [hd] at h
      obtain ⟨tables, ht, h⟩ := bind_ok h
      exact .inr ⟨tables, rfl, ht, (Except.ok.inj h).symm⟩

/-- Retiring a candidate keeps every witnessed vote, and retires none but the candidate. -/
theorem retireCandidate_ok {st st' : Retiring J}
    (h : retireCandidate codec H db b st candidate = .ok st') :
    KeepsWitnessed st.tables st'.tables ∧ ∀ q ∈ st'.retired, q ∈ st.retired ∨ q = candidate.1 := by
  have hl : ∀ q ∈ st.retired ++ [candidate.1], q ∈ st.retired ∨ q = candidate.1 := by
    intro q hq
    simpa using hq
  rcases retireCandidate_cases h with ⟨-, rfl⟩ | ⟨-, rfl⟩ | ⟨-, -, ⟨_, _, _, -, ht, rfl⟩ |
    ⟨_, -, ht, rfl⟩⟩
  · exact ⟨.refl _, hl⟩
  · exact ⟨.refl _, fun q hq => .inl hq⟩
  · exact ⟨(clearVoteBatchRecovery_clears ht).1.keepsWitnessed, hl⟩
  · exact ⟨(clearUnsubmittedVoteRecovery_clears ht).keepsWitnessed, hl⟩

theorem recorded_of_mem_bundleVotes {row : VoteRow J}
    (h : (p, row) ∈ t.bundleVotes b) : t.recorded b p = row.witnessed := by
  obtain ⟨⟨key, _⟩, hmem, hkey⟩ := mem_filterMap.mp h
  by_cases hb : key.bundleIndex = b
  · simp only [if_pos hb, Option.some.injEq] at hkey
    obtain ⟨rfl, rfl⟩ := hkey
    rw [recorded, vote?, ← hb, KeyedMap.get?_of_mem_entries hmem]
    rfl
  · simp [if_neg hb] at hkey

/-- A candidate for retirement has no witness. -/
theorem unrecorded_of_undispatched
    (h : (p, json) ∈ undispatchedVotes db b roster) : db.domain.recorded b p = false := by
  rw [undispatchedVotes, mem_insertionSort, mem_filterMap] at h
  obtain ⟨⟨_, _⟩, hmem, hjs⟩ := h
  obtain ⟨hvo, hf⟩ := mem_filter.mp hmem
  obtain ⟨_, -, heq⟩ := Option.map_eq_some_iff.mp hjs
  cases heq
  rw [recorded_of_mem_bundleVotes hvo]
  simp only [Bool.and_eq_true, Bool.not_eq_true'] at hf
  exact hf.1

/-- The executor keeps every witnessed vote and lists none as retired. -/
theorem retireUndispatchedVotesOutsideRoster_ok {retired : List Nat}
    (h : retireUndispatchedVotesOutsideRoster codec H db b roster = .ok (retired, db')) :
    db'.submissions = db.submissions ∧ KeepsWitnessed db.domain db'.domain ∧
      ∀ q ∈ retired, db.domain.recorded b q = false := by
  obtain ⟨candidates, hca, h⟩ := bind_ok h
  obtain ⟨_, hdo, h⟩ := bind_ok h
  cases h
  have hfr : ∀ candidate ∈ candidates, db.domain.recorded b candidate.1 = false := by
    intro candidate hmem
    obtain ⟨⟨q, _⟩, hvo, hpa⟩ := mem_mapM_ok hca hmem
    obtain ⟨_, -, rfl⟩ := map_ok hpa
    exact unrecorded_of_undispatched hvo
  have hl := foldlM_ok_induction (fun (seen : List (Nat × VoteRecoveryBundle)) (st : Retiring J) =>
      KeepsWitnessed db.domain st.tables ∧ ∀ q ∈ st.retired, ∃ candidate ∈ seen, candidate.1 = q)
    hdo ⟨.refl _, by simp⟩ (by
      intro seen candidate _ st st' _ ih hst
      obtain ⟨hke, hli⟩ := retireCandidate_ok hst
      refine ⟨ih.1.trans hke, ?_⟩
      intro q hq
      rcases hli q hq with hold | rfl
      · obtain ⟨earlier, hmem, rfl⟩ := ih.2 q hold
        exact ⟨earlier, by simp [hmem], rfl⟩
      · exact ⟨candidate, by simp, rfl⟩)
  refine ⟨rfl, hl.1, ?_⟩
  intro q hq
  obtain ⟨candidate, hmem, rfl⟩ := hl.2 q hq
  exact hfr candidate hmem

/-! ### Confirmed submissions -/

/-- The rewritten row replaces its predecessor, and every other row stays. -/
theorem row_rewrites {db db' : ChainDb σ} {record : StoredChainSubmission}
    (hrw : db.Rewrites db' record) (hrow : db.row identity = some row) :
    db'.row identity = some (if identity = record.identity then record.asRow else row) := by
  by_cases hid : identity = record.identity
  · rw [if_pos hid]
    exact hid ▸ hrw.row
  · have hne : identity ≠ record.asRow.identity := hid
    rw [if_neg hid, ChainDb.row, hrw.rows, lookup_replace_of_ne hne]
    exact hrow

theorem confirmed_kept {T : DomainTables σ} {db db' : ChainDb σ} (h : TransactionEffect T db db')
    (hrow : db.row identity = some row) (hc : row.state.isConfirmed = true) :
    ∃ row', db'.row identity = some row' ∧ row'.state.isConfirmed = true := by
  have hd {other : ChainSubmissionIdentity} {gone : StoredChainSubmission}
      (hg : db.row other = some gone) (ho : gone.state.isConfirmed = false)
      (hr : db'.submissions = delete StoredChainSubmission.identity other db.submissions) :
      db'.row identity = some row := by
    have hne : identity ≠ other := by
      rintro rfl
      cases hrow.symm.trans hg
      rw [hc] at ho
      cases ho
    rw [ChainDb.row, hr, lookup_delete_of_ne hne]
    exact hrow
  cases h with
  | unchanged hdb => exact ⟨row, by rw [hdb]; exact hrow, hc⟩
  | inserted record hn h =>
    have hne : identity ≠ record.identity := by
      rintro rfl
      cases hrow.symm.trans hn
    refine ⟨row, ?_, hc⟩
    rw [ChainDb.row, h.rows, lookup_insert hn, if_neg hne]
    exact hrow
  | rewritten _ record hold _ _ hke hr =>
    refine ⟨_, row_rewrites hr hrow, ?_⟩
    by_cases hid : identity = record.identity
    · rw [if_pos hid]
      rw [hid] at hrow
      cases hrow.symm.trans hold
      exact hke hc
    · rw [if_neg hid]
      exact hc
  | removed _ _ hg ho hr | retired _ _ _ _ hg ho hr => exact ⟨row, hd hg ho hr, hc⟩
  | confirmed _ record _ _ _ _ _ hco' _ _ hr =>
    refine ⟨_, row_rewrites hr hrow, ?_⟩
    by_cases hid : identity = record.identity
    · rw [if_pos hid]
      exact hco'
    · rw [if_neg hid]
      exact hc

/-- Over every run of transactions and of writes to other tables a confirmed submission
stays confirmed, and no POST is reserved for it again. -/
theorem confirmed_is_never_posted {T : DomainTables σ} {db db' : ChainDb σ}
    (hrow : db.row identity = some row)
    (hconfirmed : row.state.isConfirmed = true) (hrun : Relation.ReflTransGen
      (fun db db' => StoreTransaction T db db' ∨ db'.submissions = db.submissions) db db') :
    (∃ row, db'.row identity = some row ∧ row.state.isConfirmed = true) ∧
    (∀ request allowed ordinal now derived record next, request.identity = identity →
      admitSubmission T request allowed ordinal now db' ≠ .ok (.ready derived record true, next)) ∧
    (∀ generation now after, generation.identity = identity →
      reserveAmbiguousRetry generation now db' ≠ .ok after) ∧
    ∀ request authorization now after, request.identity = identity →
      reserveRecoveryRetry T request authorization now db' ≠ .ok after := by
  have hk : ∃ row, db'.row identity = some row ∧ row.state.isConfirmed = true := by
    induction hrun with
    | refl => exact ⟨row, hrow, hconfirmed⟩
    | tail _ hst ih =>
      obtain ⟨row, hrow, hco⟩ := ih
      rcases hst with htr | hsa
      · exact confirmed_kept htr.effect hrow hco
      · exact ⟨row, by rwa [ChainDb.row, hsa], hco⟩
  obtain ⟨row, hrow, hco⟩ := id hk
  have hre : ∀ c d, row.state.reloaded ≠ .recovering c d := by
    intro _ _ hst
    rw [← reloaded_isConfirmed, hst] at hco
    cases hco
  refine ⟨hk, ?_, ?_, ?_⟩
  · rintro _ _ _ _ _ _ _ rfl h
    cases admit_ok h with
    | reserved hno => cases hrow.symm.trans hno
  · rintro _ _ _ rfl h
    obtain ⟨_, hold, -, hst, hp, -⟩ := reserveAmbiguousRetry_ok h
    cases hrow.symm.trans hold
    obtain ⟨_, hha⟩ := SubmissionRecordState.permitsAmbiguousRetry_hashless hp
    exact hre _ _ (hst.symm.trans hha)
  · rintro _ _ _ _ rfl h
    obtain ⟨_, _, hold, -, hst, -⟩ := reserveRecoveryRetry_ok h
    cases hrow.symm.trans hold
    exact hre _ _ hst

/-- `sampleDb` before its vote is admitted. -/
def confirmedDelegation : ChainDb Unit := ⟨sampleDb.submissions.take 1, ()⟩

/-- The delegation is asked for once more, then the vote is admitted. -/
theorem confirmed_is_never_posted_delegation :
    (confirmedDelegation.row (sampleIdentity (.vote 1))).isNone ∧
      (sampleDb.row (sampleIdentity (.vote 1))).isSome ∧
      Relation.ReflTransGen (StoreTransaction sampleDomain) confirmedDelegation sampleDb ∧
      (∃ row, sampleDb.row (sampleIdentity .delegation) = some row ∧
        row.state.isConfirmed = true) ∧
      (∀ allowed ordinal now derived record next, admitSubmission sampleDomain sampleDelegation
        allowed ordinal now sampleDb ≠ .ok (.ready derived record true, next)) ∧
      (∀ now after,
        reserveAmbiguousRetry (sampleGeneration .delegation) now sampleDb ≠ .ok after) ∧
      ∀ authorization now after, reserveRecoveryRetry sampleDomain sampleDelegation authorization
        now sampleDb ≠ .ok after := by
  have hrun : Relation.ReflTransGen (StoreTransaction sampleDomain) confirmedDelegation sampleDb :=
    .head (.admitSubmission sampleDelegation true 1 35 _ rfl)
      (.single (.admitSubmission sampleVote true 1 40 _ rfl))
  have hstored : confirmedDelegation.row (sampleIdentity .delegation) =
      sampleDb.submissions.head? := rfl
  obtain ⟨hrow, hadmitted, hretry, hrecovery⟩ :=
    confirmed_is_never_posted hstored rfl (hrun.lift id fun _ _ => .inl)
  refine ⟨rfl, rfl, hrun, hrow, ?_, ?_, ?_⟩
  · exact fun allowed ordinal now derived record next =>
      hadmitted _ allowed ordinal now derived record next rfl
  · exact fun now after => hretry _ now after rfl
  · exact fun authorization now after => hrecovery _ authorization now after rfl

/-! ### The invariant -/

/-- The submission is for the vote: it names it, or the batch the vote's recovery names. -/
def CoversVote (codec : RecoveryCodec J) (t : RoundTables J) (identity : ChainSubmissionIdentity)
    (b p : Nat) : Prop :=
  identity.bundleIndex = b ∧ (identity.target = .vote p ∨
    ∃ digest json, identity.target.batchDigest = some digest ∧ t.recoveryJson b p = some json ∧
      ∀ recovery, codec.parseRecovery json = .ok recovery →
        recovery.inBatch digest = true ∧ recovery.proposalId = p)

/-- A confirmed submission of the round is for the vote. -/
def Covered (codec : RecoveryCodec J) (db : VotingDb J) (b p : Nat) : Prop :=
  ∃ identity row, db.domain.holdsRound identity.roundId identity.walletId = true ∧
    db.row identity = some row ∧ row.state.isConfirmed = true ∧
    CoversVote codec db.domain identity b p

/-- A vote with a tree position has a transaction hash or a confirmed submission. -/
def TreeCovered (codec : RecoveryCodec J) (db : VotingDb J) : Prop :=
  ∀ key row, db.domain.votes.get? key = some row → row.vcTreePosition.isSome = true →
    row.txHash.isSome = true ∨ Covered codec db key.bundleIndex key.proposalId

/-- The confirmed submissions of the round stay confirmed. -/
def KeepsConfirmed (db db' : VotingDb J) : Prop :=
  ∀ identity row, db.domain.holdsRound identity.roundId identity.walletId = true →
    db.row identity = some row → row.state.isConfirmed = true →
    ∃ row', db'.row identity = some row' ∧ row'.state.isConfirmed = true

theorem KeepsConfirmed.of_submissions (h : db'.submissions = db.submissions) :
    KeepsConfirmed db db' := by
  intro identity row _ hrow hco
  refine ⟨row, ?_, hco⟩
  rw [ChainDb.row, h]
  exact hrow

theorem holdsRound_congr {t' : RoundTables J} (hro : t'.roundId = t.roundId)
    (hwa : t'.walletId = t.walletId) (roundId walletId : String) :
    t'.holdsRound roundId walletId = t.holdsRound roundId walletId := by
  rw [holdsRound, holdsRound, hro, hwa]

theorem Covered.of_row (h : Covered codec db b p) (hke : KeepsConfirmed db db')
    (hro : db'.domain.roundId = db.domain.roundId) (hwa : db'.domain.walletId = db.domain.walletId)
    (hrow : db'.domain.vote? b p = db.domain.vote? b p) : Covered codec db' b p := by
  obtain ⟨identity, row, hh, hst, hcon, hbu, hco⟩ := h
  obtain ⟨row', hst', hco'⟩ := hke identity row hh hst hcon
  refine ⟨identity, row', (holdsRound_congr hro hwa _ _).trans hh, hst', hco', hbu, ?_⟩
  rw [recoveryJson, hrow]
  exact hco

/-- A step that keeps the witnessed votes and adds no witness. -/
theorem TreeCovered.of_keeps (h : TreeCovered codec db) (hke : KeepsConfirmed db db')
    (hd : KeepsWitnessed db.domain db'.domain) : TreeCovered codec db' := by
  intro key row hrow hp
  have hrec : db'.domain.recorded key.bundleIndex key.proposalId = true := by
    rw [recorded, vote?, hrow]
    simp [VoteRow.witnessed, hp]
  have hold := hd.recorded _ _ hrec
  rw [recorded, Option.any_eq_true] at hold
  obtain ⟨row', hrow', hw⟩ := hold
  have hsa := (hd.rows key row' hrow' hw).1
  cases hrow.symm.trans hsa
  refine (h key row hrow' hp).imp_right fun hco => ?_
  exact hco.of_row hke hd.roundId hd.walletId (hrow.trans hrow'.symm)

/-- A step that writes no vote, though it may drop some. -/
theorem TreeCovered.of_votes (h : TreeCovered codec db) (hke : KeepsConfirmed db db')
    (hro : db'.domain.roundId = db.domain.roundId) (hwa : db'.domain.walletId = db.domain.walletId)
    (hvo : ∀ key row, db'.domain.votes.get? key = some row →
      db.domain.votes.get? key = some row) : TreeCovered codec db' := by
  intro key row hrow hpo
  have hold := hvo key row hrow
  refine (h key row hold hpo).imp_right fun hco => ?_
  exact hco.of_row hke hro hwa (hrow.trans hold.symm)

/-! ### Confirmations -/

theorem holdsRound_of_network {roundId walletId : String} {network : Network}
    (h : t.roundNetwork roundId walletId = .ok network) : t.holdsRound roundId walletId = true := by
  unfold roundNetwork at h
  by_cases hr : t.holdsRound roundId walletId = true
  · exact hr
  · rw [if_neg hr] at h
    cases h

theorem ConfirmedRow.inBatch {row row' : VoteRow J} {recovery : VoteRecoveryBundle}
    {digest : Bytes32} (h : ConfirmedRow codec p row row')
    (hjs : row.commitmentBundleJson = some json) (hpa : codec.parseRecovery json = .ok recovery)
    (hin : recovery.inBatch digest = true) : ∃ json',
    row'.commitmentBundleJson = some json' ∧ ∀ found,
      codec.parseRecovery json' = .ok found → found.inBatch digest = true ∧
        found.proposalId = p := by
  obtain ⟨_, _, hpa', hp, hjs'⟩ := h.text json hjs
  cases hpa.symm.trans hpa'
  refine ⟨_, hjs', ?_⟩
  intro found hfo
  rw [codec.parse_encode hfo]
  exact ⟨hin, hp⟩

theorem coversVote_of_names {request : SubmissionDerivationRequest}
    {derived : DerivedChainSubmission} {t' : RoundTables J} {keys : List VoteKey}
    (hd : DerivedFrom (votingTables codec H wire events) t request derived)
    (hco : Confirms codec t t' keys) {key : VoteKey} (hkey : key ∈ keys) (hna : Names derived key) :
    CoversVote codec t' derived.generation.identity key.bundleIndex key.proposalId := by
  obtain ⟨hb, hvo | ⟨digest, _, _, hdi, hla, hmem⟩⟩ := hna
  · exact ⟨hb.symm, .inl hvo⟩
  refine ⟨hb.symm, .inr ?_⟩
  obtain ⟨_, hf, hm⟩ := deriveBody_batch hd.body hla
  rw [← hd.identity] at hf hm
  cases hdi.symm.trans hf
  obtain ⟨json, _, hj, hpa, -, hin⟩ := hm key.proposalId hmem
  rw [← hb] at hj
  obtain ⟨row, _, hrow, hrow', hcon⟩ := hco.rows key hkey
  have hte : row.commitmentBundleJson = some json := by
    rw [recoveryJson, vote?, hrow] at hj
    exact hj
  obtain ⟨json', hjs', hba⟩ := hcon.inBatch hte hpa hin
  refine ⟨digest, json', hdi, ?_, hba⟩
  rw [recoveryJson, vote?, hrow']
  exact hjs'

/-- Every committed transaction of the store keeps the invariant. -/
theorem TreeCovered.of_transaction (h : TreeCovered codec db)
    (he : TransactionEffect (votingTables codec H wire events) db db') : TreeCovered codec db' := by
  have hk : KeepsConfirmed db db' := by
    intro identity row _ hrow hco
    exact confirmed_kept he hrow hco
  have hs (hd : db'.domain = db.domain) : TreeCovered codec db' := h.of_keeps hk (hd ▸ .refl _)
  cases he with
  | unchanged hdb => exact hs (by rw [hdb])
  | inserted _ _ hins => exact hs hins.domain
  | rewritten _ _ _ _ _ _ _ hd | removed _ _ _ _ _ hd => exact hs hd
  | retired _ _ _ _ _ _ _ hd => exact h.of_keeps hk (retired_keeps hd)
  | confirmed _ record _ _ _ _ _ hco hid hde hro hd =>
    obtain ⟨keys, hc, hna⟩ := applyConfirmedGeneration_ok hd
    have hr : db'.domain.roundId = db.domain.roundId := by rw [hc.rest]
    have hw : db'.domain.walletId = db.domain.walletId := by rw [hc.rest]
    intro key vote hv hpo
    by_cases hkey : key ∈ keys
    · -- the record that was just confirmed is for this vote
      refine .inr ⟨record.identity, record.asRow, ?_, hro.row, hco, ?_⟩
      · rw [holdsRound_congr hr hw, ← hid, hde.identity]
        exact holdsRound_of_network hde.network
      · rw [← hid]
        exact coversVote_of_names hde hc hkey (hna key hkey)
    · have hold : db.domain.votes.get? key = some vote := (hc.kept key hkey).symm.trans hv
      refine (h key vote hold hpo).imp_right fun hcov => ?_
      exact hcov.of_row hk hr hw (hv.trans hold.symm)

/-! ### Runs -/

section

variable [DecidableEq J]

/-- One committed write to the database, as it concerns the round of `db.domain`. -/
inductive RoundStep (codec : RecoveryCodec J) (H : BatchSighash) (wire : GenerationWire J)
    (events : EventValidation) (db db' : VotingDb J) : Prop where
  | cast (first : RoundTables J) (b : Nat) (votes : List (PreparedVoteCommit J))
      (h : Accepted codec first db db' b votes)
  | transaction (h : StoreTransaction (votingTables codec H wire events) db db')
  | retire (b : Nat) (roster retired : List Nat)
      (h : retireUndispatchedVotesOutsideRoster codec H db b roster = .ok (retired, db'))
  /-- A changed ballot clears the votes it disagrees with. -/
  | clearVote (b p : Nat) (hrows : db'.submissions = db.submissions)
      (h : db.domain.clearUnsubmittedVoteRecovery b p = .ok db'.domain)
  | clearBatch (b : Nat) (digest : Bytes32) (cleared : List Nat)
      (hrows : db'.submissions = db.submissions)
      (h : db.domain.clearVoteBatchRecovery codec H b digest = .ok (cleared, db'.domain))
  /-- Any write that leaves the vote rows, or deletes some with their bundle. -/
  | other (hrows : db'.submissions = db.submissions)
      (hround : db'.domain.roundId = db.domain.roundId)
      (hwallet : db'.domain.walletId = db.domain.walletId)
      (hvotes : ∀ key row, db'.domain.votes.get? key = some row →
        db.domain.votes.get? key = some row)
  | clearRound (hvotes : ∀ key, db'.domain.votes.get? key = none)
  /-- A write to another round. -/
  | elsewhere (hdomain : db'.domain = db.domain)
      (hrows : ∀ identity, db.domain.holdsRound identity.roundId identity.walletId = true →
        db'.row identity = db.row identity)

/-- The states a round reaches from `start`. -/
inductive Reached (codec : RecoveryCodec J) (H : BatchSighash) (wire : GenerationWire J)
    (events : EventValidation) (start : VotingDb J) : VotingDb J → Prop where
  | start : Reached codec H wire events start start
  | step {db db' : VotingDb J} (hrun : Reached codec H wire events start db)
      (hstep : RoundStep codec H wire events db db') : Reached codec H wire events start db'

theorem TreeCovered.step (h : TreeCovered codec db)
    (hst : RoundStep codec H wire events db db') : TreeCovered codec db' := by
  cases hst with
  | cast _ _ _ hca =>
    exact h.of_keeps (.of_submissions hca.persisted.2.1) hca.keeps
  | transaction htr => exact h.of_transaction htr.effect
  | retire _ _ _ hre =>
    obtain ⟨hr, hke, -⟩ := retireUndispatchedVotesOutsideRoster_ok hre
    exact h.of_keeps (.of_submissions hr) hke
  | clearVote _ _ hr hc =>
    exact h.of_keeps (.of_submissions hr) (clearUnsubmittedVoteRecovery_clears hc).keepsWitnessed
  | clearBatch _ _ _ hr hc =>
    exact h.of_keeps (.of_submissions hr) (clearVoteBatchRecovery_clears hc).1.keepsWitnessed
  | other hr hro hwa hv =>
    exact h.of_votes (.of_submissions hr) hro hwa hv
  | clearRound hv =>
    intro key row hrow
    rw [hv key] at hrow
    cases hrow
  | elsewhere hdo hr =>
    refine h.of_keeps ?_ (hdo ▸ .refl _)
    intro identity row hho hrow hco
    exact ⟨row, (hr identity hho).trans hrow, hco⟩

theorem Reached.treeCovered {start : VotingDb J} (hrun : Reached codec H wire events start db)
    (hst : TreeCovered codec start) : TreeCovered codec db := by
  induction hrun with
  | start => exact hst
  | step _ hste ih => exact ih.step hste

end

end ZcashVoting.Voting
