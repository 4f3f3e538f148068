import ZcashVoting.RoundPlanning.BatchUnits
import ZcashVoting.Voting.LoadedVotes

/-!
# The retirement executor against the plan

The executor walks the signed votes of a bundle that are off the roster and carry no
chain witness, skips those a submission owns, and clears the rest, a batch as a whole.
`retire_clears` says which recoveries that removes. The planner retires the units that
are undispatched and have a member off the roster.
-/
namespace ZcashVoting.Voting

open ChainSubmission RoundPlanning KeyedData RoundTables List

variable {J : Type} {codec : RecoveryCodec J} {H : BatchSighash} {wire : GenerationWire J}
  {t : RoundTables J} {db db' : VotingDb J} {b p : Nat} {recovery : VoteRecoveryBundle}

/-! ### The loop of the executor -/

/-- The executor takes the submission to own the vote. -/
def ExecutorOwned (db : VotingDb J) (b : Nat) (candidate : Nat × VoteRecoveryBundle) : Prop :=
  voteRecoveryIsLifecycleOwned db b candidate.1 (batchDigestOf candidate.2) = true

/-- The votes that clearing a candidate clears: itself, or every member of its batch. -/
def InUnit (codec : RecoveryCodec J) (t : RoundTables J) (b : Nat)
    (candidate : Nat × VoteRecoveryBundle) (q : Nat) : Prop :=
  match batchDigestOf candidate.2 with
  | none => q = candidate.1
  | some D => ∃ member, Signed codec t b q member ∧ batchDigestOf member = some D

theorem inUnit_self (hsi : Signed codec t b p recovery) : InUnit codec t b (p, recovery) p := by
  unfold InUnit
  split
  · rfl
  next D hD => exact ⟨recovery, hsi, hD⟩

/-- The state of the executor after the candidates `seen`. -/
structure RetiringAfter (codec : RecoveryCodec J) (db : VotingDb J) (b : Nat)
    (seen : List (Nat × VoteRecoveryBundle)) (st : Retiring J) : Prop where
  clears : ∃ keys, Clears db.domain st.tables keys ∧ ∀ key ∈ keys, key.bundleIndex = b ∧
    ∃ candidate ∈ seen, ¬ExecutorOwned db b candidate ∧
      InUnit codec db.domain b candidate key.proposalId
  gone : ∀ candidate ∈ seen, ¬ExecutorOwned db b candidate →
    ∀ q, InUnit codec db.domain b candidate q → st.tables.recoveryJson b q = none
  kept : ∀ q, (∀ candidate ∈ seen, ¬ExecutorOwned db b candidate →
    ¬InUnit codec db.domain b candidate q) → st.tables.recoveryJson b q = db.domain.recoveryJson b q
  listed : ∀ q ∈ st.cleared, ∃ candidate ∈ seen, ¬ExecutorOwned db b candidate ∧
    (batchDigestOf candidate.2).isSome = true ∧ InUnit codec db.domain b candidate q
  lists : ∀ candidate ∈ seen, ¬ExecutorOwned db b candidate →
    (batchDigestOf candidate.2).isSome = true → ∀ q, InUnit codec db.domain b candidate q →
    q ∈ st.cleared

variable {seen : List (Nat × VoteRecoveryBundle)} {st : Retiring J} {q : Nat}
  {candidate : Nat × VoteRecoveryBundle} {roster retired : List Nat} {vote : VoteSnapshot}
  {submission : StoredChainSubmission} {claims : BatchClaims} {s : RoundSnapshot} {row : VoteRow J}

/-- A recovery that is still there was there from the start. -/
theorem RetiringAfter.signed (h : RetiringAfter codec db b seen st)
    (hsi : Signed codec st.tables b q recovery) : Signed codec db.domain b q recovery := by
  obtain ⟨json, hj, hpa⟩ := hsi
  refine ⟨json, ?_, hpa⟩
  rw [← hj]
  refine (h.kept q fun candidate hmem hown hin => ?_).symm
  rw [h.gone candidate hmem hown q hin] at hj
  cases hj

/-- Candidates of one batch clear the same votes. -/
theorem inUnit_congr {other : Nat × VoteRecoveryBundle}
    (h : batchDigestOf candidate.2 = batchDigestOf other.2)
    (hso : (batchDigestOf candidate.2).isSome = true) :
    InUnit codec t b candidate q ↔ InUnit codec t b other q := by
  obtain ⟨D, hD⟩ := Option.isSome_iff_exists.mp hso
  have hD' : batchDigestOf other.2 = some D := h.symm.trans hD
  simp only [InUnit, hD, hD']

/-- A vote in the unit of a batch candidate names that batch. -/
theorem digest_of_inUnit (hso : (batchDigestOf candidate.2).isSome = true)
    (hin : InUnit codec t b candidate q) (hsi : Signed codec t b q recovery) :
    batchDigestOf recovery = batchDigestOf candidate.2 := by
  obtain ⟨_, hD⟩ := Option.isSome_iff_exists.mp hso
  simp only [InUnit, hD] at hin
  obtain ⟨_, hme, hd⟩ := hin
  rw [← hme.unique hsi] at hd
  rw [hd, hD]

section

variable (h : RetiringAfter codec db b seen st) {st' : Retiring J}
include h

/-- A step that changes nothing for a candidate already dealt with. -/
theorem RetiringAfter.skip (retired : List Nat)
    (hd : ¬ExecutorOwned db b candidate → ∃ other ∈ seen, ¬ExecutorOwned db b other ∧
      (batchDigestOf other.2).isSome = true ∧ batchDigestOf candidate.2 = batchDigestOf other.2)
    : RetiringAfter codec db b (seen ++ [candidate]) { st with retired } := by
  refine ⟨?_, ?_, ?_, ?_, ?_⟩
  · obtain ⟨keys, hcl, hor⟩ := h.clears
    refine ⟨keys, hcl, fun key hkey => ?_⟩
    obtain ⟨hb, c, hc, hr⟩ := hor key hkey
    exact ⟨hb, c, mem_append_left _ hc, hr⟩
  · intro c hc ho q hin
    rcases mem_append.mp hc with hc | hc
    · exact h.gone c hc ho q hin
    · obtain rfl := mem_singleton.mp hc
      obtain ⟨other, hot, hf, hs, heq⟩ := hd ho
      exact h.gone other hot hf q ((inUnit_congr heq (heq ▸ hs)).mp hin)
  · exact fun q hq => h.kept q fun c hc => hq c (mem_append_left _ hc)
  · intro q hq
    obtain ⟨c, hc, hr⟩ := h.listed q hq
    exact ⟨c, mem_append_left _ hc, hr⟩
  · intro c hc ho hs q hin
    rcases mem_append.mp hc with hc | hc
    · exact h.lists c hc ho hs q hin
    · obtain rfl := mem_singleton.mp hc
      obtain ⟨other, hot, hf, hso', heq⟩ := hd ho
      exact h.lists other hot hf hso' q ((inUnit_congr heq hs).mp hin)

/-- A step that clears the unit of the candidate. -/
theorem RetiringAfter.clear {cleared : List Nat} (hf : ¬ExecutorOwned db b candidate)
    (hcl : Clears st.tables st'.tables (cleared.map (VoteKey.mk b)))
    (hu : ∀ q, q ∈ cleared ↔ InUnit codec db.domain b candidate q)
    (hl : ∀ q, q ∈ st'.cleared ↔ q ∈ st.cleared ∨ (batchDigestOf candidate.2).isSome = true ∧
      q ∈ cleared)
    : RetiringAfter codec db b (seen ++ [candidate]) st' := by
  have hj : ∀ q, st'.tables.recoveryJson b q =
      if q ∈ cleared then none else st.tables.recoveryJson b q := by
    intro q
    rw [hcl.trims.recoveryJson]
    simp
  have hgo : ∀ q, st.tables.recoveryJson b q = none → st'.tables.recoveryJson b q = none := by
    intro q hno
    rw [hj q, hno]
    split <;> rfl
  refine ⟨?_, ?_, ?_, ?_, ?_⟩
  · obtain ⟨_, hbe, hor⟩ := h.clears
    refine ⟨_, hbe.trans hcl, fun key hkey => ?_⟩
    rcases mem_append.mp hkey with hold | hnew
    · obtain ⟨hb, c, hc, hr⟩ := hor key hold
      exact ⟨hb, c, mem_append_left _ hc, hr⟩
    · obtain ⟨q, hq, rfl⟩ := mem_map.mp hnew
      exact ⟨rfl, candidate, by simp, hf, (hu q).mp hq⟩
  · intro c hc ho q hin
    rcases mem_append.mp hc with hc | hc
    · exact hgo q (h.gone c hc ho q hin)
    · obtain rfl := mem_singleton.mp hc
      rw [hj q, if_pos ((hu q).mpr hin)]
  · intro q hq
    have hout : q ∉ cleared := fun hin => hq candidate (by simp) hf ((hu q).mp hin)
    rw [hj q, if_neg hout]
    exact h.kept q fun c hc => hq c (mem_append_left _ hc)
  · intro q hq
    rcases (hl q).mp hq with hold | ⟨hs, hin⟩
    · obtain ⟨c, hc, hr⟩ := h.listed q hold
      exact ⟨c, mem_append_left _ hc, hr⟩
    · exact ⟨candidate, by simp, hf, hs, (hu q).mp hin⟩
  · intro c hc ho hs q hin
    rcases mem_append.mp hc with hc | hc
    · exact (hl q).mpr (.inl (h.lists c hc ho hs q hin))
    · obtain rfl := mem_singleton.mp hc
      exact (hl q).mpr (.inr ⟨hs, (hu q).mpr hin⟩)

section

variable (hpr : ProperRecoveries codec db.domain)
  (hse : ∀ c ∈ seen, Signed codec db.domain b c.1 c.2)
  (hsi : Signed codec db.domain b candidate.1 candidate.2)
include hpr hse hsi

/-- The members of a batch whose candidate is not yet listed are all still there. -/
theorem RetiringAfter.members {D : Bytes32} {members : List VoteRecoveryBundle}
    (hd : batchDigestOf candidate.2 = some D) (hnew : candidate.1 ∉ st.cleared)
    (hme : st.tables.loadVoteBatchRecoveries codec H b D = .ok members) (q : Nat) :
    q ∈ members.map VoteRecoveryBundle.proposalId ↔ InUnit codec db.domain b candidate q := by
  simp only [InUnit, hd, mem_map]
  constructor
  · rintro ⟨member, hmem, rfl⟩
    obtain ⟨⟨q, hm⟩, hin⟩ := (mem_loadVoteBatchRecoveries hme).mp hmem
    have hs := h.signed hm
    rw [hpr b q member hs]
    exact ⟨member, hs, hin⟩
  · rintro ⟨member, hm, hin⟩
    refine ⟨member, (mem_loadVoteBatchRecoveries hme).mpr ⟨⟨q, ?_⟩, hin⟩, hpr b q member hm⟩
    obtain ⟨json, hjs, hpa⟩ := id hm
    refine ⟨json, ?_, hpa⟩
    rw [← hjs]
    refine h.kept q fun c hc hfr hu => ?_
    cases hc' : batchDigestOf c.2 with
    | none =>
      -- a singleton candidate clears only itself, and this vote is in a batch
      simp only [InUnit, hc'] at hu
      subst hu
      rw [← hm.unique (hse c hc), hc'] at hin
      cases hin
    | some =>
      -- a candidate of the same batch would have listed this one
      have hsa := digest_of_inUnit (by rw [hc']; rfl) hu hm
      rw [hin, hc'] at hsa
      refine hnew (h.lists c hc hfr (by rw [hc']; rfl) candidate.1 ?_)
      simp only [InUnit, hc', ← hsa]
      exact ⟨candidate.2, hsi, hd⟩

theorem RetiringAfter.step (hst : retireCandidate codec H db b st candidate = .ok st') :
    RetiringAfter codec db b (seen ++ [candidate]) st' := by
  rcases retireCandidate_cases hst with ⟨hin, rfl⟩ | ⟨ho, rfl⟩ | ⟨hnew, ho, hcl⟩
  · refine h.skip _ fun _ => ?_
    obtain ⟨other, hot, hf, hs, hun⟩ := h.listed candidate.1 hin
    exact ⟨other, hot, hf, hs, digest_of_inUnit hs hun hsi⟩
  · exact h.skip st'.retired fun hf => absurd ho hf
  · have hf : ¬ExecutorOwned db b candidate := by
      rw [ExecutorOwned, batchDigestOf, ho]
      simp
    rcases hcl with ⟨_, _, tables, hd, ht, rfl⟩ | ⟨tables, hd, ht, rfl⟩
    · obtain ⟨hc, _, hme, rfl⟩ := clearVoteBatchRecovery_clears ht
      refine h.clear hf hc (h.members hpr hse hsi hd hnew hme) ?_
      simp [batchDigestOf, hd]
    · have hc : Clears st.tables tables ([candidate.1].map (VoteKey.mk b)) :=
        clearUnsubmittedVoteRecovery_clears ht
      refine h.clear hf hc ?_ ?_
      · simp [InUnit, batchDigestOf, hd]
      · simp [batchDigestOf, hd]

end

end

/-! ### What the executor clears -/

/-- A vote the executor looks at: signed, without a witness and off the roster. -/
structure Candidate (codec : RecoveryCodec J) (db : VotingDb J) (b : Nat) (roster : List Nat)
    (candidate : Nat × VoteRecoveryBundle) : Prop where
  signed : Signed codec db.domain b candidate.1 candidate.2
  unrecorded : db.domain.recorded b candidate.1 = false
  departed : candidate.1 ∉ roster

theorem mem_undispatchedVotes {json : J} :
    (p, json) ∈ undispatchedVotes db b roster ↔ db.domain.recoveryJson b p = some json ∧
      db.domain.recorded b p = false ∧ p ∉ roster := by
  rw [undispatchedVotes, mem_insertionSort, mem_filterMap]
  constructor
  · rintro ⟨⟨_, row⟩, hmem, hj⟩
    obtain ⟨hv, hf⟩ := mem_filter.mp hmem
    obtain ⟨_, ht, heq⟩ := Option.map_eq_some_iff.mp hj
    cases heq
    simp only [Bool.and_eq_true, Bool.not_eq_true', contains_eq_mem, decide_eq_false_iff_not] at hf
    refine ⟨?_, (recorded_of_mem_bundleVotes hv).trans hf.1, hf.2⟩
    rw [recoveryJson, mem_bundleVotes.mp hv]
    exact ht
  · rintro ⟨hj, hrec, hp⟩
    obtain ⟨row, hrow, ht⟩ := Option.bind_eq_some_iff.mp hj
    have hv := mem_bundleVotes.mpr hrow
    refine ⟨(p, row), mem_filter.mpr ⟨hv, ?_⟩, by simp [ht]⟩
    rw [recorded_of_mem_bundleVotes hv] at hrec
    simp [hrec, hp]

theorem mem_candidates {candidates : List (Nat × VoteRecoveryBundle)}
    (h : ((undispatchedVotes db b roster).mapM fun vote =>
      (codec.parseRecovery vote.2).map fun recovery => (vote.1, recovery)) = .ok candidates)
    : candidate ∈ candidates ↔ Candidate codec db b roster candidate := by
  constructor
  · intro hmem
    obtain ⟨⟨_, json⟩, hvo, hp⟩ := mem_mapM_ok h hmem
    obtain ⟨_, hre, rfl⟩ := map_ok hp
    obtain ⟨hj, hrec, hq⟩ := mem_undispatchedVotes.mp hvo
    exact ⟨⟨json, hj, hre⟩, hrec, hq⟩
  · rintro ⟨⟨_, hj, hp⟩, hrec, hq⟩
    obtain ⟨_, hf, heq⟩ := mapM_ok_of_mem h (mem_undispatchedVotes.mpr ⟨hj, hrec, hq⟩)
    simp only [hp, Except.map, Except.ok.injEq] at heq
    rw [← heq] at hf
    exact hf

section

variable (hpr : ProperRecoveries codec db.domain)
  (h : retireUndispatchedVotesOutsideRoster codec H db b roster = .ok (retired, db'))
include hpr h

theorem retire_loop : db'.submissions = db.submissions ∧ ∃ candidates done,
    db'.domain = done.tables ∧
      (∀ candidate, candidate ∈ candidates ↔ Candidate codec db b roster candidate) ∧
      RetiringAfter codec db b candidates done := by
  obtain ⟨candidates, hca, h⟩ := bind_ok h
  obtain ⟨done, hdo, h⟩ := bind_ok h
  cases h
  have hsi : ∀ c ∈ candidates, Signed codec db.domain b c.1 c.2 :=
    fun c hc => ((mem_candidates hca).mp hc).signed
  refine ⟨rfl, candidates, done, rfl, fun _ => mem_candidates hca, ?_⟩
  refine foldlM_ok_induction (RetiringAfter codec db b) hdo ?_ ?_
  · exact ⟨⟨[], .refl _, by simp⟩, by simp, by simp, by simp, by simp⟩
  intro seen candidate rest st st' hl ih hst
  refine ih.step hpr (fun c hc => hsi c ?_) (hsi candidate ?_) hst
  · rw [hl]
    exact mem_append_left _ hc
  · simp [hl]

/-- The votes whose recovery is gone are those of the units of unowned candidates. -/
theorem retire_clears (q : Nat) :
    ((∃ recovery, Signed codec db.domain b q recovery) ∧ db'.domain.recoveryJson b q = none) ↔
      ∃ candidate, Candidate codec db b roster candidate ∧ ¬ExecutorOwned db b candidate ∧
        InUnit codec db.domain b candidate q := by
  obtain ⟨-, _, _, hta, hca, hl⟩ := retire_loop hpr h
  rw [hta]
  constructor
  · rintro ⟨⟨_, _, hjs, -⟩, hnon⟩
    by_contra hno
    have hk := hl.kept q fun c hc hf hin =>
      hno ⟨c, (hca c).mp hc, hf, hin⟩
    rw [hjs] at hk
    exact absurd (hk.symm.trans hnon) (by simp)
  · rintro ⟨candidate, hcan, hf, hin⟩
    refine ⟨?_, hl.gone candidate ((hca candidate).mpr hcan) hf q hin⟩
    unfold InUnit at hin
    split at hin
    · exact ⟨candidate.2, hin ▸ hcan.signed⟩
    · obtain ⟨member, hme, -⟩ := hin
      exact ⟨member, hme⟩

end

/-! ### What the plan retires -/

/-- An open submission owns a vote, and so does the rejection of a batch. -/
def OwningState (submission : StoredChainSubmission) : Prop :=
  submission.state.isUnresolved = true ∨
    submission.durableState = .rejected ∧ submission.identity.target.batchDigest.isSome = true

/-- The submissions and columns of a bundle agree on which signed votes off the roster are
undispatched. -/
structure SettledBundle (codec : RecoveryCodec J) (db : VotingDb J) (b : Nat) (roster : List Nat) :
    Prop where
  /-- A tree position comes with a hash or a submission. -/
  position : ∀ p row recovery, p ∉ roster → db.domain.vote? b p = some row →
    Signed codec db.domain b p recovery → row.vcTreePosition.isSome = true →
    row.txHash.isSome = true ∨ Named db b p (batchDigestOf recovery)
  /-- A vote without a witness that a submission names has one that owns it. -/
  owned : ∀ p recovery, p ∉ roster → Signed codec db.domain b p recovery →
    db.domain.recorded b p = false → Named db b p (batchDigestOf recovery) →
    ∃ submission ∈ db.submissions, onBundle db b submission = true ∧
      NamesVote submission p (batchDigestOf recovery) ∧ OwningState submission

theorem namesVote_iff {digest : Option Bytes32} :
    (submission.identity.target = .vote p || submission.identity.target.batchDigest.isSome &&
      submission.identity.target.batchDigest = digest) = true ↔ NamesVote submission p digest := by
  simp [NamesVote]

theorem executorOwned_iff : ExecutorOwned db b candidate ↔ ∃ submission ∈ db.submissions,
    onBundle db b submission = true ∧ NamesVote submission candidate.1 (batchDigestOf candidate.2) ∧
      OwningState submission := by
  unfold ExecutorOwned voteRecoveryIsLifecycleOwned
  rw [any_eq_true]
  refine exists_congr fun submission => and_congr_right fun _ => ?_
  rw [Bool.and_eq_true, Bool.and_eq_true, namesVote_iff, and_assoc]
  refine and_congr_right fun _ => ?_
  rw [and_comm, OwningState]
  simp

theorem named_of_executorOwned (h : ExecutorOwned db b candidate) :
    Named db b candidate.1 (batchDigestOf candidate.2) := by
  obtain ⟨submission, hmem, hon, hna, -⟩ := executorOwned_iff.mp h
  exact ⟨submission, hmem, hon, hna⟩

theorem Loaded.recorded_eq (hl : Loaded codec db claims ⟨b, p⟩ row vote) :
    db.domain.recorded b p = row.witnessed := by
  rw [recorded, vote?, hl.stored]
  rfl

theorem Loaded.committed_signed (hl : Loaded codec db claims ⟨b, p⟩ row vote)
    (hcl : loadAuthoritativeBatchPhases codec H wire db = .ok claims)
    (hpr : ProperRecoveries codec db.domain) (hsi : Signed codec db.domain b p recovery) :
    vote.phase = .committed ↔
      ¬Named db b p (batchDigestOf recovery) ∧ row.txHash.isSome = false := by
  have hr := (hl.recovery recovery).mpr hsi
  rw [hl.committed_iff hcl hpr, ← hl.signed, hr]
  simp

/-- In a settled bundle the committed votes off the roster are the unwitnessed, unowned ones. -/
theorem SettledBundle.committed_iff (h : SettledBundle codec db b roster)
    (hl : Loaded codec db claims ⟨b, p⟩ row vote)
    (hcl : loadAuthoritativeBatchPhases codec H wire db = .ok claims)
    (hpr : ProperRecoveries codec db.domain) (hp : p ∉ roster)
    (hsi : Signed codec db.domain b p recovery) :
    vote.phase = .committed ↔
      db.domain.recorded b p = false ∧ ¬ExecutorOwned db b (p, recovery) := by
  rw [hl.committed_signed hcl hpr hsi]
  constructor
  · rintro ⟨hun, hha⟩
    refine ⟨?_, fun hown => hun (named_of_executorOwned hown)⟩
    rw [hl.recorded_eq, VoteRow.witnessed, hha, Bool.false_or]
    by_contra hpo
    have hpo := Bool.eq_true_of_not_eq_false hpo
    rcases h.position p row recovery hp hl.stored hsi hpo with hh | hn
    · rw [hha] at hh
      cases hh
    · exact hun hn
  · rintro ⟨hu, hfr⟩
    refine ⟨fun hna => hfr (executorOwned_iff.mpr (h.owned p recovery hp hsi hu hna)), ?_⟩
    rw [hl.recorded_eq, VoteRow.witnessed, Bool.or_eq_false_iff] at hu
    exact hu.1

theorem undispatched_iff {phase : VotePhase} :
    LifecyclePosition.ofPhase phase = .undispatched ↔ phase = .committed := by
  cases phase <;> simp [LifecyclePosition.ofPhase]

/-- The batch of a committed vote is the one its recovery names. -/
theorem groupedBatch_committed (hph : vote.phase = .committed)
    (hre : vote.recovery = some recovery) : vote.groupedBatch = recovery.batch := by
  simp [VoteSnapshot.groupedBatch, hph, hre]

/-- The unit of a committed vote has the votes that clearing it clears. -/
theorem has_iff_inUnit {units : List VoteUnit} {unit : VoteUnit}
    (hun : groupVoteUnits H s = .ok units) (hro : ∀ key row, db.domain.votes.get? key = some row →
      ∃ vote, s.votes.get? key = some vote ∧ Loaded codec db claims key row vote)
    (hvo : ∀ key vote, s.votes.get? key = some vote → ∃ row, Loaded codec db claims key row vote)
    (hmem : unit ∈ units) (hhas : unit.Has b p) (hvot : s.vote? b p = some vote)
    (hph : vote.phase = .committed) (hlo : Loaded codec db claims ⟨b, p⟩ row vote)
    (hsi : Signed codec db.domain b p recovery) : unit.Has b q ↔
    InUnit codec db.domain b (p, recovery) q := by
  have hu := groupVoteUnits_ok hun
  have hg := groupedBatch_committed hph ((hlo.recovery recovery).mpr hsi)
  rcases hu.unit_of_row hvot hmem hhas with ⟨hn, rfl⟩ | ⟨batch, hba, hid⟩
  · rw [hg] at hn
    simp [VoteUnit.Has, singletonUnit, VoteUnit.proposalIds, InUnit, batchDigestOf, hn]
  rw [hg] at hba
  have hw := groupVoteUnits_whole hun hmem hid
  have hdi : batchDigestOf recovery = some batch.digest := by simp [batchDigestOf, hba]
  simp only [InUnit, hdi]
  constructor
  · rintro ⟨hb, hq⟩
    obtain ⟨member, hm, rfl⟩ := mem_map.mp hq
    obtain ⟨index, hind⟩ := mem_iff_getElem?.mp hm
    obtain ⟨found, _, ha⟩ := hw.ordered index member hind
    obtain ⟨other, ho, -, hst⟩ := hw.row member hm
    rw [hb] at ho
    obtain ⟨row', hl'⟩ := hvo _ other ho
    refine ⟨found, (hl'.recovery found).mp (hst.trans ha.stored), ?_⟩
    simp [batchDigestOf, ha.named, ha.ofBatch]
  · rintro ⟨member, hm, hin⟩
    obtain ⟨_, hjs, -⟩ := id hm
    obtain ⟨row', hrow', -⟩ := Option.bind_eq_some_iff.mp hjs
    obtain ⟨other, ho, hl'⟩ := hro ⟨b, q⟩ row' hrow'
    refine ⟨hhas.1, hw.complete q other member ?_ ((hl'.recovery member).mpr hm)
      (inBatch_iff.mpr hin)⟩
    rw [hhas.1]
    exact ho

section

variable {proposalIds : List Nat} {plan : RoundObligations}

/-- The votes of a retired unit are committed. -/
theorem committed_of_retires (hpl : classifyRound H s proposalIds = .ok plan)
    (h : plan.Retires b q) : ∃ vote, s.vote? b q = some vote ∧ vote.phase = .committed := by
  rcases classifyRound_ok hpl with ⟨-, hnon⟩ | ⟨_, _, _, _, _, -, -, hu, hpl⟩
  · obtain ⟨_, _, hmem, -⟩ := h
    rw [hnon] at hmem
    cases hmem
  · rw [hpl.retires_iff hu, Classification.mem_retirableVoteKeys] at h
    obtain ⟨_, hmem, hre, hhas⟩ := h
    simp only [Classification.isRetired, Bool.and_eq_true, decide_eq_true_eq,
      undispatched_iff] at hre
    obtain ⟨vote, hv, hsa⟩ := hu.vote_of_has hmem hhas
    exact ⟨vote, hv, hsa.trans hre.1⟩

/-- The plan retires the units of the committed votes off the roster. -/
theorem retires_iff_committed (hlo : loadVotes codec H wire db = .ok s.votes)
    (hpl : classifyRound H s proposalIds = .ok plan) (q : Nat) :
    plan.Retires b q ↔ ∃ p recovery vote, p ∉ proposalIds ∧
      Signed codec db.domain b p recovery ∧ s.vote? b p = some vote ∧ vote.phase = .committed ∧
      InUnit codec db.domain b (p, recovery) q := by
  have hpr := properRecoveries_of_snapshot hlo
  obtain ⟨_, hcl, hr, hvo⟩ := loadVotes_loaded hlo
  rcases classifyRound_ok hpl with ⟨hem, hnon⟩ | ⟨ballot, _, _, _, _, hb, hun, hu, hpl⟩
  · -- a round without bundles has no votes
    constructor
    · rintro ⟨unit, _, hmem, -⟩
      rw [hnon] at hmem
      cases hmem
    · rintro ⟨p, _, vote, -, -, hv, -⟩
      obtain ⟨_, hst, -⟩ := s.vote_bundle ⟨b, p⟩ vote hv
      rw [hem] at hst
      cases hst
  rw [hpl.retires_iff hu, Classification.mem_retirableVoteKeys]
  constructor
  · rintro ⟨unit, hmem, hre, hhas⟩
    simp only [Classification.isRetired, Bool.and_eq_true, decide_eq_true_eq,
      undispatched_iff] at hre
    obtain ⟨hph, hle⟩ := hre
    obtain ⟨p, hp, hd⟩ : ∃ p ∈ unit.proposalIds, p ∉ ballot.roster := by
      simpa [rosterRelation] using hle
    obtain ⟨vote, hv, hsa⟩ := hu.vote_of_has hmem ⟨hhas.1, hp⟩
    obtain ⟨row, hl⟩ := hvo _ vote hv
    have hc : vote.phase = .committed := hsa.trans hph
    obtain ⟨-, -, hj⟩ := (hl.committed_iff hcl hpr).mp hc
    rw [← hl.signed] at hj
    obtain ⟨recovery, hrec⟩ := Option.isSome_iff_exists.mp hj
    have hsi := (hl.recovery recovery).mp hrec
    rw [hb.roster] at hd
    exact ⟨p, recovery, vote, hd, hsi, hv, hc,
      (has_iff_inUnit hun hr hvo hmem ⟨hhas.1, hp⟩ hv hc hl hsi).mp hhas⟩
  · rintro ⟨p, recovery, vote, hp, hsi, hv, hc, hin⟩
    obtain ⟨row, hl⟩ := hvo _ vote hv
    obtain ⟨unit, hmem, hhas⟩ := hu.covers b p vote hv
    obtain ⟨found, hfo, hsa⟩ := hu.vote_of_has hmem hhas
    obtain rfl : found = vote := Option.some.inj (hfo.symm.trans hv)
    refine ⟨unit, hmem, ?_, (has_iff_inUnit hun hr hvo hmem hhas hv hc hl hsi).mpr hin⟩
    simp only [Classification.isRetired, Bool.and_eq_true, decide_eq_true_eq, undispatched_iff]
    refine ⟨hsa.symm.trans hc, ?_⟩
    have hout : p ∉ ballot.roster := by rwa [hb.roster]
    simp only [rosterRelation]
    rw [if_neg]
    intro hall
    exact hout (by simpa using all_eq_true.mp hall p hhas.2)

theorem Signed.loaded (hsi : Signed codec db.domain b p recovery)
    (hr : ∀ key row, db.domain.votes.get? key = some row →
      ∃ vote, s.votes.get? key = some vote ∧ Loaded codec db claims key row vote) :
    ∃ row vote, s.vote? b p = some vote ∧ Loaded codec db claims ⟨b, p⟩ row vote := by
  obtain ⟨_, hj, -⟩ := id hsi
  obtain ⟨row, hrow, -⟩ := Option.bind_eq_some_iff.mp hj
  obtain ⟨vote, hv, hl⟩ := hr _ row hrow
  exact ⟨row, vote, hv, hl⟩

/-- In a settled bundle these are the units of the unowned candidates. -/
theorem SettledBundle.retires_iff (h : SettledBundle codec db b proposalIds)
    (hlo : loadVotes codec H wire db = .ok s.votes)
    (hpl : classifyRound H s proposalIds = .ok plan) (q : Nat) :
    plan.Retires b q ↔ ∃ candidate, Candidate codec db b proposalIds candidate ∧
      ¬ExecutorOwned db b candidate ∧ InUnit codec db.domain b candidate q := by
  have hpr := properRecoveries_of_snapshot hlo
  obtain ⟨_, hcl, hr, hvo⟩ := loadVotes_loaded hlo
  rw [retires_iff_committed hlo hpl]
  constructor
  · rintro ⟨p, recovery, vote, hp, hsi, hv, hc, hin⟩
    obtain ⟨_, hl⟩ := hvo _ vote hv
    obtain ⟨hrec, hf⟩ := (h.committed_iff hl hcl hpr hp hsi).mp hc
    exact ⟨(p, recovery), ⟨hsi, hrec, hp⟩, hf, hin⟩
  · rintro ⟨⟨p, recovery⟩, ⟨hsi, hrec, hp⟩, hf, hin⟩
    obtain ⟨_, vote, hv, hl⟩ := hsi.loaded hr
    exact ⟨p, recovery, vote, hp, hsi, hv,
      (h.committed_iff hl hcl hpr hp hsi).mpr ⟨hrec, hf⟩, hin⟩

end

/-- A successful retirement clears exactly the votes that the plan of the same state and roster
retires, if and only if the bundle is settled. -/
theorem retirement_clears_planned_iff {s : RoundSnapshot} {proposalIds retired : List Nat}
    {plan : RoundObligations} (hload : loadVotes codec H wire db = .ok s.votes)
    (hplan : classifyRound H s proposalIds = .ok plan)
    (hretire : retireUndispatchedVotesOutsideRoster codec H db b proposalIds =
      .ok (retired, db')) :
    SettledBundle codec db b proposalIds ↔ ∀ q, ((∃ recovery, Signed codec db.domain b q recovery) ∧
      db'.domain.recoveryJson b q = none) ↔ plan.Retires b q := by
  have hpr := properRecoveries_of_snapshot hload
  constructor
  · intro h q
    rw [retire_clears hpr hretire, h.retires_iff hload hplan]
  intro hagree
  obtain ⟨_, hcl, hr, hvo⟩ := loadVotes_loaded hload
  obtain ⟨-, hke, -⟩ := retireUndispatchedVotesOutsideRoster_ok hretire
  constructor
  · intro p row recovery hp hrow hsi hpo
    -- the plan would retire the vote, whose position keeps it from the executor
    by_contra hno
    rw [not_or] at hno
    obtain ⟨vote, hv, hl⟩ := hr ⟨b, p⟩ row hrow
    have hc := (hl.committed_signed hcl hpr hsi).mpr ⟨hno.2, Bool.eq_false_of_not_eq_true hno.1⟩
    have hgone := ((hagree p).mpr ((retires_iff_committed hload hplan p).mpr
      ⟨p, recovery, vote, hp, hsi, hv, hc, inUnit_self hsi⟩)).2
    have hsame := (hke.rows ⟨b, p⟩ row hrow (by simp [VoteRow.witnessed, hpo])).1
    obtain ⟨json, hj, -⟩ := hsi
    rw [recoveryJson, hrow] at hj
    rw [recoveryJson, vote?, hsame] at hgone
    cases hj.symm.trans hgone
  · intro p recovery hp hsi hrec hna
    -- the executor would clear the vote, which is not committed
    by_contra hno
    have hfree : ¬ExecutorOwned db b (p, recovery) := fun hown => hno (executorOwned_iff.mp hown)
    have hcleared := (retire_clears hpr hretire p).mpr
      ⟨(p, recovery), ⟨hsi, hrec, hp⟩, hfree, inUnit_self hsi⟩
    obtain ⟨vote, hv, hc⟩ := committed_of_retires hplan ((hagree p).mp hcleared)
    obtain ⟨_, hl⟩ := hvo _ vote hv
    exact ((hl.committed_signed hcl hpr hsi).mp hc).1 hna

/-! ### A vote for a departed proposal -/

/-- A signed vote for proposal 1, with these submissions. -/
def signedDb (submissions : List StoredChainSubmission) : VotingDb VoteRecoveryBundle :=
  ⟨submissions, plainTables (.single ⟨0, 1⟩ (plainRow maxProposalAuthority (plainDraft false))) []⟩

def signedSnapshot (phase : VotePhase) : RoundSnapshot :=
  legacySnapshot ⟨0, phase, none, none, some (plainRecovery maxProposalAuthority (plainDraft false))⟩
    (by intro r h; cases h; rfl) 2

/-- The submission of the vote, which the chain rejected. -/
def rejectedVote : StoredChainSubmission :=
  { StoredChainSubmission.fresh (sampleGeneration (.vote 1)) 1 10 with
    state := .rejected ⟨.chainRejected, "rejected"⟩ }

theorem settledBundle_signed : SettledBundle plainCodec (signedDb []) 0 [2] := by
  refine ⟨?_, ?_⟩
  · intro p row recovery _ hrow _ hp
    have hmem := KeyedMap.mem_entries_of_get? hrow
    simp only [signedDb, plainTables, KeyedMap.single_entries, mem_singleton,
      Prod.mk.injEq] at hmem
    rw [hmem.2] at hp
    cases hp
  · rintro p recovery _ _ _ ⟨_, hmem, -⟩
    cases hmem

/-- The unsent vote is planned for retirement and cleared. -/
theorem retirement_clears_planned_iff_unsent :
    ∃ plan retired db', classifyRound sampleSighash (signedSnapshot .committed) [2] = .ok plan ∧
      retireUndispatchedVotesOutsideRoster plainCodec sampleSighash (signedDb []) 0 [2] =
        .ok (retired, db') ∧ plan.Retires 0 1 ∧ db'.domain.recoveryJson 0 1 = none := by
  obtain ⟨plan, hp, hob⟩ := map_ok
    (show (classifyRound sampleSighash (signedSnapshot .committed) [2]).map
      RoundObligations.obligations = .ok [.retire (.singleton 0 1) [1],
        .cast 0 [⟨2, 0⟩] none false] by
        decide +kernel)
  have hr : plan.Retires 0 1 := ⟨.singleton 0 1, [1], by rw [hob]; simp, rfl, by simp⟩
  have hlo : loadVotes plainCodec sampleSighash plainWire (signedDb []) =
      .ok (signedSnapshot .committed).votes := rfl
  have hcl := ((retirement_clears_planned_iff hlo hp rfl).mp settledBundle_signed 1).mpr hr
  exact ⟨plan, _, _, hp, rfl, hr, hcl.2⟩

/-- The plan keeps the rejected vote and the executor clears it. The plan retires the vote
with a tree position alone and the executor keeps it. -/
theorem retirement_differs_from_plan :
    (loadVotes plainCodec sampleSighash plainWire (signedDb [rejectedVote]) =
        .ok (signedSnapshot .submissionRejected).votes ∧
      (∃ plan, classifyRound sampleSighash (signedSnapshot .submissionRejected) [2] = .ok plan ∧
        ¬plan.Retires 0 1) ∧ (signedDb [rejectedVote]).domain.recoveryJson 0 1 ≠ none ∧
      ∃ retired db', retireUndispatchedVotesOutsideRoster plainCodec sampleSighash
        (signedDb [rejectedVote]) 0 [2] = .ok (retired, db') ∧ db'.domain.recoveryJson 0 1 = none) ∧
    loadVotes plainCodec sampleSighash plainWire (legacyDb true) = .ok signedLegacy.votes ∧
      (∃ plan, classifyRound sampleSighash signedLegacy [2] = .ok plan ∧ plan.Retires 0 1) ∧
      ∃ retired db', retireUndispatchedVotesOutsideRoster plainCodec sampleSighash
        (legacyDb true) 0 [2] = .ok (retired, db') ∧ db'.domain.recoveryJson 0 1 ≠ none := by
  obtain ⟨keeping, hke, hkep⟩ := map_ok
    (show (classifyRound sampleSighash (signedSnapshot .submissionRejected) [2]).map
      RoundObligations.obligations = .ok [.cast 0 [⟨2, 0⟩] none false] by decide +kernel)
  obtain ⟨retiring, hre, hret⟩ := map_ok
    (show (classifyRound sampleSighash signedLegacy [2]).map RoundObligations.obligations =
      .ok [.retire (.singleton 0 1) [1], .cast 0 [⟨2, 0⟩] none false] by decide +kernel)
  refine ⟨⟨rfl, ⟨keeping, hke, ?_⟩, ?_, _, _, rfl, rfl⟩, rfl, ⟨retiring, hre, ?_⟩, _, _, rfl, ?_⟩
  · rintro ⟨_, _, hmem, -⟩
    rw [hkep] at hmem
    simp at hmem
  · intro hn
    cases hn
  · exact ⟨.singleton 0 1, [1], by rw [hret]; simp, rfl, by simp⟩
  · intro hn
    cases hn

end ZcashVoting.Voting
