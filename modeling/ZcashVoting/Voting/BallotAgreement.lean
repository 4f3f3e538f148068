import ZcashVoting.Voting.BallotIntents

/-!
# The ballot and the votes that may be on chain

A vote is signed for the decision of the ballot, and no writer of the ballot moves the
decision away from a vote that a submission owns or the chain has seen. `BallotKept` is
what every write to a round keeps: signed and witnessed votes agree with the ballot, and
a singleton vote whose submission is open still has its recovery or a witness.
-/
namespace ZcashVoting.Voting

open ChainSubmission RoundPlanning KeyedData RoundTables SqlTable List

variable {J : Type} {codec : RecoveryCodec J} {H : BatchSighash} {wire : GenerationWire J}
  {events : EventValidation} {t t' : RoundTables J} {db db' : VotingDb J} {b p : Nat}
  {key : VoteKey} {row row' : VoteRow J} {recovery : VoteRecoveryBundle} {cleared : List VoteKey}

/-! ### The invariant -/

/-- The vote is signed, or has reached the chain. -/
def VoteRow.binding (row : VoteRow J) : Bool := row.commitmentBundleJson.isSome || row.witnessed

/-- The vote is signed, and in no batch. -/
def SignedAlone (codec : RecoveryCodec J) (row : VoteRow J) : Prop :=
  ∃ json, row.commitmentBundleJson = some json ∧
    ∀ recovery, codec.parseRecovery json = .ok recovery → batchDigestOf recovery = none

/-- A singleton submission of the vote that may still be confirmed. -/
def OpenVote (db : VotingDb J) (b p : Nat) : Prop :=
  ∃ submission ∈ db.submissions, onBundle db b submission = true ∧
    submission.identity.target = .vote p ∧ submission.state.isUnresolved = true

/-- The ballot does not decide against a binding vote. -/
def Agreed (t : RoundTables J) : Prop := ∀ b p row, t.vote? b p = some row → row.binding = true →
    ballotRelation t.intents p row.choice ≠ .conflicts

structure BallotKept (codec : RecoveryCodec J) (db : VotingDb J) : Prop where
  proper : ProperRecoveries codec db.domain
  agreed : Agreed db.domain
  held : ∀ b p, OpenVote db b p → ∃ row, db.domain.vote? b p = some row ∧
    (row.witnessed = true ∨ SignedAlone codec row)

theorem SignedAlone.binding (h : SignedAlone codec row) : row.binding = true := by
  obtain ⟨_, hjs, -⟩ := h
  simp [VoteRow.binding, hjs]

theorem not_conflicts_iff {intents : KeyedMap Nat Decision} {choice : Nat} :
    ballotRelation intents p choice ≠ .conflicts ↔ ∀ made, intents.get? p = some made →
      chosen made = some choice := by
  unfold ballotRelation
  cases hget : intents.get? p with
  | none => simp
  | some made =>
    cases made with
    | skipped => simp [chosen]
    | choice option => by_cases hsa : option = choice <;> simp [chosen]

section

variable (h : OpenVote db' b p) (hrou : db'.domain.roundId = db.domain.roundId)
  (hwa : db'.domain.walletId = db.domain.walletId)
include h hrou hwa

theorem OpenVote.of_submissions (hro : ∀ submission ∈ db'.submissions,
      submission.state.isUnresolved = true →
      onBundle db' b submission = true → ∃ before ∈ db.submissions,
        before.identity = submission.identity ∧ before.state.isUnresolved = true) :
          OpenVote db b p := by
  obtain ⟨submission, hmem, hon, hta, hop⟩ := h
  obtain ⟨before, hbe, hid, hop'⟩ := hro submission hmem hop hon
  refine ⟨before, hbe, ?_, hid ▸ hta, hop'⟩
  rw [onBundle, hid, ← holdsRound_congr hrou hwa]
  exact hon

theorem OpenVote.of_subset (hro : ∀ submission ∈ db'.submissions, submission ∈ db.submissions) :
    OpenVote db b p :=
  h.of_submissions hrou hwa fun submission hmem hop _ =>
    ⟨submission, hro submission hmem, rfl, hop⟩

end

/-! ### Writes that clear recoveries -/

/-- A vote that binds after the recoveries of `cleared` are gone was bound before, by a
witness or by a recovery that is left. -/
theorem Trims.binding (h : Trims t t' cleared) (hrow' : t'.vote? b p = some row')
    (hb : row'.binding = true) : ∃ row, t.vote? b p = some row ∧ row'.choice = row.choice ∧
      row.binding = true ∧ (row.witnessed = true ∨ row.commitmentBundleJson.isSome = true ∧
          ⟨b, p⟩ ∉ cleared) := by
  rw [vote?, h.votes] at hrow'
  obtain ⟨row, hrow, rfl⟩ := Option.map_eq_some_iff.mp hrow'
  rw [VoteRow.binding, clearedRow_witnessed, Bool.or_eq_true] at hb
  have hc : (clearedRow cleared ⟨b, p⟩ row).choice = row.choice := by
    unfold clearedRow
    split <;> rfl
  rcases hb with hs | hw
  · unfold clearedRow at hs
    split at hs
    · cases hs
    next hout => exact ⟨row, hrow, hc, by simp [VoteRow.binding, hs], .inr ⟨hs, hout⟩⟩
  · exact ⟨row, hrow, hc, by simp [VoteRow.binding, hw], .inl hw⟩

theorem Trims.agreed (h : Trims t t' cleared) (hin : t'.intents = t.intents) (hag : Agreed t) :
    Agreed t' := by
  intro b p row' hrow' hbi
  obtain ⟨row, hrow, hch, hbe, -⟩ := h.binding hrow' hbi
  rw [hin, hch]
  exact hag b p row hrow hbe

/-- A write that clears no singleton vote whose submission is open. -/
theorem BallotKept.of_trims (h : BallotKept codec db) (ht : Trims db.domain db'.domain cleared)
    (hag : Agreed db'.domain) (hro : ∀ submission ∈ db'.submissions, submission ∈ db.submissions)
    (hfr : ∀ key ∈ cleared, OpenVote db key.bundleIndex key.proposalId → ∀ row,
      db.domain.votes.get? key = some row → ¬SignedAlone codec row) : BallotKept codec db' := by
  refine ⟨ht.proper h.proper, hag, ?_⟩
  intro b p hop
  have hb := hop.of_subset ht.roundId ht.walletId hro
  obtain ⟨row, hrow, hhe⟩ := h.held b p hb
  refine ⟨clearedRow cleared ⟨b, p⟩ row, ?_, ?_⟩
  · rw [vote?, ht.votes, show db.domain.votes.get? ⟨b, p⟩ = some row from hrow]
    rfl
  rcases hhe with hw | ha
  · exact .inl ((clearedRow_witnessed _ row).trans hw)
  · have hke : ⟨b, p⟩ ∉ cleared := fun hin => hfr _ hin hb row hrow ha
    rw [clearedRow, if_neg hke]
    exact .inr ha

theorem SignedAlone.not_batched (h : SignedAlone codec row) (hrow : t.vote? b p = some row)
    {D : Bytes32} (hsi : Signed codec t b p recovery) : batchDigestOf recovery ≠ some D := by
  obtain ⟨_, hjs, hal⟩ := h
  obtain ⟨_, hj', hpa⟩ := hsi
  rw [recoveryJson, hrow] at hj'
  cases hjs.symm.trans hj'
  rw [hal recovery hpa]
  simp

/-- What clears with a vote that no submission owns. -/
def Unowned (codec : RecoveryCodec J) (db : VotingDb J) (key : VoteKey) : Prop :=
  ∃ q recovery, ¬ExecutorOwned db key.bundleIndex (q, recovery) ∧
    InUnit codec db.domain key.bundleIndex (q, recovery) key.proposalId

theorem Unowned.not_alone (h : Unowned codec db key)
    (hop : OpenVote db key.bundleIndex key.proposalId)
    (hrow : db.domain.votes.get? key = some row) :
    ¬SignedAlone codec row := by
  obtain ⟨_, recovery, hfr, hin⟩ := h
  intro hal
  cases hD : batchDigestOf recovery with
  | none =>
    simp only [InUnit, hD] at hin
    obtain ⟨_, hmem, hon, hta, hst⟩ := hop
    exact hfr (executorOwned_iff.mpr ⟨_, hmem, hon, .inl (hin ▸ hta), .inl hst⟩)
  | some =>
    simp only [InUnit, hD] at hin
    obtain ⟨_, hme, hdi⟩ := hin
    exact hal.not_batched hrow hme hdi

theorem Edited.agreed {decision : Option Decision} (h : Edited codec db db' p decision t' cleared)
    (hag : Agreed db.domain) : Agreed db'.domain := by
  intro b q row' hrow' hbi
  obtain ⟨row, hrow, hch, hbe, hbo⟩ := h.trims.binding hrow' hbi
  rw [not_conflicts_iff, hch]
  intro made hm
  rw [h.intents] at hm
  by_cases hq : q = p
  · subst hq
    rw [if_pos rfl] at hm
    rcases hbo with hw | ⟨hso, hke⟩
    · exact h.witnessed made b row hm hrow hw
    -- a recovery that is left was signed for the decision that is made
    obtain ⟨recovery, hs⟩ := h.invalidated.parsed b (by
      rw [recoveryJson, hrow]
      exact hso)
    rw [← h.invalidated.decided b recovery row hs hrow, ← h.decided hs hke, hm]
    rfl
  · rw [if_neg hq] at hm
    exact not_conflicts_iff.mp (hag b q row hrow hbe) made hm

theorem BallotKept.of_edit (h : BallotKept codec db) (hed : EditStep codec H wire db db') :
    BallotKept codec db' := by
  obtain ⟨p, _, _, _, he⟩ := hed.edited h.proper
  refine h.of_trims he.trims (he.agreed h.agreed) (by simp [he.submissions]) ?_
  intro key hkey hop row hrow
  obtain ⟨recovery, -, -, -, hfr, hin⟩ := he.invalidated.origin key hkey
  exact Unowned.not_alone ⟨p, recovery, hfr, hin⟩ hop hrow

theorem BallotKept.of_retirement (h : BallotKept codec db) {roster retired : List Nat}
    (hre : retireUndispatchedVotesOutsideRoster codec H db b roster = .ok (retired, db')) :
    BallotKept codec db' := by
  obtain ⟨hro, _, _, hta, -, hlo⟩ := retire_loop h.proper hre
  obtain ⟨_, hc, hor⟩ := hlo.clears
  rw [← hta] at hc
  have hinte : db'.domain.intents = db.domain.intents := by rw [hc.rest]
  refine h.of_trims hc.trims (hc.trims.agreed hinte h.agreed) (by simp [hro]) ?_
  intro key hkey hop row hrow
  obtain ⟨rfl, candidate, -, hfr, hin⟩ := hor key hkey
  exact Unowned.not_alone ⟨candidate.1, candidate.2, hfr, hin⟩ hop hrow

/-! ### Transactions of the store -/

theorem BallotKept.of_confirms {keys : List VoteKey} (h : BallotKept codec db)
    (hc : Confirms codec db.domain db'.domain keys)
    (hop : ∀ b p, OpenVote db' b p → OpenVote db b p) : BallotKept codec db' := by
  refine ⟨?_, ?_, ?_⟩
  · intro b p recovery hsi
    by_cases hkey : ⟨b, p⟩ ∈ keys
    · obtain ⟨row, row', hrow, hrow', hco⟩ := hc.rows _ hkey
      have hs := hc.signed _ hkey
      rw [recoveryJson, vote?, hrow] at hs
      obtain ⟨json, hj⟩ := Option.isSome_iff_exists.mp hs
      obtain ⟨_, _, -, hp, hte⟩ := hco.text json hj
      obtain ⟨_, hj', hpa⟩ := hsi
      rw [recoveryJson, vote?, hrow'] at hj'
      cases hte.symm.trans hj'
      rw [codec.parse_encode hpa]
      exact hp
    · obtain ⟨json, hj, hpa⟩ := hsi
      refine h.proper b p recovery ⟨json, ?_, hpa⟩
      rw [recoveryJson, vote?, ← hc.kept _ hkey]
      exact hj
  · intro b p row' hrow' hbi
    have hin : db'.domain.intents = db.domain.intents := by rw [hc.rest]
    rw [hin]
    by_cases hkey : ⟨b, p⟩ ∈ keys
    · obtain ⟨row, _, hrow, hfo, hco⟩ := hc.rows _ hkey
      cases hfo.symm.trans hrow'
      have hs := hc.signed _ hkey
      rw [recoveryJson, vote?, hrow] at hs
      rw [hco.choice]
      refine h.agreed b p row hrow ?_
      rw [VoteRow.binding, show row.commitmentBundleJson.isSome = true from hs]
      rfl
    · exact h.agreed b p row' ((hc.kept _ hkey).symm.trans hrow') hbi
  · intro b p hop'
    by_cases hkey : ⟨b, p⟩ ∈ keys
    · obtain ⟨_, row', -, hrow', hco⟩ := hc.rows _ hkey
      exact ⟨row', hrow', .inl (by simp [VoteRow.witnessed, hco.positioned])⟩
    · rw [vote?, hc.kept _ hkey]
      exact h.held b p (hop b p hop')

/-- A singleton generation is derived from a vote that is signed alone. -/
theorem signedAlone_of_derived {request : StoreAdvancementRequest}
    {derived : DerivedChainSubmission} (hm : request.targetMatches = true)
    (hd : DerivedFrom (votingTables codec H wire events) t request.derivation derived)
    (ht : derived.generation.identity.target = .vote p) :
    ∃ row, t.vote? derived.generation.identity.bundleIndex p = some row ∧
      SignedAlone codec row := by
  have hb := hd.body
  have hid := hd.identity
  rw [hid] at ht ⊢
  unfold StoreAdvancementRequest.targetMatches StoreAdvancementRequest.identity at hm
  rw [ht] at hm
  cases hk : request.derivation with
  | vote identity =>
    rw [hk] at hb ht
    change deriveVote codec t wire identity = _ at hb
    unfold deriveVote at hb
    rw [show identity.target = .vote p from ht] at hb
    obtain ⟨_, hv, -⟩ := bind_ok hb
    obtain ⟨_, hlo, hv⟩ := bind_ok hv
    obtain ⟨_, hs, hv⟩ := bind_ok hv
    obtain ⟨json, hjs, hpa, -⟩ := loadValidatedVote_ok hlo
    obtain ⟨row, hrow, hte⟩ := Option.bind_eq_some_iff.mp hjs
    refine ⟨row, hrow, json, hte, fun found hfo => ?_⟩
    cases hpa.symm.trans hfo
    unfold ensureSingletonVoteRecovery at hs
    split at hs
    · cases hs
    next hno => simpa [batchDigestOf] using hno
  | delegation | importedDelegation | voteBatch => rw [hk] at hm; cases hm

theorem BallotKept.of_transaction (h : BallotKept codec db)
    (hef : TransactionEffect (votingTables codec H wire events) db db') : BallotKept codec db' := by
  have hsa (hd : db'.domain = db.domain)
      (ho : ∀ b p, OpenVote db' b p → OpenVote db b p) : BallotKept codec db' :=
    ⟨hd ▸ h.proper, hd ▸ h.agreed, fun b p hop' => hd ▸ h.held b p (ho b p hop')⟩
  have hre {row record : StoredChainSubmission} (hrow : db.row record.identity = some row)
      (hs : record.state.isUnresolved = true → row.state.isUnresolved = true)
      (hr : db.Rewrites db' record) (hrou : db'.domain.roundId = db.domain.roundId)
      (hwa : db'.domain.walletId = db.domain.walletId) : ∀ b p, OpenVote db' b p →
        OpenVote db b p := by
    intro b p ho
    refine ho.of_submissions hrou hwa fun submission hmem hu _ => ?_
    rw [hr.rows, mem_replace] at hmem
    rcases hmem with ⟨hold, -⟩ | ⟨rfl, -⟩
    · exact ⟨submission, hold, rfl, hu⟩
    · exact ⟨row, mem_of_lookup hrow, key_of_lookup hrow, hs hu⟩
  have hde {identity : ChainSubmissionIdentity}
      (hr : db'.submissions = delete StoredChainSubmission.identity identity db.submissions) :
      ∀ submission ∈ db'.submissions, submission ∈ db.submissions := by
    intro submission hmem
    rw [hr, mem_delete] at hmem
    exact hmem.1
  cases hef with
  | unchanged hdb => rw [hdb]; exact h
  | inserted _ _ hins =>
    refine ⟨hins.domain ▸ h.proper, hins.domain ▸ h.agreed, ?_⟩
    rintro b p ⟨submission, hmem, hon, ht, ho⟩
    rw [hins.rows, mem_append, mem_singleton] at hmem
    rw [onBundle, hins.domain] at hon
    rw [hins.domain]
    rcases hmem with hold | rfl
    · exact h.held b p ⟨submission, hold, hon, ht, ho⟩
    obtain ⟨_, derived, hma, hder, hid⟩ := hins.derived
    rw [Bool.and_eq_true, decide_eq_true_eq] at hon
    obtain ⟨row, hrow, ha⟩ := signedAlone_of_derived hma hder (hid ▸ ht)
    rw [hid, hon.2] at hrow
    exact ⟨row, hrow, .inr ha⟩
  | rewritten _ _ hrow ho _ _ hr hd =>
    exact hsa hd (hre hrow ho hr (by rw [hd]) (by rw [hd]))
  | removed _ _ _ _ hr hd =>
    exact hsa hd fun b p ho =>
      ho.of_subset (by rw [hd]) (by rw [hd]) (hde hr)
  | confirmed _ record _ _ _ hrow _ hco _ _ hr hd =>
    obtain ⟨_, hc, -⟩ := applyConfirmedGeneration_ok hd
    refine h.of_confirms hc (hre hrow ?_ hr ?_ ?_)
    · intro ho
      cases hs : record.state <;>
        simp [hs, SubmissionRecordState.isConfirmed, SubmissionRecordState.isUnresolved] at hco ho
    · rw [hc.rest]
    · rw [hc.rest]
  | retired row identity _ _ _ _ hr hd =>
    change (if db.domain.holdsRound identity.roundId identity.walletId then
      retireRejectedCombinedGeneration codec H db.domain identity else _) = _ at hd
    split at hd
    · obtain ⟨_, _, hme, hcl⟩ := retireRejectedCombinedGeneration_clears hd
      have hin : db'.domain.intents = db.domain.intents := by rw [hcl.rest]
      refine h.of_trims hcl.trims (hcl.trims.agreed hin h.agreed) (hde hr) ?_
      intro key hkey _ row hrow ha
      obtain ⟨_, hq, rfl⟩ := mem_map.mp hkey
      obtain ⟨_, hmemb, hdi⟩ := (mem_batchProposals h.proper hme).mp hq
      exact ha.not_batched hrow hmemb hdi
    · cases hd

/-! ### Casts -/

theorem requireBallotIntent_ok {intent : Option Decision} {draft : DraftVote}
    (h : requireBallotIntent t b intent draft = .ok ()) :
    ∀ made, intent = some made → made = .choice draft.choice := by
  rintro made rfl
  unfold requireBallotIntent at h
  by_contra hne
  simp [hne] at h

section

variable [DecidableEq J] {first : RoundTables J} {votes : List (PreparedVoteCommit J)}
  {vote : PreparedVoteCommit J} {captured : VotePreparationState J}

/-- What a fresh vote was prepared from: a ballot that agrees, and for a member of a batch
a row without a recovery. -/
theorem Accepted.fresh (h : Accepted codec first db db' b votes) (hv : vote ∈ votes)
    (hc : vote.captured = .fresh captured) :
    (∀ made, captured.ballotIntent = some made → made = .choice vote.draft.choice) ∧
      vote.recovery.proposalId = vote.draft.proposalId ∧ (batchDigestOf vote.recovery = none ∨
        captured.vote.bind VoteRow.commitmentBundleJson = none) := by
  cases h with
  | single _ hp =>
    obtain rfl := mem_singleton.mp hv
    cases prepareCommit_ok hp with
    | recovered => cases hc
    | fresh _ _ _ _ hba =>
      cases hc
      exact ⟨requireBallotIntent_ok hba, rfl, .inl rfl⟩
  | batch _ _ hp =>
    obtain ⟨-, -, hbat⟩ := prepareAtomicVoteBatch_ok hp
    cases hbat with
    | recovered hro =>
      obtain ⟨-, _, hrow⟩ := hro vote hv
      rw [hrow] at hc
      cases hc
    | fresh _ hva hpl hvo =>
      have hf := hvo vote hv
      obtain ⟨plan, hpla, _, hd, hst, -, _, _, hre⟩ := hf.planned
      have hsa : captured = plan.state := by
        rw [hst] at hc
        cases hc
        rfl
      refine ⟨?_, ?_, .inr ?_⟩
      · rw [hsa, hd]
        exact requireBallotIntent_ok (planBatch_captured hva hpl hpla).2.2
      · rw [hre, hd]
        rfl
      · obtain ⟨-, -, -, hrow⟩ := loadVotePreparationState_ok (hf.state captured hc)
        rw [hrow]
        exact hf.unsigned

/-- The rows after a cast: as before, or written by a fresh vote. -/
theorem Accepted.row_cases (h : Accepted codec first db db' b votes) {b' : Nat}
    (hrow : db'.domain.vote? b' p = some row') : db.domain.vote? b' p = some row' ∨
      ∃ vote ∈ votes, ∃ captured, vote.captured = .fresh captured ∧ vote.draft.proposalId = p ∧
        captured.ballotIntent = db.domain.intents.get? p ∧ captured.vote = db.domain.vote? b' p ∧
        row'.witnessed = (db.domain.vote? b' p).any VoteRow.witnessed ∧
          row'.choice = vote.draft.choice ∧
        row'.commitmentBundleJson = some (codec.encode vote.recovery) := by
  obtain ⟨-, -, domain, hpe, hdo⟩ := h.persisted
  have hget : domain.votes.get? ⟨b', p⟩ = some row' := by
    rw [vote?, hdo] at hrow
    exact hrow
  rcases hpe.cases ⟨b', p⟩ with hke | ⟨vote, hvo, captured, hca, hkey, hst, hw⟩
  · exact .inl (hke.symm.trans hget)
  obtain ⟨rfl, rfl⟩ := VoteKey.mk.inj hkey
  obtain ⟨-, -, hin, hbe⟩ := loadVotePreparationState_ok hst
  have hrow' := Option.some.inj (hget.symm.trans hw.row)
  refine .inr ⟨vote, hvo, captured, hca, rfl, hin, hbe, ?_, ?_, ?_⟩
  · rw [hrow']
    exact witnessed_writtenRow hw.unwitnessed
  · rw [hrow', choice_writtenRow]
  · rw [hrow', json_writtenRow]

theorem BallotKept.of_cast (h : BallotKept codec db) (hca : Accepted codec first db db' b votes) :
    BallotKept codec db' := by
  obtain ⟨-, hro, domain, hp, hd⟩ := hca.persisted
  have hin : db'.domain.intents = db.domain.intents := by rw [hd, hp.rest]
  have hrou : db'.domain.roundId = db.domain.roundId := by rw [hd, hp.rest]
  have hwa : db'.domain.walletId = db.domain.walletId := by rw [hd, hp.rest]
  refine ⟨?_, ?_, ?_⟩
  · intro b' p recovery hsi
    obtain ⟨json, hj, hpa⟩ := id hsi
    obtain ⟨row, hrow, ht⟩ := Option.bind_eq_some_iff.mp hj
    rcases hca.row_cases hrow with hk | ⟨vote, hv, captured, hc, rfl, -, -, -, -, hwr⟩
    · exact h.proper b' p recovery ⟨json, by rw [recoveryJson, hk]; exact ht, hpa⟩
    · cases ht.symm.trans hwr
      rw [codec.parse_encode hpa]
      exact (hca.fresh hv hc).2.1
  · intro b' p row hrow hbi
    rw [hin]
    rcases hca.row_cases hrow with hk | ⟨vote, hv, captured, hc, -, hinte, -, -, hch, -⟩
    · exact h.agreed b' p row hk hbi
    rw [not_conflicts_iff, hch, ← hinte]
    intro made hma
    rw [(hca.fresh hv hc).1 made hma]
    rfl
  · intro b' p hop
    obtain ⟨row, hrow, hh⟩ := h.held b' p (hop.of_subset hrou hwa (by simp [hro]))
    have hso : (db'.domain.vote? b' p).isSome = true := by
      rw [vote?, hd]
      rcases hp.cases ⟨b', p⟩ with hk | ⟨vote, -, -, -, hkey, -, hwr⟩
      · rw [hk, show db.domain.votes.get? ⟨b', p⟩ = some row from hrow]
        rfl
      · rw [← hkey, PreparedVoteCommit.key]
        rw [show domain.votes.get? _ = _ from hwr.row]
        rfl
    obtain ⟨row', hrow'⟩ := Option.isSome_iff_exists.mp hso
    refine ⟨row', hrow', ?_⟩
    rcases hca.row_cases hrow' with hk | ⟨_, hv, _, hc, -, -, hbe, hw', -, hwr⟩
    · cases hk.symm.trans hrow
      exact hh
    rcases hh with hw | ⟨_, hj, -⟩
    · left
      rw [hw', hrow]
      exact hw
    · -- a member of a batch is written only where nothing was signed
      right
      refine ⟨_, hwr, fun recovery hpa => ?_⟩
      rw [codec.parse_encode hpa]
      rcases (hca.fresh hv hc).2.2 with hal | hu
      · exact hal
      · rw [hbe, hrow, Option.bind_some, hj] at hu
        cases hu

/-! ### Runs -/

/-- One committed write to the database, as it concerns the votes, the ballot and the
submissions of the round. -/
inductive BallotStep (codec : RecoveryCodec J) (H : BatchSighash) (wire : GenerationWire J)
    (events : EventValidation) (db db' : VotingDb J) : Prop where
  | edit (h : EditStep codec H wire db db')
  | cast (first : RoundTables J) (b : Nat) (votes : List (PreparedVoteCommit J))
      (h : Accepted codec first db db' b votes)
  | transaction (h : StoreTransaction (votingTables codec H wire events) db db')
  | retire (b : Nat) (roster retired : List Nat)
      (h : retireUndispatchedVotesOutsideRoster codec H db b roster = .ok (retired, db'))
  /-- Any other write: it leaves the ballot, and deletes votes only with a bundle that has
  no submission. Other rounds may change. -/
  | other (hrou : db'.domain.roundId = db.domain.roundId)
      (hwa : db'.domain.walletId = db.domain.walletId)
      (hintents : db'.domain.intents = db.domain.intents)
      (hrows : ∀ b, ∀ submission ∈ db'.submissions, onBundle db b submission = true →
        submission ∈ db.submissions)
      (hvotes : ∀ key row, db'.domain.votes.get? key = some row →
        db.domain.votes.get? key = some row)
      (hpruned : ∀ key, db'.domain.votes.get? key ≠ db.domain.votes.get? key →
        ∀ submission ∈ db.submissions, onBundle db key.bundleIndex submission = false)
  | clearRound (hvotes : ∀ key, db'.domain.votes.get? key = none)
      (hrows : ∀ b, ∀ submission ∈ db'.submissions, onBundle db' b submission = false)

omit [DecidableEq J] in
theorem BallotKept.of_nothing (hv : ∀ key, db.domain.votes.get? key = none)
    (hro : ∀ b, ∀ submission ∈ db.submissions, onBundle db b submission = false) :
    BallotKept codec db := by
  refine ⟨?_, ?_, ?_⟩
  · rintro b p _ ⟨_, hjs, -⟩
    simp [recoveryJson, vote?, hv] at hjs
  · intro b p row hrow
    simp [vote?, hv] at hrow
  · rintro b p ⟨submission, hmem, hon, -⟩
    rw [hro b submission hmem] at hon
    cases hon

theorem BallotKept.step (h : BallotKept codec db) (hst : BallotStep codec H wire events db db') :
    BallotKept codec db' := by
  cases hst with
  | edit hed => exact h.of_edit hed
  | cast _ _ _ hca => exact h.of_cast hca
  | transaction htr => exact h.of_transaction htr.effect
  | retire _ _ _ hre => exact h.of_retirement hre
  | other hrou hwa hin hr hv hp =>
    refine ⟨?_, ?_, ?_⟩
    · rintro b p recovery ⟨json, hjs, hpa⟩
      obtain ⟨row, hrow, hte⟩ := Option.bind_eq_some_iff.mp hjs
      refine h.proper b p recovery ⟨json, ?_, hpa⟩
      rw [recoveryJson, show db.domain.vote? b p = some row from hv _ row hrow]
      exact hte
    · intro b p row hrow hbi
      rw [hin]
      exact h.agreed b p row (hv _ row hrow) hbi
    · rintro b p ⟨submission, hmem, hon, hres⟩
      rw [onBundle, holdsRound_congr hrou hwa] at hon
      have hold := hr b submission hmem hon
      obtain ⟨row, hrow, hhe⟩ := h.held b p ⟨submission, hold, hon, hres⟩
      refine ⟨row, ?_, hhe⟩
      by_contra hne
      have hp := hp ⟨b, p⟩ (fun heq => hne (heq.trans hrow)) submission hold
      rw [onBundle, hon] at hp
      cases hp
  | clearRound hv hr => exact .of_nothing hv hr

theorem BallotKept.run {start : VotingDb J} (h : BallotKept codec start)
    (hrun : Relation.ReflTransGen (BallotStep codec H wire events) start db) :
    BallotKept codec db := by
  induction hrun with
  | refl => exact h
  | tail _ hst ih => exact ih.step hst

end

end ZcashVoting.Voting
