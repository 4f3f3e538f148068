import ZcashVoting.Voting.BallotAgreement
import ZcashVoting.Voting.PlannableEdits

/-!
# Confirmations and the ballot

A confirmation by hash reads the ballot once for each of its votes. Where the votes agree
with the ballot it does what it would do on an empty ballot, failures included. In every
run the votes of an open submission do agree.
-/
namespace ZcashVoting.Voting

open ChainSubmission RoundPlanning KeyedData RoundTables List RoundTables

variable {J : Type} {codec : RecoveryCodec J} {H : BatchSighash} {wire : GenerationWire J}
  {events : EventValidation} {t t' : RoundTables J} {db db' : VotingDb J} {b p : Nat}
  {intents : KeyedMap Nat Decision}

/-! ### Tables with another ballot -/

/-- The tables with the ballot replaced. -/
def RoundTables.withBallot (intents : KeyedMap Nat Decision) (t : RoundTables J) : RoundTables J :=
  { t with intents }

/-- The ballot does not decide against the vote, if there is one. -/
def Passes (intents : KeyedMap Nat Decision) (t : RoundTables J) (b p : Nat) : Prop :=
  ∀ row, t.vote? b p = some row → ballotRelation intents p row.choice ≠ .conflicts

variable {txHash : Option String} {position vanPosition vcPosition : Nat} {digest : Bytes32}
  {confirmation : ValidatedChainSubmissionConfirmation} {derived : DerivedChainSubmission}
  {keys : VoteKey → Prop}

/-! ### Tables a confirmation cannot tell apart -/

/-- Related tables read the same for a confirmation of votes in `keys`, and its writes keep
them related. -/
structure Alike (keys : VoteKey → Prop) (R : RoundTables J → RoundTables J → Prop) : Prop where
  roundId : ∀ {t t'}, R t t' → t'.roundId = t.roundId
  walletId : ∀ {t t'}, R t t' → t'.walletId = t.walletId
  bundles : ∀ {t t'}, R t t' → t'.bundles = t.bundles
  vote : ∀ {t t' b p}, R t t' → keys ⟨b, p⟩ → t'.vote? b p = t.vote? b p
  ballot : ∀ {t t' b p}, R t t' → keys ⟨b, p⟩ →
    t'.ensureVoteSubmissionMatchesBallotIntent b p = t.ensureVoteSubmissionMatchesBallotIntent b p
  setVote : ∀ {t t' b p row row'}, R t t' → t.vote? b p = some row → row'.choice = row.choice →
    R (t.setVote b p row') (t'.setVote b p row')
  setBundle : ∀ {t t' b bundle}, R t t' → R (t.setBundle b bundle) (t'.setBundle b bundle)

/-- The batch reads the same in both tables, and its votes are in `keys`. -/
def ReadsBatch (codec : RecoveryCodec J) (H : BatchSighash) (strict : Prop)
    (keys : VoteKey → Prop) (b : Nat) (digest : Bytes32) (t t' : RoundTables J) : Prop :=
  Follows strict (fun found found' => found' = found ∧ ∀ member ∈ found,
    keys ⟨b, member.proposalId⟩)
    (t.loadVoteBatchRecoveries codec H b digest) (t'.loadVoteBatchRecoveries codec H b digest)

namespace Alike

variable {R : RoundTables J → RoundTables J → Prop} {strict : Prop} (hR : Alike keys R) (h : R t t')

include hR h

theorem place : t'.place = t.place := by
  funext b p
  unfold RoundTables.place
  rw [hR.roundId h]

theorem bundleRow : t'.bundleRow b = t.bundleRow b := by
  unfold RoundTables.bundleRow
  rw [hR.bundles h, hR.roundId h]

theorem advanceVanPosition :
    Follows strict R (t.advanceVanPosition b position) (t'.advanceVanPosition b position) := by
  unfold RoundTables.advanceVanPosition
  rw [hR.bundleRow h]
  refine .same fun bundle => ?_
  cases bundle.vanLeafPosition with
  | none => exact ⟨_, rfl, hR.setBundle h⟩
  | some =>
    simp only
    split
    · exact fun _ => rfl
    split
    · exact ⟨t', rfl, h⟩
    · exact ⟨_, rfl, hR.setBundle h⟩

theorem storeOptionalTxHash :
    Follows strict R (t.storeOptionalTxHash b txHash) (t'.storeOptionalTxHash b txHash) := by
  cases txHash with
  | none => exact ⟨t', rfl, h⟩
  | some hash =>
    change Follows strict R (t.storeDelegationTxHash b hash) (t'.storeDelegationTxHash b hash)
    unfold storeDelegationTxHash
    rw [hR.bundles h, hR.roundId h, hR.walletId h]
    split
    · exact fun _ => rfl
    split
    · exact fun _ => rfl
    · exact ⟨_, rfl, hR.setBundle h⟩

theorem applyDelegationConfirmation :
    Follows strict R (t.applyDelegationConfirmation b txHash position)
    (t'.applyDelegationConfirmation b txHash position) := by
  unfold RoundTables.applyDelegationConfirmation
  rw [hR.bundleRow h]
  refine .same fun _ => .same fun bundle => .same fun _ => .same fun shouldStore => ?_
  refine (hR.storeOptionalTxHash h).bind fun hashed has' hs => ?_
  cases shouldStore with
  | false => exact ⟨has', rfl, hs⟩
  | true =>
    simp only [if_true]
    rw [hR.bundleRow hs]
    exact .same fun _ => ⟨_, rfl, hR.setBundle hs⟩

section

variable (hkey : keys ⟨b, p⟩)
include hkey

theorem recordOptionalSubmission :
    Follows strict R (t.recordOptionalSubmission b p txHash)
      (t'.recordOptionalSubmission b p txHash) := by
  cases txHash with
  | none => exact ⟨t', rfl, h⟩
  | some =>
    unfold recordOptionalSubmission recordVoteSubmission walletPlace
    rw [hR.ballot h hkey, hR.vote h hkey, hR.roundId h, hR.walletId h]
    refine .same fun _ => ?_
    cases hrow : t.vote? b p with
    | none => exact fun _ => rfl
    | some =>
      simp only
      split
      · exact fun _ => rfl
      · exact ⟨_, rfl, hR.setVote h hrow rfl⟩

theorem requireVoteRecoveryJson :
    t'.requireVoteRecoveryJson b p = t.requireVoteRecoveryJson b p := by
  unfold RoundTables.requireVoteRecoveryJson voteNotFound
  rw [hR.vote h hkey, hR.place h]

theorem recordVcPosition : Follows strict R (t.recordVcPosition codec b p position)
    (t'.recordVcPosition codec b p position) := by
  have hjs : t'.positionedJson codec = t.positionedJson codec := by
    funext b p position row
    unfold positionedJson validateRecoveryMatchesStoredVote recoveryMismatch
    rw [hR.place h, hR.roundId h]
  unfold RoundTables.recordVcPosition checkStoredPosition voteNotFound
  rw [hR.vote h hkey, hR.place h, hjs]
  split
  · exact fun _ => rfl
  cases hrow : t.vote? b p with
  | none => exact fun _ => rfl
  | some => exact .same fun _ => .same fun _ => ⟨_, rfl, hR.setVote h hrow rfl⟩

theorem applyVoteConfirmation :
    Follows strict R (t.applyVoteConfirmation codec b p txHash vanPosition vcPosition)
    (t'.applyVoteConfirmation codec b p txHash vanPosition vcPosition) := by
  have hsi : t'.ensureSingletonVoteUpdate codec b p = t.ensureSingletonVoteUpdate codec b p := by
    unfold ensureSingletonVoteUpdate recoveryJson
    rw [hR.vote h hkey]
  unfold RoundTables.applyVoteConfirmation
  rw [hsi]
  refine .same fun _ => .same fun _ => .same fun _ => .same fun _ => ?_
  refine (hR.recordOptionalSubmission h hkey).bind fun hashed has' hs => ?_
  rw [hR.requireVoteRecoveryJson hs hkey]
  refine .same fun _ => (hR.advanceVanPosition hs).bind fun advanced advanced' hsa' => ?_
  exact hR.recordVcPosition hsa' hkey

end

theorem confirmMember {member : VoteRecoveryBundle × Nat} (hkey : keys ⟨b, member.1.proposalId⟩) :
    Follows strict R (confirmMember codec b txHash t member)
      (confirmMember codec b txHash t' member) := by
  refine (hR.recordOptionalSubmission h hkey).bind fun hashed has' hs => ?_
  rw [hR.requireVoteRecoveryJson hs hkey]
  exact .same fun _ => hR.recordVcPosition hs hkey

theorem applyVoteBatchConfirmation {vcPositions proposalIds : List Nat}
    (hlo : ReadsBatch codec H strict keys b digest t t') :
    Follows strict R (t.applyVoteBatchConfirmation codec H b digest txHash vanPosition vcPositions proposalIds)
      (t'.applyVoteBatchConfirmation codec H b digest txHash vanPosition vcPositions proposalIds) := by
  unfold RoundTables.applyVoteBatchConfirmation
  refine .same fun _ => .same fun _ => .same fun _ => hlo.bind ?_
  rintro _ recoveries ⟨rfl, hke⟩
  split
  · exact fun _ => rfl
  split
  · exact fun _ => rfl
  refine (Follows.foldlM h fun member hmem st st' hst => ?_).bind fun _ _ hsa =>
    hR.advanceVanPosition hsa
  exact hR.confirmMember hst (hke member.1 (of_mem_zip hmem).1)

/-- A confirmation of votes in `keys` does the same to tables it cannot tell apart. -/
theorem applyConfirmedGeneration (hvo : ∀ q, derived.generation.identity.target = .vote q →
      keys ⟨derived.generation.identity.bundleIndex, q⟩)
    (hba : ∀ digest, derived.generation.identity.target.batchDigest = some digest →
      ReadsBatch codec H strict keys derived.generation.identity.bundleIndex digest t t') :
    Follows strict R (applyConfirmedGeneration codec H t derived confirmation)
      (Voting.applyConfirmedGeneration codec H t' derived confirmation) := by
  have hb : ∀ digest commitments positions,
    derived.generation.identity.target.batchDigest = some digest →
      Follows strict R (applyConfirmedGeneration.batch codec H t derived confirmation digest commitments positions)
        (applyConfirmedGeneration.batch codec H t' derived confirmation digest commitments positions) := by
    intro digest commitments positions hdi
    unfold applyConfirmedGeneration.batch
    split
    · exact fun _ => rfl
    refine (hR.applyVoteBatchConfirmation h (hba digest hdi)).bind fun confirmed confirmed' hs => ?_
    unfold storeCombinedHash
    split
    · exact hR.storeOptionalTxHash hs
    · exact ⟨confirmed', rfl, hs⟩
  unfold Voting.applyConfirmedGeneration
  simp only
  split
  · exact hR.applyDelegationConfirmation h
  · rename_i q _ _ _ ht _ _
    exact hR.applyVoteConfirmation h (hvo q ht)
  · rename_i ht _
    exact hb _ _ _ (by rw [ht]; rfl)
  · rename_i ht _
    exact hb _ _ _ (by rw [ht]; rfl)
  · exact fun _ => rfl

end Alike

/-- The tables with another ballot, where the one is silent and the other passes the votes in
`keys`. -/
structure Balloted (intents : KeyedMap Nat Decision) (keys : VoteKey → Prop)
    (t t' : RoundTables J) : Prop where
  silent : ∀ q, t.intents.get? q = none
  passes : ∀ b p, keys ⟨b, p⟩ → Passes intents t b p
  eq : t' = t.withBallot intents

theorem ensureMatches_of_passes (h : Passes t.intents t b p) :
    t.ensureVoteSubmissionMatchesBallotIntent b p = .ok () := by
  unfold ensureVoteSubmissionMatchesBallotIntent
  cases hrow : t.vote? b p with
  | none => cases t.intents.get? p <;> rfl
  | some row =>
    have hpa := not_conflicts_iff.mp (h row hrow)
    cases hma : t.intents.get? p with
    | none => rfl
    | some made =>
      have hc := hpa made hma
      cases made with
      | skipped => cases hc
      | choice => simp [(Option.some.inj hc).symm]

theorem alike_balloted : Alike (J := J) keys (Balloted intents keys) where
  roundId h := by rw [h.eq]; rfl
  walletId h := by rw [h.eq]; rfl
  bundles h := by rw [h.eq]; rfl
  vote h _ := by rw [h.eq]; rfl
  ballot {t t' b p} h hkey := by
    have hsi : Passes t.intents t b p := fun row _ => not_conflicts_iff.mpr fun made hm => by
      rw [h.silent] at hm
      cases hm
    rw [h.eq, ensureMatches_of_passes hsi]
    exact ensureMatches_of_passes (t := t.withBallot intents) (h.passes b p hkey)
  setVote {t t' b p row row'} h hrow hch := by
    refine ⟨h.silent, fun b' p' hkey found hf => ?_, by rw [h.eq]; rfl⟩
    by_cases hs : (⟨b', p'⟩ : VoteKey) = ⟨b, p⟩
    · cases hs
      rw [vote?_setVote] at hf
      rw [← Option.some.inj hf, hch]
      exact h.passes b p hkey row hrow
    · rw [vote?, votes_setVote_of_ne hs] at hf
      exact h.passes b' p' hkey found hf
  setBundle h := ⟨h.silent, h.passes, by rw [h.eq]; rfl⟩

/-- Tables that differ in helper shares, combined authorizations and votes outside `keys`. -/
structure SameUnit (keys : VoteKey → Prop) (t t' : RoundTables J) : Prop where
  votes : ∀ key, keys key → t'.votes.get? key = t.votes.get? key
  rest : t' = { t with
    votes := t'.votes, shares := t'.shares, authorizations := t'.authorizations }

theorem alike_sameUnit : Alike (J := J) keys (SameUnit keys) where
  roundId h := by rw [h.rest]
  walletId h := by rw [h.rest]
  bundles h := by rw [h.rest]
  vote h hkey := h.votes _ hkey
  ballot {t t' b p} h hkey := by
    unfold ensureVoteSubmissionMatchesBallotIntent walletPlace
    rw [show t'.vote? b p = t.vote? b p from h.votes _ hkey, h.rest]
  setVote {t t' b p row row'} h _ _ := by
    refine ⟨fun key hkey => ?_, by rw [setVote, setVote, h.rest]⟩
    by_cases hs : key = ⟨b, p⟩
    · subst hs
      exact vote?_setVote.trans vote?_setVote.symm
    · rw [votes_setVote_of_ne hs, votes_setVote_of_ne hs]
      exact h.votes key hkey
  setBundle h := ⟨h.votes, by rw [setBundle, setBundle, h.rest]⟩

/-! ### Runs -/

def noBallot : KeyedMap Nat Decision := .empty

/-- Every member of a stored batch agrees with the ballot. -/
theorem BallotKept.batch_passes (h : BallotKept codec db) {recoveries : List VoteRecoveryBundle}
    (hlo : db.domain.loadVoteBatchRecoveries codec H b digest = .ok recoveries)
    {member : VoteRecoveryBundle} (hmem : member ∈ recoveries) :
    Passes db.domain.intents db.domain b member.proposalId := by
  intro row hrow
  obtain ⟨_, ⟨_, hj, -⟩, -⟩ := (mem_batchProposals h.proper hlo).mp (mem_map_of_mem hmem)
  refine h.agreed b _ row hrow ?_
  rw [recoveryJson, hrow, Option.bind_some] at hj
  simp [VoteRow.binding, hj]

theorem BallotKept.vote_passes (h : BallotKept codec db) (hop : OpenVote db b p) :
    Passes db.domain.intents db.domain b p := by
  intro row hrow
  obtain ⟨_, hfo, hhe⟩ := h.held b p hop
  cases hfo.symm.trans hrow
  refine h.agreed b p row hrow ?_
  rcases hhe with hw | hal
  · simp [VoteRow.binding, hw]
  · exact hal.binding

/-- A submission of the round that is neither rejected nor confirmed. -/
structure OpenSubmission (db : VotingDb J) (submission : StoredChainSubmission) : Prop where
  mem : submission ∈ db.submissions
  round : db.domain.holdsRound submission.identity.roundId submission.identity.walletId = true
  unresolved : submission.state.isUnresolved = true

section

variable {submission : StoredChainSubmission} {derived : DerivedChainSubmission}
  {cleared : List VoteKey} {decision : Option Decision}

theorem OpenSubmission.onBundle (h : OpenSubmission db submission) :
    onBundle db submission.identity.bundleIndex submission = true := by
  simp [Voting.onBundle, h.round]

theorem OpenSubmission.openVote (h : OpenSubmission db submission)
    (hta : submission.identity.target = .vote p) : OpenVote db submission.identity.bundleIndex p :=
  ⟨submission, h.mem, h.onBundle, hta, h.unresolved⟩

/-- The confirmation of an open submission comes out as on an empty ballot. -/
theorem BallotKept.confirmation_eq (h : BallotKept codec db) (hop : OpenSubmission db submission)
    (hde : derived.generation.identity = submission.identity)
    (confirmation : ValidatedChainSubmissionConfirmation) :
    applyConfirmedGeneration codec H db.domain derived confirmation =
      withBallot db.domain.intents <$>
        applyConfirmedGeneration codec H (db.domain.withBallot noBallot) derived confirmation := by
  let keys : VoteKey → Prop := fun key =>
    Passes db.domain.intents db.domain key.bundleIndex key.proposalId
  have hba : Balloted db.domain.intents keys (db.domain.withBallot noBallot) db.domain :=
    ⟨fun _ => rfl, fun _ _ hkey => hkey, rfl⟩
  have hf : Follows True (Balloted db.domain.intents keys)
      (applyConfirmedGeneration codec H (db.domain.withBallot noBallot) derived confirmation)
      (applyConfirmedGeneration codec H db.domain derived confirmation) := by
    refine alike_balloted.applyConfirmedGeneration hba (fun q ht => ?_) fun digest _ => ?_
    · rw [hde] at ht ⊢
      exact h.vote_passes (hop.openVote ht)
    · refine .of_cases (fun recoveries hl => ⟨recoveries, hl, rfl, fun member hme => ?_⟩)
        fun _ _ he => he
      exact h.batch_passes hl hme
  cases hp :
    applyConfirmedGeneration codec H (db.domain.withBallot noBallot) derived confirmation with
  | error =>
    rw [hp] at hf
    exact hf trivial
  | ok =>
    rw [hp] at hf
    obtain ⟨_, hr', hsa⟩ := hf
    rw [hr', hsa.eq]
    rfl

theorem Edited.keeps_openVote (h : Edited codec db db' p decision t' cleared)
    (hke : BallotKept codec db) {q : Nat} (ho : OpenVote db b q) : ⟨b, q⟩ ∉ cleared := by
  intro hin
  obtain ⟨_, hrow, hhe⟩ := hke.held b q ho
  rcases hhe with hw | hal
  · have hu := h.invalidated.clears.unrecorded _ hin
    rw [recorded, hrow, Option.any_some, hw] at hu
    cases hu
  · obtain ⟨recovery, -, -, -, hfr, hun⟩ := h.invalidated.origin _ hin
    exact Unowned.not_alone ⟨p, recovery, hfr, hun⟩ ho hrow hal

theorem Edited.keeps_openBatch (h : Edited codec db db' p decision t' cleared)
    (ho : OpenSubmission db submission) {D : Bytes32}
    (hd : submission.identity.target.batchDigest = some D) :
    LeavesBatch codec db.domain cleared submission.identity.bundleIndex D := by
  intro q member hm hD hin
  obtain ⟨recovery, hsi, -, -, hfr, hu⟩ := h.invalidated.origin _ hin
  have hna : NamesVote submission p (batchDigestOf recovery) := by
    refine .inr ⟨by rw [hd]; rfl, ?_⟩
    cases hk : batchDigestOf recovery with
    | none =>
      simp only [InUnit, hk] at hu
      rw [hu] at hm
      rw [← hm.unique hsi, hk] at hD
      cases hD
    | some =>
      simp only [InUnit, hk] at hu
      obtain ⟨_, hot, hD'⟩ := hu
      rw [hm.unique hot, hD] at hD'
      rw [hd, hD']
  exact hfr (executorOwned_iff.mpr ⟨_, ho.mem, ho.onBundle, hna, .inl ho.unresolved⟩)

/-- An accepted edit leaves the confirmation of an open submission recordable. -/
theorem BallotKept.stays_recordable (h : BallotKept codec db) (ho : OpenSubmission db submission)
    (hd : derived.generation.identity = submission.identity) (hed : EditStep codec H wire db db')
    (hok : applyConfirmedGeneration codec H db.domain derived confirmation = .ok t) :
    ∃ t', applyConfirmedGeneration codec H db'.domain derived confirmation = .ok t' := by
  obtain ⟨_, _, _, cleared, he⟩ := hed.edited h.proper
  have ht := he.trims
  have hop' : OpenSubmission db' submission := by
    refine ⟨he.submissions ▸ ho.mem, ?_, ho.unresolved⟩
    rw [holdsRound_congr ht.roundId ht.walletId]
    exact ho.round
  rw [h.confirmation_eq ho hd] at hok
  obtain ⟨r, hr⟩ : ∃ r, applyConfirmedGeneration codec H (db.domain.withBallot noBallot) derived
      confirmation = .ok r := by
    cases hpl :
      applyConfirmedGeneration codec H (db.domain.withBallot noBallot) derived confirmation with
    | error => rw [hpl] at hok; cases hok
    | ok r => exact ⟨r, rfl⟩
  have hsa : SameUnit (· ∉ cleared) (db.domain.withBallot noBallot)
      (db'.domain.withBallot noBallot) := by
    refine ⟨fun key hkey => ht.vote?_of_kept hkey, ?_⟩
    rw [withBallot, withBallot, ht.rest]
  have hf : Follows False (SameUnit (· ∉ cleared))
      (applyConfirmedGeneration codec H (db.domain.withBallot noBallot) derived confirmation)
      (applyConfirmedGeneration codec H (db'.domain.withBallot noBallot) derived confirmation) := by
    refine alike_sameUnit.applyConfirmedGeneration hsa (fun q hta => ?_) fun digest hdi => ?_
    · rw [hd] at hta ⊢
      exact he.keeps_openVote h (ho.openVote hta)
    · rw [hd] at hdi ⊢
      have hl := he.keeps_openBatch ho hdi
      refine .of_cases (fun recoveries hlo => ?_) False.elim
      have hlo' := loadVoteBatchRecoveries_kept ht h.proper hl hlo
      refine ⟨recoveries, hlo', rfl, fun member hme => ?_⟩
      obtain ⟨found, hfo, hD⟩ := (mem_batchProposals h.proper hlo).mp (mem_map_of_mem hme)
      exact hl _ found hfo hD
  rw [hr] at hf
  obtain ⟨_, hr', -⟩ := hf
  rw [(h.of_edit hed).confirmation_eq hop' hd, hr']
  exact ⟨_, rfl⟩

/-- In every run of a round, the confirmation of a submission that is neither rejected nor
confirmed comes out as it would on an empty ballot, on which the check of the ballot never
fails. An accepted edit leaves it recordable. -/
theorem confirmation_ignores_ballot [DecidableEq J] {start : VotingDb J}
    (hvotes : ∀ key, start.domain.votes.get? key = none)
    (hrows : ∀ b, ∀ row ∈ start.submissions, Voting.onBundle start b row = false)
    (hrun : Relation.ReflTransGen (BallotStep codec H wire events) start db)
    (hopen : OpenSubmission db submission)
    (hderived : derived.generation.identity = submission.identity)
    (confirmation : ValidatedChainSubmissionConfirmation) :
    applyConfirmedGeneration codec H db.domain derived confirmation =
      withBallot db.domain.intents <$>
          applyConfirmedGeneration codec H (db.domain.withBallot noBallot) derived confirmation ∧
      ∀ db', EditStep codec H wire db db' → ∀ t,
        applyConfirmedGeneration codec H db.domain derived confirmation = .ok t →
        ∃ t', applyConfirmedGeneration codec H db'.domain derived confirmation = .ok t' := by
  have hk : BallotKept codec db := (BallotKept.of_nothing hvotes hrows).run hrun
  exact ⟨hk.confirmation_eq hopen hderived confirmation,
    fun db' hed t hok => hk.stays_recordable hopen hderived hed hok⟩

end

/-! ### An edit while a vote is submitted -/

/-- A round with its ballot and nothing cast. -/
def freshDb : VotingDb VoteRecoveryBundle := ⟨[], plainTables .empty []⟩

/-- A vote is cast and submitted, then the voter skips another proposal. -/
def editWhileSubmitted (start : VotingDb VoteRecoveryBundle) :
    Option (VotingDb VoteRecoveryBundle) := do
  let (_, cast) ← (castOn start (plainDraft false)).toOption
  let (_, submitted) ← (admitSubmission (votingTables plainCodec sampleSighash plainWire plainEvents)
    sampleVote true 1 10 cast).toOption
  (writeBallotIntentInTx plainCodec sampleSighash submitted 2 .skipped).toOption

theorem reach_of_editWhileSubmitted {start db : VotingDb VoteRecoveryBundle}
    (h : editWhileSubmitted start = some db) :
    Relation.ReflTransGen (BallotStep plainCodec sampleSighash plainWire plainEvents) start db := by
  obtain ⟨⟨_, _⟩, hca, h⟩ := Option.bind_eq_some_iff.mp h
  obtain ⟨⟨_, _⟩, had, h⟩ := Option.bind_eq_some_iff.mp h
  exact ((Relation.ReflTransGen.single (.cast _ 0 _ (castOn_ok (except_of_toOption hca)))).tail
    (.transaction (.admitSubmission _ _ _ _ _ (except_of_toOption had)))).tail
      (.edit (.write (except_of_toOption h)))

theorem editWhileSubmitted_state : (editWhileSubmitted freshDb).map (fun db =>
    (db.submissions.map fun row => (row.identity, row.state), db.domain.roundId, db.domain.walletId,
      db.domain.intents.get? 2)) =
    some ([(sampleIdentity (.vote 1), .submitting)], (sampleIdentity .delegation).roundId, "wallet",
      some .skipped) := by
  decide +kernel

/-- The vote is submitted and unresolved after the edit, and its confirmation is recorded
as on an empty ballot. -/
theorem confirmation_ignores_ballot_edited : ∃ db submission,
    Relation.ReflTransGen (BallotStep plainCodec sampleSighash plainWire plainEvents) freshDb db ∧
    db.domain.intents.get? 2 = some .skipped ∧ OpenSubmission db submission ∧
    submission.identity = sampleIdentity (.vote 1) ∧
    ∀ derived confirmation, derived.generation.identity = sampleIdentity (.vote 1) →
      applyConfirmedGeneration plainCodec sampleSighash db.domain derived confirmation =
        withBallot db.domain.intents <$> applyConfirmedGeneration plainCodec sampleSighash
          (db.domain.withBallot noBallot) derived confirmation := by
  obtain ⟨db, hdb, hs⟩ := Option.map_eq_some_iff.mp editWhileSubmitted_state
  simp only [Prod.mk.injEq] at hs
  obtain ⟨hsu, hro, hwa, hsk⟩ := hs
  obtain ⟨submission, hrow, hsub⟩ := map_eq_singleton_iff.mp hsu
  obtain ⟨hid, hsubm⟩ := Prod.mk.inj hsub
  have hrun := reach_of_editWhileSubmitted hdb
  have ho : OpenSubmission db submission := by
    refine ⟨by simp [hrow], ?_, by rw [hsubm]; rfl⟩
    rw [holdsRound, hro, hwa, hid]
    decide +kernel
  refine ⟨db, submission, hrun, hsk, ho, hid, fun derived confirmation hde => ?_⟩
  exact (confirmation_ignores_ballot (fun _ => rfl) (fun _ _ h => by cases h) hrun ho
    (hde.trans hid.symm) confirmation).1

end ZcashVoting.Voting
