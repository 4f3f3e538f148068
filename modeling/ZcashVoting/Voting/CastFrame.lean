import ZcashVoting.Voting.Preparation

/-!
# What a cast writes

A persisted cast writes the rows of its fresh votes and no other. `Wrote` is the effect
of one fresh vote on its row and its helper shares, `Persisted` that of the whole loop.
-/
namespace ZcashVoting.Voting

open ChainSubmission RoundPlanning KeyedData List PreparedVoteCommit

variable {J : Type} {codec : RecoveryCodec J} {t t' : RoundTables J} {b p : Nat}

/-! ### One row -/

variable {choice : Nat} {commitment : String} {json : J} {recovery : VoteRecoveryBundle}
  {draft : DraftVote} {before : Option (VoteRow J)}

namespace RoundTables

variable {row : VoteRow J}

@[simp] theorem vote?_setVote : (t.setVote b p row).vote? b p = some row := by
  simp [vote?, setVote]

theorem votes_setVote_of_ne {key : VoteKey} (h : key ≠ ⟨b, p⟩) :
    (t.setVote b p row).votes.get? key = t.votes.get? key :=
  KeyedMap.get?_set_of_ne h

theorem voteShares_otherShares {key key' : VoteKey} (h : key' ≠ key) :
    ({ t with shares := t.otherShares key }).voteShares key' = t.voteShares key' := by
  unfold voteShares otherShares
  rw [filter_filter]
  apply filter_congr
  intro share _
  by_cases hs : (⟨share.bundleIndex, share.proposalId⟩ : VoteKey) = key'
  · simp [hs, h]
  · simp [hs]

/-- The vote is stored with this choice and commitment. -/
def Stores (row : VoteRow J) (choice : Nat) (commitment : String) : Prop :=
  row.choice = choice ∧ row.commitment = some commitment

instance {row : VoteRow J} {choice : Nat} {commitment : String} :
    Decidable (Stores row choice commitment) :=
  inferInstanceAs (Decidable (_ ∧ _))

/-- What a committed `store_vote` did: nothing, an insertion or a replacement. -/
inductive StoreVoteEffect (t t' : RoundTables J) (b p choice : Nat)
    (commitment : String) : Prop where
  | unchanged {row : VoteRow J} (hrow : t.vote? b p = some row)
      (hsame : Stores row choice commitment)
      (ht : t' = t)
  | inserted (hrow : t.vote? b p = none) (ht : t' = t.setVote b p ⟨choice, some commitment, none, none, none⟩)
  | replaced {row : VoteRow J} (hrow : t.vote? b p = some row)
      (hdiff : ¬ Stores row choice commitment) (hfree : row.witnessed = false)
      (ht : t' = { t.setVote b p ⟨choice, some commitment, none, none, none⟩ with
        shares := t.otherShares ⟨b, p⟩ })

theorem storeVote_ok (h : t.storeVote b p choice commitment = .ok t') :
    StoreVoteEffect t t' b p choice commitment := by
  unfold storeVote at h
  cases hrow : t.vote? b p with
  | none =>
    rw [hrow] at h
    exact .inserted hrow (Except.ok.inj h).symm
  | some row =>
    rw [hrow] at h
    by_cases hs : row.choice = choice ∧ row.commitment = some commitment
    · simp only [if_pos hs] at h
      exact .unchanged hrow hs (Except.ok.inj h).symm
    simp only [if_neg hs] at h
    cases hw : row.witnessed with
    | true => simp [hw] at h
    | false =>
      simp only [hw] at h
      exact .replaced hrow hs hw (Except.ok.inj h).symm

theorem storeRecoveryJsonForVote_ok
    (h : t.storeRecoveryJsonForVote b p choice commitment json = .ok t') :
    ∃ row, t.vote? b p = some row ∧ Stores row choice commitment ∧
      t' = t.setVote b p { row with commitmentBundleJson := some json } := by
  unfold storeRecoveryJsonForVote at h
  cases hrow : t.vote? b p with
  | none => simp [hrow] at h
  | some row =>
    rw [hrow] at h
    by_cases hs : row.choice = choice ∧ row.commitment = some commitment
    · simp only [if_pos hs] at h
      exact ⟨row, rfl, hs, (Except.ok.inj h).symm⟩
    · simp [if_neg hs] at h

end RoundTables

open RoundTables

/-- The row a fresh vote leaves in place of `before`. -/
def writtenRow (before : Option (VoteRow J)) (choice : Nat) (commitment : String) (json : J) :
    VoteRow J :=
  match before with
  | none => ⟨choice, some commitment, none, none, some json⟩
  | some row =>
    if Stores row choice commitment then { row with commitmentBundleJson := some json }
    else ⟨choice, some commitment, none, none, some json⟩

/-- What writing a fresh vote did to its own row and shares. -/
structure RowWritten (codec : RecoveryCodec J) (t t' : RoundTables J) (b : Nat) (draft : DraftVote)
    (recovery : VoteRecoveryBundle) : Prop where
  valid : validateRecoveryBundleVoteFields recovery = .ok ()
  row : t'.vote? b draft.proposalId = some (writtenRow (t.vote? b draft.proposalId) draft.choice
    (storedVoteCommitmentBytes recovery) (codec.encode recovery))
  /-- A stored vote of the same choice and commitment keeps its shares. -/
  shares : ∀ row, t.vote? b draft.proposalId = some row →
    Stores row draft.choice (storedVoteCommitmentBytes recovery) →
    t'.voteShares ⟨b, draft.proposalId⟩ = t.voteShares ⟨b, draft.proposalId⟩
  /-- A replaced vote had no witness. -/
  unwitnessed : ∀ row, t.vote? b draft.proposalId = some row →
    ¬ Stores row draft.choice (storedVoteCommitmentBytes recovery) → row.witnessed = false

/-- The whole effect of writing one fresh vote. -/
structure Wrote (codec : RecoveryCodec J) (t t' : RoundTables J) (b : Nat) (draft : DraftVote)
    (recovery : VoteRecoveryBundle) : Prop extends RowWritten codec t t' b draft recovery where
  others : ∀ key, key ≠ ⟨b, draft.proposalId⟩ →
    t'.votes.get? key = t.votes.get? key ∧ t'.voteShares key = t.voteShares key
  rest : t' = { t with votes := t'.votes, shares := t'.shares }

theorem serializeRecovery_ok (h : serializeRecovery codec recovery = .ok json) :
    validateRecoveryBundleVoteFields recovery = .ok () ∧ json = codec.encode recovery := by
  obtain ⟨_, hva, h⟩ := bind_ok h
  exact ⟨hva, (Except.ok.inj h).symm⟩

theorem writeVote_ok (h : writeVote codec t b draft recovery = .ok t') :
    Wrote codec t t' b draft recovery := by
  obtain ⟨_, hjs, h⟩ := bind_ok h
  obtain ⟨_, hst, h⟩ := bind_ok h
  obtain ⟨hv, rfl⟩ := serializeRecovery_ok hjs
  obtain ⟨after, ha, -, rfl⟩ := storeRecoveryJsonForVote_ok h
  cases storeVote_ok hst with
  | unchanged hrow hs ht =>
    subst ht
    rw [hrow] at ha
    cases ha
    refine ⟨⟨hv, ?_, fun _ _ _ => rfl, ?_⟩, ?_, rfl⟩
    · rw [vote?_setVote, hrow, writtenRow, if_pos hs]
    · intro row hrow' hd
      rw [hrow] at hrow'
      cases hrow'
      exact absurd hs hd
    · intro key hkey
      exact ⟨votes_setVote_of_ne hkey, rfl⟩
  | inserted hrow ht =>
    subst ht
    rw [vote?_setVote] at ha
    cases ha
    refine ⟨⟨hv, ?_, fun _ _ _ => rfl, ?_⟩, ?_, rfl⟩
    · rw [vote?_setVote, hrow, writtenRow]
    · intro row hrow' _
      simp [hrow] at hrow'
    · intro key hkey
      exact ⟨(votes_setVote_of_ne hkey).trans (votes_setVote_of_ne hkey), rfl⟩
  | replaced hrow hd hfr ht =>
    subst ht
    have hset : after =
        ⟨draft.choice, some (storedVoteCommitmentBytes recovery), none, none, none⟩ := by
      simpa [vote?, setVote] using ha.symm
    subst hset
    refine ⟨⟨hv, ?_, ?_, ?_⟩, ?_, rfl⟩
    · rw [vote?_setVote, hrow, writtenRow, if_neg hd]
    · intro row hrow' hs
      rw [hrow] at hrow'
      cases hrow'
      exact absurd hs hd
    · intro row hrow' _
      rw [hrow] at hrow'
      cases hrow'
      exact hfr
    · intro key hkey
      exact ⟨(votes_setVote_of_ne hkey).trans (votes_setVote_of_ne hkey),
        voteShares_otherShares hkey⟩

theorem witnessed_writtenRow (h : ∀ row, before = some row → ¬ Stores row choice commitment →
      row.witnessed = false) :
    (writtenRow before choice commitment json).witnessed = before.any VoteRow.witnessed := by
  cases before with
  | none => rfl
  | some row =>
    by_cases hs : Stores row choice commitment
    · rw [writtenRow, if_pos hs]
      rfl
    · rw [writtenRow, if_neg hs]
      exact (h row rfl hs).symm

theorem choice_writtenRow : (writtenRow before choice commitment json).choice = choice := by
  cases before with
  | none => rfl
  | some =>
    rw [writtenRow]
    split
    next hsa => exact hsa.1
    · rfl

theorem json_writtenRow :
    (writtenRow before choice commitment json).commitmentBundleJson = some json := by
  cases before with
  | none => rfl
  | some =>
    rw [writtenRow]
    split <;> rfl

theorem Wrote.recorded (h : Wrote codec t t' b draft recovery) (b' q : Nat) :
    t'.recorded b' q = t.recorded b' q := by
  by_cases hkey : (⟨b', q⟩ : VoteKey) = ⟨b, draft.proposalId⟩
  · cases hkey
    rw [RoundTables.recorded, h.row]
    exact witnessed_writtenRow h.unwitnessed
  · rw [RoundTables.recorded, RoundTables.recorded, vote?, vote?, (h.others _ hkey).1]

theorem RowWritten.of_agree {t₁ t₁' : RoundTables J} (h : RowWritten codec t t' b draft recovery)
    (hb : t₁.votes.get? ⟨b, draft.proposalId⟩ = t.votes.get? ⟨b, draft.proposalId⟩ ∧
      t₁.voteShares ⟨b, draft.proposalId⟩ = t.voteShares ⟨b, draft.proposalId⟩)
    (ha : t₁'.votes.get? ⟨b, draft.proposalId⟩ = t'.votes.get? ⟨b, draft.proposalId⟩ ∧
      t₁'.voteShares ⟨b, draft.proposalId⟩ = t'.voteShares ⟨b, draft.proposalId⟩)
    : RowWritten codec t₁ t₁' b draft recovery := by
  have hv : t₁.vote? b draft.proposalId = t.vote? b draft.proposalId := hb.1
  refine ⟨h.valid, ?_, ?_, ?_⟩
  · rw [hv, ← h.row]
    exact ha.1
  · intro row hrow hsa
    rw [ha.2, hb.2]
    exact h.shares row (hv ▸ hrow) hsa
  · intro row hrow
    exact h.unwitnessed row (hv ▸ hrow)

/-! ### The loop -/

def PreparedVoteCommit.key (vote : PreparedVoteCommit J) :
    VoteKey := ⟨vote.bundleIndex, vote.draft.proposalId⟩

section

variable [DecidableEq J]

/-- Persistence accepts only the very state a vote was prepared from. -/
theorem validatePreparedVoteState_ok {captured current : VotePreparationState J}
    (h : validatePreparedVoteState t b p captured current = .ok ()) : current = captured := by
  unfold validatePreparedVoteState at h
  cases hs : (preparationChanges captured current).find? Prod.snd with
  | some => simp [hs] at h
  | none =>
    obtain ⟨_, ⟨_, _, _, _, _, _⟩, _, _, _⟩ := current
    simp only [List.find?_eq_none, preparationChanges, mem_cons, not_mem_nil, or_false,
      forall_eq_or_imp, forall_eq, decide_not, Bool.not_eq_true', decide_eq_false_iff_not,
      Decidable.not_not] at hs
    obtain ⟨rfl, rfl, rfl, rfl, rfl, rfl, rfl, rfl, rfl, rfl⟩ := hs
    rfl

/-- What the body of the loop did: it checked a recovered vote, or wrote a fresh one on
the state it was prepared from. -/
inductive PersistEffect (codec : RecoveryCodec J) (t t' : RoundTables J)
    (vote : PreparedVoteCommit J) : Prop where
  | checked {row : VoteRow J} (hcaptured : vote.captured = .recovered row) (ht : t' = t)
  | written {captured : VotePreparationState J} (hcaptured : vote.captured = .fresh captured)
      (hstate : t.loadVotePreparationState vote.bundleIndex vote.draft.proposalId = .ok captured)
      (hwrote : Wrote codec t t' vote.bundleIndex vote.draft vote.recovery)

theorem persistVote_ok {vote : PreparedVoteCommit J} (h : persistVote codec t vote = .ok t') :
    PersistEffect codec t t' vote := by
  unfold persistVote at h
  cases hc : vote.captured with
  | recovered row =>
    simp only [hc] at h
    by_cases hrow : t.vote? vote.bundleIndex vote.draft.proposalId ≠ some row
    · simp [if_pos hrow] at h
    · rw [if_neg hrow] at h
      exact .checked hc (Except.ok.inj h).symm
  | fresh =>
    simp only [hc] at h
    obtain ⟨_, hcu, hre⟩ := bind_ok h
    obtain ⟨_, hva, hwr⟩ := bind_ok hre
    obtain rfl := validatePreparedVoteState_ok hva
    exact .written hc hcu (writeVote_ok hwr)

/-- The effect of the whole loop, relative to the tables the transaction started on. -/
structure Persisted (codec : RecoveryCodec J) (t t' : RoundTables J)
    (prepared : List (PreparedVoteCommit J)) : Prop where
  written : ∀ vote ∈ prepared, ∀ captured, vote.captured = .fresh captured →
    t.loadVotePreparationState vote.bundleIndex vote.draft.proposalId = .ok captured ∧
      RowWritten codec t t' vote.bundleIndex vote.draft vote.recovery
  kept : ∀ key, (∀ vote ∈ prepared, vote.isFresh = true → vote.key ≠ key) →
    t'.votes.get? key = t.votes.get? key ∧ t'.voteShares key = t.voteShares key
  recorded : ∀ b p, t'.recorded b p = t.recorded b p
  rest : t' = { t with votes := t'.votes, shares := t'.shares }

variable {prepared : List (PreparedVoteCommit J)}

/-- Each fresh vote of the loop is written on its own row, since the keys are distinct. -/
theorem persistVotes_ok (hk : (prepared.map key).Nodup)
    (h : prepared.foldlM (persistVote codec) t = .ok t') : Persisted codec t t' prepared := by
  refine foldlM_ok_induction (fun seen st => Persisted codec t st seen) h
    ⟨by simp, fun _ _ => ⟨rfl, rfl⟩, fun _ _ => rfl, rfl⟩ ?_
  intro seen vote rest st st' hsp ih hste
  have hf : ∀ earlier ∈ seen, earlier.key ≠ vote.key := by
    rw [hsp, map_append, map_cons, nodup_append] at hk
    intro earlier he
    exact hk.2.2 _ (mem_map_of_mem he) _ (by simp)
  cases persistVote_ok hste with
  | checked hc ht =>
    subst ht
    refine ⟨?_, ?_, ih.recorded, ih.rest⟩
    · intro vote' hv' captured hf'
      rcases mem_append.mp hv' with hs | hl
      · exact ih.written vote' hs captured hf'
      · rw [mem_singleton.mp hl, hc] at hf'
        cases hf'
    · intro key hn
      exact ih.kept key fun vote' hv' => hn vote' (by simp [hv'])
  | written hc hst hw =>
    have hown := ih.kept vote.key fun earlier he _ => hf earlier he
    refine ⟨?_, ?_, fun b p => (hw.recorded b p).trans (ih.recorded b p), ?_⟩
    · intro vote' hv' captured' hc'
      rcases mem_append.mp hv' with hs | hl
      · obtain ⟨hlo, hrow⟩ := ih.written vote' hs captured' hc'
        exact ⟨hlo, hrow.of_agree ⟨rfl, rfl⟩ (hw.others _ (hf vote' hs))⟩
      obtain rfl := mem_singleton.mp hl
      rw [hc] at hc'
      cases hc'
      refine ⟨?_, hw.toRowWritten.of_agree ⟨hown.1.symm, hown.2.symm⟩ ⟨rfl, rfl⟩⟩
      rw [← loadVotePreparationState_congr ih.rest (fun q => ih.recorded _ q) hown.1]
      exact hst
    · intro key hn
      have hne : key ≠ ⟨vote.bundleIndex, vote.draft.proposalId⟩ := by
        have hl := hn vote (by simp) (by simp [isFresh, hc])
        exact fun heq => hl heq.symm
      have hs := ih.kept key fun vote' hv' => hn vote' (by simp [hv'])
      exact ⟨(hw.others key hne).1.trans hs.1, (hw.others key hne).2.trans hs.2⟩
    · rw [hw.rest, ih.rest]

omit [DecidableEq J] in
/-- A row is as it was, or a fresh vote was written on it. -/
theorem Persisted.cases (h : Persisted codec t t' prepared) (key : VoteKey) :
    t'.votes.get? key = t.votes.get? key ∨
      ∃ vote ∈ prepared, ∃ captured, vote.captured = .fresh captured ∧ vote.key = key ∧
        t.loadVotePreparationState vote.bundleIndex vote.draft.proposalId = .ok captured ∧
        RowWritten codec t t' vote.bundleIndex vote.draft vote.recovery := by
  by_cases hf : ∀ vote ∈ prepared, vote.isFresh = true → vote.key ≠ key
  · exact .inl (h.kept key hf).1
  push Not at hf
  obtain ⟨vote, hv, his, hkey⟩ := hf
  cases hc : vote.captured with
  | recovered => simp [isFresh, hc] at his
  | fresh captured =>
    obtain ⟨hst, hwr⟩ := h.written vote hv captured hc
    exact .inr ⟨vote, hv, captured, hc, hkey, hst, hwr⟩

/-! ### The transaction -/

theorem persistPreparedCommits_ok {crypto : VotingCrypto J} {db db' : VotingDb J}
    {delegation : Option DelegationAuthorization} (hke : (prepared.map key).Nodup)
    (h : persistPreparedCommits codec crypto db prepared delegation = .ok db') :
    db'.submissions = db.submissions ∧ ∃ domain, Persisted codec db.domain domain prepared ∧
      db'.domain = { domain with authorizations := db'.domain.authorizations } := by
  cases prepared with
  | nil => cases h
  | cons first =>
    obtain ⟨_, -, hfr⟩ := bind_ok h
    obtain ⟨_, -, hco⟩ := bind_ok hfr
    obtain ⟨_, -, hlo⟩ := bind_ok hco
    obtain ⟨domain, hdo, hd⟩ := bind_ok hlo
    have hp := persistVotes_ok hke hdo
    cases delegation with
    | none =>
      cases hd
      exact ⟨rfl, domain, hp, rfl⟩
    | some =>
      cases hb : first.recovery.batch with
      | none => simp [hb, throw, throwThe] at hd
      | some =>
        simp only [hb] at hd
        obtain ⟨_, -, hi⟩ := bind_ok hd
        obtain ⟨-, hi⟩ := guard_ok hi
        cases hi
        exact ⟨rfl, domain, hp, rfl⟩

end

/-! ### Accepted casts -/

/-- A cast that was prepared and persisted: one vote, or a batch. `first` is the read that
looked for stored votes, `db` the database it was persisted on. -/
inductive Accepted [DecidableEq J] (codec : RecoveryCodec J) (first : RoundTables J)
    (db db' : VotingDb J) (b : Nat) : List (PreparedVoteCommit J) → Prop where
  | single {crypto : VotingCrypto J} {secret : List UInt8} {network : Network}
      {reads : CommitReads J} {draft : DraftVote} {witness : VanWitness}
        {vote : PreparedVoteCommit J}
      (hfirst : reads.recovered = first)
      (hprepared : prepareCommit codec crypto secret network reads b draft witness = .ok vote)
      (hpersisted : persistPreparedCommit codec crypto db vote = .ok db') :
      Accepted codec first db db' b [vote]
  | batch {crypto : VotingCrypto J} {secret : List UInt8} {network : Network}
      {reads : BatchReads J} {batch : AtomicVoteBatch} {prepared : PreparedAtomicVoteBatch J}
      (hfirst : reads.captured = first) (hbundle : batch.bundleIndex = b)
      (hprepared : prepareAtomicVoteBatch codec crypto secret network reads batch = .ok prepared)
      (hpersisted : persistPreparedAtomicVoteBatch codec crypto db prepared = .ok db') :
      Accepted codec first db db' b prepared.commitments

end ZcashVoting.Voting
