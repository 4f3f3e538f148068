import ZcashVoting.Voting.CastFrame
import ZcashVoting.ChainSubmission.Exclusion
import ZcashVoting.RoundPlanning.Coverage

/-!
# Casts and protected votes

A vote row is protected when a witness says it reached the chain or an unresolved
submission owns it. The guards of a cast ask for the witnesses but not for ownership:
a draft that differs from the stored vote replaces it even while the submission of that
vote is being tracked.

`cast_keeps_protected_votes_iff` says of the drafts and the stored recoveries when a cast
leaves every protected vote of its bundle as it was.
-/
namespace ZcashVoting.Voting

open ChainSubmission RoundPlanning KeyedData RoundTables List PreparedVoteCommit

variable {J : Type} {codec : RecoveryCodec J} {first : RoundTables J} {db db' : VotingDb J}
  {b p : Nat} {vote : PreparedVoteCommit J} {draft : DraftVote} {row : VoteRow J}

/-- The submission is that of the vote, or of the batch its recovery names. -/
def Owns (codec : RecoveryCodec J) (t : RoundTables J) (identity : ChainSubmissionIdentity)
    (b p : Nat) : Prop :=
  identity.roundId = t.roundId ∧ identity.walletId = t.walletId ∧ identity.bundleIndex = b ∧
    (identity.target = .vote p ∨ ∃ digest json recovery, identity.target.batchDigest = some digest ∧
      t.recoveryJson b p = some json ∧ codec.parseRecovery json = .ok recovery ∧
      recovery.inBatch digest = true)

/-- A submission that may still reach the chain owns the vote. -/
def OwnedUnresolved (codec : RecoveryCodec J) (db : VotingDb J) (b p : Nat) : Prop :=
  ∃ row ∈ db.submissions, row.state.isUnresolved = true ∧ Owns codec db.domain row.identity b p

def Protected (codec : RecoveryCodec J) (db : VotingDb J) (b p : Nat) : Prop :=
  db.domain.recorded b p = true ∨ OwnedUnresolved codec db b p

/-- The vote row keeps its choice, commitment, recovery text and helper shares. -/
def Kept (t t' : RoundTables J) (key : VoteKey) (row : VoteRow J) : Prop :=
  ∃ row', t'.votes.get? key = some row' ∧ row'.choice = row.choice ∧
    row'.commitment = row.commitment ∧ row'.commitmentBundleJson = row.commitmentBundleJson ∧
    t'.voteShares key = t.voteShares key

def KeepsProtected (codec : RecoveryCodec J) (db db' : VotingDb J) (b : Nat) : Prop :=
  ∀ p row, db.domain.vote? b p = some row → Protected codec db b p →
    Kept db.domain db'.domain ⟨b, p⟩ row

/-- The row already is what the vote writes. -/
def AlreadyStores (codec : RecoveryCodec J) (vote : PreparedVoteCommit J)
    (row : VoteRow J) : Prop :=
  Stores row vote.draft.choice (storedVoteCommitmentBytes vote.recovery) ∧
    row.commitmentBundleJson = some (codec.encode vote.recovery)

theorem kept_iff_alreadyStores {t t' : RoundTables J}
    (h : RowWritten codec t t' vote.bundleIndex vote.draft vote.recovery)
    (hrow : t.votes.get? vote.key = some row) : Kept t t' vote.key row ↔
    AlreadyStores codec vote row := by
  have hrow' : t.vote? vote.bundleIndex vote.draft.proposalId = some row := hrow
  have ha := h.row
  rw [hrow', writtenRow] at ha
  constructor
  · intro hke
    obtain ⟨after, hget, hch, hc, hjs, -⟩ := hke
    have heq :
      after = if Stores row vote.draft.choice (storedVoteCommitmentBytes vote.recovery) then
        { row with commitmentBundleJson := some (codec.encode vote.recovery) }
        else ⟨vote.draft.choice, some (storedVoteCommitmentBytes vote.recovery), none, none,
          some (codec.encode vote.recovery)⟩ :=
      Option.some.inj (hget.symm.trans ha)
    split at heq
    · rename_i hsa
      refine ⟨hsa, ?_⟩
      rw [← hjs, heq]
    · rename_i hsa
      rw [heq] at hch hc
      exact absurd ⟨hch.symm, hc.symm⟩ hsa
  · intro hs
    rw [if_pos hs.1] at ha
    exact ⟨_, ha, rfl, rfl, hs.2.symm, h.shares row hrow' hs.1⟩

theorem CommitPrepared.bundleIndex {crypto : VotingCrypto J} {secret : List UInt8}
    {reads : CommitReads J} {witness : VanWitness}
    (h : CommitPrepared codec crypto secret reads b draft witness vote) : vote.bundleIndex = b := by
  cases h <;> rfl

section

variable [DecidableEq J] {votes : List (PreparedVoteCommit J)}

/-- A persisted cast wrote its fresh votes, each of its own proposal of the bundle. -/
theorem Accepted.persisted (h : Accepted codec first db db' b votes) :
    (∀ vote ∈ votes, vote.bundleIndex = b) ∧ db'.submissions = db.submissions ∧
      ∃ domain, Persisted codec db.domain domain votes ∧
        db'.domain = { domain with authorizations := db'.domain.authorizations } := by
  cases h with
  | single _ hpr hp =>
    refine ⟨?_, persistPreparedCommits_ok (by simp) hp⟩
    intro vote hv
    rw [mem_singleton.mp hv]
    exact (prepareCommit_ok hpr).bundleIndex
  | @batch _ _ _ _ _ prepared _ hb hpr hp =>
    obtain ⟨hn, hdr, hba⟩ := prepareAtomicVoteBatch_ok hpr
    have hin : ∀ vote ∈ prepared.commitments, vote.bundleIndex = b := by
      intro vote hv
      cases hba with
      | recovered hro => rw [(hro vote hv).1, hb]
      | fresh _ _ _ hvo => rw [(hvo vote hv).bundleIndex, hb]
    have hke : (prepared.commitments.map key).Nodup := by
      have hpro : (prepared.commitments.map fun vote => vote.draft.proposalId).Nodup := by
        rw [← hdr, map_map] at hn
        exact hn
      apply List.Nodup.of_map VoteKey.proposalId
      rw [map_map]
      exact hpro
    refine ⟨hin, ?_⟩
    obtain ⟨-, hp⟩ := guard_ok hp
    obtain ⟨_, -, hpe⟩ := bind_ok hp
    exact persistPreparedCommits_ok hke hpe

/-- A fresh vote never is the stored one, if the recovery text is still the one the first
read found. -/
theorem Accepted.not_alreadyStores (h : Accepted codec first db db' b votes) (hv : vote ∈ votes)
    (hfr : vote.isFresh = true) (hrow : db.domain.vote? b vote.draft.proposalId = some row)
    (hte : first.recoveryJson b vote.draft.proposalId =
      db.domain.recoveryJson b vote.draft.proposalId) : ¬ AlreadyStores codec vote row := by
  intro hst
  have hj : first.recoveryJson b vote.draft.proposalId = some (codec.encode vote.recovery) := by
    rw [hte, recoveryJson, hrow]
    exact hst.2
  cases h with
  | single hf hp =>
    subst hf
    rw [mem_singleton.mp hv] at hj hfr
    cases prepareCommit_ok hp with
    | recovered => simp [isFresh] at hfr
    | fresh hdi =>
      obtain ⟨_, hpa, hm⟩ := hdi _ hj
      rw [codec.parse_encode hpa] at hm
      simp [recoveryMatchesDraft, recoveryFromParts] at hm
  | batch hf hbu hp =>
    subst hf hbu
    cases (prepareAtomicVoteBatch_ok hp).2.2 with
    | recovered hro =>
      obtain ⟨_, hca⟩ := (hro vote hv).2
      simp [isFresh, hca] at hfr
    | fresh _ _ _ hvo =>
      rw [(hvo vote hv).unsigned] at hj
      cases hj

/-- The cast keeps the protected votes exactly when it writes none of them anew. -/
theorem Accepted.keeps_iff (h : Accepted codec first db db' b votes) :
    KeepsProtected codec db db' b ↔ ∀ vote ∈ votes, vote.isFresh = true → ∀ row,
      db.domain.vote? b vote.draft.proposalId = some row →
      Protected codec db b vote.draft.proposalId → AlreadyStores codec vote row := by
  obtain ⟨hbu, -, domain, hpe, hd⟩ := h.persisted
  have hvo : db'.domain.votes = domain.votes := by rw [hd]
  have hsh : ∀ key, db'.domain.voteShares key = domain.voteShares key := by
    intro key
    rw [hd]
    rfl
  have hk : ∀ key row, Kept db.domain db'.domain key row ↔ Kept db.domain domain key row := by
    intro key row
    unfold Kept
    rw [hvo, hsh]
  -- each fresh vote is judged on its own row
  have hrow : ∀ vote ∈ votes, vote.isFresh = true → ∀ row,
      db.domain.vote? b vote.draft.proposalId = some row →
      (Kept db.domain db'.domain ⟨b, vote.draft.proposalId⟩ row ↔
        AlreadyStores codec vote row) := by
    intro vote hv hf row hget
    cases hc : vote.captured with
    | recovered => simp [isFresh, hc] at hf
    | fresh captured =>
      have hwr := (hpe.written vote hv captured hc).2
      have hkey : (⟨b, vote.draft.proposalId⟩ : VoteKey) = vote.key := by
        rw [key, hbu vote hv]
      rw [hk, hkey]
      apply kept_iff_alreadyStores hwr
      rw [← hkey]
      exact hget
  constructor
  · intro hke vote hv hf row hget hpr
    exact (hrow vote hv hf row hget).mp (hke _ row hget hpr)
  intro hall p row hget hpr
  by_cases hw : ∃ vote ∈ votes, vote.isFresh = true ∧ vote.key = ⟨b, p⟩
  · obtain ⟨vote, hv, hf, hkey⟩ := hw
    have hp : vote.draft.proposalId = p := congrArg VoteKey.proposalId hkey
    subst hp
    exact (hrow vote hv hf row hget).mpr (hall vote hv hf row hget hpr)
  · have hn := hpe.kept ⟨b, p⟩ fun vote hv hf hkey =>
      hw ⟨vote, hv, hf, hkey⟩
    rw [hk]
    exact ⟨row, hn.1.trans hget, rfl, rfl, rfl, hn.2⟩

/-- Every protected stored vote among the drafts is one whose stored recovery is reused. -/
def ReusesProtected (codec : RecoveryCodec J) (db : VotingDb J) (b : Nat)
    (drafts : List DraftVote) (reused : DraftVote → Prop) : Prop :=
  ∀ draft ∈ drafts, (db.domain.vote? b draft.proposalId).isSome = true →
    Protected codec db b draft.proposalId → reused draft

/-- Reuse is enough to keep the protected votes, and needed while the recovery texts are those
of the preparation's first read. -/
structure KeepsExactly (codec : RecoveryCodec J) (first : RoundTables J) (db db' : VotingDb J)
    (b : Nat) (drafts : List DraftVote) (reused : DraftVote → Prop) : Prop where
  enough : ReusesProtected codec db b drafts reused → KeepsProtected codec db db' b
  needed : (∀ p, first.recoveryJson b p = db.domain.recoveryJson b p) →
    KeepsProtected codec db db' b → ReusesProtected codec db b drafts reused

theorem Accepted.keepsExactly {drafts : List DraftVote} {reused : DraftVote → Prop}
    (h : Accepted codec first db db' b votes) (hdr : votes.map PreparedVoteCommit.draft = drafts)
    (hfr : ∀ vote ∈ votes, vote.isFresh = true ↔ ¬ reused vote.draft) :
    KeepsExactly codec first db db' b drafts reused := by
  subst hdr
  constructor
  · intro hall
    refine h.keeps_iff.mpr fun vote hv hf row hget hpr => ?_
    have hre := hall _ (mem_map_of_mem hv) (by rw [hget]; rfl) hpr
    exact absurd hre ((hfr vote hv).mp hf)
  · intro hte hke draft hd hso hpr
    obtain ⟨vote, hv, rfl⟩ := mem_map.mp hd
    obtain ⟨row, hget⟩ := Option.isSome_iff_exists.mp hso
    by_contra hre
    have hf := (hfr vote hv).mpr hre
    exact h.not_alreadyStores hv hf hget (hte _) (h.keeps_iff.mp hke vote hv hf row hget hpr)

/-- **Protected votes.** A single vote reuses a recovery that matches its draft; a batch reuses
the recoveries that are stored, whatever they are. -/
theorem cast_keeps_protected_votes_iff (db : VotingDb J) (b : Nat) :
    (∀ (crypto : VotingCrypto J) secret network reads draft witness vote db',
      prepareCommit codec crypto secret network reads b draft witness = .ok vote →
      persistPreparedCommit codec crypto db vote = .ok db' →
      KeepsExactly codec reads.recovered db db' b [draft]
        (RecoveryMatches codec reads.recovered b)) ∧
    ∀ (crypto : VotingCrypto J) secret network reads batch prepared db', batch.bundleIndex = b →
      prepareAtomicVoteBatch codec crypto secret network reads batch = .ok prepared →
      persistPreparedAtomicVoteBatch codec crypto db prepared = .ok db' →
      KeepsExactly codec reads.captured db db' b batch.drafts
        fun draft => (reads.captured.recoveryJson b draft.proposalId).isSome = true := by
  constructor
  · intro crypto secret network reads draft witness vote db' hp hs
    have ha : Accepted codec reads.recovered db db' b [vote] := .single rfl hp hs
    cases prepareCommit_ok hp with
    | recovered hm =>
      refine ha.keepsExactly rfl fun vote hv => ?_
      rw [mem_singleton.mp hv]
      simp [isFresh, hm]
    | fresh hdi =>
      refine ha.keepsExactly rfl fun vote hv => ?_
      rw [mem_singleton.mp hv]
      simp [isFresh, hdi.not_matches]
  · intro crypto secret network reads batch prepared db' hbu hp hs
    have ha : Accepted codec reads.captured db db' b prepared.commitments := .batch rfl hbu hp hs
    subst hbu
    obtain ⟨-, hdr, hba⟩ := prepareAtomicVoteBatch_ok hp
    refine ha.keepsExactly hdr fun vote hv => ?_
    cases hba with
    | recovered hro hst =>
      obtain ⟨-, _, hrow⟩ := hro vote hv
      simp [isFresh, hrow, hst vote.draft (hdr ▸ mem_map_of_mem hv)]
    | fresh _ _ _ hvo =>
      obtain ⟨_, -, _, -, hca, -⟩ := (hvo vote hv).planned
      simp [isFresh, hca, (hvo vote hv).unsigned]

end

/-! ### A tracked vote -/

/-- Recovery text that is the recovery itself. -/
def plainCodec : RecoveryCodec VoteRecoveryBundle where
  encode := id
  parseRecovery := .ok
  hasBatchMarkers recovery := .ok recovery.batch.isSome
  hasDelegationVan recovery := .ok recovery.delegationVan.isSome
  parse_encode h := (Except.ok.inj h).symm

/-- The mask itself as a note. -/
def maskNote (authority : AuthorityMask) : Bytes32 :=
  Vector.ofFn fun i => UInt8.ofNat (authority.toNat / 256 ^ i.val)

/-- Notes that show their mask, and proofs that show their share mode. -/
def plainCrypto : VotingCrypto VoteRecoveryBundle where
  authorityNote _ authority := maskNote authority
  deriveVoteAuthorityTransition _ proposalId authority :=
    if authority.getLsbD proposalId then
      .ok ⟨maskNote authority, maskNote (clearProposal authority proposalId), authority,
        clearProposal authority proposalId⟩
    else .error (.invalidInput "proposal authority is spent")
  buildVoteProof inputs :=
    if inputs.proposalAuthority.getLsbD inputs.proposalId then
      .ok ⟨zeroBytes32, maskNote (clearProposal inputs.proposalAuthority inputs.proposalId),
        zeroBytes32, [if inputs.singleShare then 1 else 0], [0], [zeroBytes32], zeroBytes32, []⟩
    else .error (.invalidInput "proposal authority is spent")
  buildSharePayloads _ _ := .ok ()
  signCastVote _ _ _ := .ok []
  singleLeafAuthPath _ := .ok (List.replicate vanAuthPathLen zeroBytes32)
  sighash := sampleSighash
  delegationGeneration _ _ := .ok zeroBytes32
  transition_spends {_ proposalId authority plan} h := by
    split at h
    · rename_i hbit
      exact ⟨hbit, (Except.ok.inj h).symm⟩
    · cases h
  proof_spends {inputs bundle} h := by
    by_cases hbit : inputs.proposalAuthority.getLsbD inputs.proposalId = true
    · exact hbit
    · rw [if_neg hbit] at h
      cases h

/-- One delegated bundle with the votes and shares given. -/
def plainTables (votes : KeyedMap VoteKey (VoteRow VoteRecoveryBundle))
    (shares : List ShareDelegationRecord) : RoundTables VoteRecoveryBundle where
  roundId := (sampleIdentity .delegation).roundId
  walletId := "wallet"
  network := .testnet
  eaPk := []
  bundles := .single 0 ⟨some [], some 1, some 0, some 4, some "delegation", false⟩
  votes := votes
  shares := shares
  intents := twoChoices
  authorizations := .empty

def plainWitness : VanWitness := ⟨List.replicate vanAuthPathLen zeroBytes32, 4, 100⟩

def plainReads (t : RoundTables VoteRecoveryBundle) :
    CommitReads VoteRecoveryBundle := ⟨t, t, t, t, t⟩

/-- Casts a draft on tables that do not change meanwhile. -/
def castOn (db : VotingDb VoteRecoveryBundle) (draft : DraftVote) :
    Except VotingError (PreparedVoteCommit VoteRecoveryBundle × VotingDb VoteRecoveryBundle) := do
  let vote ← prepareCommit plainCodec plainCrypto [] .testnet
    (plainReads db.domain) 0 draft plainWitness
  let db' ← persistPreparedCommit plainCodec plainCrypto db vote
  return (vote, db')

theorem castOn_ok {db db' : VotingDb VoteRecoveryBundle}
    {vote : PreparedVoteCommit VoteRecoveryBundle} (h : castOn db draft = .ok (vote, db')) :
    Accepted plainCodec db.domain db db' 0 [vote] := by
  obtain ⟨_, hpr, hre⟩ := bind_ok h
  obtain ⟨_, hpe, hdo⟩ := bind_ok hre
  cases hdo
  exact .single rfl hpr hpe

/-- The draft of a cast, and what it left in its row and shares. -/
def castEffect (db : VotingDb VoteRecoveryBundle) (draft : DraftVote) :
    Except VotingError (DraftVote × Option (VoteRow VoteRecoveryBundle) × List ShareDelegationRecord) :=
  (castOn db draft).map fun (vote, db') => (vote.draft, db'.domain.vote? 0 draft.proposalId,
    db'.domain.voteShares ⟨0, draft.proposalId⟩)

theorem castEffect_ok {db : VotingDb VoteRecoveryBundle} {cast : DraftVote}
    {row : Option (VoteRow VoteRecoveryBundle)} {shares : List ShareDelegationRecord}
    (h : castEffect db draft = .ok (cast, row, shares)) :
    ∃ vote db', Accepted plainCodec db.domain db db' 0 [vote] ∧ vote.draft = cast ∧
      db'.domain.vote? 0 draft.proposalId = row ∧ db'.domain.voteShares ⟨0,
          draft.proposalId⟩ = shares := by
  obtain ⟨result, hca, heq⟩ := map_ok h
  simp only [Prod.mk.injEq] at heq
  exact ⟨result.1, result.2, castOn_ok hca, heq⟩

/-- What is stored for a draft proved on the authority given. -/
def plainRecovery (authority : AuthorityMask) (draft : DraftVote) : VoteRecoveryBundle :=
  recoveryFromParts 0 draft (sampleIdentity .delegation).roundId 100
    ⟨zeroBytes32, maskNote (clearProposal authority draft.proposalId), zeroBytes32,
      [if draft.singleShare then 1 else 0], [0], [zeroBytes32], zeroBytes32, []⟩ []

def plainRow (authority : AuthorityMask) (draft : DraftVote) : VoteRow VoteRecoveryBundle :=
  ⟨draft.choice, some (storedVoteCommitmentBytes (plainRecovery authority draft)), none, none,
    some (plainRecovery authority draft)⟩

/-- Proposal 1 with all shares, or with a single one. -/
def plainDraft (singleShare : Bool) : DraftVote := ⟨1, 0, 2, 0, singleShare⟩

/-- The vote for proposal 1 is confirmed. -/
def confirmedDb : VotingDb VoteRecoveryBundle :=
  ⟨[], plainTables ⟨[(⟨0, 1⟩, { plainRow maxProposalAuthority (plainDraft false) with
    txHash := some "vote", vcTreePosition := some 7 })], by simp⟩ []⟩

theorem castOn_confirmedDb :
    (castOn confirmedDb ⟨2, 1, 2, 0, false⟩).map (fun cast => cast.1.isFresh) = .ok true := by
  decide +kernel

theorem castEffect_confirmedDb : castEffect confirmedDb ⟨2, 1, 2, 0, false⟩ =
    .ok (⟨2, 1, 2, 0, false⟩, some (plainRow (clearProposal maxProposalAuthority 1) ⟨2, 1, 2, 0, false⟩), []) := by
  decide +kernel

/-- A vote for proposal 2 keeps the confirmed vote for proposal 1. -/
theorem cast_keeps_protected_votes_iff_next : Protected plainCodec confirmedDb 0 1 ∧
    ∃ vote db', castOn confirmedDb ⟨2, 1, 2, 0, false⟩ = .ok (vote, db') ∧
      vote.isFresh = true ∧ KeepsProtected plainCodec confirmedDb db' 0 := by
  obtain ⟨⟨vote, db'⟩, hon, hfr⟩ := map_ok castOn_confirmedDb
  obtain ⟨_, hp, hre⟩ := bind_ok hon
  obtain ⟨_, hs, hdo⟩ := bind_ok hre
  cases hdo
  refine ⟨.inl rfl, vote, db', hon, hfr, ?_⟩
  refine ((cast_keeps_protected_votes_iff confirmedDb 0).1 _ _ _ _ _ _ _ _ hp hs).enough ?_
  intro draft hd hstored
  rw [mem_singleton.mp hd] at hstored
  exact absurd hstored (by decide)

/-- The vote for proposal 1 is stored with a helper share, and its transaction is tracked. -/
def trackedDb : VotingDb VoteRecoveryBundle :=
  ⟨[{ StoredChainSubmission.fresh (sampleGeneration (.vote 1)) 1 10 with
      state := .tracking (Vector.replicate 32 9)
      trackingStartedAt := some 20
      updatedAt := 20 }],
    plainTables (.single ⟨0, 1⟩ (plainRow maxProposalAuthority (plainDraft false)))
      [⟨0, 1, 0, ["helper"], [], [], false⟩]⟩

theorem castEffect_trackedDb : castEffect trackedDb (plainDraft true) =
    .ok (plainDraft true, some (plainRow maxProposalAuthority (plainDraft true)), []) := by
  decide +kernel

/-- A cast replaces a tracked vote: the draft asks for another share mode. -/
theorem tracked_vote_is_replaced :
    ∃ db' votes, Accepted plainCodec trackedDb.domain trackedDb db' 0 votes ∧
      OwnedUnresolved plainCodec trackedDb 0 1 ∧ ¬ KeepsProtected plainCodec trackedDb db' 0 ∧
      (db'.domain.vote? 0 1).map VoteRow.commitment ≠
        (trackedDb.domain.vote? 0 1).map VoteRow.commitment ∧
      trackedDb.domain.voteShares ⟨0, 1⟩ ≠ [] ∧ db'.domain.voteShares ⟨0, 1⟩ = [] := by
  obtain ⟨vote, db', hac, -, hrow, hsh⟩ := castEffect_ok castEffect_trackedDb
  have ho : OwnedUnresolved plainCodec trackedDb 0 1 :=
    ⟨_, mem_singleton_self _, rfl, rfl, rfl, rfl, .inl rfl⟩
  have hb : trackedDb.domain.vote? 0 1 = some (plainRow maxProposalAuthority (plainDraft false)) :=
    rfl
  have hc : (plainRow maxProposalAuthority (plainDraft true)).commitment ≠
      (plainRow maxProposalAuthority (plainDraft false)).commitment := by
    decide +kernel
  refine ⟨db', [vote], hac, ho, ?_, ?_, by decide, hsh⟩
  · intro hke
    obtain ⟨row, hget, -, hs, -⟩ := hke 1 _ hb (.inr ho)
    have ha : some row = some (plainRow maxProposalAuthority (plainDraft true)) :=
      hget.symm.trans hrow
    rw [Option.some.inj ha] at hs
    exact hc hs
  · have ha : db'.domain.vote? 0 1 = some (plainRow maxProposalAuthority (plainDraft true)) := hrow
    rw [ha, hb]
    simpa using hc

end ZcashVoting.Voting
