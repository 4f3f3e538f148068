import Mathlib
import ZcashVoting.ChainSubmission.StoreEffects

/-!
# A bundle holds at most one unresolved submission

The exclusion is enforced by the queries of admission, by the primary key and by
what transitions can do to a row, so it is carried through every writer of
`chain_submissions`. Each transaction acts on the table in one of four ways
(`TableStep`): it leaves the rows, inserts one into a free bundle, rewrites one by a
transition, or removes rows. The invariant is preserved by each of the four.
-/
namespace ZcashVoting.ChainSubmission

open Transaction SqlTable List

variable {σ : Type} {T : DomainTables σ} {db db' : ChainDb σ} {identity : ChainSubmissionIdentity}

/-- One committed transaction on the store, or a write of the voting tables by the
rest of the library. The network of a stored round is written once, and clearing a
round removes its submissions with it. -/
inductive StoreStep (T : DomainTables σ) (db db' : ChainDb σ) : Prop where
  | transaction (h : StoreTransaction T db db')
  | domain (hrows : db'.submissions = db.submissions) (hnet : ∀ row ∈ db.submissions,
        T.roundNetwork db'.domain row.identity.roundId row.identity.walletId =
          T.roundNetwork db.domain row.identity.roundId row.identity.walletId)
  | clearRound (roundId walletId : String) (hrows : db'.submissions = db.submissions.filter fun row =>
        !(row.identity.roundId == roundId && row.identity.walletId == walletId))
      (hnet : ∀ row ∈ db'.submissions, T.roundNetwork db'.domain row.identity.roundId row.identity.walletId =
          T.roundNetwork db.domain row.identity.roundId row.identity.walletId)

inductive TableStep (T : DomainTables σ) (db db' : ChainDb σ) : Prop where
  | insert (record : StoredChainSubmission) (hrow : db.row record.identity = none)
      (h : db.Inserts T db' record)
  | rewrite (row record : StoredChainSubmission) (hrow : db.row record.identity = some row)
      (hopen : record.state.isUnresolved = true → row.state.isUnresolved = true)
      (hconf : record.state.isConfirmed = true → row.state.isUnresolved = true ∨
        row.state.isConfirmed = true)
      (hrows : db.Rewrites db' record)
      (hnet : T.roundNetwork db'.domain = T.roundNetwork db.domain)
  | shrink (hrows : List.Sublist db'.submissions db.submissions) (hnet : ∀ row ∈ db'.submissions,
        T.roundNetwork db'.domain row.identity.roundId row.identity.walletId =
          T.roundNetwork db.domain row.identity.roundId row.identity.walletId)

theorem TableStep.of_delete
    (hro : db'.submissions = delete StoredChainSubmission.identity identity db.submissions)
    (hnet : T.roundNetwork db'.domain = T.roundNetwork db.domain) : TableStep T db db' :=
  .shrink (hro ▸ filter_sublist) fun _ _ => by rw [hnet]

theorem TransactionEffect.tableStep (h : TransactionEffect T db db') : TableStep T db db' := by
  cases h with
  | unchanged hdb => exact .shrink (hdb ▸ List.Sublist.refl _) fun _ _ => by rw [hdb]
  | inserted record hrow h => exact .insert record hrow h
  | rewritten row record hrow hop hc _ hr hd =>
    exact .rewrite row record hrow hop hc hr (by rw [hd])
  | removed _ _ _ _ hr hd => exact .of_delete hr (by rw [hd])
  | confirmed row record _ _ _ hrow hwas hc _ _ hr hd =>
    refine .rewrite row record hrow ?_ (fun _ => hwas) hr (T.applyConfirmedGeneration_network hd)
    intro hu
    cases hs : record.state <;>
      simp [hs, SubmissionRecordState.isConfirmed, SubmissionRecordState.isUnresolved] at hc hu
  | retired _ _ _ _ _ _ hr hd =>
    exact .of_delete hr (T.retireRejectedCombinedGeneration_network hd)

/-- Every step acts on the table in one of the four ways. -/
theorem StoreStep.tableStep (h : StoreStep T db db') : TableStep T db db' := by
  cases h with
  | transaction h => exact h.effect.tableStep
  | domain hr hnet => exact .shrink (hr ▸ List.Sublist.refl _) fun row hm => hnet row (hr ▸ hm)
  | clearRound _ _ hr hnet => exact .shrink (hr ▸ filter_sublist) hnet

structure BundleExclusion (T : DomainTables σ) (db : ChainDb σ) : Prop where
  keys : (db.submissions.map StoredChainSubmission.identity).Nodup
  networks : ∀ row ∈ db.submissions,
    T.roundNetwork db.domain row.identity.roundId row.identity.walletId = .ok row.identity.network
  unresolved : ∀ a ∈ db.submissions, ∀ b ∈ db.submissions,
    sameBundle a.identity b.identity = true → a.state.isUnresolved = true →
    b.state.isUnresolved = true → a.identity = b.identity
  delegation : ∀ a ∈ db.submissions, ∀ b ∈ db.submissions,
    sameBundle a.identity b.identity = true → a.identity.target = .delegation →
    a.state.isUnresolved = true → b.identity.target.isCast = true → b.state.isConfirmed = false

theorem sameBundle_comm {a b : ChainSubmissionIdentity} (h : sameBundle a b = true) :
    sameBundle b a = true := by
  simp only [sameBundle, Bool.and_eq_true, beq_iff_eq] at h ⊢
  exact ⟨⟨h.1.1.symm, h.1.2.symm⟩, h.2.symm⟩

theorem not_cast_delegation (hd : identity.target = .delegation)
    (hc : identity.target.isCast = true) : False := by
  rw [hd] at hc
  cases hc

section

variable (hinv : BundleExclusion T db) {record row : StoredChainSubmission}
include hinv

/-- Rows of one bundle are on the network of their round. -/
theorem BundleExclusion.network_eq (hm : row ∈ db.submissions)
    (hb : sameBundle row.identity identity = true)
    (hnet : T.roundNetwork db.domain identity.roundId identity.walletId = .ok identity.network) :
    row.identity.network = identity.network := by
  simp only [sameBundle, Bool.and_eq_true, beq_iff_eq] at hb
  have h := hinv.networks row hm
  rw [hb.1.1, hb.1.2, hnet] at h
  exact (Except.ok.inj h).symm

theorem bundleExclusion_shrink (hr : List.Sublist db'.submissions db.submissions)
    (hnet : ∀ row ∈ db'.submissions,
      T.roundNetwork db'.domain row.identity.roundId row.identity.walletId =
        T.roundNetwork db.domain row.identity.roundId row.identity.walletId) :
          BundleExclusion T db' where
  keys := hinv.keys.sublist (hr.map _)
  networks row hm := by
    rw [hnet row hm]
    exact hinv.networks row (hr.subset hm)
  unresolved a ha b hb := hinv.unresolved a (hr.subset ha) b (hr.subset hb)
  delegation a ha b hb := hinv.delegation a (hr.subset ha) b (hr.subset hb)

theorem bundleExclusion_insert (hrow : db.row record.identity = none)
    (h : db.Inserts T db' record) :
    BundleExclusion T db' := by
  have hmem : ∀ {a}, a ∈ db'.submissions → a ∈ db.submissions ∨ a = record := by
    intro a ha
    rw [h.rows] at ha
    simpa using ha
  -- No row of the bundle is unresolved before the insertion.
  have hq : ∀ a ∈ db.submissions, sameBundle a.identity record.identity = true →
      a.state.isUnresolved = false := by
    intro a ha hb
    have hn := hinv.network_eq ha hb h.network
    have hp := any_eq_false.mp h.free.noPredecessor a ha
    simpa [hb, hn] using hp
  have hse : record.identity.target = .delegation → ∀ a ∈ db.submissions,
      sameBundle a.identity record.identity = true → a.identity.target.isCast = true →
      a.state.isConfirmed = false := by
    intro ht a ha hb hc
    have hn := hinv.network_eq ha hb h.network
    have hp := any_eq_false.mp (h.free.notSuperseded ht) a ha
    simpa [hb, hn, hc] using hp
  refine ⟨?_, ?_, ?_, ?_⟩
  · rw [h.rows]
    exact nodup_insert hinv.keys hrow
  · intro a ha
    rw [h.domain]
    rcases hmem ha with ha | rfl
    · exact hinv.networks a ha
    · exact h.network
  · intro a ha b hb hab hua hub
    rcases hmem ha with ha | rfl <;> rcases hmem hb with hb | rfl
    · exact hinv.unresolved a ha b hb hab hua hub
    · exact absurd hua (by simp [hq a ha hab])
    · exact absurd hub (by simp [hq b hb (sameBundle_comm hab)])
    · rfl
  · intro a ha b hb hab hta hua hc
    rcases hmem ha with ha | rfl <;> rcases hmem hb with hb | rfl
    · exact hinv.delegation a ha b hb hab hta hua hc
    · exact absurd hua (by simp [hq a ha hab])
    · exact hse hta b hb (sameBundle_comm hab) hc
    · exact (not_cast_delegation hta hc).elim

theorem bundleExclusion_rewrite (hrow : db.row record.identity = some row)
    (ho : record.state.isUnresolved = true → row.state.isUnresolved = true)
    (hco : record.state.isConfirmed = true → row.state.isUnresolved = true ∨
      row.state.isConfirmed = true)
    (hr : db.Rewrites db' record) (hnet : T.roundNetwork db'.domain = T.roundNetwork db.domain) :
    BundleExclusion T db' := by
  have hold : row ∈ db.submissions := mem_of_lookup hrow
  have hkey : row.identity = record.identity := key_of_lookup hrow
  have hmem : ∀ {a}, a ∈ db'.submissions → (a ∈ db.submissions ∧ a.identity ≠ record.identity) ∨
      a = record.asRow := by
    intro a ha
    rw [hr.rows] at ha
    rcases mem_replace.mp ha with h | ⟨h, -⟩
    · exact .inl h
    · exact .inr h
  refine ⟨?_, ?_, ?_, ?_⟩
  · rw [hr.rows]
    exact nodup_replace hinv.keys
  · intro a ha
    rw [hnet]
    rcases hmem ha with ⟨ha, -⟩ | rfl
    · exact hinv.networks a ha
    · rw [asRow_identity, ← hkey]
      exact hinv.networks row hold
  · intro a ha b hb hab hua hub
    rcases hmem ha with ⟨ha, -⟩ | rfl <;> rcases hmem hb with ⟨hb, -⟩ | rfl
    · exact hinv.unresolved a ha b hb hab hua hub
    · exact (hinv.unresolved a ha row hold (hkey ▸ hab) hua (ho hub)).trans hkey
    · exact hkey.symm.trans (hinv.unresolved row hold b hb (hkey ▸ hab) (ho hua) hub)
    · rfl
  · intro a ha b hb hab ht hua hca
    rcases hmem ha with ⟨ha, hne⟩ | rfl <;> rcases hmem hb with ⟨hb, -⟩ | rfl
    · exact hinv.delegation a ha b hb hab ht hua hca
    · -- The rewritten row becomes confirmed: it was unresolved, hence the delegation itself.
      by_contra hc
      have hc : record.state.isConfirmed = true := by simpa using hc
      have hab' : sameBundle a.identity row.identity = true := hkey ▸ hab
      rcases hco hc with hu | hc'
      · exact hne ((hinv.unresolved a ha row hold hab' hua hu).trans hkey)
      · have := hinv.delegation a ha row hold hab' ht hua (hkey ▸ hca)
        simp [this] at hc'
    · exact hinv.delegation row hold b hb (hkey ▸ hab) (hkey ▸ ht) (ho hua) hca
    · exact (not_cast_delegation ht hca).elim

theorem bundleExclusion_step (h : StoreStep T db db') : BundleExclusion T db' := by
  cases h.tableStep with
  | insert _ hrow h => exact bundleExclusion_insert hinv hrow h
  | rewrite _ _ hrow hop hco hr hnet =>
    exact bundleExclusion_rewrite hinv hrow hop hco hr hnet
  | shrink hr hnet => exact bundleExclusion_shrink hinv hr hnet

end

theorem bundleExclusion_empty (domain : σ) : BundleExclusion T ⟨[], domain⟩ := by
  refine ⟨by simp, ?_, ?_, ?_⟩ <;> intro a ha <;> simp at ha

theorem bundleExclusion_run {domain : σ}
    (h : Relation.ReflTransGen (StoreStep T) ⟨[], domain⟩ db) : BundleExclusion T db := by
  induction h with
  | refl => exact bundleExclusion_empty domain
  | tail _ hst ih => exact bundleExclusion_step ih hst

def unresolvedRows (db : ChainDb σ) (identity : ChainSubmissionIdentity) :
    List StoredChainSubmission :=
  db.submissions.filter fun row => sameBundle row.identity identity && row.state.isUnresolved

theorem BundleExclusion.unresolvedRows_length_le (hinv : BundleExclusion T db)
    (identity : ChainSubmissionIdentity) : (unresolvedRows db identity).length ≤ 1 := by
  have hnd : (unresolvedRows db identity).map StoredChainSubmission.identity |>.Nodup :=
    hinv.keys.sublist (filter_sublist.map _)
  have hmem : ∀ row ∈ unresolvedRows db identity, row ∈ db.submissions ∧
      sameBundle row.identity identity = true ∧ row.state.isUnresolved = true := by
    intro row hm
    simpa [unresolvedRows] using hm
  match hl : unresolvedRows db identity with
  | [] => simp
  | [_] => simp
  | a :: b :: rest =>
    rw [hl] at hnd hmem
    obtain ⟨ha, hba, hua⟩ := hmem a (by simp)
    obtain ⟨hb, hbb, hub⟩ := hmem b (by simp)
    have hab : sameBundle a.identity b.identity = true := by
      simp only [sameBundle, Bool.and_eq_true, beq_iff_eq] at hba hbb ⊢
      exact ⟨⟨hba.1.1.trans hbb.1.1.symm, hba.1.2.trans hbb.1.2.symm⟩, hba.2.trans hbb.2.symm⟩
    have heq := hinv.unresolved a ha b hb hab hua hub
    simp [heq] at hnd

/-- **Bundle exclusion.** In every state a run of the store reaches from an empty table,
each bundle holds at most one unresolved row, and no unresolved delegation row stands
beside a confirmed vote, batch or combined row of its bundle. -/
theorem bundle_exclusion {domain : σ} (h : Relation.ReflTransGen (StoreStep T) ⟨[], domain⟩ db) :
    (∀ identity, (unresolvedRows db identity).length ≤ 1) ∧
    ∀ a ∈ db.submissions, ∀ b ∈ db.submissions, sameBundle a.identity b.identity = true →
      a.identity.target = .delegation → a.state.isUnresolved = true →
      b.identity.target.isCast = true → b.state.isConfirmed = false :=
  ⟨(bundleExclusion_run h).unresolvedRows_length_le, (bundleExclusion_run h).delegation⟩

section

/-! ### A run with a confirmed delegation and a vote after it -/

/-- Voting tables with one testnet round, in which every derivation succeeds. -/
def sampleDomain : DomainTables Unit where
  roundNetwork _ _ _ := .ok .testnet
  deriveBody _ request := .ok
    { digest := Vector.replicate 32 7
      request := match request with
        | .importedDelegation _ => .importedDelegation (Vector.replicate 32 9)
        | .delegation _ _ => .delegation "delegation"
        | .vote _ => .vote "vote"
        | .voteBatch _ => .voteBatch "batch"
      expectedLayout := .delegation (Vector.replicate 32 1)
      orderedProposalIds := [] }
  delegationRecorded _ _ _ _ := some false
  combinedRecoveryExists _ _ _ _ := false
  validateHashConfirmation _ candidate _ :=
    ValidatedChainSubmissionConfirmation.fromHash candidate 0 []
  validateImportedDelegationConfirmation _ candidate _ :=
    ValidatedChainSubmissionConfirmation.fromHash candidate 0 []
  applyConfirmedGeneration domain _ _ := .ok domain
  retireRejectedCombinedGeneration domain _ _ _ := .ok domain
  applyConfirmedGeneration_network _ := rfl
  retireRejectedCombinedGeneration_network _ := rfl

def sampleIdentity (target : ChainSubmissionTarget) : ChainSubmissionIdentity :=
  ⟨"wallet", .testnet, Vector.replicate 32 3, 0, target⟩

def sampleGeneration (target : ChainSubmissionTarget) : ChainSubmissionGeneration :=
  ⟨sampleIdentity target, Vector.replicate 32 7⟩

def sampleDelegation : StoreAdvancementRequest :=
  ⟨.delegation (sampleIdentity .delegation) (Vector.replicate 64 5), [], none⟩

def sampleVote : StoreAdvancementRequest := ⟨.vote (sampleIdentity (.vote 1)), [], none⟩

/-- The table after the delegation is confirmed by hash and a vote is reserved. -/
def sampleDb : ChainDb Unit :=
  let confirmation : ValidatedChainSubmissionConfirmation :=
    .hash ⟨some (Vector.replicate 32 9), 0, []⟩
  ⟨[{ StoredChainSubmission.fresh (sampleGeneration .delegation) 1 10 with
      state := .confirmed confirmation
      trackingStartedAt := some 20
      updatedAt := 30 },
    StoredChainSubmission.fresh (sampleGeneration (.vote 1)) 1 40], ()⟩

theorem sampleDb_reached : Relation.ReflTransGen (StoreStep sampleDomain) ⟨[], ()⟩ sampleDb := by
  let candidate : CandidateTransactionHash := Vector.replicate 32 9
  refine .head (.transaction (.admitSubmission sampleDelegation true 1 10 _ rfl)) ?_
  refine .head (.transaction (.classify (sampleGeneration .delegation)
    (.usableCandidateHash candidate) 20 _ rfl)) ?_
  refine .head (.transaction (.confirmHash sampleDelegation (sampleGeneration .delegation) candidate
    [] true 30 _ rfl)) ?_
  exact .single (.transaction (.admitSubmission sampleVote true 1 40 _ rfl))

theorem bundle_exclusion_sample :
    (unresolvedRows sampleDb (sampleIdentity .delegation)).length ≤ 1 :=
  (bundle_exclusion sampleDb_reached).1 _

end

end ZcashVoting.ChainSubmission
