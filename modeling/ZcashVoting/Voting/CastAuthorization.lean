import ZcashVoting.Lib.Bytes
import ZcashVoting.Lib.Text
import ZcashVoting.Voting.Cast

/-!
# The byte strings signed for a cast

A single vote, a batch and a combined delegation and batch sign the hash of a domain
followed by fields of 32 bytes. The padding helper fills a shorter field with zeros and
cuts a longer one, so a field is only determined where its width is 32. The domains tell
the kinds apart whatever the fields are.
-/
namespace ZcashVoting.Voting

open ChainSubmission RoundPlanning KeyedData Bytes List

/-! ### Hex -/

/-- A hex digit of either case. -/
def hexVal (c : Char) (index : Nat) : Except String Nat :=
  if 65 ≤ c.toNat ∧ c.toNat ≤ 70 then .ok (c.toNat - 55)
  else if 97 ≤ c.toNat ∧ c.toNat ≤ 102 then .ok (c.toNat - 87)
  else if 48 ≤ c.toNat ∧ c.toNat ≤ 57 then .ok (c.toNat - 48)
  else .error s!"Invalid character '{c}' at position {index}"

def hexPairs (index : Nat) : List Char → Except String (List UInt8)
  | high :: low :: rest => do
    let h ← hexVal high index
    let l ← hexVal low (index + 1)
    let bytes ← hexPairs (index + 2) rest
    return .ofNat (16 * h + l) :: bytes
  | [c] => .error s!"Invalid character '{c}' at position {index}"
  | [] => .ok []

/-- `hex::decode` -/
def hexDecode (text : String) : Except String (List UInt8) :=
  if byteLength text % 2 ≠ 0 then .error "Odd number of digits" else hexPairs 0 text.toList

/-! ### Fields of 32 bytes -/

/-- `extend_padded32` -/
def padded32 (bytes : List UInt8) :
    List UInt8 := bytes.take 32 ++ List.replicate (32 - bytes.length) 0

/-- `extend_u32_padded32` -/
def u32Padded32 (value : Nat) : List UInt8 := leBytes 4 value ++ List.replicate 28 0

/-- `extend_u64_padded32` -/
def u64Padded32 (value : Nat) : List UInt8 := leBytes 8 value ++ List.replicate 24 0

def asciiBytes (text : String) : List UInt8 := text.toList.map fun c => .ofNat c.toNat

/-! ### Pre-images -/

/-- The fields of one action that a signature binds. -/
structure CastVoteBatchSighashAction where
  (rVpk vanNullifier voteAuthorityNoteNew voteCommitment : List UInt8)
  proposalId : UInt32
  deriving DecidableEq

def decodeRound (voteRoundIdHex : String) : Except VotingError (List UInt8) :=
  match hexDecode voteRoundIdHex with
  | .ok bytes => .ok bytes
  | .error e => .error (.internal s!"invalid vote_round_id hex: {e}")

def castVoteSighashDomain : List UInt8 := asciiBytes "SVOTE_CAST_VOTE_SIGHASH_V0"

/-- What `cast_vote_sighash` hashes. -/
def castVotePreimage (voteRoundIdHex : String) (action : CastVoteBatchSighashAction)
    (anchorHeight : UInt32) : Except VotingError (List UInt8) := do
  let voteRoundId ← decodeRound voteRoundIdHex
  return castVoteSighashDomain ++ [padded32 voteRoundId, action.rVpk, padded32 action.vanNullifier,
    padded32 action.voteAuthorityNoteNew, padded32 action.voteCommitment,
    u32Padded32 action.proposalId.toNat, u64Padded32 anchorHeight.toNat].flatten

/-- What `sign_cast_vote` hashes. -/
def signCastVotePreimage (voteRoundIdHex : String) (action : CastVoteBatchSighashAction)
    (anchorHeight : UInt32) : Except VotingError (List UInt8) :=
  if action.rVpk.length ≠ 32 then .error (.internal s!"r_vpk must be 32 bytes, got {action.rVpk.length}")
  else castVotePreimage voteRoundIdHex action anchorHeight

def batchAction (entry : CastVoteBatchSighashAction × Nat) : List (List UInt8) :=
  [u32Padded32 entry.2, padded32 entry.1.rVpk, padded32 entry.1.vanNullifier,
    padded32 entry.1.voteAuthorityNoteNew, padded32 entry.1.voteCommitment,
    u32Padded32 entry.1.proposalId.toNat]

def castVoteBatchSighashDomain : List UInt8 := asciiBytes "SVOTE_CAST_VOTE_BATCH_SIGHASH_V1"

/-- What `cast_vote_batch_sighash` hashes. -/
def castVoteBatchPreimage (voteRoundIdHex : String) (anchorHeight : UInt64)
    (actions : List CastVoteBatchSighashAction) : Except VotingError (List UInt8) := do
  let voteRoundId ← decodeRound voteRoundIdHex
  return castVoteBatchSighashDomain ++ (padded32 voteRoundId :: u64Padded32 anchorHeight.toNat ::
    u32Padded32 actions.length :: actions.zipIdx.flatMap batchAction).flatten

def combinedSighashDomain : List UInt8 := asciiBytes "SVOTE_DELEGATE_AND_CAST_VOTE_BATCH_SIGHASH_V1"

/-- The fields that a combined batch binds as they are. -/
def CastVoteBatchSighashAction.fields (action : CastVoteBatchSighashAction) : List (List UInt8) :=
  [action.rVpk, action.vanNullifier, action.voteAuthorityNoteNew, action.voteCommitment]

def combinedAction (entry : CastVoteBatchSighashAction × Nat) : List (List UInt8) :=
  u32Padded32 entry.2 :: (entry.1.fields ++ [u32Padded32 entry.1.proposalId.toNat])

/-- The loop over the actions; `proposals` are those of the actions before. -/
def combinedActions (proposals : List UInt32) :
    List (CastVoteBatchSighashAction × Nat) → Except VotingError (List (List UInt8))
  | [] => .ok []
  | entry :: rest => do
    validateProposalId entry.1.proposalId.toNat
    if entry.1.proposalId ∈ proposals then
      .error (.invalidInput "combined batch contains duplicate proposals")
    else if entry.1.fields.any fun field => field.length ≠ 32 then
      .error (.invalidInput "combined cast effect must contain exactly 32 bytes")
    else do
      let fields ← combinedActions (entry.1.proposalId :: proposals) rest
      return combinedAction entry ++ fields

/-- What `delegate_and_vote_batch_sighash` hashes. -/
def delegateAndVoteBatchPreimage (roundId delegationVan : Bytes32)
    (actions : List CastVoteBatchSighashAction) : Except VotingError (List UInt8) :=
  if actions = [] ∨ maxVoteBatchActions < actions.length then
    .error (.invalidInput "combined batch action count is outside the protocol bounds")
  else do
    let fields ← combinedActions [] actions.zipIdx
    return combinedSighashDomain ++ (roundId.toList :: delegationVan.toList ::
      u32Padded32 actions.length :: fields).flatten

/-! ### Widths -/

@[simp] theorem length_padded32 (bytes : List UInt8) : (padded32 bytes).length = 32 := by
  simp only [padded32, length_append, length_take, length_replicate]
  omega

@[simp] theorem length_u32Padded32 (value : Nat) : (u32Padded32 value).length = 32 := by
  simp [u32Padded32]

@[simp] theorem length_u64Padded32 (value : Nat) : (u64Padded32 value).length = 32 := by
  simp [u64Padded32]

theorem padded32_of_length {bytes : List UInt8} (h : bytes.length = 32) :
    padded32 bytes = bytes := by
  rw [padded32, h, ← h, take_length]
  simp

theorem u32Padded32_injective {m n : UInt32} (h : u32Padded32 m.toNat = u32Padded32 n.toNat) :
    m = n := by
  obtain ⟨hby, -⟩ := append_inj h (by simp)
  apply UInt32.toNat_inj.mp
  exact leBytes_injective m.toNat_lt n.toNat_lt hby

theorem u64Padded32_injective {m n : Nat} (hm : m < 2 ^ 64) (hn : n < 2 ^ 64)
    (h : u64Padded32 m = u64Padded32 n) : m = n := by
  obtain ⟨hby, -⟩ := append_inj h (by simp)
  exact leBytes_injective hm hn hby

/-! ### Round ids -/

variable {c : Char} {round : String} {action : CastVoteBatchSighashAction}
  {actions : List CastVoteBatchSighashAction} {fields : List (List UInt8)}
  {entries : List (CastVoteBatchSighashAction × Nat)}

theorem isLowerHex_iff : isLowerHex c = true ↔ (48 ≤ c.toNat ∧ c.toNat ≤ 57) ∨
    (97 ≤ c.toNat ∧ c.toNat ≤ 102) := by
  simp [isLowerHex, Char.isDigit, Char.le_def, UInt32.le_iff_toNat_le]

theorem utf8Size_of_isLowerHex (h : isLowerHex c = true) : c.utf8Size = 1 := by
  have hsm : c.val ≤ 0x7f := by
    rw [UInt32.le_iff_toNat_le]
    have hra := isLowerHex_iff.mp h
    simp only [Char.toNat] at hra
    simp only [UInt32.reduceToNat]
    omega
  exact Char.utf8Size_eq_one_iff.mpr hsm

theorem hexNibble_of_hexVal {index n : Nat} (hc : isLowerHex c = true) (h : hexVal c index = .ok n)
    : Text.hexNibble c = some n := by
  unfold hexVal at h
  unfold Text.hexNibble
  rcases isLowerHex_iff.mp hc with hd | hl
  · rw [if_neg (by omega), if_neg (by omega), if_pos hd] at h
    rw [if_pos hd, Except.ok.inj h]
  · rw [if_neg (by omega), if_pos hl] at h
    rw [if_neg (by omega), if_pos hl, Except.ok.inj h]

/-- On lowercase texts the two readers agree. -/
theorem hexBytes_of_hexPairs {text : List Char} {index : Nat} {bytes : List UInt8}
    (hl : ∀ c ∈ text, isLowerHex c = true) (h : hexPairs index text = .ok bytes) :
    Text.hexBytes text = some bytes := by
  match text with
  | [] =>
    cases h
    rfl
  | [_] => cases h
  | high :: low :: rest =>
    obtain ⟨_, hhi, h⟩ := bind_ok h
    obtain ⟨_, hlow, h⟩ := bind_ok h
    obtain ⟨_, hta, h⟩ := bind_ok h
    cases h
    have hre := hexBytes_of_hexPairs (fun c hc => hl c (by simp [hc])) hta
    rw [Text.hexBytes, hexNibble_of_hexVal (hl high (by simp)) hhi,
      hexNibble_of_hexVal (hl low (by simp)) hlow, hre]

/-- What a valid round id is read as. -/
theorem decodeRound_valid {bytes : List UInt8} (hv : validateVoteRoundIdHex round = .ok ())
    (h : decodeRound round = .ok bytes) : Text.hexBytes round.toList = some bytes ∧
    bytes.length = 32 := by
  obtain ⟨hle, hv⟩ := guard_ok hv
  obtain ⟨hall, -⟩ := guard_ok hv
  have hl : ∀ c ∈ round.toList, isLowerHex c = true := by simpa using hall
  have hr : Text.hexBytes round.toList = some bytes := by
    unfold decodeRound hexDecode at h
    rw [if_neg (by rw [not_not.mp hle]; decide)] at h
    split at h
    · next hpa =>
      cases h
      exact hexBytes_of_hexPairs hl hpa
    · cases h
  refine ⟨hr, ?_⟩
  have hsi : byteLength round = round.toList.length := by
    rw [byteLength, map_congr_left fun c hc => utf8Size_of_isLowerHex (hl c hc)]
    simp
  have hwr : bytes.length * 2 = round.toList.length := by
    rw [← Text.flatMap_hexBytes hr, Bytes.length_flatMap_const]
    intro b
    rfl
  omega

theorem decodeRound_injective {round' : String} {bytes bytes' : List UInt8}
    (hva : validateVoteRoundIdHex round = .ok ())
    (hva' : validateVoteRoundIdHex round' = .ok ()) (h : decodeRound round = .ok bytes)
    (h' : decodeRound round' = .ok bytes') (heq : padded32 bytes = padded32 bytes') :
    round = round' := by
  obtain ⟨hre, hle⟩ := decodeRound_valid hva h
  obtain ⟨hre', hle'⟩ := decodeRound_valid hva' h'
  rw [padded32_of_length hle, padded32_of_length hle'] at heq
  subst heq
  have hte := (Text.flatMap_hexBytes hre).symm.trans (Text.flatMap_hexBytes hre')
  exact String.toList_inj.mp hte

/-! ### Actions -/

namespace CastVoteBatchSighashAction

/-- Every field has 32 bytes. -/
def Wide (action : CastVoteBatchSighashAction) : Prop := ∀ field ∈ action.fields, field.length = 32

theorem Wide.lengths (h : action.Wide) :
    action.rVpk.length = 32 ∧ action.vanNullifier.length = 32 ∧
      action.voteAuthorityNoteNew.length = 32 ∧
      action.voteCommitment.length = 32 := by
  simpa [Wide, fields] using h

/-- Wide actions are determined by their padded fields. -/
theorem Wide.eq {a b : CastVoteBatchSighashAction} (ha : a.Wide) (hb : b.Wide)
    (hrV : padded32 a.rVpk = padded32 b.rVpk)
    (hvan : padded32 a.vanNullifier = padded32 b.vanNullifier)
    (hno : padded32 a.voteAuthorityNoteNew = padded32 b.voteAuthorityNoteNew)
    (hco : padded32 a.voteCommitment = padded32 b.voteCommitment)
    (hpr : u32Padded32 a.proposalId.toNat = u32Padded32 b.proposalId.toNat) : a = b := by
  obtain ⟨ha₁, ha₂, ha₃, ha₄⟩ := ha.lengths
  obtain ⟨hb₁, hb₂, hb₃, hb₄⟩ := hb.lengths
  rw [padded32_of_length ha₁, padded32_of_length hb₁] at hrV
  rw [padded32_of_length ha₂, padded32_of_length hb₂] at hvan
  rw [padded32_of_length ha₃, padded32_of_length hb₃] at hno
  rw [padded32_of_length ha₄, padded32_of_length hb₄] at hco
  have hid := u32Padded32_injective hpr
  cases a
  simp_all

end CastVoteBatchSighashAction

theorem length_of_mem_batchAction : ∀ field ∈ entries.flatMap batchAction, field.length = 32 := by
  intro field hf
  obtain ⟨_, -, hf⟩ := mem_flatMap.mp hf
  simp only [batchAction, mem_cons, not_mem_nil, or_false] at hf
  rcases hf with rfl | rfl | rfl | rfl | rfl | rfl <;> simp

theorem batchActions_inj {actions' : List CastVoteBatchSighashAction} {start : Nat}
    (hw : ∀ a ∈ actions, a.Wide) (hw' : ∀ a ∈ actions', a.Wide)
    (h : (actions.zipIdx start).flatMap batchAction = (actions'.zipIdx start).flatMap batchAction) :
    actions = actions' := by
  induction actions generalizing actions' start with
  | nil =>
    cases actions' with
    | nil => rfl
    | cons => cases h
  | cons _ _ ih =>
    cases actions' with
    | nil => cases h
    | cons =>
      simp only [zipIdx_cons, flatMap_cons, batchAction, cons_append, List.cons.injEq,
        true_and] at h
      obtain ⟨hrV, hvan, hno, hco, hpr, hre⟩ := h
      rw [forall_mem_cons] at hw hw'
      rw [hw.1.eq hw'.1 hrV hvan hno hco hpr, ih hw.2 hw'.2 hre]

/-- A combined batch is accepted with wide actions only, where nothing is padded. -/
theorem combinedActions_ok {proposals : List UInt32}
    (h : combinedActions proposals entries = .ok fields) :
    fields = entries.flatMap batchAction ∧ ∀ entry ∈ entries, entry.1.Wide := by
  induction entries generalizing proposals fields with
  | nil =>
    cases h
    exact ⟨rfl, by simp⟩
  | cons entry _ ih =>
    obtain ⟨_, -, h⟩ := bind_ok h
    obtain ⟨-, h⟩ := guard_ok h
    obtain ⟨hna, h⟩ := guard_ok h
    obtain ⟨_, hta, h⟩ := bind_ok h
    cases h
    obtain ⟨rfl, hre⟩ := ih hta
    have hw : entry.1.Wide := by
      intro field hfi
      by_contra hle
      exact hna (any_eq_true.mpr ⟨field, hfi, by simpa using hle⟩)
    obtain ⟨h₁, h₂, h₃, h₄⟩ := hw.lengths
    refine ⟨?_, forall_mem_cons.mpr ⟨hw, hre⟩⟩
    rw [flatMap_cons, batchAction, padded32_of_length h₁, padded32_of_length h₂,
      padded32_of_length h₃, padded32_of_length h₄]
    rfl

/-! ### Authorizations -/

inductive CastKind where
  | single
  | batch
  | combined
  deriving DecidableEq

def CastKind.domain : CastKind → List UInt8
  | single => castVoteSighashDomain
  | batch => castVoteBatchSighashDomain
  | combined => combinedSighashDomain

/-- The domains differ within their first 17 bytes. -/
theorem CastKind.domain_append_inj {kind kind' : CastKind} {rest rest' : List UInt8}
    (h : kind.domain ++ rest = kind'.domain ++ rest') : kind = kind' ∧ rest = rest' := by
  have hl : ∀ kind : CastKind, 17 ≤ kind.domain.length := by
    intro kind
    cases kind <;> decide
  have ht := congrArg (List.take 17) h
  rw [take_append_of_le_length (hl kind), take_append_of_le_length (hl kind')] at ht
  have hki : kind = kind' := by
    cases kind <;> cases kind' <;> first | rfl | exact absurd ht (by decide)
  subst hki
  exact ⟨rfl, append_cancel_left h⟩

/-- What a voter authorizes with one digest. -/
inductive Authorization where
  | single (voteRoundId : String) (action : CastVoteBatchSighashAction) (anchorHeight : UInt32)
  | batch (voteRoundId : String) (anchorHeight : UInt64) (actions : List CastVoteBatchSighashAction)
  | combined (roundId delegationVan : Bytes32) (actions : List CastVoteBatchSighashAction)

namespace Authorization

def kind : Authorization → CastKind
  | single .. => .single
  | batch .. => .batch
  | combined .. => .combined

def preimage : Authorization → Except VotingError (List UInt8)
  | single voteRoundId action anchorHeight => signCastVotePreimage voteRoundId action anchorHeight
  | batch voteRoundId anchorHeight actions => castVoteBatchPreimage voteRoundId anchorHeight actions
  | combined roundId delegationVan actions =>
      delegateAndVoteBatchPreimage roundId delegationVan actions

/-- The round id is one that a round is created with, and the fields have 32 bytes. The
combined builder checks its fields itself. -/
def WellFormed : Authorization → Prop
  | single voteRoundId action _ => validateVoteRoundIdHex voteRoundId = .ok () ∧ action.Wide
  | batch voteRoundId _ actions => validateVoteRoundIdHex voteRoundId = .ok () ∧
      ∀ a ∈ actions, a.Wide
  | combined .. => True

variable {a b : Authorization} {bytes : List UInt8}

/-- The fields that follow the domain, on the inputs a builder accepts. -/
inductive Fields : Authorization → List (List UInt8) → Prop where
  | single {round : String} {roundBytes : List UInt8} {action : CastVoteBatchSighashAction}
      {anchor : UInt32} (hround : decodeRound round = .ok roundBytes)
        (hlength : action.rVpk.length = 32) :
      Fields (.single round action anchor) [padded32 roundBytes, action.rVpk,
        padded32 action.vanNullifier, padded32 action.voteAuthorityNoteNew,
        padded32 action.voteCommitment, u32Padded32 action.proposalId.toNat,
          u64Padded32 anchor.toNat]
  | batch {round : String} {roundBytes : List UInt8} {anchor : UInt64}
      {actions : List CastVoteBatchSighashAction} (hround : decodeRound round = .ok roundBytes) :
      Fields (.batch round anchor actions) (padded32 roundBytes :: u64Padded32 anchor.toNat ::
        u32Padded32 actions.length :: actions.zipIdx.flatMap batchAction)
  | combined {round van : Bytes32} {actions : List CastVoteBatchSighashAction}
      (hwide : ∀ a ∈ actions, a.Wide) :
      Fields (.combined round van actions) (round.toList :: van.toList ::
        u32Padded32 actions.length :: actions.zipIdx.flatMap batchAction)

theorem preimage_fields (h : a.preimage = .ok bytes) :
    ∃ fields, Fields a fields ∧ bytes = a.kind.domain ++ fields.flatten := by
  cases a with
  | single =>
    obtain ⟨hle, h⟩ := guard_ok h
    obtain ⟨roundBytes, hr, h⟩ := bind_ok h
    exact ⟨_, .single hr (not_not.mp hle), (Except.ok.inj h).symm⟩
  | batch =>
    obtain ⟨_, hr, h⟩ := bind_ok h
    exact ⟨_, .batch hr, (Except.ok.inj h).symm⟩
  | combined =>
    obtain ⟨-, h⟩ := guard_ok h
    obtain ⟨_, hfi, h⟩ := bind_ok h
    obtain ⟨rfl, hwi⟩ := combinedActions_ok hfi
    refine ⟨_, .combined fun a ha => ?_, (Except.ok.inj h).symm⟩
    obtain ⟨i, hi⟩ := mem_iff_getElem?.mp ha
    exact hwi (a, i) (mem_zipIdx_iff_getElem?.mpr hi)

theorem Fields.width (h : Fields a fields) : ∀ field ∈ fields, field.length = 32 := by
  cases h with
  | single _ hle => simp [hle]
  | batch | combined => simpa using length_of_mem_batchAction

/-- Strings of different kinds differ, whatever the fields. Strings of one kind that are
the same have the same fields. -/
theorem same_preimage (h : a.preimage = .ok bytes) (h' : b.preimage = .ok bytes) :
    a.kind = b.kind ∧ ∃ fields, Fields a fields ∧ Fields b fields := by
  obtain ⟨fields, hf, hby⟩ := preimage_fields h
  obtain ⟨_, hf', hby'⟩ := preimage_fields h'
  obtain ⟨hki, hre⟩ := CastKind.domain_append_inj (hby.symm.trans hby')
  cases flatten_inj (by decide) hf.width hf'.width hre
  exact ⟨hki, fields, hf, hf'⟩

theorem bytes32_inj {x y : Bytes32} (h : x.toList = y.toList) : x = y := Vector.toList_inj.mp h

theorem Fields.injective (h : Fields a fields) {fields' : List (List UInt8)}
    (h' : Fields b fields') (hk : a.kind = b.kind) (heq : fields = fields') (ha : a.WellFormed)
    (hb : b.WellFormed) : a = b := by
  cases h with
  | single hr =>
    cases h' with
    | single hr' =>
      simp only [List.cons.injEq, and_true] at heq
      obtain ⟨hro, hrV, hvan, hno, hco, hpr, han⟩ := heq
      rw [decodeRound_injective ha.1 hb.1 hr hr' hro, ha.2.eq hb.2 (by rw [hrV]) hvan hno hco hpr,
        UInt32.toNat_inj.mp (u64Padded32_injective ((UInt32.toNat_lt _).trans (by decide))
          ((UInt32.toNat_lt _).trans (by decide)) han)]
    | _ => cases hk
  | batch hr =>
    cases h' with
    | batch hr' =>
      simp only [List.cons.injEq] at heq
      obtain ⟨hro, han, -, hac⟩ := heq
      rw [decodeRound_injective ha.1 hb.1 hr hr' hro, batchActions_inj ha.2 hb.2 hac,
        UInt64.toNat_inj.mp (u64Padded32_injective (UInt64.toNat_lt _) (UInt64.toNat_lt _) han)]
    | _ => cases hk
  | combined hwi =>
    cases h' with
    | combined hwi' =>
      simp only [List.cons.injEq] at heq
      obtain ⟨hr, hvan, -, hac⟩ := heq
      rw [bytes32_inj hr, bytes32_inj hvan, batchActions_inj hwi hwi' hac]
    | _ => cases hk

end Authorization

/-- Two authorizations that a builder accepts and that give one byte string are of one
kind, and with fields of 32 bytes and valid round ids they are the same. -/
theorem cast_authorizations_distinct (a b : Authorization) (bytes : List UInt8)
    (h : a.preimage = .ok bytes) (h' : b.preimage = .ok bytes) :
    a.kind = b.kind ∧ (a.WellFormed → b.WellFormed → a = b) := by
  obtain ⟨hk, _, hfi, hfi'⟩ := Authorization.same_preimage h h'
  exact ⟨hk, fun ha hb => hfi.injective hfi' hk rfl ha hb⟩

def zeroRound : String := String.ofList (List.replicate 64 '0')

def plainAction (vanNullifier : List UInt8) : CastVoteBatchSighashAction :=
  ⟨List.replicate 32 1, vanNullifier, List.replicate 32 3, List.replicate 32 4, 5⟩

/-- A nullifier without bytes and one zero byte are signed as the same string. -/
theorem narrow_fields_collide :
    Authorization.single zeroRound (plainAction []) 7 ≠ .single zeroRound (plainAction [0]) 7 ∧
      (Authorization.single zeroRound (plainAction []) 7).preimage =
        (Authorization.single zeroRound (plainAction [0]) 7).preimage ∧
      (Authorization.single zeroRound (plainAction []) 7).preimage.toOption.isSome := by
  refine ⟨?_, by decide +kernel, by decide +kernel⟩
  intro h
  cases h

/-- Two votes with different nullifiers of 32 bytes. -/
theorem cast_authorizations_distinct_nullifiers :
    (Authorization.single zeroRound (plainAction (List.replicate 32 2)) 7).preimage ≠
      (Authorization.single zeroRound (plainAction (List.replicate 32 9)) 7).preimage := by
  intro h
  obtain ⟨bytes, hb⟩ : ∃ bytes, (Authorization.single zeroRound
      (plainAction (List.replicate 32 2)) 7).preimage = .ok bytes := ⟨_, rfl⟩
  have hw : ∀ n : UInt8, (plainAction (List.replicate 32 n)).Wide := by
    intro n
    simp [CastVoteBatchSighashAction.Wide, CastVoteBatchSighashAction.fields, plainAction]
  have hr : validateVoteRoundIdHex zeroRound = .ok () := by decide +kernel
  have hsa :=
    (cast_authorizations_distinct (.single zeroRound (plainAction (List.replicate 32 2)) 7)
    (.single zeroRound (plainAction (List.replicate 32 9)) 7) bytes hb (h ▸ hb)).2
    ⟨hr, hw 2⟩ ⟨hr, hw 9⟩
  simp [plainAction] at hsa

end ZcashVoting.Voting
