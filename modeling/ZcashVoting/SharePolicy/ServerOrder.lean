import ZcashVoting.ChainSubmission.Vocabulary
import ZcashVoting.Lib.Bytes
import ZcashVoting.Lib.KeyedMap

/-!
# Helper order and submission times

How many helpers each share goes to, how a helper list is shuffled, and when a share is
submitted. The caller supplies the entropy; a byte slice never holds more than
`isize::MAX` bytes, which is what keeps the sizes computed from it in range.
-/
namespace ZcashVoting.SharePolicy

structure ByteSlice where
  bytes : List UInt8
  bounded : bytes.length < 2 ^ 63

def usizeMax : Nat := 2 ^ 64 - 1

def saturatingMul (a b : Nat) : Nat := min (a * b) usizeMax

def saturatingAdd (a b : UInt64) : UInt64 := .ofNat (min (a.toNat + b.toNat) (2 ^ 64 - 1))

def saturatingSub (a b : UInt64) : UInt64 := .ofNat (a.toNat - b.toNat)

/-! ### Selection policy -/

def voteCommitmentShareCount : Nat := 16

def shareHelperInitialMaxFractionNumerator : Nat := 3

def shareHelperInitialMaxFractionDenominator : Nat := 4

def shareHelperMaxInitialSharesPerServer : Nat :=
  voteCommitmentShareCount * shareHelperInitialMaxFractionNumerator / shareHelperInitialMaxFractionDenominator

def shareHelperTargetCountCap : Nat := 10

def shareSubmissionTargetCount (serverCount : Nat) : Nat :=
  min (serverCount / 2 + serverCount % 2) shareHelperTargetCountCap

def minimumCompleteBatchPlanningServerCount (targetCount : Nat) : Nat :=
  if targetCount = 0 then 0
  else (voteCommitmentShareCount * targetCount + shareHelperMaxInitialSharesPerServer - 1) /
    shareHelperMaxInitialSharesPerServer

structure ShareServerSelectionPolicy where
  (targetCount maxSharesPerServer minServerCount : UInt32)
  deriving DecidableEq

def shareServerSelectionPolicy (serverCount : Nat) : ShareServerSelectionPolicy :=
  let targetCount := shareSubmissionTargetCount serverCount
  let limits :=
    if serverCount = 0 then (0, 0)
    else if serverCount = 1 then (voteCommitmentShareCount, 1)
    else (shareHelperMaxInitialSharesPerServer, minimumCompleteBatchPlanningServerCount targetCount)
  ⟨.ofNat targetCount, .ofNat limits.1, .ofNat limits.2⟩

theorem shareSubmissionTargetCount_le_cap (serverCount : Nat) :
    shareSubmissionTargetCount serverCount ≤ 10 :=
  Nat.min_le_right _ _

theorem minimumCompleteBatchPlanningServerCount_eq {targetCount : Nat} (h : 0 < targetCount) :
    minimumCompleteBatchPlanningServerCount targetCount = (16 * targetCount + 11) / 12 := by
  rw [minimumCompleteBatchPlanningServerCount, if_neg h.ne']
  change (16 * targetCount + 12 - 1) / 12 = _
  omega

/-- The pool of a complete commitment has room for every share, and fits the fleet. -/
theorem minServerCount_bounds {serverCount : Nat} (h : 2 ≤ serverCount) :
    16 * shareSubmissionTargetCount serverCount ≤ 12 * (shareServerSelectionPolicy serverCount).minServerCount.toNat ∧
      (shareServerSelectionPolicy serverCount).minServerCount.toNat ≤ serverCount := by
  have hcap := shareSubmissionTargetCount_le_cap serverCount
  have hha : shareSubmissionTargetCount serverCount ≤ serverCount / 2 + serverCount % 2 :=
    Nat.min_le_left _ _
  have hpos : 0 < shareSubmissionTargetCount serverCount := by
    unfold shareSubmissionTargetCount shareHelperTargetCountCap
    omega
  have hmin : (shareServerSelectionPolicy serverCount).minServerCount.toNat =
      (16 * shareSubmissionTargetCount serverCount + 11) / 12 := by
    simp only [shareServerSelectionPolicy, if_neg (show serverCount ≠ 0 by omega),
      if_neg (show serverCount ≠ 1 by omega), minimumCompleteBatchPlanningServerCount_eq hpos,
      UInt32.toNat_ofNat']
    omega
  omega

/-! ### Shuffle -/

def shareServerOrderRandomBytesRequired (serverCount : Nat) : Nat :=
    saturatingMul (serverCount - 1) 8

def requireUniqueShareServersFrom (seen : List String) : List String → Except VotingError Unit
  | [] => .ok ()
  | serverUrl :: rest =>
    if serverUrl ∈ seen then .error (.invalidInput "server_urls must not contain duplicates")
    else requireUniqueShareServersFrom (serverUrl :: seen) rest

def requireUniqueShareServers (serverUrls : List String) : Except VotingError Unit :=
  requireUniqueShareServersFrom [] serverUrls

/-- One swap of the shuffle, with the next eight bytes. -/
def shuffleStep (randomBytes : List UInt8) (state : Array String × Nat) (index : Nat) :
    Array String × Nat :=
  let sample := Bytes.ofLeBytes ((randomBytes.drop state.2).take 8)
  (state.1.swapIfInBounds index (sample % (index + 1)), state.2 + 8)

def shuffledShareServerOrder (serverUrls : List String) (randomBytes : List UInt8) :
    Except VotingError (List String) := do
  requireUniqueShareServers serverUrls
  let needed := shareServerOrderRandomBytesRequired serverUrls.length
  if randomBytes.length < needed then
    .error (.invalidInput
      s!"server_random_bytes must contain at least {needed} bytes for {serverUrls.length} servers")
  else
    .ok ((List.range' 1 (serverUrls.length - 1)).reverse.foldl (shuffleStep randomBytes)
      (serverUrls.toArray, 0)).1.toList

variable {serverUrls : List String}

theorem requireUniqueShareServersFrom_ok {seen : List String} :
    requireUniqueShareServersFrom seen serverUrls = .ok () ↔
      serverUrls.Nodup ∧ ∀ url ∈ serverUrls, url ∉ seen := by
  induction serverUrls generalizing seen with
  | nil => simp [requireUniqueShareServersFrom]
  | cons url _ ih =>
    unfold requireUniqueShareServersFrom
    by_cases hs : url ∈ seen
    · simp [hs]
    rw [if_neg hs, ih, List.nodup_cons]
    constructor
    · rintro ⟨hn, hf⟩
      refine ⟨⟨fun hmem => hf url hmem (.head _), hn⟩, fun other ho => ?_⟩
      rcases List.mem_cons.mp ho with rfl | hre
      · exact hs
      · exact fun hmem => hf other hre (.tail _ hmem)
    · rintro ⟨⟨hno, hn⟩, hf⟩
      refine ⟨hn, fun other ho hmem => ?_⟩
      rcases List.mem_cons.mp hmem with rfl | hmem
      · exact hno ho
      · exact hf other (.tail _ ho) hmem

theorem requireUniqueShareServers_ok : requireUniqueShareServers serverUrls = .ok () ↔
    serverUrls.Nodup := by
  rw [requireUniqueShareServers, requireUniqueShareServersFrom_ok]
  simp

theorem shuffleStep_perm (randomBytes : List UInt8) (state : Array String × Nat) (index : Nat) :
    (shuffleStep randomBytes state index).1.Perm state.1 := by
  simp only [shuffleStep, Array.swapIfInBounds]
  split
  · split
    · exact Array.swap_perm _ _
    · exact .rfl
  · exact .rfl

theorem shuffle_perm (randomBytes : List UInt8) (indices : List Nat) (state : Array String × Nat) :
    (indices.foldl (shuffleStep randomBytes) state).1.Perm state.1 := by
  induction indices generalizing state with
  | nil => exact .rfl
  | cons index _ ih => exact (ih _).trans (shuffleStep_perm randomBytes state index)

/-- With entropy enough, distinct helpers are put in another order. -/
theorem shuffledShareServerOrder_ok {randomBytes : List UInt8} (hno : serverUrls.Nodup)
    (hby : shareServerOrderRandomBytesRequired serverUrls.length ≤ randomBytes.length) :
    ∃ order, shuffledShareServerOrder serverUrls randomBytes = .ok order ∧
      order.Perm serverUrls := by
  refine ⟨_, ?_, (shuffle_perm randomBytes (List.range' 1 (serverUrls.length - 1)).reverse
    (serverUrls.toArray, 0)).toList⟩
  rw [shuffledShareServerOrder, requireUniqueShareServers_ok.mpr hno]
  exact if_neg (not_lt.mpr hby)

/-! ### Submission times -/

/-- The clock, the round's end and its last-moment buffer, in seconds, and whether the
batch is a single share. -/
structure ShareTiming where
  (nowSeconds voteEndTimeSeconds : UInt64)
  lastMomentBufferSeconds : Option UInt64
  singleShare : Bool

def shareSubmitAtRandomBytes : Nat := 8

def shareSubmitAtMaxDelaySeconds : UInt64 := 100 * 60 * 60

/-- The randomized delay window, absent when the share is due now. -/
def delayedShareWindowSeconds (timing : ShareTiming) : Option UInt64 :=
  if timing.singleShare then none
  else
    timing.lastMomentBufferSeconds.bind fun buffer =>
      if buffer = 0 then none
      else
        let deadline := saturatingSub timing.voteEndTimeSeconds buffer
        if deadline ≤ timing.nowSeconds then none
        else some (min (deadline - timing.nowSeconds) shareSubmitAtMaxDelaySeconds)

def shareSubmitAtRandomBytesRequired (timing : ShareTiming) : Nat :=
  if (delayedShareWindowSeconds timing).isSome then shareSubmitAtRandomBytes else 0

def scheduledShareSubmitAtFromEntropy (timing : ShareTiming) (submitAtRandomBytes : List UInt8) :
    Except VotingError UInt64 :=
  match delayedShareWindowSeconds timing with
  | none => .ok 0
  | some windowSeconds =>
    if submitAtRandomBytes.length < shareSubmitAtRandomBytes then
      .error (.invalidInput s!"submit_at_random_bytes must contain at least {shareSubmitAtRandomBytes} bytes")
    else
      let sample := Bytes.ofLeBytes (submitAtRandomBytes.take 8)
      let delaySeconds : UInt64 := .ofNat (sample * windowSeconds.toNat / 2 ^ 64)
      .ok (saturatingAdd timing.nowSeconds delaySeconds)

theorem scheduledShareSubmitAtFromEntropy_ok {timing : ShareTiming}
    {submitAtRandomBytes : List UInt8}
    (hb : shareSubmitAtRandomBytesRequired timing ≤ submitAtRandomBytes.length) :
    ∃ submitAt, scheduledShareSubmitAtFromEntropy timing submitAtRandomBytes = .ok submitAt := by
  unfold scheduledShareSubmitAtFromEntropy
  unfold shareSubmitAtRandomBytesRequired at hb
  cases hwi : delayedShareWindowSeconds timing with
  | none => exact ⟨0, rfl⟩
  | some =>
    rw [hwi] at hb
    exact ⟨_, if_neg (not_lt.mpr hb)⟩

end ZcashVoting.SharePolicy
