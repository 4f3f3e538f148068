import Mathlib
import ZcashVoting.SharePolicy.ServerOrder

/-!
# The window of a delayed share

A delayed share is submitted at a second between now and the last moment of the round, at
most 100 hours away. Each second of that window is drawn by as many samples as any other,
give or take one. When the round keeps 40 seconds for its last moment, the share is overdue
while there is still time to send it again.
-/
namespace ZcashVoting.SharePolicy

/-! ### Scaled samples -/

section

variable {n w d : Nat} (hw : 0 < w) (hn : 0 < n)
include hw hn

theorem scaled_eq_iff {s : Nat} : s * w / n = d ↔ d * n ⌈/⌉ w ≤ s ∧ s < (d + 1) * n ⌈/⌉ w := by
  rw [Nat.div_eq_iff hn, ← not_le, ceilDiv_le_iff_le_mul hw, ceilDiv_le_iff_le_mul hw, Nat.succ_mul,
    Nat.mul_comm s]
  omega

/-- Samples below `n` are scaled to each number below `w` equally often, up to one. -/
theorem ncard_scaled (hd : d < w) :
    n / w ≤ {s | s < n ∧ s * w / n = d}.ncard ∧ {s | s < n ∧ s * w / n = d}.ncard ≤ n / w + 1 := by
  have hset : {s | s < n ∧ s * w / n = d} = ↑(Finset.Ico (d * n ⌈/⌉ w) ((d + 1) * n ⌈/⌉ w)) := by
    ext s
    rw [Set.mem_ofPred_eq, scaled_eq_iff hw hn, Finset.coe_Ico, Set.mem_Ico, and_iff_right_iff_imp]
    exact fun hs => hs.2.trans_le ((ceilDiv_le_iff_le_mul hw).mpr (Nat.mul_le_mul_right n hd))
  have hlow := (ceilDiv_le_iff_le_mul hw).mp (le_refl (d * n ⌈/⌉ w))
  have hh := (ceilDiv_le_iff_le_mul hw).mp (le_refl ((d + 1) * n ⌈/⌉ w))
  have hdiv := Nat.div_add_mod n w
  have hmod := Nat.mod_lt n hw
  have hne : (d + 1) * n ⌈/⌉ w ≤ d * n ⌈/⌉ w + n / w + 1 := by
    rw [ceilDiv_le_iff_le_mul hw, Nat.mul_succ, Nat.mul_add, Nat.succ_mul]
    omega
  have hle : n / w ≤ (d + 1) * n ⌈/⌉ w := by
    refine Nat.le_of_mul_le_mul_left (le_trans ?_ hh) hw
    rw [Nat.succ_mul]
    omega
  have hpr : d * n ⌈/⌉ w + n / w ≤ (d + 1) * n ⌈/⌉ w := by
    refine Nat.add_le_of_le_sub hle ((ceilDiv_le_iff_le_mul hw).mpr ?_)
    rw [Nat.succ_mul] at hh
    rw [Nat.succ_mul, Nat.mul_sub]
    omega
  rw [hset, Set.ncard_coe_finset, Nat.card_Ico]
  exact ⟨Nat.le_sub_of_add_le' hpr, Nat.sub_le_iff_le_add'.mpr hne⟩

end

/-! ### Submission times -/

theorem toNat_saturatingSub (a b : UInt64) : (saturatingSub a b).toNat = a.toNat - b.toNat :=
  Nat.mod_eq_of_lt ((Nat.sub_le _ _).trans_lt a.toNat_lt)

theorem toNat_saturatingAdd (a b : UInt64) :
    (saturatingAdd a b).toNat = min (a.toNat + b.toNat) (2 ^ 64 - 1) :=
  Nat.mod_eq_of_lt ((Nat.min_le_right _ _).trans_lt (by decide))

/-- The seconds that a delayed share may be submitted at. -/
structure InDelayWindow (timing : ShareTiming) (buffer submitAt : UInt64) : Prop where
  notBefore : timing.nowSeconds ≤ submitAt
  early : submitAt < saturatingSub timing.voteEndTimeSeconds buffer
  soon : submitAt.toNat < timing.nowSeconds.toNat + shareSubmitAtMaxDelaySeconds.toNat

/-- The samples that a share is submitted at a second for. -/
def samplesAt (timing : ShareTiming) (submitAt : UInt64) : Set Nat :=
  {sample | sample < 2 ^ 64 ∧ scheduledShareSubmitAtFromEntropy timing (Bytes.leBytes 8 sample) = .ok submitAt}

theorem delay_lt (bytes : List UInt8) {w : Nat} (hw : 0 < w) :
    Bytes.ofLeBytes (bytes.take 8) * w / 2 ^ 64 < w := by
  have hsa : Bytes.ofLeBytes (bytes.take 8) < 256 ^ 8 :=
    (Bytes.ofLeBytes_lt _).trans_le (Nat.pow_le_pow_right (by decide) (List.length_take_le 8 bytes))
  exact Nat.div_lt_of_lt_mul (Nat.mul_lt_mul_of_pos_right hsa hw)

section

variable {timing : ShareTiming} {window : UInt64}
  (h : delayedShareWindowSeconds timing = some window)
include h

theorem delayedShareWindowSeconds_some : ∃ buffer, timing.lastMomentBufferSeconds = some buffer ∧
    0 < window.toNat ∧ window.toNat < 2 ^ 64 - timing.nowSeconds.toNat ∧ ∀ submitAt,
      InDelayWindow timing buffer submitAt ↔
      ∃ d < window.toNat, submitAt.toNat = timing.nowSeconds.toNat + d := by
  unfold delayedShareWindowSeconds at h
  split at h
  · cases h
  obtain ⟨buffer, hbu, h⟩ := Option.bind_eq_some_iff.mp h
  simp only [Option.ite_none_left_eq_some, Option.some.injEq] at h
  obtain ⟨-, hl, rfl⟩ := h
  rw [UInt64.not_le, UInt64.lt_iff_toNat_lt] at hl
  have hend := (saturatingSub timing.voteEndTimeSeconds buffer).toNat_lt
  have hmax : shareSubmitAtMaxDelaySeconds.toNat = 360000 := rfl
  rw [UInt64.toNat_min, UInt64.toNat_sub_of_le _ _ (UInt64.le_iff_toNat_le.mpr hl.le)]
  refine ⟨buffer, hbu, by omega, by omega, fun submitAt => ⟨fun ⟨hnow, hea, hso⟩ => ?_, ?_⟩⟩
  · rw [UInt64.le_iff_toNat_le] at hnow
    rw [UInt64.lt_iff_toNat_lt] at hea
    exact ⟨submitAt.toNat - timing.nowSeconds.toNat, by omega, by omega⟩
  · rintro ⟨_, _, _⟩
    refine ⟨UInt64.le_iff_toNat_le.mpr ?_, UInt64.lt_iff_toNat_lt.mpr ?_, ?_⟩ <;> omega

/-- The delay of a sample stays in the window, so that the sum does not saturate. -/
theorem scheduledShareSubmitAtFromEntropy_delayed {bytes : List UInt8} {submitAt : UInt64} :
    scheduledShareSubmitAtFromEntropy timing bytes = .ok submitAt ↔
      8 ≤ bytes.length ∧ submitAt.toNat =
      timing.nowSeconds.toNat + Bytes.ofLeBytes (bytes.take 8) * window.toNat / 2 ^ 64 := by
  obtain ⟨-, -, hpos, _, -⟩ := delayedShareWindowSeconds_some h
  have hde := delay_lt bytes hpos
  rw [scheduledShareSubmitAtFromEntropy, h]
  dsimp only
  by_cases hs : bytes.length < shareSubmitAtRandomBytes
  · rw [if_pos hs]
    exact ⟨nofun, fun hok => absurd hs (Nat.not_lt.mpr hok.1)⟩
  · rw [if_neg hs, Except.ok.injEq, ← UInt64.toNat_inj, toNat_saturatingAdd, UInt64.toNat_ofNat']
    rw [shareSubmitAtRandomBytes] at hs
    omega

/-- Eight bytes of entropy are always enough, and a time is never drawn from fewer. -/
theorem scheduledShareSubmitAtFromEntropy_drawn (bytes : List UInt8) :
    (∃ submitAt, scheduledShareSubmitAtFromEntropy timing bytes = .ok submitAt) ↔
      8 ≤ bytes.length := by
  obtain ⟨-, -, hpos, hfit, -⟩ := delayedShareWindowSeconds_some h
  have hde := delay_lt bytes hpos
  simp only [scheduledShareSubmitAtFromEntropy_delayed h]
  refine ⟨fun ⟨_, hl, _⟩ => hl, fun hl => ⟨.ofNat _, hl, UInt64.toNat_ofNat_of_lt ?_⟩⟩
  show _ < 2 ^ 64
  omega

/-- Every delayed share gets a time in its window, whatever the entropy. Each second of the
window is reached, and two of them by numbers of samples that differ by at most one. -/
theorem delayed_share_times : ∃ buffer, timing.lastMomentBufferSeconds = some buffer ∧
    (∀ bytes, (∃ submitAt, scheduledShareSubmitAtFromEntropy timing bytes = .ok submitAt) ↔
      8 ≤ bytes.length) ∧
    (∀ bytes submitAt, scheduledShareSubmitAtFromEntropy timing bytes = .ok submitAt →
      InDelayWindow timing buffer submitAt) ∧
    ∀ submitAt, InDelayWindow timing buffer submitAt → (samplesAt timing submitAt).Nonempty ∧
      ∀ other, InDelayWindow timing buffer other →
        (samplesAt timing submitAt).ncard ≤ (samplesAt timing other).ncard + 1 := by
  obtain ⟨buffer, hbu, hpos, -, hwi⟩ := delayedShareWindowSeconds_some h
  have hc {submitAt : UInt64} (hat : InDelayWindow timing buffer submitAt) :
      2 ^ 64 / window.toNat ≤ (samplesAt timing submitAt).ncard ∧
        (samplesAt timing submitAt).ncard ≤ 2 ^ 64 / window.toNat + 1 := by
    obtain ⟨d, hd, hat⟩ := (hwi submitAt).mp hat
    have hset : samplesAt timing submitAt = {s | s < 2 ^ 64 ∧ s * window.toNat / 2 ^ 64 = d} := by
      ext s
      refine and_congr_right fun hs => ?_
      rw [scheduledShareSubmitAtFromEntropy_delayed h, Bytes.length_leBytes,
        List.take_of_length_le (Bytes.length_leBytes 8 s).le, Bytes.ofLeBytes_leBytes,
          Nat.mod_eq_of_lt (by exact hs), hat]
      omega
    rw [hset]
    exact ncard_scaled hpos (by decide) hd
  refine ⟨buffer, hbu, scheduledShareSubmitAtFromEntropy_drawn h, fun bytes submitAt hok => ?_,
    fun submitAt hat => ⟨?_, fun other hot => ?_⟩⟩
  · exact (hwi submitAt).mpr ⟨_, delay_lt bytes hpos,
      ((scheduledShareSubmitAtFromEntropy_delayed h).mp hok).2⟩
  · refine Set.nonempty_of_ncard_ne_zero (Nat.ne_of_gt (lt_of_lt_of_le ?_ (hc hat).1))
    exact Nat.div_pos window.toNat_lt.le hpos
  · exact (hc hat).2.trans (Nat.succ_le_succ (hc hot).1)

end

/-- A round of ten minutes, with a last moment of four. -/
theorem delayed_share_times_round : ∃ buffer, some (240 : UInt64) = some buffer ∧
    (∃ submitAt, scheduledShareSubmitAtFromEntropy ⟨100, 700, some 240, false⟩
      (List.replicate 8 255) = .ok submitAt) ∧
    ∀ submitAt, InDelayWindow ⟨100, 700, some 240, false⟩ buffer submitAt →
      (samplesAt ⟨100, 700, some 240, false⟩ submitAt).Nonempty := by
  obtain ⟨buffer, hbu, hok, -, hre⟩ :=
    @delayed_share_times ⟨100, 700, some 240, false⟩ 360 (by decide)
  exact ⟨buffer, hbu, (hok _).mpr (by decide), fun submitAt hat => (hre submitAt hat).1⟩

/-! ### Retries -/

/-- Two fifths of the round, rounded up and capped at six hours. -/
def lastMomentBufferSeconds (ceremonyStartSeconds voteEndTimeSeconds : UInt64) : Option UInt64 :=
  if voteEndTimeSeconds < ceremonyStartSeconds then none
  else
    let duration := voteEndTimeSeconds - ceremonyStartSeconds
    if duration = 0 then none
    else some (.ofNat (min ((duration.toNat * 2 + 5 - 1) / 5) (6 * 60 * 60)))

structure ShareTimingPolicy where
  (minOverdueThresholdSeconds maxOverdueThresholdSeconds resubmitCutoffSeconds : UInt64)

def ShareTimingPolicy.default : ShareTimingPolicy := ⟨30, 60 * 60, 10⟩

/-- What the timing reads of a share's record. -/
structure ShareDelegationRecord where
  (submitAt createdAt : UInt64)
  confirmed : Bool

def shareRecoveryBaseTime (share : ShareDelegationRecord) : UInt64 :=
  if 0 < share.submitAt then share.submitAt else share.createdAt

def overdueThresholdSeconds (share : ShareDelegationRecord) (voteEndTimeSeconds : UInt64)
    (policy : ShareTimingPolicy) : UInt64 :=
  let remainingWindow := saturatingSub voteEndTimeSeconds (shareRecoveryBaseTime share)
  let maxThreshold := max policy.maxOverdueThresholdSeconds policy.minOverdueThresholdSeconds
  min (max (remainingWindow / 4) policy.minOverdueThresholdSeconds) maxThreshold

def isShareResubmissionWindowOpen (nowSeconds voteEndTimeSeconds : UInt64)
    (policy : ShareTimingPolicy) : Bool :=
  saturatingAdd nowSeconds policy.resubmitCutoffSeconds < voteEndTimeSeconds

def shouldResubmitShare (share : ShareDelegationRecord) (nowSeconds voteEndTimeSeconds : UInt64)
    (policy : ShareTimingPolicy) : Bool :=
  if share.confirmed then false
  else
    let retryAt := saturatingAdd (shareRecoveryBaseTime share)
      (overdueThresholdSeconds share voteEndTimeSeconds policy)
    retryAt ≤ nowSeconds && isShareResubmissionWindowOpen nowSeconds voteEndTimeSeconds policy

/-- A delayed share is one with a submission time. It is retried from some second on until
ten seconds before the vote ends, and at one second at least. -/
theorem delayed_share_retried {start voteEnd now buffer window : UInt64} {single : Bool}
    {bytes : List UInt8} {share : ShareDelegationRecord}
    (hbuffer : lastMomentBufferSeconds start voteEnd = some buffer) (hlong : 40 ≤ buffer)
    (hwindow : delayedShareWindowSeconds ⟨now, voteEnd, lastMomentBufferSeconds start voteEnd, single⟩ = some window)
    (hsubmit : scheduledShareSubmitAtFromEntropy ⟨now, voteEnd, lastMomentBufferSeconds start voteEnd, single⟩ bytes =
      .ok share.submitAt) (hdelayed : 0 < share.submitAt) (hopen : share.confirmed = false) :
    ∃ retryAt cutoff, retryAt < cutoff ∧ cutoff.toNat + 10 = voteEnd.toNat ∧ ∀ clock,
      shouldResubmitShare share clock voteEnd .default = true ↔
        retryAt ≤ clock ∧ clock < cutoff := by
  obtain ⟨_, hbu', hpos, -, hin⟩ := delayedShareWindowSeconds_some hwindow
  cases hbuffer.symm.trans hbu'
  have hea : share.submitAt < saturatingSub voteEnd buffer := ((hin share.submitAt).mpr
    ⟨_, delay_lt bytes hpos, ((scheduledShareSubmitAtFromEntropy_delayed hwindow).mp hsubmit).2⟩).early
  have hb : shareRecoveryBaseTime share = share.submitAt := if_pos hdelayed
  have hend := voteEnd.toNat_lt
  have hlong : 40 ≤ buffer.toNat := hlong
  rw [UInt64.lt_iff_toNat_lt, toNat_saturatingSub] at hea
  have hth : (overdueThresholdSeconds share voteEnd .default).toNat =
      min (max ((voteEnd.toNat - share.submitAt.toNat) / 4) 30) 3600 := by
    simp only [overdueThresholdSeconds, hb, UInt64.toNat_min, UInt64.toNat_max, UInt64.toNat_div,
      toNat_saturatingSub]
    rfl
  have hc : (voteEnd - 10).toNat = voteEnd.toNat - 10 :=
    UInt64.toNat_sub_of_le _ _ (UInt64.le_iff_toNat_le.mpr (by simp; omega))
  refine ⟨saturatingAdd share.submitAt (overdueThresholdSeconds share voteEnd .default),
    voteEnd - 10, ?_, ?_, ?_⟩
  · rw [UInt64.lt_iff_toNat_lt, toNat_saturatingAdd, hth, hc]
    omega
  · omega
  · intro clock
    rw [shouldResubmitShare, hopen, hb]
    simp only [Bool.false_eq_true, if_false, Bool.and_eq_true, decide_eq_true_eq,
      isShareResubmissionWindowOpen]
    refine and_congr_right fun _ => ?_
    rw [UInt64.lt_iff_toNat_lt, UInt64.lt_iff_toNat_lt, toNat_saturatingAdd, hc,
      show ShareTimingPolicy.default.resubmitCutoffSeconds.toNat = 10 from rfl]
    omega

theorem delayed_share_retried_round : ∃ retryAt cutoff, retryAt < cutoff ∧
    cutoff.toNat + 10 = (700 : UInt64).toNat ∧ ∀ clock,
    shouldResubmitShare ⟨100, 100, false⟩ clock 700 .default = true ↔
      retryAt ≤ clock ∧ clock < cutoff :=
  @delayed_share_retried 100 700 100 240 360 false (List.replicate 8 0) ⟨100, 100,
    false⟩ (by decide) (by decide)
    (by decide) (by decide +kernel) (by decide) rfl

end ZcashVoting.SharePolicy
