import ZcashVoting.Lib.Balance
import ZcashVoting.SharePolicy.ServerOrder

/-!
# Initial placement of helper shares

The planner gives every share of a batch its helpers and its submission time. A complete
commitment is spread over a planning prefix of the ranked helpers: each share takes the
least used ones, in shuffled order, and no helper is given more than three quarters of
the shares.
-/
namespace ZcashVoting.SharePolicy

open KeyedData Balance List

structure ShareSubmissionPlan where
  immediate : Bool
  submitAt : UInt64
  targetCount : UInt32
  targetServers : List String
  deriving DecidableEq

structure ShareSubmissionRandomBytesRequired where
  (submitAtRandomBytes serverRandomBytes : Nat)
  deriving DecidableEq

def shareSubmissionRandomBytesRequired (shareCount serverCount : Nat) (timing : ShareTiming) :
    ShareSubmissionRandomBytesRequired where
  submitAtRandomBytes := saturatingMul (shareSubmitAtRandomBytesRequired timing) shareCount
  serverRandomBytes := saturatingMul (shareServerOrderRandomBytesRequired serverCount) shareCount

def checkedRandomBytesRequired (perShare shareCount : Nat) (name : String) :
    Except VotingError Nat :=
  if perShare * shareCount ≤ usizeMax then .ok (perShare * shareCount)
  else .error (.invalidInput s!"{name} requirement overflows usize")

def requireShareServers (serverUrls : List String) : Except VotingError Unit :=
  if serverUrls = [] then .error (.invalidInput "server_urls must not be empty")
  else requireUniqueShareServers serverUrls

def buildShareSubmissionPlan (immediate : Bool) (targetCount : Nat) (targetServers : List String)
    (submitAt : UInt64) : Except VotingError ShareSubmissionPlan :=
  if targetCount < 2 ^ 32 then .ok ⟨immediate, submitAt, .ofNat targetCount, targetServers⟩
  else .error (.invalidInput s!"target_count {targetCount} does not fit u32")

/-! ### Targets of one share -/

abbrev ServerUsage := KeyedMap String Nat

def ServerUsage.of (serverUsage : ServerUsage) (server : String) : Nat :=
    (serverUsage.get? server).getD 0

/-- The sort key of a shuffled helper: its uses, then its place in the shuffle. -/
def rankedBefore (serverUsage : ServerUsage) (a b : String × Nat) : Prop :=
  serverUsage.of a.1 < serverUsage.of b.1 ∨ serverUsage.of a.1 = serverUsage.of b.1 ∧ a.2 ≤ b.2

instance (serverUsage : ServerUsage) : DecidableRel (rankedBefore serverUsage) :=
  fun _ _ => inferInstanceAs (Decidable (_ ∨ _))

/-- The helpers below the quota, least used first. -/
def availableServers (maxSharesPerServer : Option Nat) (serverUsage : ServerUsage)
    (order : List String) :
    List String :=
  ((order.zipIdx.insertionSort (rankedBefore serverUsage)).map Prod.fst).filter fun server =>
    maxSharesPerServer.all fun maximum => decide (serverUsage.of server < maximum)

def ServerUsage.record (serverUsage : ServerUsage) (selected : List String) : ServerUsage :=
  selected.foldl (fun usage server => usage.set server (ServerUsage.of usage server + 1))
    serverUsage

def selectBatchShareSubmissionTargets (serverUrls : List String) (targetCount : Nat)
    (maxSharesPerServer : Option Nat) (serverUsage : ServerUsage) (serverRandomBytes : List UInt8) :
    Except VotingError (List String × ServerUsage) := do
  let randomizedOrder ← shuffledShareServerOrder serverUrls serverRandomBytes
  let selected := (availableServers maxSharesPerServer serverUsage randomizedOrder).take targetCount
  if selected.length ≠ targetCount then
    .error (.invalidInput
      s!"cannot select {targetCount} distinct helpers without exceeding the initial per-helper share quota")
  else .ok (selected, serverUsage.record selected)

/-! ### Plans of a batch -/

def minimumPlanningServerCount (shareCount serverCount : Nat) (singleShare : Bool) : Nat :=
  if shareCount = voteCommitmentShareCount ∧ ¬ singleShare then
    (shareServerSelectionPolicy serverCount).minServerCount.toNat
  else shareSubmissionTargetCount serverCount

def planningServerCount (shareCount serverCount preferredServerCount : Nat)
    (singleShare : Bool) : Nat :=
  min (max preferredServerCount (minimumPlanningServerCount shareCount serverCount singleShare))
    serverCount

/-- What the loop over the shares of a batch reads. -/
structure BatchPlanning where
  planningServers : List String
  targetCount : Nat
  maxSharesPerServer : Option Nat
  timing : ShareTiming
  immediateShareIndex : Option UInt32
  (submitAtBytesPerShare serverBytesPerShare : Nat)
  (submitAtRandomBytes serverRandomBytes : List UInt8)

def BatchPlanning.isImmediate (batch : BatchPlanning) (shareIndex : Nat) : Bool :=
  decide (batch.immediateShareIndex = some (.ofNat shareIndex))

/-- The immediate share is due now, any other at a time sampled from its own bytes. -/
def BatchPlanning.submitAt (batch : BatchPlanning) (shareIndex : Nat) : Except VotingError UInt64 :=
  if batch.isImmediate shareIndex then .ok 0
  else scheduledShareSubmitAtFromEntropy batch.timing
    ((batch.submitAtRandomBytes.drop (shareIndex * batch.submitAtBytesPerShare)).take batch.submitAtBytesPerShare)

def BatchPlanning.planShare (batch : BatchPlanning) (state : ServerUsage × List ShareSubmissionPlan)
    (shareIndex : Nat) : Except VotingError (ServerUsage × List ShareSubmissionPlan) := do
  let (targetServers, serverUsage) ← selectBatchShareSubmissionTargets batch.planningServers
    batch.targetCount batch.maxSharesPerServer state.1
    ((batch.serverRandomBytes.drop (shareIndex * batch.serverBytesPerShare)).take batch.serverBytesPerShare)
  let submitAt ← batch.submitAt shareIndex
  let plan ← buildShareSubmissionPlan (batch.isImmediate shareIndex) batch.targetCount
    targetServers submitAt
  .ok (serverUsage, state.2 ++ [plan])

/-- The planning prefix and the quota of a batch. -/
def batchPlanning (shareCount : Nat) (rankedServerUrls : List String) (preferredServerCount : Nat)
    (timing : ShareTiming) (immediateShareIndex : Option UInt32)
    (submitAtRandomBytes serverRandomBytes : ByteSlice) : BatchPlanning :=
  let planning :=
    planningServerCount shareCount rankedServerUrls.length preferredServerCount timing.singleShare
  { planningServers := rankedServerUrls.take planning
    targetCount := shareSubmissionTargetCount rankedServerUrls.length
    maxSharesPerServer :=
      if (shareCount = voteCommitmentShareCount ∧ ¬ timing.singleShare) ∧ 1 < planning then
        some shareHelperMaxInitialSharesPerServer
      else none
    timing := timing
    immediateShareIndex := immediateShareIndex
    submitAtBytesPerShare := shareSubmitAtRandomBytesRequired timing
    serverBytesPerShare := shareServerOrderRandomBytesRequired rankedServerUrls.length
    submitAtRandomBytes := submitAtRandomBytes.bytes
    serverRandomBytes := serverRandomBytes.bytes }

def planShareSubmissionsWithPreferredServers (shareCount : Nat) (rankedServerUrls : List String)
    (preferredServerCount : Nat) (timing : ShareTiming) (immediateShareIndex : Option UInt32)
    (submitAtRandomBytes serverRandomBytes : ByteSlice) :
    Except VotingError (List ShareSubmissionPlan) :=
  if timing.singleShare ∧ shareCount ≠ 1 then
    .error (.invalidInput s!"single_share planning requires exactly one share payload, got {shareCount}")
  else if immediateShareIndex.any fun index => decide (shareCount ≤ index.toNat) then
    .error (.invalidInput s!"immediate_share_index must be less than share_count {shareCount}")
  else if shareCount = 0 then .ok []
  else do
    requireShareServers rankedServerUrls
    if rankedServerUrls.length < preferredServerCount then
      .error (.invalidInput "preferred_server_count must not exceed ranked_server_urls length")
    else
      let submitAtBytesNeeded ← checkedRandomBytesRequired
        (shareSubmitAtRandomBytesRequired timing) shareCount "submit_at_random_bytes"
      let serverBytesNeeded ← checkedRandomBytesRequired
        (shareServerOrderRandomBytesRequired rankedServerUrls.length) shareCount "server_random_bytes"
      if submitAtRandomBytes.bytes.length < submitAtBytesNeeded then
        .error (.invalidInput s!"submit_at_random_bytes must contain at least {submitAtBytesNeeded} bytes")
      else if serverRandomBytes.bytes.length < serverBytesNeeded then
        .error (.invalidInput s!"server_random_bytes must contain at least {serverBytesNeeded} bytes")
      else
        let minimum :=
          minimumPlanningServerCount shareCount rankedServerUrls.length timing.singleShare
        if rankedServerUrls.length < minimum then
          .error (.invalidInput (s!"complete share batch requires at least {minimum} helpers to keep " ++
            s!"each helper at or below {shareHelperMaxInitialSharesPerServer} initial shares"))
        else
          let batch := batchPlanning shareCount rankedServerUrls preferredServerCount timing
            immediateShareIndex submitAtRandomBytes serverRandomBytes
          let final ← (List.range shareCount).foldlM batch.planShare (⟨[], .nil⟩, [])
          .ok final.2

def planShareSubmissions (shareCount : Nat) (serverUrls : List String) (timing : ShareTiming)
    (immediateShareIndex : Option UInt32) (submitAtRandomBytes serverRandomBytes : ByteSlice) :
    Except VotingError (List ShareSubmissionPlan) :=
  planShareSubmissionsWithPreferredServers shareCount serverUrls serverUrls.length timing
    immediateShareIndex submitAtRandomBytes serverRandomBytes

/-! ### What one share takes -/

section

variable {serverUsage : ServerUsage} {selected servers order : List String} {targetCount : Nat}

theorem record_of (hs : selected.Nodup) (server : String) :
    (serverUsage.record selected).of server = used serverUsage.of selected server := by
  suffices hgen : ∀ usage : ServerUsage, (usage.record selected).of server =
      usage.of server + if server ∈ selected then 1 else 0 from hgen serverUsage
  induction selected with
  | nil => exact fun usage => rfl
  | cons taken rest ih =>
    intro usage
    rw [nodup_cons] at hs
    have hre := ih hs.2 (usage.set taken (usage.of taken + 1))
    change (ServerUsage.record (usage.set taken (usage.of taken + 1)) rest).of server = _
    rw [hre]
    by_cases hse : server = taken
    · subst hse
      rw [if_neg hs.1, if_pos (mem_cons_self), ServerUsage.of, KeyedMap.get?_set_self]
      rfl
    · rw [ServerUsage.of, KeyedMap.get?_set_of_ne hse]
      simp only [mem_cons, hse, false_or]
      rfl

theorem ranked_sorted (serverUsage : ServerUsage) (order : List String) :
    ((order.zipIdx.insertionSort (rankedBefore serverUsage)).map Prod.fst).Pairwise
      (serverUsage.of · ≤ serverUsage.of ·) := by
  have : Std.Total (rankedBefore serverUsage) := ⟨fun a b => by unfold rankedBefore; omega⟩
  have : IsTrans _ (rankedBefore serverUsage) :=
    ⟨fun a b c hab hbc => by unfold rankedBefore at hab hbc ⊢; omega⟩
  rw [pairwise_map]
  refine (pairwise_insertionSort (rankedBefore serverUsage) order.zipIdx).imp fun hab => ?_
  rcases hab with hlt | ⟨heq, -⟩
  · exact hlt.le
  · exact heq.le

theorem ranked_perm (serverUsage : ServerUsage) (order : List String) :
    ((order.zipIdx.insertionSort (rankedBefore serverUsage)).map Prod.fst).Perm order := by
  have hpe := (perm_insertionSort (rankedBefore serverUsage) order.zipIdx).map Prod.fst
  rwa [zipIdx_map_fst] at hpe

/-- What a share's selection under a quota guarantees. -/
structure Selects (servers : List String) (targetCount quota : Nat) (serverUsage : ServerUsage)
    (selected : List String) : Prop where
  length : selected.length = targetCount
  nodup : selected.Nodup
  subset : selected ⊆ servers
  least : LeastUsed serverUsage.of servers selected
  below : ∀ server ∈ selected, serverUsage.of server < quota

/-- A share finds its helpers as long as enough of them are below the quota. -/
theorem selectBatchShareSubmissionTargets_ok {quota : Nat} {bytes : List UInt8} (hs : servers.Nodup)
    (hby : shareServerOrderRandomBytesRequired servers.length ≤ bytes.length)
    (hfr : targetCount ≤ (servers.filter fun server => decide (serverUsage.of server < quota)).length) :
    ∃ selected, Selects servers targetCount quota serverUsage selected ∧
      selectBatchShareSubmissionTargets servers targetCount (some quota) serverUsage bytes =
        .ok (selected, serverUsage.record selected) := by
  obtain ⟨order, hor, hpe⟩ := shuffledShareServerOrder_ok hs hby
  have hr := (ranked_perm serverUsage order).trans hpe
  have hl : ((availableServers (some quota) serverUsage order).take targetCount).length =
      targetCount := by
    rw [length_take, availableServers, Nat.min_eq_left]
    simpa only [Option.all_some] using hfr.trans_eq (hr.filter _).length_eq.symm
  have hsub : (availableServers (some quota) serverUsage order).take targetCount ⊆ servers :=
    fun server hmem => hr.subset (mem_filter.mp (mem_of_mem_take hmem)).1
  have hbe : ∀ server ∈ (availableServers (some quota) serverUsage order).take targetCount,
      serverUsage.of server < quota := fun server hmem =>
    of_decide_eq_true (mem_filter.mp (mem_of_mem_take hmem)).2
  have hle :
    LeastUsed serverUsage.of ((order.zipIdx.insertionSort (rankedBefore serverUsage)).map Prod.fst)
      ((availableServers (some quota) serverUsage order).take targetCount) := by
    refine leastUsed_take_filter (ranked_sorted serverUsage order) fun a b ha hb => ?_
    simp only [Option.all_some, decide_eq_true_eq, decide_eq_false_iff_not] at ha hb
    omega
  refine ⟨_, ⟨hl, ?_, hsub, ?_, hbe⟩, ?_⟩
  · exact ((hr.nodup_iff.mpr hs).filter _).sublist (take_sublist _ _)
  · exact fun a ha b hb => hle a ha b (hr.mem_iff.mpr hb)
  · rw [selectBatchShareSubmissionTargets, hor]
    exact if_neg (not_not.mpr hl)

end

/-! ### What a batch spreads -/

/-- How many shares a helper is given. -/
def sharesOf (plans : List ShareSubmissionPlan) (server : String) : Nat :=
  plans.countP fun plan => decide (server ∈ plan.targetServers)

/-- A plan names the target number of different helpers. -/
structure Targets (servers : List String) (targetCount : Nat)
    (plan : ShareSubmissionPlan) : Prop where
  count : plan.targetCount.toNat = targetCount
  length : plan.targetServers.length = targetCount
  nodup : plan.targetServers.Nodup
  subset : plan.targetServers ⊆ servers

/-- The loop's state: the uses are the shares planned so far, and they are balanced. -/
structure Spread (servers : List String) (targetCount quota : Nat)
    (state : ServerUsage × List ShareSubmissionPlan) : Prop where
  counted : ∀ server, state.1.of server = sharesOf state.2 server
  balanced : Balanced state.1.of servers
  quota : ∀ server ∈ servers, state.1.of server ≤ quota
  total : (servers.map state.1.of).sum = state.2.length * targetCount
  targets : ∀ plan ∈ state.2, Targets servers targetCount plan

theorem spread_empty {servers : List String} {targetCount quota : Nat} :
    Spread servers targetCount quota (⟨[], .nil⟩, []) where
  counted := fun _ => rfl
  balanced := fun _ _ _ _ => Nat.zero_le _
  quota := fun _ _ => Nat.zero_le _
  total := by
    change (servers.map fun _ => 0).sum = 0 * targetCount
    simp
  targets := fun _ hpl => absurd hpl not_mem_nil

variable {state : ServerUsage × List ShareSubmissionPlan}

theorem Spread.push {servers selected : List String} {targetCount quota : Nat}
    (h : Spread servers targetCount quota state)
    (hse : servers.Nodup) (hs : Selects servers targetCount quota state.1 selected)
    (hsm : targetCount < 2 ^ 32) (immediate : Bool) (submitAt : UInt64) :
    Spread servers targetCount quota (state.1.record selected,
      state.2 ++ [⟨immediate, submitAt, .ofNat targetCount, selected⟩]) := by
  have hof : (state.1.record selected).of = used state.1.of selected := funext (record_of hs.nodup)
  refine ⟨fun server => ?_, ?_, fun server hser => ?_, ?_, ?_⟩
  · rw [hof, used, h.counted, sharesOf, sharesOf, countP_append, countP_singleton]
    simp only [decide_eq_true_eq]
  · rw [hof]
    exact h.balanced.used hs.least
  · rw [hof, used]
    split
    · exact hs.below server ‹_›
    · exact h.quota server hser
  · rw [hof, sum_used hse hs.nodup hs.subset, h.total, hs.length, length_append, length_singleton,
      Nat.succ_mul]
  · intro other hot
    rcases mem_append.mp hot with hold | hnew
    · exact h.targets other hold
    · rw [mem_singleton.mp hnew]
      refine ⟨?_, hs.length, hs.nodup, hs.subset⟩
      exact Nat.mod_eq_of_lt hsm

theorem length_slice {bytes : List UInt8} {index count width : Nat} (hin : index < count)
    (hby : width * count ≤ bytes.length) :
    ((bytes.drop (index * width)).take width).length = width := by
  have hend : index * width + width ≤ width * count := by
    rw [← Nat.succ_mul, Nat.mul_comm width]
    exact Nat.mul_le_mul_right _ hin
  rw [length_take, length_drop]
  omega

/-- A batch of `shareCount` shares whose entropy was checked, over a pool with room for
all of them. -/
structure BatchPlanning.Ready (batch : BatchPlanning) (shareCount quota : Nat) : Prop where
  nodup : batch.planningServers.Nodup
  limited : batch.maxSharesPerServer = some quota
  enough : batch.targetCount ≤ batch.planningServers.length
  room : shareCount * batch.targetCount ≤ quota * batch.planningServers.length
  small : batch.targetCount < 2 ^ 32
  serverWidth : shareServerOrderRandomBytesRequired batch.planningServers.length ≤
    batch.serverBytesPerShare
  serverBytes : batch.serverBytesPerShare * shareCount ≤ batch.serverRandomBytes.length
  submitAtWidth : shareSubmitAtRandomBytesRequired batch.timing = batch.submitAtBytesPerShare
  submitAtBytes : batch.submitAtBytesPerShare * shareCount ≤ batch.submitAtRandomBytes.length

variable {batch : BatchPlanning} {shareCount : Nat}

theorem BatchPlanning.Ready.submitAt_ok {quota index : Nat}
    (h : batch.Ready shareCount quota) (hin : index < shareCount) :
    ∃ submitAt, batch.submitAt index = .ok submitAt := by
  unfold BatchPlanning.submitAt
  split
  · exact ⟨0, rfl⟩
  · exact scheduledShareSubmitAtFromEntropy_ok
      (h.submitAtWidth.trans (length_slice hin h.submitAtBytes).symm).le

/-- Every share of a ready batch is planned, and the plans stay spread. -/
theorem BatchPlanning.Ready.planShare_ok {quota : Nat} (h : batch.Ready shareCount quota)
    (hs : Spread batch.planningServers batch.targetCount quota state)
    (hi : state.2.length < shareCount) :
    ∃ state', batch.planShare state state.2.length = .ok state' ∧
      Spread batch.planningServers batch.targetCount quota state' ∧
        state'.2.length = state.2.length + 1 := by
  have hfr : batch.targetCount ≤
      (batch.planningServers.filter fun server => decide (state.1.of server < quota)).length := by
    refine hs.balanced.le_length_free ?_ h.enough
    rw [hs.total, ← Nat.succ_mul]
    exact (Nat.mul_le_mul_right _ hi).trans h.room
  have hser := length_slice hi h.serverBytes
  obtain ⟨_, hse, hsel⟩ :=
    selectBatchShareSubmissionTargets_ok h.nodup (h.serverWidth.trans_eq hser.symm) hfr
  obtain ⟨submitAt, hsu⟩ := h.submitAt_ok hi
  refine ⟨_, ?_, hs.push h.nodup hse h.small (batch.isImmediate state.2.length) submitAt,
    by rw [length_append, length_singleton]⟩
  rw [BatchPlanning.planShare, h.limited, hsel]
  refine bind_ok_iff.mpr ⟨_, rfl, ?_⟩
  refine bind_ok_iff.mpr ⟨submitAt, hsu, ?_⟩
  rw [buildShareSubmissionPlan, if_pos h.small]
  rfl

theorem BatchPlanning.Ready.plan_ok {quota : Nat} (h : batch.Ready shareCount quota) :
    ∃ final, (List.range shareCount).foldlM batch.planShare (⟨[], .nil⟩, []) = .ok final ∧
      Spread batch.planningServers batch.targetCount quota final ∧ final.2.length = shareCount := by
  suffices hgen : ∀ count ≤ shareCount, ∃ final,
      (List.range count).foldlM batch.planShare (⟨[], .nil⟩, []) = .ok final ∧
        Spread batch.planningServers batch.targetCount quota final ∧ final.2.length = count from
    hgen shareCount le_rfl
  intro count hc
  induction count with
  | zero => exact ⟨_, rfl, spread_empty, rfl⟩
  | succ _ ih =>
    obtain ⟨state, hfo, hst, hl⟩ := ih (Nat.le_of_succ_le hc)
    obtain ⟨final, hs, hfi, hn⟩ := h.planShare_ok hst (by rw [hl]; exact hc)
    rw [hl] at hs hn
    refine ⟨final, ?_, hfi, hn⟩
    rw [range_succ, foldlM_append]
    exact bind_ok_iff.mpr ⟨state, hfo, bind_ok_iff.mpr ⟨final, hs, rfl⟩⟩

/-! ### Complete commitments -/

/-- The plans of a complete commitment over its planning prefix. -/
structure CompletePlacement (servers : List String) (targetCount : Nat)
    (plans : List ShareSubmissionPlan) : Prop where
  shares : plans.length = 16
  targets : ∀ plan ∈ plans, Targets servers targetCount plan
  even : ∀ a ∈ servers, ∀ b ∈ servers, sharesOf plans a ≤ sharesOf plans b + 1
  quota : ∀ server ∈ servers, sharesOf plans server ≤ 12

theorem checkedRandomBytesRequired_ok {perShare : Nat} {bytes : ByteSlice} (name : String)
    (hb : saturatingMul perShare shareCount ≤ bytes.bytes.length) :
    checkedRandomBytesRequired perShare shareCount name = .ok (perShare * shareCount) ∧
      perShare * shareCount ≤ bytes.bytes.length := by
  have hbo := bytes.bounded
  have hf : perShare * shareCount ≤ usizeMax := by
    by_contra hla
    rw [saturatingMul, Nat.min_eq_right (not_le.mp hla).le] at hb
    unfold usizeMax at hb
    omega
  rw [saturatingMul, Nat.min_eq_left hf] at hb
  exact ⟨if_pos hf, hb⟩

theorem shareServerOrderRandomBytesRequired_mono {m n : Nat} (h : m ≤ n) :
    shareServerOrderRandomBytesRequired m ≤ shareServerOrderRandomBytesRequired n := by
  unfold shareServerOrderRandomBytesRequired saturatingMul
  omega

section

variable {servers : List String} {preferred : Nat} {now voteEnd : UInt64} {buffer : Option UInt64}
  {immediate : Option UInt32} {submitAtRandomBytes serverRandomBytes : ByteSlice}

/-- The planning prefix of a complete commitment lies between its minimum and the fleet. -/
theorem planningServerCount_bounds (preferred : Nat) (htwo : 2 ≤ servers.length) :
    16 * shareSubmissionTargetCount servers.length ≤
      12 * planningServerCount 16 servers.length preferred false ∧
      1 < planningServerCount 16 servers.length preferred false ∧
      planningServerCount 16 servers.length preferred false ≤ servers.length := by
  obtain ⟨_, _⟩ := minServerCount_bounds htwo
  have hpo : 0 < shareSubmissionTargetCount servers.length := by
    unfold shareSubmissionTargetCount shareHelperTargetCountCap
    omega
  have hco : minimumPlanningServerCount 16 servers.length false =
      (shareServerSelectionPolicy servers.length).minServerCount.toNat := rfl
  rw [planningServerCount, hco]
  omega

theorem batchPlanning_ready (hdi : servers.Nodup) (htwo : 2 ≤ servers.length)
    (hsu : shareSubmitAtRandomBytesRequired ⟨now, voteEnd, buffer, false⟩ * 16 ≤ submitAtRandomBytes.bytes.length)
    (hse : shareServerOrderRandomBytesRequired servers.length * 16 ≤ serverRandomBytes.bytes.length) :
    (batchPlanning 16 servers preferred ⟨now, voteEnd, buffer, false⟩ immediate
      submitAtRandomBytes serverRandomBytes).Ready 16 12 := by
  obtain ⟨_, hma, hp⟩ := planningServerCount_bounds preferred htwo
  have hcap := shareSubmissionTargetCount_le_cap servers.length
  have hle : (servers.take (planningServerCount 16 servers.length preferred false)).length =
      planningServerCount 16 servers.length preferred false := by
    rw [length_take, Nat.min_eq_left hp]
  refine ⟨hdi.sublist (take_sublist _ _), if_pos ⟨⟨rfl, Bool.false_ne_true⟩, hma⟩, ?_, ?_, ?_, ?_,
    hse, rfl, hsu⟩
  all_goals dsimp only [batchPlanning]
  · omega
  · omega
  · omega
  · rw [hle]
    exact shareServerOrderRandomBytesRequired_mono hp

/-- The checks before the loop pass. -/
theorem planShareSubmissions_eq_loop {final : ServerUsage × List ShareSubmissionPlan}
    (hdi : servers.Nodup) (htwo : 2 ≤ servers.length) (hpr : preferred ≤ servers.length)
    (hpo : ∀ index ∈ immediate, index.toNat < 16)
    (hsubm : (shareSubmissionRandomBytesRequired 16 servers.length
      ⟨now, voteEnd, buffer, false⟩).submitAtRandomBytes ≤ submitAtRandomBytes.bytes.length)
    (hserv : (shareSubmissionRandomBytesRequired 16 servers.length
      ⟨now, voteEnd, buffer, false⟩).serverRandomBytes ≤ serverRandomBytes.bytes.length)
    (hpl : (List.range 16).foldlM (batchPlanning 16 servers preferred ⟨now, voteEnd, buffer, false⟩
      immediate submitAtRandomBytes serverRandomBytes).planShare (⟨[], .nil⟩, []) = .ok final) :
    planShareSubmissionsWithPreferredServers 16 servers preferred ⟨now, voteEnd, buffer,
        false⟩ immediate
      submitAtRandomBytes serverRandomBytes = .ok final.2 := by
  have hre : requireShareServers servers = .ok () := by
    rw [requireShareServers, if_neg (by rintro rfl; simp at htwo), requireUniqueShareServers_ok]
    exact hdi
  have him : ¬ immediate.any (fun index => decide (16 ≤ index.toNat)) = true := by
    cases immediate with
    | none => simp
    | some index => simpa using hpo index rfl
  obtain ⟨hsu, hsub⟩ := checkedRandomBytesRequired_ok "submit_at_random_bytes" hsubm
  obtain ⟨hse, hser⟩ := checkedRandomBytesRequired_ok "server_random_bytes" hserv
  have hmi : ¬ servers.length < minimumPlanningServerCount 16 servers.length false :=
    not_lt.mpr (minServerCount_bounds htwo).2
  rw [planShareSubmissionsWithPreferredServers, if_neg (by simp), if_neg him, if_neg (by decide)]
  refine bind_ok_iff.mpr ⟨(), hre, ?_⟩
  rw [if_neg (not_lt.mpr hpr)]
  refine bind_ok_iff.mpr ⟨_, hsu, ?_⟩
  refine bind_ok_iff.mpr ⟨_, hse, ?_⟩
  rw [if_neg (not_lt.mpr hsub), if_neg (not_lt.mpr hser)]
  simp only [if_neg hmi]
  exact bind_ok_iff.mpr ⟨final, hpl, rfl⟩

end

/-- The helpers are ranked with the `ready` ones first, as a readiness race leaves them;
the immediate share is a position of the batch. -/
theorem complete_commitment_placed (ready remaining : List String)
    (hdistinct : (ready ++ remaining).Nodup) (htwo : 2 ≤ (ready ++ remaining).length)
    (now voteEnd : UInt64) (buffer : Option UInt64) (immediate : Option (Fin 16))
    (submitAtRandomBytes serverRandomBytes : ByteSlice)
    (hsubmit : (shareSubmissionRandomBytesRequired 16 (ready ++ remaining).length
      ⟨now, voteEnd, buffer, false⟩).submitAtRandomBytes ≤ submitAtRandomBytes.bytes.length)
    (hserver : (shareSubmissionRandomBytesRequired 16 (ready ++ remaining).length
      ⟨now, voteEnd, buffer, false⟩).serverRandomBytes ≤ serverRandomBytes.bytes.length) :
    ∃ plans, planShareSubmissionsWithPreferredServers 16 (ready ++ remaining) ready.length
        ⟨now, voteEnd, buffer, false⟩ (immediate.map fun index => .ofNat index.val)
        submitAtRandomBytes serverRandomBytes = .ok plans ∧
          CompletePlacement ((ready ++ remaining).take
          (planningServerCount 16 (ready ++ remaining).length ready.length false))
        (shareSubmissionTargetCount (ready ++ remaining).length) plans := by
  have hre : ready.length ≤ (ready ++ remaining).length := by
    rw [length_append]
    omega
  have hpo : ∀ index ∈ immediate.map fun index => UInt32.ofNat index.val, index.toNat < 16 := by
    intro index hin
    obtain ⟨_, -, rfl⟩ := Option.map_eq_some_iff.mp hin
    rw [UInt32.toNat_ofNat']
    omega
  have hba : (batchPlanning 16 (ready ++ remaining) ready.length ⟨now, voteEnd, buffer, false⟩
      (immediate.map fun index => .ofNat index.val) submitAtRandomBytes serverRandomBytes).Ready 16 12 :=
    batchPlanning_ready hdistinct htwo
      (checkedRandomBytesRequired_ok "submit_at_random_bytes" hsubmit).2
      (checkedRandomBytesRequired_ok "server_random_bytes" hserver).2
  obtain ⟨final, hpl, hs, hsh⟩ := hba.plan_ok
  refine ⟨final.2, planShareSubmissions_eq_loop hdistinct htwo hre hpo hsubmit hserver hpl,
    hsh, hs.targets, fun a ha b hb => ?_, fun server hmem => ?_⟩
  · rw [← hs.counted, ← hs.counted]
    exact hs.balanced a ha b hb
  · rw [← hs.counted]
    exact hs.quota server hmem

def zeroBytes (count : Nat) (h : count < 2 ^ 63) : ByteSlice :=
  ⟨List.replicate count 0, by rwa [length_replicate]⟩

/-- Three helpers, one of them ready, and the first share due now. -/
theorem complete_commitment_placed_three :
    ∃ plans, planShareSubmissionsWithPreferredServers 16 ["a", "b", "c"] 1
        ⟨100, 1000, some 60, false⟩ (some 0) (zeroBytes 128 (by decide))
        (zeroBytes 256 (by decide)) = .ok plans ∧
      CompletePlacement ["a", "b", "c"] 2 plans :=
  complete_commitment_placed ["a"] ["b", "c"] (by decide) (by decide) 100 1000 (some 60) (some 0)
    (zeroBytes 128 (by decide)) (zeroBytes 256 (by decide)) (by decide +kernel) (by decide +kernel)

end ZcashVoting.SharePolicy
