import ZcashVoting.ShareDelivery.PostedHelpers

/-!
# The retry loop of the helper client

`with_retry` with its schedule, its deadline and the clock. The delivery of a share runs the
same loop with the clock's readings left to the world; here the readings are answers, and a
log keeps what every POST came to and when every backoff was to end.
-/
namespace ZcashVoting.ShareDelivery

open Interaction List

inductive RetryCmd where
  /-- `cancel()` -/
  | cancelled
  | now
  | post (target : String) (timeout : Nat)
  | sleepUntil (wakeAt : Nat)

def RetryCmd.Answer : RetryCmd → Type
  | cancelled => Bool
  | now => Nat
  | post .. => PostAnswer
  | sleepUntil _ => Unit

abbrev retrySignature : Signature := ⟨RetryCmd, RetryCmd.Answer⟩

abbrev Retry (α : Type) := Prog retrySignature α

def RetryCmd.perform (c : RetryCmd) : Retry c.Answer := Prog.perform (S := retrySignature) c

/-- What the helper client is configured with; instants end at `lastInstant`. -/
structure RetryConfig where
  retryDelays : List Nat
  (postTimeout lastInstant : Nat)

def RetryConfig.checkedAdd (config : RetryConfig) (now delay : Nat) : Option Nat :=
  if now + delay ≤ config.lastInstant then some (now + delay) else none

section

variable {α : Type} (config : RetryConfig) (deadline : Option Nat)

def remaining : Retry (Option Nat) :=
  match deadline with
  | none => return none
  | some deadline => do
    let now : Nat ← RetryCmd.now.perform
    return some (deadline - now)

/-- The backoff after a failure: `none` if there is to be another attempt. -/
def backoff (delay : Nat) (error : HelperError) : Retry (Option HelperError) := do
  let stop : Bool ← RetryCmd.cancelled.perform
  if stop then return some .cancelled
  else
    let now : Nat ← RetryCmd.now.perform
    match config.checkedAdd now delay with
    | none => return some error
    | some wakeAt =>
      if deadline.any (· ≤ wakeAt) then return some error
      else
        let _ ← (RetryCmd.sleepUntil wakeAt).perform
        let stop : Bool ← RetryCmd.cancelled.perform
        return if stop then some .cancelled else none

/-- One round of the loop; `next` goes on after a failure. -/
def attempt (operation : Option Nat → Retry (Except HelperError α)) (held : Option HelperError)
    (next : HelperError → Retry (Except HelperError α)) : Retry (Except HelperError α) := do
  let stop : Bool ← RetryCmd.cancelled.perform
  if stop then return .error .cancelled
  else
    let left ← remaining deadline
    if left = some 0 then return .error (held.getD .deadlineExceeded)
    else
      let result ← operation left
      match result with
      | .ok value => return .ok value
      | .error error => next error

/-- `with_retry`, from the attempt that has these delays after it. -/
def withRetrySchedule (retryAmbiguous : Bool) (operation : Option Nat →
      Retry (Except HelperError α)) :
    List Nat → Option HelperError → Retry (Except HelperError α)
  | [], held => attempt deadline operation held fun error => return .error error
  | delay :: delays, held => attempt deadline operation held fun error =>
    if error.isTransient && (retryAmbiguous || !error.isAmbiguous) then do
      let stopped ← backoff config deadline delay error
      match stopped with
      | some error => return .error error
      | none => withRetrySchedule retryAmbiguous operation delays (some error)
    else return .error error

/-- One attempt of `post_share`, capped to the time left. -/
def postJson (target : String) (timeout : Nat) (left : Option Nat) :
    Retry (Except HelperError Unit) :=
  let timeout := (left.map (min timeout ·)).getD timeout
  if timeout = 0 then return .error (.invalidRequest "share submission attempt timeout must be nonzero")
  else do
    let now : Nat ← RetryCmd.now.perform
    if (config.checkedAdd now timeout).isNone then return .error (.transport .timeout)
    else
      let answer : PostAnswer ← (RetryCmd.post target timeout).perform
      return answer.outcome

/-- `submit_share_with_timeout` -/
def submitShareWithin (client : HelperClient) (serverUrl : String) (timeout : Nat) :
    Retry (Except HelperError Unit) :=
  if timeout = 0 then return .error (.invalidRequest "share submission timeout must be nonzero")
  else
    match client.target serverUrl with
    | .error error => return .error error
    | .ok target =>
      withRetrySchedule config deadline false (postJson config target (min timeout config.postTimeout)) config.retryDelays none

end

/-! ### What the loop leaves -/

/-- The POSTs that were made, with what they came to, and the planned ends of the backoffs. -/
structure RetryLog where
  posts : List (Except HelperError Unit)
  sleeps : List Nat

/-- The world may answer anything. -/
def retryHandler : Handler retrySignature RetryLog
  | .post .., w, answer, w' => w' = { w with posts := w.posts ++ [PostAnswer.outcome answer] }
  | .sleepUntil wakeAt, w, _, w' => w' = { w with sleeps := w.sleeps ++ [wakeAt] }
  | .cancelled, w, _, w' => w' = w
  | .now, w, _, w' => w' = w

def NotProcessed (outcome : Except HelperError Unit) : Prop :=
    ∃ e, outcome = .error e ∧ e.isAmbiguous = false

/-- What holds at every point of a submission: POSTs are few, only the last may have been
processed, and no backoff ends after the deadline. -/
structure Bounded (attempts : Nat) (deadline : Option Nat) (w : RetryLog) : Prop where
  few : w.posts.length ≤ attempts
  last : ∀ outcome ∈ w.posts.dropLast, NotProcessed outcome
  early : ∀ wakeAt ∈ w.sleeps, ∀ limit ∈ deadline, wakeAt < limit

/-- A definite failure says that no POST was processed. -/
def Truthful (result : Except HelperError Unit) (w : RetryLog) : Prop :=
  NotProcessed result → ∀ outcome ∈ w.posts, NotProcessed outcome

variable {config : RetryConfig} {deadline : Option Nat} {w : RetryLog} {n total : Nat}

/-- Before an attempt that has `n - 1` others after it at most, every POST has failed. -/
structure MayPost (total n : Nat) (deadline : Option Nat) (w : RetryLog) : Prop where
  failed : ∀ outcome ∈ w.posts, NotProcessed outcome
  few : w.posts.length + n ≤ total
  early : ∀ wakeAt ∈ w.sleeps, ∀ limit ∈ deadline, wakeAt < limit

theorem MayPost.bounded (h : MayPost total n deadline w) : Bounded total deadline w :=
  ⟨by have := h.few; omega, fun o ho => h.failed o (dropLast_subset _ ho), h.early⟩

/-- One POST more, whatever it comes to. -/
theorem MayPost.post (h : MayPost total (n + 1) deadline w) (outcome : Except HelperError Unit) :
    Bounded total deadline { w with posts := w.posts ++ [outcome] } := by
  refine ⟨?_, ?_, h.early⟩
  · have hf := h.few
    simp only [length_append, length_singleton]
    omega
  · simpa using h.failed

theorem MayPost.posted (h : MayPost total (n + 1) deadline w) {outcome : Except HelperError Unit}
    (ho : NotProcessed outcome) :
    MayPost total n deadline { w with posts := w.posts ++ [outcome] } := by
  refine ⟨?_, ?_, h.early⟩
  · intro o hmem
    rcases mem_append.mp hmem with hold | hnew
    · exact h.failed o hold
    · rwa [mem_singleton.mp hnew]
  · have hf := h.few
    simp only [length_append, length_singleton]
    omega

/-- A command that leaves the log as it is. -/
theorem safe_read {I : RetryLog → Prop} {c : RetryCmd} {Q : c.Answer → RetryLog → Prop} (hI : I w)
    (hc : ∀ r v, retryHandler c w r v → v = w) (h : ∀ r, Q r w) :
    Safe retryHandler I c.perform Q w := by
  apply safe_perform hI
  intro r v hv
  cases hc r v hv
  exact ⟨hI, h r⟩

theorem safe_remaining {I : RetryLog → Prop} {Q : Option Nat → RetryLog → Prop} (hI : I w)
    (h : ∀ left, Q left w) : Safe retryHandler I (remaining deadline) Q w := by
  cases deadline with
  | none => exact ⟨hI, h none⟩
  | some => exact Safe.bind (safe_read hI (fun _ _ hv => hv) fun _ => ⟨hI, h _⟩)

/-- The backoff plans to end before the deadline. -/
theorem safe_backoff (hw : MayPost total n deadline w) (delay : Nat) (error : HelperError) :
    Safe retryHandler (Bounded total deadline) (backoff config deadline delay error)
      (fun _ v => MayPost total n deadline v) w := by
  refine Safe.bind (safe_read hw.bounded (fun _ _ hv => hv) fun stop => ?_)
  split
  · exact ⟨hw.bounded, hw⟩
  refine Safe.bind (safe_read hw.bounded (fun _ _ hv => hv) fun now => ?_)
  split
  · exact ⟨hw.bounded, hw⟩
  next wakeAt _ =>
  split
  · exact ⟨hw.bounded, hw⟩
  next hlate =>
  refine Safe.bind (safe_perform hw.bounded fun _ v hv => ?_)
  cases hv
  have hv : MayPost total n deadline { w with sleeps := w.sleeps ++ [wakeAt] } := by
    refine ⟨hw.failed, hw.few, ?_⟩
    intro t ht limit hl
    rcases mem_append.mp ht with hold | hnew
    · exact hw.early t hold limit hl
    · rw [mem_singleton.mp hnew]
      rw [Option.mem_def.mp hl] at hlate
      simpa using hlate
  exact ⟨hv.bounded, Safe.bind (safe_read hv.bounded (fun _ _ h => h) fun stop => ⟨hv.bounded, hv⟩)⟩

/-- An attempt makes one POST at most; a definite failure leaves the loop where it was. -/
theorem safe_postJson (hw : MayPost total (n + 1) deadline w) (target : String) (timeout : Nat)
    (left : Option Nat) :
    Safe retryHandler (Bounded total deadline) (postJson config target timeout left)
      (fun result v => NotProcessed result → MayPost total n deadline v) w := by
  have hn : MayPost total n deadline w := ⟨hw.failed, by have := hw.few; omega, hw.early⟩
  simp only [postJson]
  split
  · exact ⟨hw.bounded, fun _ => hn⟩
  refine Safe.bind (safe_read hw.bounded (fun _ _ hv => hv) fun now => ?_)
  split
  · exact ⟨hw.bounded, fun _ => hn⟩
  refine Safe.bind (safe_perform hw.bounded fun answer v hv => ?_)
  cases hv
  exact ⟨hw.post _, hw.post _, hw.posted⟩

theorem safe_attempt (target : String) (timeout : Nat) (held : Option HelperError)
    {next : HelperError → Retry (Except HelperError Unit)} (hw : MayPost total (n + 1) deadline w)
    (hn : ∀ e v, Bounded total deadline v → (NotProcessed (.error e) → MayPost total n deadline v) →
      Safe retryHandler (Bounded total deadline) (next e) Truthful v) :
    Safe retryHandler (Bounded total deadline) (attempt deadline (postJson config target timeout) held next)
      Truthful w := by
  refine Safe.bind (safe_read hw.bounded (fun _ _ hv => hv) fun stop => ?_)
  split
  · exact ⟨hw.bounded, fun _ => hw.failed⟩
  refine Safe.bind (safe_remaining hw.bounded fun left => ?_)
  split
  · exact ⟨hw.bounded, fun _ => hw.failed⟩
  refine Safe.bind ((safe_postJson hw target timeout left).mono fun result v hb hv => ?_)
  cases result with
  | ok => exact ⟨hb, nofun⟩
  | error e => exact hn e v hb hv

/-- The induction is on the delays left: a further attempt needs a definite failure and uses one up. -/
theorem safe_withRetrySchedule (target : String) (timeout : Nat) (delays : List Nat)
    (held : Option HelperError) (hw : MayPost total (delays.length + 1) deadline w) :
    Safe retryHandler (Bounded total deadline)
      (withRetrySchedule config deadline false (postJson config target timeout) delays held)
        Truthful w := by
  induction delays generalizing held w with
  | nil => exact safe_attempt target timeout held hw fun e v hb hv => ⟨hb, fun he => (hv he).failed⟩
  | cons delay _ ih =>
    refine safe_attempt target timeout held hw fun e v hb hv => ?_
    split
    next hr =>
      have hd := hv ⟨e, rfl, by simpa using (Bool.and_eq_true_iff.mp hr).2⟩
      refine Safe.bind ((safe_backoff hd delay e).mono fun stopped u _ hu => ?_)
      cases stopped with
      | some => exact ⟨hu.bounded, fun _ => hu.failed⟩
      | none => exact ih (some e) hu
    next => exact ⟨hb, fun he => (hv he).failed⟩

/-- However often a submission is retried and wherever it is cut, it makes at most one POST more
than there are delays. -/
theorem submission_retries_bounded (config : RetryConfig) (deadline : Option Nat)
    (client : HelperClient)
    (serverUrl : String) (timeout : Nat) {q : Retry (Except HelperError Unit)} {w : RetryLog}
    (hs : Relation.ReflTransGen (Step retryHandler)
      (submitShareWithin config deadline client serverUrl timeout, ⟨[], []⟩) (q, w)) :
    Bounded (config.retryDelays.length + 1) deadline w ∧ ∀ result, q = .ret result →
      Truthful result w := by
  have h0 : MayPost (config.retryDelays.length + 1) (config.retryDelays.length + 1) deadline
      ⟨[], []⟩ :=
    ⟨nofun, by simp, nofun⟩
  have hp : Safe retryHandler (Bounded (config.retryDelays.length + 1) deadline)
      (submitShareWithin config deadline client serverUrl timeout) Truthful ⟨[], []⟩ := by
    unfold submitShareWithin
    split
    · exact ⟨h0.bounded, fun _ => h0.failed⟩
    split
    · exact ⟨h0.bounded, fun _ => h0.failed⟩
    · exact safe_withRetrySchedule _ _ _ none h0
  have hq := hp.steps hs
  refine ⟨hq.invariant, ?_⟩
  rintro result rfl
  exact hq.2

def sampleSubmission : Retry (Except HelperError Unit) :=
  submitShareWithin ⟨[200], 5, 1000⟩ (some 900) sampleClient "https://helper.example" 5

def sampleLog : RetryLog := ⟨[.error (.status 429), .error (.transport .timeout)], [207]⟩

/-- A refused POST is made again after the delay; the second one times out and ends the submission. -/
theorem submission_retries_bounded_refused :
    Relation.ReflTransGen (Step retryHandler) (sampleSubmission, ⟨[], []⟩)
      (.ret (.error (.transport .timeout)), sampleLog) ∧ Bounded 2 (some 900) sampleLog := by
  have hu :
    sampleClient.target "https://helper.example" = .ok "https://helper.example" := by decide +kernel
  have hs : Relation.ReflTransGen (Step retryHandler) (sampleSubmission, ⟨[], []⟩)
      (.ret (.error (.transport .timeout)), sampleLog) := by
    simp only [sampleSubmission, submitShareWithin, hu]
    have step := fun c =>
      @Step.answer retrySignature RetryLog (Except HelperError Unit) retryHandler c
    refine .head (step .cancelled (r := false) rfl) (.head (step .now (r := (5 : Nat)) rfl) ?_)
    refine .head (step .now (r := (6 : Nat)) rfl) (.head (step (.post _ _) (r := .response 429 false) rfl) ?_)
    refine .head (step .cancelled (r := false) rfl) (.head (step .now (r := (7 : Nat)) rfl) ?_)
    refine .head (step (.sleepUntil 207) (r := ()) rfl)
      (.head (step .cancelled (r := false) rfl) ?_)
    refine .head (step .cancelled (r := false) rfl) (.head (step .now (r := (208 : Nat)) rfl) ?_)
    exact .head (step .now (r := (209 : Nat)) rfl)
      (.single (step (.post _ _) (r := .failed .timeout) rfl))
  exact ⟨hs, (submission_retries_bounded _ _ _ _ _ hs).1⟩

end ZcashVoting.ShareDelivery
