import ZcashVoting.ChainSubmission.Coordinator
import ZcashVoting.ChainSubmission.Exclusion

/-!
# What a crash can leave of a released POST

The world of one submission identity is the database and, as ghost state, every POST
released to the transport with what became of it. A pass of the coordinator may be cut
between any two commands, and later passes start from whatever the cut left.

The lease keeps two passes of one identity apart, so between two commands of a pass
other work may change everything except this identity's row.

While a released POST has no durable outcome and none was recorded for a later one, its
row stays `submitting` or hashless `recovering`. The row also reads as unresolved
dispatch, with one exception. An exact-tree recovery retry reuses the row of an older
verdict, and its reservation keeps that verdict's diagnostic. If the older POST was
definitely rejected, a crash after the retry was released leaves a row that reads as that
rejection. A POST that a crash left without an outcome is overtaken once a later POST of
the row is classified; the row then says what became of the later one.
-/
namespace ZcashVoting.ChainSubmission

open Interaction Coordinator SqlTable Transaction SubmissionRecordState

/-- The row says that a POST of its generation may be on chain. -/
def SubmissionRecordState.readsUnresolved (state : SubmissionRecordState) : Bool :=
  state = .submitting || state.hasUnresolvedDispatch

/-- The states in which a reserved POST waits for its outcome. -/
def SubmissionRecordState.awaitsOutcome : SubmissionRecordState → Bool
  | submitting => true
  | recovering none _ => true
  | _ => false

/-- What became of a POST: nothing durable yet, its outcome was classified, a later one was
classified without it, or its submission was confirmed. -/
inductive PostFate where
  | pending | classified | overtaken | confirmed
  deriving DecidableEq

/-- A POST handed to the transport, and whether its row then read as unresolved. -/
structure ReleasedPost where
  site : PostSite
  evidence : Bool
  fate : PostFate
  deriving DecidableEq

/-- The database, and the released POSTs, the newest first. -/
structure World (σ : Type) where
  db : ChainDb σ
  posts : List ReleasedPost

def World.outstanding {σ : Type} (w : World σ) : List ReleasedPost :=
  w.posts.filter fun post => post.fate = .pending

/-- A fate for a POST that has none yet. -/
def ReleasedPost.settle (fate : PostFate) (post : ReleasedPost) : ReleasedPost :=
  if post.fate = .pending then { post with fate } else post

/-- The newest pending POST is the one that is classified. -/
def classifyNewest : List ReleasedPost → List ReleasedPost
  | [] => []
  | post :: older =>
    if post.fate = .pending then
      { post with fate := .classified } :: older.map (ReleasedPost.settle .overtaken)
    else post :: classifyNewest older

/-- The request may have left the process. -/
def PostAttemptOutcome.released : PostAttemptOutcome → Bool
  | .accepted _ => true
  | .rejected .. => true
  | .possiblyDispatched _ => true
  | .localFailure _ => false
  | .definitelyUnsent _ => false

def PostProgress.released : PostProgress → Bool
  | .interrupted _ possible => possible
  | .finished outcome => outcome.released

/-- The transactions that durably record the outcome of a POST. -/
def StoreOp.classifies : (op : StoreOp) → op.Result → Bool
  | .classifyPost .., _ => true
  | .confirmCommitted .., .confirmed _ => true
  | .confirmTree .., .confirmed _ => true
  | _, _ => false

/-- What a committed transaction means for the POSTs. -/
def StoreOp.settles : (op : StoreOp) → op.Result → List ReleasedPost → List ReleasedPost
  | .classifyPost .., _, posts => classifyNewest posts
  | .confirmCommitted .., .confirmed _, posts => posts.map (ReleasedPost.settle .confirmed)
  | .confirmTree .., .confirmed _, posts => posts.map (ReleasedPost.settle .confirmed)
  | _, _, posts => posts

section

variable {σ : Type} (T : DomainTables σ) (identity : ChainSubmissionIdentity)

def World.evidence (w : World σ) : Bool := (w.db.row identity).any fun row =>
    row.state.readsUnresolved

def storeCommits (op : StoreOp) (w : World σ) (r : Except ChainSubmissionFailure op.Result)
    (w' : World σ) : Prop :=
  ∃ allowed result db', op.run T allowed w.db = .ok (result, db') ∧ r = .ok result ∧
    w' = ⟨db', op.settles result w.posts⟩

/-- The answer to a command in a world no one else changes meanwhile. A store command
commits, or fails for a reason of its own or of the disk and leaves the database. -/
def respond : (c : Cmd) → World σ → c.Answer → World σ → Prop
  | .store op, w, r, w' => storeCommits T op w r w' ∨ (∃ error, r = .error error) ∧ w' = w
  | .post site _ _, w, r, w' =>
    w' = if r.released then ⟨w.db, ⟨site, w.evidence identity, .pending⟩ :: w.posts⟩ else w
  | _, w, _, w' => w' = w

/-- What the world holds of this identity. -/
def World.view (w : World σ) : Option StoredChainSubmission × List ReleasedPost :=
  (w.db.row identity, w.posts)

/-- Between two commands other work may change anything outside the view. -/
def answers : Handler coordinatorSignature (World σ) :=
  fun c w r w' => ∃ between, between.view identity = w.view identity ∧
    respond T identity c between r w'

/-- The worlds that passes on one identity reach, each cut anywhere, from a database
without a row for it. -/
inductive Reached : World σ → Prop where
  | start (db : ChainDb σ) (h : db.row identity = none) : Reached ⟨db, []⟩
  | pass {w w' : World σ} (ctx : PassContext) (hid : ctx.request.identity = identity)
      (hw : Reached w) (hcut : CutAt (answers T identity) (advanceInEpoch ctx).run w w') :
      Reached w'

/-- The row of a released POST that is not classified yet. -/
structure Carries (posts : List ReleasedPost) (state : SubmissionRecordState) : Prop where
  awaits : state.awaitsOutcome = true
  evidence : (∃ post ∈ posts, post.site = .reservedAttempt ∨ post.evidence = true) →
    state.readsUnresolved = true

/-- The invariant: the row carries every outstanding POST. -/
def Remembers (w : World σ) : Prop :=
  w.outstanding ≠ [] → ∃ row, w.db.row identity = some row ∧ Carries w.outstanding row.state

end

variable {observation : SubmissionObservation} {diagnostic : Option ChainSubmissionDiagnostic}

section

variable {σ : Type} {T : DomainTables σ} {identity : ChainSubmissionIdentity} {db db' : ChainDb σ}
  {row record : StoredChainSubmission} {posts : List ReleasedPost}
  {state state' : SubmissionRecordState}

@[simp] theorem reloaded_awaitsOutcome : state.reloaded.awaitsOutcome = state.awaitsOutcome := by
  cases state with
  | recovering candidate => cases candidate <;> rfl
  | _ => rfl

@[simp] theorem reloaded_readsUnresolved :
    state.reloaded.readsUnresolved = state.readsUnresolved := by
  simp [readsUnresolved]

theorem readsUnresolved_of_permits (h : state.permitsAmbiguousRetry = true) :
    state.readsUnresolved = true := by
  simp [readsUnresolved, hasUnresolvedDispatch_of_permitsAmbiguousRetry h]

theorem awaitsOutcome_of_permits (h : state.permitsAmbiguousRetry = true) :
    state.awaitsOutcome = true := by
  obtain ⟨_, rfl⟩ := permitsAmbiguousRetry_hashless h
  rfl

theorem row_of_inserts (hins : db.Inserts T db' record) (hid : record.identity = identity)
    (hrow : db.row identity = none) : db'.row identity = some record := by
  rw [ChainDb.row, hins.rows, lookup_insert (by rw [hid]; exact hrow), if_pos hid.symm]

/-- A row carries its POSTs on when it still awaits and loses no evidence. -/
theorem Carries.of_state (h : Carries posts state) (ha : state'.awaitsOutcome = true)
    (hr : state.readsUnresolved = true → state'.readsUnresolved = true) : Carries posts state' :=
  ⟨ha, fun hp => hr (h.evidence hp)⟩

/-- Observations that a lookup, a scan or an unsent attempt can make. -/
def SubmissionObservation.keepsAwaiting : SubmissionObservation → Bool
  | continueRecovery => true
  | definitelyUnsent => true
  | candidatePending => true
  | candidateCommittedFailure _ => true
  | trackingWindowExpired _ => true
  | _ => false

/-- On a row that awaits an outcome they change nothing or are refused. -/
theorem applied_awaiting (ha : state.awaitsOutcome = true) (hk : observation.keepsAwaiting = true)
    (h : applySubmissionObservation (some state) observation = .ok (some state')) :
    state' = state := by
  cases state with
  | submitting =>
    cases observation <;> simp [SubmissionObservation.keepsAwaiting,
      applySubmissionObservation] at hk h
  | recovering candidate =>
    cases candidate with
    | some => simp [awaitsOutcome] at ha
    | none =>
      cases observation <;> simp_all [SubmissionObservation.keepsAwaiting,
        applySubmissionObservation]
  | _ => simp [awaitsOutcome] at ha

end

/-! ### The POSTs of a world -/

section

variable {σ : Type} {identity : ChainSubmissionIdentity} {w w' : World σ} {fate : PostFate}
  {posts : List ReleasedPost} {post : ReleasedPost} {op : StoreOp} {result : op.Result}

theorem settle_fate (hf : fate ≠ .pending) : (post.settle fate).fate ≠ .pending := by
  unfold ReleasedPost.settle
  split <;> assumption

theorem pending_settled (hf : fate ≠ .pending) (posts : List ReleasedPost) :
    (posts.map (ReleasedPost.settle fate)).filter (fun post => post.fate = .pending) = [] := by
  simp [List.filter_eq_nil_iff, settle_fate hf]

theorem pending_classifyNewest (posts : List ReleasedPost) :
    (classifyNewest posts).filter (fun post => post.fate = .pending) = [] := by
  induction posts with
  | nil => rfl
  | cons post older ih =>
    unfold classifyNewest
    split
    next =>
      have hf : PostFate.overtaken ≠ .pending := by decide
      simpa using pending_settled hf older
    next hp => rw [List.filter_cons_of_neg (by simpa using hp), ih]

theorem settles_quiet (h : op.classifies result = true) :
    (op.settles result posts).filter (fun post => post.fate = .pending) = [] := by
  unfold StoreOp.classifies at h
  split at h
  next => exact pending_classifyNewest posts
  next => exact pending_settled (by decide) posts
  next => exact pending_settled (by decide) posts
  next => cases h

theorem settles_of_not_classifies (h : op.classifies result = false) :
    op.settles result posts = posts := by
  unfold StoreOp.settles
  split <;> first | rfl | cases h

theorem outstanding_of_view (hv : w'.view identity = w.view identity) :
    w'.outstanding = w.outstanding := by
  rw [World.outstanding, (Prod.mk.inj hv).2]
  rfl

/-- A POST is overtaken by a later one that was classified. -/
def Overtakes (posts : List ReleasedPost) : Prop :=
  ∀ newer post older, posts = newer ++ post :: older → post.fate = .overtaken →
    ∃ later ∈ newer, later.fate = .classified

theorem overtakes_nil : Overtakes [] := by
  intro newer post older h
  simp at h

/-- A POST before the others, which is not overtaken itself. -/
theorem Overtakes.cons (h : Overtakes posts) (hp : post.fate ≠ .overtaken) :
    Overtakes (post :: posts) := by
  intro newer other older hsplit ho
  cases newer with
  | nil =>
    cases hsplit
    exact absurd ho hp
  | cons first newer =>
    cases hsplit
    obtain ⟨later, hl, hc⟩ := h newer other older rfl ho
    exact ⟨later, List.mem_cons_of_mem _ hl, hc⟩

theorem overtakes_classified (hp : post.fate = .classified) : Overtakes (post :: posts) := by
  intro newer other older hsplit ho
  cases newer with
  | nil =>
    cases hsplit
    rw [hp] at ho
    cases ho
  | cons first newer =>
    cases hsplit
    exact ⟨_, List.mem_cons_self, hp⟩

theorem Overtakes.map (h : Overtakes posts) (hf : fate ≠ .overtaken) :
    Overtakes (posts.map (ReleasedPost.settle fate)) := by
  intro newer post older hsplit ho
  obtain ⟨newer', rest, rfl, rfl, hrest⟩ := List.map_eq_append_iff.mp hsplit
  obtain ⟨post', older', rfl, rfl, rfl⟩ := List.map_eq_cons_iff.mp hrest
  have ho' : post'.fate = .overtaken := by
    unfold ReleasedPost.settle at ho
    split at ho
    next => exact absurd ho hf
    next => exact ho
  obtain ⟨later, hl, hc⟩ := h newer' post' older' rfl ho'
  refine ⟨later.settle fate, List.mem_map_of_mem hl, ?_⟩
  rw [ReleasedPost.settle, if_neg (by rw [hc]; decide), hc]

theorem Overtakes.tail (h : Overtakes (post :: posts)) (hp : post.fate ≠ .classified) :
    Overtakes posts := by
  intro newer other older hsplit ho
  obtain ⟨later, hl, hc⟩ := h (post :: newer) other older (by rw [hsplit]; rfl) ho
  rcases List.mem_cons.mp hl with rfl | hl
  · exact absurd hc hp
  · exact ⟨later, hl, hc⟩

theorem Overtakes.classifyNewest (h : Overtakes posts) : Overtakes (classifyNewest posts) := by
  induction posts with
  | nil => exact overtakes_nil
  | cons post older ih =>
    unfold ChainSubmission.classifyNewest
    split
    next => exact overtakes_classified rfl
    next hp =>
      by_cases hc : post.fate = .classified
      · exact overtakes_classified hc
      · refine (ih (h.tail hc)).cons fun ho => ?_
        obtain ⟨_, hl, -⟩ := h [] post older rfl ho
        cases hl

theorem Overtakes.settles (h : Overtakes posts) : Overtakes (op.settles result posts) := by
  unfold StoreOp.settles
  split
  next => exact h.classifyNewest
  next => exact h.map (by decide)
  next => exact h.map (by decide)
  next => exact h

theorem Overtakes.answered {T : DomainTables σ} {c : Cmd} {r : c.Answer} (h : Overtakes w.posts)
    (ha : answers T identity c w r w') : Overtakes w'.posts := by
  obtain ⟨u, hu, ha⟩ := ha
  have h : Overtakes u.posts := (Prod.mk.inj hu).2 ▸ h
  cases c with
  | store op =>
    rcases ha with ⟨_, _, _, -, -, rfl⟩ | ⟨-, rfl⟩
    · exact h.settles
    · exact h
  | post =>
    obtain rfl := id ha
    split
    · exact h.cons (fun ho => nomatch ho)
    · exact h
  | _ =>
    obtain rfl : w' = u := ha
    exact h

end

/-! ### Store commands keep the invariant -/

section

variable {σ : Type} {T : DomainTables σ} {identity : ChainSubmissionIdentity} {w w' : World σ}
  {α : Type} {Q : α → World σ → Prop} {c : Cmd} {op : StoreOp} {row : StoredChainSubmission}

theorem remembers_of_quiet (h : w.outstanding = []) :
    Remembers identity w := fun hne => absurd h hne

section

variable (hw : Remembers identity w)
include hw

theorem Remembers.of_view (hv : w'.view identity = w.view identity) : Remembers identity w' := by
  intro hne
  rw [outstanding_of_view hv] at hne ⊢
  rw [(Prod.mk.inj hv).1]
  exact hw hne

theorem Remembers.quiet_of_absent (hrow : w.db.row identity = none) : w.outstanding = [] := by
  by_contra hne
  obtain ⟨_, hs, -⟩ := hw hne
  rw [hrow] at hs
  cases hs

theorem Remembers.quiet_of_settled
    (hrow : w.db.row identity = some row) (ha : row.state.awaitsOutcome = false) :
    w.outstanding = [] := by
  by_contra hne
  obtain ⟨_, hs, hc⟩ := hw hne
  rw [hrow] at hs
  cases hs
  have haw := hc.awaits
  rw [ha] at haw
  cases haw

/-- Rewriting the row keeps the invariant when every awaiting state goes to one that
still awaits and keeps the evidence. -/
theorem Remembers.rewrite {db' : ChainDb σ} {after : StoredChainSubmission}
    (hrow : w.db.row identity = some row)
    (hrw : w.db.Rewrites db' after) (hid : after.identity = identity)
    (hke : row.state.awaitsOutcome = true → after.state.awaitsOutcome = true ∧
      (row.state.readsUnresolved = true → after.state.readsUnresolved = true)) :
    Remembers identity ⟨db', w.posts⟩ := by
  intro hne
  obtain ⟨_, hs, hc⟩ := hw hne
  rw [hrow] at hs
  cases hs
  obtain ⟨ha, hr⟩ := hke hc.awaits
  exact ⟨after.asRow, hid ▸ hrw.row, hc.of_state ha hr⟩

end

/-- The rule for one pass of the coordinator on `identity`. -/
abbrev Pass (T : DomainTables σ) (identity : ChainSubmissionIdentity) (m : Coord α)
    (Q : α → World σ → Prop) (w : World σ) : Prop :=
  Remembers identity w → SafeE (answers T identity) (Remembers identity) m Q (fun _ _ => True) w

abbrev Passes (T : DomainTables σ) (identity : ChainSubmissionIdentity) (m : Coord α) :
    World σ → Prop :=
  Pass T identity m fun _ _ => True

theorem pass_store {Q : op.Result → World σ → Prop}
    (h : ∀ u allowed result db', u.view identity = w.view identity → Remembers identity u →
      op.run T allowed u.db = .ok (result, db') →
      Remembers identity ⟨db', op.settles result u.posts⟩ ∧
        Q result ⟨db', op.settles result u.posts⟩) : Pass T identity (store op) Q w := by
  refine fun hw => ⟨hw, ?_⟩
  rintro r v ⟨u, hu, ⟨allowed, result, db', hrun, rfl, rfl⟩ | ⟨⟨_, rfl⟩, rfl⟩⟩
  · exact h u allowed result db' hu (hw.of_view hu) hrun
  · exact ⟨hw.of_view hu, trivial⟩

/-- Commands that neither write the row nor release a POST. -/
def Cmd.isPassive : Cmd → Bool
  | .store _ => false
  | .post .. => false
  | _ => true

theorem view_of_passive (hc : c.isPassive = true) {r : c.Answer}
    (h : answers T identity c w r w') : w'.view identity = w.view identity := by
  obtain ⟨u, hu, h⟩ := h
  cases c with
  | store | post => cases hc
  | _ =>
    obtain rfl : w' = u := h
    exact hu

theorem safe_perform (hc : c.isPassive = true) (hw : Remembers identity w) :
    Safe (answers T identity) (Remembers identity) (Prog.perform (S := coordinatorSignature) c)
      (fun _ v => v.view identity = w.view identity) w := by
  refine ⟨hw, fun r v h => ?_⟩
  have hv := view_of_passive hc h
  exact ⟨hw.of_view hv, hv⟩

theorem pass_ask (hc : c.isPassive = true) :
    Pass T identity (ask c) (fun _ v => v.view identity = w.view identity) w :=
  fun hw => safeE_lift (safe_perform hc hw)

theorem pass_nowSeconds :
    Pass T identity nowSeconds (fun _ v => v.view identity = w.view identity) w := by
  refine fun hw => (safe_perform rfl hw).mono ?_
  rintro (e | now) v - hv
  · trivial
  · exact hv

theorem registerInFlight_safe {target : ChainSubmissionIdentity} (hw : Remembers identity w) :
    SafeE (answers T identity) (Remembers identity) (registerInFlight target)
      (fun _ v => v.view identity = w.view identity) (fun _ v =>
          v.view identity = w.view identity) w := by
  refine (safe_perform rfl hw).mono ?_
  rintro (e | u) v - hv <;> exact hv

theorem pass_acquire {targets : List ChainSubmissionIdentity} :
    Passes T identity (acquire targets) w := by
  refine fun hw => (safe_perform rfl hw).mono ?_
  rintro (e | u) v - hv <;> trivial

variable {m : Coord α} {now : Nat}

theorem pass_pure {a : α} (h : Q a w) : Pass T identity (pure a) Q w := fun hw => safeE_pure hw h

theorem pass_throw {e : ChainSubmissionFailure} : Pass T identity (throw e) Q w := fun hw =>
    safeE_throw hw trivial

theorem pass_mapErr {f : ChainSubmissionFailure → ChainSubmissionFailure}
    (h : Pass T identity m Q w) : Pass T identity (mapErr f m) Q w :=
  fun hw => safeE_adapt (h hw) fun _ _ _ _ => trivial

theorem pass_bind {β : Type} {f : α → Coord β} {R : β → World σ → Prop} (h : Pass T identity m Q w)
    (hf : ∀ a v, Q a v → Pass T identity (f a) R v) : Pass T identity (m >>= f) R w :=
  fun hw => safeE_bind ((h hw).mono fun a v hv hQ => hf a v hQ hv)

/-- The clock may fail, and moves nothing. -/
theorem pass_now (h : ∀ now v, v.view identity = w.view identity → Pass T identity (f now) Q v) :
    Pass T identity (mapErr g nowSeconds >>= f) Q w :=
  pass_bind (pass_mapErr pass_nowSeconds) h

theorem pass_mono {Q' : α → World σ → Prop} (h : Pass T identity m Q w)
    (hQ : ∀ a v, Q a v → Q' a v) : Pass T identity m Q' w :=
  fun hw => (h hw).mono fun a v _ => hQ a v

theorem pass_except {x : Except ChainSubmissionFailure α} (h : ∀ a, Q a w) :
    Pass T identity (liftM x) Q w := by
  cases x with
  | error => exact pass_throw
  | ok a => exact pass_pure (h a)

theorem pass_ite {c : Prop} [Decidable c] {m' : Coord α} (h : c → Pass T identity m Q w)
    (h' : ¬ c → Pass T identity m' Q w) : Pass T identity (if c then m else m') Q w := by
  by_cases hc : c
  · rw [if_pos hc]
    exact h hc
  · rw [if_neg hc]
    exact h' hc

theorem pass_publicResult {record : StoredChainSubmission} :
    Passes T identity (publicResult record) w :=
  pass_except fun _ => trivial

/-! ### One rule for each store command -/

variable {generation : ChainSubmissionGeneration} {request : StoreAdvancementRequest}
  {ambiguitySeen : Bool}

/-- The row a POST of the attempt loop starts from. -/
def LoopReady (identity : ChainSubmissionIdentity) (ambiguitySeen : Bool) (w : World σ) : Prop :=
  ∃ row, w.db.row identity = some row ∧
    if ambiguitySeen then row.state.permitsAmbiguousRetry = true
    else row.state = .submitting ∧ w.outstanding = []

theorem LoopReady.of_view (h : LoopReady identity ambiguitySeen w)
    (hv : w'.view identity = w.view identity) : LoopReady identity ambiguitySeen w' := by
  obtain ⟨row, hso, hca⟩ := h
  refine ⟨row, (Prod.mk.inj hv).1.trans hso, ?_⟩
  rw [outstanding_of_view hv]
  exact hca

/-- What an admission leaves for the pass that asked it. -/
def AdmittedAs (identity : ChainSubmissionIdentity) (w : World σ) : StoreAdmission → Prop
  | .ready derived record true =>
    derived.generation.identity = identity ∧ record.state = .submitting ∧ LoopReady identity false w
  | .ready derived record false =>
    derived.generation.identity = identity ∧ (record.state.awaitsOutcome = false →
      w.outstanding = [])
  | _ => True

theorem pass_admission {workAllowed : Bool} {ordinal : Nat} (hid : request.identity = identity) :
    Pass T identity (store (.admitSubmission request workAllowed ordinal now))
      (flip (AdmittedAs identity)) w := by
  refine pass_store fun u allowed admission db' _ hu hrun => ?_
  subst hid
  have hef : AdmitEffect T request ordinal now u.db db' admission := admit_ok hrun
  cases hef with
  | absent _ hdb | existing _ _ hdb => subst hdb; exact ⟨hu, trivial⟩
  | normalized hrow _ hid hst hrw =>
    refine ⟨hu.rewrite hrow hrw hid fun _ => ?_, trivial⟩
    rw [hst]
    exact ⟨rfl, fun _ => rfl⟩
  | ready hrow _ hid hdb =>
    subst hdb
    refine ⟨hu, hid, fun ha => hu.quiet_of_settled hrow ?_⟩
    simpa using ha
  | reserved hrow hid hins =>
    have hqu := hu.quiet_of_absent hrow
    refine ⟨remembers_of_quiet hqu, hid, rfl, _, row_of_inserts hins hid hrow, ?_⟩
    exact ⟨rfl, hqu⟩
  | adopted hrow hid =>
    have hqu := hu.quiet_of_absent hrow
    exact ⟨remembers_of_quiet hqu, hid, fun _ => hqu⟩

theorem pass_removeFresh (hqu : w.outstanding = []) :
    Passes T identity (store (.removeFreshReservation generation)) w := by
  refine pass_store fun u allowed result db' hu _ _ => ?_
  have hout : u.outstanding = [] := (outstanding_of_view hu).trans hqu
  exact ⟨remembers_of_quiet hout, trivial⟩

theorem pass_classifyPost : Pass T identity (store (.classifyPost generation observation now))
      (fun _ v => v.outstanding = []) w :=
  pass_store fun u _ _ _ _ _ _ =>
    ⟨remembers_of_quiet (pending_classifyNewest u.posts), pending_classifyNewest u.posts⟩

theorem pass_reserveAmbiguousRetry (hid : generation.identity = identity) :
    Pass T identity (store (.reserveAmbiguousRetry generation now))
      (fun reserved v => reserved.state.permitsAmbiguousRetry = true ∧
          LoopReady identity true v) w := by
  refine pass_store fun u allowed after db' _ hu hrun => ?_
  subst hid
  obtain ⟨_, hrow, hid, hst, hp, hrw, -⟩ := reserveAmbiguousRetry_ok hrun
  refine ⟨hu.rewrite hrow hrw hid fun ha => ?_, hp, after.asRow, hid ▸ hrw.row, hp⟩
  rw [hst]
  simpa using ha

theorem pass_reserveRecoveryRetry {authorization : RecoveryRetryAuthorization}
    (hid : request.identity = identity) :
    Pass T identity (store (.reserveRecoveryRetry request authorization now))
      (fun _ v => ∃ row, v.db.row identity = some row ∧ row.state.awaitsOutcome = true) w := by
  refine pass_store fun u allowed after db' _ hu hrun => ?_
  subst hid
  obtain ⟨row, _, hrow, hid, hbe, haf, hrw, -⟩ := reserveRecoveryRetry_ok hrun
  have ha : after.state.awaitsOutcome = true := by rw [haf]; rfl
  refine ⟨hu.rewrite hrow hrw hid fun _ => ⟨ha, fun hr => ?_⟩, after.asRow, hid ▸ hrw.row, ha⟩
  -- the reservation keeps the diagnostic, so the evidence is that of the row before
  have hr' : row.state.reloaded.readsUnresolved = true := by simpa using hr
  rw [hbe] at hr'
  rw [haf]
  simpa [readsUnresolved, hasUnresolvedDispatch] using hr'

theorem pass_reconcile (hid : generation.identity = identity)
    (hobs : observation.keepsAwaiting = true ∨ w.outstanding = []) :
    Pass T identity (store (.reconcile generation observation diagnostic now))
      (fun _ v => v.outstanding = w.outstanding) w := by
  refine pass_store fun u allowed after db' hvi hu hrun => ?_
  subst hid
  have hout : u.outstanding = w.outstanding := outstanding_of_view hvi
  refine ⟨?_, hout⟩
  rcases hobs with hk | hqu
  · obtain ⟨row, hrow, hid, happ, hca⟩ := applyObservation_ok hrun
    have hres : resolveObservation u.db.submissions generation.identity observation =
        observation := by
      cases observation <;> first | rfl | cases hk
    rw [hres] at happ
    have hsa : row.state.awaitsOutcome = true → after.state = row.state.reloaded :=
      fun ha => applied_awaiting (by simpa using ha) hk happ
    rcases hca with ⟨hrw, -⟩ | ⟨hrej, -⟩
    · refine hu.rewrite hrow hrw hid fun ha => ?_
      rw [hsa ha]
      simpa using ha
    · -- a retired row was settled, so no POST is outstanding
      refine remembers_of_quiet (hu.quiet_of_settled hrow ?_)
      by_contra ha
      have ha : row.state.awaitsOutcome = true := by simpa using ha
      have hst := hsa ha
      cases hs : row.state <;> simp [hs, awaitsOutcome, StoredChainSubmission.durableState,
          hst, reloaded, durableState] at ha hrej
  · exact remembers_of_quiet (hout.trans hqu)

/-- A confirmation that commits records the outcome; an interrupted one writes nothing. -/
theorem pass_confirm
    (hop : ∀ u allowed result db', op.run T allowed u = .ok (result, db') →
      op.classifies result = true ∨ db' = u) :
    Passes T identity (store op) w := by
  refine pass_store fun u allowed result db' _ hu hrun => ⟨?_, trivial⟩
  by_cases hc : op.classifies result = true
  · exact remembers_of_quiet (settles_quiet hc)
  · rw [settles_of_not_classifies (Bool.eq_false_of_not_eq_true hc),
      (hop u.db allowed result db' hrun).resolve_left hc]
    exact hu

end

/-! ### The coordinator's functions -/

section

variable {σ : Type} {T : DomainTables σ} {identity : ChainSubmissionIdentity} {w w' : World σ}
  {generation : ChainSubmissionGeneration} {ctx : PassContext} {derived : DerivedChainSubmission}
  {record reserved : StoredChainSubmission} {n : Nat} {candidate : Option CandidateTransactionHash}
  {state : ChainSubmissionState}

theorem pass_interruption :
    Pass T identity interruption (fun _ v => v.view identity = w.view identity) w :=
  pass_ask rfl

/-- A check for interruption that goes two ways. -/
theorem pass_interrupted {α : Type} {Q : α → World σ → Prop} {f : Option Interruption → Coord α}
    (hs : ∀ reason v, v.view identity = w.view identity → Pass T identity (f (some reason)) Q v)
    (hn : ∀ v, v.view identity = w.view identity → Pass T identity (f none) Q v) :
    Pass T identity (interruption >>= f) Q w := by
  refine pass_bind pass_interruption fun stopped v hv => ?_
  cases stopped with
  | some reason => exact hs reason v hv
  | none => exact hn v hv

theorem pass_classifyDispatchedPost :
    Pass T identity (classifyDispatchedPost generation observation)
      (fun _ v => v.outstanding = []) w :=
  pass_now fun _ _ _ => pass_mapErr pass_classifyPost

theorem pass_removeFreshReservation (hqu : w.outstanding = []) :
    Passes T identity (Coordinator.removeFreshReservation generation) w := by
  refine pass_now fun _ v hvi => ?_
  have hout : v.outstanding = [] := (outstanding_of_view hvi).trans hqu
  exact pass_mapErr (pass_removeFresh hout)

theorem pass_reconcileWithDurableState (hid : generation.identity = identity)
    (hobs : observation.keepsAwaiting = true ∨ w.outstanding = []) :
    Pass T identity (reconcileWithDurableState generation observation diagnostic state)
      (fun _ v => v.outstanding = w.outstanding) w := by
  refine pass_now fun _ v hvi => ?_
  have hout : v.outstanding = w.outstanding := outstanding_of_view hvi
  rw [← hout] at hobs ⊢
  exact pass_mapErr (pass_reconcile hid hobs)

theorem pass_reserveAmbiguousRetryAfterBackoff {delay : Nat}
    (hid : generation.identity = identity) :
    Pass T identity (reserveAmbiguousRetryAfterBackoff delay generation reserved)
      (fun next v => ∀ record, next = some record →
        record.state.permitsAmbiguousRetry = true ∧ LoopReady identity true v) w := by
  refine pass_bind (pass_ask rfl) fun stopped v _ => ?_
  cases stopped with
  | some => exact pass_pure fun _ h => nomatch h
  | none =>
    refine pass_now fun _ u _ => ?_
    refine pass_bind (pass_mapErr (pass_reserveAmbiguousRetry hid)) fun next x hne => ?_
    refine pass_pure fun record hso => ?_
    cases hso
    exact hne

theorem pass_confirmTree {position : Nat} {positions : List Nat} :
    Passes T identity (Coordinator.confirmTree ctx derived position positions) w := by
  refine pass_now fun now v _ => ?_
  refine pass_bind (pass_mapErr (pass_confirm ?_)) fun _ u _ => pass_publicResult
  intro db allowed result db' hrun
  obtain ⟨_, -, ⟨-, hdb⟩ | ⟨_, _, _, rfl, -⟩⟩ := confirmGeneration_ok hrun
  · exact .inr hdb
  · exact .inl rfl

theorem pass_confirmCommitted {candidate : CandidateTransactionHash}
    {committed : CommittedTransaction} :
    Passes T identity (confirm ctx derived candidate committed state) w := by
  refine pass_now fun now v _ => ?_
  refine pass_bind (pass_mapErr (pass_confirm ?_)) fun _ u _ => pass_publicResult
  intro db allowed result db' hrun
  obtain ⟨_, -, ⟨-, hdb⟩ | ⟨_, _, _, rfl, -⟩⟩ := confirmGeneration_ok hrun
  · exact .inr hdb
  · exact .inl rfl

theorem pass_endHashless : Passes T identity (endHashless derived) w :=
  pass_bind pass_classifyDispatchedPost fun _ _ _ => pass_publicResult

section

variable (hid : derived.generation.identity = identity)
include hid

theorem pass_reconcileScanFailure {kind : ChainSubmissionFailureKind}
    {diagnostic : ChainSubmissionDiagnostic} {message : String} :
    Pass T identity (reconcileScanFailure derived kind diagnostic message) Q w :=
  pass_bind (pass_reconcileWithDurableState hid (.inl rfl)) fun _ _ _ => pass_throw

theorem pass_scanTree : Pass T identity (scanTree derived candidate) (fun _ v =>
      v.view identity = w.view identity) w := by
  refine pass_bind (pass_ask rfl) fun answer v hv => ?_
  cases (answer : ScanAnswer) with
  | found | noMatch | interrupted => exact pass_pure hv
  | invalid | transport => exact pass_reconcileScanFailure hid

theorem pass_settleNullifierSpent :
    Passes T identity (settleNullifierSpentAfterDispatch ctx derived record) w := by
  unfold settleNullifierSpentAfterDispatch
  cases ctx.recovery with
  | statusOnly => exact pass_endHashless
  | exactTree =>
    refine pass_bind (pass_scanTree hid) fun scan v _ => ?_
    cases scan with
    | found => exact pass_confirmTree
    | noMatch => exact pass_endHashless
    | interrupted => exact pass_publicResult

end

/-! ### Releasing a POST -/

/-- The row may carry one more POST released from `site`. -/
def Postable (identity : ChainSubmissionIdentity) (site : PostSite) (w : World σ) : Prop :=
  ∃ row, w.db.row identity = some row ∧ row.state.awaitsOutcome = true ∧
    (site = .reservedAttempt → row.state.readsUnresolved = true)

variable {site : PostSite} {continueLoop : StoredChainSubmission → Coord ChainSubmissionResult}

theorem Postable.of_view (h : Postable identity site w) (hv : w'.view identity = w.view identity) :
    Postable identity site w' := by
  obtain ⟨row, hrow, hca⟩ := h
  exact ⟨row, (Prod.mk.inj hv).1.trans hrow, hca⟩

theorem LoopReady.postable (h : LoopReady identity ambiguitySeen w) :
    Postable identity .reservedAttempt w := by
  obtain ⟨row, hrow, hc⟩ := h
  refine ⟨row, hrow, ?_⟩
  cases ambiguitySeen with
  | true =>
    have hp : row.state.permitsAmbiguousRetry = true := hc
    exact ⟨awaitsOutcome_of_permits hp, fun _ => readsUnresolved_of_permits hp⟩
  | false =>
    have hs : row.state = .submitting := (show _ ∧ _ from hc).1
    rw [hs]
    exact ⟨rfl, fun _ => rfl⟩

theorem Postable.release (h : Postable identity site w) (hw : Remembers identity w) :
    Remembers identity ⟨w.db, ⟨site, w.evidence identity, .pending⟩ :: w.posts⟩ := by
  intro _
  obtain ⟨row, hrow, ha, hsi⟩ := h
  refine ⟨row, hrow, ha, ?_⟩
  rintro ⟨post, hmem, hp⟩
  have hmem : post ∈ ⟨site, w.evidence identity, .pending⟩ :: w.outstanding := hmem
  rcases List.mem_cons.mp hmem with rfl | hmem
  · rcases hp with hres | hev
    · exact hsi hres
    · simpa [World.evidence, hrow] using hev
  · obtain ⟨_, hrow', hc⟩ := hw (List.ne_nil_of_mem hmem)
    rw [hrow] at hrow'
    cases hrow'
    exact hc.evidence ⟨post, hmem, hp⟩

theorem pass_raceEndpoint (h : Postable identity site w) :
    Pass T identity (raceEndpoint ctx site derived reserved)
      (fun progress v => progress.released = false → v.view identity = w.view identity) w := by
  have hp : Pass T identity (ask (.post site (endpointIndex ctx reserved) derived))
      (fun (progress : PostProgress) v =>
        progress.released = false → v.view identity = w.view identity) w := by
    refine fun hw => ⟨hw, ?_⟩
    rintro r v ⟨u, hu, hv⟩
    have hv : v = if PostProgress.released r then
      ⟨u.db, ⟨site, u.evidence identity, .pending⟩ :: u.posts⟩ else u := hv
    cases hr : PostProgress.released r with
    | true =>
      rw [hr, if_pos rfl] at hv
      subst hv
      exact ⟨(h.of_view hu).release (hw.of_view hu), fun hf => by rw [hr] at hf; cases hf⟩
    | false =>
      rw [hr, if_neg (by simp)] at hv
      subst hv
      exact ⟨hw.of_view hu, fun _ => hu⟩
  unfold raceEndpoint
  cases derived.request with
  | importedDelegation =>
    exact pass_interrupted (fun _ _ hv => pass_pure fun _ => hv) fun _ hv => pass_pure fun _ => hv
  | delegation | vote | voteBatch | delegateAndVoteBatch => exact hp

/-! ### Recovery and reconciliation -/

/-- The attempts that follow an ambiguous retry keep the invariant. -/
def Loops (T : DomainTables σ) (identity : ChainSubmissionIdentity)
    (continueLoop : StoredChainSubmission → Coord ChainSubmissionResult) : Prop :=
  ∀ next v, next.state.permitsAmbiguousRetry = true → LoopReady identity true v →
    Passes T identity (continueLoop next) v

/-- A reserved recovery retry keeps the invariant. -/
def Retries (T : DomainTables σ) (identity : ChainSubmissionIdentity)
    (retry : StoredChainSubmission → Coord ChainSubmissionResult) : Prop :=
  ∀ reserved v, Postable identity .recoveryRetry v → Passes T identity (retry reserved) v

section

variable (hid : derived.generation.identity = identity) (hlo : Loops T identity continueLoop)
  {outcome : PostAttemptOutcome}
include hid hlo

theorem pass_continueAmbiguous :
    Passes T identity (submitRecoveryRetry.continueAmbiguous ctx n continueLoop derived record) w := by
  refine pass_ite (fun _ => pass_publicResult) fun _ => ?_
  refine pass_interrupted (fun _ _ _ => pass_publicResult) fun v _ => ?_
  refine pass_bind (pass_reserveAmbiguousRetryAfterBackoff hid) fun next u hn => ?_
  cases next with
  | none => exact pass_publicResult
  | some next => exact hlo next u (hn next rfl).1 (hn next rfl).2

theorem pass_classifyRecoveryRetry : Passes T identity
      (submitRecoveryRetry.classifyRecoveryRetry ctx n continueLoop derived reserved outcome) w := by
  cases outcome with
  | accepted =>
    refine pass_bind pass_classifyDispatchedPost fun record v _ => ?_
    exact pass_ite (fun _ => pass_continueAmbiguous hid hlo) fun _ => pass_publicResult
  | possiblyDispatched =>
    exact pass_bind pass_classifyDispatchedPost fun record v _ => pass_continueAmbiguous hid hlo
  | rejected =>
    refine pass_ite (fun _ => pass_settleNullifierSpent hid) fun _ => ?_
    exact pass_bind pass_classifyDispatchedPost fun _ v _ => pass_throw
  | definitelyUnsent | localFailure =>
    exact pass_bind (pass_reconcileWithDurableState hid (.inl rfl)) fun _ _ _ => pass_throw

theorem pass_submitRecoveryRetry (hp : Postable identity .recoveryRetry w) :
    Passes T identity (submitRecoveryRetry ctx n continueLoop derived reserved) w := by
  refine pass_interrupted (fun _ _ _ => pass_publicResult) fun v hvi => ?_
  have hre : Pass T identity (registerInFlight derived.generation.identity)
      (fun _ u => u.view identity = v.view identity) v :=
    fun hv => (registerInFlight_safe hv).weaken fun _ _ _ _ => trivial
  refine pass_bind (pass_mapErr hre) fun _ u hvi' => ?_
  have hp : Postable identity .recoveryRetry u := (hp.of_view hvi).of_view hvi'
  refine pass_bind (pass_raceEndpoint hp) fun progress x _ => ?_
  split
  · exact pass_publicResult
  · exact pass_classifyRecoveryRetry hid hlo

end

theorem pass_reserveRecoveryRetryInPass (hreq : ctx.request.identity = identity) :
    Pass T identity (Coordinator.reserveRecoveryRetry ctx n derived record candidate)
      (fun next v => ∀ reserved, next = some reserved → Postable identity .recoveryRetry v) w := by
  refine pass_interrupted (fun _ _ _ => pass_pure fun _ h => nomatch h) fun v _ => ?_
  have hwa : Passes T identity (waitRetryBackoff ctx (ctx.used n)) v :=
    pass_ite (fun _ => pass_pure trivial) fun _ => pass_mono (pass_ask rfl) fun _ _ _ => trivial
  refine pass_bind hwa fun stopped u _ => ?_
  cases stopped with
  | some => exact pass_pure fun _ h => nomatch h
  | none =>
    refine pass_interrupted (fun _ _ _ => pass_pure fun _ h => nomatch h) fun x _ => ?_
    refine pass_now fun now y _ => ?_
    refine pass_bind (pass_mapErr (pass_reserveRecoveryRetry hreq)) fun next z hrow => ?_
    refine pass_pure fun _ _ => ?_
    obtain ⟨row, hrow, ha⟩ := hrow
    exact ⟨row, hrow, ha, nofun⟩

variable {retry : DerivedChainSubmission → StoredChainSubmission → Coord ChainSubmissionResult}
  {recover : StoredChainSubmission → Coord ChainSubmissionResult}
  {candidate : CandidateTransactionHash} {progress : LookupProgress}

section

variable (hid : derived.generation.identity = identity)
include hid

theorem pass_finishInconclusiveTracking :
    Passes T identity (finishInconclusiveTracking ctx derived record diagnostic) w := by
  refine pass_now fun now v _ => ?_
  refine pass_bind (Q := fun _ u => u = v) (pass_except fun _ => rfl) fun expired u _ => ?_
  exact pass_ite (fun _ => pass_mono (pass_reconcileWithDurableState hid (.inl rfl)) fun _ _ _ => trivial)
    (fun _ => pass_mono (pass_reconcileWithDurableState hid (.inl rfl)) fun _ _ _ => trivial)

section

variable (hrec : ∀ record v, Passes T identity (recover record) v) (hqu : w.outstanding = [])
include hrec hqu

/-- A row with a candidate has no outstanding POST, so every observation of the
candidate is safe, the terminal ones included. -/
theorem pass_reconcileTracking :
    Passes T identity (reconcileTracking ctx recover derived record candidate progress) w := by
  cases progress with
  | interrupted => exact pass_publicResult
  | failed =>
    have hexp : Passes T identity (trackingExpired ctx record) w :=
      pass_now fun _ _ _ => pass_except fun _ => trivial
    refine pass_bind hexp fun expired v _ => ?_
    refine pass_ite (fun _ => ?_) fun _ => ?_
    · exact pass_bind (pass_finishInconclusiveTracking hid) fun record u _ => hrec record u
    · exact pass_bind (pass_reconcileWithDurableState hid (.inl rfl)) fun _ _ _ => pass_throw
  | observed observation =>
    cases observation with
    | pending =>
      exact pass_bind (pass_finishInconclusiveTracking hid) fun record v _ => hrec record v
    | committedFailure =>
      exact pass_bind (pass_reconcileWithDurableState hid (.inr hqu)) fun _ _ _ => pass_publicResult
    | committedSuccess => exact pass_confirmCommitted

theorem pass_reconcileRecovering :
    Passes T identity (reconcileRecovering ctx recover derived record candidate progress) w := by
  cases progress with
  | interrupted => exact pass_publicResult
  | failed =>
    exact pass_bind (pass_reconcileWithDurableState hid (.inl rfl)) fun record v _ => hrec record v
  | observed observation =>
    cases observation with
    | pending =>
      exact pass_bind (pass_reconcileWithDurableState hid (.inl rfl)) fun record v _ =>
        hrec record v
    | committedSuccess => exact pass_confirmCommitted
    | committedFailure =>
      refine pass_ite (fun _ => ?_) fun _ => ?_
      · exact pass_bind (pass_reconcileWithDurableState hid (.inr hqu)) fun _ _ _ =>
          pass_publicResult
      · exact pass_bind (pass_reconcileWithDurableState hid (.inl rfl)) fun record v _ =>
          hrec record v

end

variable (hreq : ctx.request.identity = identity) (hre : n ≠ 0 → Retries T identity (retry derived))
include hreq hre

theorem pass_recoverIfEnabled :
    Passes T identity (recoverIfEnabled ctx n retry derived record) w := by
  unfold recoverIfEnabled
  split
  · refine pass_interrupted (fun _ _ _ => pass_publicResult) fun v _ => ?_
    refine pass_bind (pass_scanTree hid) fun scan u _ => ?_
    cases scan with
    | found => exact pass_confirmTree
    | interrupted => exact pass_publicResult
    | noMatch =>
      refine pass_ite (fun _ => pass_publicResult) fun hn => ?_
      refine pass_bind (pass_reserveRecoveryRetryInPass hreq) fun next x hne => ?_
      cases next with
      | none => exact pass_publicResult
      | some reserved => exact hre hn reserved x (hne reserved rfl)
  · exact pass_publicResult

theorem pass_reconcileExisting (hqu : record.state.awaitsOutcome = false → w.outstanding = []) :
    Passes T identity (reconcileExisting ctx n retry derived record) w := by
  have hrec : ∀ record v, Passes T identity (recoverIfEnabled ctx n retry derived record) v :=
    fun record v => pass_recoverIfEnabled hid hreq hre
  unfold reconcileExisting
  cases hs : record.state with
  | tracking =>
    have hqu : w.outstanding = [] := hqu (by rw [hs]; rfl)
    refine pass_interrupted (fun _ _ _ => pass_publicResult) fun v hv => ?_
    refine pass_bind (pass_ask rfl) fun progress u hv' => ?_
    have hout : u.outstanding = [] := (outstanding_of_view (hv'.trans hv)).trans hqu
    exact pass_reconcileTracking hid hrec hout
  | recovering candidate =>
    cases candidate with
    | none => exact hrec record w
    | some =>
      have hqu : w.outstanding = [] := hqu (by rw [hs]; rfl)
      refine pass_interrupted (fun _ _ _ => pass_publicResult) fun v hv => ?_
      refine pass_bind (pass_ask rfl) fun progress u hv' => ?_
      have hout : u.outstanding = [] := (outstanding_of_view (hv'.trans hv)).trans hqu
      exact pass_reconcileRecovering hid hrec hout
  | submitting | submittedWithoutHash | confirmed | rejected => exact pass_publicResult

end

/-! ### The attempt loop -/

variable {ambiguitySeen isFinal : Bool} {m : Coord ChainSubmissionResult} {used : Nat}

theorem LoopReady.quiet (h : LoopReady identity false w) : w.outstanding = [] := by
  obtain ⟨_, -, hca⟩ := h
  exact (show _ ∧ _ from hca).2

section

variable (h : LoopReady identity ambiguitySeen w)
include h

theorem pass_abandonAttempt {reason : Interruption} :
    Passes T identity (abandonAttempt derived reserved ambiguitySeen reason) w := by
  cases ambiguitySeen with
  | true => exact pass_publicResult
  | false =>
    refine pass_bind (pass_removeFreshReservation h.quiet) fun _ v _ => ?_
    cases reason with
    | cancelled => exact pass_pure trivial
    | staleEpoch => exact pass_throw

theorem pass_registerAttempt :
    Pass T identity (registerAttempt derived ambiguitySeen) (fun _ v =>
        v.view identity = w.view identity) w := by
  refine fun hw => safeE_tryCatch ((registerInFlight_safe hw).weaken fun error v hv hvi => ?_)
  revert hv
  cases ambiguitySeen with
  | true => exact pass_throw
  | false =>
    exact pass_bind (pass_removeFreshReservation (h.of_view hvi).quiet) fun _ _ _ => pass_throw

end

/-- What an attempt leaves: a tracked candidate means that nothing is outstanding. -/
def AttemptLeaves (w : World σ) : AttemptOutcome → Prop
  | .tracked _ => w.outstanding = []
  | _ => True

theorem pass_finished (h : Passes T identity m w) :
    Pass T identity (do let result ← m; return AttemptOutcome.finished result)
      (flip AttemptLeaves) w :=
  pass_bind h fun _ _ _ => pass_pure trivial

theorem pass_classifyRejection {kind : ChainRejectionKind}
    {diagnostic : ChainSubmissionDiagnostic} :
    Pass T identity (classifyRejection derived ambiguitySeen kind diagnostic)
      (flip AttemptLeaves) w := by
  refine pass_bind pass_classifyDispatchedPost fun record v _ => ?_
  exact pass_ite (fun _ => pass_throw) fun _ => pass_finished pass_publicResult

section

variable (hid : derived.generation.identity = identity)
include hid

theorem pass_classifyUnsent {error : ChainTransportError} (h : LoopReady identity ambiguitySeen w) :
    Pass T identity (classifyUnsent isFinal derived reserved ambiguitySeen error)
      (flip AttemptLeaves) w := by
  cases ambiguitySeen with
  | true =>
    refine pass_bind (pass_reconcileWithDurableState hid (.inl rfl)) fun record v _ => ?_
    exact pass_ite (fun _ => pass_throw) fun _ => pass_pure trivial
  | false =>
    refine pass_bind (pass_removeFreshReservation h.quiet) fun _ v _ => ?_
    exact pass_ite (fun _ => pass_throw) fun _ => pass_pure trivial

theorem pass_classifyAttempt (h : outcome.released = false → LoopReady identity ambiguitySeen w) :
    Pass T identity (classifyAttempt ctx isFinal derived reserved ambiguitySeen outcome)
      (flip AttemptLeaves) w := by
  cases outcome with
  | accepted =>
    refine pass_bind pass_classifyDispatchedPost fun record v hqu => ?_
    refine pass_pure ?_
    split
    · trivial
    · exact hqu
  | rejected =>
    exact pass_ite (fun _ => pass_finished (pass_settleNullifierSpent hid)) fun _ =>
      pass_classifyRejection
  | possiblyDispatched =>
    refine pass_bind pass_classifyDispatchedPost fun record v _ => ?_
    exact pass_interrupted (fun _ _ _ => pass_finished pass_publicResult) fun _ _ =>
      pass_pure trivial
  | localFailure =>
    have hre := h rfl
    cases ambiguitySeen with
    | true => exact pass_throw
    | false =>
      exact pass_bind (pass_removeFreshReservation hre.quiet) fun _ v _ => pass_throw
  | definitelyUnsent => exact pass_classifyUnsent hid (h rfl)

theorem pass_runAttempt (h : LoopReady identity ambiguitySeen w) :
    Pass T identity (runAttempt ctx isFinal derived reserved ambiguitySeen)
      (flip AttemptLeaves) w := by
  refine pass_bind pass_interruption fun stopped v hvi => ?_
  have hre := h.of_view hvi
  cases stopped with
  | some => exact pass_finished (pass_abandonAttempt hre)
  | none =>
    refine pass_bind (pass_registerAttempt hre) fun _ u hvi' => ?_
    have hre := hre.of_view hvi'
    refine pass_bind (pass_raceEndpoint hre.postable) fun progress x hk => ?_
    cases progress with
    | finished =>
      exact pass_classifyAttempt hid (fun hr => hre.of_view (hk hr))
    | interrupted _ possible =>
      cases possible with
      | false => exact pass_finished (pass_abandonAttempt (hre.of_view (hk rfl)))
      | true => exact pass_classifyAttempt hid nofun

end

/-- The next attempt of the loop starts from a row reserved for it. -/
def NextReady (identity : ChainSubmissionIdentity) (ambiguitySeen : Bool) (w : World σ) :
    NextAttempt → Prop
  | .stop _ => True
  | .attempt derived _ => derived.generation.identity = identity ∧
      LoopReady identity ambiguitySeen w

theorem pass_stop (h : Passes T identity m w) :
    Pass T identity (do let result ← m; return NextAttempt.stop result)
      (flip (NextReady identity ambiguitySeen)) w :=
  pass_bind h fun _ _ _ => pass_pure trivial

theorem pass_readmission (hreq : ctx.request.identity = identity) :
    Pass T identity (readmitSubmission ctx used derived) (flip (NextReady identity false)) w := by
  refine pass_bind pass_nowSeconds fun now v _ => ?_
  refine pass_bind (pass_admission hreq) fun admission u ha => ?_
  cases (admission : StoreAdmission) with
  | noAuthoritativeState => exact pass_throw
  | authoritative => exact pass_stop pass_publicResult
  | ready =>
    refine pass_ite (fun hfr => ?_) fun _ => pass_stop pass_publicResult
    obtain ⟨rfl, -⟩ := hfr
    exact pass_pure ⟨ha.1, ha.2.2⟩

theorem pass_reserveNext (hid : derived.generation.identity = identity)
    (hreq : ctx.request.identity = identity) :
    Pass T identity (reserveNext ctx used derived reserved ambiguitySeen)
      (flip (NextReady identity ambiguitySeen)) w := by
  cases ambiguitySeen with
  | true =>
    refine pass_bind (pass_reserveAmbiguousRetryAfterBackoff hid) fun next v hne => ?_
    cases next with
    | none => exact pass_stop pass_publicResult
    | some next => exact pass_pure ⟨hid, (hne next rfl).2⟩
  | false =>
    refine pass_bind (pass_ask rfl) fun stopped v _ => ?_
    cases stopped with
    | none => exact pass_readmission hreq
    | some reason =>
      refine pass_stop ?_
      cases reason with
      | cancelled => exact pass_pure trivial
      | staleEpoch => exact pass_throw

section

variable (hreq : ctx.request.identity = identity)
include hreq

/-- The loop keeps the invariant, by induction on the attempts that remain. The
recovery retry inside reconciliation continues with strictly fewer attempts. -/
theorem pass_submitReservedAttempts :
    ∀ (n : Nat) (derived : DerivedChainSubmission) (reserved : StoredChainSubmission)
      (ambiguitySeen : Bool) (w : World σ), derived.generation.identity = identity →
      LoopReady identity ambiguitySeen w →
      Passes T identity (submitReservedAttempts ctx n derived reserved ambiguitySeen) w := by
  intro n
  induction n using Nat.strongRecOn with
  | ind n ih =>
    intro derived reserved ambiguitySeen w hid hre
    cases n with
    | zero => exact pass_throw
    | succ n =>
      unfold submitReservedAttempts
      refine pass_bind (pass_runAttempt hid hre) fun outcome v hle => ?_
      cases outcome with
      | finished => exact pass_pure trivial
      | tracked =>
        refine pass_reconcileExisting hid hreq (fun hn reserved u hpo => ?_) fun _ => hle
        cases n with
        | zero => exact absurd rfl hn
        | succ m =>
          refine pass_submitRecoveryRetry hid (fun next x hpe hlo => ?_) hpo
          rw [hpe]
          exact ih m (by omega) derived next true x hid hlo
      | retry reserved ambiguitySeen =>
        refine pass_ite (fun _ => pass_publicResult) fun _ => ?_
        refine pass_bind (pass_reserveNext hid hreq) fun next u hne => ?_
        cases next with
        | stop => exact pass_pure trivial
        | attempt derived reserved =>
          exact ih n (by omega) derived reserved ambiguitySeen u hne.1 hne.2

theorem pass_recoveryRetry (hid : derived.generation.identity = identity)
    (hpo : Postable identity .recoveryRetry w) :
    Passes T identity (recoveryRetry ctx n derived reserved) w := by
  cases n with
  | zero => exact pass_publicResult
  | succ m =>
    refine pass_submitRecoveryRetry hid (fun next v hpe hlo => ?_) hpo
    rw [hpe]
    exact pass_submitReservedAttempts hreq m derived next true v hid hlo

/-! ### The pass -/

theorem pass_advanceReady (hid : derived.generation.identity = identity)
    (hqu : record.state.awaitsOutcome = false → w.outstanding = []) :
    Passes T identity (advanceReady ctx derived record) w := by
  have hr : ∀ v : World σ, v.view identity = w.view identity →
      Passes T identity (reconcileExisting ctx ctx.policy.maximumPostAttempts
        (recoveryRetry ctx ctx.policy.maximumPostAttempts) derived record) v := by
    intro v hv
    refine pass_reconcileExisting hid hreq (fun _ reserved u hpo => ?_) (fun ha => ?_)
    · exact pass_recoveryRetry hreq hid hpo
    · exact (outstanding_of_view hv).trans (hqu ha)
  refine pass_ite (fun _ => ?_) fun _ => hr w rfl
  refine pass_interrupted (fun _ v hv => hr v hv) fun v hv => ?_
  refine pass_now fun now u _ => ?_
  refine pass_bind (pass_mapErr (pass_reserveAmbiguousRetry hid)) fun next x hne => ?_
  obtain ⟨hpe, hlo⟩ := hne
  rw [hpe]
  exact pass_submitReservedAttempts hreq _ derived next true x hid hlo

theorem pass_advanceInEpoch : Passes T identity (advanceInEpoch ctx) w := by
  refine pass_bind pass_acquire fun _ v _ => ?_
  refine pass_bind pass_interruption fun stopped u _ => ?_
  refine pass_bind pass_nowSeconds fun now x _ => ?_
  refine pass_bind (pass_admission hreq) fun admission y ha => ?_
  cases (admission : StoreAdmission) with
  | noAuthoritativeState =>
    refine pass_bind pass_interruption fun reason z _ => ?_
    match reason with
    | some .cancelled => exact pass_pure trivial
    | some .staleEpoch => exact pass_throw
    | none => exact pass_throw
  | authoritative => exact pass_publicResult
  | ready derived record fresh =>
    cases fresh with
    | false => exact pass_advanceReady hreq ha.1 ha.2
    | true =>
      obtain ⟨hid, hst, hlo⟩ := ha
      have hpe : record.state.permitsAmbiguousRetry = false := by rw [hst]; rfl
      refine pass_ite (fun _ => ?_) fun h => absurd rfl h
      rw [hpe]
      exact pass_submitReservedAttempts hreq _ derived record false y hid hlo

end

/-- Every world that passes cut anywhere can reach remembers its outstanding POSTs. -/
theorem reached_remembers (h : Reached T identity w) : Remembers identity w := by
  induction h with
  | start => exact remembers_of_quiet rfl
  | pass _ hid _ hcut ih => exact (pass_advanceInEpoch hid ih).of_cutAt hcut

theorem reached_overtakes (h : Reached T identity w) : Overtakes w.posts := by
  induction h with
  | start => exact overtakes_nil
  | @pass w w' ctx _ _ hcut ih =>
    obtain ⟨q, hq⟩ := hcut
    suffices hs : ∀ x, Relation.ReflTransGen (Step (answers T identity))
        ((advanceInEpoch ctx).run, w) x → Overtakes x.2.posts from hs _ hq
    intro x hx
    induction hx with
    | refl => exact ih
    | tail _ hst ih =>
      cases hst with
      | answer ha => exact ih.answered ha

end

section

/-! ### Passes and crashes

A vote is submitted by several passes, each cut at some command. -/

def samplePolicy : CoordinatorPolicy where
  trackingWindowSeconds := 60
  maximumPostAttempts := 1
  retryBackoffs := []
  window_pos := by decide
  attempts_pos := by decide
  attempts_le := by decide
  backoffs_length := rfl
  backoffs_bounded := by simp

def samplePass : PassContext := ⟨samplePolicy, 1, sampleVote, .exactTree⟩

def sampleRejection : PostProgress :=
  .finished (.rejected 5 .other (.fromRedactedMessage .chainRejected "rejected") none)

def sampleAcceptance : PostProgress := .finished (.accepted (Vector.replicate 32 9))

/-- A chain that gives a POST this reply, commits any candidate as a failure and shows no tree
match. -/
def sampleAnswer (reply : PostProgress) : (c : Cmd) → World Unit → c.Answer × World Unit
  | .acquire _, w => (.ok (), w)
  | .registerInFlight _, w => (.ok (), w)
  | .now, w => (.ok 10, w)
  | .interruption, w => (none, w)
  | .lookup _, w => (.observed (.committedFailure ⟨30, 5, []⟩), w)
  | .scan _ _, w => (.noMatch, w)
  | .backoff _, w => (none, w)
  | .post site _ _, w => (reply, if reply.released then
      ⟨w.db, ⟨site, w.evidence (sampleIdentity (.vote 1)), .pending⟩ :: w.posts⟩ else w)
  | .store op, w =>
    match op.run sampleDomain true w.db with
    | .ok (result, db) => (.ok result, ⟨db, op.settles result w.posts⟩)
    | .error e => (.error e, w)

theorem sampleAnswer_possible (reply : PostProgress) (c : Cmd) (w : World Unit) :
    answers sampleDomain (sampleIdentity (.vote 1)) c w (sampleAnswer reply c w).1
      (sampleAnswer reply c w).2 := by
  refine ⟨w, rfl, ?_⟩
  cases c with
  | store op =>
    cases hrun : op.run sampleDomain true w.db with
    | error e =>
      have ha : sampleAnswer reply (.store op) w = (.error e, w) := by
        simp only [sampleAnswer, hrun]
      rw [ha]
      exact .inr ⟨⟨e, rfl⟩, rfl⟩
    | ok r =>
      have ha : sampleAnswer reply (.store op) w = (.ok r.1, ⟨r.2, op.settles r.1 w.posts⟩) := by
        simp only [sampleAnswer, hrun]
      rw [ha]
      exact .inl ⟨true, r.1, r.2, hrun, rfl, rfl⟩
  | _ => rfl

/-- The world after `fuel` commands of one more pass. -/
def sampleAfter (reply : PostProgress) (fuel : Nat) (w : World Unit) : World Unit :=
  (advanceInEpoch samplePass).run.play (sampleAnswer reply) fuel w

theorem sampleAfter_reached {w : World Unit} (reply : PostProgress) (fuel : Nat)
    (h : Reached sampleDomain (sampleIdentity (.vote 1)) w) :
    Reached sampleDomain (sampleIdentity (.vote 1)) (sampleAfter reply fuel w) :=
  .pass samplePass rfl h (cutAt_play (sampleAnswer_possible reply) fuel _ w)

/-- A first POST was released and the process stopped before it was classified. -/
def crashedFirst : World Unit := sampleAfter sampleAcceptance 7 ⟨⟨[], ()⟩, []⟩

/-- The first POST was rejected, and a recovery retry was released before the crash. -/
def crashedRetry : World Unit :=
  sampleAfter sampleAcceptance 13 (sampleAfter sampleRejection 20 ⟨⟨[], ()⟩, []⟩)

/-- After the crash the row is found abandoned, a second POST is accepted, and its transaction
fails on chain. -/
def failedSecond : World Unit :=
  sampleAfter sampleAcceptance 20 (sampleAfter sampleAcceptance 20
    (sampleAfter sampleAcceptance 20 crashedFirst))

theorem crashedFirst_reached : Reached sampleDomain (sampleIdentity (.vote 1)) crashedFirst :=
  sampleAfter_reached _ 7 (.start _ rfl)

theorem crashedRetry_reached : Reached sampleDomain (sampleIdentity (.vote 1)) crashedRetry :=
  sampleAfter_reached _ 13 (sampleAfter_reached _ 20 (.start _ rfl))

theorem failedSecond_reached : Reached sampleDomain (sampleIdentity (.vote 1)) failedSecond :=
  sampleAfter_reached _ 20 (sampleAfter_reached _ 20 (sampleAfter_reached _ 20 crashedFirst_reached))

/-- The row of the vote reads as a definite rejection. -/
def readsRejected (w : World Unit) : Bool :=
  (w.db.row (sampleIdentity (.vote 1))).any fun row =>
    !row.state.readsUnresolved && row.state.carriedDiagnostic.map (·.kind) = some .chainRejected

end

end ZcashVoting.ChainSubmission
