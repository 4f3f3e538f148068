import ZcashVoting.ChainSubmission.ScanAnswers
import ZcashVoting.Voting.ConfirmationEffects

/-!
# Confirmation by events and by tree

A committed transaction confirms a generation when its events describe the generation's
output: one event of the right kind for the round, with the positions of the outputs
and, for a batch, its digest, its members and their nullifiers. A complete tree pass
confirms it by the leaves themselves.
-/
namespace ZcashVoting.Voting

open ChainSubmission KeyedData Occurrence CommitmentTree List ValidatedChainSubmissionConfirmation

/-- The base64 alphabet of the wire: `encode` of the UTF-8 bytes of a text, and `decode`. -/
structure Base64 where
  encode : String → String
  decode : String → Option (List UInt8)

/-- What confirmation reads of a batch's wire body: the encoded nullifiers of its votes,
and how many nullifiers a combined body's delegation spends. -/
structure BatchWires where
  (vanNullifiers combinedVanNullifiers : String → List String)
  govNullifierCount : String → Nat

/-! ### Events -/

def roundIdAttributes : List String := ["vote_round_id", "round_id"]

def attributeValues (event : TxEvent) (key : String) : List String :=
  (event.attributes.filter fun entry => entry.1 = key).map Prod.snd

def roundValues (event : TxEvent) : List String :=
  (event.attributes.filter fun entry => roundIdAttributes.contains entry.1).map Prod.snd

variable (base64 : Base64)

/-- The round's text itself, or a text whose base64 form it is. -/
def roundIdMatches (eventRoundId expectedRoundId : String) : Bool :=
  eventRoundId = expectedRoundId || base64.encode eventRoundId = expectedRoundId

/-- The loop over the events of a kind. -/
structure RoundSearch where
  matching : Option TxEvent
  wrongRound : Option String
  missingRound : Bool

def RoundSearch.visit (eventType roundId : String) (search : RoundSearch)
    (event : TxEvent) : Except VotingError RoundSearch :=
  if 1 < (roundValues event).length then
    .error (.invalidInput s!"{eventType} event must contain exactly one round identity attribute")
  else
    match (roundValues event).head? with
    | some value =>
      if roundIdMatches base64 value roundId then
        if search.matching.isSome then
          .error (.invalidInput s!"ambiguous {eventType} events for round {roundId}; expected one")
        else .ok { search with matching := some event }
      else .ok { search with wrongRound := some value }
    | none => .ok { search with missingRound := true }

def RoundSearch.failure (eventType roundId : String) (search : RoundSearch) : VotingError :=
  .invalidInput (match search.wrongRound, search.missingRound with
    | some value, _ => s!"{eventType} round mismatch: expected {roundId}, got {value}"
    | none, true => s!"{eventType} event is missing its round identity"
    | none, false => s!"missing {eventType} event for round {roundId}")

def requiredEventForRound (events : List TxEvent) (eventType roundId : String) :
    Except VotingError TxEvent := do
  let search ← (events.filter fun event => event.kind = eventType).foldlM
    (RoundSearch.visit base64 eventType roundId) ⟨none, none, false⟩
  match search.matching with
  | some event => .ok event
  | none => .error (search.failure eventType roundId)

def requiredAttribute (event : TxEvent) (eventType key : String) : Except VotingError String :=
  match attributeValues event key with
  | [value] => .ok value
  | [] => .error (.invalidInput s!"missing {eventType} {key} in transaction events")
  | _ => .error (.invalidInput
      s!"ambiguous {eventType} {key} attributes in transaction events; expected one")

/-! ### Values -/

/-- A number, or a text that was base64-decoded on its way here and whose encoding is one. -/
def parseCompatU64 (raw : List Char) (field : String) : Except VotingError Nat :=
  let trimmed := Text.trim raw
  match Text.parseUnsigned (2 ^ 64 - 1) trimmed with
  | some value => .ok value
  | none =>
    match if Text.isAscii trimmed then none
      else Text.parseUnsigned (2 ^ 64 - 1) (base64.encode (String.ofList trimmed)).toList with
    | some value => .ok value
    | none => .error (.invalidInput
        s!"{field} must be an unsigned 64-bit integer, got \"{String.ofList trimmed}\"")

def parseCsv {α : Type} (raw : List Char) (field : String)
    (parse : List Char → Except VotingError α) :
    Except VotingError (List α) :=
  let values := (Text.split ',' raw).map Text.trim
  if values.any List.isEmpty then
    .error (.invalidInput s!"{field} must be a nonempty comma-separated list")
  else values.mapM parse

def parseCsvU64 (raw : List Char) : Except VotingError (List Nat) :=
  parseCsv raw "cast_vote_batch vote_commitment_leaf_indices" fun value =>
    parseCompatU64 base64 value "cast_vote_batch position"

def parseCsvU32 (raw : List Char) : Except VotingError (List Nat) :=
  parseCsv raw "cast_vote_batch proposal_ids" fun value => do
    let proposalId ← parseCompatU64 base64 value "cast_vote_batch proposal id"
    if proposalId < 2 ^ 32 then .ok proposalId
    else .error (.invalidInput "cast_vote_batch proposal id does not fit u32")

def parseCanonicalHex32 (raw : List Char) (field : String) : Except VotingError Bytes32 :=
  match Text.hexBytes raw with
  | some bytes =>
    if h : bytes.length = 32 then .ok ⟨bytes.toArray, h⟩
    else .error (.invalidInput s!"{field} must be 32-byte canonical lowercase hex")
  | none => .error (.invalidInput s!"{field} must be 32-byte canonical lowercase hex")

def parseCsvStrings (raw : List Char) : Except VotingError (List String) :=
  parseCsv raw "cast_vote_batch van_nullifiers" fun value => do
    let _ ← parseCanonicalHex32 value "cast_vote_batch VAN nullifier"
    .ok (String.ofList value)

/-! ### Confirmation by hash -/

def confirmedByHash (transactionHash : CandidateTransactionHash) (finalVanPosition : Nat)
    (positions : List Nat) : Except VotingError ValidatedChainSubmissionConfirmation :=
  (ValidatedChainSubmissionConfirmation.fromHash transactionHash finalVanPosition positions).mapError .invalidInput

def readU64 (event : TxEvent) (eventType key field : String) : Except VotingError Nat := do
  let raw ← requiredAttribute event eventType key
  parseCompatU64 base64 raw.toList field

def validateDelegationEvent (roundId : String) (transactionHash : CandidateTransactionHash)
    (events : List TxEvent) : Except VotingError ValidatedChainSubmissionConfirmation := do
  let event ← requiredEventForRound base64 events "delegate_vote" roundId
  let finalVanPosition ← readU64 base64 event "delegate_vote" "leaf_index" "delegate_vote leaf_index"
  confirmedByHash transactionHash finalVanPosition []

def validateVoteEvent (roundId : String) (transactionHash : CandidateTransactionHash)
    (events : List TxEvent) : Except VotingError ValidatedChainSubmissionConfirmation := do
  let event ← requiredEventForRound base64 events "cast_vote" roundId
  let raw ← requiredAttribute event "cast_vote" "leaf_index"
  match (Text.split ',' raw.toList).map Text.trim with
  | [van, commitment] => do
    let finalVanPosition ← parseCompatU64 base64 van "cast_vote VAN position"
    let voteCommitmentPosition ← parseCompatU64 base64 commitment "cast_vote commitment position"
    confirmedByHash transactionHash finalVanPosition [voteCommitmentPosition]
  | _ => .error (.invalidInput "cast_vote leaf_index must contain VAN and vote-commitment positions")

def batchEventType (target : ChainSubmissionTarget) : String :=
  if target.isCombined then "delegate_and_cast_vote_batch" else "cast_vote_batch"

/-- The nullifiers of the generation, in hexadecimal. -/
def derivedNullifier (encoded : String) : Except VotingError String :=
  match base64.decode encoded with
  | none => .error (.internal "derived batch nullifier is not canonical base64")
  | some bytes =>
    if bytes.length ≠ 32 then .error (.internal "derived batch nullifier has invalid length")
    else .ok (hexEncodeBytes bytes)

variable (wires : BatchWires)

/-- A batch layout always comes with a batch request; the source panics otherwise. -/
def batchNullifiers : ChainSubmissionRequest → Except VotingError (List String)
  | .voteBatch wire => .ok (wires.vanNullifiers wire)
  | .delegateAndVoteBatch wire => .ok (wires.combinedVanNullifiers wire)
  | _ => .error (.internal "batch layout has batch request")

def checkGovNullifiers (request : ChainSubmissionRequest)
    (event : TxEvent) (eventType : String) : Except VotingError Unit :=
  match request with
  | .delegateAndVoteBatch wire => do
    let nullifiers ← readU64 base64 event eventType "nullifier_count" "combined delegation nullifier count"
    if nullifiers ≠ wires.govNullifierCount wire then
      .error (.invalidInput "combined delegation nullifier count does not match the locked generation")
    else .ok ()
  | _ => .ok ()

def checkBatchDigest (event : TxEvent) (eventType : String) (orderedBatchDigest : Bytes32) :
    Except VotingError Unit := do
  let raw ← requiredAttribute event eventType "batch_digest"
  let eventDigest ← parseCanonicalHex32 raw.toList "cast_vote_batch batch_digest"
  if eventDigest ≠ orderedBatchDigest then
    .error (.invalidInput "cast_vote_batch digest does not match the locked generation")
  else .ok ()

def checkBatchSize (event : TxEvent) (eventType : String) (size : Nat) :
    Except VotingError Unit := do
  let batchSize ← readU64 base64 event eventType "batch_size" "cast_vote_batch batch_size"
  if batchSize = 0 ∨ maxVoteBatchActions < batchSize ∨ batchSize ≠ size then
    .error (.invalidInput "cast_vote_batch size does not match the locked generation")
  else .ok ()

def checkProposals (event : TxEvent) (eventType : String) (orderedProposalIds : List Nat) :
    Except VotingError Unit := do
  let raw ← requiredAttribute event eventType "proposal_ids"
  let proposalIds ← parseCsvU32 base64 raw.toList
  if proposalIds ≠ orderedProposalIds then
    .error (.invalidInput "cast_vote_batch proposal order does not match the locked generation")
  else .ok ()

def checkNullifiers (request : ChainSubmissionRequest)
    (event : TxEvent) (eventType : String) : Except VotingError Unit := do
  let encoded ← batchNullifiers wires request
  let expectedNullifiers ← encoded.mapM (derivedNullifier base64)
  let raw ← requiredAttribute event eventType "van_nullifiers"
  let eventNullifiers ← parseCsvStrings raw.toList
  if eventNullifiers ≠ expectedNullifiers then
    .error (.invalidInput "cast_vote_batch nullifier order does not match the locked generation")
  else .ok ()

/-- Entry `i` must be `final + 1 + i` in 64 bits. -/
def adjacentFrom (finalVanPosition : Nat) (positions : List Nat) : Bool :=
    positions.zipIdx.all fun entry =>
    decide (finalVanPosition + (entry.2 + 1) < 2 ^ 64) &&
      entry.1 == finalVanPosition + (entry.2 + 1)

def validateBatchEvent (derived : DerivedChainSubmission)
    (orderedBatchDigest : Bytes32) (size : Nat) (transactionHash : CandidateTransactionHash)
    (events : List TxEvent) : Except VotingError ValidatedChainSubmissionConfirmation := do
  let eventType := batchEventType derived.generation.identity.target
  let event ← requiredEventForRound base64 events eventType derived.generation.identity.roundId
  checkGovNullifiers base64 wires derived.request event eventType
  checkBatchDigest event eventType orderedBatchDigest
  checkBatchSize base64 event eventType size
  checkProposals base64 event eventType derived.orderedProposalIds
  checkNullifiers base64 wires derived.request event eventType
  let finalVanPosition ←
    readU64 base64 event eventType "final_van_leaf_index" "cast_vote_batch final VAN position"
  let raw ← requiredAttribute event eventType "vote_commitment_leaf_indices"
  let positions ← parseCsvU64 base64 raw.toList
  if positions.length ≠ size ∨ adjacentFrom finalVanPosition positions = false then
    .error (.invalidInput "cast_vote_batch positions must be the complete adjacent action layout")
  else confirmedByHash transactionHash finalVanPosition positions

def validateHashConfirmation (derived : DerivedChainSubmission)
    (transactionHash : CandidateTransactionHash) (events : List TxEvent) :
    Except VotingError ValidatedChainSubmissionConfirmation :=
  match derived.generation.identity.target, derived.expectedLayout with
  | .delegation, .delegation _ =>
    validateDelegationEvent base64 derived.generation.identity.roundId transactionHash events
  | .vote _, .vote _ _ =>
      validateVoteEvent base64 derived.generation.identity.roundId transactionHash events
  | .voteBatch digest, .voteBatch _ commitments =>
    validateBatchEvent base64 wires derived digest commitments.length transactionHash events
  | .delegateAndVoteBatch digest, .voteBatch _ commitments =>
    validateBatchEvent base64 wires derived digest commitments.length transactionHash events
  | _, _ => .error (.internal "chain submission identity and expected layout disagree")

def validateImportedDelegationConfirmation (derived : DerivedChainSubmission)
    (transactionHash : CandidateTransactionHash) (events : List TxEvent) :
    Except VotingError ValidatedChainSubmissionConfirmation :=
  match derived.generation.identity.target, derived.expectedLayout with
  | .delegation, .delegation _ =>
    validateDelegationEvent base64 derived.generation.identity.roundId transactionHash events
  | _, _ => .error (.invalidInput "imported delegation confirmation has an invalid generation layout")

/-! ### What an accepted event says -/

section

variable {base64 : Base64} {wires : BatchWires} {derived : DerivedChainSubmission}
  {events : List TxEvent} {event : TxEvent} {eventType roundId key field : String}
  {transactionHash : CandidateTransactionHash} {confirmation : ValidatedChainSubmissionConfirmation}
  {positions : List Nat} {request : ChainSubmissionRequest} {finalVanPosition size : Nat}
  {digest : Bytes32} {search : RoundSearch}

/-- The event names the round, once. -/
def namesRound (base64 : Base64) (roundId : String) (event : TxEvent) : Bool :=
  match roundValues event with
  | [value] => roundIdMatches base64 value roundId
  | _ => false

/-- The only event of its kind that names the round. -/
def RoundEvent (base64 : Base64) (events : List TxEvent) (eventType roundId : String)
    (event : TxEvent) : Prop :=
  events.filter (fun other => decide (other.kind = eventType) && namesRound base64 roundId other) = [event]

/-- The attribute stands once in the event, with a value that reads as `value`. -/
def Says {α : Type} (event : TxEvent) (key : String) (read : List Char → Except VotingError α)
    (value : α) : Prop :=
  ∃ raw, attributeValues event key = [raw] ∧ read raw.toList = .ok value

theorem visit_cases {search' : RoundSearch}
    (h : search.visit base64 eventType roundId event = .ok search') :
    (namesRound base64 roundId event = true ∧ search.matching = none ∧
      search'.matching = some event) ∨
      (namesRound base64 roundId event = false ∧ search'.matching = search.matching) := by
  unfold namesRound
  obtain ⟨hma, h⟩ := guard_ok h
  match hv : roundValues event with
  | [] =>
    rw [hv] at h
    cases h
    exact .inr ⟨rfl, rfl⟩
  | [value] =>
    rw [hv] at h
    simp only [List.head?_cons] at h
    split at h
    · rename_i hm
      cases hf : search.matching with
      | some => rw [hf] at h; cases h
      | none =>
        rw [hf] at h
        cases h
        exact .inl ⟨hm, rfl, rfl⟩
    · rename_i hm
      cases h
      exact .inr ⟨Bool.not_eq_true _ ▸ hm, rfl⟩
  | _ :: _ :: _ =>
    rw [hv] at hma
    exact absurd (by simp) hma

/-- The search keeps the only event that names the round. -/
theorem search_ok {kinds : List TxEvent}
    (h : kinds.foldlM (RoundSearch.visit base64 eventType roundId) ⟨none, none, false⟩ = .ok search) :
    kinds.filter (namesRound base64 roundId) = search.matching.toList := by
  refine foldlM_ok_induction (fun seen (st : RoundSearch) =>
    seen.filter (namesRound base64 roundId) = st.matching.toList) h rfl ?_
  intro seen x rest st st' _ hpr hst
  rw [filter_append, hpr]
  rcases visit_cases hst with ⟨hna, hno, hso⟩ | ⟨hnot, hsa⟩
  · rw [filter_cons_of_pos hna, hno, hso]
    rfl
  · rw [filter_cons_of_neg (by rw [hnot]; exact Bool.false_ne_true), hsa, filter_nil, append_nil]

theorem requiredEventForRound_ok
    (h : requiredEventForRound base64 events eventType roundId = .ok event) :
    RoundEvent base64 events eventType roundId event := by
  obtain ⟨search, hse, h⟩ := bind_ok h
  have hf := search_ok hse
  cases hm : search.matching with
  | none => rw [hm] at h; cases h
  | some =>
    rw [hm] at h hf
    cases h
    rw [filter_filter] at hf
    simp only [Bool.and_comm] at hf
    exact hf

theorem requiredAttribute_ok {value : String}
    (h : requiredAttribute event eventType key = .ok value) :
    attributeValues event key = [value] := by
  unfold requiredAttribute at h
  split at h
  · next hva => cases h; exact hva
  · cases h
  · cases h

theorem readU64_ok {value : Nat} (h : readU64 base64 event eventType key field = .ok value) :
    Says event key (fun raw => parseCompatU64 base64 raw field) value := by
  obtain ⟨raw, hraw, h⟩ := bind_ok h
  exact ⟨raw, requiredAttribute_ok hraw, h⟩

theorem parseCanonicalHex32_ok {raw : List Char} {bytes : Bytes32}
    (h : parseCanonicalHex32 raw field = .ok bytes) : String.ofList raw = hexEncode bytes := by
  unfold parseCanonicalHex32 at h
  split at h
  · next read hre =>
    split at h
    · cases h
      rw [← Text.flatMap_hexBytes hre]
      rfl
    · cases h
  · cases h

theorem confirmedByHash_ok
    (h : confirmedByHash transactionHash finalVanPosition positions = .ok confirmation) :
    confirmation = .hash ⟨some transactionHash, finalVanPosition, positions⟩ := by
  unfold confirmedByHash fromHash
    validateSqlitePositions at h
  split at h
  · cases h
  · cases h
    rfl

/-- Adjacent positions are the ones behind the final note. -/
theorem adjacentFrom_eq (h : adjacentFrom finalVanPosition positions = true) :
    positions = (List.range' 1 positions.length).map (finalVanPosition + ·) := by
  refine ext_getElem (by simp) fun i hi _ => ?_
  have he := all_eq_true.mp h (positions[i], i) (mk_mem_zipIdx_iff_getElem?.mpr (by simp))
  simp only [Bool.and_eq_true, beq_iff_eq] at he
  rw [getElem_map, getElem_range', he.2]
  omega

/-- What the event of a batch says of its generation. -/
structure BatchEvidence (base64 : Base64) (wires : BatchWires) (derived : DerivedChainSubmission)
    (orderedBatchDigest : Bytes32) (size : Nat) (event : TxEvent)
    (confirmed : ChainSubmissionConfirmation) : Prop where
  digest : attributeValues event "batch_digest" = [hexEncode orderedBatchDigest]
  sized : Says event "batch_size" (fun raw => parseCompatU64 base64 raw "cast_vote_batch batch_size") size
  proposals : Says event "proposal_ids" (parseCsvU32 base64) derived.orderedProposalIds
  nullifiers : ∃ encoded nullifiers, batchNullifiers wires derived.request = .ok encoded ∧
    encoded.mapM (derivedNullifier base64) = .ok nullifiers ∧
    Says event "van_nullifiers" parseCsvStrings nullifiers
  govNullifiers : ∀ wire, derived.request = .delegateAndVoteBatch wire →
    Says event "nullifier_count"
    (fun raw => parseCompatU64 base64 raw "combined delegation nullifier count")
      (wires.govNullifierCount wire)
  finalVan : Says event "final_van_leaf_index"
    (fun raw => parseCompatU64 base64 raw "cast_vote_batch final VAN position") confirmed.finalVanPosition
  positions :
    Says event "vote_commitment_leaf_indices" (parseCsvU64 base64) confirmed.voteCommitmentPositions
  adjacent : confirmed.voteCommitmentPositions =
    (List.range' 1 size).map (confirmed.finalVanPosition + ·)

/-- The only event of a single vote in the round names these two positions. -/
def NamesPositions (base64 : Base64) (events : List TxEvent) (roundId : String)
    (first second : Nat) : Prop :=
  ∃ event raw vanText commitmentText, RoundEvent base64 events "cast_vote" roundId event ∧
    attributeValues event "leaf_index" = [raw] ∧
    (Text.split ',' raw.toList).map Text.trim = [vanText, commitmentText] ∧
    parseCompatU64 base64 vanText "cast_vote VAN position" = .ok first ∧
    parseCompatU64 base64 commitmentText "cast_vote commitment position" = .ok second

theorem NamesPositions.unique {first second first' second' : Nat}
    (h : NamesPositions base64 events roundId first second)
    (h' : NamesPositions base64 events roundId first' second') :
    first = first' ∧ second = second' := by
  obtain ⟨event, raw, van, commitment, hevent, hraw, hparts, hfirst, hsecond⟩ := h
  obtain ⟨event', raw', van', commitment', hevent', hraw', hparts', hfirst', hsecond'⟩ := h'
  obtain rfl := singleton_inj.mp (hevent.symm.trans hevent')
  obtain rfl := singleton_inj.mp (hraw.symm.trans hraw')
  obtain ⟨rfl, hrest⟩ := cons.inj (hparts.symm.trans hparts')
  obtain rfl := singleton_inj.mp hrest
  exact ⟨Except.ok.inj (hfirst.symm.trans hfirst'), Except.ok.inj (hsecond.symm.trans hsecond')⟩

/-- The events describe the outputs of the generation. -/
inductive EventsDescribe (base64 : Base64) (wires : BatchWires) (derived : DerivedChainSubmission)
    (events : List TxEvent) (confirmed : ChainSubmissionConfirmation) : Prop where
  | delegation (van : Bytes32) (event : TxEvent) (htarget : derived.generation.identity.target = .delegation)
      (hlayout : derived.expectedLayout = .delegation van)
      (hevent : RoundEvent base64 events "delegate_vote" derived.generation.identity.roundId event)
      (hfinal : Says event "leaf_index" (fun raw => parseCompatU64 base64 raw "delegate_vote leaf_index")
        confirmed.finalVanPosition)
      (hpositions : confirmed.voteCommitmentPositions = [])
  | vote (p : Nat) (van commitment : Bytes32) (position : Nat)
      (htarget : derived.generation.identity.target = .vote p)
      (hlayout : derived.expectedLayout = .vote van commitment)
      (hnamed : NamesPositions base64 events derived.generation.identity.roundId
        confirmed.finalVanPosition position)
      (hpositions : confirmed.voteCommitmentPositions = [position])
  | batch (digest final : Bytes32) (commitments : List Bytes32) (event : TxEvent)
      (htarget : derived.generation.identity.target.batchDigest = some digest)
      (hlayout : derived.expectedLayout = .voteBatch final commitments)
      (hevent : RoundEvent base64 events (batchEventType derived.generation.identity.target)
        derived.generation.identity.roundId event)
      (hbatch : BatchEvidence base64 wires derived digest commitments.length event confirmed)

theorem validateDelegationEvent_ok
    (h : validateDelegationEvent base64 roundId transactionHash events = .ok confirmation) :
    ∃ confirmed event, confirmation = .hash confirmed ∧
      RoundEvent base64 events "delegate_vote" roundId event ∧
      Says event "leaf_index" (fun raw => parseCompatU64 base64 raw "delegate_vote leaf_index")
        confirmed.finalVanPosition ∧ confirmed.voteCommitmentPositions = [] := by
  obtain ⟨event, hev, h⟩ := bind_ok h
  obtain ⟨_, hpo, h⟩ := bind_ok h
  exact ⟨_, event, confirmedByHash_ok h, requiredEventForRound_ok hev, readU64_ok hpo, rfl⟩

theorem checkGovNullifiers_ok {wire : String}
    (h : checkGovNullifiers base64 wires request event eventType = .ok ())
    (hre : request = .delegateAndVoteBatch wire) :
    Says event "nullifier_count" (fun raw => parseCompatU64 base64 raw "combined delegation nullifier count")
      (wires.govNullifierCount wire) := by
  subst hre
  obtain ⟨_, hco, h⟩ := bind_ok h
  obtain ⟨hne, -⟩ := guard_ok h
  rw [← not_not.mp hne]
  exact readU64_ok hco

theorem checkBatchDigest_ok (h : checkBatchDigest event eventType digest = .ok ()) :
    attributeValues event "batch_digest" = [hexEncode digest] := by
  obtain ⟨_, hraw, h⟩ := bind_ok h
  obtain ⟨_, hre, h⟩ := bind_ok h
  obtain ⟨hne, -⟩ := guard_ok h
  rw [requiredAttribute_ok hraw, ← not_not.mp hne, ← parseCanonicalHex32_ok hre,
    String.ofList_toList]

theorem checkBatchSize_ok (h : checkBatchSize base64 event eventType size = .ok ()) :
    Says event "batch_size" (fun raw => parseCompatU64 base64 raw "cast_vote_batch batch_size")
      size := by
  obtain ⟨_, hre, h⟩ := bind_ok h
  obtain ⟨hne, -⟩ := guard_ok h
  rw [← not_not.mp fun hsi => hne (.inr (.inr hsi))]
  exact readU64_ok hre

theorem checkProposals_ok {ids : List Nat}
    (h : checkProposals base64 event eventType ids = .ok ()) :
    Says event "proposal_ids" (parseCsvU32 base64) ids := by
  obtain ⟨raw, hraw, h⟩ := bind_ok h
  obtain ⟨_, hre, h⟩ := bind_ok h
  obtain ⟨hne, -⟩ := guard_ok h
  rw [← not_not.mp hne]
  exact ⟨raw, requiredAttribute_ok hraw, hre⟩

theorem checkNullifiers_ok (h : checkNullifiers base64 wires request event eventType = .ok ()) :
    ∃ encoded nullifiers, batchNullifiers wires request = .ok encoded ∧
      encoded.mapM (derivedNullifier base64) = .ok nullifiers ∧
      Says event "van_nullifiers" parseCsvStrings nullifiers := by
  obtain ⟨encoded, hen, h⟩ := bind_ok h
  obtain ⟨nullifiers, hnu, h⟩ := bind_ok h
  obtain ⟨raw, hraw, h⟩ := bind_ok h
  obtain ⟨_, hre, h⟩ := bind_ok h
  obtain ⟨hne, -⟩ := guard_ok h
  exact ⟨encoded, nullifiers, hen, hnu, raw, requiredAttribute_ok hraw, not_not.mp hne ▸ hre⟩

theorem validateBatchEvent_ok
    (h : validateBatchEvent base64 wires derived digest size transactionHash events = .ok confirmation) :
    ∃ confirmed event, confirmation = .hash confirmed ∧
      RoundEvent base64 events (batchEventType derived.generation.identity.target)
        derived.generation.identity.roundId event ∧
          BatchEvidence base64 wires derived digest size event confirmed := by
  obtain ⟨event, hev, h⟩ := bind_ok h
  obtain ⟨_, hgov, h⟩ := bind_ok h
  obtain ⟨_, hdi, h⟩ := bind_ok h
  obtain ⟨_, hsi, h⟩ := bind_ok h
  obtain ⟨_, hpr, h⟩ := bind_ok h
  obtain ⟨_, hnu, h⟩ := bind_ok h
  obtain ⟨finalVan, hfi, h⟩ := bind_ok h
  obtain ⟨raw, hraw, h⟩ := bind_ok h
  obtain ⟨positions, hpo, h⟩ := bind_ok h
  obtain ⟨hbad, h⟩ := guard_ok h
  have hle : positions.length = size := not_not.mp fun hne => hbad (.inl hne)
  have had : adjacentFrom finalVan positions = true :=
    Bool.not_eq_false _ ▸ fun hfa => hbad (.inr hfa)
  refine ⟨_, event, confirmedByHash_ok h, requiredEventForRound_ok hev, ?_⟩
  exact ⟨checkBatchDigest_ok hdi, checkBatchSize_ok hsi, checkProposals_ok hpr,
    checkNullifiers_ok hnu, fun wire => checkGovNullifiers_ok hgov, readU64_ok hfi,
    ⟨raw, requiredAttribute_ok hraw, hpo⟩, hle ▸ adjacentFrom_eq had⟩

theorem validateHashConfirmation_ok
    (h : validateHashConfirmation base64 wires derived transactionHash events = .ok confirmation) :
    ∃ confirmed, confirmation = .hash confirmed ∧
      EventsDescribe base64 wires derived events confirmed := by
  unfold validateHashConfirmation at h
  split at h
  · next van ht hl =>
    obtain ⟨confirmed, event, heq, he, hf, hpo⟩ := validateDelegationEvent_ok h
    exact ⟨confirmed, heq, .delegation van event ht hl he hf hpo⟩
  · next p van commitment ht hl =>
    obtain ⟨event, he, h⟩ := bind_ok h
    obtain ⟨raw, hraw, h⟩ := bind_ok h
    split at h
    · next vanText commitmentText hpa =>
      obtain ⟨_, hf, h⟩ := bind_ok h
      obtain ⟨position, hpos, h⟩ := bind_ok h
      exact ⟨_, confirmedByHash_ok h, .vote p van commitment position ht hl
        ⟨event, raw, vanText, commitmentText, requiredEventForRound_ok he,
          requiredAttribute_ok hraw, hpa, hf, hpos⟩ rfl⟩
    · cases h
  · next digest final commitments ht hl =>
    obtain ⟨confirmed, event, heq, he, hb⟩ := validateBatchEvent_ok h
    exact ⟨confirmed, heq, .batch digest final commitments event (by rw [ht]; rfl) hl he hb⟩
  · next digest final commitments ht hl =>
    obtain ⟨confirmed, event, heq, he, hb⟩ := validateBatchEvent_ok h
    exact ⟨confirmed, heq, .batch digest final commitments event (by rw [ht]; rfl) hl he hb⟩
  · cases h

theorem validateImportedDelegationConfirmation_ok (wires : BatchWires)
    (h : validateImportedDelegationConfirmation base64 derived transactionHash events = .ok confirmation) :
    ∃ confirmed, confirmation = .hash confirmed ∧
      EventsDescribe base64 wires derived events confirmed := by
  unfold validateImportedDelegationConfirmation at h
  split at h
  · next van hta hla =>
    obtain ⟨confirmed, event, heq, hev, hfi, hpo⟩ := validateDelegationEvent_ok h
    exact ⟨confirmed, heq, .delegation van event hta hla hev hfi hpo⟩
  · cases h

end

/-! ### Every accepted confirmation -/

/-- What a confirmation is read off. -/
inductive ConfirmationSource where
  | events (events : List TxEvent)
  | tree (world : RecoveryWorld)

/-- A confirmation of the generation that the library accepts: from the events of its
committed transaction, from those of an imported delegation, or from a tree pass. -/
inductive ConfirmationAccepted {F : Type} (base64 : Base64) (wires : BatchWires)
    (crate : FrontierCrate F Bytes32) (derived : DerivedChainSubmission) :
    ConfirmationSource → ValidatedChainSubmissionConfirmation → Prop where
  | byHash {transactionHash : CandidateTransactionHash} {events : List TxEvent}
      {confirmation : ValidatedChainSubmissionConfirmation}
      (h : validateHashConfirmation base64 wires derived transactionHash events =
        .ok confirmation) :
      ConfirmationAccepted base64 wires crate derived (.events events) confirmation
  | imported {transactionHash : CandidateTransactionHash} {events : List TxEvent}
      {confirmation : ValidatedChainSubmissionConfirmation}
      (h : validateImportedDelegationConfirmation base64 derived transactionHash events =
        .ok confirmation) :
      ConfirmationAccepted base64 wires crate derived (.events events) confirmation
  | byTree {world : RecoveryWorld} {p : Nat} {positions : List Nat}
      {confirmation : ValidatedChainSubmissionConfirmation}
      (hscan : scanExactLayout crate base64.decode world derived.expectedLayout =
        .ok (.found p positions))
      (h : ValidatedChainSubmissionConfirmation.fromTree p positions = .ok confirmation) :
      ConfirmationAccepted base64 wires crate derived (.tree world) confirmation

/-- What stands behind a confirmation: events that describe the generation's outputs, or
the only place of its leaves in a tree with the advertised root. -/
inductive Evidence (hash : VoteHash Bytes32) (derived : DerivedChainSubmission)
    (confirmed : ChainSubmissionConfirmation) : ConfirmationSource → Prop where
  | events {events : List TxEvent} (h : EventsDescribe base64 wires derived events confirmed) :
      Evidence hash derived confirmed (.events events)
  | tree {world : RecoveryWorld} (leaves : List Bytes32)
      (hroot : Reproduces base64.decode hash world leaves)
      (honly : ∀ q, OccursAt derived.expectedLayout.leaves leaves q ↔
        q = confirmed.finalVanPosition) :
      Evidence hash derived confirmed (.tree world)

/-- The event of a single vote names neighbouring positions. -/
def NamesNeighbours (base64 : Base64) (derived : DerivedChainSubmission) :
    ConfirmationSource → Prop
  | .events events => ∀ p, derived.generation.identity.target = .vote p →
      ∃ first, NamesPositions base64 events derived.generation.identity.roundId first (first + 1)
  | .tree _ => True

section

variable {F : Type} {crate : FrontierCrate F Bytes32} {StandsFor : F → List Bytes32 → Prop}
  {base64 : Base64} {wires : BatchWires} {hash : VoteHash Bytes32}
  {derived : DerivedChainSubmission} {events : List TxEvent}
  {confirmed : ChainSubmissionConfirmation} {confirmation : ValidatedChainSubmissionConfirmation}
  {p : Nat}

/-- Commitment number `i` stands `1 + i` behind the final note. -/
def ExactPositions (derived : DerivedChainSubmission)
    (confirmed : ChainSubmissionConfirmation) : Prop :=
  confirmed.voteCommitmentPositions = derived.expectedLayout.commitmentPositions confirmed.finalVanPosition

theorem EventsDescribe.exact_iff (h : EventsDescribe base64 wires derived events confirmed) :
    ExactPositions derived confirmed ↔ NamesNeighbours base64 derived (.events events) := by
  unfold ExactPositions ExpectedTreeLayout.commitmentPositions
  cases h with
  | delegation _ _ ht hl _ _ hpo =>
    rw [hpo, hl]
    exact iff_of_true rfl fun p hp => nomatch ht.symm.trans hp
  | vote p _ _ position ht hl hnamed hpo =>
    rw [hpo, hl]
    constructor
    · intro heq p _
      obtain rfl : position = confirmed.finalVanPosition + 1 := singleton_inj.mp heq
      exact ⟨_, hnamed⟩
    · intro hnext
      obtain ⟨first, hfirst⟩ := hnext p ht
      obtain ⟨rfl, rfl⟩ := hnamed.unique hfirst
      rfl
  | batch _ _ _ _ ht hl _ hba =>
    rw [hba.adjacent, hl]
    exact iff_of_true rfl fun p hp => nomatch (congrArg _ hp).symm.trans ht

theorem fromTree_ok (h : fromTree p positions = .ok confirmation) :
    confirmation = .tree ⟨none, p, positions⟩ := by
  unfold fromTree
    validateSqlitePositions at h
  split at h
  · cases h
  · cases h
    rfl

/-- What is accepted stands in its source, and is the exact layout unless it is a single
vote whose event names other positions than neighbours. -/
theorem accepted_confirmation_exact (laws : crate.Laws hash StandsFor) {source : ConfirmationSource}
    (h : ConfirmationAccepted base64 wires crate derived source confirmation) :
    Evidence base64 wires hash derived confirmation.confirmation source ∧
      (ExactPositions derived confirmation.confirmation ↔
          NamesNeighbours base64 derived source) := by
  cases h with
  | byHash h =>
    obtain ⟨confirmed, rfl, he⟩ := validateHashConfirmation_ok h
    exact ⟨.events he, he.exact_iff⟩
  | imported h =>
    obtain ⟨confirmed, rfl, he⟩ := validateImportedDelegationConfirmation_ok wires h
    exact ⟨.events he, he.exact_iff⟩
  | byTree hscan h =>
    obtain ⟨leaves, hroot, hpositions, honly⟩ := scanExactLayout_meaning laws hscan
    rw [fromTree_ok h]
    exact ⟨.tree leaves hroot honly, iff_of_true hpositions trivial⟩

end

/-! ### Samples -/

def plainBase64 : Base64 := ⟨id, fun _ => some (List.replicate 32 0)⟩

def sampleWires : BatchWires := ⟨fun _ => ["n", "n"], fun _ => ["n", "n"], fun _ => 5⟩

def zeros32 : Bytes32 := Vector.replicate 32 0

def sampleSubmission (target : ChainSubmissionTarget) (request : ChainSubmissionRequest)
    (layout : ExpectedTreeLayout) (ids : List Nat) : DerivedChainSubmission :=
  ⟨⟨⟨"wallet", .mainnet, zeros32, 0, target⟩, zeros32⟩, request, layout, ids⟩

def combinedEvent : TxEvent where
  kind := "delegate_and_cast_vote_batch"
  attributes :=
    [("round_id", hexEncode zeros32), ("nullifier_count", "5"), ("batch_digest", hexEncode zeros32),
    ("batch_size", "2"), ("proposal_ids", "3, 1"),
    ("van_nullifiers", hexEncode zeros32 ++ "," ++ hexEncode zeros32),
    ("final_van_leaf_index", "7"), ("vote_commitment_leaf_indices", "8,9")]

def combinedSample : DerivedChainSubmission :=
  sampleSubmission (.delegateAndVoteBatch zeros32) (.delegateAndVoteBatch "wire")
    (.voteBatch zeros32 [zeros32, zeros32]) [3, 1]

def voteSample : DerivedChainSubmission :=
  sampleSubmission (.vote 1) (.vote "wire") (.vote zeros32 zeros32) [1]

def voteEvent (leafIndex : String) : TxEvent :=
  ⟨"cast_vote", [("vote_round_id", hexEncode zeros32), ("leaf_index", leafIndex)]⟩

/-- A combined batch, and a single vote with neighbouring positions. -/
theorem accepted_confirmation_exact_two :
    (ExactPositions combinedSample ⟨some zeros32, 7, [8, 9]⟩ ∧
      Evidence plainBase64 sampleWires firstLeafHash combinedSample ⟨some zeros32, 7, [8, 9]⟩
        (.events [combinedEvent])) ∧
    (ExactPositions voteSample ⟨some zeros32, 5, [6]⟩ ↔
      NamesNeighbours plainBase64 voteSample (.events [voteEvent "5,6"])) ∧
    ExactPositions voteSample ⟨some zeros32, 5, [6]⟩ := by
  have hcombined : validateHashConfirmation plainBase64 sampleWires combinedSample zeros32
      [combinedEvent] = .ok (.hash ⟨some zeros32, 7, [8, 9]⟩) := by decide +kernel
  have hvote : validateHashConfirmation plainBase64 sampleWires voteSample zeros32
      [voteEvent "5,6"] = .ok (.hash ⟨some zeros32, 5, [6]⟩) := by decide +kernel
  have hc := accepted_confirmation_exact (listFrontier_laws firstLeafHash) (.byHash hcombined)
  have hv := accepted_confirmation_exact (listFrontier_laws firstLeafHash) (.byHash hvote)
  exact ⟨⟨hc.2.mpr nofun, hc.1⟩, hv.2, rfl⟩

/-- The two positions of a single vote are not compared: the commitment is recorded three
places behind where the generation puts it. -/
theorem gapped_vote_confirmed :
    validateHashConfirmation plainBase64 sampleWires voteSample zeros32 [voteEvent "5,9"] =
      .ok (.hash ⟨some zeros32, 5, [9]⟩) ∧
    ¬ ExactPositions voteSample ⟨some zeros32, 5, [9]⟩ := by
  refine ⟨by decide +kernel, fun h => ?_⟩
  cases h

end ZcashVoting.Voting
