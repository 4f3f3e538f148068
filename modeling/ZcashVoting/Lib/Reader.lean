import ZcashVoting.Lib.Bytes

/-!
# Reading what was written

Readers consume a byte list from the front. `Reads reader bytes value` says that the
reader takes exactly `bytes` off any input that starts with them and returns `value`;
sequences of readers read concatenations. `Extends reader more` says that what `reader`
accepts is accepted by `more` with anything behind it, so an input that `reader` accepts is
no strict prefix of what `more` reads.
-/
namespace ZcashVoting

open List

abbrev Reader (ε α : Type) := StateT (List UInt8) (Except ε) α

namespace Reader

variable {ε α β : Type} {reader : Reader ε α} {bytes : List UInt8} {value : α}

/-- The next `count` bytes, or the error of an input that is too short. -/
def readExact (tooShort : ε) (count : Nat) : Reader ε (List UInt8) := fun input =>
  if input.length < count then .error tooShort else .ok (input.take count, input.drop count)

def Reads (reader : Reader ε α) (bytes : List UInt8) (value : α) : Prop :=
  ∀ rest, reader (bytes ++ rest) = .ok (value, rest)

theorem reads_pure (value : α) : Reads (pure value : Reader ε α) [] value := fun _ => rfl

theorem Reads.bind {more : List UInt8} {result : β} {next : α → Reader ε β}
    (h : Reads reader bytes value) (hne : Reads (next value) more result) :
    Reads (reader >>= next) (bytes ++ more) result := by
  intro rest
  change (reader (bytes ++ more ++ rest) >>= fun read => next read.1 read.2) = _
  rw [append_assoc, h]
  exact hne rest

theorem Reads.map (f : α → β) (h : Reads reader bytes value) :
    Reads (f <$> reader) bytes (f value) := by
  intro rest
  change (reader (bytes ++ rest) >>= fun read => pure (f read.1, read.2)) = _
  rw [h]
  rfl

theorem Reads.bind_pure (f : α → β) (h : Reads reader bytes value) :
    Reads (reader >>= fun read => pure (f read)) bytes (f value) := h.map f

theorem reads_readExact (tooShort : ε) (bytes : List UInt8) :
    Reads (readExact tooShort bytes.length) bytes bytes := by
  intro rest
  have hlo : ¬ (bytes ++ rest).length < bytes.length := by
    rw [length_append]
    omega
  rw [readExact, if_neg hlo, take_left, drop_left]

theorem reads_readExact_of_length (tooShort : ε) {count : Nat} (h : bytes.length = count) :
    Reads (readExact tooShort count) bytes bytes := h ▸ reads_readExact tooShort bytes

theorem Reads.run' (h : Reads reader bytes value) : StateT.run' reader bytes = .ok value := by
  have hr := h []
  rw [append_nil] at hr
  change (fun read => read.1) <$> reader bytes = _
  rw [hr]
  rfl

/-! ### Truncated inputs -/

def Extends (reader more : Reader ε α) : Prop := ∀ input value rest suffix,
  reader input = .ok (value, rest) → more (input ++ suffix) = .ok (value, rest ++ suffix)

variable {more : Reader ε α}

theorem extends_pure (value : α) : Extends (pure value : Reader ε α) (pure value) := by
  intro input value' rest suffix h
  cases h
  rfl

theorem extends_throw (e : ε) : Extends (throw e) more := nofun

theorem Extends.bind {next next' : α → Reader ε β} (h : Extends reader more)
    (hne : ∀ value, Extends (next value) (next' value)) :
    Extends (reader >>= next) (more >>= next') := by
  intro input value rest suffix hr
  change (reader input >>= fun read => next read.1 read.2) = _ at hr
  change (more (input ++ suffix) >>= fun read => next' read.1 read.2) = _
  cases hf : reader input with
  | error =>
    rw [hf] at hr
    cases hr
  | ok read =>
    rw [hf] at hr
    rw [h input read.1 read.2 suffix hf]
    exact hne read.1 read.2 value rest suffix hr

theorem Extends.map (f : α → β) (h : Extends reader more) : Extends (f <$> reader) (f <$> more) :=
  h.bind fun value => extends_pure (f value)

theorem extends_readExact (tooShort : ε) (count : Nat) :
    Extends (readExact tooShort count) (readExact tooShort count) := by
  intro input value rest suffix h
  unfold readExact at h ⊢
  split at h
  · cases h
  next hlon =>
    cases h
    have hlo : ¬ (input ++ suffix).length < count := by
      rw [length_append]
      omega
    rw [if_neg hlo, take_append_of_le_length (by omega), drop_append_of_le_length (by omega)]

/-- Values of `P` are read back from what is written and nothing else, no two are written the
same, and no strict prefix is read. -/
structure Decodes (read : List UInt8 → Except ε (α × List UInt8)) (write : α → List UInt8)
    (P : α → Prop) : Prop where
  whole : ∀ value, P value → ∀ rest, read (write value ++ rest) = .ok (value, rest)
  distinct : ∀ value other, P value → P other → write value = write other → value = other
  cut : ∀ value, P value → ∀ data, data <+: write value → data ≠ write value →
    ∃ error, read data = .error error

theorem decodes_of_extends {read : List UInt8 → Except ε (α × List UInt8)} {write : α → List UInt8}
    {P : α → Prop} (hw : ∀ value, P value → ∀ rest, read (write value ++ rest) = .ok (value, rest))
    (hext : Extends read read) : Decodes read write P := by
  refine ⟨hw, fun value other hv hot hsa => ?_, fun value hv data hpr hne => ?_⟩
  · have hr := hw value hv []
    rw [hsa, hw other hot []] at hr
    cases hr
    rfl
  · obtain ⟨suffix, hs⟩ := hpr
    cases hr : read data with
    | error e => exact ⟨e, rfl⟩
    | ok found =>
      have hlo := hext data found.1 found.2 suffix hr
      have he := hw value hv []
      rw [append_nil, ← hs, hlo] at he
      obtain ⟨-, hem⟩ := Prod.mk.inj (Except.ok.inj he)
      rw [(append_eq_nil_iff.mp hem).2, append_nil] at hs
      exact absurd hs hne

end Reader

end ZcashVoting
