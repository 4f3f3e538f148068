import Mathlib
import ZcashVoting.Lib.Bytes

/-!
# Transcripts of tagged fields

A transcript is a concatenation of fields, each a tag and a value behind their lengths. A
step gives what it appends, or nothing when it stops the process. `Separates step R` says
that two transcripts which start with the step and agree, agree about it: the arguments
are related by `R` and what follows is the same. Steps are chained by rules.
-/
namespace ZcashVoting.Transcript

open Bytes List

abbrev Emitted := Option (List UInt8)

/-- One step after the other. -/
def concatAll : List Emitted → Emitted
  | [] => some []
  | step :: rest => step.bind fun bytes => (concatAll rest).map (bytes ++ ·)

def textBytes (text : String) : List UInt8 := text.toByteArray.data.toList

/-- A tag behind 16 bits of length, a value behind 64. -/
def field (tag : String) (value : List UInt8) : Emitted :=
  if (textBytes tag).length < 2 ^ 16 ∧ value.length < 2 ^ 64 then
    some (beBytes 2 (textBytes tag).length ++ (textBytes tag ++ (beBytes 8 value.length ++ value)))
  else none

def u32 (tag : String) (value : Nat) : Emitted :=
  if value < 2 ^ 32 then field tag (beBytes 4 value) else none

def u64 (tag : String) (value : Nat) : Emitted :=
  if value < 2 ^ 64 then field tag (beBytes 8 value) else none

def bool (tag : String) (value : Bool) : Emitted := field tag [if value then 1 else 0]

/-- The number of the values, then each with its index. -/
def sequence {β : Type} (tag : String) (values : List β) (encode : Nat → β → Emitted) : Emitted :=
  concatAll (u32 s!"{tag}.count" values.length :: values.zipIdx.map fun value =>
    encode value.2 value.1)

variable {α β : Type}

def Separates (step : α → Emitted) (R : α → α → Prop) : Prop :=
  ∀ a b bytes bytes' rest rest', step a = some bytes → step b = some bytes' →
    bytes ++ rest = bytes' ++ rest' → R a b ∧ rest = rest'

variable {S R : α → α → Prop} {bytes rest rest' bytes' : List UInt8} {encode : Nat → β → Emitted}
  {first step : α → Emitted}

theorem Separates.mono (h : Separates step R) (hRS : ∀ a b, R a b → S a b) : Separates step S := by
  intro a b bytes bytes' rest rest' ha hb heq
  obtain ⟨hR, hre⟩ := h a b bytes bytes' rest rest' ha hb heq
  exact ⟨hRS a b hR, hre⟩

theorem Separates.comp (h : Separates step R) (f : β → α) :
    Separates (fun b => step (f b)) fun a b => R (f a) (f b) := fun a b => h (f a) (f b)

theorem separates_nil : Separates (fun _ : α => concatAll []) fun _ _ => True := by
  intro a b bytes bytes' rest rest' ha hb heq
  cases ha
  cases hb
  exact ⟨trivial, heq⟩

theorem concatAll_cons {step : Emitted} {steps : List Emitted}
    (h : concatAll (step :: steps) = some bytes) :
    ∃ head tail, step = some head ∧ concatAll steps = some tail ∧ head ++ tail = bytes := by
  simp only [concatAll, Option.bind_eq_some_iff, Option.map_eq_some_iff] at h
  obtain ⟨head, hhe, tail, hta, heq⟩ := h
  exact ⟨head, tail, hhe, hta, heq⟩

/-- The steps that follow may differ in kind, as long as the first step tells which follow. -/
theorem Separates.branch {rest : α → List Emitted} (h : Separates first R)
    (hre : ∀ a b bytes bytes' after after', R a b → concatAll (rest a) = some bytes →
      concatAll (rest b) = some bytes' → bytes ++ after = bytes' ++ after' → S a b ∧ after = after')
    : Separates (fun a => concatAll (first a :: rest a)) fun a b => R a b ∧ S a b := by
  intro a b bytes bytes' after after' ha hb heq
  obtain ⟨head, tail, hhe, hta, rfl⟩ := concatAll_cons ha
  obtain ⟨head', tail', hhe', hta', rfl⟩ := concatAll_cons hb
  rw [append_assoc, append_assoc] at heq
  obtain ⟨hR, heq⟩ := h a b head head' _ _ hhe hhe' heq
  obtain ⟨hS, haf⟩ := hre a b tail tail' _ _ hR hta hta' heq
  exact ⟨⟨hR, hS⟩, haf⟩

theorem Separates.cons {rest : α → List Emitted} (h : Separates first R)
    (hre : Separates (fun a => concatAll (rest a)) S) :
    Separates (fun a => concatAll (first a :: rest a)) fun a b => R a b ∧ S a b :=
  h.branch fun a b bytes bytes' after after' _ => hre a b bytes bytes' after after'

/-- A number behind its own width determines the rest. -/
theorem beBytes_append_inj (width : Nat) {m n : Nat} (hm : m < 256 ^ width) (hn : n < 256 ^ width)
    (h : beBytes width m ++ rest = beBytes width n ++ rest') : m = n ∧ rest = rest' := by
  obtain ⟨hby, hre⟩ := append_inj h (by rw [length_beBytes, length_beBytes])
  have hnu := congrArg ofBeBytes hby
  rw [ofBeBytes_beBytes hm, ofBeBytes_beBytes hn] at hnu
  exact ⟨hnu, hre⟩

/-- A field determines its value and what follows, whatever the tags. -/
theorem field_append_inj {tag tag' : String} {value value' : List UInt8}
    (h : field tag value = some bytes) (h' : field tag' value' = some bytes')
    (heq : bytes ++ rest = bytes' ++ rest') : value = value' ∧ rest = rest' := by
  unfold field at h h'
  split at h
  case isFalse => cases h
  case isTrue hf =>
  split at h'
  case isFalse => cases h'
  case isTrue hf' =>
  cases h
  cases h'
  simp only [append_assoc] at heq
  obtain ⟨htag, heq⟩ := beBytes_append_inj 2 hf.1 hf'.1 heq
  obtain ⟨-, heq⟩ := append_inj heq htag
  obtain ⟨hle, heq⟩ := beBytes_append_inj 8 hf.2 hf'.2 heq
  exact append_inj heq hle

theorem separates_field (tag : String) (value : α → List UInt8) :
    Separates (fun a => field tag (value a)) fun a b => value a = value b := by
  intro a b bytes bytes' rest rest' ha hb heq
  exact field_append_inj ha hb heq

theorem separates_number (width : Nat) (tag : String) (number : α → Nat) :
    Separates (fun a => if number a < 256 ^ width then field tag (beBytes width (number a)) else none)
      fun a b => number a = number b := by
  intro a b bytes bytes' rest rest' ha hb heq
  dsimp only at ha hb
  split at ha
  case isFalse => cases ha
  case isTrue hfi =>
  split at hb
  case isFalse => cases hb
  case isTrue hfi' =>
  obtain ⟨hva, hre⟩ := field_append_inj ha hb heq
  have hn := congrArg ofBeBytes hva
  rw [ofBeBytes_beBytes hfi, ofBeBytes_beBytes hfi'] at hn
  exact ⟨hn, hre⟩

theorem separates_u32 (tag : String) (number : α → Nat) :
    Separates (fun a => u32 tag (number a)) fun a b => number a = number b :=
      separates_number 4 tag number

theorem separates_u64 (tag : String) (number : α → Nat) :
    Separates (fun a => u64 tag (number a)) fun a b => number a = number b :=
      separates_number 8 tag number

theorem separates_bool (tag : String) (flag : α → Bool) :
    Separates (fun a => bool tag (flag a)) fun a b => flag a = flag b := by
  refine (separates_field tag fun a => [if flag a then (1 : UInt8) else 0]).mono fun a b h => ?_
  revert h
  cases flag a <;> cases flag b <;> simp

variable {S : β → β → Prop}

/-- Elements in order: once the lengths agree, each is separated from the next. -/
theorem separates_elements (h : ∀ i, Separates (encode i) S) {xs ys : List β}
    (hl : xs.length = ys.length) {start : Nat}
    (hx : concatAll ((xs.zipIdx start).map fun value => encode value.2 value.1) = some bytes)
    (hy : concatAll ((ys.zipIdx start).map fun value => encode value.2 value.1) = some bytes')
    (heq : bytes ++ rest = bytes' ++ rest') : List.Forall₂ S xs ys ∧ rest = rest' := by
  induction xs generalizing ys start bytes bytes' with
  | nil =>
    obtain rfl := length_eq_zero_iff.mp hl.symm
    cases hx
    cases hy
    exact ⟨.nil, heq⟩
  | cons x _ ih =>
    obtain ⟨y, _, rfl⟩ := exists_cons_of_length_eq_add_one hl.symm
    obtain ⟨head, _, hhe, hta, rfl⟩ := concatAll_cons hx
    obtain ⟨head', _, hhe', hta', rfl⟩ := concatAll_cons hy
    rw [append_assoc, append_assoc] at heq
    obtain ⟨hS, heq⟩ := h start x y head head' _ _ hhe hhe' heq
    obtain ⟨hall, hre⟩ := ih (Nat.succ.inj hl) hta hta' heq
    exact ⟨.cons hS hall, hre⟩

theorem separates_sequence (h : ∀ i, Separates (encode i) S) (tag : String) (values : α → List β) :
    Separates (fun a => sequence tag (values a) encode) fun a b =>
      List.Forall₂ S (values a) (values b) := by
  have hco := separates_u32 s!"{tag}.count" fun a => (values a).length
  refine (hco.branch ?_).mono fun a b hbo => hbo.2
  intro a b bytes bytes' after after' hle hx hy heq
  exact separates_elements h hle hx hy heq

theorem separates_sequence_eq (h : ∀ i, Separates (encode i) (· = ·)) (tag : String)
    (values : α → List β) :
    Separates (fun a => sequence tag (values a) encode) fun a b => values a = values b :=
  (separates_sequence h tag values).mono fun _ _ hall => by rwa [forall₂_eq_eq_eq] at hall

theorem sequence_map {γ : Type} (tag : String) (values : List γ) (f : γ → β)
    (encode : Nat → β → Emitted) :
    sequence tag (values.map f) encode = sequence tag values fun index value =>
      encode index (f value) := by
  simp [sequence, zipIdx_map, Function.comp_def]

theorem textBytes_injective {text text' : String} (h : textBytes text = textBytes text') :
    text = text' :=
  String.toByteArray_inj.mp (ByteArray.ext (Array.toList_inj.mp h))

end ZcashVoting.Transcript
