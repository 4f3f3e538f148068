import ZcashVoting.ShareDelivery.DeliveryRow

/-!
# Evidence across connections

A row read as a function from helpers to evidence. An accepted write of any connection
changes the evidence about each helper as its operation reports, and nothing else; so
along every interleaving the lists stay disjoint, evidence only grows, and entries without
a canonical form stay.
-/
namespace ZcashVoting.ShareDelivery

open KeyedData Optimistic List

variable {library : UrlLibrary} {urls : List String} {u x c : String}

/-! ### Stored lists -/

/-- The helpers the entries of a list stand for. -/
def identities (library : UrlLibrary) (urls : List String) :
    List String := urls.map (helperIdentity library)

theorem isLegacy_iff : isLegacy library x = true ↔
    ∃ e, canonicalizeHelperBaseUrl library x = .error e := by
  unfold isLegacy
  cases canonicalizeHelperBaseUrl library x <;> simp [Except.toOption]

theorem not_isLegacy_of_ok (h : canonicalizeHelperBaseUrl library x = .ok c) :
    isLegacy library x = false := by
  simp [isLegacy, h, Except.toOption]

theorem helperIdentity_of_ok (h : canonicalizeHelperBaseUrl library x = .ok c) :
    helperIdentity library x = c := by
  rw [helperIdentity, h]
  rfl

theorem helperIdentity_of_isLegacy (h : isLegacy library x = true) :
    helperIdentity library x = x := by
  obtain ⟨_, he⟩ := isLegacy_iff.mp h
  rw [helperIdentity, he]
  rfl

theorem mem_foldl_partitionEntry (urls : List String) (parts : List String × List String) :
    (c ∈ (urls.foldl (partitionEntry library) parts).1 ↔
      c ∈ parts.1 ∨ c ∈ canonicalForms library urls) ∧
      (x ∈ (urls.foldl (partitionEntry library) parts).2 ↔
          x ∈ parts.2 ∨ x ∈ urls ∧ isLegacy library x = true) := by
  induction urls generalizing parts with
  | nil => simp [canonicalForms]
  | cons url _ ih =>
    rw [foldl_cons, (ih _).1, (ih _).2]
    cases hurl : canonicalizeHelperBaseUrl library url with
    | ok canonical =>
      have he : partitionEntry library parts url = (pushNew parts.1 canonical, parts.2) := by
        rw [partitionEntry, hurl]
      rw [he, mem_pushNew, or_assoc]
      refine ⟨by simp [canonicalForms, hurl, Except.toOption], ?_⟩
      by_cases hx : isLegacy library x = true
      · have hne : x ≠ url := by
          rintro rfl
          rw [not_isLegacy_of_ok hurl] at hx
          cases hx
        simp [hne]
      · simp [hx]
    | error =>
      have he : partitionEntry library parts url = (parts.1, pushNew parts.2 url) := by
        rw [partitionEntry, hurl]
      rw [he, mem_pushNew, or_assoc]
      refine ⟨by simp [canonicalForms, hurl, Except.toOption], ?_⟩
      by_cases hx : x = url
      · subst hx
        simp [isLegacy, hurl, Except.toOption]
      · simp [hx]

theorem mem_partition_canonical : c ∈ (partitionStoredHelperUrls library urls).1 ↔
    c ∈ canonicalForms library urls := by
  have h := (@mem_foldl_partitionEntry library c c urls ([], [])).1
  rw [partitionStoredHelperUrls]
  simpa using h

theorem mem_partition_legacy :
    x ∈ (partitionStoredHelperUrls library urls).2 ↔ x ∈ urls ∧ isLegacy library x = true := by
  have h := (@mem_foldl_partitionEntry library x x urls ([], [])).2
  rw [partitionStoredHelperUrls]
  simpa using h

section

variable (hsta : ∀ x ∈ urls, Stable library x)
include hsta

/-- A canonical form of a stable entry is its own canonical form. -/
theorem canonical_of_mem_forms (h : c ∈ canonicalForms library urls) :
    canonicalizeHelperBaseUrl library c = .ok c := by
  obtain ⟨url, hurl, hc⟩ := mem_canonicalForms.mp h
  exact hsta url hurl c hc

theorem mem_identities : u ∈ identities library urls ↔
      if isLegacy library u then u ∈ urls else u ∈ canonicalForms library urls := by
  constructor
  · intro h
    obtain ⟨x, hx, rfl⟩ := mem_map.mp h
    cases hc : canonicalizeHelperBaseUrl library x with
    | ok canonical =>
      rw [helperIdentity_of_ok hc, if_neg (by simp [not_isLegacy_of_ok (hsta x hx canonical hc)])]
      exact mem_canonicalForms.mpr ⟨x, hx, hc⟩
    | error e =>
      have hl := isLegacy_iff.mpr ⟨e, hc⟩
      rw [helperIdentity_of_isLegacy hl, if_pos hl]
      exact hx
  · intro h
    rw [identities, mem_map]
    split at h
    · next hl => exact ⟨u, h, helperIdentity_of_isLegacy hl⟩
    · obtain ⟨x, hx, hc⟩ := mem_canonicalForms.mp h
      exact ⟨x, hx, helperIdentity_of_ok hc⟩

/-- Canonicalising canonical forms again gives the same forms. -/
theorem mem_forms_partition :
    u ∈ canonicalForms library (partitionStoredHelperUrls library urls).1 ↔
      u ∈ canonicalForms library urls := by
  rw [mem_canonicalForms]
  constructor
  · intro h
    obtain ⟨_, hc, hu⟩ := h
    rw [mem_partition_canonical] at hc
    rw [canonical_of_mem_forms hsta hc] at hu
    cases hu
    exact hc
  · intro h
    exact ⟨u, mem_partition_canonical.mpr h, canonical_of_mem_forms hsta h⟩

end

/-- A list as it is written back: canonical entries, then legacy entries. -/
structure Serialized (library : UrlLibrary) (canonical legacy stored : List String) : Prop where
  eq : stored = serializeUrlList canonical legacy
  canonical : ∀ c ∈ canonical, canonicalizeHelperBaseUrl library c = .ok c
  legacy : ∀ x ∈ legacy, isLegacy library x = true

namespace Serialized

variable {canonical legacy stored : List String}

theorem stable (h : Serialized library canonical legacy stored) :
    ∀ x ∈ stored, Stable library x := by
  intro x hx c hc
  rw [h.eq, serializeUrlList, mem_append] at hx
  rcases hx with hca | hle
  · have hs := h.canonical x hca
    rw [hs] at hc
    cases hc
    exact hs
  · obtain ⟨_, he⟩ := isLegacy_iff.mp (h.legacy x hle)
    rw [he] at hc
    cases hc

theorem mem_identities (h : Serialized library canonical legacy stored) :
    u ∈ identities library stored ↔ if isLegacy library u then u ∈ legacy else u ∈ canonical := by
  rw [ShareDelivery.mem_identities h.stable, h.eq]
  split
  · next hu =>
    rw [serializeUrlList, mem_append]
    constructor
    · rintro (hca | hl)
      · rw [not_isLegacy_of_ok (h.canonical u hca)] at hu
        cases hu
      · exact hl
    · exact .inr
  · rw [mem_canonicalForms]
    constructor
    · intro hmem
      obtain ⟨x, hx, hc⟩ := hmem
      rw [serializeUrlList, mem_append] at hx
      rcases hx with hca | hl
      · rw [h.canonical x hca] at hc
        cases hc
        exact hca
      · obtain ⟨_, he⟩ := isLegacy_iff.mp (h.legacy x hl)
        rw [he] at hc
        cases hc
    · intro hmem
      exact ⟨u, mem_append_left _ hmem, h.canonical u hmem⟩

end Serialized

/-! ### Rows as evidence -/

/-- What a row says about a helper. -/
def ShareRow.evidence (library : UrlLibrary) (row : ShareRow) (u : String) : Evidence :=
  if u ∈ identities library row.sentToUrls then .accepted
  else if u ∈ identities library row.ambiguousUrls then .outcomeUnknown
  else if u ∈ identities library row.attemptingUrls then .inFlight
  else .unrecorded

/-- No helper is in two lists, and canonical forms of entries are canonical. -/
structure ShareRow.Sound (library : UrlLibrary) (row : ShareRow) : Prop where
  stable_sent : ∀ x ∈ row.sentToUrls, Stable library x
  stable_ambiguous : ∀ x ∈ row.ambiguousUrls, Stable library x
  stable_attempting : ∀ x ∈ row.attemptingUrls, Stable library x
  sent_ambiguous : ∀ u ∈ identities library row.sentToUrls, u ∉ identities library row.ambiguousUrls
  sent_attempting : ∀ u ∈ identities library row.sentToUrls,
    u ∉ identities library row.attemptingUrls
  ambiguous_attempting : ∀ u ∈ identities library row.ambiguousUrls,
    u ∉ identities library row.attemptingUrls

namespace ShareRow

variable {row : ShareRow}

theorem mem_sent : u ∈ identities library row.sentToUrls ↔ row.evidence library u = .accepted := by
  unfold evidence
  split
  · simp [*]
  · split
    · simp [*]
    · split <;> simp [*]

namespace Sound

theorem mem_ambiguous (h : row.Sound library) : u ∈ identities library row.ambiguousUrls ↔
    row.evidence library u = .outcomeUnknown := by
  unfold evidence
  split
  · next hse => simp [h.sent_ambiguous u hse]
  · split
    · simp [*]
    · split <;> simp [*]

theorem mem_attempting (h : row.Sound library) : u ∈ identities library row.attemptingUrls ↔
    row.evidence library u = .inFlight := by
  unfold evidence
  split
  · next hse => simp [h.sent_attempting u hse]
  · split
    · next ham => simp [h.ambiguous_attempting u ham]
    · split <;> simp [*]

/-- The state an operation builds from the row knows what the row says about the helpers
that can be contacted. -/
theorem evidence_deliveryState (h : row.Sound library) {state : ShareDeliveryState}
    (hst : row.deliveryState library = .ok state) :
    state.evidence u = if isLegacy library u then .unrecorded else row.evidence library u := by
  rw [ShareDeliveryState.evidence_fromUrlLists hst]
  simp only [mem_forms_partition h.stable_sent, mem_forms_partition h.stable_ambiguous,
    mem_forms_partition h.stable_attempting]
  unfold evidence
  simp only [mem_identities h.stable_sent, mem_identities h.stable_ambiguous,
    mem_identities h.stable_attempting]
  by_cases hl : isLegacy library u = true
  · have hf : ∀ urls : List String, (∀ x ∈ urls, Stable library x) →
        u ∉ canonicalForms library urls := by
      intro urls hsta hu
      rw [not_isLegacy_of_ok (canonical_of_mem_forms hsta hu)] at hl
      cases hl
    simp [hl, hf _ h.stable_sent, hf _ h.stable_ambiguous, hf _ h.stable_attempting]
  · simp [hl]

end Sound

/-- A row whose lists hold the helpers a function assigns to them is sound, and that
function is its evidence. -/
theorem sound_of_members {e : String → Evidence} (stable_sent : ∀ x ∈ row.sentToUrls,
      Stable library x) (stable_ambiguous : ∀ x ∈ row.ambiguousUrls, Stable library x)
    (stable_attempting : ∀ x ∈ row.attemptingUrls, Stable library x)
    (hs : ∀ u, u ∈ identities library row.sentToUrls ↔ e u = .accepted)
    (ham : ∀ u, u ∈ identities library row.ambiguousUrls ↔ e u = .outcomeUnknown)
    (ha : ∀ u, u ∈ identities library row.attemptingUrls ↔ e u = .inFlight) :
    row.Sound library ∧ ∀ u, row.evidence library u = e u := by
  constructor
  · refine ⟨stable_sent, stable_ambiguous, stable_attempting, ?_, ?_, ?_⟩
    · intro u hu hmem
      rw [hs] at hu
      rw [ham, hu] at hmem
      cases hmem
    · intro u hu hmem
      rw [hs] at hu
      rw [ha, hu] at hmem
      cases hmem
    · intro u hu hmem
      rw [ham] at hu
      rw [ha, hu] at hmem
      cases hmem
  · intro u
    unfold evidence
    simp only [hs, ham, ha]
    cases e u <;> rfl

/-- A helper that can be contacted and is in a sound row is its own canonical form. -/
theorem Sound.canonical (h : row.Sound library) (hle : isLegacy library u = false)
    (hu : row.evidence library u ≠ .unrecorded) : canonicalizeHelperBaseUrl library u = .ok u := by
  have hf : ∀ urls : List String, (∀ x ∈ urls, Stable library x) → u ∈ identities library urls →
      canonicalizeHelperBaseUrl library u = .ok u := by
    intro urls hsta hmem
    rw [mem_identities hsta, if_neg (by simp [hle])] at hmem
    exact canonical_of_mem_forms hsta hmem
  unfold evidence at hu
  split at hu
  · next hmem => exact hf _ h.stable_sent hmem
  split at hu
  · next hmem => exact hf _ h.stable_ambiguous hmem
  · split at hu
    · next hmem => exact hf _ h.stable_attempting hmem
    · exact absurd rfl hu

end ShareRow

/-- A column written back with the legacy entries it had. -/
theorem serialized_partition (hsta : ∀ x ∈ urls, Stable library x) {canonical legacy : List String}
    (hca : ∀ c ∈ canonical, canonicalizeHelperBaseUrl library c = .ok c)
    (hl : ∀ x, x ∈ legacy ↔ x ∈ (partitionStoredHelperUrls library urls).2) :
    (∀ x ∈ serializeUrlList canonical legacy, Stable library x) ∧
      ∀ u, u ∈ identities library (serializeUrlList canonical legacy) ↔
        if isLegacy library u then u ∈ identities library urls else u ∈ canonical := by
  have hs : Serialized library canonical legacy (serializeUrlList canonical legacy) := by
    refine ⟨rfl, hca, ?_⟩
    intro x hx
    rw [hl, mem_partition_legacy] at hx
    exact hx.2
  refine ⟨hs.stable, ?_⟩
  intro u
  rw [hs.mem_identities]
  by_cases hu : isLegacy library u = true
  · simp [hu, hl, mem_partition_legacy, mem_identities hsta]
  · simp [hu]

/-! ### Reports of an operation -/

namespace ShareOp

/-- The helper URLs an operation reports on. -/
def helperUrls : ShareOp → List String
  | addAttempting serverUrl .. => [serverUrl]
  | removeAttempting serverUrl _ => [serverUrl]
  | mergeUrls newUrls .. => newUrls
  | record sentToUrls ambiguousUrls .. => sentToUrls ++ ambiguousUrls
  | markConfirmed _ => []

/-- The helper URLs whose POST the operation reports an outcome of. -/
def outcomeUrls : ShareOp → List String
  | addAttempting .. => []
  | op => op.helperUrls

/-- The evidence about a helper after the report of an operation. -/
def reported (library : UrlLibrary) (op : ShareOp) (u : String) (known : Evidence) : Evidence :=
  match op with
  | addAttempting serverUrl .. =>
    if u ∈ canonicalForms library [serverUrl] then .raise .inFlight known else known
  | removeAttempting serverUrl _ =>
      if u ∈ canonicalForms library [serverUrl] then known.fail else known
  | mergeUrls newUrls .definiteAcceptance .. =>
    if u ∈ canonicalForms library newUrls then .accepted else known
  | mergeUrls newUrls .outcomeUnknown .. =>
    if u ∈ canonicalForms library newUrls then .raise .outcomeUnknown known else known
  | record sentToUrls ambiguousUrls .. =>
    if u ∈ canonicalForms library sentToUrls then .accepted
    else if u ∈ canonicalForms library ambiguousUrls then .raise .outcomeUnknown known
    else known
  | markConfirmed _ => known

variable {op : ShareOp} {known : Evidence}

theorem reported_eq_of_not_mem (h : u ∉ canonicalForms library op.helperUrls) :
    op.reported library u known = known := by
  cases op with
  | addAttempting | removeAttempting => exact if_neg h
  | mergeUrls _ merge => cases merge <;> exact if_neg h
  | record =>
    simp only [helperUrls, canonicalForms_append, mem_append, not_or] at h
    rw [reported, if_neg h.1, if_neg h.2]
  | markConfirmed => rfl

theorem reported_accepted : op.reported library u .accepted = .accepted := by
  cases op with
  | addAttempting | removeAttempting => exact ite_self _
  | mergeUrls _ merge => cases merge <;> exact ite_self _
  | record =>
    rw [reported]
    split
    · rfl
    · exact ite_self _
  | markConfirmed => rfl

theorem reported_outcomeUnknown :
    op.reported library u .outcomeUnknown = .outcomeUnknown ∨
      op.reported library u .outcomeUnknown = .accepted := by
  cases op with
  | addAttempting | removeAttempting => exact .inl (ite_self _)
  | mergeUrls _ merge =>
    cases merge with
    | definiteAcceptance =>
      rw [reported]
      split
      · exact .inr rfl
      · exact .inl rfl
    | outcomeUnknown => exact .inl (ite_self _)
  | record =>
    rw [reported]
    split
    · exact .inr rfl
    · exact .inl (ite_self _)
  | markConfirmed => exact .inl rfl

theorem reported_inFlight (h : u ∉ canonicalForms library op.outcomeUrls) :
    op.reported library u .inFlight = .inFlight := by
  cases op with
  | addAttempting => exact ite_self _
  | removeAttempting | mergeUrls | record => exact reported_eq_of_not_mem h
  | markConfirmed => rfl

end ShareOp

end ZcashVoting.ShareDelivery
