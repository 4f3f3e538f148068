import ZcashVoting.ChainSubmission.Vocabulary
import ZcashVoting.Lib.KeyedMap
import ZcashVoting.Lib.Text

/-!
# Helper identities

A helper is known by its canonical base URL. Parsing and printing URLs is the work of an
external library; what the canonical form does with the parsed parts is modelled as it is
written. The form is taken again at every boundary, so an identity is only stable where
the canonical form is its own canonical form. `strip_suffix` removes one final dot of the
host: a host that ends in two dots loses them one at a time.
-/
namespace ZcashVoting.ShareDelivery

open KeyedData

inductive Host where
  | domain (name : String)
  | address (text : String)
  deriving DecidableEq

/-- The parts of a parsed URL. -/
structure Url where
  (scheme username : String)
  password : Option String
  host : Option Host
  port : Option Nat
  path : String
  (query fragment : Option String)

/-- The external URL library. -/
structure UrlLibrary where
  parse : String → Except String Url
  setHost : Url → String → Except String Url
  /-- `set_port(None)` -/
  clearPort : Url → Option Url
  setPath : Url → String → Url
  asStr : Url → String

/-! ### Percent escapes -/

def hexValue (c : Char) : Option Nat :=
  if 48 ≤ c.toNat ∧ c.toNat ≤ 57 then some (c.toNat - 48)
  else if 97 ≤ c.toNat ∧ c.toNat ≤ 102 then some (c.toNat - 87)
  else if 65 ≤ c.toNat ∧ c.toNat ≤ 70 then some (c.toNat - 55)
  else none

/-- A digit of the table `HEX`. -/
def hexUpper (n : Nat) : Char := if n < 10 then Char.ofNat (48 + n) else Char.ofNat (55 + n)

/-- ASCII letters and digits, and `-`, `.`, `_`, `~`. -/
def isUnreserved (value : Nat) : Bool :=
  (48 ≤ value && value ≤ 57) || (65 ≤ value && value ≤ 90) || (97 ≤ value && value ≤ 122) ||
    [45, 46, 95, 126].contains value

/-- An escape with its digits read: decoded if it need not be escaped. -/
def normalizedEscape (high low : Nat) : List Char :=
  if isUnreserved (16 * high + low) then [Char.ofNat (16 * high + low)]
  else ['%', hexUpper high, hexUpper low]

def normalizePercentEscapes : List Char → Option (List Char)
  | [] => some []
  | '%' :: high :: low :: rest =>
    match hexValue high, hexValue low with
    | some h, some l => (normalizePercentEscapes rest).map (normalizedEscape h l ++ ·)
    | _, _ => none
  | '%' :: _ => none
  | c :: rest => (normalizePercentEscapes rest).map (c :: ·)

/-! ### The canonical form -/

/-- `trim_end_matches('/')` -/
def trimEndSlashes (text : String) :
    String := String.ofList (text.toList.reverse.dropWhile (· = '/')).reverse

/-- `strip_suffix('.')` -/
def stripFinalDot (name : String) : Option String :=
  if name.toList.getLast? = some '.' then some (String.ofList name.toList.dropLast) else none

section

variable (library : UrlLibrary)

def checkHelperUrl (trimmed : String) (url : Url) : Except VotingError Unit :=
  if url.scheme ≠ "http" ∧ url.scheme ≠ "https" then
    .error (.invalidInput s!"helper server url must be http or https, got {trimmed}")
  else if url.username ≠ "" ∨ url.password.isSome then
    .error (.invalidInput "helper server url must not contain credentials")
  else if url.query.isSome ∨ url.fragment.isSome then
    .error (.invalidInput "helper server url must not contain a query or fragment")
  else .ok ()

/-- A final dot of a domain is dropped. -/
def withoutFinalDot (trimmed : String) (url : Url) : Except VotingError Url :=
  match url.host with
  | some (.domain name) =>
    match stripFinalDot name with
    | some shorter =>
      match library.setHost url shorter with
      | .ok url => .ok url
      | .error cause => .error (.invalidInput s!"invalid helper server host in {trimmed}: {cause}")
    | none => .ok url
  | _ => .ok url

def defaultPort (scheme : String) : Option Nat :=
  if scheme = "http" then some 80 else if scheme = "https" then some 443 else none

def withoutDefaultPort (trimmed : String) (url : Url) : Except VotingError Url :=
  if url.port = defaultPort url.scheme then
    match library.clearPort url with
    | some url => .ok url
    | none => .error (.invalidInput s!"invalid helper server port in {trimmed}")
  else .ok url

def withNormalizedPath (trimmed : String) (url : Url) : Except VotingError Url :=
  match normalizePercentEscapes url.path.toList with
  | some path => .ok (library.setPath url (String.ofList path))
  | none => .error (.invalidInput s!"invalid percent escape in helper server path \"{trimmed}\"")

def parseHelperUrl (trimmed : String) : Except VotingError Url :=
  match library.parse trimmed with
  | .ok url => .ok url
  | .error cause => .error (.invalidInput s!"invalid helper server url \"{trimmed}\": {cause}")

def canonicalizeHelperBaseUrl (value : String) : Except VotingError String := do
  let trimmed := String.ofList (Text.trim value.toList)
  let url ← parseHelperUrl library trimmed
  checkHelperUrl trimmed url
  let url ← withoutFinalDot library trimmed url
  let url ← withoutDefaultPort library trimmed url
  let url ← withNormalizedPath library trimmed url
  return trimEndSlashes (library.asStr url)

/-- `if !list.contains(&x) { list.push(x) }` -/
def pushNew (list : List String) (x : String) : List String :=
    if x ∈ list then list else list ++ [x]

def canonicalHelperUrlList (urls : List String) : Except VotingError (List String) :=
  urls.foldlM (fun canonical url => do
    let url ← canonicalizeHelperBaseUrl library url
    return pushNew canonical url) []

/-- The canonical form of the URL is its own canonical form. -/
def Stable (url : String) : Prop :=
    ∀ canonical, canonicalizeHelperBaseUrl library url = .ok canonical →
    canonicalizeHelperBaseUrl library canonical = .ok canonical

/-- An entry that has no canonical form. -/
def isLegacy (entry : String) : Bool := (canonicalizeHelperBaseUrl library entry).toOption.isNone

/-- The canonical forms of the entries that have one. -/
def canonicalForms (urls : List String) : List String :=
  urls.filterMap fun url => (canonicalizeHelperBaseUrl library url).toOption

/-- The helper an entry stands for. -/
def helperIdentity (entry : String) :
    String := (canonicalizeHelperBaseUrl library entry).toOption.getD entry

end

/-! ### Lists of canonical forms -/

theorem mem_pushNew {list : List String} {x y : String} :
    y ∈ pushNew list x ↔ y ∈ list ∨ y = x := by
  unfold pushNew
  split
  · next hx =>
    constructor
    · exact .inl
    · rintro (h | rfl)
      · exact h
      · exact hx
  · simp

variable {library : UrlLibrary} {urls canonical : List String} {url c : String}

theorem mem_canonicalForms :
    c ∈ canonicalForms library urls ↔ ∃ url ∈ urls,
      canonicalizeHelperBaseUrl library url = .ok c := by
  simp only [canonicalForms, List.mem_filterMap]
  constructor
  · intro h
    obtain ⟨url, hurl, hc⟩ := h
    exact ⟨url, hurl, except_of_toOption hc⟩
  · intro h
    obtain ⟨url, hurl, hc⟩ := h
    exact ⟨url, hurl, by rw [hc]; rfl⟩

theorem canonicalForms_append (urls urls' : List String) :
    canonicalForms library (urls ++ urls') = canonicalForms library urls ++
      canonicalForms library urls' :=
  List.filterMap_append

theorem mem_canonicalHelperUrlList (h : canonicalHelperUrlList library urls = .ok canonical) :
    c ∈ canonical ↔ c ∈ canonicalForms library urls := by
  suffices hfo : ∀ (urls start : List String), urls.foldlM (fun canonical url => do
        let url ← canonicalizeHelperBaseUrl library url
        return pushNew canonical url) start = .ok canonical →
      (c ∈ canonical ↔ c ∈ start ∨ c ∈ canonicalForms library urls) by
    simpa using hfo urls [] h
  intro urls
  induction urls with
  | nil =>
    intro start h
    cases h
    simp [canonicalForms]
  | cons url rest ih =>
    intro start h
    obtain ⟨_, hpu, hre⟩ := bind_ok h
    obtain ⟨c', hc', hpus⟩ := bind_ok hpu
    cases hpus
    have hhe : c ∈ canonicalForms library (url :: rest) ↔
        c = c' ∨ c ∈ canonicalForms library rest := by
      simp [canonicalForms, hc', Except.toOption]
    rw [ih _ hre, mem_pushNew, hhe, or_assoc]

end ZcashVoting.ShareDelivery
