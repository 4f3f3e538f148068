import Mathlib

/-!
# Text as characters

The string operations of the source on character lists, so that they compute: trimming
white space, splitting at a character, and reading decimal numbers.
-/
namespace ZcashVoting.Text

/-- The characters with the Unicode property `White_Space`. -/
def isWhitespace (c : Char) : Bool :=
    (9 ≤ c.toNat && c.toNat ≤ 13) || (0x2000 ≤ c.toNat && c.toNat ≤ 0x200A) ||
    [0x20, 0x85, 0xA0, 0x1680, 0x2028, 0x2029, 0x202F, 0x205F, 0x3000].contains c.toNat

def trim (text : List Char) :
    List Char := ((text.dropWhile isWhitespace).reverse.dropWhile isWhitespace).reverse

/-- `str::split` at one character: a text without it is its only part. -/
def split (separator : Char) : List Char → List (List Char)
  | [] => [[]]
  | c :: rest =>
    match split separator rest with
    | [] => [[c]]
    | part :: parts => if c = separator then [] :: part :: parts else (c :: part) :: parts

/-- `FromStr` of an unsigned type with the given largest value. -/
def parseUnsigned (largest : Nat) (text : List Char) : Option Nat :=
  let digits := if text.head? = some '+' then text.tail else text
  if digits = [] ∨ ¬ digits.all Char.isDigit then none
  else
    let value := digits.foldl (fun value digit => value * 10 + (digit.toNat - 48)) 0
    if value ≤ largest then some value else none

def isAscii (text : List Char) : Bool := text.all fun c => c.toNat < 128

/-! ### Lowercase hexadecimal -/

def hexDigit (n : Nat) : Char := if n < 10 then Char.ofNat (48 + n) else Char.ofNat (87 + n)

def hexNibble (c : Char) : Option Nat :=
  if 48 ≤ c.toNat ∧ c.toNat ≤ 57 then some (c.toNat - 48)
  else if 97 ≤ c.toNat ∧ c.toNat ≤ 102 then some (c.toNat - 87)
  else none

/-- The bytes of a lowercase hexadecimal text. -/
def hexBytes : List Char → Option (List UInt8)
  | [] => some []
  | [_] => none
  | high :: low :: rest =>
    match hexNibble high, hexNibble low, hexBytes rest with
    | some h, some l, some bytes => some (.ofNat (16 * h + l) :: bytes)
    | _, _, _ => none

theorem hexDigit_hexNibble {c : Char} {n : Nat} (h : hexNibble c = some n) :
    hexDigit n = c ∧ n < 16 := by
  unfold hexNibble at h
  split at h
  · next hdi =>
    cases h
    refine ⟨?_, by omega⟩
    rw [hexDigit, if_pos (by omega), Nat.add_sub_cancel' hdi.1, Char.ofNat_toNat]
  · split at h
    · next hle =>
      cases h
      refine ⟨?_, by omega⟩
      rw [hexDigit, if_neg (by omega), Nat.add_sub_cancel' (by omega), Char.ofNat_toNat]
    · cases h

theorem flatMap_hexBytes {text : List Char} {bytes : List UInt8} (h : hexBytes text = some bytes) :
    bytes.flatMap (fun b => [hexDigit (b.toNat / 16), hexDigit (b.toNat % 16)]) = text := by
  match text with
  | [] =>
    cases h
    rfl
  | [_] => cases h
  | high :: low :: rest =>
    unfold hexBytes at h
    split at h
    · next hi lo bytes' hh hlow hre =>
      cases h
      obtain ⟨hh, _⟩ := hexDigit_hexNibble hh
      obtain ⟨hlow, _⟩ := hexDigit_hexNibble hlow
      have hby : (UInt8.ofNat (16 * hi + lo)).toNat = 16 * hi + lo := by
        rw [UInt8.toNat_ofNat']
        omega
      rw [List.flatMap_cons, flatMap_hexBytes hre, hby]
      rw [show (16 * hi + lo) / 16 = hi by omega, show (16 * hi + lo) % 16 = lo by omega, hh, hlow]
      rfl
    · cases h

end ZcashVoting.Text
