import Mathlib

/-!
# Fixed-width numbers and chunks

A number is written as a fixed number of bytes, least byte first, and read back modulo
the range of that width; greatest byte first, the order of the bytes is the order of the
numbers. A list of chunks of one width is read back from their concatenation.
-/
namespace ZcashVoting.Bytes

open List

/-- The first `width` bytes of a number. -/
def leBytes : Nat → Nat → List UInt8
  | 0, _ => []
  | width + 1, n => .ofNat n :: leBytes width (n / 256)

/-- The number a byte list denotes. -/
def ofLeBytes : List UInt8 → Nat
  | [] => 0
  | byte :: rest => byte.toNat + 256 * ofLeBytes rest

@[simp] theorem length_leBytes (width n : Nat) : (leBytes width n).length = width := by
  induction width generalizing n with
  | zero => rfl
  | succ _ ih => rw [leBytes, length_cons, ih]

theorem ofLeBytes_leBytes (width n : Nat) : ofLeBytes (leBytes width n) = n % 256 ^ width := by
  induction width generalizing n with
  | zero => rw [leBytes, ofLeBytes, Nat.pow_zero, Nat.mod_one]
  | succ width ih =>
    have hpow : 256 ^ (width + 1) = 256 * 256 ^ width := by ring
    rw [leBytes, ofLeBytes, ih, UInt8.toNat_ofNat', hpow, Nat.mod_mul]

theorem ofLeBytes_lt (bytes : List UInt8) : ofLeBytes bytes < 256 ^ bytes.length := by
  induction bytes with
  | nil => exact Nat.one_pos
  | cons byte =>
    have hby := byte.toNat_lt
    rw [ofLeBytes, length_cons, Nat.pow_succ]
    omega

variable {width : Nat}

theorem leBytes_injective {m n : Nat} (hm : m < 256 ^ width) (hn : n < 256 ^ width)
    (h : leBytes width m = leBytes width n) : m = n := by
  have hre := congrArg ofLeBytes h
  rwa [ofLeBytes_leBytes, ofLeBytes_leBytes, Nat.mod_eq_of_lt hm, Nat.mod_eq_of_lt hn] at hre

/-- The last `width` bytes of a number, greatest byte first. -/
def beBytes : Nat → Nat → List UInt8
  | 0, _ => []
  | width + 1, n => .ofNat (n / 256 ^ width) :: beBytes width (n % 256 ^ width)

def ofBeBytes : List UInt8 → Nat
  | [] => 0
  | byte :: rest => byte.toNat * 256 ^ rest.length + ofBeBytes rest

@[simp] theorem length_beBytes (width n : Nat) : (beBytes width n).length = width := by
  induction width generalizing n with
  | zero => rfl
  | succ _ ih => rw [beBytes, length_cons, ih]

theorem toNat_ofNat_div {n : Nat} (h : n < 256 ^ (width + 1)) :
    (UInt8.ofNat (n / 256 ^ width)).toNat = n / 256 ^ width := by
  rw [UInt8.toNat_ofNat', Nat.mod_eq_of_lt]
  exact Nat.div_lt_of_lt_mul h

theorem ofBeBytes_beBytes {n : Nat} (h : n < 256 ^ width) : ofBeBytes (beBytes width n) = n := by
  induction width generalizing n with
  | zero => exact (Nat.lt_one_iff.mp h).symm
  | succ width ih =>
    rw [beBytes, ofBeBytes, length_beBytes, toNat_ofNat_div h,
      ih (Nat.mod_lt n (Nat.pow_pos (by decide))),
      Nat.mul_comm]
    exact Nat.div_add_mod n (256 ^ width)

theorem beBytes_lt {m n : Nat} (hn : n < 256 ^ width) (h : m < n) :
    beBytes width m < beBytes width n := by
  induction width generalizing m n with
  | zero => exact absurd (Nat.lt_one_iff.mp hn ▸ h) (Nat.not_lt_zero m)
  | succ width ih =>
    have hpos : 0 < 256 ^ width := Nat.pow_pos (by decide)
    rw [beBytes, beBytes, cons_lt_cons_iff, UInt8.lt_iff_toNat_lt, ← UInt8.toNat_inj,
      toNat_ofNat_div (h.trans hn), toNat_ofNat_div hn]
    rcases Nat.lt_or_eq_of_le (Nat.div_le_div_right (c := 256 ^ width) (Nat.le_of_lt h)) with hh | hh
    · exact .inl hh
    refine .inr ⟨hh, ih (Nat.mod_lt n hpos) ?_⟩
    have hm := Nat.div_add_mod m (256 ^ width)
    have hn := Nat.div_add_mod n (256 ^ width)
    rw [hh] at hm
    omega

section

variable {α β : Type} {f : β → List α}

/-- The whole chunks of a width, in order. -/
def chunksExact (width : Nat) (bytes : List α) : List (List α) :=
  (List.range (bytes.length / width)).map fun i => (bytes.drop (i * width)).take width

theorem length_flatMap_const (hf : ∀ b, (f b).length = width)
    (items : List β) : (items.flatMap f).length = items.length * width := by
  simp [length_flatMap, hf]

theorem chunksExact_flatMap (hwi : 0 < width) (hf : ∀ b, (f b).length = width) (items : List β) :
    chunksExact width (items.flatMap f) = items.map f := by
  rw [chunksExact, length_flatMap_const hf, Nat.mul_div_cancel _ hwi]
  induction items with
  | nil => rfl
  | cons b rest ih =>
    rw [length_cons, range_succ_eq_map, map_cons, map_map, map_cons, ← ih]
    congr 1
    · rw [Nat.zero_mul, drop_zero, flatMap_cons, ← hf b, take_left]
    refine map_congr_left fun i _ => ?_
    change ((List.flatMap f (b :: rest)).drop ((i + 1) * width)).take width = _
    rw [Nat.succ_mul, Nat.add_comm, ← drop_drop, flatMap_cons]
    rw [show (f b ++ List.flatMap f rest).drop width = List.flatMap f rest by
      rw [← hf b, drop_left]]

theorem flatten_inj (hwi : 0 < width) {xs ys : List (List α)} (hx : ∀ x ∈ xs, x.length = width)
    (hy : ∀ y ∈ ys, y.length = width) (h : xs.flatten = ys.flatten) : xs = ys := by
  have he : ∀ {zs : List (List α)}, (∀ z ∈ zs, z.length = width) → zs.flatten = [] → zs = [] := by
    intro zs hz hnil
    refine eq_nil_iff_forall_not_mem.mpr fun z hmem => ?_
    have hle := hz z hmem
    rw [flatten_eq_nil_iff.mp hnil z hmem, length_nil] at hle
    omega
  induction xs generalizing ys with
  | nil => exact (he hy h.symm).symm
  | cons _ _ ih =>
    cases ys with
    | nil => exact he hx h
    | cons =>
      rw [forall_mem_cons] at hx hy
      obtain ⟨hhe, hta⟩ := append_inj h (hx.1.trans hy.1.symm)
      rw [hhe, ih hx.2 hy.2 hta]

end

end ZcashVoting.Bytes
