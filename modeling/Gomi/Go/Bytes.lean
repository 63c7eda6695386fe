import Mathlib.Tactic

/-!
# Bytes

Go's slices of bytes, as lists: the part of a slice between two positions, and the eight bytes of a
64-bit number in big-endian order (`encoding/binary`).
-/

namespace Gomi.Go

/-- A slice of bytes. A Go string is one as well. -/
abbrev Bytes : Type := List UInt8

/-- `data[i:j]`. -/
def slice (data : Bytes) (i j : ℕ) : Bytes := (data.drop i).take (j - i)

variable {data : Bytes} {i j : ℕ}

/-- The part in the middle of three. -/
theorem slice_eq (a b c : Bytes) (h : data = a ++ b ++ c) (hi : i = a.length)
    (hj : j = i + b.length) : slice data i j = b := by
  subst h hj hi
  rw [slice, List.append_assoc, List.drop_left, Nat.add_sub_cancel_left, List.take_left]

/-- The byte between two parts. -/
theorem getD_eq (a c : Bytes) {x : UInt8} {i : ℕ} (h : data = a ++ [x] ++ c) (hi : i = a.length) :
    data.getD i 0 = x := by
  subst h hi
  simp

theorem length_slice (hj : j ≤ data.length) : (slice data i j).length = j - i := by
  rw [slice, List.length_take, List.length_drop]
  omega

/-- Two parts that meet. -/
theorem slice_append_slice {i j k : ℕ} (hij : i ≤ j) (hjk : j ≤ k) :
    slice data i j ++ slice data j k = slice data i k := by
  have hdrop : data.drop j = (data.drop i).drop (j - i) := by
    rw [List.drop_drop]
    congr 1
    omega
  rw [slice, slice, slice, hdrop, ← List.take_add]
  congr 1
  omega

/-- One byte. -/
theorem slice_succ {i : ℕ} (hi : i < data.length) : slice data i (i + 1) = [data.getD i 0] := by
  rw [slice, Nat.add_sub_cancel_left, List.take_one, List.head?_drop, List.getD_eq_getElem?_getD,
    List.getElem?_eq_getElem hi]
  rfl

/-- `data[i:j]`, with the check of the bounds: nothing where the program would panic, and nothing
either where it would read beyond the length. -/
def sliceChecked (data : Bytes) (i j : ℕ) : Option Bytes :=
  if i ≤ j ∧ j ≤ data.length then some (slice data i j) else none

theorem sliceChecked_eq (hij : i ≤ j) (hj : j ≤ data.length) :
    sliceChecked data i j = some (slice data i j) := if_pos ⟨hij, hj⟩

/-- `int64` of an integer: its residue in 64 bits. -/
def int64 (n : ℤ) : ℤ := Int.bmod n (2 ^ 64)

/-- `uint64` of an integer. -/
def uint64 (n : ℤ) : ℕ := (n % 2 ^ 64).toNat

/-- A number that goes through 64 bits without a sign has the residue that it had. -/
theorem int64_uint64 (n : ℤ) : int64 (uint64 n) = int64 n := by
  have hnonneg : 0 ≤ n % 2 ^ 64 := Int.emod_nonneg _ (by decide)
  rw [int64, uint64, Int.toNat_of_nonneg hnonneg]
  exact_mod_cast Int.emod_bmod n (2 ^ 64)

theorem uint64_lt (n : ℤ) : uint64 n < 2 ^ 64 := by
  have := Int.emod_lt_of_pos n (show (0 : ℤ) < 2 ^ 64 by decide)
  unfold uint64
  omega

/-- `binary.BigEndian.PutUint64`. -/
def putUint64 (n : ℕ) : Bytes :=
  [n / 2 ^ 56, n / 2 ^ 48, n / 2 ^ 40, n / 2 ^ 32, n / 2 ^ 24, n / 2 ^ 16, n / 2 ^ 8, n].map
    UInt8.ofNat

/-- `binary.BigEndian.Uint64`, of eight bytes. -/
def bigEndianUint64 (b : Bytes) : ℕ := b.foldl (fun n byte => 256 * n + byte.toNat) 0

@[simp] theorem length_putUint64 (n : ℕ) : (putUint64 n).length = 8 := rfl

theorem bigEndianUint64_putUint64 {n : ℕ} (hn : n < 2 ^ 64) :
    bigEndianUint64 (putUint64 n) = n := by
  simp only [bigEndianUint64, putUint64, List.map_cons, List.map_nil, List.foldl_cons,
    List.foldl_nil, UInt8.toNat_ofNat']
  omega

theorem bigEndianUint64_lt {b : Bytes} (hb : b.length = 8) : bigEndianUint64 b < 2 ^ 64 := by
  match b, hb with
  | [b₀, b₁, b₂, b₃, b₄, b₅, b₆, b₇], _ =>
    simp only [bigEndianUint64, List.foldl_cons, List.foldl_nil]
    have h₀ := b₀.toNat_lt
    have h₁ := b₁.toNat_lt
    have h₂ := b₂.toNat_lt
    have h₃ := b₃.toNat_lt
    have h₄ := b₄.toNat_lt
    have h₅ := b₅.toNat_lt
    have h₆ := b₆.toNat_lt
    have h₇ := b₇.toNat_lt
    omega

theorem putUint64_bigEndianUint64 {b : Bytes} (hb : b.length = 8) :
    putUint64 (bigEndianUint64 b) = b := by
  match b, hb with
  | [b₀, b₁, b₂, b₃, b₄, b₅, b₆, b₇], _ =>
    have h₀ := b₀.toNat_lt
    have h₁ := b₁.toNat_lt
    have h₂ := b₂.toNat_lt
    have h₃ := b₃.toNat_lt
    have h₄ := b₄.toNat_lt
    have h₅ := b₅.toNat_lt
    have h₆ := b₆.toNat_lt
    have h₇ := b₇.toNat_lt
    simp only [putUint64, bigEndianUint64, List.map_cons, List.map_nil, List.foldl_cons,
      List.foldl_nil, List.cons.injEq, ← UInt8.toNat_inj, UInt8.toNat_ofNat', and_true]
    omega

end Gomi.Go
