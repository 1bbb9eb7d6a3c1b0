import Mathlib

/-!
# Go's fixed-width integers

Go's `int64` subtraction wraps modulo `2^64`, and `/` and `%` truncate toward zero; Lean's
`Int64` has the same semantics, so a Go expression over `int64` is the same expression over
`Int64`.  When the operands are non-negative and no subtraction leaves `[0, 2^63)`, these
operations agree with the mathematical ones on `Int` (`emod` and `ediv`), and `omega` can
reason about them.

A Go `uint64` counter bumped by `x + 1` wraps to zero after `2^64 - 1`.  The values such a
counter takes from `n` over `k` bumps are `List.iterate (· + 1) n k`; the `i`-th of them is
`n + i` modulo `2^64`, and they are pairwise distinct exactly when `k ≤ 2^64`: the
`2^64 + 1`-st is the first again.
-/

namespace BokerChain.Library.GoInt64

theorem bmod_of_small {z : Int} (h0 : -2 ^ 63 ≤ z) (h1 : z < 2 ^ 63) : z.bmod (2 ^ 64) = z :=
  Int.bmod_eq_of_le (by omega) (by omega)

theorem toInt_ofNat_sub_ofNat {a b : Nat} (hab : a ≤ b) (hb : b < 2 ^ 63) :
    (Int64.ofNat b - Int64.ofNat a).toInt = (b : Int) - a := by
  rw [Int64.toInt_sub, Int64.toInt_ofNat_of_lt hb, Int64.toInt_ofNat_of_lt (by omega)]
  rw [Int.bmod_eq_of_le] <;> omega

theorem ofNat_sub_ofNat_lt_iff {a b x y : Nat} (hba : b ≤ a) (ha : a < 2 ^ 63) (hyx : y ≤ x)
    (hx : x < 2 ^ 63) :
    Int64.ofNat a - Int64.ofNat b < Int64.ofNat x - Int64.ofNat y ↔ a - b < x - y := by
  rw [Int64.lt_iff_toInt_lt, toInt_ofNat_sub_ofNat hba ha, toInt_ofNat_sub_ofNat hyx hx]
  omega

theorem toInt_mod_of_nonneg {x m : Int64} (hx : 0 ≤ x.toInt) :
    (x % m).toInt = x.toInt % m.toInt := by
  rw [Int64.toInt_mod, Int.tmod_eq_emod_of_nonneg hx]

theorem toInt_div_of_nonneg {x m : Int64} (hx : 0 ≤ x.toInt) (hm : 0 < m.toInt) :
    (x / m).toInt = x.toInt / m.toInt := by
  have hne : m ≠ -1 := by
    intro h
    rw [h] at hm
    exact absurd hm (by decide)
  rw [Int64.toInt_div_of_ne_right x m hne, Int.tdiv_eq_ediv_of_nonneg hx]

theorem toNat_toUInt64_of_nonneg {x : Int64} (hx : 0 ≤ x.toInt) :
    x.toUInt64.toNat = x.toInt.toNat := by
  have hbits : x.toUInt64.toNat = x.toBitVec.toNat := by
    rw [← UInt64.toNat_toBitVec, Int64.toBitVec_toUInt64]
  have hint : x.toInt = x.toBitVec.toInt := rfl
  rw [hbits, hint]
  rw [hint, BitVec.toInt_eq_toNat_cond] at hx
  rw [BitVec.toInt_eq_toNat_cond]
  split
  · simp
  · omega

end BokerChain.Library.GoInt64

namespace BokerChain.Library.WrappingCounter

theorem iterate_add_one_eq (n : UInt64) (i : ℕ) : (· + 1)^[i] n = n + UInt64.ofNat i := by
  induction i with
  | zero => simp
  | succ i ih =>
    rw [Function.iterate_succ_apply', ih]
    simp [UInt64.ofNat_add, UInt64.add_assoc]

theorem getElem_iterate_add_one (n : UInt64) (k i : ℕ)
    (h : i < (List.iterate (· + 1) n k).length) :
    (List.iterate (· + 1) n k)[i] = n + UInt64.ofNat i := by
  rw [List.getElem_iterate, iterate_add_one_eq]

theorem ofNat_lt_ofNat_iff {a b : ℕ} (ha : a < 2 ^ 64) (hb : b < 2 ^ 64) :
    UInt64.ofNat a < UInt64.ofNat b ↔ a < b := by
  rw [UInt64.lt_iff_toNat_lt, UInt64.toNat_ofNat', UInt64.toNat_ofNat', Nat.mod_eq_of_lt ha,
    Nat.mod_eq_of_lt hb]

theorem ofNat_injOn {i j : ℕ} (hi : i < 2 ^ 64) (hj : j < 2 ^ 64)
    (h : UInt64.ofNat i = UInt64.ofNat j) : i = j := by
  rw [UInt64.ofNat_eq_iff_mod_eq_toNat, UInt64.toNat_ofNat', Nat.mod_eq_of_lt hi,
    Nat.mod_eq_of_lt hj] at h
  exact h

theorem nodup_iterate_add_one_iff (n : UInt64) (k : ℕ) :
    (List.iterate (· + 1) n k).Nodup ↔ k ≤ 2 ^ 64 := by
  rw [List.nodup_iff_injective_get]
  have hlen := List.length_iterate (· + 1) n k
  constructor
  · intro hinj
    by_contra hk
    have hwrap : UInt64.ofNat (2 ^ 64) = UInt64.ofNat 0 := by decide
    have heq := @hinj ⟨0, by omega⟩ ⟨2 ^ 64, by omega⟩
      (by rw [List.get_eq_getElem, List.get_eq_getElem, getElem_iterate_add_one,
        getElem_iterate_add_one, hwrap])
    exact absurd (congrArg Fin.val heq) (by norm_num)
  · intro hk i j hij
    rw [List.get_eq_getElem, List.get_eq_getElem, getElem_iterate_add_one,
      getElem_iterate_add_one, UInt64.add_right_inj] at hij
    have hi : (i : ℕ) < 2 ^ 64 := by have := i.2; omega
    have hj : (j : ℕ) < 2 ^ 64 := by have := j.2; omega
    exact Fin.ext (ofNat_injOn hi hj hij)

end BokerChain.Library.WrappingCounter
