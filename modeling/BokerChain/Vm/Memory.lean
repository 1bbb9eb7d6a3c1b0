import Mathlib
import BokerChain.Library.Imperative

/-!
# Memory expansion gas

`memoryGasCost` (`core/vm/gas_table.go`) charges the quadratic fee `3 w + w² / 512` of a memory
of `w` words incrementally: it records the total fee of the memory in `lastGasCost` and charges
the difference when the memory grows. `Interpreter.Run` rounds an operation's memory size up to
words (`toWordSize`, `math.SafeMul`), charges the fee with `Contract.UseGas` and resizes.

All the arithmetic is in `uint64`. The guard `newMemSize > 0xffffffffe0` admits word counts up
to `2^35 - 1`, whose square does not fit in 64 bits. Below `2^32` words no operation wraps, the
charge is exact (`memoryGasCost_spec`), and along every run the gas spent on memory is the fee
of the memory's final size (`memoryRun_spec`). At `2^32` words the square wraps to zero.
-/

namespace BokerChain.Vm

open Library.Imperative

/-! ## The model -/

/-- `math.MaxUint64`. -/
def maxUint64 : UInt64 := 0xffffffffffffffff

/-- `params.MemoryGas`: the linear gas per word of memory. -/
def memoryGas : UInt64 := 3

/-- `params.QuadCoeffDiv`: the divisor of the quadratic part of the memory fee. -/
def quadCoeffDiv : UInt64 := 512

/-- `errGasUintOverflow`. -/
def errGasUintOverflow : String := "gas uint64 overflow"

/-- `ErrOutOfGas`. -/
def errOutOfGas : String := "out of gas"

/-- `toWordSize`: the words of 32 bytes that hold `size` bytes, rounded up. -/
def toWordSize (size : UInt64) : UInt64 :=
  if size > maxUint64 - 31 then maxUint64 / 32 + 1 else (size + 31) / 32

/-- `bigUint64`: the low 64 bits of a non-negative `big.Int`, and whether it has more. -/
def bigUint64 (v : ℕ) : UInt64 × Bool := (UInt64.ofNat v, v.size > 64)

/-- `math.SafeMul`: the wrapped product and whether it overflowed. -/
def safeMul (x y : UInt64) : UInt64 × Bool :=
  if x = 0 ∨ y = 0 then (0, false) else (x * y, y > maxUint64 / x)

/-- `Memory`. The store is kept as its length: no modelled function reads its bytes. -/
structure Memory where
  /-- `len(store)`. -/
  storeLen : ℕ
  lastGasCost : UInt64
  deriving DecidableEq, Repr

/-- `Memory.Len`. -/
def Memory.len (m : Memory) : ℕ := m.storeLen

/-- `NewMemory`. -/
def newMemory : Memory := ⟨0, 0⟩

/-- `Memory.Resize`: append zeros up to `size` bytes; a memory never shrinks. -/
def Memory.resize (m : Memory) (size : UInt64) : Memory :=
  if UInt64.ofNat m.len < size then { m with storeLen := m.len + (size - UInt64.ofNat m.len).toNat }
  else m

/-- The total fee of `newMemSizeWords` words as `memoryGasCost` computes it, in `uint64`. -/
def newTotalFee (newMemSizeWords : UInt64) : UInt64 :=
  let square := newMemSizeWords * newMemSizeWords
  let linCoef := newMemSizeWords * memoryGas
  let quadCoef := square / quadCoeffDiv
  linCoef + quadCoef

/-- `memoryGasCost`: the gas for growing `mem` to `newMemSize` bytes, with the memory whose
`lastGasCost` is the new total fee. -/
def memoryGasCost (mem : Memory) (newMemSize : UInt64) : Except String (UInt64 × Memory) :=
  if newMemSize = 0 then .ok (0, mem)
  else if newMemSize > 0xffffffffe0 then .error errGasUintOverflow
  else
    let newMemSizeWords := toWordSize newMemSize
    let newMemSize := newMemSizeWords * 32
    if newMemSize > UInt64.ofNat mem.len then
      let newTotalFee := newTotalFee newMemSizeWords
      let fee := newTotalFee - mem.lastGasCost
      .ok (fee, { mem with lastGasCost := newTotalFee })
    else .ok (0, mem)

/-- The memory phase of one step of `Interpreter.Run`, for an operation whose gas function is
`memoryGasCost` alone (`gasReturn`, `gasRevert`): the memory size the operation needs, rounded up
to words, its fee charged by `Contract.UseGas` from `gas`, then `Memory.Resize`. Gives the gas
left and the memory. -/
def memoryStep (gas : UInt64) (mem : Memory) (memSize : ℕ) : Except String (UInt64 × Memory) := do
  let (memSize, overflow) := bigUint64 memSize
  if overflow then throw errGasUintOverflow
  let (memorySize, overflow) := safeMul (toWordSize memSize) 32
  if overflow then throw errGasUintOverflow
  -- an error of the gas function and a failed `UseGas` both end the run out of gas
  match memoryGasCost mem memorySize with
  | .error _ => throw errOutOfGas
  | .ok (cost, mem) =>
    if gas < cost then throw errOutOfGas
    pure (gas - cost, if memorySize > 0 then mem.resize memorySize else mem)

/-- The memory phases of a run of such operations, with the memory sizes they need. -/
def memoryRun : UInt64 → Memory → List ℕ → Except String (UInt64 × Memory)
  | gas, mem, [] => .ok (gas, mem)
  | gas, mem, memSize :: memSizes => do
    let (gas, mem) ← memoryStep gas mem memSize
    memoryRun gas mem memSizes

@[simp] theorem Memory.resize_lastGasCost (m : Memory) (size : UInt64) :
    (m.resize size).lastGasCost = m.lastGasCost := by
  unfold Memory.resize
  split <;> rfl

theorem Memory.resize_len {m : Memory} (hlen : m.len < 2 ^ 64) (size : UInt64) :
    (m.resize size).len = max m.len size.toNat := by
  have hofNat : (UInt64.ofNat m.len).toNat = m.len := by
    rw [UInt64.toNat_ofNat', Nat.mod_eq_of_lt hlen]
  unfold Memory.resize
  split
  case isTrue hlt =>
    rw [UInt64.lt_iff_toNat_lt, hofNat] at hlt
    have hsub : (size - UInt64.ofNat m.len).toNat = size.toNat - m.len := by
      rw [UInt64.toNat_sub_of_le _ _ (UInt64.le_iff_toNat_le.2 (by omega)), hofNat]
    show m.len + (size - UInt64.ofNat m.len).toNat = _
    omega
  case isFalse hge =>
    rw [UInt64.lt_iff_toNat_lt, hofNat] at hge
    omega

/-! ## The fee over the naturals -/

/-- The quadratic memory fee of `words` words, over the naturals. -/
def memoryFee (words : ℕ) : ℕ := 3 * words + words * words / 512

theorem memoryFee_mono {v w : ℕ} (h : v ≤ w) : memoryFee v ≤ memoryFee w := by
  have hsq : v * v / 512 ≤ w * w / 512 := Nat.div_le_div_right (Nat.mul_le_mul h h)
  unfold memoryFee
  omega

theorem toWordSize_toNat {size : UInt64} (hsize : size.toNat < 2 ^ 64 - 31) :
    (toWordSize size).toNat = (size.toNat + 31) / 32 := by
  have hmax : maxUint64.toNat = 2 ^ 64 - 1 := rfl
  have hguard : ¬size > maxUint64 - 31 := by
    rw [gt_iff_lt, UInt64.lt_iff_toNat_lt, UInt64.toNat_sub_of_le _ _ (by decide), hmax]
    exact Nat.not_lt.2 (by simp; omega)
  rw [toWordSize, if_neg hguard, UInt64.toNat_div, UInt64.toNat_add,
    Nat.mod_eq_of_lt (by simp; omega)]
  rfl

theorem newTotalFee_toNat {words : UInt64} (hw : words.toNat < 2 ^ 32) :
    (newTotalFee words).toNat = memoryFee words.toNat := by
  have hsq : words.toNat * words.toNat < 2 ^ 64 :=
    calc words.toNat * words.toNat < 2 ^ 32 * 2 ^ 32 := Nat.mul_self_lt_mul_self hw
      _ = 2 ^ 64 := by norm_num
  have hgas : memoryGas.toNat = 3 := rfl
  have hdiv : quadCoeffDiv.toNat = 512 := rfl
  simp only [newTotalFee, UInt64.toNat_add, UInt64.toNat_mul, UInt64.toNat_div, hgas, hdiv,
    Nat.mod_eq_of_lt hsq, memoryFee]
  have hlin : words.toNat * 3 < 2 ^ 64 := by omega
  generalize words.toNat * words.toNat = sq at hsq ⊢
  rw [Nat.mod_eq_of_lt hlin, Nat.mod_eq_of_lt (by omega), Nat.mul_comm]

/-! ## One call of `memoryGasCost` -/

section Call

variable {mem : Memory} {size : UInt64}

theorem memoryGasCost_of_grow (hzero : size ≠ 0) (hguard : ¬size > 0xffffffffe0)
    (hgrow : toWordSize size * 32 > UInt64.ofNat mem.len) :
    memoryGasCost mem size = .ok (newTotalFee (toWordSize size) - mem.lastGasCost,
      { mem with lastGasCost := newTotalFee (toWordSize size) }) := by
  rw [memoryGasCost, if_neg hzero, if_neg hguard]
  exact if_pos hgrow

theorem memoryGasCost_of_not_grow (hguard : ¬size > 0xffffffffe0)
    (hgrow : ¬toWordSize size * 32 > UInt64.ofNat mem.len) :
    memoryGasCost mem size = .ok (0, mem) := by
  by_cases hzero : size = 0
  · exact if_pos hzero
  · rw [memoryGasCost, if_neg hzero, if_neg hguard]
    exact if_neg hgrow

/-- **Exact incremental charge.** For a memory whose recorded fee is the fee of its words, and a
size below `2^32` words, `memoryGasCost` charges the fee of the grown memory less the fee already
paid, and records the fee of the grown memory. -/
theorem memoryGasCost_spec (hlen : mem.len < 2 ^ 64)
    (hcost : mem.lastGasCost.toNat = memoryFee (mem.len / 32)) (hsize : size.toNat ≤ 2 ^ 37 - 32) :
    ∃ fee mem', memoryGasCost mem size = .ok (fee, mem') ∧
      fee.toNat = memoryFee (max ((size.toNat + 31) / 32) (mem.len / 32)) -
        memoryFee (mem.len / 32) ∧
      mem'.len = mem.len ∧
      mem'.lastGasCost.toNat = memoryFee (max ((size.toNat + 31) / 32) (mem.len / 32)) := by
  have hw : (toWordSize size).toNat = (size.toNat + 31) / 32 := toWordSize_toNat (by omega)
  have hguard : ¬size > 0xffffffffe0 := by
    rw [gt_iff_lt, UInt64.lt_iff_toNat_lt]
    exact Nat.not_lt.2 (by simp; omega)
  have hbytes : (toWordSize size * 32).toNat = 32 * ((size.toNat + 31) / 32) := by
    rw [UInt64.toNat_mul, hw, Nat.mod_eq_of_lt (by simp; omega), Nat.mul_comm]
    rfl
  have hlen64 : (UInt64.ofNat mem.len).toNat = mem.len := by
    rw [UInt64.toNat_ofNat', Nat.mod_eq_of_lt hlen]
  by_cases hgrow : mem.len < 32 * ((size.toNat + 31) / 32)
  · have hmax : max ((size.toNat + 31) / 32) (mem.len / 32) = (size.toNat + 31) / 32 :=
      max_eq_left (by omega)
    have htotal : (newTotalFee (toWordSize size)).toNat = memoryFee ((size.toNat + 31) / 32) := by
      rw [newTotalFee_toNat (by omega), hw]
    have hpaid : mem.lastGasCost ≤ newTotalFee (toWordSize size) := by
      rw [UInt64.le_iff_toNat_le, htotal, hcost]
      exact memoryFee_mono (by omega)
    have hzero : size ≠ 0 := by
      rintro rfl
      simp at hgrow
    refine ⟨_, _, memoryGasCost_of_grow hzero hguard ?_, ?_, rfl, ?_⟩
    · rw [gt_iff_lt, UInt64.lt_iff_toNat_lt, hbytes, hlen64]
      exact hgrow
    · rw [UInt64.toNat_sub_of_le _ _ hpaid, htotal, hcost, hmax]
    · rw [hmax]
      exact htotal
  · have hmax : max ((size.toNat + 31) / 32) (mem.len / 32) = mem.len / 32 :=
      max_eq_right (by omega)
    refine ⟨0, mem, memoryGasCost_of_not_grow hguard ?_, ?_, rfl, ?_⟩
    · rw [gt_iff_lt, UInt64.lt_iff_toNat_lt, hbytes, hlen64]
      exact hgrow
    · rw [hmax, Nat.sub_self]
      rfl
    · rw [hmax, hcost]

end Call

/-! ## The memory along a run -/

theorem memorySize_of_le {memSize : ℕ} (hsize : memSize ≤ 2 ^ 37 - 32) :
    bigUint64 memSize = (UInt64.ofNat memSize, false) ∧
      ∃ memorySize : UInt64, safeMul (toWordSize (UInt64.ofNat memSize)) 32 = (memorySize, false) ∧
        memorySize.toNat = 32 * ((memSize + 31) / 32) := by
  have hofNat : (UInt64.ofNat memSize).toNat = memSize := by
    rw [UInt64.toNat_ofNat', Nat.mod_eq_of_lt (by omega)]
  have hw : (toWordSize (UInt64.ofNat memSize)).toNat = ((UInt64.ofNat memSize).toNat + 31) / 32 :=
    toWordSize_toNat (by omega)
  rw [hofNat] at hw
  have hbits : ¬memSize.size > 64 := Nat.not_lt.2 (Nat.size_le.2 (by omega))
  refine ⟨by simp [bigUint64, hbits], ?_⟩
  by_cases hzero : toWordSize (UInt64.ofNat memSize) = 0
  · have hnone : (memSize + 31) / 32 = 0 := by rw [← hw, hzero]; rfl
    exact ⟨0, if_pos (.inl hzero), by rw [hnone]; rfl⟩
  · have hmax : maxUint64.toNat = 2 ^ 64 - 1 := rfl
    have hpos : 0 < (memSize + 31) / 32 := by
      rw [← hw]
      exact Nat.pos_of_ne_zero (fun h ↦ hzero (UInt64.toNat_inj.1 h))
    have hfits : ¬(32 : UInt64) > maxUint64 / toWordSize (UInt64.ofNat memSize) := by
      rw [gt_iff_lt, UInt64.lt_iff_toNat_lt, UInt64.toNat_div, hmax, hw]
      apply Nat.not_lt.2
      rw [Nat.le_div_iff_mul_le hpos]
      show 32 * ((memSize + 31) / 32) ≤ 2 ^ 64 - 1
      omega
    refine ⟨_, by rw [safeMul, if_neg (by simp [hzero]), decide_eq_false hfits], ?_⟩
    rw [UInt64.toNat_mul, hw, Nat.mod_eq_of_lt (by simp; omega), Nat.mul_comm]
    rfl

theorem memoryStep_of_call {gas fee : UInt64} {mem mem' : Memory} {memSize : ℕ}
    {s memorySize : UInt64} (hbig : bigUint64 memSize = (s, false))
    (hsafe : safeMul (toWordSize s) 32 = (memorySize, false))
    (hcall : memoryGasCost mem memorySize = .ok (fee, mem')) :
    memoryStep gas mem memSize = if gas < fee then .error errOutOfGas
      else .ok (gas - fee, if memorySize > 0 then mem'.resize memorySize else mem') := by
  simp only [memoryStep, hbig, hsafe, hcall, Bool.false_eq_true, if_false]
  split <;> rfl

/-- A memory of whole words, below `2^32` of them, whose recorded fee is the fee of its words. -/
structure Charged (mem : Memory) : Prop where
  len_mod : mem.len % 32 = 0
  len_le : mem.len ≤ 2 ^ 37 - 32
  lastGasCost_eq : mem.lastGasCost.toNat = memoryFee (mem.len / 32)

theorem charged_newMemory : Charged newMemory := ⟨rfl, by decide, rfl⟩

/-- **One step.** For a size below `2^37 - 32` bytes, the memory phase either runs out of gas,
exactly when the gas left is below the fee of the growth, or grows the memory to the larger of
its length and the size in whole words, keeps it `Charged`, and moves from the gas left to the
memory exactly the fee of the growth. -/
theorem memoryStep_spec {gas : UInt64} {mem : Memory} {memSize : ℕ} (hmem : Charged mem)
    (hsize : memSize ≤ 2 ^ 37 - 32) :
    (gas.toNat + memoryFee (mem.len / 32) <
        memoryFee (max mem.len (32 * ((memSize + 31) / 32)) / 32) ∧
      memoryStep gas mem memSize = .error errOutOfGas) ∨
    ∃ gas' mem', memoryStep gas mem memSize = .ok (gas', mem') ∧ Charged mem' ∧
      mem'.len = max mem.len (32 * ((memSize + 31) / 32)) ∧
      gas'.toNat + memoryFee (mem'.len / 32) = gas.toNat + memoryFee (mem.len / 32) := by
  obtain ⟨hbig, memorySize, hsafe, hbytes⟩ := memorySize_of_le hsize
  have hwords : (memorySize.toNat + 31) / 32 = (memSize + 31) / 32 := by omega
  obtain ⟨fee, mem₁, hcall, hfee, hlen₁, hcost₁⟩ :=
    @memoryGasCost_spec mem memorySize (by have := hmem.len_le; omega)
      hmem.lastGasCost_eq (by omega)
  rw [hwords] at hfee hcost₁
  have hgrown : max mem.len (32 * ((memSize + 31) / 32)) / 32 =
      max ((memSize + 31) / 32) (mem.len / 32) := by
    have := hmem.len_mod
    omega
  have hle : memoryFee (mem.len / 32) ≤ memoryFee (max ((memSize + 31) / 32) (mem.len / 32)) :=
    memoryFee_mono (le_max_right _ _)
  rw [memoryStep_of_call hbig hsafe hcall, hgrown]
  by_cases hgas : gas < fee
  · left
    rw [UInt64.lt_iff_toNat_lt, hfee] at hgas
    exact ⟨by omega, if_pos (UInt64.lt_iff_toNat_lt.2 (by rw [hfee]; omega))⟩
  · right
    have hlen₂ : (if memorySize > 0 then mem₁.resize memorySize else mem₁).len =
        max mem.len (32 * ((memSize + 31) / 32)) := by
      split
      case isTrue =>
        rw [Memory.resize_len (by rw [hlen₁]; have := hmem.len_le; omega), hlen₁, hbytes]
      case isFalse hzero =>
        have : memorySize.toNat = 0 := by
          rw [gt_iff_lt, UInt64.lt_iff_toNat_lt] at hzero
          simpa using hzero
        rw [hlen₁]
        omega
    have hcost₂ : (if memorySize > 0 then mem₁.resize memorySize else mem₁).lastGasCost =
        mem₁.lastGasCost := by
      split <;> simp
    refine ⟨_, _, if_neg hgas, ⟨?_, ?_, ?_⟩, hlen₂, ?_⟩
    · rw [hlen₂]
      have := hmem.len_mod
      omega
    · rw [hlen₂]
      have := hmem.len_le
      omega
    · rw [hcost₂, hcost₁, hlen₂, hgrown]
    · rw [UInt64.toNat_sub_of_le _ _ (UInt64.le_iff_toNat_le.2 (Nat.not_lt.1
        (fun h ↦ hgas (UInt64.lt_iff_toNat_lt.2 h)))), hlen₂, hgrown, hfee]
      have : fee.toNat ≤ gas.toNat := Nat.not_lt.1 (fun h ↦ hgas (UInt64.lt_iff_toNat_lt.2 h))
      omega

/-- **Memory gas along a run.** From a `Charged` memory, a run of operations that need sizes
below `2^37 - 32` bytes either runs out of gas or ends with a `Charged` memory as long as the
largest size asked for, in whole words, and the gas it took is the fee of the memory's growth:
no memory is allocated without its fee paid. -/
theorem memoryRun_spec {memSizes : List ℕ} (hsizes : ∀ memSize ∈ memSizes, memSize ≤ 2 ^ 37 - 32) :
    ∀ {gas : UInt64} {mem : Memory}, Charged mem →
      memoryRun gas mem memSizes = .error errOutOfGas ∨
        ∃ gas' mem', memoryRun gas mem memSizes = .ok (gas', mem') ∧ Charged mem' ∧
          mem'.len = memSizes.foldl (fun len memSize ↦ max len (32 * ((memSize + 31) / 32)))
            mem.len ∧
          gas'.toNat + memoryFee (mem'.len / 32) = gas.toNat + memoryFee (mem.len / 32) := by
  induction memSizes with
  | nil => exact fun hmem ↦ .inr ⟨_, _, rfl, hmem, rfl, rfl⟩
  | cons memSize memSizes ih =>
    intro gas mem hmem
    rcases @memoryStep_spec gas mem memSize hmem (hsizes memSize List.mem_cons_self) with
      ⟨-, hstep⟩ | ⟨gas₁, mem₁, hstep, hmem₁, hlen₁, hgas₁⟩
    · left
      rw [memoryRun, hstep]
      rfl
    · rw [memoryRun, hstep, except_ok_bind]
      rcases ih (fun m hm ↦ hsizes m (List.mem_cons_of_mem _ hm)) hmem₁ with
        hrun | ⟨gas', mem', hrun, hmem', hlen', hgas'⟩
      · exact .inl hrun
      · refine .inr ⟨gas', mem', hrun, hmem', ?_, by omega⟩
        rw [hlen', hlen₁, List.foldl_cons]

/-- **The fee of the final memory is what the run took.** From `NewMemory`, every run of sizes
below `2^37 - 32` bytes that does not run out of gas took from the gas exactly the fee of the
memory's final words. -/
theorem memoryRun_newMemory {memSizes : List ℕ}
    (hsizes : ∀ memSize ∈ memSizes, memSize ≤ 2 ^ 37 - 32) {gas gas' : UInt64} {mem' : Memory}
    (hrun : memoryRun gas newMemory memSizes = .ok (gas', mem')) :
    gas.toNat - gas'.toNat = memoryFee (mem'.len / 32) := by
  rcases @memoryRun_spec _ hsizes gas _ charged_newMemory with hrun' | ⟨_, _, hrun', -, -, hgas⟩
  · rw [hrun] at hrun'
    cases hrun'
  · rw [hrun] at hrun'
    cases hrun'
    have hzero : memoryFee (newMemory.len / 32) = 0 := rfl
    omega

/-- Two operations that need 64 and then 100 bytes, run with 1000 gas: the memory grows to four
words, and the run takes their fee, 12. -/
theorem memoryRun_two_sizes :
    (∀ memSize ∈ [64, 100], memSize ≤ 2 ^ 37 - 32) ∧
      memoryRun 1000 newMemory [64, 100] = .ok (988, ⟨128, 12⟩) ∧
      (1000 : UInt64).toNat - (988 : UInt64).toNat = memoryFee ((⟨128, 12⟩ : Memory).len / 32) := by
  have hsizes : ∀ memSize ∈ [64, 100], memSize ≤ 2 ^ 37 - 32 := by decide
  have hrun : memoryRun 1000 newMemory [64, 100] = .ok (988, ⟨128, 12⟩) := by decide
  exact ⟨hsizes, hrun, memoryRun_newMemory hsizes hrun⟩

/-! ## The square that wraps -/

/-- At `2^37` bytes, `2^32` words, the square in `newTotalFee` is `2^64` and wraps to zero:
`memoryGasCost` on a new memory charges `3 · 2^32` gas, while the fee of `2^32` words is
`3 · 2^32 + 2^55`, and a run with `2^40` gas allocates the `2^37` bytes for that charge. -/
theorem memory_square_wraps :
    memoryGasCost newMemory (2 ^ 37) = .ok (3 * 2 ^ 32, ⟨0, 3 * 2 ^ 32⟩) ∧
      memoryFee (2 ^ 32) = 3 * 2 ^ 32 + 2 ^ 55 ∧
      memoryRun (2 ^ 40) newMemory [2 ^ 37] = .ok (2 ^ 40 - 3 * 2 ^ 32, ⟨2 ^ 37, 3 * 2 ^ 32⟩) :=
  ⟨by decide, by norm_num [memoryFee], by decide⟩

end BokerChain.Vm
