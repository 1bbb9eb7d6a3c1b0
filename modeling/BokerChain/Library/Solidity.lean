import BokerChain.Library.Imperative

/-!
# Contract calls that revert

A function of a Solidity contract reads and writes storage, and a failed `require`, a failed
`assert`, a division by zero or the failure of a call it makes reverts the whole transaction:
storage is then as it was before the call.  A function is modelled as an `EStateM Revert σ α`
over the storage it can reach, and a transaction as `transact`, which keeps the final storage of
a successful run and the initial storage of a failed one.  What holds of every successful run
then holds of every transaction (`transact_preserves`), and of every sequence of transactions.

`uint256` is `Fin (2 ^ 256)`, whose `+`, `-` and `*` wrap around as the EVM's do; the checked
versions of the common `SafeMath` library, which fail with `INVALID` where the plain operation
would wrap, are `safeAdd`, `safeSub`, `safeMul` and `safeDiv`.

A system of contracts that call each other is one state holding each contract's storage; a call
into another contract runs that contract's function on its part of the state (`external`).  A
mapping is a function that gives every key never written the zero value, and the sum of a
quantity over all its keys changes, when one entry is written, by that entry's change
(`sum_update`).
-/

namespace BokerChain.Library.Solidity

open Imperative

variable {σ α : Type}

/-- `uint256`. -/
abbrev Uint256 := Fin (2 ^ 256)

/-- Why a transaction reverted. -/
inductive Revert where
  /-- `require(cond, reason)`; the reason is empty when the source gives none. -/
  | revert (reason : String)
  /-- The `INVALID` opcode: a failed `assert`, or a division by zero. -/
  | invalid
  deriving DecidableEq, Repr

/-- `require(cond, reason)`. -/
def require (c : Prop) [Decidable c] (reason : String) : EStateM Revert σ PUnit :=
  if c then pure ⟨⟩ else throw (.revert reason)

/-- `assert(cond)`. -/
def assert (c : Prop) [Decidable c] : EStateM Revert σ PUnit :=
  if c then pure ⟨⟩ else throw .invalid

@[simp]
theorem require_apply_pos {c : Prop} [Decidable c] (h : c) (reason : String) (s : σ) :
    (require c reason : EStateM Revert σ PUnit) s = .ok ⟨⟩ s := by
  simp [require, h]

@[simp]
theorem require_apply_neg {c : Prop} [Decidable c] (h : ¬c) (reason : String) (s : σ) :
    (require c reason : EStateM Revert σ PUnit) s = .error (.revert reason) s := by
  simp [require, h]

theorem require_eq_ok {c : Prop} [Decidable c] {reason : String} {s s' : σ} {u : PUnit} :
    (require c reason : EStateM Revert σ PUnit) s = .ok u s' ↔ c ∧ s = s' := by
  by_cases hc : c <;> simp [hc]

@[simp]
theorem assert_apply_pos {c : Prop} [Decidable c] (h : c) (s : σ) :
    (assert c : EStateM Revert σ PUnit) s = .ok ⟨⟩ s := by
  simp [assert, h]

@[simp]
theorem assert_apply_neg {c : Prop} [Decidable c] (h : ¬c) (s : σ) :
    (assert c : EStateM Revert σ PUnit) s = .error .invalid s := by
  simp [assert, h]

/-! ## Transactions -/

/-- A transaction: the storage after a successful run, the storage before a failed one. -/
def transact (x : EStateM Revert σ α) (s : σ) : σ :=
  match x s with
  | .ok _ s' => s'
  | .error _ _ => s

@[simp]
theorem transact_of_ok {x : EStateM Revert σ α} {s s' : σ} {a : α} (h : x s = .ok a s') :
    transact x s = s' := by
  simp [transact, h]

@[simp]
theorem transact_of_error {x : EStateM Revert σ α} {s s' : σ} {e : Revert}
    (h : x s = .error e s') : transact x s = s := by
  simp [transact, h]

/-- What every successful run keeps, every transaction keeps. -/
theorem transact_preserves {Inv : σ → Prop} {x : EStateM Revert σ α}
    (hstep : ∀ s s' a, Inv s → x s = .ok a s' → Inv s') {s : σ} (hs : Inv s) :
    Inv (transact x s) := by
  cases hx : x s with
  | ok a s' => rw [transact_of_ok hx]; exact hstep s s' a hs hx
  | error e s' => rw [transact_of_error hx]; exact hs

/-! ## Calls between contracts -/

section External

variable {τ : Type}

/-- A call into another contract of the system, whose storage is the part of the whole state
that `view` reads and `update` writes back. -/
def external (view : σ → τ) (update : σ → τ → σ) (x : EStateM Revert τ α) :
    EStateM Revert σ α :=
  fun s ↦ match x (view s) with
    | .ok a t => .ok a (update s t)
    | .error e t => .error e (update s t)

theorem external_eq_ok {view : σ → τ} {update : σ → τ → σ} {x : EStateM Revert τ α} {s s' : σ}
    {a : α} : external view update x s = .ok a s' ↔ ∃ t, x (view s) = .ok a t ∧ s' = update s t := by
  unfold external
  cases x (view s) with
  | ok b t => simp [eq_comm]
  | error e t => simp

end External

/-! ## Mappings -/

/-- Writing one entry of a mapping changes the sum of `g` over all keys by that entry's change. -/
theorem sum_update {κ ν : Type} [Fintype κ] [DecidableEq κ] (f : κ → ν) (g : ν → ℕ) (a : κ)
    (v : ν) : ∑ b, g (Function.update f a v b) + g (f a) = ∑ b, g (f b) + g v := by
  have hfun : (fun b ↦ g (Function.update f a v b)) = Function.update (fun b ↦ g (f b)) a (g v) := by
    funext b
    exact Function.apply_update (fun _ ↦ g) f a v b
  rw [hfun, Finset.sum_update_of_mem (Finset.mem_univ a), Finset.sdiff_singleton_eq_erase,
    ← Finset.sum_erase_add _ _ (Finset.mem_univ a)]
  omega

/-! ## Wrapping arithmetic -/

theorem val_add_of_le {a b : Uint256} (h : a ≤ a + b) : (a + b).val = a.val + b.val := by
  rw [Fin.val_add_eq_ite]
  split_ifs with hwrap
  · exfalso
    rw [Fin.le_def, Fin.val_add_eq_ite, if_pos hwrap] at h
    have hb := b.isLt
    omega
  · rfl

theorem val_sub_of_le {a b : Uint256} (h : b ≤ a) : (a - b).val = a.val - b.val :=
  Fin.sub_val_of_le h

/-! ## `SafeMath` -/

/-- `SafeMath.add`: `c = a + b; assert(c >= a)`. -/
def safeAdd (a b : Uint256) : Except Revert Uint256 :=
  let c := a + b
  if a ≤ c then pure c else throw .invalid

/-- `SafeMath.sub`: `assert(b <= a); a - b`. -/
def safeSub (a b : Uint256) : Except Revert Uint256 :=
  if b ≤ a then pure (a - b) else throw .invalid

/-- `SafeMath.mul`: zero for `a == 0`, else `c = a * b; assert(c / a == b)`. -/
def safeMul (a b : Uint256) : Except Revert Uint256 :=
  if a = 0 then pure 0
  else
    let c := a * b
    if c / a = b then pure c else throw .invalid

/-- `SafeMath.div`: Solidity's `/`, which fails on a zero divisor. -/
def safeDiv (a b : Uint256) : Except Revert Uint256 :=
  if b = 0 then throw .invalid else pure (a / b)

theorem safeAdd_eq_ok {a b c : Uint256} :
    safeAdd a b = .ok c ↔ a.val + b.val < 2 ^ 256 ∧ c.val = a.val + b.val := by
  unfold safeAdd
  dsimp only
  constructor
  · intro h
    split_ifs at h with hle
    cases h
    have hval := val_add_of_le hle
    exact ⟨hval ▸ (a + b).isLt, hval⟩
  · rintro ⟨hlt, hc⟩
    have hval : (a + b).val = a.val + b.val := by
      rw [Fin.val_add, Nat.mod_eq_of_lt hlt]
    have hle : a ≤ a + b := by
      rw [Fin.le_def, hval]
      exact Nat.le_add_right a.val b.val
    rw [if_pos hle, except_pure, Fin.ext (hc.trans hval.symm)]

theorem safeSub_eq_ok {a b c : Uint256} :
    safeSub a b = .ok c ↔ b ≤ a ∧ c.val = a.val - b.val := by
  unfold safeSub
  constructor
  · intro h
    split_ifs at h with hle
    cases h
    exact ⟨hle, val_sub_of_le hle⟩
  · rintro ⟨hle, hc⟩
    rw [if_pos hle, except_pure, Fin.ext (hc.trans (val_sub_of_le hle).symm)]

theorem safeMul_eq_ok {a b c : Uint256} :
    safeMul a b = .ok c ↔ a.val * b.val < 2 ^ 256 ∧ c.val = a.val * b.val := by
  unfold safeMul
  by_cases ha : a = 0
  · subst ha
    simp only [if_pos, except_pure, Except.ok.injEq, Fin.val_zero, Nat.zero_mul]
    constructor
    · rintro rfl
      exact ⟨Nat.two_pow_pos 256, rfl⟩
    · rintro ⟨-, hc⟩
      exact (Fin.ext hc).symm
  · have hpos : 0 < a.val := Nat.pos_of_ne_zero (Fin.val_ne_iff.2 ha)
    rw [if_neg ha]
    dsimp only
    have hcheck : a * b / a = b ↔ a.val * b.val < 2 ^ 256 := by
      rw [Fin.ext_iff, Fin.div_val, Fin.val_mul]
      constructor
      · intro hdiv
        have hle : b.val * a.val ≤ a.val * b.val % 2 ^ 256 :=
          calc b.val * a.val = a.val * b.val % 2 ^ 256 / a.val * a.val := by rw [hdiv]
            _ ≤ a.val * b.val % 2 ^ 256 := Nat.div_mul_le_self _ a.val
        have hmod := Nat.mod_lt (a.val * b.val) (Nat.two_pow_pos 256)
        rw [Nat.mul_comm] at hle
        exact lt_of_le_of_lt hle hmod
      · intro hlt
        rw [Nat.mod_eq_of_lt hlt, Nat.mul_div_cancel_left _ hpos]
    by_cases hfit : a.val * b.val < 2 ^ 256
    · have hval : (a * b).val = a.val * b.val := by
        rw [Fin.val_mul, Nat.mod_eq_of_lt hfit]
      rw [if_pos (hcheck.2 hfit), except_pure, Except.ok.injEq]
      exact ⟨fun h ↦ ⟨hfit, h ▸ hval⟩, fun h ↦ Fin.ext (hval.trans h.2.symm)⟩
    · rw [if_neg (mt hcheck.1 hfit)]
      exact ⟨fun h ↦ (by cases h), fun h ↦ absurd h.1 hfit⟩

theorem safeDiv_eq_ok {a b c : Uint256} :
    safeDiv a b = .ok c ↔ b ≠ 0 ∧ c.val = a.val / b.val := by
  unfold safeDiv
  by_cases hb : b = 0
  · simp [hb]
  · rw [if_neg hb, except_pure, Except.ok.injEq, ← Fin.div_val]
    exact ⟨fun h ↦ ⟨hb, h ▸ rfl⟩, fun h ↦ Fin.ext h.2.symm⟩

/-! ## Shares of a pool

A pool paid out in proportion, each part rounded down by Solidity's division, never pays out
more than the pool. -/

theorem sum_map_div_le {ι : Type} (l : List ι) (f : ι → ℕ) (d : ℕ) :
    (l.map fun i ↦ f i / d).sum ≤ (l.map f).sum / d := by
  induction l with
  | nil => simp
  | cons i l ih =>
    simp only [List.map_cons, List.sum_cons]
    calc f i / d + (l.map fun i ↦ f i / d).sum ≤ f i / d + (l.map f).sum / d :=
          Nat.add_le_add_left ih _
      _ ≤ (f i + (l.map f).sum) / d := Nat.div_add_div_le_add_div

/-- **Proportional parts fit the pool.** The parts `⌊T·x_i/X⌋` of a pool `T`, for `X` the sum of
the `x_i`, add up to at most `T`. -/
theorem sum_mul_div_sum_le {ι : Type} (T : ℕ) (l : List ι) (x : ι → ℕ) :
    (l.map fun i ↦ T * x i / (l.map x).sum).sum ≤ T :=
  calc (l.map fun i ↦ T * x i / (l.map x).sum).sum
      ≤ (l.map fun i ↦ T * x i).sum / (l.map x).sum := sum_map_div_le l _ _
    _ = T * (l.map x).sum / (l.map x).sum := by rw [List.sum_map_mul_left]
    _ ≤ T := Nat.div_le_of_le_mul (Nat.le_of_eq (Nat.mul_comm _ _))

end BokerChain.Library.Solidity
