import BokerChain.Consensus.Dpos
import BokerChain.Library.Imperative

/-!
# Agreement of the miner's and the importer's producer

The miner asks `GetProducer(t, g)` with the genesis time `g`, the importer
`GetProducer(t, p)` with the parent's time `p`.  For header times on the slot grid (`t - g` and
`p - g` multiples of `ProducerInterval`, with `g ≤ p < t`), this module proves that the two
agree on an epoch list of one validator, the shipped `MaxValidatorSize`: the miner produces
exactly when the importer's seal check would accept the block and the signer is not the zero
address.  It then exhibits two validators, the smallest larger list, on which the miner
produces a block that the importer rejects.
-/

namespace BokerChain.Dpos

open Library

/-! ## Times on the slot grid -/

/-- Three header times on the producers' slot grid: the genesis time `g`, a parent's time `p`
and its child's time `t`, increasing, below `2^62`, and each a whole number of five-second slots
after the genesis time. -/
structure SlotTimes (g p t : Nat) : Prop where
  genesis_le : g ≤ p
  parent_lt : p < t
  time_lt : t < 2 ^ 62
  parent_slot : 5 ∣ p - g
  time_slot : 5 ∣ t - g

theorem producerInterval_toInt : Protocol.producerInterval.toInt = 5 := by decide

theorem epochInterval_toInt : Protocol.epochInterval.toInt = 86400 := by decide

theorem onGrid_of_dvd {a b : Nat} (hab : a ≤ b) (hb : b < 2 ^ 63) (h5 : 5 ∣ b - a) :
    (Int64.ofNat b - Int64.ofNat a) % Protocol.epochInterval % Protocol.producerInterval = 0 := by
  have hsub := GoInt64.toInt_ofNat_sub_ofNat hab hb
  have hnonneg : 0 ≤ (Int64.ofNat b - Int64.ofNat a).toInt := by omega
  have hmod := GoInt64.toInt_mod_of_nonneg (m := Protocol.epochInterval) hnonneg
  apply Int64.toInt_inj.mp
  rw [GoInt64.toInt_mod_of_nonneg (by rw [hmod, epochInterval_toInt]; omega), hmod, hsub,
    epochInterval_toInt, producerInterval_toInt]
  simp only [Int64.toInt_zero]
  omega

namespace SlotTimes

variable {g p t : Nat}

theorem grid_genesis (hs : SlotTimes g p t) :
    (Int64.ofNat t - Int64.ofNat g) % Protocol.epochInterval % Protocol.producerInterval = 0 :=
  onGrid_of_dvd (by have := hs.genesis_le; have := hs.parent_lt; omega)
    (by have := hs.time_lt; omega) hs.time_slot

theorem grid_parent (hs : SlotTimes g p t) :
    (Int64.ofNat t - Int64.ofNat p) % Protocol.epochInterval % Protocol.producerInterval = 0 := by
  have hdvd : 5 ∣ t - p := by
    have h1 := hs.parent_slot
    have h2 := hs.time_slot
    have := hs.genesis_le
    have := hs.parent_lt
    omega
  exact onGrid_of_dvd hs.parent_lt.le (by have := hs.time_lt; omega) hdvd

theorem nextSlot_add (hs : SlotTimes g p t) :
    nextSlot (Int64.ofNat t - Int64.ofNat g) + Int64.ofNat g = Int64.ofNat t := by
  have hgt : g ≤ t := by have := hs.genesis_le; have := hs.parent_lt; omega
  have ht := hs.time_lt
  have hd := GoInt64.toInt_ofNat_sub_ofNat hgt (by omega)
  have hplus : (Int64.ofNat t - Int64.ofNat g + Protocol.producerInterval).toInt =
      ((t : Int) - g) + 5 := by
    rw [Int64.toInt_add, hd, producerInterval_toInt]
    exact GoInt64.bmod_of_small (by omega) (by omega)
  have hstep : (Int64.ofNat t - Int64.ofNat g + Protocol.producerInterval - 1).toInt =
      ((t : Int) - g) + 4 := by
    rw [Int64.toInt_sub, hplus, Int64.toInt_one]
    rw [GoInt64.bmod_of_small (by omega) (by omega)]
    ring
  have hquot := GoInt64.toInt_div_of_nonneg (m := Protocol.producerInterval)
    (by rw [hstep]; omega) (by rw [producerInterval_toInt]; omega)
  rw [hstep, producerInterval_toInt] at hquot
  have hdvd := hs.time_slot
  have hslot : (nextSlot (Int64.ofNat t - Int64.ofNat g)).toInt = (t : Int) - g := by
    rw [nextSlot, Int64.toInt_mul, hquot, producerInterval_toInt]
    rw [GoInt64.bmod_of_small (by omega) (by omega)]
    omega
  apply Int64.toInt_inj.mp
  rw [Int64.toInt_add, hslot, Int64.toInt_ofNat_of_lt (by omega),
    Int64.toInt_ofNat_of_lt (by omega)]
  rw [GoInt64.bmod_of_small (by omega) (by omega)]
  omega

theorem checkDeadline_ok (hs : SlotTimes g p t) :
    checkDeadline (Int64.ofNat p) (Int64.ofNat t) (Int64.ofNat g) = .ok () := by
  have ht := hs.time_lt
  have hpt := hs.parent_lt
  have hlate : ¬ Int64.ofNat t ≤ Int64.ofNat p := by
    rw [Int64.le_iff_toInt_le, Int64.toInt_ofNat_of_lt (by omega),
      Int64.toInt_ofNat_of_lt (by omega)]
    omega
  simp [checkDeadline, hs.nextSlot_add, hlate, hs.grid_genesis]

end SlotTimes

/-! ## One validator -/

section Single

variable {dc : DposContext} {v : Address}

theorem getProducer_of_single (hdc : dc.epochValidators = some [v]) {now first : Int64}
    (hgrid : (now - first) % Protocol.epochInterval % Protocol.producerInterval = 0) :
    dc.getProducer now first = .ok v := by
  have hone : Int64.ofNat [v].length = 1 := rfl
  have hindex : goIndex [v] ((now - first) % Protocol.epochInterval /
      Protocol.producerInterval % Int64.ofNat [v].length) = .ok v := by
    rw [hone, Int64.mod_one]
    rfl
  simp only [DposContext.getProducer, DposContext.slotHolder, DposContext.getEpochTrie, hdc,
    hgrid, ne_eq, not_true_eq_false, if_false]
  exact hindex

/-- With one validator, the miner produces at a slot on top of the parent exactly when the
importer's producer check accepts the block it seals, and its signer is not the zero
address. -/
theorem mintBlock_iff_seal_of_single {g p t : Nat} (hs : SlotTimes g p t)
    (hdc : dc.epochValidators = some [v]) (s : Address) :
    mintBlock s dc (.ofNat p) (.ofNat g) (.ofNat t) = .ok () ↔
      (dc.getProducer (.ofNat t) (.ofNat p) >>= fun producer ↦
        verifyBlockSigner producer (.ok s) s) = .ok () ∧ s ≠ 0 := by
  have hminer := getProducer_of_single hdc hs.grid_genesis
  have himporter := getProducer_of_single hdc hs.grid_parent
  have hlist : dc.getEpochTrie = .ok [v] := by simp [DposContext.getEpochTrie, hdc]
  rw [himporter]
  simp only [mintBlock, checkProducer, hlist, hs.checkDeadline_ok, hminer,
    Imperative.except_ok_bind, verifyBlockSigner]
  by_cases hsv : s = v
  · subst hsv
    by_cases hzero : s = 0 <;> simp [hzero]
  · simp [hsv, Ne.symm hsv]

/-- One validator `3`, genesis at 0, parent at 5 and block at 10: the miner with signer `3`
produces, and the importer's producer check accepts the seal of `3`. -/
theorem single_validator_seal_accepted :
    SlotTimes 0 5 10 ∧ (⟨some [3], ∅, ∅⟩ : DposContext).epochValidators = some [3] ∧
      mintBlock 3 ⟨some [3], ∅, ∅⟩ (.ofNat 5) (.ofNat 0) (.ofNat 10) = .ok () ∧
      ((⟨some [3], ∅, ∅⟩ : DposContext).getProducer (.ofNat 10) (.ofNat 5) >>= fun producer ↦
        verifyBlockSigner producer (.ok 3) 3) = .ok () := by
  have hs : SlotTimes 0 5 10 := ⟨by omega, by omega, by norm_num, by decide, by decide⟩
  have hdc : (⟨some [3], ∅, ∅⟩ : DposContext).epochValidators = some [3] := rfl
  have hmint : mintBlock 3 ⟨some [3], ∅, ∅⟩ (.ofNat 5) (.ofNat 0) (.ofNat 10) = .ok () := by
    decide
  exact ⟨hs, hdc, hmint, ((mintBlock_iff_seal_of_single hs hdc 3).1 hmint).1⟩

end Single

/-! ## Two validators -/

/-- An epoch list of two validators, `1` and `2`. -/
def twoValidators : DposContext := ⟨some [1, 2], ∅, ∅⟩

/-- Genesis at time 0, parent at 5, block at 10: the miner with signer `1` produces, the slot
being the second since genesis; the importer counts from the parent, finds the first slot and
expects validator `2`, so the seal of `1` is refused. -/
theorem minted_block_rejected_by_importer :
    mintBlock 1 twoValidators 5 0 10 = .ok () ∧ twoValidators.getProducer 10 5 = .ok 2 ∧
      verifyBlockSigner 2 (.ok 1) 1 = .error .errInvalidProducer := by
  decide

end BokerChain.Dpos
