import BokerChain.Core.BlockChain
import BokerChain.Consensus.ValidatorSet
import BokerChain.Consensus.ProducerAgreement

/-!
# Counting the blocks of each epoch

`Dpos.Finalize` counts every block for its validator in the epoch of its time
(`updateMintCnt`), under the 8-byte big-endian epoch followed by the validator.  The count goes
on from the trie's entry when the parent is in the same epoch, and starts at one otherwise; the
iterator test `iter.Next()` only decides whether the lookup is made.

Along a chain with strictly increasing times the parent's epoch is never behind an epoch already
counted, so a block in a new epoch finds no entry to go on from, and the trie holds, under each
epoch and validator, the number of blocks of the chain in that epoch by that validator
(`block_counts_exact`).  The epoch is taken of the header's time read as a Go `int64`
(`Header.Time.Int64()`), which is the epoch of the time itself only below `2^63`; every header the
importer accepts is below that, since `verifyHeader` refuses a header later than the clock
`time.Now().Unix()` (`time_lt_of_verified`).
-/

namespace BokerChain.Dpos

open Library GoInt64

/-- The epoch of a time: `Time / EpochInterval` of the header's unbounded time. -/
def epochOf (time : Nat) : Nat := time / Protocol.epochInterval.toInt.toNat

/-- The blocks of `headers` that `validator` minted in `epoch`. -/
def mintedIn (headers : List Header) (epoch : Nat) (validator : Address) : Nat :=
  (headers.filter fun h ↦ epochOf h.time = epoch ∧ h.validator = validator).length

/-- What the block-count trie should hold once `headers` are counted: under an epoch and a
validator, the number of their blocks, and no entry where there are none. -/
def expectedCnt (headers : List Header) (key : UInt64 × Address) : Option UInt64 :=
  if mintedIn headers key.1.toNat key.2 = 0 then none
  else some (UInt64.ofNat (mintedIn headers key.1.toNat key.2))

/-- The block-count trie holds the counts of `headers`. -/
def Counts (headers : List Header) (cnt : AList fun _ : UInt64 × Address ↦ UInt64) : Prop :=
  ∀ key, cnt.lookup key = expectedCnt headers key

/-- `Finalize` along a chain: each header counted by `updateMintCnt` against its parent, the
first against `parent`. -/
def countChain : Header → List Header → DposContext → DposContext
  | _, [], dc => dc
  | parent, header :: headers, dc =>
    countChain header headers (updateMintCnt parent.time64 header.time64 header.validator dc)

/-! ## The epoch of an `int64` time -/

section Epochs

variable {t t' : Nat}

theorem epochOf_le_epochOf (h : t ≤ t') : epochOf t ≤ epochOf t' :=
  Nat.div_le_div_right h

theorem epochOf_lt (ht : t < 2 ^ 63) : epochOf t < 2 ^ 63 :=
  lt_of_le_of_lt (Nat.div_le_self _ _) ht

theorem toInt_time_div (ht : t < 2 ^ 63) :
    (Int64.ofNat t / Protocol.epochInterval).toInt = epochOf t := by
  have hpos : 0 ≤ (Int64.ofNat t).toInt := by
    rw [Int64.toInt_ofNat_of_lt ht]
    omega
  rw [toInt_div_of_nonneg hpos (by rw [epochInterval_toInt]; omega), Int64.toInt_ofNat_of_lt ht,
    epochInterval_toInt, epochOf, epochInterval_toInt]
  push_cast
  rfl

theorem toUInt64_time_div (ht : t < 2 ^ 63) :
    (Int64.ofNat t / Protocol.epochInterval).toUInt64 = UInt64.ofNat (epochOf t) := by
  have hnonneg : 0 ≤ (Int64.ofNat t / Protocol.epochInterval).toInt := by
    rw [toInt_time_div ht]
    omega
  apply UInt64.toNat_inj.1
  rw [toNat_toUInt64_of_nonneg hnonneg, toInt_time_div ht, UInt64.toNat_ofNat',
    Nat.mod_eq_of_lt (by have := epochOf_lt ht; omega)]
  simp

theorem time_div_eq_iff (ht : t < 2 ^ 63) (ht' : t' < 2 ^ 63) :
    Int64.ofNat t / Protocol.epochInterval = Int64.ofNat t' / Protocol.epochInterval ↔
      epochOf t = epochOf t' := by
  rw [← Int64.toInt_inj, toInt_time_div ht, toInt_time_div ht']
  exact Int.ofNat_inj

theorem toNat_ofNat_epochOf (ht : t < 2 ^ 63) : (UInt64.ofNat (epochOf t)).toNat = epochOf t := by
  rw [UInt64.toNat_ofNat', Nat.mod_eq_of_lt]
  have := epochOf_lt ht
  omega

end Epochs

/-! ## Counting one block -/

section Step

variable {seen : List Header} {e : Nat} {v : Address}

theorem mintedIn_append_single (seen : List Header) (h : Header) (e : Nat) (v : Address) :
    mintedIn (seen ++ [h]) e v =
      mintedIn seen e v + if epochOf h.time = e ∧ h.validator = v then 1 else 0 := by
  unfold mintedIn
  rw [List.filter_append, List.length_append]
  by_cases hc : epochOf h.time = e ∧ h.validator = v <;> simp [hc]

theorem mintedIn_eq_zero (hlt : ∀ h ∈ seen, epochOf h.time < e) : mintedIn seen e v = 0 := by
  unfold mintedIn
  rw [List.length_eq_zero_iff, List.filter_eq_nil_iff]
  intro h hh hc
  have hne := (hlt h hh).ne
  simp only [decide_eq_true_eq] at hc
  exact hne hc.1

theorem Counts.lookup_of_pos {cnt : AList fun _ : UInt64 × Address ↦ UInt64}
    (hcounts : Counts seen cnt) {key : UInt64 × Address}
    (hpos : mintedIn seen key.1.toNat key.2 ≠ 0) :
    cnt.lookup key = some (UInt64.ofNat (mintedIn seen key.1.toNat key.2)) := by
  rw [hcounts, expectedCnt, if_neg hpos]

variable {parent header : Header} {dc : DposContext}

theorem updateMintCnt_eq (hcounts : Counts seen dc.blockCntTrie)
    (hseen : ∀ h ∈ seen, h.time ≤ parent.time) (hpt : parent.time < header.time)
    (hbound : header.time < 2 ^ 63) :
    updateMintCnt parent.time64 header.time64 header.validator dc =
      { dc with blockCntTrie := (dc.blockCntTrie.insert
          (UInt64.ofNat (epochOf header.time), header.validator)
          (UInt64.ofNat (mintedIn seen (epochOf header.time) header.validator + 1))) } := by
  have hparent : parent.time < 2 ^ 63 := by omega
  have hkey : (UInt64.ofNat (epochOf header.time)).toNat = epochOf header.time :=
    toNat_ofNat_epochOf hbound
  unfold updateMintCnt
  simp only [Header.time64, toUInt64_time_div hbound, toUInt64_time_div hparent]
  congr 3
  split
  · next hcont =>
    rw [toUInt64_time_div hparent, (time_div_eq_iff hparent hbound).1 hcont.1]
    split
    · next c hc =>
      rw [hcounts, expectedCnt] at hc
      split at hc
      · cases hc
      · next hpos =>
        cases hc
        simp only [hkey]
        rw [UInt64.ofNat_add]
        rfl
    · next hc =>
      rw [hcounts, expectedCnt] at hc
      split at hc
      · next hzero =>
        simp only [hkey] at hzero
        rw [hzero]
        rfl
      · cases hc
  · next hcont =>
    have hzero : mintedIn seen (epochOf header.time) header.validator = 0 := by
      by_cases hsame : epochOf parent.time = epochOf header.time
      · by_contra hpos
        apply hcont
        refine ⟨(time_div_eq_iff hparent hbound).2 hsame, ?_⟩
        rw [List.any_eq_true]
        refine ⟨(UInt64.ofNat (epochOf header.time), header.validator), ?_, ?_⟩
        · rw [← AList.mem_keys, ← AList.lookup_isSome,
            hcounts.lookup_of_pos (by simpa only [hkey] using hpos)]
          rfl
        · rw [hsame]
          simp
      · apply mintedIn_eq_zero
        intro h hh
        have hle := epochOf_le_epochOf (hseen h hh)
        have hle' := epochOf_le_epochOf hpt.le
        omega
    rw [hzero]
    rfl

/-- One block keeps the trie holding the counts. -/
theorem Counts.updateMintCnt (hcounts : Counts seen dc.blockCntTrie)
    (hseen : ∀ h ∈ seen, h.time ≤ parent.time) (hpt : parent.time < header.time)
    (hbound : header.time < 2 ^ 63) :
    Counts (seen ++ [header])
      (Dpos.updateMintCnt parent.time64 header.time64 header.validator dc).blockCntTrie := by
  rw [updateMintCnt_eq hcounts hseen hpt hbound]
  intro key
  by_cases hkey : key = (UInt64.ofNat (epochOf header.time), header.validator)
  · subst hkey
    rw [AList.lookup_insert, expectedCnt, mintedIn_append_single, toNat_ofNat_epochOf hbound]
    simp
  · rw [AList.lookup_insert_ne hkey, hcounts, expectedCnt, expectedCnt, mintedIn_append_single]
    have hother : ¬(epochOf header.time = key.1.toNat ∧ header.validator = key.2) := by
      rintro ⟨hepoch, hvalidator⟩
      apply hkey
      rw [hepoch, hvalidator, UInt64.ofNat_toNat]
    rw [if_neg hother, Nat.add_zero]

end Step

/-! ## Counting a chain -/

theorem Counts.countChain : ∀ (headers : List Header) {parent : Header} {seen : List Header}
    {dc : DposContext}, Counts seen dc.blockCntTrie → (∀ h ∈ seen, h.time ≤ parent.time) →
    List.IsChain (· < ·) ((parent :: headers).map Header.time) →
    (∀ h ∈ headers, h.time < 2 ^ 63) →
    Counts (seen ++ headers) (Dpos.countChain parent headers dc).blockCntTrie
  | [], _, seen, _, hcounts, _, _, _ => by
    rw [List.append_nil]
    exact hcounts
  | header :: headers, parent, seen, dc, hcounts, hseen, hchain, hbound => by
    rw [List.map_cons, List.map_cons, List.isChain_cons_cons] at hchain
    have hstep := hcounts.updateMintCnt hseen hchain.1 (hbound header List.mem_cons_self)
    have hrest := Counts.countChain headers hstep ?_ hchain.2
      fun h hh ↦ hbound h (List.mem_cons_of_mem _ hh)
    · rw [List.append_cons]
      exact hrest
    · intro h hh
      rw [List.mem_append, List.mem_singleton] at hh
      rcases hh with hh | rfl
      · exact le_of_lt (lt_of_le_of_lt (hseen h hh) hchain.1)
      · exact le_refl _

/-- **Per-epoch block counting is exact.** Along a chain of increasing times that the importer
verified, from the genesis context, the block-count trie holds under each epoch and validator the
number of blocks of the chain in that epoch by that validator, and no entry where there are
none. -/
theorem block_counts_exact {c : Crypto} {config : ChainConfig} {genesis : Header}
    {headers : List Header} (hincr : List.IsChain (· < ·) ((genesis :: headers).map Header.time))
    (himported : (genesis :: headers).IsChain fun parent header ↦ Verified c config header parent)
    (epoch : UInt64) (validator : Address) :
    (countChain genesis headers DposContext.genesis).blockCntTrie.lookup (epoch, validator) =
      if mintedIn headers epoch.toNat validator = 0 then none
      else some (UInt64.ofNat (mintedIn headers epoch.toNat validator)) := by
  have hempty : Counts [] DposContext.genesis.blockCntTrie := fun key ↦ by
    simp [DposContext.genesis, DposContext.empty, DposContext.setEpochTrie, expectedCnt, mintedIn]
  have hcounts := Counts.countChain headers hempty (fun h hh ↦ absurd hh List.not_mem_nil) hincr
    (time_lt_of_verified himported)
  rw [List.nil_append] at hcounts
  exact hcounts (epoch, validator)

/-- Primitives under which every hash is zero. -/
def zeroCrypto : Crypto := ⟨fun _ ↦ 0, fun _ _ ↦ .error .errRecoverFailed⟩

/-- A header at `number` and `time` minted by `validator`, with room for the vanity and the seal:
under `zeroCrypto`, `verifyHeader` accepts it on a parent one number below and five seconds
earlier. -/
def headerAt (number time : Nat) (validator : Address) : Header :=
  ⟨0, 0, validator, 0, 0, 0, 0, ⟨0, 0, 0⟩, ⟨0, 0, 0⟩, 0, 1, number, 0, 0, time,
    List.replicate 97 0, 0, 0⟩

theorem block_counts_exact_two_blocks :
    List.IsChain (· < ·) ((headerAt 0 0 0 :: [headerAt 1 5 1, headerAt 2 10 1]).map Header.time) ∧
      (headerAt 0 0 0 :: [headerAt 1 5 1, headerAt 2 10 1]).IsChain
        (fun parent header ↦ Verified zeroCrypto openConfig header parent) ∧
      (countChain (headerAt 0 0 0) [headerAt 1 5 1, headerAt 2 10 1]
          DposContext.genesis).blockCntTrie.lookup (0, 1) =
        if mintedIn [headerAt 1 5 1, headerAt 2 10 1] (0 : UInt64).toNat 1 = 0 then none
        else some (UInt64.ofNat (mintedIn [headerAt 1 5 1, headerAt 2 10 1] (0 : UInt64).toNat 1)) := by
  have hchain : List.IsChain (· < ·)
      ((headerAt 0 0 0 :: [headerAt 1 5 1, headerAt 2 10 1]).map Header.time) := by decide
  have himported : (headerAt 0 0 0 :: [headerAt 1 5 1, headerAt 2 10 1]).IsChain
      (fun parent header ↦ Verified zeroCrypto openConfig header parent) := by
    simp only [List.isChain_cons_cons, List.isChain_singleton, and_true]
    exact ⟨⟨5, by norm_num, by decide⟩, ⟨10, by norm_num, by decide⟩⟩
  exact ⟨hchain, himported, block_counts_exact hchain himported 0 1⟩

end BokerChain.Dpos
