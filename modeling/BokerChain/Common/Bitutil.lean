import BokerChain.Protocol
import BokerChain.Library.Imperative

/-!
# Sparse bitset compression

`common/bitutil/compress.go`.  A byte string with many zero bytes is stored as a bitset of its
non-zero positions followed by the non-zero bytes, and the bitset is itself compressed the same
way, until it is a single byte.  `CompressBytes` keeps the input when that is not shorter, and
`DecompressBytes` tells the two apart by the length it is given.

The decoder indexes slices whose bounds come from the data it reads, so a Go run-time panic is
one of its outcomes here: `Failure.panic`, next to the four error values of the package.  The
target length of `bitsetDecodePartialBytes` is a natural number: `DecompressBytes` hands it on
only when it exceeds the length of the input.
-/

namespace BokerChain.Bitutil

open Library.Imperative

/-- The error values of the package. -/
inductive Error where
  /-- A byte referenced by the bitset header is past the input. -/
  | errMissingData
  /-- Not all input bytes were used up. -/
  | errUnreferencedData
  /-- The header has more bits than the target has bytes. -/
  | errExceededTarget
  /-- A data byte referenced in the header is zero. -/
  | errZeroContent
  deriving DecidableEq, Repr

/-- How a call of the decoder can fail: with an error value, or with a run-time panic. -/
inductive Failure where
  | error (e : Error)
  | panic
  deriving DecidableEq, Repr

/-- Go's `s[i]`: a run-time panic when `i` is out of range. -/
def getAt (s : Bytes) (i : Nat) : Except Failure UInt8 :=
  match s[i]? with
  | some b => pure b
  | none => throw .panic

/-- Go's `s[i] = v`: a run-time panic when `i` is out of range. -/
def setAt (s : Bytes) (i : Nat) (v : UInt8) : Except Failure Bytes :=
  if i < s.length then pure (s.set i v) else throw .panic

/-- `1 << byte(7-i%8)`: the mask of bit `i` of a bitset in its byte, most significant first. -/
def bitMask (i : Nat) : UInt8 :=
  1 <<< (7 - i % 8).toUInt8

/-! ## Compression -/

/-- One round of the loop of `bitsetEncodeBytes` over `data`: a non-zero byte `b` at index `i`
is appended to the non-zero bytes and sets bit `i` of the bitset. -/
def gatherStep (acc : Bytes × Bytes) (entry : UInt8 × Nat) : Bytes × Bytes :=
  if entry.1 ≠ 0 then
    (acc.1.modify (entry.2 / 8) (· ||| bitMask entry.2), acc.2 ++ [entry.1])
  else acc

/-- The loop of `bitsetEncodeBytes`: the bitset of set bytes, `(len(data)+7)/8` bytes long, and
the non-zero bytes in order. -/
def gatherNonZero (data : Bytes) : Bytes × Bytes :=
  data.zipIdx.foldl gatherStep (List.replicate ((data.length + 7) / 8) 0, [])

theorem length_foldl_gatherStep (l : List (UInt8 × Nat)) (acc : Bytes × Bytes) :
    (l.foldl gatherStep acc).1.length = acc.1.length := by
  induction l generalizing acc with
  | nil => rfl
  | cons entry l ih =>
    rw [List.foldl_cons, ih]
    unfold gatherStep
    split <;> simp

theorem length_gatherNonZero_fst (data : Bytes) :
    (gatherNonZero data).1.length = (data.length + 7) / 8 := by
  rw [gatherNonZero, length_foldl_gatherStep, List.length_replicate]

/-- `bitsetEncodeBytes`. -/
def bitsetEncodeBytes (data : Bytes) : Bytes :=
  -- Empty slices get compressed to nil
  if data.length = 0 then []
  -- One byte slices compress to nil or retain the single byte
  else if h : data.length = 1 then
    if data[0] = 0 then [] else data
  else
    let gathered := gatherNonZero data
    if gathered.2.length = 0 then []
    else bitsetEncodeBytes gathered.1 ++ gathered.2
termination_by data.length
decreasing_by
  rw [length_gatherNonZero_fst]
  omega

/-- `CompressBytes`: the bitset encoding when it is shorter, else a copy of the input. -/
def compressBytes (data : Bytes) : Bytes :=
  let out := bitsetEncodeBytes data
  if out.length < data.length then out else data

/-! ## Decompression -/

/-- One round of the loop of `bitsetDecodePartialBytes` that distributes the non-zero bytes:
bit `i` of the bitset, with the output so far and the read position `ptr` in `data`. -/
def distribute (data nonZeroBitset : Bytes) (st : Bytes × Nat) (i : Nat) :
    Except Failure (Bytes × Nat) := do
  let bits ← getAt nonZeroBitset (i / 8)
  if bits &&& bitMask i ≠ 0 then
    let (decomp, ptr) := st
    -- Make sure we have enough data to push into the correct slot
    if data.length ≤ ptr then throw (.error .errMissingData)
    if decomp.length ≤ i then throw (.error .errExceededTarget)
    -- Make sure the data is valid and push into the slot
    let b ← getAt data ptr
    if b = 0 then throw (.error .errZeroContent)
    let decomp ← setAt decomp i b
    return (decomp, ptr + 1)
  else return st

/-- `bitsetDecodePartialBytes`: the decompressed output and the length of input it used. -/
def bitsetDecodePartialBytes (data : Bytes) (target : Nat) : Except Failure (Bytes × Nat) :=
  -- Sanity check 0 targets to avoid infinite recursion
  if target = 0 then pure ([], 0)
  else
    -- Handle the zero and single byte corner cases
    let decomp := List.replicate target 0
    if data.length = 0 then pure (decomp, 0)
    else if target = 1 then do
      let b ← getAt data 0
      let decomp ← setAt decomp 0 b
      if b ≠ 0 then return (decomp, 1) else return (decomp, 0)
    else do
      -- Decompress the bitset of set bytes and distribute the non zero bytes
      let (nonZeroBitset, ptr) ← bitsetDecodePartialBytes data ((target + 7) / 8)
      (List.range (8 * nonZeroBitset.length)).foldlM (distribute data nonZeroBitset)
        (decomp, ptr)
termination_by target
decreasing_by omega

/-- `bitsetDecodeBytes`: the decoder that must use up its whole input. -/
def bitsetDecodeBytes (data : Bytes) (target : Nat) : Except Failure Bytes := do
  let (out, size) ← bitsetDecodePartialBytes data target
  if size ≠ data.length then throw (.error .errUnreferencedData)
  return out

/-- `DecompressBytes`: input as long as the target was not compressed. -/
def decompressBytes (data : Bytes) (target : Int) : Except Failure Bytes :=
  if target < data.length then throw (.error .errExceededTarget)
  else if (data.length : Int) = target then pure data
  else bitsetDecodeBytes data target.toNat

/-! ## Bits of a bitset -/

theorem toNat_bitMask (i : Nat) : (bitMask i).toNat = 2 ^ (7 - i % 8) := by
  have hbit : 7 - i % 8 < 8 := by omega
  have hpow : 2 ^ (7 - i % 8) < 2 ^ 8 := Nat.pow_lt_pow_right (by norm_num) hbit
  rw [bitMask, UInt8.toNat_shiftLeft, UInt8.toNat_one, Nat.toUInt8_eq, UInt8.toNat_ofNat',
    Nat.one_shiftLeft, Nat.mod_eq_of_lt (by omega : 7 - i % 8 < 2 ^ 8), Nat.mod_eq_of_lt hbit,
    Nat.mod_eq_of_lt hpow]

theorem and_bitMask_ne_zero (b : UInt8) (i : Nat) :
    b &&& bitMask i ≠ 0 ↔ b.toNat.testBit (7 - i % 8) = true := by
  rw [ne_eq, ← UInt8.toNat_inj, UInt8.toNat_and, toNat_bitMask, Nat.and_two_pow]
  cases b.toNat.testBit (7 - i % 8) <;> simp

theorem testBit_bitMask (i k : Nat) : (bitMask i).toNat.testBit k = decide (7 - i % 8 = k) := by
  rw [toNat_bitMask, Nat.testBit_two_pow]

/-- Bit `i` of a bitset is set: its byte exists and has the mask of `i`. -/
def BitSet (bitset : Bytes) (i : Nat) : Prop :=
  ∃ b, bitset[i / 8]? = some b ∧ b &&& bitMask i ≠ 0

theorem not_bitSet_replicate_zero (n i : Nat) : ¬BitSet (List.replicate n 0) i := by
  rintro ⟨b, hb, hmask⟩
  rw [List.getElem?_replicate] at hb
  split at hb
  · cases hb
    exact hmask (by simp)
  · cases hb

theorem bitSet_modify_or {bitset : Bytes} {i : Nat} (hi : i / 8 < bitset.length) (j : Nat) :
    BitSet (bitset.modify (i / 8) (· ||| bitMask i)) j ↔ BitSet bitset j ∨ j = i := by
  by_cases hbyte : i / 8 = j / 8
  · have hj : j / 8 < bitset.length := hbyte ▸ hi
    obtain ⟨b, hb⟩ : ∃ b, bitset[j / 8]? = some b := ⟨_, List.getElem?_eq_getElem hj⟩
    have hsame : (7 - i % 8 = 7 - j % 8) ↔ j = i := by omega
    simp [BitSet, hbyte, hb, and_bitMask_ne_zero, testBit_bitMask, hsame]
  · have hne : j ≠ i := fun h ↦ hbyte (h ▸ rfl)
    simp [BitSet, hbyte, hne]

/-- `bitset` has bit `j` set exactly when byte `j` of `data` is non-zero. -/
def Marks (bitset data : Bytes) : Prop :=
  ∀ j, BitSet bitset j ↔ ∃ b, data[j]? = some b ∧ b ≠ 0

theorem snd_foldl_gatherStep (data : Bytes) (k : Nat) (acc : Bytes × Bytes) :
    ((data.zipIdx k).foldl gatherStep acc).2 = acc.2 ++ data.filter (· ≠ 0) := by
  induction data generalizing k acc with
  | nil => simp
  | cons b data ih =>
    rw [List.zipIdx_cons, List.foldl_cons, ih]
    unfold gatherStep
    by_cases hb : b = 0 <;> simp [hb]

theorem bitSet_gatherStep {acc : Bytes × Bytes} {k : Nat} (hk : k / 8 < acc.1.length)
    (b : UInt8) (j : Nat) :
    BitSet (gatherStep acc (b, k)).1 j ↔ BitSet acc.1 j ∨ (j = k ∧ b ≠ 0) := by
  unfold gatherStep
  by_cases hb : b = 0
  · simp [hb]
  · simp [hb, bitSet_modify_or hk]

theorem bitSet_foldl_gatherStep (data : Bytes) (k : Nat) (acc : Bytes × Bytes)
    (hlen : k + data.length ≤ 8 * acc.1.length) (j : Nat) :
    BitSet ((data.zipIdx k).foldl gatherStep acc).1 j ↔
      BitSet acc.1 j ∨ (k ≤ j ∧ ∃ b, data[j - k]? = some b ∧ b ≠ 0) := by
  induction data generalizing k acc with
  | nil => simp
  | cons b data ih =>
    have hk : k / 8 < acc.1.length := by simp at hlen; omega
    have hlen' : k + 1 + data.length ≤ 8 * (gatherStep acc (b, k)).1.length := by
      have hsame := length_foldl_gatherStep [(b, k)] acc
      rw [List.foldl_cons, List.foldl_nil] at hsame
      simp only [List.length_cons] at hlen
      omega
    rw [List.zipIdx_cons, List.foldl_cons, ih (k + 1) _ hlen', bitSet_gatherStep hk]
    rcases Nat.lt_trichotomy j k with hlt | heq | hgt
    · have h1 : ¬k ≤ j := by omega
      have h2 : ¬k + 1 ≤ j := by omega
      simp [h1, h2, hlt.ne]
    · subst heq
      simp
    · obtain ⟨n, rfl⟩ : ∃ n, j = k + 1 + n := ⟨j - (k + 1), by omega⟩
      have h1 : k + 1 + n - k = n + 1 := by omega
      simp [h1, show k + 1 + n ≠ k by omega, show k ≤ k + 1 + n by omega]

theorem marks_gatherNonZero (data : Bytes) : Marks (gatherNonZero data).1 data := by
  intro j
  rw [gatherNonZero, bitSet_foldl_gatherStep data 0 _ (by simp; omega)]
  simp [not_bitSet_replicate_zero]

theorem snd_gatherNonZero (data : Bytes) : (gatherNonZero data).2 = data.filter (· ≠ 0) := by
  rw [gatherNonZero, snd_foldl_gatherStep, List.nil_append]

/-! ## The encoder -/

theorem bitsetEncodeBytes_nil : bitsetEncodeBytes [] = [] := by
  rw [bitsetEncodeBytes]
  simp

theorem bitsetEncodeBytes_single (b : UInt8) :
    bitsetEncodeBytes [b] = if b = 0 then [] else [b] := by
  rw [bitsetEncodeBytes]
  simp

theorem bitsetEncodeBytes_of_two_le {data : Bytes} (h : 2 ≤ data.length) :
    bitsetEncodeBytes data = if data.filter (· ≠ 0) = [] then []
      else bitsetEncodeBytes (gatherNonZero data).1 ++ data.filter (· ≠ 0) := by
  rw [bitsetEncodeBytes, dif_neg (by omega), if_neg (by omega)]
  simp only [snd_gatherNonZero, List.length_eq_zero_iff]



theorem bitsetEncodeBytes_ne_nil {data : Bytes} (h : ∃ b ∈ data, b ≠ 0) :
    bitsetEncodeBytes data ≠ [] := by
  obtain ⟨b, hb, hne⟩ := h
  rw [bitsetEncodeBytes]
  split_ifs with hzero hone hfirst
  · simp_all
  · obtain ⟨c, rfl⟩ := List.length_eq_one_iff.1 hone
    simp_all
  · exact fun hnil ↦ by simp [hnil] at hzero
  · dsimp only
    have hfilter : (data.filter (· ≠ 0)).length ≠ 0 := by
      rw [ne_eq, List.length_eq_zero_iff, List.filter_eq_nil_iff]
      exact fun hall ↦ hall b hb (by simpa using hne)
    rw [snd_gatherNonZero, if_neg hfilter]
    intro hnil
    rw [(List.append_eq_nil_iff.1 hnil).2] at hfilter
    exact hfilter rfl

theorem exists_ne_zero_of_marks {bitset data : Bytes} (hmarks : Marks bitset data)
    (h : ∃ b ∈ data, b ≠ 0) : ∃ c ∈ bitset, c ≠ 0 := by
  obtain ⟨b, hb, hne⟩ := h
  obtain ⟨j, hj, rfl⟩ := List.getElem_of_mem hb
  obtain ⟨c, hc, hmask⟩ := (hmarks j).2 ⟨_, List.getElem?_eq_getElem hj, hne⟩
  refine ⟨c, List.mem_of_getElem? hc, ?_⟩
  rintro rfl
  exact hmask (by simp)

/-! ## The decoder on encoded input -/

theorem bitsetDecodePartialBytes_of_nil (target : Nat) :
    bitsetDecodePartialBytes [] target = .ok (List.replicate target 0, 0) := by
  rw [bitsetDecodePartialBytes]
  by_cases h : target = 0
  · simp [h]
  · rw [if_neg h, if_pos List.length_nil]
    rfl

theorem bitsetDecodePartialBytes_single {data : Bytes} {b : UInt8} (hb : data[0]? = some b) :
    bitsetDecodePartialBytes data 1 = .ok ([b], if b ≠ 0 then 1 else 0) := by
  have hne : data.length ≠ 0 := by
    have := (List.getElem?_eq_some_iff.1 hb).1
    omega
  rw [bitsetDecodePartialBytes]
  simp only [one_ne_zero, if_false, hne, if_true, getAt, hb, except_pure, except_ok_bind, setAt,
    List.length_replicate, zero_lt_one]
  by_cases hb0 : b = 0 <;> simp [hb0]

theorem bitsetDecodePartialBytes_of_two_le {data : Bytes} {target : Nat} (h : 2 ≤ target)
    (hdata : data ≠ []) :
    bitsetDecodePartialBytes data target =
      (bitsetDecodePartialBytes data ((target + 7) / 8) >>= fun r ↦
        (List.range (8 * r.1.length)).foldlM (distribute data r.1)
          (List.replicate target 0, r.2)) := by
  rw [bitsetDecodePartialBytes, if_neg (by omega), if_neg (by simpa using hdata),
    if_neg (by omega)]


theorem take_succ_of_getElem? {d : Bytes} {m : Nat} {b : UInt8} (hb : d[m]? = some b) :
    d.take (m + 1) = d.take m ++ [b] := by
  rw [List.take_add_one, hb, Option.toList_some]

theorem getElem?_filter_length_take {d : Bytes} {m : Nat} {b : UInt8} (hb : d[m]? = some b)
    (hne : b ≠ 0) :
    (d.filter (· ≠ 0))[((d.take m).filter (· ≠ 0)).length]? = some b := by
  have hsplit : d.filter (· ≠ 0) = (d.take m).filter (· ≠ 0) ++ b :: (d.drop (m + 1)).filter (· ≠ 0) := by
    conv_lhs => rw [← List.take_append_drop (m + 1) d]
    rw [List.filter_append, take_succ_of_getElem? hb, List.filter_append]
    simp [hne]
  rw [hsplit, List.getElem?_append_right (Nat.le_refl _), Nat.sub_self]
  rfl

/-- The output and read position of the distributing loop after its first `m` rounds on input
that `bitsetEncodeBytes` wrote for `d` after `p` other bytes: the bytes of `d` before `m` are in
place, the rest still zero, and the read position is past the non-zero bytes before `m`. -/
def distributed (d : Bytes) (p m : Nat) : Bytes × Nat :=
  (d.take m ++ List.replicate (d.length - m) 0, p + ((d.take m).filter (· ≠ 0)).length)

theorem distributed_succ_of_zero {d : Bytes} {p m : Nat}
    (h : ¬∃ b, d[m]? = some b ∧ b ≠ 0) : distributed d p (m + 1) = distributed d p m := by
  cases hm : d[m]? with
  | none =>
    have hle : d.length ≤ m := List.getElem?_eq_none_iff.1 hm
    simp [distributed, List.take_of_length_le hle, List.take_of_length_le (Nat.le_succ_of_le hle),
      Nat.sub_eq_zero_of_le hle, Nat.sub_eq_zero_of_le (Nat.le_succ_of_le hle)]
  | some b =>
    have hb : b = 0 := by simpa [hm] using h
    have hlt : m < d.length := (List.getElem?_eq_some_iff.1 hm).1
    subst hb
    have hrep : List.replicate (d.length - m) (0 : UInt8) = 0 :: List.replicate (d.length - (m + 1)) 0 := by
      rw [← List.replicate_succ]
      congr 1
      omega
    simp [distributed, take_succ_of_getElem? hm, hrep]

theorem distributed_succ_of_ne_zero {d : Bytes} {p m : Nat} {b : UInt8} (hb : d[m]? = some b)
    (hne : b ≠ 0) :
    distributed d p (m + 1) = (((distributed d p m).1.set m b), (distributed d p m).2 + 1) := by
  have hlt : m < d.length := (List.getElem?_eq_some_iff.1 hb).1
  have hrep : List.replicate (d.length - m) (0 : UInt8) = 0 :: List.replicate (d.length - (m + 1)) 0 := by
    rw [← List.replicate_succ]
    congr 1
    omega
  have htake : (d.take m).length = m := List.length_take_of_le hlt.le
  simp only [distributed, take_succ_of_getElem? hb, hrep, Prod.mk.injEq]
  constructor
  · rw [List.set_append_right _ _ (by omega), htake, Nat.sub_self]
    simp
  · simp [hne]
    omega

theorem distribute_of_set {data bitset decomp : Bytes} {i ptr : Nat} {c b : UInt8}
    (hc : bitset[i / 8]? = some c) (hset : c &&& bitMask i ≠ 0) (hb : data[ptr]? = some b)
    (hi : i < decomp.length) (hne : b ≠ 0) :
    distribute data bitset (decomp, ptr) i = .ok (decomp.set i b, ptr + 1) := by
  have hptr : ¬data.length ≤ ptr := by
    have := (List.getElem?_eq_some_iff.1 hb).1
    omega
  simp [distribute, getAt, hc, hset, hptr, Nat.not_le.2 hi, hb, hne, setAt, hi]

theorem distribute_of_clear {data bitset : Bytes} {i : Nat} {c : UInt8}
    (hc : bitset[i / 8]? = some c) (hclear : ¬c &&& bitMask i ≠ 0) (st : Bytes × Nat) :
    distribute data bitset st i = .ok st := by
  simp only [distribute, getAt, hc, except_pure, except_ok_bind, if_neg hclear]

section Encoded

variable {d pre rest bitset : Bytes}

theorem distribute_distributed (hmarks : Marks bitset d) {m : Nat}
    (hm : m < 8 * bitset.length) :
    distribute (pre ++ d.filter (· ≠ 0) ++ rest) bitset (distributed d pre.length m) m =
      .ok (distributed d pre.length (m + 1)) := by
  obtain ⟨c, hc⟩ : ∃ c, bitset[m / 8]? = some c :=
    ⟨_, List.getElem?_eq_getElem (by omega : m / 8 < bitset.length)⟩
  by_cases hset : c &&& bitMask m ≠ 0
  · obtain ⟨b, hb, hne⟩ := (hmarks m).1 ⟨c, hc, hset⟩
    have hlt : m < d.length := (List.getElem?_eq_some_iff.1 hb).1
    have hread := getElem?_filter_length_take hb hne
    have hcount : ((d.take m).filter (· ≠ 0)).length < (d.filter (· ≠ 0)).length :=
      (List.getElem?_eq_some_iff.1 hread).1
    have hdata : (pre ++ d.filter (· ≠ 0) ++ rest)[(distributed d pre.length m).2]? = some b := by
      rw [distributed, List.append_assoc, List.getElem?_append_right (by omega),
        Nat.add_sub_cancel_left, List.getElem?_append_left hcount, hread]
    have hlen : m < (distributed d pre.length m).1.length := by
      simp [distributed]
      omega
    rw [distributed_succ_of_ne_zero hb hne]
    exact distribute_of_set hc hset hdata hlen hne
  · have hzero : ¬∃ b, d[m]? = some b ∧ b ≠ 0 := by
      rintro ⟨b, hb, hne⟩
      obtain ⟨c', hc', hmask⟩ := (hmarks m).2 ⟨b, hb, hne⟩
      rw [hc] at hc'
      cases hc'
      exact hset hmask
    rw [distribute_of_clear hc hset, distributed_succ_of_zero hzero]

end Encoded

theorem distributed_zero (d : Bytes) (p : Nat) :
    distributed d p 0 = (List.replicate d.length 0, p) := by
  simp [distributed]

theorem distributed_of_length_le {d : Bytes} {p m : Nat} (hm : d.length ≤ m) :
    distributed d p m = (d, p + (d.filter (· ≠ 0)).length) := by
  simp [distributed, List.take_of_length_le hm, Nat.sub_eq_zero_of_le hm]

theorem foldlM_distribute {d pre rest bitset : Bytes} (hmarks : Marks bitset d) {m : Nat}
    (hm : m ≤ 8 * bitset.length) :
    (List.range m).foldlM (distribute (pre ++ d.filter (· ≠ 0) ++ rest) bitset)
      (distributed d pre.length 0) = .ok (distributed d pre.length m) := by
  induction m with
  | zero => rfl
  | succ m ih =>
    rw [List.range_succ, List.foldlM_append, ih (by omega), except_ok_bind, List.foldlM_cons,
      distribute_distributed hmarks (by omega), except_ok_bind, List.foldlM_nil]
    rfl

/-! ## Round trip -/

/-- `bitsetDecodePartialBytes` reads back what `bitsetEncodeBytes` wrote, whatever follows it,
and reports the length written; input after an empty encoding must be empty, since the decoder
then reads the zero byte corner cases off it. -/
theorem bitsetDecodePartialBytes_encode (d rest : Bytes)
    (hrest : bitsetEncodeBytes d = [] → rest = []) :
    bitsetDecodePartialBytes (bitsetEncodeBytes d ++ rest) d.length =
      .ok (d, (bitsetEncodeBytes d).length) := by
  induction hn : d.length using Nat.strong_induction_on generalizing d rest with
  | _ n ih =>
  subst hn
  match d with
  | [] => simp [bitsetEncodeBytes_nil, bitsetDecodePartialBytes]
  | [b] =>
    by_cases hb : b = 0
    · subst hb
      rw [bitsetEncodeBytes_single, if_pos rfl] at hrest ⊢
      rw [hrest rfl]
      simpa using bitsetDecodePartialBytes_of_nil 1
    · rw [bitsetEncodeBytes_single, if_neg hb]
      simp [bitsetDecodePartialBytes_single (List.getElem?_cons_zero), hb]
  | b₀ :: b₁ :: bs =>
    have h2 : 2 ≤ (b₀ :: b₁ :: bs).length := by simp
    set d := b₀ :: b₁ :: bs with hd
    rw [bitsetEncodeBytes_of_two_le h2] at hrest ⊢
    split_ifs at hrest ⊢ with hnz
    · rw [hrest rfl, List.append_nil, bitsetDecodePartialBytes_of_nil, List.length_nil]
      have hzero : ∀ b ∈ d, b = 0 := by simpa [List.filter_eq_nil_iff] using hnz
      rw [List.eq_replicate_iff.2 ⟨rfl, hzero⟩]
      simp
    · have hmarks := marks_gatherNonZero d
      have hbits : ∃ c ∈ (gatherNonZero d).1, c ≠ 0 := by
        apply exists_ne_zero_of_marks hmarks
        obtain ⟨b, hb⟩ := List.exists_mem_of_ne_nil _ hnz
        exact ⟨b, (List.mem_filter.1 hb).1, by simpa using (List.mem_filter.1 hb).2⟩
      have hlen := length_gatherNonZero_fst d
      have hrec := ih (gatherNonZero d).1.length (by omega) (gatherNonZero d).1
        (d.filter (· ≠ 0) ++ rest) (fun h ↦ absurd h (bitsetEncodeBytes_ne_nil hbits)) rfl
      rw [← List.append_assoc] at hrec
      have hne : bitsetEncodeBytes (gatherNonZero d).1 ++ d.filter (· ≠ 0) ++ rest ≠ [] :=
        List.append_ne_nil_of_left_ne_nil (List.append_ne_nil_of_right_ne_nil _ hnz) rest
      rw [bitsetDecodePartialBytes_of_two_le h2 hne, ← hlen, hrec, except_ok_bind, ← distributed_zero,
        foldlM_distribute hmarks (Nat.le_refl _), distributed_of_length_le (by omega)]
      simp

theorem bitsetDecodeBytes_encode (d : Bytes) :
    bitsetDecodeBytes (bitsetEncodeBytes d) d.length = .ok d := by
  have hdec := bitsetDecodePartialBytes_encode d [] fun _ ↦ rfl
  rw [List.append_nil] at hdec
  simp [bitsetDecodeBytes, hdec]

theorem decompressBytes_compressBytes (d : Bytes) :
    decompressBytes (compressBytes d) d.length = .ok d := by
  unfold compressBytes
  dsimp only
  split_ifs with hshort
  · have hlt : ((bitsetEncodeBytes d).length : Int) < d.length := by exact_mod_cast hshort
    rw [decompressBytes, if_neg (by omega), if_neg (by omega), Int.toNat_natCast]
    exact bitsetDecodeBytes_encode d
  · simp [decompressBytes]

theorem length_compressBytes_le (d : Bytes) : (compressBytes d).length ≤ d.length := by
  unfold compressBytes
  dsimp only
  split_ifs with hshort
  · exact hshort.le
  · exact Nat.le_refl _

/-! ## No run-time panic -/

theorem distribute_ne_panic {data bitset : Bytes} {i : Nat} (hi : i < 8 * bitset.length)
    (st : Bytes × Nat) : distribute data bitset st i ≠ .error .panic := by
  obtain ⟨c, hc⟩ : ∃ c, bitset[i / 8]? = some c :=
    ⟨_, List.getElem?_eq_getElem (by omega : i / 8 < bitset.length)⟩
  by_cases hset : c &&& bitMask i ≠ 0
  · obtain ⟨decomp, ptr⟩ := st
    by_cases hptr : data.length ≤ ptr
    · simp [distribute, getAt, hc, hset, hptr]
    by_cases hout : decomp.length ≤ i
    · simp [distribute, getAt, hc, hset, hptr, hout]
    obtain ⟨b, hb⟩ : ∃ b, data[ptr]? = some b :=
      ⟨_, List.getElem?_eq_getElem (by omega : ptr < data.length)⟩
    by_cases hzero : b = 0
    · simp [distribute, getAt, hc, hset, hptr, hout, hb, hzero]
    · rw [distribute_of_set hc hset hb (by omega) hzero]
      simp
  · rw [distribute_of_clear hc hset]
    simp

theorem bitsetDecodePartialBytes_ne_panic (data : Bytes) (target : Nat) :
    bitsetDecodePartialBytes data target ≠ .error .panic := by
  induction target using Nat.strong_induction_on with
  | _ target ih =>
  match data, target with
  | data, 0 => simp [bitsetDecodePartialBytes]
  | [], target + 1 => simp [bitsetDecodePartialBytes_of_nil]
  | b :: data, 1 => simp [bitsetDecodePartialBytes_single (List.getElem?_cons_zero)]
  | b :: data, target + 2 =>
    rw [bitsetDecodePartialBytes_of_two_le (by omega) (List.cons_ne_nil b data)]
    cases hrec : bitsetDecodePartialBytes (b :: data) ((target + 2 + 7) / 8) with
    | error e =>
      have hne : e ≠ .panic := fun he ↦ ih _ (by omega) (he ▸ hrec)
      simpa using hne
    | ok r =>
      rw [except_ok_bind]
      exact foldlM_ne_error (fun st i hi ↦ distribute_ne_panic (List.mem_range.1 hi) st) _

theorem bitsetDecodeBytes_ne_panic (data : Bytes) (target : Nat) :
    bitsetDecodeBytes data target ≠ .error .panic := by
  unfold bitsetDecodeBytes
  cases hpart : bitsetDecodePartialBytes data target with
  | error e =>
    have hne : e ≠ .panic := fun he ↦ bitsetDecodePartialBytes_ne_panic data target (he ▸ hpart)
    simpa using hne
  | ok r =>
    simp only [except_ok_bind]
    split_ifs <;> simp

theorem decompressBytes_ne_panic (data : Bytes) (target : Int) :
    decompressBytes data target ≠ .error .panic := by
  unfold decompressBytes
  split_ifs
  · simp
  · simp
  · exact bitsetDecodeBytes_ne_panic data target.toNat

/-! ## The compression scheme -/

/-- Sparse bitset compression round-trips and never lengthens its input, and its decoders end
in a value or an error on every input, never in a run-time panic. -/
theorem sparse_bitset_round_trips :
    (∀ d : Bytes, decompressBytes (compressBytes d) d.length = .ok d ∧
      (compressBytes d).length ≤ d.length) ∧
    (∀ (data : Bytes) (target : Int), decompressBytes data target ≠ .error .panic) ∧
    (∀ (data : Bytes) (target : Nat), bitsetDecodePartialBytes data target ≠ .error .panic) :=
  ⟨fun d ↦ ⟨decompressBytes_compressBytes d, length_compressBytes_le d⟩,
    decompressBytes_ne_panic, bitsetDecodePartialBytes_ne_panic⟩

end BokerChain.Bitutil
