import BokerChain.Rlp.Encode
import BokerChain.Library.FixedWidth
import BokerChain.Library.Imperative

/-!
# The DPoS context

`types.DposContext` holds three tries: the epoch trie, whose entry under `ValidatorsKey` is the
RLP encoding of the current validator list; the validator trie, from a validator to its vote
count; and the block-count trie, from an epoch and a validator to the blocks it minted.  The
model keeps each trie by its contents.  Every writer of the epoch entry (`SetEpochTrie`,
`Clean`, `InsertValidator`) stores the encoding of an address list, and `GetEpochTrie` decodes
it back, so the entry is kept decoded; `none` is an entry that is missing, on which
`rlp.DecodeBytes` fails and `GetEpochTrie` returns `ErrDecodeValidators`.  The block-count keys
are the 8-byte big-endian epoch followed by the validator, kept as the pair.

The slot holder of a time, `GetProducer` for blocks and `GetTokenNoder` for token assignment,
is one computation over an interval: the offset into the epoch, checked to fall on a slot,
divided by the interval and taken modulo the list length, all in Go's `int64` arithmetic
(wrapping subtraction, truncating division and remainder).

A `trie.Trie` seen through `TryGet`, `TryUpdate` and `TryDelete` is a finite map from keys to
non-empty byte strings: `TryUpdate` with an empty value deletes the key, and `TryGet` of a
missing key returns nil.  Where the model keeps a trie by its contents, the keys are those the
code builds (an address, a prefix and an address, ...), kept as values of their own type.
-/

namespace BokerChain

/-! ## The contents of a trie -/

/-- The contents of a trie whose keys are built from values of type `κ`. -/
abbrev TrieContents (κ : Type) := AList (fun _ : κ ↦ Bytes)

namespace TrieContents

variable {κ : Type} [DecidableEq κ]

/-- `Trie.TryUpdate`: an empty value deletes the key. -/
def tryUpdate (t : TrieContents κ) (key : κ) (value : Bytes) : TrieContents κ :=
  if value = [] then t.erase key else t.insert key value

/-- `Trie.TryGet`: nil (the empty string) for a missing key. -/
def tryGet (t : TrieContents κ) (key : κ) : Bytes := (t.lookup key).getD []

@[simp]
theorem tryGet_tryUpdate_self (t : TrieContents κ) (key : κ) (value : Bytes) :
    (t.tryUpdate key value).tryGet key = value := by
  unfold tryUpdate tryGet
  split
  · next hvalue => simp [AList.lookup_erase, hvalue]
  · simp [AList.lookup_insert]

theorem mem_tryUpdate {t : TrieContents κ} {key a : κ} {value : Bytes} (hvalue : value ≠ []) :
    a ∈ t.tryUpdate key value ↔ a = key ∨ a ∈ t := by
  rw [tryUpdate, if_neg hvalue, AList.mem_insert]

end TrieContents

/-! ## The DPoS context -/

/-- Go's `s[i]` for an `int64` index: outside `0 ≤ i < len(s)` the runtime panics. -/
def goIndex {α : Type} (s : List α) (i : Int64) : Except Error α :=
  if h : 0 ≤ i.toInt ∧ i.toInt < s.length then .ok (s.get ⟨i.toInt.toNat, by omega⟩)
  else .error .runtimePanic

/-- `strconv.Itoa` and `big.Int.String` for a non-negative number: its decimal digits. -/
def decimalBytes (n : Nat) : Bytes := (toString n).toUTF8.toList

/-- `types.DposContext`, by the contents of its tries. -/
structure DposContext where
  epochValidators : Option (List Address)
  validatorTrie : TrieContents Address
  blockCntTrie : AList (fun _ : UInt64 × Address ↦ UInt64)

/-- `types.DposContextProto`: the roots of the three tries. -/
structure DposContextProto where
  epochHash : Hash
  validatorHash : Hash
  blockCntHash : Hash
  deriving DecidableEq, Repr

/-- The Merkle roots of the three tries (`trie.Trie.Hash`), taken as given. -/
structure DposTrieRoots where
  epoch : Option (List Address) → Hash
  validator : TrieContents Address → Hash
  blockCnt : AList (fun _ : UInt64 × Address ↦ UInt64) → Hash

namespace DposContextProto

/-- `DposContextProto.Root`: Keccak-256 of the three root hashes, each RLP-encoded. -/
def root (keccak256 : Bytes → Hash) (p : DposContextProto) : Hash :=
  keccak256 (Rlp.encode (Rlp.ofHash p.epochHash) ++ Rlp.encode (Rlp.ofHash p.validatorHash) ++
    Rlp.encode (Rlp.ofHash p.blockCntHash))

end DposContextProto

namespace DposContext

/-- The context of a fresh chain before genesis sets the epoch list (`NewDposContext`). -/
def empty : DposContext := ⟨none, ∅, ∅⟩

/-- `ToProto`. -/
def toProto (roots : DposTrieRoots) (dc : DposContext) : DposContextProto :=
  ⟨roots.epoch dc.epochValidators, roots.validator dc.validatorTrie,
    roots.blockCnt dc.blockCntTrie⟩

/-- `DposContext.Root`: the root of the context's own proto. -/
def root (roots : DposTrieRoots) (keccak256 : Bytes → Hash) (dc : DposContext) : Hash :=
  (dc.toProto roots).root keccak256

/-! ## The validator list -/

/-- `GetEpochTrie`. -/
def getEpochTrie (dc : DposContext) : Except Error (List Address) :=
  match dc.epochValidators with
  | some validators => .ok validators
  | none => .error .errDecodeValidators

/-- `SetEpochTrie`: encoding an address list cannot fail. -/
def setEpochTrie (dc : DposContext) (validators : List Address) : DposContext :=
  { dc with epochValidators := some validators }

/-- `Clean`: remove the listed validators from the validator trie and empty the list. -/
def clean (dc : DposContext) : Except Error DposContext := do
  let validators ← dc.getEpochTrie
  return { dc with
    validatorTrie := validators.foldl (fun t v ↦ t.erase v) dc.validatorTrie
    epochValidators := some [] }

/-- `InsertValidator`: append a validator with its votes, refused once the list is full. -/
def insertValidator (dc : DposContext) (validator : Address) (votes : Nat) :
    Except Error DposContext := do
  let validators ← dc.getEpochTrie
  if Protocol.maxValidatorSize ≤ validators.length then throw .errValidatorsIsFull
  return { dc with
    validatorTrie := dc.validatorTrie.tryUpdate validator (Rlp.encode (.str (decimalBytes votes)))
    epochValidators := some (validators ++ [validator]) }

/-- `strconv.Itoa` of a number of either sign: a minus sign before the digits of a negative one. -/
def intDecimalBytes (z : Int) : Bytes := (toString z).toUTF8.toList

/-- One round of the loop of `SetValidatorVotes`: the validator at `index` goes into the
validator trie under the decimal digits of `votes[index].Int64()`, the low 64 bits of its votes
read as a signed number.  Past the end of the votes Go panics. -/
def setValidatorVote (votes : List Nat) (t : TrieContents Address) (entry : Address × Nat) :
    Except Error (TrieContents Address) := do
  let some cnt := votes[entry.2]? | throw .runtimePanic
  pure (t.tryUpdate entry.1 (intDecimalBytes (Int64.ofNat cnt).toInt))

/-- `SetValidatorVotes`: `Clean`, whose error is ignored, then each validator with its votes, then
the list itself.  Unlike `InsertValidator` it checks neither the length of the list nor that its
addresses are distinct. -/
def setValidatorVotes (dc : DposContext) (validators : List Address) (votes : List Nat) :
    Except Error DposContext := do
  let dc := Library.Imperative.ignoreError dc.clean dc
  let validatorTrie ← validators.zipIdx.foldlM (setValidatorVote votes) dc.validatorTrie
  return { dc with validatorTrie }.setEpochTrie validators

theorem toList_loop_ne_nil (bs : ByteArray) (i : Nat) (r : List UInt8)
    (hr : r ≠ [] ∨ i < bs.size) : ByteArray.toList.loop bs i r ≠ [] := by
  fun_induction ByteArray.toList.loop bs i r with
  | case1 i r hi ih => exact ih (Or.inl (List.cons_ne_nil _ _))
  | case2 i r hi => simpa [hi] using hr

theorem intDecimalBytes_ne_nil (z : Int) : intDecimalBytes z ≠ [] := by
  have hstring : toString z ≠ "" := by
    cases z with
    | ofNat n => simp [toString, Int.repr, Nat.repr_ne_empty]
    | negSucc n => simp [toString, Int.repr]
  have hsize : (toString z).toUTF8.size ≠ 0 := fun h0 ↦
    hstring (String.utf8ByteSize_eq_zero_iff.1 h0)
  apply toList_loop_ne_nil
  right
  omega

theorem foldlM_setValidatorVote {votes : List Nat} :
    ∀ (entries : List (Address × Nat)) (t : TrieContents Address),
      (∀ e ∈ entries, e.2 < votes.length) →
      ∃ t', entries.foldlM (setValidatorVote votes) t = .ok t' ∧
        ∀ a, a ∈ t' ↔ a ∈ t ∨ a ∈ entries.map Prod.fst
  | [], t, _ => ⟨t, rfl, by simp⟩
  | e :: entries, t, hvotes => by
    have hlt : e.2 < votes.length := hvotes e List.mem_cons_self
    have hround : setValidatorVote votes t e =
        .ok (t.tryUpdate e.1 (intDecimalBytes (Int64.ofNat votes[e.2]).toInt)) := by
      simp [setValidatorVote, List.getElem?_eq_getElem hlt]
    obtain ⟨t', hrest, hmem⟩ := foldlM_setValidatorVote entries _
      fun e' he' ↦ hvotes e' (List.mem_cons_of_mem e he')
    refine ⟨t', ?_, fun a ↦ ?_⟩
    · rw [List.foldlM_cons, hround]
      exact hrest
    · rw [hmem, TrieContents.mem_tryUpdate (intDecimalBytes_ne_nil _), List.map_cons,
        List.mem_cons]
      tauto

theorem setValidatorVotes_ok (dc : DposContext) {validators : List Address} {votes : List Nat}
    (hlen : validators.length ≤ votes.length) :
    ∃ t, dc.setValidatorVotes validators votes =
        .ok { Library.Imperative.ignoreError dc.clean dc with
          validatorTrie := t, epochValidators := some validators } ∧
      ∀ a, a ∈ t ↔ a ∈ (Library.Imperative.ignoreError dc.clean dc).validatorTrie ∨
        a ∈ validators := by
  have hvotes : ∀ e ∈ validators.zipIdx, e.2 < votes.length := by
    intro e he
    have hbound := (List.mem_zipIdx (x := e.1) (i := e.2) he).2.1
    omega
  obtain ⟨t, hloop, hmem⟩ :=
    foldlM_setValidatorVote _ (Library.Imperative.ignoreError dc.clean dc).validatorTrie hvotes
  refine ⟨t, ?_, ?_⟩
  · simp only [setValidatorVotes, hloop]
    rfl
  · rwa [List.zipIdx_map_fst] at hmem

/-- `IsValidator`. -/
def isValidator (dc : DposContext) (address : Address) : Bool :=
  match dc.getEpochTrie with
  | .ok validators => validators.contains address
  | .error _ => false

/-! ## The holder of a slot -/

/-- The validator whose turn a time is, for slots of `interval` seconds counted from
`firstTimer`: `timeErr` when the time is off the slot grid, `emptyErr` when the list is
empty. -/
def slotHolder (interval : Int64) (timeErr emptyErr : Error) (dc : DposContext)
    (now firstTimer : Int64) : Except Error Address := do
  let offset := (now - firstTimer) % Protocol.epochInterval
  if offset % interval ≠ 0 then throw timeErr
  let offset := offset / interval
  let producers ← dc.getEpochTrie
  if producers.length = 0 then throw emptyErr
  goIndex producers (offset % Int64.ofNat producers.length)

/-- `GetProducer`: the block producer of the slot at `now`. -/
def getProducer (dc : DposContext) (now firstTimer : Int64) : Except Error Address :=
  slotHolder Protocol.producerInterval .errInvalidProducerTime .errInvalidProducer dc now
    firstTimer

/-- `GetTokenNoder`: the node that assigns tokens at `now`. -/
def getTokenNoder (dc : DposContext) (now firstTimer : Int64) : Except Error Address :=
  slotHolder Protocol.tokenNoderInterval .errInvalidTokenTime .errInvalidTokenNoder dc now
    firstTimer

/-! ## Where the slot index falls

The index is the offset into the epoch, divided by the interval, modulo the length of the list.
Go's `%` keeps the sign of the dividend, so the index is in range when the time is at or after
the reference time, and may be negative before it. -/

theorem slotHolder_eq {interval : Int64} {timeErr emptyErr : Error} {dc : DposContext}
    {now firstTimer : Int64} {validators : List Address}
    (hgrid : (now - firstTimer) % Protocol.epochInterval % interval = 0)
    (hdc : dc.epochValidators = some validators) (hn : validators.length ≠ 0) :
    slotHolder interval timeErr emptyErr dc now firstTimer =
      goIndex validators ((now - firstTimer) % Protocol.epochInterval / interval %
        Int64.ofNat validators.length) := by
  simp only [slotHolder, getEpochTrie, hdc, hgrid, ne_eq, not_true_eq_false, if_false, bind,
    Except.bind, hn, if_false]

theorem goIndex_neg_one_mod {α : Type} {s : List α} (hn : 2 ≤ s.length) (hlen : s.length < 2 ^ 63) :
    goIndex s ((-1) % Int64.ofNat s.length) = .error .runtimePanic := by
  have hm : ((-1) % Int64.ofNat s.length).toInt = -1 := by
    rw [Int64.toInt_mod, Int64.toInt_ofNat_of_lt hlen]
    show Int.tmod (-1) s.length = -1
    rw [Int.neg_tmod, Int.tmod_eq_emod_of_nonneg (by omega), Int.emod_eq_of_lt (by omega) (by omega)]
  rw [goIndex, dif_neg]
  rw [hm]
  omega

/-- One slot before the reference time the index is `-1`: with two or more validators in the
list, `GetProducer` and `GetTokenNoder` index outside it, and Go panics. -/
theorem slot_lookup_panics_before_reference {dc : DposContext} {validators : List Address}
    (hdc : dc.epochValidators = some validators) (hn : 2 ≤ validators.length)
    (hlen : validators.length < 2 ^ 63) (firstTimer : Int64) :
    dc.getProducer (firstTimer - Protocol.producerInterval) firstTimer = .error .runtimePanic ∧
      dc.getTokenNoder (firstTimer - Protocol.tokenNoderInterval) firstTimer =
        .error .runtimePanic := by
  have hne : validators.length ≠ 0 := by omega
  have hdiff : ∀ i : Int64, firstTimer - i - firstTimer = -i := fun i ↦ by grind
  constructor
  · rw [getProducer, slotHolder_eq (by rw [hdiff]; decide) hdc hne, hdiff,
      show -Protocol.producerInterval % Protocol.epochInterval / Protocol.producerInterval = -1
        by decide]
    exact goIndex_neg_one_mod hn hlen
  · rw [getTokenNoder, slotHolder_eq (by rw [hdiff]; decide) hdc hne, hdiff,
      show -Protocol.tokenNoderInterval % Protocol.epochInterval / Protocol.tokenNoderInterval = -1
        by decide]
    exact goIndex_neg_one_mod hn hlen

/-- A context whose list holds two validators. -/
def twoValidators : DposContext := ⟨some [1, 2], ∅, ∅⟩

theorem slot_lookup_panics_before_reference_two :
    twoValidators.epochValidators = some [1, 2] ∧ 2 ≤ [(1 : Address), 2].length ∧
      [(1 : Address), 2].length < 2 ^ 63 ∧
      twoValidators.getProducer (0 - Protocol.producerInterval) 0 = .error .runtimePanic ∧
      twoValidators.getTokenNoder (0 - Protocol.tokenNoderInterval) 0 = .error .runtimePanic :=
  ⟨rfl, by decide, by decide, slot_lookup_panics_before_reference rfl (by decide) (by decide) 0⟩

end DposContext

end BokerChain
