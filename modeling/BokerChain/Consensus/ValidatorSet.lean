import BokerChain.Core.StateProcessor
import BokerChain.Contracts.Voting

/-!
# The validator set

The DPoS context keeps the validators of the epoch twice: as the list under `ValidatorsKey` in
the epoch trie, and as the keys of the validator trie.  Three callers write them.
`validatorTransaction` and `Dpos.SelfProducer` run `Clean` and then `InsertValidator` of one
address, with `Clean`'s error ignored; `BokerInterfaceService.vote` hands the candidates of the
node contract to `SetValidatorVotes`.

`WellFormed` is what the two copies should satisfy: the list has distinct addresses, no more of
them than `MaxValidatorSize`, and they are exactly the keys of the validator trie.  `Clean` and
`InsertValidator` keep it, the latter only because `MaxValidatorSize` is 1 (it does not check
that the address is new), so every run of the first two callers keeps it from genesis.
`SetValidatorVotes` keeps it exactly when the list it is given is duplicate-free and short
enough (`wellFormed_setValidatorVotes_iff`), and the node contract lists every registered
candidate.
-/

namespace BokerChain

open Library Imperative

namespace DposContext

/-- `initGenesisDposContext`: the context of the empty proto, with an empty validator list. -/
def genesis : DposContext := empty.setEpochTrie []

/-- The two copies of the validator set agree, and the list respects the protocol's bound. -/
def WellFormed (dc : DposContext) : Prop :=
  ∃ validators, dc.epochValidators = some validators ∧ validators.Nodup ∧
    validators.length ≤ Protocol.maxValidatorSize ∧ ∀ a, a ∈ dc.validatorTrie ↔ a ∈ validators

theorem wellFormed_genesis : genesis.WellFormed := by
  refine ⟨[], rfl, List.nodup_nil, Nat.zero_le _, fun a ↦ ?_⟩
  simp [genesis, empty, setEpochTrie]

/-! ## Clean and InsertValidator -/

theorem mem_foldl_erase {a : Address} (l : List Address) (t : TrieContents Address) :
    a ∈ l.foldl (fun t v ↦ t.erase v) t ↔ a ∈ t ∧ a ∉ l := by
  induction l generalizing t with
  | nil => simp
  | cons v l ih =>
    rw [List.foldl_cons, ih, AList.mem_erase, List.mem_cons]
    tauto

theorem clean_eq {dc : DposContext} {validators : List Address}
    (hdc : dc.epochValidators = some validators) :
    dc.clean = .ok { dc with
      validatorTrie := validators.foldl (fun t v ↦ t.erase v) dc.validatorTrie
      epochValidators := some [] } := by
  simp only [clean, getEpochTrie, hdc]
  rfl

theorem WellFormed.clean {dc : DposContext} (h : dc.WellFormed) :
    (ignoreError dc.clean dc).epochValidators = some [] ∧
      ∀ a, a ∉ (ignoreError dc.clean dc).validatorTrie := by
  obtain ⟨validators, hdc, -, -, hmem⟩ := h
  rw [clean_eq hdc, ignoreError_ok]
  refine ⟨rfl, fun a ↦ ?_⟩
  rw [mem_foldl_erase, hmem]
  exact fun hboth ↦ hboth.2 hboth.1

theorem insertValidator_eq {dc : DposContext} {validators : List Address} (validator : Address)
    (votes : Nat) (hdc : dc.epochValidators = some validators) :
    dc.insertValidator validator votes =
      if Protocol.maxValidatorSize ≤ validators.length then .error .errValidatorsIsFull
      else .ok { dc with
        validatorTrie := dc.validatorTrie.tryUpdate validator (Rlp.encode (.str (decimalBytes votes)))
        epochValidators := some (validators ++ [validator]) } := by
  by_cases hfull : Protocol.maxValidatorSize ≤ validators.length
  · simp only [insertValidator, getEpochTrie, hdc, bind, Except.bind, if_pos hfull]
    rfl
  · simp only [insertValidator, getEpochTrie, hdc, bind, Except.bind, if_neg hfull]
    rfl

theorem WellFormed.insertValidator {dc : DposContext} (h : dc.WellFormed) (validator : Address)
    (votes : Nat) : (ignoreError (dc.insertValidator validator votes) dc).WellFormed := by
  obtain ⟨validators, hdc, hnodup, hlen, hmem⟩ := h
  rw [insertValidator_eq validator votes hdc]
  split
  · exact ⟨validators, hdc, hnodup, hlen, hmem⟩
  · next hfull =>
    have hnil : validators = [] := by
      apply List.length_eq_zero_iff.1
      simp only [Protocol.maxValidatorSize] at hfull
      omega
    subst hnil
    rw [ignoreError_ok]
    refine ⟨[validator], rfl, List.nodup_singleton _, le_refl _, fun a ↦ ?_⟩
    rw [TrieContents.mem_tryUpdate (Rlp.encode_ne_nil _), hmem]
    simp

/-- `Clean` then `InsertValidator`, both errors ignored, as `validatorTransaction` and
`Dpos.SelfProducer` write the set. -/
def cleanInsert (dc : DposContext) (validator : Address) (votes : Nat) : DposContext :=
  let cleaned := ignoreError dc.clean dc
  ignoreError (cleaned.insertValidator validator votes) cleaned

theorem WellFormed.cleanInsert {dc : DposContext} (h : dc.WellFormed) (validator : Address)
    (votes : Nat) : (dc.cleanInsert validator votes).epochValidators = some [validator] ∧
      (dc.cleanInsert validator votes).WellFormed := by
  obtain ⟨hempty, hkeys⟩ := h.clean
  have hcleaned : (ignoreError dc.clean dc).WellFormed :=
    ⟨[], hempty, List.nodup_nil, Nat.zero_le _, fun a ↦ by simp [hkeys a]⟩
  have hinsert := hcleaned.insertValidator validator votes
  simp only [DposContext.cleanInsert]
  rw [insertValidator_eq validator votes hempty, if_neg (by decide), ignoreError_ok] at hinsert ⊢
  exact ⟨rfl, hinsert⟩

/-! ## SetValidatorVotes -/

/-- From a well-formed context, `SetValidatorVotes` with votes for every validator leaves a
well-formed set exactly when the list it is given is duplicate-free and within the bound: it
checks neither. -/
theorem wellFormed_setValidatorVotes_iff {dc : DposContext} (h : dc.WellFormed)
    {validators : List Address} {votes : List Nat} (hlen : validators.length ≤ votes.length) :
    (ignoreError (dc.setValidatorVotes validators votes) dc).WellFormed ↔
      validators.Nodup ∧ validators.length ≤ Protocol.maxValidatorSize := by
  obtain ⟨hempty, hkeys⟩ := h.clean
  obtain ⟨t, hset, hmem⟩ := dc.setValidatorVotes_ok hlen
  rw [hset, ignoreError_ok]
  have hkeys' : ∀ a, a ∈ t ↔ a ∈ validators := fun a ↦ by simp [hmem, hkeys a]
  constructor
  · rintro ⟨l, hl, hnodup, hbound, -⟩
    cases hl
    exact ⟨hnodup, hbound⟩
  · intro hok
    exact ⟨validators, rfl, hok.1, hok.2, hkeys'⟩

end DposContext

/-! ## The writers of the set -/

/-- A write of the validator set, as its caller makes it. -/
inductive ValidatorWrite where
  /-- `validatorTransaction` with this recipient: `Clean`, then
  `InsertValidator(*msg.To(), SetValidatorVotes)`. -/
  | setValidator (validator : Address)
  /-- `Dpos.SelfProducer`: `Clean`, then `InsertValidator(producer, 10000)`. -/
  | selfProducer (producer : Address)
  /-- `BokerInterfaceService.vote` with what `GetCandidates` returned. -/
  | vote (addresses : List Address) (tickets : List Nat)

namespace ValidatorWrite

/-- The context after the write.  `vote` gives up when the two arrays differ in length and
ignores the error of `SetValidatorVotes`. -/
def apply : ValidatorWrite → DposContext → DposContext
  | .setValidator validator, dc => dc.cleanInsert validator Protocol.setValidatorVotes
  | .selfProducer producer, dc => dc.cleanInsert producer 10000
  | .vote addresses tickets, dc =>
    if tickets.length ≠ addresses.length then dc
    else ignoreError (dc.setValidatorVotes addresses tickets) dc

/-- The write `vote` makes from the node contract's storage. -/
def ofCandidates (d : Node.NodeData) : ValidatorWrite :=
  .vote (Node.getCandidates d).1 ((Node.getCandidates d).2.map Fin.val)

/-- The list a write hands over is duplicate-free and within the bound: true of the two writes
of a single address, and of `vote` when the candidates are few enough. -/
def Fits : ValidatorWrite → Prop
  | .setValidator _ | .selfProducer _ => True
  | .vote addresses tickets =>
    tickets.length = addresses.length →
      addresses.Nodup ∧ addresses.length ≤ Protocol.maxValidatorSize

theorem wellFormed_apply {dc : DposContext} (h : dc.WellFormed) :
    ∀ w : ValidatorWrite, w.Fits → (w.apply dc).WellFormed
  | .setValidator validator, _ => (h.cleanInsert validator _).2
  | .selfProducer producer, _ => (h.cleanInsert producer _).2
  | .vote addresses tickets, hfits => by
    rw [apply]
    split
    · exact h
    · next hlen =>
      have heq : tickets.length = addresses.length := not_not.1 hlen
      exact (DposContext.wellFormed_setValidatorVotes_iff h heq.ge).2 (hfits heq)

/-- The context after a sequence of writes. -/
def applyAll (dc : DposContext) (writes : List ValidatorWrite) : DposContext :=
  writes.foldl (fun dc w ↦ w.apply dc) dc

/-- Every sequence of fitting writes keeps the set well formed. -/
theorem wellFormed_applyAll {dc : DposContext} (h : dc.WellFormed) (writes : List ValidatorWrite)
    (hfits : ∀ w ∈ writes, w.Fits) : (applyAll dc writes).WellFormed := by
  induction writes generalizing dc with
  | nil => exact h
  | cons w writes ih =>
    apply ih (wellFormed_apply h w (hfits w List.mem_cons_self))
    intro w' hw'
    exact hfits w' (List.mem_cons_of_mem w hw')

/-- From genesis, a validator transaction for `5`, a self-produced block of `6` and a vote that
hands over the single candidate `7` keep the set well formed. -/
theorem wellFormed_three_writers :
    (∀ w ∈ [setValidator 5, selfProducer 6, vote [7] [3]], w.Fits) ∧
      (applyAll DposContext.genesis [setValidator 5, selfProducer 6, vote [7] [3]]).WellFormed := by
  have hfits : ∀ w ∈ [setValidator 5, selfProducer 6, vote [7] [3]], w.Fits := by
    intro w hw
    simp only [List.mem_cons, List.not_mem_nil, or_false] at hw
    rcases hw with rfl | rfl | rfl
    · trivial
    · trivial
    · exact fun _ ↦ ⟨List.nodup_singleton 7, by decide⟩
  exact ⟨hfits, wellFormed_applyAll DposContext.wellFormed_genesis _ hfits⟩

end ValidatorWrite

/-! ## Two candidates -/

/-- Candidates `1` and `2`, registered with the node contract of a fresh deployment. -/
def twoCandidates : Node.Boker :=
  (Node.Boker.deployed 0).runAll Node.sampleEnv
    [(1, 0, .registerCandidate), (2, 0, .registerCandidate)]

theorem vote_overfills_validator_set :
    Node.Reachable Node.sampleEnv Node.Call.OnLedger twoCandidates ∧
      ValidatorWrite.ofCandidates twoCandidates.nodeData = .vote [1, 2] [0, 0] ∧
      ((ValidatorWrite.ofCandidates twoCandidates.nodeData).apply
        DposContext.genesis).epochValidators = some [1, 2] ∧
      Protocol.maxValidatorSize < [1, 2].length ∧
      ¬((ValidatorWrite.ofCandidates twoCandidates.nodeData).apply
        DposContext.genesis).WellFormed := by
  have hwrite : ValidatorWrite.ofCandidates twoCandidates.nodeData = .vote [1, 2] [0, 0] := rfl
  have hlist : ((ValidatorWrite.vote [1, 2] [0, 0]).apply DposContext.genesis).epochValidators =
      some [1, 2] := rfl
  have hbound : Protocol.maxValidatorSize < [1, 2].length := by decide
  refine ⟨?_, hwrite, hwrite ▸ hlist, hbound, ?_⟩
  · apply Node.Reachable.runAll _ (.deploy 0)
    intro call hcall
    simp only [List.mem_cons, List.not_mem_nil, or_false] at hcall
    rcases hcall with rfl | rfl <;> trivial
  · rw [hwrite]
    rintro ⟨validators, hvalidators, -, hle, -⟩
    rw [hlist] at hvalidators
    cases hvalidators
    exact absurd hle (Nat.not_le_of_lt hbound)

namespace World

end World

end BokerChain
