import BokerChain.Core.ImportChecks

/-!
# Who may apply a privileged transaction

Of the privileged transaction types, only `SetValidator` is checked against its signer, by
`validatorTransaction`: the sender must be the producer that `GetProducer` assigns to the
header's time counted from the genesis block, except that while the head is block 0 anyone may
set the validator when no producer is found (the epoch trie is empty or has no entry for the
slot).  The contract-set types are applied whoever signs them: the check of
`ContractTransitionDb` against the permission table `BokerAccount` is commented out in the
source, "for the convenience of testing".
-/

namespace BokerChain

open Library Imperative

namespace World

/-- Whether `validatorTransaction` admits `sender` on the DPoS context `dc`: the producer of the
header's slot, counted from the genesis block; when the lookup finds no producer because the
epoch trie is empty or the slot has none, anyone while the head is block 0; after any other
failure of the lookup, the zero address, which stands for the producer Go returns with an
error. -/
def mayApplySetValidator (env : ChainEnv) (header : Header) (dc : DposContext)
    (sender : Address) : Bool :=
  match env.genesisTime with
  | none => false
  | some first =>
    match dc.getProducer header.time64 (Int64.ofNat first) with
    | .ok producer => producer == sender
    | .error e =>
      if e = .errEpochTrieNil ∨ e = .errInvalidProducer then env.currentNumber == 0
      else sender == 0

variable {env : ChainEnv} {header : Header} {tx : Transaction} {w : World} {msg : Message}

theorem validatorTransaction_denied (hmsg : tx.asMessage env.crypto = .ok msg)
    (hdeny : mayApplySetValidator env header w.dposContext msg.sender = false) :
    ∃ e, validatorTransaction env header tx w = .error e w := by
  unfold mayApplySetValidator at hdeny
  simp only [validatorTransaction, bind_apply, hmsg, liftExcept_ok]
  cases hg : env.genesisTime with
  | none => exact ⟨_, rfl⟩
  | some first =>
    rw [hg] at hdeny
    simp only [bind_apply, get_apply]
    generalize hl : w.dposContext.getProducer header.time64 (Int64.ofNat first) = lookup
    simp only [hl] at hdeny
    by_cases hcond : errorOf lookup = some .errEpochTrieNil ∨
        errorOf lookup = some .errInvalidProducer
    · have hne : env.currentNumber ≠ 0 := by
        cases lookup with
        | ok producer => simp at hcond
        | error e =>
          rw [errorOf_error, Option.some_inj, Option.some_inj] at hcond
          simpa [hcond] using hdeny
      simp only [ite_run, if_pos hcond, if_neg hne, throw_apply]
      exact ⟨_, rfl⟩
    · have hne : ignoreError lookup 0 ≠ msg.sender := by
        cases lookup with
        | ok producer => simpa using hdeny
        | error e =>
          rw [errorOf_error, Option.some_inj, Option.some_inj] at hcond
          intro h
          simp [hcond, ← h] at hdeny
      simp only [ite_run, if_neg hcond, if_pos hne, bind_apply, throw_apply]
      exact ⟨_, rfl⟩

/-- A `SetValidator` transaction from a sender the rule does not admit is rejected by
`ApplyTransaction`, and the pool, the state, the DPoS context and the registry are left as
they were. -/
theorem setValidator_needs_slot_producer (hmsg : tx.asMessage env.crypto = .ok msg)
    (htype : msg.txType = .setValidator)
    (hdeny : mayApplySetValidator env header w.dposContext msg.sender = false) :
    ∃ e, applyTransaction env header tx w = .error e w := by
  have hbinary : msg.txType ≠ .binary := by rw [htype]; decide
  have hcs : ¬msg.txType.IsContractSet := by rw [htype]; decide
  have hbase : ¬msg.txType.IsBase := by rw [htype]; decide
  rw [applyTransaction_apply, hmsg]
  dsimp only
  rw [if_neg hbinary, if_neg hcs, if_neg hbase, if_pos htype]
  split_ifs
  · exact ⟨_, rfl⟩
  · exact validatorTransaction_denied hmsg hdeny

end World

/-- A `SetValidator` transaction from `64` naming `5` as the validator. -/
def setValidatorTx : Transaction := ⟨⟨0, 0, 0, some 5, 0, .setValidator, 0, [], [], 27, 1, 1⟩, none⟩

/-- On a DPoS context without validators, with the head at block 1, nobody may set the
validator. -/
theorem setValidator_rejected_past_block_zero :
    ∃ e, World.applyTransaction (sampleEnv (idleEvm 0)) sampleHeader setValidatorTx sampleWorld =
      .error e sampleWorld :=
  World.setValidator_needs_slot_producer
    (by set_option maxRecDepth 4096 in decide : setValidatorTx.asMessage sampleCrypto =
      .ok ⟨64, some 5, 0, 0, 0, 0, [], [], .setValidator, true⟩)
    rfl (by set_option maxRecDepth 4096 in decide)

/-- A `SetPersonalContract` transaction from `64` registering `5`, with no gas. -/
def personalContractTx : Transaction :=
  ⟨⟨0, 0, 0, some 5, 0, .setPersonalContract, 0, [], [], 27, 1, 1⟩, none⟩

/-- The permission table grants `64` no contract type, yet its `SetPersonalContract`
transaction is applied and registers the contract. -/
theorem unpermitted_personal_contract_registered :
    TxType.setPersonalContract ∉ BokerAccount.newAccount.getAccount 64 ∧
      (okState (World.applyTransaction (sampleEnv (idleEvm 0)) sampleHeader personalContractTx
        sampleWorld)).map (fun w ↦ w.boker.getContract 5) = some .personalContract := by
  set_option maxRecDepth 4096 in decide

end BokerChain
