import BokerChain.Core.Authorisation

/-!
# What the signer of a transaction fixes

`HomesteadSigner` signs `FrontierSigner.Hash`, which leaves out the extra data (the variant that
covered it is commented out, and the comment in `txdata` marks the field as set by the node).
So two transactions that differ only in `Extra` carry the same signature and the same sender.
Their effect is the same except for one output: `ContractTransitionDb` stores the message's
extra data as the ABI of the contract it registers.  `signedOutcome_applyTransaction` says that
`ApplyTransaction` on the two yields the same error or receipt status and gas, and the same state,
DPoS context, gas pool, gas counter and registry but for its ABI trie.
-/

namespace BokerChain

open Library Imperative

theorem Transaction.asMessage_setExtra (c : Crypto) (tx : Transaction) (e : Bytes) :
    (tx.setExtra e).asMessage c = (tx.asMessage c).map (fun m ↦ { m with extra := e }) := by
  unfold Transaction.asMessage
  have hsender : (tx.setExtra e).sender c = tx.sender c := rfl
  rw [hsender]
  cases tx.sender c <;> rfl

/-! ## The outcome without the ABI texts -/

/-- The registry without its ABI trie. -/
def BokerContracts.withoutAbi (c : BokerContracts) : BokerContracts := { c with abiTrie := ∅ }

/-- The shared objects of a block without the ABI trie of the registry. -/
def World.withoutAbi (w : World) : World := { w with boker := w.boker.withoutAbi }

/-- What a run of `ApplyTransaction` decides besides the ABI texts, the receipt's hash and the
transaction it hands back: its error or its receipt's status and gas, and the shared objects
without the ABI trie. -/
def signedOutcome :
    EStateM.Result Error World (Receipt × Nat × Transaction) → Except Error (Bool × Nat) × World
  | .ok res w => (.ok (res.1.failed, res.2.1), w.withoutAbi)
  | .error e w => (.error e, w.withoutAbi)

theorem StateTransition.writeContract_withoutAbi (o : RangeOrder Address ContractType)
    (c : BokerContracts) (txType : TxType) (callee : Address) (abiJson abiJson' : Bytes) :
    (StateTransition.writeContract o c txType callee abiJson).withoutAbi =
      (StateTransition.writeContract o c txType callee abiJson').withoutAbi := by
  unfold StateTransition.writeContract BokerContracts.setContract
  split_ifs <;> rfl

/-! ## Each path -/

namespace World

variable {env : ChainEnv} {header : Header} {tx : Transaction} {w : World}

theorem binaryTransaction_setExtra (e : Bytes) :
    binaryTransaction env header (tx.setExtra e) w = binaryTransaction env header tx w := by
  rw [binaryTransaction_apply, binaryTransaction_apply, Transaction.asMessage_setExtra]
  cases tx.asMessage env.crypto <;> rfl

theorem baseTransaction_setExtra (e : Bytes) :
    baseTransaction env header (tx.setExtra e) w = baseTransaction env header tx w := by
  rw [baseTransaction_apply, baseTransaction_apply, Transaction.asMessage_setExtra]
  cases tx.asMessage env.crypto <;> rfl

theorem validatorTransaction_setExtra (e : Bytes) :
    validatorTransaction env header (tx.setExtra e) w = validatorTransaction env header tx w := by
  unfold validatorTransaction
  simp only [bind_apply, Transaction.asMessage_setExtra]
  cases tx.asMessage env.crypto <;> rfl

theorem signedOutcome_commitAndReceipt {tx' : Transaction} {r r' : MessageResult}
    {a a' : Address} {w' : World} (hfailed : r.failed = r'.failed) (hgas : r.gas = r'.gas)
    (hw : w.withoutAbi = w'.withoutAbi) :
    signedOutcome (commitAndReceipt env header tx r a w) =
      signedOutcome (commitAndReceipt env header tx' r' a' w') := by
  have hstate : w.statedb = w'.statedb := (congrArg World.statedb hw :)
  have hused : w.usedGas = w'.usedGas := (congrArg World.usedGas hw :)
  have hdpos : w.dposContext = w'.dposContext := (congrArg World.dposContext hw :)
  have hgp : w.gp = w'.gp := (congrArg World.gp hw :)
  have hboker : w.boker.withoutAbi = w'.boker.withoutAbi := (congrArg World.boker hw :)
  simp only [commitAndReceipt, bind_apply, commitState_apply, receiptOf_apply, signedOutcome,
    World.withoutAbi, hfailed, hgas, hstate, hused, hdpos, hgp, hboker]

theorem StateTransition.nonceBumped_withBoker (sender : Address) (st : StateTransition) (boker : BokerContracts) :
    StateTransition.nonceBumped sender { st with boker } =
      { StateTransition.nonceBumped sender st with boker } := by
  unfold StateTransition.nonceBumped StateTransition.createIfMissing
  split <;> rfl

theorem signedOutcome_contractSetTransaction (e : Bytes) :
    signedOutcome (contractSetTransaction env header (tx.setExtra e) w) =
      signedOutcome (contractSetTransaction env header tx w) := by
  rw [contractSetTransaction_apply, contractSetTransaction_apply, Transaction.asMessage_setExtra]
  cases tx.asMessage env.crypto with
  | error err => rfl
  | ok msg =>
    dsimp only [Except.map]
    rw [contractMessage_apply, contractMessage_apply, StateTransition.contractTransitionDb_apply,
      StateTransition.contractTransitionDb_apply]
    have hpre : ∀ st, StateTransition.preCheck { msg with extra := e } st =
        StateTransition.preCheck msg st := fun _ ↦ rfl
    rw [hpre]
    cases StateTransition.preCheck msg (StateTransition.new w.gp w.statedb w.boker) with
    | error err st₁ => rfl
    | ok u st₁ =>
      dsimp only
      cases msg.recipient with
      | some callee =>
        dsimp only
        refine signedOutcome_commitAndReceipt rfl rfl ?_
        simp only [StateTransition.nonceBumped_withBoker, World.withoutAbi, World.absorb]
        rw [StateTransition.writeContract_withoutAbi _ _ _ _ e msg.extra]
      | none =>
        dsimp only
        split_ifs
        · rfl
        · refine signedOutcome_commitAndReceipt rfl rfl rfl

/-- Replacing the extra data of a transaction, which no signature covers, changes nothing of
`ApplyTransaction` but the ABI texts of the registry (and the transaction and receipt hash it hands
back). -/
theorem signedOutcome_applyTransaction (e : Bytes) :
    signedOutcome (applyTransaction env header (tx.setExtra e) w) =
      signedOutcome (applyTransaction env header tx w) := by
  rw [applyTransaction_apply, applyTransaction_apply, Transaction.asMessage_setExtra]
  cases tx.asMessage env.crypto with
  | error err => rfl
  | ok msg =>
    dsimp only [Except.map]
    split_ifs
    · rw [binaryTransaction_setExtra]
    · rfl
    · exact signedOutcome_contractSetTransaction e
    · rw [baseTransaction_setExtra]
    · rw [validatorTransaction_setExtra]
    · rfl

end World

/-- The same `SetPersonalContract` transaction with the extra data `[1, 2]`: same signing hash,
same sender, yet the registry stores `[1, 2]` as the ABI of `5`, where the original leaves none. -/
theorem abi_follows_unsigned_extra :
    (personalContractTx.setExtra [1, 2]).sigHash sampleCrypto =
        personalContractTx.sigHash sampleCrypto ∧
      (okState (World.applyTransaction (sampleEnv (idleEvm 0)) sampleHeader personalContractTx
        sampleWorld)).map (fun w ↦ w.boker.abiTrie.tryGet 5) = some [] ∧
      (okState (World.applyTransaction (sampleEnv (idleEvm 0)) sampleHeader
        (personalContractTx.setExtra [1, 2]) sampleWorld)).map
          (fun w ↦ w.boker.abiTrie.tryGet 5) = some [1, 2] := by
  set_option maxRecDepth 4096 in decide

end BokerChain
