import BokerChain.Core.StateTransition
import BokerChain.Types.Block

/-!
# Applying a transaction

`ApplyTransaction` recovers the message of a transaction and dispatches on its type: binary
transactions to `binaryTransaction` (`TransitionDb`), the four contract types to
`contractSetTransaction`, the five base types to `baseTransaction`, `SetValidator` to
`validatorTransaction`; any other type, and a typed transaction without recipient, is refused.

Every path runs its message on a fresh `StateTransition` over the shared objects (the block's gas
pool, the state database and the process-wide contract registry) and then ends the same way: it
writes the extra data the transition returned into the transaction (`SetExtra`), commits the
state (`Finalise`, or `IntermediateRoot` before Byzantium), adds the gas the message reports to
the block's counter and builds the receipt.  `baseTransaction` first checks that an
`AssignToken` transaction comes from the token noder of its time; `validatorTransaction` checks
that the sender is the producer of the header's slot, or, when there is no producer and the
chain is at block 0, lets any sender through, and then replaces the validator list of the block's
DPoS context with the recipient.

The miner fills a block under construction with `Work.commitTransactions`: it takes the pending
transactions in the order the price-and-nonce heap yields them and runs each through
`commitTransaction`, which applies it with `ApplyTransaction` and, on an error, rolls the state
database and the DPoS context back to their snapshots.  The gas pool, the header's gas counter
and the registry are not rolled back.  After a transaction that exceeds the block's gas or has a
nonce too high, the sender's remaining transactions are skipped (`Pop`); after any other outcome
the loop moves on (`Shift`).  The heap's order is the list the loop is given.
-/

namespace BokerChain

open Library Imperative

/-- What processing a block reads and does not change: the configuration, the primitives, the
EVM of the block, the ABI helpers, the iteration order of the registry map, the Merkle roots,
and what the chain is asked (the genesis block's time, `none` when `GetBlockByNumber(0)` finds
nothing, and the number of the current head). -/
structure ChainEnv where
  config : ChainConfig
  crypto : Crypto
  evm : Evm
  abi : Abi
  order : RangeOrder Address ContractType
  stateRoot : StateDB → Hash
  dposRoots : DposTrieRoots
  bokerRoots : BokerTrieRoots
  genesisTime : Option Nat
  currentNumber : Nat

/-- The objects `ApplyTransaction` changes: the state database, the block's DPoS context, the
block's gas pool and gas counter, and the contract registry of the node. -/
structure World where
  statedb : StateDB
  dposContext : DposContext
  gp : Nat
  usedGas : Nat
  boker : BokerContracts

/-- `types.Receipt`, without the logs and their bloom. -/
structure Receipt where
  postState : Option Hash
  failed : Bool
  cumulativeGasUsed : Nat
  txHash : Hash
  gasUsed : Nat
  contractAddress : Address

/-- What the message functions return to their transaction path. -/
structure MessageResult where
  extra : Bytes
  gas : Nat
  failed : Bool

/-- `crypto.CreateAddress`: the address of the contract an account creates at a nonce. -/
def createAddress (c : Crypto) (b : Address) (nonce : UInt64) : Address :=
  addressOfKeyHash (c.keccak256 (Rlp.encode (.list [Rlp.ofAddress b, Rlp.ofUint nonce.toNat])))

namespace World

/-- The shared objects as a transition leaves them. -/
def absorb (w : World) (st : StateTransition) : World :=
  { w with gp := st.gp, statedb := st.state, boker := st.boker }

/-- Run a transition on a `NewStateTransition` over the shared pool, state and registry, whose
changes stay on every exit. -/
def withTransition {α : Type} (x : EStateM Error StateTransition α) : EStateM Error World α :=
  fun w ↦
    match x (StateTransition.new w.gp w.statedb w.boker) with
    | .ok a st => .ok a (w.absorb st)
    | .error e st => .error e (w.absorb st)

section Paths

variable (env : ChainEnv) (header : Header) (tx : Transaction)

/-- `BinaryMessage`. -/
def binaryMessage (msg : Message) : EStateM Error World MessageResult := do
  let r ← withTransition (StateTransition.transitionDb env.evm env.abi msg)
  return ⟨r.extra, r.usedGas, r.failed⟩

/-- `baseMessage`: the gas reported is zero. -/
def baseMessage (msg : Message) : EStateM Error World MessageResult := do
  let r ← withTransition (StateTransition.baseTransitionDb env.evm env.abi msg)
  return ⟨r.extra, 0, r.failed⟩

/-- `contractMessage`: the gas reported is zero. -/
def contractMessage (msg : Message) (txType : TxType) : EStateM Error World MessageResult := do
  let r ← withTransition (StateTransition.contractTransitionDb env.order msg txType)
  return ⟨r.extra, 0, r.failed⟩

/-- `validatorMessage`: the gas reported is zero. -/
def validatorMessage (msg : Message) : EStateM Error World MessageResult := do
  let r ← withTransition (StateTransition.validatorTransitionDb env.abi msg)
  return ⟨r.extra, 0, r.failed⟩

/-- `IntermediateRoot`: finalise the state and take its root. -/
def intermediateRoot (deleteEmptyObjects : Bool) : EStateM Error World Hash :=
  modifyGet fun w ↦
    let statedb := w.statedb.finalise deleteEmptyObjects
    (env.stateRoot statedb, { w with statedb })

/-- The state commit after a transaction: `Finalise(true)` and no root from Byzantium on,
`IntermediateRoot` under EIP-158's rule before. -/
def commitState : EStateM Error World (Option Hash) :=
  if env.config.isByzantium header.number then
    modifyGet fun w ↦ (none, { w with statedb := w.statedb.finalise true })
  else do
    let root ← intermediateRoot env (env.config.isEIP158 header.number)
    return some root

/-- The end of every path: the extra data is written into the transaction, the gas is added to
the block's counter and the receipt records the cumulative gas and the transaction's hash, which
`Hash` caches. -/
def receiptOf (root : Option Hash) (r : MessageResult) (contractAddress : Address) :
    EStateM Error World (Receipt × Nat × Transaction) := do
  let tx := (tx.setExtra r.extra).cacheHash env.crypto
  modify fun w ↦ { w with usedGas := w.usedGas + r.gas }
  let w ← get
  return (⟨root, r.failed, w.usedGas, tx.hash env.crypto, r.gas, contractAddress⟩, r.gas, tx)

/-- `binaryTransaction`. -/
def binaryTransaction : EStateM Error World (Receipt × Nat × Transaction) := do
  let msg ← liftExcept (tx.asMessage env.crypto)
  let r ← binaryMessage env msg
  let root ← commitState env header
  let contractAddress := if msg.recipient.isNone
    then createAddress env.crypto msg.sender tx.data.accountNonce else 0
  receiptOf env tx root r contractAddress

/-- `contractSetTransaction`. -/
def contractSetTransaction : EStateM Error World (Receipt × Nat × Transaction) := do
  let msg ← liftExcept (tx.asMessage env.crypto)
  let r ← contractMessage env msg msg.txType
  let root ← commitState env header
  receiptOf env tx root r 0

/-- The check `baseTransaction` makes of an `AssignToken` transaction: it must come from the
token noder of the time it carries, counted from the genesis block. -/
def checkTokenNoder (dc : DposContext) (msg : Message) : Except Error Unit := do
  if tx.data.type = .assignToken then
    let some first := env.genesisTime | throw .errNotFoundFirstBlock
    let tokenNoder ← dc.getTokenNoder (Int64.ofNat tx.data.time) (Int64.ofNat first)
    if tokenNoder ≠ msg.sender then throw .errNotAssignTokenProducer

/-- `baseTransaction`. -/
def baseTransaction : EStateM Error World (Receipt × Nat × Transaction) := do
  let msg ← liftExcept (tx.asMessage env.crypto)
  liftExcept (checkTokenNoder env tx (← get).dposContext msg)
  let r ← baseMessage env msg
  let root ← commitState env header
  receiptOf env tx root r 0

/-- The validator update of `validatorTransaction`: `Clean`, then `InsertValidator` of the
recipient; the errors of both are ignored. -/
def setValidator (recipient : Option Address) : EStateM Error World Unit := do
  modify fun w ↦ { w with dposContext := ignoreError w.dposContext.clean w.dposContext }
  match recipient with
  | some validator =>
    modify fun w ↦
      let inserted := w.dposContext.insertValidator validator Protocol.setValidatorVotes
      { w with dposContext := ignoreError inserted w.dposContext }
  -- `*msg.To()` on a nil recipient
  | none => throw .runtimePanic

/-- `validatorTransaction`: the producer of the header's time, counted from the genesis block,
must be the sender.  When the lookup fails with `ErrEpochTrieNil` or `ErrInvalidProducer` any
sender passes while the head is block 0. -/
def validatorTransaction : EStateM Error World (Receipt × Nat × Transaction) := do
  let msg ← liftExcept (tx.asMessage env.crypto)
  let some first := env.genesisTime | throw .errNotFoundFirstBlock
  let lookup := (← get).dposContext.getProducer header.time64 (Int64.ofNat first)
  -- `producer, err := GetProducer(...)`: the producer is the zero address after an error
  let producer := ignoreError lookup 0
  let err := errorOf lookup
  if err = some .errEpochTrieNil ∨ err = some .errInvalidProducer then
    if env.currentNumber = 0 then
      let r ← validatorMessage env msg
      setValidator msg.recipient
      let root ← intermediateRoot env false
      receiptOf env tx (some root) r 0
    else throw .errBlockNumberNotZero
  else
    if producer ≠ msg.sender then throw .errNotAssignTokenProducer
    let r ← validatorMessage env msg
    setValidator msg.recipient
    let root ← commitState env header
    receiptOf env tx root r 0

/-- `ApplyTransaction`: the receipt, the gas used and the transaction as the path leaves it. -/
def applyTransaction : EStateM Error World (Receipt × Nat × Transaction) := do
  let msg ← liftExcept (tx.asMessage env.crypto)
  if msg.txType = .binary then binaryTransaction env header tx
  else
    if msg.recipient.isNone then throw .errToIsNil
    if msg.txType.IsContractSet then contractSetTransaction env header tx
    else if msg.txType.IsBase then baseTransaction env header tx
    else if msg.txType = .setValidator then validatorTransaction env header tx
    else throw .errInvalidType

end Paths

/-! ## What each path does -/

section Runs

variable {env : ChainEnv} {header : Header} {tx : Transaction} {w : World}

/-- Whether the state commit after a transaction deletes empty objects: always from Byzantium
on, under EIP-158's rule before. -/
def commitDeletes (env : ChainEnv) (header : Header) : Bool :=
  env.config.isByzantium header.number || env.config.isEIP158 header.number

theorem commitState_apply : commitState env header w =
    .ok (if env.config.isByzantium header.number then none
        else some (env.stateRoot (w.statedb.finalise (env.config.isEIP158 header.number))))
      { w with statedb := w.statedb.finalise (commitDeletes env header) } := by
  unfold commitState commitDeletes
  cases env.config.isByzantium header.number <;> rfl

theorem receiptOf_apply (root : Option Hash) (r : MessageResult) (contractAddress : Address) :
    receiptOf env tx root r contractAddress w =
      let tx' := (tx.setExtra r.extra).cacheHash env.crypto
      .ok (⟨root, r.failed, w.usedGas + r.gas, tx'.hash env.crypto, r.gas, contractAddress⟩,
          r.gas, tx')
        { w with usedGas := w.usedGas + r.gas } := rfl

theorem withTransition_apply {α : Type} (x : EStateM Error StateTransition α) :
    withTransition x w = match x (StateTransition.new w.gp w.statedb w.boker) with
      | .ok a st => .ok a (w.absorb st)
      | .error e st => .error e (w.absorb st) := rfl

theorem baseMessage_apply (msg : Message) : baseMessage env msg w =
    match StateTransition.baseTransitionDb env.evm env.abi msg
        (StateTransition.new w.gp w.statedb w.boker) with
    | .ok r st => .ok ⟨r.extra, 0, r.failed⟩ (w.absorb st)
    | .error e st => .error e (w.absorb st) := by
  simp only [baseMessage, bind_apply, withTransition_apply]
  cases StateTransition.baseTransitionDb env.evm env.abi msg (StateTransition.new w.gp w.statedb w.boker) <;> rfl

theorem contractMessage_apply (msg : Message) (txType : TxType) :
    contractMessage env msg txType w =
      match StateTransition.contractTransitionDb env.order msg txType
          (StateTransition.new w.gp w.statedb w.boker) with
      | .ok r st => .ok ⟨r.extra, 0, r.failed⟩ (w.absorb st)
      | .error e st => .error e (w.absorb st) := by
  simp only [contractMessage, bind_apply, withTransition_apply]
  cases StateTransition.contractTransitionDb env.order msg txType (StateTransition.new w.gp w.statedb w.boker) <;> rfl

theorem validatorMessage_apply (msg : Message) : validatorMessage env msg w =
    match StateTransition.validatorTransitionDb env.abi msg
        (StateTransition.new w.gp w.statedb w.boker) with
    | .ok r st => .ok ⟨r.extra, 0, r.failed⟩ (w.absorb st)
    | .error e st => .error e (w.absorb st) := by
  simp only [validatorMessage, bind_apply, withTransition_apply]
  cases StateTransition.validatorTransitionDb env.abi msg (StateTransition.new w.gp w.statedb w.boker) <;> rfl

theorem binaryMessage_apply (msg : Message) : binaryMessage env msg w =
    match StateTransition.transitionDb env.evm env.abi msg
        (StateTransition.new w.gp w.statedb w.boker) with
    | .ok r st => .ok ⟨r.extra, r.usedGas, r.failed⟩ (w.absorb st)
    | .error e st => .error e (w.absorb st) := by
  simp only [binaryMessage, bind_apply, withTransition_apply]
  cases StateTransition.transitionDb env.evm env.abi msg (StateTransition.new w.gp w.statedb w.boker) <;> rfl

/-- The tail every path but the validator's block-0 branch shares: the state commit, then the
receipt. -/
def commitAndReceipt (env : ChainEnv) (header : Header) (tx : Transaction) (r : MessageResult)
    (contractAddress : Address) : EStateM Error World (Receipt × Nat × Transaction) :=
  commitState env header >>= fun root ↦ receiptOf env tx root r contractAddress

theorem baseTransaction_apply : baseTransaction env header tx w =
    match tx.asMessage env.crypto with
    | .error e => .error e w
    | .ok msg =>
      match checkTokenNoder env tx w.dposContext msg with
      | .error e => .error e w
      | .ok () =>
        match baseMessage env msg w with
        | .error e w₁ => .error e w₁
        | .ok r w₁ => commitAndReceipt env header tx r 0 w₁ := by
  simp only [baseTransaction, commitAndReceipt, bind_apply, get_apply]
  cases tx.asMessage env.crypto with
  | error e => rfl
  | ok msg =>
    simp only [liftExcept_ok]
    cases checkTokenNoder env tx w.dposContext msg with
    | error e => rfl
    | ok u => simp only [liftExcept_ok]; cases baseMessage env msg w <;> rfl

theorem contractSetTransaction_apply : contractSetTransaction env header tx w =
    match tx.asMessage env.crypto with
    | .error e => .error e w
    | .ok msg =>
      match contractMessage env msg msg.txType w with
      | .error e w₁ => .error e w₁
      | .ok r w₁ => commitAndReceipt env header tx r 0 w₁ := by
  simp only [contractSetTransaction, commitAndReceipt, bind_apply]
  cases tx.asMessage env.crypto with
  | error e => rfl
  | ok msg => simp only [liftExcept_ok]; cases contractMessage env msg msg.txType w <;> rfl

theorem binaryTransaction_apply : binaryTransaction env header tx w =
    match tx.asMessage env.crypto with
    | .error e => .error e w
    | .ok msg =>
      match binaryMessage env msg w with
      | .error e w₁ => .error e w₁
      | .ok r w₁ => commitAndReceipt env header tx r
          (if msg.recipient.isNone then createAddress env.crypto msg.sender tx.data.accountNonce
            else 0) w₁ := by
  simp only [binaryTransaction, commitAndReceipt, bind_apply]
  cases tx.asMessage env.crypto with
  | error e => rfl
  | ok msg => simp only [liftExcept_ok]; cases binaryMessage env msg w <;> rfl

theorem commitAndReceipt_ok {r : MessageResult} {contractAddress : Address}
    {res : Receipt × Nat × Transaction} {w' : World}
    (h : commitAndReceipt env header tx r contractAddress w = .ok res w') :
    w' = { w with statedb := w.statedb.finalise (commitDeletes env header),
                  usedGas := w.usedGas + r.gas } ∧
      res.2.1 = r.gas ∧ res.2.2 = (tx.setExtra r.extra).cacheHash env.crypto := by
  simp only [commitAndReceipt, bind_apply, commitState_apply, receiptOf_apply] at h
  cases h
  exact ⟨rfl, rfl, rfl⟩

theorem baseTransaction_ok {res : Receipt × Nat × Transaction} {w' : World}
    (h : baseTransaction env header tx w = .ok res w') :
    ∃ msg r st, tx.asMessage env.crypto = .ok msg ∧
      StateTransition.baseTransitionDb env.evm env.abi msg
        (StateTransition.new w.gp w.statedb w.boker) = .ok r st ∧
      commitAndReceipt env header tx ⟨r.extra, 0, r.failed⟩ 0 (w.absorb st) = .ok res w' := by
  rw [baseTransaction_apply] at h
  cases hmsg : tx.asMessage env.crypto with
  | error e => rw [hmsg] at h; cases h
  | ok msg =>
    rw [hmsg] at h
    dsimp only at h
    cases hcheck : checkTokenNoder env tx w.dposContext msg with
    | error e => rw [hcheck] at h; cases h
    | ok u =>
      rw [hcheck, baseMessage_apply] at h
      cases hrun : StateTransition.baseTransitionDb env.evm env.abi msg
          (StateTransition.new w.gp w.statedb w.boker) with
      | error e st => rw [hrun] at h; cases h
      | ok r st =>
        rw [hrun] at h
        exact ⟨msg, r, st, rfl, hrun, h⟩

theorem applyTransaction_apply : applyTransaction env header tx w =
    match tx.asMessage env.crypto with
    | .error e => .error e w
    | .ok msg =>
      if msg.txType = .binary then binaryTransaction env header tx w
      else if msg.recipient.isNone then .error .errToIsNil w
      else if msg.txType.IsContractSet then contractSetTransaction env header tx w
      else if msg.txType.IsBase then baseTransaction env header tx w
      else if msg.txType = .setValidator then validatorTransaction env header tx w
      else .error .errInvalidType w := by
  simp only [applyTransaction, bind_apply]
  cases tx.asMessage env.crypto with
  | error e => rfl
  | ok msg =>
    simp only [liftExcept_ok, ite_run, throw_apply]
    split_ifs <;> simp_all

end Runs

end World

/-! ## The miner's transaction loop -/

namespace World

variable (env : ChainEnv) (header : Header)

/-- `Work.commitTransaction`. -/
def commitTransaction (tx : Transaction) : EStateM Error World (Receipt × Transaction) := fun w ↦
  match applyTransaction env header tx w with
  | .ok (receipt, _, tx) w' => .ok (receipt, tx) w'
  | .error e w' => .error e { w' with statedb := w.statedb, dposContext := w.dposContext }

/-- Whether an error of `commitTransaction` skips the sender's remaining transactions. -/
def popsSender (e : Error) : Bool := e = .errGasLimitReached ∨ e = .errNonceTooHigh

/-- The loop of `commitTransactions` over the heap's order, with the senders already popped:
the receipts and the transactions the block takes. -/
def commitLoop (popped : List Address) :
    List Transaction → EStateM Error World (List Receipt × List Transaction)
  | [] => pure ([], [])
  | tx :: txs => fun w ↦
    let sender := ignoreError (tx.sender env.crypto) 0
    if sender ∈ popped then commitLoop popped txs w
    else if tx.isProtected ∧ !env.config.isEIP155 header.number then
      commitLoop (sender :: popped) txs w
    else
      -- `tx.Hash()` in `Prepare` caches the hash
      match commitTransaction env header (tx.cacheHash env.crypto) w with
      | .ok (receipt, tx) w' =>
        match commitLoop popped txs w' with
        | .ok (receipts, taken) w'' => .ok (receipt :: receipts, tx :: taken) w''
        | .error e w'' => .error e w''
      | .error e w' =>
        if popsSender e then commitLoop (sender :: popped) txs w'
        else commitLoop popped txs w'

/-- `Work.commitTransactions`: a gas pool of the header's gas limit, then the loop. -/
def commitTransactions (txs : List Transaction) :
    EStateM Error World (List Receipt × List Transaction) := do
  modify fun w ↦ { w with gp := header.gasLimit }
  commitLoop env header [] txs

end World

end BokerChain
