import BokerChain.Core.StateProcessor
import BokerChain.Consensus.Dpos

/-!
# Processing and importing a block

`StateProcessor.Process` applies a block's transactions in order on a gas pool of the block's gas
limit and then runs `Finalize`; it stops at the first transaction that fails.  The importer
(`BlockChain.insertChain`) checks a block in this order: the header (`VerifyHeaders`), the body
(`ValidateBody`: the uncle and transaction roots), then processes it on the parent's state and
DPoS context and checks the gas used, the bloom, the receipt root and the state root
(`ValidateState`), the DPoS root (`ValidateDposState`) and the seal (`VerifySeal`).  Nothing
checks the header's `BokerProto`.

The state database and the DPoS context of an import are built from the parent's roots and
dropped when a check fails.  The contract registry is the node's single `BokerBackend`: what
processing writes into it stays, whatever the checks after processing decide.

`Dpos.Finalize` ends the processing of a block on both the producer and the importer: it pays
the block reward to the header's coinbase and the transfer reward to the registered system
contract (`AccumulateRewards`), commits the state, counts the block for its validator in the
epoch trie of minted blocks (`updateMintCnt`), and fills the header's three commitments: the
state root, the DPoS proto and the Boker proto of the registry.
-/

namespace BokerChain.Dpos

open Library Imperative

/-- `AccumulateRewards`: the block reward to the header's coinbase and, when a system contract
is registered, the transfer reward to the first one the range over the registry meets. -/
def accumulateRewards (o : RangeOrder Address ContractType) (boker : BokerContracts)
    (header : Header) (state : StateDB) : StateDB :=
  let state := state.addBalance header.coinbase (Protocol.bobbyUnit * Protocol.bobbyMultiple)
  match boker.getContractAddr o .systemContract with
  | .error _ => state
  | .ok addr => state.addBalance addr (Protocol.bobbyUnit * Protocol.transferMultiple)

/-- `updateMintCnt`: count the block for its validator in the epoch of its time.  The count
goes on from the validator's count in the parent's epoch when the block is in that epoch and
the trie has a key at or after the epoch's 8-byte prefix (`iter.Next()`); otherwise it starts
at one. -/
def updateMintCnt (parentBlockTime currentBlockTime : Int64) (validator : Address)
    (dc : DposContext) : DposContext :=
  let currentEpoch := parentBlockTime / Protocol.epochInterval
  let newEpoch := currentBlockTime / Protocol.epochInterval
  let cnt : UInt64 :=
    if currentEpoch = newEpoch ∧
        dc.blockCntTrie.keys.any (fun k ↦ decide (currentEpoch.toUInt64 ≤ k.1)) then
      match dc.blockCntTrie.lookup (currentEpoch.toUInt64, validator) with
      | some c => c + 1
      | none => 1
    else 1
  { dc with blockCntTrie := dc.blockCntTrie.insert (newEpoch.toUInt64, validator) cnt }

/-- `Dpos.Finalize` on the objects of a processed block, with the parent the chain finds under
the header's parent hash: the header it returns carries the three commitments. -/
def finalize (env : ChainEnv) (parent header : Header) : EStateM Error World Header := do
  modify fun w ↦ { w with statedb := accumulateRewards env.order w.boker header w.statedb }
  let root ← World.intermediateRoot env (env.config.isEIP158 header.number)
  modify fun w ↦ { w with
    dposContext := updateMintCnt parent.time64 header.time64 header.validator w.dposContext }
  let w ← get
  return { header with root, dposProto := w.dposContext.toProto env.dposRoots,
                       bokerProto := w.boker.toProto env.bokerRoots }

theorem finalize_apply (env : ChainEnv) (parent header : Header) (w : World) :
    finalize env parent header w =
      let statedb := (accumulateRewards env.order w.boker header w.statedb).finalise
        (env.config.isEIP158 header.number)
      let dposContext := updateMintCnt parent.time64 header.time64 header.validator w.dposContext
      .ok { header with root := env.stateRoot statedb,
                        dposProto := dposContext.toProto env.dposRoots,
                        bokerProto := w.boker.toProto env.bokerRoots }
        { w with statedb, dposContext } := rfl

end BokerChain.Dpos

namespace BokerChain

open Library Imperative

/-- The Merkle and bloom derivations the importer checks against, taken as given:
`DeriveSha` of the transactions and of the receipts, and `CreateBloom`. -/
structure Derivations where
  txSha : List Transaction → Hash
  receiptSha : List Receipt → Hash
  bloom : List Receipt → Fin (2 ^ 2048)

namespace World

variable (env : ChainEnv) (header : Header)

/-- The loop of `Process`: each transaction in order, whose hash is cached by the log line and
`Prepare` before it runs; the loop stops at the first error. -/
def applyTransactions : List Transaction → EStateM Error World (List Receipt × List Transaction)
  | [] => pure ([], [])
  | tx :: txs => do
    let (receipt, _, tx) ← applyTransaction env header (tx.cacheHash env.crypto)
    let (receipts, txs) ← applyTransactions txs
    return (receipt :: receipts, tx :: txs)

/-- `StateProcessor.Process`, with the parent the chain finds under the header's parent hash:
the receipts and the block's transactions as processing leaves them; the gas used is the world's
counter. -/
def process (parent : Header) (block : Block) :
    EStateM Error World (List Receipt × List Transaction) := do
  modify fun w ↦ { w with gp := block.header.gasLimit, usedGas := 0 }
  let r ← applyTransactions env block.header block.transactions
  let _ ← Dpos.finalize env parent block.header
  return r

end World

/-- `ValidateBody` of a block of the chain's format, which has no uncles: the uncle root and the
transaction root. -/
def validateBody (c : Crypto) (d : Derivations) (block : Block) : Except Error Unit := do
  if Dpos.uncleHash c ≠ block.header.uncleHash then throw .errUncleRootMismatch
  if d.txSha block.transactions ≠ block.header.txHash then throw .errTxRootMismatch

/-- `ValidateState`: the gas used, the bloom, the receipt root and the state root. -/
def validateState (env : ChainEnv) (d : Derivations) (block : Block) (receipts : List Receipt)
    (usedGas : Nat) (statedb : StateDB) : Except Error Unit := do
  if block.header.gasUsed ≠ usedGas then throw .errInvalidGasUsed
  if d.bloom receipts ≠ block.header.bloom then throw .errInvalidBloom
  if d.receiptSha receipts ≠ block.header.receiptHash then throw .errInvalidReceiptRoot
  let root := env.stateRoot (statedb.finalise (env.config.isEIP158 block.header.number))
  if block.header.root ≠ root then throw .errInvalidMerkleRoot

/-- `ValidateDposState`: the root of the header's DPoS proto against the processed context. -/
def validateDposState (env : ChainEnv) (block : Block) (dc : DposContext) : Except Error Unit :=
  if block.header.dposProto.root env.crypto.keccak256 ≠ dc.root env.dposRoots env.crypto.keccak256
  then .error .errInvalidDposRoot
  else .ok ()

/-- The checks of `insertChain` that run after processing. -/
def postProcessChecks (env : ChainEnv) (d : Derivations) (updateConfirmed : Except Error Unit)
    (parent : Header) (parentDpos : DposContext) (block : Block) (receipts : List Receipt)
    (w : World) : Except Error Unit := do
  validateState env d block receipts w.usedGas w.statedb
  validateDposState env block w.dposContext
  Dpos.verifySeal env.crypto parentDpos parent block.header updateConfirmed

/-- One block of `insertChain` on top of its parent, at the clock's time `now`: on success the
state, the DPoS context and the transactions to be written.  The state is the node's
registry. -/
def insertBlock (env : ChainEnv) (d : Derivations) (now : Nat)
    (updateConfirmed : Except Error Unit) (parent : Header) (parentState : StateDB)
    (parentDpos : DposContext) (block : Block) :
    EStateM Error BokerContracts (StateDB × DposContext × List Transaction) := fun boker ↦
  match Dpos.verifyHeader env.crypto env.config now (some parent) block.header *>
      validateBody env.crypto d block with
  | .error e => .error e boker
  | .ok () =>
    match World.process env parent block ⟨parentState, parentDpos, 0, 0, boker⟩ with
    | .error e w => .error e w.boker
    | .ok (receipts, txs) w =>
      match postProcessChecks env d updateConfirmed parent parentDpos block receipts w with
      | .error e => .error e w.boker
      | .ok () =>
        .ok (w.statedb.finalise (env.config.isEIP158 block.header.number), w.dposContext, txs)
          w.boker

end BokerChain
