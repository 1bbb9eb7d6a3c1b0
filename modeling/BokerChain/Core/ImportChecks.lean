import BokerChain.Core.GasAccounting
import BokerChain.Core.BlockChain

/-!
# What the importer's checks cover

`insertChain` checks three commitments of a processed block against its own results: the state
root (`ValidateState`), the DPoS proto (`ValidateDposState`) and, through the seal, the signer.
The Boker proto that `Finalize` writes into the header is checked by nothing, so a block whose
header carries another proto than its registry's is accepted (`unchecked_boker_proto_accepted`).

The registry is not rolled back either.  It is the node's single `BokerBackend`, which
`ContractTransitionDb` writes while the block is processed; once processing has run, the
registry is what it left, whether the checks after it accept the block or not
(`rejected_block_keeps_registration`).

Two outputs of the registry range over its Go map: the list of addresses `setContractsTrie`
stores, and the system contract `GetContractAddr` finds for `AccumulateRewards`.  Nothing keeps
a second address from being registered as a system contract: `SetContract` refuses only an
address already registered, and `ContractTransitionDb` checks no permission.  A block with two
`SetSystemContract` transactions then leaves a registry whose stored list, and whose rewarded
system contract, depend on the order the runtime draws (`system_reward_follows_range_order`).
-/

namespace BokerChain

open Library Imperative

/-! ## The registry under two orders of the range -/

/-- The chain of `sampleEnv`, ranging over maps in the order `o`. -/
def orderedEnv (o : RangeOrder Address ContractType) : ChainEnv :=
  { sampleEnv (idleEvm 0) with order := o }

/-- A `SetSystemContract` transaction from `64` registering `callee`, with no gas. -/
def setSystemTx (nonce : UInt64) (callee : Address) : Transaction :=
  ⟨⟨nonce, 0, 0, some callee, 0, .setSystemContract, 0, [], [], 27, 1, 1⟩, none⟩

/-- Block 2 registering `5`, then `6`, as system contracts. -/
def systemPairBlock : Block := ⟨sampleHeader, [setSystemTx 0 5, setSystemTx 1 6], DposContext.empty⟩

/-- Processing the block in the stored order of the map and in the reverse order: the list in the
contracts trie comes out in two orders, and the transfer reward goes to `6` in the first run and
to `5` in the second. -/
theorem system_reward_follows_range_order :
    (okState (World.process (orderedEnv .stored) sampleHeader systemPairBlock sampleWorld)).map
        (fun w ↦ (w.boker.contractsTrie.tryGet (), w.statedb.getBalance 5,
          w.statedb.getBalance 6)) =
      some (Rlp.encode (Rlp.ofAddresses [6, 5]), 0,
        ↑(Protocol.bobbyUnit * Protocol.transferMultiple)) ∧
    (okState (World.process (orderedEnv .reversed) sampleHeader systemPairBlock sampleWorld)).map
        (fun w ↦ (w.boker.contractsTrie.tryGet (), w.statedb.getBalance 5,
          w.statedb.getBalance 6)) =
      some (Rlp.encode (Rlp.ofAddresses [5, 6]),
        ↑(Protocol.bobbyUnit * Protocol.transferMultiple), 0) := by
  set_option maxRecDepth 4096 in decide

/-! ## Block 1 on a genesis block

A child of the genesis block that passes every check of the importer under `sampleEnv`, where all
roots and derivations are zero, except for the gas used it declares. -/

/-- The genesis block's header: block 0 at time 0. -/
def genesisHeader : Header :=
  ⟨0, 0, 0, 0, 0, 0, 0, ⟨0, 0, 0⟩, ⟨0, 0, 0⟩, 0, 1, 0, 30000, 0, 0, [], 0, 0⟩

/-- Block 1 at time 10 on top of `genesisHeader`, with an extra field long enough for the vanity
and the seal. -/
def childHeader (gasUsed : Nat) (bokerProto : BokerBackendProto) : Header :=
  ⟨genesisHeader.hash sampleCrypto, Dpos.uncleHash sampleCrypto, 64, 0, 0, 0, 0, ⟨0, 0, 0⟩,
    bokerProto, 0, 1, 1, 30000, gasUsed, 10, List.replicate 97 0, 0, 0⟩

/-- Derivations that map everything to the zero hash. -/
def zeroDerivations : Derivations := ⟨fun _ ↦ 0, fun _ ↦ 0, fun _ ↦ 0⟩

/-- Block 1 with one `SetSystemContract` transaction registering `5`. -/
def childBlock (gasUsed : Nat) (bokerProto : BokerBackendProto) : Block :=
  ⟨childHeader gasUsed bokerProto, [setSystemTx 0 5], DposContext.empty⟩

/-- The importer rejects the block, which declares a gas used of 1 where processing counts 0,
and the node's registry holds the system contract the block registered. -/
theorem rejected_block_keeps_registration :
    (failure (insertBlock (sampleEnv (idleEvm 0)) zeroDerivations 10 (.ok ()) genesisHeader
      sampleState DposContext.empty (childBlock 1 ⟨0, 0, 0⟩) BokerContracts.empty)).map
      (fun r ↦ (r.1, r.2.getContract 5)) = some (.errInvalidGasUsed, .systemContract) := by
  set_option maxRecDepth 4096 in decide

/-- The importer accepts the block with the Boker proto `(7, 7, 7)` in its header, while the
proto of the registry it leaves is `(0, 0, 0)`. -/
theorem unchecked_boker_proto_accepted :
    (okState (insertBlock (sampleEnv (idleEvm 0)) zeroDerivations 10 (.ok ()) genesisHeader
      sampleState DposContext.empty (childBlock 0 ⟨7, 7, 7⟩) BokerContracts.empty)).map
      (fun c ↦ c.toProto (sampleEnv (idleEvm 0)).bokerRoots) = some ⟨0, 0, 0⟩ := by
  set_option maxRecDepth 4096 in decide

end BokerChain
