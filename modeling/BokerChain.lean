import BokerChain.Library.Imperative
import BokerChain.Library.GoMap
import BokerChain.Library.GoSort
import BokerChain.Library.UndoLog
import BokerChain.Protocol
import BokerChain.Rlp.Encode
import BokerChain.Types.DposContext
import BokerChain.Types.Transaction
import BokerChain.Boker.Contracts
import BokerChain.Types.Block
import BokerChain.Library.FixedWidth
import BokerChain.Consensus.Dpos
import BokerChain.Consensus.ProducerAgreement
import BokerChain.Core.StateDB
import BokerChain.Core.Journal
import BokerChain.Core.JournalView
import BokerChain.Core.Revert
import BokerChain.Core.StateTransition
import BokerChain.Core.StateProcessor
import BokerChain.Core.BlockChain
import BokerChain.Core.GasAccounting
import BokerChain.Core.TransactionFrame
import BokerChain.Core.ReplayProtection
import BokerChain.Core.RegistryRuns
import BokerChain.Core.ImportChecks
import BokerChain.Core.Authorisation
import BokerChain.Core.SignedFields
import BokerChain.Common.Bitutil
import BokerChain.Compression.Rle
import BokerChain.Library.Solidity
import BokerChain.Contracts.ChainLock
import BokerChain.Contracts.NodeData
import BokerChain.Contracts.Voting
import BokerChain.Consensus.ValidatorSet
import BokerChain.Consensus.MintCount
import BokerChain.Consensus.Confirmation
import BokerChain.Trie.Encoding
import BokerChain.Common.Number
import BokerChain.Vm.Analysis
import BokerChain.Vm.Memory
import BokerChain.Library.GoHeap
import BokerChain.Core.TxList
import BokerChain.Library.QueueMerge
import BokerChain.Types.PriceAndNonce
import BokerChain.Library.Frame
import BokerChain.Contracts.TokenPower
