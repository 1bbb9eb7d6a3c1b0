import Mathlib

/-!
# Protocol constants, transaction and contract types, errors

The chain-wide definitions of `boker/protocol`, `params` and the error values of `core` and
`core/vm` that the modelled functions return.  Addresses and hashes are the fixed-width
`common.Address` (20 bytes) and `common.Hash` (32 bytes) read as numbers; byte strings are
lists of bytes.

`TxType` and `ContractType` are Go `uint8` types with named constants, so a transaction can
carry any of the 256 codes, not only the named ones; they are modelled as such, with the
constants under the source's names.
-/

namespace BokerChain

/-- `common.Address`: 20 bytes. -/
abbrev Address := Fin (2 ^ 160)

/-- `common.Hash`: 32 bytes. -/
abbrev Hash := Fin (2 ^ 256)

/-- A Go `[]byte`. -/
abbrev Bytes := List UInt8

/-! The widths are positive, so that numerals denote addresses and hashes; the instances name
the fact once rather than have each numeral carry its own proof of it. -/

instance address_width_neZero : NeZero (2 ^ 160) := ⟨(Nat.two_pow_pos 160).ne'⟩

instance hash_width_neZero : NeZero (2 ^ 256) := ⟨(Nat.two_pow_pos 256).ne'⟩

instance bloom_width_neZero : NeZero (2 ^ 2048) := ⟨(Nat.two_pow_pos 2048).ne'⟩

namespace Protocol

/-! ## Constants -/

/-- `ExtraVanity`: the vanity prefix of a header's extra data. -/
def extraVanity : Nat := 32
/-- `ExtraSeal`: the signature suffix of a header's extra data. -/
def extraSeal : Nat := 65
/-- `ProducerInterval`: seconds between two block slots. -/
def producerInterval : Int64 := 5
/-- `TokenNoderInterval`: seconds between two token-assignment slots. -/
def tokenNoderInterval : Int64 := 300
/-- `EpochInterval`: seconds of one epoch (one day). -/
def epochInterval : Int64 := 86400
/-- `MaxValidatorSize`: the number of DPoS validators, as shipped. -/
def maxValidatorSize : Nat := 1
/-- `ConsensusSize`: distinct validators needed to confirm a block. -/
def consensusSize : Nat := 1
/-- `MaxGasPrice`: `2^64 - 1`. -/
def maxGasPrice : Nat := 2 ^ 64 - 1
/-- `MaxGasLimit`: zero, the gas limit of the base transactions the node builds. -/
def maxGasLimit : Nat := 0
/-- `SetValidatorVotes`: the vote count recorded for a validator set by a transaction. -/
def setValidatorVotes : Nat := 10000
/-- `BobbyUnit`. -/
def bobbyUnit : Nat := 10 ^ 17
/-- `BobbyMultiple`: the block reward is `BobbyUnit * BobbyMultiple`. -/
def bobbyMultiple : Nat := 110
/-- `TransferMultiple`: the per-block transfer reward is `BobbyUnit * TransferMultiple`. -/
def transferMultiple : Nat := 165

/-- `params.TxGas`. -/
def txGas : Nat := 21000
/-- `params.TxGasContractCreation`. -/
def txGasContractCreation : Nat := 53000
/-- `params.TxDataZeroGas`. -/
def txDataZeroGas : Nat := 4
/-- `params.TxDataNonZeroGas`. -/
def txDataNonZeroGas : Nat := 68

end Protocol

/-- What the modelled functions ask of `params.ChainConfig`: the fork rules by block number
and the hash the EIP-150 fork block must have (zero for none). -/
structure ChainConfig where
  isByzantium : Nat → Bool
  isEIP158 : Nat → Bool
  isEIP155 : Nat → Bool
  eip150Block : Option Nat
  eip150Hash : Hash

/-! ## Transaction and contract types -/

/-- `protocol.TxType`, a `uint8`. -/
structure TxType where
  code : UInt8
  deriving DecidableEq, Repr

namespace TxType

def binary : TxType := ⟨0⟩
def setValidator : TxType := ⟨1⟩
def setPersonalContract : TxType := ⟨2⟩
def cancelPersonalContract : TxType := ⟨3⟩
def setSystemContract : TxType := ⟨4⟩
def cancelSystemContract : TxType := ⟨5⟩
def registerCandidate : TxType := ⟨6⟩
def voteUser : TxType := ⟨7⟩
def voteCancel : TxType := ⟨8⟩
def voteEpoch : TxType := ⟨9⟩
def userEvent : TxType := ⟨10⟩
def assignToken : TxType := ⟨11⟩

/-- The four types that write the contract registry (`ApplyTransaction`'s first case). -/
def IsContractSet (t : TxType) : Prop :=
  t = setPersonalContract ∨ t = cancelPersonalContract ∨ t = setSystemContract ∨
    t = cancelSystemContract

instance (t : TxType) : Decidable t.IsContractSet := by
  unfold IsContractSet; infer_instance

/-- The five base types run through `BaseTransitionDb` (`ApplyTransaction`'s second case). -/
def IsBase (t : TxType) : Prop :=
  t = voteUser ∨ t = voteEpoch ∨ t = assignToken ∨ t = registerCandidate ∨ t = userEvent

instance (t : TxType) : Decidable t.IsBase := by
  unfold IsBase; infer_instance

theorem IsBase.ne_binary {t : TxType} (h : t.IsBase) : t ≠ binary := by
  rcases h with rfl | rfl | rfl | rfl | rfl <;> decide

theorem IsBase.not_isContractSet {t : TxType} (h : t.IsBase) : ¬t.IsContractSet := by
  rcases h with rfl | rfl | rfl | rfl | rfl <;> decide

theorem IsContractSet.ne_binary {t : TxType} (h : t.IsContractSet) : t ≠ binary := by
  rcases h with rfl | rfl | rfl | rfl <;> decide

end TxType

/-- `protocol.ContractType`, a `uint8`. -/
structure ContractType where
  code : UInt8
  deriving DecidableEq, Repr

namespace ContractType

def binaryContract : ContractType := ⟨0⟩
def systemContract : ContractType := ⟨1⟩
def personalContract : ContractType := ⟨2⟩

end ContractType

/-! ## Errors -/

/-- The error values the modelled functions return, each under the name of its Go variable
(or, for an inline `errors.New`, a name for its text).  `runtimePanic` stands for a Go
runtime panic (an index out of range), which is not an error value but ends the run. -/
inductive Error where
  | errInsufficientBalanceForGas
  | errOutOfGas
  | errGasLimitReached
  | errNonceTooHigh
  | errNonceTooLow
  | errInsufficientBalance
  | errToIsNil
  | errInvalidType
  | errInvalidProducerTime
  | errInvalidProducer
  | errInvalidTokenTime
  | errInvalidTokenNoder
  | errEpochTrieNil
  | errDecodeValidators
  | errValidatorsIsFull
  | errContractExist
  | errNotFoundContract
  | errTxType
  | errInvalidSig
  | errInvalidPubkey
  | errRecoverFailed
  | errMissingSignature
  | errNotFoundFirstBlock
  | errNotAssignTokenProducer
  | errBlockNumberNotZero
  | errMismatchSignerAndValidator
  | errMintFutureBlock
  | errInvalidTimestamp
  | errFutureBlock
  | errUnknownAncestor
  | errMissingVanity
  | errInvalidMixDigest
  | errInvalidUncleHash
  | errInvalidDifficulty
  | errForkHashMismatch
  | errUncleRootMismatch
  | errTxRootMismatch
  | errInvalidGasUsed
  | errInvalidBloom
  | errInvalidReceiptRoot
  | errInvalidMerkleRoot
  | errInvalidDposRoot
  | errNilBlockHeader
  | runtimePanic
  deriving DecidableEq, Repr

/-- The text of each error, as the source has it. -/
def Error.message : Error → String
  | .errInsufficientBalanceForGas => "insufficient balance to pay for gas"
  | .errOutOfGas => "out of gas"
  | .errGasLimitReached => "gas limit reached"
  | .errNonceTooHigh => "nonce too high"
  | .errNonceTooLow => "nonce too low"
  | .errInsufficientBalance => "insufficient balance for transfer"
  | .errToIsNil => "setValidator block header to is nil"
  | .errInvalidType => "invalid transaction type"
  | .errInvalidProducerTime => "invalid time to mint the block"
  | .errInvalidProducer => "invalid current producer"
  | .errInvalidTokenTime => "invalid time to assign token noder"
  | .errInvalidTokenNoder => "invalid current token noder"
  | .errEpochTrieNil => "failed to producers length is zero"
  | .errDecodeValidators => "failed to decode validators"
  | .errValidatorsIsFull => "Current Validators is Full"
  | .errContractExist => "bokerchain contract aleady exist"
  | .errNotFoundContract => "not found bokerchain contract"
  | .errTxType => "failed to tx type"
  | .errInvalidSig => "invalid transaction v, r, s values"
  | .errInvalidPubkey => "invalid public key"
  | .errRecoverFailed => "recovery failed"
  | .errMissingSignature => "extra-data 65 byte suffix signature missing"
  | .errNotFoundFirstBlock => "not found first block"
  | .errNotAssignTokenProducer => "from address not assign token producer"
  | .errBlockNumberNotZero => "current block number is`t zero"
  | .errMismatchSignerAndValidator => "mismatch block signer and validator"
  | .errMintFutureBlock => "mint the future block"
  | .errInvalidTimestamp => "invalid timestamp"
  | .errFutureBlock => "block in the future"
  | .errUnknownAncestor => "unknown ancestor"
  | .errMissingVanity => "extra-data 32 byte vanity prefix missing"
  | .errInvalidMixDigest => "non-zero mix digest"
  | .errInvalidUncleHash => "non empty uncle hash"
  | .errInvalidDifficulty => "invalid difficulty"
  | .errForkHashMismatch => "homestead gas reprice fork"
  | .errUncleRootMismatch => "uncle root hash mismatch"
  | .errTxRootMismatch => "transaction root hash mismatch"
  | .errInvalidGasUsed => "invalid gas used"
  | .errInvalidBloom => "invalid bloom"
  | .errInvalidReceiptRoot => "invalid receipt root hash"
  | .errInvalidMerkleRoot => "invalid merkle root"
  | .errInvalidDposRoot => "invalid dpos root"
  | .errNilBlockHeader => "nil block header returned"
  | .runtimePanic => "runtime error: index out of range"

/-- The text of a panic on an index out of range, for the functions modelled with their panic's
text. -/
def indexOutOfRange : String := Error.runtimePanic.message

end BokerChain
