import BokerChain.Types.Transaction
import BokerChain.Boker.Contracts

/-!
# Headers and blocks

`types.Header` with the two Boker additions, `DposProto` and `BokerProto`, and `types.Block`
with the DPoS context the importer attaches to it.  A header is sealed by a signature in the
last 65 bytes of its extra data over `sigHash`, the RLP hash of every other field with the two
protos replaced by their roots; `ecrecover` recovers the signer.
-/

namespace BokerChain

/-- `types.Header`. -/
structure Header where
  parentHash : Hash
  uncleHash : Hash
  validator : Address
  coinbase : Address
  root : Hash
  txHash : Hash
  receiptHash : Hash
  dposProto : DposContextProto
  bokerProto : BokerBackendProto
  bloom : Fin (2 ^ 2048)
  difficulty : Nat
  number : Nat
  gasLimit : Nat
  gasUsed : Nat
  time : Nat
  extra : Bytes
  mixDigest : Hash
  nonce : UInt64
  deriving DecidableEq, Repr

namespace Header

/-- `big.Int.Int64` of the header time: its low 64 bits as a signed number. -/
def time64 (h : Header) : Int64 := Int64.ofNat h.time

/-- `sigHash`: the hash the producer signs. -/
def sigHash (c : Crypto) (h : Header) : Hash :=
  c.keccak256 (Rlp.encode (.list [Rlp.ofHash h.parentHash, Rlp.ofHash h.uncleHash,
    Rlp.ofAddress h.validator, Rlp.ofAddress h.coinbase, Rlp.ofHash h.root,
    Rlp.ofHash h.txHash, Rlp.ofHash h.receiptHash, .str (Rlp.fixedBytes 256 h.bloom.val),
    Rlp.ofUint h.difficulty, Rlp.ofUint h.number, Rlp.ofUint h.gasLimit,
    Rlp.ofUint h.gasUsed, Rlp.ofUint h.time, .str (h.extra.take (h.extra.length - 65)),
    Rlp.ofHash h.mixDigest, .str (Rlp.fixedBytes 8 h.nonce.toNat),
    Rlp.ofHash (h.dposProto.root c.keccak256), Rlp.ofHash (h.bokerProto.root c.keccak256)]))

/-- `Header.Hash`: the RLP hash of every field, the seal included and the two protos as lists
of their roots. -/
def hash (c : Crypto) (h : Header) : Hash :=
  c.keccak256 (Rlp.encode (.list [Rlp.ofHash h.parentHash, Rlp.ofHash h.uncleHash,
    Rlp.ofAddress h.validator, Rlp.ofAddress h.coinbase, Rlp.ofHash h.root,
    Rlp.ofHash h.txHash, Rlp.ofHash h.receiptHash,
    .list [Rlp.ofHash h.dposProto.epochHash, Rlp.ofHash h.dposProto.validatorHash,
      Rlp.ofHash h.dposProto.blockCntHash],
    .list [Rlp.ofHash h.bokerProto.singleHash, Rlp.ofHash h.bokerProto.contractsHash,
      Rlp.ofHash h.bokerProto.contracAbiHash],
    .str (Rlp.fixedBytes 256 h.bloom.val), Rlp.ofUint h.difficulty, Rlp.ofUint h.number,
    Rlp.ofUint h.gasLimit, Rlp.ofUint h.gasUsed, Rlp.ofUint h.time, .str h.extra,
    Rlp.ofHash h.mixDigest, .str (Rlp.fixedBytes 8 h.nonce.toNat)]))

/-- `dpos.ecrecover`: the signer of the seal in the last 65 bytes of the extra data. -/
def ecrecover (c : Crypto) (h : Header) : Except Error Address :=
  if h.extra.length < Protocol.extraSeal then .error .errMissingSignature
  else do
    let pubkey ← c.ecrecover (h.sigHash c) (h.extra.drop (h.extra.length - Protocol.extraSeal))
    return addressOfKeyHash (c.keccak256 pubkey.tail)

end Header

/-- `types.Block`: a header, its transactions, and the DPoS context an importer loads. -/
structure Block where
  header : Header
  transactions : List Transaction
  dposContext : DposContext

end BokerChain
