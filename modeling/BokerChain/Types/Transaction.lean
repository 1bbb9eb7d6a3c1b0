import BokerChain.Rlp.Encode

/-!
# Transactions, their signatures and their messages

`types.Transaction` and its `txdata`.  The chain signs with `HomesteadSigner` only
(`MakeSigner` ignores the configuration), whose signing hash is `FrontierSigner.Hash`: the
Keccak-256 of the RLP list of nonce, price, gas limit, recipient, amount, type, time and
payload.  `Extra` is not among them, while `Transaction.Hash`, the RLP hash of the whole
`txdata`, covers it.  The sender is recovered from the signing hash and `(V, R, S)` by
`recoverPlain`.

Keccak-256 and secp256k1 public-key recovery are taken as given (`Crypto`); everything around
them (the signature-value checks, the packing of the signature, the address of the key) is
modelled.  The transaction's hash cache is kept, since `Hash` returns a cached value once it
has been computed, even after `SetExtra` changes the data.
-/

namespace BokerChain

/-- The cryptographic primitives: Keccak-256, and `crypto.Ecrecover`, the uncompressed public
key that signed a 32-byte hash with a 65-byte `[R || S || V]` signature. -/
structure Crypto where
  keccak256 : Bytes → Hash
  ecrecover : Hash → Bytes → Except Error Bytes

/-- A stand-in for Keccak-256: the length of the input. -/
def lengthKeccak (b : Bytes) : Hash := ⟨b.length % 2 ^ 256, Nat.mod_lt _ (Nat.two_pow_pos 256)⟩

/-- The address of a public key: the low 20 bytes of the Keccak-256 of its coordinates. -/
def addressOfKeyHash (h : Hash) : Address := ⟨h.val % 2 ^ 160, Nat.mod_lt _ (Nat.two_pow_pos 160)⟩

/-- The order `N` of secp256k1. -/
def secp256k1N : Nat := 0xfffffffffffffffffffffffffffffffebaaedce6af48a03bbfd25e8cd0364141

/-- `crypto.ValidateSignatureValues`. -/
def validateSignatureValues (v : UInt8) (r s : Nat) (homestead : Bool) : Bool :=
  if r < 1 ∨ s < 1 then false
  else if homestead ∧ secp256k1N / 2 < s then false
  else r < secp256k1N ∧ s < secp256k1N ∧ (v = 0 ∨ v = 1)

/-- `recoverPlain`: the signer of `sighash` under the signature values `(R, S, V)`. -/
def recoverPlain (c : Crypto) (sighash : Hash) (r s vb : Nat) (homestead : Bool) :
    Except Error Address := do
  -- `Vb.BitLen() > 8`
  if 2 ^ 8 ≤ vb then throw .errInvalidSig
  -- `byte(Vb.Uint64() - 27)`: the difference in `uint64`, then its low byte
  let v := UInt8.ofNat ((vb + 2 ^ 64 - 27) % 2 ^ 64)
  if !validateSignatureValues v r s homestead then throw .errInvalidSig
  let sig := Rlp.fixedBytes 32 r ++ Rlp.fixedBytes 32 s ++ [v]
  let pub ← c.ecrecover sighash sig
  match pub with
  | 4 :: coordinates => return addressOfKeyHash (c.keccak256 coordinates)
  | _ => throw .errInvalidPubkey

/-- `txdata`. -/
structure TxData where
  accountNonce : UInt64
  price : Nat
  gasLimit : Nat
  recipient : Option Address
  amount : Nat
  type : TxType
  time : Nat
  payload : Bytes
  extra : Bytes
  v : Nat
  r : Nat
  s : Nat
  deriving DecidableEq, Repr

namespace TxData

/-- The fields `FrontierSigner.Hash` encodes, in its order. -/
def signingItems (d : TxData) : List Rlp.Item :=
  [Rlp.ofUint d.accountNonce.toNat, Rlp.ofUint d.price, Rlp.ofUint d.gasLimit,
    Rlp.ofAddressPtr d.recipient, Rlp.ofUint d.amount, Rlp.ofUint d.type.code.toNat,
    Rlp.ofUint d.time, .str d.payload]

/-- The RLP value of the whole `txdata`, the encoding of a transaction. -/
def item (d : TxData) : Rlp.Item :=
  .list (d.signingItems ++ [.str d.extra, Rlp.ofUint d.v, Rlp.ofUint d.r, Rlp.ofUint d.s])

end TxData

/-- `types.Transaction`: its data and the cache of its hash. -/
structure Transaction where
  data : TxData
  hashCache : Option Hash := none
  deriving DecidableEq, Repr

namespace Transaction

/-- `FrontierSigner.Hash`, the hash `HomesteadSigner` signs. -/
def sigHash (c : Crypto) (tx : Transaction) : Hash :=
  c.keccak256 (Rlp.encode (.list tx.data.signingItems))

/-- The RLP hash of the current data, what `Hash` computes when nothing is cached. -/
def rlpHash (c : Crypto) (tx : Transaction) : Hash := c.keccak256 (Rlp.encode tx.data.item)

/-- `Hash`: the cached value if there is one. -/
def hash (c : Crypto) (tx : Transaction) : Hash := tx.hashCache.getD (tx.rlpHash c)

/-- The transaction after a call of `Hash`, which stores the value it returns. -/
def cacheHash (c : Crypto) (tx : Transaction) : Transaction :=
  { tx with hashCache := some (tx.hash c) }

/-- `SetExtra`: overwrite the extra data; the hash cache is left as it is. -/
def setExtra (tx : Transaction) (extra : Bytes) : Transaction :=
  { tx with data := { tx.data with extra } }

section SetExtra

variable (c : Crypto) (tx : Transaction) (extra : Bytes)

@[simp]
theorem sigHash_setExtra : (tx.setExtra extra).sigHash c = tx.sigHash c := rfl

@[simp]
theorem hash_setExtra_cacheHash : ((tx.cacheHash c).setExtra extra).hash c = tx.hash c := rfl

@[simp]
theorem cacheHash_setExtra_cacheHash :
    ((tx.cacheHash c).setExtra extra).cacheHash c = (tx.cacheHash c).setExtra extra := rfl

end SetExtra

/-- `Protected`: every `V` other than 27 and 28 marks an EIP-155 signature. -/
def isProtected (tx : Transaction) : Bool := tx.data.v ≠ 27 ∧ tx.data.v ≠ 28

/-- `HomesteadSigner.Sender`. -/
def sender (c : Crypto) (tx : Transaction) : Except Error Address :=
  recoverPlain c (tx.sigHash c) tx.data.r tx.data.s tx.data.v true

end Transaction

/-- `types.Message`, what a transaction asks the state transition to do. -/
structure Message where
  sender : Address
  recipient : Option Address
  nonce : UInt64
  amount : Nat
  gasLimit : Nat
  gasPrice : Nat
  data : Bytes
  extra : Bytes
  txType : TxType
  checkNonce : Bool
  deriving DecidableEq, Repr

/-- `Transaction.AsMessage` under `MakeSigner`, which is always `HomesteadSigner`. -/
def Transaction.asMessage (c : Crypto) (tx : Transaction) : Except Error Message := do
  let sender ← tx.sender c
  return {
    sender := sender
    recipient := tx.data.recipient
    nonce := tx.data.accountNonce
    amount := tx.data.amount
    gasLimit := tx.data.gasLimit
    gasPrice := tx.data.price
    data := tx.data.payload
    extra := tx.data.extra
    txType := tx.data.type
    checkNonce := true }

end BokerChain
