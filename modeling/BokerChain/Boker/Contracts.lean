import BokerChain.Types.DposContext
import BokerChain.Library.GoMap

/-!
# The Boker contract registry and the account table

`boker.BokerContracts` registers base contracts: the Go map `contracts` from an address to its
contract type, and three tries written beside it, `singleTrie` (address to the decimal type),
`abiTrie` (address to the ABI text) and `contractsTrie` (one entry, the RLP list of the
registered addresses).  The list is built by ranging over the map and `GetContractAddr` returns
the first address of a type that the range meets, so both are modelled for the iteration order
the runtime picks (`RangeOrder`).

`SetContract` refuses an address that is already registered and otherwise overwrites the two
per-address tries, inserts into the map and rewrites the list; its `isCancel` argument is not
read.  `CancelContract` deletes from `singleTrie` and the map and rewrites the list, leaving the
ABI in place.  The contract services these functions start and stop run outside the state and
are left out.

`boker.BokerAccount` is the table of privileged accounts; all six role addresses are the same
address, so the later entries overwrite the earlier ones.
-/

namespace BokerChain

open Library

/-- `protocol.BokerBackendProto`: the roots of the three registry tries. -/
structure BokerBackendProto where
  singleHash : Hash
  contractsHash : Hash
  contracAbiHash : Hash
  deriving DecidableEq, Repr

/-- `BokerBackendProto.Root`: Keccak-256 of the three RLP-encoded roots. -/
def BokerBackendProto.root (keccak256 : Bytes → Hash) (p : BokerBackendProto) : Hash :=
  keccak256 (Rlp.encode (Rlp.ofHash p.singleHash) ++ Rlp.encode (Rlp.ofHash p.contractsHash) ++
    Rlp.encode (Rlp.ofHash p.contracAbiHash))

/-- `boker.BokerContracts`, by the contents of its map and tries. -/
structure BokerContracts where
  singleTrie : TrieContents Address
  contractsTrie : TrieContents Unit
  abiTrie : TrieContents Address
  contracts : GoMap Address ContractType

/-- The Merkle roots of the three registry tries, taken as given. -/
structure BokerTrieRoots where
  single : TrieContents Address → Hash
  contracts : TrieContents Unit → Hash
  abi : TrieContents Address → Hash

namespace BokerContracts

/-- A registry with nothing registered. -/
def empty : BokerContracts := ⟨∅, ∅, ∅, ∅⟩

/-- The proto `Finalize` stores in a header: `ToBokerProto` of the three trie roots. -/
def toProto (roots : BokerTrieRoots) (c : BokerContracts) : BokerBackendProto :=
  ⟨roots.single c.singleTrie, roots.contracts c.contractsTrie, roots.abi c.abiTrie⟩

/-- `existContract`. -/
def existContract (c : BokerContracts) (address : Address) : Bool := address ∈ c.contracts

/-- `GetContract`: the registered type, `BinaryContract` for an unregistered address. -/
def getContract (c : BokerContracts) (address : Address) : ContractType :=
  (c.contracts.lookup address).getD .binaryContract

/-- `setContractsTrie`: store the RLP list of the registered addresses, in range order. -/
def setContractsTrie (o : RangeOrder Address ContractType) (c : BokerContracts) :
    BokerContracts :=
  { c with
    contractsTrie :=
      c.contractsTrie.tryUpdate () (Rlp.encode (Rlp.ofAddresses (visitKeys o c.contracts))) }

/-- `SetContract` (with the `CommitTrie` of `BokerBackend.SetContract`, which changes no
content). -/
def setContract (o : RangeOrder Address ContractType) (c : BokerContracts) (address : Address)
    (contractType : ContractType) (_isCancel : Bool) (abiJson : Bytes) :
    Except Error BokerContracts :=
  if c.existContract address then .error .errContractExist
  else .ok (setContractsTrie o { c with
    singleTrie := c.singleTrie.tryUpdate address (decimalBytes contractType.code.toNat)
    abiTrie := c.abiTrie.tryUpdate address abiJson
    contracts := c.contracts.insert address contractType })

/-- `CancelContract`: the ABI entry stays. -/
def cancelContract (o : RangeOrder Address ContractType) (c : BokerContracts)
    (address : Address) : Except Error BokerContracts :=
  .ok (setContractsTrie o { c with
    singleTrie := c.singleTrie.erase address
    contracts := c.contracts.erase address })

/-- `GetContractAddr`: the first address of the given type that the range meets. -/
def getContractAddr (o : RangeOrder Address ContractType) (c : BokerContracts)
    (contractType : ContractType) : Except Error Address :=
  match firstKeyWith o c.contracts (· = contractType) with
  | some address => .ok address
  | none => .error .errNotFoundContract

end BokerContracts

/-! ## The account table -/

/-- `DeloyAddress` and `SystemAddress`, the one address behind every role. -/
def deloyAddress : Address := 0xd7fd311c8f97349670963d87f37a68794dfa80ff

/-- `boker.BokerAccount`: each account's permitted transaction types. -/
structure BokerAccount where
  accounts : GoMap Address (List TxType)

namespace BokerAccount

/-- `NewAccount`: the roles are loaded in order, each overwriting the same address. -/
def newAccount : BokerAccount where
  accounts := ((((((∅ : GoMap Address (List TxType)).insert deloyAddress
    [.setPersonalContract, .cancelPersonalContract]).insert deloyAddress
    [.setSystemContract, .cancelSystemContract]).insert deloyAddress
    [.setValidator]).insert deloyAddress [.setValidator]).insert deloyAddress
    [.setValidator]).insert deloyAddress [.setValidator]

/-- `GetAccount`: unknown accounts get `SetValidator`, a fallback marked for testing. -/
def getAccount (a : BokerAccount) (account : Address) : List TxType :=
  (a.accounts.lookup account).getD [.setValidator]

end BokerAccount

end BokerChain
