import BokerChain.Protocol
import BokerChain.Library.GoSort
import BokerChain.Library.UndoLog

/-!
# The journal of the state database

`state.StateDB` with its journal, as `core/state` keeps it.  The live state objects are cached
accounts of the account trie; every setter of an object first appends an entry that records what
it overwrites, and `RevertToSnapshot` replays the entries after a snapshot backwards, each
entry's `undo` restoring its value.  Besides the accounts, the database holds the refund counter,
the logs of the block and the preimages, each journalled the same way.

Two pieces of bookkeeping sit beside the journal and are only partly restored by it.  An object's
`onDirty` callback puts its address in `stateObjectsDirty` at its first change and is then
dropped; an undo neither re-arms it nor clears the mark, except the undo of an object's creation
and that of a touch of an object that was clean before.  A touch of the RIPEMD precompile
(address 3) is not undone at all.  `Finalise` then deletes or writes back exactly the objects
marked dirty.

The trie is the map it stores, from addresses to accounts (its hash is a function of its
contents).  A Go map is a function here, with `nil` as `none`; the dirty set, a map to `struct{}`,
is the list of its keys.  `Keccak-256` is a parameter, as in the rest of the development.
-/

namespace BokerChain.State

open Library

/-- `state.Account`: the record of an account in the account trie.  The storage trie that `Root`
names is held as the storage it maps, and the code the database keeps under `CodeHash` beside
it. -/
structure Account where
  nonce : UInt64
  balance : Int
  storage : Hash → Hash
  codeHash : Hash
  code : Bytes

/-- `Account{}` as `newObject` completes it: no balance, and the hash of no code. -/
def Account.new (keccak256 : Bytes → Hash) : Account := ⟨0, 0, fun _ ↦ 0, keccak256 [], []⟩

/-- `stateObject`: a live account and its flags.  `onDirty` says that the callback is still
set, that is no setter has marked the object dirty yet. -/
structure StateObject where
  address : Address
  data : Account
  suicided : Bool
  touched : Bool
  deleted : Bool
  onDirty : Bool

/-- `newObject`. -/
def newObject (address : Address) (data : Account) : StateObject :=
  ⟨address, data, false, false, false, true⟩

/-- `stateObject.empty` (EIP-161): no nonce, no balance and no code. -/
def StateObject.empty (keccak256 : Bytes → Hash) (so : StateObject) : Bool :=
  so.data.nonce = 0 ∧ so.data.balance = 0 ∧ so.data.codeHash = keccak256 []

/-- `types.Log`, with the fields that `AddLog` fills in. -/
structure Log where
  address : Address
  topics : List Hash
  data : Bytes
  txHash : Hash
  txIndex : ℕ
  blockHash : Hash
  index : ℕ
  deriving DecidableEq

/-- `journalEntry`: each kind records what one change overwrote. -/
inductive Entry where
  | createObjectChange (account : Address)
  | resetObjectChange (prev : StateObject)
  | suicideChange (account : Address) (prev : Bool) (prevbalance : Int)
  | balanceChange (account : Address) (prev : Int)
  | nonceChange (account : Address) (prev : UInt64)
  | storageChange (account : Address) (key prevalue : Hash)
  | codeChange (account : Address) (prevcode : Bytes) (prevhash : Hash)
  | refundChange (prev : ℕ)
  | addLogChange (txhash : Hash)
  | addPreimageChange (hash : Hash)
  | touchChange (account : Address) (prev prevDirty : Bool)

/-- `revision`: a snapshot's id and the length of the journal when it was taken. -/
structure Revision where
  id : ℕ
  journalIndex : ℕ

/-- `StateDB`. -/
structure StateDB where
  trie : Address → Option Account
  stateObjects : Address → Option StateObject
  stateObjectsDirty : List Address
  refund : ℕ
  thash : Hash
  bhash : Hash
  txIndex : ℕ
  logs : Hash → List Log
  logSize : ℕ
  preimages : Hash → Option Bytes
  journal : List Entry
  validRevisions : List Revision
  nextRevisionId : ℕ

/-- The RIPEMD-160 precompile, whose touches are not undone. -/
def ripemd : Address := 3

namespace StateDB

variable (s : StateDB)

/-- `New`: a database over a trie, with nothing live yet. -/
def new (trie : Address → Option Account) : StateDB :=
  ⟨trie, fun _ ↦ none, [], 0, 0, 0, 0, fun _ ↦ [], 0, fun _ ↦ none, [], [], 0⟩

/-- `self.journal = append(self.journal, entry)`. -/
def appendJournal (e : Entry) : StateDB := { s with journal := s.journal ++ [e] }

/-- `getStateObject`: the live object unless it is deleted, else the account the trie holds.  Go
then caches the loaded object in `stateObjects`; the cache holds what the trie does, so the
model reads through it, and each write stores the object it changes. -/
def getStateObject (addr : Address) : Option StateObject :=
  match s.stateObjects addr with
  | some obj => if obj.deleted then none else some obj
  | none => (s.trie addr).map (newObject addr)

/-- `setStateObject`. -/
def setStateObject (object : StateObject) : StateDB :=
  { s with stateObjects := Function.update s.stateObjects object.address (some object) }

/-- A setter's write to an object: the object is stored, and its `onDirty` callback, while still
set, marks the address dirty (`MarkStateObjectDirty`) and is dropped. -/
def writeObject (obj : StateObject) : StateDB :=
  let s := if obj.onDirty then { s with stateObjectsDirty := s.stateObjectsDirty.insert obj.address }
    else s
  s.setStateObject { obj with onDirty := false }

end StateDB

/-! ## The setters of a state object -/

namespace StateObject

variable (s : StateDB) (obj : StateObject)

/-- `setBalance`. -/
def setBalance (amount : Int) : StateDB :=
  s.writeObject { obj with data := { obj.data with balance := amount } }

/-- `SetBalance`. -/
def SetBalance (amount : Int) : StateDB :=
  setBalance (s.appendJournal (.balanceChange obj.address obj.data.balance)) obj amount

/-- `setNonce`. -/
def setNonce (nonce : UInt64) : StateDB :=
  s.writeObject { obj with data := { obj.data with nonce := nonce } }

/-- `SetNonce`. -/
def SetNonce (nonce : UInt64) : StateDB :=
  setNonce (s.appendJournal (.nonceChange obj.address obj.data.nonce)) obj nonce

/-- `setCode`. -/
def setCode (codeHash : Hash) (code : Bytes) : StateDB :=
  s.writeObject { obj with data := { obj.data with codeHash := codeHash, code := code } }

/-- `SetCode`: the entry keeps the code (`Code(db)`) and its hash. -/
def SetCode (codeHash : Hash) (code : Bytes) : StateDB :=
  setCode (s.appendJournal (.codeChange obj.address obj.data.code obj.data.codeHash)) obj codeHash code

/-- `setState`. -/
def setState (key value : Hash) : StateDB :=
  s.writeObject { obj with data := { obj.data with storage := Function.update obj.data.storage key value } }

/-- `SetState`: the entry keeps the value `GetState` reads. -/
def SetState (key value : Hash) : StateDB :=
  setState (s.appendJournal (.storageChange obj.address key (obj.data.storage key))) obj key value

/-- `touch`: the entry keeps the flag and whether the object was dirty already. -/
def touch : StateDB :=
  (s.appendJournal (.touchChange obj.address obj.touched !obj.onDirty)).writeObject
    { obj with touched := true }

/-- `AddBalance`: a zero amount only touches an empty object (EIP-158). -/
def AddBalance (keccak256 : Bytes → Hash) (amount : Int) : StateDB :=
  if amount = 0 then (if obj.empty keccak256 then touch s obj else s)
  else SetBalance s obj (obj.data.balance + amount)

/-- `SubBalance`. -/
def SubBalance (amount : Int) : StateDB :=
  if amount = 0 then s else SetBalance s obj (obj.data.balance - amount)

end StateObject

/-! ## The operations of the database -/

namespace StateDB

variable (keccak256 : Bytes → Hash) (s : StateDB)

/-- `createObject`: a new object replaces the one at the address, if any, which the entry
keeps. -/
def createObject (addr : Address) : StateObject × Option StateObject × StateDB :=
  let prev := s.getStateObject addr
  let newobj := newObject addr (Account.new keccak256)
  -- `newobj.setNonce(0)` sets the object to dirty; the write also stores it (`setStateObject`)
  let s := StateObject.setNonce s newobj 0
  let s := s.appendJournal <| match prev with
    | none => .createObjectChange addr
    | some prev => .resetObjectChange prev
  ({ newobj with onDirty := false }, prev, s)

/-- `GetOrNewStateObject`. -/
def getOrNewStateObject (addr : Address) : StateObject × StateDB :=
  match (s.getStateObject addr).filter fun obj ↦ !obj.deleted with
  | some obj => (obj, s)
  | none =>
    let (obj, _, s) := s.createObject keccak256 addr
    (obj, s)

/-- `AddBalance`; `GetOrNewStateObject` never gives `nil`, so its guard always holds. -/
def addBalance (addr : Address) (amount : Int) : StateDB :=
  let (stateObject, s) := s.getOrNewStateObject keccak256 addr
  StateObject.AddBalance s stateObject keccak256 amount

/-- `SubBalance`. -/
def subBalance (addr : Address) (amount : Int) : StateDB :=
  let (stateObject, s) := s.getOrNewStateObject keccak256 addr
  StateObject.SubBalance s stateObject amount

/-- `SetBalance`. -/
def setBalance (addr : Address) (amount : Int) : StateDB :=
  let (stateObject, s) := s.getOrNewStateObject keccak256 addr
  StateObject.SetBalance s stateObject amount

/-- `SetNonce`. -/
def setNonce (addr : Address) (nonce : UInt64) : StateDB :=
  let (stateObject, s) := s.getOrNewStateObject keccak256 addr
  StateObject.SetNonce s stateObject nonce

/-- `SetCode`. -/
def setCode (addr : Address) (code : Bytes) : StateDB :=
  let (stateObject, s) := s.getOrNewStateObject keccak256 addr
  StateObject.SetCode s stateObject (keccak256 code) code

/-- `SetState`. -/
def setState (addr : Address) (key value : Hash) : StateDB :=
  let (stateObject, s) := s.getOrNewStateObject keccak256 addr
  StateObject.SetState s stateObject key value

/-- `Suicide`: marks a live object self-destructed (`markSuicided`) and clears its balance. -/
def suicide (addr : Address) : Bool × StateDB :=
  match s.getStateObject addr with
  | none => (false, s)
  | some stateObject =>
    let s := s.appendJournal (.suicideChange addr stateObject.suicided stateObject.data.balance)
    (true, s.writeObject { stateObject with suicided := true, data := { stateObject.data with balance := 0 } })

/-- `CreateAccount`: the new object keeps the balance of the one it replaces. -/
def createAccount (addr : Address) : StateDB :=
  let (new, prev, s) := s.createObject keccak256 addr
  match prev with
  | some prev => StateObject.setBalance s new prev.data.balance
  | none => s

/-- `AddRefund`. -/
def addRefund (gas : ℕ) : StateDB :=
  { s.appendJournal (.refundChange s.refund) with refund := s.refund + gas }

/-- `AddLog`: the log is stamped with the transaction, the block and its index. -/
def addLog (log : Log) : StateDB :=
  let log := { log with txHash := s.thash, blockHash := s.bhash, txIndex := s.txIndex, index := s.logSize }
  { s.appendJournal (.addLogChange s.thash) with
    logs := Function.update s.logs s.thash (s.logs s.thash ++ [log])
    logSize := s.logSize + 1 }

/-- `AddPreimage`: a hash already known is kept as it is. -/
def addPreimage (hash : Hash) (preimage : Bytes) : StateDB :=
  match s.preimages hash with
  | some _ => s
  | none =>
    { s.appendJournal (.addPreimageChange hash) with
      preimages := Function.update s.preimages hash (some preimage) }

/-! ## Queries -/

/-- `Exist`: also true of a self-destructed object. -/
def exist (addr : Address) : Bool := (s.getStateObject addr).isSome

/-- `Empty`. -/
def empty (addr : Address) : Bool := ((s.getStateObject addr).map (·.empty keccak256)).getD true

/-- `GetBalance`. -/
def getBalance (addr : Address) : Int := ((s.getStateObject addr).map (·.data.balance)).getD 0

/-- `GetNonce`. -/
def getNonce (addr : Address) : UInt64 := ((s.getStateObject addr).map (·.data.nonce)).getD 0

/-- `GetCode`. -/
def getCode (addr : Address) : Bytes := ((s.getStateObject addr).map (·.data.code)).getD []

/-- `GetState`. -/
def getState (a : Address) (b : Hash) : Hash := ((s.getStateObject a).map (·.data.storage b)).getD 0

/-- `HasSuicided`. -/
def hasSuicided (addr : Address) : Bool := ((s.getStateObject addr).map (·.suicided)).getD false

/-- `GetRefund`. -/
def getRefund : ℕ := s.refund

/-- `GetLogs`. -/
def getLogs (hash : Hash) : List Log := s.logs hash

/-! ## Undo, snapshots and reverts -/

/-- `journalEntry.undo`; `none` where Go dereferences a `nil` object or slices out of range. -/
def undo : Entry → Option StateDB
  | .createObjectChange account =>
    some { s with stateObjects := Function.update s.stateObjects account none
                  stateObjectsDirty := s.stateObjectsDirty.filter (· != account) }
  | .resetObjectChange prev => some (s.setStateObject prev)
  | .suicideChange account prev prevbalance =>
    match s.getStateObject account with
    | some obj => some (StateObject.setBalance s { obj with suicided := prev } prevbalance)
    | none => some s
  | .balanceChange account prev =>
    (s.getStateObject account).map fun obj ↦ StateObject.setBalance s obj prev
  | .nonceChange account prev =>
    (s.getStateObject account).map fun obj ↦ StateObject.setNonce s obj prev
  | .storageChange account key prevalue =>
    (s.getStateObject account).map fun obj ↦ StateObject.setState s obj key prevalue
  | .codeChange account prevcode prevhash =>
    (s.getStateObject account).map fun obj ↦ StateObject.setCode s obj prevhash prevcode
  | .refundChange prev => some { s with refund := prev }
  | .addLogChange txhash =>
    let logs := s.logs txhash
    if logs.length = 1 then
      some { s with logs := Function.update s.logs txhash [], logSize := s.logSize - 1 }
    else if logs.length = 0 then none
    else some { s with logs := Function.update s.logs txhash logs.dropLast, logSize := s.logSize - 1 }
  | .addPreimageChange hash => some { s with preimages := Function.update s.preimages hash none }
  | .touchChange account prev prevDirty =>
    if !prev && account != ripemd then
      (s.getStateObject account).map fun obj ↦
        let s := s.setStateObject { obj with touched := prev }
        if !prevDirty then { s with stateObjectsDirty := s.stateObjectsDirty.filter (· != account) } else s
    else some s

/-- `Snapshot`. -/
def snapshot : ℕ × StateDB :=
  let id := s.nextRevisionId
  (id, { s with nextRevisionId := id + 1
                validRevisions := s.validRevisions ++ [⟨id, s.journal.length⟩] })

/-- `RevertToSnapshot`: finds the revision by `sort.Search`, undoes the journal after it, the last
entry first, and drops it and the later revisions; an unknown id panics. -/
def revertToSnapshot (revid : ℕ) : Option StateDB :=
  let idx := search s.validRevisions.length fun i ↦ revid ≤ (s.validRevisions.getD i ⟨0, 0⟩).id
  match s.validRevisions[idx]? with
  | none => none
  | some rev =>
    if rev.id ≠ revid then none
    else
      let snapshot := rev.journalIndex
      if s.journal.length < snapshot then none
      else
        (UndoLog.rollback undo s (s.journal.drop snapshot)).map fun t ↦
          { t with journal := t.journal.take snapshot, validRevisions := t.validRevisions.take idx }

/-- Whether `Finalise` deletes an object: it self-destructed, or it is empty and empty objects
are deleted. -/
def finaliseDeletes (deleteEmptyObjects : Bool) (obj : StateObject) : Bool :=
  obj.suicided || (deleteEmptyObjects && obj.empty keccak256)

/-- `Finalise`: each dirty object is deleted from the trie (`deleteStateObject`) or written to it
(`updateStateObject`), then the journal, the revisions and the refund are cleared
(`clearJournalAndRefund`).  Go ranges over the dirty set in any order; each round touches only
its own address, so every order gives this state.  A dirty address with no live object is a
`nil` dereference. -/
def finalise (deleteEmptyObjects : Bool) : Option StateDB :=
  if s.stateObjectsDirty.all fun addr ↦ (s.stateObjects addr).isSome then
    some { s with
      trie := fun addr ↦
        if addr ∈ s.stateObjectsDirty then
          match s.stateObjects addr with
          | some obj => if finaliseDeletes keccak256 deleteEmptyObjects obj then none else some obj.data
          | none => s.trie addr
        else s.trie addr
      stateObjects := fun addr ↦
        if addr ∈ s.stateObjectsDirty then
          (s.stateObjects addr).map fun obj ↦
            if finaliseDeletes keccak256 deleteEmptyObjects obj then { obj with deleted := true } else obj
        else s.stateObjects addr
      journal := []
      validRevisions := []
      refund := 0 }
  else none

/-- `IntermediateRoot`: `Finalise`, then the root of the account trie, given by its contents. -/
def intermediateRoot (deleteEmptyObjects : Bool) : Option ((Address → Option Account) × StateDB) :=
  (s.finalise keccak256 deleteEmptyObjects).map fun s ↦ (s.trie, s)

end StateDB

/-! ## Runs with nested snapshots

The EVM takes a snapshot before each call and reverts to it when the call fails, and the miner
does the same around each transaction (`Work.commitTransaction`): a run is a sequence of
mutations and of nested runs, each of which is kept or reverted. -/

/-- The mutations of the database.  A touch is an `AddBalance` of zero to an empty account. -/
inductive Mutation where
  | addBalance (addr : Address) (amount : Int)
  | subBalance (addr : Address) (amount : Int)
  | setBalance (addr : Address) (amount : Int)
  | setNonce (addr : Address) (nonce : UInt64)
  | setCode (addr : Address) (code : Bytes)
  | setState (addr : Address) (key value : Hash)
  | suicide (addr : Address)
  | createAccount (addr : Address)
  | addRefund (gas : ℕ)
  | addLog (log : Log)
  | addPreimage (hash : Hash) (preimage : Bytes)

/-- A mutation performed on a database. -/
def Mutation.apply (keccak256 : Bytes → Hash) (s : StateDB) : Mutation → StateDB
  | .addBalance addr amount => s.addBalance keccak256 addr amount
  | .subBalance addr amount => s.subBalance keccak256 addr amount
  | .setBalance addr amount => s.setBalance keccak256 addr amount
  | .setNonce addr nonce => s.setNonce keccak256 addr nonce
  | .setCode addr code => s.setCode keccak256 addr code
  | .setState addr key value => s.setState keccak256 addr key value
  | .suicide addr => (s.suicide addr).2
  | .createAccount addr => s.createAccount keccak256 addr
  | .addRefund gas => s.addRefund gas
  | .addLog log => s.addLog log
  | .addPreimage hash preimage => s.addPreimage hash preimage

/-- A step of a run: a mutation, or a nested run under its own snapshot that is reverted at its
end or kept. -/
inductive Op where
  | mutate (m : Mutation)
  | nested (ops : List Op) (revert : Bool)

mutual

/-- One step of a run; `none` where a revert panics. -/
def Op.run (keccak256 : Bytes → Hash) : Op → StateDB → Option StateDB
  | .mutate m, s => some (m.apply keccak256 s)
  | .nested ops revert, s =>
    (runOps keccak256 ops s.snapshot.2).bind fun s' ↦
      if revert then s'.revertToSnapshot s.snapshot.1 else some s'

/-- A run. -/
def runOps (keccak256 : Bytes → Hash) : List Op → StateDB → Option StateDB
  | [], s => some s
  | op :: ops, s => (op.run keccak256 s).bind (runOps keccak256 ops)

end

end BokerChain.State
