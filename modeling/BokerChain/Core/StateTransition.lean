import BokerChain.Core.StateDB
import BokerChain.Boker.Contracts
import BokerChain.Types.Transaction
import BokerChain.Library.Imperative

/-!
# The state transition

`core.StateTransition` applies one message to the state database.  Its four entry points share
`preCheck` (the nonce check and `buyGas`, which debits the gas limit from the block's gas pool
and its price from the sender) and then part ways:

* `TransitionDb`, for binary transactions, charges the intrinsic gas, runs the EVM with the gas
  that is left, refunds what the EVM did not use (and part of the refund counter) to the sender
  and the pool, and pays the used gas to the coinbase;
* `BaseTransitionDb`, for the base types, runs the EVM with `MaxGasPrice` gas and refunds nothing;
* `ContractTransitionDb` writes the contract registry and runs no EVM;
* `ValidatorTransitionDb` only bumps the sender's nonce.

A transition mutates shared objects and returns early on an error without undoing anything, so it
is an `EStateM` over the gas pool, the state database and the registry (with the transition's own
gas counters); the message, the EVM and the ABI helpers are read-only.  The EVM is taken as given
(`Evm`), with the one property of it the accounting relies on: a run never returns more gas than it
was given.
-/

namespace BokerChain

open Library Imperative

/-! ## The EVM and the ABI helpers -/

/-- What `evm.Call` and `evm.Create` return; the state database is the one they leave. -/
structure CallResult where
  ret : Bytes
  leftOverGas : Nat
  err : Option Error
  state : StateDB

/-- The EVM of one block (`vm.NewEVM` over `NewEVMContext`).  A run reads the state, the
caller (the origin of a top-level call), the gas price, the callee or the code, the input, the
gas and the value; the context's `Extra` is never read by the interpreter and is left out. -/
structure Evm where
  coinbase : Address
  call : StateDB → Address → Nat → Address → Bytes → Nat → Nat → CallResult
  create : StateDB → Address → Nat → Bytes → Nat → Nat → CallResult
  call_leftOver_le : ∀ s caller price addr input gas value,
    (call s caller price addr input gas value).leftOverGas ≤ gas
  create_leftOver_le : ∀ s caller price code gas value,
    (create s caller price code gas value).leftOverGas ≤ gas

/-- `protocol.GetParamCount` and `protocol.DecodeAbi`, built on go-ethereum's `abi` package.
Of `DecodeAbi` only whether it fails is read.  `abi.JSON` rejects an empty document, so
`GetParamCount` is zero for the empty ABI text. -/
structure Abi where
  getParamCount : String → String → Int
  decodeAbi : String → String → Bytes → Except Error Unit
  getParamCount_empty : ∀ name, getParamCount "" name = 0

/-- `BokerBackend.GetMethodName`: the ABI text, always empty, and the method of a type. -/
def getMethodName (txType : TxType) : Except Error (String × String) :=
  if txType.code < TxType.setValidator.code then .error .errTxType
  else if txType = .setValidator then .ok ("", "")
  else if txType = .registerCandidate then .ok ("", "registerCandidate")
  else if txType = .voteUser then .ok ("", "voteCandidate")
  else if txType = .voteEpoch then .ok ("", "rotateVote")
  else if txType = .assignToken then .ok ("", "assignToken")
  else .error .errTxType

theorem getMethodName_abi_empty {txType : TxType} {abiJson name : String}
    (h : getMethodName txType = .ok (abiJson, name)) : abiJson = "" := by
  unfold getMethodName at h
  split_ifs at h <;> cases h <;> rfl

/-- `IntrinsicGas`: the base cost of a call or a creation and the cost of the data bytes. -/
def intrinsicGas (data : Bytes) (contractCreation homestead : Bool) : Nat :=
  let igas := if contractCreation ∧ homestead then Protocol.txGasContractCreation
    else Protocol.txGas
  if 0 < data.length then
    let nz := (data.filter (· ≠ 0)).length
    igas + nz * Protocol.txDataNonZeroGas + (data.length - nz) * Protocol.txDataZeroGas
  else igas

/-- `GasPool.SubGas`. -/
def subGas (gp amount : Nat) : Except Error Nat :=
  if gp < amount then .error .errGasLimitReached else .ok (gp - amount)

/-- `getExtra`: the last ABI parameter of a call to a registered contract.  The registry here is
the one the transition reads through the Boker API. -/
def getExtra (abi : Abi) (boker : BokerContracts) (msg : Message) : Except Error Bytes :=
  match msg.recipient with
  | none => .ok []
  | some callee =>
    if (boker.getContract callee).code ≤ ContractType.binaryContract.code then .ok []
    else match getMethodName msg.txType with
      | .error _ => .ok []
      | .ok (abiJson, name) =>
        if abi.getParamCount abiJson name ≤ 0 then .ok []
        else match abi.decodeAbi abiJson name msg.data with
          -- the check is inverted: a decoded call gives the empty string
          | .ok () => .ok []
          -- on a failed decoding `methodJson` is the zero value, and indexing its empty
          -- parameter list at `-1` panics
          | .error _ => .error .runtimePanic

theorem getExtra_eq_nil (abi : Abi) (boker : BokerContracts) (msg : Message) :
    getExtra abi boker msg = .ok [] := by
  unfold getExtra
  split
  · rfl
  · split
    · rfl
    · split
      · rfl
      · next abiJson name hname =>
        have hempty := getMethodName_abi_empty hname
        subst hempty
        rw [if_pos (le_of_eq (abi.getParamCount_empty name))]

/-- A registry whose one entry is the personal contract `5`, registered with the ABI text
`abiJson`. -/
def personalRegistry (abiJson : Bytes) : BokerContracts :=
  ignoreError (BokerContracts.empty.setContract .stored 5 .personalContract false abiJson) .empty

/-- A `VoteUser` call from `64` to `5` with call data `data`. -/
def voteCall (data : Bytes) : Message :=
  ⟨64, some 5, 0, 0, 0, 0, data, [], .voteUser, true⟩

/-- A call to a registered personal contract whose type names a method: `getExtra` reads
neither the registered ABI nor the call data and returns the empty string, whatever argument the
data carries. -/
theorem getExtra_drops_vote_argument (abi : Abi) (abiJson data : Bytes) :
    (personalRegistry abiJson).getContract 5 = .personalContract ∧
      getMethodName (voteCall data).txType = .ok ("", "voteCandidate") ∧
      getExtra abi (personalRegistry abiJson) (voteCall data) = .ok [] :=
  ⟨rfl, rfl, getExtra_eq_nil abi _ _⟩

/-! ## The transition -/

/-- The mutable part of `core.StateTransition`: the block's gas pool, the transition's gas
counters, the state database and the contract registry behind the Boker API. -/
structure StateTransition where
  gp : Nat
  gas : Nat
  initialGas : Nat
  state : StateDB
  boker : BokerContracts

/-- What a transition returns besides its error: `ret`, `requiredGas`, `usedGas`, `failed` and
`extra`. -/
structure ExecutionResult where
  ret : Bytes
  requiredGas : Nat
  usedGas : Nat
  failed : Bool
  extra : Bytes

namespace StateTransition

/-- `NewStateTransition`: no gas bought yet. -/
def new (gp : Nat) (state : StateDB) (boker : BokerContracts) : StateTransition :=
  ⟨gp, 0, 0, state, boker⟩

/-- `gasUsed`: the gas bought less the gas left. -/
def gasUsed (st : StateTransition) : Nat := st.initialGas - st.gas

/-- Create the object of an address that does not exist, as `from()` and `to()` do. -/
def createIfMissing (addr : Address) (st : StateTransition) : StateTransition :=
  if st.state.exist addr then st else { st with state := st.state.createAccount addr }

section Steps

variable (evm : Evm) (abi : Abi) (o : RangeOrder Address ContractType) (msg : Message)

/-- `from()`: the sender. -/
def fromAccount : EStateM Error StateTransition Address := do
  modify (createIfMissing msg.sender)
  return msg.sender

/-- `to()`: the recipient, or the zero address for a creation. -/
def toAccount : EStateM Error StateTransition Address :=
  match msg.recipient with
  | none => return 0
  | some callee => do
    modify (createIfMissing callee)
    return callee

/-- `useGas`. -/
def useGas (amount : Nat) : EStateM Error StateTransition Unit := do
  let st ← get
  if st.gas < amount then throw .errOutOfGas
  set { st with gas := st.gas - amount }

/-- `buyGas`: take the gas limit from the pool and its price from the sender. -/
def buyGas : EStateM Error StateTransition Unit := do
  let mgas := msg.gasLimit
  -- `mgas.BitLen() > 64`
  if 2 ^ 64 ≤ mgas then throw .errOutOfGas
  let mgval := mgas * msg.gasPrice
  let sender ← fromAccount msg
  let st ← get
  if st.state.getBalance sender < mgval then throw .errInsufficientBalanceForGas
  match subGas st.gp mgas with
  | .error e => throw e
  | .ok gp =>
    set { st with gp, gas := st.gas + mgas, initialGas := mgas,
                  state := st.state.subBalance sender mgval }

/-- `preCheck`: the nonce check, then `buyGas`. -/
def preCheck : EStateM Error StateTransition Unit := do
  let sender ← fromAccount msg
  if msg.checkNonce then
    let nonce := (← get).state.getNonce sender
    if nonce < msg.nonce then throw .errNonceTooHigh
    else if msg.nonce < nonce then throw .errNonceTooLow
  buyGas msg

/-- `refundGas`: return the gas left and part of the refund counter to the sender and the
pool. -/
def refundGas : EStateM Error StateTransition Unit := do
  let sender ← fromAccount msg
  let st ← get
  let state := st.state.addBalance sender (st.gas * msg.gasPrice)
  let uhalf := st.gasUsed / 2
  let refund := min uhalf state.refund
  -- `math.BigMin` hands back the state's own counter when it is the smaller, and the `Mul`
  -- below then overwrites the counter in place
  let state := if state.refund < uhalf then { state with refund := state.refund * msg.gasPrice }
    else state
  let gas := st.gas + refund
  set { st with gas, gp := st.gp + gas,
                state := state.addBalance sender (refund * msg.gasPrice) }

/-- `getExtra` on the registry of the transition. -/
def readExtra : EStateM Error StateTransition Bytes := do
  liftExcept (getExtra abi (← get).boker msg)

/-- `SetNonce(from, GetNonce(from) + 1)`. -/
def incrementNonce (sender : Address) : EStateM Error StateTransition Unit :=
  modify fun st ↦ { st with state := st.state.setNonce sender (st.state.getNonce sender + 1) }

/-- `evm.Call` from the sender to `to()` with the transition's gas; the gas it leaves becomes
the transition's gas. -/
def runCall (sender : Address) : EStateM Error StateTransition (Bytes × Option Error) := do
  let callee ← toAccount msg
  modifyGet fun st ↦
    let r := evm.call st.state sender msg.gasPrice callee msg.data st.gas msg.amount
    ((r.ret, r.err), { st with gas := r.leftOverGas, state := r.state })

/-- `evm.Create` of the message's code with the transition's gas. -/
def runCreate (sender : Address) : EStateM Error StateTransition (Bytes × Option Error) :=
  modifyGet fun st ↦
    let r := evm.create st.state sender msg.gasPrice msg.data st.gas msg.amount
    ((r.ret, r.err), { st with gas := r.leftOverGas, state := r.state })

/-- `TransitionDb`, the binary transaction. -/
def transitionDb : EStateM Error StateTransition ExecutionResult := do
  preCheck msg
  let sender ← fromAccount msg
  let contractCreation := msg.recipient.isNone
  let intrinsic := intrinsicGas msg.data contractCreation true
  if 2 ^ 64 ≤ intrinsic then throw .errOutOfGas
  useGas intrinsic
  let (ret, vmerr, extra) ← if contractCreation then do
      let (ret, vmerr) ← runCreate evm msg sender
      pure (ret, vmerr, [])
    else do
      let extra ← readExtra abi msg
      incrementNonce sender
      let (ret, vmerr) ← runCall evm msg sender
      pure (ret, vmerr, extra)
  if vmerr = some .errInsufficientBalance then throw .errInsufficientBalance
  let requiredGas := (← get).gasUsed
  refundGas msg
  modify fun st ↦
    { st with state := st.state.addBalance evm.coinbase (st.gasUsed * msg.gasPrice) }
  let st ← get
  return ⟨ret, requiredGas, st.gasUsed, vmerr.isSome, extra⟩

/-- `BaseTransitionDb`, the base types: the EVM runs with `MaxGasPrice` gas. -/
def baseTransitionDb : EStateM Error StateTransition ExecutionResult := do
  preCheck msg
  if 2 ^ 64 ≤ intrinsicGas msg.data false true then throw .errOutOfGas
  let extra ← readExtra abi msg
  let sender ← fromAccount msg
  incrementNonce sender
  -- "a base business, so the gas is set to the maximum"
  modify fun st ↦ { st with gas := Protocol.maxGasPrice }
  let (ret, vmerr) ← runCall evm msg sender
  if vmerr = some .errInsufficientBalance then throw .errInsufficientBalance
  return ⟨ret, 0, 0, vmerr.isSome, extra⟩

/-- The registry write of `ContractTransitionDb` for a type and the recipient; the errors of
`SetContract` and `CancelContract` are ignored, and a cancellation of a personal contract calls
`SetContract` with an empty ABI. -/
def writeContract (boker : BokerContracts) (txType : TxType) (callee : Address) (abiJson : Bytes) :
    BokerContracts :=
  if txType = .setPersonalContract then
    ignoreError (boker.setContract o callee .personalContract false abiJson) boker
  else if txType = .setSystemContract then
    ignoreError (boker.setContract o callee .systemContract false abiJson) boker
  else if txType = .cancelPersonalContract then
    ignoreError (boker.setContract o callee .personalContract true []) boker
  else if txType = .cancelSystemContract then
    ignoreError (boker.cancelContract o callee) boker
  else boker

/-- `ContractTransitionDb`.  The check of the sender's permissions against `GetAccount` is
commented out in the source, "for the convenience of testing"; the ABI stored is the message's
extra data. -/
def contractTransitionDb (txType : TxType) : EStateM Error StateTransition ExecutionResult := do
  preCheck msg
  match msg.recipient with
  | some callee => modify fun st ↦ { st with boker := writeContract o st.boker txType callee msg.extra }
  -- `*st.msg.To()` on a nil recipient
  | none => if txType.IsContractSet then throw .runtimePanic
  let sender ← fromAccount msg
  incrementNonce sender
  return ⟨[], 0, 0, false, msg.extra⟩

/-- `ValidatorTransitionDb`. -/
def validatorTransitionDb : EStateM Error StateTransition ExecutionResult := do
  preCheck msg
  let extra ← readExtra abi msg
  let sender ← fromAccount msg
  incrementNonce sender
  return ⟨[], 0, 0, false, extra⟩

end Steps

/-! ## What each step does -/

section Runs

variable {evm : Evm} {abi : Abi} {msg : Message} {st : StateTransition}

@[simp]
theorem createIfMissing_gp (addr : Address) : (createIfMissing addr st).gp = st.gp := by
  unfold createIfMissing; split <;> rfl

@[simp]
theorem createIfMissing_gas (addr : Address) : (createIfMissing addr st).gas = st.gas := by
  unfold createIfMissing; split <;> rfl

@[simp]
theorem createIfMissing_initialGas (addr : Address) :
    (createIfMissing addr st).initialGas = st.initialGas := by
  unfold createIfMissing; split <;> rfl

@[simp]
theorem createIfMissing_boker (addr : Address) : (createIfMissing addr st).boker = st.boker := by
  unfold createIfMissing; split <;> rfl

@[simp]
theorem getBalance_createIfMissing (addr a : Address) :
    (createIfMissing addr st).state.getBalance a = st.state.getBalance a := by
  unfold createIfMissing; split <;> simp

@[simp]
theorem totalBalance_createIfMissing (addr : Address) :
    (createIfMissing addr st).state.totalBalance = st.state.totalBalance := by
  unfold createIfMissing; split <;> simp

@[simp]
theorem refund_createIfMissing (addr : Address) :
    (createIfMissing addr st).state.refund = st.state.refund := by
  unfold createIfMissing; split <;> simp

theorem fromAccount_apply :
    fromAccount msg st = .ok msg.sender (createIfMissing msg.sender st) := rfl

theorem toAccount_apply : toAccount msg st = match msg.recipient with
    | none => .ok 0 st
    | some callee => .ok callee (createIfMissing callee st) := by
  unfold toAccount
  cases msg.recipient <;> rfl

theorem useGas_apply (amount : Nat) : useGas amount st =
    if st.gas < amount then .error .errOutOfGas st else .ok () { st with gas := st.gas - amount } := by
  simp only [useGas, bind_apply, get_apply, ite_run, throw_apply, set_apply]

theorem buyGas_apply : buyGas msg st =
    if 2 ^ 64 ≤ msg.gasLimit then .error .errOutOfGas st
    else
      let st₁ := createIfMissing msg.sender st
      if st₁.state.getBalance msg.sender < ↑(msg.gasLimit * msg.gasPrice) then
        .error .errInsufficientBalanceForGas st₁
      else if st₁.gp < msg.gasLimit then .error .errGasLimitReached st₁
      else .ok () { st₁ with gp := st₁.gp - msg.gasLimit, gas := st₁.gas + msg.gasLimit,
                              initialGas := msg.gasLimit,
                              state := st₁.state.subBalance msg.sender
                                (↑(msg.gasLimit * msg.gasPrice)) } := by
  unfold buyGas subGas
  simp only [bind_apply, fromAccount_apply, get_apply, ite_run, throw_apply]
  split_ifs <;> rfl

theorem incrementNonce_apply (sender : Address) : incrementNonce sender st =
    .ok () { st with state := st.state.setNonce sender (st.state.getNonce sender + 1) } := rfl

theorem readExtra_apply : readExtra abi msg st = .ok [] st := by
  simp only [readExtra, bind_apply, get_apply, getExtra_eq_nil]
  rfl

theorem runCall_apply (sender : Address) : runCall evm msg sender st =
    let callee := match msg.recipient with
      | none => 0
      | some callee => callee
    let st₁ := match msg.recipient with
      | none => st
      | some callee => createIfMissing callee st
    let r := evm.call st₁.state sender msg.gasPrice callee msg.data st₁.gas msg.amount
    .ok (r.ret, r.err) { st₁ with gas := r.leftOverGas, state := r.state } := by
  unfold runCall
  simp only [bind_apply, toAccount_apply]
  cases msg.recipient <;> rfl

/-- The state after `from()` and `SetNonce(from, GetNonce(from) + 1)`. -/
def nonceBumped (sender : Address) (st : StateTransition) : StateTransition :=
  let st₁ := createIfMissing sender st
  { st₁ with state := st₁.state.setNonce sender (st₁.state.getNonce sender + 1) }

@[simp]
theorem nonceBumped_gp (sender : Address) : (nonceBumped sender st).gp = st.gp := by
  simp [nonceBumped]

@[simp]
theorem nonceBumped_gas (sender : Address) : (nonceBumped sender st).gas = st.gas := by
  simp [nonceBumped]

@[simp]
theorem nonceBumped_initialGas (sender : Address) :
    (nonceBumped sender st).initialGas = st.initialGas := by
  simp [nonceBumped]

@[simp]
theorem nonceBumped_boker (sender : Address) : (nonceBumped sender st).boker = st.boker := by
  simp [nonceBumped]

@[simp]
theorem totalBalance_nonceBumped (sender : Address) :
    (nonceBumped sender st).state.totalBalance = st.state.totalBalance := by
  simp [nonceBumped]

theorem preCheck_apply : preCheck msg st =
    let st₁ := createIfMissing msg.sender st
    if msg.checkNonce ∧ st₁.state.getNonce msg.sender < msg.nonce then
      .error .errNonceTooHigh st₁
    else if msg.checkNonce ∧ msg.nonce < st₁.state.getNonce msg.sender then
      .error .errNonceTooLow st₁
    else buyGas msg st₁ := by
  simp only [preCheck, bind_apply, fromAccount_apply]
  cases msg.checkNonce
  · simp
  · simp only [bind_apply, get_apply, ite_run, throw_apply, if_true, true_and]

theorem contractTransitionDb_apply {o : RangeOrder Address ContractType} (txType : TxType) :
    contractTransitionDb o msg txType st =
      match preCheck msg st with
      | .error e st₁ => .error e st₁
      | .ok () st₁ =>
        match msg.recipient with
        | some callee =>
          let boker := writeContract o st₁.boker txType callee msg.extra
          .ok ⟨[], 0, 0, false, msg.extra⟩ (nonceBumped msg.sender { st₁ with boker })
        | none =>
          if txType.IsContractSet then .error .runtimePanic st₁
          else .ok ⟨[], 0, 0, false, msg.extra⟩ (nonceBumped msg.sender st₁) := by
  simp only [contractTransitionDb, bind_apply]
  cases preCheck msg st with
  | error e st₁ => rfl
  | ok u st₁ =>
    cases msg.recipient with
    | some callee => rfl
    | none =>
      simp only [ite_run]
      split_ifs <;> rfl

theorem validatorTransitionDb_apply : validatorTransitionDb abi msg st =
    match preCheck msg st with
    | .error e st₁ => .error e st₁
    | .ok () st₁ => .ok ⟨[], 0, 0, false, []⟩ (nonceBumped msg.sender st₁) := by
  simp only [validatorTransitionDb, bind_apply]
  cases preCheck msg st with
  | error e st₁ => rfl
  | ok u st₁ => simp only [readExtra_apply]; rfl

theorem baseTransitionDb_apply : baseTransitionDb evm abi msg st =
    match preCheck msg st with
    | .error e st₁ => .error e st₁
    | .ok () st₁ =>
      if 2 ^ 64 ≤ intrinsicGas msg.data false true then .error .errOutOfGas st₁
      else match runCall evm msg msg.sender
          { nonceBumped msg.sender st₁ with gas := Protocol.maxGasPrice } with
        | .ok (ret, vmerr) st₂ =>
          if vmerr = some .errInsufficientBalance then .error .errInsufficientBalance st₂
          else .ok ⟨ret, 0, 0, vmerr.isSome, []⟩ st₂
        | .error e st₂ => .error e st₂ := by
  simp only [baseTransitionDb, bind_apply]
  cases preCheck msg st with
  | error e st₁ => rfl
  | ok u st₁ =>
    simp only [ite_run]
    split_ifs
    · rfl
    · simp only [bind_apply, readExtra_apply, fromAccount_apply, incrementNonce_apply,
        modify_apply, nonceBumped]
      rw [runCall_apply]
      simp only [bind_apply, ite_run, throw_apply, pure_apply]

end Runs

end StateTransition

end BokerChain
