import BokerChain.Core.StateProcessor

/-!
# Gas accounting of the state transition

`buyGas` moves the gas limit `L` of a message from the block's gas pool to the transition and
takes `L * price` from the sender.  `TransitionDb` gives back to the pool and the sender what the
EVM leaves (with part of the refund counter) and pays the rest to the coinbase, so that the sum of
the balances is kept and the pool loses exactly the gas the transition reports as used.  The
three Boker transitions give nothing back: their `L * price` leaves the sum of the balances and
their `L` leaves the pool, while the gas they report is zero.

This module states what one purchase does (`Bought`), what each Boker transition does with it,
and in what sense the EVM runs of a transition are paid for: a transition depends on the EVM
only through its runs at one gas budget, which is `L` less the intrinsic gas for `TransitionDb`
and `MaxGasPrice` for `BaseTransitionDb`.
-/

namespace BokerChain

open Library Imperative

/-- An EVM whose runs keep the sum of the balances and mark no object self-destructed. -/
structure Evm.Conserving (evm : Evm) : Prop where
  call_total : ∀ s caller price addr input gas value,
    (evm.call s caller price addr input gas value).state.totalBalance = s.totalBalance
  create_total : ∀ s caller price code gas value,
    (evm.create s caller price code gas value).state.totalBalance = s.totalBalance
  call_noSuicides : ∀ s caller price addr input gas value, s.NoSuicides →
    (evm.call s caller price addr input gas value).state.NoSuicides
  create_noSuicides : ∀ s caller price code gas value, s.NoSuicides →
    (evm.create s caller price code gas value).state.NoSuicides

/-- Two EVMs that pay the same coinbase and run every call and every creation alike when they
are given `gas` units of gas. -/
structure Evm.AgreeAt (evm evm' : Evm) (gas : Nat) : Prop where
  coinbase : evm.coinbase = evm'.coinbase
  call : ∀ s caller price callee input value,
    evm.call s caller price callee input gas value = evm'.call s caller price callee input gas value
  create : ∀ s caller price code value,
    evm.create s caller price code gas value = evm'.create s caller price code gas value

namespace StateTransition

variable {evm : Evm} {abi : Abi} {msg : Message} {st st' : StateTransition}

/-! ## Buying gas -/

/-- What a Boker transition does to the ledger: the gas limit leaves the pool and its price
leaves the sum of the balances; no object is marked self-destructed. -/
structure Charged (msg : Message) (st st' : StateTransition) : Prop where
  gp : st.gp = st'.gp + msg.gasLimit
  total : st'.state.totalBalance = st.state.totalBalance - ↑(msg.gasLimit * msg.gasPrice)
  noSuicides : st.state.NoSuicides → st'.state.NoSuicides

/-- What a successful `buyGas` changes: besides the charge, the gas limit becomes the
transition's gas. -/
structure Bought (msg : Message) (st st' : StateTransition) : Prop
    extends Charged msg st st' where
  gas : st'.gas = st.gas + msg.gasLimit
  initialGas : st'.initialGas = msg.gasLimit
  boker : st'.boker = st.boker

/-- What a failed `buyGas` or `preCheck` keeps: the pool, the registry and the sum of the
balances. -/
structure Kept (st st' : StateTransition) : Prop where
  gp : st'.gp = st.gp
  boker : st'.boker = st.boker
  total : st'.state.totalBalance = st.state.totalBalance

theorem noSuicides_createIfMissing (addr : Address) (h : st.state.NoSuicides) :
    (createIfMissing addr st).state.NoSuicides := by
  unfold createIfMissing
  split
  · exact h
  · exact h.createAccount

theorem noSuicides_nonceBumped (sender : Address) (h : st.state.NoSuicides) :
    (nonceBumped sender st).state.NoSuicides :=
  (noSuicides_createIfMissing sender h).setNonce _

theorem Kept.createIfMissing (addr : Address) : Kept st (createIfMissing addr st) :=
  ⟨by simp, by simp, by simp⟩

theorem Bought.createIfMissing (h : Bought msg (createIfMissing msg.sender st) st') :
    Bought msg st st' where
  gp := by rw [← h.gp, createIfMissing_gp]
  total := by rw [h.total, totalBalance_createIfMissing]
  noSuicides hs := h.noSuicides (noSuicides_createIfMissing msg.sender hs)
  gas := by rw [h.gas, createIfMissing_gas]
  initialGas := h.initialGas
  boker := by rw [h.boker, createIfMissing_boker]

theorem buyGas_ok (h : buyGas msg st = .ok () st') : Bought msg st st' := by
  rw [buyGas_apply] at h
  dsimp only at h
  split_ifs at h with hbits hbalance hpool
  cases h
  have hle : msg.gasLimit ≤ (createIfMissing msg.sender st).gp := Nat.le_of_not_lt hpool
  apply Bought.createIfMissing
  exact {
    gp := by dsimp only; omega
    total := by simp
    noSuicides := fun hs ↦ hs.subBalance _
    gas := rfl
    initialGas := rfl
    boker := rfl }

theorem buyGas_error {e : Error} (h : buyGas msg st = .error e st') : Kept st st' := by
  rw [buyGas_apply] at h
  dsimp only at h
  split_ifs at h <;> cases h
  · exact ⟨rfl, rfl, rfl⟩
  all_goals exact Kept.createIfMissing msg.sender

theorem preCheck_ok (h : preCheck msg st = .ok () st') : Bought msg st st' := by
  rw [preCheck_apply] at h
  dsimp only at h
  split_ifs at h
  exact (buyGas_ok h).createIfMissing

theorem preCheck_error {e : Error} (h : preCheck msg st = .error e st') : Kept st st' := by
  rw [preCheck_apply] at h
  dsimp only at h
  split_ifs at h
  · cases h
    exact Kept.createIfMissing msg.sender
  · cases h
    exact Kept.createIfMissing msg.sender
  · have hkept := buyGas_error h
    exact ⟨by rw [hkept.gp, createIfMissing_gp], by rw [hkept.boker, createIfMissing_boker],
      by rw [hkept.total, totalBalance_createIfMissing]⟩

/-! ## The Boker transitions -/

theorem runCall_ok {sender : Address} {p : Bytes × Option Error}
    (h : runCall evm msg sender st = .ok p st') :
    st'.gp = st.gp ∧ ∃ s callee gas, s.totalBalance = st.state.totalBalance ∧
      (st.state.NoSuicides → s.NoSuicides) ∧
      st'.state = (evm.call s sender msg.gasPrice callee msg.data gas msg.amount).state := by
  rw [runCall_apply] at h
  cases hrec : msg.recipient with
  | none =>
    simp only [hrec] at h
    cases h
    exact ⟨rfl, _, _, _, rfl, id, rfl⟩
  | some callee =>
    simp only [hrec] at h
    cases h
    exact ⟨by simp, _, _, _, by simp, noSuicides_createIfMissing callee, rfl⟩

theorem baseTransitionDb_ok (hevm : evm.Conserving) {r : ExecutionResult}
    (h : baseTransitionDb evm abi msg st = .ok r st') : Charged msg st st' ∧ r.usedGas = 0 := by
  rw [baseTransitionDb_apply] at h
  cases hpre : preCheck msg st with
  | error e st₁ => rw [hpre] at h; cases h
  | ok u st₁ =>
    rw [hpre] at h
    have hbought := preCheck_ok hpre
    dsimp only at h
    split_ifs at h
    cases hrun : runCall evm msg msg.sender
        { nonceBumped msg.sender st₁ with gas := Protocol.maxGasPrice } with
    | error e st₂ => rw [hrun] at h; cases h
    | ok p st₂ =>
      rw [hrun] at h
      dsimp only at h
      split_ifs at h
      cases h
      obtain ⟨hgp, s, callee, gas, htotal, hns, hstate⟩ := runCall_ok hrun
      refine ⟨⟨?_, ?_, fun hs ↦ ?_⟩, rfl⟩
      · simp [hgp, hbought.gp]
      · simp [hstate, hevm.call_total, htotal, hbought.total]
      · rw [hstate]
        exact hevm.call_noSuicides _ _ _ _ _ _ _
          (hns (noSuicides_nonceBumped msg.sender (hbought.noSuicides hs)))

/-! ## The gas the EVM runs on

A transition is paid for when the EVM runs on the gas bought: the budget of its runs is then
bounded by the message's gas limit, since an EVM never hands back more gas than it was given.
`TransitionDb` depends on the EVM only through its runs at the gas limit less the intrinsic gas;
`BaseTransitionDb` only through its runs at `MaxGasPrice`, whatever gas was bought. -/

section Budget

variable {evm' : Evm} {gas : Nat}

theorem runCall_congr (hagree : evm.AgreeAt evm' gas) (hgas : st.gas = gas) (sender : Address) :
    runCall evm msg sender st = runCall evm' msg sender st := by
  rw [runCall_apply, runCall_apply]
  cases msg.recipient with
  | none => dsimp only; rw [hgas, hagree.call]
  | some callee => dsimp only; rw [createIfMissing_gas, hgas, hagree.call]

theorem runCreate_congr (hagree : evm.AgreeAt evm' gas) (hgas : st.gas = gas)
    (sender : Address) : runCreate evm msg sender st = runCreate evm' msg sender st := by
  simp only [runCreate, modifyGet_apply, hgas, hagree.create]

theorem baseTransitionDb_congr (hagree : evm.AgreeAt evm' Protocol.maxGasPrice) :
    baseTransitionDb evm abi msg st = baseTransitionDb evm' abi msg st := by
  rw [baseTransitionDb_apply, baseTransitionDb_apply]
  cases preCheck msg st with
  | error e st₁ => rfl
  | ok u st₁ =>
    dsimp only
    rw [runCall_congr hagree rfl]

theorem transitionDb_congr
    (hagree : evm.AgreeAt evm' (msg.gasLimit - intrinsicGas msg.data msg.recipient.isNone true))
    (gp : Nat) (state : StateDB) (boker : BokerContracts) :
    transitionDb evm abi msg (StateTransition.new gp state boker) =
      transitionDb evm' abi msg (StateTransition.new gp state boker) := by
  unfold transitionDb
  simp only [hagree.coinbase]
  refine bind_congr_on rfl fun _ st₁ h₁ ↦ ?_
  have hgas₁ : st₁.gas = msg.gasLimit := by
    rw [(preCheck_ok h₁).gas]
    exact Nat.zero_add _
  refine bind_congr_on rfl fun sender st₂ h₂ ↦ ?_
  rw [fromAccount_apply] at h₂
  cases h₂
  by_cases hbits : 2 ^ 64 ≤ intrinsicGas msg.data msg.recipient.isNone true
  · simp only [hbits, ↓reduceIte, bind_apply, throw_apply]
  simp only [hbits, ↓reduceIte, pure_bind]
  refine bind_congr_on rfl fun _ st₃ h₃ ↦ ?_
  rw [useGas_apply] at h₃
  split_ifs at h₃ with hlow
  cases h₃
  by_cases hcreate : msg.recipient.isNone = true
  · simp only [hcreate, ↓reduceIte]
    refine bind_congr_on (runCreate_congr hagree ?_ _) fun _ _ _ ↦ rfl
    simp [hgas₁, hcreate]
  · simp only [hcreate]
    refine bind_congr_on rfl fun extra st₄ h₄ ↦ ?_
    rw [readExtra_apply] at h₄
    cases h₄
    refine bind_congr_on rfl fun _ st₅ h₅ ↦ ?_
    rw [incrementNonce_apply] at h₅
    cases h₅
    refine bind_congr_on (runCall_congr hagree ?_ _) fun _ _ _ ↦ rfl
    simp [hgas₁, hcreate]

/-- The budgets of the EVM runs: `TransitionDb` on a fresh transition depends on the EVM only
through its runs with the gas limit less the intrinsic gas, `BaseTransitionDb` only through its
runs with `MaxGasPrice`. -/
theorem evm_runs_at_budget (gp : Nat) (state : StateDB) (boker : BokerContracts) :
    (evm.AgreeAt evm' (msg.gasLimit - intrinsicGas msg.data msg.recipient.isNone true) →
      transitionDb evm abi msg (StateTransition.new gp state boker) =
        transitionDb evm' abi msg (StateTransition.new gp state boker)) ∧
    (evm.AgreeAt evm' Protocol.maxGasPrice →
      baseTransitionDb evm abi msg (StateTransition.new gp state boker) =
        baseTransitionDb evm' abi msg (StateTransition.new gp state boker)) :=
  ⟨fun hagree ↦ transitionDb_congr hagree gp state boker, baseTransitionDb_congr⟩

end Budget

end StateTransition

namespace World

variable {env : ChainEnv} {header : Header} {tx : Transaction} {w w' : World}
  {res : Receipt × Nat × Transaction} {msg : Message}

theorem applyTransaction_base_ok (hevm : env.evm.Conserving) (hns : w.statedb.NoSuicides)
    (hmsg : tx.asMessage env.crypto = .ok msg) (hbase : msg.txType.IsBase)
    (h : applyTransaction env header tx w = .ok res w') :
    w.gp = w'.gp + msg.gasLimit ∧ w'.usedGas = w.usedGas ∧
      w'.statedb.totalBalance = w.statedb.totalBalance - ↑(msg.gasLimit * msg.gasPrice) := by
  rw [applyTransaction_apply, hmsg] at h
  dsimp only at h
  rw [if_neg hbase.ne_binary] at h
  split_ifs at h with hnone hcs
  · exact absurd hcs hbase.not_isContractSet
  obtain ⟨msg', r, st, hmsg', hrun, htail⟩ := baseTransaction_ok h
  rw [hmsg] at hmsg'
  cases hmsg'
  obtain ⟨rfl, -, -⟩ := commitAndReceipt_ok htail
  obtain ⟨hcharged, -⟩ := StateTransition.baseTransitionDb_ok hevm hrun
  refine ⟨hcharged.gp, by simp [absorb], ?_⟩
  simp only [absorb]
  rw [StateDB.totalBalance_finalise (hcharged.noSuicides hns)]
  exact hcharged.total

end World

/-! ## A run of a base transaction

Instances of the primitives for concrete runs: a stand-in for Keccak-256 that hashes a byte
string to its length, a signature scheme whose recovery yields one key (of address `64`), an EVM
whose runs change nothing, as a call without value of an account without code, and the empty
ABI. -/

/-- Primitives under which every signature recovers the key `4 :: [1, ..., 1]`. -/
def sampleCrypto : Crypto := ⟨lengthKeccak, fun _ _ ↦ .ok (4 :: List.replicate 64 1)⟩

/-- An EVM whose runs change nothing and use no gas. -/
def idleEvm (coinbase : Address) : Evm where
  coinbase := coinbase
  call s _ _ _ _ gas _ := ⟨[], gas, none, s⟩
  create s _ _ _ gas _ := ⟨[], gas, none, s⟩
  call_leftOver_le _ _ _ _ _ _ _ := le_refl _
  create_leftOver_le _ _ _ _ _ _ := le_refl _

theorem idleEvm_conserving (coinbase : Address) : (idleEvm coinbase).Conserving :=
  ⟨fun _ _ _ _ _ _ _ ↦ rfl, fun _ _ _ _ _ _ ↦ rfl, fun _ _ _ _ _ _ _ h ↦ h,
    fun _ _ _ _ _ _ h ↦ h⟩

/-- The ABI helpers on documents they cannot parse. -/
def emptyAbi : Abi := ⟨fun _ _ ↦ 0, fun _ _ _ ↦ .ok (), fun _ ↦ rfl⟩

/-- A chain past Byzantium whose genesis block has time 0 and whose head is block 1. -/
def sampleEnv (evm : Evm) : ChainEnv where
  config := ⟨fun _ ↦ true, fun _ ↦ true, fun _ ↦ true, none, 0⟩
  crypto := sampleCrypto
  evm := evm
  abi := emptyAbi
  order := RangeOrder.stored
  stateRoot _ := 0
  dposRoots := ⟨fun _ ↦ 0, fun _ ↦ 0, fun _ ↦ 0⟩
  bokerRoots := ⟨fun _ ↦ 0, fun _ ↦ 0, fun _ ↦ 0⟩
  genesisTime := some 0
  currentNumber := 1

/-- A state in which only the account `64` exists, with a balance of 100. -/
def sampleState : StateDB where
  accounts a := if a = 64 then some ⟨0, 100, [], false⟩ else none
  dirty _ := false
  refund := 0

theorem sampleState_noSuicides : sampleState.NoSuicides := by
  intro a o h
  simp only [sampleState] at h
  split_ifs at h
  cases h
  rfl

/-- Block 2 at time 10, with a gas limit of 30000. -/
def sampleHeader : Header :=
  ⟨0, 0, 0, 0, 0, 0, 0, ⟨0, 0, 0⟩, ⟨0, 0, 0⟩, 0, 1, 2, 30000, 0, 10, [], 0, 0⟩

/-- The objects at the start of the block: a pool of the block's 30000 gas and an empty
registry. -/
def sampleWorld : World := ⟨sampleState, DposContext.empty, 30000, 0, BokerContracts.empty⟩

/-- A `VoteUser` transaction from `64` to `5` with a gas limit of 10 at a price of 1. -/
def voteUserTx : Transaction := ⟨⟨0, 1, 10, some 5, 0, .voteUser, 0, [], [], 27, 1, 1⟩, none⟩

/-- After the `VoteUser` transaction the pool holds 29990 while the block's gas counter is 0:
the pool has lost the gas limit the receipt does not count. -/
theorem voteUser_pool_out_of_step :
    (okState (World.applyTransaction (sampleEnv (idleEvm 0)) sampleHeader voteUserTx
      sampleWorld)).map (fun w ↦ (w.gp, w.usedGas)) = some (29990, 0) := by
  set_option maxRecDepth 4096 in decide

/-- With an EVM that keeps every balance, the `VoteUser` transaction lowers the sum of the
balances by its gas payment: the sender paid 10 and nobody was paid. -/
theorem voteUser_burns_gas_payment :
    (okState (World.applyTransaction (sampleEnv (idleEvm 0)) sampleHeader voteUserTx
      sampleWorld)).map (fun w ↦ w.statedb.totalBalance) =
      some (sampleWorld.statedb.totalBalance - 10) := by
  have hmsg : voteUserTx.asMessage sampleCrypto =
      .ok ⟨64, some 5, 0, 0, 10, 1, [], [], .voteUser, true⟩ := by set_option maxRecDepth 4096 in decide
  cases hrun : World.applyTransaction (sampleEnv (idleEvm 0)) sampleHeader voteUserTx sampleWorld
    with
  | error e w' =>
    have hok : succeeded (World.applyTransaction (sampleEnv (idleEvm 0)) sampleHeader voteUserTx
        sampleWorld) = true := by set_option maxRecDepth 4096 in decide
    rw [hrun] at hok
    cases hok
  | ok res w' =>
    obtain ⟨-, -, htotal⟩ := World.applyTransaction_base_ok (idleEvm_conserving 0)
      sampleState_noSuicides hmsg (.inl rfl) hrun
    simp [htotal]

/-! ## Runs on gas that was not bought -/

/-- An EVM that runs like `idleEvm` when it is given `gas` units and burns everything, out of
gas, when it is given any other amount. -/
def budgetEvm (coinbase : Address) (gas : Nat) : Evm where
  coinbase := coinbase
  call s _ _ _ _ g _ := if g = gas then ⟨[], g, none, s⟩ else ⟨[], 0, some .errOutOfGas, s⟩
  create s _ _ _ g _ := if g = gas then ⟨[], g, none, s⟩ else ⟨[], 0, some .errOutOfGas, s⟩
  call_leftOver_le _ _ _ _ _ g _ := by split <;> simp
  create_leftOver_le _ _ _ _ g _ := by split <;> simp

theorem idleEvm_agreeAt_budgetEvm (coinbase : Address) (gas : Nat) :
    (idleEvm coinbase).AgreeAt (budgetEvm coinbase gas) gas where
  coinbase := rfl
  call _ _ _ _ _ _ := by simp [idleEvm, budgetEvm]
  create _ _ _ _ _ := by simp [idleEvm, budgetEvm]

/-- A transfer from `64` to `5` with a gas limit of exactly the intrinsic gas, free of charge. -/
def transferMsg : Message := ⟨64, some 5, 0, 0, 21000, 0, [], [], .binary, true⟩

/-- `TransitionDb` runs the transfer's EVM with no gas and `BaseTransitionDb` with
`MaxGasPrice`. -/
theorem transfer_runs_at_budgets :
    StateTransition.transitionDb (idleEvm 0) emptyAbi transferMsg
        (.new 30000 sampleState .empty) =
      StateTransition.transitionDb (budgetEvm 0 0) emptyAbi transferMsg
        (.new 30000 sampleState .empty) ∧
    StateTransition.baseTransitionDb (idleEvm 0) emptyAbi transferMsg
        (.new 30000 sampleState .empty) =
      StateTransition.baseTransitionDb (budgetEvm 0 Protocol.maxGasPrice) emptyAbi transferMsg
        (.new 30000 sampleState .empty) :=
  ⟨(StateTransition.evm_runs_at_budget 30000 sampleState .empty).1
      (idleEvm_agreeAt_budgetEvm 0 0),
    (StateTransition.evm_runs_at_budget 30000 sampleState .empty).2
      (idleEvm_agreeAt_budgetEvm 0 Protocol.maxGasPrice)⟩

/-- An EVM whose every run costs one unit of gas, and fails out of gas without it. -/
def meteredEvm (coinbase : Address) : Evm where
  coinbase := coinbase
  call s _ _ _ _ g _ := if g < 1 then ⟨[], 0, some .errOutOfGas, s⟩ else ⟨[], g - 1, none, s⟩
  create s _ _ _ g _ := if g < 1 then ⟨[], 0, some .errOutOfGas, s⟩ else ⟨[], g - 1, none, s⟩
  call_leftOver_le _ _ _ _ _ g _ := by split <;> simp
  create_leftOver_le _ _ _ _ g _ := by split <;> simp

/-- A `VoteUser` transaction from `64` to `5` that buys no gas. -/
def freeVoteTx : Transaction := ⟨⟨0, 1, 0, some 5, 0, .voteUser, 0, [], [], 27, 1, 1⟩, none⟩

/-- A transfer from `64` to `5` that buys only its intrinsic gas. -/
def bareTransferTx : Transaction :=
  ⟨⟨0, 0, 21000, some 5, 0, .binary, 0, [], [], 27, 1, 1⟩, none⟩

/-- With an EVM whose run costs one unit of gas, the `VoteUser` transaction that bought none
completes without failure, while the transfer, whose EVM gets the gas it bought beyond the
intrinsic gas, which is none, fails out of gas. -/
theorem base_call_runs_on_unbought_gas :
    (value (World.applyTransaction (sampleEnv (meteredEvm 0)) sampleHeader freeVoteTx
      sampleWorld)).map (fun res ↦ res.1.failed) = some false ∧
    (value (World.applyTransaction (sampleEnv (meteredEvm 0)) sampleHeader bareTransferTx
      sampleWorld)).map (fun res ↦ res.1.failed) = some true := by
  set_option maxRecDepth 4096 in decide

end BokerChain
