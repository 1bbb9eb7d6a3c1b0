import BokerChain.Core.GasAccounting
import BokerChain.Core.BlockChain
import BokerChain.Library.FixedWidth

/-!
# Replay protection

Every path of `ApplyTransaction` runs `preCheck`, which refuses a message whose nonce is not the
sender's, and raises the sender's nonce once: `TransitionDb` with `SetNonce` before a call and
through `evm.Create` for a creation, the three Boker transitions with `SetNonce` after their
work.  The EVM is taken as given.  What is assumed of it is what `EVM.Call` and `EVM.Create` do
to an external account, one that holds no code and at whose address no creation deploys code: a
call leaves its nonce alone, a creation from it raises it by one once the balance check passed,
and neither gives it code nor marks it self-destructed (`Evm.KeepsExternal`).

Under that assumption a transaction that goes through carried its sender's nonce and leaves it
one higher, and every other external account's as it was (`applyTransaction_nonceStep`); so along
the transactions `Process` applies, the nonces of each sender are consecutive
(`applyTransactions_nonceRun`).  The nonce is a `uint64` and nothing refuses the largest one, which
a genesis allocation may give an account: the transaction at that nonce leaves it at 0
(`nonce_wraps_to_zero`).
-/

namespace BokerChain

open Library Imperative WrappingCounter

/-! ## External accounts and their nonces -/

namespace StateDB

/-- An account that runs no code and is not marked self-destructed, as an external account
is. -/
def Plain (s : StateDB) (a : Address) : Prop := s.getCode a = [] ∧ s.hasSuicided a = false

/-- From `s` to `t` the account `a`, if it was plain, stays plain and its nonce goes up by
`k`. -/
def Bumps (a : Address) (k : UInt64) (s t : StateDB) : Prop :=
  s.Plain a → t.Plain a ∧ t.getNonce a = s.getNonce a + k

variable {s t u : StateDB} {a addr : Address} {k k' : UInt64}

theorem getBalance_eq_view (a : Address) : s.getBalance a = (s.view a).balance := by
  unfold getBalance view
  cases s.accounts a <;> rfl

theorem Bumps.trans (h₁ : s.Bumps a k t) (h₂ : t.Bumps a k' u) : s.Bumps a (k + k') u := by
  intro hs
  obtain ⟨ht, hnt⟩ := h₁ hs
  obtain ⟨hu, hnu⟩ := h₂ ht
  exact ⟨hu, by rw [hnu, hnt, UInt64.add_assoc]⟩

theorem Bumps.trans_zero (h₁ : s.Bumps a k t) (h₂ : t.Bumps a 0 u) : s.Bumps a k u := by
  simpa using h₁.trans h₂

theorem Bumps.zero_trans (h₁ : s.Bumps a 0 t) (h₂ : t.Bumps a k u) : s.Bumps a k u := by
  simpa using h₁.trans h₂

theorem Bumps.of_view (hnonce : (t.view a).nonce = (s.view a).nonce + k)
    (hcode : (t.view a).code = (s.view a).code)
    (hsuicided : (t.view a).suicided = (s.view a).suicided) : s.Bumps a k t := by
  rintro ⟨hc, hs⟩
  refine ⟨⟨?_, ?_⟩, ?_⟩
  · rw [getCode_eq_view, hcode, ← getCode_eq_view, hc]
  · rw [hasSuicided_eq_view, hsuicided, ← hasSuicided_eq_view, hs]
  · rw [getNonce_eq_view, getNonce_eq_view, hnonce]

theorem Bumps.of_view_eq (h : t.view a = s.view a) : s.Bumps a 0 t :=
  Bumps.of_view (by rw [h, UInt64.add_zero]) (by rw [h]) (by rw [h])

theorem bumps_self : s.Bumps a 0 s := Bumps.of_view_eq rfl

theorem bumps_addBalance (amount : Int) : s.Bumps a 0 (s.addBalance addr amount) := by
  apply Bumps.of_view <;> by_cases ha : a = addr <;> simp [ha]

theorem bumps_subBalance (amount : Int) : s.Bumps a 0 (s.subBalance addr amount) := by
  apply Bumps.of_view <;> by_cases ha : a = addr <;> simp [ha]

theorem bumps_incrementNonce :
    s.Bumps a (if a = addr then 1 else 0) (s.setNonce addr (s.getNonce addr + 1)) := by
  by_cases ha : a = addr
  · subst ha
    apply Bumps.of_view <;> simp [getNonce_eq_view]
  · apply Bumps.of_view <;> simp [ha]

theorem bumps_finalise (deleteEmpty : Bool) : s.Bumps a 0 (s.finalise deleteEmpty) := by
  rintro ⟨hc, hs⟩
  rw [getCode_eq_view] at hc
  rw [hasSuicided_eq_view] at hs
  simp only [Plain, getCode_eq_view, hasSuicided_eq_view, getNonce_eq_view, view_finalise,
    UInt64.add_zero]
  split_ifs with hdel
  · obtain ⟨-, hsui | ⟨-, hempty⟩⟩ := hdel
    · rw [hs] at hsui
      cases hsui
    · simp only [Account.empty, decide_eq_true_eq] at hempty
      exact ⟨⟨rfl, rfl⟩, hempty.1.symm⟩
  · exact ⟨⟨hc, hs⟩, rfl⟩

end StateDB

/-- What the EVM does to the external accounts `E`, the accounts at which no creation deploys
code: from an account that runs no code, a call leaves its nonce as it was, and a creation,
once it passed the balance check of `EVM.Create`, raises the creator's by one and no other; no
run gives a plain account code or marks it self-destructed. -/
structure Evm.KeepsExternal (evm : Evm) (E : Set Address) : Prop where
  call : ∀ (s : StateDB) caller price callee input gas value, ∀ a ∈ E,
    s.Bumps a 0 (evm.call s caller price callee input gas value).state
  create : ∀ (s : StateDB) caller price code gas value, ∀ a ∈ E,
    (evm.create s caller price code gas value).err ≠ some .errInsufficientBalance →
    s.Bumps a (if a = caller then 1 else 0) (evm.create s caller price code gas value).state

/-- What a message that went through did to the nonces: it carried the sender's nonce, and every
external account that was plain stays plain, with the sender's nonce one higher and every other
one as it was. -/
structure NonceStep (E : Set Address) (msg : Message) (s t : StateDB) : Prop where
  checked : msg.nonce = s.getNonce msg.sender
  bumps : ∀ a ∈ E, s.Bumps a (if a = msg.sender then 1 else 0) t

theorem NonceStep.trans_zero {E : Set Address} {msg : Message} {s t u : StateDB}
    (h : NonceStep E msg s t) (hu : ∀ a ∈ E, t.Bumps a 0 u) : NonceStep E msg s u :=
  ⟨h.checked, fun a ha ↦ (h.bumps a ha).trans_zero (hu a ha)⟩

theorem NonceStep.finalise {E : Set Address} {msg : Message} {s t : StateDB}
    (h : NonceStep E msg s t) (deleteEmpty : Bool) : NonceStep E msg s (t.finalise deleteEmpty) :=
  h.trans_zero fun _ _ ↦ StateDB.bumps_finalise deleteEmpty

/-! ## Runs of messages -/

/-- The nonces of the messages `a` sent, in their order. -/
def noncesOf (a : Address) (msgs : List Message) : List UInt64 :=
  (msgs.filter fun m ↦ m.sender = a).map Message.nonce

/-- What a run that applied `msgs` did to the nonces: every external account that was plain stays
plain, the messages it sent carried its nonce and the ones after it, and its nonce is the next
one. -/
def NonceRun (E : Set Address) (msgs : List Message) (s t : StateDB) : Prop :=
  ∀ a ∈ E, s.Plain a → t.Plain a ∧
    noncesOf a msgs = List.iterate (· + 1) (s.getNonce a) (noncesOf a msgs).length ∧
    t.getNonce a = s.getNonce a + UInt64.ofNat (noncesOf a msgs).length

theorem noncesOf_append (a : Address) (msgs msgs' : List Message) :
    noncesOf a (msgs ++ msgs') = noncesOf a msgs ++ noncesOf a msgs' := by
  simp [noncesOf]

theorem noncesOf_singleton (a : Address) (m : Message) :
    noncesOf a [m] = if m.sender = a then [m.nonce] else [] := by
  by_cases h : m.sender = a <;> simp [noncesOf, h]

theorem NonceRun.nil {E : Set Address} {s : StateDB} : NonceRun E [] s s := by
  intro a _ hs
  simp [noncesOf, hs]

theorem NonceStep.nonceRun {E : Set Address} {msg : Message} {s t : StateDB}
    (h : NonceStep E msg s t) : NonceRun E [msg] s t := by
  intro a ha hs
  obtain ⟨ht, hnonce⟩ := h.bumps a ha hs
  refine ⟨ht, ?_⟩
  rw [noncesOf_singleton]
  by_cases hsender : msg.sender = a
  · subst hsender
    rw [if_pos rfl] at hnonce ⊢
    exact ⟨by rw [h.checked]; rfl, by rw [hnonce]; rfl⟩
  · rw [if_neg (Ne.symm hsender)] at hnonce
    rw [if_neg hsender]
    exact ⟨rfl, by rw [hnonce]; rfl⟩

theorem NonceRun.append {E : Set Address} {msgs msgs' : List Message} {s t u : StateDB}
    (h₁ : NonceRun E msgs s t)
    (h₂ : NonceRun E msgs' t u) : NonceRun E (msgs ++ msgs') s u := by
  intro a ha hs
  obtain ⟨ht, hlist₁, hnonce₁⟩ := h₁ a ha hs
  obtain ⟨hu, hlist₂, hnonce₂⟩ := h₂ a ha ht
  refine ⟨hu, ?_, ?_⟩
  · rw [noncesOf_append, List.length_append, List.iterate_add, iterate_add_one_eq, ← hnonce₁,
      ← hlist₁, ← hlist₂]
  · rw [hnonce₂, hnonce₁, noncesOf_append, List.length_append, UInt64.ofNat_add,
      UInt64.add_assoc]

theorem NonceRun.trans_zero {E : Set Address} {msgs : List Message} {s t u : StateDB}
    (h : NonceRun E msgs s t)
    (hu : ∀ a ∈ E, t.Bumps a 0 u) : NonceRun E msgs s u := by
  intro a ha hs
  obtain ⟨ht, hlist, hnonce⟩ := h a ha hs
  obtain ⟨hu', hnonce'⟩ := hu a ha ht
  exact ⟨hu', hlist, by rw [hnonce', hnonce, UInt64.add_zero]⟩

/-! ## The steps of a transition -/

namespace StateTransition

open StateDB

variable {evm : Evm} {abi : Abi} {msg : Message} {st st' : StateTransition} {E : Set Address}
  {a : Address}

theorem view_createIfMissing (addr a : Address) :
    (createIfMissing addr st).state.view a = st.state.view a := by
  unfold createIfMissing
  split
  · rfl
  · next hex =>
    rw [view_createAccount]
    split
    · next ha =>
      subst ha
      have hnone : st.state.accounts a = none := by simpa [exist] using hex
      simp [view, hnone, Account.fresh]
    · rfl

@[simp]
theorem getNonce_createIfMissing (addr a : Address) :
    (createIfMissing addr st).state.getNonce a = st.state.getNonce a := by
  rw [getNonce_eq_view, getNonce_eq_view, view_createIfMissing]

theorem bumps_createIfMissing (addr : Address) : st.state.Bumps a 0 (createIfMissing addr st).state :=
  Bumps.of_view_eq (view_createIfMissing addr a)

theorem bumps_nonceBumped (sender : Address) :
    st.state.Bumps a (if a = sender then 1 else 0) (nonceBumped sender st).state := by
  unfold nonceBumped
  dsimp only
  have hbump : (createIfMissing sender st).state.Bumps a (if a = sender then 1 else 0)
      ((createIfMissing sender st).state.setNonce sender
        ((createIfMissing sender st).state.getNonce sender + 1)) := bumps_incrementNonce
  exact (bumps_createIfMissing sender).zero_trans hbump

theorem preCheck_nonce (h : preCheck msg st = .ok () st') (hc : msg.checkNonce = true) :
    msg.nonce = st.state.getNonce msg.sender := by
  rw [preCheck_apply] at h
  dsimp only at h
  split_ifs at h with hhigh hlow
  rw [getNonce_createIfMissing] at hhigh hlow
  apply UInt64.le_antisymm
  · exact UInt64.not_lt.1 fun hlt ↦ hhigh ⟨hc, hlt⟩
  · exact UInt64.not_lt.1 fun hlt ↦ hlow ⟨hc, hlt⟩

theorem preCheck_isOk (hc : msg.nonce = st.state.getNonce msg.sender)
    (hbits : msg.gasLimit < 2 ^ 64)
    (hbalance : ↑(msg.gasLimit * msg.gasPrice) ≤ st.state.getBalance msg.sender)
    (hgp : msg.gasLimit ≤ st.gp) : ∃ st', preCheck msg st = .ok () st' := by
  rw [preCheck_apply]
  dsimp only
  rw [getNonce_createIfMissing, ← hc, if_neg (fun h ↦ UInt64.lt_irrefl _ h.2),
    if_neg (fun h ↦ UInt64.lt_irrefl _ h.2), buyGas_apply, if_neg (Nat.not_le_of_lt hbits)]
  dsimp only
  simp only [getBalance_createIfMissing, createIfMissing_gp]
  rw [if_neg (not_lt.2 hbalance), if_neg (Nat.not_lt_of_le hgp)]
  exact ⟨_, rfl⟩

theorem preCheck_bumps (h : preCheck msg st = .ok () st') : st.state.Bumps a 0 st'.state := by
  rw [preCheck_apply] at h
  dsimp only at h
  split_ifs at h
  rw [buyGas_apply] at h
  dsimp only at h
  split_ifs at h
  cases h
  exact ((bumps_createIfMissing _).zero_trans (bumps_createIfMissing _)).zero_trans
    (bumps_subBalance _)

theorem preCheck_getBalance (h : preCheck msg st = .ok () st') (a : Address) :
    st'.state.getBalance a =
      if a = msg.sender then st.state.getBalance a - ↑(msg.gasLimit * msg.gasPrice)
      else st.state.getBalance a := by
  rw [preCheck_apply] at h
  dsimp only at h
  split_ifs at h
  rw [buyGas_apply] at h
  dsimp only at h
  split_ifs at h
  cases h
  simp

theorem runCall_bumps (hevm : evm.KeepsExternal E) (ha : a ∈ E) {sender : Address}
    {p : Bytes × Option Error} (h : runCall evm msg sender st = .ok p st') :
    st.state.Bumps a 0 st'.state := by
  rw [runCall_apply] at h
  cases hrec : msg.recipient with
  | none =>
    simp only [hrec] at h
    cases h
    exact hevm.call _ _ _ _ _ _ _ a ha
  | some callee =>
    simp only [hrec] at h
    cases h
    exact (bumps_createIfMissing callee).zero_trans (hevm.call _ _ _ _ _ _ _ a ha)

theorem runCreate_bumps (hevm : evm.KeepsExternal E) (ha : a ∈ E) {sender : Address}
    {ret : Bytes} {vmerr : Option Error} (h : runCreate evm msg sender st = .ok (ret, vmerr) st')
    (hv : vmerr ≠ some .errInsufficientBalance) :
    st.state.Bumps a (if a = sender then 1 else 0) st'.state := by
  simp only [runCreate, modifyGet_apply] at h
  cases h
  exact hevm.create _ _ _ _ _ _ a ha hv

theorem refundGas_bumps (h : refundGas msg st = .ok () st') : st.state.Bumps a 0 st'.state := by
  simp only [refundGas, bind_apply, fromAccount_apply, get_apply, set_apply] at h
  cases h
  have hrefund : ∀ (s : StateDB) (r : Nat), s.Bumps a 0 { s with refund := r } :=
    fun _ _ ↦ Bumps.of_view_eq rfl
  split
  · exact (((bumps_createIfMissing msg.sender).zero_trans (bumps_addBalance _)).trans_zero
      (hrefund _ _)).trans_zero (bumps_addBalance _)
  · exact ((bumps_createIfMissing msg.sender).zero_trans (bumps_addBalance _)).trans_zero
      (bumps_addBalance _)

theorem finish_bumps {ret : Bytes} {vmerr : Option Error} {extra : Bytes} {r : ExecutionResult}
    (h : (do
      let l ← get
      refundGas msg
      modify fun st : StateTransition ↦
        { st with state := st.state.addBalance evm.coinbase (st.gasUsed * msg.gasPrice) }
      let st ← get
      pure (⟨ret, l.gasUsed, st.gasUsed, vmerr.isSome, extra⟩ : ExecutionResult) :
        EStateM Error StateTransition ExecutionResult) st = .ok r st') :
    st.state.Bumps a 0 st'.state := by
  obtain ⟨_, st₁, hget, h⟩ := bind_eq_ok.1 h
  obtain ⟨-, rfl⟩ := get_eq_ok.1 hget
  obtain ⟨_, st₂, hrefund, h⟩ := bind_eq_ok.1 h
  obtain ⟨_, st₃, hpay, h⟩ := bind_eq_ok.1 h
  rw [modify_eq_ok] at hpay
  subst hpay
  obtain ⟨_, st₄, hget', h⟩ := bind_eq_ok.1 h
  obtain ⟨-, rfl⟩ := get_eq_ok.1 hget'
  obtain ⟨-, rfl⟩ := pure_eq_ok.1 h
  exact (refundGas_bumps hrefund).zero_trans (bumps_addBalance _)

/-! ## The transitions -/

theorem contractTransitionDb_nonceStep {o : RangeOrder Address ContractType} {txType : TxType}
    {r : ExecutionResult} (hc : msg.checkNonce = true)
    (h : contractTransitionDb o msg txType st = .ok r st') (E : Set Address) :
    NonceStep E msg st.state st'.state := by
  rw [contractTransitionDb_apply] at h
  cases hpre : preCheck msg st with
  | error e st₁ => rw [hpre] at h; cases h
  | ok u st₁ =>
    rw [hpre] at h
    dsimp only at h
    refine ⟨preCheck_nonce hpre hc, fun a _ ↦ (preCheck_bumps hpre).zero_trans ?_⟩
    cases hrec : msg.recipient with
    | some callee =>
      rw [hrec] at h
      cases h
      exact @bumps_nonceBumped { st₁ with boker := writeContract o st₁.boker txType callee msg.extra }
        a msg.sender
    | none =>
      rw [hrec] at h
      dsimp only at h
      split_ifs at h
      cases h
      exact bumps_nonceBumped msg.sender

theorem validatorTransitionDb_nonceStep {r : ExecutionResult} (hc : msg.checkNonce = true)
    (h : validatorTransitionDb abi msg st = .ok r st') (E : Set Address) :
    NonceStep E msg st.state st'.state := by
  rw [validatorTransitionDb_apply] at h
  cases hpre : preCheck msg st with
  | error e st₁ => rw [hpre] at h; cases h
  | ok u st₁ =>
    rw [hpre] at h
    cases h
    exact ⟨preCheck_nonce hpre hc,
      fun a _ ↦ (preCheck_bumps hpre).zero_trans (bumps_nonceBumped msg.sender)⟩

theorem baseTransitionDb_nonceStep (hevm : evm.KeepsExternal E) (hc : msg.checkNonce = true)
    {r : ExecutionResult} (h : baseTransitionDb evm abi msg st = .ok r st') :
    NonceStep E msg st.state st'.state := by
  rw [baseTransitionDb_apply] at h
  cases hpre : preCheck msg st with
  | error e st₁ => rw [hpre] at h; cases h
  | ok u st₁ =>
    rw [hpre] at h
    dsimp only at h
    split_ifs at h
    cases hrun : runCall evm msg msg.sender
        { nonceBumped msg.sender st₁ with gas := Protocol.maxGasPrice } with
    | error e st₂ => rw [hrun] at h; cases h
    | ok p st₂ =>
      rw [hrun] at h
      obtain ⟨ret, vmerr⟩ := p
      dsimp only at h
      split_ifs at h
      cases h
      refine ⟨preCheck_nonce hpre hc, fun a ha ↦ ?_⟩
      have hcall := runCall_bumps hevm ha hrun
      exact ((preCheck_bumps hpre).zero_trans (bumps_nonceBumped msg.sender)).trans_zero hcall

theorem transitionDb_nonceStep (hevm : evm.KeepsExternal E) (hc : msg.checkNonce = true)
    {r : ExecutionResult} (h : transitionDb evm abi msg st = .ok r st') :
    NonceStep E msg st.state st'.state := by
  unfold transitionDb at h
  obtain ⟨_, st₁, hpre, h⟩ := bind_eq_ok.1 h
  obtain ⟨sender, st₂, hfrom, h⟩ := bind_eq_ok.1 h
  rw [fromAccount_apply] at hfrom
  cases hfrom
  dsimp only at h
  by_cases hbits : 2 ^ 64 ≤ intrinsicGas msg.data msg.recipient.isNone true
  · simp only [hbits, ↓reduceIte, bind_apply, throw_apply] at h
    cases h
  simp only [hbits, ↓reduceIte] at h
  obtain ⟨_, st₃, huse, h⟩ := bind_eq_ok.1 h
  rw [useGas_apply] at huse
  split_ifs at huse
  cases huse
  refine ⟨preCheck_nonce hpre hc, fun a ha ↦ (preCheck_bumps hpre).zero_trans
    ((bumps_createIfMissing msg.sender).zero_trans ?_)⟩
  by_cases hcreate : msg.recipient.isNone = true
  · simp only [hcreate, ↓reduceIte] at h
    obtain ⟨⟨ret, vmerr⟩, st₄, hrun, h⟩ := bind_eq_ok.1 h
    rw [pure_bind] at h
    dsimp only at h
    by_cases hv : vmerr = some .errInsufficientBalance
    · rw [if_pos hv] at h
      cases h
    rw [if_neg hv] at h
    exact (runCreate_bumps hevm ha hrun hv).trans_zero (finish_bumps h)
  · simp only [hcreate, Bool.false_eq_true, ↓reduceIte] at h
    obtain ⟨extra, st₄, hextra, h⟩ := bind_eq_ok.1 h
    rw [readExtra_apply] at hextra
    cases hextra
    obtain ⟨_, st₅, hinc, h⟩ := bind_eq_ok.1 h
    rw [incrementNonce_apply] at hinc
    cases hinc
    obtain ⟨⟨ret, vmerr⟩, st₆, hrun, h⟩ := bind_eq_ok.1 h
    rw [pure_bind] at h
    dsimp only at h
    by_cases hv : vmerr = some .errInsufficientBalance
    · rw [if_pos hv] at h
      cases h
    rw [if_neg hv] at h
    exact (bumps_incrementNonce.trans_zero (runCall_bumps hevm ha hrun)).trans_zero
      (finish_bumps h)

end StateTransition

/-! ## The paths of `ApplyTransaction` -/

theorem Transaction.asMessage_checkNonce {c : Crypto} {tx : Transaction} {msg : Message}
    (h : tx.asMessage c = .ok msg) : msg.checkNonce = true := by
  unfold Transaction.asMessage at h
  cases hs : tx.sender c with
  | error e => rw [hs] at h; cases h
  | ok sender => rw [hs] at h; cases h; rfl

theorem Transaction.asMessage_cacheHash (c c' : Crypto) (tx : Transaction) :
    (tx.cacheHash c').asMessage c = tx.asMessage c := rfl

namespace World

open BokerChain.StateDB BokerChain.StateTransition

variable {env : ChainEnv} {header : Header} {tx : Transaction} {w w' : World}
  {res : Receipt × Nat × Transaction} {msg : Message} {E : Set Address}

theorem setValidator_statedb {recipient : Option Address} {u : Unit}
    (h : setValidator recipient w = .ok u w') : w'.statedb = w.statedb := by
  unfold setValidator at h
  obtain ⟨_, w₁, hclean, h⟩ := bind_eq_ok.1 h
  rw [modify_eq_ok] at hclean
  subst hclean
  cases recipient with
  | some validator =>
    rw [modify_eq_ok] at h
    rw [h]
  | none => cases h

theorem validatorTail_nonceStep {α : Type} {commit : EStateM Error World α}
    (hcommit : ∀ w root w', commit w = .ok root w' → ∃ d, w'.statedb = w.statedb.finalise d)
    {mkRoot : α → Option Hash} (hc : msg.checkNonce = true)
    (h : (do
      let r ← validatorMessage env msg
      setValidator msg.recipient
      let root ← commit
      receiptOf env tx (mkRoot root) r 0 : EStateM Error World (Receipt × Nat × Transaction)) w =
        .ok res w') :
    NonceStep E msg w.statedb w'.statedb := by
  obtain ⟨r, w₁, hrun, h⟩ := bind_eq_ok.1 h
  obtain ⟨_, w₂, hset, h⟩ := bind_eq_ok.1 h
  obtain ⟨root, w₃, hroot, h⟩ := bind_eq_ok.1 h
  rw [receiptOf_apply] at h
  cases h
  obtain ⟨d, hd⟩ := hcommit w₂ root w₃ hroot
  rw [validatorMessage_apply] at hrun
  cases hval : validatorTransitionDb env.abi msg (.new w.gp w.statedb w.boker) with
  | error e st => rw [hval] at hrun; cases hrun
  | ok r' st =>
    rw [hval] at hrun
    cases hrun
    have hstep := (validatorTransitionDb_nonceStep hc hval E).finalise d
    rw [setValidator_statedb hset] at hd
    rw [hd]
    exact hstep

theorem validatorTransaction_nonceStep (hmsg : tx.asMessage env.crypto = .ok msg)
    (h : validatorTransaction env header tx w = .ok res w') :
    NonceStep E msg w.statedb w'.statedb := by
  have hc := Transaction.asMessage_checkNonce hmsg
  unfold validatorTransaction at h
  obtain ⟨msg', w₁, hlift, h⟩ := bind_eq_ok.1 h
  obtain ⟨hmsg', rfl⟩ := liftExcept_eq_ok.1 hlift
  rw [hmsg] at hmsg'
  cases hmsg'
  cases hg : env.genesisTime with
  | none => simp [hg] at h
  | some first =>
    simp only [hg] at h
    obtain ⟨_, w₂, hget, h⟩ := bind_eq_ok.1 h
    obtain ⟨rfl, rfl⟩ := get_eq_ok.1 hget
    have hroot : ∀ w root w', intermediateRoot env false w = .ok root w' →
        ∃ d, w'.statedb = w.statedb.finalise d := by
      intro w root w' hw
      cases hw
      exact ⟨false, rfl⟩
    have hcommit : ∀ w root w', commitState env header w = .ok root w' →
        ∃ d, w'.statedb = w.statedb.finalise d := by
      intro w root w' hw
      rw [commitState_apply] at hw
      cases hw
      exact ⟨_, rfl⟩
    split_ifs at h with hfound hzero hprod
    · exact validatorTail_nonceStep hroot hc h
    · cases h
    · cases h
    · exact validatorTail_nonceStep hcommit hc h

theorem binaryTransaction_nonceStep (hevm : env.evm.KeepsExternal E)
    (hmsg : tx.asMessage env.crypto = .ok msg) (h : binaryTransaction env header tx w = .ok res w') :
    NonceStep E msg w.statedb w'.statedb := by
  rw [binaryTransaction_apply, hmsg] at h
  dsimp only at h
  rw [binaryMessage_apply] at h
  cases hrun : transitionDb env.evm env.abi msg (.new w.gp w.statedb w.boker) with
  | error e st => rw [hrun] at h; cases h
  | ok r st =>
    rw [hrun] at h
    obtain ⟨rfl, -, -⟩ := commitAndReceipt_ok h
    exact (transitionDb_nonceStep hevm (Transaction.asMessage_checkNonce hmsg) hrun).finalise _

theorem contractSetTransaction_nonceStep (hmsg : tx.asMessage env.crypto = .ok msg)
    (h : contractSetTransaction env header tx w = .ok res w') :
    NonceStep E msg w.statedb w'.statedb := by
  rw [contractSetTransaction_apply, hmsg] at h
  dsimp only at h
  rw [contractMessage_apply] at h
  cases hrun : contractTransitionDb env.order msg msg.txType (.new w.gp w.statedb w.boker) with
  | error e st => rw [hrun] at h; cases h
  | ok r st =>
    rw [hrun] at h
    obtain ⟨rfl, -, -⟩ := commitAndReceipt_ok h
    exact (contractTransitionDb_nonceStep (Transaction.asMessage_checkNonce hmsg) hrun E).finalise _

theorem baseTransaction_nonceStep (hevm : env.evm.KeepsExternal E)
    (hmsg : tx.asMessage env.crypto = .ok msg) (h : baseTransaction env header tx w = .ok res w') :
    NonceStep E msg w.statedb w'.statedb := by
  obtain ⟨msg', r, st, hmsg', hrun, htail⟩ := baseTransaction_ok h
  rw [hmsg] at hmsg'
  cases hmsg'
  obtain ⟨rfl, -, -⟩ := commitAndReceipt_ok htail
  exact (baseTransitionDb_nonceStep hevm (Transaction.asMessage_checkNonce hmsg) hrun).finalise _

/-- Every path of `ApplyTransaction` that goes through checked the sender's nonce and bumped it
once, and changed no other external account's. -/
theorem applyTransaction_nonceStep (hevm : env.evm.KeepsExternal E)
    (hmsg : tx.asMessage env.crypto = .ok msg) (h : applyTransaction env header tx w = .ok res w') :
    NonceStep E msg w.statedb w'.statedb := by
  rw [applyTransaction_apply, hmsg] at h
  dsimp only at h
  split_ifs at h
  · exact binaryTransaction_nonceStep hevm hmsg h
  · exact contractSetTransaction_nonceStep hmsg h
  · exact baseTransaction_nonceStep hevm hmsg h
  · exact validatorTransaction_nonceStep hmsg h

/-! ## Runs of transactions and chains of blocks -/

theorem bumps_accumulateRewards {o : RangeOrder Address ContractType} {boker : BokerContracts}
    {header : Header} {s : StateDB} {a : Address} :
    s.Bumps a 0 (Dpos.accumulateRewards o boker header s) := by
  unfold Dpos.accumulateRewards
  dsimp only
  split
  · exact bumps_addBalance _
  · exact (bumps_addBalance _).trans_zero (bumps_addBalance _)

variable {m : Transaction → Message}

/-- Along the loop of `Process`, the nonces of every external sender are consecutive. -/
theorem applyTransactions_nonceRun (hevm : env.evm.KeepsExternal E) :
    ∀ {txs : List Transaction} {w w' : World} {res : List Receipt × List Transaction},
      (∀ tx ∈ txs, tx.asMessage env.crypto = .ok (m tx)) →
      applyTransactions env header txs w = .ok res w' → NonceRun E (txs.map m) w.statedb w'.statedb
  | [], w, w', res, _, h => by
    obtain ⟨-, rfl⟩ := pure_eq_ok.1 h
    exact NonceRun.nil
  | tx :: txs, w, w', res, hmsgs, h => by
    unfold applyTransactions at h
    obtain ⟨⟨receipt, gas, tx'⟩, w₁, hrun, h⟩ := bind_eq_ok.1 h
    dsimp only at h
    obtain ⟨⟨receipts, txs'⟩, w₂, hrest, h⟩ := bind_eq_ok.1 h
    dsimp only at h
    obtain ⟨-, rfl⟩ := pure_eq_ok.1 h
    have hmsg : (tx.cacheHash env.crypto).asMessage env.crypto = .ok (m tx) := by
      rw [Transaction.asMessage_cacheHash]
      exact hmsgs tx List.mem_cons_self
    have hfirst := (applyTransaction_nonceStep hevm hmsg hrun).nonceRun
    have hafter := applyTransactions_nonceRun hevm
      (fun tx' htx' ↦ hmsgs tx' (List.mem_cons_of_mem tx htx')) hrest
    exact hfirst.append hafter

theorem process_nonceRun (hevm : env.evm.KeepsExternal E) {parent : Header} {block : Block}
    {res : List Receipt × List Transaction}
    (hmsgs : ∀ tx ∈ block.transactions, tx.asMessage env.crypto = .ok (m tx))
    (h : process env parent block w = .ok res w') :
    NonceRun E (block.transactions.map m) w.statedb w'.statedb := by
  unfold process at h
  obtain ⟨_, w₁, hreset, h⟩ := bind_eq_ok.1 h
  rw [modify_eq_ok] at hreset
  subst hreset
  obtain ⟨r, w₂, hrun, h⟩ := bind_eq_ok.1 h
  obtain ⟨hdr, w₃, hfin, h⟩ := bind_eq_ok.1 h
  obtain ⟨-, rfl⟩ := pure_eq_ok.1 h
  rw [Dpos.finalize_apply] at hfin
  cases hfin
  exact (applyTransactions_nonceRun hevm hmsgs hrun).trans_zero
    fun a _ ↦ bumps_accumulateRewards.trans_zero (bumps_finalise _)

/-- Blocks processed one after the other, as `insertChain` imports them: each on the state its
predecessor committed, with the DPoS context and the registry its predecessor left; a block is
paired with the header of its parent. -/
inductive ProcessedChain (env : ChainEnv) : World → List (Header × Block) → World → Prop
  | nil (w : World) : ProcessedChain env w [] w
  | cons {w w₁ w₂ : World} {parent : Header} {block : Block}
      {res : List Receipt × List Transaction} {blocks : List (Header × Block)}
      (h : process env parent block w = .ok res w₁)
      (hrest : ProcessedChain env
        ⟨w₁.statedb.finalise (env.config.isEIP158 block.header.number), w₁.dposContext, 0, 0,
          w₁.boker⟩ blocks w₂) :
      ProcessedChain env w ((parent, block) :: blocks) w₂

/-- The transactions of a chain of blocks, in their order. -/
def chainTransactions (blocks : List (Header × Block)) : List Transaction :=
  blocks.flatMap fun b ↦ b.2.transactions

theorem ProcessedChain.nonceRun (hevm : env.evm.KeepsExternal E) {blocks : List (Header × Block)}
    (hchain : ProcessedChain env w blocks w')
    (hmsgs : ∀ tx ∈ chainTransactions blocks, tx.asMessage env.crypto = .ok (m tx)) :
    NonceRun E ((chainTransactions blocks).map m) w.statedb w'.statedb := by
  induction hchain with
  | nil w => exact NonceRun.nil
  | @cons w w₁ w₂ parent block res blocks h hrest ih =>
    simp only [chainTransactions, List.flatMap_cons, List.mem_append] at hmsgs ih ⊢
    rw [List.map_append]
    have hblock : NonceRun E (block.transactions.map m) w.statedb
        (w₁.statedb.finalise (env.config.isEIP158 block.header.number)) :=
      (process_nonceRun hevm (fun tx htx ↦ hmsgs tx (.inl htx)) h).trans_zero
        fun a _ ↦ bumps_finalise _
    exact hblock.append (ih fun tx htx ↦ hmsgs tx (.inr htx))

/-! ## Replay protection -/

/-- A transaction of any type from an external account goes through only with the account's
nonce, and leaves it one higher in `uint64` arithmetic.  Along a chain of processed blocks the
nonces of each external sender are consecutive from its nonce before the chain; they repeat
exactly when it sent more than `2^64` transactions. -/
theorem replay_protection (hevm : env.evm.KeepsExternal E) :
    (∀ {header : Header} {tx : Transaction} {msg : Message} {w w' : World}
        {res : Receipt × Nat × Transaction},
      tx.asMessage env.crypto = .ok msg → msg.sender ∈ E → w.statedb.Plain msg.sender →
      applyTransaction env header tx w = .ok res w' →
      msg.nonce = w.statedb.getNonce msg.sender ∧
        w'.statedb.getNonce msg.sender = msg.nonce + 1) ∧
    (∀ {w w' : World} {blocks : List (Header × Block)} {m : Transaction → Message},
      ProcessedChain env w blocks w' →
      (∀ tx ∈ chainTransactions blocks, tx.asMessage env.crypto = .ok (m tx)) →
      ∀ a ∈ E, w.statedb.Plain a →
        noncesOf a ((chainTransactions blocks).map m) =
            List.iterate (· + 1) (w.statedb.getNonce a)
              (noncesOf a ((chainTransactions blocks).map m)).length ∧
          ((noncesOf a ((chainTransactions blocks).map m)).Nodup ↔
            (noncesOf a ((chainTransactions blocks).map m)).length ≤ 2 ^ 64)) := by
  constructor
  · intro header tx msg w w' res hmsg hsender hplain h
    have hstep := applyTransaction_nonceStep hevm hmsg h
    obtain ⟨-, hnonce⟩ := hstep.bumps msg.sender hsender hplain
    rw [if_pos rfl] at hnonce
    exact ⟨hstep.checked, by rw [hnonce, hstep.checked]⟩
  · intro w w' blocks m hchain hmsgs a ha hplain
    obtain ⟨-, hlist, -⟩ := hchain.nonceRun hevm hmsgs a ha hplain
    refine ⟨hlist, ?_⟩
    have hcounter := nodup_iterate_add_one_iff (w.statedb.getNonce a)
      (noncesOf a ((chainTransactions blocks).map m)).length
    rwa [← hlist] at hcounter

end World

/-! ## Runs with a creating EVM, and the wrap of the nonce -/

/-- An EVM whose calls are the idle EVM's, changing nothing, and whose creations raise the
creator's nonce and change nothing else, as a creation of empty code with no value does. -/
def nonceEvm (coinbase : Address) : Evm where
  coinbase := coinbase
  call := (idleEvm coinbase).call
  create s caller _ _ gas _ := ⟨[], gas, none, s.setNonce caller (s.getNonce caller + 1)⟩
  call_leftOver_le := (idleEvm coinbase).call_leftOver_le
  create_leftOver_le _ _ _ _ _ _ := le_refl _

theorem nonceEvm_keepsExternal (coinbase : Address) (E : Set Address) :
    (nonceEvm coinbase).KeepsExternal E where
  call _ _ _ _ _ _ _ _ _ := StateDB.bumps_self
  create _ _ _ _ _ _ _ _ _ := StateDB.bumps_incrementNonce

theorem voteUserTx_asMessage :
    voteUserTx.asMessage sampleCrypto = .ok ⟨64, some 5, 0, 0, 10, 1, [], [], .voteUser, true⟩ := by
  set_option maxRecDepth 4096 in decide

/-- With an EVM that creates as the EVM does, the `VoteUser` transaction of `64` at nonce 0 leaves
its nonce at 1. -/
theorem replay_protection_voteUser :
    (sampleEnv (nonceEvm 0)).evm.KeepsExternal Set.univ ∧
      ∀ res w', World.applyTransaction (sampleEnv (nonceEvm 0)) sampleHeader voteUserTx
        sampleWorld = .ok res w' →
        (0 : UInt64) = sampleWorld.statedb.getNonce 64 ∧ w'.statedb.getNonce 64 = 0 + 1 := by
  have hevm : (sampleEnv (nonceEvm 0)).evm.KeepsExternal Set.univ :=
    nonceEvm_keepsExternal 0 Set.univ
  refine ⟨hevm, fun res w' h ↦ ?_⟩
  exact (World.replay_protection hevm).1 voteUserTx_asMessage (Set.mem_univ 64) ⟨rfl, rfl⟩ h

/-- A `SetPersonalContract` transaction from `64` registering `5` at nonce `n`, with no gas. -/
def replayTx (n : UInt64) : Transaction :=
  ⟨⟨n, 0, 0, some 5, 0, .setPersonalContract, 0, [], [], 27, 1, 1⟩, none⟩

/-- The message of `replayTx n`, signed by `64`. -/
def replayMsg (n : UInt64) : Message := ⟨64, some 5, n, 0, 0, 0, [], [], .setPersonalContract, true⟩

theorem recoverPlain_sample (h : Hash) : recoverPlain sampleCrypto h 1 1 27 true = .ok 64 := by
  have hsame : recoverPlain sampleCrypto h 1 1 27 true = recoverPlain sampleCrypto 0 1 1 27 true := by
    simp only [recoverPlain, sampleCrypto]
  rw [hsame]
  set_option maxRecDepth 4096 in decide

theorem replayTx_asMessage (n : UInt64) :
    (replayTx n).asMessage sampleCrypto = .ok (replayMsg n) := by
  simp only [Transaction.asMessage, Transaction.sender, replayTx, recoverPlain_sample]
  rfl

theorem StateDB.getBalance_finalise_nonneg {s : StateDB} {a : Address} (deleteEmpty : Bool)
    (h : 0 ≤ s.getBalance a) : 0 ≤ (s.finalise deleteEmpty).getBalance a := by
  rw [StateDB.getBalance_eq_view, StateDB.view_finalise]
  split
  · exact le_refl 0
  · rwa [← StateDB.getBalance_eq_view]

namespace World

/-- `replayTx n` goes through on a world where `64` is a plain account with nonce `n` and no
debt: it buys no gas and only registers `5`.  It leaves `64` plain, without debt, at nonce
`n + 1`. -/
theorem replayTx_applies {evm : Evm} {header : Header} {tx : Transaction} {n : UInt64} {w : World}
    (htx : tx.asMessage sampleCrypto = .ok (replayMsg n)) (hn : w.statedb.getNonce 64 = n)
    (hb : 0 ≤ w.statedb.getBalance 64) (hplain : w.statedb.Plain 64) :
    ∃ res w', applyTransaction (sampleEnv evm) header tx w = .ok res w' ∧
      w'.statedb.getNonce 64 = n + 1 ∧ 0 ≤ w'.statedb.getBalance 64 ∧ w'.statedb.Plain 64 := by
  have htx' : tx.asMessage (sampleEnv evm).crypto = .ok (replayMsg n) := htx
  obtain ⟨st₁, hpre⟩ := @StateTransition.preCheck_isOk (replayMsg n)
    (.new w.gp w.statedb w.boker) hn.symm (Nat.two_pow_pos 64)
    (by simpa [replayMsg, StateTransition.new] using hb) (Nat.zero_le _)
  have hcontract : StateTransition.contractTransitionDb (sampleEnv evm).order (replayMsg n)
      .setPersonalContract (.new w.gp w.statedb w.boker) =
        .ok ⟨[], 0, 0, false, []⟩ (StateTransition.nonceBumped 64 { st₁ with
          boker := (StateTransition.writeContract (sampleEnv evm).order st₁.boker
            .setPersonalContract 5 []) }) := by
    rw [StateTransition.contractTransitionDb_apply, hpre]
    rfl
  have hdispatch : applyTransaction (sampleEnv evm) header tx w =
      commitAndReceipt (sampleEnv evm) header tx ⟨[], 0, false⟩ 0
        (w.absorb (StateTransition.nonceBumped 64 { st₁ with
          boker := (StateTransition.writeContract (sampleEnv evm).order st₁.boker
            .setPersonalContract 5 []) })) := by
    have htype : (replayMsg n).txType = .setPersonalContract := rfl
    have hrecipient : (replayMsg n).recipient = some 5 := rfl
    rw [applyTransaction_apply, htx']
    dsimp only
    rw [htype, hrecipient, if_neg (by decide), if_neg (by decide), if_pos (by decide),
      contractSetTransaction_apply, htx']
    dsimp only
    rw [contractMessage_apply, htype, hcontract]
  rw [hdispatch]
  simp only [commitAndReceipt, bind_apply, commitState_apply, receiptOf_apply]
  refine ⟨_, _, rfl, ?_⟩
  have hstep := (StateTransition.contractTransitionDb_nonceStep rfl hcontract {64}).finalise
    (commitDeletes (sampleEnv evm) header)
  obtain ⟨hplain', hnonce⟩ := hstep.bumps 64 rfl hplain
  have hnext : w.statedb.getNonce 64 + (if (64 : Address) = 64 then 1 else 0) = n + 1 := by
    rw [if_pos rfl, hn]
  refine ⟨hnonce.trans hnext, ?_, hplain'⟩
  apply StateDB.getBalance_finalise_nonneg
  simpa [absorb, StateTransition.nonceBumped, StateTransition.preCheck_getBalance hpre, replayMsg,
    StateTransition.new] using hb

/-- **The nonce wraps.**  On a world where `64` is a plain account without debt at the largest
nonce, `replayTx (2^64 - 1)` goes through and leaves the nonce at 0, below the nonce it carried;
`replayTx 0` then goes through as well. -/
theorem nonce_wraps_to_zero {evm : Evm} {header : Header} {w : World}
    (hn : w.statedb.getNonce 64 = UInt64.ofNat (2 ^ 64 - 1)) (hb : 0 ≤ w.statedb.getBalance 64)
    (hplain : w.statedb.Plain 64) :
    ∃ res₁ w₁ res₂ w₂,
      applyTransaction (sampleEnv evm) header (replayTx (UInt64.ofNat (2 ^ 64 - 1))) w =
          .ok res₁ w₁ ∧ w₁.statedb.getNonce 64 = 0 ∧
        applyTransaction (sampleEnv evm) header (replayTx 0) w₁ = .ok res₂ w₂ ∧
          w₂.statedb.getNonce 64 = 1 := by
  obtain ⟨res₁, w₁, hrun₁, hn₁, hb₁, hplain₁⟩ := replayTx_applies (replayTx_asMessage _) hn hb hplain
  have hwrap : UInt64.ofNat (2 ^ 64 - 1) + 1 = 0 := by decide
  rw [hwrap] at hn₁
  obtain ⟨res₂, w₂, hrun₂, hn₂, -, -⟩ := replayTx_applies (replayTx_asMessage 0) hn₁ hb₁ hplain₁
  exact ⟨res₁, w₁, res₂, w₂, hrun₁, hn₁, hrun₂, hn₂⟩

end World

/-- The sample world after a genesis allocation gave `64` the nonce `2^64 - 1`: `ToBlock` sets an
allocated account's nonce with `SetNonce`, whatever `uint64` the allocation holds. -/
def allocWorld : World :=
  { sampleWorld with statedb := sampleWorld.statedb.setNonce 64 (UInt64.ofNat (2 ^ 64 - 1)) }

theorem nonce_wraps_at_genesis_alloc :
    allocWorld.statedb.getNonce 64 = UInt64.ofNat (2 ^ 64 - 1) ∧
      0 ≤ allocWorld.statedb.getBalance 64 ∧ allocWorld.statedb.Plain 64 ∧
      ∃ res₁ w₁ res₂ w₂,
        World.applyTransaction (sampleEnv (idleEvm 0)) sampleHeader
            (replayTx (UInt64.ofNat (2 ^ 64 - 1))) allocWorld = .ok res₁ w₁ ∧
          w₁.statedb.getNonce 64 = 0 ∧
          World.applyTransaction (sampleEnv (idleEvm 0)) sampleHeader (replayTx 0) w₁ =
            .ok res₂ w₂ ∧ w₂.statedb.getNonce 64 = 1 := by
  have hn : allocWorld.statedb.getNonce 64 = UInt64.ofNat (2 ^ 64 - 1) := by decide
  have hb : 0 ≤ allocWorld.statedb.getBalance 64 := by decide
  have hplain : allocWorld.statedb.Plain 64 := ⟨by decide, by decide⟩
  exact ⟨hn, hb, hplain, World.nonce_wraps_to_zero hn hb hplain⟩

end BokerChain
