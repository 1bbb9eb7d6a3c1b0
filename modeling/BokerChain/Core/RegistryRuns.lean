import BokerChain.Core.StateTransition

/-!
# Runs of registry transactions

`ContractTransitionDb` writes the registry for the four contract types (`writeContract`), and a
run of such transactions is the fold of those writes.  What a run leaves registered at one
address is a fold of its own (`typeStep`): `SetContract` refuses an address that is already
registered and its error is dropped, so a set registers only a free address and the first set
after the address was freed wins; `CancelSystemContract` frees the address whatever type it
holds; and `CancelPersonalContract` calls `SetContract` with the personal type, so it registers
a free address instead of freeing it (`lookup_registryRun`).  A personal contract set and then
cancelled stays registered (`cancelPersonalContract_keeps_registration`).
-/

namespace BokerChain

open Library Imperative

namespace BokerContracts

variable (o : RangeOrder Address ContractType)

/-- The registry after a run of contract transactions, each given by its type, its recipient
and the ABI text it carries, written as `ContractTransitionDb` writes them. -/
def registryRun (c : BokerContracts) (txs : List (TxType × Address × Bytes)) : BokerContracts :=
  txs.foldl (fun c tx ↦ StateTransition.writeContract o c tx.1 tx.2.1 tx.2.2) c

/-- What one registry transaction does to the type registered at `a`: the two sets and the
cancellation of a personal contract register `a` when it is free and keep what it holds
otherwise; the cancellation of a system contract frees it. -/
def typeStep (a : Address) (t : Option ContractType) (tx : TxType × Address × Bytes) :
    Option ContractType :=
  if tx.2.1 ≠ a then t
  else if tx.1 = .setPersonalContract ∨ tx.1 = .cancelPersonalContract then
    t.or (some .personalContract)
  else if tx.1 = .setSystemContract then t.or (some .systemContract)
  else if tx.1 = .cancelSystemContract then none
  else t

variable {o}

theorem contracts_setContractsTrie (c : BokerContracts) :
    (setContractsTrie o c).contracts = c.contracts := rfl

theorem lookup_setContract (c : BokerContracts) (callee : Address) (contractType : ContractType)
    (isCancel : Bool) (abiJson : Bytes) (a : Address) :
    (ignoreError (c.setContract o callee contractType isCancel abiJson) c).contracts.lookup a =
      if callee = a then (c.contracts.lookup a).or (some contractType)
      else c.contracts.lookup a := by
  unfold setContract
  by_cases hex : c.existContract callee
  · rw [if_pos hex, ignoreError_error]
    by_cases hca : callee = a
    · subst hca
      obtain ⟨t, ht⟩ := Option.isSome_iff_exists.1 (AList.lookup_isSome.2 (of_decide_eq_true hex))
      rw [if_pos rfl, ht, Option.some_or]
    · rw [if_neg hca]
  · rw [if_neg hex, ignoreError_ok, contracts_setContractsTrie]
    by_cases hca : callee = a
    · subst hca
      have hnone : c.contracts.lookup callee = none :=
        AList.lookup_eq_none.2 (fun hmem ↦ hex (decide_eq_true hmem))
      rw [AList.lookup_insert, if_pos rfl, hnone, Option.none_or]
    · rw [AList.lookup_insert_ne (Ne.symm hca), if_neg hca]

theorem lookup_cancelContract (c : BokerContracts) (callee a : Address) :
    (ignoreError (c.cancelContract o callee) c).contracts.lookup a =
      if callee = a then none else c.contracts.lookup a := by
  rw [cancelContract, ignoreError_ok, contracts_setContractsTrie]
  by_cases hca : callee = a
  · subst hca
    rw [AList.lookup_erase, if_pos rfl]
  · rw [AList.lookup_erase_ne (Ne.symm hca), if_neg hca]

theorem lookup_writeContract (c : BokerContracts) (txType : TxType) (callee : Address)
    (abiJson : Bytes) (a : Address) :
    (StateTransition.writeContract o c txType callee abiJson).contracts.lookup a =
      typeStep a (c.contracts.lookup a) (txType, callee, abiJson) := by
  have h₁ : TxType.setSystemContract ≠ .setPersonalContract := by decide
  have h₂ : TxType.setSystemContract ≠ .cancelPersonalContract := by decide
  have h₃ : TxType.cancelPersonalContract ≠ .setPersonalContract := by decide
  have h₄ : TxType.cancelSystemContract ≠ .setPersonalContract := by decide
  have h₅ : TxType.cancelSystemContract ≠ .setSystemContract := by decide
  have h₆ : TxType.cancelSystemContract ≠ .cancelPersonalContract := by decide
  unfold StateTransition.writeContract typeStep
  by_cases hsp : txType = .setPersonalContract
  · subst hsp
    by_cases hca : callee = a <;> simp [lookup_setContract, hca]
  by_cases hss : txType = .setSystemContract
  · subst hss
    by_cases hca : callee = a <;> simp [lookup_setContract, hca, h₁, h₂]
  by_cases hcp : txType = .cancelPersonalContract
  · subst hcp
    by_cases hca : callee = a <;> simp [lookup_setContract, hca, h₂.symm, h₃]
  by_cases hcs : txType = .cancelSystemContract
  · subst hcs
    by_cases hca : callee = a <;> simp [lookup_cancelContract, hca, h₄, h₅, h₆]
  by_cases hca : callee = a <;> simp [hca, hsp, hss, hcp, hcs]

/-- The type registered at `a` after a run is the fold of `typeStep` over the run. -/
theorem lookup_registryRun (c : BokerContracts) (txs : List (TxType × Address × Bytes))
    (a : Address) :
    (registryRun o c txs).contracts.lookup a = txs.foldl (typeStep a) (c.contracts.lookup a) := by
  induction txs generalizing c with
  | nil => rfl
  | cons tx txs ih =>
    rw [registryRun, List.foldl_cons, ← registryRun, ih, lookup_writeContract, List.foldl_cons]

/-- A personal contract set and then cancelled is still registered: the cancellation of a
personal contract is a second `SetContract`, refused or registering, never a deletion. -/
theorem cancelPersonalContract_keeps_registration (c : BokerContracts) (a : Address)
    (abi₁ abi₂ : Bytes) :
    (registryRun o c [(.setPersonalContract, a, abi₁),
      (.cancelPersonalContract, a, abi₂)]).existContract a = true := by
  have hstep : ∀ (t : Option ContractType) (txType : TxType) (abiJson : Bytes),
      txType = .setPersonalContract ∨ txType = .cancelPersonalContract →
      (typeStep a t (txType, a, abiJson)).isSome = (t.or (some .personalContract)).isSome := by
    intro t txType abiJson htype
    rw [typeStep, if_neg (not_not.2 rfl), if_pos htype]
  have hlookup := @lookup_registryRun o c
    [(.setPersonalContract, a, abi₁), (.cancelPersonalContract, a, abi₂)] a
  rw [List.foldl_cons, List.foldl_cons, List.foldl_nil] at hlookup
  apply decide_eq_true
  rw [← AList.lookup_isSome, hlookup, hstep _ _ _ (Or.inr rfl)]
  cases typeStep a (c.contracts.lookup a) (.setPersonalContract, a, abi₁) <;> rfl

end BokerContracts

end BokerChain
