import BokerChain.Core.GasAccounting
import BokerChain.Core.BlockChain

/-!
# What processing does to a block's transactions

Every path of `ApplyTransaction` ends with `tx.SetExtra(extra)`, where `extra` is what the
transition returned: the message's own extra data for the contract types, and `getExtra` (the
empty string with the Boker API) or nothing for the others.  `process_returns` says what this
leaves of the block's transactions: each comes back with only its extra data rewritten, under the
hash `Process` cached before it ran.  Since `Extra` is a field of the RLP encoding, a transaction
whose extra data the path replaces no longer has the encoding the block's transaction root
covers, nor the hash it reports.
-/

namespace BokerChain

open Library Imperative

namespace World

/-! ## What each path hands back -/

/-- What `ApplyTransaction` returns for `tx`: `tx` with the extra data its path chose and its
hash cached, and a receipt under that hash. -/
def Rewritten (c : Crypto) (tx : Transaction) (res : Receipt × Nat × Transaction) : Prop :=
  ∃ extra, res.2.2 = (tx.setExtra extra).cacheHash c ∧ res.1.txHash = res.2.2.hash c

/-- A transaction as `Process` hands it back: the block's own, its hash cached before it ran,
with the extra data its path chose. -/
def Reprocessed (c : Crypto) (tx tx' : Transaction) : Prop :=
  ∃ extra, tx' = (tx.cacheHash c).setExtra extra

section Paths

variable {env : ChainEnv} {header : Header} {tx : Transaction}

theorem receiptOf_returns (root : Option Hash) (r : MessageResult) (contractAddress : Address) :
    Returns (receiptOf env tx root r contractAddress) (Rewritten env.crypto tx) := by
  intro w res w' h
  rw [receiptOf_apply] at h
  cases h
  exact ⟨r.extra, rfl, rfl⟩

theorem binaryTransaction_returns :
    Returns (binaryTransaction env header tx) (Rewritten env.crypto tx) := by
  unfold binaryTransaction
  exact Returns.bind_any fun _ ↦ Returns.bind_any fun _ ↦ Returns.bind_any fun _ ↦
    receiptOf_returns _ _ _

theorem contractSetTransaction_returns :
    Returns (contractSetTransaction env header tx) (Rewritten env.crypto tx) := by
  unfold contractSetTransaction
  exact Returns.bind_any fun _ ↦ Returns.bind_any fun _ ↦ Returns.bind_any fun _ ↦
    receiptOf_returns _ _ _

theorem baseTransaction_returns :
    Returns (baseTransaction env header tx) (Rewritten env.crypto tx) := by
  unfold baseTransaction
  exact Returns.bind_any fun _ ↦ Returns.bind_any fun _ ↦ Returns.bind_any fun _ ↦
    Returns.bind_any fun _ ↦ Returns.bind_any fun _ ↦ receiptOf_returns _ _ _

theorem validatorTransaction_returns :
    Returns (validatorTransaction env header tx) (Rewritten env.crypto tx) := by
  unfold validatorTransaction
  refine Returns.bind_any fun msg ↦ ?_
  split
  · refine Returns.bind_any fun w ↦ ?_
    refine Returns.ite (Returns.ite ?_ (Returns.throw _)) ?_
    · exact Returns.bind_any fun _ ↦ Returns.bind_any fun _ ↦ Returns.bind_any fun _ ↦
        receiptOf_returns _ _ _
    · refine Returns.ite (Returns.bind_any fun _ ↦ ?_) ?_ <;>
        exact Returns.bind_any fun _ ↦ Returns.bind_any fun _ ↦ Returns.bind_any fun _ ↦
          receiptOf_returns _ _ _
  · exact Returns.throw _

theorem applyTransaction_returns :
    Returns (applyTransaction env header tx) (Rewritten env.crypto tx) := by
  unfold applyTransaction
  refine Returns.bind_any fun msg ↦ Returns.ite binaryTransaction_returns ?_
  dsimp only
  refine Returns.ite (Returns.bind_any fun _ ↦ ?_) ?_ <;>
    exact Returns.ite contractSetTransaction_returns (Returns.ite baseTransaction_returns
      (Returns.ite validatorTransaction_returns (Returns.throw _)))

end Paths

/-! ## What `Process` hands back -/

section Process

variable {c : Crypto} {tx tx' : Transaction}

theorem Rewritten.reprocessed {res : Receipt × Nat × Transaction}
    (h : Rewritten c (tx.cacheHash c) res) : Reprocessed c tx res.2.2 := by
  obtain ⟨extra, htx, -⟩ := h
  exact ⟨extra, by rw [htx, Transaction.cacheHash_setExtra_cacheHash]⟩

theorem Reprocessed.hash_eq (h : Reprocessed c tx tx') : tx'.hash c = tx.hash c := by
  obtain ⟨extra, rfl⟩ := h
  exact Transaction.hash_setExtra_cacheHash c tx extra

theorem Reprocessed.data_eq (h : Reprocessed c tx tx') :
    tx'.data = { tx.data with extra := tx'.data.extra } := by
  obtain ⟨extra, rfl⟩ := h
  rfl

variable {env : ChainEnv} {header : Header}

theorem applyTransactions_returns (txs : List Transaction) :
    Returns (applyTransactions env header txs)
      (fun res ↦ List.Forall₂ (Reprocessed env.crypto) txs res.2) := by
  induction txs with
  | nil => exact Returns.pure .nil
  | cons tx txs ih =>
    unfold applyTransactions
    refine Returns.bind applyTransaction_returns fun ⟨receipt, gas, tx'⟩ hres ↦ ?_
    exact Returns.bind ih fun rest hrest ↦ Returns.pure (.cons hres.reprocessed hrest)

theorem process_returns (parent : Header) (block : Block) :
    Returns (process env parent block)
      (fun res ↦ List.Forall₂ (Reprocessed env.crypto) block.transactions res.2) := by
  unfold process
  exact Returns.bind_any fun _ ↦ Returns.bind (applyTransactions_returns _) fun _ hres ↦
    Returns.bind_any fun _ ↦ Returns.pure hres

end Process

end World

/-! ## A binary transaction whose extra data is rewritten -/

/-- A binary transaction from `64` to the plain address `5` with extra data `[1, 2]`. -/
def extraTx : Transaction := ⟨⟨0, 0, 21000, some 5, 0, .binary, 0, [], [1, 2], 27, 1, 1⟩, none⟩

/-- Block 2 with the one transaction `extraTx`. -/
def extraBlock : Block := ⟨sampleHeader, [extraTx], DposContext.empty⟩

/-- `Process` hands back the block's transaction with its extra data emptied: its encoding is no
longer the one the block carried, and its hash, cached before it ran, is no longer the hash of
its encoding. -/
theorem process_rewrites_binary_extra :
    ∃ tx', (value (World.process (sampleEnv (idleEvm 0)) sampleHeader extraBlock
        sampleWorld)).map Prod.snd = some [tx'] ∧
      tx'.data.extra = [] ∧ Rlp.encode tx'.data.item ≠ Rlp.encode extraTx.data.item ∧
      tx'.hash sampleCrypto ≠ tx'.rlpHash sampleCrypto := by
  refine ⟨(extraTx.cacheHash sampleCrypto).setExtra [], ?_⟩
  set_option maxRecDepth 4096 in decide

end BokerChain
