import BokerChain.Types.Transaction
import BokerChain.Library.GoMap
import BokerChain.Library.GoHeap
import BokerChain.Library.QueueMerge
import BokerChain.Library.Imperative

/-!
# Transactions by price and nonce

`TransactionsByPriceAndNonce` (`core/types/transaction.go`) is how the miner walks the pending
transactions in `Work.commitTransactions`: a heap `heads` with the next transaction of each
account, by price, and the map `txs` with the rest of each account's list. `Peek` reads the top
of the heap; `Shift` replaces it with the next transaction of the same account, or takes it off
when the account has none left; `Pop` takes it off, and with it the rest of the account.

The heap is Go's `container/heap` (`Library.GoHeap`) with `TxByPrice.Less`, "price greater than",
read as the price in the dual order. What the structure holds is read off as one queue per
account (`queue`): the account's head, then the rest the map holds. Under the invariant `Wf` (heap
order, one head per account, every transaction under its sender) the peeked transaction is a
front of the highest price, `Shift` takes the front of its account's queue and `Pop` empties that
queue. Calling `Peek` and `Shift` until `Peek` returns nil is therefore a greedy merge of the
accounts' lists by price (`Library.QueueMerge`): every transaction once, each account's in its
order, and at each step the highest price among the fronts (`drain_spec`).

The callers drop `Sender`'s error (`acc, _ := Sender(signer, tx)`) and go on with the zero
address; `senderOrZero` keeps that. The signer is the `Crypto` the functions take.
-/

namespace BokerChain

open Library

instance : Inhabited Transaction := ⟨⟨⟨0, 0, 0, none, 0, ⟨0⟩, 0, [], [], 0, 0, 0⟩, none⟩⟩

/-- `acc, _ := Sender(signer, tx)`: the sender, or the zero address when recovery fails. -/
def senderOrZero (c : Crypto) (tx : Transaction) : Address :=
  match tx.sender c with
  | .ok a => a
  | .error _ => 0

/-- `TxByPrice.Less(i, j)`, `price_i > price_j`, as a heap key: the price in the dual order. -/
def TxByPrice.key (tx : Transaction) : ℕᵒᵈ := OrderDual.toDual tx.data.price

/-- `TransactionsByPriceAndNonce`: the rest of each account's transactions, and the heap of the
accounts' next ones. -/
structure TransactionsByPriceAndNonce where
  txs : GoMap Address (List Transaction)
  heads : List Transaction

/-- The loop of `NewTransactionsByPriceAndNonce` over the accounts in the order `range` visits
them: each account's first transaction goes onto `heads`, the rest back into the map under the
first one's sender. -/
def newTransactionsByPriceAndNonce.loop (c : Crypto) :
    List Address → List Transaction → GoMap Address (List Transaction) →
      Except String (List Transaction × GoMap Address (List Transaction))
  | [], heads, txs => .ok (heads, txs)
  | k :: ks, heads, txs =>
    match (txs.lookup k).getD [] with
    -- `accTxs[0]` of an empty list
    | [] => .error indexOutOfRange
    | tx :: rest => loop c ks (heads ++ [tx]) (txs.insert (senderOrZero c tx) rest)

/-- `NewTransactionsByPriceAndNonce`. -/
def newTransactionsByPriceAndNonce (c : Crypto) (order : RangeOrder Address (List Transaction))
    (txs : GoMap Address (List Transaction)) : Except String TransactionsByPriceAndNonce := do
  let r ← newTransactionsByPriceAndNonce.loop c (visitKeys order txs) [] txs
  return ⟨r.2, GoHeap.init TxByPrice.key r.1⟩

namespace TransactionsByPriceAndNonce

/-- `Peek`. -/
def peek (t : TransactionsByPriceAndNonce) : Option Transaction := t.heads.head?

/-- `Shift`: the top of the heap replaced by the next transaction of its account and the heap
fixed at the top, or the top taken off when the account has none left. -/
def shift (c : Crypto) (t : TransactionsByPriceAndNonce) :
    Except String TransactionsByPriceAndNonce :=
  match t.heads with
  -- `t.heads[0]` of an empty heap
  | [] => .error indexOutOfRange
  | head :: _ =>
    let acc := senderOrZero c head
    match t.txs.lookup acc with
    | some (tx :: rest) =>
      .ok ⟨t.txs.insert acc rest, GoHeap.fix TxByPrice.key (t.heads.set 0 tx) 0⟩
    | _ => .ok ⟨t.txs, (GoHeap.pop TxByPrice.key t.heads).1⟩

/-- `Pop`: the top of the heap taken off, not replaced. -/
def pop (t : TransactionsByPriceAndNonce) : Except String TransactionsByPriceAndNonce :=
  match t.heads with
  -- `heap.Pop` of an empty heap swaps index 0 with index -1
  | [] => .error indexOutOfRange
  | _ :: _ => .ok ⟨t.txs, (GoHeap.pop TxByPrice.key t.heads).1⟩

/-- `Peek` and `Shift` until `Peek` returns nil, for at most `fuel` rounds: the transactions
`Peek` returned. -/
def drain (c : Crypto) : ℕ → TransactionsByPriceAndNonce → Except String (List Transaction)
  | 0, _ => .ok []
  | fuel + 1, t =>
    match t.peek with
    | none => .ok []
    | some tx => do
      let t' ← t.shift c
      let rest ← drain c fuel t'
      return tx :: rest

/-! ## The queues of the accounts -/

/-- The transactions still to come from account `a`: its head, then the rest the map holds. -/
def queue (c : Crypto) (t : TransactionsByPriceAndNonce) (a : Address) : List Transaction :=
  match t.heads.find? fun h ↦ senderOrZero c h = a with
  | some head => head :: (t.txs.lookup a).getD []
  | none => []

/-- How many transactions are still to come: each head and the rest of its account. -/
def size (c : Crypto) (t : TransactionsByPriceAndNonce) : ℕ :=
  (t.heads.map fun h ↦ 1 + ((t.txs.lookup (senderOrZero c h)).getD []).length).sum

/-- The invariant: the heads are in heap order, one per account, and every transaction the map
holds is under its sender. -/
structure Wf (c : Crypto) (t : TransactionsByPriceAndNonce) : Prop where
  heap : GoHeap.IsHeap TxByPrice.key t.heads
  nodup : (t.heads.map (senderOrZero c)).Nodup
  owned : ∀ a l, t.txs.lookup a = some l → ∀ tx ∈ l, senderOrZero c tx = a

section Queue

variable {c : Crypto} {t : TransactionsByPriceAndNonce}

theorem queue_of_mem (hnodup : (t.heads.map (senderOrZero c)).Nodup) {h : Transaction}
    (hh : h ∈ t.heads) :
    t.queue c (senderOrZero c h) = h :: (t.txs.lookup (senderOrZero c h)).getD [] := by
  obtain ⟨x, hx⟩ := Option.isSome_iff_exists.1
    (List.find?_isSome.2 ⟨h, hh, by simp⟩ :
      (t.heads.find? fun x ↦ senderOrZero c x = senderOrZero c h).isSome)
  have hxs : senderOrZero c x = senderOrZero c h := by simpa using List.find?_some hx
  have hxh : x = h := List.inj_on_of_nodup_map hnodup (List.mem_of_find?_eq_some hx) hh hxs
  rw [queue, hx, hxh]

theorem queue_of_not_mem {a : Address} (hno : ∀ h ∈ t.heads, senderOrZero c h ≠ a) :
    t.queue c a = [] := by
  rw [queue, List.find?_eq_none.2 (by simpa using hno)]

theorem mem_heads_of_queue {a : Address} {b : Transaction} (hb : b ∈ (t.queue c a).head?) :
    b ∈ t.heads := by
  unfold queue at hb
  split at hb
  case h_1 head hfind =>
    rw [List.head?_cons, Option.mem_some_iff] at hb
    exact hb ▸ List.mem_of_find?_eq_some hfind
  case h_2 => cases hb

theorem queue_of_heads_ne {head : Transaction} {rest : List Transaction}
    (hheads : t.heads = head :: rest) {a : Address} (ha : senderOrZero c head ≠ a) :
    t.queue c a = queue c ⟨t.txs, rest⟩ a := by
  have hp : ¬(decide (senderOrZero c head = a)) = true := by simpa using ha
  simp only [queue, hheads, List.find?_cons_of_neg (p := fun h ↦ decide (senderOrZero c h = a)) hp]

theorem queue_perm {txs : GoMap Address (List Transaction)} {heads heads' : List Transaction}
    (hperm : heads'.Perm heads) (hnodup : (heads.map (senderOrZero c)).Nodup) :
    queue c ⟨txs, heads'⟩ = queue c ⟨txs, heads⟩ := by
  have hnodup' : (heads'.map (senderOrZero c)).Nodup := (hperm.map _).nodup_iff.2 hnodup
  funext a
  by_cases hex : ∃ h ∈ heads, senderOrZero c h = a
  · obtain ⟨h, hh, rfl⟩ := hex
    rw [queue_of_mem (t := ⟨txs, heads'⟩) hnodup' (hperm.mem_iff.2 hh),
      queue_of_mem (t := ⟨txs, heads⟩) hnodup hh]
  · simp only [not_exists, not_and] at hex
    rw [queue_of_not_mem (t := ⟨txs, heads'⟩) fun h hh ↦ hex h (hperm.mem_iff.1 hh),
      queue_of_not_mem (t := ⟨txs, heads⟩) hex]

theorem size_of_heads {head : Transaction} {rest : List Transaction}
    (hheads : t.heads = head :: rest) :
    t.size c = 1 + ((t.txs.lookup (senderOrZero c head)).getD []).length + size c ⟨t.txs, rest⟩ := by
  simp only [size, hheads, List.map_cons, List.sum_cons]

theorem size_perm {txs : GoMap Address (List Transaction)} {heads heads' : List Transaction}
    (hperm : heads'.Perm heads) : size c ⟨txs, heads'⟩ = size c ⟨txs, heads⟩ :=
  (hperm.map _).sum_eq

theorem size_congr {txs txs' : GoMap Address (List Transaction)} {heads : List Transaction}
    (hagree : ∀ h ∈ heads, txs'.lookup (senderOrZero c h) = txs.lookup (senderOrZero c h)) :
    size c ⟨txs', heads⟩ = size c ⟨txs, heads⟩ := by
  unfold size
  congr 1
  apply List.map_congr_left
  intro h hh
  rw [hagree h hh]

end Queue

/-! ## `Peek`, `Shift` and `Pop` -/

section Operations

variable {c : Crypto} {t : TransactionsByPriceAndNonce} {head : Transaction}
  {rest : List Transaction}

theorem elem_heads_zero (hheads : t.heads = head :: rest) : GoHeap.elem t.heads 0 = head := by
  rw [hheads]
  rfl

theorem shift_of_cons (hheads : t.heads = head :: rest) :
    t.shift c = match t.txs.lookup (senderOrZero c head) with
      | some (tx :: more) =>
        .ok ⟨t.txs.insert (senderOrZero c head) more, GoHeap.fix TxByPrice.key (t.heads.set 0 tx) 0⟩
      | _ => .ok ⟨t.txs, (GoHeap.pop TxByPrice.key t.heads).1⟩ := by
  unfold shift
  split
  case h_1 hnil => exact absurd (hnil ▸ hheads) (List.cons_ne_nil _ _).symm
  case h_2 head' rest' hcons =>
    rw [hcons, List.cons.injEq] at hheads
    rw [hheads.1]

/-- **`Peek`** returns the front of its account's queue, of the highest price among the fronts
of all queues. -/
theorem peek_spec (hw : t.Wf c) (hheads : t.heads = head :: rest) :
    t.peek = some head ∧ head ∈ (t.queue c (senderOrZero c head)).head? ∧
      ∀ a, ∀ b ∈ (t.queue c a).head?, b.data.price ≤ head.data.price := by
  have hhead : head ∈ t.heads := hheads ▸ List.mem_cons_self
  refine ⟨by rw [peek, hheads]; rfl, by rw [queue_of_mem hw.nodup hhead]; rfl, ?_⟩
  intro a b hb
  have hle := GoHeap.head_le TxByPrice.key hw.heap b (mem_heads_of_queue hb)
  rw [elem_heads_zero hheads, TxByPrice.key, TxByPrice.key, OrderDual.toDual_le_toDual] at hle
  exact hle

theorem popHead_spec (hw : t.Wf c) (hheads : t.heads = head :: rest) :
    Wf c ⟨t.txs, (GoHeap.pop TxByPrice.key t.heads).1⟩ ∧
      queue c ⟨t.txs, (GoHeap.pop TxByPrice.key t.heads).1⟩ =
        Function.update (t.queue c) (senderOrZero c head) [] ∧
      (GoHeap.pop TxByPrice.key t.heads).1.Perm rest := by
  obtain ⟨hroot, hheap, hperm⟩ := GoHeap.pop_spec (hheads ▸ List.cons_ne_nil _ _) hw.heap
  rw [hroot, elem_heads_zero hheads] at hperm
  have hrest : (GoHeap.pop TxByPrice.key t.heads).1.Perm rest :=
    (hperm.trans (List.Perm.of_eq hheads)).cons_inv
  have hnodup := hw.nodup
  rw [hheads, List.map_cons, List.nodup_cons] at hnodup
  refine ⟨⟨hheap, (hrest.map _).nodup_iff.2 hnodup.2, hw.owned⟩, ?_, hrest⟩
  rw [queue_perm hrest hnodup.2]
  funext a
  by_cases ha : senderOrZero c head = a
  · subst ha
    rw [Function.update_self, queue_of_not_mem (t := ⟨t.txs, rest⟩)]
    intro h hh hs
    exact hnodup.1 (hs ▸ List.mem_map_of_mem hh)
  · rw [Function.update_of_ne (Ne.symm ha), queue_of_heads_ne hheads ha]

theorem replaceHead_spec (hw : t.Wf c) (hheads : t.heads = head :: rest) {tx : Transaction}
    {more : List Transaction} (hlookup : t.txs.lookup (senderOrZero c head) = some (tx :: more)) :
    Wf c ⟨t.txs.insert (senderOrZero c head) more, GoHeap.fix TxByPrice.key (t.heads.set 0 tx) 0⟩ ∧
      queue c ⟨t.txs.insert (senderOrZero c head) more,
          GoHeap.fix TxByPrice.key (t.heads.set 0 tx) 0⟩ =
        popFront (t.queue c) (senderOrZero c head) ∧
      (GoHeap.fix TxByPrice.key (t.heads.set 0 tx) 0).Perm (tx :: rest) := by
  have htx : senderOrZero c tx = senderOrZero c head := hw.owned _ _ hlookup tx List.mem_cons_self
  obtain ⟨hheap, hperm⟩ := GoHeap.fix_spec hw.heap (by rw [hheads]; exact Nat.succ_pos _) tx
  have hperm' : (GoHeap.fix TxByPrice.key (t.heads.set 0 tx) 0).Perm (tx :: rest) :=
    hperm.trans (List.Perm.of_eq (by rw [hheads, List.set_cons_zero]))
  have hnodup : ((tx :: rest).map (senderOrZero c)).Nodup := by
    have h := hw.nodup
    rwa [hheads, List.map_cons, ← htx, ← List.map_cons] at h
  have howned : ∀ a l, (t.txs.insert (senderOrZero c head) more).lookup a = some l →
      ∀ x ∈ l, senderOrZero c x = a := by
    intro a l hl x hx
    by_cases ha : a = senderOrZero c head
    · subst ha
      rw [AList.lookup_insert, Option.some_inj] at hl
      exact hw.owned _ _ hlookup x (List.mem_cons_of_mem _ (hl ▸ hx))
    · rw [AList.lookup_insert_ne ha] at hl
      exact hw.owned a l hl x hx
  refine ⟨⟨hheap, (hperm'.map _).nodup_iff.2 hnodup, howned⟩, ?_, hperm'⟩
  rw [queue_perm hperm' hnodup]
  funext a
  by_cases ha : senderOrZero c head = a
  · subst ha
    have hq := queue_of_mem (t := ⟨t.txs.insert (senderOrZero c head) more, tx :: rest⟩) hnodup
      List.mem_cons_self
    rw [htx] at hq
    rw [hq, popFront, Function.update_self, queue_of_mem hw.nodup (hheads ▸ List.mem_cons_self),
      hlookup, AList.lookup_insert]
    rfl
  · rw [popFront, Function.update_of_ne (Ne.symm ha),
      queue_of_heads_ne (t := ⟨_, tx :: rest⟩) rfl (htx ▸ ha), queue_of_heads_ne hheads ha]
    simp only [queue, AList.lookup_insert_ne (Ne.symm ha)]

/-- **`Shift`** keeps the invariant, takes the front of the peeked account's queue, and leaves
one transaction fewer to come. -/
theorem shift_spec (hw : t.Wf c) (hheads : t.heads = head :: rest) :
    ∃ t', t.shift c = .ok t' ∧ t'.Wf c ∧ t'.queue c = popFront (t.queue c) (senderOrZero c head) ∧
      t'.size c + 1 = t.size c := by
  have hnodup := hw.nodup
  rw [hheads, List.map_cons, List.nodup_cons] at hnodup
  have hother : ∀ h ∈ rest, senderOrZero c h ≠ senderOrZero c head := fun h hh hs ↦
    hnodup.1 (hs ▸ List.mem_map_of_mem hh)
  rw [shift_of_cons hheads, size_of_heads hheads]
  split
  case h_1 tx more hlookup =>
    obtain ⟨hwf, hqueue, hperm⟩ := replaceHead_spec hw hheads hlookup
    have htx : senderOrZero c tx = senderOrZero c head :=
      hw.owned _ _ hlookup tx List.mem_cons_self
    refine ⟨_, rfl, hwf, hqueue, ?_⟩
    rw [size_perm hperm, size_of_heads (t := ⟨_, tx :: rest⟩) rfl, htx, AList.lookup_insert,
      hlookup, size_congr fun h hh ↦ AList.lookup_insert_ne (hother h hh)]
    simp only [Option.getD_some, List.length_cons]
    omega
  case h_2 hnot =>
    obtain ⟨hwf, hqueue, hperm⟩ := popHead_spec hw hheads
    have hempty : (t.txs.lookup (senderOrZero c head)).getD [] = [] := by
      cases h : t.txs.lookup (senderOrZero c head) with
      | none => rfl
      | some l =>
        cases l with
        | nil => rfl
        | cons tx more => exact absurd h (hnot tx more)
    refine ⟨_, rfl, hwf, ?_, ?_⟩
    · rw [hqueue, popFront, queue_of_mem hw.nodup (hheads ▸ List.mem_cons_self), hempty]
      rfl
    · rw [size_perm hperm, hempty]
      simp only [List.length_nil]
      omega

/-- **`Pop`** keeps the invariant and drops the whole queue of the peeked account. -/
theorem pop_spec (hw : t.Wf c) (hheads : t.heads = head :: rest) :
    ∃ t', t.pop = .ok t' ∧ t'.Wf c ∧
      t'.queue c = Function.update (t.queue c) (senderOrZero c head) [] := by
  obtain ⟨hwf, hqueue, -⟩ := popHead_spec hw hheads
  refine ⟨_, ?_, hwf, hqueue⟩
  unfold pop
  split
  case h_1 hnil => exact absurd (hnil ▸ hheads) (List.cons_ne_nil _ _).symm
  case h_2 => rfl

end Operations

/-- **Draining.** With fuel for every transaction still to come, calling `Peek` and `Shift` until
`Peek` returns nil returns a greedy merge by price of the accounts' queues. -/
theorem drain_spec (c : Crypto) (fuel : ℕ) :
    ∀ {t : TransactionsByPriceAndNonce}, t.Wf c → t.size c ≤ fuel →
      ∃ out, t.drain c fuel = .ok out ∧
        IsGreedyMerge (senderOrZero c) (fun tx ↦ tx.data.price) (t.queue c) out := by
  induction fuel with
  | zero =>
    intro t hw hsize
    cases hheads : t.heads with
    | nil => exact ⟨[], rfl, isGreedyMerge_nil fun a ↦ queue_of_not_mem (by simp [hheads])⟩
    | cons head rest =>
      rw [size_of_heads hheads] at hsize
      omega
  | succ fuel ih =>
    intro t hw hsize
    cases hheads : t.heads with
    | nil =>
      refine ⟨[], ?_, isGreedyMerge_nil fun a ↦ queue_of_not_mem (by simp [hheads])⟩
      simp [drain, peek, hheads]
    | cons head rest =>
      obtain ⟨hpeek, hfront, hmax⟩ := peek_spec hw hheads
      obtain ⟨t', hshift, hw', hqueue, hsize'⟩ := shift_spec hw hheads
      obtain ⟨out, hdrain, hout⟩ := ih hw' (by omega)
      refine ⟨head :: out, ?_, IsGreedyMerge.cons hfront hmax (hqueue ▸ hout)⟩
      simp [drain, hpeek, hshift, hdrain]

/-! ## `NewTransactionsByPriceAndNonce` -/

section New

variable {c : Crypto}

/-- The loop of `NewTransactionsByPriceAndNonce` over distinct accounts, each with a non-empty list
whose first transaction is of the account, puts the first of each onto the heads and leaves the
rest in the map. -/
theorem newLoop_spec (ks : List Address) :
    ∀ (heads : List Transaction) (txs : GoMap Address (List Transaction)), ks.Nodup →
      (∀ k ∈ ks, ∃ tx rest, txs.lookup k = some (tx :: rest) ∧ senderOrZero c tx = k) →
      ∃ heads' txs', newTransactionsByPriceAndNonce.loop c ks heads txs =
          .ok (heads ++ heads', txs') ∧ heads'.map (senderOrZero c) = ks ∧
        (∀ h ∈ heads', ∃ rest, txs.lookup (senderOrZero c h) = some (h :: rest)) ∧
        ∀ a, txs'.lookup a = if a ∈ ks then (txs.lookup a).map List.tail else txs.lookup a := by
  induction ks with
  | nil =>
    intro heads txs _ _
    exact ⟨[], txs, by simp [newTransactionsByPriceAndNonce.loop], rfl, by simp, by simp⟩
  | cons k ks ih =>
    intro heads txs hnodup hfirst
    obtain ⟨tx, rest, hk, hsender⟩ := hfirst k List.mem_cons_self
    obtain ⟨hkks, hks⟩ := List.nodup_cons.1 hnodup
    have hother : ∀ k' ∈ ks, (txs.insert k rest).lookup k' = txs.lookup k' := fun k' hk' ↦
      AList.lookup_insert_ne fun h ↦ hkks (h ▸ hk')
    obtain ⟨heads', txs', hloop, hsenders, hheads', hlookup⟩ :=
      ih (heads ++ [tx]) (txs.insert k rest) hks fun k' hk' ↦ by
        rw [hother k' hk']
        exact hfirst k' (List.mem_cons_of_mem _ hk')
    refine ⟨tx :: heads', txs', ?_, ?_, ?_, ?_⟩
    · rw [newTransactionsByPriceAndNonce.loop, hk, Option.getD_some]
      dsimp only
      rw [hsender, hloop, List.append_assoc, List.singleton_append]
    · rw [List.map_cons, hsender, hsenders]
    · intro h hh
      rcases List.mem_cons.1 hh with rfl | hh
      · exact ⟨rest, hsender ▸ hk⟩
      · obtain ⟨r, hr⟩ := hheads' h hh
        have hmem : senderOrZero c h ∈ ks := hsenders ▸ List.mem_map_of_mem hh
        exact ⟨r, hother _ hmem ▸ hr⟩
    · intro a
      rw [hlookup a]
      by_cases ha : a ∈ ks
      · rw [if_pos ha, if_pos (List.mem_cons_of_mem _ ha), hother a ha]
      · by_cases hak : a = k
        · subst hak
          rw [if_neg ha, if_pos List.mem_cons_self, AList.lookup_insert, hk]
          rfl
        · rw [if_neg ha, if_neg (by simp [hak, ha]), AList.lookup_insert_ne hak]

/-- **`NewTransactionsByPriceAndNonce`** on a map of non-empty lists whose transactions are all of
their account builds, whatever order `range` visits the accounts in, a structure with the
invariant whose queues are the lists. -/
theorem new_spec (order : RangeOrder Address (List Transaction))
    {txs : GoMap Address (List Transaction)} (hne : ∀ a l, txs.lookup a = some l → l ≠ [])
    (hsender : ∀ a l, txs.lookup a = some l → ∀ tx ∈ l, senderOrZero c tx = a) :
    ∃ t, newTransactionsByPriceAndNonce c order txs = .ok t ∧ t.Wf c ∧
      t.queue c = (fun a ↦ (txs.lookup a).getD []) ∧
      t.size c = (txs.keys.map fun a ↦ ((txs.lookup a).getD []).length).sum := by
  have hkeys := visitKeys_perm order txs
  have hnodup : (visitKeys order txs).Nodup := hkeys.nodup_iff.2 (AList.keys_nodup txs)
  have hnone : ∀ a, a ∉ visitKeys order txs → txs.lookup a = none := fun a ha ↦
    AList.lookup_eq_none.2 fun hmem ↦ ha (hkeys.mem_iff.2 (AList.mem_keys.1 hmem))
  have hfirst : ∀ k ∈ visitKeys order txs, ∃ tx rest, txs.lookup k = some (tx :: rest) ∧
      senderOrZero c tx = k := by
    intro k hk
    obtain ⟨l, hl⟩ := Option.isSome_iff_exists.1
      (AList.lookup_isSome.2 (AList.mem_keys.2 (hkeys.subset hk)))
    obtain ⟨tx, rest, rfl⟩ := List.exists_cons_of_ne_nil (hne k l hl)
    exact ⟨tx, rest, hl, hsender k _ hl tx List.mem_cons_self⟩
  obtain ⟨heads, txs', hloop, hsenders, hheads, hlookup⟩ :=
    newLoop_spec (visitKeys order txs) [] txs hnodup hfirst
  obtain ⟨hheap, hperm⟩ := @GoHeap.init_spec Transaction ℕᵒᵈ _ _ TxByPrice.key heads
  have hnodup' : (heads.map (senderOrZero c)).Nodup := hsenders ▸ hnodup
  have hlookup' : ∀ a, txs'.lookup a = (txs.lookup a).map List.tail := by
    intro a
    rw [hlookup a]
    by_cases ha : a ∈ visitKeys order txs
    · rw [if_pos ha]
    · rw [if_neg ha, hnone a ha]
      rfl
  have howned : ∀ a l, txs'.lookup a = some l → ∀ tx ∈ l, senderOrZero c tx = a := by
    intro a l hl tx htx
    rw [hlookup', Option.map_eq_some_iff] at hl
    obtain ⟨l0, hl0, rfl⟩ := hl
    exact hsender a l0 hl0 tx (List.mem_of_mem_tail htx)
  have hqueue : queue c ⟨txs', heads⟩ = fun a ↦ (txs.lookup a).getD [] := by
    funext a
    by_cases ha : ∃ h ∈ heads, senderOrZero c h = a
    · obtain ⟨h, hh, rfl⟩ := ha
      obtain ⟨r, hr⟩ := hheads h hh
      rw [queue_of_mem (t := ⟨txs', heads⟩) hnodup' hh, hlookup', hr]
      rfl
    · simp only [not_exists, not_and] at ha
      have hnot : a ∉ visitKeys order txs := fun hmem ↦ by
        rw [← hsenders] at hmem
        obtain ⟨h, hh, rfl⟩ := List.mem_map.1 hmem
        exact ha h hh rfl
      rw [queue_of_not_mem (t := ⟨txs', heads⟩) ha, hnone a hnot]
      rfl
  have hsize : size c ⟨txs', heads⟩ =
      (txs.keys.map fun a ↦ ((txs.lookup a).getD []).length).sum := by
    unfold size
    calc (heads.map fun h ↦ 1 + ((txs'.lookup (senderOrZero c h)).getD []).length).sum
        = (heads.map fun h ↦ ((txs.lookup (senderOrZero c h)).getD []).length).sum := by
          congr 1
          apply List.map_congr_left
          intro h hh
          obtain ⟨r, hr⟩ := hheads h hh
          rw [hlookup', hr]
          simp only [Option.map_some, List.tail_cons, Option.getD_some, List.length_cons]
          omega
      _ = ((heads.map (senderOrZero c)).map fun a ↦ ((txs.lookup a).getD []).length).sum := by
          rw [List.map_map]
          rfl
      _ = (txs.keys.map fun a ↦ ((txs.lookup a).getD []).length).sum := by
          rw [hsenders]
          exact (hkeys.map _).sum_eq
  refine ⟨⟨txs', GoHeap.init TxByPrice.key heads⟩, ?_,
    ⟨hheap, (hperm.map _).nodup_iff.2 hnodup', howned⟩, ?_, ?_⟩
  · simp [newTransactionsByPriceAndNonce, hloop]
  · rw [queue_perm hperm hnodup', hqueue]
  · rw [size_perm hperm, hsize]

end New

/-- **The miner's order of transactions.** For a map from accounts to non-empty, nonce-sorted lists
whose transactions are all of their account, `NewTransactionsByPriceAndNonce` succeeds whatever
order `range` visits the accounts in; calling `Peek` and `Shift` until `Peek` returns nil yields
every transaction once, each account's in increasing nonce order, and at each step one of the
highest price among the accounts' next ones; and on every state with the invariant, which the
constructor, `Shift` and `Pop` all keep, `Shift` takes the peeked transaction off its account's
queue and `Pop` drops that queue whole. -/
theorem price_and_nonce_order (c : Crypto) (order : RangeOrder Address (List Transaction))
    (txs : GoMap Address (List Transaction)) (hne : ∀ a l, txs.lookup a = some l → l ≠ [])
    (hsorted : ∀ a l, txs.lookup a = some l →
      l.Pairwise fun x y ↦ x.data.accountNonce < y.data.accountNonce)
    (hsender : ∀ a l, txs.lookup a = some l → ∀ tx ∈ l, senderOrZero c tx = a) :
    ∃ t, newTransactionsByPriceAndNonce c order txs = .ok t ∧ t.Wf c ∧
      t.size c = (txs.keys.map fun a ↦ ((txs.lookup a).getD []).length).sum ∧
      (∀ fuel, t.size c ≤ fuel → ∃ out, t.drain c fuel = .ok out ∧
        out.Perm (txs.keys.flatMap fun a ↦ (txs.lookup a).getD []) ∧
        (∀ a, (out.filter fun tx ↦ senderOrZero c tx = a).Pairwise
          fun x y ↦ x.data.accountNonce < y.data.accountNonce) ∧
        IsGreedyMerge (senderOrZero c) (fun tx ↦ tx.data.price)
          (fun a ↦ (txs.lookup a).getD []) out) ∧
      ∀ t' : TransactionsByPriceAndNonce, t'.Wf c → ∀ head, t'.peek = some head →
        (∃ t'', t'.shift c = .ok t'' ∧ t''.Wf c ∧
          t''.queue c = popFront (t'.queue c) (senderOrZero c head)) ∧
        ∃ t'', t'.pop = .ok t'' ∧ t''.Wf c ∧
          t''.queue c = Function.update (t'.queue c) (senderOrZero c head) [] := by
  obtain ⟨t, hnew, hw, hqueue, hsize⟩ := new_spec order hne hsender
  refine ⟨t, hnew, hw, hsize, fun fuel hfuel ↦ ?_, fun t' hw' head hpeek ↦ ?_⟩
  · obtain ⟨out, hdrain, hout⟩ := drain_spec c fuel hw hfuel
    rw [hqueue] at hout
    refine ⟨out, hdrain, hout.perm (AList.keys_nodup txs) fun a ha ↦ ?_, fun a ↦ ?_, hout⟩
    · show (txs.lookup a).getD [] = []
      rw [AList.lookup_eq_none.2 fun hmem ↦ ha (AList.mem_keys.1 hmem)]
      rfl
    · rw [hout.filter_eq a]
      show ((txs.lookup a).getD []).Pairwise _
      cases hl : txs.lookup a with
      | none => exact List.Pairwise.nil
      | some l => exact hsorted a l hl
  · cases hheads : t'.heads with
    | nil =>
      rw [peek, hheads] at hpeek
      cases hpeek
    | cons head' rest =>
      have hhead : head' = head := by
        rw [peek, hheads] at hpeek
        exact Option.some_inj.1 hpeek
      subst hhead
      obtain ⟨t'', hshift, hw'', hqueue'', -⟩ := shift_spec hw' hheads
      exact ⟨⟨t'', hshift, hw'', hqueue''⟩, pop_spec hw' hheads⟩

/-- Two pending transactions of one account, nonces 0 and 1, whose signatures do not recover, so
that both are the zero address's. -/
def twoPending : GoMap Address (List Transaction) :=
  (∅ : GoMap Address (List Transaction)).insert 0
    [⟨⟨0, 1, 21000, none, 0, ⟨0⟩, 0, [], [], 0, 0, 0⟩, none⟩,
      ⟨⟨1, 2, 21000, none, 0, ⟨0⟩, 0, [], [], 0, 0, 0⟩, none⟩]

theorem price_and_nonce_order_two_pending :
    (∀ a l, twoPending.lookup a = some l → l ≠ []) ∧
      (∀ a l, twoPending.lookup a = some l →
        l.Pairwise fun x y ↦ x.data.accountNonce < y.data.accountNonce) ∧
      (∀ a l, twoPending.lookup a = some l → ∀ tx ∈ l,
        senderOrZero ⟨lengthKeccak, fun _ _ ↦ .error .errRecoverFailed⟩ tx = a) ∧
      ∃ t, newTransactionsByPriceAndNonce ⟨lengthKeccak, fun _ _ ↦ .error .errRecoverFailed⟩
        RangeOrder.stored twoPending = .ok t := by
  have hlookup : ∀ a l, twoPending.lookup a = some l → a = 0 ∧
      l = [⟨⟨0, 1, 21000, none, 0, ⟨0⟩, 0, [], [], 0, 0, 0⟩, none⟩,
        ⟨⟨1, 2, 21000, none, 0, ⟨0⟩, 0, [], [], 0, 0, 0⟩, none⟩] := by
    intro a l hl
    by_cases ha : a = 0
    · subst ha
      rw [twoPending, AList.lookup_insert, Option.some_inj] at hl
      exact ⟨rfl, hl.symm⟩
    · rw [twoPending, AList.lookup_insert_ne ha, AList.lookup_empty] at hl
      cases hl
  have hne : ∀ a l, twoPending.lookup a = some l → l ≠ [] := fun a l hl ↦ by
    rw [(hlookup a l hl).2]
    exact List.cons_ne_nil _ _
  have hsorted : ∀ a l, twoPending.lookup a = some l →
      l.Pairwise fun x y ↦ x.data.accountNonce < y.data.accountNonce := fun a l hl ↦ by
    rw [(hlookup a l hl).2]
    decide
  have hsender : ∀ a l, twoPending.lookup a = some l → ∀ tx ∈ l,
      senderOrZero ⟨lengthKeccak, fun _ _ ↦ .error .errRecoverFailed⟩ tx = a := by
    intro a l hl tx htx
    rw [(hlookup a l hl).1]
    rw [(hlookup a l hl).2, List.mem_cons, List.mem_singleton] at htx
    rcases htx with rfl | rfl <;> rfl
  obtain ⟨t, hnew, -⟩ := price_and_nonce_order _ RangeOrder.stored twoPending hne hsorted hsender
  exact ⟨hne, hsorted, hsender, t, hnew⟩

end TransactionsByPriceAndNonce

end BokerChain
