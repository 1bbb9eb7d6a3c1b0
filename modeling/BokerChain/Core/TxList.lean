import BokerChain.Types.Transaction
import BokerChain.Library.GoMap
import BokerChain.Library.GoHeap
import BokerChain.Library.GoSort
import BokerChain.Library.Imperative

/-!
# The nonce-sorted transaction map of the pool

`txSortedMap` (`core/tx_list.go`) holds an account's transactions by nonce in three
representations at once: the map `items`, a heap `index` of the nonces, and `cache`, the
transactions sorted by nonce or nil. `Put`, `Forward`, `Filter`, `Cap`, `Remove`, `Ready` and
`Flatten` each patch the three in their own way.

The representation invariant `Wf` says that every transaction is stored under its own nonce,
that the heap holds each nonce of `items` once and is in heap order, and that a cache lists the
transactions in increasing nonce order. Every operation keeps it (`runOps_spec`), and on a map that
has it, `Forward`, `Cap` and `Ready` take out exactly the transactions their contracts name.

The heap is Go's `container/heap` (`Library.GoHeap`) with `nonceHeap.Less`, the order of
`uint64`, read through `UInt64.toNat`. `sort.Sort` is not stable, but the nonces it sorts are
distinct, so any sort gives its result; it is `List.mergeSort` here. The orders of the `range`
loops over `items` are arbitrary (`RangeOrder`), one for each loop.
-/

namespace BokerChain

open Library

/-- `tx.Nonce()`. -/
def Transaction.nonce (tx : Transaction) : UInt64 := tx.data.accountNonce

/-- `txSortedMap`: the transactions by nonce, the heap of their nonces, and the cache of the
transactions sorted by nonce, `none` for a nil slice. -/
structure TxSortedMap where
  items : GoMap UInt64 Transaction
  index : List UInt64
  cache : Option (List Transaction)

/-- `newTxSortedMap`. -/
def newTxSortedMap : TxSortedMap := ⟨∅, [], none⟩

namespace TxSortedMap

/-! ## The model -/

/-- `Len`. -/
def len (m : TxSortedMap) : ℕ := m.items.entries.length

/-- `Get`. -/
def get (m : TxSortedMap) (nonce : UInt64) : Option Transaction := m.items.lookup nonce

/-- `Put`: store the transaction under its nonce, over one with the same nonce; a new nonce is
pushed on the heap. -/
def put (m : TxSortedMap) (tx : Transaction) : TxSortedMap :=
  let nonce := tx.nonce
  let index :=
    if m.items.lookup nonce = none then GoHeap.push UInt64.toNat m.index nonce else m.index
  { items := m.items.insert nonce tx, index, cache := none }

/-- The loop of `Forward`: while the least nonce is below `threshold`, pop it and take its
transaction out. -/
def forwardLoop (threshold : UInt64) :
    ℕ → TxSortedMap → List Transaction → TxSortedMap × List Transaction
  | 0, m, removed => (m, removed)
  | fuel + 1, m, removed =>
    if 0 < m.index.length ∧ GoHeap.elem m.index 0 < threshold then
      let popped := GoHeap.pop UInt64.toNat m.index
      forwardLoop threshold fuel { m with items := m.items.erase popped.2, index := popped.1 }
        (removed ++ (m.items.lookup popped.2).toList)
    else (m, removed)

/-- `Forward`: take out the transactions with a nonce below `threshold`; a cache loses as many
from its front. -/
def forward (m : TxSortedMap) (threshold : UInt64) : TxSortedMap × List Transaction :=
  let r := forwardLoop threshold m.index.length m []
  ({ r.1 with cache := r.1.cache.map (·.drop r.2.length) }, r.2)

/-- A round of the `range` loop of `Filter`: an entry `p` holds of is deleted and its
transaction collected. -/
def filterStep (p : Transaction → Bool) (acc : GoMap UInt64 Transaction × List Transaction)
    (e : UInt64 × Transaction) : GoMap UInt64 Transaction × List Transaction :=
  if p e.2 then (acc.1.erase e.1, acc.2 ++ [e.2]) else acc

/-- `Filter`: take out the transactions `p` holds of, in the order of a `range` loop `o`; if
there were any, rebuild the heap from the nonces left, in the order of a second loop `o'`, and
drop the cache. -/
def filter (o o' : RangeOrder UInt64 Transaction) (m : TxSortedMap) (p : Transaction → Bool) :
    TxSortedMap × List Transaction :=
  let r := (o.visit m.items).foldl (filterStep p) (m.items, [])
  if r.2.length > 0 then
    ({ items := r.1, index := GoHeap.init UInt64.toNat (visitKeys o' r.1), cache := none }, r.2)
  else ({ m with items := r.1 }, r.2)

/-- The loop of `Cap` over the sorted heap: for `size` from `len(items)` down to
`threshold + 1`, drop the transaction of `index[size - 1]`. A `size` of `0` still above the
threshold reads `index[-1]`, which panics. -/
def capLoop (index : List UInt64) (threshold : ℤ) :
    ℕ → GoMap UInt64 Transaction → List Transaction →
      Except String (GoMap UInt64 Transaction × List Transaction)
  | 0, items, drops => if (0 : ℤ) > threshold then .error indexOutOfRange else .ok (items, drops)
  | size + 1, items, drops =>
    if ((size + 1 : ℕ) : ℤ) > threshold then
      match index[size]? with
      | none => .error indexOutOfRange
      | some nonce => capLoop index threshold size (items.erase nonce) (drops ++ (items.lookup nonce).toList)
    else .ok (items, drops)

/-- `Cap`: keep the `threshold` transactions of lowest nonce and return the others, highest
nonce first; a cache loses as many from its back. -/
def cap (m : TxSortedMap) (threshold : ℤ) : Except String (TxSortedMap × List Transaction) := do
  if (m.len : ℤ) ≤ threshold then return (m, [])
  let index := m.index.mergeSort fun a b ↦ a.toNat ≤ b.toNat
  let (items, drops) ← capLoop index threshold m.len m.items []
  let index := GoHeap.init UInt64.toNat (index.take threshold.toNat)
  let cache := m.cache.map fun c ↦ c.take (c.length - drops.length)
  return ({ items, index, cache }, drops)

/-- `Remove`: delete the transaction of `nonce`, with its nonce at the first place the heap
holds it, and drop the cache; whether there was one. -/
def remove (m : TxSortedMap) (nonce : UInt64) : TxSortedMap × Bool :=
  match m.items.lookup nonce with
  | none => (m, false)
  | some _ =>
    let index :=
      match m.index.findIdx? (· == nonce) with
      | some i => (GoHeap.remove UInt64.toNat m.index i).1
      | none => m.index
    ({ items := m.items.erase nonce, index, cache := none }, true)

/-- The loop of `Ready`: while the least nonce is `next`, take its transaction out, pop it and
count `next` up. -/
def readyLoop : ℕ → TxSortedMap → UInt64 → List Transaction → TxSortedMap × List Transaction
  | 0, m, _, ready => (m, ready)
  | fuel + 1, m, next, ready =>
    if 0 < m.index.length ∧ GoHeap.elem m.index 0 = next then
      let ready := ready ++ (m.items.lookup next).toList
      let items := m.items.erase next
      let index := (GoHeap.pop UInt64.toNat m.index).1
      readyLoop fuel { m with items, index } (next + 1) ready
    else (m, ready)

/-- `Ready`: if the least nonce is at most `start`, take out the run of consecutive nonces from
it, and drop the cache. -/
def ready (m : TxSortedMap) (start : UInt64) : TxSortedMap × List Transaction :=
  if m.index.length = 0 ∨ GoHeap.elem m.index 0 > start then (m, [])
  else
    let r := readyLoop m.index.length m (GoHeap.elem m.index 0) []
    ({ r.1 with cache := none }, r.2)

/-- `Flatten`: the transactions sorted by nonce, from the cache, or sorted afresh in the order
of a `range` loop `o` and cached. -/
def flatten (o : RangeOrder UInt64 Transaction) (m : TxSortedMap) : TxSortedMap × List Transaction :=
  let cache := m.cache.getD (((o.visit m.items).map Prod.snd).mergeSort fun a b ↦
    a.nonce.toNat ≤ b.nonce.toNat)
  ({ m with cache := some cache }, cache)

/-- The operations, with the `range` orders of their loops. -/
inductive Op where
  | put (tx : Transaction)
  | forward (threshold : UInt64)
  | filter (o o' : RangeOrder UInt64 Transaction) (p : Transaction → Bool)
  | cap (threshold : ℤ)
  | remove (nonce : UInt64)
  | ready (start : UInt64)
  | flatten (o : RangeOrder UInt64 Transaction)

/-- One operation on the map; only `Cap` can panic. -/
def Op.run : Op → TxSortedMap → Except String TxSortedMap
  | .put tx, m => .ok (m.put tx)
  | .forward threshold, m => .ok (m.forward threshold).1
  | .filter o o' p, m => .ok (m.filter o o' p).1
  | .cap threshold, m => (·.1) <$> m.cap threshold
  | .remove nonce, m => .ok (m.remove nonce).1
  | .ready start, m => .ok (m.ready start).1
  | .flatten o, m => .ok (m.flatten o).1

/-- A sequence of operations. -/
def runOps : List Op → TxSortedMap → Except String TxSortedMap
  | [], m => .ok m
  | op :: ops, m => op.run m >>= runOps ops

/-! ## The invariant -/

/-- `txs` are the transactions of `items` whose nonce satisfies `p`, each once, in increasing
nonce order. -/
def Lists (items : GoMap UInt64 Transaction) (p : UInt64 → Prop) (txs : List Transaction) : Prop :=
  txs.Pairwise (fun a b ↦ a.nonce < b.nonce) ∧
    ∀ tx, tx ∈ txs ↔ items.lookup tx.nonce = some tx ∧ p tx.nonce

/-- The map and the heap agree: every transaction is stored under its nonce, and the heap holds
each nonce of the map once, in heap order. -/
structure Indexed (items : GoMap UInt64 Transaction) (index : List UInt64) : Prop where
  nonce_eq : ∀ nonce tx, items.lookup nonce = some tx → tx.nonce = nonce
  index_perm : index.Perm items.keys
  heap : GoHeap.IsHeap UInt64.toNat index

/-- The representation invariant of `txSortedMap`: the map and the heap agree, and a cache lists
the transactions in increasing nonce order. -/
structure Wf (m : TxSortedMap) : Prop where
  indexed : Indexed m.items m.index
  cache : ∀ c, m.cache = some c → Lists m.items (fun _ ↦ True) c

theorem wf_newTxSortedMap : Wf newTxSortedMap where
  indexed := ⟨by simp [newTxSortedMap], by simp [newTxSortedMap], by decide⟩
  cache := by simp [newTxSortedMap]

section Lists

variable {items : GoMap UInt64 Transaction} {p : UInt64 → Prop} {txs : List Transaction}

theorem mem_keys_of_lookup {k : UInt64} {tx : Transaction} (h : items.lookup k = some tx) :
    k ∈ items.keys :=
  AList.mem_keys.1 (AList.lookup_isSome.1 (by rw [h]; rfl))

theorem lookup_eq_none_iff {k : UInt64} : items.lookup k = none ↔ k ∉ items.keys := by
  rw [AList.lookup_eq_none, AList.mem_keys]

theorem Lists.nodup (h : Lists items p txs) : txs.Nodup :=
  h.1.imp fun {a b} hlt heq ↦ by
    subst heq
    exact UInt64.lt_irrefl _ hlt

theorem Lists.eq {txs' : List Transaction} (h : Lists items p txs) (h' : Lists items p txs') :
    txs = txs' := by
  have hperm : txs.Perm txs' :=
    (List.perm_ext_iff_of_nodup h.nodup h'.nodup).2 fun tx ↦ by rw [h.2, h'.2]
  exact hperm.eq_of_pairwise
    (fun a b _ _ hab hba ↦ absurd (UInt64.lt_trans hab hba) (UInt64.lt_irrefl _)) h.1 h'.1

theorem Lists.congr {p' : UInt64 → Prop} (hp : ∀ k, p k ↔ p' k) (h : Lists items p txs) :
    Lists items p' txs :=
  ⟨h.1, fun tx ↦ by rw [h.2, hp]⟩

theorem lists_nil (hp : ∀ k ∈ items.keys, ¬p k) : Lists items p [] :=
  ⟨List.Pairwise.nil, fun tx ↦ by
    simp only [List.not_mem_nil, false_iff, not_and]
    exact fun hlookup ↦ hp _ (mem_keys_of_lookup hlookup)⟩

theorem Lists.filter (h : Lists items p txs) (q : UInt64 → Bool) :
    Lists items (fun k ↦ p k ∧ q k) (txs.filter fun tx ↦ q tx.nonce) := by
  refine ⟨h.1.filter _, fun tx ↦ ?_⟩
  rw [List.mem_filter, h.2]
  tauto

end Lists

/-! ## The heap's least nonce -/

section Indexed

variable {items : GoMap UInt64 Transaction} {index : List UInt64}

theorem Indexed.lookup_eq (hm : Indexed items index) {k : UInt64} (hk : k ∈ items.keys) :
    ∃ tx, items.lookup k = some tx ∧ tx.nonce = k := by
  obtain ⟨tx, htx⟩ := Option.isSome_iff_exists.1 (AList.lookup_isSome.2 (AList.mem_keys.2 hk))
  exact ⟨tx, htx, hm.nonce_eq k tx htx⟩

theorem Indexed.erase (hm : Indexed items index) (k : UInt64) {index' : List UInt64}
    (hperm : index'.Perm (items.keys.erase k)) (hheap : GoHeap.IsHeap UInt64.toNat index') :
    Indexed (items.erase k) index' where
  nonce_eq nonce tx h := by
    by_cases hk : nonce = k
    · rw [hk, AList.lookup_erase] at h
      cases h
    · rw [AList.lookup_erase_ne hk] at h
      exact hm.nonce_eq nonce tx h
  index_perm := by rwa [AList.keys_erase]
  heap := hheap

/-- **The heap's root is the least nonce.** Popping the heap of a map that agrees with it takes
off the least nonce of the map, and leaves the heap of the map without it. -/
theorem Indexed.pop (hm : Indexed items index) (hne : index ≠ []) :
    (GoHeap.pop UInt64.toNat index).2 = GoHeap.elem index 0 ∧
      (GoHeap.pop UInt64.toNat index).2 ∈ items.keys ∧
      (∀ k ∈ items.keys, (GoHeap.pop UInt64.toNat index).2.toNat ≤ k.toNat) ∧
      Indexed (items.erase (GoHeap.pop UInt64.toNat index).2) (GoHeap.pop UInt64.toNat index).1 := by
  obtain ⟨hroot, hheap, hperm⟩ := GoHeap.pop_spec hne hm.heap
  set x := (GoHeap.pop UInt64.toNat index).2
  have hkeys := hperm.trans hm.index_perm
  have hx : x ∈ items.keys := hkeys.subset List.mem_cons_self
  refine ⟨hroot, hx, fun k hk ↦ ?_, hm.erase x ?_ hheap⟩
  · rw [hroot]
    exact GoHeap.head_le UInt64.toNat hm.heap k (hm.index_perm.symm.subset hk)
  · exact (hkeys.trans (List.perm_cons_erase hx)).cons_inv

theorem Indexed.root_le (hm : Indexed items index) {k : UInt64} (hk : k ∈ items.keys) :
    (GoHeap.elem index 0).toNat ≤ k.toNat :=
  GoHeap.head_le UInt64.toNat hm.heap k (hm.index_perm.symm.subset hk)

theorem Indexed.keys_eq_nil (hm : Indexed items index) (hlen : index.length = 0) :
    items.keys = [] :=
  List.length_eq_zero_iff.1 (hm.index_perm.length_eq ▸ hlen)

end Indexed

/-! ## `Forward` -/

section Forward

/-- What is left of `items` once the transactions with a nonce below `t` are taken out. -/
def ForwardedFrom (items items' : GoMap UInt64 Transaction) (t : UInt64) : Prop :=
  ∀ k, items'.lookup k = if k < t then none else items.lookup k

theorem forwardedFrom_self {items : GoMap UInt64 Transaction} {t : UInt64}
    (hnone : ∀ k ∈ items.keys, ¬k < t) : ForwardedFrom items items t := by
  intro k
  split
  case isTrue hk =>
    exact Option.eq_none_iff_forall_ne_some.2 fun tx htx ↦ hnone k (mem_keys_of_lookup htx) hk
  case isFalse => rfl

/-- **The loop of `Forward`.** From a map that agrees with its heap, the loop takes out exactly
the transactions with a nonce below `t`, in increasing nonce order, and leaves the others with
their heap; the cache is left to `Forward`. -/
theorem forwardLoop_spec (t : UInt64) :
    ∀ fuel (m : TxSortedMap) (removed : List Transaction), Indexed m.items m.index →
      m.index.length ≤ fuel →
      (forwardLoop t fuel m removed).1.cache = m.cache ∧
        Indexed (forwardLoop t fuel m removed).1.items (forwardLoop t fuel m removed).1.index ∧
        ForwardedFrom m.items (forwardLoop t fuel m removed).1.items t ∧
        ∃ r, (forwardLoop t fuel m removed).2 = removed ++ r ∧ Lists m.items (· < t) r := by
  intro fuel
  induction fuel with
  | zero =>
    intro m removed hm hlen
    have hkeys := hm.keys_eq_nil (by omega)
    have hnone : ∀ k ∈ m.items.keys, ¬k < t := by simp [hkeys]
    exact ⟨rfl, hm, forwardedFrom_self hnone, [], by simp [forwardLoop], lists_nil hnone⟩
  | succ fuel ih =>
    intro m removed hm hlen
    rw [forwardLoop]
    split
    case isTrue hbelow =>
      have hne : m.index ≠ [] := List.ne_nil_of_length_pos hbelow.1
      obtain ⟨hroot, hx, hmin, hm'⟩ := hm.pop hne
      set x := (GoHeap.pop UInt64.toNat m.index).2
      have hxt : x < t := hroot ▸ hbelow.2
      obtain ⟨tx₀, htx₀, hnonce₀⟩ := hm.lookup_eq hx
      have hlen' : (GoHeap.pop UInt64.toNat m.index).1.length ≤ fuel := by
        have := (GoHeap.pop_spec hne hm.heap).2.2.length_eq
        simp only [List.length_cons] at this
        omega
      obtain ⟨hcache, hidx, hleft, r, hr, hlists⟩ :=
        ih { m with items := m.items.erase x, index := (GoHeap.pop UInt64.toNat m.index).1 }
          (removed ++ (m.items.lookup x).toList) hm' hlen'
      refine ⟨hcache, hidx, fun k ↦ ?_, tx₀ :: r, by rw [hr, htx₀]; simp, ?_, fun tx ↦ ?_⟩
      · rw [hleft k]
        split
        case isTrue => rfl
        case isFalse hk =>
          exact AList.lookup_erase_ne fun hkx ↦ hk (hkx ▸ hxt)
      · refine List.pairwise_cons.2 ⟨fun tx htx ↦ ?_, hlists.1⟩
        obtain ⟨hlookup, -⟩ := (hlists.2 tx).1 htx
        have hne : tx.nonce ≠ x := fun heq ↦ by
          rw [heq, AList.lookup_erase] at hlookup
          cases hlookup
        rw [AList.lookup_erase_ne hne] at hlookup
        have hle := hmin _ (mem_keys_of_lookup hlookup)
        rw [hnonce₀, UInt64.lt_iff_toNat_lt]
        exact lt_of_le_of_ne hle fun heq ↦ hne (UInt64.toNat_inj.1 heq).symm
      · rw [List.mem_cons, hlists.2]
        by_cases hnx : tx.nonce = x
        · rw [hnx, AList.lookup_erase, htx₀]
          constructor
          · rintro (rfl | ⟨h, -⟩)
            · exact ⟨rfl, hxt⟩
            · cases h
          · rintro ⟨heq, -⟩
            exact .inl (Option.some.inj heq).symm
        · rw [AList.lookup_erase_ne hnx]
          constructor
          · rintro (rfl | h)
            · exact absurd hnonce₀ hnx
            · exact h
          · exact .inr
    case isFalse hstop =>
      have hnone : ∀ k ∈ m.items.keys, ¬k < t := by
        intro k hk hkt
        have hpos : 0 < m.index.length := by
          rcases Nat.eq_zero_or_pos m.index.length with h0 | h0
          · simp [hm.keys_eq_nil h0] at hk
          · exact h0
        have hroot : ¬GoHeap.elem m.index 0 < t := fun h ↦ hstop ⟨hpos, h⟩
        rw [UInt64.lt_iff_toNat_lt] at hkt hroot
        have := hm.root_le hk
        omega
      exact ⟨rfl, hm, forwardedFrom_self hnone, [], by simp, lists_nil hnone⟩

theorem Lists.drop_below {items items' : GoMap UInt64 Transaction} {c r : List Transaction}
    {t : UInt64} (hc : Lists items (fun _ ↦ True) c) (hr : Lists items (· < t) r)
    (hleft : ForwardedFrom items items' t) : Lists items' (fun _ ↦ True) (c.drop r.length) := by
  have hbelow : Lists items (· < t) (c.filter fun tx ↦ decide (tx.nonce < t)) :=
    (hc.filter fun k ↦ decide (k < t)).congr fun k ↦ by simp
  have hlen : r.length = c.countP fun tx ↦ decide (tx.nonce < t) := by
    rw [hr.eq hbelow, List.countP_eq_length_filter]
  have hdrop := (drop_take_countP_of_pairwise (p := fun tx ↦ decide (tx.nonce < t)) hc.1
    fun a b hab hb ↦ by simpa using UInt64.lt_trans hab (by simpa using hb)).1
  rw [hlen, hdrop]
  refine ⟨hc.1.filter _, fun tx ↦ ?_⟩
  rw [List.mem_filter, hc.2, hleft]
  by_cases htx : tx.nonce < t <;> simp [htx]

/-- **`Forward`.** On a well-formed map, `Forward(t)` takes out and returns exactly the
transactions with a nonce below `t`, in increasing nonce order, and leaves a well-formed map of
the others. -/
theorem forward_spec {m : TxSortedMap} (hm : m.Wf) (t : UInt64) :
    (m.forward t).1.Wf ∧ ForwardedFrom m.items (m.forward t).1.items t ∧
      Lists m.items (· < t) (m.forward t).2 := by
  obtain ⟨hcache, hidx, hleft, r, hr, hlists⟩ :=
    forwardLoop_spec t m.index.length m [] hm.indexed le_rfl
  rw [List.nil_append] at hr
  refine ⟨⟨hidx, fun c hc ↦ ?_⟩, hleft, hr ▸ hlists⟩
  change (forwardLoop t m.index.length m []).1.cache.map
    (·.drop (forwardLoop t m.index.length m []).2.length) = some c at hc
  rw [hcache, hr, Option.map_eq_some_iff] at hc
  obtain ⟨c₀, hc₀, rfl⟩ := hc
  exact (hm.cache c₀ hc₀).drop_below hlists hleft

end Forward

/-! ## `Put` and `Remove` -/

section PutRemove

variable {m : TxSortedMap}

theorem lookup_put (tx : Transaction) (k : UInt64) :
    (m.put tx).items.lookup k = if k = tx.nonce then some tx else m.items.lookup k := by
  unfold put
  split
  case isTrue hk => rw [hk, AList.lookup_insert]
  case isFalse hk => exact AList.lookup_insert_ne hk

/-- **`Put`** keeps a map well formed. -/
theorem put_wf (hm : m.Wf) (tx : Transaction) : (m.put tx).Wf := by
  have hidx := hm.indexed
  refine ⟨⟨fun k tx' h ↦ ?_, ?_, ?_⟩, fun c hc ↦ by cases hc⟩
  · rw [lookup_put] at h
    split at h
    case isTrue hk => exact (Option.some.inj h) ▸ hk.symm
    case isFalse => exact hidx.nonce_eq k tx' h
  · show (if m.items.lookup tx.nonce = none then GoHeap.push UInt64.toNat m.index tx.nonce
      else m.index).Perm (m.items.insert tx.nonce tx).keys
    rw [AList.keys_insert]
    split
    case isTrue hnew =>
      have hnot : tx.nonce ∉ m.items.keys := lookup_eq_none_iff.1 hnew
      rw [List.erase_of_not_mem hnot]
      exact (GoHeap.push_spec hidx.heap tx.nonce).2.trans
        ((List.perm_append_singleton _ _).trans (hidx.index_perm.cons _))
    case isFalse hold =>
      have hk : tx.nonce ∈ m.items.keys := by
        by_contra hk
        exact hold (lookup_eq_none_iff.2 hk)
      exact hidx.index_perm.trans (List.perm_cons_erase hk)
  · show GoHeap.IsHeap UInt64.toNat
      (if m.items.lookup tx.nonce = none then GoHeap.push UInt64.toNat m.index tx.nonce else m.index)
    split
    case isTrue => exact (GoHeap.push_spec hidx.heap tx.nonce).1
    case isFalse => exact hidx.heap

/-- **`Remove`** keeps a map well formed, deletes the transaction of the nonce, and says whether
there was one. -/
theorem remove_spec (hm : m.Wf) (nonce : UInt64) :
    (m.remove nonce).1.Wf ∧ (m.remove nonce).1.items.lookup nonce = none ∧
      (∀ k, k ≠ nonce → (m.remove nonce).1.items.lookup k = m.items.lookup k) ∧
      ((m.remove nonce).2 = true ↔ nonce ∈ m.items.keys) := by
  have hidx := hm.indexed
  unfold remove
  split
  case h_1 hnone =>
    refine ⟨hm, hnone, fun _ _ ↦ rfl, ?_⟩
    simp only [Bool.false_eq_true, false_iff]
    exact lookup_eq_none_iff.1 hnone
  case h_2 tx htx =>
    have hk : nonce ∈ m.items.keys := mem_keys_of_lookup htx
    have hin : nonce ∈ m.index := hidx.index_perm.symm.subset hk
    obtain ⟨i, hi⟩ : ∃ i, m.index.findIdx? (· == nonce) = some i := by
      cases hfind : m.index.findIdx? (· == nonce) with
      | none =>
        rw [List.findIdx?_eq_none_iff] at hfind
        simp at hfind
        exact absurd rfl (hfind nonce hin)
      | some i => exact ⟨i, rfl⟩
    obtain ⟨hil, hat, -⟩ := List.findIdx?_eq_some_iff_getElem.1 hi
    have helem : GoHeap.elem m.index i = nonce := by
      rw [GoHeap.elem, List.getD_eq_getElem _ _ hil]
      simpa using hat
    obtain ⟨hx, hheap, hperm⟩ := GoHeap.remove_spec hidx.heap hil
    rw [hx, helem] at hperm
    refine ⟨⟨hidx.erase nonce ?_ ?_, fun c hc ↦ by cases hc⟩, AList.lookup_erase _ _,
      fun k hk ↦ AList.lookup_erase_ne hk, by simp [hk]⟩
    · simp only [hi]
      exact ((hperm.trans hidx.index_perm).trans (List.perm_cons_erase hk)).cons_inv
    · simp only [hi]
      exact hheap

end PutRemove

/-! ## `Filter` and `Flatten` -/

section FilterFlatten

variable {m : TxSortedMap}

theorem foldl_filterStep (p : Transaction → Bool) :
    ∀ (es : List (UInt64 × Transaction)) (items : GoMap UInt64 Transaction) removed,
      es.foldl (filterStep p) (items, removed) =
        ((es.filter fun e ↦ p e.2).foldl (fun items e ↦ items.erase e.1) items,
          removed ++ (es.filter fun e ↦ p e.2).map Prod.snd)
  | [], _, _ => by simp
  | e :: es, items, removed => by
    rw [List.foldl_cons, filterStep]
    split
    case isTrue hp =>
      rw [foldl_filterStep p es]
      simp [hp]
    case isFalse hp =>
      rw [foldl_filterStep p es]
      simp [hp]

theorem lookup_foldl_erase :
    ∀ (es : List (UInt64 × Transaction)) (items : GoMap UInt64 Transaction) (k : UInt64),
      (es.foldl (fun items e ↦ items.erase e.1) items).lookup k =
        if k ∈ es.map Prod.fst then none else items.lookup k
  | [], _, _ => by simp
  | e :: es, items, k => by
    rw [List.foldl_cons, lookup_foldl_erase es]
    by_cases hk : k = e.1
    · have hin : k ∈ (e :: es).map Prod.fst := hk ▸ List.mem_map_of_mem List.mem_cons_self
      rw [if_pos hin, hk, AList.lookup_erase]
      split <;> rfl
    · have hiff : k ∈ (e :: es).map Prod.fst ↔ k ∈ es.map Prod.fst := by simp [hk]
      rw [AList.lookup_erase_ne hk]
      by_cases hmem : k ∈ es.map Prod.fst
      · rw [if_pos hmem, if_pos (hiff.2 hmem)]
      · rw [if_neg hmem, if_neg (mt hiff.1 hmem)]

/-- **`Filter`** keeps a map well formed, and deletes exactly the transactions `p` holds of. -/
theorem filter_spec (hm : m.Wf) (o o' : RangeOrder UInt64 Transaction) (p : Transaction → Bool) :
    (m.filter o o' p).1.Wf ∧
      ∀ k, (m.filter o o' p).1.items.lookup k = (m.items.lookup k).filter fun tx ↦ !p tx := by
  have hidx := hm.indexed
  set es := (o.visit m.items).filter fun e ↦ p e.2
  set items' := es.foldl (fun items e ↦ items.erase e.1) m.items
  have hleft : ∀ k, items'.lookup k = (m.items.lookup k).filter fun tx ↦ !p tx := by
    intro k
    rw [lookup_foldl_erase]
    cases hk : m.items.lookup k with
    | none => simp
    | some tx =>
      have hvisit : (k, tx) ∈ o.visit m.items := (o.mem_visit).2 hk
      by_cases hp : p tx
      · have hmem : k ∈ es.map Prod.fst := List.mem_map.2 ⟨(k, tx), List.mem_filter.2 ⟨hvisit, hp⟩, rfl⟩
        rw [if_pos hmem]
        simp [Option.filter, hp]
      · have hmem : k ∉ es.map Prod.fst := by
          intro hmem
          obtain ⟨⟨k', tx'⟩, he, hk'⟩ := List.mem_map.1 hmem
          simp only at hk'
          subst hk'
          obtain ⟨he, hp'⟩ := List.mem_filter.1 he
          rw [(o.mem_visit).1 he] at hk
          cases hk
          exact hp hp'
        rw [if_neg hmem]
        simp [Option.filter, hp]
  have hsub : ∀ k tx, items'.lookup k = some tx → m.items.lookup k = some tx := by
    intro k tx h
    rw [hleft, Option.filter_eq_some_iff] at h
    exact h.1
  have hfold : (o.visit m.items).foldl (filterStep p) (m.items, []) = (items', es.map Prod.snd) := by
    rw [foldl_filterStep]
    simp [es, items']
  unfold filter
  rw [hfold]
  dsimp only
  split
  case isTrue =>
    obtain ⟨hheap, hperm⟩ := @GoHeap.init_spec UInt64 ℕ _ _ UInt64.toNat (visitKeys o' items')
    exact ⟨⟨⟨fun k tx h ↦ hidx.nonce_eq k tx (hsub k tx h),
      hperm.trans (visitKeys_perm o' items'), hheap⟩, fun c hc ↦ by cases hc⟩, hleft⟩
  case isFalse hnone =>
    have hes : es = [] := by simpa using hnone
    have hsame : items' = m.items := by simp [items', hes]
    refine ⟨?_, hleft⟩
    rw [hsame]
    exact hm

theorem lists_mergeSort (hidx : Indexed m.items m.index) (o : RangeOrder UInt64 Transaction) :
    Lists m.items (fun _ ↦ True)
      (((o.visit m.items).map Prod.snd).mergeSort fun a b ↦ a.nonce.toNat ≤ b.nonce.toNat) := by
  set txs := (o.visit m.items).map Prod.snd
  have hnonces : txs.map Transaction.nonce = visitKeys o m.items := by
    simp only [txs, visitKeys, List.map_map]
    exact List.map_congr_left fun e he ↦ hidx.nonce_eq e.1 e.2 ((o.mem_visit).1 he)
  have hnodup : (txs.map Transaction.nonce).Nodup := by
    rw [hnonces]
    exact (visitKeys_perm o m.items).nodup_iff.2 (AList.keys_nodup _)
  have hperm := List.mergeSort_perm txs fun a b ↦ decide (a.nonce.toNat ≤ b.nonce.toNat)
  have hle := @List.pairwise_mergeSort _ (fun a b : Transaction ↦ decide (a.nonce.toNat ≤ b.nonce.toNat))
    (fun a b c hab hbc ↦ by simp only [decide_eq_true_eq] at *; omega)
    (fun a b ↦ by simp only [Bool.or_eq_true, decide_eq_true_eq]; omega) txs
  have hne := List.pairwise_map.1 ((hperm.map Transaction.nonce).nodup_iff.2 hnodup)
  constructor
  · refine (hle.and hne).imp fun ⟨hab, hne⟩ ↦ ?_
    rw [UInt64.lt_iff_toNat_lt]
    simp only [decide_eq_true_eq] at hab
    exact lt_of_le_of_ne hab fun heq ↦ hne (UInt64.toNat_inj.1 heq)
  · intro tx
    rw [List.mem_mergeSort, List.mem_map]
    constructor
    · rintro ⟨⟨k, tx'⟩, he, rfl⟩
      have hk := (o.mem_visit).1 he
      exact ⟨hidx.nonce_eq k tx' hk ▸ hk, trivial⟩
    · exact fun ⟨hk, _⟩ ↦ ⟨(tx.nonce, tx), (o.mem_visit).2 hk, rfl⟩

/-- **`Flatten`** keeps a map well formed and returns its transactions in increasing nonce
order. -/
theorem flatten_spec (hm : m.Wf) (o : RangeOrder UInt64 Transaction) :
    (m.flatten o).1.Wf ∧ (m.flatten o).1.items = m.items ∧
      Lists m.items (fun _ ↦ True) (m.flatten o).2 := by
  have hsorted : Lists m.items (fun _ ↦ True) (m.flatten o).2 := by
    unfold flatten
    cases hc : m.cache with
    | some c => exact hm.cache c hc
    | none => exact lists_mergeSort hm.indexed o
  refine ⟨⟨hm.indexed, fun c hc ↦ ?_⟩, rfl, hsorted⟩
  cases hc
  exact hsorted

end FilterFlatten

/-! ## `Ready` -/

section Ready

/-- `txs` are the transactions of `items` at the nonces `first`, `first + 1`, … in order, as far
as `items` holds them: the run of consecutive nonces from `first`. -/
def RunFrom (items : GoMap UInt64 Transaction) (first : ℕ) (txs : List Transaction) : Prop :=
  (∀ i (hi : i < txs.length), txs[i].nonce.toNat = first + i ∧ items.lookup txs[i].nonce = some txs[i]) ∧
    ∀ k ∈ items.keys, k.toNat ≠ first + txs.length

/-- What is left of `items` once the transactions `txs` are taken out. -/
def Without (items items' : GoMap UInt64 Transaction) (txs : List Transaction) : Prop :=
  ∀ k, items'.lookup k = if k ∈ txs.map Transaction.nonce then none else items.lookup k

theorem without_nil (items : GoMap UInt64 Transaction) : Without items items [] := by
  intro k
  simp

theorem Indexed.root_mem {items : GoMap UInt64 Transaction} {index : List UInt64}
    (hm : Indexed items index) (hpos : 0 < index.length) : GoHeap.elem index 0 ∈ items.keys := by
  apply hm.index_perm.subset
  rw [GoHeap.elem, List.getD_eq_getElem _ _ hpos]
  exact List.getElem_mem hpos

/-- **The loop of `Ready`.** From a map that agrees with its heap and holds no nonce below
`next`, the loop takes out the run of consecutive nonces from `next`. The counter `next` is a
`uint64`, but it wraps only after the nonce `2^64 - 1`, and no nonce is left above it. -/
theorem readyLoop_spec :
    ∀ fuel (m : TxSortedMap) (next : UInt64) (ready : List Transaction), Indexed m.items m.index →
      m.index.length ≤ fuel → (∀ k ∈ m.items.keys, next.toNat ≤ k.toNat) →
      (readyLoop fuel m next ready).1.cache = m.cache ∧
        Indexed (readyLoop fuel m next ready).1.items (readyLoop fuel m next ready).1.index ∧
        ∃ r, (readyLoop fuel m next ready).2 = ready ++ r ∧ RunFrom m.items next.toNat r ∧
          Without m.items (readyLoop fuel m next ready).1.items r := by
  intro fuel
  induction fuel with
  | zero =>
    intro m next ready hm hlen _
    have hkeys := hm.keys_eq_nil (by omega)
    exact ⟨rfl, hm, [], by simp [readyLoop], ⟨fun i hi ↦ absurd hi (by simp), by simp [hkeys]⟩,
      without_nil _⟩
  | succ fuel ih =>
    intro m next ready hm hlen hbelow
    rw [readyLoop]
    split
    case isTrue hnext =>
      have hne : m.index ≠ [] := List.ne_nil_of_length_pos hnext.1
      obtain ⟨hroot, hx, -, hm'⟩ := hm.pop hne
      rw [hroot, hnext.2] at hm' hx
      obtain ⟨tx₀, htx₀, hnonce₀⟩ := hm.lookup_eq hx
      have habove : ∀ k ∈ (m.items.erase next).keys, next.toNat < k.toNat := by
        intro k hk
        rw [AList.keys_erase] at hk
        have hkn : k ≠ next := fun h ↦ List.Nodup.not_mem_erase (AList.keys_nodup _) (h ▸ hk)
        exact lt_of_le_of_ne (hbelow k (List.mem_of_mem_erase hk))
          fun h ↦ hkn (UInt64.toNat_inj.1 h).symm
      have hsucc : ∀ k ∈ (m.items.erase next).keys, (next + 1).toNat = next.toNat + 1 := by
        intro k hk
        have := habove k hk
        have := UInt64.toNat_lt k
        rw [UInt64.toNat_add, UInt64.toNat_one, Nat.mod_eq_of_lt (by omega)]
      have hbelow' : ∀ k ∈ (m.items.erase next).keys, (next + 1).toNat ≤ k.toNat := fun k hk ↦ by
        rw [hsucc k hk]
        exact habove k hk
      have hlen' : (GoHeap.pop UInt64.toNat m.index).1.length ≤ fuel := by
        have := (GoHeap.pop_spec hne hm.heap).2.2.length_eq
        simp only [List.length_cons] at this
        omega
      obtain ⟨hcache, hidx, r, hr, ⟨hrun, hend⟩, hleft⟩ :=
        ih { m with items := m.items.erase next, index := (GoHeap.pop UInt64.toNat m.index).1 }
          (next + 1) (ready ++ (m.items.lookup next).toList) hm' hlen' hbelow'
      refine ⟨hcache, hidx, tx₀ :: r, by rw [hr, htx₀]; simp, ⟨fun i hi ↦ ?_, fun k hk ↦ ?_⟩,
        fun k ↦ ?_⟩
      · cases i with
        | zero => exact ⟨by simp [hnonce₀], by simpa [hnonce₀] using hnonce₀ ▸ htx₀⟩
        | succ i =>
          have hi : i < r.length := by simpa using hi
          obtain ⟨hnonce, hlookup⟩ := hrun i hi
          have hkey := mem_keys_of_lookup hlookup
          have hne : r[i].nonce ≠ next := fun h ↦ by
            rw [h, AList.lookup_erase] at hlookup
            cases hlookup
          rw [AList.lookup_erase_ne hne] at hlookup
          refine ⟨?_, hlookup⟩
          simp only [List.getElem_cons_succ]
          rw [hnonce, hsucc _ hkey]
          omega
      · by_cases hkn : k = next
        · subst hkn
          simp
        · have hk' : k ∈ (m.items.erase next).keys := by
            rw [AList.keys_erase]
            exact (List.mem_erase_of_ne hkn).2 hk
          have := hend k hk'
          rw [hsucc k hk'] at this
          simp only [List.length_cons]
          omega
      · rw [hleft k]
        by_cases hkn : k = next
        · subst hkn
          simp [hnonce₀, AList.lookup_erase]
        · have hmem : k ∈ (tx₀ :: r).map Transaction.nonce ↔ k ∈ r.map Transaction.nonce := by
            simp [hnonce₀, hkn]
          rw [AList.lookup_erase_ne hkn]
          by_cases hin : k ∈ r.map Transaction.nonce
          · rw [if_pos hin, if_pos (hmem.2 hin)]
          · rw [if_neg hin, if_neg (mt hmem.1 hin)]
    case isFalse hstop =>
      refine ⟨rfl, hm, [], by simp, ⟨fun i hi ↦ absurd hi (by simp), fun k hk hkn ↦ ?_⟩,
        without_nil _⟩
      have hpos : 0 < m.index.length := by
        rcases Nat.eq_zero_or_pos m.index.length with h0 | h0
        · simp [hm.keys_eq_nil h0] at hk
        · exact h0
      have hroot := hm.root_le hk
      have hrootk := hbelow _ (hm.root_mem hpos)
      simp only [List.length_nil, Nat.add_zero] at hkn
      exact hstop ⟨hpos, UInt64.toNat_inj.1 (by omega)⟩

/-- **`Ready`.** On a well-formed map, `Ready(start)` returns nothing when every nonce is above
`start`; otherwise the least nonce is at most `start`, and it takes out and returns the run of
consecutive nonces from it. The map left is well formed. -/
theorem ready_spec {m : TxSortedMap} (hm : m.Wf) (start : UInt64) :
    (m.ready start).1.Wf ∧ Without m.items (m.ready start).1.items (m.ready start).2 ∧
      ((∀ k ∈ m.items.keys, start < k) ∧ (m.ready start).2 = [] ∨
        ∃ first ∈ m.items.keys, first ≤ start ∧ (∀ k ∈ m.items.keys, first.toNat ≤ k.toNat) ∧
          RunFrom m.items first.toNat (m.ready start).2) := by
  have hidx := hm.indexed
  unfold ready
  split
  case isTrue hnone =>
    refine ⟨hm, without_nil _, .inl ⟨fun k hk ↦ ?_, rfl⟩⟩
    rcases hnone with h0 | hroot
    · simp [hidx.keys_eq_nil h0] at hk
    · rw [gt_iff_lt, UInt64.lt_iff_toNat_lt] at hroot
      rw [UInt64.lt_iff_toNat_lt]
      have := hidx.root_le hk
      omega
  case isFalse hsome =>
    have hpos : 0 < m.index.length := by omega
    have hstart : GoHeap.elem m.index 0 ≤ start := by
      rw [UInt64.le_iff_toNat_le]
      have : ¬(GoHeap.elem m.index 0 > start) := fun h ↦ hsome (.inr h)
      rw [gt_iff_lt, UInt64.lt_iff_toNat_lt] at this
      omega
    obtain ⟨-, hidx', r, hr, hrun, hleft⟩ :=
      readyLoop_spec m.index.length m (GoHeap.elem m.index 0) [] hidx le_rfl
        fun k hk ↦ hidx.root_le hk
    rw [List.nil_append] at hr
    refine ⟨⟨hidx', fun c hc ↦ by cases hc⟩, hr ▸ hleft,
      .inr ⟨_, hidx.root_mem hpos, hstart, fun k hk ↦ hidx.root_le hk, hr ▸ hrun⟩⟩

end Ready

/-! ## `Cap` -/

section Cap

/-- The loop of `Cap` with a threshold `n ≥ 0`, over a slice of distinct nonces: from `size` down
to `n + 1` it deletes the nonces at positions `n` to `size - 1` and collects their transactions,
the last first. -/
theorem capLoop_spec {s : List UInt64} (hs : s.Nodup) (n : ℕ) :
    ∀ size, n ≤ size → size ≤ s.length → ∀ (items : GoMap UInt64 Transaction) drops,
      ∃ items', capLoop s n size items drops =
          .ok (items', drops ++ ((s.take size).drop n).reverse.filterMap items.lookup) ∧
        ∀ k, items'.lookup k = if k ∈ (s.take size).drop n then none else items.lookup k := by
  intro size
  induction size with
  | zero =>
    intro hn _ items drops
    obtain rfl : n = 0 := by omega
    exact ⟨items, by simp [capLoop], fun k ↦ by simp⟩
  | succ size ih =>
    intro hn hlen items drops
    rcases Nat.eq_or_lt_of_le hn with rfl | hlt
    · refine ⟨items, ?_, fun k ↦ by simp⟩
      rw [capLoop, if_neg (lt_irrefl _)]
      simp
    · have hsize : size < s.length := by omega
      have hget : s[size]? = some s[size] := List.getElem?_eq_getElem hsize
      obtain ⟨items', hloop, hleft⟩ :=
        ih (by omega) (by omega) (items.erase s[size]) (drops ++ (items.lookup s[size]).toList)
      have hseg : (s.take (size + 1)).drop n = (s.take size).drop n ++ [s[size]] := by
        rw [List.take_add_one, hget, Option.toList_some,
          List.drop_append_of_le_length (by rw [List.length_take]; omega)]
      have hnot : s[size] ∉ (s.take size).drop n := fun hmem ↦ by
        have hnodup := (List.take_append_drop (size + 1) s).symm ▸ hs
        rw [List.take_add_one, hget, Option.toList_some] at hnodup
        exact (List.nodup_append.1 (List.nodup_append.1 hnodup).1).2.2 _
          (List.mem_of_mem_drop hmem) _ (List.mem_singleton_self _) rfl
      have hsame : ∀ k ∈ ((s.take size).drop n).reverse,
          (items.erase s[size]).lookup k = items.lookup k := fun k hk ↦
        AList.lookup_erase_ne fun heq ↦ hnot (heq ▸ List.mem_reverse.1 hk)
      refine ⟨items', ?_, fun k ↦ ?_⟩
      · rw [capLoop, if_pos (by push_cast; omega)]
        simp only [hget]
        rw [hloop, hseg, List.filterMap_congr hsame, List.reverse_append]
        cases hx : items.lookup s[size] <;> simp [hx]
      · rw [hleft k, hseg]
        by_cases hk : k = s[size]
        · subst hk
          simp [AList.lookup_erase]
        · rw [AList.lookup_erase_ne hk]
          simp [hk]

theorem capLoop_neg {s : List UInt64} {threshold : ℤ} (hneg : threshold < 0) :
    ∀ size (items : GoMap UInt64 Transaction) drops,
      capLoop s threshold size items drops = .error indexOutOfRange := by
  intro size
  induction size with
  | zero => exact fun _ _ ↦ if_pos hneg
  | succ size ih =>
    intro items drops
    rw [capLoop, if_pos (by omega)]
    cases s[size]? with
    | none => rfl
    | some nonce => exact ih _ _

theorem pairwise_mergeSort_index {index : List UInt64} (hnodup : index.Nodup) :
    (index.mergeSort fun a b ↦ a.toNat ≤ b.toNat).Pairwise (· < ·) := by
  have hle := @List.pairwise_mergeSort _ (fun a b : UInt64 ↦ decide (a.toNat ≤ b.toNat))
    (fun a b c hab hbc ↦ by simp only [decide_eq_true_eq] at *; omega)
    (fun a b ↦ by simp only [Bool.or_eq_true, decide_eq_true_eq]; omega) index
  have hne := (List.mergeSort_perm index fun a b ↦ decide (a.toNat ≤ b.toNat)).nodup_iff.2 hnodup
  refine (hle.and hne).imp fun ⟨hab, hne⟩ ↦ ?_
  rw [UInt64.lt_iff_toNat_lt]
  simp only [decide_eq_true_eq] at hab
  exact lt_of_le_of_ne hab fun heq ↦ hne (UInt64.toNat_inj.1 heq)

theorem eq_of_pairwise_lt {l l' : List UInt64} (hl : l.Pairwise (· < ·)) (hl' : l'.Pairwise (· < ·))
    (hmem : ∀ k, k ∈ l ↔ k ∈ l') : l = l' := by
  have hnodup : ∀ {l : List UInt64}, l.Pairwise (· < ·) → l.Nodup := fun h ↦
    h.imp fun {a b} hab heq ↦ by
      subst heq
      exact UInt64.lt_irrefl _ hab
  refine ((List.perm_ext_iff_of_nodup (hnodup hl) (hnodup hl')).2 hmem).eq_of_pairwise ?_ hl hl'
  exact fun a b _ _ hab hba ↦ absurd (UInt64.lt_trans hab hba) (UInt64.lt_irrefl _)

theorem Lists.map_nonce {items : GoMap UInt64 Transaction} {c : List Transaction}
    (hc : Lists items (fun _ ↦ True) c) (hnonce : ∀ k tx, items.lookup k = some tx → tx.nonce = k) :
    (c.map Transaction.nonce).Pairwise (· < ·) ∧ ∀ k, k ∈ c.map Transaction.nonce ↔ k ∈ items.keys := by
  refine ⟨List.pairwise_map.2 hc.1, fun k ↦ ⟨fun hk ↦ ?_, fun hk ↦ ?_⟩⟩
  · obtain ⟨tx, htx, rfl⟩ := List.mem_map.1 hk
    exact mem_keys_of_lookup ((hc.2 tx).1 htx).1
  · obtain ⟨tx, htx⟩ := Option.isSome_iff_exists.1 (AList.lookup_isSome.2 (AList.mem_keys.2 hk))
    exact List.mem_map.2 ⟨tx, (hc.2 tx).2 ⟨hnonce k tx htx ▸ htx, trivial⟩, hnonce k tx htx⟩

theorem map_nonce_filterMap {items : GoMap UInt64 Transaction}
    (hnonce : ∀ k tx, items.lookup k = some tx → tx.nonce = k) :
    ∀ ks : List UInt64, (∀ k ∈ ks, k ∈ items.keys) →
      (ks.filterMap items.lookup).map Transaction.nonce = ks
  | [], _ => rfl
  | k :: ks, hks => by
    obtain ⟨tx, htx⟩ := Option.isSome_iff_exists.1
      (AList.lookup_isSome.2 (AList.mem_keys.2 (hks k List.mem_cons_self)))
    rw [List.filterMap_cons, htx]
    simp only [List.map_cons, hnonce k tx htx]
    rw [map_nonce_filterMap hnonce ks fun k' hk' ↦ hks k' (List.mem_cons_of_mem _ hk')]

theorem len_eq (m : TxSortedMap) : m.len = m.items.keys.length := by
  simp [len, AList.keys, List.keys]

/-- **`Cap`.** On a well-formed map, `Cap(n)` with `n ≥ 0` keeps `n` transactions (all of them if
there are no more), returns the others, all of higher nonce than those kept and highest first,
and leaves a well-formed map. With `n < 0` it panics. -/
theorem cap_spec {m : TxSortedMap} (hm : m.Wf) (threshold : ℤ) :
    (threshold < 0 → m.cap threshold = .error indexOutOfRange) ∧
      (0 ≤ threshold → ∃ m' drops, m.cap threshold = .ok (m', drops) ∧ m'.Wf ∧
        Without m.items m'.items drops ∧ (∀ tx ∈ drops, m.items.lookup tx.nonce = some tx) ∧
        m'.len = min m.len threshold.toNat ∧ (∀ d ∈ drops, ∀ k ∈ m'.items.keys, k < d.nonce) ∧
        drops.Pairwise fun a b ↦ b.nonce < a.nonce) := by
  have hidx := hm.indexed
  set sorted := m.index.mergeSort fun a b ↦ a.toNat ≤ b.toNat
  have hperm : sorted.Perm m.items.keys := (List.mergeSort_perm _ _).trans hidx.index_perm
  have hlt : sorted.Pairwise (· < ·) :=
    pairwise_mergeSort_index (hidx.index_perm.nodup_iff.2 (AList.keys_nodup _))
  have hnodup : sorted.Nodup := hperm.nodup_iff.2 (AList.keys_nodup _)
  have hlen : sorted.length = m.len := by rw [hperm.length_eq, len_eq]
  constructor
  · intro hneg
    unfold cap
    rw [if_neg (by omega)]
    simp only [capLoop_neg hneg]
    rfl
  · intro hnonneg
    set n := threshold.toNat
    have hn : threshold = n := (Int.toNat_of_nonneg hnonneg).symm
    by_cases hsmall : (m.len : ℤ) ≤ threshold
    · refine ⟨m, [], by unfold cap; rw [if_pos hsmall]; rfl, hm, without_nil _, by simp,
        by omega, by simp, List.Pairwise.nil⟩
    obtain ⟨items', hloop, hleft⟩ :=
      capLoop_spec hnodup n m.len (by omega) hlen.ge m.items []
    have htake : sorted.take m.len = sorted := List.take_of_length_le (le_of_eq hlen)
    rw [htake, List.nil_append] at hloop
    rw [htake] at hleft
    set drops := (sorted.drop n).reverse.filterMap m.items.lookup
    have hdrops : drops.map Transaction.nonce = (sorted.drop n).reverse :=
      map_nonce_filterMap hidx.nonce_eq _ fun k hk ↦
        hperm.subset (List.mem_of_mem_drop (List.mem_reverse.1 hk))
    have hsplit := List.pairwise_append.1 ((List.take_append_drop n sorted).symm ▸ hlt)
    have hdisj := List.nodup_append.1 ((List.take_append_drop n sorted).symm ▸ hnodup)
    have hkeys : ∀ k, k ∈ items'.keys ↔ k ∈ sorted.take n := by
      intro k
      rw [← AList.mem_keys, ← AList.lookup_isSome, hleft k]
      constructor
      · intro hk
        split at hk
        case isTrue => cases hk
        case isFalse hnot =>
          have hmem := hperm.symm.subset (AList.mem_keys.1 (AList.lookup_isSome.1 hk))
          rw [← List.take_append_drop n sorted, List.mem_append] at hmem
          exact hmem.resolve_right hnot
      · intro hk
        rw [if_neg fun hd ↦ hdisj.2.2 _ hk _ hd rfl]
        exact AList.lookup_isSome.2 (AList.mem_keys.2 (hperm.subset (List.mem_of_mem_take hk)))
    have hsub : ∀ k tx, items'.lookup k = some tx → m.items.lookup k = some tx := by
      intro k tx h
      rw [hleft k] at h
      split at h
      case isTrue => cases h
      case isFalse => exact h
    have hkept : items'.keys.Perm (sorted.take n) :=
      (List.perm_ext_iff_of_nodup (AList.keys_nodup _)
        (List.Nodup.sublist (List.take_sublist _ _) hnodup)).2 hkeys
    have hndrops : drops.length = m.len - n := by
      rw [← List.length_map Transaction.nonce, hdrops, List.length_reverse, List.length_drop, hlen]
    refine ⟨⟨items', GoHeap.init UInt64.toNat (sorted.take n),
        m.cache.map fun c ↦ c.take (c.length - drops.length)⟩, drops, ?_,
      ⟨⟨fun k tx h ↦ hidx.nonce_eq k tx (hsub k tx h), ?_, ?_⟩, ?_⟩, ?_, ?_, ?_, ?_, ?_⟩
    · have hloop' : capLoop (m.index.mergeSort fun a b ↦ a.toNat ≤ b.toNat) threshold m.len m.items []
          = .ok (items', drops) := by
        rw [hn]
        exact hloop
      unfold cap
      rw [if_neg hsmall]
      simp only [hloop']
      rfl
    · exact (GoHeap.init_spec _).2.trans hkept.symm
    · exact (GoHeap.init_spec _).1
    · intro c hc
      rw [Option.map_eq_some_iff] at hc
      obtain ⟨c₀, hc₀, rfl⟩ := hc
      have hlists := hm.cache c₀ hc₀
      obtain ⟨hmapLt, hmapMem⟩ := hlists.map_nonce hidx.nonce_eq
      have hmap : c₀.map Transaction.nonce = sorted :=
        eq_of_pairwise_lt hmapLt hlt fun k ↦ by rw [hmapMem, hperm.mem_iff]
      have hlenc : c₀.length = m.len := by rw [← hlen, ← hmap, List.length_map]
      rw [hlenc, hndrops, show m.len - (m.len - n) = n by omega]
      refine ⟨hlists.1.sublist (List.take_sublist _ _), fun tx ↦ ⟨fun htx ↦ ?_, fun htx ↦ ?_⟩⟩
      · obtain ⟨hlookup, -⟩ := (hlists.2 tx).1 (List.mem_of_mem_take htx)
        have hk : tx.nonce ∈ sorted.take n := by
          rw [← hmap, ← List.map_take]
          exact List.mem_map_of_mem htx
        rw [hleft, if_neg fun hd ↦ hdisj.2.2 _ hk _ hd rfl]
        exact ⟨hlookup, trivial⟩
      · have hlookup := hsub _ _ htx.1
        have hk : tx.nonce ∈ sorted.take n := (hkeys _).1 (mem_keys_of_lookup htx.1)
        have hmem : tx ∈ c₀ := (hlists.2 tx).2 ⟨hlookup, trivial⟩
        rw [← List.take_append_drop n c₀, List.mem_append] at hmem
        refine hmem.resolve_right fun hd ↦ ?_
        have hkd : tx.nonce ∈ sorted.drop n := by
          rw [← hmap, ← List.map_drop]
          exact List.mem_map_of_mem hd
        exact hdisj.2.2 _ hk _ hkd rfl
    · intro k
      rw [hleft k, hdrops]
      simp only [List.mem_reverse]
    · intro tx htx
      obtain ⟨k, -, hk⟩ := List.mem_filterMap.1 htx
      exact hidx.nonce_eq k tx hk ▸ hk
    · show items'.entries.length = _
      rw [← List.length_map Sigma.fst, show items'.entries.map Sigma.fst = items'.keys from rfl,
        hkept.length_eq, List.length_take, hlen]
      omega
    · intro d hd k hk
      have hdk : d.nonce ∈ sorted.drop n := by
        rw [← List.mem_reverse, ← hdrops]
        exact List.mem_map_of_mem hd
      exact hsplit.2.2 k ((hkeys k).1 hk) d.nonce hdk
    · have hdesc : ((sorted.drop n).reverse).Pairwise fun a b ↦ b < a :=
        List.pairwise_reverse.2 hsplit.2.1
      rw [← hdrops] at hdesc
      exact List.pairwise_map.1 hdesc

end Cap

/-! ## Every sequence of operations -/

/-- **One step.** An operation on a well-formed map leaves a well-formed map, and fails only as
`Cap` with a negative threshold. -/
theorem Op.run_spec {m : TxSortedMap} (hm : m.Wf) (op : Op) :
    (∀ m', op.run m = .ok m' → m'.Wf) ∧ ((∀ n, op = .cap n → 0 ≤ n) → ∃ m', op.run m = .ok m') := by
  cases op with
  | put tx => exact ⟨fun m' h ↦ by cases h; exact put_wf hm tx, fun _ ↦ ⟨_, rfl⟩⟩
  | forward t => exact ⟨fun m' h ↦ by cases h; exact (forward_spec hm t).1, fun _ ↦ ⟨_, rfl⟩⟩
  | filter o o' p => exact ⟨fun m' h ↦ by cases h; exact (filter_spec hm o o' p).1, fun _ ↦ ⟨_, rfl⟩⟩
  | cap n =>
    by_cases hn : 0 ≤ n
    · obtain ⟨m', drops, hcap, hwf, -⟩ := (cap_spec hm n).2 hn
      have hrun : (Op.cap n).run m = .ok m' := by simp [Op.run, hcap]
      refine ⟨fun m'' h ↦ ?_, fun _ ↦ ⟨m', hrun⟩⟩
      rw [hrun] at h
      cases h
      exact hwf
    · have hrun : (Op.cap n).run m = .error indexOutOfRange := by
        simp [Op.run, (cap_spec hm n).1 (by omega)]
      refine ⟨fun m'' h ↦ ?_, fun hcap ↦ absurd (hcap n rfl) hn⟩
      rw [hrun] at h
      cases h
  | remove nonce => exact ⟨fun m' h ↦ by cases h; exact (remove_spec hm nonce).1, fun _ ↦ ⟨_, rfl⟩⟩
  | ready start => exact ⟨fun m' h ↦ by cases h; exact (ready_spec hm start).1, fun _ ↦ ⟨_, rfl⟩⟩
  | flatten o => exact ⟨fun m' h ↦ by cases h; exact (flatten_spec hm o).1, fun _ ↦ ⟨_, rfl⟩⟩

/-- **Every run.** A sequence of operations on a well-formed map leaves a well-formed map, and
runs to its end when no `Cap` in it has a negative threshold. -/
theorem runOps_spec :
    ∀ (ops : List Op) {m : TxSortedMap}, m.Wf →
      (∀ m', runOps ops m = .ok m' → m'.Wf) ∧
        ((∀ n, Op.cap n ∈ ops → 0 ≤ n) → ∃ m', runOps ops m = .ok m')
  | [], m, hm => ⟨fun m' h ↦ by cases h; exact hm, fun _ ↦ ⟨m, rfl⟩⟩
  | op :: ops, m, hm => by
    obtain ⟨hwf, hok⟩ := Op.run_spec hm op
    constructor
    · intro m' h
      obtain ⟨m₁, hrun, hrest⟩ := Imperative.except_bind_eq_ok.1 h
      exact (runOps_spec ops (hwf m₁ hrun)).1 m' hrest
    · intro hcaps
      obtain ⟨m₁, hrun⟩ := hok fun n hn ↦ hcaps n (hn ▸ List.mem_cons_self)
      obtain ⟨m', hrest⟩ := (runOps_spec ops (hwf m₁ hrun)).2 fun n hn ↦
        hcaps n (List.mem_cons_of_mem _ hn)
      exact ⟨m', by rw [runOps, hrun]; exact hrest⟩

/-- **The map under every sequence of operations.** A sequence of operations from an empty map
whose every `Cap` has a threshold that is not negative runs to its end, every map a sequence
builds is well formed, and on such a map `Forward(t)` takes out exactly the transactions below
`t`, `Cap(n)` for `n ≥ 0` the ones above the `n` lowest, highest first, and `Ready(s)` the run of
consecutive nonces from the lowest when that is at most `s`, and nothing otherwise. -/
theorem txSortedMap_reachable_contracts :
    (∀ ops : List Op, (∀ n, Op.cap n ∈ ops → 0 ≤ n) → ∃ m, runOps ops newTxSortedMap = .ok m) ∧
      ∀ ops m, runOps ops newTxSortedMap = .ok m → m.Wf ∧
        (∀ t, ForwardedFrom m.items (m.forward t).1.items t ∧
          Lists m.items (· < t) (m.forward t).2) ∧
        (∀ n : ℤ, 0 ≤ n → ∃ m' drops, m.cap n = .ok (m', drops) ∧
          Without m.items m'.items drops ∧ (∀ tx ∈ drops, m.items.lookup tx.nonce = some tx) ∧
          m'.len = min m.len n.toNat ∧ (∀ d ∈ drops, ∀ k ∈ m'.items.keys, k < d.nonce) ∧
          drops.Pairwise fun a b ↦ b.nonce < a.nonce) ∧
        ∀ s, Without m.items (m.ready s).1.items (m.ready s).2 ∧
          ((∀ k ∈ m.items.keys, s < k) ∧ (m.ready s).2 = [] ∨
            ∃ first ∈ m.items.keys, first ≤ s ∧ (∀ k ∈ m.items.keys, first.toNat ≤ k.toNat) ∧
              RunFrom m.items first.toNat (m.ready s).2) := by
  refine ⟨fun ops hcaps ↦ (runOps_spec ops wf_newTxSortedMap).2 hcaps, fun ops m hrun ↦ ?_⟩
  have hm : m.Wf := (runOps_spec ops wf_newTxSortedMap).1 m hrun
  refine ⟨hm, fun t ↦ (forward_spec hm t).2, fun n hn ↦ ?_, fun s ↦ (ready_spec hm s).2⟩
  obtain ⟨m', drops, hcap, -, hrest⟩ := (cap_spec hm n).2 hn
  exact ⟨m', drops, hcap, hrest⟩

/-- A transfer at `nonce` with every other field zero. -/
def nonceTx (nonce : UInt64) : Transaction := ⟨⟨nonce, 0, 0, none, 0, .binary, 0, [], [], 0, 0, 0⟩, none⟩

/-- Three puts out of nonce order, a `Forward`, a `Cap` and a `Ready`. -/
def sampleOps : List Op :=
  [.put (nonceTx 3), .put (nonceTx 1), .put (nonceTx 2), .forward 2, .cap 5, .ready 4, .put (nonceTx 7)]

theorem sampleOps_contracts :
    ∃ m, runOps sampleOps newTxSortedMap = .ok m ∧ m.Wf ∧
      ForwardedFrom m.items (m.forward 8).1.items 8 ∧ Lists m.items (· < 8) (m.forward 8).2 := by
  obtain ⟨m, hrun⟩ : ∃ m, runOps sampleOps newTxSortedMap = .ok m := ⟨_, rfl⟩
  obtain ⟨hwf, hforward, -, -⟩ := txSortedMap_reachable_contracts.2 sampleOps m hrun
  exact ⟨m, hrun, hwf, hforward 8⟩

/-- `Cap` with a negative threshold runs past the front of the sorted index: Go panics. -/
theorem cap_negative_panics : runOps [.cap (-1)] newTxSortedMap = .error indexOutOfRange := rfl

end TxSortedMap

end BokerChain
