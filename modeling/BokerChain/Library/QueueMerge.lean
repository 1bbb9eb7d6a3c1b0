import Mathlib

/-!
# Merging queues by priority

A scheduler that keeps one queue per owner and at each step takes the front of a queue whose
front has the highest priority among all fronts produces a *greedy merge* of the queues: every
element once, each queue in its own order, and at each step an element of the highest priority
among the fronts still waiting.

`IsGreedyMerge` states this of the output list alone, through `leftAfter`, what is left of each
queue once a prefix of the output has been taken. `IsGreedyMerge.cons` is the rule by which a
scheduler that takes one front at a time is shown to produce one, and `IsGreedyMerge.perm` reads
off that every element comes out exactly once.
-/

namespace BokerChain.Library

variable {α κ β : Type*} [DecidableEq κ] (owner : α → κ)

/-! ## The queues after a prefix of the output -/

/-- What is left of each queue once `out` has been taken from the fronts. -/
def leftAfter (queues : κ → List α) (out : List α) (k : κ) : List α :=
  (queues k).drop (out.countP fun a ↦ owner a = k)

/-- The queues once the front of queue `k` has been taken. -/
def popFront (queues : κ → List α) (k : κ) : κ → List α :=
  Function.update queues k (queues k).tail

theorem leftAfter_nil (queues : κ → List α) : leftAfter owner queues [] = queues := by
  funext k
  simp [leftAfter]

theorem leftAfter_cons (queues : κ → List α) (a : α) (out : List α) :
    leftAfter owner queues (a :: out) = leftAfter owner (popFront queues (owner a)) out := by
  funext k
  unfold leftAfter popFront
  by_cases hk : owner a = k
  · subst hk
    rw [List.countP_cons_of_pos (by simp), Function.update_self, List.drop_tail]
  · rw [List.countP_cons_of_neg (by simpa using hk), Function.update_of_ne (Ne.symm hk)]

/-! ## Greedy merges -/

variable [LinearOrder β] (prio : α → β)

/-- `out` is a greedy merge of `queues` by `prio`: each queue comes out whole and in its order,
nothing else comes out, and each step takes an element whose priority is at least that of every
front still waiting. -/
structure IsGreedyMerge (queues : κ → List α) (out : List α) : Prop where
  filter_eq : ∀ k, out.filter (fun a ↦ owner a = k) = queues k
  greedy : ∀ i (hi : i < out.length) k, ∀ a ∈ (leftAfter owner queues (out.take i) k).head?,
    prio a ≤ prio out[i]

variable {owner prio} {queues : κ → List α} {out : List α}

theorem isGreedyMerge_nil (hempty : ∀ k, queues k = []) : IsGreedyMerge owner prio queues [] where
  filter_eq k := (hempty k).symm
  greedy i hi := absurd hi (Nat.not_lt_zero i)

/-- **Taking a front of the highest priority first.** A front of the highest priority followed
by a greedy merge of what is left is a greedy merge. -/
theorem IsGreedyMerge.cons {a : α} (hfront : a ∈ (queues (owner a)).head?)
    (hmax : ∀ k, ∀ b ∈ (queues k).head?, prio b ≤ prio a)
    (hout : IsGreedyMerge owner prio (popFront queues (owner a)) out) :
    IsGreedyMerge owner prio queues (a :: out) where
  filter_eq k := by
    by_cases hk : owner a = k
    · subst hk
      rw [List.filter_cons_of_pos (by simp), hout.filter_eq, popFront, Function.update_self]
      exact List.cons_head?_tail hfront
    · rw [List.filter_cons_of_neg (by simpa using hk), hout.filter_eq, popFront,
        Function.update_of_ne (Ne.symm hk)]
  greedy i hi k := by
    cases i with
    | zero =>
      rw [List.take_zero, leftAfter_nil]
      exact hmax k
    | succ j =>
      rw [List.take_succ_cons, leftAfter_cons]
      exact hout.greedy j (by simpa using hi) k

theorem IsGreedyMerge.owner_eq (h : IsGreedyMerge owner prio queues out) {k : κ} {a : α}
    (ha : a ∈ queues k) : owner a = k := by
  rw [← h.filter_eq k, List.mem_filter] at ha
  simpa using ha.2

/-- **Every element exactly once.** When the queues outside a list `ks` of distinct owners are
empty, a greedy merge is a permutation of the queues of `ks` one after the other. -/
theorem IsGreedyMerge.perm [DecidableEq α] (h : IsGreedyMerge owner prio queues out) {ks : List κ}
    (hks : ks.Nodup) (hout : ∀ k ∉ ks, queues k = []) : out.Perm (ks.flatMap queues) := by
  rw [List.perm_iff_count]
  intro a
  have hcount : out.count a = (queues (owner a)).count a := by
    rw [← h.filter_eq (owner a), List.count_filter (by simp)]
  have hother : ∀ k, k ≠ owner a → (queues k).count a = 0 := fun k hk ↦
    List.count_eq_zero.2 fun ha ↦ hk (h.owner_eq ha).symm
  rw [hcount, List.count_flatMap, ← List.sum_toFinset _ hks]
  change _ = ∑ k ∈ ks.toFinset, (queues k).count a
  by_cases hmem : owner a ∈ ks
  · rw [Finset.sum_eq_single_of_mem (owner a) (List.mem_toFinset.2 hmem)
      fun k _ hk ↦ hother k hk]
  · rw [hout _ hmem, List.count_nil]
    exact (Finset.sum_eq_zero fun k hk ↦
      hother k fun hka ↦ hmem (hka ▸ List.mem_toFinset.1 hk)).symm

end BokerChain.Library
