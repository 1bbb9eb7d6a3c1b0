import Mathlib

/-!
# `sort.Search`

Go's `sort.Search(n, f)` bisects `[0, n)` for the first index at which `f` is true and returns
`n` when there is none.  It assumes that `f` is false and then true over the range, and returns
the boundary only for such an `f`: over `[i, j)` it tests the midpoint `h` and keeps `[h + 1, j)`
when `f h` is false and `[i, h)` when it is true.

The loop is written with fuel, one unit per round: each round shortens `[i, j)`, so `j - i`
rounds are enough (`search_loop_eq`) and the function reduces on closed inputs.
-/

namespace BokerChain.Library

/-- The rounds of `sort.Search` over `[i, j)`. -/
def search.loop (f : ℕ → Bool) : ℕ → ℕ → ℕ → ℕ
  | 0, i, _ => i
  | fuel + 1, i, j =>
    if i < j then
      let h := (i + j) / 2
      if !f h then search.loop f fuel (h + 1) j else search.loop f fuel i h
    else i

/-- `sort.Search(n, f)`. -/
def search (n : ℕ) (f : ℕ → Bool) : ℕ := search.loop f n 0 n

section Boundary

/-! ## The boundary is found

`k` is the boundary: `f` is false below it and true from it up to `n`. -/

variable {f : ℕ → Bool} {k n : ℕ}

theorem lt_of_search_false (htrue : ∀ i, k ≤ i → i < n → f i = true) {h : ℕ} (hn : h < n)
    (hf : f h = false) : h < k := by
  by_contra hle
  rw [htrue h (Nat.le_of_not_lt hle) hn] at hf
  exact Bool.noConfusion hf

theorem le_of_search_true (hfalse : ∀ i < k, f i = false) {h : ℕ} (hf : f h = true) : k ≤ h := by
  by_contra hlt
  rw [hfalse h (Nat.lt_of_not_le hlt)] at hf
  exact Bool.noConfusion hf

/-- Each round keeps the boundary inside `[i, j]`, so the loop stops on it. -/
theorem search_loop_eq (hfalse : ∀ i < k, f i = false) (htrue : ∀ i, k ≤ i → i < n → f i = true) :
    ∀ fuel i j, i ≤ k → k ≤ j → j ≤ n → j - i ≤ fuel → search.loop f fuel i j = k := by
  intro fuel
  induction fuel with
  | zero =>
    intro i j hi hj _ hfuel
    rw [search.loop]
    omega
  | succ fuel ih =>
    intro i j hi hj hjn hfuel
    rw [search.loop]
    by_cases hij : i < j
    · rw [if_pos hij]
      dsimp only
      cases hmid : f ((i + j) / 2) with
      | false =>
        have hlt : (i + j) / 2 < k := lt_of_search_false htrue (by omega) hmid
        exact ih _ j (by omega) hj hjn (by omega)
      | true =>
        have hle : k ≤ (i + j) / 2 := le_of_search_true hfalse hmid
        exact ih i _ hi hle (by omega) (by omega)
    · rw [if_neg hij]
      omega

theorem search_eq (hk : k ≤ n) (hfalse : ∀ i < k, f i = false)
    (htrue : ∀ i, k ≤ i → i < n → f i = true) : search n f = k :=
  search_loop_eq hfalse htrue n 0 n (Nat.zero_le k) hk le_rfl (Nat.sub_le n 0)

end Boundary

example : search 5 (fun i ↦ decide (3 ≤ i)) = 3 := by decide

/-! ## Sorted prefixes

In a list sorted by `r`, a predicate that holds of everything before an element it holds of
holds of a prefix: the first `countP p` elements are those it holds of, the rest those it does
not. This is how a slice of sorted values is cut at a bound. -/

section SortedPrefix

variable {α : Type*} {r : α → α → Prop} {p : α → Bool}

theorem drop_take_countP_of_pairwise {l : List α} (hl : l.Pairwise r)
    (hp : ∀ a b, r a b → p b → p a) :
    l.drop (l.countP p) = l.filter (fun a ↦ !p a) ∧ l.take (l.countP p) = l.filter p := by
  induction l with
  | nil => simp
  | cons a l ih =>
    obtain ⟨ha, hl⟩ := List.pairwise_cons.1 hl
    obtain ⟨ihd, iht⟩ := ih hl
    cases hpa : p a
    · have hnone : ∀ b ∈ l, p b = false := fun b hb ↦ by
        cases hpb : p b
        · rfl
        · rw [hp a b (ha b hb) hpb] at hpa
          cases hpa
      have hzero : l.countP p = 0 := List.countP_eq_zero.2 (fun b hb ↦ by rw [hnone b hb]; decide)
      have hkeep : l.filter (fun a ↦ !p a) = l :=
        List.filter_eq_self.2 (fun b hb ↦ by simp [hnone b hb])
      have hnil : l.filter p = [] := List.filter_eq_nil_iff.2 (fun b hb ↦ by simp [hnone b hb])
      rw [List.countP_cons, hpa, hzero]
      simp [hpa, hkeep, hnil]
    · simp [hpa, ihd, iht]

end SortedPrefix

end BokerChain.Library
