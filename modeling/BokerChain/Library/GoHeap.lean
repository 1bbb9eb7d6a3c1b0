import Mathlib

/-!
# `container/heap`

Go's `container/heap` keeps a slice in heap order under `h.Less`: no element is less than its
parent, the parent of position `k` being `(k - 1) / 2`. The slice is a `List α` here, `Less` is
the order of a key into a linear order, and `Swap` exchanges two elements.

The two loops `up` and `down` are written with fuel, one unit a round; each round moves the
position towards the root or towards the leaves, so the fuel the operations give (the position,
or the distance to the end) is enough. `UpInv` and `DownInv` say what holds of the order in the
middle of a loop: every edge is in order but those at the moving element, and the moving
element's neighbours are ordered the way the loop needs. Their `move` lemmas are one round and
their `finish` lemmas the exit; from them every operation keeps a heap a heap and its elements
a permutation of what they were.
-/

namespace BokerChain.Library.GoHeap

variable {α β : Type*} [Inhabited α] [LinearOrder β] (key : α → β)

/-! ## The slice -/

/-- The element at position `i`, read within the slice. -/
def elem (h : List α) (i : ℕ) : α := h.getD i default

/-- `h.Swap(i, j)`. -/
def swap (h : List α) (i j : ℕ) : List α := (h.set i (elem h j)).set j (elem h i)

/-- `h.Less(i, j)`. -/
def less (h : List α) (i j : ℕ) : Bool := decide (key (elem h i) < key (elem h j))

/-- The parent of position `k`: `(k - 1) / 2`, which is `0` at the root, as in Go. -/
def parent (k : ℕ) : ℕ := (k - 1) / 2

@[simp] theorem length_swap (h : List α) (i j : ℕ) : (swap h i j).length = h.length := by
  simp [swap]

theorem elem_swap {h : List α} {i j : ℕ} (hi : i < h.length) (hj : j < h.length) (k : ℕ) :
    elem (swap h i j) k = if k = j then elem h i else if k = i then elem h j else elem h k := by
  simp only [swap, elem, List.getD_eq_getElem?_getD, List.getElem?_set, List.length_set, if_pos hi,
    if_pos hj]
  by_cases hkj : k = j
  · simp [hkj]
  · by_cases hki : k = i
    · subst hki
      simp [hkj, Ne.symm hkj]
    · simp [hkj, hki, Ne.symm hkj, Ne.symm hki]

theorem elem_swap_of_ne {h : List α} {i j : ℕ} (hi : i < h.length) (hj : j < h.length) {k : ℕ}
    (hki : k ≠ i) (hkj : k ≠ j) : elem (swap h i j) k = elem h k := by
  rw [elem_swap hi hj, if_neg hkj, if_neg hki]

theorem swap_perm {h : List α} {i j : ℕ} (hi : i < h.length) (hj : j < h.length) :
    (swap h i j).Perm h := by
  have hofFn : swap h i j = List.ofFn (h.get ∘ Equiv.swap ⟨i, hi⟩ ⟨j, hj⟩) := by
    apply List.ext_getElem
    · simp
    · intro k hk _
      have hk' : k < h.length := length_swap h i j ▸ hk
      have hget := elem_swap hi hj k
      simp only [elem, List.getD_eq_getElem _ _ hk, List.getD_eq_getElem _ _ hi,
        List.getD_eq_getElem _ _ hj, List.getD_eq_getElem _ _ hk'] at hget
      rw [hget, List.getElem_ofFn, Function.comp_apply, Equiv.swap_apply_def]
      by_cases hki : k = i
      · subst hki
        by_cases hkj : k = j
        · subst hkj
          simp
        · simp [hkj]
      · by_cases hkj : k = j
        · subst hkj
          simp [hki]
        · simp [Fin.ext_iff, hkj, hki]
  have hperm := Equiv.Perm.ofFn_comp_perm (Equiv.swap ⟨i, hi⟩ ⟨j, hj⟩) h.get
  rwa [List.ofFn_get, ← hofFn] at hperm

theorem parent_lt {k : ℕ} (hk : 0 < k) : parent k < k := by
  unfold parent
  omega

/-! ## The operations -/

/-- The rounds of `up`: while the element at `j` is less than its parent, swap them. -/
def up.loop : ℕ → List α → ℕ → List α
  | 0, h, _ => h
  | fuel + 1, h, j =>
    let i := parent j
    if i = j ∨ !less key h j i then h else up.loop fuel (swap h i j) i

/-- `up(h, j)`. -/
def up (h : List α) (j : ℕ) : List α := up.loop key j h j

/-- The child of `i` that `down` compares with: the right one, `j2`, where it is within the
first `n` elements and less than the left one, `j1`. -/
def lesserChild (h : List α) (n i : ℕ) : ℕ :=
  let j1 := 2 * i + 1
  if j1 + 1 < n ∧ less key h (j1 + 1) j1 then j1 + 1 else j1

/-- The rounds of `down` within the first `n` elements: while the element at `i` is greater
than its lesser child, swap them. Gives the slice and where the element stopped. -/
def down.loop (n : ℕ) : ℕ → List α → ℕ → List α × ℕ
  | 0, h, i => (h, i)
  | fuel + 1, h, i =>
    let j1 := 2 * i + 1
    -- Go also stops at `j1 < 0`, after an overflow of `int`, which a natural never has
    if j1 ≥ n then (h, i)
    else
      let j := lesserChild key h n i
      if !less key h j i then (h, i) else down.loop n fuel (swap h i j) j

/-- `down(h, i0, n)`: the slice, and whether the element moved. -/
def down (h : List α) (i0 n : ℕ) : List α × Bool :=
  let r := down.loop key n (n - i0) h i0
  (r.1, decide (r.2 > i0))

/-- The rounds of `heap.Init`: `down(h, i, n)` for `i` from `n/2 - 1` to `0`. -/
def init.loop (n : ℕ) : ℕ → List α → List α
  | 0, h => h
  | i + 1, h => init.loop n i (down key h i n).1

/-- `heap.Init`. -/
def init (h : List α) : List α := init.loop key h.length (h.length / 2) h

/-- `heap.Push`: `h.Push(x)` appends, then `up`. -/
def push (h : List α) (x : α) : List α := up key (h ++ [x]) h.length

/-- `heap.Pop`: the root swapped with the last element, `down` over the others, and `h.Pop()`,
which takes the last element off. -/
def pop (h : List α) : List α × α :=
  let n := h.length - 1
  let h := (down key (swap h 0 n) 0 n).1
  (h.dropLast, elem h n)

/-- `heap.Remove(h, i)`. -/
def remove (h : List α) (i : ℕ) : List α × α :=
  let n := h.length - 1
  let h :=
    if n ≠ i then
      let h := swap h i n
      let r := down key h i n
      if !r.2 then up key r.1 i else r.1
    else h
  (h.dropLast, elem h n)

/-- `heap.Fix(h, i)`: restore the order after the element at `i` changed. -/
def fix (h : List α) (i : ℕ) : List α :=
  let r := down key h i h.length
  if !r.2 then up key r.1 i else r.1

/-! ## The heap order -/

/-- The heap order on the first `n` elements, for the edges whose parent is at `lo` or beyond. -/
def HeapFrom (h : List α) (lo n : ℕ) : Prop :=
  ∀ k, k < n → 0 < k → lo ≤ parent k → key (elem h (parent k)) ≤ key (elem h k)

/-- `h` is a heap: no element is less than its parent. -/
def IsHeap (h : List α) : Prop := HeapFrom key h 0 h.length

instance (h : List α) : Decidable (IsHeap key h) :=
  inferInstanceAs (Decidable (∀ k, k < h.length → 0 < k → 0 ≤ parent k →
    key (elem h (parent k)) ≤ key (elem h k)))

theorem head_le_elem {h : List α} {n : ℕ} (hh : HeapFrom key h 0 n) :
    ∀ k, k < n → key (elem h 0) ≤ key (elem h k) := by
  intro k
  induction k using Nat.strong_induction_on with
  | _ k ih =>
    intro hk
    rcases Nat.eq_zero_or_pos k with rfl | hpos
    · exact le_rfl
    · calc key (elem h 0) ≤ key (elem h (parent k)) := ih _ (parent_lt hpos) (by
            have := parent_lt hpos
            omega)
        _ ≤ key (elem h k) := hh k hk hpos (Nat.zero_le _)

theorem head_le {h : List α} (hh : IsHeap key h) : ∀ x ∈ h, key (elem h 0) ≤ key x := by
  intro x hx
  obtain ⟨k, hk, rfl⟩ := List.getElem_of_mem hx
  have hle := head_le_elem key hh k hk
  rwa [show elem h k = h[k] from List.getD_eq_getElem _ _ hk] at hle

/-! ## `up` -/

/-- What holds while `up` moves the element at `j` towards the root: every edge into a position
other than `j` is in order, and `j`'s parent is no greater than `j`'s children. -/
structure UpInv (h : List α) (n j : ℕ) : Prop where
  except : ∀ k, k < n → 0 < k → k ≠ j → key (elem h (parent k)) ≤ key (elem h k)
  grand : 0 < j → ∀ k, k < n → 0 < k → parent k = j → key (elem h (parent j)) ≤ key (elem h k)

section Up

variable {key} {h : List α} {n j : ℕ}

/-- One round of `up`: the element at `j` is less than its parent and changes place with it. -/
theorem UpInv.move (o : UpInv key h n j) (hj : 0 < j) (hjn : j < n) (hn : n ≤ h.length)
    (hlt : key (elem h j) < key (elem h (parent j))) : UpInv key (swap h (parent j) j) n (parent j) := by
  have hpj := parent_lt hj
  have hpl : parent j < h.length := by omega
  have hjl : j < h.length := by omega
  have hup : 0 < parent j → key (elem h (parent (parent j))) ≤ key (elem h (parent j)) :=
    fun hp ↦ o.except _ (by omega) hp (by omega)
  constructor
  · intro k hk hpos hne
    have hkl : k < h.length := by omega
    have hpk := parent_lt hpos
    by_cases hkj : k = j
    · subst hkj
      rw [elem_swap hpl hjl, elem_swap hpl hjl, if_neg (by omega), if_pos rfl, if_pos rfl]
      exact hlt.le
    · rw [elem_swap_of_ne hpl hjl hne hkj]
      by_cases hpkj : parent k = j
      · rw [hpkj, elem_swap hpl hjl, if_pos rfl]
        exact o.grand hj k hk hpos hpkj
      · by_cases hpkp : parent k = parent j
        · rw [hpkp, elem_swap hpl hjl, if_neg (by omega), if_pos rfl]
          exact hlt.le.trans (hpkp ▸ o.except k hk hpos hkj)
        · rw [elem_swap_of_ne hpl hjl hpkp hpkj]
          exact o.except k hk hpos hkj
  · intro hp k hk hpos hpk
    have hppl := parent_lt hp
    have hkp := parent_lt hpos
    have hpp : elem (swap h (parent j) j) (parent (parent j)) = elem h (parent (parent j)) :=
      elem_swap_of_ne hpl hjl (by omega) (by omega)
    rw [hpp]
    by_cases hkj : k = j
    · subst hkj
      rw [elem_swap hpl hjl, if_pos rfl]
      exact hup hp
    · rw [elem_swap_of_ne hpl hjl (by omega) hkj]
      exact (hup hp).trans (hpk ▸ o.except k hk hpos hkj)

/-- The exit of `up`: the element at `j` is no less than its parent, and the order holds. -/
theorem UpInv.finish (o : UpInv key h n j)
    (hstop : 0 < j → key (elem h (parent j)) ≤ key (elem h j)) : HeapFrom key h 0 n := by
  intro k hk hpos _
  by_cases hkj : k = j
  · subst hkj
    exact hstop hpos
  · exact o.except k hk hpos hkj

theorem up_loop_spec (hn : n ≤ h.length) :
    ∀ fuel, j ≤ fuel → j < n → UpInv key h n j → HeapFrom key (up.loop key fuel h j) 0 n := by
  intro fuel
  induction fuel generalizing h j with
  | zero =>
    intro hj _ o
    exact o.finish (fun hpos ↦ absurd hpos (by omega))
  | succ fuel ih =>
    intro hj hjn o
    rw [up.loop]
    split
    case isTrue hstop =>
      refine o.finish fun hpos ↦ ?_
      rcases hstop with hroot | hless
      · exact absurd hroot (parent_lt hpos).ne
      · simpa [less] using hless
    case isFalse hmove =>
      simp only [not_or, Bool.not_eq_true', Bool.not_eq_false, less, decide_eq_true_eq] at hmove
      have hpos : 0 < j := Nat.pos_of_ne_zero fun h0 ↦ hmove.1 (by rw [h0]; rfl)
      have hpj := parent_lt hpos
      exact ih (by simpa using hn) (by omega) (by omega) (o.move hpos hjn hn hmove.2)

theorem up_loop_perm : ∀ fuel (h : List α) j, j < h.length → (up.loop key fuel h j).Perm h := by
  intro fuel
  induction fuel with
  | zero => exact fun _ _ _ ↦ List.Perm.refl _
  | succ fuel ih =>
    intro h j hj
    rw [up.loop]
    split
    case isTrue => exact List.Perm.refl _
    case isFalse hmove =>
      have hpos : 0 < j := Nat.pos_of_ne_zero fun h0 ↦ hmove (.inl (by rw [h0]; rfl))
      have hpj := parent_lt hpos
      exact (ih _ _ (by simp; omega)).trans (swap_perm (by omega) hj)

theorem up_loop_elem_of_lt : ∀ fuel (h : List α) j k, j < h.length → j < k →
    elem (up.loop key fuel h j) k = elem h k := by
  intro fuel
  induction fuel with
  | zero => exact fun _ _ _ _ _ ↦ rfl
  | succ fuel ih =>
    intro h j k hj hjk
    rw [up.loop]
    split
    case isTrue => rfl
    case isFalse hmove =>
      have hpos : 0 < j := Nat.pos_of_ne_zero fun h0 ↦ hmove (.inl (by rw [h0]; rfl))
      have hpj := parent_lt hpos
      rw [ih _ _ _ (by simp; omega) (by omega), elem_swap_of_ne (by omega) hj (by omega) (by omega)]

end Up

/-! ## `down` -/

/-- What holds while `down` moves the element at `i` towards the leaves of the first `n`
elements, for the edges whose parent is at `lo` or beyond: every edge out of a position other
than `i` is in order, but the edge into `i0`, where the element started, until it has moved;
and `i`'s parent is no greater than `i`'s children. -/
structure DownInv (h : List α) (lo n i0 i : ℕ) : Prop where
  except : ∀ k, k < n → 0 < k → lo ≤ parent k → parent k ≠ i → (k = i0 → i ≠ i0) →
    key (elem h (parent k)) ≤ key (elem h k)
  grand : 0 < i → lo ≤ parent i → ∀ k, k < n → 0 < k → parent k = i →
    key (elem h (parent i)) ≤ key (elem h k)

/-- What `down` leaves: the order on every edge from `lo` on, but the edge into `i0` if the
element stopped where it started. -/
def DownDone (h : List α) (lo n i0 i : ℕ) : Prop :=
  ∀ k, k < n → 0 < k → lo ≤ parent k → (k = i0 → i ≠ i0) → key (elem h (parent k)) ≤ key (elem h k)

theorem parent_eq_iff {k i : ℕ} (hk : 0 < k) : parent k = i ↔ k = 2 * i + 1 ∨ k = 2 * i + 2 := by
  unfold parent
  omega

section Down

variable {key} {h : List α} {lo n i0 i : ℕ}

theorem lesserChild_spec (hj1 : 2 * i + 1 < n) :
    parent (lesserChild key h n i) = i ∧ i < lesserChild key h n i ∧ lesserChild key h n i < n ∧
      ∀ k, k < n → 0 < k → parent k = i → key (elem h (lesserChild key h n i)) ≤ key (elem h k) := by
  unfold lesserChild
  dsimp only
  split
  case isTrue hright =>
    simp only [less, decide_eq_true_eq] at hright
    refine ⟨(parent_eq_iff (by omega)).2 (.inr rfl), by omega, hright.1, fun k hk hpos hpk ↦ ?_⟩
    rcases (parent_eq_iff hpos).1 hpk with rfl | rfl
    · exact hright.2.le
    · exact le_rfl
  case isFalse hleft =>
    simp only [less, decide_eq_true_eq, not_and, not_lt] at hleft
    refine ⟨(parent_eq_iff (by omega)).2 (.inl rfl), by omega, hj1, fun k hk hpos hpk ↦ ?_⟩
    rcases (parent_eq_iff hpos).1 hpk with rfl | rfl
    · exact le_rfl
    · exact hleft hk

/-- One round of `down`: the element at `i` is greater than its lesser child `j` and changes
place with it. -/
theorem DownInv.move (o : DownInv key h lo n i0 i) (hi0 : i0 ≤ i) (hlo : lo ≤ i)
    (hn : n ≤ h.length) (hj1 : 2 * i + 1 < n)
    (hlt : key (elem h (lesserChild key h n i)) < key (elem h i)) :
    DownInv key (swap h i (lesserChild key h n i)) lo n i0 (lesserChild key h n i) := by
  obtain ⟨hpj, hij, hjn, hmin⟩ := @lesserChild_spec _ _ _ _ key h n i hj1
  set j := lesserChild key h n i
  have hil : i < h.length := by omega
  have hjl : j < h.length := by omega
  constructor
  · intro k hk hpos hlok hpkj _
    have hpk := parent_lt hpos
    by_cases hkj : k = j
    · subst hkj
      rw [hpj, elem_swap hil hjl, elem_swap hil hjl, if_neg (by omega), if_pos rfl, if_pos rfl]
      exact hlt.le
    · by_cases hki : k = i
      · subst hki
        have hpi : elem (swap h k j) (parent k) = elem h (parent k) :=
          elem_swap_of_ne hil hjl (by omega) (by omega)
        rw [hpi, elem_swap hil hjl, if_neg (by omega), if_pos rfl]
        exact o.grand hpos hlok j hjn (by omega) hpj
      · rw [elem_swap_of_ne hil hjl hki hkj]
        by_cases hpki : parent k = i
        · rw [hpki, elem_swap hil hjl, if_neg (by omega), if_pos rfl]
          exact hmin k hk hpos hpki
        · rw [elem_swap_of_ne hil hjl hpki hpkj]
          exact o.except k hk hpos hlok hpki fun hk0 ↦ by omega
  · intro _ _ k hk hpos hpk
    have hkj := parent_lt hpos
    rw [hpj, elem_swap hil hjl, if_neg (by omega), if_pos rfl,
      elem_swap_of_ne hil hjl (by omega) (by omega)]
    have hedge := o.except k hk hpos (by omega) (by omega) (fun _ ↦ by omega)
    rwa [hpk] at hedge

/-- The exit of `down`: the element at `i` is no greater than its children. -/
theorem DownInv.finish (o : DownInv key h lo n i0 i)
    (hstop : ∀ k, k < n → 0 < k → parent k = i → key (elem h i) ≤ key (elem h k)) :
    DownDone key h lo n i0 i := by
  intro k hk hpos hlok hk0
  by_cases hpki : parent k = i
  · rw [hpki]
    exact hstop k hk hpos hpki
  · exact o.except k hk hpos hlok hpki hk0

theorem down_loop_spec (hn : n ≤ h.length) :
    ∀ fuel, n ≤ i + fuel → i0 ≤ i → lo ≤ i → DownInv key h lo n i0 i →
      DownDone key (down.loop key n fuel h i).1 lo n i0 (down.loop key n fuel h i).2 ∧
        i ≤ (down.loop key n fuel h i).2 ∧
        ((down.loop key n fuel h i).2 = i → (down.loop key n fuel h i).1 = h) := by
  intro fuel
  induction fuel generalizing h i with
  | zero =>
    intro hfuel _ _ o
    refine ⟨o.finish fun k hk hpos hpk ↦ ?_, le_rfl, fun _ ↦ rfl⟩
    rw [parent_eq_iff hpos] at hpk
    omega
  | succ fuel ih =>
    intro hfuel hi0 hlo o
    rw [down.loop]
    dsimp only
    split
    case isTrue hleaf =>
      refine ⟨o.finish fun k hk hpos hpk ↦ ?_, le_rfl, fun _ ↦ rfl⟩
      rw [parent_eq_iff hpos] at hpk
      omega
    case isFalse hj1 =>
      have hj1 : 2 * i + 1 < n := by omega
      obtain ⟨hpj, hij, hjn, hmin⟩ := @lesserChild_spec _ _ _ _ key h n i hj1
      split
      case isTrue hstop =>
        simp only [Bool.not_eq_true', less, decide_eq_false_iff_not, not_lt] at hstop
        exact ⟨o.finish fun k hk hpos hpk ↦ hstop.trans (hmin k hk hpos hpk), le_rfl, fun _ ↦ rfl⟩
      case isFalse hmove =>
        simp only [Bool.not_eq_true', Bool.not_eq_false, less, decide_eq_true_eq] at hmove
        obtain ⟨hdone, hle, -⟩ := ih (h := swap h i (lesserChild key h n i)) (by simpa using hn)
          (by omega) (by omega) (by omega) (o.move hi0 hlo hn hj1 hmove)
        exact ⟨hdone, by omega, fun heq ↦ absurd heq (by omega)⟩

theorem down_loop_perm (hn : n ≤ h.length) :
    ∀ fuel, (down.loop key n fuel h i).1.Perm h := by
  intro fuel
  induction fuel generalizing h i with
  | zero => exact List.Perm.refl _
  | succ fuel ih =>
    rw [down.loop]
    dsimp only
    split
    case isTrue => exact List.Perm.refl _
    case isFalse hj1 =>
      obtain ⟨-, hij, hjn, -⟩ := @lesserChild_spec _ _ _ _ key h n i (by omega)
      split
      case isTrue => exact List.Perm.refl _
      case isFalse =>
        exact (ih (by simpa using hn)).trans (swap_perm (by omega) (by omega))

theorem down_loop_elem_of_ge (hn : n ≤ h.length) {k : ℕ} (hk : n ≤ k) :
    ∀ fuel, elem (down.loop key n fuel h i).1 k = elem h k := by
  intro fuel
  induction fuel generalizing h i with
  | zero => rfl
  | succ fuel ih =>
    rw [down.loop]
    dsimp only
    split
    case isTrue => rfl
    case isFalse hj1 =>
      obtain ⟨-, hij, hjn, -⟩ := @lesserChild_spec _ _ _ _ key h n i (by omega)
      split
      case isTrue => rfl
      case isFalse =>
        rw [ih (by simpa using hn), elem_swap_of_ne (by omega) (by omega) (by omega) (by omega)]

theorem DownDone.heapFrom {i : ℕ} (d : DownDone key h lo n i0 i) (hi0 : i0 = 0 ∨ parent i0 < lo) :
    HeapFrom key h lo n := by
  intro k hk hpos hlok
  refine d k hk hpos hlok fun hk0 ↦ ?_
  subst hk0
  omega

theorem downUp_spec (hin : i < n) (hn : n ≤ h.length) (o : DownInv key h 0 n i i) :
    HeapFrom key (if !(down key h i n).2 then up key (down key h i n).1 i else (down key h i n).1)
      0 n := by
  obtain ⟨hdone, hle, hsame⟩ := down_loop_spec hn (n - i) (by omega) le_rfl (Nat.zero_le _) o
  unfold down
  dsimp only
  split
  case isTrue hstay =>
    simp only [Bool.not_eq_true', decide_eq_false_iff_not, gt_iff_lt, not_lt] at hstay
    have hstay : (down.loop key n (n - i) h i).2 = i := by omega
    rw [hsame hstay]
    rw [hstay, hsame hstay] at hdone
    refine up_loop_spec hn i le_rfl hin ⟨fun k hk hpos hki ↦ ?_, fun hpos k hk hkpos hpk ↦ ?_⟩
    · exact hdone k hk hpos (Nat.zero_le _) fun hk0 ↦ absurd hk0 hki
    · exact o.grand hpos (Nat.zero_le _) k hk hkpos hpk
  case isFalse hmoved =>
    simp only [Bool.not_eq_true', Bool.not_eq_false, decide_eq_true_eq] at hmoved
    intro k hk hpos _
    exact hdone k hk hpos (Nat.zero_le _) fun _ ↦ Nat.ne_of_gt hmoved

theorem downUp_perm (hin : i < n) (hn : n ≤ h.length) :
    (if !(down key h i n).2 then up key (down key h i n).1 i else (down key h i n).1).Perm h := by
  have hperm : (down.loop key n (n - i) h i).1.Perm h := down_loop_perm hn (n - i)
  unfold down
  dsimp only
  split
  case isTrue => exact (up_loop_perm _ _ _ (by rw [hperm.length_eq]; omega)).trans hperm
  case isFalse => exact hperm

theorem downUp_elem_of_ge (hin : i < n) (hn : n ≤ h.length) {k : ℕ} (hk : n ≤ k) :
    elem (if !(down key h i n).2 then up key (down key h i n).1 i else (down key h i n).1) k =
      elem h k := by
  have hframe : elem (down.loop key n (n - i) h i).1 k = elem h k := down_loop_elem_of_ge hn hk _
  have hlen : (down.loop key n (n - i) h i).1.length = h.length :=
    (down_loop_perm hn (n - i)).length_eq
  unfold down
  dsimp only
  split
  case isTrue => rw [up, up_loop_elem_of_lt _ _ _ _ (by omega) (by omega), hframe]
  case isFalse => exact hframe

end Down

/-! ## The operations keep a heap -/

section Operations

variable {key} {h : List α}

theorem elem_append_of_lt {k : ℕ} (hk : k < h.length) (x : α) : elem (h ++ [x]) k = elem h k := by
  simp only [elem, List.getD_eq_getElem?_getD, List.getElem?_append_left hk]

theorem elem_dropLast {k : ℕ} (hk : k < h.length - 1) : elem h.dropLast k = elem h k := by
  simp only [elem, List.getD_eq_getElem?_getD, List.getElem?_dropLast, if_pos hk]

theorem elem_set {i : ℕ} (hi : i < h.length) (x : α) (k : ℕ) :
    elem (h.set i x) k = if k = i then x else elem h k := by
  simp only [elem, List.getD_eq_getElem?_getD, List.getElem?_set, if_pos hi]
  by_cases hki : k = i
  · simp [hki]
  · simp [hki, Ne.symm hki]

theorem popped_spec {n : ℕ} (hlen : h.length = n + 1) (hh : HeapFrom key h 0 n) :
    IsHeap key h.dropLast ∧ (elem h n :: h.dropLast).Perm h := by
  have hne : h ≠ [] := List.ne_nil_of_length_pos (by omega)
  have hlast : h.getLast hne = elem h n := by
    rw [List.getLast_eq_getElem, elem, List.getD_eq_getElem _ _ (by omega)]
    simp only [hlen, Nat.add_sub_cancel]
  constructor
  · intro k hk hpos _
    have hk' : k < h.length - 1 := by simpa using hk
    have hpk := parent_lt hpos
    rw [elem_dropLast hk', elem_dropLast (by omega)]
    exact hh k (by omega) hpos (Nat.zero_le _)
  · calc (elem h n :: h.dropLast).Perm (h.dropLast ++ [elem h n]) := List.perm_append_singleton _ _ |>.symm
      _ = h := by rw [← hlast, List.dropLast_concat_getLast]

theorem init_loop_spec {n : ℕ} (hn : h.length = n) :
    ∀ i, HeapFrom key h i n → HeapFrom key (init.loop key n i h) 0 n ∧ (init.loop key n i h).Perm h := by
  intro i
  induction i generalizing h with
  | zero => exact fun hh ↦ ⟨hh, List.Perm.refl _⟩
  | succ i ih =>
    intro hh
    have o : DownInv key h i n i i := by
      refine ⟨fun k hk hpos hlok hpki _ ↦ hh k hk hpos (by omega), fun hpos hlo ↦ ?_⟩
      exact absurd hlo (Nat.not_le.2 (parent_lt hpos))
    have hdone := (down_loop_spec hn.ge (n - i) (by omega) le_rfl le_rfl o).1
    have hperm : (down key h i n).1.Perm h := down_loop_perm hn.ge _
    have hfrom : HeapFrom key (down key h i n).1 i n := by
      refine DownDone.heapFrom hdone ?_
      rcases Nat.eq_zero_or_pos i with rfl | hpos
      · exact .inl rfl
      · exact .inr (parent_lt hpos)
    obtain ⟨hheap, hperm'⟩ := ih (hperm.length_eq.trans hn) hfrom
    exact ⟨hheap, hperm'.trans hperm⟩

/-- **`heap.Init`** makes a heap of the same elements. -/
theorem init_spec (h : List α) : IsHeap key (init key h) ∧ (init key h).Perm h := by
  have hnone : HeapFrom key h (h.length / 2) h.length := by
    intro k hk hpos hlo
    unfold parent at hlo
    omega
  obtain ⟨hheap, hperm⟩ := init_loop_spec rfl _ hnone
  have hlen : (init key h).length = h.length := hperm.length_eq
  refine ⟨?_, hperm⟩
  unfold IsHeap
  rw [hlen]
  exact hheap

example : init id [5, 3, 8, 1] = [1, 3, 8, 5] := by decide

/-- **`heap.Push`** keeps a heap a heap, with the new element in it. -/
theorem push_spec (hh : IsHeap key h) (x : α) :
    IsHeap key (push key h x) ∧ (push key h x).Perm (h ++ [x]) := by
  have hperm : (push key h x).Perm (h ++ [x]) :=
    up_loop_perm _ _ _ (by simp)
  have o : UpInv key (h ++ [x]) (h.length + 1) h.length := by
    constructor
    · intro k hk hpos hkn
      have hpk := parent_lt hpos
      rw [elem_append_of_lt (by omega), elem_append_of_lt (by omega)]
      exact hh k (by omega) hpos (Nat.zero_le _)
    · intro _ k hk hpos hpk
      rw [parent_eq_iff hpos] at hpk
      omega
  refine ⟨?_, hperm⟩
  have hheap := up_loop_spec (by simp) h.length le_rfl (by omega) o
  unfold IsHeap
  rwa [hperm.length_eq, List.length_append, List.length_singleton]

/-- **`heap.Pop`** takes off the root, which is the least element, and leaves a heap of the
others. -/
theorem pop_spec (hne : h ≠ []) (hh : IsHeap key h) :
    (pop key h).2 = elem h 0 ∧ IsHeap key (pop key h).1 ∧ ((pop key h).2 :: (pop key h).1).Perm h := by
  have hlen : 0 < h.length := List.length_pos_of_ne_nil hne
  set n := h.length - 1 with hn
  have h0 : 0 < h.length := hlen
  have hnl : n < h.length := by omega
  have o : DownInv key (swap h 0 n) 0 n 0 0 := by
    refine ⟨fun k hk hpos _ hpk0 _ ↦ ?_, fun hpos ↦ absurd hpos (lt_irrefl 0)⟩
    have hpk := parent_lt hpos
    rw [elem_swap_of_ne h0 hnl hpk0 (by omega), elem_swap_of_ne h0 hnl (by omega) (by omega)]
    exact hh k (by omega) hpos (Nat.zero_le _)
  have hsl : n ≤ (swap h 0 n).length := by simp; omega
  have hpop : pop key h = ((down.loop key n (n - 0) (swap h 0 n) 0).1.dropLast,
      elem (down.loop key n (n - 0) (swap h 0 n) 0).1 n) := rfl
  rw [hpop]
  have hdone := (down_loop_spec hsl (n - 0) (by omega) le_rfl le_rfl o).1
  have hperm : (down.loop key n (n - 0) (swap h 0 n) 0).1.Perm h :=
    (down_loop_perm hsl (n - 0)).trans (swap_perm h0 hnl)
  have hlast : elem (down.loop key n (n - 0) (swap h 0 n) 0).1 n = elem h 0 := by
    rw [down_loop_elem_of_ge hsl le_rfl, elem_swap h0 hnl, if_pos rfl]
  obtain ⟨hheap, hperm'⟩ := popped_spec (by rw [hperm.length_eq]; omega)
    (DownDone.heapFrom hdone (.inl rfl))
  exact ⟨hlast, hheap, hperm'.trans hperm⟩

/-- **`heap.Remove(h, i)`** takes off the element at `i` and leaves a heap of the others. -/
theorem remove_spec {i : ℕ} (hh : IsHeap key h) (hi : i < h.length) :
    (remove key h i).2 = elem h i ∧ IsHeap key (remove key h i).1 ∧
      ((remove key h i).2 :: (remove key h i).1).Perm h := by
  set n := h.length - 1 with hn
  have hnl : n < h.length := by omega
  unfold remove
  dsimp only
  split
  case isTrue hni =>
    have hin : i < n := by omega
    have hsl : n ≤ (swap h i n).length := by simp; omega
    have o : DownInv key (swap h i n) 0 n i i := by
      constructor
      · intro k hk hpos _ hpki hki
        have hki : k ≠ i := fun hk0 ↦ hki hk0 rfl
        have hpk := parent_lt hpos
        rw [elem_swap_of_ne hi hnl hki (by omega), elem_swap_of_ne hi hnl hpki (by omega)]
        exact hh k (by omega) hpos (Nat.zero_le _)
      · intro hpos _ k hk hkpos hpk
        have hpi := parent_lt hpos
        have hki := parent_lt hkpos
        rw [elem_swap_of_ne hi hnl (by omega) (by omega), elem_swap_of_ne hi hnl (by omega) (by omega)]
        calc key (elem h (parent i)) ≤ key (elem h i) := hh i hi hpos (Nat.zero_le _)
          _ ≤ key (elem h k) := hpk ▸ hh k (by omega) hkpos (Nat.zero_le _)
    have hperm := (@downUp_perm _ _ _ _ key _ _ _ hin hsl).trans (swap_perm hi hnl)
    have hlast : elem (if !(down key (swap h i n) i n).2 then up key (down key (swap h i n) i n).1 i
        else (down key (swap h i n) i n).1) n = elem h i := by
      rw [downUp_elem_of_ge hin hsl le_rfl, elem_swap hi hnl, if_pos rfl]
    obtain ⟨hheap, hperm'⟩ := popped_spec (by rw [hperm.length_eq]; omega)
      (downUp_spec hin hsl o)
    exact ⟨hlast, hheap, hperm'.trans hperm⟩
  case isFalse hni =>
    have hin : i = n := by omega
    subst hin
    have hfrom : HeapFrom key h 0 (h.length - 1) := fun k hk hpos hlo ↦ hh k (by omega) hpos hlo
    obtain ⟨hheap, hperm⟩ := popped_spec (by omega) hfrom
    exact ⟨rfl, hheap, hperm⟩

/-- **`heap.Fix(h, i)`** makes a heap again of a heap whose element at `i` was replaced. -/
theorem fix_spec {i : ℕ} (hh : IsHeap key h) (hi : i < h.length) (x : α) :
    IsHeap key (fix key (h.set i x) i) ∧ (fix key (h.set i x) i).Perm (h.set i x) := by
  have hsl : (h.set i x).length = h.length := List.length_set
  have o : DownInv key (h.set i x) 0 (h.set i x).length i i := by
    constructor
    · intro k hk hpos _ hpki hki
      have hki : k ≠ i := fun hk0 ↦ hki hk0 rfl
      rw [elem_set hi, elem_set hi, if_neg hki, if_neg hpki]
      exact hh k (by omega) hpos (Nat.zero_le _)
    · intro hpos _ k hk hkpos hpk
      have hpi := parent_lt hpos
      have hki := parent_lt hkpos
      rw [elem_set hi, elem_set hi, if_neg (by omega), if_neg (by omega)]
      calc key (elem h (parent i)) ≤ key (elem h i) := hh i hi hpos (Nat.zero_le _)
        _ ≤ key (elem h k) := hpk ▸ hh k (by omega) hkpos (Nat.zero_le _)
  have hperm : (fix key (h.set i x) i).Perm (h.set i x) := downUp_perm (by omega) le_rfl
  have hlen : (fix key (h.set i x) i).length = (h.set i x).length := hperm.length_eq
  refine ⟨?_, hperm⟩
  unfold IsHeap
  rw [hlen]
  exact downUp_spec (by omega) le_rfl o

end Operations

end BokerChain.Library.GoHeap
