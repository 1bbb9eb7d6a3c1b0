import Mathlib

/-!
# Go maps and the order of `range`

A Go `map[κ]ν` is a finite map from keys to values, modelled by Mathlib's `AList`: the
association list with pairwise distinct keys, whose entries carry no meaningful order.
`m[k] = v` is `AList.insert`, `delete(m, k)` is `AList.erase`, `v, ok := m[k]` is
`AList.lookup`.

The language leaves the order of `for k, v := range m` unspecified, and the runtime draws it
afresh for each loop.  A `RangeOrder` is one such choice: for every map, an arrangement of its
entries.  A program that ranges over a map is modelled for an arbitrary `RangeOrder`; a
property of the program that should not depend on the runtime's choice is then a statement
for every two orders.
-/

namespace BokerChain.Library

/-- A Go `map[κ]ν`. -/
abbrev GoMap (κ ν : Type) := AList (fun _ : κ ↦ ν)

variable {κ ν : Type} [DecidableEq κ]

/-- The entries of a map as key-value pairs, in the order the `AList` stores them. -/
def GoMap.pairs (m : GoMap κ ν) : List (κ × ν) := m.entries.map fun e ↦ (e.1, e.2)

/-- An order in which `range` may visit the entries of each map. -/
structure RangeOrder (κ ν : Type) where
  visit : GoMap κ ν → List (κ × ν)
  perm : ∀ m, (visit m).Perm (GoMap.pairs m)

/-- Visiting the entries as the `AList` stores them is one admissible order. -/
def RangeOrder.stored : RangeOrder κ ν := ⟨GoMap.pairs, fun _ ↦ List.Perm.refl _⟩

/-- Visiting them in the reverse of the stored order is another. -/
def RangeOrder.reversed : RangeOrder κ ν :=
  ⟨fun m ↦ (GoMap.pairs m).reverse, fun _ ↦ List.reverse_perm _⟩

theorem GoMap.mem_pairs {m : GoMap κ ν} {k : κ} {v : ν} : (k, v) ∈ GoMap.pairs m ↔ m.lookup k = some v := by
  rw [← Option.mem_def, AList.mem_lookup_iff, GoMap.pairs, List.mem_map]
  constructor
  · rintro ⟨⟨k', v'⟩, hmem, hkv⟩
    simp only [Prod.mk.injEq] at hkv
    obtain ⟨rfl, rfl⟩ := hkv
    exact hmem
  · intro hmem
    exact ⟨⟨k, v⟩, hmem, rfl⟩

theorem RangeOrder.mem_visit (o : RangeOrder κ ν) {m : GoMap κ ν} {k : κ} {v : ν} :
    (k, v) ∈ o.visit m ↔ m.lookup k = some v := by
  rw [(o.perm m).mem_iff, GoMap.mem_pairs]

/-- The first key that `range` visits with a value satisfying `p`, as a loop that returns from
inside its body does. -/
def firstKeyWith (o : RangeOrder κ ν) (m : GoMap κ ν) (p : ν → Bool) : Option κ :=
  ((o.visit m).find? fun e ↦ p e.2).map Prod.fst

/-- The keys of a map in the order `range` visits them, as a loop that appends them to a slice
builds. -/
def visitKeys (o : RangeOrder κ ν) (m : GoMap κ ν) : List κ := (o.visit m).map Prod.fst

omit [DecidableEq κ] in
theorem GoMap.map_fst_pairs (m : GoMap κ ν) : (GoMap.pairs m).map Prod.fst = m.keys := by
  simp [GoMap.pairs, AList.keys, List.keys]

omit [DecidableEq κ] in
theorem visitKeys_perm (o : RangeOrder κ ν) (m : GoMap κ ν) : (visitKeys o m).Perm m.keys :=
  GoMap.map_fst_pairs m ▸ (o.perm m).map Prod.fst

end BokerChain.Library
