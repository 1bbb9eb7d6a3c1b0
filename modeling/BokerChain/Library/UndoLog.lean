import Mathlib

/-!
# Undo logs

A program that can take back what it did keeps a log: each change appends entries that record
what it overwrote, and a rollback undoes a suffix of the log, the last entry first.  Undoing an
entry may fail (the program would crash), so an undo returns an `Option`.

Rollbacks are seldom exact: the program may keep caches or bookkeeping that no reader sees and
that the undo does not restore.  What a rollback restores is stated for an observation `view` of
the state ("what its readers see").  The rule that makes rollbacks compose is that undoing
respects the observation (`Respects`): then a run whose every step `Undoes` itself up to the
observation undoes itself as a whole (`Undoes.append`), however the steps' entries interleave
with the states they pass through.
-/

namespace BokerChain.Library.UndoLog

variable {σ ε : Type} (undo : σ → ε → Option σ)

/-- Undo the entries of `log`, the last first. -/
def rollback (s : σ) (log : List ε) : Option σ := log.reverse.foldlM undo s

@[simp]
theorem rollback_nil (s : σ) : rollback undo s [] = some s := rfl

theorem rollback_append (s : σ) (l₁ l₂ : List ε) :
    rollback undo s (l₁ ++ l₂) = (rollback undo s l₂).bind fun t ↦ rollback undo t l₁ := by
  simp only [rollback, List.reverse_append, List.foldlM_append]
  rfl

@[simp]
theorem rollback_singleton (s : σ) (e : ε) : rollback undo s [e] = undo s e := by
  simp only [rollback, List.reverse_singleton, List.foldlM_cons, List.foldlM_nil]
  cases undo s e <;> rfl

theorem rollback_invariant {P : σ → Prop} (h : ∀ s e t, undo s e = some t → P s → P t) :
    ∀ (log : List ε) {s t : σ}, rollback undo s log = some t → P s → P t := by
  intro log
  induction log using List.reverseRecOn with
  | nil =>
    intro s t hrb hs
    cases hrb
    exact hs
  | append_singleton log e ih =>
    intro s t hrb hs
    rw [rollback_append, rollback_singleton, Option.bind_eq_some_iff] at hrb
    obtain ⟨u, hu, hrest⟩ := hrb
    exact ih hrest (h s e u hu hs)

section Observation

variable {ω : Type} {view : σ → ω}

/-- Undoing an entry in two states that look the same fails in both or gives states that look
the same. -/
def Respects (view : σ → ω) : Prop :=
  ∀ u v e, view u = view v → Option.Rel (fun x y ↦ view x = view y) (undo u e) (undo v e)

variable {undo}

theorem Respects.rollback (h : Respects undo view) :
    ∀ (log : List ε) {u v : σ}, view u = view v →
      Option.Rel (fun x y ↦ view x = view y) (rollback undo u log) (rollback undo v log) := by
  intro log
  induction log using List.reverseRecOn with
  | nil => intro u v huv; exact Option.Rel.some huv
  | append_singleton log e ih =>
    intro u v huv
    rw [rollback_append, rollback_append, rollback_singleton, rollback_singleton]
    have hlast := h u v e huv
    cases hu : undo u e with
    | none =>
      cases hv : undo v e with
      | none => exact Option.Rel.none
      | some v' => rw [hu, hv] at hlast; cases hlast
    | some u' =>
      cases hv : undo v e with
      | none => rw [hu, hv] at hlast; cases hlast
      | some v' =>
        rw [hu, hv] at hlast
        cases hlast with
        | some huv' => exact ih huv'

variable (undo view)

/-- A step from `s` to `s'` that logged `log` is undone by it: rolling `log` back from `s'`
succeeds and gives a state that looks like `s`. -/
def Undoes (s : σ) (log : List ε) (s' : σ) : Prop :=
  ∃ t, rollback undo s' log = some t ∧ view t = view s

variable {undo view}

theorem Undoes.nil (s : σ) : Undoes undo view s [] s :=
  ⟨s, rfl, rfl⟩

theorem Undoes.of_view_eq {s₀ s s' : σ} {log : List ε} (h : Undoes undo view s log s')
    (h₀ : view s = view s₀) : Undoes undo view s₀ log s' := by
  obtain ⟨t, ht, hts⟩ := h
  exact ⟨t, ht, hts.trans h₀⟩

/-- Two steps that each undo themselves undo themselves together, the second's entries first. -/
theorem Undoes.append (hresp : Respects undo view) {s₀ s₁ s₂ : σ} {l₁ l₂ : List ε}
    (h₁ : Undoes undo view s₀ l₁ s₁) (h₂ : Undoes undo view s₁ l₂ s₂) :
    Undoes undo view s₀ (l₁ ++ l₂) s₂ := by
  obtain ⟨t₁, hrb₁, ht₁⟩ := h₁
  obtain ⟨t₂, hrb₂, ht₂⟩ := h₂
  have hrel := hresp.rollback l₁ ht₂
  rw [hrb₁] at hrel
  cases hrb : rollback undo t₂ l₁ with
  | none => rw [hrb] at hrel; cases hrel
  | some t =>
    rw [hrb] at hrel
    cases hrel with
    | some htt₁ =>
      refine ⟨t, ?_, htt₁.trans ht₁⟩
      rw [rollback_append, hrb₂, Option.bind_some, hrb]

end Observation

end BokerChain.Library.UndoLog
