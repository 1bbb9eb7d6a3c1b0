import Mathlib

/-!
# Imperative programs as state-and-error functions

A function of an imperative language that mutates shared state and may fail is modelled as
an `EStateM ε σ α`: it maps the state on entry to a value or an error, together with the state
on return.  On an error the state is the one reached when the error was raised, so the
mutations made before it are kept, as they are when a Go function returns early with a
non-nil error and its caller does not roll anything back.

A function that fails without touching shared state is an `Except ε α`.

This module holds the rules for running such programs: one equation for each monadic
primitive applied to a state (or, for `Except`, to a value), tagged `@[simp]`, so that a program
unfolds into the `match` tree of its branches and `split` follows the source's control flow.  It
also names the state a run ends in, whichever way it ends, inverts a successful bind, and gives
two rules over whole programs: a postcondition on the values a program returns (`Returns`), and
the agreement of two programs whose continuations agree after a common step (`bind_congr_on`).
-/

namespace BokerChain.Library.Imperative

variable {ε σ α β : Type}

/-! ## Running the primitives -/

@[simp]
theorem bind_apply (x : EStateM ε σ α) (f : α → EStateM ε σ β) (s : σ) :
    (x >>= f) s = match x s with
      | .ok a s' => f a s'
      | .error e s' => .error e s' := rfl

@[simp]
theorem seqRight_apply (x : EStateM ε σ α) (y : EStateM ε σ β) (s : σ) :
    (x *> y) s = match x s with
      | .ok _ s' => y s'
      | .error e s' => .error e s' := rfl

@[simp]
theorem discard_apply (x : EStateM ε σ α) (s : σ) :
    (discard x) s = match x s with
      | .ok _ s' => .ok ⟨⟩ s'
      | .error e s' => .error e s' := rfl

@[simp]
theorem get_apply (s : σ) : (get : EStateM ε σ σ) s = .ok s s := rfl

@[simp]
theorem getThe_apply (s : σ) : (getThe σ : EStateM ε σ σ) s = .ok s s := rfl

@[simp]
theorem set_apply (s s' : σ) : (set s' : EStateM ε σ PUnit) s = .ok ⟨⟩ s' := rfl

@[simp]
theorem modify_apply (f : σ → σ) (s : σ) : (modify f : EStateM ε σ PUnit) s = .ok ⟨⟩ (f s) :=
  rfl

@[simp]
theorem modifyGet_apply (f : σ → α × σ) (s : σ) :
    (modifyGet f : EStateM ε σ α) s = .ok (f s).1 (f s).2 := rfl

@[simp]
theorem throw_apply (e : ε) (s : σ) : (throw e : EStateM ε σ α) s = .error e s := rfl

@[simp]
theorem pure_apply (a : α) (s : σ) : (pure a : EStateM ε σ α) s = .ok a s := rfl

@[simp]
theorem ite_run (c : Prop) [Decidable c] (x y : EStateM ε σ α) (s : σ) :
    (if c then x else y) s = if c then x s else y s := by
  split <;> rfl

@[simp]
theorem run_eq (x : EStateM ε σ α) (s : σ) : x.run s = x s := rfl

/-- A bind succeeds exactly when both of its steps do, the second from the state the first
leaves. -/
theorem bind_eq_ok {x : EStateM ε σ α} {f : α → EStateM ε σ β} {s s'' : σ} {b : β} :
    (x >>= f) s = .ok b s'' ↔ ∃ a s', x s = .ok a s' ∧ f a s' = .ok b s'' := by
  rw [bind_apply]
  cases x s with
  | ok a s' =>
    constructor
    · intro h
      exact ⟨a, s', rfl, h⟩
    · rintro ⟨a', s₁, hrun, h⟩
      cases hrun
      exact h
  | error e s' => simp

/-! The successful runs of the primitives, as equations a proof can `obtain` a step at a time
from `bind_eq_ok`.  Each leaves the state named as it was before the step. -/

theorem pure_eq_ok {a b : α} {s s' : σ} :
    (pure a : EStateM ε σ α) s = .ok b s' ↔ a = b ∧ s = s' := by
  simp

theorem get_eq_ok {s a s' : σ} : (get : EStateM ε σ σ) s = .ok a s' ↔ s = a ∧ s = s' := by
  simp

theorem modify_eq_ok {f : σ → σ} {s s' : σ} {u : PUnit} :
    (modify f : EStateM ε σ PUnit) s = .ok u s' ↔ s' = f s := by
  simp [eq_comm]

theorem discard_eq_ok {x : EStateM ε σ α} {s s' : σ} {u : PUnit} :
    (discard x) s = .ok u s' ↔ ∃ a, x s = .ok a s' := by
  rw [discard_apply]
  cases x s <;> simp

theorem forM_preserves {Inv : σ → Prop} {f : α → EStateM ε σ PUnit}
    (hstep : ∀ a s s' u, Inv s → f a s = .ok u s' → Inv s') :
    ∀ (l : List α) {s s' : σ} {u : PUnit}, Inv s → l.forM f s = .ok u s' → Inv s'
  | [], s, s', u, hs, h => by
    obtain ⟨-, rfl⟩ := pure_eq_ok.1 h
    exact hs
  | a :: l, s, s', u, hs, h => by
    obtain ⟨⟨⟩, s₁, hfirst, hrest⟩ := bind_eq_ok.1 h
    exact forM_preserves hstep l (hstep a s s₁ ⟨⟩ hs hfirst) hrest

/-- Two binds agree from a state when their first steps do and their continuations agree on
every normal exit of the first step. -/
theorem bind_congr_on {x y : EStateM ε σ α} {f g : α → EStateM ε σ β} {s : σ}
    (hxy : x s = y s) (hfg : ∀ a s', x s = .ok a s' → f a s' = g a s') :
    (x >>= f) s = (y >>= g) s := by
  rw [bind_apply, bind_apply, ← hxy]
  cases hx : x s with
  | ok a s' => exact hfg a s' hx
  | error e s' => rfl

/-! ## The state a run ends in -/

/-- The state on return, after a value or an error. -/
def finalState : EStateM.Result ε σ α → σ
  | .ok _ s => s
  | .error _ s => s

@[simp]
theorem finalState_ok (a : α) (s : σ) : finalState (.ok a s : EStateM.Result ε σ α) = s := rfl

@[simp]
theorem finalState_error (e : ε) (s : σ) :
    finalState (.error e s : EStateM.Result ε σ α) = s := rfl

/-- The value of a run that ended without an error. -/
def value : EStateM.Result ε σ α → Option α
  | .ok a _ => some a
  | .error _ _ => none

/-- Whether a run ended without an error. -/
def succeeded : EStateM.Result ε σ α → Bool
  | .ok _ _ => true
  | .error _ _ => false

@[simp]
theorem succeeded_ok (a : α) (s : σ) : succeeded (.ok a s : EStateM.Result ε σ α) = true := rfl

@[simp]
theorem succeeded_error (e : ε) (s : σ) :
    succeeded (.error e s : EStateM.Result ε σ α) = false := rfl

/-- The state a run ends in, when it ends without an error. -/
def okState : EStateM.Result ε σ α → Option σ
  | .ok _ s => some s
  | .error _ _ => none

@[simp]
theorem okState_ok (a : α) (s : σ) : okState (.ok a s : EStateM.Result ε σ α) = some s := rfl

@[simp]
theorem okState_error (e : ε) (s : σ) :
    okState (.error e s : EStateM.Result ε σ α) = none := rfl

/-- The error a run ended with, and the state it left. -/
def failure : EStateM.Result ε σ α → Option (ε × σ)
  | .ok _ _ => none
  | .error e s => some (e, s)

@[simp]
theorem failure_ok (a : α) (s : σ) : failure (.ok a s : EStateM.Result ε σ α) = none := rfl

@[simp]
theorem failure_error (e : ε) (s : σ) :
    failure (.error e s : EStateM.Result ε σ α) = some (e, s) := rfl

/-! ## What a program returns

`Returns x P` is a postcondition on the values alone: it holds of whatever `x` returns when it
returns normally.  Its rules follow the program's syntax, one for each primitive, so that a
proof about a long function walks its binds and branches without running it. -/

/-- Every value `x` returns on a normal exit, from any state, satisfies `P`. -/
def Returns (x : EStateM ε σ α) (P : α → Prop) : Prop :=
  ∀ s a s', x s = .ok a s' → P a

theorem Returns.pure {P : α → Prop} {a : α} (h : P a) : Returns (pure a : EStateM ε σ α) P := by
  intro s a' s' hrun
  cases hrun
  exact h

theorem Returns.throw {P : α → Prop} (e : ε) : Returns (throw e : EStateM ε σ α) P := by
  intro s a s' hrun
  cases hrun

theorem Returns.bind {x : EStateM ε σ α} {f : α → EStateM ε σ β} {P : α → Prop}
    {Q : β → Prop} (hx : Returns x P) (hf : ∀ a, P a → Returns (f a) Q) :
    Returns (x >>= f) Q := by
  intro s b s'' hrun
  obtain ⟨a, s', hfirst, hrest⟩ := bind_eq_ok.mp hrun
  exact hf a (hx s a s' hfirst) s' b s'' hrest

theorem Returns.bind_any {x : EStateM ε σ α} {f : α → EStateM ε σ β} {Q : β → Prop}
    (hf : ∀ a, Returns (f a) Q) : Returns (x >>= f) Q := by
  intro s b s'' hrun
  obtain ⟨a, s', -, hrest⟩ := bind_eq_ok.mp hrun
  exact hf a s' b s'' hrest

theorem Returns.ite {c : Prop} [Decidable c] {x y : EStateM ε σ α} {P : α → Prop}
    (hx : Returns x P) (hy : Returns y P) : Returns (if c then x else y) P := by
  split
  · exact hx
  · exact hy

/-! ## Functions that fail without state -/

@[simp]
theorem except_ok_bind (a : α) (f : α → Except ε β) : (Except.ok a >>= f) = f a := rfl

@[simp]
theorem except_error_bind (e : ε) (f : α → Except ε β) : (Except.error e >>= f) = .error e :=
  rfl

@[simp]
theorem except_pure (a : α) : (pure a : Except ε α) = .ok a := rfl

@[simp]
theorem except_throw (e : ε) : (throw e : Except ε α) = .error e := rfl

theorem except_bind_eq_ok {x : Except ε α} {f : α → Except ε β} {b : β} :
    (x >>= f) = .ok b ↔ ∃ a, x = .ok a ∧ f a = .ok b := by
  cases x <;> simp

theorem except_ite_throw_eq_ok {c : Prop} [Decidable c] {e : ε} {f : α → Except ε β}
    {x : Except ε β} {b : β} : (if c then throw e >>= f else x) = .ok b ↔ ¬c ∧ x = .ok b := by
  by_cases hc : c <;> simp [hc]

theorem except_guard_eq_ok {c : Prop} [Decidable c] {e : ε} :
    (if c then throw e else pure PUnit.unit : Except ε PUnit) = .ok PUnit.unit ↔ ¬c := by
  by_cases hc : c
  · simp [hc]
  · simp only [hc, if_false, not_false_eq_true, iff_true]
    rfl

theorem mapM_eq_ok {f : α → Except ε β} {g : α → β} :
    ∀ {l : List α}, (∀ a ∈ l, f a = .ok (g a)) → l.mapM f = .ok (l.map g)
  | [], _ => rfl
  | a :: l, hall => by
    have hrest := mapM_eq_ok fun b hb ↦ hall b (List.mem_cons_of_mem a hb)
    simp [List.mapM_cons, hall a List.mem_cons_self, hrest]

theorem foldlM_ne_error {f : σ → α → Except ε σ} {e : ε} :
    ∀ {l : List α}, (∀ s a, a ∈ l → f s a ≠ .error e) → ∀ s, l.foldlM f s ≠ .error e
  | [], _, s => by simp
  | a :: l, hstep, s => by
    rw [List.foldlM_cons]
    cases hf : f s a with
    | error e' =>
      have hne : e' ≠ e := fun heq ↦ hstep s a List.mem_cons_self (heq ▸ hf)
      simpa using hne
    | ok s' =>
      exact foldlM_ne_error (fun t b hb ↦ hstep t b (List.mem_cons_of_mem a hb)) s'

@[simp]
theorem liftExcept_ok (a : α) (s : σ) :
    (liftExcept (Except.ok a : Except ε α) : EStateM ε σ α) s = .ok a s := rfl

@[simp]
theorem liftExcept_error (e : ε) (s : σ) :
    (liftExcept (Except.error e : Except ε α) : EStateM ε σ α) s = .error e s := rfl

theorem liftExcept_eq_ok {x : Except ε α} {s s' : σ} {a : α} :
    (liftExcept x : EStateM ε σ α) s = .ok a s' ↔ x = .ok a ∧ s = s' := by
  cases x <;> simp

/-- What a call leaves behind when its caller ignores the error it returns: its result, or the
old value when it failed before changing anything. -/
def ignoreError (x : Except ε α) (old : α) : α :=
  match x with
  | .ok a => a
  | .error _ => old

@[simp]
theorem ignoreError_ok (a old : α) : ignoreError (.ok a : Except ε α) old = a := rfl

@[simp]
theorem ignoreError_error (e : ε) (old : α) : ignoreError (.error e : Except ε α) old = old := rfl

/-- The error a call returned, `nil` when it succeeded: the second result of a Go call whose
value is read through `ignoreError`. -/
def errorOf (x : Except ε α) : Option ε :=
  match x with
  | .ok _ => none
  | .error e => some e

@[simp]
theorem errorOf_ok (a : α) : errorOf (.ok a : Except ε α) = none := rfl

@[simp]
theorem errorOf_error (e : ε) : errorOf (.error e : Except ε α) = some e := rfl

end BokerChain.Library.Imperative
