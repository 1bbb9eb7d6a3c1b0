import BokerChain.Library.Imperative

/-!
# Relations a program keeps

`Keeps R x` says that every normal exit of `x` is related to the state it started from by `R`.
`R` may be a frame condition ("the balance is unchanged"), a growth condition ("the list only
grows"), or an invariant read as a relation, `Preserving Inv`. When `R` is reflexive and
transitive, the rules below follow a program's syntax, one for each primitive, so that the frame
of a function is proved by walking its body and citing its callees' frames.

`forM_ne_ok` is the rule by which a loop is shown to fail: one of its rounds fails from every
state of an invariant that the other rounds keep.
-/

namespace BokerChain.Library.Imperative

variable {ε σ α β : Type} {R : σ → σ → Prop}

/-- Every normal exit of `x` is related to its start by `R`. -/
def Keeps (R : σ → σ → Prop) (x : EStateM ε σ α) : Prop :=
  ∀ s a s', x s = .ok a s' → R s s'

/-- The relation of an invariant: whenever the start satisfies it, so does the end. -/
def Preserving (Inv : σ → Prop) (s s' : σ) : Prop :=
  Inv s → Inv s'

instance (Inv : σ → Prop) : Std.Refl (Preserving Inv) := ⟨fun _ h ↦ h⟩

instance (Inv : σ → Prop) : IsTrans σ (Preserving Inv) := ⟨fun _ _ _ h₁ h₂ h ↦ h₂ (h₁ h)⟩

/-! ## The rules -/

theorem Keeps.pure [Std.Refl R] (a : α) : Keeps R (pure a : EStateM ε σ α) := by
  intro s a' s' h
  obtain ⟨-, rfl⟩ := pure_eq_ok.1 h
  exact Std.Refl.refl s

theorem Keeps.throw (e : ε) : Keeps R (throw e : EStateM ε σ α) := by
  intro s a s' h
  cases h

theorem Keeps.modify {f : σ → σ} (h : ∀ s, R s (f s)) : Keeps R (modify f : EStateM ε σ PUnit) := by
  intro s u s' hrun
  rw [modify_eq_ok.1 hrun]
  exact h s

theorem Keeps.bind [IsTrans σ R] {x : EStateM ε σ α} {f : α → EStateM ε σ β} (hx : Keeps R x)
    (hf : ∀ a, Keeps R (f a)) : Keeps R (x >>= f) := by
  intro s b s'' h
  obtain ⟨a, s', hfirst, hrest⟩ := bind_eq_ok.1 h
  exact IsTrans.trans _ _ _ (hx s a s' hfirst) (hf a s' b s'' hrest)

theorem Keeps.get_bind {f : σ → EStateM ε σ β} (hf : ∀ s, Keeps R (f s)) : Keeps R (get >>= f) := by
  intro s b s'' h
  obtain ⟨a, s', hget, hrest⟩ := bind_eq_ok.1 h
  obtain ⟨rfl, rfl⟩ := get_eq_ok.1 hget
  exact hf s s b s'' hrest

theorem Keeps.liftExcept_bind {x : Except ε α} {f : α → EStateM ε σ β} (hf : ∀ a, Keeps R (f a)) :
    Keeps R (liftExcept x >>= f) := by
  intro s b s'' h
  obtain ⟨a, s', hlift, hrest⟩ := bind_eq_ok.1 h
  obtain ⟨-, rfl⟩ := liftExcept_eq_ok.1 hlift
  exact hf a s b s'' hrest

theorem Keeps.ite {c : Prop} [Decidable c] {x y : EStateM ε σ α} (hx : Keeps R x) (hy : Keeps R y) :
    Keeps R (if c then x else y) := by
  split
  · exact hx
  · exact hy

theorem Keeps.forM [Std.Refl R] [IsTrans σ R] {f : α → EStateM ε σ PUnit} :
    ∀ {l : List α}, (∀ a ∈ l, Keeps R (f a)) → Keeps R (l.forM f)
  | [], _ => Keeps.pure PUnit.unit
  | a :: _, h => Keeps.bind (h a List.mem_cons_self) fun _ ↦
      Keeps.forM fun b hb ↦ h b (List.mem_cons_of_mem a hb)

theorem Keeps.mono {S : σ → σ → Prop} {x : EStateM ε σ α} (hRS : ∀ s s', R s s' → S s s')
    (h : Keeps R x) : Keeps S x :=
  fun s a s' hrun ↦ hRS s s' (h s a s' hrun)

/-! ## A loop that fails -/

/-- **A failing round fails the loop.** When the round for `b` fails from every state of `Inv`
and the rounds for the other elements keep `Inv`, a loop over a list holding `b` never returns
normally from a state of `Inv`. -/
theorem forM_ne_ok {Inv : σ → Prop} {f : α → EStateM ε σ PUnit} {b : α}
    (hkeep : ∀ a, Keeps (Preserving Inv) (f a)) (hfail : ∀ s u s', Inv s → f b s ≠ .ok u s') :
    ∀ {l : List α}, b ∈ l → ∀ s u s', Inv s → l.forM f s ≠ .ok u s'
  | a :: l, hb, s, u, s', hs, h => by
    obtain ⟨⟨⟩, s₁, hfirst, hrest⟩ := bind_eq_ok.1 h
    rcases List.mem_cons.1 hb with rfl | hbl
    · exact hfail s ⟨⟩ s₁ hs hfirst
    · exact forM_ne_ok hkeep hfail hbl s₁ u s' (hkeep a s ⟨⟩ s₁ hfirst hs) hrest

end BokerChain.Library.Imperative
