import Mathlib.Logic.Basic
import Mathlib.Order.Basic

/-!
# Loops that return

A computation here threads a state and may refuse. `Returns I c Q` is total correctness under a
state invariant: started where `I` holds, `c` does not refuse, it leaves `I` standing, and its
result is as `Q` says.

`loop` is a `while` loop with a bound on its passes. The rule `Returns.loop` asks for an
invariant of the loop's own variables and a natural number that falls on every pass; any bound
above that number is then never met.
-/

namespace Conjectures.Lib

universe u

variable {τ ε σ α β : Type u}

/-- Started where `I` holds, `c` returns, keeps `I`, and its result is as `Q` says. -/
def Returns (I : τ → Prop) (c : StateT τ (Except ε) α) (Q : α → Prop) : Prop :=
  ∀ t, I t → ∃ a t', c t = .ok (a, t') ∧ I t' ∧ Q a

/-- What one pass of a loop decides: to go on, or to leave with a result. -/
inductive Pass (σ β : Type u) where
  | again (s : σ)
  | done (b : β)

/-- What is asked of a pass, for either decision. -/
def Pass.Meets (A : σ → Prop) (D : β → Prop) : Pass σ β → Prop
  | .again s => A s
  | .done b => D b

/-- Pass after pass until one is done, at most `fuel` of them. -/
def loop (outOfFuel : ε) (body : σ → StateT τ (Except ε) (Pass σ β)) :
    ℕ → σ → StateT τ (Except ε) β
  | 0, _ => throw outOfFuel
  | fuel + 1, s => do
    match ← body s with
    | .again s' => loop outOfFuel body fuel s'
    | .done b => pure b

namespace Returns

variable {I : τ → Prop}

theorem pure {a : α} {Q : α → Prop} (h : Q a) :
    Returns I (Pure.pure a : StateT τ (Except ε) α) Q :=
  fun t ht ↦ ⟨a, t, rfl, ht, h⟩

/-- What needs no state is as it was. -/
theorem lift {c : Except ε α} {a : α} (h : c = .ok a) :
    Returns I (liftM c : StateT τ (Except ε) α) (· = a) := by
  intro t ht
  refine ⟨a, t, ?_, ht, rfl⟩
  rw [h]
  rfl

theorem bind {c : StateT τ (Except ε) α} {f : α → StateT τ (Except ε) β} {Q : α → Prop}
    {R : β → Prop} (hc : Returns I c Q) (hf : ∀ a, Q a → Returns I (f a) R) :
    Returns I (c >>= f) R := by
  intro t ht
  obtain ⟨a, t', hca, ht', ha⟩ := hc t ht
  obtain ⟨b, t'', hfb, ht'', hb⟩ := hf a ha t' ht'
  refine ⟨b, t'', ?_, ht'', hb⟩
  simp only [Bind.bind, StateT.bind, hca, Except.bind]
  exact hfb

theorem mono {c : StateT τ (Except ε) α} {Q R : α → Prop} (h : Returns I c Q)
    (hQ : ∀ a, Q a → R a) : Returns I c R := by
  intro t ht
  obtain ⟨a, t', hca, ht', ha⟩ := h t ht
  exact ⟨a, t', hca, ht', hQ a ha⟩

/-- The rule of a loop: `J` holds of its variables before every pass, and `variant` falls. -/
theorem loop {outOfFuel : ε} {body : σ → StateT τ (Except ε) (Pass σ β)} {Q : β → Prop}
    (J : σ → Prop) (variant : σ → ℕ)
    (hbody : ∀ s, J s →
      Returns I (body s) (Pass.Meets (fun s' ↦ J s' ∧ variant s' < variant s) Q))
    {fuel : ℕ} {s : σ} (hs : J s) (hfuel : variant s < fuel) :
    Returns I (Lib.loop outOfFuel body fuel s) Q := by
  induction fuel generalizing s with
  | zero => exact absurd hfuel (Nat.not_lt_zero _)
  | succ fuel ih =>
    refine (hbody s hs).bind fun pass hpass ↦ ?_
    cases pass with
    | again s' =>
      obtain ⟨hs', hlt⟩ := hpass
      exact ih hs' (by omega)
    | done b => exact pure hpass

end Returns

end Conjectures.Lib
