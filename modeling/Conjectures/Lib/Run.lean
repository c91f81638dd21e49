import Mathlib.Data.List.Basic

/-!
# Runs of a step function

A system is given by its states and a function `step : σ → α → σ`.  The actions
carry every choice the system does not make itself (who moves, what a clock
reads, whether a call fails), so a run is a fold over a list of actions and "for
every interleaving" is a quantifier over lists.

A few rules are used by everything above: an invariant of one step holds along a
run (`run_invariant`), the same for runs whose steps all meet a condition on the
state they start from (`Each.invariant`, `Each.imp`), and a preorder that one step
respects relates the two ends of a run (`run_preorder`).  `run_simulates` carries a run of
one system to a run of another.
-/

universe u v w

namespace Conjectures.Lib

variable {σ : Type u} {α : Type v} {τ : Type w} {β : Type*}

/-- The state a list of actions ends in. -/
def run (step : σ → α → σ) (s : σ) (as : List α) : σ := as.foldl step s

@[simp] theorem run_nil (step : σ → α → σ) (s : σ) : run step s [] = s := rfl

@[simp] theorem run_cons (step : σ → α → σ) (s : σ) (a : α) (as : List α) :
    run step s (a :: as) = run step (step s a) as := rfl

@[simp] theorem run_append (step : σ → α → σ) (s : σ) (as bs : List α) :
    run step s (as ++ bs) = run step (run step s as) bs :=
  List.foldl_append

/-- Every action meets `ok` in the state it is taken from. -/
def Each (step : σ → α → σ) (ok : σ → α → Prop) : σ → List α → Prop
  | _, [] => True
  | s, a :: as => ok s a ∧ Each step ok (step s a) as

instance Each.decidable (step : σ → α → σ) (ok : σ → α → Prop) [∀ s a, Decidable (ok s a)] :
    (s : σ) → (as : List α) → Decidable (Each step ok s as)
  | _, [] => isTrue trivial
  | s, a :: as =>
    have := Each.decidable step ok (step s a) as
    inferInstanceAs (Decidable (ok s a ∧ Each step ok (step s a) as))

theorem each_append {step : σ → α → σ} {ok : σ → α → Prop} {s : σ} {as bs : List α} :
    Each step ok s (as ++ bs) ↔ Each step ok s as ∧ Each step ok (run step s as) bs := by
  induction as generalizing s with
  | nil => simp [Each]
  | cons a as ih => rw [List.cons_append, Each, Each, ih, run_cons, and_assoc]

section Rules

variable {step : σ → α → σ}

/-- What one step preserves, a run preserves. -/
theorem run_invariant {Inv : σ → Prop} (hstep : ∀ s a, Inv s → Inv (step s a))
    {s : σ} (hs : Inv s) (as : List α) : Inv (run step s as) := by
  induction as generalizing s with
  | nil => exact hs
  | cons a as ih => exact ih (hstep s a hs)

/-- What every step that meets the condition preserves, a run of such steps
preserves. -/
theorem Each.invariant {ok : σ → α → Prop} {Inv : σ → Prop}
    (hstep : ∀ s a, ok s a → Inv s → Inv (step s a))
    {s : σ} {as : List α} (has : Each step ok s as) (hs : Inv s) : Inv (run step s as) := by
  induction as generalizing s with
  | nil => exact hs
  | cons a as ih => exact ih has.2 (hstep s a has.1 hs)

/-- What holds of every step that meets the condition where the invariant does holds of
each step of such a run. -/
theorem Each.imp {ok P : σ → α → Prop} {Inv : σ → Prop}
    (hstep : ∀ s a, ok s a → Inv s → Inv (step s a)) (hP : ∀ s a, ok s a → Inv s → P s a)
    {s : σ} {as : List α} (has : Each step ok s as) (hs : Inv s) : Each step P s as := by
  induction as generalizing s with
  | nil => trivial
  | cons a as ih => exact ⟨hP s a has.1 hs, ih has.2 (hstep s a has.1 hs)⟩

/-- A run of steps that meet a condition meets a weaker one. -/
theorem Each.mono {ok P : σ → α → Prop} (h : ∀ s a, ok s a → P s a) {s : σ} {as : List α}
    (has : Each step ok s as) : Each step P s as := by
  induction as generalizing s with
  | nil => trivial
  | cons a as ih => exact ⟨h s a has.1, ih has.2⟩

/-- What is asked of every action can be asked along the run. -/
theorem Each.and_forall {ok : σ → α → Prop} {Q : α → Prop} {s : σ} {as : List α}
    (has : Each step ok s as) (h : ∀ a ∈ as, Q a) :
    Each step (fun s a ↦ ok s a ∧ Q a) s as := by
  induction as generalizing s with
  | nil => trivial
  | cons a as ih =>
    exact ⟨⟨has.1, h a List.mem_cons_self⟩, ih has.2 fun b hb ↦ h b (List.mem_cons_of_mem a hb)⟩

/-- What holds of every step where the invariant does holds of each step of a run. -/
theorem each_of_invariant {P : σ → α → Prop} {Inv : σ → Prop}
    (hstep : ∀ s a, Inv s → Inv (step s a)) (hP : ∀ s a, Inv s → P s a) {s : σ} (hs : Inv s)
    (as : List α) : Each step P s as := by
  induction as generalizing s with
  | nil => trivial
  | cons a as ih => exact ⟨hP s a hs, ih (hstep s a hs)⟩

/-- Along a run that keeps an invariant, the two ends are related by any preorder
each step respects where the invariant holds. -/
theorem run_preorder {Inv : σ → Prop} {R : σ → σ → Prop} (hrefl : ∀ s, R s s)
    (htrans : ∀ s t u, R s t → R t u → R s u)
    (hinv : ∀ s a, Inv s → Inv (step s a)) (hstep : ∀ s a, Inv s → R s (step s a))
    {s : σ} (hs : Inv s) (as : List α) : R s (run step s as) := by
  induction as generalizing s with
  | nil => exact hrefl s
  | cons a as ih => exact htrans _ _ _ (hstep s a hs) (ih (hinv s a hs))

/-- A map between states under which one step of the first system is some run of
the second carries every run of the first to a run of the second. -/
theorem run_simulates {step' : τ → β → τ} (abs : σ → τ)
    (hstep : ∀ s a, ∃ bs, abs (step s a) = run step' (abs s) bs)
    (s : σ) (as : List α) : ∃ bs, abs (run step s as) = run step' (abs s) bs := by
  induction as generalizing s with
  | nil => exact ⟨[], rfl⟩
  | cons a as ih =>
    obtain ⟨bs, hbs⟩ := hstep s a
    obtain ⟨cs, hcs⟩ := ih (step s a)
    exact ⟨bs ++ cs, by rw [run_cons, hcs, hbs, run_append]⟩

end Rules

end Conjectures.Lib
