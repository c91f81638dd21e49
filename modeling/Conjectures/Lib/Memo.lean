import Mathlib.Logic.Basic

/-!
# Computations with a memo

A computation that may refuse and looks results up in a memo.  What was stored stays where it
refuses.  `Computes I c v`: from every memo that is sound, `c` has the result `v`, whatever was
computed before, and leaves a sound memo.
-/

namespace Conjectures.Lib

universe u

variable {σ ε α β : Type u}

/-- Computations over memos `σ`, with refusals `ε`. -/
abbrev Memo (σ ε : Type u) := ExceptT ε (StateM σ)

/-- The result, and the memo that is left. -/
def Memo.outcome (c : Memo σ ε α) (s : σ) : Except ε α × σ := (ExceptT.run c).run s

/-- Computations one after the other, each from the memo the one before it left. -/
def Memo.results (f : α → Memo σ ε β) : List α → σ → List (Except ε β)
  | [], _ => []
  | a :: as, s => ((f a).outcome s).1 :: Memo.results f as ((f a).outcome s).2

/-- What the memo has, or what is computed and then stored. -/
def memoised (find : σ → Option α) (store : α → σ → σ) (c : Memo σ ε α) : Memo σ ε α := do
  match find (← get) with
  | some a => return a
  | none =>
    let a ← c
    modify (store a)
    return a

/-- From a sound memo, `c` has this result and leaves a sound memo. -/
def Computes (I : σ → Prop) (c : Memo σ ε α) (v : Except ε α) : Prop :=
  ∀ s, I s → (c.outcome s).1 = v ∧ I (c.outcome s).2

namespace Computes

variable {I : σ → Prop}

theorem pure (a : α) : Computes I (Pure.pure a : Memo σ ε α) (.ok a) := fun _ hs ↦ ⟨rfl, hs⟩

/-- What uses no memo. -/
theorem lift (v : Except ε α) : Computes I (liftM v : Memo σ ε α) v := fun _ hs ↦ ⟨rfl, hs⟩

theorem bind {c : Memo σ ε α} {f : α → Memo σ ε β} {v : Except ε α} {g : α → Except ε β}
    (hc : Computes I c v) (hf : ∀ a, v = .ok a → Computes I (f a) (g a)) :
    Computes I (c >>= f) (v >>= g) := by
  intro s hs
  obtain ⟨hv, hs'⟩ := hc s hs
  have hrun : (c >>= f).outcome s = match c.outcome s with
      | (.ok a, s') => (f a).outcome s'
      | (.error e, s') => (.error e, s') := by
    change StateT.run (ExceptT.bindCont f (c.outcome s).1) (c.outcome s).2 = _
    rcases c.outcome s with ⟨_ | _, _⟩ <;> rfl
  rw [hrun]
  rcases hcs : c.outcome s with ⟨a, s'⟩
  rw [hcs] at hv hs'
  obtain rfl : a = v := hv
  cases a with
  | error e => exact ⟨rfl, hs'⟩
  | ok a => exact hf a rfl s' hs'

/-- A loop over a list computes the loop of what its passes compute. -/
theorem foldlM {f : β → α → Memo σ ε β} {g : β → α → Except ε β}
    (hf : ∀ b a, Computes I (f b a) (g b a)) (as : List α) (b : β) :
    Computes I (as.foldlM f b) (as.foldlM g b) := by
  induction as generalizing b with
  | nil => exact pure b
  | cons a as ih =>
    rw [List.foldlM_cons, List.foldlM_cons]
    exact (hf b a).bind fun b' _ ↦ ih b'

/-- The rule of the memo: what is found is the result, and the result may be stored. -/
theorem memoised {find : σ → Option α} {store : α → σ → σ} {c : Memo σ ε α} {v : Except ε α}
    (hfind : ∀ s a, I s → find s = some a → v = .ok a) (hc : Computes I c v)
    (hstore : ∀ s a, I s → v = .ok a → I (store a s)) :
    Computes I (memoised find store c) v := by
  intro s hs
  have hrun : (Lib.memoised find store c).outcome s = match find s with
      | some a => (.ok a, s)
      | none => match c.outcome s with
        | (.ok a, s') => (.ok a, store a s')
        | (.error e, s') => (.error e, s') := by
    change (ExceptT.run (match find s with
      | some a => Pure.pure a
      | none => c >>= fun a ↦ modify (store a) >>= fun _ ↦ Pure.pure a)).run s = _
    cases find s with
    | some a => rfl
    | none =>
      change StateT.run (m := Id) (ExceptT.bindCont
        (fun a ↦ (modify (store a) >>= fun _ ↦ Pure.pure a : Memo σ ε α)) (c.outcome s).1)
        (c.outcome s).2 = _
      rcases c.outcome s with ⟨_ | _, _⟩ <;> rfl
  rw [hrun]
  cases hfound : find s with
  | some a => exact ⟨(hfind s a hs hfound).symm, hs⟩
  | none =>
    obtain ⟨hv, hs'⟩ := hc s hs
    rcases hcs : c.outcome s with ⟨a, s'⟩
    rw [hcs] at hv hs'
    obtain rfl : a = v := hv
    cases a with
    | error e => exact ⟨rfl, hs'⟩
    | ok a => exact ⟨rfl, hstore s' a hs' rfl⟩

/-- One after the other, in any order: each has its result. -/
theorem results {f : α → Memo σ ε β} {g : α → Except ε β} (hf : ∀ a, Computes I (f a) (g a))
    (as : List α) {s : σ} (hs : I s) : Memo.results f as s = as.map g := by
  induction as generalizing s with
  | nil => rfl
  | cons a as ih =>
    obtain ⟨hv, hs'⟩ := hf a s hs
    rw [Memo.results, List.map_cons, hv, ih hs']

end Computes

end Conjectures.Lib
