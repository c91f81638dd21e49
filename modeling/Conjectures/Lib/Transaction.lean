import Mathlib.Data.List.Forall2

/-!
# Transactions that refuse

A database transaction reads and writes the state it was opened on and ends in
one of two ways.  Either it commits, with a result and the state its writes left,
or it refuses, and the state is the one it was opened on: a rollback discards
everything the transaction wrote.  `Txn` is that shape and `commit` is its effect
on the durable state.

Bodies are written in `Except`, threading the state by hand, so a reader sees
which version of the state each statement reads.  `bind_eq_ok` and
`require_eq_ok` take a body apart again: a transaction that committed passed each
of its checks.
-/

namespace Conjectures.Lib

universe u v w

variable {σ : Type u} {ε : Type v} {α β : Type w}

/-- A transaction over states `σ`, with refusals `ε` and results `α`. -/
abbrev Txn (σ : Type u) (ε : Type v) (α : Type w) := σ → Except ε (α × σ)

/-- The durable state after a transaction: its writes, or nothing. -/
def commit (t : Txn σ ε α) (s : σ) : σ :=
  match t s with
  | .ok r => r.2
  | .error _ => s

theorem commit_of_ok {t : Txn σ ε α} {s : σ} {r : α × σ} (h : t s = .ok r) :
    commit t s = r.2 := by simp only [commit, h]

theorem commit_of_error {t : Txn σ ε α} {s : σ} {e : ε} (h : t s = .error e) :
    commit t s = s := by simp only [commit, h]

/-- What holds of the state and of every state the transaction can commit holds
afterwards. -/
theorem commit_induction {t : Txn σ ε α} {s : σ} {P : σ → Prop} (hs : P s)
    (h : ∀ a s', t s = .ok (a, s') → P s') : P (commit t s) := by
  cases hr : t s with
  | ok r => rw [commit_of_ok hr]; exact h r.1 r.2 hr
  | error e => rw [commit_of_error hr]; exact hs

/-- Go on if the condition holds, refuse with `e` if not. -/
def require (c : Prop) [Decidable c] (e : ε) : Except ε Unit :=
  if c then .ok () else .error e

@[simp] theorem require_eq_ok {c : Prop} [Decidable c] {e : ε} {u : Unit} :
    require c e = .ok u ↔ c := by
  unfold require; split <;> simp_all

@[simp] theorem require_eq_error {c : Prop} [Decidable c] {e e' : ε} :
    require c e = .error e' ↔ ¬ c ∧ e = e' := by
  unfold require; split <;> simp_all

/-- A value, or a refusal where there is none. -/
def need (x : Option α) (e : ε) : Except ε α :=
  match x with
  | some a => .ok a
  | none => .error e

@[simp] theorem need_eq_ok {x : Option α} {e : ε} {a : α} : need x e = .ok a ↔ x = some a := by
  cases x <;> simp [need]

@[simp] theorem need_eq_error {x : Option α} {e e' : ε} :
    need x e = .error e' ↔ x = none ∧ e = e' := by
  cases x <;> simp [need]

/-- Renaming the refusals changes no success. -/
@[simp] theorem mapError_eq_ok {ε' : Type*} {x : Except ε α} {f : ε → ε'} {a : α} :
    x.mapError f = .ok a ↔ x = .ok a := by
  cases x <;> simp [Except.mapError]

@[simp] theorem map_eq_ok {x : Except ε α} {f : α → β} {b : β} :
    x.map f = .ok b ↔ ∃ a, x = .ok a ∧ f a = b := by
  cases x <;> simp [Except.map]

@[simp] theorem map_eq_error {x : Except ε α} {f : α → β} {e : ε} :
    x.map f = .error e ↔ x = .error e := by
  cases x <;> simp [Except.map]

/-- A sequence of two computations succeeds when both do. -/
@[simp] theorem bind_eq_ok {γ : Type w} {x : Except ε β} {f : β → Except ε γ} {c : γ} :
    (x >>= f) = .ok c ↔ ∃ b, x = .ok b ∧ f b = .ok c := by
  cases x with
  | ok b => simp [bind, Except.bind]
  | error e => simp [bind, Except.bind]

/-- A sequence goes on where its first half succeeded. -/
theorem bind_of_ok {γ : Type w} {x : Except ε β} {b : β} (h : x = .ok b) (f : β → Except ε γ) :
    (x >>= f) = f b := by
  rw [h]
  rfl

/-- It stops where its first half refused. -/
theorem bind_of_error {γ : Type w} {x : Except ε β} {e : ε} (h : x = .error e)
    (f : β → Except ε γ) : (x >>= f) = .error e := by
  rw [h]
  rfl

/-- A sequence refuses where its first half does, or where its second half does. -/
theorem bind_eq_error {γ : Type w} {x : Except ε β} {f : β → Except ε γ} {e : ε} :
    (x >>= f) = .error e ↔ x = .error e ∨ ∃ b, x = .ok b ∧ f b = .error e := by
  cases x with
  | ok b => simp [bind, Except.bind]
  | error e => simp [bind, Except.bind]

/-- A loop over a list succeeds when each of its passes does. -/
theorem mapM_eq_ok {f : α → Except ε β} {as : List α} {bs : List β} :
    as.mapM f = .ok bs ↔ List.Forall₂ (fun a b ↦ f a = .ok b) as bs := by
  induction as generalizing bs with
  | nil =>
    rw [List.mapM_nil, List.forall₂_nil_left_iff]
    exact ⟨fun h ↦ (Except.ok.inj h).symm, fun h ↦ congrArg _ h.symm⟩
  | cons a as ih =>
    rw [List.mapM_cons, List.forall₂_cons_left_iff]
    simp only [bind_eq_ok, ih, pure, Except.pure, Except.ok.injEq]
    constructor
    · rintro ⟨b, hb, bs', hbs, rfl⟩
      exact ⟨b, bs', hb, hbs, rfl⟩
    · rintro ⟨b, bs', hb, hbs, rfl⟩
      exact ⟨b, hb, bs', hbs, rfl⟩

theorem exists_mem_of_mapM {f : α → Except ε β} {as : List α} {bs : List β}
    (h : as.mapM f = .ok bs) {a : α} (ha : a ∈ as) : ∃ b ∈ bs, f a = .ok b := by
  induction mapM_eq_ok.mp h with
  | nil => cases ha
  | cons hab hrest ih =>
    rcases List.mem_cons.mp ha with rfl | ha
    · exact ⟨_, List.mem_cons_self, hab⟩
    · obtain ⟨b, hb, hf⟩ := ih (mapM_eq_ok.mpr hrest) ha
      exact ⟨b, List.mem_cons_of_mem _ hb, hf⟩

/-- The results of a loop are those of its passes. -/
theorem mem_mapM {f : α → Except ε β} {as : List α} {bs : List β} (h : as.mapM f = .ok bs)
    {b : β} : b ∈ bs ↔ ∃ a ∈ as, f a = .ok b := by
  induction mapM_eq_ok.mp h with
  | nil => simp
  | @cons a b' as bs hab hrest ih =>
    rw [List.mem_cons, ih (mapM_eq_ok.mpr hrest)]
    simp only [List.mem_cons, exists_eq_or_imp, hab, Except.ok.injEq]
    exact or_congr_left eq_comm

theorem exists_mapM {f : α → Except ε β} {as : List α} (h : ∀ a ∈ as, ∃ b, f a = .ok b) :
    ∃ bs, as.mapM f = .ok bs := by
  induction as with
  | nil => exact ⟨[], rfl⟩
  | cons a as ih =>
    obtain ⟨b, hb⟩ := h a List.mem_cons_self
    obtain ⟨bs, hbs⟩ := ih fun a ha ↦ h a (List.mem_cons_of_mem _ ha)
    exact ⟨b :: bs, mapM_eq_ok.mpr (.cons hb (mapM_eq_ok.mp hbs))⟩

/-- A loop over the same elements has the same results, however often and in whatever order. -/
theorem mapM_same {f : α → Except ε β} {as as' : List α} {bs : List β} (h : as.mapM f = .ok bs)
    (hsame : ∀ a, a ∈ as ↔ a ∈ as') : ∃ bs', as'.mapM f = .ok bs' ∧ ∀ b, b ∈ bs ↔ b ∈ bs' := by
  obtain ⟨bs', hbs'⟩ := @exists_mapM _ _ _ f as' fun a ha ↦ by
    obtain ⟨b, -, hb⟩ := exists_mem_of_mapM h ((hsame a).mpr ha)
    exact ⟨b, hb⟩
  refine ⟨bs', hbs', fun b ↦ ?_⟩
  rw [mem_mapM h, mem_mapM hbs']
  simp only [hsame]

end Conjectures.Lib
