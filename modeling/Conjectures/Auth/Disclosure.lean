import Conjectures.Auth.Password

/-!
# What wrong passwords tell

The window counts failures of every address and forgets each after its width; the row counts
failures of an account and forgets none until it pauses.  As long as an account is only paused
while the window refuses too, wrong passwords are answered as if there were no account.
-/

namespace Conjectures.Auth

open Lib Db SlidingWindowLimiter

/-! ## One address -/

/-- What the answers to wrong passwords depend on: the failures of the address that the process
has on record, and its account. -/
structure Guard where
  hits : List Instant
  account : Option AuthAccount

/-- A wrong password at a time. -/
def Guard.answer (cfg : AuthSettings) (g : Guard) (t : Instant) : LoginResponse × Guard :=
  let hits := prune (t - cfg.throttle) g.hits
  if hits.length < cfg.passwordAttempts then
    match g.account with
    | none => (.invalid, ⟨hits ++ [t], none⟩)
    | some account =>
      match account.passwordHash with
      | none => (.invalid, ⟨hits ++ [t], some account⟩)
      | some _ =>
        match passwordPauseRemaining account t with
        | some remaining => (.tooManyAttempts (ceilSeconds remaining), ⟨hits, some account⟩)
        | none =>
          (.invalid, ⟨hits ++ [t], some (account.failed t cfg.passwordAttempts cfg.throttle)⟩)
  else (.tooManyAttempts (ceilPositive (hits.headD t + cfg.throttle - t)), { g with hits })

def Guard.answers (cfg : AuthSettings) : Guard → List Instant → List LoginResponse
  | _, [] => []
  | g, t :: ts => (g.answer cfg t).1 :: Guard.answers cfg (g.answer cfg t).2 ts

/-! ## When nothing is told -/

/-- Where an account with a password stands. -/
inductive Phase where
  /-- `left` more failures start a pause; a `full` block began with none on record, at
  `first` -/
  | counting (left : ℕ) (full : Bool) (first : Option Instant)
  /-- after a block: the window refuses up to one time, the account up to another -/
  | paused (refusing : Option Instant) (pausedUntil : Instant)

/-- After one more failure. -/
def Phase.after (throttle : ℤ) (left : ℕ) (full : Bool) (first : Option Instant) (t : Instant) :
    Phase :=
  if left ≤ 1 then
    .paused (if full then some (first.getD t + throttle) else none) (t + throttle)
  else .counting (left - 1) full (some (first.getD t))

/-- No attempt comes between the time the window forgets the first failure of a block and the
end of the pause the last one started. -/
def Quiet (attempts : ℕ) (throttle : ℤ) : Phase → List Instant → Prop
  | _, [] => True
  | .counting left full first, t :: ts =>
    Quiet attempts throttle (.after throttle left full first t) ts
  | .paused refusing pausedUntil, t :: ts =>
    if ∃ r ∈ refusing, t < r then Quiet attempts throttle (.paused refusing pausedUntil) ts
    else pausedUntil ≤ t ∧ Quiet attempts throttle (.after throttle attempts true none t) ts

instance Quiet.decidable (attempts : ℕ) (throttle : ℤ) :
    ∀ (φ : Phase) (ts : List Instant), Decidable (Quiet attempts throttle φ ts)
  | _, [] => inferInstanceAs (Decidable True)
  | .counting left full first, t :: ts =>
    Quiet.decidable attempts throttle (.after throttle left full first t) ts
  | .paused refusing pausedUntil, t :: ts =>
    have := Quiet.decidable attempts throttle (.paused refusing pausedUntil) ts
    have := Quiet.decidable attempts throttle (.after throttle attempts true none t) ts
    inferInstanceAs (Decidable (if ∃ r ∈ refusing, t < r then _ else _))

/-- Where an account starts, with the failures already on its row. -/
def Phase.start (attempts : ℕ) (a : AuthAccount) : Phase :=
  let left := max 1 (attempts - a.failedPasswordAttempts)
  .counting left (left = attempts) none

/-- The condition on the times of the attempts, for an address with this account. -/
def TellsNothing (cfg : AuthSettings) (account : Option AuthAccount) (ts : List Instant) : Prop :=
  ∀ a ∈ account, a.passwordHash.isSome →
    (∀ u ∈ a.passwordThrottledUntil, ∀ t ∈ ts, u ≤ t) ∧
      Quiet cfg.passwordAttempts cfg.throttle (.start cfg.passwordAttempts a) ts

instance TellsNothing.decidable (cfg : AuthSettings) :
    ∀ (account : Option AuthAccount) (ts : List Instant), Decidable (TellsNothing cfg account ts)
  | none, _ => isTrue fun _ ha ↦ nomatch ha
  | some a, ts =>
    decidable_of_iff (a.passwordHash.isSome →
      (∀ u ∈ a.passwordThrottledUntil, ∀ t ∈ ts, u ≤ t) ∧
        Quiet cfg.passwordAttempts cfg.throttle (.start cfg.passwordAttempts a) ts)
      ⟨fun h _ hb ↦ Option.some.inj hb ▸ h, fun h ↦ h a rfl⟩

/-! ## An account beside none -/

section Beside

variable {cfg : AuthSettings} {account : AuthAccount} {h b : List Instant} {now t : Instant}

/-- What the window shows of the address from a time on are the failures of one block. -/
structure Block (throttle : ℤ) (h b : List Instant) (now : Instant) : Prop where
  sorted : b.Pairwise (· ≤ ·)
  past : ∀ x ∈ b, x ≤ now
  seen : ∀ t, now ≤ t → prune (t - throttle) h = prune (t - throttle) b

theorem Block.mono {throttle : ℤ} (hb : Block throttle h b now) (hle : now ≤ t) :
    Block throttle h b t where
  sorted := hb.sorted
  past := fun x hx ↦ (hb.past x hx).trans hle
  seen := fun t' ht ↦ hb.seen t' (hle.trans ht)

/-- The window may be pruned meanwhile. -/
theorem Block.prune {throttle : ℤ} (hb : Block throttle h b now) (hle : now ≤ t) :
    Block throttle (prune (t - throttle) h) b t where
  sorted := hb.sorted
  past := (hb.mono hle).past
  seen := fun t' ht ↦ by
    rw [prune_prune (Int.sub_le_sub_right ht _), hb.seen t' (hle.trans ht)]

/-- One more failure. -/
theorem Block.snoc {throttle : ℤ} (hb : Block throttle h b now) (hle : now ≤ t) :
    Block throttle (SlidingWindowLimiter.prune (t - throttle) h ++ [t]) (b ++ [t]) t where
  sorted := by
    rw [List.pairwise_append]
    refine ⟨hb.sorted, List.pairwise_singleton _ _, fun x hx y hy ↦ ?_⟩
    rw [List.mem_singleton.mp hy]
    exact (hb.mono hle).past x hx
  past := fun x hx ↦ by
    rcases List.mem_append.mp hx with hx | hx
    · exact (hb.mono hle).past x hx
    · rw [List.mem_singleton.mp hx]
  seen := fun t' ht ↦ by
    by_cases hin : t' - throttle < t
    · rw [prune_append hin, prune_append hin, (hb.prune hle).seen t' ht]
    · have hold : ∀ x ∈ b, x ≤ t' - throttle := fun x hx ↦
        ((hb.mono hle).past x hx).trans (not_lt.mp hin)
      have hnew : ∀ x ∈ [t], x ≤ t' - throttle := fun x hx ↦ by
        rw [List.mem_singleton.mp hx]
        exact not_lt.mp hin
      have hh : ∀ x ∈ SlidingWindowLimiter.prune (t - throttle) h, x ≤ t' - throttle := by
        rw [hb.seen t hle]
        exact fun x hx ↦ hold x (prune_sublist.subset hx)
      rw [prune_eq_nil fun x hx ↦ (List.mem_append.mp hx).elim (hh x) (hnew x),
        prune_eq_nil fun x hx ↦ (List.mem_append.mp hx).elim (hold x) (hnew x)]

/-- The account is where a phase says, and the window beside it. -/
def Phase.Holds (cfg : AuthSettings) (account : AuthAccount) (h b : List Instant)
    (now : Instant) : Phase → Prop
  | .counting left full first =>
    Block cfg.throttle h b now ∧ b.head? = first ∧
      left = max 1 (cfg.passwordAttempts - account.failedPasswordAttempts) ∧
      (∀ t, now ≤ t → passwordPauseRemaining account t = none) ∧
      if full then b.length + left = cfg.passwordAttempts
      else b.length + left < cfg.passwordAttempts
  | .paused refusing pausedUntil =>
    Block cfg.throttle h b now ∧ (∀ x ∈ b, x ≤ pausedUntil - cfg.throttle) ∧
      account.passwordThrottledUntil = some pausedUntil ∧ account.failedPasswordAttempts = 0 ∧
      match refusing with
      | some r => b.length = cfg.passwordAttempts ∧ ∃ x, b.head? = some x ∧ x + cfg.throttle = r
      | none => b.length < cfg.passwordAttempts

/-! ### One attempt -/

theorem answer_full {g : Guard}
    (hfull : cfg.passwordAttempts ≤ (prune (t - cfg.throttle) g.hits).length) :
    g.answer cfg t =
      (.tooManyAttempts
        (ceilPositive ((prune (t - cfg.throttle) g.hits).headD t + cfg.throttle - t)),
        ⟨prune (t - cfg.throttle) g.hits, g.account⟩) := by
  unfold Guard.answer
  rw [if_neg (not_lt.mpr hfull)]

theorem answer_none (hroom : (prune (t - cfg.throttle) h).length < cfg.passwordAttempts) :
    Guard.answer cfg ⟨h, none⟩ t = (.invalid, ⟨prune (t - cfg.throttle) h ++ [t], none⟩) := by
  unfold Guard.answer
  rw [if_pos hroom]

theorem answer_wrong (hroom : (prune (t - cfg.throttle) h).length < cfg.passwordAttempts)
    (hhash : account.passwordHash.isSome) (hpause : passwordPauseRemaining account t = none) :
    Guard.answer cfg ⟨h, some account⟩ t =
      (.invalid, ⟨prune (t - cfg.throttle) h ++ [t],
        some (account.failed t cfg.passwordAttempts cfg.throttle)⟩) := by
  obtain ⟨hash, hhash⟩ := Option.isSome_iff_exists.mp hhash
  simp only [Guard.answer, if_pos hroom, hhash, hpause]

theorem answer_paused (hroom : (prune (t - cfg.throttle) h).length < cfg.passwordAttempts)
    (hhash : account.passwordHash.isSome) {remaining : ℤ}
    (hpause : passwordPauseRemaining account t = some remaining) :
    (Guard.answer cfg ⟨h, some account⟩ t).1 = .tooManyAttempts (ceilSeconds remaining) := by
  obtain ⟨hash, hhash⟩ := Option.isSome_iff_exists.mp hhash
  simp only [Guard.answer, if_pos hroom, hhash, hpause]

@[simp] theorem answer_hash (g : Guard) (t : Instant) :
    (g.answer cfg t).2.account.bind AuthAccount.passwordHash =
      g.account.bind AuthAccount.passwordHash := by
  unfold Guard.answer
  dsimp only
  split
  · split
    · rename_i hnone
      rw [hnone]
    · rename_i account haccount
      rw [haccount]
      split
      · rfl
      · split
        · rfl
        · exact account.failed_passwordHash t cfg.passwordAttempts cfg.throttle
  · rfl

theorem passwordPauseRemaining_of_le {pausedUntil : Instant}
    (hpause : account.passwordThrottledUntil = some pausedUntil) (hle : pausedUntil ≤ t) :
    passwordPauseRemaining account t = none := by
  unfold passwordPauseRemaining
  rw [hpause]
  exact if_neg (not_lt.mpr (Int.sub_nonpos_of_le hle))

theorem passwordPauseRemaining_of_lt {pausedUntil : Instant}
    (hpause : account.passwordThrottledUntil = some pausedUntil) (hlt : t < pausedUntil) :
    passwordPauseRemaining account t = some (pausedUntil - t) := by
  unfold passwordPauseRemaining
  rw [hpause]
  exact if_pos (Int.sub_pos_of_lt hlt)

/-- While failures are counted the window has room, and the account takes the attempt. -/
theorem counting_room {left : ℕ} {full : Bool} {first : Option Instant}
    (hholds : (Phase.counting left full first).Holds cfg account h b now) (hle : now ≤ t) :
    (prune (t - cfg.throttle) h).length < cfg.passwordAttempts ∧
      passwordPauseRemaining account t = none := by
  obtain ⟨hblock, -, hleft, hpause, hlength⟩ := hholds
  refine ⟨?_, hpause t hle⟩
  have hpos : 1 ≤ left := hleft ▸ le_max_left _ _
  have hsub : (prune (t - cfg.throttle) b).length ≤ b.length := prune_sublist.length_le
  rw [hblock.seen t hle]
  split at hlength <;> omega

theorem counting_step {left : ℕ} {full : Bool} {first : Option Instant}
    (hholds : (Phase.counting left full first).Holds cfg account h b now) (hle : now ≤ t) :
    (Phase.after cfg.throttle left full first t).Holds cfg
      (account.failed t cfg.passwordAttempts cfg.throttle)
      (prune (t - cfg.throttle) h ++ [t]) (b ++ [t]) t := by
  obtain ⟨hblock, hfirst, hleft, hpause, hlength⟩ := hholds
  have hblock' := hblock.snoc hle
  have hhead : (b ++ [t]).head? = some (first.getD t) := by
    rw [← hfirst]
    cases b <;> rfl
  have hlen : (b ++ [t]).length = b.length + 1 := by simp
  unfold Phase.after
  split
  · -- the last failure of the block starts the pause
    rename_i hlast
    have hfailed : account.failed t cfg.passwordAttempts cfg.throttle =
        { account with
          failedPasswordAttempts := 0, passwordThrottledUntil := some (t + cfg.throttle) } :=
      if_pos (by omega)
    refine ⟨hblock', fun x hx ↦ ?_, by rw [hfailed], by rw [hfailed], ?_⟩
    · rw [Int.add_sub_cancel]
      exact hblock'.past x hx
    · cases full with
      | true =>
        refine ⟨?_, _, hhead, rfl⟩
        simp only [if_true] at hlength
        omega
      | false =>
        simp only [Bool.false_eq_true, if_false] at hlength ⊢
        omega
  · rename_i hmore
    have hfailed : account.failed t cfg.passwordAttempts cfg.throttle =
        { account with failedPasswordAttempts := account.failedPasswordAttempts + 1 } :=
      if_neg (by omega)
    refine ⟨hblock', hhead, ?_, fun t' ht ↦ ?_, ?_⟩
    · rw [hfailed]
      dsimp only
      omega
    · rw [hfailed]
      exact hpause t' (hle.trans ht)
    · cases full with
      | true =>
        simp only [if_true] at hlength ⊢
        omega
      | false =>
        simp only [Bool.false_eq_true, if_false] at hlength ⊢
        omega

/-- Before the window forgets the first failure of a full block, it refuses. -/
theorem paused_full {r pausedUntil : Instant}
    (hholds : (Phase.paused (some r) pausedUntil).Holds cfg account h b now) (hle : now ≤ t)
    (hlt : t < r) : cfg.passwordAttempts ≤ (prune (t - cfg.throttle) h).length := by
  obtain ⟨hblock, -, -, -, hlength, x, hhead, hx⟩ := hholds
  rw [hblock.seen t hle, prune_eq_self fun y hy ↦ ?_, hlength]
  rw [hhead] at hy
  cases hy
  rw [← hx] at hlt
  exact Int.sub_right_lt_of_lt_add hlt

theorem paused_mono {refusing : Option Instant} {pausedUntil : Instant}
    (hholds : (Phase.paused refusing pausedUntil).Holds cfg account h b now) (hle : now ≤ t) :
    (Phase.paused refusing pausedUntil).Holds cfg account (prune (t - cfg.throttle) h) b t :=
  ⟨hholds.1.prune hle, hholds.2⟩

/-- After that it has room again. -/
theorem paused_room {refusing : Option Instant} {pausedUntil : Instant}
    (hholds : (Phase.paused refusing pausedUntil).Holds cfg account h b now) (hle : now ≤ t)
    (hnot : ¬ ∃ r ∈ refusing, t < r) :
    (prune (t - cfg.throttle) h).length < cfg.passwordAttempts := by
  obtain ⟨hblock, -, -, -, hlength⟩ := hholds
  rw [hblock.seen t hle]
  cases refusing with
  | none => exact lt_of_le_of_lt prune_sublist.length_le hlength
  | some r =>
    obtain ⟨hlength, x, hhead, hx⟩ := hlength
    obtain ⟨rest, rfl⟩ : ∃ rest, b = x :: rest := by
      cases b with
      | nil => cases hhead
      | cons y rest => cases hhead; exact ⟨rest, rfl⟩
    have hold : x ≤ t - cfg.throttle := by
      have hle' : r ≤ t := not_lt.mp fun hlt ↦ hnot ⟨r, rfl, hlt⟩
      rw [← hx] at hle'
      exact Int.le_sub_right_of_add_le hle'
    have hdrop : prune (t - cfg.throttle) (x :: rest) = prune (t - cfg.throttle) rest := by
      simp [prune, hold]
    have hsub : (prune (t - cfg.throttle) rest).length ≤ rest.length := prune_sublist.length_le
    rw [hdrop, ← hlength]
    exact Nat.lt_succ_of_le hsub

/-- Once the pause is over every failure is forgotten, and counting begins anew. -/
theorem paused_over {refusing : Option Instant} {pausedUntil : Instant}
    (hholds : (Phase.paused refusing pausedUntil).Holds cfg account h b now) (hle : now ≤ t)
    (hover : pausedUntil ≤ t) :
    (Phase.counting cfg.passwordAttempts true none).Holds cfg account h [] t := by
  obtain ⟨hblock, hold, hpause, hzero, -⟩ := hholds
  have hpos := cfg.passwordAttempts_pos
  refine ⟨⟨List.Pairwise.nil, fun x hx ↦ (nomatch hx), fun t' ht ↦ ?_⟩, rfl, ?_, fun t' ht ↦
    passwordPauseRemaining_of_le hpause (hover.trans ht), by simp⟩
  · rw [hblock.seen t' (hle.trans ht), prune_nil]
    refine prune_eq_nil fun x hx ↦ (hold x hx).trans ?_
    exact Int.sub_le_sub_right (hover.trans ht) _
  · rw [hzero]
    omega

/-! ### Every sequence of attempts -/

theorem answers_cons (g : Guard) (t : Instant) (ts : List Instant) :
    Guard.answers cfg g (t :: ts) =
      (g.answer cfg t).1 :: Guard.answers cfg (g.answer cfg t).2 ts := rfl

/-- The account answers as none would as long as the attempts are quiet, and no longer. -/
theorem answers_eq_iff_quiet {ts : List Instant} {φ : Phase}
    (hholds : φ.Holds cfg account h b now) (hhash : account.passwordHash.isSome)
    (hsorted : (now :: ts).Pairwise (· ≤ ·)) :
    Guard.answers cfg ⟨h, some account⟩ ts = Guard.answers cfg ⟨h, none⟩ ts ↔
      Quiet cfg.passwordAttempts cfg.throttle φ ts := by
  induction ts generalizing φ account h b now with
  | nil => simp [Guard.answers, Quiet]
  | cons t ts ih =>
    obtain ⟨hnow, htail⟩ := List.pairwise_cons.mp hsorted
    have hle : now ≤ t := hnow t List.mem_cons_self
    have hcounted : ∀ {b left full first now},
        (Phase.counting left full first).Holds cfg account h b now → now ≤ t →
        (Guard.answers cfg ⟨h, some account⟩ (t :: ts) = Guard.answers cfg ⟨h, none⟩ (t :: ts) ↔
          Quiet cfg.passwordAttempts cfg.throttle (.after cfg.throttle left full first t) ts) := by
      intro b left full first now hcounting hle
      obtain ⟨hroom, hpause⟩ := counting_room hcounting hle
      rw [answers_cons, answers_cons, answer_none hroom, answer_wrong hroom hhash hpause,
        List.cons.injEq, and_iff_right rfl]
      exact ih (counting_step hcounting hle) (by rwa [AuthAccount.failed_passwordHash]) htail
    cases φ with
    | counting left full first => exact hcounted hholds hle
    | paused refusing pausedUntil =>
      unfold Quiet
      split
      · rename_i hrefusing
        obtain ⟨r, rfl, hlt⟩ := hrefusing
        have hfull := paused_full hholds hle hlt
        rw [answers_cons, answers_cons, @answer_full cfg t ⟨h, some account⟩ hfull,
          @answer_full cfg t ⟨h, none⟩ hfull, List.cons.injEq, and_iff_right rfl]
        exact ih (paused_mono hholds hle) hhash htail
      · rename_i hnot
        have hroom := paused_room hholds hle hnot
        by_cases hover : pausedUntil ≤ t
        · rw [and_iff_right hover]
          exact hcounted (paused_over hholds hle hover) le_rfl
        · have hpause := passwordPauseRemaining_of_lt hholds.2.2.1 (not_le.mp hover)
          rw [answers_cons, answers_cons, answer_none hroom, List.cons.injEq,
            answer_paused hroom hhash hpause]
          simp [hover]

end Beside

/-- An account without a password answers as none would. -/
theorem answers_without_password {cfg : AuthSettings} {account : AuthAccount}
    (hhash : account.passwordHash = none) (h : List Instant) (ts : List Instant) :
    Guard.answers cfg ⟨h, some account⟩ ts = Guard.answers cfg ⟨h, none⟩ ts := by
  induction ts generalizing h with
  | nil => rfl
  | cons t ts ih =>
    rw [answers_cons, answers_cons]
    by_cases hroom : (prune (t - cfg.throttle) h).length < cfg.passwordAttempts
    · have hinvalid : Guard.answer cfg ⟨h, some account⟩ t =
          (.invalid, ⟨prune (t - cfg.throttle) h ++ [t], some account⟩) := by
        simp only [Guard.answer, if_pos hroom, hhash]
      rw [hinvalid, answer_none hroom, ih]
    · have hfull := not_lt.mp hroom
      rw [@answer_full cfg t ⟨h, some account⟩ hfull, @answer_full cfg t ⟨h, none⟩ hfull, ih]

/-- An account starts out counting, unless it starts out paused. -/
theorem start_holds {cfg : AuthSettings} {account : AuthAccount} {now : Instant}
    (hpause : ∀ u ∈ account.passwordThrottledUntil, u ≤ now) :
    (Phase.start cfg.passwordAttempts account).Holds cfg account [] [] now := by
  have hpos := cfg.passwordAttempts_pos
  refine ⟨⟨List.Pairwise.nil, fun x hx ↦ (nomatch hx), fun t ht ↦ rfl⟩, rfl, rfl,
    fun t ht ↦ ?_, ?_⟩
  · cases hu : account.passwordThrottledUntil with
    | none => simp [passwordPauseRemaining, hu]
    | some u => exact passwordPauseRemaining_of_le hu ((hpause u hu).trans ht)
  · rw [List.length_nil]
    split
    · rename_i hfull
      rw [decide_eq_true_eq] at hfull
      omega
    · rename_i hfull
      rw [decide_eq_true_eq] at hfull
      omega

/-- From no failure in the window, the answers to wrong passwords are those without an account
exactly when the times tell nothing. -/
theorem answers_eq_iff_tellsNothing {cfg : AuthSettings} {account : Option AuthAccount}
    {ts : List Instant} (hsorted : ts.Pairwise (· ≤ ·)) :
    Guard.answers cfg ⟨[], account⟩ ts = Guard.answers cfg ⟨[], none⟩ ts ↔
      TellsNothing cfg account ts := by
  unfold TellsNothing
  cases account with
  | none => simp
  | some account =>
    simp only [Option.mem_def, Option.some.injEq, forall_eq']
    cases hhash : account.passwordHash with
    | none => simp [answers_without_password hhash]
    | some hash =>
      have hsome : account.passwordHash.isSome := by rw [hhash]; rfl
      rw [Option.isSome_some, forall_prop_of_true rfl]
      cases ts with
      | nil => simp [Guard.answers, Quiet]
      | cons t ts =>
        have hsorted' : (t :: t :: ts).Pairwise (· ≤ ·) :=
          List.pairwise_cons.mpr ⟨fun x hx ↦ (List.mem_cons.mp hx).elim (fun h ↦ h ▸ le_rfl)
            ((List.pairwise_cons.mp hsorted).1 x), hsorted⟩
        by_cases hpause : ∀ u ∈ account.passwordThrottledUntil, u ≤ t
        · have hall : ∀ u, account.passwordThrottledUntil = some u → ∀ x ∈ t :: ts, u ≤ x :=
            fun u hu x hx ↦ (hpause u hu).trans ((List.pairwise_cons.mp hsorted').1 x hx)
          rw [answers_eq_iff_quiet (start_holds hpause) hsome hsorted']
          exact ⟨fun h ↦ ⟨hall, h⟩, And.right⟩
        · -- the pause that was carried over answers the first attempt
          push Not at hpause
          obtain ⟨u, hu, hlt⟩ := hpause
          have hroom : (prune (t - cfg.throttle) []).length < cfg.passwordAttempts :=
            cfg.passwordAttempts_pos
          rw [answers_cons, answers_cons, answer_none hroom, List.cons.injEq,
            answer_paused hroom hsome (passwordPauseRemaining_of_lt hu hlt)]
          constructor
          · rintro ⟨h, -⟩
            cases h
          · rintro ⟨h, -⟩
            exact absurd hlt (not_lt.mpr (h u hu t List.mem_cons_self))

end Conjectures.Auth
