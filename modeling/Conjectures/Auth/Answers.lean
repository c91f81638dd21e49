import Conjectures.Auth.Disclosure

/-!
# What the process answers

A process answers wrong passwords for an address as the guard of that address alone does,
whatever else it is asked meanwhile.  So the answers tell whether there is an account exactly
as far as the guard's do.
-/

namespace Conjectures.Auth

open Lib Db SlidingWindowLimiter

variable {cfg : AuthSettings} {key : String} {now t : Instant} {σ : Process} {g : Guard}
  {a : Attempt}

/-! ## Accounts under an update -/

/-- An update of an account leaves one of another address alone. -/
theorem accountAt_modify_of_ne {et : EmailText} {accounts : Table AuthAccount.id}
    {account : AuthAccount} (hmem : account ∈ accounts.rows) (hkey : account.emailIdx et ≠ some key)
    {f : AuthAccount → AuthAccount} (hf : ∀ x, (f x).id = x.id)
    (hemail : ∀ x, (f x).email = x.email) :
    ((accounts.modify account.id f hf).rows.find? fun x ↦ x.emailIdx et = some key) =
      accounts.rows.find? fun x ↦ x.emailIdx et = some key := by
  rw [Table.find?_rows_modify fun x ↦ by unfold AuthAccount.emailIdx; rw [hemail]]
  cases hfind : accounts.rows.find? fun x ↦ x.emailIdx et = some key with
  | none => rfl
  | some other =>
    have hother : other.emailIdx et = some key := by simpa using List.find?_some hfind
    have hne : other.id ≠ account.id := fun hid ↦ by
      rw [accounts.eq_of_key (List.mem_of_find?_eq_some hfind) hmem hid] at hother
      exact hkey hother
    rw [Option.map_some, if_neg hne]

/-- A failure counts on the account of the address. -/
theorem accountAt_recordPasswordFailure {et : EmailText} {db : AuthDatabase}
    {account : AuthAccount} (h : accountAt et db key = some account) (attempts : ℕ) (throttle : ℤ) :
    accountAt et (recordPasswordFailure db account.id now attempts throttle) key =
      some (account.failed now attempts throttle) := by
  unfold accountAt recordPasswordFailure at *
  dsimp only
  rw [Table.find?_rows_modify fun x ↦ by
    unfold AuthAccount.emailIdx; rw [AuthAccount.failed_email], h, Option.map_some, if_pos rfl]

/-! ## Other addresses -/

theorem accountAt_acceptPassword {hash : PasswordHash} {account : AuthAccount}
    (hmem : account ∈ σ.db.accounts.rows) (hkey : account.emailIdx cfg.emailText ≠ some key) :
    accountAt cfg.emailText (acceptPassword cfg σ account hash a).2.db key =
        accountAt cfg.emailText σ.db key ∧
      (acceptPassword cfg σ account hash a).2.failures = σ.failures := by
  unfold acceptPassword
  dsimp only
  split
  · rename_i db hdb
    have haccounts : db.accounts = (if cfg.needsRehash hash then
        rehashPassword σ.db account.id (cfg.hash a.password)
        else clearPasswordFailures σ.db account.id).accounts := accounts_signIn hdb
    refine ⟨?_, rfl⟩
    unfold accountAt
    rw [haccounts]
    split
    · exact accountAt_modify_of_ne hmem hkey (·.rehashed_id _) fun _ ↦ rfl
    · exact accountAt_modify_of_ne hmem hkey (·.cleared_id) fun _ ↦ rfl
  · exact ⟨rfl, rfl⟩

/-- A request for another address leaves the account alone, and asks the window about the
other address only. -/
theorem passwordLogin_other (hne : cfg.emailText.normaliseEmail a.email ≠ key) :
    accountAt cfg.emailText (passwordLogin cfg σ a).2.db key = accountAt cfg.emailText σ.db key ∧
      ((passwordLogin cfg σ a).2.failures =
          (σ.failures.peek (cfg.emailText.normaliseEmail a.email) a.now).2 ∨
        (passwordLogin cfg σ a).2.failures =
          (σ.failures.peek (cfg.emailText.normaliseEmail a.email) a.now).2.check
            (cfg.emailText.normaliseEmail a.email) a.now) := by
  unfold passwordLogin
  dsimp only
  split
  · split
    · exact ⟨rfl, Or.inr rfl⟩
    · rename_i account haccount
      have hmem : account ∈ σ.db.accounts.rows := List.mem_of_find?_eq_some haccount
      have hkey : account.emailIdx cfg.emailText ≠ some key := fun hk ↦ by
        have hown : account.emailIdx cfg.emailText =
            some (cfg.emailText.normaliseEmail a.email) := by
          simpa using List.find?_some haccount
        exact hne (Option.some.inj (hown.symm.trans hk))
      split
      · exact ⟨rfl, Or.inr rfl⟩
      · split
        · exact ⟨rfl, Or.inl rfl⟩
        · split
          · obtain ⟨haccount, hfailures⟩ := @accountAt_acceptPassword cfg key
              { σ with failures := (σ.failures.peek (cfg.emailText.normaliseEmail a.email) a.now).2 }
              a _ account hmem hkey
            exact ⟨haccount, Or.inl hfailures⟩
          · exact ⟨accountAt_modify_of_ne hmem hkey (·.failed_id _ _ _)
              fun x ↦ x.failed_email _ _ _, Or.inr rfl⟩
  · exact ⟨rfl, Or.inl rfl⟩

/-! ## The guard of an address -/

/-- What a process has of an address is what its guard has. -/
structure Sees (cfg : AuthSettings) (key : String) (now : Instant) (σ : Process) (g : Guard) :
    Prop where
  sound : σ.failures.Sound now
  limit : σ.failures.limit = cfg.passwordAttempts
  width : σ.failures.width = cfg.throttle
  window : ∀ t, now ≤ t → σ.failures.window key t = prune (t - cfg.throttle) g.hits
  account : accountAt cfg.emailText σ.db key = g.account

theorem sees_fresh (cfg : AuthSettings) (key : String) (now : Instant) (db : AuthDatabase) :
    Sees cfg key now (.fresh cfg db) ⟨[], accountAt cfg.emailText db key⟩ where
  sound := ⟨List.nodup_nil, fun _ hp ↦ (nomatch hp), fun _ hp ↦ (nomatch hp)⟩
  limit := rfl
  width := by
    unfold Process.fresh SlidingWindowLimiter.width AuthSettings.throttle
    push_cast
    rfl
  window := fun _ _ ↦ rfl
  account := rfl

/-- The window after a request of another address. -/
theorem Sees.other (h : Sees cfg key now σ g) (hle : now ≤ a.now)
    (hne : cfg.emailText.normaliseEmail a.email ≠ key) :
    Sees cfg key a.now (passwordLogin cfg σ a).2 g := by
  obtain ⟨haccount, hfailures⟩ := @passwordLogin_other cfg key σ a hne
  have hsound := @sound_peek σ.failures (cfg.emailText.normaliseEmail a.email) a.now
    (h.sound.mono hle)
  have hwindow : ∀ t, a.now ≤ t →
      (σ.failures.peek (cfg.emailText.normaliseEmail a.email) a.now).2.window key t =
        prune (t - cfg.throttle) g.hits := fun t ht ↦ by
    rw [window_peek ht, h.window t (hle.trans ht)]
  rcases hfailures with hfailures | hfailures
  · exact {
      sound := hfailures ▸ hsound
      limit := by rw [hfailures, limit_peek, h.limit]
      width := by rw [hfailures, width_peek, h.width]
      window := hfailures ▸ hwindow
      account := haccount.trans h.account }
  · exact {
      sound := hfailures ▸ sound_check hsound
      limit := by rw [hfailures, limit_check, limit_peek, h.limit]
      width := by rw [hfailures, width_check, width_peek, h.width]
      window := fun t ht ↦ by
        rw [hfailures, window_check_of_ne hsound ht hne.symm, hwindow t ht]
      account := haccount.trans h.account }

/-- The window after an attempt of the address itself, where it was peeked at. -/
theorem Sees.peeked (h : Sees cfg key now σ g) (hle : now ≤ t) :
    Sees cfg key t { σ with failures := (σ.failures.peek key t).2 }
      ⟨prune (t - cfg.throttle) g.hits, g.account⟩ where
  sound := sound_peek (h.sound.mono hle)
  limit := limit_peek.trans h.limit
  width := width_peek.trans h.width
  window := fun t' ht ↦ by
    rw [window_peek ht, h.window t' (hle.trans ht), prune_prune (Int.sub_le_sub_right ht _)]
  account := h.account

/-- And where a failure was counted. -/
theorem Sees.counted (h : Sees cfg key now σ g) (hle : now ≤ t)
    (hroom : (prune (t - cfg.throttle) g.hits).length < cfg.passwordAttempts)
    {db : AuthDatabase} {account : Option AuthAccount}
    (haccount : accountAt cfg.emailText db key = account) :
    Sees cfg key t ⟨db, (σ.failures.peek key t).2.check key t⟩
      ⟨prune (t - cfg.throttle) g.hits ++ [t], account⟩ where
  sound := sound_check (h.peeked hle).sound
  limit := limit_check.trans (h.peeked hle).limit
  width := width_check.trans (h.peeked hle).width
  window := fun t' ht ↦ by
    have hpeeked : (σ.failures.peek key t).2.window key t = prune (t - cfg.throttle) g.hits := by
      rw [window_peek le_rfl, h.window t hle]
    rw [window_check (sound_peek (h.sound.mono hle)) ht, hpeeked, limit_peek, h.limit,
      if_neg (not_le.mpr hroom), width_peek, h.width]
  account := haccount

/-- A wrong password for the address is answered as its guard answers it. -/
theorem passwordLogin_own (h : Sees cfg key now σ g) (hle : now ≤ a.now)
    (hkey : cfg.emailText.normaliseEmail a.email = key)
    (hwrong : ∀ hash ∈ g.account.bind AuthAccount.passwordHash,
      cfg.verify a.password hash = false) :
    (passwordLogin cfg σ a).1 = (g.answer cfg a.now).1 ∧
      Sees cfg key a.now (passwordLogin cfg σ a).2 (g.answer cfg a.now).2 := by
  have hpos : 0 < σ.failures.limit := h.limit ▸ cfg.passwordAttempts_pos
  have hdecision : (σ.failures.peek key a.now).1 =
      σ.failures.judge (prune (a.now - cfg.throttle) g.hits) a.now := by
    rw [peek_decision, h.window a.now hle]
  have hfind : findByEmail cfg.emailText σ.db a.email = g.account := by
    unfold findByEmail
    rw [hkey]
    exact h.account
  unfold passwordLogin Guard.answer
  simp only [hkey, hdecision, judge_allowed hpos, h.limit, decide_eq_true_eq]
  by_cases hroom : (prune (a.now - cfg.throttle) g.hits).length < cfg.passwordAttempts
  · rw [if_pos hroom, if_pos hroom]
    have hfind' : findByEmail cfg.emailText
        (Process.mk σ.db (σ.failures.peek key a.now).2).db a.email = g.account := hfind
    rw [hfind']
    cases haccount : g.account with
    | none => exact ⟨rfl, h.counted hle hroom (h.account.trans haccount)⟩
    | some account =>
      dsimp only
      cases hhash : account.passwordHash with
      | none => exact ⟨rfl, h.counted hle hroom (h.account.trans haccount)⟩
      | some hash =>
        dsimp only
        cases passwordPauseRemaining account a.now with
        | some remaining => exact ⟨rfl, haccount ▸ h.peeked hle⟩
        | none =>
          have hfalse : cfg.verify a.password hash = false :=
            hwrong hash (by rw [haccount, Option.bind_some, hhash]; rfl)
          dsimp only
          rw [hfalse]
          exact ⟨rfl, h.counted hle hroom
            (accountAt_recordPasswordFailure (h.account.trans haccount) _ _)⟩
  · rw [if_neg hroom, if_neg hroom, judge_resetSeconds hpos (h.limit ▸ hroom), h.width]
    exact ⟨rfl, h.peeked hle⟩

/-! ## Every sequence of requests -/

/-- The times of the attempts on an address. -/
def timesOf (cfg : AuthSettings) (key : String) (as : List Attempt) : List Instant :=
  (as.filter fun a ↦ cfg.emailText.normaliseEmail a.email = key).map (·.now)

/-- The attempts on the address have wrong passwords. -/
def AllWrong (cfg : AuthSettings) (key : String) (account : Option AuthAccount)
    (as : List Attempt) : Prop :=
  ∀ hash ∈ account.bind AuthAccount.passwordHash, ∀ a ∈ as,
    cfg.emailText.normaliseEmail a.email = key → cfg.verify a.password hash = false

instance AllWrong.decidable (cfg : AuthSettings) (key : String) :
    ∀ (account : Option AuthAccount) (as : List Attempt), Decidable (AllWrong cfg key account as)
  | none, _ => isTrue fun _ hh ↦ nomatch hh
  | some account, as =>
    inferInstanceAs (Decidable (∀ hash ∈ account.passwordHash, ∀ a ∈ as, _))

/-- The process answers for an address as the guard of that address does. -/
theorem answersTo_eq {as : List Attempt} (h : Sees cfg key now σ g)
    (hsorted : (as.map (·.now)).Pairwise (· ≤ ·)) (hnow : ∀ a ∈ as, now ≤ a.now)
    (hwrong : AllWrong cfg key g.account as) :
    answersTo cfg key σ as = Guard.answers cfg g (timesOf cfg key as) := by
  induction as generalizing σ g now with
  | nil => rfl
  | cons a as ih =>
    have hle : now ≤ a.now := hnow a List.mem_cons_self
    obtain ⟨hfirst, hrest⟩ := List.pairwise_cons.mp hsorted
    have hnow' : ∀ b ∈ as, a.now ≤ b.now := fun b hb ↦ hfirst _ (List.mem_map_of_mem hb)
    unfold answersTo timesOf
    dsimp only
    by_cases hkey : cfg.emailText.normaliseEmail a.email = key
    · obtain ⟨hanswer, hsees⟩ := passwordLogin_own h hle hkey fun hash hh ↦
        hwrong hash hh a List.mem_cons_self hkey
      rw [if_pos hkey, List.filter_cons_of_pos (by simpa using hkey), List.map_cons, answers_cons,
        hanswer, ih hsees hrest hnow' ?_]
      · rfl
      · intro hash hh b hb
        rw [answer_hash] at hh
        exact hwrong hash hh b (List.mem_cons_of_mem a hb)
    · rw [if_neg hkey, List.filter_cons_of_neg (by simpa using hkey)]
      exact ih (h.other hle hkey) hrest hnow' fun hash hh b hb ↦
        hwrong hash hh b (List.mem_cons_of_mem a hb)

/-- Over one process, with other addresses signing in meanwhile, wrong passwords for an address
are answered as if there were no account exactly as long as no attempt comes between the time
the window forgets and the time the account's pause ends. -/
theorem passwordLogin_tells_nothing_iff (cfg : AuthSettings) (key : String)
    (db db₀ : AuthDatabase) (as : List Attempt)
    (hsorted : (as.map (·.now)).Pairwise (· ≤ ·))
    (hwrong : AllWrong cfg key (accountAt cfg.emailText db key) as)
    (hnone : accountAt cfg.emailText db₀ key = none) :
    answersTo cfg key (.fresh cfg db) as = answersTo cfg key (.fresh cfg db₀) as ↔
      TellsNothing cfg (accountAt cfg.emailText db key) (timesOf cfg key as) := by
  have htimes : (timesOf cfg key as).Pairwise (· ≤ ·) :=
    hsorted.sublist (List.filter_sublist.map _)
  obtain ⟨now, hnow⟩ : ∃ now, ∀ a ∈ as, now ≤ a.now := by
    cases as with
    | nil => exact ⟨0, fun a ha ↦ nomatch ha⟩
    | cons a as =>
      refine ⟨a.now, fun b hb ↦ ?_⟩
      rcases List.mem_cons.mp hb with rfl | hb
      · exact le_rfl
      · exact (List.pairwise_cons.mp hsorted).1 _ (List.mem_map_of_mem hb)
  have hwrong₀ : AllWrong cfg key (accountAt cfg.emailText db₀ key) as := fun hash hh ↦ by
    rw [hnone] at hh
    cases hh
  rw [answersTo_eq (sees_fresh cfg key now db) hsorted hnow hwrong,
    answersTo_eq (sees_fresh cfg key now db₀) hsorted hnow hwrong₀, hnone]
  exact answers_eq_iff_tellsNothing htimes

/-! ### At the default settings -/

/-- Ten attempts in fifteen minutes, for addresses that are folded already and a hash that can
be read. -/
def defaultSettings : AuthSettings where
  emailText := ⟨id, id⟩
  verify := fun password hash ↦ hash = "scrypt$" ++ password
  needsRehash := fun _ ↦ false
  hash := fun password ↦ "scrypt$" ++ password
  passwordAttempts := 10
  passwordThrottleMinutes := 15
  sessionDays := 30
  passwordAttempts_pos := by decide
  passwordThrottleMinutes_pos := by decide

/-- An account of one address, with a password. -/
def oneAccount : AuthDatabase :=
  { AuthDatabase.empty with
    accounts := ⟨[⟨1, some "a@b.c", true, some "scrypt$right", 0, none, none⟩], by decide⟩ }

/-- A wrong password for the address, after so many minutes. -/
def wrongAt (minutes : ℤ) : Attempt := ⟨"a@b.c", "wrong", minutes * 60000000, ⟨1, "token"⟩⟩

theorem passwordLogin_tells_nothing_iff_burst :
    answersTo defaultSettings "a@b.c" (.fresh defaultSettings oneAccount)
        (List.replicate 10 (wrongAt 0) ++ [wrongAt 1, wrongAt 15]) =
      answersTo defaultSettings "a@b.c" (.fresh defaultSettings .empty)
        (List.replicate 10 (wrongAt 0) ++ [wrongAt 1, wrongAt 15]) :=
  (passwordLogin_tells_nothing_iff defaultSettings "a@b.c" oneAccount .empty
    (List.replicate 10 (wrongAt 0) ++ [wrongAt 1, wrongAt 15])
    (by decide) (by decide) (by decide)).mpr (by decide)

/-- Nine failures, one ten minutes later, and an attempt after sixteen: the window has
forgotten the nine, the account is still paused. -/
theorem passwordLogin_tells_of_account :
    ¬ ∀ (cfg : AuthSettings) (key : String) (db db₀ : AuthDatabase) (as : List Attempt),
      (as.map (·.now)).Pairwise (· ≤ ·) → AllWrong cfg key (accountAt cfg.emailText db key) as →
      accountAt cfg.emailText db₀ key = none →
      answersTo cfg key (.fresh cfg db) as = answersTo cfg key (.fresh cfg db₀) as := by
  intro h
  have h' := h defaultSettings "a@b.c" oneAccount .empty
    (List.replicate 9 (wrongAt 0) ++ [wrongAt 10, wrongAt 16])
    (by decide) (by decide) (by decide)
  revert h'
  decide

end Conjectures.Auth
