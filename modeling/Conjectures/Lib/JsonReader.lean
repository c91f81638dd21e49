import Mathlib.Data.List.Basic

/-!
# Reading JSON byte by byte

The grammar of JSON over bytes, with the depth to which arrays and objects are nested, and a reader
that takes one byte at a time and keeps a stack of the arrays and objects that are open.  Neither
looks at the encoding: in a string every byte may stand but a control character.
-/

namespace Conjectures.Lib.JsonReader

abbrev Bytes := List UInt8

/-! ## Bytes -/

def isSpace (b : UInt8) : Bool := [32, 9, 10, 13].contains b

def isDigit (b : UInt8) : Bool := 48 ≤ b && b ≤ 57

def isHex (b : UInt8) : Bool := isDigit b || (65 ≤ b && b ≤ 70) || (97 ≤ b && b ≤ 102)

/-- What a backslash escapes: `"`, `\`, `/`, `b`, `f`, `n`, `r` and `t`. -/
def isEscape (b : UInt8) : Bool := [34, 92, 47, 98, 102, 110, 114, 116].contains b

def Spaces (bs : Bytes) : Prop := ∀ b ∈ bs, isSpace b = true

inductive Word where
  | null
  | true
  | false
  deriving DecidableEq

def Word.bytes : Word → Bytes
  | .null => [110, 117, 108, 108]
  | .true => [116, 114, 117, 101]
  | .false => [102, 97, 108, 115, 101]

/-! ## The grammar -/

/-- Digits, and at least one. -/
def Digits (bs : Bytes) : Prop := bs ≠ [] ∧ ∀ b ∈ bs, isDigit b = true

/-- A whole part: no zero leads others. -/
def Whole (bs : Bytes) : Prop := bs = [48] ∨ Digits bs ∧ bs.head? ≠ some 48

/-- A point and digits, or nothing. -/
def Fraction (bs : Bytes) : Prop := bs = [] ∨ ∃ ds, Digits ds ∧ bs = 46 :: ds

/-- An `e`, perhaps a sign, and digits, or nothing. -/
def Exponent (bs : Bytes) : Prop :=
  bs = [] ∨ ∃ e sign ds, (e = 101 ∨ e = 69) ∧ (sign = [] ∨ sign = [43] ∨ sign = [45]) ∧
    Digits ds ∧ bs = e :: (sign ++ ds)

def Number (bs : Bytes) : Prop :=
  ∃ sign whole fraction exponent, (sign = [] ∨ sign = [45]) ∧ Whole whole ∧ Fraction fraction ∧
    Exponent exponent ∧ bs = sign ++ (whole ++ (fraction ++ exponent))

/-- A string, from behind its opening quotation mark to its closing one. -/
inductive Quoted : Bytes → Prop
  | close : Quoted [34]
  | plain {b : UInt8} {bs : Bytes} (hquote : b ≠ 34) (hbackslash : b ≠ 92) (hcontrol : 32 ≤ b)
      (h : Quoted bs) : Quoted (b :: bs)
  | escape {b : UInt8} {bs : Bytes} (hb : isEscape b = true) (h : Quoted bs) :
      Quoted (92 :: b :: bs)
  | unicode {digits bs : Bytes} (hlength : digits.length = 4)
      (hdigits : ∀ b ∈ digits, isHex b = true) (h : Quoted bs) : Quoted (92 :: 117 :: (digits ++ bs))

/-- What is spelled: a value, or what stands in brackets or braces, up to the closing one. -/
inductive Part where
  | value
  | items
  | members

/-- The bytes spell such a part, in which arrays and objects are nested this deep. -/
inductive Nested : Part → ℕ → Bytes → Prop
  | word (w : Word) : Nested .value 0 w.bytes
  | number {bs : Bytes} (h : Number bs) : Nested .value 0 bs
  | string {bs : Bytes} (h : Quoted bs) : Nested .value 0 (34 :: bs)
  | noItems {s : Bytes} (h : Spaces s) : Nested .value 1 (91 :: (s ++ [93]))
  | array {n : ℕ} {bs : Bytes} (h : Nested .items n bs) : Nested .value (n + 1) (91 :: bs)
  | noMembers {s : Bytes} (h : Spaces s) : Nested .value 1 (123 :: (s ++ [125]))
  | object {n : ℕ} {bs : Bytes} (h : Nested .members n bs) : Nested .value (n + 1) (123 :: bs)
  | item {n : ℕ} {s v s' : Bytes} (h : Spaces s) (hv : Nested .value n v) (h' : Spaces s') :
      Nested .items n (s ++ (v ++ (s' ++ [93])))
  | items {n m : ℕ} {s v s' vs : Bytes} (h : Spaces s) (hv : Nested .value n v) (h' : Spaces s')
      (hvs : Nested .items m vs) : Nested .items (max n m) (s ++ (v ++ (s' ++ 44 :: vs)))
  | member {n : ℕ} {s k s₁ s₂ v s' : Bytes} (h : Spaces s) (hk : Quoted k) (h₁ : Spaces s₁)
      (h₂ : Spaces s₂) (hv : Nested .value n v) (h' : Spaces s') :
      Nested .members n (s ++ 34 :: (k ++ (s₁ ++ 58 :: (s₂ ++ (v ++ (s' ++ [125]))))))
  | members {n m : ℕ} {s k s₁ s₂ v s' ms : Bytes} (h : Spaces s) (hk : Quoted k) (h₁ : Spaces s₁)
      (h₂ : Spaces s₂) (hv : Nested .value n v) (h' : Spaces s') (hms : Nested .members m ms) :
      Nested .members (max n m) (s ++ 34 :: (k ++ (s₁ ++ 58 :: (s₂ ++ (v ++ (s' ++ 44 :: ms))))))

/-- The bytes are a JSON text, nested this deep. -/
def JsonText (n : ℕ) (bs : Bytes) : Prop :=
  ∃ s v s', Spaces s ∧ Nested .value n v ∧ Spaces s' ∧ bs = s ++ (v ++ s')

/-! ## The reader -/

/-- What is open. -/
inductive Bracket where
  | array
  | object
  deriving DecidableEq

/-- Where in a value the reader is. -/
inductive Mode where
  /-- a value must follow -/
  | value
  /-- behind an opening bracket: a value or the closing bracket -/
  | items
  /-- behind an opening brace: a key or the closing brace -/
  | members
  /-- behind a comma in an object -/
  | key
  /-- behind a key -/
  | colon
  /-- behind a value -/
  | after
  | string (key : Bool)
  | escape (key : Bool)
  /-- hexadecimal digits that must follow -/
  | unicode (key : Bool) (digits : ℕ)
  /-- a word of which so much is read -/
  | word (w : Word) (read : ℕ)
  | minus
  | zero
  | whole
  | point
  | fraction
  | exponent
  | exponentSign
  | exponentDigits
  deriving DecidableEq

structure Reader where
  opened : List Bracket
  mode : Mode
  deriving DecidableEq

namespace Reader

/-- The reader before the first byte. -/
def initial : Reader := ⟨[], .value⟩

variable (opened : List Bracket)

/-- The first digit of a number. -/
def digit (b : UInt8) : Option Reader :=
  if b = 48 then some ⟨opened, .zero⟩ else if isDigit b then some ⟨opened, .whole⟩ else none

/-- The first byte of a value. -/
def first (b : UInt8) : Option Reader :=
  if b = 34 then some ⟨opened, .string false⟩
  else if b = 91 then some ⟨.array :: opened, .items⟩
  else if b = 123 then some ⟨.object :: opened, .members⟩
  else if b = 110 then some ⟨opened, .word .null 1⟩
  else if b = 116 then some ⟨opened, .word .true 1⟩
  else if b = 102 then some ⟨opened, .word .false 1⟩
  else if b = 45 then some ⟨opened, .minus⟩
  else digit opened b

/-- A byte behind a value: the value may end an array or an object. -/
def behind (b : UInt8) : Option Reader :=
  if isSpace b then some ⟨opened, .after⟩
  else match opened with
    | [] => none
    | .array :: outer =>
      if b = 44 then some ⟨opened, .value⟩ else if b = 93 then some ⟨outer, .after⟩ else none
    | .object :: outer =>
      if b = 44 then some ⟨opened, .key⟩ else if b = 125 then some ⟨outer, .after⟩ else none

/-- One byte; `none` is an error. -/
def step (r : Reader) (b : UInt8) : Option Reader :=
  match r.mode with
  | .value => if isSpace b then some r else first r.opened b
  | .items =>
    if isSpace b then some r else if b = 93 then behind r.opened b else first r.opened b
  | .members =>
    if isSpace b then some r
    else if b = 125 then behind r.opened b
    else if b = 34 then some ⟨r.opened, .string true⟩ else none
  | .key =>
    if isSpace b then some r else if b = 34 then some ⟨r.opened, .string true⟩ else none
  | .colon => if isSpace b then some r else if b = 58 then some ⟨r.opened, .value⟩ else none
  | .after => behind r.opened b
  | .string key =>
    if b = 34 then some ⟨r.opened, if key then .colon else .after⟩
    else if b = 92 then some ⟨r.opened, .escape key⟩
    else if 32 ≤ b then some r else none
  | .escape key =>
    if isEscape b then some ⟨r.opened, .string key⟩
    else if b = 117 then some ⟨r.opened, .unicode key 3⟩ else none
  | .unicode key n =>
    if isHex b then some ⟨r.opened, match n with | 0 => .string key | n + 1 => .unicode key n⟩
    else none
  | .word w n =>
    if w.bytes[n]? = some b then
      some ⟨r.opened, if n + 1 = w.bytes.length then .after else .word w (n + 1)⟩
    else none
  | .minus => digit r.opened b
  | .zero =>
    if b = 46 then some ⟨r.opened, .point⟩
    else if b = 101 ∨ b = 69 then some ⟨r.opened, .exponent⟩ else behind r.opened b
  | .whole =>
    if isDigit b then some r
    else if b = 46 then some ⟨r.opened, .point⟩
    else if b = 101 ∨ b = 69 then some ⟨r.opened, .exponent⟩ else behind r.opened b
  | .point => if isDigit b then some ⟨r.opened, .fraction⟩ else none
  | .fraction =>
    if isDigit b then some r
    else if b = 101 ∨ b = 69 then some ⟨r.opened, .exponent⟩ else behind r.opened b
  | .exponent =>
    if isDigit b then some ⟨r.opened, .exponentDigits⟩
    else if b = 43 ∨ b = 45 then some ⟨r.opened, .exponentSign⟩ else none
  | .exponentSign => if isDigit b then some ⟨r.opened, .exponentDigits⟩ else none
  | .exponentDigits => if isDigit b then some r else behind r.opened b

/-- The reader behind these bytes, unless one of them is an error. -/
def run (r : Reader) (bs : Bytes) : Option Reader := bs.foldlM step r

/-- A value may have ended here. -/
def Complete (r : Reader) : Prop :=
  r.mode ∈ [.after, .zero, .whole, .fraction, .exponentDigits]

/-- The bytes are read without an error, and nothing is left open. -/
def Accepts (bs : Bytes) : Prop := ∃ r, run initial bs = some r ∧ r.opened = [] ∧ r.Complete

/-! ## What is derived is read -/

variable {opened} {r r' : Reader} {b : UInt8} {bs bs' : Bytes}

theorem run_cons (h : step r b = some r') : run r (b :: bs) = run r' bs := by
  simp [run, h]

theorem run_append (h : run r bs = some r') : run r (bs ++ bs') = run r' bs' := by
  rw [run] at h
  simp [run, List.foldlM_append, h]

/-- A mode that stays as it is through some bytes. -/
theorem run_same (h : ∀ b ∈ bs, step r b = some r) : run r bs = some r := by
  induction bs with
  | nil => rfl
  | cons b bs ih =>
    rw [run_cons (h b List.mem_cons_self)]
    exact ih fun b hb ↦ h b (List.mem_cons_of_mem _ hb)

/-- Where a token may follow, spaces may. -/
theorem run_spaces {mode : Mode} (hmode : mode ∈ [.value, .items, .members, .key, .colon])
    (h : Spaces bs) : run ⟨opened, mode⟩ bs = some ⟨opened, mode⟩ := by
  refine run_same fun b hb ↦ ?_
  simp only [List.mem_cons, List.not_mem_nil, or_false] at hmode
  rcases hmode with rfl | rfl | rfl | rfl | rfl <;> exact if_pos (h b hb)

/-- No space, comma or bracket continues a number. -/
theorem step_complete (hr : r.Complete) (hb : isSpace b = true ∨ b = 44 ∨ b = 93 ∨ b = 125) :
    step r b = behind r.opened b := by
  have hmem : b ∈ [32, 9, 10, 13, 44, 93, 125] := by
    simpa [isSpace, or_assoc] using hb
  have hnone : isDigit b = false ∧ b ≠ 46 ∧ ¬ (b = 101 ∨ b = 69) :=
    (by simp [isDigit] : ∀ c ∈ [32, 9, 10, 13, 44, 93, 125],
      isDigit c = false ∧ c ≠ 46 ∧ ¬ (c = 101 ∨ c = 69)) b hmem
  obtain ⟨opened, mode⟩ := r
  simp only [Complete, List.mem_cons, List.not_mem_nil, or_false] at hr
  rcases hr with rfl | rfl | rfl | rfl | rfl <;> simp [step, hnone]

theorem run_behind (hr : r.Complete) (h : Spaces bs) :
    ∃ r', run r bs = some r' ∧ r'.opened = r.opened ∧ r'.Complete := by
  cases bs with
  | nil => exact ⟨r, rfl, rfl, hr⟩
  | cons b bs =>
    have hb := h b List.mem_cons_self
    have hstep : step r b = some ⟨r.opened, .after⟩ :=
      (step_complete hr (.inl hb)).trans (if_pos hb)
    have hafter (c : UInt8) (hc : c ∈ bs) :
        step ⟨r.opened, .after⟩ c = some ⟨r.opened, .after⟩ :=
      if_pos (h c (List.mem_cons_of_mem _ hc))
    exact ⟨⟨r.opened, .after⟩, (run_cons hstep).trans (run_same hafter), rfl, by simp [Complete]⟩

/-! ### Numbers and strings -/

/-- A byte with a part of its own in the grammar is no digit. -/
theorem not_mem_of_isDigit (h : isDigit b = true) :
    b ∉ [32, 9, 10, 13, 34, 91, 93, 123, 125, 110, 116, 102, 45, 46, 101, 69, 43] := fun hmem ↦
  absurd h ((by simp [isDigit] : ∀ c ∈ [32, 9, 10, 13, 34, 91, 93, 123, 125, 110, 116, 102, 45, 46,
    101, 69, 43], ¬ isDigit c = true) b hmem)

theorem step_value_digit (h : isDigit b = true) :
    step ⟨opened, .value⟩ b = digit opened b := by
  have hb := not_mem_of_isDigit h
  simp only [List.mem_cons, List.not_mem_nil, or_false, not_or] at hb
  simp [step, first, isSpace, hb]

theorem run_digits (hbs : Digits bs) {mode : Mode}
    (hfirst : ∀ b, isDigit b = true → step r b = some ⟨opened, mode⟩)
    (hmore : ∀ b, isDigit b = true → step ⟨opened, mode⟩ b = some ⟨opened, mode⟩) :
    run r bs = some ⟨opened, mode⟩ := by
  obtain ⟨b, ds, rfl⟩ := List.exists_cons_of_ne_nil hbs.1
  rw [run_cons (hfirst b (hbs.2 b List.mem_cons_self))]
  exact run_same fun c hc ↦ hmore c (hbs.2 c (List.mem_cons_of_mem _ hc))

theorem run_whole (h : Whole bs) (hr : ∀ b, isDigit b = true → step r b = digit opened b) :
    ∃ mode ∈ [Mode.zero, .whole], run r bs = some ⟨opened, mode⟩ := by
  rcases h with rfl | ⟨⟨hne, hdigits⟩, hhead⟩
  · exact ⟨.zero, by simp, run_cons (hr 48 rfl)⟩
  · obtain ⟨b, ds, rfl⟩ := List.exists_cons_of_ne_nil hne
    have hb := hdigits b List.mem_cons_self
    have hne : b ≠ 48 := fun h ↦ hhead (congrArg some h)
    have hstep : step r b = some ⟨opened, .whole⟩ := by
      rw [hr b hb, digit, if_neg hne, if_pos hb]
    refine ⟨.whole, by simp, (run_cons hstep).trans (run_same fun c hc ↦ ?_)⟩
    exact if_pos (hdigits c (List.mem_cons_of_mem _ hc))

theorem run_fraction {mode : Mode} (hmode : mode ∈ [Mode.zero, .whole]) (h : Fraction bs) :
    ∃ mode' ∈ [Mode.zero, .whole, .fraction], run ⟨opened, mode⟩ bs = some ⟨opened, mode'⟩ := by
  simp only [List.mem_cons, List.not_mem_nil, or_false] at hmode
  rcases h with rfl | ⟨ds, hds, rfl⟩
  · exact ⟨mode, by simp only [List.mem_cons]; tauto, rfl⟩
  · have hpoint : step ⟨opened, mode⟩ 46 = some ⟨opened, .point⟩ := by
      rcases hmode with rfl | rfl <;> rfl
    refine ⟨.fraction, by simp, (run_cons hpoint).trans (run_digits hds ?_ ?_)⟩
    · exact fun b hb ↦ if_pos hb
    · exact fun b hb ↦ if_pos hb

theorem run_exponent {mode : Mode} (hmode : mode ∈ [Mode.zero, .whole, .fraction])
    (h : Exponent bs) :
    ∃ r', run ⟨opened, mode⟩ bs = some r' ∧ r'.opened = opened ∧ r'.Complete := by
  simp only [List.mem_cons, List.not_mem_nil, or_false] at hmode
  rcases h with rfl | ⟨e, sign, ds, he, hsign, hds, rfl⟩
  · exact ⟨_, rfl, rfl, by simp only [Complete, List.mem_cons]; tauto⟩
  · have hstep : step ⟨opened, mode⟩ e = some ⟨opened, .exponent⟩ := by
      rcases hmode with rfl | rfl | rfl <;> rcases he with rfl | rfl <;> rfl
    have hmore (b : UInt8) (hb : isDigit b = true) :
        step ⟨opened, .exponentDigits⟩ b = some ⟨opened, .exponentDigits⟩ := if_pos hb
    refine ⟨⟨opened, .exponentDigits⟩, (run_cons hstep).trans ?_, rfl, by simp [Complete]⟩
    rcases hsign with rfl | hsign
    · exact run_digits hds (fun b hb ↦ if_pos hb) hmore
    · have hsigned : run ⟨opened, .exponent⟩ sign = some ⟨opened, .exponentSign⟩ := by
        rcases hsign with rfl | rfl <;> rfl
      rw [run_append hsigned]
      exact run_digits hds (fun b hb ↦ if_pos hb) hmore

theorem run_number (h : Number bs) :
    ∃ r', run ⟨opened, .value⟩ bs = some r' ∧ r'.opened = opened ∧ r'.Complete := by
  obtain ⟨sign, whole, fraction, exponent, hsign, hwhole, hfraction, hexponent, rfl⟩ := h
  have hstart : ∃ mode ∈ [Mode.zero, .whole],
      run ⟨opened, .value⟩ (sign ++ whole) = some ⟨opened, mode⟩ := by
    rcases hsign with rfl | rfl
    · exact run_whole hwhole fun b ↦ step_value_digit
    · obtain ⟨mode, hmode, hrun⟩ := @run_whole opened ⟨opened, .minus⟩ _ hwhole fun _ _ ↦ rfl
      exact ⟨mode, hmode, (run_append rfl).trans hrun⟩
  obtain ⟨mode, hmode, hrun⟩ := hstart
  obtain ⟨mode', hmode', hrun'⟩ := run_fraction hmode hfraction
  rw [← List.append_assoc, run_append hrun, run_append hrun']
  exact run_exponent hmode' hexponent

theorem run_unicode {key : Bool} {digits : Bytes} {n : ℕ} (hlength : digits.length = n + 1)
    (hdigits : ∀ b ∈ digits, isHex b = true) :
    run ⟨opened, .unicode key n⟩ digits = some ⟨opened, .string key⟩ := by
  induction n generalizing digits with
  | zero =>
    obtain ⟨b, rfl⟩ := List.length_eq_one_iff.mp hlength
    exact run_cons (if_pos (hdigits b List.mem_cons_self))
  | succ n ih =>
    obtain ⟨b, ds, rfl⟩ := List.exists_cons_of_length_eq_add_one hlength
    have hstep : step ⟨opened, .unicode key (n + 1)⟩ b = some ⟨opened, .unicode key n⟩ :=
      if_pos (hdigits b List.mem_cons_self)
    rw [run_cons hstep]
    exact ih (Nat.succ.inj hlength) fun c hc ↦ hdigits c (List.mem_cons_of_mem _ hc)

/-- Behind a key a colon must follow. -/
theorem run_quoted {key : Bool} (h : Quoted bs) :
    run ⟨opened, .string key⟩ bs = some ⟨opened, if key then .colon else .after⟩ := by
  induction h with
  | close => rfl
  | @plain b bs hquote hbackslash hcontrol _ ih =>
    have hstep : step ⟨opened, .string key⟩ b = some ⟨opened, .string key⟩ :=
      (if_neg hquote).trans ((if_neg hbackslash).trans (if_pos hcontrol))
    exact (run_cons hstep).trans ih
  | @escape b bs hb _ ih =>
    have hstep : step ⟨opened, .escape key⟩ b = some ⟨opened, .string key⟩ := if_pos hb
    exact (run_cons rfl).trans ((run_cons hstep).trans ih)
  | @unicode digits bs hlength hdigits _ ih =>
    have hstep : step ⟨opened, .escape key⟩ 117 = some ⟨opened, .unicode key 3⟩ := rfl
    exact (run_cons rfl).trans ((run_cons hstep).trans
      ((run_append (run_unicode hlength hdigits)).trans ih))

/-! ### Values -/

/-- A value starts with a byte that does not close an array. -/
theorem Nested.head {n : ℕ} (h : Nested .value n bs) :
    ∃ b bs', bs = b :: bs' ∧ isSpace b = false ∧ b ≠ 93 := by
  cases h with
  | word w => cases w <;> exact ⟨_, _, rfl, by decide⟩
  | number h =>
    obtain ⟨sign, whole, fraction, exponent, hsign, hwhole, -, -, rfl⟩ := h
    rcases hsign with rfl | rfl
    · have hdigits : Digits whole := by
        rcases hwhole with rfl | ⟨h, -⟩
        · exact ⟨by simp, List.forall_mem_singleton.mpr rfl⟩
        · exact h
      obtain ⟨b, ds, rfl⟩ := List.exists_cons_of_ne_nil hdigits.1
      have hb := not_mem_of_isDigit (hdigits.2 b List.mem_cons_self)
      simp only [List.mem_cons, List.not_mem_nil, or_false, not_or] at hb
      exact ⟨b, _, rfl, by simp [isSpace, hb], hb.2.2.2.2.2.2.1⟩
    · exact ⟨45, _, rfl, by decide⟩
  | string h => exact ⟨34, _, rfl, by decide⟩
  | noItems h => exact ⟨91, _, rfl, by decide⟩
  | array h => exact ⟨91, _, rfl, by decide⟩
  | noMembers h => exact ⟨123, _, rfl, by decide⟩
  | object h => exact ⟨123, _, rfl, by decide⟩

theorem run_items_mode {n : ℕ} (h : Nested .value n bs) :
    run ⟨opened, .items⟩ bs = run ⟨opened, .value⟩ bs := by
  obtain ⟨b, bs', rfl, hspace, hclose⟩ := Nested.head h
  simp [run, step, hspace, hclose]

/-- Spaces behind a value, and then the comma or the bracket. -/
theorem run_token (hr : r.Complete) (hs : Spaces bs) (hb : b = 44 ∨ b = 93 ∨ b = 125)
    (hstep : behind r.opened b = some r') : run r (bs ++ b :: bs') = run r' bs' := by
  obtain ⟨r₁, hrun, hopened, hcomplete⟩ := run_behind hr hs
  rw [run_append hrun]
  refine run_cons ?_
  rw [step_complete hcomplete (.inr hb), hopened, hstep]

/-- What is read of a part: a value leaves everything open as it was, the rest closes what is
innermost. -/
def Reads : Part → Bytes → Prop
  | .value, bs => ∀ opened, ∃ r', run ⟨opened, .value⟩ bs = some r' ∧ r'.opened = opened ∧ r'.Complete
  | .items, bs => ∀ opened, ∀ mode ∈ [Mode.value, .items],
      run ⟨.array :: opened, mode⟩ bs = some ⟨opened, .after⟩
  | .members, bs => ∀ opened, ∀ mode ∈ [Mode.key, .members],
      run ⟨.object :: opened, mode⟩ bs = some ⟨opened, .after⟩

/-- An item, up to the comma or the bracket behind it. -/
theorem run_item {n : ℕ} {s v s' : Bytes} (h : Spaces s) (hv : Nested .value n v)
    (hreads : Reads .value v) (h' : Spaces s') {mode : Mode} (hmode : mode ∈ [Mode.value, .items])
    (hb : b = 44 ∨ b = 93 ∨ b = 125) (hstep : behind opened b = some r') :
    run ⟨opened, mode⟩ (s ++ (v ++ (s' ++ b :: bs))) = run r' bs := by
  have hmode' : mode = .value ∨ mode = .items := by simpa using hmode
  obtain ⟨r₁, hrun, rfl, hcomplete⟩ := hreads opened
  have hvalue : run ⟨r₁.opened, mode⟩ v = some r₁ := by
    rcases hmode' with rfl | rfl
    · exact hrun
    · exact (run_items_mode hv).trans hrun
  have hspaces : run ⟨r₁.opened, mode⟩ s = some ⟨r₁.opened, mode⟩ := by
    rcases hmode' with rfl | rfl <;> exact run_spaces (by simp) h
  rw [run_append hspaces, run_append hvalue, run_token hcomplete h' hb hstep]

/-- A member, up to the comma or the brace behind it. -/
theorem run_member {n : ℕ} {s k s₁ s₂ v s' : Bytes} (h : Spaces s) (hk : Quoted k) (h₁ : Spaces s₁)
    (h₂ : Spaces s₂) (hv : Nested .value n v) (hreads : Reads .value v) (h' : Spaces s')
    {mode : Mode} (hmode : mode ∈ [Mode.key, .members]) (hb : b = 44 ∨ b = 93 ∨ b = 125)
    (hstep : behind opened b = some r') :
    run ⟨opened, mode⟩ (s ++ 34 :: (k ++ (s₁ ++ 58 :: (s₂ ++ (v ++ (s' ++ b :: bs)))))) =
      run r' bs := by
  have hmode' : mode = .key ∨ mode = .members := by simpa using hmode
  have hspaces : run ⟨opened, mode⟩ s = some ⟨opened, mode⟩ := by
    rcases hmode' with rfl | rfl <;> exact run_spaces (by simp) h
  have hquote : step ⟨opened, mode⟩ 34 = some ⟨opened, .string true⟩ := by
    rcases hmode' with rfl | rfl <;> rfl
  have hcolon : step ⟨opened, .colon⟩ 58 = some ⟨opened, .value⟩ := rfl
  rw [run_append hspaces, run_cons hquote, run_append (run_quoted hk), if_pos rfl,
    run_append (run_spaces (by simp) h₁), run_cons hcolon]
  exact run_item h₂ hv hreads h' (by simp) hb hstep

theorem reads_of_nested {part : Part} {n : ℕ} (h : Nested part n bs) : Reads part bs := by
  induction h with
  | word w =>
    intro opened
    cases w <;> exact ⟨⟨opened, .after⟩, rfl, rfl, by simp [Complete]⟩
  | number h => exact fun opened ↦ run_number h
  | string h =>
    exact fun opened ↦ ⟨⟨opened, .after⟩, (run_cons rfl).trans (run_quoted h), rfl,
      by simp [Complete]⟩
  | noItems h =>
    refine fun opened ↦ ⟨⟨opened, .after⟩, ?_, rfl, by simp [Complete]⟩
    exact (run_cons rfl).trans ((run_append (run_spaces (by simp) h)).trans (run_cons rfl))
  | array _ ih =>
    exact fun opened ↦ ⟨⟨opened, .after⟩, (run_cons rfl).trans (ih opened .items (by simp)), rfl,
      by simp [Complete]⟩
  | noMembers h =>
    refine fun opened ↦ ⟨⟨opened, .after⟩, ?_, rfl, by simp [Complete]⟩
    exact (run_cons rfl).trans ((run_append (run_spaces (by simp) h)).trans (run_cons rfl))
  | object _ ih =>
    exact fun opened ↦ ⟨⟨opened, .after⟩, (run_cons rfl).trans (ih opened .members (by simp)), rfl,
      by simp [Complete]⟩
  | item h hv h' ih =>
    exact fun opened mode hmode ↦ run_item h hv ih h' hmode (.inr (.inl rfl)) rfl
  | items h hv h' _ ih ihs =>
    exact fun opened mode hmode ↦
      (run_item h hv ih h' hmode (.inl rfl) rfl).trans (ihs opened .value (by simp))
  | member h hk h₁ h₂ hv h' ih =>
    exact fun opened mode hmode ↦ run_member h hk h₁ h₂ hv ih h' hmode (.inr (.inr rfl)) rfl
  | members h hk h₁ h₂ hv h' _ ih ihs =>
    exact fun opened mode hmode ↦
      (run_member h hk h₁ h₂ hv ih h' hmode (.inl rfl) rfl).trans (ihs opened .key (by simp))

/-- Every JSON text is accepted. -/
theorem accepts_of_jsonText {n : ℕ} (h : JsonText n bs) : Accepts bs := by
  obtain ⟨s, v, s', hs, hv, hs', rfl⟩ := h
  obtain ⟨r, hrun, hopened, hcomplete⟩ := reads_of_nested hv []
  obtain ⟨r', hrun', hopened', hcomplete'⟩ := run_behind hcomplete hs'
  refine ⟨r', ?_, hopened'.trans hopened, hcomplete'⟩
  rw [initial, run_append (run_spaces (by simp) hs), run_append hrun, hrun']

end Reader

end Conjectures.Lib.JsonReader
