import Conjectures.Lib.JsonTokens

/-!
# JSON texts

The grammar of JSON, in which the members of an object have keys of their own, and a parser by
recursive descent that accepts exactly what the grammar derives.  Both are written over what is
left of a text: a part is spelled between a text and its rest.
-/

namespace Conjectures.Lib.Json

/-! ## The grammar -/

/-- What a part of a text spells: a value, or what stands in brackets up to the closing one. -/
inductive Part where
  | value (v : Json)
  | items (vs : List Json)
  | members (ms : List (Text × Json))

/-- The text spells the part and then the rest. -/
inductive Spells : List Char → Part → List Char → Prop
  | nullWord {rest : List Char} : Spells ('n' :: 'u' :: 'l' :: 'l' :: rest) (.value .null) rest
  | trueWord {rest : List Char} : Spells ('t' :: 'r' :: 'u' :: 'e' :: rest) (.value (.bool true)) rest
  | falseWord {rest : List Char} :
      Spells ('f' :: 'a' :: 'l' :: 's' :: 'e' :: rest) (.value (.bool false)) rest
  | number {number rest : List Char} {v : Json} (h : Number number v) :
      Spells (number ++ rest) (.value v) rest
  | string {text rest : List Char} {s : Text} (h : Units text s rest) :
      Spells ('\x22' :: text) (.value (.string (joinSurrogates s))) rest
  | noItems {text rest : List Char} (h : Spaces text (']' :: rest)) :
      Spells ('[' :: text) (.value (.array [])) rest
  | array {text rest : List Char} {vs : List Json} (h : Spells text (.items vs) rest) :
      Spells ('[' :: text) (.value (.array vs)) rest
  | noMembers {text rest : List Char} (h : Spaces text ('\x7d' :: rest)) :
      Spells ('\x7b' :: text) (.value (.object [])) rest
  | object {text rest : List Char} {ms : List (Text × Json)} (h : Spells text (.members ms) rest)
      (hkeys : (ms.map Prod.fst).Nodup) : Spells ('\x7b' :: text) (.value (.object ms)) rest
  | item {text text₁ text₂ rest : List Char} {v : Json} (h : Spaces text text₁)
      (hv : Spells text₁ (.value v) text₂) (h' : Spaces text₂ (']' :: rest)) :
      Spells text (.items [v]) rest
  | items {text text₁ text₂ text₃ rest : List Char} {v : Json} {vs : List Json}
      (h : Spaces text text₁) (hv : Spells text₁ (.value v) text₂) (h' : Spaces text₂ (',' :: text₃))
      (hvs : Spells text₃ (.items vs) rest) : Spells text (.items (v :: vs)) rest
  | member {text text₁ text₂ text₃ text₄ text₅ rest : List Char} {k : Text} {v : Json}
      (h : Spaces text ('\x22' :: text₁)) (hk : Units text₁ k text₂)
      (hcolon : Spaces text₂ (':' :: text₃)) (hspace : Spaces text₃ text₄)
      (hv : Spells text₄ (.value v) text₅) (h' : Spaces text₅ ('\x7d' :: rest)) :
      Spells text (.members [(joinSurrogates k, v)]) rest
  | members {text text₁ text₂ text₃ text₄ text₅ text₆ rest : List Char} {k : Text} {v : Json}
      {ms : List (Text × Json)} (h : Spaces text ('\x22' :: text₁)) (hk : Units text₁ k text₂)
      (hcolon : Spaces text₂ (':' :: text₃)) (hspace : Spaces text₃ text₄)
      (hv : Spells text₄ (.value v) text₅) (h' : Spaces text₅ (',' :: text₆))
      (hms : Spells text₆ (.members ms) rest) :
      Spells text (.members ((joinSurrogates k, v) :: ms)) rest

/-- The text is this value, between spaces. -/
def Document (text : List Char) (v : Json) : Prop :=
  ∃ text₁ text₂, Spaces text text₁ ∧ Spells text₁ (.value v) text₂ ∧ Spaces text₂ []

/-! ## The parser -/

/-- A word that is a value. -/
def word? : List Char → Option (Json × List Char)
  | 'n' :: 'u' :: 'l' :: 'l' :: rest => some (.null, rest)
  | 't' :: 'r' :: 'u' :: 'e' :: rest => some (.bool true, rest)
  | 'f' :: 'a' :: 'l' :: 's' :: 'e' :: rest => some (.bool false, rest)
  | _ => none

mutual

/-- The value a text starts with.  The fuel bounds the depth of the descent. -/
def value? : ℕ → List Char → Option (Json × List Char)
  | 0, _ => none
  | n + 1, text =>
    match text with
    | '\x22' :: text => (units? text).map fun (s, rest) ↦ (.string (joinSurrogates s), rest)
    | '[' :: text =>
      match skip text with
      | ']' :: rest => some (.array [], rest)
      | text => (items? n text).map fun (vs, rest) ↦ (.array vs, rest)
    | '\x7b' :: text =>
      match skip text with
      | '\x7d' :: rest => some (.object [], rest)
      | text => (members? n text).bind fun (ms, rest) ↦
        if (ms.map Prod.fst).Nodup then some (.object ms, rest) else none
    | text => (word? text).or (number? text)

/-- The items up to the closing bracket; spaces before the first have been skipped. -/
def items? : ℕ → List Char → Option (List Json × List Char)
  | 0, _ => none
  | n + 1, text => do
    let (v, text) ← value? n text
    match skip text with
    | ']' :: rest => return ([v], rest)
    | ',' :: text =>
      let (vs, rest) ← items? n (skip text)
      return (v :: vs, rest)
    | _ => none

/-- The members up to the closing brace; spaces before the first have been skipped. -/
def members? : ℕ → List Char → Option (List (Text × Json) × List Char)
  | 0, _ => none
  | n + 1, text =>
    match text with
    | '\x22' :: text => do
      let (k, text) ← units? text
      match skip text with
      | ':' :: text =>
        let (v, text) ← value? n (skip text)
        match skip text with
        | '\x7d' :: rest => return ([(joinSurrogates k, v)], rest)
        | ',' :: text =>
          let (ms, rest) ← members? n (skip text)
          return ((joinSurrogates k, v) :: ms, rest)
        | _ => none
      | _ => none
    | _ => none

end

/-- `json.loads`, with a hook that refuses an object in which a key is repeated. -/
def loads? (text : List Char) : Option Json :=
  (value? (2 * text.length + 2) (skip text)).bind fun (v, rest) ↦
    if skip rest = [] then some v else none

/-! ## What is parsed is spelled -/

theorem word?_spec {text rest : List Char} {v : Json} (h : word? text = some (v, rest)) :
    Spells text (.value v) rest := by
  unfold word? at h
  split at h <;> cases h
  · exact .nullWord
  · exact .trueWord
  · exact .falseWord

/-- More spaces may come before the first item. -/
theorem Spells.items_spaces {text text' rest : List Char} {vs : List Json}
    (h : Spells text' (.items vs) rest) (hspaces : Spaces text text') :
    Spells text (.items vs) rest := by
  cases h with
  | item h hv h' => exact .item (hspaces.trans h) hv h'
  | items h hv h' hvs => exact .items (hspaces.trans h) hv h' hvs

theorem Spells.members_spaces {text text' rest : List Char} {ms : List (Text × Json)}
    (h : Spells text' (.members ms) rest) (hspaces : Spaces text text') :
    Spells text (.members ms) rest := by
  cases h with
  | member h hk hcolon hspace hv h' => exact .member (hspaces.trans h) hk hcolon hspace hv h'
  | members h hk hcolon hspace hv h' hms =>
    exact .members (hspaces.trans h) hk hcolon hspace hv h' hms

/-- The next token is what is left after the spaces. -/
theorem spaces_of_skip {text rest : List Char} (h : skip text = rest) : Spaces text rest :=
  h ▸ spaces_skip text

theorem items_of_parsed {n : ℕ} {text rest : List Char} {vs : List Json}
    (hvalue : ∀ text v rest, value? n text = some (v, rest) → Spells text (.value v) rest)
    (hitems : ∀ text vs rest, items? n text = some (vs, rest) → Spells text (.items vs) rest)
    (h : items? (n + 1) text = some (vs, rest)) : Spells text (.items vs) rest := by
  unfold items? at h
  obtain ⟨⟨v, text₂⟩, hv, h⟩ := Option.bind_eq_some_iff.mp h
  dsimp only at h
  split at h
  · rename_i hskip
    cases h
    exact .item (.refl text) (hvalue _ _ _ hv) (spaces_of_skip hskip)
  · rename_i text₃ hskip
    obtain ⟨⟨vs', rest'⟩, hvs, h⟩ := Option.bind_eq_some_iff.mp h
    cases h
    exact .items (.refl text) (hvalue _ _ _ hv) (spaces_of_skip hskip)
      ((hitems _ _ _ hvs).items_spaces (spaces_skip text₃))
  · cases h

theorem members_of_parsed {n : ℕ} {text rest : List Char} {ms : List (Text × Json)}
    (hvalue : ∀ text v rest, value? n text = some (v, rest) → Spells text (.value v) rest)
    (hmembers : ∀ text ms rest, members? n text = some (ms, rest) →
      Spells text (.members ms) rest)
    (h : members? (n + 1) text = some (ms, rest)) : Spells text (.members ms) rest := by
  unfold members? at h
  split at h
  · rename_i text₁
    obtain ⟨⟨k, text₂⟩, hk, h⟩ := Option.bind_eq_some_iff.mp h
    dsimp only at h
    split at h
    · rename_i text₃ hcolon
      obtain ⟨⟨v, text₅⟩, hv, h⟩ := Option.bind_eq_some_iff.mp h
      dsimp only at h
      split at h
      · rename_i hskip
        cases h
        exact .member (.refl _) (units?_spec hk) (spaces_of_skip hcolon) (spaces_skip text₃)
          (hvalue _ _ _ hv) (spaces_of_skip hskip)
      · rename_i text₆ hskip
        obtain ⟨⟨ms', rest'⟩, hms, h⟩ := Option.bind_eq_some_iff.mp h
        cases h
        exact .members (.refl _) (units?_spec hk) (spaces_of_skip hcolon) (spaces_skip text₃)
          (hvalue _ _ _ hv) (spaces_of_skip hskip)
          ((hmembers _ _ _ hms).members_spaces (spaces_skip text₆))
      · cases h
    · cases h
  · cases h

theorem value_of_parsed {n : ℕ} {text rest : List Char} {v : Json}
    (hitems : ∀ text vs rest, items? n text = some (vs, rest) → Spells text (.items vs) rest)
    (hmembers : ∀ text ms rest, members? n text = some (ms, rest) →
      Spells text (.members ms) rest)
    (h : value? (n + 1) text = some (v, rest)) : Spells text (.value v) rest := by
  unfold value? at h
  split at h
  · obtain ⟨⟨s, rest'⟩, hunits, h⟩ := Option.map_eq_some_iff.mp h
    cases h
    exact .string (units?_spec hunits)
  · rename_i text
    split at h
    · rename_i hskip
      cases h
      exact .noItems (spaces_of_skip hskip)
    · obtain ⟨⟨vs, rest'⟩, hvs, h⟩ := Option.map_eq_some_iff.mp h
      cases h
      exact .array ((hitems _ _ _ hvs).items_spaces (spaces_skip text))
  · rename_i text
    split at h
    · rename_i hskip
      cases h
      exact .noMembers (spaces_of_skip hskip)
    · obtain ⟨⟨ms, rest'⟩, hms, h⟩ := Option.bind_eq_some_iff.mp h
      dsimp only at h
      split at h
      · rename_i hkeys
        cases h
        exact .object ((hmembers _ _ _ hms).members_spaces (spaces_skip text)) hkeys
      · cases h
  · rcases Option.or_eq_some_iff.mp h with h | ⟨-, h⟩
    · exact word?_spec h
    · obtain ⟨number, hnumber, rfl⟩ := number?_spec h
      exact .number hnumber

/-- What any of the parsers reads is spelled. -/
theorem spells_of_parsed (n : ℕ) :
    (∀ text v rest, value? n text = some (v, rest) → Spells text (.value v) rest) ∧
    (∀ text vs rest, items? n text = some (vs, rest) → Spells text (.items vs) rest) ∧
    ∀ text ms rest, members? n text = some (ms, rest) → Spells text (.members ms) rest := by
  induction n with
  | zero =>
    refine ⟨?_, ?_, ?_⟩ <;> intro _ _ _ h <;> cases h
  | succ n ih =>
    obtain ⟨hvalue, hitems, hmembers⟩ := ih
    exact ⟨fun _ _ _ h ↦ value_of_parsed hitems hmembers h,
      fun _ _ _ h ↦ items_of_parsed hvalue hitems h,
      fun _ _ _ h ↦ members_of_parsed hvalue hmembers h⟩

theorem document_of_loads {text : List Char} {v : Json} (h : loads? text = some v) :
    Document text v := by
  obtain ⟨⟨v', rest⟩, hread, h⟩ := Option.bind_eq_some_iff.mp h
  dsimp only at h
  split at h
  · rename_i hend
    cases h
    exact ⟨skip text, rest, spaces_skip text, (spells_of_parsed _).1 _ _ _ hread,
      spaces_of_skip hend⟩
  · cases h

/-! ## What is spelled is parsed

A scanner takes all it can, so a value is read back where nothing continues it; inside brackets a
space or a token follows it, which does not. -/

theorem not_space_of_number {c : Char} (h : c = '-' ∨ c.isDigit = true) :
    isSpace c = false ∧ c ≠ ']' := by
  constructor
  · rw [Bool.eq_false_iff]
    intro hspace
    simp only [isSpace, Bool.or_eq_true, decide_eq_true_eq] at hspace
    rcases hspace with ((rfl | rfl) | rfl) | rfl <;> exact absurd h (by decide)
  · rintro rfl
    exact absurd h (by decide)

/-- A value starts with a character of its own. -/
theorem Spells.head {text rest : List Char} {v : Json} (h : Spells text (.value v) rest) :
    ∃ c tail, text = c :: tail ∧ isSpace c = false ∧ c ≠ ']' := by
  cases h with
  | number h =>
    obtain ⟨c, tail, rfl, hc⟩ := h.head
    exact ⟨c, tail ++ rest, rfl, not_space_of_number hc⟩
  | _ => exact ⟨_, _, rfl, by decide, by decide⟩

/-- Spaces before a value are skipped. -/
theorem Spells.skip_eq {text text' rest : List Char} {v : Json} (hspaces : Spaces text text')
    (h : Spells text' (.value v) rest) : skip text = text' := by
  obtain ⟨c, tail, rfl, hc, -⟩ := h.head
  exact hspaces.skip_eq (by rintro _ ⟨⟩; exact hc)

theorem closed_of_spaces {text rest : List Char} (h : Spaces text rest)
    (hrest : Closed rest) : Closed text := by
  obtain ⟨spaces, hspaces, rfl⟩ := h
  cases spaces with
  | nil => exact hrest
  | cons c spaces =>
    rintro _ ⟨⟩
    have hc := hspaces c List.mem_cons_self
    simp only [isSpace, Bool.or_eq_true, decide_eq_true_eq] at hc
    rcases hc with ((rfl | rfl) | rfl) | rfl <;> decide

/-- A number is read by the scanner of numbers. -/
theorem value?_number {n : ℕ} {c : Char} {tail : List Char} (h : c = '-' ∨ c.isDigit = true) :
    value? (n + 1) (c :: tail) = number? (c :: tail) := by
  have hword : word? (c :: tail) = none := by
    unfold word?
    split
    · rename_i heq
      cases heq
      exact absurd h (by decide)
    · rename_i heq
      cases heq
      exact absurd h (by decide)
    · rename_i heq
      cases heq
      exact absurd h (by decide)
    · rfl
  unfold value?
  split
  · rename_i heq
    cases heq
    exact absurd h (by decide)
  · rename_i heq
    cases heq
    exact absurd h (by decide)
  · rename_i heq
    cases heq
    exact absurd h (by decide)
  · rw [hword, Option.none_or]

/-- The part is read off the text by its parser. -/
def Parses (n : ℕ) (text : List Char) : Part → List Char → Prop
  | .value v, rest => Closed rest → value? n text = some (v, rest)
  | .items vs, rest => items? n (skip text) = some (vs, rest)
  | .members ms, rest => members? n (skip text) = some (ms, rest)

/-- The fuel that reads a part: two for each character, and one more in brackets. -/
def fuel (text : List Char) : Part → ℕ
  | .value _ => 2 * text.length + 1
  | _ => 2 * text.length + 2

/-- Items start with a value. -/
theorem Spells.items_head {text rest : List Char} {vs : List Json}
    (h : Spells text (.items vs) rest) : ∀ rest', skip text ≠ ']' :: rest' := by
  have hstart : ∃ text₁ v text₂, Spaces text text₁ ∧ Spells text₁ (.value v) text₂ := by
    cases h with
    | item h hv h' => exact ⟨_, _, _, h, hv⟩
    | items h hv h' hvs => exact ⟨_, _, _, h, hv⟩
  obtain ⟨text₁, v, text₂, hspaces, hv⟩ := hstart
  intro rest' heq
  rw [hv.skip_eq hspaces] at heq
  obtain ⟨c, tail, rfl, -, hc⟩ := hv.head
  exact hc (List.cons.inj heq).1

/-- Members start with a quotation mark. -/
theorem Spells.members_head {text rest : List Char} {ms : List (Text × Json)}
    (h : Spells text (.members ms) rest) : ∀ rest', skip text ≠ '\x7d' :: rest' := by
  have hstart : ∃ text₁, Spaces text ('\x22' :: text₁) := by
    cases h with
    | member h => exact ⟨_, h⟩
    | members h => exact ⟨_, h⟩
  obtain ⟨text₁, hspaces⟩ := hstart
  intro rest' heq
  rw [hspaces.skip_eq (by rintro _ ⟨⟩; decide)] at heq
  cases heq

/-! ### The steps of the parser -/

theorem value?_string {n : ℕ} {text rest : List Char} {s : Text} (h : Units text s rest) :
    value? (n + 1) ('\x22' :: text) = some (.string (joinSurrogates s), rest) := by
  have hstep : value? (n + 1) ('\x22' :: text) =
      (units? text).map fun (s, rest) ↦ (.string (joinSurrogates s), rest) := rfl
  rw [hstep, units?_eq h]
  rfl

theorem value?_noItems {n : ℕ} {text rest : List Char} (h : skip text = ']' :: rest) :
    value? (n + 1) ('[' :: text) = some (.array [], rest) := by
  have hstep : value? (n + 1) ('[' :: text) = match skip text with
      | ']' :: rest => some (.array [], rest)
      | text => (items? n text).map fun (vs, rest) ↦ (.array vs, rest) := rfl
  rw [hstep, h]
  rfl

theorem value?_array {n : ℕ} {text rest : List Char} {vs : List Json}
    (hhead : ∀ rest', skip text ≠ ']' :: rest') (h : items? n (skip text) = some (vs, rest)) :
    value? (n + 1) ('[' :: text) = some (.array vs, rest) := by
  have hstep : value? (n + 1) ('[' :: text) = match skip text with
      | ']' :: rest => some (.array [], rest)
      | text => (items? n text).map fun (vs, rest) ↦ (.array vs, rest) := rfl
  rw [hstep]
  split
  · rename_i heq
    exact absurd heq (hhead _)
  · rw [h]
    rfl

theorem value?_noMembers {n : ℕ} {text rest : List Char} (h : skip text = '\x7d' :: rest) :
    value? (n + 1) ('\x7b' :: text) = some (.object [], rest) := by
  have hstep : value? (n + 1) ('\x7b' :: text) = match skip text with
      | '\x7d' :: rest => some (.object [], rest)
      | text => (members? n text).bind fun (ms, rest) ↦
        if (ms.map Prod.fst).Nodup then some (.object ms, rest) else none := rfl
  rw [hstep, h]
  rfl

theorem value?_object {n : ℕ} {text rest : List Char} {ms : List (Text × Json)}
    (hhead : ∀ rest', skip text ≠ '\x7d' :: rest')
    (h : members? n (skip text) = some (ms, rest)) (hkeys : (ms.map Prod.fst).Nodup) :
    value? (n + 1) ('\x7b' :: text) = some (.object ms, rest) := by
  have hstep : value? (n + 1) ('\x7b' :: text) = match skip text with
      | '\x7d' :: rest => some (.object [], rest)
      | text => (members? n text).bind fun (ms, rest) ↦
        if (ms.map Prod.fst).Nodup then some (.object ms, rest) else none := rfl
  rw [hstep]
  split
  · rename_i heq
    exact absurd heq (hhead _)
  · rw [h, Option.bind_some]
    exact if_pos hkeys

theorem items?_last {n : ℕ} {text text₂ rest : List Char} {v : Json}
    (hv : value? n text = some (v, text₂)) (h : skip text₂ = ']' :: rest) :
    items? (n + 1) text = some ([v], rest) := by
  unfold items?
  rw [hv, Option.bind_eq_bind, Option.bind_some]
  dsimp only
  rw [h]
  rfl

theorem items?_more {n : ℕ} {text text₂ text₃ rest : List Char} {v : Json} {vs : List Json}
    (hv : value? n text = some (v, text₂)) (h : skip text₂ = ',' :: text₃)
    (hvs : items? n (skip text₃) = some (vs, rest)) :
    items? (n + 1) text = some (v :: vs, rest) := by
  have hstep : items? (n + 1) text = do
      let (vs, rest) ← items? n (skip text₃)
      return (v :: vs, rest) := by
    change (value? n text).bind _ = _
    rw [hv, Option.bind_some]
    dsimp only
    rw [h]
    rfl
  rw [hstep, hvs]
  rfl

/-- A member is read up to its value. -/
theorem members?_step {n : ℕ} {text₁ text₂ text₃ text₅ : List Char} {k : Text} {v : Json}
    (hk : Units text₁ k text₂) (hcolon : skip text₂ = ':' :: text₃)
    (hv : value? n (skip text₃) = some (v, text₅)) :
    members? (n + 1) ('\x22' :: text₁) = match skip text₅ with
      | '\x7d' :: rest => some ([(joinSurrogates k, v)], rest)
      | ',' :: text => (members? n (skip text)).bind fun (ms, rest) ↦
        some ((joinSurrogates k, v) :: ms, rest)
      | _ => none := by
  have hcolon' : members? (n + 1) ('\x22' :: text₁) = match skip text₂ with
      | ':' :: text => (value? n (skip text)).bind fun (v, text) ↦
        match skip text with
        | '\x7d' :: rest => some ([(joinSurrogates k, v)], rest)
        | ',' :: text => (members? n (skip text)).bind fun (ms, rest) ↦
          some ((joinSurrogates k, v) :: ms, rest)
        | _ => none
      | _ => none := by
    change (units? text₁).bind _ = _
    rw [units?_eq hk]
    rfl
  have hvalue : members? (n + 1) ('\x22' :: text₁) =
      (value? n (skip text₃)).bind fun (v, text) ↦
        match skip text with
        | '\x7d' :: rest => some ([(joinSurrogates k, v)], rest)
        | ',' :: text => (members? n (skip text)).bind fun (ms, rest) ↦
          some ((joinSurrogates k, v) :: ms, rest)
        | _ => none := by
    rw [hcolon', hcolon]
    rfl
  rw [hvalue, hv]
  rfl

theorem members?_last {n : ℕ} {text₁ text₂ text₃ text₅ rest : List Char} {k : Text} {v : Json}
    (hk : Units text₁ k text₂) (hcolon : skip text₂ = ':' :: text₃)
    (hv : value? n (skip text₃) = some (v, text₅)) (h : skip text₅ = '\x7d' :: rest) :
    members? (n + 1) ('\x22' :: text₁) = some ([(joinSurrogates k, v)], rest) := by
  rw [members?_step hk hcolon hv, h]
  rfl

theorem members?_more {n : ℕ} {text₁ text₂ text₃ text₅ text₆ rest : List Char} {k : Text}
    {v : Json} {ms : List (Text × Json)} (hk : Units text₁ k text₂)
    (hcolon : skip text₂ = ':' :: text₃) (hv : value? n (skip text₃) = some (v, text₅))
    (h : skip text₅ = ',' :: text₆) (hms : members? n (skip text₆) = some (ms, rest)) :
    members? (n + 1) ('\x22' :: text₁) = some ((joinSurrogates k, v) :: ms, rest) := by
  have hstep : members? (n + 1) ('\x22' :: text₁) = (members? n (skip text₆)).bind
      fun (ms, rest) ↦ some ((joinSurrogates k, v) :: ms, rest) := by
    rw [members?_step hk hcolon hv, h]
    rfl
  rw [hstep, hms]
  rfl

/-! ### The parts of a text -/

/-- A token that is no space is what is left after the spaces before it. -/
theorem skip_token {text rest : List Char} {c : Char} (h : Spaces text (c :: rest))
    (hc : isSpace c = false) : skip text = c :: rest :=
  h.skip_eq (by rintro _ ⟨⟩; exact hc)

/-- A closing token follows a value closely enough. -/
theorem closed_of_token {text rest : List Char} {c : Char} (h : Spaces text (c :: rest))
    (hc : c = ']' ∨ c = '\x7d' ∨ c = ',') : Closed text := by
  refine closed_of_spaces h ?_
  rintro _ ⟨⟩
  rcases hc with rfl | rfl | rfl <;> decide

theorem parses_of_spells {text rest : List Char} {part : Part} (h : Spells text part rest) :
    rest.length < text.length ∧ ∀ n, fuel text part < n → Parses n text part rest := by
  induction h with
  | nullWord =>
    refine ⟨by simp only [List.length_cons]; omega, fun n hn _ ↦ ?_⟩
    obtain ⟨n, rfl⟩ := Nat.exists_eq_add_of_lt hn
    rfl
  | trueWord =>
    refine ⟨by simp only [List.length_cons]; omega, fun n hn _ ↦ ?_⟩
    obtain ⟨n, rfl⟩ := Nat.exists_eq_add_of_lt hn
    rfl
  | falseWord =>
    refine ⟨by simp only [List.length_cons]; omega, fun n hn _ ↦ ?_⟩
    obtain ⟨n, rfl⟩ := Nat.exists_eq_add_of_lt hn
    rfl
  | number h =>
    obtain ⟨c, tail, rfl, hc⟩ := h.head
    refine ⟨by simp only [List.length_append, List.length_cons]; omega, fun n hn hclosed ↦ ?_⟩
    obtain ⟨n, rfl⟩ := Nat.exists_eq_add_of_lt hn
    rw [← number?_append h hclosed]
    exact value?_number hc
  | string h =>
    have hlength := h.length_lt
    refine ⟨by simp only [List.length_cons]; omega, fun n hn _ ↦ ?_⟩
    obtain ⟨n, rfl⟩ := Nat.exists_eq_add_of_lt hn
    exact value?_string h
  | noItems h =>
    have hlength := h.length_le
    rw [List.length_cons] at hlength
    refine ⟨by simp only [List.length_cons]; omega, fun n hn _ ↦ ?_⟩
    obtain ⟨n, rfl⟩ := Nat.exists_eq_add_of_lt hn
    exact value?_noItems (skip_token h (by decide))
  | array h ih =>
    obtain ⟨hlength, hparses⟩ := ih
    refine ⟨by simp only [List.length_cons]; omega, fun n hn _ ↦ ?_⟩
    obtain ⟨n, rfl⟩ : ∃ m, n = m + 1 := ⟨n - 1, by omega⟩
    exact value?_array h.items_head
      (hparses n (by simp only [fuel, List.length_cons] at hn ⊢; omega))
  | noMembers h =>
    have hlength := h.length_le
    rw [List.length_cons] at hlength
    refine ⟨by simp only [List.length_cons]; omega, fun n hn _ ↦ ?_⟩
    obtain ⟨n, rfl⟩ := Nat.exists_eq_add_of_lt hn
    exact value?_noMembers (skip_token h (by decide))
  | object h hkeys ih =>
    obtain ⟨hlength, hparses⟩ := ih
    refine ⟨by simp only [List.length_cons]; omega, fun n hn _ ↦ ?_⟩
    obtain ⟨n, rfl⟩ : ∃ m, n = m + 1 := ⟨n - 1, by omega⟩
    exact value?_object h.members_head
      (hparses n (by simp only [fuel, List.length_cons] at hn ⊢; omega)) hkeys
  | item h hv h' ih =>
    obtain ⟨hlength, hparses⟩ := ih
    have hbefore := h.length_le
    have hafter := h'.length_le
    rw [List.length_cons] at hafter
    refine ⟨by omega, fun n hn ↦ ?_⟩
    obtain ⟨n, rfl⟩ : ∃ m, n = m + 1 := ⟨n - 1, by omega⟩
    change items? (n + 1) (skip _) = _
    rw [hv.skip_eq h]
    exact items?_last
      (hparses n (by simp only [fuel] at hn ⊢; omega) (closed_of_token h' (.inl rfl)))
      (skip_token h' (by decide))
  | items h hv h' hvs ihv ihvs =>
    obtain ⟨hlength, hparses⟩ := ihv
    obtain ⟨hlengths, hmore⟩ := ihvs
    have hbefore := h.length_le
    have hafter := h'.length_le
    rw [List.length_cons] at hafter
    refine ⟨by omega, fun n hn ↦ ?_⟩
    obtain ⟨n, rfl⟩ : ∃ m, n = m + 1 := ⟨n - 1, by omega⟩
    change items? (n + 1) (skip _) = _
    rw [hv.skip_eq h]
    exact items?_more
      (hparses n (by simp only [fuel] at hn ⊢; omega) (closed_of_token h' (.inr (.inr rfl))))
      (skip_token h' (by decide)) (hmore n (by simp only [fuel] at hn ⊢; omega))
  | member h hk hcolon hspace hv h' ih =>
    obtain ⟨hlength, hparses⟩ := ih
    have hbefore := h.length_le
    have hkey := hk.length_lt
    have hafter := hcolon.length_le
    have hvalue := hspace.length_le
    have hclose := h'.length_le
    simp only [List.length_cons] at hbefore hafter hclose
    refine ⟨by omega, fun n hn ↦ ?_⟩
    obtain ⟨n, rfl⟩ : ∃ m, n = m + 1 := ⟨n - 1, by omega⟩
    change members? (n + 1) (skip _) = _
    rw [skip_token h (by decide)]
    refine members?_last hk (skip_token hcolon (by decide)) ?_ (skip_token h' (by decide))
    rw [hv.skip_eq hspace]
    exact hparses n (by simp only [fuel] at hn ⊢; omega) (closed_of_token h' (.inr (.inl rfl)))
  | members h hk hcolon hspace hv h' hms ihv ihms =>
    obtain ⟨hlength, hparses⟩ := ihv
    obtain ⟨hlengths, hmore⟩ := ihms
    have hbefore := h.length_le
    have hkey := hk.length_lt
    have hafter := hcolon.length_le
    have hvalue := hspace.length_le
    have hcomma := h'.length_le
    simp only [List.length_cons] at hbefore hafter hcomma
    refine ⟨by omega, fun n hn ↦ ?_⟩
    obtain ⟨n, rfl⟩ : ∃ m, n = m + 1 := ⟨n - 1, by omega⟩
    change members? (n + 1) (skip _) = _
    rw [skip_token h (by decide)]
    refine members?_more hk (skip_token hcolon (by decide)) ?_ (skip_token h' (by decide))
      (hmore n (by simp only [fuel] at hn ⊢; omega))
    rw [hv.skip_eq hspace]
    exact hparses n (by simp only [fuel] at hn ⊢; omega) (closed_of_token h' (.inr (.inr rfl)))

/-- `json.loads` reads exactly the documents. -/
theorem loads?_eq_some {text : List Char} {v : Json} :
    loads? text = some v ↔ Document text v := by
  refine ⟨document_of_loads, ?_⟩
  rintro ⟨text₁, text₂, hbefore, hv, hafter⟩
  have hend : skip text₂ = [] := hafter.skip_eq (by simp)
  have hclosed : Closed text₂ := closed_of_spaces hafter (by rintro _ ⟨⟩)
  have hlength := hbefore.length_le
  have hread : value? (2 * text.length + 2) (skip text) = some (v, text₂) := by
    rw [hv.skip_eq hbefore]
    exact (parses_of_spells hv).2 _ (by simp only [fuel]; omega) hclosed
  rw [loads?, hread, Option.bind_some]
  exact if_pos hend

/-- A text is one value at most. -/
theorem Document.unique {text : List Char} {v v' : Json} (h : Document text v)
    (h' : Document text v') : v = v' :=
  Option.some.inj ((loads?_eq_some.mpr h).symm.trans (loads?_eq_some.mpr h'))

end Conjectures.Lib.Json
