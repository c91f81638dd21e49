import Conjectures.Lib.Json
import Conjectures.Lib.Transaction

/-!
# Lean names

The components of a name, how a name is written and read back, and how it stands in the report of
the extractor.

A component of a name is a text or a number, and stands between guillemets where it is no
identifier.  Only ASCII is taken for an identifier.  A printable name is read back as itself
(`Printable`).
-/

namespace Conjectures.Versions

open Lib

/-- What the validator refuses with, and what Python raises where a value is not of the kind that
is expected. -/
inductive Refusal where
  /-- `DEPENDENCY_IDENTITY_MISMATCH` -/
  | dependencyIdentityMismatch
  /-- `ENVIRONMENT_MISMATCH` -/
  | environmentMismatch
  | keyError
  /-- an array or an object is looked up in a set -/
  | typeError
  /-- half a surrogate pair has no UTF-8 -/
  | unicodeEncodeError
  /-- the bound on the passes of a loop, which is never met -/
  | exhausted
  deriving DecidableEq, Repr

inductive Component where
  | text (s : Text)
  | number (n : ℕ)
  deriving DecidableEq, Repr

abbrev Name := List Component

instance Name.lawfulBEq : LawfulBEq Name := inferInstance

/-! ## As text -/

/-- `.` -/
def dot : ℕ := 0x2e

/-- `«` -/
def opening : ℕ := 0xab

/-- `»` -/
def closing : ℕ := 0xbb

/-- `str.removeprefix` -/
def removePrefix (start s : Text) : Text := if start.isPrefixOf s then s.drop start.length else s

/-- `str.removesuffix` -/
def removeSuffix (ending s : Text) : Text :=
  if ending.isSuffixOf s then s.take (s.length - ending.length) else s

/-- `re.findall(r"«[^»]*»|[^.]+", name)`, for at most as many matches as there are characters. -/
def nameSegments : ℕ → Text → List Text
  | 0, _ => []
  | _ + 1, [] => []
  | matched + 1, c :: rest =>
    if c = opening ∧ closing ∈ rest then
      (c :: rest.takeWhile (· ≠ closing) ++ [closing]) ::
        nameSegments matched ((rest.dropWhile (· ≠ closing)).drop 1)
    else if c = dot then nameSegments matched rest
    else (c :: rest.takeWhile (· ≠ dot)) :: nameSegments matched (rest.dropWhile (· ≠ dot))

/-- `lean_name_parts` -/
def leanNameParts (value : Text) : Except Refusal Name := do
  let rooted := removePrefix (text "_root_.") value
  let parts := (nameSegments rooted.length rooted).map fun part ↦
    removeSuffix [closing] (removePrefix [opening] part)
  require (parts ≠ [] ∧ [] ∉ parts) .dependencyIdentityMismatch
  return parts.map .text

def isLetter (c : ℕ) : Bool := (65 ≤ c && c ≤ 90) || (97 ≤ c && c ≤ 122) || c == 95

/-- `LEAN_IDENTIFIER_ROOT.fullmatch` -/
def isIdentifierRoot : Text → Bool
  | [] => false
  | c :: s => isLetter c && s.all fun d ↦ isLetter d || (48 ≤ d && d ≤ 57) || d == 39

def renderComponent : Component → Text
  | .number n => (Nat.toDigits 10 n).map Char.toNat
  | .text s => if isIdentifierRoot s then s else opening :: s ++ [closing]

/-- `name_text` -/
def nameText (name : Name) : Text := List.intercalate [dot] (name.map renderComponent)

/-! ## As JSON -/

def numberMark : Text := text "#"

def componentFromJson : Json → Except Refusal Component
  | .string s => do
    require (s ≠ []) .dependencyIdentityMismatch
    return .text s
  | .array [.string mark, .int n] => do
    require (mark = numberMark ∧ 0 ≤ n) .dependencyIdentityMismatch
    return .number n.toNat
  | _ => throw .dependencyIdentityMismatch

/-- `name_from_json` -/
def nameFromJson : Json → Except Refusal Name
  | .array (component :: components) => (component :: components).mapM componentFromJson
  | _ => throw .dependencyIdentityMismatch

def componentJson : Component → Json
  | .text s => .string s
  | .number n => .array [.string numberMark, .int n]

/-- `name_json` -/
def nameJson (name : Name) : Json := .array (name.map componentJson)

theorem componentJson_injective : Function.Injective componentJson := by
  intro c c' h
  cases c with
  | text s =>
    cases c' with
    | text s' => exact congrArg _ (Json.string.inj h)
    | number n' => cases h
  | number n =>
    cases c' with
    | text s' => cases h
    | number n' =>
      have hitems := (List.cons.inj (List.cons.inj (Json.array.inj h)).2).1
      exact congrArg _ (Int.ofNat.inj (Json.int.inj hitems))

theorem nameJson_injective : Function.Injective nameJson := by
  intro name name' h
  exact List.map_injective_iff.mpr componentJson_injective (Json.array.inj h)

/-! ## What is written is read back -/

/-- A name of texts that are not empty and hold no closing quotation mark, the first of which is
not the root. -/
structure Printable (name : Name) : Prop where
  nonempty : name ≠ []
  texts : ∀ c ∈ name, ∃ s, c = .text s ∧ s ≠ [] ∧ closing ∉ s
  rooted : name.head? ≠ some (.text (text "_root_"))

/-- Nothing here continues a component. -/
def Ends (rest : Text) : Prop := rest = [] ∨ ∃ rest', rest = dot :: rest'

variable {s rest : Text}

/-- A text is taken up to the first mark. -/
theorem span_mark {m : ℕ} (hs : m ∉ s) (hrest : ∀ c ∈ rest.head?, c = m) :
    (s ++ rest).takeWhile (fun c ↦ decide (c ≠ m)) = s ∧
      (s ++ rest).dropWhile (fun c ↦ decide (c ≠ m)) = rest := by
  refine Json.span_run (fun c hc ↦ decide_eq_true fun h ↦ hs (h ▸ hc)) fun c hc ↦ ?_
  exact decide_eq_false (not_not_intro (hrest c hc))

theorem Ends.head (h : Ends rest) : ∀ c ∈ rest.head?, c = dot := by
  rcases h with rfl | ⟨rest, rfl⟩
  · simp
  · intro c hc
    exact (Option.some.inj hc).symm

/-- What is written plainly holds no mark of its own. -/
theorem plain_of_identifier (h : isIdentifierRoot s = true) :
    s ≠ [] ∧ dot ∉ s ∧ opening ∉ s ∧ closing ∉ s := by
  cases s with
  | nil => cases h
  | cons c s =>
    simp only [isIdentifierRoot, isLetter, Bool.and_eq_true, List.all_eq_true, Bool.or_eq_true,
      decide_eq_true_eq, beq_iff_eq] at h
    obtain ⟨hc, hs⟩ := h
    have hnot (m : ℕ) (hm : m = 0x2e ∨ m = 0xab ∨ m = 0xbb) : m ∉ c :: s := by
      rw [List.mem_cons]
      rintro (rfl | hmem)
      · omega
      · have := hs m hmem
        omega
    exact ⟨by simp, hnot dot (.inl rfl), hnot opening (.inr (.inl rfl)),
      hnot closing (.inr (.inr rfl))⟩

theorem nameSegments_plain (hs : isIdentifierRoot s = true) (hrest : Ends rest) (n : ℕ) :
    nameSegments (n + 1) (s ++ rest) = s :: nameSegments n rest := by
  obtain ⟨hne, hdot, hopening, -⟩ := plain_of_identifier hs
  cases s with
  | nil => exact absurd rfl hne
  | cons c s =>
    rw [List.mem_cons, not_or] at hdot hopening
    obtain ⟨htake, hdrop⟩ := span_mark hdot.2 hrest.head
    rw [List.cons_append, nameSegments, if_neg (fun h ↦ hopening.1 h.1.symm),
      if_neg (Ne.symm hdot.1), htake, hdrop]

theorem nameSegments_quoted (hs : closing ∉ s) (n : ℕ) :
    nameSegments (n + 1) (opening :: s ++ [closing] ++ rest) =
      (opening :: s ++ [closing]) :: nameSegments n rest := by
  obtain ⟨htake, hdrop⟩ := span_mark hs (fun c hc ↦ (Option.some.inj hc).symm : ∀ c ∈ (closing :: rest).head?, c = closing)
  rw [List.append_assoc, List.cons_append, List.singleton_append, nameSegments,
    if_pos ⟨rfl, by simp⟩, htake, hdrop]
  rfl

/-- A component is one segment, and what follows is split further. -/
theorem nameSegments_render (hs : closing ∉ s) (hrest : Ends rest) (n : ℕ) :
    nameSegments (n + 1) (renderComponent (.text s) ++ rest) =
      renderComponent (.text s) :: nameSegments n rest := by
  rw [renderComponent]
  split
  · next hplain => exact nameSegments_plain hplain hrest n
  · exact nameSegments_quoted hs n

theorem nameSegments_dot (n : ℕ) : nameSegments (n + 1) (dot :: rest) = nameSegments n rest := by
  rw [nameSegments, if_neg (fun h ↦ absurd h.1 (by decide)), if_pos rfl]

theorem renderComponent_ne_nil (hs : s ≠ []) : renderComponent (.text s) ≠ [] := by
  rw [renderComponent]
  split
  · exact hs
  · simp

theorem nameText_cons (c : Component) (name : Name) :
    nameText (c :: name) =
      renderComponent c ++ if name = [] then [] else dot :: nameText name := by
  cases name with
  | nil => simp [nameText]
  | cons c' name => simp [nameText, List.intercalate]

theorem ends_tail (name : Name) : Ends (if name = [] then [] else dot :: nameText name) := by
  split
  · exact .inl rfl
  · exact .inr ⟨_, rfl⟩

/-- The segments of a name that is written are its components as they are written. -/
theorem nameSegments_nameText {name : Name}
    (h : ∀ c ∈ name, ∃ s, c = .text s ∧ s ≠ [] ∧ closing ∉ s) (n : ℕ)
    (hn : (nameText name).length ≤ n) :
    nameSegments n (nameText name) = name.map renderComponent := by
  induction name generalizing n with
  | nil => cases n <;> rfl
  | cons c name ih =>
    obtain ⟨s, rfl, hne, hs⟩ := h c List.mem_cons_self
    have hpos := List.length_pos_iff.mpr (renderComponent_ne_nil hne)
    rw [nameText_cons] at hn ⊢
    rw [List.length_append] at hn
    obtain ⟨n, rfl⟩ : ∃ m, n = m + 1 := ⟨n - 1, by omega⟩
    rw [nameSegments_render hs (ends_tail name), List.map_cons]
    congr 1
    split at hn
    · next hnil =>
      subst hnil
      cases n <;> rfl
    · next hname =>
      rw [if_neg hname]
      rw [List.length_cons] at hn
      obtain ⟨n, rfl⟩ : ∃ m, n = m + 1 := ⟨n - 1, by omega⟩
      rw [nameSegments_dot]
      exact ih (fun c hc ↦ h c (List.mem_cons_of_mem _ hc)) n (by omega)

theorem isPrefixOf_singleton (c : ℕ) (s : Text) :
    [c].isPrefixOf s = true ↔ s.head? = some c := by
  cases s with
  | nil => simp
  | cons d s =>
    rw [List.isPrefixOf_cons_cons, List.isPrefixOf_nil_left, Bool.and_true, beq_iff_eq,
      List.head?_cons, Option.some.injEq]
    exact eq_comm

/-- The quotation marks are taken off again. -/
theorem strip_render (hs : closing ∉ s) :
    removeSuffix [closing] (removePrefix [opening] (renderComponent (.text s))) = s := by
  have hsuffix {s : Text} (hs : closing ∉ s) : removeSuffix [closing] s = s := by
    rw [removeSuffix, if_neg]
    intro h
    have hmem := (List.isSuffixOf_iff_suffix.mp h).subset List.mem_cons_self
    exact hs hmem
  rw [renderComponent]
  split
  · next hplain =>
    have hopening := (plain_of_identifier hplain).2.2.1
    have hstart : removePrefix [opening] s = s := by
      rw [removePrefix, if_neg]
      intro h
      exact hopening (List.mem_of_mem_head? ((isPrefixOf_singleton _ _).mp h))
    rw [hstart, hsuffix hs]
  · have hstart : removePrefix [opening] (opening :: s ++ [closing]) = s ++ [closing] := by
      rw [removePrefix, if_pos ((isPrefixOf_singleton _ _).mpr rfl)]
      rfl
    have hends : [closing].isSuffixOf (s ++ [closing]) = true :=
      List.isSuffixOf_iff_suffix.mpr (List.suffix_append _ _)
    rw [hstart, removeSuffix, if_pos hends]
    simp

/-- Only the root is written as the root. -/
theorem removePrefix_nameText {name : Name} (h : Printable name) :
    removePrefix (text "_root_.") (nameText name) = nameText name := by
  rw [removePrefix, if_neg]
  intro hstart
  obtain ⟨tail, htail⟩ := List.isPrefixOf_iff_prefix.mp hstart
  cases name with
  | nil => exact h.nonempty rfl
  | cons c name =>
    obtain ⟨s, rfl, -, -⟩ := h.texts c List.mem_cons_self
    have hroot : text "_root_." = text "_root_" ++ [dot] := by decide
    rw [nameText_cons, hroot, List.append_assoc, List.singleton_append, renderComponent] at htail
    split at htail
    · next hplain =>
      have hdot := (plain_of_identifier hplain).2.1
      have hs := (span_mark hdot (ends_tail name).head).1
      have hrooted := (span_mark (m := dot) (by decide) (fun c hc ↦ (Option.some.inj hc).symm) :
        (text "_root_" ++ dot :: tail).takeWhile (fun c ↦ decide (c ≠ dot)) = _ ∧ _).1
      rw [htail, hs] at hrooted
      exact h.rooted (by rw [hrooted]; rfl)
    · have hhead := congrArg List.head? htail
      simp [text, opening] at hhead

theorem Printable.exists_texts {name : Name}
    (h : ∀ c ∈ name, ∃ s, c = .text s ∧ s ≠ [] ∧ closing ∉ s) :
    ∃ ts : List Text, name = ts.map .text ∧ ∀ s ∈ ts, s ≠ [] ∧ closing ∉ s := by
  induction name with
  | nil => exact ⟨[], rfl, by simp⟩
  | cons c name ih =>
    obtain ⟨s, rfl, hs⟩ := h c List.mem_cons_self
    obtain ⟨ts, rfl, hts⟩ := ih fun c hc ↦ h c (List.mem_cons_of_mem _ hc)
    exact ⟨s :: ts, rfl, List.forall_mem_cons.mpr ⟨hs, hts⟩⟩

/-- A name that is printable is read back from its text. -/
theorem leanNameParts_of_printable {name : Name} (h : Printable name) :
    leanNameParts (nameText name) = .ok name := by
  have hsegments := nameSegments_nameText h.texts _ le_rfl
  have hstart := removePrefix_nameText h
  obtain ⟨ts, rfl, hts⟩ := Printable.exists_texts h.texts
  have hparts : ((ts.map Component.text).map renderComponent).map
      (fun part ↦ removeSuffix [closing] (removePrefix [opening] part)) = ts := by
    rw [List.map_map, List.map_map]
    exact (List.map_congr_left fun s hs ↦ strip_render (hts s hs).2).trans (List.map_id' ts)
  have hcheck : require (ts ≠ [] ∧ [] ∉ ts) Refusal.dependencyIdentityMismatch = .ok () := by
    refine require_eq_ok.mpr ⟨fun hnil ↦ h.nonempty (by rw [hnil]; rfl), fun hmem ↦ ?_⟩
    exact (hts [] hmem).1 rfl
  rw [leanNameParts, hstart]
  rw [hsegments, hparts, bind_of_ok hcheck]
  rfl

end Conjectures.Versions
