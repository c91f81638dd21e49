import Conjectures.Lib.Transaction
import Conjectures.Scanner.Rules

/-!
# Forbidden dependencies

The text that `check_submission` takes for the statement of a target starts at the first keyword
with the target's short name after it, and ends at the next `:=` anywhere in the file.  What Lean
takes for the statement may be something else: the declaration may be another one, and its proof
may start before that `:=`, with equations or with `where`.
-/

namespace Conjectures.Scanner

open Lib

/-! ## Statements -/

/-- What Lean makes of the file, by the places of its tokens. -/
structure Reading where
  /-- the full name of the declaration whose keyword is here -/
  declared : ℕ → List (List Char)
  /-- the bar here starts an alternative of a declaration's equations -/
  alternative : ℕ → Bool

/-- A word, as opposed to a bracket, an operator or a digit. -/
def Token.isIdentifier (token : Token) : Bool := (token.value.head?).any wordStart

variable (r : Reading) (tokens : List Token)

def depthAt (index : ℕ) : ℕ := (tokens[index]?.map Token.depth).getD 0

/-- The statement of the declaration whose keyword is at `start` does not go on here: its proof
starts, or, where it has none, another declaration. -/
def endsStatement (start index : ℕ) : Bool :=
  depthAt tokens index = depthAt tokens start &&
    (isAssign tokens index || (valueAt tokens index = ['|'] && r.alternative index) ||
      valueAt tokens index = "where".toList ||
      valueAt tokens index ∈ declarationKeywords || valueAt tokens index ∈ declarationStarts)

def statementEnd (start : ℕ) : ℕ :=
  (firstIndex (start + 1) tokens.length (endsStatement r tokens start)).getD tokens.length

/-- The token is in the statement of the target, which Lean knows by its full name. -/
def InStatement (target : List Char) (index : ℕ) : Prop :=
  ∃ start ∈ List.range (index + 1), valueAt tokens start ∈ theoremKeywords ∧
    r.declared start = leanNameParts target ∧ index < statementEnd r tokens start

instance (target : List Char) (index : ℕ) : Decidable (InStatement r tokens target index) :=
  inferInstanceAs (Decidable (∃ start ∈ List.range (index + 1), _))

/-- An identifier at this place names one of the forbidden dependencies. -/
def NamesForbidden (manifest : TaskManifest) (index : ℕ) : Prop :=
  ∃ dependency ∈ manifest.forbiddenDependencies,
    ∃ token ∈ tokens[index]?, token.isIdentifier = true ∧
      names (leanNameParts dependency) token = true

/-- Forbidden dependencies are named in the statements of the targets only. -/
def NamedInStatements (manifest : TaskManifest) : Prop :=
  ∀ index, NamesForbidden tokens manifest index →
    ∃ target ∈ manifest.theoremNames, InStatement r tokens target index

/-- Nothing that only the range of a target covers names a forbidden dependency: neither what
stands behind the end of its statement, nor what stands in another declaration that the range was
taken from. -/
def NothingOverrun (manifest : TaskManifest) : Prop :=
  ∀ target ∈ manifest.theoremNames, ∀ start assign,
    targetRange tokens target = some (start, assign) →
    ∀ index, start ≤ index → index < assign →
      r.declared start ≠ leanNameParts target ∨ statementEnd r tokens start ≤ index →
      NamesForbidden tokens manifest index →
      ∃ other ∈ manifest.theoremNames, InStatement r tokens other index

/-- The text passes every check. -/
def Accepted (category : Char → Category) (text : List Char) (manifest : TaskManifest) : Prop :=
  ∃ result, checkSubmission category text manifest = .ok result ∧ result.valid = true

/-! ## What the check of the dependencies leaves -/

variable {r tokens}

theorem firstIndex_eq_some {start stop index : ℕ} {p : ℕ → Bool}
    (h : firstIndex start stop p = some index) :
    start ≤ index ∧ index < stop ∧ p index = true ∧ ∀ j, start ≤ j → j < index → p j = false := by
  obtain ⟨hp, before, after, hsplit, hbefore⟩ := List.find?_eq_some_iff_append.mp h
  have hindex : index = start + before.length ∧ before.length < stop - start := by
    have hlen : before.length < (List.range' start (stop - start)).length := by
      rw [hsplit, List.length_append, List.length_cons]
      omega
    rw [List.length_range'] at hlen
    have hget : (List.range' start (stop - start))[before.length]? = some index := by
      rw [hsplit, List.getElem?_append_right le_rfl, Nat.sub_self, List.getElem?_cons_zero]
    rw [List.getElem?_range' hlen, Option.some.injEq] at hget
    omega
  refine ⟨by omega, by omega, hp, fun j hstart hlt ↦ ?_⟩
  have hmem : j ∈ before := by
    have hget : (List.range' start (stop - start))[j - start]? = some j := by
      rw [List.getElem?_range' (by omega)]
      congr 1
      omega
    rw [hsplit, List.getElem?_append_left (by omega)] at hget
    exact List.mem_of_getElem? hget
  simpa using hbefore j hmem

/-- The range of a target starts with a keyword and ends at the first `:=` after it. -/
theorem targetRange_spec {target : List Char} {start assign : ℕ}
    (h : targetRange tokens target = some (start, assign)) :
    valueAt tokens start ∈ theoremKeywords ∧ start ≤ assign ∧
      ∀ j, start ≤ j → j < assign → isAssign tokens j = false := by
  unfold targetRange at h
  split at h
  · cases h
  next hstart =>
    obtain ⟨-, -, hpair, -⟩ := firstIndex_eq_some hstart
    obtain ⟨assign', hassign, heq⟩ := Option.map_eq_some_iff.mp h
    cases heq
    obtain ⟨hle, -, -, hfirst⟩ := firstIndex_eq_some hassign
    simp only [Bool.and_eq_true, decide_eq_true_eq] at hpair
    exact ⟨hpair.1, hle, hfirst⟩

theorem targetRange_start_lt {target : List Char} {start assign : ℕ}
    (h : targetRange tokens target = some (start, assign)) : start < tokens.length := by
  unfold targetRange at h
  split at h
  · cases h
  next hstart =>
    obtain ⟨-, hlt, -, -⟩ := firstIndex_eq_some hstart
    obtain ⟨_, _, heq⟩ := Option.map_eq_some_iff.mp h
    cases heq
    omega

/-- A dependency that passes is named in the ranges of the targets only. -/
theorem checkDependency_passes {ranges : List (ℕ × ℕ)} {dependency : List Char}
    (h : checkDependency tokens ranges dependency = .ok []) {index : ℕ} {token : Token}
    (hget : tokens[index]? = some token) (hnames : names (leanNameParts dependency) token = true) :
    ∃ range ∈ ranges, range.1 ≤ index ∧ index < range.2 := by
  have hreference : index ∈ references tokens (leanNameParts dependency) := by
    refine List.mem_filter.mpr ⟨List.mem_range.mpr (List.getElem?_eq_some_iff.mp hget).1, ?_⟩
    rw [hget]
    exact hnames
  unfold checkDependency at h
  dsimp only at h
  split at h
  · cases h
  · split at h
    · cases h
    next hany =>
      by_contra hnone
      refine hany (List.any_eq_true.mpr ⟨index, hreference, ?_⟩)
      refine decide_eq_true fun hin ↦ ?_
      obtain ⟨range, hrange, hin⟩ := List.any_eq_true.mp hin
      exact hnone ⟨range, hrange, of_decide_eq_true hin⟩

/-- A text that passes every check passes the check of each dependency. -/
theorem Accepted.checkDependency {category : Char → Category} {text : List Char}
    {manifest : TaskManifest} (h : Accepted category text manifest) {dependency : List Char}
    (hmem : dependency ∈ manifest.forbiddenDependencies) :
    checkDependency (leanTokens text)
      (manifest.theoremNames.filterMap (targetRange (leanTokens text))) dependency = .ok [] := by
  obtain ⟨result, hresult, hvalid⟩ := h
  unfold checkSubmission at hresult
  dsimp only at hresult
  split at hresult
  · cases hresult
    cases hvalid
  · simp only [bind_eq_ok, pure, Except.pure, Except.ok.injEq] at hresult
    obtain ⟨dependencies, hdependencies, rfl⟩ := hresult
    obtain ⟨violations, hviolations, hcheck⟩ :=
      exists_mem_of_mapM hdependencies hmem
    have hempty : dependencies.flatten = [] := by
      have := List.isEmpty_iff.mp hvalid
      simp only [List.append_eq_nil_iff] at this
      exact this.1.2
    rw [hcheck, List.flatten_eq_nil_iff.mp hempty _ hviolations]

/-! ## What is named where -/

/-- A declaration that is proved by `:=` is a statement on the whole range. -/
theorem range_le_statementEnd {target : List Char} {start assign : ℕ}
    (h : targetRange tokens target = some (start, assign))
    (hproof : isAssign tokens (statementEnd r tokens start) = true) :
    assign ≤ statementEnd r tokens start := by
  by_contra hlt
  obtain ⟨-, hle, hfirst⟩ := targetRange_spec h
  have hstart : start ≤ statementEnd r tokens start := by
    unfold statementEnd
    cases hend : firstIndex (start + 1) tokens.length (endsStatement r tokens start) with
    | some j => exact (Nat.le_succ start).trans (firstIndex_eq_some hend).1
    | none => exact (targetRange_start_lt h).le
  rw [hfirst _ hstart (not_le.mp hlt)] at hproof
  cases hproof

/-- Where every target is the declaration that its range was taken from, and is proved by `:=`,
nothing stands in a range that is not in the statement. -/
theorem nothingOverrun_of_assign {manifest : TaskManifest}
    (h : ∀ target ∈ manifest.theoremNames, ∀ start assign,
      targetRange tokens target = some (start, assign) →
      r.declared start = leanNameParts target ∧
        isAssign tokens (statementEnd r tokens start) = true) :
    NothingOverrun r tokens manifest := by
  intro target htarget start assign hrange index hstart hassign hover
  obtain ⟨hdeclared, hproof⟩ := h target htarget start assign hrange
  have hle := range_le_statementEnd hrange hproof
  rcases hover with hother | hover
  · exact absurd hdeclared hother
  · omega

/-- In a text that is accepted, the forbidden dependencies are named in the statements of the
targets only, if and only if no range covers one that it has no statement for. -/
theorem namedInStatements_iff (category : Char → Category) (r : Reading) (text : List Char)
    (manifest : TaskManifest) (h : Accepted category text manifest) :
    NamedInStatements r (leanTokens text) manifest ↔
      NothingOverrun r (leanTokens text) manifest := by
  constructor
  · intro hnamed target _ start assign _ index _ _ _ hnames
    exact hnamed index hnames
  · rintro hover index ⟨dependency, hmem, token, htoken, hword, hnames⟩
    obtain ⟨⟨start, assign⟩, hrange, hstart, hassign⟩ :=
      checkDependency_passes (h.checkDependency hmem) htoken hnames
    obtain ⟨target, htarget, hrange⟩ := List.mem_filterMap.mp hrange
    by_cases hin : r.declared start = leanNameParts target ∧
        index < statementEnd r (leanTokens text) start
    · exact ⟨target, htarget, start, List.mem_range.mpr (Nat.lt_succ_of_le hstart),
        (targetRange_spec hrange).1, hin.1, hin.2⟩
    · refine hover target htarget start assign hrange index hstart hassign ?_
        ⟨dependency, hmem, token, htoken, hword, hnames⟩
      rwa [not_and_or, not_lt] at hin

def fixtureManifest : TaskManifest where
  theoremNames := ["Bounty.target".toList]
  forbiddenDependencies := ["VerifierFixtures.direct".toList]
  answerPolicy := ⟨none, []⟩

/-- A target with a proof by `:=`. -/
def assignedText : List Char :=
  "theorem target : type_of% VerifierFixtures.direct := by trivial\n".toList

/-- The first declaration is the target. -/
def fixtureReading (alternative : ℕ → Bool) : Reading where
  declared index := if index = 0 then ["Bounty".toList, "target".toList] else []
  alternative := alternative

/-- The source declaration may be named in the statement of the target. -/
theorem assignedText_named :
    Accepted (fun _ ↦ .other) assignedText fixtureManifest ∧
      NamedInStatements (fixtureReading fun _ ↦ false) (leanTokens assignedText)
        fixtureManifest := by
  have haccepted : Accepted (fun _ ↦ .other) assignedText fixtureManifest :=
    ⟨⟨true, [], none⟩, by decide +kernel, rfl⟩
  refine ⟨haccepted, (namedInStatements_iff _ _ _ _ haccepted).mpr ?_⟩
  refine nothingOverrun_of_assign fun target htarget start assign hrange ↦ ?_
  obtain rfl := List.mem_singleton.mp htarget
  have hfound : targetRange (leanTokens assignedText) "Bounty.target".toList = some (0, 6) := by
    decide +kernel
  obtain ⟨rfl, rfl⟩ := Prod.mk.inj (Option.some.inj (hfound.symm.trans hrange))
  exact ⟨by decide, by decide +kernel⟩

/-- A target with a proof by equations, and a declaration after it. -/
def equationsText : List Char :=
  ("theorem target : ∀ n : Nat, True\n  | n => VerifierFixtures.direct n\n\n" ++
    "theorem next : True := trivial\n").toList

/-- The proof names the source declaration, and is accepted. -/
theorem equations_name_source :
    Accepted (fun _ ↦ .other) equationsText fixtureManifest ∧
      ¬ NamedInStatements (fixtureReading (· = 9)) (leanTokens equationsText) fixtureManifest := by
  refine ⟨⟨⟨true, [], none⟩, by decide +kernel, rfl⟩, fun h ↦ ?_⟩
  obtain ⟨target, htarget, hin⟩ := h 13
    ⟨"VerifierFixtures.direct".toList, List.mem_singleton_self _, ⟨"VerifierFixtures.direct".toList,
      2, 10, 0, false⟩, by decide +kernel, by decide, by decide⟩
  obtain rfl := List.mem_singleton.mp htarget
  revert hin
  decide +kernel

end Conjectures.Scanner
