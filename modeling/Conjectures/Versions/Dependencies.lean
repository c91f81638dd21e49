import Conjectures.Versions.Sensitivity
import Conjectures.Versions.Trees

/-!
# What an identity depends on

The identity of a target depends on what its module reaches and on the constants it reports, and
on nothing else.
-/

namespace Conjectures.Versions

open Lib Lib.Json

variable {canonical : Canonical} {classification : Classification} {report : ClosureReport}
  {content : ByteArray} {expectedRoots : List Text} {expectedLeanCommit : Text}
  {expectedTargets : List (Text × Text)}

/-- The closure of a module: its worklist ends, having seen exactly what is reached, or having met
a module that is not in the report; it is refused in that case, or where a name that is reached
has no encoding. -/
structure ClosureExact (canonical : Canonical) (report : ClosureReport) (module : Name) : Prop where
  ends : (∃ found, walk report module = .done found) ∨ ∃ name, walk report module = .missing name
  seen : ∀ found, walk report module = .done found →
    ∀ name, name ∈ found ↔ report.Reaches module name
  missing : (∃ name, walk report module = .missing name) ↔
    ∃ name, report.Reaches module name ∧ report.row name = none
  closure : ∀ names, computeModuleClosure canonical report module = .ok names →
    names.Nodup ∧ ∀ name, name ∈ names ↔ report.Reaches module name
  refused : (∃ refusal, computeModuleClosure canonical report module = .error refusal) ↔
    ∃ name, report.Reaches module name ∧
      (report.row name = none ∨ canonical.bytes (nameJson name) = none)

theorem closureExact (hnamed : report.Named) (module : Name) :
    ClosureExact canonical report module := by
  have hclosure (names) (h : computeModuleClosure canonical report module = .ok names) :=
    mem_closure hnamed h
  have hrefused := @closure_refused canonical report module hnamed
  rcases walk_spec hnamed module with
    ⟨found, hwalk, -, hfound, hloaded⟩ | ⟨name, hwalk, hreaches, hnone⟩
  · refine ⟨.inl ⟨found, hwalk⟩, ?_, ?_, fun names h ↦ ⟨(hclosure names h).1, (hclosure names h).2.1⟩,
      hrefused⟩
    · rintro found' hwalk'
      rw [hwalk] at hwalk'
      cases hwalk'
      exact hfound
    · refine iff_of_false ?_ ?_
      · rintro ⟨name, hwalk'⟩
        rw [hwalk] at hwalk'
        cases hwalk'
      · rintro ⟨name, hreaches, hnone⟩
        have := hloaded name hreaches
        rw [hnone] at this
        cases this
  · refine ⟨.inr ⟨name, hwalk⟩, ?_, iff_of_true ⟨name, hwalk⟩ ⟨name, hreaches, hnone⟩,
      fun names h ↦ ⟨(hclosure names h).1, (hclosure names h).2.1⟩, hrefused⟩
    rintro found hwalk'
    rw [hwalk] at hwalk'
    cases hwalk'

theorem named_of_parse
    (h : parseClosureReport canonical content expectedRoots expectedLeanCommit expectedTargets =
      .ok report) : report.Named := by
  obtain ⟨-, ms, -, -, hreads⟩ := parseClosureReport_eq_ok.mp h
  obtain ⟨vs, -, -, hnodup⟩ := hreads.modules
  exact hnodup

/-- A shuffled report is accepted too, and gives each target the same identity. -/
def OrderFree (classification : Classification) (canonical : Canonical) (content : ByteArray)
    (expectedRoots : List Text) (expectedLeanCommit : Text) (expectedTargets : List (Text × Text))
    (report : ClosureReport) : Prop :=
  ∀ (content' : ByteArray) (ms ms' : List (Text × Json)), content'.size ≤ maxClosureBytes →
    strictJson canonical content = .ok (.object ms) →
    strictJson canonical content' = .ok (.object ms') → ShuffledReport ms ms' →
    ∃ report', parseClosureReport canonical content' expectedRoots expectedLeanCommit
        expectedTargets = .ok report' ∧ report'.targets = report.targets ∧
      ∀ (statementTypeSha256 : Text) (target : TargetClosure) (identity : DependencyIdentity),
        classification.identity canonical report statementTypeSha256 target = .ok identity ↔
          classification.identity canonical report' statementTypeSha256 target = .ok identity

theorem orderFree
    (h : parseClosureReport canonical content expectedRoots expectedLeanCommit expectedTargets =
      .ok report) :
    OrderFree classification canonical content expectedRoots expectedLeanCommit expectedTargets
      report := by
  intro content' ms ms' hsize hms hms' hshuffled
  obtain ⟨-, us, hus, -, hreads⟩ := parseClosureReport_eq_ok.mp h
  rw [hms, Except.ok.injEq, Json.object.injEq] at hus
  subst hus
  obtain ⟨report', hsha, hreads', htargets, hsame⟩ :=
    hreads.shuffle hshuffled (canonical.sha256 content')
  have hparse' := parseClosureReport_eq_ok.mpr ⟨hsize, ms', hms', hsha, hreads'⟩
  have hnamed := named_of_parse h
  have hnamed' := named_of_parse hparse'
  exact ⟨report', hparse', htargets, fun _ _ _ ↦
    ⟨hsame.identity hnamed hnamed', hsame.symm.identity hnamed' hnamed⟩⟩

/-- Two identities of one digest, of targets of accepted reports, agree in their constants, with
their contents, in their import graph and in the digest of the statement. -/
def Sensitive (classification : Classification) (canonical : Canonical) (report : ClosureReport) :
    Prop :=
  ∀ (classification' : Classification) (content' : ByteArray) (expectedRoots' : List Text)
    (expectedLeanCommit' : Text) (expectedTargets' : List (Text × Text))
    (report' : ClosureReport),
    parseClosureReport canonical content' expectedRoots' expectedLeanCommit' expectedTargets' =
      .ok report' →
    ∀ target ∈ report.targets, ∀ target' ∈ report'.targets,
    ∀ (statementTypeSha256 statementTypeSha256' : Text) (identity identity' : DependencyIdentity)
      (digest : Text),
      classification.identity canonical report statementTypeSha256 target = .ok identity →
      classification'.identity canonical report' statementTypeSha256' target' = .ok identity' →
      identity.sha256 canonical = .ok digest → identity'.sha256 canonical = .ok digest →
      List.Forall₂ SameConstant target.localConstants target'.localConstants ∧
        identity.imports = identity'.imports ∧ statementTypeSha256 = statementTypeSha256' ∧
        target.module = target'.module ∧ target.theoremName = target'.theoremName

theorem sensitive (hcanonical : canonical.Injective) (hsha : Function.Injective canonical.sha256)
    (h : parseClosureReport canonical content expectedRoots expectedLeanCommit expectedTargets =
      .ok report) : Sensitive classification canonical report := by
  intro classification' content' roots' commit' targets' report' h' target htarget target' htarget'
    sha sha' identity identity' digest hidentity hidentity' hdigest hdigest'
  obtain ⟨hconstants, rfl, htheorem, hmodule, -, -⟩ := identity_records hidentity
  obtain ⟨hconstants', rfl, htheorem', hmodule', -, -⟩ := identity_records hidentity'
  obtain rfl := identity_of_digest hcanonical hsha hdigest hdigest'
  exact ⟨constants_of_records hcanonical hsha hconstants hconstants'
      (targets_keyed h target htarget) (targets_keyed h' target' htarget'),
    rfl, rfl, hmodule.symm.trans hmodule', htheorem.symm.trans htheorem'⟩

/-- For every report that is accepted and every classification of its modules: the closure of a
module is exact, and so is its graph; an identity depends neither on the order of the rows nor on
the memo; and it commits to all that it was computed from. -/
theorem identity_dependencies (canonical : Canonical) (classification : Classification)
    (content : ByteArray) (expectedRoots : List Text) (expectedLeanCommit : Text)
    (expectedTargets : List (Text × Text)) (report : ClosureReport)
    (h : parseClosureReport canonical content expectedRoots expectedLeanCommit expectedTargets =
      .ok report) :
    (∀ module, ClosureExact canonical report module) ∧
    (∀ module graph, classification.graph canonical report module = .ok graph →
      classification.IsGraph report module graph) ∧
    OrderFree classification canonical content expectedRoots expectedLeanCommit expectedTargets
      report ∧
    (∀ requests, Memo.results (classification.identityOf canonical report) requests {} =
      requests.map fun request ↦
        classification.identity canonical report request.2 request.1) ∧
    (canonical.Injective → Function.Injective canonical.sha256 →
      Sensitive classification canonical report) :=
  ⟨closureExact (named_of_parse h), fun _ _ ↦ isGraph_of_graph (named_of_parse h), orderFree h,
    fun requests ↦ Computes.results identityOf_computes requests sound_empty,
    fun hcanonical hsha ↦ sensitive hcanonical hsha h⟩

/-! ## Two modules that import each other -/

/-- Floats are not read here, and digests are the bytes. -/
def exampleCanonical : Canonical where
  float := id
  bytes v := (dumps v).map fun cs ↦ encode (cs ++ ['\n'])
  sha256 bytes := bytes.data.toList.map UInt8.toNat
  bytes_name _ := rfl

/-- The row of a module that imports another. -/
def exampleRow (name imported : Name) (olean : Text) : Json :=
  .object [(text "imports", .array [nameJson imported]), (text "local", .bool true),
    (text "module", nameJson name), (text "olean", .string olean)]

def exampleA : Name := [.text (text "A")]

/-- `A` and a module that it imports, which imports it. -/
def exampleReport (imported : Name) (constants : List Json) : Json :=
  .object [(text "lean_githash", .string (text "c")),
    (text "local_roots", .array [.array [.string (text "A")]]),
    (text "modules", .array [exampleRow exampleA imported (text "/build/A.olean"),
      exampleRow imported exampleA (text "/build/A/B.olean")]),
    (text "schema_version", .int 1),
    (text "targets", .array [.object [(text "external_constant_count", .int 0),
      (text "external_modules", .array []), (text "local_constants", .array constants),
      (text "module", nameJson exampleA), (text "theorem", .array [.string (text "t")])]])]

theorem parse_of_read {cs : List Char} {v : Json} {check : ClosureReport → Bool}
    (hsize : (encode cs).size ≤ maxClosureBytes)
    (hstrict : strictJson exampleCanonical (encode cs) = .ok v)
    (hread : (readReport exampleCanonical [text "A"] (text "c") [(text "A", text "t")]
      (exampleCanonical.sha256 (encode cs)) v).toOption.any check = true) :
    ∃ report, parseClosureReport exampleCanonical (encode cs) [text "A"] (text "c")
      [(text "A", text "t")] = .ok report ∧ check report = true := by
  obtain ⟨report, hreport, hcheck⟩ := (Option.any_eq_true ..).mp hread
  refine ⟨report, ?_, hcheck⟩
  simp only [parseClosureReport, bind_eq_ok, require_eq_ok]
  refine ⟨(), hsize, v, hstrict, ?_⟩
  cases hok : readReport exampleCanonical [text "A"] (text "c") [(text "A", text "t")]
      (exampleCanonical.sha256 (encode cs)) v with
  | ok report' =>
    rw [hok] at hreport
    exact congrArg _ (Option.some.inj hreport)
  | error refusal =>
    rw [hok] at hreport
    cases hreport

/-- The text of such a report, in which the imported module is named by half a surrogate pair. -/
def exampleText : List Char :=
  ((dumps (exampleReport [.text (text "@")] [])).getD []).flatMap fun c ↦
    if c = '@' then ['\x5c', 'u', 'd', '8', '0', '0'] else [c]

def exampleSurrogate : Name := [.text [0xd800]]

/-- It is accepted, and the closure of `A` is of both modules, which cannot be sorted. -/
theorem parse_example : ∃ report,
    parseClosureReport exampleCanonical (encode exampleText) [text "A"] (text "c")
      [(text "A", text "t")] = .ok report ∧
    walk report exampleA = .done [exampleSurrogate, exampleA] ∧
    (computeModuleClosure exampleCanonical report exampleA).toOption = none := by
  have hvalue : loads? exampleText = some (exampleReport exampleSurrogate []) :=
    loads?_of_same (by decide +kernel)
  have hstrict : strictJson exampleCanonical (encode exampleText) =
      .ok (exampleReport exampleSurrogate []) := by
    rw [strictJson, decode?_eq_some.mpr rfl, Option.bind_some, hvalue]
    rfl
  obtain ⟨report, hparse, hcheck⟩ := @parse_of_read _ _
    (fun report ↦ decide (walk report exampleA = .done [exampleSurrogate, exampleA] ∧
      (computeModuleClosure exampleCanonical report exampleA).toOption = none))
    ((size_encode_le _).trans (by decide +kernel)) hstrict (by decide +kernel)
  exact ⟨report, hparse, of_decide_eq_true hcheck⟩

/-- Both modules are reached, and in the report; their closure is refused all the same. -/
theorem closure_of_surrogate : ∃ report,
    parseClosureReport exampleCanonical (encode exampleText) [text "A"] (text "c")
      [(text "A", text "t")] = .ok report ∧
    ¬ ((∃ refusal, computeModuleClosure exampleCanonical report exampleA = .error refusal) ↔
      ∃ name, report.Reaches exampleA name ∧ report.row name = none) := by
  obtain ⟨report, hparse, hwalk, hnone⟩ := parse_example
  refine ⟨report, hparse, fun hiff ↦ ?_⟩
  have hrefused : ∃ refusal, computeModuleClosure exampleCanonical report exampleA =
      .error refusal := by
    cases h : computeModuleClosure exampleCanonical report exampleA with
    | ok names =>
      rw [h] at hnone
      cases hnone
    | error refusal => exact ⟨refusal, rfl⟩
  rcases walk_spec (named_of_parse hparse) exampleA with
    ⟨_, -, -, -, hloaded⟩ | ⟨name, hwalk', -⟩
  · obtain ⟨name, hreaches, hrow⟩ := hiff.mp hrefused
    have := hloaded name hreaches
    rw [hrow] at this
    cases this
  · rw [hwalk] at hwalk'
    cases hwalk'

/-! ## An identity -/

def exampleB : Name := [.text (text "A"), .text (text "B")]

/-- The theorem, of a type of one node. -/
def exampleConstant : Json :=
  .object [(text "content", .object [(text "kind", .string (text "theorem")),
      (text "nodes", .array [.array [.string (text "S"), .int 0]]), (text "type", .int 0),
      (text "value", .null)]),
    (text "module", nameJson exampleA), (text "name", .array [.string (text "t")])]

def cyclicText : List Char := (dumps (exampleReport exampleB [exampleConstant])).getD []

/-- Both modules come from one build. -/
def exampleClassification : Classification :=
  SourceTrees.classification
    ⟨id, fun _ ↦ false, fun _ ↦ false, fun _ _ ↦ .ok ByteArray.empty, exampleCanonical.sha256⟩
    ⟨[⟨text "local", text "/src", text "/build"⟩], [], []⟩ [text "A"]

/-- The identity of the theorem is computed. -/
theorem identity_example : ∃ report target identity,
    parseClosureReport exampleCanonical (encode cyclicText) [text "A"] (text "c")
      [(text "A", text "t")] = .ok report ∧
    walk report exampleA = .done [exampleB, exampleA] ∧
    exampleClassification.identity exampleCanonical report [] target = .ok identity := by
  have hvalue : loads? cyclicText = some (exampleReport exampleB [exampleConstant]) :=
    loads?_of_same (by decide +kernel)
  have hstrict : strictJson exampleCanonical (encode cyclicText) =
      .ok (exampleReport exampleB [exampleConstant]) := by
    rw [strictJson, decode?_eq_some.mpr rfl, Option.bind_some, hvalue]
    rfl
  obtain ⟨report, hparse, hcheck⟩ := @parse_of_read _ _
    (fun report ↦ decide (walk report exampleA = .done [exampleB, exampleA]) &&
      report.targets.any fun target ↦
        (exampleClassification.identity exampleCanonical report [] target).isOk)
    ((size_encode_le _).trans (by decide +kernel)) hstrict (by decide +kernel)
  rw [Bool.and_eq_true, decide_eq_true_eq, List.any_eq_true] at hcheck
  obtain ⟨hwalk, target, -, hok⟩ := hcheck
  cases hidentity : exampleClassification.identity exampleCanonical report [] target with
  | ok identity => exact ⟨report, target, identity, hparse, hwalk, hidentity⟩
  | error refusal =>
    rw [hidentity] at hok
    cases hok

/-- The worklist ends on the two modules, which import each other.  The identity of the theorem in
the first has a graph of both, and is the same the second time. -/
theorem identity_dependencies_cyclic : ∃ report target identity,
    parseClosureReport exampleCanonical (encode cyclicText) [text "A"] (text "c")
      [(text "A", text "t")] = .ok report ∧
    report.Reaches exampleA exampleB ∧ report.Reaches exampleA exampleA ∧
    exampleClassification.identity exampleCanonical report [] target = .ok identity ∧
    exampleClassification.IsGraph report target.module identity.imports ∧
    Memo.results (exampleClassification.identityOf exampleCanonical report)
      [(target, []), (target, [])] {} = [.ok identity, .ok identity] := by
  obtain ⟨report, target, identity, hparse, hwalk, hidentity⟩ := identity_example
  have hgraph := (identity_records hidentity).2.2.2.2.2
  obtain ⟨hexact, hgraphs, -, hresults, -⟩ :=
    identity_dependencies exampleCanonical exampleClassification _ _ _ _ report hparse
  have hseen := (hexact exampleA).seen _ hwalk
  refine ⟨report, target, identity, hparse, (hseen _).mp (by simp), (hseen _).mp (by simp),
    hidentity, hgraphs _ _ hgraph, ?_⟩
  rw [hresults]
  simp [hidentity]

end Conjectures.Versions
