import Conjectures.Lib.JsonBytes
import Conjectures.Lib.JsonFields
import Conjectures.Lib.Sorting
import Conjectures.Versions.Names
import Mathlib.Data.List.Lex
import Mathlib.Data.Nat.Basic

/-!
# Closure reports

`parse_closure_report`: what the extractor reports of the modules that were loaded and of the
constants that each target reaches, checked field by field.

Every refusal is kept with its kind, in the order in which the fields are checked; messages are left
out.  Canonical JSON and SHA-256 are parameters (`Canonical`), of which only the spelling of names
is fixed, because names are sorted by it.
-/

namespace Conjectures.Versions

open Lib Lib.Json

/-- `canonical_json_bytes` and `sha256_bytes`.  How a float is written, and the digest, are not
modelled: a float that was read stands in a value by the spelling it is written with. -/
structure Canonical where
  /-- The spelling of the float that a spelling is read as. -/
  float : List Char → List Char
  bytes : Json → Option ByteArray
  sha256 : ByteArray → Text
  /-- A name is written compactly, and a new line after it. -/
  bytes_name (name : Name) :
    bytes (nameJson name) = (dumps (nameJson name)).map fun cs ↦ encode (cs ++ ['\n'])

/-- The assumption on the encoding: values that are written alike are one value, the order of
their keys apart. -/
def Canonical.Injective (canonical : Canonical) : Prop :=
  ∀ v w bytes, Keyed v → Keyed w → canonical.bytes v = some bytes →
    canonical.bytes w = some bytes → v.sortKeys = w.sortKeys

/-- `canonical_json_bytes(name_json(name))`, as numbers. -/
def Canonical.nameKey (canonical : Canonical) (name : Name) : Option (List ℕ) :=
  (canonical.bytes (nameJson name)).map fun bytes ↦ bytes.data.toList.map UInt8.toNat

/-- `sorted(rows, key=lambda row: canonical_json_bytes(name_json(row.name)))` -/
def Canonical.sorted {α : Type} (canonical : Canonical) (name : α → Name) (rows : List α) :
    Except Refusal (List α) :=
  need (sortedBy (fun row ↦ canonical.nameKey (name row)) rows) .unicodeEncodeError

/-! ## The report -/

structure LoadedModule where
  name : Name
  isLocal : Bool
  olean : Text

structure ModuleRow extends LoadedModule where
  imports : List Name

/-- A constant, the module that defines it, and the members of its content. -/
structure ConstantRow where
  name : Name
  module : Name
  content : List (Text × Json)

structure TargetClosure where
  theoremName : Name
  module : Name
  localConstants : List ConstantRow
  externalModules : List Name
  statementCanonical : Option Text

structure ClosureReport where
  leanGithash : Text
  localRoots : List Text
  modules : List ModuleRow
  targets : List TargetClosure
  sha256 : Text

/-! ## Contents -/

def constantKinds : List Text :=
  [text "theorem", text "axiom", text "quotient", text "definition", text "opaque",
    text "inductive", text "constructor", text "recursor"]

/-- `NODE_ARITY` and `NODE_CHILDREN`. -/
def nodeShapes : List (Text × ℕ × List ℕ) :=
  [(text "B", 2, []), (text "S", 2, []), (text "C", 3, []), (text "A", 3, [1, 2]),
    (text "L", 5, [3, 4]), (text "P", 5, [3, 4]), (text "T", 6, [2, 3, 4]), (text "N", 2, []),
    (text "Z", 2, []), (text "M", 3, [2]), (text "J", 4, [3])]

/-- Looking a value up among strings. -/
def hashed : Json → Except Refusal Text
  | .string s => return s
  | .array _ | .object _ => throw .typeError
  | _ => throw .dependencyIdentityMismatch

/-- `type(index) is int and 0 <= index < bound` -/
def IsIndex (bound : ℕ) : Json → Prop
  | .int n => 0 ≤ n ∧ n < bound
  | _ => False

instance (bound : ℕ) : DecidablePred (IsIndex bound)
  | .int _ => inferInstanceAs (Decidable (_ ∧ _))
  | .null | .bool _ | .float _ | .string _ | .array _ | .object _ =>
    inferInstanceAs (Decidable False)

def validateNode (position : ℕ) : Json → Except Refusal Unit
  | .array (head :: rest) => do
    let (arity, children) ← need (nodeShapes.lookup (← hashed head)) .dependencyIdentityMismatch
    require ((head :: rest).length = arity) .dependencyIdentityMismatch
    require (∀ child ∈ children, IsIndex position ((head :: rest).getD child .null))
      .dependencyIdentityMismatch
  | _ => throw .dependencyIdentityMismatch

def validateNodes : ℕ → List Json → Except Refusal Unit
  | _, [] => return ()
  | position, node :: nodes => do
    validateNode position node
    validateNodes (position + 1) nodes

/-- `dict.get`: what is absent is null. -/
def fieldOrNull (members : List (Text × Json)) (key : Text) : Json :=
  (members.lookup key).getD .null

/-- `_validate_content` -/
def validateContent : Json → Except Refusal (List (Text × Json))
  | .object content => do
    let kind ← hashed (fieldOrNull content (text "kind"))
    require (kind ∈ constantKinds) .dependencyIdentityMismatch
    match fieldOrNull content (text "nodes") with
    | .array nodes =>
      validateNodes 0 nodes
      require (IsIndex nodes.length (fieldOrNull content (text "type")))
        .dependencyIdentityMismatch
      match fieldOrNull content (text "value") with
      | .null => return content
      | value =>
        require (IsIndex nodes.length value) .dependencyIdentityMismatch
        return content
    | _ => throw .dependencyIdentityMismatch
  | _ => throw .dependencyIdentityMismatch

/-! ## Rows -/

/-- `row[key]` -/
def field (row : List (Text × Json)) (key : Text) : Except Refusal Json :=
  need (row.lookup key) .keyError

def members : Json → Except Refusal (List (Text × Json))
  | .object ms => return ms
  | _ => throw .dependencyIdentityMismatch

def items : Json → Except Refusal (List Json)
  | .array vs => return vs
  | _ => throw .dependencyIdentityMismatch

def bool : Json → Except Refusal Bool
  | .bool b => return b
  | _ => throw .dependencyIdentityMismatch

def string : Json → Except Refusal Text
  | .string s => return s
  | _ => throw .dependencyIdentityMismatch

def moduleKeys : List Text := [text "imports", text "local", text "module", text "olean"]

/-- A row of the module table, after those before it. -/
def addModule (modules : List ModuleRow) (row : Json) : Except Refusal (List ModuleRow) := do
  let row ← members row
  require (HasKeys row moduleKeys) .dependencyIdentityMismatch
  let name ← nameFromJson (← field row (text "module"))
  require (name ∉ modules.map (·.name)) .dependencyIdentityMismatch
  let isLocal ← bool (← field row (text "local"))
  let olean ← string (← field row (text "olean"))
  require (olean.head? = some 0x2f) .dependencyIdentityMismatch
  let imports ← items (← field row (text "imports"))
  let imports ← imports.mapM nameFromJson
  return modules ++ [⟨⟨name, isLocal, olean⟩, imports⟩]

def constantKeys : List Text := [text "content", text "module", text "name"]

/-- A row of the constants of a target, after those before it. -/
def addConstant (constants : List ConstantRow) (item : Json) :
    Except Refusal (List ConstantRow) := do
  let item ← members item
  require (HasKeys item constantKeys) .dependencyIdentityMismatch
  let constant ← nameFromJson (← field item (text "name"))
  require (constant ∉ constants.map (·.name)) .dependencyIdentityMismatch
  let module ← nameFromJson (← field item (text "module"))
  let content ← validateContent (← field item (text "content"))
  return constants ++ [⟨constant, module, content⟩]

def targetKeys : List Text :=
  [text "external_constant_count", text "external_modules", text "local_constants", text "module",
    text "theorem"]

/-- `set(row) - {"statement_canonical"} == allowed` -/
def HasTargetKeys (row : List (Text × Json)) : Prop :=
  HasKeys (row.filter fun member ↦ member.1 ≠ text "statement_canonical") targetKeys

instance : DecidablePred HasTargetKeys := fun _ ↦ inferInstanceAs (Decidable (HasKeys _ _))

/-- `row.get("statement_canonical")`, a string or null. -/
def statementCanonical : Json → Except Refusal (Option Text)
  | .null => return none
  | .string s => return some s
  | _ => throw .dependencyIdentityMismatch

def readTarget (canonical : Canonical) (row : Json) : Except Refusal TargetClosure := do
  let row ← members row
  require (HasTargetKeys row) .dependencyIdentityMismatch
  let theoremName ← nameFromJson (← field row (text "theorem"))
  let module ← nameFromJson (← field row (text "module"))
  let localConstants ← items (← field row (text "local_constants"))
  let externalModules ← items (← field row (text "external_modules"))
  let constants ← localConstants.foldlM addConstant []
  let statement ← statementCanonical (fieldOrNull row (text "statement_canonical"))
  let constants ← canonical.sorted (·.name) constants
  let external ← externalModules.mapM nameFromJson
  let external ← canonical.sorted id external.dedup
  return ⟨theoremName, module, constants, external, statement⟩

def isText (s : Text) : Json → Bool
  | .string s' => s' == s
  | _ => false

/-- `value == 1`: a boolean is a number. -/
def isOne : Json → Bool
  | .int n => n == 1
  | .bool b => b
  | .float spelling => spelling == ['1', '.', '0']
  | _ => false

def reportKeys : List Text :=
  [text "lean_githash", text "local_roots", text "modules", text "schema_version", text "targets"]

/-- `MAX_CLOSURE_BYTES` -/
def maxClosureBytes : ℕ := 128 * 1024 * 1024

/-- `strict_json` -/
def strictJson (canonical : Canonical) (content : ByteArray) : Except Refusal Json := do
  let value ← need ((decode? content).bind loads?) .dependencyIdentityMismatch
  return value.respell canonical.float

/-- The report that a value holds. -/
def readReport (canonical : Canonical) (expectedRoots : List Text) (expectedLeanCommit : Text)
    (expectedTargets : List (Text × Text)) (sha256 : Text) (value : Json) :
    Except Refusal ClosureReport := do
  let value ← members value
  require (HasKeys value reportKeys) .dependencyIdentityMismatch
  require (isOne (← field value (text "schema_version"))) .dependencyIdentityMismatch
  let githash ← field value (text "lean_githash")
  require (isText expectedLeanCommit githash) .environmentMismatch
  let roots ← items (← field value (text "local_roots"))
  let roots ← roots.mapM nameFromJson
  require ((roots.map nameText).Perm expectedRoots) .dependencyIdentityMismatch
  let modules ← items (← field value (text "modules"))
  let modules ← modules.foldlM addModule []
  let targets ← items (← field value (text "targets"))
  let expected ← expectedTargets.mapM fun target ↦ do
    return (← leanNameParts target.1, ← leanNameParts target.2)
  let targets ← targets.mapM (readTarget canonical)
  require (targets.map (fun target ↦ (target.module, target.theoremName)) = expected)
    .dependencyIdentityMismatch
  return ⟨expectedLeanCommit, expectedRoots.insertionSort (· ≤ ·), modules, targets, sha256⟩

/-- `parse_closure_report` -/
def parseClosureReport (canonical : Canonical) (content : ByteArray) (expectedRoots : List Text)
    (expectedLeanCommit : Text) (expectedTargets : List (Text × Text)) :
    Except Refusal ClosureReport := do
  require (content.size ≤ maxClosureBytes) .dependencyIdentityMismatch
  let value ← strictJson canonical content
  readReport canonical expectedRoots expectedLeanCommit expectedTargets (canonical.sha256 content)
    value

/-! ## What is read -/

theorem items_eq_ok {v : Json} {vs : List Json} : items v = .ok vs ↔ v = .array vs := by
  cases v <;> simp [items, pure, Except.pure, throw, throwThe, MonadExceptOf.throw]

theorem members_eq_ok {v : Json} {ms : List (Text × Json)} :
    members v = .ok ms ↔ v = .object ms := by
  cases v <;> simp [members, pure, Except.pure, throw, throwThe, MonadExceptOf.throw]

theorem bool_eq_ok {v : Json} {b : Bool} : bool v = .ok b ↔ v = .bool b := by
  cases v <;> simp [bool, pure, Except.pure, throw, throwThe, MonadExceptOf.throw]

theorem string_eq_ok {v : Json} {s : Text} : string v = .ok s ↔ v = .string s := by
  cases v <;> simp [string, pure, Except.pure, throw, throwThe, MonadExceptOf.throw]

theorem field_eq_ok {ms : List (Text × Json)} {k : Text} {v : Json} :
    field ms k = .ok v ↔ ms.lookup k = some v := need_eq_ok

/-- The members are those of this module row. -/
structure ReadsModule (ms : List (Text × Json)) (row : ModuleRow) : Prop where
  keys : HasKeys ms moduleKeys
  name : ∃ v, ms.lookup (text "module") = some v ∧ nameFromJson v = .ok row.name
  isLocal : ms.lookup (text "local") = some (.bool row.isLocal)
  olean : ms.lookup (text "olean") = some (.string row.olean) ∧ row.olean.head? = some 0x2f
  imports : ∃ vs, ms.lookup (text "imports") = some (.array vs) ∧
    vs.mapM nameFromJson = .ok row.imports

theorem addModule_eq_ok {modules modules' : List ModuleRow} {v : Json} :
    addModule modules v = .ok modules' ↔
      ∃ row, (∃ ms, v = .object ms ∧ ReadsModule ms row) ∧ row.name ∉ modules.map (·.name) ∧
        modules' = modules ++ [row] := by
  simp only [addModule, bind_eq_ok, require_eq_ok, members_eq_ok, field_eq_ok, bool_eq_ok,
    string_eq_ok, items_eq_ok, pure, Except.pure, Except.ok.injEq]
  constructor
  · rintro ⟨ms, rfl, -, hkeys, v, hv, name, hname, -, hfresh, _, hlocal, isLocal, rfl, _, holean,
      olean, rfl, -, habsolute, _, himports, vs, rfl, imports, hread, rfl⟩
    exact ⟨⟨⟨name, isLocal, olean⟩, imports⟩, ⟨ms, rfl, hkeys, ⟨v, hv, hname⟩, hlocal,
      ⟨holean, habsolute⟩, vs, himports, hread⟩, hfresh, rfl⟩
  · rintro ⟨row, ⟨ms, rfl, hkeys, ⟨v, hv, hname⟩, hlocal, ⟨holean, habsolute⟩, vs, himports,
      hread⟩, hfresh, rfl⟩
    exact ⟨ms, rfl, (), hkeys, v, hv, _, hname, (), hfresh, _, hlocal, _, rfl, _, holean, _, rfl,
      (), habsolute, _, himports, vs, rfl, _, hread, rfl⟩

/-- The members are those of this constant. -/
structure ReadsConstant (ms : List (Text × Json)) (row : ConstantRow) : Prop where
  keys : HasKeys ms constantKeys
  name : ∃ v, ms.lookup (text "name") = some v ∧ nameFromJson v = .ok row.name
  module : ∃ v, ms.lookup (text "module") = some v ∧ nameFromJson v = .ok row.module
  content : ∃ v, ms.lookup (text "content") = some v ∧ validateContent v = .ok row.content

theorem addConstant_eq_ok {constants constants' : List ConstantRow} {v : Json} :
    addConstant constants v = .ok constants' ↔
      ∃ row, (∃ ms, v = .object ms ∧ ReadsConstant ms row) ∧ row.name ∉ constants.map (·.name) ∧
        constants' = constants ++ [row] := by
  simp only [addConstant, bind_eq_ok, require_eq_ok, members_eq_ok, field_eq_ok, pure,
    Except.pure, Except.ok.injEq]
  constructor
  · rintro ⟨ms, rfl, -, hkeys, v, hv, name, hname, -, hfresh, w, hw, module, hmodule, u, hu,
      content, hcontent, rfl⟩
    exact ⟨⟨name, module, content⟩, ⟨ms, rfl, hkeys, ⟨v, hv, hname⟩, ⟨w, hw, hmodule⟩,
      ⟨u, hu, hcontent⟩⟩, hfresh, rfl⟩
  · rintro ⟨row, ⟨ms, rfl, hkeys, ⟨v, hv, hname⟩, ⟨w, hw, hmodule⟩, ⟨u, hu, hcontent⟩⟩, hfresh,
      rfl⟩
    exact ⟨ms, rfl, (), hkeys, v, hv, _, hname, (), hfresh, w, hw, _, hmodule, u, hu, _, hcontent,
      rfl⟩

/-- The members are those of this target. -/
structure ReadsTarget (canonical : Canonical) (ms : List (Text × Json)) (target : TargetClosure) :
    Prop where
  keys : HasTargetKeys ms
  theoremName : ∃ v, ms.lookup (text "theorem") = some v ∧ nameFromJson v = .ok target.theoremName
  module : ∃ v, ms.lookup (text "module") = some v ∧ nameFromJson v = .ok target.module
  constants : ∃ vs rows, ms.lookup (text "local_constants") = some (.array vs) ∧
    List.Forall₂ (fun v row ↦ ∃ ms, v = .object ms ∧ ReadsConstant ms row) vs rows ∧
    (rows.map (·.name)).Nodup ∧ canonical.sorted (·.name) rows = .ok target.localConstants
  external : ∃ vs names, ms.lookup (text "external_modules") = some (.array vs) ∧
    vs.mapM nameFromJson = .ok names ∧
    canonical.sorted id names.dedup = .ok target.externalModules
  statement : statementCanonical (fieldOrNull ms (text "statement_canonical")) =
    .ok target.statementCanonical

theorem constants_eq_ok {vs : List Json} {rows : List ConstantRow} :
    vs.foldlM addConstant [] = .ok rows ↔
      List.Forall₂ (fun v row ↦ ∃ ms, v = .object ms ∧ ReadsConstant ms row) vs rows ∧
        (rows.map (·.name)).Nodup :=
  @foldlM_fill_nil _ _ _ _ addConstant (fun v row ↦ ∃ ms, v = .object ms ∧ ReadsConstant ms row)
    (·.name) (fun _ _ _ ↦ addConstant_eq_ok) vs rows

theorem modules_eq_ok {vs : List Json} {rows : List ModuleRow} :
    vs.foldlM addModule [] = .ok rows ↔
      List.Forall₂ (fun v row ↦ ∃ ms, v = .object ms ∧ ReadsModule ms row) vs rows ∧
        (rows.map (·.name)).Nodup :=
  @foldlM_fill_nil _ _ _ _ addModule (fun v row ↦ ∃ ms, v = .object ms ∧ ReadsModule ms row)
    (·.name) (fun _ _ _ ↦ addModule_eq_ok) vs rows

theorem readTarget_eq_ok {canonical : Canonical} {v : Json} {target : TargetClosure} :
    readTarget canonical v = .ok target ↔
      ∃ ms, v = .object ms ∧ ReadsTarget canonical ms target := by
  simp only [readTarget, bind_eq_ok, require_eq_ok, members_eq_ok, field_eq_ok, items_eq_ok,
    constants_eq_ok, pure, Except.pure, Except.ok.injEq]
  constructor
  · rintro ⟨ms, rfl, -, hkeys, v, hv, theoremName, htheorem, w, hw, module, hmodule, _, hlocal, vs,
      rfl, _, hexternal, us, rfl, rows, ⟨hrows, hnodup⟩, statement, hstatement, constants,
      hconstants, names, hnames, external, hsorted, rfl⟩
    exact ⟨ms, rfl, hkeys, ⟨v, hv, htheorem⟩, ⟨w, hw, hmodule⟩,
      ⟨vs, rows, hlocal, hrows, hnodup, hconstants⟩, ⟨us, names, hexternal, hnames, hsorted⟩,
      hstatement⟩
  · rintro ⟨ms, rfl, hkeys, ⟨v, hv, htheorem⟩, ⟨w, hw, hmodule⟩,
      ⟨vs, rows, hlocal, hrows, hnodup, hconstants⟩, ⟨us, names, hexternal, hnames, hsorted⟩,
      hstatement⟩
    exact ⟨ms, rfl, (), hkeys, v, hv, _, htheorem, w, hw, _, hmodule, _, hlocal, vs, rfl, _,
      hexternal, us, rfl, rows, ⟨hrows, hnodup⟩, _, hstatement, _, hconstants, names, hnames, _,
      hsorted, rfl⟩

/-- The members are those of this report, for these requests. -/
structure ReadsReport (canonical : Canonical) (expectedRoots : List Text)
    (expectedLeanCommit : Text) (expectedTargets : List (Text × Text)) (ms : List (Text × Json))
    (report : ClosureReport) : Prop where
  keys : HasKeys ms reportKeys
  schemaVersion : ∃ v, ms.lookup (text "schema_version") = some v ∧ isOne v = true
  leanGithash : ∃ v, ms.lookup (text "lean_githash") = some v ∧ isText expectedLeanCommit v = true
  roots : ∃ vs names, ms.lookup (text "local_roots") = some (.array vs) ∧
    vs.mapM nameFromJson = .ok names ∧ (names.map nameText).Perm expectedRoots
  modules : ∃ vs, ms.lookup (text "modules") = some (.array vs) ∧
    List.Forall₂ (fun v row ↦ ∃ ms, v = .object ms ∧ ReadsModule ms row) vs report.modules ∧
    (report.modules.map (·.name)).Nodup
  targets : ∃ vs, ms.lookup (text "targets") = some (.array vs) ∧
    List.Forall₂ (fun v target ↦ ∃ ms, v = .object ms ∧ ReadsTarget canonical ms target) vs
      report.targets
  requested : List.Forall₂ (fun request target ↦ leanNameParts request.1 = .ok target.module ∧
    leanNameParts request.2 = .ok target.theoremName) expectedTargets report.targets
  commit : report.leanGithash = expectedLeanCommit
  localRoots : report.localRoots = expectedRoots.insertionSort (· ≤ ·)

variable {canonical : Canonical} {content : ByteArray} {expectedRoots : List Text}
  {expectedLeanCommit : Text} {expectedTargets : List (Text × Text)} {report : ClosureReport}

/-- The rows are named as the requests are. -/
theorem requested_iff {targets : List TargetClosure} :
    (∃ expected, (expectedTargets.mapM fun target ↦ do
        return (← leanNameParts target.1, ← leanNameParts target.2)) = Except.ok expected ∧
      targets.map (fun target ↦ (target.module, target.theoremName)) = expected) ↔
    List.Forall₂ (fun request target ↦ leanNameParts request.1 = .ok target.module ∧
      leanNameParts request.2 = .ok target.theoremName) expectedTargets targets := by
  simp only [mapM_eq_ok, exists_eq_right', List.forall₂_map_right_iff, bind_eq_ok, pure,
    Except.pure, Except.ok.injEq, Prod.mk.injEq]
  refine ⟨fun h ↦ h.imp ?_, fun h ↦ h.imp ?_⟩
  · rintro request target ⟨_, hmodule, _, htheorem, rfl, rfl⟩
    exact ⟨hmodule, htheorem⟩
  · rintro request target ⟨hmodule, htheorem⟩
    exact ⟨_, hmodule, _, htheorem, rfl, rfl⟩

theorem readReport_eq_ok {v : Json} {sha256 : Text} :
    readReport canonical expectedRoots expectedLeanCommit expectedTargets sha256 v = .ok report ↔
      ∃ ms, v = .object ms ∧ report.sha256 = sha256 ∧
        ReadsReport canonical expectedRoots expectedLeanCommit expectedTargets ms report := by
  simp only [readReport, bind_eq_ok, require_eq_ok, members_eq_ok, field_eq_ok, items_eq_ok,
    modules_eq_ok, pure, Except.pure, Except.ok.injEq]
  constructor
  · rintro ⟨ms, rfl, -, hkeys, v, hv, -, hone, w, hw, -, hcommit, _, hroots, vs, rfl, names, hnames,
      -, hperm, _, hmodules, us, rfl, modules, ⟨hrows, hnodup⟩, _, htargets, ts, rfl, expected,
      hexpected, targets, hread, -, hnamed, rfl⟩
    refine ⟨ms, rfl, rfl, hkeys, ⟨v, hv, hone⟩, ⟨w, hw, hcommit⟩, ⟨vs, names, hroots, hnames, hperm⟩,
      ⟨us, hmodules, hrows, hnodup⟩, ⟨ts, htargets, ?_⟩, ?_, rfl, rfl⟩
    · exact (mapM_eq_ok.mp hread).imp fun _ _ h ↦ readTarget_eq_ok.mp h
    · exact requested_iff.mp ⟨expected, hexpected, hnamed⟩
  · rintro ⟨ms, rfl, rfl, h⟩
    obtain ⟨v, hv, hone⟩ := h.schemaVersion
    obtain ⟨w, hw, hcommit⟩ := h.leanGithash
    obtain ⟨vs, names, hroots, hnames, hperm⟩ := h.roots
    obtain ⟨us, hmodules, hrows⟩ := h.modules
    obtain ⟨ts, htargets, hread⟩ := h.targets
    obtain ⟨expected, hexpected, hnamed⟩ := requested_iff.mpr h.requested
    have hread' : ts.mapM (readTarget canonical) = .ok report.targets :=
      mapM_eq_ok.mpr (hread.imp fun _ _ h ↦ readTarget_eq_ok.mpr h)
    refine ⟨ms, rfl, (), h.keys, v, hv, (), hone, w, hw, (), hcommit, _, hroots, vs, rfl, names,
      hnames, (), hperm, _, hmodules, us, rfl, report.modules, hrows, _, htargets, ts, rfl,
      expected, hexpected, _, hread', (), hnamed, ?_⟩
    rw [← h.commit, ← h.localRoots]

theorem parseClosureReport_eq_ok :
    parseClosureReport canonical content expectedRoots expectedLeanCommit expectedTargets =
        .ok report ↔
      content.size ≤ maxClosureBytes ∧ ∃ ms, strictJson canonical content = .ok (.object ms) ∧
        report.sha256 = canonical.sha256 content ∧
        ReadsReport canonical expectedRoots expectedLeanCommit expectedTargets ms report := by
  simp only [parseClosureReport, bind_eq_ok, require_eq_ok, exists_const, readReport_eq_ok]
  constructor
  · rintro ⟨hsize, _, hvalue, ms, rfl, h⟩
    exact ⟨hsize, ms, hvalue, h⟩
  · rintro ⟨hsize, ms, hvalue, h⟩
    exact ⟨hsize, _, hvalue, ms, rfl, h⟩

/-! ## The targets that were requested -/

/-- A printable name is read back from its text; names that print alike are one name; a target
that is requested by name is matched by the row of that name. -/
theorem nameText_roundTrip :
    (∀ name, Printable name → leanNameParts (nameText name) = .ok name) ∧
    (∀ name name', Printable name → Printable name' → nameText name = nameText name' →
      name = name') ∧
    ∀ (canonical : Canonical) (content : ByteArray) (expectedRoots : List Text)
        (expectedLeanCommit : Text) (expectedTargets : List (Text × Text)) (report : ClosureReport),
      parseClosureReport canonical content expectedRoots expectedLeanCommit expectedTargets =
        .ok report →
      report.targets.length = expectedTargets.length ∧
      ∀ (i : ℕ) (request : Text × Text) (target : TargetClosure),
        expectedTargets[i]? = some request → report.targets[i]? = some target →
        (∀ module, Printable module → request.1 = nameText module → target.module = module) ∧
        ∀ theoremName, Printable theoremName → request.2 = nameText theoremName →
          target.theoremName = theoremName := by
  refine ⟨fun _ h ↦ leanNameParts_of_printable h, fun name name' h h' heq ↦ ?_, ?_⟩
  · have hname := leanNameParts_of_printable h
    rw [heq, leanNameParts_of_printable h'] at hname
    exact (Except.ok.inj hname).symm
  · intro canonical content roots commit targets report h
    obtain ⟨-, _, -, -, hreads⟩ := parseClosureReport_eq_ok.mp h
    have hrows := hreads.requested
    refine ⟨hrows.length_eq.symm, fun i request target hrequest htarget ↦ ?_⟩
    obtain ⟨hmodule, htheorem⟩ : leanNameParts request.1 = .ok target.module ∧
        leanNameParts request.2 = .ok target.theoremName := by
      obtain ⟨hi, rfl⟩ := List.getElem?_eq_some_iff.mp hrequest
      obtain ⟨hi', rfl⟩ := List.getElem?_eq_some_iff.mp htarget
      exact hrows.get hi hi'
    constructor
    · rintro module hprintable hprinted
      rw [hprinted, leanNameParts_of_printable hprintable] at hmodule
      exact (Except.ok.inj hmodule).symm
    · rintro theoremName hprintable hprinted
      rw [hprinted, leanNameParts_of_printable hprintable] at htheorem
      exact (Except.ok.inj htheorem).symm

/-- `ErdosProblems.«10».«a.b«»`: quoted and plain components, one with a dot and an opening mark. -/
theorem nameText_roundTrip_quoted :
    leanNameParts (nameText [.text (text "ErdosProblems"), .text (text "10"), .text (text "a.b«")])
      = .ok [.text (text "ErdosProblems"), .text (text "10"), .text (text "a.b«")] := by
  refine nameText_roundTrip.1 _ ⟨by simp, ?_, by decide⟩
  intro c hc
  simp only [List.mem_cons, List.not_mem_nil, or_false] at hc
  rcases hc with rfl | rfl | rfl <;> exact ⟨_, rfl, by decide, by decide⟩

end Conjectures.Versions
