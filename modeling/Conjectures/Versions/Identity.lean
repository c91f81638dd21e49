import Conjectures.Lib.Memo
import Conjectures.Versions.Imports

/-!
# Dependency identities

`dependency_identity`: the constants that a statement reaches, each by the digest of its content,
and the import graph of its module.  Closures, origins and graphs are kept in the memo of the
report, and what is computed through the memo is what is computed without it.
-/

namespace Conjectures.Versions

open Lib Lib.Json

/-! ## The identity -/

/-- A constant by the digest of its content. -/
structure ConstantIdentity where
  kind : Text
  module : Name
  name : Name
  sha256 : Text
  deriving DecidableEq

structure DependencyIdentity where
  externalModules : List Name
  imports : ImportGraph
  localConstants : List ConstantIdentity
  module : Name
  statementTypeSha256 : Text
  theoremName : Name
  deriving DecidableEq

def ConstantIdentity.json (constant : ConstantIdentity) : Json :=
  .object [(text "kind", .string constant.kind), (text "module", nameJson constant.module),
    (text "name", nameJson constant.name), (text "sha256", .string constant.sha256)]

def LocalModule.json (entry : LocalModule) : Json :=
  .array [nameJson entry.name, .string entry.tree, .array (entry.imports.map nameJson)]

def externalJson (entry : Name × Text) : Json := .array [nameJson entry.1, .string entry.2]

def ImportGraph.json (graph : ImportGraph) : Json :=
  .object [(text "external_imports", .array (graph.externalImports.map externalJson)),
    (text "local_modules", .array (graph.localModules.map LocalModule.json)),
    (text "module", nameJson graph.module)]

/-- `identity.document`. -/
def DependencyIdentity.document (identity : DependencyIdentity) : Json :=
  .object [(text "external_modules", .array (identity.externalModules.map nameJson)),
    (text "imports", identity.imports.json),
    (text "local_constants", .array (identity.localConstants.map ConstantIdentity.json)),
    (text "module", nameJson identity.module),
    (text "schema_version", .int 1),
    (text "statement_type_sha256", .string identity.statementTypeSha256),
    (text "theorem", nameJson identity.theoremName)]

/-- `canonical_sha256` -/
def Canonical.digest (canonical : Canonical) (value : Json) : Except Refusal Text :=
  (need (canonical.bytes value) .unicodeEncodeError).map canonical.sha256

/-- `DependencyIdentity.sha256` -/
def DependencyIdentity.sha256 (canonical : Canonical) (identity : DependencyIdentity) :
    Except Refusal Text :=
  canonical.digest identity.document

/-- `str.encode("utf-8")` -/
def encodeText (s : Text) : Option ByteArray :=
  if ∀ c ∈ s, c.isValidChar then some (encode (s.map Char.ofNat)) else none

/-! ## Computing it -/

/-- `content["kind"]` -/
def contentKind (content : List (Text × Json)) : Except Refusal Text := do
  string (← field content (text "kind"))

/-- The target is a theorem that is reported by its type. -/
def requireStatement (isTarget : Bool) (content : List (Text × Json)) : Except Refusal Unit := do
  if isTarget then
    require ((← contentKind content) = text "theorem") .dependencyIdentityMismatch
    match ← field content (text "value") with
    | .null => return ()
    | _ => throw .dependencyIdentityMismatch

/-- The printed statement, where there is one, has the digest. -/
def requireDigest (canonical : Canonical) (statement : Option Text) (sha256 : Text) :
    Except Refusal Unit :=
  match statement with
  | none => return ()
  | some statement => do
    let bytes ← need (encodeText statement) .unicodeEncodeError
    require (canonical.sha256 bytes = sha256) .dependencyIdentityMismatch

section Computing

variable {m : Type → Type} [Monad m] [MonadLiftT (Except Refusal) m]

/-- A constant of the target, and whether it or one before it is the target itself. -/
def addIdentity (canonical : Canonical) (report : ClosureReport)
    (classify : LoadedModule → m ModuleOrigin) (closure : List Name) (theoremName : Name)
    (rows : List ConstantIdentity × Bool) (constant : ConstantRow) :
    m (List ConstantIdentity × Bool) := do
  let row ← need (report.row constant.module) Refusal.dependencyIdentityMismatch
  require (row.isLocal ∧ constant.module ∈ closure) Refusal.dependencyIdentityMismatch
  let _ ← classify row.toLoadedModule
  let isTarget := decide (constant.name = theoremName)
  requireStatement isTarget constant.content
  let kind ← contentKind constant.content
  let sha256 ← canonical.digest (.object constant.content)
  return (rows.1 ++ [⟨kind, constant.module, constant.name, sha256⟩], rows.2 || isTarget)

/-- `dependency_identity` -/
def dependencyIdentity (canonical : Canonical) (report : ClosureReport)
    (moduleClosure : Name → m (List Name)) (classify : LoadedModule → m ModuleOrigin)
    (graph : Name → m ImportGraph) (statementTypeSha256 : Text) (target : TargetClosure) :
    m DependencyIdentity := do
  let closure ← moduleClosure target.module
  let (rows, theoremSeen) ← target.localConstants.foldlM
    (addIdentity canonical report classify closure target.theoremName) ([], false)
  require (theoremSeen = true) Refusal.dependencyIdentityMismatch
  requireDigest canonical target.statementCanonical statementTypeSha256
  let imports ← graph target.module
  return ⟨target.externalModules, imports, rows, target.module, statementTypeSha256,
    target.theoremName⟩

end Computing

variable (classification : Classification) (canonical : Canonical) (report : ClosureReport)

/-- The identity, computed without a memo. -/
def Classification.identity (statementTypeSha256 : Text) (target : TargetClosure) :
    Except Refusal DependencyIdentity :=
  dependencyIdentity canonical report (computeModuleClosure canonical report)
    classification.classify (classification.graph canonical report) statementTypeSha256 target

/-! ## The memo -/

/-- `report.memo`, its closures, origins and graphs. -/
structure ReportMemo where
  closures : List (Name × List Name) := []
  origins : List (Name × ModuleOrigin) := []
  graphs : List (Name × ImportGraph) := []

/-- `_module_closure` -/
def moduleClosure (module : Name) : Memo ReportMemo Refusal (List Name) :=
  memoised (fun memo ↦ memo.closures.lookup module)
    (fun names memo ↦ { memo with closures := (module, names) :: memo.closures })
    (liftM (computeModuleClosure canonical report module))

/-- `classify_module` -/
def Classification.classifyModule (module : LoadedModule) :
    Memo ReportMemo Refusal ModuleOrigin :=
  memoised (fun memo ↦ memo.origins.lookup module.name)
    (fun origin memo ↦ { memo with origins := (module.name, origin) :: memo.origins })
    (liftM (classification.classify module))

/-- `import_graph` -/
def Classification.importGraph (module : Name) : Memo ReportMemo Refusal ImportGraph :=
  memoised (fun memo ↦ memo.graphs.lookup module)
    (fun graph memo ↦ { memo with graphs := (module, graph) :: memo.graphs })
    (Versions.importGraph canonical report (moduleClosure canonical report)
      classification.classifyModule module)

/-- The identity of a target, computed through the memo. -/
def Classification.identityOf (request : TargetClosure × Text) :
    Memo ReportMemo Refusal DependencyIdentity :=
  dependencyIdentity canonical report (moduleClosure canonical report)
    classification.classifyModule (classification.importGraph canonical report) request.2 request.1

/-- Every entry is what is computed without the memo. -/
structure ReportMemo.Sound (memo : ReportMemo) : Prop where
  closures : ∀ module names, memo.closures.lookup module = some names →
    computeModuleClosure canonical report module = .ok names
  origins : ∀ name origin, memo.origins.lookup name = some origin →
    ∀ row, report.row name = some row → classification.classify row.toLoadedModule = .ok origin
  graphs : ∀ module graph, memo.graphs.lookup module = some graph →
    classification.graph canonical report module = .ok graph

variable {classification canonical report}

theorem sound_empty : ReportMemo.Sound classification canonical report {} :=
  ⟨nofun, nofun, nofun⟩

/-- A new entry before the others. -/
theorem lookup_cons {α : Type} {P : Name → α → Prop} {entries : List (Name × α)} {name : Name}
    {a : α} (h : ∀ name a, entries.lookup name = some a → P name a) (ha : P name a) :
    ∀ name' a', ((name, a) :: entries).lookup name' = some a' → P name' a' := by
  intro name' a' hlookup
  rw [List.lookup_cons] at hlookup
  split at hlookup
  · next heq =>
    obtain rfl := eq_of_beq heq
    obtain rfl := Option.some.inj hlookup
    exact ha
  · exact h name' a' hlookup

theorem moduleClosure_computes (module : Name) :
    Computes (ReportMemo.Sound classification canonical report)
      (moduleClosure canonical report module) (computeModuleClosure canonical report module) := by
  refine Computes.memoised (fun memo names hsound hfind ↦ hsound.closures _ _ hfind) (.lift _)
    fun memo names hsound hnames ↦ ?_
  exact ⟨lookup_cons hsound.closures hnames, hsound.origins, hsound.graphs⟩

/-- The memo knows a module by its name, which only one module of the report has. -/
theorem classifyModule_computes {row : ModuleRow} (hrow : ∃ name, report.row name = some row) :
    Computes (ReportMemo.Sound classification canonical report)
      (classification.classifyModule row.toLoadedModule)
      (classification.classify row.toLoadedModule) := by
  obtain ⟨name, hrow⟩ := hrow
  obtain rfl := name_of_row hrow
  refine Computes.memoised (fun memo origin hsound hfind ↦ hsound.origins _ _ hfind row hrow)
    (.lift _) fun memo origin hsound horigin ↦ ?_
  refine ⟨hsound.closures, lookup_cons hsound.origins fun row' hrow' ↦ ?_, hsound.graphs⟩
  rw [hrow, Option.some.injEq] at hrow'
  rwa [← hrow']

theorem addImport_computes (external : List (Name × Text)) (imported : Name) :
    Computes (ReportMemo.Sound classification canonical report)
      (addImport report classification.classifyModule external imported)
      (addImport report classification.classify external imported) := by
  refine (Computes.lift _).bind fun row hrow ↦ ?_
  have hrow := need_eq_ok.mp hrow
  split
  · exact .pure _
  · exact (classifyModule_computes ⟨_, hrow⟩).bind fun origin _ ↦ .pure _

theorem addToGraph_computes (graph : List LocalModule × List (Name × Text)) (name : Name) :
    Computes (ReportMemo.Sound classification canonical report)
      (addToGraph canonical report classification.classifyModule graph name)
      (addToGraph canonical report classification.classify graph name) := by
  refine (Computes.lift _).bind fun row hrow ↦ ?_
  have hrow := need_eq_ok.mp hrow
  refine (classifyModule_computes ⟨_, hrow⟩).bind fun origin _ ↦ ?_
  split
  · exact .pure _
  · refine (Computes.lift _).bind fun imports _ ↦ ?_
    exact (Computes.foldlM addImport_computes _ _).bind fun external _ ↦ .pure _

theorem importGraph_computes (module : Name) :
    Computes (ReportMemo.Sound classification canonical report)
      (classification.importGraph canonical report module)
      (classification.graph canonical report module) := by
  refine Computes.memoised (fun memo graph hsound hfind ↦ hsound.graphs _ _ hfind) ?_
    fun memo graph hsound hgraph ↦
      ⟨hsound.closures, hsound.origins, lookup_cons hsound.graphs hgraph⟩
  refine (moduleClosure_computes module).bind fun names _ ↦ ?_
  refine (Computes.foldlM addToGraph_computes _ _).bind fun graph _ ↦ ?_
  exact (Computes.lift _).bind fun external _ ↦ .pure _

theorem addIdentity_computes (closure : List Name) (theoremName : Name)
    (rows : List ConstantIdentity × Bool) (constant : ConstantRow) :
    Computes (ReportMemo.Sound classification canonical report)
      (addIdentity canonical report classification.classifyModule closure theoremName rows constant)
      (addIdentity canonical report classification.classify closure theoremName rows constant) := by
  refine (Computes.lift _).bind fun row hrow ↦ ?_
  have hrow := need_eq_ok.mp hrow
  refine (Computes.lift _).bind fun _ _ ↦ ?_
  refine (classifyModule_computes ⟨_, hrow⟩).bind fun origin _ ↦ ?_
  refine (Computes.lift _).bind fun _ _ ↦ ?_
  refine (Computes.lift _).bind fun kind _ ↦ ?_
  exact (Computes.lift _).bind fun sha256 _ ↦ .pure _

theorem identityOf_computes (request : TargetClosure × Text) :
    Computes (ReportMemo.Sound classification canonical report)
      (classification.identityOf canonical report request)
      (classification.identity canonical report request.2 request.1) := by
  refine (moduleClosure_computes _).bind fun closure _ ↦ ?_
  refine (Computes.foldlM (addIdentity_computes closure _) _ _).bind fun rows _ ↦ ?_
  refine (Computes.lift _).bind fun _ _ ↦ ?_
  refine (Computes.lift _).bind fun _ _ ↦ ?_
  exact (importGraph_computes _).bind fun imports _ ↦ .pure _

end Conjectures.Versions
