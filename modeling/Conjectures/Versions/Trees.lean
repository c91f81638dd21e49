import Conjectures.Versions.Imports

/-!
# Source trees

Where a loaded module really came from: a local one from exactly one local build and no other
source tree, an external one from the toolchain or from a pinned package.

`realpath`, links, existence and the bytes of a source are functions that do not change while a
report is classified (`Files`).  Messages of refusals are left out.
-/

namespace Conjectures.Versions

open Lib Lib.Json

/-- What is asked of the file system, which does not change while a report is classified. -/
structure Files where
  realpath : Text → Text
  islink : Text → Bool
  lexists : Text → Bool
  /-- `read_tree_file`, of a tree and the parts of a path in it. -/
  readTreeFile : Text → List Text → Except Refusal ByteArray
  sha256 : ByteArray → Text

/-- A local package: its origin, its sources and its build. -/
structure LocalTree where
  origin : Text
  source : Text
  build : Text

structure SourceTrees where
  localTrees : List LocalTree
  toolchainLib : Text
  /-- The packages in the order of their names, each with its build. -/
  packages : List (Text × Text)

/-- `/` -/
def slash : ℕ := 0x2f

/-- `path.rstrip("/")` -/
def stripSlashes (path : Text) : Text := (path.reverse.dropWhile (· = slash)).reverse

/-- `os.path.split` -/
def splitPath (path : Text) : Text × Text :=
  let name := (path.reverse.takeWhile (· ≠ slash)).reverse
  let directory := (path.reverse.dropWhile (· ≠ slash)).reverse
  (if directory.all (· = slash) then directory else stripSlashes directory, name)

/-- `os.path.join` -/
def joinPath (path name : Text) : Text :=
  if name.head? = some slash then name
  else if path = [] ∨ path.getLast? = some slash then path ++ name
  else path ++ slash :: name

/-- `_under` -/
def under (path root : Text) : Option Text :=
  let start := stripSlashes root ++ [slash]
  if start.isPrefixOf path then some (path.drop start.length) else none

/-- `_resolved_artifact` -/
def resolvedArtifact (files : Files) (path : Text) : Text :=
  let (directory, name) := splitPath path
  let resolved := joinPath (files.realpath directory) name
  if files.islink resolved then files.realpath resolved else resolved

def componentText : Component → Option Text
  | .text s => some s
  | .number _ => none

/-- `module_parts` -/
def moduleParts (name : Name) : Except Refusal (List Text) := do
  let parts ← need (name.mapM componentText) .dependencyIdentityMismatch
  require (∀ part ∈ parts, part ≠ text "." ∧ part ≠ text ".." ∧ slash ∉ part ∧ 0 ∉ part)
    .dependencyIdentityMismatch
  return parts

/-- The parts of the path of a module's file with this suffix. -/
def fileParts (parts : List Text) (suffix : Text) : List Text :=
  parts.dropLast ++ [parts.getLastD [] ++ suffix]

variable (files : Files) (trees : SourceTrees) (localRoots : List Text)

/-- Where the artifact of a local module lies, with the rest of its path. -/
def localMatches (olean : Text) : List (LocalTree × Text) :=
  trees.localTrees.filterMap fun tree ↦
    (under olean (files.realpath tree.build)).map fun relative ↦ (tree, relative)

/-- A local module comes from one build, and has no source in another tree. -/
def classifyLocal (parts : List Text) (olean : Text) : Except Refusal ModuleOrigin :=
  match localMatches files trees olean with
  | [(tree, relative)] => do
    require (relative = List.intercalate [slash] (fileParts parts (text ".olean")))
      .dependencyIdentityMismatch
    require (∀ other ∈ trees.localTrees, other.origin ≠ tree.origin →
        files.lexists ((fileParts parts (text ".lean")).foldl joinPath other.source) = false)
      .dependencyIdentityMismatch
    let content ← files.readTreeFile tree.source (fileParts parts (text ".lean"))
    return ⟨tree.origin, some (files.sha256 content)⟩
  | _ => throw .dependencyIdentityMismatch

/-- An external module comes from the toolchain, or from the first package it lies in. -/
def classifyExternal (olean : Text) : Except Refusal ModuleOrigin :=
  if (under olean (files.realpath trees.toolchainLib)).isSome then return ⟨text "lean", none⟩
  else
    match trees.packages.find? fun package ↦
        (under olean (files.realpath package.2)).isSome with
    | some package => return ⟨text "package:" ++ package.1, none⟩
    | none => throw .dependencyIdentityMismatch

/-- `_classify_module` -/
def classifyModule (module : LoadedModule) : Except Refusal ModuleOrigin := do
  let parts ← moduleParts module.name
  let olean := resolvedArtifact files module.olean
  require (decide (parts.headD [] ∈ localRoots) = module.isLocal) .dependencyIdentityMismatch
  if module.isLocal then classifyLocal files trees parts olean
  else classifyExternal files trees olean

variable {files trees localRoots}

theorem classifyLocal_source {parts : List Text} {olean : Text} {origin : ModuleOrigin}
    (h : classifyLocal files trees parts olean = .ok origin) :
    origin.sourceSha256.isSome = true := by
  unfold classifyLocal at h
  split at h
  · simp only [bind_eq_ok] at h
    obtain ⟨_, -, _, -, content, -, h⟩ := h
    rw [← Except.ok.inj h]
    rfl
  · cases h

theorem classifyExternal_source {olean : Text} {origin : ModuleOrigin}
    (h : classifyExternal files trees olean = .ok origin) :
    origin.sourceSha256.isSome = false := by
  unfold classifyExternal at h
  split at h
  · rw [← Except.ok.inj h]
    rfl
  · split at h
    · rw [← Except.ok.inj h]
      rfl
    · cases h

variable (files trees localRoots)

/-- The classification of the modules of a report with these local roots. -/
def SourceTrees.classification : Classification where
  classify := classifyModule files trees localRoots
  source module origin h := by
    simp only [classifyModule, bind_eq_ok] at h
    obtain ⟨parts, -, _, -, h⟩ := h
    split at h
    · next hlocal => rw [hlocal, classifyLocal_source h]
    · next hexternal => rw [eq_false_of_ne_true hexternal, classifyExternal_source h]

variable {files trees localRoots}

/-- A module that is classified has the locality of its root, and an origin by its artifact. -/
theorem classifyModule_origin {module : LoadedModule} {origin : ModuleOrigin}
    (h : classifyModule files trees localRoots module = .ok origin) :
    ∃ parts, moduleParts module.name = .ok parts ∧
      (module.isLocal = true ↔ parts.headD [] ∈ localRoots) ∧
      (module.isLocal = true → ∃ tree ∈ trees.localTrees, origin.origin = tree.origin ∧
        under (resolvedArtifact files module.olean) (files.realpath tree.build) =
          some (List.intercalate [slash] (fileParts parts (text ".olean"))) ∧
        ∀ other ∈ trees.localTrees, other.origin ≠ tree.origin →
          files.lexists ((fileParts parts (text ".lean")).foldl joinPath other.source) = false) := by
  simp only [classifyModule, bind_eq_ok, require_eq_ok] at h
  obtain ⟨parts, hparts, _, hroot, h⟩ := h
  refine ⟨parts, hparts, by rw [← hroot, decide_eq_true_eq], fun hlocal ↦ ?_⟩
  rw [if_pos hlocal, classifyLocal] at h
  split at h
  · next tree relative hmatches =>
    simp only [bind_eq_ok, require_eq_ok] at h
    obtain ⟨_, hrelative, _, hother, content, -, h⟩ := h
    have hmem : (tree, relative) ∈ localMatches files trees (resolvedArtifact files module.olean) := by
      rw [hmatches]
      exact List.mem_singleton_self _
    obtain ⟨tree', htree', hunder⟩ := List.mem_filterMap.mp hmem
    obtain ⟨relative', hrelative', heq⟩ := Option.map_eq_some_iff.mp hunder
    obtain ⟨htree, hpath⟩ := Prod.mk.inj heq
    rw [htree] at htree' hrelative'
    rw [hpath, hrelative] at hrelative'
    rw [← Except.ok.inj h]
    exact ⟨tree, htree', rfl, hrelative', hother⟩
  · cases h

end Conjectures.Versions
