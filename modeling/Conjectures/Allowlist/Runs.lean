import Conjectures.Allowlist.Built

/-!
# Sequences of merges

What is built from validated inputs is loaded, with the tasks that went in.  What any sequence of
merges makes of allowlists that were built or that load is loaded exactly where no two of them share
the type of a source, a bundle or the id of a problem: this the merge does not check.
-/

namespace Conjectures.Allowlist

open Lib Lib.Json

/-! ## Documents that share nothing -/

/-- The documents share no type of a source, no bundle and no id of a problem. -/
structure Document.ApartFrom (d d' : Document) : Prop where
  types : ∀ source ∈ d.sources, ∀ source' ∈ d'.sources,
    source.sourceTypeSha256 ≠ source'.sourceTypeSha256
  bundles : ∀ task ∈ d.tasks, ∀ task' ∈ d'.tasks, task.taskBundleSha256 ≠ task'.taskBundleSha256
  problems : ∀ task ∈ d.tasks, ∀ task' ∈ d'.tasks, task.problemId ≠ task'.problemId

/-- The allowlists that merges make, each with what it says and with the allowlists that went in:
some were built, and some load. -/
inductive Made (py : Python) : ByteArray → Document → List Document → Prop
  | built {inputs : BuildInputs} {d : Document} {b : ByteArray} (hvalid : inputs.Valid py)
      (h : buildDocument py inputs = .ok d) (hb : d.bytes = some b) : Made py b d [d]
  | loaded {d : Document} {b : ByteArray} {r : TaskPoolRegistry}
      (htiers : (d.tiers.map Prod.fst).Nodup) (hb : d.bytes = some b)
      (h : fromBytes py b = .ok r) : Made py b d [d]
  | merged {parts : List (ByteArray × Document × List Document)} {first : Document}
      {rest : List Document} {out : ByteArray}
      (hparts : ∀ part ∈ parts, Made py part.1 part.2.1 part.2.2)
      (hdocuments : parts.map (·.2.1) = first :: rest)
      (h : mergeTaskAllowlists py (parts.map Prod.fst) = .ok out) :
      Made py out (Document.join first rest) (parts.flatMap (·.2.2))

/-- The document holds what it says, and says what the documents that went in say. -/
structure MadeOf (py : Python) (b : ByteArray) (d : Document) (leaves : List Document) : Prop where
  sound : d.Sound py
  bytes : d.bytes = some b
  sources : d.sources = leaves.flatMap (·.sources)
  tasks : d.tasks = leaves.flatMap (·.tasks)
  leafSound : ∀ leaf ∈ leaves, leaf.Sound py
  leafApart : ∀ leaf ∈ leaves, leaf.Apart

variable {py : Python} {inputs : BuildInputs} {d : Document} {b : ByteArray}
  {leaves : List Document}

theorem MadeOf.leaf (hsound : d.Sound py) (hapart : d.Apart) (hb : d.bytes = some b) :
    MadeOf py b d [d] where
  sound := hsound
  bytes := hb
  sources := (List.flatMap_singleton _ _).symm
  tasks := (List.flatMap_singleton _ _).symm
  leafSound := by simpa using hsound
  leafApart := by simpa using hapart

/-- The rows of joined documents are those of the documents that went into any of them. -/
theorem flatMap_parts {α : Type} {f : Document → List α}
    {parts : List (ByteArray × Document × List Document)}
    (h : ∀ part ∈ parts, f part.2.1 = part.2.2.flatMap f) :
    (parts.map (·.2.1)).flatMap f = (parts.flatMap (·.2.2)).flatMap f := by
  rw [List.flatMap_map, List.flatMap_assoc]
  exact List.flatMap_congr h

/-- Documents that hold, and that are merged, are joined to one that holds. -/
theorem MadeOf.merged {parts : List (ByteArray × Document × List Document)} {first : Document}
    {rest : List Document} {out : ByteArray}
    (hparts : ∀ part ∈ parts, MadeOf py part.1 part.2.1 part.2.2)
    (hdocuments : parts.map (·.2.1) = first :: rest)
    (h : mergeTaskAllowlists py (parts.map Prod.fst) = .ok out) :
    MadeOf py out (Document.join first rest) (parts.flatMap (·.2.2)) := by
  have hbytes : List.Forall₂ (fun d b ↦ (d.tiers.map Prod.fst).Nodup ∧ d.bytes = some b)
      (first :: rest) (parts.map Prod.fst) := by
    rw [← hdocuments, List.forall₂_map_left_iff, List.forall₂_map_right_iff, List.forall₂_same]
    exact fun part hpart ↦ ⟨(hparts part hpart).sound.distinctTiers, (hparts part hpart).bytes⟩
  obtain ⟨hmergeable, hout⟩ := (mergeTaskAllowlists_bytes hbytes).mp h
  have hsound : ∀ d ∈ first :: rest, d.Sound py := by
    intro d hd
    rw [← hdocuments] at hd
    obtain ⟨part, hpart, rfl⟩ := List.mem_map.mp hd
    exact (hparts part hpart).sound
  refine ⟨Document.Sound.join hsound hmergeable, hout, ?_, ?_, ?_, ?_⟩
  · rw [Document.join, ← hdocuments]
    exact flatMap_parts fun part hpart ↦ (hparts part hpart).sources
  · rw [Document.join, ← hdocuments]
    exact flatMap_parts fun part hpart ↦ (hparts part hpart).tasks
  · intro leaf hleaf
    obtain ⟨part, hpart, hleaf⟩ := List.mem_flatMap.mp hleaf
    exact (hparts part hpart).leafSound leaf hleaf
  · intro leaf hleaf
    obtain ⟨part, hpart, hleaf⟩ := List.mem_flatMap.mp hleaf
    exact (hparts part hpart).leafApart leaf hleaf

/-- What any sequence of merges makes holds what it says. -/
theorem Made.madeOf (h : Made py b d leaves) : MadeOf py b d leaves := by
  induction h with
  | built hvalid h hb =>
    exact .leaf ((buildDocument_eq_ok h).sound hvalid) ((buildDocument_eq_ok h).apart hvalid) hb
  | loaded htiers hb h =>
    obtain ⟨-, hsound, hapart, -⟩ := (fromBytes_bytes htiers hb).mp h
    exact .leaf hsound hapart hb
  | merged _ hdocuments h ih => exact .merged ih hdocuments h

/-! ## Sharing nothing is being told apart -/

/-- The theorems of a task are those of sources of its document. -/
theorem Served.theorems_subset {commit : Text} {tiers : List (Text × TierPolicy)}
    {sources : List SourceRow} {task : TaskRow} (h : Served py commit tiers sources task) :
    task.theorems ≠ [] ∧ task.theorems ⊆ sources.map (·.theoremName) := by
  obtain ⟨-, named, hnamed, hvalid⟩ := h
  rw [hvalid.theorems]
  refine ⟨by simpa using hvalid.sources, fun name hname ↦ ?_⟩
  obtain ⟨source, hsource, rfl⟩ := List.mem_map.mp hname
  obtain ⟨index, -, hmem, -⟩ := exists_mem_of_forall₂_right hnamed hsource
  exact List.mem_map_of_mem hmem

theorem Document.ApartFrom.symm {d d' : Document} (h : d.ApartFrom d') : d'.ApartFrom d where
  types source hsource source' hsource' := (h.types source' hsource' source hsource).symm
  bundles task htask task' htask' := (h.bundles task' htask' task htask).symm
  problems task htask task' htask' := (h.problems task' htask' task htask).symm

/-- What is told apart in the documents together is told apart in each and shared by none. -/
theorem nodup_rows {α : Type} {f : Document → List α} {key : α → Text} :
    ((leaves.flatMap f).map key).Nodup ↔ (∀ leaf ∈ leaves, ((f leaf).map key).Nodup) ∧
      leaves.Pairwise fun leaf leaf' ↦ ∀ a ∈ f leaf, ∀ a' ∈ f leaf', key a ≠ key a' := by
  rw [List.map_flatMap, List.Nodup, List.pairwise_flatMap]
  simp only [List.forall_mem_map]

theorem MadeOf.apart_iff (h : MadeOf py b d leaves) :
    d.Apart ↔ leaves.Pairwise Document.ApartFrom := by
  constructor
  · intro hapart
    have htypes := (nodup_rows.mp (h.sources ▸ hapart.types)).2
    have hbundles := (nodup_rows.mp (h.tasks ▸ hapart.bundles)).2
    have htheorems := (nodup_rows.mp (h.sources ▸ h.sound.theorems)).2
    refine ((htypes.and hbundles).and htheorems).imp_of_mem
      fun {leaf leaf'} hleaf hleaf' ⟨⟨htypes, hbundles⟩, htheorems⟩ ↦ ⟨htypes, hbundles, ?_⟩
    -- tasks of one problem would have the theorems of both documents
    intro task htask task' htask' heq
    have hmem : task ∈ d.tasks := h.tasks ▸ subset_flatMap (·.tasks) hleaf htask
    have hmem' : task' ∈ d.tasks := h.tasks ▸ subset_flatMap (·.tasks) hleaf' htask'
    obtain ⟨hne, hsub⟩ := ((h.leafSound leaf hleaf).tasks task htask).theorems_subset
    obtain ⟨-, hsub'⟩ := ((h.leafSound leaf' hleaf').tasks task' htask').theorems_subset
    obtain ⟨name, hname⟩ := List.exists_mem_of_ne_nil _ hne
    obtain ⟨source, hsource, hsourceName⟩ := List.mem_map.mp (hsub hname)
    rw [hapart.problems task hmem task' hmem' heq] at hname
    obtain ⟨source', hsource', hsourceName'⟩ := List.mem_map.mp (hsub' hname)
    exact htheorems source hsource source' hsource' (hsourceName.trans hsourceName'.symm)
  · intro hpairwise
    refine ⟨?_, ?_, ?_⟩
    · rw [h.sources]
      exact nodup_rows.mpr ⟨fun leaf hleaf ↦ (h.leafApart leaf hleaf).types,
        hpairwise.imp fun hapart ↦ hapart.types⟩
    · rw [h.tasks]
      exact nodup_rows.mpr ⟨fun leaf hleaf ↦ (h.leafApart leaf hleaf).bundles,
        hpairwise.imp fun hapart ↦ hapart.bundles⟩
    · rw [h.tasks]
      intro task htask task' htask' heq
      obtain ⟨leaf, hleaf, htask⟩ := List.mem_flatMap.mp htask
      obtain ⟨leaf', hleaf', htask'⟩ := List.mem_flatMap.mp htask'
      by_cases hsame : leaf = leaf'
      · subst hsame
        exact (h.leafApart leaf hleaf).problems task htask task' htask' heq
      · have hsymm : Std.Symm Document.ApartFrom := ⟨fun _ _ ↦ Document.ApartFrom.symm⟩
        exact absurd heq ((hpairwise.forall hleaf hleaf' hsame).problems task htask task' htask')

/-- What merges make of allowlists that were built or that load is loaded, within the size limit,
exactly where no two of these share a type, a bundle or a problem; and what is loaded are their
tasks. -/
theorem made_loads_iff (py : Python) {b : ByteArray} {d : Document} {leaves : List Document}
    (h : Made py b d leaves) (hsize : b.size ≤ maxAllowlistBytes) :
    ((∃ r, fromBytes py b = .ok r) ↔ leaves.Pairwise Document.ApartFrom) ∧
      ∀ r, fromBytes py b = .ok r → r.repositoryCommit = d.repositoryCommit ∧
        r.tierOrder = d.tiers.map Prod.fst ∧
        r.tasks = leaves.flatMap fun leaf ↦ leaf.tasks.map TaskRow.allowed := by
  have hof := h.madeOf
  have hload (r : TaskPoolRegistry) : fromBytes py b = .ok r ↔ d.Apart ∧ r = d.registry := by
    rw [fromBytes_bytes hof.sound.distinctTiers hof.bytes]
    exact ⟨fun h ↦ h.2.2, fun h ↦ ⟨hsize, hof.sound, h⟩⟩
  refine ⟨?_, fun r hr ↦ ?_⟩
  · simp only [hload, ← hof.apart_iff]
    exact ⟨fun ⟨_, hapart, _⟩ ↦ hapart, fun hapart ↦ ⟨_, hapart, rfl⟩⟩
  · obtain ⟨-, rfl⟩ := (hload r).mp hr
    refine ⟨rfl, rfl, ?_⟩
    rw [Document.registry, hof.tasks, List.map_flatMap]

/-! ## Two tiers

Two tiers of one theorem each are built and merged.  Where the theorems have different types what
is merged is loaded; where they have one type each allowlist loads, and the two together do not. -/

/-- The commit of the examples. -/
def exampleCommit : Text := List.replicate 40 0x30

def exampleName (second : Bool) : Text :=
  if second then text "Erdos2.second" else text "Erdos1.first"

/-- A commit after it. -/
def exampleLaterCommit : Text := List.replicate 40 0x31

/-- What is digested in the examples, and the digests in parts. -/
def exampleDigests : List (Text × Text) :=
  [(problemSeed exampleCommit [exampleName false],
      text "sha256:" ++ text "e95507f7521fcc82" ++ text "1bcde0f15f2bb55e" ++
        text "485b972de6490f3e" ++ text "72cda2d0867ccf55"),
    (problemSeed exampleCommit [exampleName true],
      text "sha256:" ++ text "eccf10dcd57491c0" ++ text "2c45bb0f6e2b2a37" ++
        text "45f95bf071790d7e" ++ text "c17a7642773050df"),
    (problemSeed exampleLaterCommit [exampleName false],
      text "sha256:" ++ text "df1f43c29c8ff2c1" ++ text "483bf82071f19652" ++
        text "b5a9b92b285b1326" ++ text "49bb4bcc16301edf")]

theorem exampleDigests_isSha256 : ∀ entry ∈ exampleDigests, Bundle.IsSha256 entry.2 := by
  decide +kernel

def examplePython : Python where
  decimals := unicodeDecimals
  lower s := s.map fun c ↦ if Bundle.isUpper c then c + 32 else c
  sha256Text s := exampleDigests.lookup s
  sha256Text_isSha256 h := exampleDigests_isSha256 _ (mem_of_lookup h)
  isTwo spelling := spelling = ['2', '.', '0']
  repr spelling := spelling
  repr_repr _ := rfl
  loads cs := (loads? cs).map (respell id)
  loads_strict h := by rw [h]; rfl

def exampleSha256 (c : ℕ) : Text := text "sha256:" ++ List.replicate 64 c

def exampleTier (second : Bool) : Text := if second then text "tier-2" else text "tier-1"

/-- The declaration of each theorem; those of twins have one type. -/
def exampleDeclaration (twins second : Bool) : Declaration where
  theoremName := exampleName second
  sourcePath := Family.erdos.directory ++ (if second then text "2.lean" else text "1.lean")
  typeHash := exampleSha256 (if second && !twins then 0x39 else 0x61)

/-- The letter of each task. -/
def exampleLetter : Bool → Mode → ℕ
  | false, .formalized => 0x63
  | false, .counterexample => 0x64
  | true, .formalized => 0x65
  | true, .counterexample => 0x66

def exampleBundle (twins second : Bool) (mode : Mode) : TaskBundle where
  sources := [(exampleName second, (exampleDeclaration twins second).typeHash)]
  sha256 := exampleSha256 (exampleLetter second mode)
  taskId := [exampleLetter second mode]
  taskMode := mode.word
  sourceTheorem := exampleName second
  sourceTypeHash := (exampleDeclaration twins second).typeHash
  generatedTargetTypeHash := exampleSha256 0x62
  productionEligible := true

def exampleTarget (second : Bool) : TaskTarget where
  theoremName := exampleName second
  sourcePath := (exampleDeclaration false second).sourcePath
  sourceFamily := .erdos
  sourceProblemNumber := .inl (if second then 2 else 1)
  rewardTargetId := rewardTargetIdentity (exampleName second)

def exampleInputs (twins second : Bool) : BuildInputs where
  repositoryCommit := exampleCommit
  catalog := [exampleDeclaration twins false, exampleDeclaration twins true]
  retiredSha256 := exampleSha256 0x30
  heldSha256 := exampleSha256 0x30
  retiredConjecturesSha256 := exampleSha256 0x30
  auditedTheorems := [exampleName false, exampleName true]
  selectionAuditSha256 := exampleSha256 0x30
  taskTargets := ⟨.directProposition, .directProposition, [exampleTarget second],
    exampleSha256 0x30⟩
  groupingSha256 := exampleSha256 0x30
  selected := [[exampleDeclaration twins second]]
  bundles := Mode.all.map (exampleBundle twins second)
  auditDateUtc := text "2026-10-28"
  tier := exampleTier second
  minimumErdosTasks := 1

theorem exampleZeros_isSha256 : Bundle.IsSha256 (exampleSha256 0x30) := by decide +kernel

theorem exampleInputs_valid (twins second : Bool) : (exampleInputs twins second).Valid
    examplePython where
  auditDate := by decide +kernel +revert
  commit := by decide +kernel +revert
  retired := exampleZeros_isSha256
  held := exampleZeros_isSha256
  conjectures := exampleZeros_isSha256
  audit := exampleZeros_isSha256
  grouping := exampleZeros_isSha256
  targetsSha256 := exampleZeros_isSha256
  target target htarget := by
    obtain rfl := List.mem_singleton.mp htarget
    refine ⟨?_, rfl⟩
    simp only [ValidSourceIdentity, exampleTarget]
    cases second <;> decide +kernel
  distinctTargets := List.nodup_singleton _
  wholeProblems := nofun
  selected := by decide +kernel +revert
  distinct := List.nodup_singleton _
  types := by decide +kernel +revert
  distinctTypes := List.nodup_singleton _
  staged := by decide +kernel +revert
  erdos := by decide +kernel +revert
  bundle := by decide +kernel +revert
  taskIds := by decide +kernel +revert
  bundleSha256s := by decide +kernel +revert
  problemDigests declaration hdeclaration other hother _ := by
    rw [List.mem_singleton.mp hdeclaration, List.mem_singleton.mp hother]

def exampleTask (twins second : Bool) (mode : Mode) : TaskRow where
  mode := mode
  problemId := (problemId examplePython exampleCommit [exampleName second]).getD []
  rewardTargetId := some (rewardTargetIdentity (exampleName second))
  sourceIndices := [if second then 1 else 0]
  sourcePath := (exampleDeclaration twins second).sourcePath
  targetTypeSha256s := targetHashes mode [(exampleDeclaration twins second).typeHash]
    (exampleBundle twins second mode)
  taskBundleSha256 := exampleSha256 (exampleLetter second mode)
  taskId := [exampleLetter second mode]
  theorems := [exampleName second]
  tier := exampleTier second

/-- What is built of one theorem. -/
def exampleDocument (twins second : Bool) : Document where
  auditDateUtc := text "2026-10-28"
  repositoryCommit := exampleCommit
  tiers := [(exampleTier second, tierPolicy (exampleInputs twins second) 2)]
  sources := [⟨if second then 1 else 0, (exampleDeclaration twins second).sourcePath,
    (exampleDeclaration twins second).typeHash, exampleName second, exampleTier second⟩]
  tasks := Mode.all.map (exampleTask twins second)

theorem exampleDocument_built (twins second : Bool) :
    buildDocument examplePython (exampleInputs twins second) =
      .ok (exampleDocument twins second) := by
  decide +kernel +revert

/-- A document that takes little room is small. -/
theorem bytes_of_plain {d : Document} (h : PlainTexts d.json ∧ room 0 d.json < 1048576) :
    ∃ b, d.bytes = some b ∧ b.size ≤ maxAllowlistBytes := by
  obtain ⟨cs, hcs, hlength⟩ := pretty_plain h.1
  refine ⟨encode cs, by rw [Document.bytes, hcs]; rfl, (size_encode_le cs).trans ?_⟩
  have hshort : cs.length ≤ 1048576 := hlength.trans h.2
  change 4 * cs.length ≤ 4194304
  omega

/-- What is built, and what is merged of it. -/
def exampleDocuments (twins : Bool) : List Document :=
  [exampleDocument twins false, exampleDocument twins true,
    Document.join (exampleDocument twins false) [exampleDocument twins true]]

theorem exampleDocuments_plain (twins : Bool) : ∀ d ∈ exampleDocuments twins,
    PlainTexts d.json ∧ room 0 d.json < 1048576 := by
  decide +kernel +revert

/-- What is built of one theorem, and the bytes of it. -/
theorem exampleDocument_made (twins second : Bool) : ∃ b,
    buildTaskAllowlist examplePython (exampleInputs twins second) = .ok b ∧
      (exampleDocument twins second).bytes = some b ∧ b.size ≤ maxAllowlistBytes ∧
      Made examplePython b (exampleDocument twins second) [exampleDocument twins second] := by
  have hbuilt := exampleDocument_built twins second
  obtain ⟨b, hb, hsize⟩ : ∃ b, (exampleDocument twins second).bytes = some b ∧
      b.size ≤ maxAllowlistBytes :=
    bytes_of_plain (exampleDocuments_plain twins _ (by cases second <;> simp [exampleDocuments]))
  refine ⟨b, ?_, hb, hsize, .built (exampleInputs_valid twins second) hbuilt hb⟩
  rw [buildTaskAllowlist, hbuilt]
  simp [bind, Except.bind, need, hb]

theorem example_mergeable (twins : Bool) :
    Document.Mergeable (exampleDocument twins false) [exampleDocument twins true] where
  release := by
    intro d hd
    simp only [List.mem_cons, List.not_mem_nil, or_false] at hd
    rcases hd with rfl | rfl <;> exact ⟨rfl, rfl⟩
  tiers := by decide +revert
  theorems := by decide +revert
  indices := by decide +revert
  taskIds := by decide +revert

theorem example_joined_bytes (twins : Bool) :
    ∃ b, (Document.join (exampleDocument twins false) [exampleDocument twins true]).bytes =
      some b ∧ b.size ≤ maxAllowlistBytes :=
  bytes_of_plain (exampleDocuments_plain twins _ (by simp [exampleDocuments]))

/-- The two tiers are merged. -/
theorem example_merged (twins : Bool) : ∃ b b' out,
    buildTaskAllowlist examplePython (exampleInputs twins false) = .ok b ∧
      buildTaskAllowlist examplePython (exampleInputs twins true) = .ok b' ∧
      mergeTaskAllowlists examplePython [b, b'] = .ok out ∧ out.size ≤ maxAllowlistBytes ∧
      Made examplePython out
        (Document.join (exampleDocument twins false) [exampleDocument twins true])
        [exampleDocument twins false, exampleDocument twins true] := by
  obtain ⟨b, hbuild, hb, -, hmade⟩ := exampleDocument_made twins false
  obtain ⟨b', hbuild', hb', -, hmade'⟩ := exampleDocument_made twins true
  obtain ⟨out, hout, hsize⟩ := example_joined_bytes twins
  have hbytes : List.Forall₂ (fun (d : Document) b ↦ (d.tiers.map Prod.fst).Nodup ∧
      d.bytes = some b) [exampleDocument twins false, exampleDocument twins true] [b, b'] :=
    .cons ⟨List.nodup_singleton _, hb⟩ (.cons ⟨List.nodup_singleton _, hb'⟩ .nil)
  have hmerge : mergeTaskAllowlists examplePython [b, b'] = .ok out :=
    (mergeTaskAllowlists_bytes hbytes).mpr ⟨example_mergeable twins, hout⟩
  have hparts : ∀ part ∈ [(b, exampleDocument twins false, [exampleDocument twins false]),
      (b', exampleDocument twins true, [exampleDocument twins true])],
      Made examplePython part.1 part.2.1 part.2.2 := by
    simpa using ⟨hmade, hmade'⟩
  exact ⟨b, b', out, hbuild, hbuild', hmerge, hsize, .merged hparts rfl hmerge⟩

/-- The two tiers share nothing but the types of twins. -/
theorem example_apart : (exampleDocument false false).ApartFrom (exampleDocument false true) where
  types := by decide +kernel
  bundles := by decide +kernel
  problems := by decide +kernel

/-- What is built is loaded, and so is what is merged of two that share nothing. -/
theorem made_loads_iff_example : ∃ b b' out r r',
    buildTaskAllowlist examplePython (exampleInputs false false) = .ok b ∧
    buildTaskAllowlist examplePython (exampleInputs false true) = .ok b' ∧
    mergeTaskAllowlists examplePython [b, b'] = .ok out ∧
    fromBytes examplePython b = .ok r ∧ r.tasks.length = 2 ∧
    fromBytes examplePython out = .ok r' ∧ r'.tasks.map (·.taskId) =
      [text "c", text "d", text "e", text "f"] := by
  obtain ⟨b, b', out, hbuild, hbuild', hmerge, hsize, hmade⟩ := example_merged false
  obtain ⟨b₀, hbuild₀, -, hsize₀, hmade₀⟩ := exampleDocument_made false false
  obtain rfl : b₀ = b := Except.ok.inj (hbuild₀.symm.trans hbuild)
  have hloads := made_loads_iff examplePython hmade₀ hsize₀
  have hloads' := made_loads_iff examplePython hmade hsize
  obtain ⟨r, hr⟩ := hloads.1.mpr (List.pairwise_singleton _ _)
  obtain ⟨r', hr'⟩ := hloads'.1.mpr (List.pairwise_pair.mpr example_apart)
  refine ⟨b₀, b', out, r, r', hbuild, hbuild', hmerge, hr, ?_, hr', ?_⟩
  · rw [(hloads.2 r hr).2.2]
    rfl
  · rw [(hloads'.2 r' hr').2.2]
    rfl

/-- Two allowlists are built and load, are merged, and are not loaded together. -/
theorem merged_not_loaded : ∃ b b' out,
    buildTaskAllowlist examplePython (exampleInputs true false) = .ok b ∧
    buildTaskAllowlist examplePython (exampleInputs true true) = .ok b' ∧
    (∃ r, fromBytes examplePython b = .ok r) ∧ (∃ r, fromBytes examplePython b' = .ok r) ∧
    mergeTaskAllowlists examplePython [b, b'] = .ok out ∧ out.size ≤ maxAllowlistBytes ∧
    ∀ r, fromBytes examplePython out ≠ .ok r := by
  obtain ⟨b, b', out, hbuild, hbuild', hmerge, hsize, hmade⟩ := example_merged true
  have hload (second : Bool) : ∃ b, buildTaskAllowlist examplePython (exampleInputs true second) =
      .ok b ∧ ∃ r, fromBytes examplePython b = .ok r := by
    obtain ⟨b, hbuild, -, hsize, hmade⟩ := exampleDocument_made true second
    have hof := hmade.madeOf
    exact ⟨b, hbuild, _, (fromBytes_bytes hof.sound.distinctTiers hof.bytes).mpr
      ⟨hsize, hof.sound, hof.leafApart _ List.mem_cons_self, rfl⟩⟩
  obtain ⟨b₀, hbuild₀, hload₀⟩ := hload false
  obtain ⟨b₁, hbuild₁, hload₁⟩ := hload true
  obtain rfl : b₀ = b := Except.ok.inj (hbuild₀.symm.trans hbuild)
  obtain rfl : b₁ = b' := Except.ok.inj (hbuild₁.symm.trans hbuild')
  refine ⟨b₀, b₁, out, hbuild, hbuild', hload₀, hload₁, hmerge, hsize, fun r hr ↦ ?_⟩
  have hof := hmade.madeOf
  obtain ⟨-, -, hapart, -⟩ := (fromBytes_bytes hof.sound.distinctTiers hof.bytes).mp hr
  exact absurd hapart.types (by decide +kernel)

end Conjectures.Allowlist
