import Conjectures.Bundle.Manifest
import Conjectures.Lib.Decimals
import Conjectures.Lib.JsonFields

/-!
# The sources of tasks

Where the file of a theorem may stand and which family of problems it belongs to, and the
identities of problems and of reward targets.

What Python does beyond ASCII, its digests and its floats are a parameter (`Python`).  Of a digest
only its form is assumed.  A problem id shows some digits of the digest of its seed, and two seeds
`Collide` where those are the same.
-/

namespace Conjectures.Allowlist

open Lib

/-- What of Python is not modelled: the letters and the digits of other scripts, digests, and the
floats. -/
structure Python where
  decimals : Decimals
  /-- `str.lower` -/
  lower : Text → Text
  /-- `sha256_text`, which a text with half a surrogate pair does not have -/
  sha256Text : Text → Option Text
  sha256Text_isSha256 {s digest : Text} : sha256Text s = some digest → Bundle.IsSha256 digest
  /-- `value == 2`, of the float that is spelled so -/
  isTwo : List Char → Bool
  /-- what `json.dumps` writes for the float that is spelled so -/
  repr : List Char → List Char
  repr_repr (spelling : List Char) : repr (repr spelling) = repr spelling
  /-- `json.loads` without a hook -/
  loads : List Char → Option Json
  loads_strict {cs : List Char} {v : Json} :
    Json.loads? cs = some v → loads cs = some (v.respell repr)

/-! ## Families -/

inductive Family where
  | historicalOpen
  | wikipedia
  | millennium
  | researchTargets
  | erdos
  | greensOpenProblems
  deriving DecidableEq

namespace Family

def all : List Family :=
  [historicalOpen, wikipedia, millennium, researchTargets, erdos, greensOpenProblems]

theorem mem_all (f : Family) : f ∈ all := by
  cases f <;> decide

def word : Family → Text
  | historicalOpen => text "historical-open"
  | wikipedia => text "wikipedia"
  | millennium => text "millennium"
  | researchTargets => text "research-targets"
  | erdos => text "erdos"
  | greensOpenProblems => text "greens-open-problems"

theorem word_injective {f g : Family} (h : f.word = g.word) : f = g := by
  revert h
  cases f <;> cases g <;> decide

def ofWord (s : Text) : Option Family := all.find? fun f ↦ f.word = s

theorem ofWord_word (f : Family) : ofWord f.word = some f := by
  cases f <;> decide

/-- `SOURCE_FAMILY_PREFIXES` -/
def directory : Family → Text
  | historicalOpen => text "FormalConjectures/HistoricalOpen/"
  | wikipedia => text "FormalConjectures/Wikipedia/"
  | millennium => text "FormalConjectures/Millennium/"
  | researchTargets => text "FormalConjectures/ResearchTargets/"
  | erdos => text "FormalConjectures/ErdosProblems/"
  | greensOpenProblems => text "FormalConjectures/GreensOpenProblems/"

/-- `NAMED_SOURCE_FAMILIES` -/
def IsNamed (f : Family) : Prop :=
  f ∈ [historicalOpen, wikipedia, millennium, researchTargets]

instance : DecidablePred IsNamed := fun _ ↦ inferInstanceAs (Decidable (_ ∈ _))

/-- `SOURCE_FAMILY_THEOREM_PREFIXES`, of the families whose problems are numbered. -/
def theoremPrefix : Family → Text
  | greensOpenProblems => text "Green"
  | _ => text "Erdos"

end Family

/-- The rows of `NAMED_SOURCE_NAMESPACES`: the file in the directory of its family. -/
def namedSources : List (Family × String × String) :=
  [(.historicalOpen, "HajosCycleDecomposition", "FullOldProblemsCatalog.HajosCycleDecomposition"),
    (.historicalOpen, "BergeFulkerson", "FullOldProblemsCatalog.BergeFulkerson"),
    (.historicalOpen, "VizingIndependence", "FullOldProblemsCatalog.VizingIndependence"),
    (.historicalOpen, "ChvatalToughness", "FullOldProblemsCatalog.ChvatalToughness"),
    (.historicalOpen, "LovaszHamiltonPath", "FullOldProblemsCatalog.LovaszHamiltonPath"),
    (.historicalOpen, "KotzigPerfectFactorization",
      "FullOldProblemsCatalog.KotzigPerfectFactorization"),
    (.historicalOpen, "SidonSubsetAsymptotic", "FullOldProblemsCatalog.SidonSubsetAsymptotic"),
    (.historicalOpen, "TutteFiveFlow", "FullOldProblemsCatalog.TutteFiveFlow"),
    (.historicalOpen, "TutteThreeFlow", "FullOldProblemsCatalog.TutteThreeFlow"),
    (.historicalOpen, "RiddellErdosProgressionRatio",
      "FullOldProblemsCatalog.RiddellErdosProgressionRatio"),
    (.historicalOpen, "ErdosCriticalMinimumDegree",
      "FullOldProblemsCatalog.ErdosCriticalMinimumDegree"),
    (.historicalOpen, "ErdosPurdyDegenerateQuadruples",
      "FullOldProblemsCatalog.ErdosPurdyDegenerateQuadruples"),
    (.historicalOpen, "MarcusDeOliveira", "FullOldProblemsCatalog.MarcusDeOliveira"),
    (.historicalOpen, "MinkowskiInhomogeneousProduct",
      "FullOldProblemsCatalog.MinkowskiInhomogeneousProduct"),
    (.historicalOpen, "MarcusBlockPermanent", "FullOldProblemsCatalog.MarcusBlockPermanent"),
    (.historicalOpen, "WangHadamardPermanentNonvanishing",
      "FullOldProblemsCatalog.WangHadamardPermanentNonvanishing"),
    (.millennium, "RiemannHypothesis", "RiemannHypothesis"),
    (.researchTargets, "Math15", "Math15Catalog"),
    (.researchTargets, "Math30", "Math30Catalog"),
    (.wikipedia, "ArtinPrimitiveRootsConjecture", "ArtinPrimitiveRootsConjecture"),
    (.wikipedia, "BorsukConjecture", "Borsuk"),
    (.wikipedia, "BrocardConjecture", "Brocard"),
    (.wikipedia, "Bunyakovsky", "Bunyakovsky"),
    (.wikipedia, "CarmichaelTotient", "CarmichaelTotient"),
    (.wikipedia, "ClassNumberProblem", "ClassNumberProblem"),
    (.wikipedia, "Dickson", "Dickson"),
    (.wikipedia, "Fermat", "Fermat"),
    (.wikipedia, "GaussCircleProblem", "GaussCircleProblem"),
    (.wikipedia, "GoldbachConjecture", "GoldbachConjecture"),
    (.wikipedia, "Goormaghtigh", "Goormaghtigh"),
    (.wikipedia, "Hadamard", "Hadamard"),
    (.wikipedia, "HardyLittlewood", "HardyLittlewood"),
    (.wikipedia, "IdonealCompleteness", "Idoneal"),
    (.wikipedia, "InscribedSquare", "InscribedSquare"),
    (.wikipedia, "InverseGalois", "InverseGalois"),
    (.wikipedia, "Irrational", "Irrational"),
    (.wikipedia, "KummerVandiver", "KummerVandiver"),
    (.wikipedia, "LegendreConjecture", "LegendreConjecture"),
    (.wikipedia, "LehmerMahlerMeasureProblem", "LehmerMahlerMeasureProblem"),
    (.wikipedia, "LehmerTotient", "LehmerTotient"),
    (.wikipedia, "Lemoine", "Lemoine"),
    (.wikipedia, "Mersenne", "Mersenne"),
    (.wikipedia, "NormalityOfPi", "NormalNumber"),
    (.wikipedia, "Oppermann", "Oppermann"),
    (.wikipedia, "PerfectNumbers", "PerfectNumbers"),
    (.wikipedia, "PollocksConjecture", "PollocksConjecture"),
    (.wikipedia, "PrimesAndPerfectSquares", "PrimesAndPerfectSquares"),
    (.wikipedia, "RegularPrimes", "RegularPrimes"),
    (.wikipedia, "TwinPrimes", "TwinPrimes")]

/-- `NAMED_SOURCE_NAMESPACES` -/
def namedSourceNamespaces : List (Text × Text) :=
  namedSources.map fun (f, stem, namespaceName) ↦
    (f.directory ++ text stem ++ text ".lean", text namespaceName)

/-- `ACTIVATED_RESEARCH_TARGETS` -/
def activatedResearchTargets : List Text :=
  [text "Math15Catalog.source04", text "Math15Catalog.source05", text "Math15Catalog.source06",
    text "Math15Catalog.source10", text "Math15Catalog.source11", text "Math30Catalog.source16",
    text "Math30Catalog.source18", text "Math30Catalog.source20", text "Math30Catalog.source21",
    text "Math30Catalog.source22", text "Math30Catalog.source23", text "Math30Catalog.source25",
    text "Math30Catalog.source26", text "Math30Catalog.source27", text "Math30Catalog.source28",
    text "Math30Catalog.source29", text "Math30Catalog.source30"]

/-- `HISTORICAL_OPEN_TARGETS` -/
def historicalOpenTargets : List Text :=
  (namedSourceNamespaces.filter fun named ↦
    Family.historicalOpen.directory.isPrefixOf named.1).map fun named ↦
      named.2 ++ text ".conjecture"

/-! ## Paths -/

def slash : ℕ := 0x2f

def dot : ℕ := 0x2e

/-- `str.removesuffix` -/
def removeSuffix (s tail : Text) : Text :=
  if tail.isSuffixOf s then s.take (s.length - tail.length) else s

/-- `Path(path).parts`, of a relative path. -/
def parts (path : Text) : List Text :=
  (path.splitOn slash).filter fun part ↦ part ≠ [] ∧ part ≠ text "."

/-- `Path(path).suffix` -/
def suffix (path : Text) : Text :=
  let name := (parts path).getLastD []
  let tail := (name.reverse.takeWhile (· ≠ dot)).reverse
  if tail ≠ [] ∧ tail.length + 1 < name.length then dot :: tail else []

/-- `SOURCE_PREFIX` -/
def sourcePrefix : Text := text "FormalConjectures/"

/-- The path is one of a source file. -/
def IsSourcePath (path : Text) : Prop :=
  sourcePrefix.isPrefixOf path ∧ text ".." ∉ parts path ∧ suffix path = text ".lean"

instance : DecidablePred IsSourcePath := fun _ ↦ inferInstanceAs (Decidable (_ ∧ _))

section Families

variable (py : Python)

/-- `s.isdecimal() and int(s) > 0`; a number of more digits cannot be read. -/
def Python.isPositive (s : Text) : Bool :=
  s ≠ [] ∧ s.length ≤ 4300 ∧
    (∀ n ∈ s, n.isValidChar ∧ py.decimals.isDecimal (Char.ofNat n) = true) ∧
    0 < py.decimals.int (s.map Char.ofNat)

/-- The file belongs to the family. -/
def InFamily (path : Text) (f : Family) : Prop :=
  f.directory.isPrefixOf path ∧ (text ".lean").isSuffixOf path ∧
    if f.IsNamed then path ∈ namedSourceNamespaces.map Prod.fst
    else py.isPositive (removeSuffix (path.drop f.directory.length) (text ".lean")) = true

instance (path : Text) (f : Family) : Decidable (InFamily py path f) :=
  inferInstanceAs (Decidable (_ ∧ _))

/-- `source_family_from_path` -/
def sourceFamilyFromPath (path : Text) : Option Family := Family.all.find? (InFamily py path ·)

/-- `staged_research_target` -/
def StagedResearchTarget (theoremName path : Text) : Prop :=
  sourceFamilyFromPath py path = some .researchTargets ∧ theoremName ∉ activatedResearchTargets

instance (theoremName path : Text) : Decidable (StagedResearchTarget py theoremName path) :=
  inferInstanceAs (Decidable (_ ∧ _))

end Families

/-- The number of a problem, or the name of its source. -/
abbrev ProblemNumber := ℤ ⊕ Text

/-- A number as it is spelled. -/
def digits (n : ℤ) : Text := (Json.decimal n).map Char.toNat

/-- `_valid_source_identity` -/
def ValidSourceIdentity (f : Family) (number : ProblemNumber) (path theoremName : Text) : Prop :=
  match number with
  | .inr name => f.IsNamed ∧ path = f.directory ++ name ++ text ".lean" ∧
      ∃ namespaceName ∈ namedSourceNamespaces.lookup path,
        (namespaceName ++ text ".").isPrefixOf theoremName ∧
          (f = .historicalOpen → theoremName ∈ historicalOpenTargets)
  -- a number of more digits can be neither read nor written
  | .inl n => ¬ f.IsNamed ∧ 0 < n ∧ (digits n).length ≤ 4300 ∧
      path = f.directory ++ digits n ++ text ".lean" ∧
      (f.theoremPrefix ++ digits n ++ text ".").isPrefixOf theoremName

/-! ### Paths of valid sources -/

theorem Family.directory_prefix {f g : Family} (h : f.directory <+: g.directory) : f = g := by
  revert h
  cases f <;> cases g <;> decide

variable {py : Python} {path theoremName : Text} {f g : Family} {number : ProblemNumber}

theorem InFamily.unique (hf : InFamily py path f) (hg : InFamily py path g) : f = g := by
  have hf' := List.isPrefixOf_iff_prefix.mp hf.1
  have hg' := List.isPrefixOf_iff_prefix.mp hg.1
  rcases List.prefix_or_prefix_of_prefix hf' hg' with h | h
  · exact Family.directory_prefix h
  · exact (Family.directory_prefix h).symm

theorem sourceFamilyFromPath_eq_some : sourceFamilyFromPath py path = some f ↔
    InFamily py path f := by
  constructor
  · intro h
    simpa using List.find?_some h
  · intro h
    cases hfind : sourceFamilyFromPath py path with
    | none => exact absurd h (by simpa using List.find?_eq_none.mp hfind f f.mem_all)
    | some g => rw [InFamily.unique (f := g) (by simpa using List.find?_some hfind) h]

theorem namedSources_stem : ∀ row ∈ namedSources, slash ∉ text row.2.1 ∧ text row.2.1 ≠ [] := by
  decide +kernel

theorem digits_of_pos {n : ℤ} (hn : 0 < n) :
    ∃ m : ℕ, 0 < m ∧ digits n = (Nat.toDigits 10 m).map Char.toNat := by
  obtain ⟨m, rfl⟩ := Int.eq_ofNat_of_zero_le hn.le
  exact ⟨m, by omega, by simp [digits, Json.decimal, Json.minus]⟩

theorem isDigit_toDigits {m : ℕ} {c : Char} (hc : c ∈ Nat.toDigits 10 m) : c.isDigit = true :=
  Nat.isDigit_of_mem_toDigits (by decide) (by decide) hc

theorem isPositive_digits {n : ℤ} (hn : 0 < n) (hlength : (digits n).length ≤ 4300) :
    py.isPositive (digits n) = true := by
  obtain ⟨m, hm, hdigits⟩ := digits_of_pos hn
  rw [hdigits] at hlength ⊢
  have hchars : ((Nat.toDigits 10 m).map Char.toNat).map Char.ofNat = Nat.toDigits 10 m := by
    rw [List.map_map]
    exact (List.map_congr_left fun c _ ↦ Char.ofNat_toNat c).trans (List.map_id' _)
  simp only [Python.isPositive, decide_eq_true_eq, hchars, Decimals.int_toDigits]
  refine ⟨by simp, hlength, fun k hk ↦ ?_, hm⟩
  obtain ⟨c, hc, rfl⟩ := List.mem_map.mp hk
  rw [Char.ofNat_toNat]
  exact ⟨c.valid, Decimals.isDecimal_of_isDigit (isDigit_toDigits hc)⟩

/-- The last directory of a family. -/
def Family.folder (f : Family) : Text := (f.directory.drop 18).dropLast

theorem Family.directory_eq (f : Family) :
    f.directory = text "FormalConjectures" ++ slash :: (f.folder ++ [slash]) := by
  cases f <;> decide

theorem Family.folder_spec (f : Family) :
    slash ∉ f.folder ∧ f.folder ≠ [] ∧ f.folder ≠ text "." ∧ f.folder ≠ text ".." := by
  cases f <;> decide

/-- The path of a file of a family, taken apart. -/
theorem parts_directory {name : Text} (hname : slash ∉ name) (hne : name ≠ [])
    (hdot : name ≠ text ".") : parts (f.directory ++ name) = [text "FormalConjectures", f.folder, name] := by
  obtain ⟨hslash, hfolder, hfolder', -⟩ := f.folder_spec
  have hpath : f.directory ++ name =
      [slash].intercalate [text "FormalConjectures", f.folder, name] := by
    simp [f.directory_eq, List.intercalate]
  rw [parts, hpath, List.splitOn_intercalate]
  · simp [hne, hdot, hfolder, hfolder', show text "FormalConjectures" ≠ [] by decide,
      show text "FormalConjectures" ≠ text "." by decide]
  · have hroot : slash ∉ text "FormalConjectures" := by decide
    simp [hname, hslash, hroot]
  · simp

theorem removeSuffix_append (s tail : Text) : removeSuffix (s ++ tail) tail = s := by
  rw [removeSuffix, if_pos (by simp)]
  simp

theorem suffix_lean {stem : Text} (hstem : stem ≠ []) (hparts : (parts path).getLast? =
    some (stem ++ text ".lean")) : suffix path = text ".lean" := by
  have hname : (parts path).getLastD [] = stem ++ text ".lean" := by
    rw [List.getLastD_eq_getLast?, hparts]
    rfl
  have htail : ((stem ++ text ".lean").reverse.takeWhile (· ≠ dot)).reverse = text "lean" := by
    rw [List.reverse_append]
    rfl
  have hlength : 0 < stem.length := List.length_pos_of_ne_nil hstem
  have hlong : (text "lean").length + 1 < (stem ++ text ".lean").length := by
    rw [List.length_append]
    change 4 + 1 < stem.length + 5
    omega
  simp only [suffix, hname, htail]
  rw [if_pos ⟨by decide, hlong⟩]
  rfl

theorem length_lean (stem : Text) : (stem ++ text ".lean").length = stem.length + 5 := by
  rw [List.length_append]
  rfl

/-- A file of a family that is named by a stem is a source file. -/
theorem isSourcePath_stem {stem : Text} (hstem : slash ∉ stem) (hne : stem ≠ []) :
    IsSourcePath (f.directory ++ stem ++ text ".lean") := by
  obtain ⟨-, -, -, hfolder⟩ := f.folder_spec
  have hslash : slash ∉ stem ++ text ".lean" := by
    rw [List.mem_append, not_or]
    exact ⟨hstem, by decide⟩
  have hlong {s : Text} (hs : s.length ≤ 2) : stem ++ text ".lean" ≠ s := by
    rintro rfl
    rw [length_lean] at hs
    omega
  have hparts := parts_directory (f := f) hslash (by simp [hne]) (hlong (by decide))
  rw [List.append_assoc]
  refine ⟨?_, ?_, suffix_lean hne (by rw [hparts]; rfl)⟩
  · rw [List.isPrefixOf_iff_prefix]
    refine List.IsPrefix.trans ?_ (List.prefix_append _ _)
    cases f <;> decide
  · rw [hparts, List.mem_cons, List.mem_cons, List.mem_singleton]
    rintro (heq | heq | heq)
    · exact absurd heq (by decide)
    · exact hfolder heq.symm
    · exact hlong (by decide) heq.symm

theorem mem_named_of_lookup {namespaceName : Text}
    (h : namedSourceNamespaces.lookup path = some namespaceName) :
    path ∈ namedSourceNamespaces.map Prod.fst := by
  obtain ⟨front, back, heq, -⟩ := List.lookup_eq_some_iff.mp h
  rw [heq]
  simp

/-- The path of a valid source says its family. -/
theorem ValidSourceIdentity.inFamily (h : ValidSourceIdentity f number path theoremName) :
    InFamily py path f := by
  cases number with
  | inr name =>
    obtain ⟨hnamed, rfl, namespaceName, hlookup, -⟩ := h
    refine ⟨by simp [List.append_assoc], by simp [-List.append_assoc], ?_⟩
    rw [if_pos hnamed]
    exact mem_named_of_lookup hlookup
  | inl n =>
    obtain ⟨hnamed, hn, hlength, rfl, -⟩ := h
    refine ⟨by simp [List.append_assoc], by simp [-List.append_assoc], ?_⟩
    rw [if_neg hnamed, List.append_assoc, List.drop_left, removeSuffix_append]
    exact isPositive_digits hn hlength

theorem ValidSourceIdentity.theoremName_ne_nil
    (h : ValidSourceIdentity f number path theoremName) : theoremName ≠ [] := by
  rintro rfl
  cases number with
  | inr name =>
    obtain ⟨-, -, namespaceName, -, hprefix, -⟩ := h
    simp [text] at hprefix
  | inl n =>
    obtain ⟨-, -, -, -, hprefix⟩ := h
    simp [text] at hprefix

theorem ValidSourceIdentity.isSourcePath (h : ValidSourceIdentity f number path theoremName) :
    IsSourcePath path := by
  cases number with
  | inr name =>
    obtain ⟨-, -, namespaceName, hlookup, -⟩ := h
    obtain ⟨row, hrow, rfl⟩ := List.mem_map.mp (mem_named_of_lookup hlookup)
    obtain ⟨⟨g, stem, _⟩, hstem, rfl⟩ := List.mem_map.mp hrow
    exact isSourcePath_stem (namedSources_stem _ hstem).1 (namedSources_stem _ hstem).2
  | inl n =>
    obtain ⟨-, hn, -, rfl, -⟩ := h
    obtain ⟨m, -, hdigits⟩ := digits_of_pos hn
    refine isSourcePath_stem ?_ (by rw [hdigits]; simp)
    intro hmem
    rw [hdigits] at hmem
    obtain ⟨c, hc, hcode⟩ := List.mem_map.mp hmem
    have hlow : 48 ≤ c.toNat := (Char.isDigit_iff_toNat.mp (isDigit_toDigits hc)).1
    exact absurd hcode (by change c.toNat ≠ 47; omega)

/-! ## Identities -/

/-- `reward_target_identity` -/
def rewardTargetIdentity (theoremName : Text) : Text := text "fc-target:" ++ theoremName

def hyphen : ℕ := 0x2d

/-- `re.sub(r"[^a-z0-9]+", "-", s)`, where what came before may have been replaced. -/
def hyphenate : Bool → Text → Text
  | _, [] => []
  | gap, c :: s =>
    if Bundle.isLower c || Bundle.isDigit c then c :: hyphenate false s
    else if gap then hyphenate true s
    else hyphen :: hyphenate true s

/-- `s.rstrip("-")` -/
def stripEnd (s : Text) : Text := (s.reverse.dropWhile (· = hyphen)).reverse

/-- `s.strip("-")` -/
def strip (s : Text) : Text := stripEnd (s.dropWhile (· = hyphen))

section Identities

variable (py : Python)

/-- `task_slug` -/
def taskSlug (theoremName : Text) : Option Text :=
  let segments := theoremName.splitOn dot
  let normalized := [hyphen].intercalate
    ((segments.drop (segments.length - 2)).map fun s ↦ strip (hyphenate false (py.lower s)))
  let shortened := stripEnd (normalized.take 80)
  if shortened ≠ [] then some shortened
  else (py.sha256Text theoremName).map fun digest ↦ (digest.take 19).drop 7

/-- What the digest of a problem is made of. -/
def problemSeed (commit : Text) (theorems : List Text) : Text :=
  commit ++ 0 :: text "problem" ++ 0 :: [0].intercalate theorems

/-- `problem_id` -/
def problemId (commit : Text) (theorems : List Text) : Option Text := do
  let first ← theorems.head?
  let digest ← py.sha256Text (problemSeed commit theorems)
  let slug ← taskSlug py first
  let all := if 1 < theorems.length then text "-all-" ++ digits theorems.length else []
  return text "fc-" ++ commit.take 8 ++ text "-" ++ slug ++ all ++ text "-" ++
    (digest.take 39).drop 7 ++ text "-problem"

/-- The digests of two seeds agree where a problem id shows them. -/
def Collide (seed seed' : Text) : Prop :=
  ∃ digest digest', py.sha256Text seed = some digest ∧ py.sha256Text seed' = some digest' ∧
    (digest.take 39).drop 7 = (digest'.take 39).drop 7

end Identities

/-- A problem id ends with the digits of its digest. -/
theorem problemId_digits {commit problem : Text} {theorems : List Text}
    (h : problemId py commit theorems = some problem) :
    ∃ digest, py.sha256Text (problemSeed commit theorems) = some digest ∧
      (digest.take 39).drop 7 ++ text "-problem" <:+ problem := by
  simp only [problemId, Option.bind_eq_bind, Option.bind_eq_some_iff, Option.pure_def,
    Option.some.injEq] at h
  obtain ⟨first, -, digest, hdigest, slug, -, rfl⟩ := h
  refine ⟨digest, hdigest, ?_⟩
  rw [List.append_assoc _ _ (text "-problem")]
  exact List.suffix_append _ _

/-- One problem id is of one seed, up to a collision of digests. -/
theorem collide_of_problemId {commit commit' problem : Text} {theorems theorems' : List Text}
    (h : problemId py commit theorems = some problem)
    (h' : problemId py commit' theorems' = some problem) :
    Collide py (problemSeed commit theorems) (problemSeed commit' theorems') := by
  obtain ⟨digest, hdigest, hsuffix⟩ := problemId_digits h
  obtain ⟨digest', hdigest', hsuffix'⟩ := problemId_digits h'
  have hlength : digest.length = digest'.length := by
    rw [(py.sha256Text_isSha256 hdigest).1, (py.sha256Text_isSha256 hdigest').1]
  have hshown : ((digest.take 39).drop 7 ++ text "-problem").length =
      ((digest'.take 39).drop 7 ++ text "-problem").length := by
    simp only [List.length_append, List.length_drop, List.length_take, hlength]
  have heq := (List.suffix_of_suffix_length_le hsuffix hsuffix' hshown.le).eq_of_length hshown
  exact ⟨digest, digest', hdigest, hdigest', List.append_cancel_right heq⟩

end Conjectures.Allowlist
