import Conjectures.Trajectories.ZipDirectory

/-!
# What `ZipFile` parses

The readers of CPython's `zipfile` that run when an archive is opened: `_EndRecData`,
`_EndRecData64` and `_RealGetContents`. `check_directory` comes first and must bound them.

The archive is bytes in memory or a file, which differ where a seek ends before the beginning.
Names, times and extra fields of an entry are not decoded, as nothing that is bounded here depends
on them.
-/

namespace Conjectures.Trajectories

open Lib Db

/-- A package is held in memory, or in a temporary file. They differ in what a seek from the end
does that leads before the beginning: the first stands at 0, the second fails. -/
inductive SourceKind where
  | bytesIo
  | file
  deriving DecidableEq

/-- `seek(-back, 2)` in a source of so many bytes -/
def SourceKind.seekBack (kind : SourceKind) (length back : ℕ) : Option ℕ :=
  match kind with
  | .bytesIo => some (length - back)
  | .file => if back ≤ length then some (length - back) else none

/-- The items of `endrec` that are used once it is found. -/
structure EndRecord where
  /-- `endrec[_ECD_SIGNATURE] == stringEndArchive64` -/
  zip64 : Bool
  /-- `_ECD_SIZE` -/
  size : ℕ
  /-- `_ECD_LOCATION` -/
  location : ℕ
  deriving DecidableEq

/-- `_EndRecData64`, for an end record at a location. -/
def endRecData64 (kind : SourceKind) (source : Bytes) (endrec : EndRecord) :
    Except ZipError EndRecord :=
  let back := source.length - endrec.location
  match kind.seekBack source.length (back + 20) with
  | none => .ok endrec
  | some position =>
    let data := readAt source position 20
    if data.length ≠ 20 ∨ data.take 4 ≠ locatorSignature then .ok endrec
    else
      let locator := unpack locatorFormat data
      if locator.getD 1 0 ≠ 0 ∨ 1 < locator.getD 3 0 then .error .badZipFile
      else
        match kind.seekBack source.length (back + 76) with
        | none => .error .badZipFile
        | some position =>
          let data := readAt source position 56
          if data.length ≠ 56 ∨ data.take 4 ≠ zip64Signature then .ok endrec
          else .ok { endrec with zip64 := true, size := (unpack zip64Format data).getD 8 0 }

/-- `_EndRecData`, with the size of the window that it searches. -/
def endRecData (kind : SourceKind) (window : ℕ) (source : Bytes) : Except ZipError EndRecord := do
  let position ← need (kind.seekBack source.length 22) .badZipFile
  let data := source.drop position
  if data.length = 22 ∧ data.take 4 = endSignature ∧ data.drop 20 = [0, 0] then
    endRecData64 kind source ⟨false, (unpack endFormat data).getD 5 0, source.length - 22⟩
  else
    let maxCommentStart := source.length - window
    let start ← need (rfind endSignature (source.drop maxCommentStart)) .badZipFile
    let recData := readAt source (maxCommentStart + start) 22
    require (recData.length = 22) .badZipFile
    endRecData64 kind source
      ⟨false, (unpack endFormat recData).getD 5 0, maxCommentStart + start⟩

/-- `start_dir` and `size_cd`: `offset_cd` cancels out of the first. -/
def directoryOf (endrec : EndRecord) : Except ZipError Directory := do
  let behind := endrec.size + if endrec.zip64 then 76 else 0
  require (behind ≤ endrec.location) .badZipFile
  return ⟨endrec.location - behind, endrec.size⟩

/-- The loop of `_RealGetContents` over the bytes of the directory: the headers for which it
creates a `ZipInfo`. `usable` tells whether the rest of the header can be read; if not, an
exception ends the loop. -/
def filelist (usable : Bytes → Bool) (sizeCd : ℕ) (data : Bytes) (total : ℕ) : List Bytes :=
  if total < sizeCd then
    let centdir := readAt data total 46
    if centdir.length ≠ 46 ∨ centdir.take 4 ≠ headerSignature then []
    else
      let header := readAt data total (46 + variableBytes centdir)
      header ::
        if usable header then filelist usable sizeCd data (total + 46 + variableBytes centdir)
        else []
  else []
termination_by sizeCd - total

/-- `ZipFile(source)`: the directory that it reads, and its entries. -/
def zipFile (kind : SourceKind) (window : ℕ) (usable : Bytes → Bool) (source : Bytes) :
    Except ZipError (Directory × List Bytes) := do
  let endrec ← endRecData kind window source
  let d ← directoryOf endrec
  return (d, filelist usable d.size (readAt source d.start d.size) 0)

/-! ## The loop of `check_directory` -/

theorem checkDirectory_of_error {source : Bytes} {maxFiles : ℕ} {e : ZipError}
    (h : locateDirectory source maxFiles = .error e) (rounds : ℕ) :
    checkDirectory source maxFiles rounds = some (.error e) := by
  rw [checkDirectory, h, walkDirectory]

theorem checkDirectory_of_ok {source : Bytes} {maxFiles : ℕ} {d : Directory}
    (h : locateDirectory source maxFiles = .ok d) (rounds : ℕ) :
    checkDirectory source maxFiles rounds =
      walk source maxFiles rounds ⟨d.start, d.size, 0⟩ := by
  rw [checkDirectory, h, walkDirectory]

/-- A round leaves fewer bytes to walk. -/
theorem Walk.round_spec {source : Bytes} {maxFiles : ℕ} {w w' : Walk}
    (h : w.round source maxFiles = .ok w') :
    ∃ header, header = readAt source w.position 46 ∧ header.length = 46 ∧
      header.take 4 = headerSignature ∧ 46 + variableBytes header ≤ w.remaining ∧
      w.count + 1 ≤ maxFiles ∧
      w' = ⟨w.position + 46 + variableBytes header,
        w.remaining - (46 + variableBytes header), w.count + 1⟩ := by
  simp only [Walk.round, bind_eq_ok, require_eq_ok] at h
  obtain ⟨_, -, _, ⟨hlen, hsig⟩, _, hvar, _, hcount, h⟩ := h
  cases h
  exact ⟨_, rfl, hlen, hsig, hvar, hcount, rfl⟩

/-- The loop ends, and further rounds would change nothing. -/
theorem walk_ends (source : Bytes) (maxFiles : ℕ) (w : Walk) :
    ∃ result, ∀ rounds, w.remaining < rounds → walk source maxFiles rounds w = some result := by
  induction hr : w.remaining using Nat.strongRec generalizing w with
  | ind n ih =>
    subst hr
    by_cases hz : w.remaining = 0
    · refine ⟨.ok (), fun rounds hlt ↦ ?_⟩
      cases rounds with
      | zero => omega
      | succ rounds => rw [walk, if_pos hz]
    · cases hround : w.round source maxFiles with
      | error e =>
        refine ⟨.error e, fun rounds hlt ↦ ?_⟩
        cases rounds with
        | zero => omega
        | succ rounds => rw [walk, if_neg hz, hround]
      | ok w' =>
        obtain ⟨header, -, -, -, hvar, -, hw'⟩ := Walk.round_spec hround
        have hlt' : w'.remaining < w.remaining := by
          rw [hw']
          dsimp only
          omega
        obtain ⟨result, hresult⟩ := ih w'.remaining hlt' w' rfl
        refine ⟨result, fun rounds hlt ↦ ?_⟩
        cases rounds with
        | zero => omega
        | succ rounds =>
          rw [walk, if_neg hz, hround]
          exact hresult rounds (by omega)

/-- No header fits into fewer bytes. -/
theorem walk_short {source : Bytes} {maxFiles rounds : ℕ} {w : Walk}
    (h : walk source maxFiles rounds w = some (.ok ())) (hw : w.remaining < 46) :
    w.remaining = 0 := by
  cases rounds with
  | zero => cases h
  | succ rounds =>
    by_contra hz
    rw [walk, if_neg hz] at h
    cases hround : w.round source maxFiles with
    | error e => rw [hround] at h; cases h
    | ok w' =>
      obtain ⟨header, -, -, -, hvar, -, -⟩ := Walk.round_spec hround
      omega

/-! ## The entries -/

/-- Over a region that was walked to its end, `ZipFile` finds no more headers than were
counted. -/
theorem filelist_of_walk {source : Bytes} {maxFiles rounds : ℕ} (usable : Bytes → Bool)
    {d : Directory} {total count : ℕ} (htotal : total ≤ d.size)
    (h : walk source maxFiles rounds ⟨d.start + total, d.size - total, count⟩ = some (.ok ())) :
    (filelist usable d.size (readAt source d.start d.size) total).length ≤ maxFiles - count := by
  induction rounds generalizing total count with
  | zero => cases h
  | succ rounds ih =>
    rw [filelist]
    by_cases hlt : total < d.size
    · rw [walk, if_neg (by dsimp only; omega)] at h
      cases hround : Walk.round source maxFiles ⟨d.start + total, d.size - total, count⟩ with
      | error e => rw [hround] at h; cases h
      | ok w' =>
        rw [hround] at h
        obtain ⟨header, hheader, hlen, hsig, hvar, hcount, rfl⟩ := Walk.round_spec hround
        dsimp only at hheader hvar hcount h
        have hread : readAt (readAt source d.start d.size) total 46 = header := by
          rw [readAt_readAt (by omega), hheader]
        have hnext : walk source maxFiles rounds
            ⟨d.start + (total + 46 + variableBytes header),
              d.size - (total + 46 + variableBytes header), count + 1⟩ = some (.ok ()) := by
          convert h using 2
          congr 1 <;> omega
        have hrest := ih (by omega) hnext
        rw [if_pos hlt, hread, if_neg (by simp [hlen, hsig])]
        dsimp only
        rw [List.length_cons]
        split
        · omega
        · rw [List.length_nil]
          omega
    · rw [if_neg hlt]
      exact Nat.zero_le _

/-! ## The end record -/

theorem SourceKind.seekBack_of_le (kind : SourceKind) {length back : ℕ} (h : back ≤ length) :
    kind.seekBack length back = some (length - back) := by
  cases kind with
  | bytesIo => rfl
  | file => exact if_pos h

/-- Both ways of `_EndRecData` lead to the record that `check_directory` found, if all of it is
there and the window is no smaller. -/
theorem endRecData_eq {kind : SourceKind} {window position : ℕ} {source : Bytes}
    (hwindow : 65557 ≤ window)
    (hfind : rfind endSignature (source.drop (source.length - 65557)) = some position)
    (hfits : position + 22 ≤ (source.drop (source.length - 65557)).length) :
    endRecData kind window source =
      endRecData64 kind source
        ⟨false,
          (unpack endFormat (source.drop (source.length - 65557 + position))).getD 5 0,
          source.length - 65557 + position⟩ := by
  rw [List.length_drop] at hfits
  unfold endRecData
  rw [bind_of_ok (need_eq_ok.mpr (kind.seekBack_of_le (by omega)))]
  dsimp only
  split
  · -- a signature 22 bytes before the end is the last that leaves room for a record
    next hlast =>
    have hpos : source.length - 22 = source.length - 65557 + position := by
      have hle := le_of_rfind (j := source.length - 22 - (source.length - 65557)) hfind
        (by rw [List.length_drop]; omega) (by
          rw [List.drop_drop, show source.length - 65557 +
            (source.length - 22 - (source.length - 65557)) = source.length - 22 by omega]
          exact hlast.2.1 ▸ List.take_prefix 4 _)
      omega
    rw [hpos]
  · have hwide := rfind_window (m := source.length - window) (by omega) (by omega) hfind
    have hstart : source.length - window +
        (source.length - 65557 - (source.length - window) + position) =
        source.length - 65557 + position := by omega
    rw [bind_of_ok (need_eq_ok.mpr hwide), hstart,
      bind_of_ok ((require_eq_ok (u := ())).mpr (by rw [length_readAt]; omega)), readAt,
      unpack_take (by decide)]

/-- Where `check_directory` read no zip64 record, `ZipFile` reads none either, or it stumbles over
the first bytes of a file that is too short for a locator. -/
theorem endRecData64_of_no_locator {kind : SourceKind} {source : Bytes} {endrec : EndRecord}
    (hfits : endrec.location ≤ source.length)
    (h : ¬ (20 ≤ endrec.location ∧
      (readAt source (endrec.location - 20) 20).take 4 = locatorSignature)) :
    endRecData64 kind source endrec = .ok endrec ∨
      endRecData64 kind source endrec = .error .badZipFile ∧ endrec.location < 20 := by
  by_cases hloc : 20 ≤ endrec.location
  · left
    have hsig : (readAt source (endrec.location - 20) 20).take 4 ≠ locatorSignature :=
      fun hsig ↦ h ⟨hloc, hsig⟩
    have hback : source.length - (source.length - endrec.location + 20) =
        endrec.location - 20 := by omega
    unfold endRecData64
    dsimp only
    rw [kind.seekBack_of_le (by omega), hback]
    dsimp only
    rw [if_pos (Or.inr hsig)]
  · cases kind with
    | file =>
      left
      unfold endRecData64 SourceKind.seekBack
      dsimp only
      rw [if_neg (by omega)]
    | bytesIo =>
      have h20 : source.length - (source.length - endrec.location + 20) = 0 := by omega
      have h76 : source.length - (source.length - endrec.location + 76) = 0 := by omega
      unfold endRecData64 SourceKind.seekBack
      dsimp only
      rw [h20, h76]
      split
      · exact Or.inl rfl
      next hdata =>
        split
        · exact Or.inr ⟨rfl, by omega⟩
        · -- the bytes at 0 begin a locator, hence no record
          left
          have hsig : (readAt source 0 56).take 4 ≠ zip64Signature := by
            intro hrecord
            have htake : (readAt source 0 56).take 4 = (readAt source 0 20).take 4 := by
              simp [readAt, List.take_take]
            rw [htake] at hrecord
            have hlocator : (readAt source 0 20).take 4 = locatorSignature := by
              by_contra hne
              exact hdata (Or.inr hne)
            rw [hlocator] at hrecord
            exact absurd hrecord (by decide)
          rw [if_pos (Or.inr hsig)]

theorem endRecData64_of_checkZip64 {kind : SourceKind} {source : Bytes} {endrec : EndRecord}
    {entries size directoryEnd : ℕ} (hfits : endrec.location ≤ source.length)
    (hsig : (readAt source (endrec.location - 20) 20).take 4 = locatorSignature)
    (h : checkZip64 source endrec.location = .ok (entries, size, directoryEnd)) :
    endRecData64 kind source endrec = .ok { endrec with zip64 := true, size := size } ∧
      directoryEnd + 76 = endrec.location := by
  simp only [checkZip64, bind_eq_ok, require_eq_ok, pure, Except.pure, Except.ok.injEq,
    Prod.mk.injEq] at h
  obtain ⟨-, ⟨hdisk, hdisks, hoffset⟩, -, ⟨hlen, hrecord⟩, -, -, -, rfl, rfl⟩ := h
  refine ⟨?_, hoffset⟩
  have hback : source.length - (source.length - endrec.location + 20) =
      endrec.location - 20 := by omega
  have hback' : source.length - (source.length - endrec.location + 76) =
      endrec.location - 76 := by omega
  have hlength : (readAt source (endrec.location - 20) 20).length = 20 := by
    rw [length_readAt]
    omega
  have hrecordAt : (unpack locatorFormat (readAt source (endrec.location - 20) 20)).getD 2 0 =
      endrec.location - 76 := by omega
  unfold endRecData64
  dsimp only
  rw [kind.seekBack_of_le (by omega), hback]
  dsimp only
  rw [if_neg (by simp [hlength, hsig]), if_neg (by omega), kind.seekBack_of_le (by omega), hback']
  dsimp only
  rw [hrecordAt] at hlen hrecord ⊢
  rw [if_neg (by simp [hlen, hrecord])]

theorem directoryOf_eq {zip64 : Bool} {location : ℕ} {d : Directory}
    (hfits : d.size + (if zip64 then 76 else 0) ≤ location)
    (hstart : d.start = location - (d.size + if zip64 then 76 else 0)) :
    directoryOf ⟨zip64, d.size, location⟩ = .ok d := by
  unfold directoryOf
  dsimp only
  rw [bind_of_ok ((require_eq_ok (u := ())).mpr hfits), ← hstart]
  rfl

/-! ## Both readers -/

theorem locateDirectory_spec {source : Bytes} {maxFiles : ℕ} {d : Directory}
    (h : locateDirectory source maxFiles = .ok d) :
    ∃ position endOffset directoryEnd,
      rfind endSignature (source.drop (source.length - 65557)) = some position ∧
      position + 22 ≤ (source.drop (source.length - 65557)).length ∧
      endOffset = source.length - 65557 + position ∧
      d.size ≤ maxDirectoryBytes ∧ d.size ≤ directoryEnd ∧ d.start = directoryEnd - d.size ∧
      ((20 ≤ endOffset ∧ (readAt source (endOffset - 20) 20).take 4 = locatorSignature ∧
          ∃ entries, checkZip64 source endOffset = .ok (entries, d.size, directoryEnd)) ∨
        (¬ (20 ≤ endOffset ∧ (readAt source (endOffset - 20) 20).take 4 = locatorSignature) ∧
          directoryEnd = endOffset ∧
          d.size = (unpack endFormat (source.drop endOffset)).getD 5 0)) := by
  simp only [locateDirectory, bind_eq_ok, need_eq_ok, require_eq_ok, Prod.exists, pure,
    Except.pure, Except.ok.injEq] at h
  obtain ⟨position, hfind, _, hfits, _, -, _, -, entries, size, directoryEnd, hend, _, ⟨-, hmax⟩, _,
    hsize, rfl⟩ := h
  have hlen : source.length - (source.drop (source.length - 65557)).length =
      source.length - 65557 := by
    rw [List.length_drop]
    omega
  refine ⟨position, _, directoryEnd, hfind, hfits, rfl, hmax, hsize, rfl, ?_⟩
  rw [hlen] at hend
  split at hend
  next hlocator => exact Or.inl ⟨hlocator.1, hlocator.2, entries, hend⟩
  next hlocator =>
    cases hend
    refine Or.inr ⟨hlocator, rfl, ?_⟩
    rw [List.drop_drop]

/-- What `check_directory` located is what `ZipFile` reads, unless it refuses an empty archive
whose first bytes it takes for a locator. -/
theorem zipFile_of_locateDirectory {kind : SourceKind} {window : ℕ} {usable : Bytes → Bool}
    {source : Bytes} {maxFiles : ℕ} {d : Directory} (hwindow : 65557 ≤ window)
    (h : locateDirectory source maxFiles = .ok d) :
    zipFile kind window usable source =
        .ok (d, filelist usable d.size (readAt source d.start d.size) 0) ∨
      zipFile kind window usable source = .error .badZipFile ∧ d.size < 20 := by
  obtain ⟨position, endOffset, directoryEnd, hfind, hfits, rfl, -, hsize, hstart, hend⟩ :=
    locateDirectory_spec h
  have hrecord := @endRecData_eq kind _ _ _ hwindow hfind hfits
  have hwithin : source.length - 65557 + position ≤ source.length := by
    rw [List.length_drop] at hfits
    omega
  obtain ⟨-, hsig, entries, hzip64⟩ | ⟨hlocator, rfl, hplain⟩ := hend
  · left
    obtain ⟨hread, hbefore⟩ := @endRecData64_of_checkZip64 kind _
      ⟨false, _, source.length - 65557 + position⟩ _ _ _ hwithin hsig hzip64
    rw [hread] at hrecord
    dsimp only at hbefore
    have hd := @directoryOf_eq true (source.length - 65557 + position) d
      (by rw [if_pos rfl]; omega) (by rw [if_pos rfl]; omega)
    rw [zipFile, bind_of_ok hrecord, bind_of_ok hd]
    rfl
  · rw [← hplain] at hrecord
    obtain hread | ⟨hread, hshort⟩ := @endRecData64_of_no_locator kind _
      ⟨false, d.size, source.length - 65557 + position⟩ hwithin hlocator
    · left
      rw [hread] at hrecord
      have hd := @directoryOf_eq false _ d hsize hstart
      rw [zipFile, bind_of_ok hrecord, bind_of_ok hd]
      rfl
    · right
      rw [hread] at hrecord
      dsimp only at hshort
      refine ⟨?_, by omega⟩
      rw [zipFile, bind_of_error hrecord]

/-- The directory that `check_directory` walked is the one that `ZipFile` parses: it lies in the
file, has at most 32 MiB and holds at most `max_files` entries. `ZipFile` may refuse the file
instead, which happens to an empty directory only. The loop of `check_directory` ends on every
file. -/
theorem check_directory_bounds (kind : SourceKind) (window : ℕ) (hwindow : 65557 ≤ window)
    (usable : Bytes → Bool) (source : Bytes) (maxFiles : ℕ) :
    (∃ result, ∀ rounds, maxDirectoryBytes < rounds →
      checkDirectory source maxFiles rounds = some result) ∧
    ∀ rounds, checkDirectory source maxFiles rounds = some (.ok ()) →
      ∃ d, locateDirectory source maxFiles = .ok d ∧ d.size ≤ maxDirectoryBytes ∧
        d.start + d.size ≤ source.length ∧
        ((∃ entries, zipFile kind window usable source = .ok (d, entries) ∧
            entries.length ≤ maxFiles) ∨
          (zipFile kind window usable source = .error .badZipFile ∧ d.size = 0)) := by
  cases hlocate : locateDirectory source maxFiles with
  | error e =>
    refine ⟨⟨.error e, fun rounds _ ↦ checkDirectory_of_error hlocate rounds⟩, fun rounds h ↦ ?_⟩
    rw [checkDirectory_of_error hlocate] at h
    cases h
  | ok d =>
    obtain ⟨position, endOffset, directoryEnd, -, hfits, hoffset, hmax, hsize, hstart, hend⟩ :=
      locateDirectory_spec hlocate
    have hwithin : directoryEnd ≤ source.length := by
      rw [List.length_drop] at hfits
      obtain ⟨-, hsig, entries, hzip64⟩ | ⟨-, rfl, -⟩ := hend
      · have := (@endRecData64_of_checkZip64 .file _ ⟨false, 0, endOffset⟩ _ _ _
          (by dsimp only; omega) hsig hzip64).2
        dsimp only at this
        omega
      · omega
    obtain ⟨result, hresult⟩ := walk_ends source maxFiles ⟨d.start, d.size, 0⟩
    refine ⟨⟨result, fun rounds hlt ↦ ?_⟩, fun rounds h ↦ ?_⟩
    · rw [checkDirectory_of_ok hlocate]
      exact hresult rounds (by dsimp only; omega)
    rw [checkDirectory_of_ok hlocate] at h
    refine ⟨d, rfl, hmax, by omega, ?_⟩
    obtain hzip | ⟨hzip, hshort⟩ :=
      @zipFile_of_locateDirectory kind _ usable _ _ _ hwindow hlocate
    · have hlength := @filelist_of_walk _ _ _ usable _ 0 _ (Nat.zero_le d.size) (by simpa using h)
      rw [Nat.sub_zero] at hlength
      exact Or.inl ⟨_, hzip, hlength⟩
    · exact Or.inr ⟨hzip, walk_short h (by dsimp only; omega)⟩

/-- An archive with one empty file, as far as its directory goes. -/
def oneEntry : Bytes :=
  headerSignature ++ List.replicate 24 0 ++ [1, 0, 0, 0, 0, 0] ++ List.replicate 12 0 ++ [0x61] ++
    endSignature ++ [0, 0, 0, 0, 1, 0, 1, 0, 47, 0, 0, 0, 0, 0, 0, 0, 0, 0]

theorem oneEntry_bounded :
    ∃ d, locateDirectory oneEntry 512 = .ok d ∧ d.size ≤ maxDirectoryBytes ∧
      d.start + d.size ≤ oneEntry.length ∧
      ((∃ entries, zipFile .file 65557 (fun _ ↦ true) oneEntry = .ok (d, entries) ∧
          entries.length ≤ 512) ∨
        (zipFile .file 65557 (fun _ ↦ true) oneEntry = .error .badZipFile ∧ d.size = 0)) :=
  (check_directory_bounds .file 65557 le_rfl (fun _ ↦ true) oneEntry 512).2 2 (by decide +kernel)

end Conjectures.Trajectories
