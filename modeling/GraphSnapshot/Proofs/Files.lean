import GraphSnapshot.Files
import GraphSnapshot.Proofs.Archive.Opening
import GraphSnapshot.Proofs.FileTree

/-! Archives and snapshots in files. A file is read as its bytes are, however it is opened, and a file
that is saved has the bytes of the archive or is not touched. -/
namespace GraphSnapshot
open FileSystem (AllOrNothing Lawful Obliges Same View contentAt)

section Reading
variable {σ : Type} [FileSystem σ] [Zlib] {files : σ} {path : String} {content : List UInt8}

/-- A file that is too short for a header is refused before its bytes are looked at, with the failure
that they would have met. -/
theorem Archive.ofFile_eq (there : contentAt files path = .ok content) (options : ReadOptions) :
    ofFile files path options = ofBytes content := by
  have opened : Source.ofFile files path options =
      if content.length < Header.size then .error (.unexpectedEnd content.length)
      else .ok (if options.memoryMap then .mapped content else .buffered content) := by
    rw [Source.ofFile, there]
    rfl
  rw [ofFile, opened]
  by_cases short : content.length < Header.size
  · rw [if_pos short, ofBytes_eq_error_iff.mpr (.header (.short short))]
    rfl
  · rw [if_neg short]
    cases options.memoryMap with
    | true => rfl
    | false => rfl

/-- A file that is there is read as its bytes are, whether it is mapped or copied: it opens as the same
archive or with the same failure, the same graph is loaded from it, and each key has the same value. -/
theorem Snapshot.files_read_alike (there : contentAt files path = .ok content) :
    (∀ options, Archive.ofFile files path options = Archive.ofBytes content) ∧
    (∀ options, deserializeFile files path options = deserialize content) ∧
    ∀ key, getValueFromFile files path key = getValue content key := by
  have alike := Archive.ofFile_eq there
  refine ⟨alike, ?_, ?_⟩
  · intro options
    rw [deserializeFile, deserialize, alike]
  · intro key
    rw [getValueFromFile, getValue, alike]

end Reading

/-- The bytes of an archive with one entry, a header in front of nineteen bytes. -/
theorem Archive.exists_container_single [Zlib] :
    ∃ payload, Payload.encode [("k", .bool true)] = .ok payload ∧
      payload.length + Header.size < wordLimit ∧ (container payload {}).length = 43 := by
  obtain ⟨payload, encoded, length⟩ :
      ∃ payload, Payload.encode [("k", .bool true)] = .ok payload ∧ payload.length = 19 :=
    ⟨_, rfl, rfl⟩
  refine ⟨payload, encoded, ?_, ?_⟩
  · rw [length]
    decide
  · rw [container, storedForm_of_not_compresses rfl, List.length_append, Header.length_toBytes,
      length]
    rfl

theorem Path.splitOn_f : "/f".splitOn "/" = ["", "f"] := by
  rw [String.splitOn, if_neg (by decide), String.splitOnAux, if_neg (by decide),
    if_pos (by decide), if_pos (by decide), String.splitOnAux, if_neg (by decide),
    if_neg (by decide), String.splitOnAux, if_pos (by decide)]
  rfl

theorem Path.ofText?_f : ofText? "/f" = some ⟨true, ["", "f"]⟩ := by
  rw [ofText?, splitOn_f]
  rfl

theorem Path.directoryOf_f : directoryOf "/f" = "/" := by
  rw [directoryOf, splitOn_f]
  rfl

theorem Path.ofText?_root : ofText? "/" = some ⟨true, ["", ""]⟩ := by
  have names : "/".splitOn "/" = ["", ""] := by
    rw [String.splitOn, if_neg (by decide), String.splitOnAux, if_neg (by decide),
      if_pos (by decide), if_pos (by decide), String.splitOnAux, if_pos (by decide)]
    rfl
  rw [ofText?, names]
  rfl

section Alone
variable {node : Node}

theorem FileTree.place?_f : (empty.put ["f"] node).place? "/f" = some ["f"] :=
  place?_eq_some_iff.mpr ⟨_, Path.ofText?_f, rfl, nofun⟩

theorem FileTree.contentAt_f (content : List UInt8) :
    (empty.put ["f"] (.file content)).contentAt "/f" = .ok content :=
  contentAt_of_file place?_f rfl

theorem FileTree.obliges_f (free : node ≠ .directory) : Obliges (empty.put ["f"] node) "/f" := by
  have goal : (empty.put ["f"] node).target? "/f" (.file []) = some ["f"] :=
    target?_file_eq_some_iff.mpr ⟨_, Path.ofText?_f, rfl, rfl, rfl⟩
  have root : (empty.put ["f"] node).place? (Path.directoryOf "/f") = some [] := by
    rw [Path.directoryOf_f]
    exact place?_eq_some_iff.mpr ⟨_, Path.ofText?_root, rfl, fun _ => rfl⟩
  refine obliges goal ?_ root rfl ?_
  · exact mt Option.some.inj free
  · rw [Path.directoryOf_f]
    decide

end Alone

/-- A file with an archive, and the same file cut off one byte before the end of the header. -/
theorem Snapshot.files_read_alike_cut :
    let _ := Zlib.sample
    let alone (content : List UInt8) := FileTree.empty.put ["f"] (.file content)
    ∃ content a, content.length = 43 ∧ Archive.ofBytes content = .ok a ∧
      (∀ options, Archive.ofFile (alone content) "/f" options = .ok a) ∧
      getValueFromFile (alone content) "/f" "k" = .ok (.bool true) ∧
      ∀ options, Archive.ofFile (alone (content.take 23)) "/f" options =
        .error (.unexpectedEnd 23) := by
  intro known alone
  obtain ⟨payload, encoded, small, length⟩ := Archive.exists_container_single
  have well : (Value.record [("k", .bool true)]).WellFormed :=
    Value.wellFormed_record_singleton (v := .bool true) trivial
  have read := Archive.ofBytes_container {} nofun well encoded small
  generalize Archive.container payload {} = content at read length
  have cut : (content.take 23).length = 23 := by
    rw [List.length_take, length]
    rfl
  have short : Archive.ofBytes (content.take 23) = .error (.unexpectedEnd (content.take 23).length) :=
    Archive.ofBytes_eq_error_iff.mpr (.header (.short (by rw [cut]; decide)))
  have whole : contentAt (alone content) "/f" = .ok content := FileTree.contentAt_f content
  have front : contentAt (alone (content.take 23)) "/f" = .ok (content.take 23) :=
    FileTree.contentAt_f _
  obtain ⟨opens, _, shows⟩ := files_read_alike whole
  obtain ⟨refuses, _, _⟩ := files_read_alike front
  refine ⟨content, _, length, read, fun options => (opens options).trans read, ?_, ?_⟩
  · rw [shows, getValue, read]
    rfl
  · intro options
    rw [refuses, short, cut]

section Saving
variable {σ : Type} [FileSystem σ] [Zlib] {files : σ} {path : String}

theorem Archive.perform_save_of_error {a : Archive} {fault : Fault}
    (failed : a.toBytes = .error fault) :
    FileSystem.perform files (a.save path) = (.error fault, files) := by
  cases made : a.materialize with
  | error other =>
      rw [toBytes, made] at failed
      cases failed
      rw [save, made]
      rfl
  | ok parts =>
      rw [toBytes, made] at failed
      cases failed

variable (files path) in
/-- Saving puts the header and the stored payload into a file, which are the bytes of the archive. -/
theorem Archive.exists_perform_save_eq {a : Archive} {bytes : List UInt8}
    (made : a.toBytes = .ok bytes) :
    ∃ pieces : List (List UInt8), pieces.flatten = bytes ∧
      FileSystem.perform files (a.save path) =
        FileSystem.perform files (FileSystem.replaceFile path pieces) := by
  cases parts : a.materialize with
  | error fault =>
      rw [toBytes, parts] at made
      cases made
  | ok pair =>
      obtain ⟨header, stored⟩ := pair
      rw [toBytes, parts] at made
      cases made
      refine ⟨[header.toBytes, stored], ?_, ?_⟩
      · rw [List.flatten_cons, List.flatten_singleton]
      · rw [save, parts]
        rfl

variable [View σ]

theorem Archive.allOrNothing_save (laws : Lawful σ) (a : Archive) :
    AllOrNothing files path a.toBytes (FileSystem.perform files (a.save path)) := by
  cases made : a.toBytes with
  | error fault =>
      rw [perform_save_of_error made]
      exact .missing
  | ok bytes =>
      obtain ⟨pieces, rfl, same⟩ := exists_perform_save_eq files path made
      rw [same]
      exact laws.allOrNothing_replaceFile files path pieces

theorem Snapshot.allOrNothing_serializeToFile (laws : Lawful σ) (g : Graph)
    (options : WriteOptions) :
    AllOrNothing files path (serialize g options)
      (FileSystem.perform files (serializeToFile g path options)) := by
  rw [serialize, serializeToFile]
  cases performed : (Archive.writer options).perform (save g) with
  | mk outcome a =>
    cases outcome with
    | error fault => exact .missing
    | ok done => exact Archive.allOrNothing_save laws a

/-- Saving is all or nothing, for archives and for graphs, in whatever way files are kept by the laws.
It fails with everything as it was, for the reason for which there are no bytes or because a step was
refused; or the target has exactly the bytes of the archive, and nothing else has changed. If no step
is refused, it succeeds exactly if the archive is written, no scope is open, and all of it can be
encoded. -/
theorem Snapshot.save_all_or_nothing (laws : Lawful σ) (files : σ) (path : String) :
    (∀ a : Archive, AllOrNothing files path a.toBytes (FileSystem.perform files (a.save path))) ∧
    (∀ g options, AllOrNothing files path (serialize g options)
      (FileSystem.perform files (serializeToFile g path options))) ∧
    (Obliges files path → ∀ a : Archive, (FileSystem.perform files (a.save path)).1 = .ok () ↔
      a.isWriting = true ∧ a.depth = 0 ∧ a.root.Encodable Payload.maxDepth) := by
  have archives (a : Archive) :
      AllOrNothing files path a.toBytes (FileSystem.perform files (a.save path)) :=
    Archive.allOrNothing_save laws a
  refine ⟨archives, allOrNothing_serializeToFile laws, ?_⟩
  intro willing a
  rw [(archives a).fst_eq_ok_iff willing, Archive.exists_toBytes_iff]

end Saving

/-- A file and a directory where a path leads that starts at the root. -/
theorem Snapshot.save_all_or_nothing_absolute :
    let _ := Zlib.sample
    let t := FileTree.empty.put ["f"] (.file [7])
    let taken := FileTree.empty.put ["f"] .directory
    let a : Archive := ⟨.writing {}, [("k", .bool true)], []⟩
    (∃ bytes after, a.toBytes = .ok bytes ∧
      FileSystem.perform t (a.save "/f") = (.ok (), after) ∧ after.contentAt "/f" = .ok bytes) ∧
    ∃ after, FileSystem.perform taken (a.save "/f") = (.error .io, after) ∧ Same taken after := by
  intro known t taken a
  obtain ⟨payload, encoded, _, _⟩ := Archive.exists_container_single
  have made : a.toBytes = .ok (Archive.container payload {}) :=
    Archive.toBytes_eq_ok_iff.mpr ⟨{}, payload, rfl, rfl, encoded, rfl⟩
  refine ⟨?file, ?directory⟩
  case file =>
    obtain ⟨outcome, _, saved⟩ := save_all_or_nothing FileTree.lawful t "/f"
    have willing : Obliges t "/f" := FileTree.obliges_f nofun
    have succeeded := (saved willing a).mpr (Archive.exists_toBytes_iff.mp ⟨_, made⟩)
    have result := outcome a
    generalize FileSystem.perform t (a.save "/f") = ended at succeeded result
    rw [made] at result
    cases result with
    | refused => cases succeeded
    | stored _ _ _ _ _ read _ => exact ⟨_, _, made, rfl, read⟩
  case directory =>
    obtain ⟨outcome, _, _⟩ := save_all_or_nothing FileTree.lawful taken "/f"
    have result := outcome a
    generalize FileSystem.perform taken (a.save "/f") = ended at result
    rw [made] at result
    cases result with
    | refused _ same => exact ⟨_, rfl, same⟩
    | stored _ _ leads free _ _ _ =>
        obtain rfl := Option.some.inj (FileTree.place?_f.symm.trans leads)
        exact absurd rfl free

end GraphSnapshot
