import GraphSnapshot.Proofs.Archive.Growth
import GraphSnapshot.Proofs.Archive.Paths
import GraphSnapshot.Proofs.Archive.RoundTrip
import GraphSnapshot.Proofs.Snapshot.Transaction

/-! Finding one's way in an archive that is read. Whatever was done before, the open scopes are the
records on a path from the root, and every record of the archive can be reached along its path. -/
namespace GraphSnapshot

namespace Archive

/-- A run on an archive that is read is a run of single changes, whatever it tries to write. -/
theorem ComposedWith.changes_of_reading {allowed : Value → Prop} {α : Type} {action : Action α}
    (h : ComposedWith allowed action) {a : Archive} (reading : a.isWriting = false) :
    Changes a (a.perform action).2 := by
  refine h.relates (r := fun a b => a.isWriting = false → Changes a b) ?_ ?_ ?_ ?_ ?_ ?_ a reading
  · intro a _
    exact .refl
  · intro a b c first second reading
    have before := first reading
    exact before.trans (second (before.isWriting.trans reading))
  · intro a key value _ reading
    rw [perform_write_of_reading reading]
  · intro a key entries opened _
    exact .single (.enter opened)
  · intro a _
    exact changes_leaveScope a
  · intro a depth _
    exact .single (.drop depth)

/-- The entries that are looked at lie in the root, at the end of the path of the open scopes. -/
theorem ComposedWith.inside?_path {allowed : Value → Prop} {α : Type} {action : Action α}
    (h : ComposedWith allowed action) {a : Archive} (reading : a.isWriting = false)
    (tracks : a.Tracks) :
    a.root.inside? (a.perform action).2.path = some (a.perform action).2.current := by
  rw [← (h.rootGrows a).same reading]
  exact ((h.changes_of_reading reading).tracks reading tracks).inside?_path

end Archive

namespace Snapshot
open Archive

/-- An archive that is read is walked faithfully, and every record in it can be walked to. After any
run of operations, graphs that are loaded and writes that fail included, each open scope is the record
of its key in the scope around it; so reading a key, asking for a key and listing the keys answer from
the record at the end of the path of open keys in the root. And wherever a path of keys leads in the
root, entering these keys one after another succeeds and opens the record there. -/
theorem navigation_faithful [Zlib] {data : List UInt8} {a : Archive} (opened : ofBytes data = .ok a) :
    (∀ {α : Type} {action : Action α}, Runs action → ∀ outcome b,
      a.perform action = (outcome, b) →
      (∀ scope outer, scope :: outer <:+ b.scopes →
        (current { b with scopes := outer }).get? scope.key = some (.record scope.entries)) ∧
      ∃ record, a.root.inside? b.path = some record ∧ b.current.length = record.length ∧
        b.perform keys = (.ok record.keys, b) ∧
        ∀ key, b.perform (read key) = (record.require key, b) ∧
          b.perform (contains key) = (.ok (record.contains key), b)) ∧
    (Runs load ∧ ∀ g, Runs (save g)) ∧
    ∀ path record, a.root.inside? path = some record →
      ∃ inside, a.perform (path.forM enterScope) = (.ok (), inside) ∧ inside.path = path ∧
        inside.current = record := by
  obtain ⟨mode, root, scopes⟩ := a
  obtain ⟨header, _, _, fresh, _, _, _, _, _, _, decoded⟩ := exists_stored_of_ofBytes opened
  cases fresh
  refine ⟨?_, ⟨nested_load.runs, fun g => (nested_save g).runs⟩, ?_⟩
  · intro α action runs outcome b performed
    have changes := runs.changes_of_reading (a := ⟨.reading header, root, []⟩) rfl
    have lies := runs.inside?_path (a := ⟨.reading header, root, []⟩) rfl (throughout_of_nil rfl)
    have tracks := changes.tracks rfl (throughout_of_nil rfl)
    have reading := changes.isWriting
    rw [performed] at tracks lies reading
    refine ⟨tracks, b.current, lies, rfl, perform_keys b, ?_⟩
    intro key
    rw [perform_read, reading]
    exact ⟨rfl, perform_contains b key⟩
  · intro path record lies
    obtain ⟨_, encoded⟩ := Payload.decode_eq_ok_iff.mp decoded
    have encodable := Payload.exists_encode_iff.mp ⟨_, encoded⟩
    have short := Record.length_le_of_inside? encodable lies
    obtain ⟨inside, entered, _, found, _⟩ :=
      perform_forM_enterScope (a := ⟨.reading header, root, []⟩) rfl lies
        (by rw [Nat.add_comm]; exact short)
    exact ⟨inside, entered, path_of_perform_forM_enterScope entered, found⟩

/-- Two levels of records, where a write is refused on the way and a scope that is not there. -/
theorem navigation_faithful_nested :
    let _ := Zlib.sample
    let inner : Record := [("flag", .bool true)]
    let root : Record := [("outer", .record [("x", .int 1), ("inner", .record inner)])]
    let action : Action Unit := do
      enterScope "outer"
      let _ ← outcome (write "x" (.int 2))
      let _ ← outcome (enterScope "x")
      enterScope "inner"
    ∃ data header b inside, ofBytes data = .ok ⟨.reading header, root, []⟩ ∧
      perform ⟨.reading header, root, []⟩ action = (.ok (), b) ∧
      b.perform (read "flag") = (.ok (.bool true), b) ∧
      perform ⟨.reading header, root, []⟩ (["outer", "inner"].forM enterScope) = (.ok (), inside) ∧
      inside.current = inner := by
  intro known inner root action
  obtain ⟨payload, encoded, length⟩ :
      ∃ payload, Payload.encode root = .ok payload ∧ payload.length = 84 := ⟨_, rfl, rfl⟩
  have well : (Value.record root).WellFormed :=
    ⟨by decide, ⟨by decide, trivial, ⟨by decide, trivial, trivial⟩, trivial⟩, trivial⟩
  have opened := ofBytes_container {} nofun well encoded (by rw [length]; decide)
  obtain ⟨walk, _, reach⟩ := navigation_faithful opened
  have runs : Runs action :=
    .bind (.enterScope _) fun _ => .bind (.outcome (.write _ trivial)) fun _ =>
      .bind (.outcome (.enterScope _)) fun _ => .enterScope _
  obtain ⟨_, record, lies, _, _, reads⟩ := walk runs _ _ rfl
  obtain ⟨inside, entered, _, found⟩ := reach ["outer", "inner"] inner rfl
  cases lies
  exact ⟨_, _, _, inside, opened, rfl, (reads "flag").1, entered, found⟩

end Snapshot
end GraphSnapshot
