import GraphSnapshot.Proofs.Archive.Paths
import GraphSnapshot.Proofs.Snapshot.Loading
import GraphSnapshot.Proofs.Snapshot.Saving

/-! Graphs inside archives. A graph that is saved in any scope of an archive is found there again,
whatever else is written, as long as the scope gets no further entry with a key of a field. -/
namespace GraphSnapshot.Snapshot
open Archive

/-- Entries with new keys can be written one after another in any scope but the one at the path. -/
theorem spares_extend {names path : List String} {a : Archive} (writing : a.isWriting = true)
    (elsewhere : a.path ≠ path) {more : Record} (well : (Value.record more).WellFormed)
    (free : ∀ key ∈ more.keys, key ∉ a.current.keys) :
    Relation.ReflTransGen (Spares names path) a (a.extend more) := by
  induction more generalizing a with
  | nil =>
      rw [extend_nil]
  | cons entry rest ih =>
      obtain ⟨key, value⟩ := entry
      obtain ⟨distinct, valueWell, restWell⟩ := well
      obtain ⟨apart, distinct⟩ := List.nodup_cons.mp distinct
      obtain ⟨here, later⟩ := List.forall_mem_cons.mp free
      have first : Spares names path a (a.perform (write key value)).2 :=
        .write key valueWell fun same => absurd same elsewhere
      rw [perform_write_of_free writing here] at first
      have rest := ih (a := a.extend [(key, value)]) (by rw [isWriting_extend, writing])
        (by rw [path_extend]; exact elsewhere) ⟨distinct, restWell⟩ (free_extend apart later value)
      rw [extend_extend] at rest
      exact .head first rest

/-- Saving a graph in another scope gives the scope at the path no entry. -/
theorem spares_save {names path : List String} {a saved : Archive} (writing : a.isWriting = true)
    (elsewhere : a.path ≠ path) {g : Graph} (well : (Value.record (entries g)).WellFormed)
    (performed : a.perform (save g) = (.ok (), saved)) :
    Relation.ReflTransGen (Spares names path) a saved := by
  obtain ⟨takes, rfl⟩ := (perform_save_eq_ok_iff writing).mp performed
  exact spares_extend writing elsewhere well (free_of_takes takes)

section
variable {a last : Archive} {g : Graph}

/-- What was saved in a scope lies at its path once everything is closed. -/
theorem exists_fields_of_spares [Zlib] (reachable : a.Reachable) (writing : a.isWriting = true)
    (free : ∀ f : Field, f.key ∉ a.current.keys)
    (run : Relation.ReflTransGen (Spares (Field.all.map Field.key) a.path)
      (a.extend (entries g)) last)
    (closed : last.scopes = []) :
    ∃ record, last.root.inside? a.path = some record ∧
      ∀ f : Field, record.get? f.key = value? g f := by
  have held := at_current (a.extend (entries g))
  rw [path_extend, current_extend] at held
  obtain ⟨record, held, agree⟩ := exists_at_of_spares run (by rw [isWriting_extend, writing])
    ((reachable.keysFree writing).extend _) held
  refine ⟨record, held.of_nil closed, ?_⟩
  intro f
  rw [agree f.key (List.mem_map_of_mem f.mem_all), Entries.get?_append_of_not_mem (free f),
    get?_entries]

/-- An archive into which a graph was saved is well-formed. The bytes of the graph are among those of
the archive, so there are not too many of them. -/
theorem wellFormed_of_fields [Zlib] (reachable : a.Reachable) (valid : g.Valid)
    (takes : ∀ f, Takes a g f) (changes : Changes (a.extend (entries g)) last) {path : List String}
    {record : Record} (lies : last.root.inside? path = some record)
    (found : ∀ f : Field, record.get? f.key = value? g f) {payload : List UInt8}
    (encoded : Payload.encode last.root = .ok payload) (small : payload.length < wordLimit) :
    last.WellFormed := by
  have well : (Value.record (entries g)).WellFormed := by
    apply wellFormed_entries_of_encode valid encoded small
    intro key array member
    obtain ⟨f, rfl, has⟩ := mem_entries_iff.mp member
    exact Record.exists_holds_of_inside? lies (Entries.mem_of_get? ((found f).trans has))
  apply changes.wellFormed
  apply reachable.wellFormed.extend well
  intro key taken member
  exact free_of_takes takes key member taken

theorem exists_load_of_fields (reading : a.isWriting = false) (checked : g.validate = .ok ())
    {path : List String} {record : Record} (lies : a.current.inside? path = some record)
    (found : ∀ f : Field, record.get? f.key = value? g f)
    (shallow : a.depth + path.length ≤ Archive.maxDepth)
    (room : ∀ f entries, value? g f = some (.record entries) →
      a.depth + path.length < Archive.maxDepth) :
    ∃ inside, a.perform (path.forM enterScope) = (.ok (), inside) ∧
      inside.perform load = (.ok g, inside) := by
  obtain ⟨inside, entered, reading, current, depth⟩ := perform_forM_enterScope reading lies shallow
  refine ⟨inside, entered, perform_load_of_room checked reading ?_ ?_⟩
  · intro f entries has
    rw [depth]
    exact room f entries has
  · intro f
    rw [current, found]

end

/-- A graph that is saved in any scope in which no key of a field is taken is loaded from there, by
whoever enters the keys of the open scopes in turn, once the archive is closed and written. Between
saving and closing, anything may be written, opened and closed that adds no key of a field to that
scope, and saving another graph elsewhere is no exception. -/
theorem load_embedded [Zlib] {a saved last : Archive} (reachable : a.Reachable)
    (writing : a.isWriting = true) (free : ∀ f : Field, f.key ∉ a.current.keys) {g : Graph}
    (valid : g.Valid) (performed : a.perform (save g) = (.ok (), saved))
    (run : Relation.ReflTransGen (Spares (Field.all.map Field.key) a.path) saved last)
    {bytes : List UInt8} (written : last.toBytes = .ok bytes)
    (addressable : Archive.Addressable last.root)
    (lossless : ∀ options, last.mode = .writing options → options.compresses = true →
      Zlib.Lossless) :
    (∃ reader inside, ofBytes bytes = .ok reader ∧
      reader.perform (a.path.forM enterScope) = (.ok (), inside) ∧
      inside.perform load = (.ok g, inside)) ∧
    ∀ (b stored : Archive) (other : Graph), b.isWriting = true → b.path ≠ a.path →
      (Value.record (entries other)).WellFormed → b.perform (save other) = (.ok (), stored) →
      Relation.ReflTransGen (Spares (Field.all.map Field.key) a.path) b stored := by
  refine ⟨?_, fun b stored other writing elsewhere => spares_save writing elsewhere⟩
  obtain ⟨takes, rfl⟩ := (perform_save_eq_ok_iff writing).mp performed
  obtain ⟨options, payload, mode, closed, encoded, rfl⟩ := toBytes_eq_ok_iff.mp written
  obtain ⟨record, lies, found⟩ := exists_fields_of_spares reachable writing free run closed
  have small := addressable payload encoded
  have well := wellFormed_of_fields reachable valid takes (changes_of_spares run) lies found encoded
    (by omega)
  have read := ofBytes_container options (lossless options mode) well.root encoded small
  -- The reader opens as many scopes as the writer had open.
  have depth : 0 + a.path.length = a.depth := by rw [Nat.zero_add, length_path]
  obtain ⟨inside, entered, loaded⟩ :=
    exists_load_of_fields (a := ⟨.reading _, last.root, []⟩) rfl valid.checked lies found
      (depth ▸ reachable.depth_le) (fun f entries has => depth ▸ (takes f _ has).2 entries rfl)
  exact ⟨_, inside, read, entered, loaded⟩

/-- A graph in a scope, with an entry behind it, and around the scope the entries of another graph. -/
theorem load_embedded_between :
    let _ := Zlib.sample
    let g : Graph := ⟨[0, 1, 2], [1, 0], none, none, some .empty, none, none, none⟩
    let root : Record := [("inner", .record (entries g ++ [("extra", .int 2)]))] ++ entries .empty
    ∃ bytes reader inside, Archive.toBytes ⟨.writing {}, root, []⟩ = .ok bytes ∧
      ofBytes bytes = .ok reader ∧
      reader.perform (["inner"].forM enterScope) = (.ok (), inside) ∧
      inside.perform load = (.ok g, inside) := by
  intro known g root
  let a : Archive := ⟨.writing {}, [], [⟨"inner", []⟩]⟩
  let outside : Archive := ⟨.writing {}, [("inner", .record (entries g ++ [("extra", .int 2)]))], []⟩
  have reachable : a.Reachable := (Reachable.writer {}).perform (.enterScope "inner")
  have bare : (Graph.bare [0, 1, 2] [1, 0]).Built := .new (rfl : Graph.new [0, 1, 2] [1, 0] = _)
  have built : g.Built := bare.withNodeTypeIds (rfl : Graph.withNodeTypeIds _ .empty = _)
  have first : a.perform (save g) = (.ok (), a.extend (entries g)) :=
    perform_save g rfl (by decide : 1 < 64) fun _ => nofun
  have second : outside.perform (save .empty) = (.ok (), ⟨.writing {}, root, []⟩) :=
    perform_save .empty rfl (by decide : 0 < 64) fun f => by cases f <;> decide
  obtain ⟨payload, encoded, small⟩ :
      ∃ payload, Payload.encode root = .ok payload ∧ payload.length + Header.size < wordLimit :=
    ⟨_, rfl, by decide +kernel⟩
  have written := toBytes_eq_ok_iff (a := ⟨.writing {}, root, []⟩).mpr
    ⟨{}, payload, rfl, rfl, encoded, rfl⟩
  have well : (Value.record (entries .empty)).WellFormed := by
    apply wellFormed_entries_of_encode Graph.Built.empty.valid encoded (by omega)
    intro key array member
    exact ⟨1, .entry (List.mem_append_right _ member)⟩
  have extra : Spares (Field.all.map Field.key) ["inner"] (a.extend (entries g))
      (a.extend (entries g ++ [("extra", .int 2)])) := .write "extra" trivial fun _ => by decide
  have leave : Spares (Field.all.map Field.key) ["inner"]
      (a.extend (entries g ++ [("extra", .int 2)])) outside := by
    apply Spares.leaveScope
    rintro _ _ ⟨⟩ same
    cases same
  have around : Relation.ReflTransGen (Spares (Field.all.map Field.key) ["inner"]) outside
      ⟨.writing {}, root, []⟩ := spares_save rfl (by decide) well second
  obtain ⟨⟨reader, inside, read, entered, loaded⟩, _⟩ :=
    load_embedded reachable rfl (fun _ => nofun) built.valid first
      (((Relation.ReflTransGen.single extra).tail leave).trans around) written
      (addressable_of_encode encoded small) fun _ _ _ => Zlib.sample_lossless _ _
  exact ⟨_, reader, inside, written, read, entered, loaded⟩

end GraphSnapshot.Snapshot
