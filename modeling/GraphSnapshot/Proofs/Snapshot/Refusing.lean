import GraphSnapshot.Proofs.Snapshot.Missing
import GraphSnapshot.Proofs.Snapshot.Observing

/-! Loading that fails. Loading fails at the first of its steps that fails, and each step has few ways of
failing: a key that is missing, a value of another kind, a version that is not understood, and
whatever breaks the rules of graphs. -/
namespace GraphSnapshot

/-- The fields that every snapshot has. -/
def Field.required : List Field := [.version, .rowOffsets, .colIndices]

/-- The fields that a snapshot may lack, in the order in which they are loaded. -/
def Field.optionals : List Field :=
  [.nodeTypeOffset, .typePerEdge, .nodeTypeToId, .edgeTypeToId, .nodeAttributes, .edgeAttributes]

def Field.records : List Field := [.nodeTypeToId, .edgeTypeToId, .nodeAttributes, .edgeAttributes]

namespace Snapshot
open Archive

variable {a : Archive} {fault : Fault}

/-- The step of loading that reads a field, without what it gives. -/
def loadField : Field → Action Unit
  | .version => loadVersion
  | .rowOffsets => do let _ ← loadInts .rowOffsets
  | .colIndices => do let _ ← loadInts .colIndices
  | .nodeTypeOffset => do let _ ← optional .nodeTypeOffset (loadInts .nodeTypeOffset)
  | .typePerEdge => do let _ ← optional .typePerEdge (loadBytes .typePerEdge)
  | .nodeTypeToId => do let _ ← optional .nodeTypeToId (loadTypeIds .nodeTypeToId)
  | .edgeTypeToId => do let _ ← optional .edgeTypeToId (loadTypeIds .edgeTypeToId)
  | .nodeAttributes => do let _ ← optional .nodeAttributes (loadTable .nodeAttributes .node)
  | .edgeAttributes => do let _ ← optional .edgeAttributes (loadTable .edgeAttributes .edge)

theorem nested_loadField (f : Field) : Nested (loadField f) := by
  cases f with
  | version => exact nested_loadVersion
  | rowOffsets | colIndices => exact .bind (nested_loadInts _) fun _ => .pure ()
  | nodeTypeOffset => exact .bind (nested_optional _ (nested_loadInts _)) fun _ => .pure ()
  | typePerEdge => exact .bind (nested_optional _ (nested_loadBytes _)) fun _ => .pure ()
  | nodeTypeToId | edgeTypeToId =>
      exact .bind (nested_optional _ (nested_loadTypeIds _)) fun _ => .pure ()
  | nodeAttributes | edgeAttributes =>
      exact .bind (nested_optional _ (nested_loadTable _ _)) fun _ => .pure ()

theorem fst_bind_eq_error_congr {α β γ : Type} (reading : a.isWriting = false) {action : Action α}
    (nested : Nested action) {next : α → Action β} {rest : Action γ}
    (alike : ∀ x, (a.perform (next x)).1 = .error fault ↔ (a.perform rest).1 = .error fault) :
    (a.perform (action >>= next)).1 = .error fault ↔
      (a.perform ((do let _ ← action) >>= fun _ => rest)).1 = .error fault := by
  rw [bind_assoc, fst_perform_bind reading nested, fst_perform_bind reading nested,
    bind_eq_error_iff, bind_eq_error_iff]
  refine or_congr_right (exists_congr fun x => and_congr_right fun _ => ?_)
  rw [alike, pure_bind]

theorem fst_perform_loadOptional_eq_error_iff (reading : a.isWriting = false) (g : Graph) :
    (a.perform (loadOptional g)).1 = .error fault ↔
      ∃ before f after, Field.optionals = before ++ f :: after ∧
        (∀ f' ∈ before, (a.perform (loadField f')).1 = .ok ()) ∧
        (a.perform (loadField f)).1 = .error fault := by
  rw [← list_forM_eq_error_iff, ← fst_perform_forM reading nested_loadField]
  -- Side by side, the steps that keep what they find for the graph and the steps that drop it.
  refine fst_bind_eq_error_congr reading (nested_optional _ (nested_loadInts _)) fun _ => ?_
  refine fst_bind_eq_error_congr reading (nested_optional _ (nested_loadBytes _)) fun _ => ?_
  refine fst_bind_eq_error_congr reading (nested_optional _ (nested_loadTypeIds _)) fun _ => ?_
  refine fst_bind_eq_error_congr reading (nested_optional _ (nested_loadTypeIds _)) fun _ => ?_
  refine fst_bind_eq_error_congr reading (nested_optional _ (nested_loadTable _ _)) fun _ => ?_
  refine fst_bind_eq_error_congr reading (nested_optional _ (nested_loadTable _ _)) fun _ => ?_
  exact ⟨nofun, nofun⟩

theorem perform_loadVersion_eq (reading : a.isWriting = false) :
    a.perform loadVersion = ((contents a.current).understood, a) := by
  refine perform_bind_of_unchanged (perform_read_eq reading .version) fun v => ?_
  refine perform_bind_of_unchanged (perform_lift a v.asInt) fun stated => ?_
  split
  · rfl
  · rfl

theorem perform_loadBare_eq (reading : a.isWriting = false) :
    a.perform loadBare = ((contents a.current).bare, a) := by
  refine perform_bind_of_unchanged (perform_loadInts_eq reading .rowOffsets) fun offsets => ?_
  refine perform_bind_of_unchanged (perform_loadInts_eq reading .colIndices) fun targets => ?_
  exact perform_lift a _

theorem fst_perform_optional_eq_error_iff {α : Type} {f : Field} {load : Action α}
    {find : Except Fault α} (loads : a.perform load = (find, a)) :
    (a.perform (do let _ ← optional f load)).1 = .error fault ↔
      (contents a.current).optional f find = .error fault := by
  have same := perform_bind_of_unchanged (perform_optional_eq (f := f) loads)
    fun _ => perform_pure a ()
  rw [same, bind_eq_error_iff]
  exact or_iff_left fun ⟨_, _, ended⟩ => pure_ne_error ended

/-- The step that reads a field fails on a value that is no record where one is needed, or with a
violation. -/
theorem mismatch_or_violation_of_loadField (reading : a.isWriting = false)
    (well : (contents a.current).WellFormed) {f : Field} (lacked : f ∈ Field.optionals)
    (failed : (a.perform (loadField f)).1 = .error fault) :
    (f ∈ Field.records ∧ a.depth < maxDepth ∧ ∃ v, a.current.get? f.key = some v ∧
      v.kind ≠ .record ∧ .kindMismatch .record v.kind = fault) ∨ fault.IsViolation := by
  cases f with
  | version | rowOffsets | colIndices => exact absurd lacked (by decide)
  | nodeTypeOffset =>
      have refused := (fst_perform_optional_eq_error_iff (perform_loadInts_eq reading _)).mp failed
      exact .inr (Contents.onlyViolates_optional_vector _ refused)
  | typePerEdge =>
      have refused := (fst_perform_optional_eq_error_iff (perform_loadBytes_eq reading _)).mp failed
      exact .inr (Contents.onlyViolates_optional_vector _ refused)
  | nodeTypeToId | edgeTypeToId =>
      have refused := (fst_perform_optional_eq_error_iff (perform_loadTypeIds_eq reading _)).mp failed
      have fails := Contents.mismatch_or_violation_of_optional_record well
        (fun record _ => onlyViolates_collectIds _ record) refused
      exact fails.imp_left fun other => ⟨by decide, other⟩
  | nodeAttributes | edgeAttributes =>
      have refused := (fst_perform_optional_eq_error_iff (perform_loadTable_eq reading _ _)).mp failed
      have fails := Contents.mismatch_or_violation_of_optional_record well
        (fun _ distinct => onlyViolates_ofRecord distinct _) refused
      exact fails.imp_left fun other => ⟨by decide, other⟩

theorem loadField_eq_mismatch (reading : a.isWriting = false)
    (well : (contents a.current).WellFormed) {f : Field} (needed : f ∈ Field.records)
    (shallow : a.depth < maxDepth) {v : Value} (found : a.current.get? f.key = some v)
    (other : v.kind ≠ .record) :
    (a.perform (loadField f)).1 = .error (.kindMismatch .record v.kind) := by
  cases f with
  | version | rowOffsets | colIndices | nodeTypeOffset | typePerEdge =>
      exact absurd needed (by decide)
  | nodeTypeToId | edgeTypeToId =>
      exact (fst_perform_optional_eq_error_iff (perform_loadTypeIds_eq reading _)).mpr
        (Contents.optional_record_eq_mismatch well shallow found other)
  | nodeAttributes | edgeAttributes =>
      exact (fst_perform_optional_eq_error_iff (perform_loadTable_eq reading _ _)).mpr
        (Contents.optional_record_eq_mismatch well shallow found other)

/-- The version is understood and the offsets and targets make a graph. -/
structure Grounded (a : Archive) : Prop where
  version : a.current.get? Field.version.key = some (.int version)
  topology : ∃ g, (a.perform loadBare).1 = .ok g

/-- Loading comes to a field that may be absent: nothing that is read before it fails. -/
def Reaches (a : Archive) (f : Field) : Prop :=
  Grounded a ∧ ∃ before after, Field.optionals = before ++ f :: after ∧
    ∀ f' ∈ before, (a.perform (loadField f')).1 = .ok ()

theorem Reaches.mem_optionals {f : Field} (reaches : Reaches a f) : f ∈ Field.optionals := by
  obtain ⟨_, before, after, split, _⟩ := reaches
  rw [split]
  exact List.mem_append_right before List.mem_cons_self

/-- Where loading stops: at the version, at the graph of offsets and targets, at the first of the other
fields whose step fails, or at the check of the whole graph. -/
inductive Refused (a : Archive) : Fault → Prop
  | version {fault : Fault} : (a.perform loadVersion).1 = .error fault → Refused a fault
  | topology {fault : Fault} : (a.perform loadVersion).1 = .ok () →
      (a.perform loadBare).1 = .error fault → Refused a fault
  | field {fault : Fault} {f : Field} : Reaches a f →
      (a.perform (loadField f)).1 = .error fault → Refused a fault
  | whole {g full : Graph} {cause : Violation} : (a.perform loadVersion).1 = .ok () →
      (a.perform loadBare).1 = .ok g → (a.perform (loadOptional g)).1 = .ok full →
      full.validated = .error cause → Refused a (.violation cause)

theorem fst_perform_loadVersion_eq_ok_iff (reading : a.isWriting = false) :
    (a.perform loadVersion).1 = .ok () ↔
      a.current.get? Field.version.key = some (.int version) := by
  rw [perform_loadVersion_eq reading]
  exact Contents.understood_eq_ok_iff

theorem fst_perform_load_eq_error_iff (reading : a.isWriting = false) :
    (a.perform load).1 = .error fault ↔ Refused a fault := by
  have parts : (a.perform load).1 = .error fault ↔ (a.perform loadVersion).1 = .error fault ∨
      ∃ u, (a.perform loadVersion).1 = .ok u ∧ ((a.perform loadBare).1 = .error fault ∨
        ∃ g, (a.perform loadBare).1 = .ok g ∧ ((a.perform (loadOptional g)).1 = .error fault ∨
          ∃ full, (a.perform (loadOptional g)).1 = .ok full ∧
            full.validated.mapError Fault.violation = .error fault)) := by
    simp only [load_eq, fst_perform_bind reading nested_loadVersion,
      fst_perform_bind reading nested_loadBare, fst_perform_bind reading (nested_loadOptional _),
      perform_lift, bind_eq_error_iff]
  have stated := fst_perform_loadVersion_eq_ok_iff reading
  rw [parts]
  constructor
  · rintro (stopped | ⟨⟨⟩, understood, stopped | ⟨g, bare, stopped | ⟨full, filled, stopped⟩⟩⟩)
    · exact .version stopped
    · exact .topology understood stopped
    · obtain ⟨before, f, after, split, passed, failed⟩ :=
        (fst_perform_loadOptional_eq_error_iff reading g).mp stopped
      exact .field ⟨⟨stated.mp understood, g, bare⟩, before, after, split, passed⟩ failed
    · obtain ⟨cause, refused, rfl⟩ := mapError_eq_error_iff.mp stopped
      exact .whole understood bare filled refused
  · intro refused
    cases refused with
    | version stopped => exact .inl stopped
    | topology understood stopped => exact .inr ⟨(), understood, .inl stopped⟩
    | field reaches failed =>
        obtain ⟨⟨found, g, bare⟩, before, after, split, passed⟩ := reaches
        have stopped := (fst_perform_loadOptional_eq_error_iff reading g).mpr
          ⟨before, _, after, split, passed, failed⟩
        exact .inr ⟨(), stated.mpr found, .inr ⟨g, bare, .inl stopped⟩⟩
    | whole understood bare filled refused =>
        exact .inr ⟨(), understood, .inr ⟨_, bare, .inr
          ⟨_, filled, mapError_eq_error_iff.mpr ⟨_, refused, rfl⟩⟩⟩⟩

/-- What makes loading fail, fault by fault. -/
inductive Reason (a : Archive) : Fault → Prop
  | missing {f : Field} : f ∈ Field.required → f.key ∉ a.current.keys →
      Reason a (.keyNotFound f.key)
  | versionKind {v : Value} : a.current.get? Field.version.key = some v → v.kind ≠ .int →
      Reason a (.kindMismatch .int v.kind)
  | version {stated : Int64} : a.current.get? Field.version.key = some (.int stated) →
      stated ≠ version → Reason a (.unsupportedVersion stated.toInt)
  | recordKind {f : Field} {v : Value} : f ∈ Field.records → Reaches a f → a.depth < maxDepth →
      a.current.get? f.key = some v → v.kind ≠ .record → Reason a (.kindMismatch .record v.kind)
  | violation (cause : Violation) : Reason a (.violation cause)

theorem not_mem_keys_of_contents {record : Record} {f : Field} (absent : contents record f = none) :
    f.key ∉ record.keys := Entries.get?_eq_none_iff.mp absent

theorem Refused.reason (reading : a.isWriting = false) (well : (contents a.current).WellFormed)
    (refused : Refused a fault) : Reason a fault := by
  cases refused with
  | version stopped =>
      rw [perform_loadVersion_eq reading] at stopped
      rcases Contents.understood_eq_error_iff.mp stopped with
        ⟨absent, rfl⟩ | ⟨v, found, ⟨other, rfl⟩ | ⟨stated, rfl, other, rfl⟩⟩
      · exact .missing (by decide) (not_mem_keys_of_contents absent)
      · exact .versionKind found other
      · exact .version found other
  | topology _ stopped =>
      rw [perform_loadBare_eq reading] at stopped
      rcases Contents.absent_or_violation_of_bare stopped with ⟨f, needed, absent, rfl⟩ | ⟨cause, rfl⟩
      · exact .missing (List.mem_cons_of_mem _ needed) (not_mem_keys_of_contents absent)
      · exact .violation cause
  | field reaches failed =>
      rcases mismatch_or_violation_of_loadField reading well reaches.mem_optionals failed with
        ⟨needed, shallow, v, found, other, rfl⟩ | ⟨cause, rfl⟩
      · exact .recordKind needed reaches shallow found other
      · exact .violation cause
  | whole _ _ _ _ => exact .violation _

/-- A version that is refused is refused before anything else is looked at. -/
theorem load_eq_error_of_understood (reading : a.isWriting = false)
    (refused : (contents a.current).understood = .error fault) :
    (a.perform load).1 = .error fault := by
  refine (fst_perform_load_eq_error_iff reading).mpr (.version ?_)
  rw [perform_loadVersion_eq reading]
  exact refused

/-- A part that may be absent is found exactly if there is something under its key. -/
theorem Contents.eq_none_iff_of_optional {record : Record} {f : Field} {α : Type}
    {find : Except Fault α} {o : Option α} (found : (contents record).optional f find = .ok o) :
    o = none ↔ f.key ∉ record.keys := by
  rw [← Entries.get?_eq_none_iff, ← Option.not_isSome_iff_eq_none,
    ← (Contents.optional_eq_ok_iff.mp found).1, Option.not_isSome_iff_eq_none]
  rfl

/-- Why loading fails. The version is refused exactly if it is another number. A key is missing only if
it is one of the three that every snapshot has. A value has the wrong kind exactly if it is the version
and no number, or the first of the other fields that cannot be read and no record where one is needed
and can still be entered. All else that fails is a violation, and what is loaded lacks exactly the
parts whose keys are not there. -/
theorem load_faults_classified [Zlib] (reachable : a.Reachable) (reading : a.isWriting = false) :
    (∀ number, (a.perform load).1 = .error (.unsupportedVersion number) ↔
      ∃ stated, a.current.get? Field.version.key = some (.int stated) ∧ stated ≠ version ∧
        stated.toInt = number) ∧
    (∀ key, (a.perform load).1 = .error (.keyNotFound key) →
      key ∈ Field.required.map Field.key ∧ key ∉ a.current.keys) ∧
    (∀ expected actual, (a.perform load).1 = .error (.kindMismatch expected actual) ↔
      (∃ v, a.current.get? Field.version.key = some v ∧ v.kind ≠ .int ∧
        .int = expected ∧ v.kind = actual) ∨
      ∃ f ∈ Field.records, Reaches a f ∧ a.depth < maxDepth ∧
        ∃ v, a.current.get? f.key = some v ∧ v.kind ≠ .record ∧ .record = expected ∧
          v.kind = actual) ∧
    (∀ fault, (a.perform load).1 = .error fault →
      (∃ number, fault = .unsupportedVersion number) ∨ (∃ key, fault = .keyNotFound key) ∨
        (∃ expected actual, fault = .kindMismatch expected actual) ∨
          ∃ cause, fault = .violation cause) ∧
    ∀ g, (a.perform load).1 = .ok g →
      (g.nodeRanges = none ↔ Field.nodeTypeOffset.key ∉ a.current.keys) ∧
      (g.edgeTypes = none ↔ Field.typePerEdge.key ∉ a.current.keys) ∧
      (g.nodeTypeIds = none ↔ Field.nodeTypeToId.key ∉ a.current.keys) ∧
      (g.edgeTypeIds = none ↔ Field.edgeTypeToId.key ∉ a.current.keys) ∧
      (g.nodeTable = none ↔ Field.nodeAttributes.key ∉ a.current.keys) ∧
      (g.edgeTable = none ↔ Field.edgeAttributes.key ∉ a.current.keys) := by
  have well := wellFormed_contents reachable.wellFormed.current
  have stops (fault : Fault) : (a.perform load).1 = .error fault ↔ Refused a fault :=
    fst_perform_load_eq_error_iff reading
  have reason (fault : Fault) (failed : (a.perform load).1 = .error fault) : Reason a fault :=
    ((stops fault).mp failed).reason reading well
  refine ⟨?version, ?missing, ?kind, ?other, ?lacking⟩
  case version =>
    intro number
    constructor
    · intro failed
      cases reason _ failed with
      | version found other => exact ⟨_, found, other, rfl⟩
    · rintro ⟨stated, found, other, rfl⟩
      exact load_eq_error_of_understood reading (Contents.understood_eq_error_iff.mpr
        (.inr ⟨_, found, .inr ⟨stated, rfl, other, rfl⟩⟩))
  case missing =>
    intro key failed
    cases reason _ failed with
    | missing needed absent => exact ⟨List.mem_map_of_mem needed, absent⟩
  case kind =>
    intro expected actual
    constructor
    · intro failed
      cases reason _ failed with
      | versionKind found other => exact .inl ⟨_, found, other, rfl, rfl⟩
      | recordKind needed reaches shallow found other =>
          exact .inr ⟨_, needed, reaches, shallow, _, found, other, rfl, rfl⟩
    · rintro (⟨v, found, other, rfl, rfl⟩ | ⟨f, needed, reaches, shallow, v, found, other, rfl, rfl⟩)
      · exact load_eq_error_of_understood reading (Contents.understood_eq_error_iff.mpr
          (.inr ⟨v, found, .inl ⟨other, rfl⟩⟩))
      · have failed := loadField_eq_mismatch reading well needed shallow found other
        exact (stops _).mpr (.field reaches failed)
  case other =>
    intro fault failed
    cases reason fault failed with
    | missing _ _ => exact .inr (.inl ⟨_, rfl⟩)
    | version _ _ => exact .inl ⟨_, rfl⟩
    | versionKind _ _ | recordKind _ _ _ _ _ => exact .inr (.inr (.inl ⟨_, _, rfl⟩))
    | violation cause => exact .inr (.inr (.inr ⟨cause, rfl⟩))
  case lacking =>
    intro g loaded
    rw [perform_load_eq reading] at loaded
    have has := (Contents.graph_eq_ok_iff.mp loaded).2
    exact ⟨Contents.eq_none_iff_of_optional has.nodeRanges,
      Contents.eq_none_iff_of_optional has.edgeTypes,
      Contents.eq_none_iff_of_optional has.nodeTypeIds,
      Contents.eq_none_iff_of_optional has.edgeTypeIds,
      Contents.eq_none_iff_of_optional has.nodeTable,
      Contents.eq_none_iff_of_optional has.edgeTable⟩

/-- The type ids of the edges are no record, and neither are the attributes, but those come later. -/
theorem load_faults_classified_edge_ids :
    let _ := Zlib.sample
    let root : Record := [("node_attributes", .int 3), ("edge_type_to_id", .bool true),
      ("node_type_offset", intArray [0]), ("col_indices", intArray []), ("row_offsets", intArray [0]),
      ("version", .int 1)]
    ∃ data header, ofBytes data = .ok ⟨.reading header, root, []⟩ ∧
      (perform ⟨.reading header, root, []⟩ load).1 = .error (.kindMismatch .record .bool) := by
  intro known root
  obtain ⟨payload, encoded, small⟩ :
      ∃ payload, Payload.encode root = .ok payload ∧ payload.length + Header.size < wordLimit :=
    ⟨_, rfl, by decide +kernel⟩
  have well : (Value.record root).WellFormed :=
    ⟨by decide, trivial, trivial, (by decide : NumericArray.Sized _),
      (by decide : NumericArray.Sized _), (by decide : NumericArray.Sized _), trivial, trivial⟩
  have opened := ofBytes_container {} nofun well encoded small
  obtain ⟨_, _, kind, _⟩ := load_faults_classified (.opened opened) rfl
  have reaches : Reaches ⟨.reading (storedHeader payload {}), root, []⟩ .edgeTypeToId := by
    refine ⟨⟨rfl, _, rfl⟩, [.nodeTypeOffset, .typePerEdge, .nodeTypeToId], _, rfl, ?_⟩
    simp only [List.forall_mem_cons]
    exact ⟨rfl, rfl, rfl, nofun⟩
  exact ⟨_, _, opened, (kind .record .bool).mpr
    (.inr ⟨.edgeTypeToId, by decide, reaches, (by decide : 0 < 64), .bool true, rfl, by decide, rfl,
      rfl⟩)⟩

end Snapshot
end GraphSnapshot
