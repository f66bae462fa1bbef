import GraphSnapshot.Proofs.Archive.Nesting
import GraphSnapshot.Snapshot

/-! What loading asks for. In an archive that is read, loading looks at the depth and at what the
current scope has under the keys of the fields, and at nothing else, and leaves the archive as it
was. -/
namespace GraphSnapshot.Snapshot
open Archive

/-- What a scope has under the keys of the fields. -/
abbrev Contents := Field → Option Value

def contents (record : Record) : Contents := fun f => record.get? f.key

/-- The entries of a record, asked for one after another by their names. -/
def collect (entries : Record) : Except Fault Record :=
  entries.keys.foldlM (fun seen name => do seen.insert name (← entries.require name)) []

def collectIds (f : Field) (entries : Record) : Except Fault TypeIds :=
  entries.foldlM (fun ids (name, value) =>
    match value with
    | .int id => return ids.insert name id
    | value => throw (.violation (.idNotAnInt f name value.kind))) TypeIds.empty

def elements (f : Field) (t : ElementType) : Value → Except Fault (List t.Element)
  | .array a =>
    if a.elementType = t ∧ a.shape.rank = 1 then a.toElements t
    else throw (.violation (.notAVector f t a.elementType a.shape))
  | value => throw (.violation (.notAnArray f value.kind))

namespace Contents
variable (c : Contents)

def require (f : Field) : Except Fault Value :=
  match c f with
  | some value => .ok value
  | none => .error (.keyNotFound f.key)

def vector {α : Type} (f : Field) (t : ElementType) (ofBits : t.Element → α) :
    Except Fault (List α) := do
  return (← elements f t (← c.require f)).map ofBits

def ints (f : Field) : Except Fault (List Int64) := c.vector f .int64 Int64.ofBitVec

def bytes (f : Field) : Except Fault (List UInt8) := c.vector f .uint8 UInt8.ofBitVec

/-- A record can be looked at as long as one more scope can be opened. -/
def record (depth : Nat) (f : Field) : Except Fault Record := do
  if Archive.maxDepth ≤ depth then throw (.violation (.scopeTooDeep f.key Archive.maxDepth))
  collect (← (← c.require f).asRecord)

def typeIds (depth : Nat) (f : Field) : Except Fault TypeIds := do
  collectIds f (← c.record depth f)

def table (depth : Nat) (f : Field) (owner : Owner) : Except Fault Table := do
  Table.ofRecord (← c.record depth f) owner

def optional {α : Type} (f : Field) (find : Except Fault α) : Except Fault (Option α) := do
  if (c f).isSome then return some (← find) else return none

/-- The graph that a scope holds, or the first thing that is wrong with it. -/
def graph (depth : Nat) : Except Fault Graph := do
  let stated ← (← c.require .version).asInt
  if stated ≠ version then throw (.unsupportedVersion stated.toInt)
  let offsets ← c.ints .rowOffsets
  let targets ← c.ints .colIndices
  let g ← (Graph.new offsets targets).mapError Fault.violation
  let nodeRanges ← c.optional .nodeTypeOffset (c.ints .nodeTypeOffset)
  let edgeTypes ← c.optional .typePerEdge (c.bytes .typePerEdge)
  let nodeTypeIds ← c.optional .nodeTypeToId (c.typeIds depth .nodeTypeToId)
  let edgeTypeIds ← c.optional .edgeTypeToId (c.typeIds depth .edgeTypeToId)
  let nodeTable ← c.optional .nodeAttributes (c.table depth .nodeAttributes .node)
  let edgeTable ← c.optional .edgeAttributes (c.table depth .edgeAttributes .edge)
  let full := { g with nodeRanges, edgeTypes, nodeTypeIds, edgeTypeIds, nodeTable, edgeTable }
  full.validated.mapError Fault.violation

end Contents

variable {a : Archive}

theorem require_contents (record : Record) (f : Field) :
    (contents record).require f = record.require f.key := by
  unfold Contents.require Entries.require contents
  cases record.get? f.key with
  | none => rfl
  | some value => rfl

theorem perform_read_eq (reading : a.isWriting = false) (f : Field) :
    a.perform (read f.key) = ((contents a.current).require f, a) := by
  rw [perform_read, if_neg (ne_true_of_eq_false reading), require_contents]

theorem perform_loadVector_eq (reading : a.isWriting = false) (f : Field) (t : ElementType) :
    a.perform (loadVector f t) = ((contents a.current).require f >>= elements f t, a) := by
  unfold loadVector
  refine perform_bind_of_unchanged (perform_read_eq reading f) ?_
  intro v
  cases v with
  | array array =>
      dsimp only [elements]
      split
      · rfl
      · rfl
  | _ => rfl

theorem perform_map_loadVector_eq (reading : a.isWriting = false) {α : Type} (f : Field)
    (t : ElementType) (ofBits : t.Element → α) :
    a.perform (do return (← loadVector f t).map ofBits) =
      ((contents a.current).vector f t ofBits, a) := by
  have same := perform_bind_of_unchanged (perform_loadVector_eq reading f t)
    fun xs => perform_pure a (xs.map ofBits)
  rw [bind_assoc] at same
  exact same

theorem perform_loadInts_eq (reading : a.isWriting = false) (f : Field) :
    a.perform (loadInts f) = ((contents a.current).ints f, a) :=
  perform_map_loadVector_eq reading f .int64 Int64.ofBitVec

theorem perform_loadBytes_eq (reading : a.isWriting = false) (f : Field) :
    a.perform (loadBytes f) = ((contents a.current).bytes f, a) :=
  perform_map_loadVector_eq reading f .uint8 UInt8.ofBitVec

theorem opened_eq (reading : a.isWriting = false) (f : Field) {find : Record → Except Fault Record} :
    (a.opened f.key >>= find) = (do
      if Archive.maxDepth ≤ a.depth then
        throw (.violation (.scopeTooDeep f.key Archive.maxDepth))
      find (← (← (contents a.current).require f).asRecord)) := by
  unfold opened
  rw [if_neg (ne_true_of_eq_false reading)]
  split
  · rfl
  · rw [require_contents]
    exact bind_assoc (a.current.require f.key) Value.asRecord find

theorem perform_loadRecord_eq (reading : a.isWriting = false) (f : Field) :
    a.perform (loadRecord f) = ((contents a.current).record a.depth f, a) := by
  unfold Contents.record
  rw [← opened_eq reading]
  apply perform_within_of_reading reading
  intro b reading
  rw [perform_bind_of_ok (perform_keys b)]
  apply perform_foldlM_of_unchanged
  intro seen name
  have read_ : b.perform (read name) = (b.current.require name, b) := by
    rw [perform_read, if_neg (ne_true_of_eq_false reading)]
  exact perform_bind_of_unchanged read_ fun v => perform_lift b _

theorem perform_loadTypeIds_eq (reading : a.isWriting = false) (f : Field) :
    a.perform (loadTypeIds f) = ((contents a.current).typeIds a.depth f, a) := by
  refine perform_bind_of_unchanged (perform_loadRecord_eq reading f) ?_
  intro entries
  apply perform_foldlM_of_unchanged
  rintro ids ⟨name, value⟩
  cases value with
  | _ => rfl

theorem perform_loadTable_eq (reading : a.isWriting = false) (f : Field) (owner : Owner) :
    a.perform (loadTable f owner) = ((contents a.current).table a.depth f owner, a) :=
  perform_bind_of_unchanged (perform_loadRecord_eq reading f) fun _ => perform_lift a _

theorem contains_eq_isSome (record : Record) (f : Field) :
    record.contains f.key = (contents record f).isSome := by
  rw [Bool.eq_iff_iff, Entries.contains_iff, Option.isSome_iff_ne_none, ne_eq, contents,
    Entries.get?_eq_none_iff, Decidable.not_not]

theorem perform_optional_eq {α : Type} {f : Field} {load : Action α} {find : Except Fault α}
    (loads : a.perform load = (find, a)) :
    a.perform (optional f load) = ((contents a.current).optional f find, a) := by
  unfold optional Contents.optional
  rw [perform_bind_of_ok (perform_contains a f.key), contains_eq_isSome]
  split
  · exact perform_bind_of_unchanged loads fun x => perform_pure a (some x)
  · rfl

theorem perform_load_eq (reading : a.isWriting = false) :
    a.perform load = ((contents a.current).graph a.depth, a) := by
  unfold load Contents.graph
  refine perform_bind_of_unchanged (perform_read_eq reading .version) fun v => ?_
  refine perform_bind_of_unchanged (perform_lift a v.asInt) fun stated => ?_
  split
  · rfl
  refine perform_bind_of_unchanged (perform_loadInts_eq reading .rowOffsets) fun offsets => ?_
  refine perform_bind_of_unchanged (perform_loadInts_eq reading .colIndices) fun targets => ?_
  refine perform_bind_of_unchanged (perform_lift a _) fun g => ?_
  refine perform_bind_of_unchanged (perform_optional_eq (perform_loadInts_eq reading _)) fun _ => ?_
  refine perform_bind_of_unchanged (perform_optional_eq (perform_loadBytes_eq reading _)) fun _ => ?_
  refine perform_bind_of_unchanged (perform_optional_eq (perform_loadTypeIds_eq reading _))
    fun _ => ?_
  refine perform_bind_of_unchanged (perform_optional_eq (perform_loadTypeIds_eq reading _))
    fun _ => ?_
  refine perform_bind_of_unchanged (perform_optional_eq (perform_loadTable_eq reading _ _))
    fun _ => ?_
  refine perform_bind_of_unchanged (perform_optional_eq (perform_loadTable_eq reading _ _))
    fun _ => ?_
  exact perform_lift a _

end GraphSnapshot.Snapshot
