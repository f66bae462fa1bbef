import GraphSnapshot.Proofs.Snapshot.Loading

/-! What loading does not depend on. Nothing counts but the depth and the values of the keys of the
fields, and in a record of type ids the order does not count either. -/
namespace GraphSnapshot.Snapshot
open Archive

/-- What may stand for the value of a field: the value itself, and type ids in another order. -/
inductive Reordered : Field → Option Value → Option Value → Prop
  | same {f : Field} (o : Option Value) : Reordered f o o
  | ids {f : Field} {entries entries' : Record} : f = .nodeTypeToId ∨ f = .edgeTypeToId →
      entries.Perm entries' → Reordered f (some (.record entries)) (some (.record entries'))

theorem Reordered.symm {f : Field} {o o' : Option Value} (h : Reordered f o o') :
    Reordered f o' o := by
  cases h with
  | same => exact .same o
  | ids isIds moved => exact .ids isIds moved.symm

theorem Reordered.isSome_eq {f : Field} {o o' : Option Value} (h : Reordered f o o') :
    o'.isSome = o.isSome := by
  cases h with
  | same => rfl
  | ids => rfl

theorem Reordered.eq {f : Field} {o o' : Option Value} (h : Reordered f o o')
    (other : ¬(f = .nodeTypeToId ∨ f = .edgeTypeToId)) : o' = o := by
  cases h with
  | same => rfl
  | ids isIds => exact absurd isIds other

theorem Reordered.exists_entries {f : Field} {entries : Record} {o : Option Value}
    (h : Reordered f (some (.record entries)) o) :
    ∃ entries', o = some (.record entries') ∧ entries.Perm entries' := by
  cases h with
  | same => exact ⟨entries, rfl, .refl _⟩
  | ids _ moved => exact ⟨_, rfl, moved⟩

namespace Contents
variable {c : Contents} {depth : Nat} {f : Field}

theorem vector_congr {c' : Contents} (same : c' f = c f) {α : Type} (t : ElementType)
    (ofBits : t.Element → α) : c'.vector f t ofBits = c.vector f t ofBits := by
  unfold vector require
  rw [same]

theorem optional_of_isSome {c' : Contents} {α : Type} {find find' : Except Fault α} {o : Option α}
    (same : (c' f).isSome = (c f).isSome) (finds : ∀ x, find = .ok x → find' = .ok x)
    (h : c.optional f find = .ok o) : c'.optional f find' = .ok o := by
  obtain ⟨there, found⟩ := optional_eq_ok_iff.mp h
  exact optional_eq_ok_iff.mpr ⟨same.trans there, fun x has => finds x (found x has)⟩

/-- Type ids in another order make no difference. -/
theorem Has.of_reordered {g : Graph} {c' : Contents} (has : c.Has depth g)
    (shown : ∀ f, Reordered f (c f) (c' f)) : c'.Has depth g := by
  have same {f : Field} (other : ¬(f = .nodeTypeToId ∨ f = .edgeTypeToId)) : c' f = c f :=
    (shown f).eq other
  have ids {f : Field} (ids : TypeIds) (h : c.typeIds depth f = .ok ids) :
      c'.typeIds depth f = .ok ids := by
    obtain ⟨shallow, entries, moved, found⟩ := typeIds_eq_ok_iff.mp h
    have shown := shown f
    rw [found] at shown
    obtain ⟨entries', found', moved'⟩ := shown.exists_entries
    exact typeIds_eq_ok_iff.mpr ⟨shallow, entries', moved.trans moved', found'⟩
  have table {f : Field} {owner : Owner} (same : c' f = c f) (t : Table)
      (h : c.table depth f owner = .ok t) : c'.table depth f owner = .ok t := by
    rw [table_eq_ok_iff, same]
    exact table_eq_ok_iff.mp h
  exact {
    version := (same (by decide)).trans has.version
    offsets := (vector_congr (same (by decide)) _ _).trans has.offsets
    targets := (vector_congr (same (by decide)) _ _).trans has.targets
    nodeRanges := optional_of_isSome (shown _).isSome_eq
      (fun _ => (vector_congr (same (by decide)) _ _).trans) has.nodeRanges
    edgeTypes := optional_of_isSome (shown _).isSome_eq
      (fun _ => (vector_congr (same (by decide)) _ _).trans) has.edgeTypes
    nodeTypeIds := optional_of_isSome (shown _).isSome_eq ids has.nodeTypeIds
    edgeTypeIds := optional_of_isSome (shown _).isSome_eq ids has.edgeTypeIds
    nodeTable := optional_of_isSome (shown _).isSome_eq (table (same (by decide))) has.nodeTable
    edgeTable := optional_of_isSome (shown _).isSome_eq (table (same (by decide))) has.edgeTable }

theorem reordered_of_optional {α : Type} {find : Except Fault α} {toValue : α → Value}
    {o : Option α} (h : c.optional f find = .ok o)
    (shows : ∀ x, find = .ok x → Reordered f (some (toValue x)) (c f)) :
    Reordered f (o.map toValue) (c f) := by
  obtain ⟨there, finds⟩ := optional_eq_ok_iff.mp h
  cases o with
  | none =>
      rw [Option.not_isSome_iff_eq_none.mp (ne_true_of_eq_false there)]
      exact .same none
  | some x => exact shows x (finds x rfl)

/-- Well-formed contents in which a graph is found have the values that it is saved with. -/
theorem Has.reordered {g : Graph} (has : c.Has depth g) (well : c.WellFormed) (f : Field) :
    Reordered f (value? g f) (c f) := by
  have shown {f : Field} {v : Value} (found : c f = some v) : Reordered f (some v) (c f) :=
    found ▸ .same _
  have ints {f : Field} (xs : List Int64) (read : c.ints f = .ok xs) : c f = some (intArray xs) :=
    some_of_vector (fun _ => rfl) well read
  have bytes {f : Field} (xs : List UInt8) (read : c.bytes f = .ok xs) :
      c f = some (byteArray xs) := some_of_vector (fun _ => rfl) well read
  have ids {f : Field} (isIds : f = .nodeTypeToId ∨ f = .edgeTypeToId) (ids : TypeIds)
      (read : c.typeIds depth f = .ok ids) : Reordered f (some (.record ids.entries)) (c f) := by
    obtain ⟨_, entries, moved, found⟩ := typeIds_eq_ok_iff.mp read
    rw [found]
    exact .ids isIds moved
  have table {f : Field} {owner : Owner} (t : Table) (read : c.table depth f owner = .ok t) :
      c f = some (.record t.entries) := (table_eq_ok_iff.mp read).2
  cases f with
  | version => exact shown has.version
  | rowOffsets => exact shown (ints _ has.offsets)
  | colIndices => exact shown (ints _ has.targets)
  | nodeTypeOffset => exact reordered_of_optional has.nodeRanges fun _ read => shown (ints _ read)
  | typePerEdge => exact reordered_of_optional has.edgeTypes fun _ read => shown (bytes _ read)
  | nodeTypeToId => exact reordered_of_optional has.nodeTypeIds (ids (.inl rfl))
  | edgeTypeToId => exact reordered_of_optional has.edgeTypeIds (ids (.inr rfl))
  | nodeAttributes => exact reordered_of_optional has.nodeTable fun _ read => shown (table _ read)
  | edgeAttributes => exact reordered_of_optional has.edgeTable fun _ read => shown (table _ read)

end Contents

/-- In an archive that is read, loading is decided by the depth and by what the current scope has under
the keys of the fields. Other entries, the order of the entries and the scopes around make no
difference to a graph or to a fault, and the order of type ids makes none to a graph. -/
theorem load_independent {a b : Archive} (reading : a.isWriting = false)
    (reading' : b.isWriting = false) (depth : a.depth = b.depth) :
    ((∀ f : Field, a.current.get? f.key = b.current.get? f.key) →
      (a.perform load).1 = (b.perform load).1) ∧
    ((∀ f : Field, Reordered f (a.current.get? f.key) (b.current.get? f.key)) →
      ∀ g, (a.perform load).1 = .ok g ↔ (b.perform load).1 = .ok g) := by
  rw [perform_load_eq reading, perform_load_eq reading', depth]
  refine ⟨?_, ?_⟩
  · intro agree
    have same : contents a.current = contents b.current := funext agree
    rw [same]
  · intro shown g
    rw [Contents.graph_eq_ok_iff, Contents.graph_eq_ok_iff]
    refine and_congr_right fun _ => ⟨?_, ?_⟩
    · intro has
      exact has.of_reordered shown
    · intro has
      exact has.of_reordered fun f => (shown f).symm

/-- The entries of a scope in two orders, one of them with the ids in another order and a key that is
no field. -/
theorem load_independent_shuffled :
    let ids : TypeIds := ⟨[("author", 1), ("paper", 0)], by decide⟩
    let g : Graph := { Graph.bare [0, 1, 2] [1, 0] with nodeTypeIds := some ids }
    let entry : String × Value := ("node_type_to_id", .record ids.entries)
    let entry' : String × Value := ("node_type_to_id", .record ids.entries.reverse)
    let others : Record := [("extra", .bool true), ("col_indices", intArray [1, 0]),
      ("row_offsets", intArray [0, 1, 2]), ("version", .int 1)]
    let reader (record : Record) : Archive :=
      ⟨.reading ⟨1, false, 0, 0⟩, [("scope", .record record)], [⟨"scope", record⟩]⟩
    ((reader (entries g)).perform load).1 = ((reader (entry :: others)).perform load).1 ∧
      ((reader (entry' :: others)).perform load).1 = .ok g := by
  intro ids g entry entry' others reader
  have agree : ∀ f : Field, (entries g).get? f.key = Entries.get? (entry :: others) f.key := by
    intro f
    cases f <;> rfl
  have first : ((reader (entries g)).perform load).1 = ((reader (entry :: others)).perform load).1 :=
    (load_independent (a := reader (entries g)) (b := reader (entry :: others)) rfl rfl rfl).1 agree
  have shown : ∀ f : Field, Reordered f (Entries.get? (entry :: others) f.key)
      (Entries.get? (entry' :: others) f.key) := by
    intro f
    cases f with
    | nodeTypeToId => exact .ids (.inl rfl) (List.reverse_perm _).symm
    | _ => exact .same _
  have loaded : (reader (entries g)).perform load = (.ok g, reader (entries g)) :=
    perform_load rfl rfl (by decide : 1 < 64) (get?_entries g)
  have second := (load_independent (a := reader (entry :: others)) (b := reader (entry' :: others))
    rfl rfl rfl).2 shown g
  refine ⟨first, second.mp ?_⟩
  rw [← first, loaded]

end GraphSnapshot.Snapshot
