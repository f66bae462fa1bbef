import GraphSnapshot.Proofs.Graph.Built
import GraphSnapshot.Proofs.Snapshot.Contents
import Mathlib.Data.List.Perm.Basic
import Mathlib.Data.Set.List

/-! What is found in contents. Each part of a graph is found exactly where it stands, alone, in a record
of type ids in any order, or in a record of columns in their order. -/
namespace GraphSnapshot.Snapshot

theorem elements_ofElements (f : Field) {t : ElementType} (xs : List t.Element) :
    elements f t (.array (.ofElements t xs)) = .ok xs := by
  have vector : (NumericArray.ofElements t xs).elementType = t ∧
      (NumericArray.ofElements t xs).shape.rank = 1 := ⟨rfl, rfl⟩
  exact (if_pos vector).trans (NumericArray.toElements_ofElements t xs)

theorem eq_of_elements {f : Field} {t : ElementType} {xs : List t.Element} {v : Value}
    (well : v.WellFormed) (h : elements f t v = .ok xs) : v = .array (.ofElements t xs) := by
  cases v with
  | array a =>
      dsimp only [elements] at h
      split at h
      · next vector => rw [(NumericArray.vector_toElements_iff well).mp ⟨vector, h⟩]
      · cases h
  | _ => cases h

theorem collect_of_distinct {entries : Record} (distinct : entries.Distinct) :
    collect entries = .ok entries := by
  have step (front back : Record) (whole : front ++ back = entries) :
      back.keys.foldlM (fun seen name => do seen.insert name (← entries.require name)) front =
        .ok entries := by
    induction back generalizing front with
    | nil =>
        rw [List.append_nil] at whole
        exact congrArg Except.ok whole
    | cons entry rest ih =>
        subst whole
        have found : Entries.require (front ++ entry :: rest) entry.1 = .ok entry.2 :=
          Entries.require_eq_ok_iff.mpr
            (Entries.get?_of_mem distinct (List.mem_append_right _ List.mem_cons_self))
        have free : entry.1 ∉ Entries.keys front := by
          intro taken
          exact (Entries.distinct_append_iff.mp distinct).2.2 _ taken List.mem_cons_self
        have added : Entries.insert front entry.1 entry.2 = .ok (front ++ [entry]) :=
          Entries.insert_eq_ok_iff.mpr ⟨free, rfl⟩
        change ((entry.1 :: Entries.keys rest).foldlM _ front) = _
        rw [List.foldlM_cons, found]
        change (Entries.insert front entry.1 entry.2 >>= _) = _
        rw [added]
        exact ih (front ++ [entry]) (by rw [List.append_assoc, List.singleton_append])
  exact step [] entries rfl

theorem keys_of_foldlM_insert {step : Record → String → Except Fault Record}
    (steps : ∀ seen name after, step seen name = .ok after →
      ∃ v, Entries.insert seen name v = .ok after)
    {names : List String} {front record : Record} (distinct : front.Distinct)
    (h : names.foldlM step front = .ok record) :
    record.keys = front.keys ++ names ∧ record.Distinct := by
  induction names generalizing front with
  | nil =>
      obtain rfl := Except.ok.inj h
      exact ⟨(List.append_nil _).symm, distinct⟩
  | cons name rest ih =>
      rw [List.foldlM_cons] at h
      obtain ⟨middle, first, later⟩ := bind_eq_ok_iff.mp h
      obtain ⟨v, added⟩ := steps front name middle first
      obtain ⟨keys, distinct⟩ := ih (Entries.distinct_of_insert distinct added) later
      obtain ⟨_, rfl⟩ := Entries.insert_eq_ok_iff.mp added
      refine ⟨?_, distinct⟩
      rw [keys, Entries.keys_append, List.append_assoc]
      rfl

/-- Only a record with distinct names can be collected, and then it is found as it is. -/
theorem collect_eq_ok_iff {entries record : Record} :
    collect entries = .ok record ↔ record.Distinct ∧ entries = record := by
  constructor
  · intro h
    obtain ⟨keys, distinct⟩ := keys_of_foldlM_insert (fun _ _ _ inserted => by
      obtain ⟨v, _, added⟩ := bind_eq_ok_iff.mp inserted
      exact ⟨v, added⟩) Entries.distinct_nil h
    have same : record.keys = entries.keys := keys
    rw [Entries.Distinct, same] at distinct
    rw [collect_of_distinct distinct] at h
    obtain rfl := Except.ok.inj h
    exact ⟨distinct, rfl⟩
  · rintro ⟨distinct, rfl⟩
    exact collect_of_distinct distinct

/-- Type ids come of just the records that have them as entries, in whatever order. -/
theorem collectIds_eq_ok_iff {f : Field} {entries : Record} (distinct : entries.Distinct)
    {ids : TypeIds} : collectIds f entries = .ok ids ↔ ids.entries.Perm entries := by
  have pairs : collectIds f entries = .ok ids ↔ ∃ pairs : Entries Int64,
      entries = pairs.map (fun pair => (pair.1, .int pair.2)) ∧
        pairs.foldlM (fun ids pair => pure (ids.insert pair.1 pair.2)) TypeIds.empty =
          (.ok ids : Except Fault TypeIds) := by
    refine foldlM_eq_ok_iff_of_forms ?_
    rintro ids ⟨name, value⟩ after
    cases value with
    | int id =>
        constructor
        · intro inserted
          exact ⟨(name, id), rfl, inserted⟩
        · rintro ⟨_, ⟨rfl⟩, inserted⟩
          exact inserted
    | _ =>
        constructor
        · rintro ⟨⟩
        · rintro ⟨_, ⟨⟩, _⟩
  have distinct_pairs {pairs : Entries Int64}
      (same : entries = pairs.map fun pair => (pair.1, Value.int pair.2)) : pairs.Distinct := by
    rw [same, Entries.Distinct, Entries.keys, List.map_map] at distinct
    exact distinct
  simp only [pairs, List.foldlM_pure, GraphSnapshot.pure_eq_ok_iff]
  constructor
  · rintro ⟨pairs, same, made⟩
    rw [same]
    exact ((TypeIds.ofPairs_eq_iff (distinct_pairs same)).mp made).map _
  · intro moved
    obtain ⟨pairs, same⟩ : entries ∈ Set.range
        (List.map fun pair : String × Int64 => (pair.1, Value.int pair.2)) := by
      rw [Set.range_list_map]
      intro entry member
      obtain ⟨pair, _, same⟩ := List.mem_map.mp (moved.symm.subset member)
      exact ⟨pair, same⟩
    refine ⟨pairs, same.symm, (TypeIds.ofPairs_eq_iff (distinct_pairs same.symm)).mpr ?_⟩
    rw [← same] at moved
    refine (List.map_perm_map_iff ?_).mp moved
    intro pair pair' equal
    exact Prod.ext (Prod.mk.inj equal).1 (Value.int.inj (Prod.mk.inj equal).2)

namespace Contents
variable {c : Contents} {depth : Nat} {f : Field}

def WellFormed (c : Contents) : Prop := ∀ f v, c f = some v → v.WellFormed

theorem require_eq_ok_iff {v : Value} : c.require f = .ok v ↔ c f = some v := by
  unfold require
  cases c f with
  | none => exact ⟨nofun, nofun⟩
  | some found => rw [Except.ok.injEq, Option.some.injEq]

section
variable {α : Type} {t : ElementType} {ofBits : t.Element → α} {toBits : α → t.Element} {xs : List α}

theorem vector_of_some (inverse : ∀ x, ofBits (toBits x) = x)
    (found : c f = some (.array (.ofElements t (xs.map toBits)))) :
    c.vector f t ofBits = .ok xs := by
  have same : (xs.map toBits).map ofBits = xs := by
    rw [List.map_map]
    exact (List.map_congr_left fun x _ => inverse x).trans (List.map_id xs)
  unfold vector
  rw [require_eq_ok_iff.mpr found]
  change (elements f t _ >>= _) = _
  rw [elements_ofElements]
  exact congrArg Except.ok same

theorem some_of_vector (inverse : ∀ x, toBits (ofBits x) = x) (well : c.WellFormed)
    (h : c.vector f t ofBits = .ok xs) :
    c f = some (.array (.ofElements t (xs.map toBits))) := by
  simp only [vector, bind_eq_ok_iff, pure_eq_ok_iff, require_eq_ok_iff] at h
  obtain ⟨v, found, bits, read, rfl⟩ := h
  have same : (bits.map ofBits).map toBits = bits := by
    rw [List.map_map]
    exact (List.map_congr_left fun x _ => inverse x).trans (List.map_id bits)
  rw [same, found, eq_of_elements (well f v found) read]

end

theorem record_eq_ok_iff {record : Record} :
    c.record depth f = .ok record ↔
      depth < Archive.maxDepth ∧ record.Distinct ∧ c f = some (.record record) := by
  simp only [Contents.record, check_eq_ok_iff, bind_eq_ok_iff, require_eq_ok_iff, Nat.not_le,
    collect_eq_ok_iff, Value.asRecord_eq_ok_iff]
  refine and_congr_right fun _ => ?_
  constructor
  · rintro ⟨_, found, entries, rfl, distinct, rfl⟩
    exact ⟨distinct, found⟩
  · intro ⟨distinct, found⟩
    exact ⟨_, found, record, rfl, distinct, rfl⟩

theorem typeIds_eq_ok_iff {ids : TypeIds} :
    c.typeIds depth f = .ok ids ↔ depth < Archive.maxDepth ∧
      ∃ entries, ids.entries.Perm entries ∧ c f = some (.record entries) := by
  simp only [typeIds, bind_eq_ok_iff, record_eq_ok_iff]
  constructor
  · intro ⟨entries, ⟨shallow, distinct, found⟩, collected⟩
    exact ⟨shallow, entries, (collectIds_eq_ok_iff distinct).mp collected, found⟩
  · intro ⟨shallow, entries, moved, found⟩
    have distinct : Entries.Distinct entries :=
      (moved.map Prod.fst).nodup_iff.mp ids.distinct_entries
    exact ⟨entries, ⟨shallow, distinct, found⟩, (collectIds_eq_ok_iff distinct).mpr moved⟩

theorem table_eq_ok_iff {owner : Owner} {t : Table} :
    c.table depth f owner = .ok t ↔
      depth < Archive.maxDepth ∧ c f = some (.record t.entries) := by
  simp only [table, bind_eq_ok_iff, record_eq_ok_iff, Table.ofRecord_eq_ok_iff]
  constructor
  · rintro ⟨_, ⟨shallow, _, found⟩, rfl⟩
    exact ⟨shallow, found⟩
  · intro ⟨shallow, found⟩
    exact ⟨_, ⟨shallow, t.distinct_entries, found⟩, rfl⟩

theorem optional_eq_ok_iff {α : Type} {find : Except Fault α} {o : Option α} :
    c.optional f find = .ok o ↔ (c f).isSome = o.isSome ∧ ∀ x, o = some x → find = .ok x := by
  unfold optional
  cases c f with
  | none =>
      change pure none = Except.ok o ↔ false = o.isSome ∧ _
      rw [pure_eq_ok_iff]
      cases o with
      | none => exact ⟨fun _ => ⟨rfl, nofun⟩, fun _ => rfl⟩
      | some x => exact ⟨nofun, nofun⟩
  | some v =>
      change (find >>= fun x => pure (some x)) = Except.ok o ↔ true = o.isSome ∧ _
      simp only [bind_eq_ok_iff, pure_eq_ok_iff]
      constructor
      · rintro ⟨x, found, rfl⟩
        refine ⟨rfl, ?_⟩
        rintro _ ⟨rfl⟩
        exact found
      · intro ⟨there, finds⟩
        obtain ⟨x, rfl⟩ := Option.isSome_iff_exists.mp there.symm
        exact ⟨x, finds x rfl, rfl⟩

/-- The contents have a version that is understood and the fields of a graph. -/
structure Has (c : Contents) (depth : Nat) (g : Graph) : Prop where
  version : c .version = some (.int version)
  offsets : c.ints .rowOffsets = .ok g.offsets
  targets : c.ints .colIndices = .ok g.targets
  nodeRanges : c.optional .nodeTypeOffset (c.ints .nodeTypeOffset) = .ok g.nodeRanges
  edgeTypes : c.optional .typePerEdge (c.bytes .typePerEdge) = .ok g.edgeTypes
  nodeTypeIds : c.optional .nodeTypeToId (c.typeIds depth .nodeTypeToId) = .ok g.nodeTypeIds
  edgeTypeIds : c.optional .edgeTypeToId (c.typeIds depth .edgeTypeToId) = .ok g.edgeTypeIds
  nodeTable : c.optional .nodeAttributes (c.table depth .nodeAttributes .node) = .ok g.nodeTable
  edgeTable : c.optional .edgeAttributes (c.table depth .edgeAttributes .edge) = .ok g.edgeTable

theorem graph_eq_ok_iff {g : Graph} :
    c.graph depth = .ok g ↔ g.validate = .ok () ∧ c.Has depth g := by
  simp only [graph, bind_eq_ok_iff, check_eq_ok_iff, mapError_eq_ok_iff, require_eq_ok_iff,
    Value.asInt_eq_ok_iff, Graph.new_eq_ok_iff, Graph.validated_eq_ok_iff, ne_eq, Decidable.not_not]
  constructor
  · rintro ⟨_, version, _, rfl, rfl, offsets, hasOffsets, targets, hasTargets, _, ⟨_, rfl⟩,
      nodeRanges, hasRanges, edgeTypes, hasTypes, nodeTypeIds, hasNodeIds, edgeTypeIds, hasEdgeIds,
      nodeTable, hasNodes, edgeTable, hasEdges, checked, rfl⟩
    exact ⟨checked, version, hasOffsets, hasTargets, hasRanges, hasTypes, hasNodeIds, hasEdgeIds,
      hasNodes, hasEdges⟩
  · intro ⟨checked, has⟩
    -- Targets and offsets are all that the topology depends on.
    have topology := Graph.checkTopology_of_validate checked
    exact ⟨_, has.version, _, rfl, rfl, _, has.offsets, _, has.targets, _, ⟨topology, rfl⟩, _,
      has.nodeRanges, _, has.edgeTypes, _, has.nodeTypeIds, _, has.edgeTypeIds, _, has.nodeTable, _,
      has.edgeTable, checked, rfl⟩

end Contents

theorem wellFormed_contents {root : Record} (well : (Value.record root).WellFormed) :
    (contents root).WellFormed := fun _ _ found => Value.wellFormed_of_get? well found

end GraphSnapshot.Snapshot
