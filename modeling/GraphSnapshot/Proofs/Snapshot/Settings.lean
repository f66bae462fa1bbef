import GraphSnapshot.Proofs.Snapshot.Returned

/-! Setting the optional fields of a graph. Every setting checks the whole graph as it is by then, and
yet the order of the settings is of no account. -/
namespace GraphSnapshot

inductive OptionalField where
  | nodeRanges
  | edgeTypes
  | nodeTypeIds
  | edgeTypeIds
  | nodeTable
  | edgeTable
deriving DecidableEq

/-- What stands in a field that is present. -/
abbrev OptionalField.Content : OptionalField → Type
  | .nodeRanges => List Int64
  | .edgeTypes => List UInt8
  | .nodeTypeIds => TypeIds
  | .edgeTypeIds => TypeIds
  | .nodeTable => Table
  | .edgeTable => Table

structure Setting where
  field : OptionalField
  content : field.Content

namespace Graph

def content? (g : Graph) : (field : OptionalField) → Option field.Content
  | .nodeRanges => g.nodeRanges
  | .edgeTypes => g.edgeTypes
  | .nodeTypeIds => g.nodeTypeIds
  | .edgeTypeIds => g.edgeTypeIds
  | .nodeTable => g.nodeTable
  | .edgeTable => g.edgeTable

/-- Set a field, checked with the rest of the graph. -/
def attach (g : Graph) : Setting → Except Violation Graph
  | ⟨.nodeRanges, ranges⟩ => g.withNodeRanges ranges
  | ⟨.edgeTypes, types⟩ => g.withEdgeTypes types
  | ⟨.nodeTypeIds, ids⟩ => g.withNodeTypeIds ids
  | ⟨.edgeTypeIds, ids⟩ => g.withEdgeTypeIds ids
  | ⟨.nodeTable, table⟩ => g.withNodeTable table
  | ⟨.edgeTable, table⟩ => g.withEdgeTable table

def attachAll (g : Graph) (settings : List Setting) : Except Violation Graph :=
  settings.foldlM attach g

/-- Set a field and check nothing. -/
def put (g : Graph) : Setting → Graph
  | ⟨.nodeRanges, ranges⟩ => { g with nodeRanges := some ranges }
  | ⟨.edgeTypes, types⟩ => { g with edgeTypes := some types }
  | ⟨.nodeTypeIds, ids⟩ => { g with nodeTypeIds := some ids }
  | ⟨.edgeTypeIds, ids⟩ => { g with edgeTypeIds := some ids }
  | ⟨.nodeTable, table⟩ => { g with nodeTable := some table }
  | ⟨.edgeTable, table⟩ => { g with edgeTable := some table }

def putAll (g : Graph) (settings : List Setting) : Graph := settings.foldl put g

structure Lacks (g : Graph) (settings : List Setting) : Prop where
  distinct : (settings.map Setting.field).Nodup
  absent : ∀ setting ∈ settings, g.content? setting.field = none

/-- The second graph is the first with what has been set, and no other change. -/
structure Gains (g : Graph) (settings : List Setting) (full : Graph) : Prop where
  offsets : full.offsets = g.offsets
  targets : full.targets = g.targets
  given : ∀ setting ∈ settings, full.content? setting.field = some setting.content
  kept : ∀ field ∉ settings.map Setting.field, full.content? field = g.content? field

structure Within (g full : Graph) : Prop where
  offsets : full.offsets = g.offsets
  targets : full.targets = g.targets
  present : ∀ field content, g.content? field = some content → full.content? field = some content

@[simp] theorem offsets_put (g : Graph) (setting : Setting) :
    (g.put setting).offsets = g.offsets := by
  obtain ⟨field, content⟩ := setting
  cases field <;> rfl

@[simp] theorem targets_put (g : Graph) (setting : Setting) :
    (g.put setting).targets = g.targets := by
  obtain ⟨field, content⟩ := setting
  cases field <;> rfl

@[simp] theorem content?_put_self (g : Graph) (setting : Setting) :
    (g.put setting).content? setting.field = some setting.content := by
  obtain ⟨field, content⟩ := setting
  cases field <;> rfl

theorem content?_put_of_ne (g : Graph) {setting : Setting} {field : OptionalField}
    (other : field ≠ setting.field) : (g.put setting).content? field = g.content? field := by
  obtain ⟨changed, content⟩ := setting
  cases changed <;> cases field <;> first | rfl | exact absurd rfl other

theorem ext_content? {g g' : Graph} (offsets : g.offsets = g'.offsets)
    (targets : g.targets = g'.targets) (contents : ∀ field, g.content? field = g'.content? field) :
    g = g' := by
  obtain ⟨_, _, _, _, _, _, _, _⟩ := g
  obtain rfl := offsets
  obtain rfl := targets
  obtain rfl := contents .nodeRanges
  obtain rfl := contents .edgeTypes
  obtain rfl := contents .nodeTypeIds
  obtain rfl := contents .edgeTypeIds
  obtain rfl := contents .nodeTable
  obtain rfl := contents .edgeTable
  rfl

/-- A field that is checked beside another is checked alone when the other is absent, so what is
well-formed stays so without some of its fields. -/
theorem WellFormed.of_within {g full : Graph} (well : full.WellFormed) (part : g.Within full) :
    g.WellFormed := by
  obtain ⟨offsets, targets, present⟩ := part
  have nodes : full.nodeCount = g.nodeCount := by rw [nodeCount, nodeCount, offsets]
  have edges : full.edgeCount = g.edgeCount := by rw [edgeCount, edgeCount, targets]
  refine ⟨?_, ?_, ?_, ?_, ?_, ?_, ?_, ?_⟩
  · rw [← offsets, ← targets]
    exact well.offsets
  · rw [← targets, ← nodes]
    exact well.targets
  · intro ids named
    exact well.nodeTypeIds ids (present .nodeTypeIds ids named)
  · intro ids named
    exact well.edgeTypeIds ids (present .edgeTypeIds ids named)
  · intro ranges there
    obtain ⟨divides, each⟩ := well.nodeRanges ranges (present .nodeRanges ranges there)
    rw [nodes] at divides
    exact ⟨divides, fun ids named => each ids (present .nodeTypeIds ids named)⟩
  · intro types there
    obtain ⟨length, inside⟩ := well.edgeTypes types (present .edgeTypes types there)
    rw [edges] at length
    exact ⟨length, fun ids named => inside ids (present .edgeTypeIds ids named)⟩
  · intro table there
    rw [← nodes]
    exact well.nodeTable table (present .nodeTable table there)
  · intro table there
    rw [← edges]
    exact well.edgeTable table (present .edgeTable table there)

theorem Lacks.not_mem {g : Graph} {settings : List Setting} (lacks : g.Lacks settings)
    {field : OptionalField} {content : field.Content} (there : g.content? field = some content) :
    field ∉ settings.map Setting.field := by
  intro member
  obtain ⟨setting, inside, rfl⟩ := List.mem_map.mp member
  have absent := lacks.absent setting inside
  rw [there] at absent
  cases absent

theorem Lacks.tail {g : Graph} {setting : Setting} {rest : List Setting}
    (lacks : g.Lacks (setting :: rest)) : (g.put setting).Lacks rest := by
  obtain ⟨new, distinct⟩ := List.nodup_cons.mp lacks.distinct
  refine ⟨distinct, ?_⟩
  intro later member
  have other : later.field ≠ setting.field := by
    intro same
    exact new (same ▸ List.mem_map_of_mem member)
  rw [content?_put_of_ne g other]
  exact lacks.absent later (List.mem_cons_of_mem _ member)

theorem Lacks.perm {g : Graph} {settings order : List Setting} (lacks : g.Lacks settings)
    (same : order.Perm settings) : g.Lacks order := by
  refine ⟨(same.map Setting.field).nodup_iff.mpr lacks.distinct, ?_⟩
  intro setting member
  exact lacks.absent setting (same.mem_iff.mp member)

theorem Gains.perm {g full : Graph} {settings order : List Setting} (gains : g.Gains settings full)
    (same : order.Perm settings) : g.Gains order full := by
  refine ⟨gains.offsets, gains.targets, ?_, ?_⟩
  · intro setting member
    exact gains.given setting (same.mem_iff.mp member)
  · intro field outside
    rw [(same.map Setting.field).mem_iff] at outside
    exact gains.kept field outside

theorem Gains.unique {g full full' : Graph} {settings : List Setting}
    (gains : g.Gains settings full) (gains' : g.Gains settings full') : full = full' := by
  apply ext_content? (gains.offsets.trans gains'.offsets.symm)
    (gains.targets.trans gains'.targets.symm)
  intro field
  by_cases member : field ∈ settings.map Setting.field
  · obtain ⟨setting, inside, rfl⟩ := List.mem_map.mp member
    rw [gains.given setting inside, gains'.given setting inside]
  · rw [gains.kept field member, gains'.kept field member]

theorem Gains.within {g full : Graph} {settings : List Setting} (gains : g.Gains settings full)
    (lacks : g.Lacks settings) : g.Within full := by
  refine ⟨gains.offsets, gains.targets, ?_⟩
  intro field content there
  rw [gains.kept field (lacks.not_mem there)]
  exact there

theorem gains_putAll {g : Graph} {settings : List Setting} (lacks : g.Lacks settings) :
    g.Gains settings (g.putAll settings) := by
  induction settings generalizing g with
  | nil => exact ⟨rfl, rfl, nofun, fun _ _ => rfl⟩
  | cons setting rest ih =>
      have later := ih lacks.tail
      obtain ⟨new, _⟩ := List.nodup_cons.mp lacks.distinct
      refine ⟨?_, ?_, ?_, ?_⟩
      · exact later.offsets.trans (offsets_put g setting)
      · exact later.targets.trans (targets_put g setting)
      · intro one member
        rcases List.mem_cons.mp member with rfl | member
        · exact (later.kept one.field new).trans (content?_put_self g one)
        · exact later.given one member
      · intro field outside
        obtain ⟨other, outside⟩ := not_or.mp (mt List.mem_cons.mpr outside)
        exact (later.kept field outside).trans (content?_put_of_ne g other)

theorem attach_eq (g : Graph) (setting : Setting) : g.attach setting = (g.put setting).validated := by
  obtain ⟨field, content⟩ := setting
  cases field <;> rfl

/-- Each graph on the way to the last one has no field that the last one is without, so only the last
one matters. -/
theorem attachAll_eq_ok_iff {g after : Graph} {settings : List Setting} (well : g.WellFormed)
    (lacks : g.Lacks settings) :
    g.attachAll settings = .ok after ↔
      (g.putAll settings).WellFormed ∧ g.putAll settings = after := by
  induction settings generalizing g with
  | nil =>
      refine pure_eq_ok_iff.trans ⟨fun same => ⟨well, same⟩, ?_⟩
      intro ⟨_, same⟩
      exact same
  | cons setting rest ih =>
      have first : ∀ middle, g.attach setting = .ok middle ↔
          (g.put setting).WellFormed ∧ g.put setting = middle := by
        intro middle
        rw [attach_eq, validated_eq_ok_iff, validate_eq_ok_iff]
      rw [attachAll, List.foldlM_cons, bind_eq_ok_iff]
      constructor
      · rintro ⟨middle, made, others⟩
        obtain ⟨middleWell, rfl⟩ := (first middle).mp made
        exact (ih middleWell lacks.tail).mp others
      · intro last
        have part := (gains_putAll lacks.tail).within lacks.tail
        have middleWell : (g.put setting).WellFormed := last.1.of_within part
        exact ⟨g.put setting, (first _).mpr ⟨middleWell, rfl⟩, (ih middleWell lacks.tail).mpr last⟩

end Graph

namespace Snapshot

/-- Fields that a graph lacks can be set in any order. All orders decide alike about one graph, the one
with all the fields set. -/
theorem settings_any_order [Zlib] {g : Graph} (returned : Returned g) {settings : List Setting}
    (lacks : g.Lacks settings) :
    ∃ full, g.Gains settings full ∧ (∀ other, g.Gains settings other → other = full) ∧
      (∀ order, order.Perm settings → Graph.Decides (g.attachAll order) full) ∧
      ∀ order order', order.Perm settings → order'.Perm settings →
        ∀ after, g.attachAll order = .ok after ↔ g.attachAll order' = .ok after := by
  have gains := Graph.gains_putAll lacks
  have made : ∀ order, order.Perm settings → ∀ after, g.attachAll order = .ok after ↔
      (g.putAll settings).WellFormed ∧ g.putAll settings = after := by
    intro order same after
    have gains' := (Graph.gains_putAll (lacks.perm same)).perm same.symm
    rw [Graph.attachAll_eq_ok_iff returned.wellFormed (lacks.perm same), gains.unique gains']
  refine ⟨g.putAll settings, gains, fun other gains' => gains'.unique gains, ?_, ?_⟩
  · intro order same
    exact Graph.decides_of_eq_ok_iff (made order same)
  · intro order order' same same' after
    exact (made order same after).trans (made order' same' after).symm

/-- Two names and ranges for both, or for one of them only, whichever comes first. -/
theorem settings_any_order_typed :
    let g : Graph := .bare [0, 1, 2] [1, 0]
    let ids : TypeIds := ⟨[("author", 1), ("paper", 0)], by decide⟩
    let names : Setting := ⟨.nodeTypeIds, ids⟩
    let both : Setting := ⟨.nodeRanges, [0, 0, 2]⟩
    let one : Setting := ⟨.nodeRanges, [0, 2]⟩
    let full : Graph := { g with nodeTypeIds := some ids, nodeRanges := some [0, 0, 2] }
    g.attachAll [names, both] = .ok full ∧ g.attachAll [both, names] = .ok full ∧
      (∃ middle, g.attach one = .ok middle) ∧
      (∃ cause, g.attachAll [names, one] = .error cause) ∧
      ∃ cause, g.attachAll [one, names] = .error cause := by
  intro g ids names both one full
  let _ := Zlib.sample
  have made : Graph.new [0, 1, 2] [1, 0] = .ok g := rfl
  have lacks (ranges : List Int64) : g.Lacks [names, ⟨.nodeRanges, ranges⟩] := by
    have distinct : [OptionalField.nodeTypeIds, .nodeRanges].Nodup := by decide
    refine ⟨distinct, ?_⟩
    simp only [List.forall_mem_cons, List.not_mem_nil, false_imp_iff, implies_true, and_true]
    exact ⟨rfl, rfl⟩
  obtain ⟨_, _, _, _, bothAlike⟩ := settings_any_order (.new made) (lacks [0, 0, 2])
  obtain ⟨last, gains, _, oneDecides, _⟩ := settings_any_order (.new made) (lacks [0, 2])
  have first : g.attachAll [names, both] = .ok full := by
    rw [Graph.attachAll_eq_ok_iff (Returned.new made).wellFormed (lacks [0, 0, 2])]
    exact ⟨by decide, rfl⟩
  have ill : ¬last.WellFormed := by
    obtain rfl := (Graph.gains_putAll (lacks [0, 2])).unique gains
    decide
  refine ⟨first, ?_, ?_, ?_, ?_⟩
  · exact (bothAlike _ _ (.refl _) (.swap _ _ _) full).mp first
  · exact ⟨g.put one, rfl⟩
  · exact (oneDecides _ (.refl _)).refuses.mpr ill
  · exact (oneDecides _ (.swap _ _ _)).refuses.mpr ill

end Snapshot
end GraphSnapshot
