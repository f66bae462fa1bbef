import GraphSnapshot.Graph.OfEdges
import GraphSnapshot.Proofs.Graph.Tables
import GraphSnapshot.Proofs.Outcome

/-! The graphs that can be built. Each way of building a graph checks it, so whatever is built one
upon the other is valid. -/
namespace GraphSnapshot.Graph

/-- Graphs that are made by the operations on graphs, from tables whose columns are arrays of the
size of their shapes. -/
inductive Built : Graph → Prop
  | empty : Built empty
  | new {offsets targets : List Int64} {g : Graph} : new offsets targets = .ok g → Built g
  | ofEdges {nodes : Nat} {edges : List (Int64 × Int64)} {g : Graph} :
      ofEdges nodes edges = .ok g → Built g
  | withNodeRanges {g after : Graph} {ranges : List Int64} :
      Built g → g.withNodeRanges ranges = .ok after → Built after
  | withEdgeTypes {g after : Graph} {types : List UInt8} :
      Built g → g.withEdgeTypes types = .ok after → Built after
  | withNodeTypeIds {g after : Graph} {ids : TypeIds} :
      Built g → g.withNodeTypeIds ids = .ok after → Built after
  | withEdgeTypeIds {g after : Graph} {ids : TypeIds} :
      Built g → g.withEdgeTypeIds ids = .ok after → Built after
  | withNodeTable {g after : Graph} {table : Table} :
      Built g → table.Sized → g.withNodeTable table = .ok after → Built after
  | withEdgeTable {g after : Graph} {table : Table} :
      Built g → table.Sized → g.withEdgeTable table = .ok after → Built after

/-- All checks succeed, and the tables have columns of the size of their shapes. -/
structure Valid (g : Graph) : Prop where
  checked : g.validate = .ok ()
  nodes : ∀ table, g.nodeTable = some table → table.Sized
  edges : ∀ table, g.edgeTable = some table → table.Sized

theorem validated_eq_ok_iff {g after : Graph} :
    g.validated = .ok after ↔ g.validate = .ok () ∧ g = after := bind_pure_eq_ok_iff

theorem new_eq_ok_iff {offsets targets : List Int64} {g : Graph} :
    new offsets targets = .ok g ↔
      (bare offsets targets).checkTopology = .ok () ∧ bare offsets targets = g :=
  bind_pure_eq_ok_iff

theorem checkTopology_of_validate {g : Graph} (h : g.validate = .ok ()) :
    g.checkTopology = .ok () := by
  obtain ⟨_, checked, _⟩ := bind_eq_ok_iff.mp h
  exact checked

theorem valid_of_new {offsets targets : List Int64} {g : Graph}
    (h : new offsets targets = .ok g) : g.Valid := by
  obtain ⟨checked, rfl⟩ := new_eq_ok_iff.mp h
  exact ⟨bind_eq_ok_iff.mpr ⟨(), checked, rfl⟩, nofun, nofun⟩

theorem valid_of_ofEdges {nodes : Nat} {edges : List (Int64 × Int64)} {g : Graph}
    (h : ofEdges nodes edges = .ok g) : g.Valid := by
  simp only [ofEdges, bind_eq_ok_iff] at h
  obtain ⟨_, _, _, _, _, _, _, _, made⟩ := h
  exact valid_of_new made

theorem Built.valid {g : Graph} (h : g.Built) : g.Valid := by
  induction h with
  | empty => exact ⟨rfl, nofun, nofun⟩
  | new made => exact valid_of_new made
  | ofEdges made => exact valid_of_ofEdges made
  | withNodeRanges _ made ih | withEdgeTypes _ made ih | withNodeTypeIds _ made ih
  | withEdgeTypeIds _ made ih =>
      obtain ⟨checked, rfl⟩ := validated_eq_ok_iff.mp made
      exact ⟨checked, ih.nodes, ih.edges⟩
  | withNodeTable _ sized made ih =>
      obtain ⟨checked, rfl⟩ := validated_eq_ok_iff.mp made
      refine ⟨checked, ?_, ih.edges⟩
      intro table same
      exact Option.some.inj same ▸ sized
  | withEdgeTable _ sized made ih =>
      obtain ⟨checked, rfl⟩ := validated_eq_ok_iff.mp made
      refine ⟨checked, ih.nodes, ?_⟩
      intro table same
      exact Option.some.inj same ▸ sized

end GraphSnapshot.Graph
