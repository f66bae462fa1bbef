import GraphSnapshot.Proofs.Archive.Growth
import GraphSnapshot.Proofs.NumericArray

/-! What archives are made of. Values come of the operations on values and out of archives that were
opened, and in archives to which only such values are written everything is exact, all the way down. -/
namespace GraphSnapshot

/-- Values that are made by the operations on values, or taken out of a record or an archive. -/
inductive Value.Made [Zlib] : Value → Prop
  | bool (b : Bool) : Made (.bool b)
  | int (i : Int64) : Made (.int i)
  | float (bits : UInt64) : Made (.float bits)
  | string (s : String) : Made (.string s)
  | array {a : NumericArray} : a.Made → Made (.array a)
  | empty : Made (.record [])
  | insert {entries after : Record} {key : String} {v : Value} : Made (.record entries) → Made v →
      entries.insert key v = .ok after → Made (.record after)
  | ofPairs {pairs entries : Record} : (∀ key v, (key, v) ∈ pairs → Made v) →
      Entries.ofPairs pairs = .ok entries → Made (.record entries)
  | entry {entries : Record} {key : String} {v : Value} : Made (.record entries) →
      (key, v) ∈ entries → Made v
  | opened {data : List UInt8} {a : Archive} {depth : Nat} {v : Value} :
      Archive.ofBytes data = .ok a → a.root.Holds depth v → Made v

namespace Value

theorem wellFormed_of_insert {entries after : Record} {key : String} {v : Value}
    (well : (Value.record entries).WellFormed) (value : v.WellFormed)
    (h : entries.insert key v = .ok after) : (Value.record after).WellFormed := by
  obtain ⟨free, rfl⟩ := Entries.insert_eq_ok_iff.mp h
  refine wellFormed_record_append well (wellFormed_record_singleton value) ?_
  intro other taken same
  obtain rfl : other = key := List.mem_singleton.mp same
  exact free taken

theorem wellFormed_of_foldlM_insert {pairs front after : Record}
    (well : (Value.record front).WellFormed) (values : ∀ key v, (key, v) ∈ pairs → v.WellFormed)
    (h : pairs.foldlM (fun entries pair => entries.insert pair.1 pair.2) front = .ok after) :
    (Value.record after).WellFormed := by
  induction pairs generalizing front with
  | nil => exact Except.ok.inj h ▸ well
  | cons pair rest ih =>
      rw [List.foldlM_cons] at h
      obtain ⟨middle, added, h⟩ := bind_eq_ok_iff.mp h
      refine ih (wellFormed_of_insert well ?_ added) ?_ h
      · exact values pair.1 pair.2 List.mem_cons_self
      · exact fun key v later => values key v (List.mem_cons_of_mem _ later)

theorem wellFormed_of_holds {record : Record} (well : (Value.record record).WellFormed)
    {depth : Nat} {v : Value} (held : record.Holds depth v) : v.WellFormed := by
  induction held with
  | entry member => exact (wellFormed_record_iff.mp well).2 _ _ member
  | inside member _ ih => exact ih ((wellFormed_record_iff.mp well).2 _ _ member)

theorem Made.wellFormed [Zlib] {v : Value} (h : v.Made) : v.WellFormed := by
  induction h with
  | bool | int | float | string => trivial
  | array made => exact made.sized
  | empty => exact wellFormed_record_nil
  | insert _ _ added ih ih' => exact wellFormed_of_insert ih ih' added
  | ofPairs _ built ih => exact wellFormed_of_foldlM_insert wellFormed_record_nil ih built
  | entry _ member ih => exact (wellFormed_record_iff.mp ih).2 _ _ member
  | opened read held => exact wellFormed_of_holds (Archive.wellFormed_of_ofBytes read).root held

end Value

namespace Archive

/-- Archives that come of new ones and opened ones, by operations that write values that are made. -/
inductive Made [Zlib] : Archive → Prop
  | writer (options : WriteOptions) : Made (writer options)
  | opened {data : List UInt8} {a : Archive} : ofBytes data = .ok a → Made a
  | perform {α : Type} {a : Archive} {action : Action α} : Made a →
      ComposedWith Value.Made action → Made (a.perform action).2

theorem Made.reachable [Zlib] {a : Archive} (h : a.Made) : a.Reachable := by
  induction h with
  | writer options => exact .writer options
  | opened read => exact .opened read
  | perform _ composed ih => exact .perform ih (composed.mono fun _ => Value.Made.wellFormed)

theorem Made.wellFormed_of_stored [Zlib] {a : Archive} (h : a.Made) {record : Record}
    (stored : record = a.root ∨ ∃ scope ∈ a.scopes, record = scope.entries) :
    (Value.record record).WellFormed := by
  rcases stored with rfl | ⟨scope, member, rfl⟩
  · exact h.reachable.wellFormed.root
  · exact h.reachable.wellFormed.scope scope member

theorem composedWith_list_forM {α : Type} {allowed : Value → Prop} {step : α → Action Unit}
    {xs : List α} (steps : ∀ x ∈ xs, ComposedWith allowed (step x)) :
    ComposedWith allowed (xs.forM step) := by
  induction xs with
  | nil => exact .pure ()
  | cons x rest ih =>
      obtain ⟨first, later⟩ := List.forall_mem_cons.mp steps
      exact .bind first fun _ => ih later

theorem composedWith_option_forM {α : Type} {allowed : Value → Prop} {step : α → Action Unit}
    {o : Option α} (steps : ∀ x, o = some x → ComposedWith allowed (step x)) :
    ComposedWith allowed (o.forM step) := by
  cases o with
  | none => exact .pure ()
  | some x => exact steps x rfl

end Archive
end GraphSnapshot
