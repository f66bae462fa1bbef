import GraphSnapshot.Archive.Outcomes
import GraphSnapshot.Proofs.Archive.Storage
import Mathlib.Logic.Relation

/-! Runs of operations. Whatever actions are put together from the operations of an archive, they
change it by single changes, and what each of these keeps is kept by every run. -/
namespace GraphSnapshot.Archive

/-- Actions put together from the operations of an archive, which write allowed values. What is done
next may depend on all that has been seen so far, on failures too. -/
inductive ComposedWith (allowed : Value → Prop) : {α : Type} → Action α → Prop
  | pure {α : Type} (x : α) : ComposedWith allowed (pure x)
  | throw {α : Type} (fault : Fault) : ComposedWith allowed (throw fault : Action α)
  | bind {α β : Type} {action : Action α} {next : α → Action β} : ComposedWith allowed action →
      (∀ x, ComposedWith allowed (next x)) → ComposedWith allowed (action >>= next)
  | outcome {α : Type} {action : Action α} :
      ComposedWith allowed action → ComposedWith allowed (outcome action)
  | get : ComposedWith allowed (get : Action Archive)
  | read (key : String) : ComposedWith allowed (read key)
  | write (key : String) {value : Value} : allowed value → ComposedWith allowed (write key value)
  | enterScope (key : String) : ComposedWith allowed (enterScope key)
  | leaveScope : ComposedWith allowed leaveScope
  | within {α : Type} (key : String) {body : Action α} :
      ComposedWith allowed body → ComposedWith allowed (within key body)

theorem ComposedWith.mono {allowed other : Value → Prop} (sound : ∀ v, allowed v → other v)
    {α : Type} {action : Action α} (h : ComposedWith allowed action) : ComposedWith other action := by
  induction h with
  | pure x => exact .pure x
  | throw fault => exact .throw fault
  | bind _ _ ih ihs => exact .bind ih ihs
  | outcome _ ih => exact .outcome ih
  | get => exact .get
  | read key => exact .read key
  | write key value => exact .write key (sound _ value)
  | enterScope key => exact .enterScope key
  | leaveScope => exact .leaveScope
  | within key _ ih => exact .within key ih

abbrev Composed {α : Type} (action : Action α) : Prop := ComposedWith Value.WellFormed action

/-- Archives that come about by any operations on a new archive or on one opened for reading. -/
inductive Reachable [Zlib] : Archive → Prop
  | writer (options : WriteOptions) : Reachable (writer options)
  | opened {data : List UInt8} {a : Archive} : ofBytes data = .ok a → Reachable a
  | perform {α : Type} {a : Archive} {action : Action α} :
      Reachable a → Composed action → Reachable (a.perform action).2

def extend (a : Archive) (more : Record) : Archive := a.withCurrent (a.current ++ more)

def outside (a : Archive) : Archive := { a with scopes := a.scopes.tail }

/-- All that one operation can do to an archive. -/
inductive Change : Archive → Archive → Prop
  | write {a : Archive} {key : String} {value : Value} : a.isWriting = true →
      key ∉ a.current.keys → value.WellFormed → Change a (a.extend [(key, value)])
  | enter {a : Archive} {key : String} {entries : Record} : a.opened key = .ok entries →
      Change a { a with scopes := ⟨key, entries⟩ :: a.scopes }
  | close {a : Archive} {scope : Scope} : a.isWriting = true → a.scopes.head? = some scope →
      scope.key ∉ a.outside.current.keys →
      Change a (a.outside.extend [(scope.key, .record scope.entries)])
  | drop {a : Archive} (depth : Nat) : Change a (a.truncate depth)

abbrev Changes : Archive → Archive → Prop := Relation.ReflTransGen Change

theorem truncate_outside {a : Archive} {scope : Scope} {outer : List Scope}
    (h : a.scopes = scope :: outer) : a.truncate outer.length = { a with scopes := outer } := by
  have one : (scope :: outer).length - outer.length = 1 := by
    rw [List.length_cons]
    omega
  rw [truncate, h, one, List.drop_one, List.tail_cons]

theorem perform_write_eq (a : Archive) (key : String) (value : Value) :
    (a.perform (write key value)).2 = a ∨
      a.isWriting = true ∧ key ∉ a.current.keys ∧
        (a.perform (write key value)).2 = a.extend [(key, value)] := by
  rw [perform_write]
  split
  · next writing =>
    cases added : a.current.insert key value with
    | error fault => exact .inl rfl
    | ok entries =>
      obtain ⟨free, rfl⟩ := Entries.insert_eq_ok_iff.mp added
      exact .inr ⟨writing, free, rfl⟩
  · exact .inl rfl

theorem changes_leaveScope (a : Archive) : Changes a (a.perform leaveScope).2 := by
  cases open_ : a.scopes with
  | nil =>
    rw [perform_leaveScope_nil open_]
  | cons scope outer =>
    rw [perform_leaveScope_cons open_]
    have dropped : Change a { a with scopes := outer } :=
      truncate_outside open_ ▸ Change.drop outer.length
    have outside : a.outside = { a with scopes := outer } := by rw [Archive.outside, open_]; rfl
    dsimp only
    split
    · next writing =>
      rcases perform_write_eq { a with scopes := outer } scope.key (.record scope.entries) with
        kept | ⟨_, free, added⟩
      · rw [kept]
        exact .single dropped
      · rw [added, ← outside]
        exact .single (.close writing (by rw [open_]; rfl) (outside ▸ free))
    · exact .single dropped

theorem changes_settle {α : Type} (a : Archive) (depth : Nat) (outcome : Except Fault α) :
    Changes a (a.perform (settle depth outcome)).2 := by
  cases outcome with
  | error fault =>
    rw [perform_settle_error]
    exact .single (.drop depth)
  | ok x =>
    rw [perform_settle_ok_snd]
    exact changes_leaveScope a

theorem Composed.changes {α : Type} {action : Action α} (h : Composed action) (a : Archive) :
    Changes a (a.perform action).2 := by
  induction h generalizing a with
  | pure x | throw fault | get => exact .refl
  | bind first next ih ihs =>
    apply perform_bind_keeps (P := Changes a) (ih a)
    intro x after _ before
    exact before.trans (ihs x after)
  | outcome action ih => exact ih a
  | read key =>
    rw [perform_read]
  | write key well =>
    rcases perform_write_eq a key _ with kept | ⟨writing, free, added⟩
    · rw [kept]
    · rw [added]
      exact .single (.write writing free well)
  | enterScope key =>
    rw [perform_enterScope]
    cases opened : a.opened key with
    | error fault => exact .refl
    | ok entries => exact .single (.enter opened)
  | leaveScope => exact changes_leaveScope a
  | within key body ih =>
    rw [perform_within]
    cases opened : a.opened key with
    | error fault => exact .refl
    | ok entries =>
      exact ((Relation.ReflTransGen.single (.enter opened)).trans (ih _)).trans
        (changes_settle _ _ _)

/-- Everything at the root and in the open scopes is well-formed. -/
structure WellFormed (a : Archive) : Prop where
  root : (Value.record a.root).WellFormed
  scope : ∀ scope ∈ a.scopes, (Value.record scope.entries).WellFormed

theorem WellFormed.current {a : Archive} (well : a.WellFormed) :
    (Value.record a.current).WellFormed := by
  rw [Archive.current]
  split
  · exact well.root
  · next scope outer open_ => exact well.scope scope (open_ ▸ List.mem_cons_self)

theorem WellFormed.withCurrent {a : Archive} (well : a.WellFormed) {entries : Record}
    (new : (Value.record entries).WellFormed) : (a.withCurrent entries).WellFormed := by
  rw [Archive.withCurrent]
  split
  · next closed => exact ⟨new, well.scope⟩
  · next scope outer open_ =>
    refine ⟨well.root, ?_⟩
    intro other member
    rcases List.mem_cons.mp member with rfl | older
    · exact new
    · exact well.scope other (open_ ▸ List.mem_cons_of_mem _ older)

theorem WellFormed.extend {a : Archive} (well : a.WellFormed) {more : Record}
    (new : (Value.record more).WellFormed) (apart : ∀ key ∈ a.current.keys, key ∉ more.keys) :
    (a.extend more).WellFormed :=
  well.withCurrent (Value.wellFormed_record_append well.current new apart)

theorem WellFormed.of_scopes {a : Archive} (well : a.WellFormed) {scopes : List Scope}
    (older : scopes ⊆ a.scopes) : WellFormed { a with scopes } :=
  ⟨well.root, fun scope member => well.scope scope (older member)⟩

theorem opened_eq_ok_iff {a : Archive} {key : String} {entries : Record} :
    a.opened key = .ok entries ↔ a.depth < maxDepth ∧
      (if a.isWriting then key ∉ a.current.keys ∧ entries = []
        else a.current.get? key = some (.record entries)) := by
  rw [opened]
  split
  · next deep => exact ⟨nofun, fun ⟨shallow, _⟩ => absurd deep (Nat.not_le.mpr shallow)⟩
  · next shallow =>
    refine Iff.trans ?_ (and_iff_right (Nat.not_le.mp shallow)).symm
    split
    · rw [← Entries.contains_iff]
      split
      · next taken => exact ⟨nofun, fun ⟨free, _⟩ => absurd taken free⟩
      · next free =>
        rw [pure_eq_ok_iff, eq_comm (a := [])]
        exact (and_iff_right free).symm
    · simp only [bind_eq_ok_iff, Entries.require_eq_ok_iff, Value.asRecord_eq_ok_iff, exists_eq_right]

theorem opened_of_free {a : Archive} (writing : a.isWriting = true) {key : String}
    (free : key ∉ a.current.keys) (shallow : a.depth < maxDepth) : a.opened key = .ok [] := by
  rw [opened_eq_ok_iff, if_pos writing]
  exact ⟨shallow, free, rfl⟩

theorem not_mem_keys_of_opened {a : Archive} (writing : a.isWriting = true) {key : String}
    {entries : Record} (opened : a.opened key = .ok entries) : key ∉ a.current.keys := by
  obtain ⟨_, free⟩ := opened_eq_ok_iff.mp opened
  rw [if_pos writing] at free
  exact free.1

theorem Change.wellFormed {a b : Archive} (h : Change a b) (well : a.WellFormed) :
    b.WellFormed := by
  have free {entries : Record} {key : String} {v : Value} (absent : key ∉ entries.keys) :
      ∀ other ∈ entries.keys, other ∉ Entries.keys [(key, v)] := by
    intro other taken same
    obtain rfl : other = key := List.mem_singleton.mp same
    exact absent taken
  cases h with
  | write writing absent value =>
    exact well.extend (Value.wellFormed_record_singleton value) (free absent)
  | enter opened =>
    refine ⟨well.root, ?_⟩
    intro scope member
    rcases List.mem_cons.mp member with rfl | older
    · obtain ⟨_, found⟩ := opened_eq_ok_iff.mp opened
      split at found
      · obtain ⟨_, rfl⟩ := found
        exact Value.wellFormed_record_nil
      · exact Value.wellFormed_of_get? well.current found
    · exact well.scope scope older
  | close writing open_ absent =>
    refine WellFormed.extend (well.of_scopes (List.tail_sublist _).subset) ?_ (free absent)
    exact Value.wellFormed_record_singleton (well.scope _ (List.mem_of_mem_head? open_))
  | drop depth => exact well.of_scopes (List.drop_subset _ _)

theorem Changes.wellFormed {a b : Archive} (h : Changes a b) (well : a.WellFormed) :
    b.WellFormed := by
  induction h with
  | refl => exact well
  | tail _ last ih => exact last.wellFormed ih

theorem wellFormed_of_ofBytes [Zlib] {data : List UInt8} {a : Archive} (h : ofBytes data = .ok a) :
    a.WellFormed := by
  obtain ⟨header, stored, rfl, version⟩ := exists_header_of_ofBytes h
  obtain ⟨_, _, payload, root, _, decoded, rfl⟩ := (ofBytes_append_eq_ok_iff version).mp h
  exact ⟨(Payload.decode_eq_ok_iff.mp decoded).1.1, nofun⟩

/-- Whatever is done with archives, the records in them have distinct keys and the arrays in them have
as many bytes as their shapes ask for. -/
theorem Reachable.wellFormed [Zlib] {a : Archive} (h : Reachable a) : a.WellFormed := by
  induction h with
  | writer options => exact ⟨Value.wellFormed_record_nil, nofun⟩
  | opened read => exact wellFormed_of_ofBytes read
  | perform _ composed ih => exact (composed.changes _).wellFormed ih

end GraphSnapshot.Archive
