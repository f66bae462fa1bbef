import GraphSnapshot.Proofs.Archive.Nesting
import GraphSnapshot.Proofs.Archive.Scopes

/-! Paths of keys. A record that lies at a path stays there, whatever is written elsewhere, while the
scopes on the path are closed one after another, and a reader finds it by entering the keys in turn. -/
namespace GraphSnapshot

/-- The record found by following keys down. -/
def Record.inside? : Record → List String → Option Record
  | record, [] => some record
  | record, key :: rest =>
    match Entries.get? record key with
    | some (.record inner) => Record.inside? inner rest
    | _ => none

theorem Record.inside?_cons_eq_some_iff {record found : Record} {key : String} {rest : List String} :
    record.inside? (key :: rest) = some found ↔
      ∃ inner, record.get? key = some (.record inner) ∧ Record.inside? inner rest = some found := by
  rw [Record.inside?]
  split
  · next inner entry =>
    rw [entry]
    constructor
    · intro h
      exact ⟨inner, rfl, h⟩
    · rintro ⟨_, ⟨rfl⟩, h⟩
      exact h
  · next other => exact ⟨nofun, fun ⟨inner, entry, _⟩ => absurd entry (other inner)⟩

theorem Record.inside?_append {record middle : Record} {front : List String}
    (first : record.inside? front = some middle) (back : List String) :
    record.inside? (front ++ back) = middle.inside? back := by
  induction front generalizing record with
  | nil => rw [List.nil_append, Option.some.inj first]
  | cons key rest ih =>
      obtain ⟨inner, entry, first⟩ := Record.inside?_cons_eq_some_iff.mp first
      rw [List.cons_append, Record.inside?, entry]
      exact ih first

/-- No path leads deeper than records may lie. -/
theorem Record.length_le_of_inside? {record found : Record} {room : Nat}
    (encodable : record.Encodable room) {path : List String}
    (lies : record.inside? path = some found) : path.length ≤ room := by
  induction path generalizing record room with
  | nil => exact Nat.zero_le room
  | cons key rest ih =>
      obtain ⟨inner, entry, lies⟩ := Record.inside?_cons_eq_some_iff.mp lies
      have member := Entries.mem_of_get? entry
      obtain ⟨below, rfl, fits⟩ := (Record.encodable_iff.mp encodable key _ member).2 inner rfl
      exact Nat.succ_le_succ (ih fits lies)

/-- What is in the record at the end of a path lies in the record in which the path begins. -/
theorem Record.exists_holds_of_inside? {record found : Record} {path : List String}
    (lies : record.inside? path = some found) {key : String} {v : Value}
    (member : (key, v) ∈ found) : ∃ depth, record.Holds depth v := by
  induction path generalizing record with
  | nil =>
      obtain rfl := Option.some.inj lies
      exact ⟨1, .entry member⟩
  | cons first rest ih =>
      obtain ⟨inner, entry, lies⟩ := Record.inside?_cons_eq_some_iff.mp lies
      obtain ⟨depth, held⟩ := ih lies
      exact ⟨depth + 1, .inside (Entries.mem_of_get? entry) held⟩

namespace Archive

def path (a : Archive) : List String := (a.scopes.map Scope.key).reverse

@[simp] theorem path_extend (a : Archive) (more : Record) : (a.extend more).path = a.path := by
  obtain ⟨mode, root, scopes⟩ := a
  cases scopes <;> rfl

theorem path_cons {a : Archive} {scope : Scope} {outer : List Scope}
    (open_ : a.scopes = scope :: outer) :
    a.path = path { a with scopes := outer } ++ [scope.key] := by
  rw [path, open_, List.map_cons, List.reverse_cons, path]

theorem path_outside (a : Archive) : a.outside.path = a.path.dropLast := by
  rw [path, path, List.dropLast_reverse, ← List.map_tail, outside]

theorem length_path (a : Archive) : a.path.length = a.depth := by
  rw [path, List.length_reverse, List.length_map, depth]

/-- Each open scope is the record of its key in the scope around it. -/
abbrev Tracks (a : Archive) : Prop :=
  a.Throughout fun around scope => around.get? scope.key = some (.record scope.entries)

/-- Where scopes are records of what is around them, the keys of the open ones lead from the root to
the current entries. -/
theorem Tracks.inside?_path {a : Archive} (tracks : a.Tracks) :
    a.root.inside? a.path = some a.current := by
  obtain ⟨mode, root, scopes⟩ := a
  induction scopes with
  | nil => rfl
  | cons scope outer ih =>
      have outside : Tracks ⟨mode, root, outer⟩ := tracks.of_suffix (List.suffix_cons scope outer)
      rw [path_cons rfl, Record.inside?_append (ih outside), Record.inside?_cons_eq_some_iff]
      exact ⟨scope.entries, tracks scope outer (List.suffix_refl _), rfl⟩

theorem Change.tracks {a b : Archive} (h : Change a b) (reading : a.isWriting = false)
    (tracks : a.Tracks) : b.Tracks := by
  cases h with
  | write writing | close writing => cases reading.symm.trans writing
  | enter opened =>
      obtain ⟨_, found⟩ := opened_eq_ok_iff.mp opened
      rw [reading] at found
      exact tracks.enter found
  | drop depth => exact tracks.of_suffix (List.drop_suffix _ _)

theorem Changes.tracks {a b : Archive} (h : Changes a b) (reading : a.isWriting = false)
    (tracks : a.Tracks) : b.Tracks := by
  refine (h.keeps (p := fun c => c.isWriting = false ∧ c.Tracks) ?_ ⟨reading, tracks⟩).2
  intro c d change ⟨reading, tracks⟩
  exact ⟨change.isWriting.trans reading, change.tracks reading tracks⟩

/-- The record lies at the path: some of the keys are those of open scopes, which hold it or lead to
it by the others. -/
def At (a : Archive) (path : List String) (record : Record) : Prop :=
  ∃ inner outer rest, a.scopes = inner ++ outer ∧
    path = Archive.path { a with scopes := outer } ++ rest ∧
    Record.inside? (current { a with scopes := outer }) rest = some record

theorem at_current (a : Archive) : a.At a.path a.current :=
  ⟨[], a.scopes, [], rfl, (List.append_nil _).symm, rfl⟩

theorem at_of_inside? {a : Archive} {rest : List String} {record : Record}
    (lies : a.current.inside? rest = some record) : a.At (a.path ++ rest) record :=
  ⟨[], a.scopes, rest, rfl, rfl, lies⟩

theorem At.of_nil {a : Archive} {path : List String} {record : Record} (h : a.At path record)
    (closed : a.scopes = []) : a.root.inside? path = some record := by
  obtain ⟨inner, outer, rest, open_, rfl, found⟩ := h
  rw [closed] at open_
  obtain ⟨rfl, rfl⟩ := List.append_eq_nil_iff.mp open_.symm
  exact found

theorem At.enter {a : Archive} {path : List String} {record : Record} (h : a.At path record)
    (scope : Scope) : At { a with scopes := scope :: a.scopes } path record := by
  obtain ⟨inner, outer, rest, open_, same, found⟩ := h
  exact ⟨scope :: inner, outer, rest, congrArg (scope :: ·) open_, same, found⟩

/-- Looking the names up gives the same in both records. -/
def Agree (names : List String) (record after : Record) : Prop :=
  ∀ name ∈ names, after.get? name = record.get? name

variable {names path : List String} {record : Record}

/-- A new entry leaves what lies at a path as it is, except that it may stand there itself. -/
theorem At.extend {a : Archive} (h : a.At path record) {key : String}
    (spared : a.path = path → key ∉ names) (value : Value) :
    ∃ after, (a.extend [(key, value)]).At path after ∧ Agree names record after := by
  obtain ⟨mode, root, scopes⟩ := a
  obtain ⟨inner, outer, rest, rfl, rfl, found⟩ := h
  cases inner with
  | cons scope inner =>
      -- The entry goes into a scope further inside.
      exact ⟨record, ⟨_ :: inner, outer, rest, rfl, rfl, found⟩, fun _ _ => rfl⟩
  | nil =>
      have grown := at_current (extend ⟨mode, root, outer⟩ [(key, value)])
      rw [path_extend, current_extend] at grown
      cases rest with
      | nil =>
          obtain rfl := Option.some.inj found
          rw [List.append_nil] at spared ⊢
          refine ⟨_, grown, ?_⟩
          intro name member
          apply Entries.get?_append_singleton_of_ne
          rintro rfl
          exact spared rfl member
      | cons first rest =>
          obtain ⟨next, entry, found⟩ := Record.inside?_cons_eq_some_iff.mp found
          refine ⟨record, ⟨[], _, first :: rest, rfl, ?_, ?_⟩, fun _ _ => rfl⟩
          · exact congrArg (· ++ first :: rest) (path_extend _ _).symm
          · refine Record.inside?_cons_eq_some_iff.mpr ⟨next, ?_, found⟩
            have found := Entries.get?_append_of_some entry [(key, value)]
            rw [← current_extend] at found
            exact found

/-- A scope that is closed becomes an entry outside, under which the rest of the path is found. -/
theorem At.close {a : Archive} (h : a.At path record) {scope : Scope} {outer : List Scope}
    (open_ : a.scopes = scope :: outer)
    (free : scope.key ∉ (current { a with scopes := outer }).keys)
    (spared : Archive.path { a with scopes := outer } = path → scope.key ∉ names) :
    ∃ after,
      (Archive.extend { a with scopes := outer } [(scope.key, .record scope.entries)]).At path after ∧
        Agree names record after := by
  obtain ⟨mode, root, scopes⟩ := a
  obtain rfl : scopes = scope :: outer := open_
  obtain ⟨inner, lower, rest, split, same, found⟩ := h
  cases inner with
  | cons first inner =>
      obtain ⟨rfl, rfl⟩ := List.cons.inj split
      have outside : At ⟨mode, root, inner ++ lower⟩ path record :=
        ⟨inner, lower, rest, rfl, same, found⟩
      exact outside.extend spared _
  | nil =>
      -- The scope is the innermost one of those on the path.
      obtain rfl := split
      have grown := current_extend ⟨mode, root, outer⟩ [(scope.key, .record scope.entries)]
      refine ⟨record, ⟨[], _, scope.key :: rest, rfl, ?_, ?_⟩, fun _ _ => rfl⟩
      · rw [same, path_cons rfl, List.append_assoc, List.singleton_append]
        exact congrArg (· ++ scope.key :: rest) (path_extend _ _).symm
      · refine Record.inside?_cons_eq_some_iff.mpr ⟨scope.entries, ?_, found⟩
        change Entries.get? (current (Archive.extend _ _)) _ = _
        rw [grown, Entries.get?_append_of_not_mem free, Entries.get?_singleton]

/-- One operation on an archive that is written, which adds none of the names to the scope at the
path. An operation that fails is one as well. -/
inductive Spares (names path : List String) : Archive → Archive → Prop
  | write {a : Archive} (key : String) {value : Value} : value.WellFormed →
      (a.path = path → key ∈ names → key ∈ a.current.keys) →
      Spares names path a (a.perform (write key value)).2
  | enterScope {a : Archive} (key : String) : Spares names path a (a.perform (enterScope key)).2
  | leaveScope {a : Archive} :
      (∀ scope outer, a.scopes = scope :: outer →
        Archive.path { a with scopes := outer } = path → scope.key ∉ names) →
      Spares names path a (a.perform leaveScope).2

theorem Spares.changes {a b : Archive} (h : Spares names path a b) : Changes a b := by
  cases h with
  | write key well => exact Composed.changes (.write key well) a
  | enterScope key => exact Composed.changes (.enterScope key) a
  | leaveScope => exact Composed.changes .leaveScope a

theorem changes_of_spares {a b : Archive} (run : Relation.ReflTransGen (Spares names path) a b) :
    Changes a b := by
  induction run with
  | refl => exact .refl
  | tail _ last ih => exact ih.trans last.changes

theorem Spares.at {a b : Archive} (h : Spares names path a b) (writing : a.isWriting = true)
    (free : a.KeysFree) (held : a.At path record) :
    ∃ after, b.At path after ∧ Agree names record after := by
  cases h with
  | @write key value well spared =>
      rcases perform_write_eq a key value with kept | ⟨_, absent, added⟩
      · rw [kept]
        exact ⟨record, held, fun _ _ => rfl⟩
      · rw [added]
        exact held.extend (fun same named => absent (spared same named)) value
  | enterScope key =>
      rw [perform_enterScope]
      split
      · exact ⟨record, held.enter _, fun _ _ => rfl⟩
      · exact ⟨record, held, fun _ _ => rfl⟩
  | leaveScope spared =>
      cases open_ : a.scopes with
      | nil =>
          rw [perform_leaveScope_nil open_]
          exact ⟨record, held, fun _ _ => rfl⟩
      | cons scope outer =>
          have absent := free scope outer (open_ ▸ List.suffix_refl _)
          rw [perform_leaveScope_of_free writing open_ absent]
          exact held.close open_ absent (spared scope outer open_)

theorem Spares.of_nil {a b : Archive} (h : Spares [] path a b) (other : List String) :
    Spares [] other a b := by
  cases h with
  | write key well => exact .write key well fun _ => nofun
  | enterScope key => exact .enterScope key
  | leaveScope => exact .leaveScope fun _ _ _ _ => List.not_mem_nil

/-- What lies at a path stays there, as far as the names go, in any run that spares them. -/
theorem exists_at_of_spares {a b : Archive} (run : Relation.ReflTransGen (Spares names path) a b)
    (writing : a.isWriting = true) (free : a.KeysFree) (held : a.At path record) :
    ∃ after, b.At path after ∧ Agree names record after := by
  induction run with
  | refl => exact ⟨record, held, fun _ _ => rfl⟩
  | tail run last ih =>
      obtain ⟨middle, held, agree⟩ := ih
      have before := changes_of_spares run
      obtain ⟨after, held, agree'⟩ :=
        last.at (before.isWriting.trans writing) (before.keysFree writing free) held
      refine ⟨after, held, ?_⟩
      intro name member
      rw [agree' name member, agree name member]

theorem Change.depth_le {a b : Archive} (h : Change a b) (shallow : a.depth ≤ maxDepth) :
    b.depth ≤ maxDepth := by
  cases h with
  | write =>
      rw [depth_extend]
      exact shallow
  | enter opened => exact (opened_eq_ok_iff.mp opened).1
  | close =>
      rw [depth_extend, depth_outside]
      exact Nat.le_trans (Nat.sub_le _ _) shallow
  | drop depth =>
      rw [depth_truncate]
      exact Nat.le_trans (Nat.min_le_right _ _) shallow

theorem Reachable.depth_le [Zlib] {a : Archive} (h : a.Reachable) : a.depth ≤ maxDepth :=
  h.invariant (fun _ => Nat.zero_le _) (fun _ _ => Nat.zero_le _) fun _ _ => Change.depth_le

theorem path_of_perform_forM_enterScope {a inside : Archive} {path : List String}
    (entered : a.perform (path.forM enterScope) = (.ok (), inside)) :
    inside.path = a.path ++ path := by
  induction path generalizing a with
  | nil =>
      cases entered
      exact (List.append_nil _).symm
  | cons key rest ih =>
      rw [List.forM, perform_bind, perform_enterScope] at entered
      cases opened : a.opened key with
      | error fault =>
          rw [opened] at entered
          cases entered
      | ok entries =>
          rw [opened] at entered
          rw [ih entered, path_cons rfl, List.append_assoc, List.singleton_append]

/-- A reader that enters the keys of a path one after another comes to the record there. -/
theorem perform_forM_enterScope {a : Archive} (reading : a.isWriting = false) {path : List String}
    {record : Record} (found : a.current.inside? path = some record)
    (shallow : a.depth + path.length ≤ maxDepth) :
    ∃ inside, a.perform (path.forM enterScope) = (.ok (), inside) ∧ inside.isWriting = false ∧
      inside.current = record ∧ inside.depth = a.depth + path.length := by
  induction path generalizing a with
  | nil => exact ⟨a, rfl, reading, Option.some.inj found, rfl⟩
  | cons key rest ih =>
      obtain ⟨entries, entry, found⟩ := Record.inside?_cons_eq_some_iff.mp found
      rw [List.length_cons] at shallow
      have opened : a.opened key = .ok entries := by
        rw [opened_eq_ok_iff, reading]
        exact ⟨by omega, entry⟩
      have entered := perform_enterScope_eq_ok_iff.mpr ⟨entries, opened, rfl⟩
      have deeper : depth { a with scopes := ⟨key, entries⟩ :: a.scopes } = a.depth + 1 := rfl
      obtain ⟨inside, performed, reading, current, depth⟩ :=
        ih (a := { a with scopes := ⟨key, entries⟩ :: a.scopes }) reading found (by omega)
      refine ⟨inside, ?_, reading, current, ?_⟩
      · rw [List.forM, perform_bind_of_ok entered, performed]
      · rw [depth, deeper, List.length_cons]
        omega

end Archive
end GraphSnapshot
