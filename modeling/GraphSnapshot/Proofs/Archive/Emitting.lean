import GraphSnapshot.Proofs.Archive.Made
import GraphSnapshot.Proofs.Archive.Paths

/-! Records written piece by piece. A record that is written by entering a scope, writing what is in
it and closing the scope gives the same archive as the record written at once, as long as all the
scopes can be open. Where they cannot, the record lies too deep to be stored. -/
namespace GraphSnapshot

namespace Value

mutual
/-- How many records stand one inside another, the value itself included. -/
def levels : Value → Nat
  | .record entries => levelsOf entries + 1
  | _ => 0

def levelsOf : List (String × Value) → Nat
  | [] => 0
  | (_, v) :: rest => max v.levels (levelsOf rest)
end

theorem exists_mem_of_levelsOf {entries : Record} {depth : Nat} (deep : levelsOf entries = depth + 1) :
    ∃ key inner, (key, .record inner) ∈ entries ∧ levelsOf inner = depth := by
  induction entries with
  | nil => cases deep
  | cons entry rest ih =>
      obtain ⟨key, v⟩ := entry
      rw [levelsOf] at deep
      by_cases here : v.levels = depth + 1
      · cases v with
        | record inner => exact ⟨key, inner, List.mem_cons_self, Nat.succ.inj here⟩
        | _ => cases here
      · obtain ⟨key, inner, member, same⟩ := ih (by omega)
        exact ⟨key, inner, List.mem_cons_of_mem _ member, same⟩

end Value

/-- Some path leads as deep into a record as it has levels. -/
theorem Record.exists_inside?_of_levels {record : Record} {depth : Nat}
    (well : (Value.record record).WellFormed) (deep : Value.levelsOf record = depth) :
    ∃ path found, path.length = depth ∧ record.inside? path = some found := by
  induction depth generalizing record with
  | zero => exact ⟨[], record, rfl, rfl⟩
  | succ depth ih =>
      obtain ⟨key, inner, member, same⟩ := Value.exists_mem_of_levelsOf deep
      obtain ⟨distinct, values⟩ := Value.wellFormed_record_iff.mp well
      obtain ⟨path, found, length, lies⟩ := ih (values key _ member) same
      refine ⟨key :: path, found, congrArg Nat.succ length, ?_⟩
      exact Record.inside?_cons_eq_some_iff.mpr ⟨inner, Entries.get?_of_mem distinct member, lies⟩

namespace Archive

mutual
/-- Writes a value under a key, a record by way of a scope of its own. -/
def emit (key : String) : Value → Action Unit
  | .record entries => do
    enterScope key
    emitAll entries
    leaveScope
  | v => write key v

def emitAll : List (String × Value) → Action Unit
  | [] => return ()
  | (key, v) :: rest => do
    emit key v
    emitAll rest
end

section
variable {a : Archive} {key : String}

theorem perform_enterScope_of_free (writing : a.isWriting = true) (free : key ∉ a.current.keys)
    (shallow : a.depth < maxDepth) :
    a.perform (enterScope key) = (.ok (), { a with scopes := ⟨key, []⟩ :: a.scopes }) :=
  perform_enterScope_eq_ok_iff.mpr ⟨[], opened_of_free writing free shallow, rfl⟩

theorem perform_enterScope_of_full (full : maxDepth ≤ a.depth) :
    a.perform (enterScope key) = (.error (.violation (.scopeTooDeep key maxDepth)), a) := by
  rw [perform_enterScope, opened, if_pos full]
  rfl

end

-- The recursion is that of `emit`, in the scope that is current at each entry.
mutual
theorem perform_emit (v : Value) {a : Archive} {key : String} (writing : a.isWriting = true)
    (free : key ∉ a.current.keys) (well : v.WellFormed) (fits : a.depth + v.levels ≤ maxDepth) :
    a.perform (emit key v) = (.ok (), a.extend [(key, v)]) := by
  cases v with
  | record entries =>
      rw [Value.levels] at fits
      have entered := perform_enterScope_of_free writing free (by omega)
      have deeper : depth { a with scopes := ⟨key, []⟩ :: a.scopes } = a.depth + 1 := rfl
      have filled := perform_emitAll entries (a := { a with scopes := ⟨key, []⟩ :: a.scopes })
        writing well (fun _ _ => List.not_mem_nil) (by omega)
      have closed := perform_leaveScope_of_free
        (a := extend { a with scopes := ⟨key, []⟩ :: a.scopes } entries) writing rfl free
      rw [emit, perform_bind_of_ok entered, perform_bind_of_ok filled, closed]
      rfl
  | _ => exact perform_write_of_free writing free _

theorem perform_emitAll (entries : List (String × Value)) {a : Archive}
    (writing : a.isWriting = true) (well : (Value.record entries).WellFormed)
    (free : ∀ key ∈ Entries.keys entries, key ∉ a.current.keys)
    (fits : a.depth + Value.levelsOf entries ≤ maxDepth) :
    a.perform (emitAll entries) = (.ok (), a.extend entries) := by
  cases entries with
  | nil =>
      rw [extend_nil]
      rfl
  | cons entry rest =>
      obtain ⟨key, v⟩ := entry
      obtain ⟨distinct, here, later⟩ := well
      obtain ⟨apart, distinct⟩ := List.nodup_cons.mp distinct
      obtain ⟨freeHere, freeLater⟩ := List.forall_mem_cons.mp free
      rw [Value.levelsOf] at fits
      have first := perform_emit v writing freeHere here (by omega)
      have others := perform_emitAll rest (a := a.extend [(key, v)])
        (by rw [isWriting_extend, writing]) ⟨distinct, later⟩ (free_extend apart freeLater v)
        (by rw [depth_extend]; omega)
      rw [emitAll, perform_bind_of_ok first, others, extend_extend]
      rfl
end

mutual
/-- Where a scope would be one too many, emitting stops with a violation. -/
theorem exists_tooDeep_of_emit (v : Value) {a : Archive} {key : String}
    (writing : a.isWriting = true) (free : key ∉ a.current.keys) (well : v.WellFormed)
    (shallow : a.depth ≤ maxDepth) (deep : maxDepth < a.depth + v.levels) :
    ∃ name, (a.perform (emit key v)).1 = .error (.violation (.scopeTooDeep name maxDepth)) := by
  cases v with
  | record entries =>
      rw [Value.levels] at deep
      rw [emit]
      by_cases full : maxDepth ≤ a.depth
      · refine ⟨key, perform_bind_of_error ?_ _⟩
        rw [perform_enterScope_of_full full]
      · have entered := perform_enterScope_of_free writing free (Nat.lt_of_not_le full)
        have deeper : depth { a with scopes := ⟨key, []⟩ :: a.scopes } = a.depth + 1 := rfl
        obtain ⟨name, stopped⟩ := exists_tooDeep_of_emitAll entries
          (a := { a with scopes := ⟨key, []⟩ :: a.scopes }) writing well
          (fun _ _ => List.not_mem_nil) (by omega) (by omega)
        rw [perform_bind_of_ok entered]
        exact ⟨name, perform_bind_of_error stopped _⟩
  | _ =>
      have none : a.depth + 0 ≤ maxDepth := shallow
      exact absurd deep (Nat.not_lt.mpr none)

theorem exists_tooDeep_of_emitAll (entries : List (String × Value)) {a : Archive}
    (writing : a.isWriting = true) (well : (Value.record entries).WellFormed)
    (free : ∀ key ∈ Entries.keys entries, key ∉ a.current.keys) (shallow : a.depth ≤ maxDepth)
    (deep : maxDepth < a.depth + Value.levelsOf entries) :
    ∃ name, (a.perform (emitAll entries)).1 = .error (.violation (.scopeTooDeep name maxDepth)) := by
  cases entries with
  | nil => exact absurd deep (Nat.not_lt.mpr shallow)
  | cons entry rest =>
      obtain ⟨key, v⟩ := entry
      obtain ⟨distinct, here, later⟩ := well
      obtain ⟨apart, distinct⟩ := List.nodup_cons.mp distinct
      obtain ⟨freeHere, freeLater⟩ := List.forall_mem_cons.mp free
      rw [Value.levelsOf] at deep
      rw [emitAll]
      by_cases fits : a.depth + v.levels ≤ maxDepth
      · rw [perform_bind_of_ok (perform_emit v writing freeHere here fits)]
        exact exists_tooDeep_of_emitAll rest (a := a.extend [(key, v)])
          (by rw [isWriting_extend, writing]) ⟨distinct, later⟩ (free_extend apart freeLater v)
          (by rw [depth_extend]; exact shallow) (by rw [depth_extend]; omega)
      · obtain ⟨name, stopped⟩ :=
          exists_tooDeep_of_emit v writing freeHere here shallow (Nat.lt_of_not_le fits)
        exact ⟨name, perform_bind_of_error stopped _⟩
end

theorem exists_closed_of_leaves [Zlib] {a : Archive} (reachable : a.Reachable) {keys : List String}
    (all : keys.length = a.depth) (path : List String) :
    ∃ closed, a.perform (keys.forM fun _ => leaveScope) = (.ok (), closed) ∧ closed.depth = 0 ∧
      Relation.ReflTransGen (Spares [] path) a closed := by
  induction keys generalizing a with
  | nil => exact ⟨a, rfl, all.symm, .refl⟩
  | cons key rest ih =>
      obtain ⟨scope, outer, open_⟩ := List.exists_cons_of_length_eq_add_one all.symm
      obtain ⟨after, left⟩ := perform_leaveScope_of_cons reachable open_
      have next : Spares [] path a (a.perform leaveScope).2 :=
        .leaveScope fun _ _ _ _ => List.not_mem_nil
      have fewer := depth_perform_leaveScope a
      have further := reachable.perform .leaveScope
      rw [left] at next fewer further
      rw [List.length_cons] at all
      obtain ⟨closed, leaves, none, run⟩ := ih further (by omega)
      refine ⟨closed, ?_, none, .head next run⟩
      rw [List.forM, perform_bind_of_ok left, leaves]

theorem exists_at_of_extend {a : Archive} {key : String} (free : key ∉ a.current.keys)
    {record : Record} (well : (Value.record record).WellFormed) :
    ∃ path found, path.length = a.depth + (Value.record record).levels ∧
      (a.extend [(key, .record record)]).At path found := by
  obtain ⟨rest, found, length, lies⟩ := Record.exists_inside?_of_levels well rfl
  have entry : (a.extend [(key, .record record)]).current.get? key = some (.record record) := by
    rw [current_extend, Entries.get?_append_of_not_mem free, Entries.get?_singleton]
  have held := at_of_inside? (Record.inside?_cons_eq_some_iff.mpr ⟨record, entry, lies⟩)
  refine ⟨_, found, ?_, held⟩
  rw [path_extend, List.length_append, length_path, List.length_cons, length, Value.levels]

/-- A record that lies in an archive has its path in whatever the archive is closed to, and if the
path is too long, the closed archive cannot be stored. -/
theorem exists_violation_of_at [Zlib] {a closed : Archive} (writing : a.isWriting = true)
    (free : a.KeysFree) {path : List String} {record : Record} (lies : a.At path record)
    (deep : Payload.maxDepth < path.length)
    (run : Relation.ReflTransGen (Spares [] path) a closed) (done : closed.depth = 0) :
    ∃ violation, closed.toBytes = .error (.violation violation) := by
  obtain ⟨after, lies, _⟩ := exists_at_of_spares run writing free lies
  have still := (changes_of_spares run).isWriting.trans writing
  refine exists_violation_of_not_encodable still done fun encodable => ?_
  have short := Record.length_le_of_inside? encodable (lies.of_nil (List.length_eq_zero_iff.mp done))
  exact absurd deep (Nat.not_lt.mpr short)

/-- Emitting a record by way of scopes is the same as writing it. If all the scopes can be open, the
archive is the same after both, and whatever follows gives the same bytes. If there would be too many,
emitting stops with a violation; the record can then still be written at once, but it lies so deep
that no archive it is in has bytes, whatever else is written until all scopes are closed. -/
theorem emit_eq_write [Zlib] {a : Archive} (reachable : a.Reachable) (writing : a.isWriting = true)
    {key : String} (free : key ∉ a.current.keys) {record : Record}
    (well : (Value.record record).WellFormed) :
    (a.depth + (Value.record record).levels ≤ maxDepth →
      a.perform (emit key (.record record)) = (.ok (), a.extend [(key, .record record)]) ∧
      a.perform (write key (.record record)) = (.ok (), a.extend [(key, .record record)]) ∧
      ∀ finish : Action Unit,
        (a.perform (do emit key (.record record); finish)).2.toBytes =
          (a.perform (do write key (.record record); finish)).2.toBytes) ∧
    (maxDepth < a.depth + (Value.record record).levels →
      (∃ name, (a.perform (emit key (.record record))).1 =
        .error (.violation (.scopeTooDeep name maxDepth))) ∧
      ∃ written, a.perform (write key (.record record)) = (.ok (), written) ∧
        (∃ closed violation,
          written.perform (a.path.forM fun _ => leaveScope) = (.ok (), closed) ∧
          closed.depth = 0 ∧ closed.toBytes = .error (.violation violation)) ∧
        ∀ path closed, Relation.ReflTransGen (Spares [] path) written closed → closed.depth = 0 →
          ∃ violation, closed.toBytes = .error (.violation violation)) := by
  have written := perform_write_of_free writing free (.record record)
  refine ⟨?_, ?_⟩
  · intro fits
    have emitted := perform_emit (.record record) writing free well fits
    refine ⟨emitted, written, ?_⟩
    intro finish
    rw [perform_bind_of_ok emitted, perform_bind_of_ok written]
  · intro deep
    refine ⟨exists_tooDeep_of_emit _ writing free well reachable.depth_le deep, _, written, ?_⟩
    have stored : (a.extend [(key, .record record)]).Reachable := by
      have next := reachable.perform (.write key well)
      rwa [written] at next
    have open_ : (a.extend [(key, .record record)]).isWriting = true := by
      rw [isWriting_extend, writing]
    obtain ⟨deepest, found, length, lies⟩ := exists_at_of_extend free well
    have refused {path : List String} {closed : Archive}
        (run : Relation.ReflTransGen (Spares [] path) (a.extend [(key, .record record)]) closed)
        (done : closed.depth = 0) : ∃ violation, closed.toBytes = .error (.violation violation) := by
      refine exists_violation_of_at open_ (stored.keysFree open_) lies (length ▸ deep) ?_ done
      exact Relation.ReflTransGen.mono (fun _ _ step => Spares.of_nil step deepest) _ _ run
    refine ⟨?_, fun path closed => refused⟩
    have all : a.path.length = (a.extend [(key, .record record)]).depth := by
      rw [length_path, depth_extend]
    obtain ⟨closed, leaves, done, run⟩ := exists_closed_of_leaves stored all []
    obtain ⟨violation, stopped⟩ := refused run done
    exact ⟨closed, violation, leaves, done, stopped⟩

/-- Where 63 scopes are open, one more level fits and two do not. -/
theorem emit_eq_write_limit :
    let _ := Zlib.sample
    let a : Archive := ⟨.writing {}, [], List.replicate 63 ⟨"k", []⟩⟩
    let deep : Record := [("in", .record [])]
    a.perform (emit "r" (.record [])) = a.perform (write "r" (.record [])) ∧
      (∃ name, (a.perform (emit "r" (.record deep))).1 =
        .error (.violation (.scopeTooDeep name maxDepth))) ∧
      ∃ written closed violation, a.perform (write "r" (.record deep)) = (.ok (), written) ∧
        written.perform (a.path.forM fun _ => leaveScope) = (.ok (), closed) ∧
        closed.toBytes = .error (.violation violation) := by
  intro known a deep
  have enters : ComposedWith Value.WellFormed ((List.replicate 63 "k").forM enterScope) :=
    composedWith_list_forM fun _ _ => .enterScope _
  have entered : ((writer {}).perform ((List.replicate 63 "k").forM enterScope)).2 = a := by
    decide +kernel
  have reachable : a.Reachable :=
    entered ▸ (Reachable.writer {}).perform enters
  have free : "r" ∉ a.current.keys := List.not_mem_nil
  have shallowWell := Value.wellFormed_record_nil
  have deepWell : (Value.record deep).WellFormed := Value.wellFormed_record_singleton shallowWell
  obtain ⟨emitted, written, _⟩ := (emit_eq_write reachable rfl free shallowWell).1 (by decide)
  obtain ⟨stopped, stored, performed, ⟨closed, violation, leaves, _, refused⟩, _⟩ :=
    (emit_eq_write reachable rfl free deepWell).2 (by decide)
  exact ⟨emitted.trans written.symm, stopped, stored, closed, violation, performed, leaves, refused⟩

end Archive
end GraphSnapshot
