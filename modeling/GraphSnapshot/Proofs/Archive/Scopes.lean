import GraphSnapshot.Proofs.Archive.Adding
import GraphSnapshot.Proofs.Archive.Looking

/-! Open scopes. While an archive is written, the scope around an open scope has no entry of its key,
so closing a scope cannot fail once there is one, and no operation that fails changes an archive. -/
namespace GraphSnapshot.Archive

theorem Changes.keeps {p : Archive → Prop} (kept : ∀ a b, Change a b → p a → p b) {a b : Archive}
    (h : Changes a b) (start : p a) : p b := by
  induction h with
  | refl => exact start
  | tail _ last ih => exact kept _ _ last ih

/-- What holds of new archives and of archives that are opened, and is kept by every change, holds of
all archives that come about. -/
theorem Reachable.invariant [Zlib] {p : Archive → Prop} (new : ∀ options, p (Archive.writer options))
    (opened : ∀ header root, p ⟨.reading header, root, []⟩) (kept : ∀ a b, Change a b → p a → p b)
    {a : Archive} (h : a.Reachable) : p a := by
  induction h with
  | writer options => exact new options
  | opened h =>
      obtain ⟨header, stored, rfl, version⟩ := exists_header_of_ofBytes h
      obtain ⟨_, _, _, root, _, _, rfl⟩ := (ofBytes_append_eq_ok_iff version).mp h
      exact opened header root
  | perform _ composed ih => exact Changes.keeps kept (composed.changes _) ih

def Throughout (p : Record → Scope → Prop) (a : Archive) : Prop :=
  ∀ scope outer, scope :: outer <:+ a.scopes → p (current { a with scopes := outer }) scope

section
variable {p : Record → Scope → Prop} {a : Archive}

theorem throughout_of_nil (closed : a.scopes = []) : a.Throughout p := by
  intro scope outer suffix
  rw [closed] at suffix
  cases List.suffix_nil.mp suffix

theorem Throughout.of_suffix (holds : a.Throughout p) {scopes : List Scope}
    (outermost : scopes <:+ a.scopes) : Throughout p { a with scopes } := by
  intro scope outer suffix
  exact holds scope outer (suffix.trans outermost)

theorem Throughout.enter (holds : a.Throughout p) {scope : Scope} (new : p a.current scope) :
    Throughout p { a with scopes := scope :: a.scopes } := by
  intro other outer suffix
  rcases List.suffix_cons_iff.mp suffix with same | suffix
  · obtain ⟨rfl, rfl⟩ := List.cons.inj same
    exact new
  · exact holds other outer suffix

end

/-- The key of each open scope is free in the scope around it. -/
def KeysFree (a : Archive) : Prop :=
  ∀ scope outer, scope :: outer <:+ a.scopes →
    scope.key ∉ (current { a with scopes := outer }).keys

theorem keysFree_iff {a : Archive} :
    a.KeysFree ↔ a.Throughout fun around scope => scope.key ∉ around.keys := Iff.rfl

theorem KeysFree.extend {a : Archive} (free : a.KeysFree) (more : Record) :
    (a.extend more).KeysFree := by
  obtain ⟨mode, root, scopes⟩ := a
  rw [keysFree_iff] at free ⊢
  cases scopes with
  | nil => exact throughout_of_nil rfl
  | cons scope outer =>
      have outside := free.of_suffix (List.suffix_cons scope outer)
      exact outside.enter (free scope outer (List.suffix_refl _))

theorem Change.mode {a b : Archive} (h : Change a b) : b.mode = a.mode := by
  cases h with
  | write | close => exact mode_extend _ _
  | enter | drop => rfl

theorem Change.keysFree {a b : Archive} (h : Change a b) (writing : a.isWriting = true)
    (free : a.KeysFree) : b.KeysFree := by
  cases h with
  | write => exact free.extend _
  | enter opened => exact (keysFree_iff.mp free).enter (not_mem_keys_of_opened writing opened)
  | close =>
      have outside : a.outside.KeysFree := (keysFree_iff.mp free).of_suffix (List.tail_suffix _)
      exact outside.extend _
  | drop => exact (keysFree_iff.mp free).of_suffix (List.drop_suffix _ _)

theorem Change.isWriting {a b : Archive} (h : Change a b) : b.isWriting = a.isWriting := by
  rw [Archive.isWriting, h.mode, Archive.isWriting]

theorem Changes.isWriting {a b : Archive} (h : Changes a b) : b.isWriting = a.isWriting := by
  refine h.keeps (p := fun c => c.isWriting = a.isWriting) ?_ rfl
  intro c d change same
  exact change.isWriting.trans same

theorem Changes.keysFree {a b : Archive} (h : Changes a b) (writing : a.isWriting = true)
    (free : a.KeysFree) : b.KeysFree := by
  refine (h.keeps (p := fun c => c.isWriting = true ∧ c.KeysFree) ?_ ⟨writing, free⟩).2
  intro c d change ⟨writing, free⟩
  exact ⟨change.isWriting.trans writing, change.keysFree writing free⟩

theorem Reachable.keysFree [Zlib] {a : Archive} (h : a.Reachable) : a.isWriting = true → a.KeysFree := by
  refine h.invariant (p := fun a => a.isWriting = true → a.KeysFree) ?_ ?_ ?_
  · intro options _
    exact keysFree_iff.mpr (throughout_of_nil rfl)
  · intro header root reading
    cases reading
  · intro a b change free writing
    have writing : a.isWriting = true := change.isWriting ▸ writing
    exact change.keysFree writing (free writing)

/-- In an archive that comes about, closing fails only if nothing is open. -/
theorem perform_leaveScope_of_cons [Zlib] {a : Archive} (reachable : a.Reachable) {scope : Scope}
    {outer : List Scope} (open_ : a.scopes = scope :: outer) :
    ∃ after, a.perform leaveScope = (.ok (), after) := by
  cases writing : a.isWriting with
  | true =>
      have free := reachable.keysFree writing scope outer (open_ ▸ List.suffix_refl _)
      exact ⟨_, perform_leaveScope_of_free writing open_ free⟩
  | false => exact ⟨_, perform_leaveScope_of_reading writing open_⟩

inductive Operation : {α : Type} → Action α → Prop
  | write (key : String) (value : Value) : Operation (write key value)
  | read (key : String) : Operation (read key)
  | enterScope (key : String) : Operation (enterScope key)
  | leaveScope : Operation leaveScope

theorem unchanged_of_write_error {a after : Archive} {key : String} {value : Value} {fault : Fault}
    (h : a.perform (write key value) = (.error fault, after)) : after = a := by
  rw [perform_write] at h
  split at h
  · split at h
    · cases h
    · exact (Prod.mk.inj h).2.symm
  · exact (Prod.mk.inj h).2.symm

/-- An operation that fails leaves an archive as it was. Closing a scope fails only if no scope is
open, since the key of an open scope is free in the scope around it. -/
theorem unchanged_of_operation_error [Zlib] {a : Archive} (reachable : a.Reachable) :
    (∀ {α : Type} {action : Action α}, Operation action → ∀ fault after,
      a.perform action = (.error fault, after) → after = a) ∧
    ((∃ fault after, a.perform leaveScope = (.error fault, after)) ↔ a.depth = 0) ∧
    (a.isWriting = true → ∀ scope outer, scope :: outer <:+ a.scopes →
      scope.key ∉ (current { a with scopes := outer }).keys) := by
  refine ⟨?_, ?_, reachable.keysFree⟩
  · intro α action operation fault after h
    cases operation with
    | write key value => exact unchanged_of_write_error h
    | read key =>
        rw [perform_read] at h
        exact (Prod.mk.inj h).2.symm
    | enterScope key =>
        rw [perform_enterScope] at h
        split at h
        · cases h
        · exact (Prod.mk.inj h).2.symm
    | leaveScope =>
        cases open_ : a.scopes with
        | nil =>
            rw [perform_leaveScope_nil open_] at h
            exact (Prod.mk.inj h).2.symm
        | cons scope outer =>
            obtain ⟨_, closed⟩ := perform_leaveScope_of_cons reachable open_
            cases closed.symm.trans h
  · rw [depth, List.length_eq_zero_iff]
    constructor
    · rintro ⟨fault, after, h⟩
      cases open_ : a.scopes with
      | nil => rfl
      | cons scope outer =>
          obtain ⟨_, closed⟩ := perform_leaveScope_of_cons reachable open_
          cases closed.symm.trans h
    · intro closed
      exact ⟨_, _, perform_leaveScope_nil closed⟩

/-- A name that is taken in an open scope, whose key is not taken outside. -/
theorem unchanged_of_operation_error_taken :
    let a : Archive := ⟨.writing {}, [("k", .int 1)], [⟨"outer", [("k", .bool true)]⟩]⟩
    (∃ fault after, a.perform (write "k" (.int 2)) = (.error fault, after) ∧ after = a) ∧
      (¬∃ fault after, a.perform leaveScope = (.error fault, after)) ∧
      "outer" ∉ Entries.keys a.root := by
  intro a
  let _ := Zlib.sample
  have composed : Composed (do
      write "k" (.int 1)
      enterScope "outer"
      write "k" (.bool true)) :=
    .bind (.write "k" trivial) fun _ => .bind (.enterScope "outer") fun _ => .write "k" trivial
  have reachable : a.Reachable := (Reachable.writer {}).perform composed
  obtain ⟨unchanged, closing, free⟩ := unchanged_of_operation_error reachable
  obtain ⟨fault, after, failed⟩ :
      ∃ fault after, a.perform (write "k" (.int 2)) = (.error fault, after) := ⟨_, _, rfl⟩
  refine ⟨⟨fault, after, failed, unchanged (.write "k" (.int 2)) fault after failed⟩, ?_, ?_⟩
  · intro fails
    cases closing.mp fails
  · exact free rfl _ [] (List.suffix_refl _)

end GraphSnapshot.Archive
