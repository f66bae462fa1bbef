import GraphSnapshot.Proofs.Archive.Reachable

/-! Adding entries. Writes of new names add their entries one after another, and a scope in which
entries are written becomes one entry of the scope around it. -/
namespace GraphSnapshot.Archive

@[simp] theorem current_extend (a : Archive) (more : Record) :
    (a.extend more).current = a.current ++ more := by
  obtain ⟨mode, root, scopes⟩ := a
  cases scopes <;> rfl

@[simp] theorem extend_nil (a : Archive) : a.extend [] = a := by
  obtain ⟨mode, root, scopes⟩ := a
  cases scopes with
  | nil => simp only [extend, withCurrent, current, List.append_nil]
  | cons scope outer => simp only [extend, withCurrent, current, List.append_nil]

theorem extend_eq_self_iff {a : Archive} {more : Record} : a.extend more = a ↔ more = [] := by
  constructor
  · intro same
    have entries := congrArg current same
    rw [current_extend] at entries
    exact List.append_right_eq_self.mp entries
  · rintro rfl
    exact extend_nil a

@[simp] theorem extend_extend (a : Archive) (front back : Record) :
    (a.extend front).extend back = a.extend (front ++ back) := by
  obtain ⟨mode, root, scopes⟩ := a
  cases scopes with
  | nil => simp only [extend, withCurrent, current, List.append_assoc]
  | cons scope outer => simp only [extend, withCurrent, current, List.append_assoc]

@[simp] theorem mode_extend (a : Archive) (more : Record) : (a.extend more).mode = a.mode := by
  obtain ⟨mode, root, scopes⟩ := a
  cases scopes <;> rfl

@[simp] theorem isWriting_extend (a : Archive) (more : Record) :
    (a.extend more).isWriting = a.isWriting := by
  rw [isWriting, mode_extend, isWriting]

@[simp] theorem depth_extend (a : Archive) (more : Record) : (a.extend more).depth = a.depth := by
  obtain ⟨mode, root, scopes⟩ := a
  cases scopes <;> rfl

theorem perform_write_of_free {a : Archive} (writing : a.isWriting = true) {key : String}
    (free : key ∉ a.current.keys) (value : Value) :
    a.perform (write key value) = (.ok (), a.extend [(key, value)]) := by
  rw [perform_write, if_pos writing, Entries.insert_eq_ok_iff.mpr ⟨free, rfl⟩]
  rfl

theorem not_mem_keys_of_write {a after : Archive} {key : String} {value : Value}
    (h : a.perform (write key value) = (.ok (), after)) : key ∉ a.current.keys := by
  rw [perform_write] at h
  split at h
  · split at h
    · next added => exact (Entries.insert_eq_ok_iff.mp added).1
    · cases h
  · cases h

/-- Closing a scope whose key is free adds its entries, as one record, to the scope around it. -/
theorem perform_leaveScope_of_free {a : Archive} (writing : a.isWriting = true) {scope : Scope}
    {outer : List Scope} (open_ : a.scopes = scope :: outer)
    (free : scope.key ∉ (current { a with scopes := outer }).keys) :
    a.perform leaveScope =
      (.ok (), extend { a with scopes := outer } [(scope.key, .record scope.entries)]) := by
  rw [perform_leaveScope_cons open_]
  dsimp only
  rw [if_pos writing]
  exact perform_write_of_free (a := { a with scopes := outer }) writing free _

theorem free_extend {a : Archive} {key : String} {names : List String} (apart : key ∉ names)
    (free : ∀ name ∈ names, name ∉ a.current.keys) (value : Value) :
    ∀ name ∈ names, name ∉ (a.extend [(key, value)]).current.keys := by
  intro name member taken
  rw [current_extend, Entries.keys_append] at taken
  rcases List.mem_append.mp taken with old | new
  · exact free name member old
  · have same : name = key := List.mem_singleton.mp new
    exact apart (same ▸ member)

theorem perform_forM_write {β : Type} (toValue : β → Value) {a : Archive}
    (writing : a.isWriting = true) {items : Entries β} (distinct : items.Distinct)
    (free : ∀ key ∈ items.keys, key ∉ a.current.keys) :
    a.perform (items.forM fun item => write item.1 (toValue item.2)) =
      (.ok (), a.extend (items.map fun item => (item.1, toValue item.2))) := by
  induction items generalizing a with
  | nil =>
    rw [List.map_nil, extend_nil]
    rfl
  | cons item rest ih =>
    obtain ⟨apart, distinct⟩ := List.nodup_cons.mp distinct
    have first := perform_write_of_free writing (free item.1 List.mem_cons_self) (toValue item.2)
    have later := free_extend apart (fun key member => free key (List.mem_cons_of_mem _ member))
      (toValue item.2)
    rw [List.forM, perform_bind_of_ok first, ih (by rw [isWriting_extend, writing]) distinct later,
      extend_extend]
    rfl

theorem exists_opened_of_within {α : Type} {a after : Archive} {key : String} {body : Action α}
    {x : α} (h : a.perform (within key body) = (.ok x, after)) :
    ∃ entries, a.opened key = .ok entries := by
  rw [perform_within] at h
  split at h
  · next entries opened => exact ⟨entries, opened⟩
  · cases h

/-- What is written inside a new scope becomes one record in the scope around it. -/
theorem perform_within_of_extend {a : Archive} (writing : a.isWriting = true)
    (shallow : a.depth < maxDepth) {key : String} (free : key ∉ a.current.keys)
    {body : Action Unit} {more : Record}
    (fills : ∀ b : Archive, b.isWriting = true → b.current = [] →
      b.perform body = (.ok (), b.extend more)) :
    a.perform (within key body) = (.ok (), a.extend [(key, .record more)]) := by
  have filled := fills { a with scopes := ⟨key, []⟩ :: a.scopes } writing rfl
  have closed := perform_leaveScope_of_free
    (a := extend { a with scopes := ⟨key, []⟩ :: a.scopes } more) writing rfl free
  rw [perform_within, opened_of_free writing free shallow]
  dsimp only
  rw [filled, perform_settle_ok, closed]
  rfl

end GraphSnapshot.Archive
