import GraphSnapshot.Archive.Actions

/-! What each action makes of an archive: its outcome, and the archive that it hands on. -/
namespace GraphSnapshot.Archive
variable {α β : Type}

theorem perform_pure (a : Archive) (x : α) : a.perform (pure x) = (.ok x, a) := rfl

theorem perform_throw (a : Archive) (fault : Fault) :
    a.perform (throw fault : Action α) = (.error fault, a) := rfl

theorem perform_lift (a : Archive) (e : Except Fault α) : a.perform (liftM e) = (e, a) := rfl

theorem perform_get (a : Archive) : a.perform get = (.ok a, a) := rfl

theorem perform_bind (a : Archive) (action : Action α) (next : α → Action β) :
    a.perform (action >>= next) =
      match a.perform action with
      | (.ok x, after) => after.perform (next x)
      | (.error fault, after) => (.error fault, after) := by
  have run : (action >>= next).run.run a =
      match action.run.run a with
      | (.ok x, after) => (next x).run.run after
      | (.error fault, after) => (.error fault, after) := by
    rw [ExceptT.run_bind, StateT.run_bind]
    generalize action.run.run a = r
    obtain ⟨r, after⟩ := r
    cases r <;> rfl
  exact run

/-- What holds after the first part of a run, and is kept by whatever comes next, holds after the run.
What the first part did stays, also where it failed. -/
theorem perform_bind_keeps {P : Archive → Prop} {a : Archive} {action : Action α}
    {next : α → Action β} (first : P (a.perform action).2)
    (later : ∀ x after, a.perform action = (.ok x, after) → P after →
      P (after.perform (next x)).2) : P (a.perform (action >>= next)).2 := by
  rw [perform_bind]
  split
  · next x after performed =>
    rw [performed] at first
    exact later x after performed first
  · next fault after performed =>
    rw [performed] at first
    exact first

theorem perform_bind_of_ok {a after : Archive} {action : Action α} {x : α}
    (first : a.perform action = (.ok x, after)) (next : α → Action β) :
    a.perform (action >>= next) = after.perform (next x) := by
  rw [perform_bind, first]

theorem perform_bind_of_error {a : Archive} {action : Action α} {fault : Fault}
    (failed : (a.perform action).1 = .error fault) (next : α → Action β) :
    (a.perform (action >>= next)).1 = .error fault := by
  rw [perform_bind]
  generalize a.perform action = result at failed ⊢
  obtain ⟨_, after⟩ := result
  cases failed
  rfl

theorem exists_of_bind_error {a after : Archive} {action : Action α} {next : α → Action β}
    {fault : Fault} (failed : a.perform (action >>= next) = (.error fault, after)) :
    a.perform action = (.error fault, after) ∨
      ∃ x middle, a.perform action = (.ok x, middle) ∧
        middle.perform (next x) = (.error fault, after) := by
  rw [perform_bind] at failed
  split at failed
  · next x middle performed => exact .inr ⟨x, middle, performed, failed⟩
  · next other stopped performed =>
    cases failed
    exact .inl performed

/-- Steps that are done one after another fail at the first that fails, on what the steps before it
have made. -/
theorem exists_of_forM_error {step : α → Action Unit} {xs : List α} {a after : Archive}
    {fault : Fault} (failed : a.perform (xs.forM step) = (.error fault, after)) :
    ∃ front x back before, xs = front ++ x :: back ∧
      a.perform (front.forM step) = (.ok (), before) ∧
      before.perform (step x) = (.error fault, after) := by
  induction xs generalizing a with
  | nil => cases failed
  | cons x rest ih =>
      rw [List.forM] at failed
      rcases exists_of_bind_error failed with stopped | ⟨_, middle, performed, failed⟩
      · exact ⟨[], x, rest, a, rfl, rfl, stopped⟩
      · obtain ⟨front, y, back, before, rfl, first, last⟩ := ih failed
        refine ⟨x :: front, y, back, before, rfl, ?_, last⟩
        rw [List.forM, perform_bind_of_ok performed, first]

theorem perform_write (a : Archive) (key : String) (value : Value) :
    a.perform (write key value) =
      if a.isWriting then
        match a.current.insert key value with
        | .ok entries => (.ok (), a.withCurrent entries)
        | .error fault => (.error fault, a)
      else (.error (.misuse .writeWhileReading), a) := by
  simp only [write]
  rw [perform_bind]
  change (a.perform (if a.isWriting then _ else _)) = _
  split
  · rw [perform_bind]
    cases h : a.current.insert key value <;> rfl
  · rfl

theorem perform_read (a : Archive) (key : String) :
    a.perform (read key) =
      (if a.isWriting then .error (.misuse .readWhileWriting) else a.current.require key, a) := by
  simp only [read]
  rw [perform_bind]
  change (a.perform (if a.isWriting then _ else _)) = _
  split <;> rfl

theorem perform_contains (a : Archive) (key : String) :
    a.perform (contains key) = (.ok (a.current.contains key), a) := rfl

theorem perform_keys (a : Archive) : a.perform keys = (.ok a.current.keys, a) := rfl

theorem perform_enterScope (a : Archive) (key : String) :
    a.perform (enterScope key) =
      match a.opened key with
      | .ok entries => (.ok (), { a with scopes := ⟨key, entries⟩ :: a.scopes })
      | .error fault => (.error fault, a) := by
  simp only [enterScope]
  rw [perform_bind]
  change a.perform (liftM (a.opened key) >>= _) = _
  rw [perform_bind, perform_lift]
  cases a.opened key <;> rfl

theorem perform_leaveScope_nil {a : Archive} (h : a.scopes = []) :
    a.perform leaveScope = (.error (.misuse .noOpenScope), a) := by
  simp only [leaveScope, perform_bind, perform_get, h, perform_throw]

theorem perform_leaveScope_cons {a : Archive} {scope : Scope} {outer : List Scope}
    (h : a.scopes = scope :: outer) :
    a.perform leaveScope =
      let closed := { a with scopes := outer }
      if a.isWriting then closed.perform (write scope.key (.record scope.entries))
      else (.ok (), closed) := by
  simp only [leaveScope, perform_bind, perform_get, h]
  change Archive.perform { a with scopes := outer } (if a.isWriting then _ else _) = _
  split <;> rfl

theorem perform_settle_error (a : Archive) (depth : Nat) (fault : Fault) :
    a.perform (settle depth (.error fault) : Action α) = (.error fault, a.truncate depth) := rfl

theorem perform_settle_ok (a : Archive) (depth : Nat) (x : α) :
    a.perform (settle depth (.ok x)) =
      match a.perform leaveScope with
      | (.ok (), after) => (.ok x, after)
      | (.error fault, after) => (.error fault, after) := by
  simp only [settle]
  rw [perform_bind]
  split <;> simp_all [perform_pure]

theorem perform_settle_ok_snd (a : Archive) (depth : Nat) (x : α) :
    (a.perform (settle depth (.ok x))).2 = (a.perform leaveScope).2 := by
  rw [perform_settle_ok]
  split
  · next after performed => rw [performed]
  · next fault after performed => rw [performed]

theorem perform_within (a : Archive) (key : String) (body : Action α) :
    a.perform (within key body) =
      match a.opened key with
      | .ok entries =>
        let (outcome, after) := { a with scopes := ⟨key, entries⟩ :: a.scopes }.perform body
        after.perform (settle a.depth outcome)
      | .error fault => (.error fault, a) := by
  simp only [within]
  rw [perform_bind]
  change a.perform (enterScope key >>= _) = _
  rw [perform_bind, perform_enterScope]
  cases a.opened key with
  | error fault => rfl
  | ok entries => rfl

end GraphSnapshot.Archive
