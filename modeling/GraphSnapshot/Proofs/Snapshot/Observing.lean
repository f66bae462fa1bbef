import GraphSnapshot.Proofs.Snapshot.Transaction

/-! Loading as looking. An archive that is read is left as it was by every run that closes the scopes it
opens, and one that is written refuses to be loaded from before anything is done. So a load can be
repeated, and whatever comes after it comes as if there had been no load. -/
namespace GraphSnapshot

namespace Archive
variable {α β : Type} {a : Archive}

/-- Runs one after another, each with its outcome. -/
def repeated (count : Nat) (action : Action α) : Action (List (Except Fault α)) :=
  (List.replicate count action).mapM outcome

theorem perform_outcome_of_unchanged {action : Action α} (unchanged : (a.perform action).2 = a) :
    a.perform (outcome action) = (.ok (a.perform action).1, a) := by
  change (Except.ok (a.perform action).1, (a.perform action).2) = _
  rw [unchanged]

theorem perform_repeated {action : Action α} (unchanged : (a.perform action).2 = a) (count : Nat) :
    a.perform (repeated count action) = (.ok (List.replicate count (a.perform action).1), a) := by
  induction count with
  | zero => rfl
  | succ count ih =>
      unfold repeated at ih ⊢
      rw [List.replicate_succ, List.mapM_cons,
        perform_bind_of_ok (perform_outcome_of_unchanged unchanged), perform_bind_of_ok ih]
      rfl

/-- In an archive that is read, the outcome of a run that closes what it opens comes of the outcomes of
its parts, each on the same archive. -/
theorem fst_perform_bind (reading : a.isWriting = false) {action : Action α} (nested : Nested action)
    (next : α → Action β) :
    (a.perform (action >>= next)).1 =
      (a.perform action).1 >>= fun x => (a.perform (next x)).1 := by
  have same := nested.unchanged_of_reading reading
  rw [perform_bind]
  generalize a.perform action = result at same ⊢
  obtain ⟨outcome, after⟩ := result
  obtain rfl : after = a := same
  cases outcome with
  | error fault => rfl
  | ok x => rfl

theorem fst_perform_forM (reading : a.isWriting = false) {step : α → Action Unit}
    (nested : ∀ x, Nested (step x)) (xs : List α) :
    (a.perform (xs.forM step)).1 = xs.forM fun x => (a.perform (step x)).1 := by
  induction xs with
  | nil => rfl
  | cons x rest ih =>
      rw [List.forM, fst_perform_bind reading (nested x)]
      exact congrArg _ (funext fun _ => ih)

end Archive

namespace Snapshot
open Archive

/-- The version is asked for first, and an archive that is written does not answer. -/
theorem perform_load_of_writing {a : Archive} (writing : a.isWriting = true) :
    a.perform load = (.error (.misuse .readWhileWriting), a) := by
  have refused : a.perform (read Field.version.key) = (.error (.misuse .readWhileWriting), a) := by
    rw [perform_read, if_pos writing]
  rw [load, perform_bind, refused]

theorem unchanged_of_load (a : Archive) : (a.perform load).2 = a := by
  cases mode : a.isWriting with
  | true => rw [perform_load_of_writing mode]
  | false => exact nested_load.unchanged_of_reading mode

theorem loadInto_eq (target : Graph) (a : Archive) :
    loadInto target a =
      match (a.perform load).1 with
      | .ok g => (.ok (), g, a)
      | .error fault => (.error fault, target, a) := by
  have same := unchanged_of_load a
  rw [loadInto]
  generalize a.perform load = result at same ⊢
  obtain ⟨outcome, after⟩ := result
  obtain rfl : after = a := same
  cases outcome with
  | error fault => rfl
  | ok g => rfl

/-- Loading leaves every archive as it was, read or written, whether it succeeds or fails and wherever it
fails, and so does loading into the place of another graph. Either can be repeated with one and the same
outcome, and a run that goes on from a load goes on as if there had been none. -/
theorem load_unchanging (a : Archive) :
    (a.perform load).2 = a ∧
    (∀ count, a.perform (repeated count load) =
      (.ok (List.replicate count (a.perform load).1), a)) ∧
    (∀ {β : Type} (next : Except Fault Graph → Action β),
      a.perform (outcome load >>= next) = a.perform (next (a.perform load).1)) ∧
    ∀ target, (loadInto target a).2.2 = a ∧
      loadInto (loadInto target a).2.1 (loadInto target a).2.2 = loadInto target a := by
  have unchanged := unchanged_of_load a
  refine ⟨unchanged, perform_repeated unchanged, ?_, ?_⟩
  · intro β next
    exact perform_bind_of_ok (perform_outcome_of_unchanged unchanged) next
  · intro target
    simp only [loadInto_eq]
    cases found : (a.perform load).1 with
    | error fault => exact ⟨rfl, by rw [found]⟩
    | ok g => exact ⟨rfl, by rw [found]⟩

end Snapshot
end GraphSnapshot
