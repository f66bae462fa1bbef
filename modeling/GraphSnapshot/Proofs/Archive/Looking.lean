import GraphSnapshot.Proofs.Archive.Reachable

/-! Looking at entries. Steps that leave an archive as it was have the outcome that comes of their
outcomes alone. -/
namespace GraphSnapshot.Archive
variable {α β γ : Type} {a : Archive}

theorem perform_bind_of_unchanged {action : Action α} {next : α → Action β}
    {found : Except Fault α} {finish : α → Except Fault β} (first : a.perform action = (found, a))
    (later : ∀ x, a.perform (next x) = (finish x, a)) :
    a.perform (action >>= next) = (found >>= finish, a) := by
  rw [perform_bind, first]
  cases found with
  | error fault => rfl
  | ok x => exact later x

theorem perform_foldlM_of_unchanged {step : β → γ → Action β} {find : β → γ → Except Fault β}
    (steps : ∀ y item, a.perform (step y item) = (find y item, a)) (y : β) (items : List γ) :
    a.perform (items.foldlM step y) = (items.foldlM find y, a) := by
  induction items generalizing y with
  | nil => rfl
  | cons item rest ih =>
      rw [List.foldlM_cons, List.foldlM_cons]
      exact perform_bind_of_unchanged (steps y item) ih

theorem perform_write_of_reading (reading : a.isWriting = false) (key : String) (value : Value) :
    a.perform (write key value) = (.error (.misuse .writeWhileReading), a) := by
  rw [perform_write, if_neg (ne_true_of_eq_false reading)]

theorem perform_leaveScope_of_reading (reading : a.isWriting = false) {scope : Scope}
    {outer : List Scope} (open_ : a.scopes = scope :: outer) :
    a.perform leaveScope = (.ok (), { a with scopes := outer }) := by
  rw [perform_leaveScope_cons open_]
  dsimp only
  rw [if_neg (ne_true_of_eq_false reading)]

end GraphSnapshot.Archive
