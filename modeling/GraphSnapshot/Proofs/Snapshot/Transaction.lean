import GraphSnapshot.Proofs.Archive.Nesting
import GraphSnapshot.Proofs.Snapshot.Loading
import GraphSnapshot.Proofs.Snapshot.Saving

/-! Scopes as transactions. What runs inside a scope is kept as one record if it succeeds, and leaves
no trace if it fails. Saving and loading a graph can be parts of such a run. -/
namespace GraphSnapshot.Snapshot
open Archive
variable {α β : Type}

theorem nested_liftM (e : Except Fault α) : Nested (liftM e : Action α) := by
  cases e with
  | error fault => exact .throw fault
  | ok x => exact .pure x

theorem nested_list_forM {step : α → Action Unit} (steps : ∀ x, Nested (step x)) (xs : List α) :
    Nested (xs.forM step) := by
  induction xs with
  | nil => exact .pure ()
  | cons x rest ih => exact .bind (steps x) fun _ => ih

theorem nested_option_forM {step : α → Action Unit} (steps : ∀ x, Nested (step x)) (o : Option α) :
    Nested (o.forM step) := by
  cases o with
  | none => exact .pure ()
  | some x => exact steps x

theorem nested_foldlM {step : β → α → Action β} (steps : ∀ y x, Nested (step y x)) (y : β)
    (xs : List α) : Nested (xs.foldlM step y) := by
  induction xs generalizing y with
  | nil => exact .pure y
  | cons x rest ih => exact .bind (steps y x) ih

theorem nested_saveField (g : Graph) (f : Field) : Nested (saveField g f) := by
  cases f with
  | version | rowOffsets | colIndices => exact .write _ _
  | nodeTypeOffset | typePerEdge => exact nested_option_forM (fun _ => .write _ _) _
  | nodeTypeToId | edgeTypeToId | nodeAttributes | edgeAttributes =>
      refine nested_option_forM (fun _ => .within _ ?_) _
      exact nested_list_forM (fun _ => .write _ _) _

theorem nested_save (g : Graph) : Nested (save g) := by
  rw [save_eq_forM]
  exact nested_list_forM (nested_saveField g) _

theorem nested_loadVector (field : Field) (t : ElementType) : Nested (loadVector field t) := by
  refine .bind (.read _) fun v => ?_
  split
  · split
    · exact nested_liftM _
    · exact .throw _
  · exact .throw _

theorem nested_loadInts (field : Field) : Nested (loadInts field) :=
  .bind (nested_loadVector field .int64) fun _ => .pure _

theorem nested_loadBytes (field : Field) : Nested (loadBytes field) :=
  .bind (nested_loadVector field .uint8) fun _ => .pure _

theorem nested_loadRecord (field : Field) : Nested (loadRecord field) := by
  refine .within _ (.bind (.bind .get fun _ => .pure _) fun names => ?_)
  exact nested_foldlM (fun _ _ => .bind (.read _) fun _ => nested_liftM _) _ _

theorem nested_loadTypeIds (field : Field) : Nested (loadTypeIds field) := by
  refine .bind (nested_loadRecord field) fun _ => nested_foldlM ?_ _ _
  rintro ids ⟨name, value⟩
  cases value with
  | int id => exact .pure _
  | _ => exact .throw _

theorem nested_loadTable (field : Field) (owner : Owner) : Nested (loadTable field owner) :=
  .bind (nested_loadRecord field) fun _ => nested_liftM _

theorem nested_optional (field : Field) {load : Action α} (loads : Nested load) :
    Nested (optional field load) := by
  refine .bind (.bind .get fun _ => .pure _) fun found => ?_
  split
  · exact .bind loads fun _ => .pure _
  · exact .pure none

theorem nested_loadVersion : Nested loadVersion := by
  refine .bind (.read _) fun _ => .bind (nested_liftM _) fun stated => ?_
  split
  · exact .throw _
  · exact .pure ()

theorem nested_loadBare : Nested loadBare :=
  .bind (nested_loadInts _) fun _ => .bind (nested_loadInts _) fun _ => nested_liftM _

theorem nested_loadOptional (g : Graph) : Nested (loadOptional g) :=
  .bind (nested_optional _ (nested_loadInts _)) fun _ =>
  .bind (nested_optional _ (nested_loadBytes _)) fun _ =>
  .bind (nested_optional _ (nested_loadTypeIds _)) fun _ =>
  .bind (nested_optional _ (nested_loadTypeIds _)) fun _ =>
  .bind (nested_optional _ (nested_loadTable _ _)) fun _ =>
  .bind (nested_optional _ (nested_loadTable _ _)) fun _ => .pure _

theorem nested_load : Nested load := by
  rw [load_eq]
  exact .bind nested_loadVersion fun _ => .bind nested_loadBare fun g =>
    .bind (nested_loadOptional g) fun _ => nested_liftM _

/-- A scope is a transaction, for bodies that do not close it themselves. If it cannot be entered or
the body fails, the archive is as it was before; if the body succeeds in the scope, then a written
archive has one more entry, the record of what the body left in the scope, and one that is read is
as it was. Graphs may be saved and loaded in such a body at any place. -/
theorem within_transaction {a : Archive} {key : String} {body : Action α}
    (stays : ∀ inside, a.perform (enterScope key) = (.ok (), inside) →
      StaysAbove (a.depth + 1) body inside) :
    (∀ fault after, a.perform (enterScope key) = (.error fault, after) →
      a.perform (within key body) = (.error fault, a)) ∧
    (∀ inside, a.perform (enterScope key) = (.ok (), inside) →
      (∀ fault after, inside.perform body = (.error fault, after) →
        a.perform (within key body) = (.error fault, a)) ∧
      (∀ x after, inside.perform body = (.ok x, after) → after.depth = a.depth + 1 →
        a.perform (within key body) =
          (.ok x, if a.isWriting then a.extend [(key, .record after.current)] else a))) ∧
    ∀ b : Archive, a.depth + 1 ≤ b.depth →
      (∀ g, StaysAbove (a.depth + 1) (save g) b) ∧ StaysAbove (a.depth + 1) load b := by
  refine ⟨?_, ?_, ?_⟩
  · intro fault after refused
    exact perform_within_of_not_enter refused body
  · intro inside entered
    obtain ⟨entries, opened, same⟩ := perform_enterScope_eq_ok_iff.mp entered
    have start : Inside a key inside := same ▸ Inside.opened entries
    have kept := (stays inside entered).inside start
    rw [perform_within_of_enter entered]
    refine ⟨?_, ?_⟩
    · intro fault after performed
      rw [performed] at kept ⊢
      rw [perform_settle_error, kept.truncate_base]
    · intro x after performed depth
      rw [performed] at kept ⊢
      exact perform_settle_of_inside opened kept depth x
  · intro b deep
    exact ⟨fun g => (nested_save g).staysAbove deep, nested_load.staysAbove deep⟩

/-- A body that fails after a graph was saved, with one more scope open, and one that closes the scope
it has opened. -/
theorem within_transaction_both :
    let a : Archive := ⟨.writing {}, [("k", .int 1)], [⟨"outer", [("k", .bool true)]⟩]⟩
    let failing : Action Unit := do
      save .empty
      enterScope "deep"
      write "x" (.int 1)
      write "x" (.int 2)
    let succeeding : Action Unit := do
      write "x" (.int 1)
      enterScope "deep"
      leaveScope
    (∃ fault, a.perform (within "t" failing) = (.error fault, a)) ∧
      a.perform (within "t" succeeding) =
        (.ok (), a.extend [("t", .record [("x", .int 1), ("deep", .record [])])]) := by
  intro a failing succeeding
  let opened : Archive := { a with scopes := ⟨"t", []⟩ :: a.scopes }
  have entered : a.perform (enterScope "t") = (.ok (), opened) := rfl
  refine ⟨?_, ?_⟩
  · have stays : ∀ inside, a.perform (enterScope "t") = (.ok (), inside) →
        StaysAbove (a.depth + 1) failing inside := by
      rintro _ ⟨⟩
      exact .bind ((nested_save .empty).staysAbove (Nat.le_refl 2)) fun _ _ _ =>
        .bind (.enterScope _) fun _ _ _ => .bind (.write _ _) fun _ _ _ => .write _ _
    have saved := perform_save (a := opened) .empty rfl (by decide : 2 < 64) fun _ => nofun
    obtain ⟨fault, after, failed⟩ :
        ∃ fault after, opened.perform failing = (.error fault, after) := by
      rw [perform_bind_of_ok saved]
      exact ⟨_, _, rfl⟩
    exact ⟨fault, ((within_transaction stays).2.1 _ entered).1 fault after failed⟩
  · have stays : ∀ inside, a.perform (enterScope "t") = (.ok (), inside) →
        StaysAbove (a.depth + 1) succeeding inside := by
      rintro _ ⟨⟩
      refine .bind (.write _ _) ?_
      rintro _ _ ⟨⟩
      refine .bind (.enterScope _) ?_
      rintro _ _ ⟨⟩
      exact .leaveScope (Nat.lt_succ_self 2)
    exact ((within_transaction stays).2.1 _ entered).2 () _ rfl rfl

end GraphSnapshot.Snapshot
