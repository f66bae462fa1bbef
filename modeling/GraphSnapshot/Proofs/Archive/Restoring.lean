import GraphSnapshot.Proofs.Archive.Paths

/-! What is open after a scope. A scope that is run ends by closing whatever is the innermost scope
then, or by cutting off what is deeper than it was. So it restores the open scopes for bodies that
keep it open and close what they open, and not for others. -/
namespace GraphSnapshot.Archive

theorem Inside.exists_path {base a : Archive} {key : String} (h : Inside base key a) :
    ∃ later, a.path = base.path ++ key :: later ∧ a.depth = base.depth + 1 + later.length := by
  obtain ⟨inner, entries, rfl⟩ := h
  refine ⟨(inner.map Scope.key).reverse, ?_, ?_⟩
  · simp only [path, List.map_append, List.map_cons, List.reverse_append, List.reverse_cons,
      List.append_assoc, List.singleton_append]
  · simp only [depth, List.length_append, List.length_cons, List.length_reverse, List.length_map]
    omega

theorem Inside.depth_lt {base a : Archive} {key : String} (h : Inside base key a) :
    base.depth < a.depth := by
  obtain ⟨later, _, depth⟩ := h.exists_path
  omega

theorem Inside.exists_path_of_leaveScope {base a : Archive} {key : String} (h : Inside base key a) :
    ∃ later, (a.perform leaveScope).2.path = base.path ++ later ∧
      a.depth = base.depth + 1 + later.length := by
  obtain ⟨later, path, depth⟩ := h.exists_path
  obtain ⟨more, closed⟩ := exists_extend_of_leaveScope a
  refine ⟨(key :: later).dropLast, ?_, ?_⟩
  · rw [closed, path_extend, path_outside, path, List.dropLast_append_cons]
  · rw [List.length_dropLast, List.length_cons]
    exact depth

section
variable {α : Type} {a inside ended : Archive} {key : String} {body : Action α}

theorem depth_within_of_error (entered : a.perform (enterScope key) = (.ok (), inside))
    {fault : Fault} (failed : inside.perform body = (.error fault, ended)) :
    (a.perform (within key body)).2.depth = min a.depth ended.depth := by
  rw [perform_within_of_enter entered, failed, perform_settle_error, depth_truncate]

theorem depth_within_of_ok (entered : a.perform (enterScope key) = (.ok (), inside)) {x : α}
    (performed : inside.perform body = (.ok x, ended)) :
    (a.perform (within key body)).2.depth = ended.depth - 1 := by
  rw [perform_within_of_enter entered, performed, perform_settle_ok_snd, depth_perform_leaveScope]

/-- A body that keeps its scope open can fail, and then nothing has happened. -/
theorem perform_within_of_error (entered : a.perform (enterScope key) = (.ok (), inside))
    (stays : StaysAbove (a.depth + 1) body inside) {fault : Fault}
    (failed : inside.perform body = (.error fault, ended)) :
    a.perform (within key body) = (.error fault, a) := by
  obtain ⟨entries, _, rfl⟩ := perform_enterScope_eq_ok_iff.mp entered
  have kept := stays.inside (Inside.opened entries)
  rw [failed] at kept
  rw [perform_within_of_enter entered, failed, perform_settle_error, kept.truncate_base]

theorem perform_within_of_ok [Zlib] (reachable : a.Reachable) (composed : Composed body)
    (entered : a.perform (enterScope key) = (.ok (), inside))
    (stays : StaysAbove (a.depth + 1) body inside) {x : α}
    (performed : inside.perform body = (.ok x, ended)) :
    a.perform (within key body) = (.ok x, (ended.perform leaveScope).2) ∧ Inside a key ended := by
  have start : inside.Reachable := by
    have step := reachable.perform (ComposedWith.enterScope key)
    rwa [entered] at step
  have later : ended.Reachable := by
    have step := start.perform composed
    rwa [performed] at step
  obtain ⟨entries, _, rfl⟩ := perform_enterScope_eq_ok_iff.mp entered
  have kept := stays.inside (Inside.opened entries)
  rw [performed] at kept
  refine ⟨?_, kept⟩
  obtain ⟨scope, outer, open_⟩ : ∃ scope outer, ended.scopes = scope :: outer :=
    List.exists_cons_of_length_pos (Nat.lt_of_le_of_lt (Nat.zero_le _) kept.depth_lt)
  obtain ⟨after, closed⟩ := perform_leaveScope_of_cons later open_
  rw [perform_within_of_enter entered, performed, perform_settle_ok, closed]

end

/-- A scope whose body closes just what it opens leaves no trace if it fails. -/
theorem unchanged_of_within_error {α : Type} {a after : Archive} {key : String} {body : Action α}
    (nested : Nested body) {fault : Fault}
    (failed : a.perform (within key body) = (.error fault, after)) : after = a := by
  cases opened : a.opened key with
  | error other =>
      rw [perform_within, opened] at failed
      exact (Prod.mk.inj failed).2.symm
  | ok entries =>
      have entered := perform_enterScope_eq_ok_iff.mpr ⟨entries, opened, rfl⟩
      have stays := nested.staysAbove (a := { a with scopes := ⟨key, entries⟩ :: a.scopes })
        (Nat.le_refl (a.depth + 1))
      have depth := nested.depth_eq { a with scopes := ⟨key, entries⟩ :: a.scopes }
      have inside := stays.inside (Inside.opened entries)
      cases performed : perform { a with scopes := ⟨key, entries⟩ :: a.scopes } body with
      | mk outcome ended =>
          cases outcome with
          | error other =>
              rw [perform_within_of_error entered stays performed] at failed
              exact (Prod.mk.inj failed).2.symm
          | ok x =>
              rw [performed] at depth inside
              rw [perform_within_of_enter entered, performed,
                perform_settle_of_inside opened inside depth] at failed
              cases failed

/-- What a scope restores. Whatever the body does, a failure of it leaves no scope open beyond those
of before, and a success closes the innermost of those that the body left open. If the body keeps its
scope open, a failure leaves no trace, and after a success the scope ends without a fault: then the
scopes of before are open, and they alone exactly if the body has closed all that it opened. -/
theorem within_restores [Zlib] {α : Type} {a : Archive} (reachable : a.Reachable) {key : String}
    {body : Action α} (composed : Composed body) :
    (∀ fault after, a.perform (enterScope key) = (.error fault, after) →
      a.perform (within key body) = (.error fault, a)) ∧
    ∀ inside, a.perform (enterScope key) = (.ok (), inside) →
      (∀ fault ended, inside.perform body = (.error fault, ended) →
        (a.perform (within key body)).2.depth = min a.depth ended.depth ∧
        (StaysAbove (a.depth + 1) body inside → a.perform (within key body) = (.error fault, a))) ∧
      ∀ x ended, inside.perform body = (.ok x, ended) →
        (a.perform (within key body)).2.depth = ended.depth - 1 ∧
        (StaysAbove (a.depth + 1) body inside →
          ∃ after, a.perform (within key body) = (.ok x, after) ∧ a.path <+: after.path ∧
            (after.path = a.path ↔ ended.depth = a.depth + 1)) := by
  refine ⟨?_, ?_⟩
  · intro fault after refused
    exact perform_within_of_not_enter refused body
  · intro inside entered
    refine ⟨?_, ?_⟩
    · intro fault ended failed
      refine ⟨depth_within_of_error entered failed, ?_⟩
      intro stays
      exact perform_within_of_error entered stays failed
    · intro x ended performed
      refine ⟨depth_within_of_ok entered performed, ?_⟩
      intro stays
      obtain ⟨closed, kept⟩ := perform_within_of_ok reachable composed entered stays performed
      obtain ⟨later, path, depth⟩ := kept.exists_path_of_leaveScope
      refine ⟨_, closed, ⟨later, path.symm⟩, ?_⟩
      rw [path, List.append_right_eq_self, ← List.length_eq_zero_iff]
      omega

/-- One scope more is left open inside the scope, by a body that succeeds and by one that fails. -/
theorem within_restores_outer :
    let a : Archive := ⟨.writing {}, [], [⟨"outer", []⟩]⟩
    let succeeding : Action Unit := do
      enterScope "deep"
      write "x" (.int 1)
    let failing : Action Unit := do
      enterScope "deep"
      leaveScope
      write "deep" (.int 1)
    (∃ after, a.perform (within "t" succeeding) = (.ok (), after) ∧ after.path = ["outer", "t"]) ∧
      a.perform (within "t" failing) = (.error (.duplicateKey "deep"), a) := by
  intro a succeeding failing
  let _ := Zlib.sample
  have reachable : a.Reachable := (Reachable.writer {}).perform (ComposedWith.enterScope "outer")
  have entered : a.perform (enterScope "t") = (.ok (), { a with scopes := ⟨"t", []⟩ :: a.scopes }) :=
    rfl
  refine ⟨?_, ?_⟩
  · have composed : Composed succeeding :=
      .bind (.enterScope _) fun _ => .write _ trivial
    have stays {b : Archive} : StaysAbove 2 succeeding b :=
      .bind (.enterScope _) fun _ _ _ => .write _ _
    obtain ⟨_, ended⟩ := (within_restores reachable composed).2 _ entered
    obtain ⟨_, restores⟩ := ended () _ rfl
    obtain ⟨after, performed, -, -⟩ := restores stays
    cases performed
    exact ⟨_, rfl, rfl⟩
  · have composed : Composed failing :=
      .bind (.enterScope _) fun _ => .bind .leaveScope fun _ => .write _ trivial
    have stays : StaysAbove 2 failing { a with scopes := ⟨"t", []⟩ :: a.scopes } := by
      refine .bind (.enterScope _) ?_
      rintro _ _ ⟨⟩
      exact .bind (.leaveScope (Nat.lt_succ_self 2)) fun _ _ _ => .write _ _
    obtain ⟨failed, _⟩ := (within_restores reachable composed).2 _ entered
    exact (failed _ _ rfl).2 stays

/-- A body that closes its own scope has committed it, although it fails later; and a scope that a
body leaves open stays open, although the body succeeds. -/
theorem within_restores_not :
    let a : Archive := .writer {}
    let closing : Action Unit := do
      leaveScope
      let _ ← read "q"
    a.perform (within "t" closing) =
        (.error (.misuse .readWhileWriting), ⟨.writing {}, [("t", .record [])], []⟩) ∧
      a.perform (within "t" (enterScope "x")) =
        (.ok (), ⟨.writing {}, [], [⟨"t", [("x", .record [])]⟩]⟩) :=
  ⟨rfl, rfl⟩

end GraphSnapshot.Archive
