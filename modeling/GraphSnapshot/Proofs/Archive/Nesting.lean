import GraphSnapshot.Proofs.Archive.Adding
import GraphSnapshot.Proofs.Archive.Looking

/-! Runs inside a scope. As long as a run does not close the scope in which it began, nothing outside
that scope changes. -/
namespace GraphSnapshot.Archive

/-- The run of an action on an archive never has fewer than `floor` scopes open. The action is put
together from the operations of an archive along this run; what it does in other runs is left open. -/
inductive StaysAbove (floor : Nat) : {α : Type} → Action α → Archive → Prop
  | pure {α : Type} {a : Archive} (x : α) : StaysAbove floor (pure x) a
  | throw {α : Type} {a : Archive} (fault : Fault) : StaysAbove floor (throw fault : Action α) a
  | bind {α β : Type} {a : Archive} {action : Action α} {next : α → Action β} :
      StaysAbove floor action a →
      (∀ x after, a.perform action = (.ok x, after) → StaysAbove floor (next x) after) →
      StaysAbove floor (action >>= next) a
  | outcome {α : Type} {a : Archive} {action : Action α} :
      StaysAbove floor action a → StaysAbove floor (outcome action) a
  | get {a : Archive} : StaysAbove floor (get : Action Archive) a
  | read {a : Archive} (key : String) : StaysAbove floor (read key) a
  | write {a : Archive} (key : String) (value : Value) : StaysAbove floor (write key value) a
  | enterScope {a : Archive} (key : String) : StaysAbove floor (enterScope key) a
  | leaveScope {a : Archive} : floor < a.depth → StaysAbove floor leaveScope a
  | within {α : Type} {a : Archive} (key : String) {body : Action α} :
      (∀ inside, a.perform (Archive.enterScope key) = (.ok (), inside) →
        StaysAbove floor body inside) →
      (∀ inside x after, a.perform (Archive.enterScope key) = (.ok (), inside) →
        inside.perform body = (.ok x, after) → floor < after.depth) →
      StaysAbove floor (within key body) a

/-- Actions that close just the scopes that they open. -/
inductive Nested : {α : Type} → Action α → Prop
  | pure {α : Type} (x : α) : Nested (pure x)
  | throw {α : Type} (fault : Fault) : Nested (throw fault : Action α)
  | bind {α β : Type} {action : Action α} {next : α → Action β} :
      Nested action → (∀ x, Nested (next x)) → Nested (action >>= next)
  | get : Nested (get : Action Archive)
  | read (key : String) : Nested (read key)
  | write (key : String) (value : Value) : Nested (write key value)
  | within {α : Type} (key : String) {body : Action α} : Nested body → Nested (within key body)

/-- The archive is the base with a scope of the key opened in it, and perhaps scopes inside that
scope. -/
def Inside (base : Archive) (key : String) (a : Archive) : Prop :=
  ∃ inner entries, a = { base with scopes := inner ++ ⟨key, entries⟩ :: base.scopes }

theorem perform_enterScope_eq_ok_iff {a inside : Archive} {key : String} :
    a.perform (enterScope key) = (.ok (), inside) ↔
      ∃ entries, a.opened key = .ok entries ∧
        inside = { a with scopes := ⟨key, entries⟩ :: a.scopes } := by
  rw [perform_enterScope]
  cases a.opened key with
  | error fault => exact ⟨nofun, fun ⟨_, opened, _⟩ => nomatch opened⟩
  | ok entries =>
      constructor
      · rintro ⟨⟩
        exact ⟨entries, rfl, rfl⟩
      · rintro ⟨_, ⟨rfl⟩, rfl⟩
        rfl

theorem exists_extend_of_write (a : Archive) (key : String) (value : Value) :
    ∃ more, (a.perform (write key value)).2 = a.extend more := by
  rcases perform_write_eq a key value with kept | ⟨_, _, added⟩
  · exact ⟨[], kept.trans (extend_nil a).symm⟩
  · exact ⟨_, added⟩

theorem exists_extend_of_leaveScope (a : Archive) :
    ∃ more, (a.perform leaveScope).2 = a.outside.extend more := by
  cases open_ : a.scopes with
  | nil =>
      have same : a.outside = a := by rw [outside, open_, List.tail_nil, ← open_]
      rw [perform_leaveScope_nil open_, same]
      exact ⟨[], (extend_nil a).symm⟩
  | cons scope outer =>
      have same : a.outside = { a with scopes := outer } := by rw [outside, open_, List.tail_cons]
      rw [perform_leaveScope_cons open_, same]
      dsimp only
      split
      · exact exists_extend_of_write _ _ _
      · exact ⟨[], (extend_nil _).symm⟩

theorem depth_outside (a : Archive) : a.outside.depth = a.depth - 1 := List.length_tail

theorem depth_perform_leaveScope (a : Archive) : (a.perform leaveScope).2.depth = a.depth - 1 := by
  obtain ⟨more, closed⟩ := exists_extend_of_leaveScope a
  rw [closed, depth_extend, depth_outside]

theorem depth_truncate (a : Archive) (depth : Nat) :
    (a.truncate depth).depth = min depth a.depth := by
  rw [Archive.depth, truncate, List.length_drop, ← Archive.depth]
  omega

/-- The archive is the base with a scope opened in it, which has the entries of this scope and perhaps
more behind them, and perhaps with scopes inside that scope. -/
def Growing (base : Archive) (scope : Scope) (a : Archive) : Prop :=
  ∃ inner more,
    a = { base with scopes := inner ++ ⟨scope.key, scope.entries ++ more⟩ :: base.scopes }

namespace Growing
variable {base a : Archive} {scope : Scope}

theorem extend (h : Growing base scope a) (more : Record) : Growing base scope (a.extend more) := by
  obtain ⟨inner, added, rfl⟩ := h
  cases inner with
  | nil =>
      refine ⟨[], added ++ more, ?_⟩
      rw [← List.append_assoc]
      rfl
  | cons first inner =>
      exact ⟨{ first with entries := first.entries ++ more } :: inner, added, rfl⟩

theorem enter (h : Growing base scope a) (first : Scope) :
    Growing base scope { a with scopes := first :: a.scopes } := by
  obtain ⟨inner, added, rfl⟩ := h
  exact ⟨first :: inner, added, rfl⟩

theorem drop (h : Growing base scope a) {count : Nat} (few : count + base.depth < a.depth) :
    Growing base scope { a with scopes := a.scopes.drop count } := by
  obtain ⟨inner, added, rfl⟩ := h
  rw [depth, depth, List.length_append, List.length_cons] at few
  refine ⟨inner.drop count, added, ?_⟩
  rw [List.drop_append_of_le_length (by omega)]

theorem depth_lt (h : Growing base scope a) : base.depth < a.depth := by
  obtain ⟨inner, added, rfl⟩ := h
  rw [depth, depth, List.length_append, List.length_cons]
  omega

theorem truncate (h : Growing base scope a) {depth : Nat} (kept : base.depth < depth) :
    Growing base scope (a.truncate depth) := by
  have deep := h.depth_lt
  apply h.drop
  rw [Archive.depth, Archive.depth] at *
  omega

theorem leaveScope (h : Growing base scope a) (deeper : base.depth + 1 < a.depth) :
    Growing base scope (a.perform leaveScope).2 := by
  have outside : Growing base scope { a with scopes := a.scopes.drop 1 } := h.drop (by omega)
  rw [List.drop_one] at outside
  obtain ⟨more, closed⟩ := exists_extend_of_leaveScope a
  rw [closed]
  exact Growing.extend outside more

end Growing

/-- A run that stays inside a scope changes nothing outside it, and takes no entry from it. -/
theorem StaysAbove.growing {base a : Archive} {scope : Scope} {α : Type} {action : Action α}
    (h : StaysAbove (base.depth + 1) action a) (start : Growing base scope a) :
    Growing base scope (a.perform action).2 := by
  induction h with
  | pure | throw | get => exact start
  | bind first next ih ihs => exact perform_bind_keeps (P := Growing base scope) (ih start) ihs
  | outcome action ih => exact ih start
  | read key =>
      rw [perform_read]
      exact start
  | write key value =>
      obtain ⟨more, added⟩ := exists_extend_of_write _ key value
      rw [added]
      exact start.extend more
  | enterScope key =>
      rw [perform_enterScope]
      split
      · exact start.enter _
      · exact start
  | leaveScope deeper => exact start.leaveScope deeper
  | @within α a key body stays deeper ih =>
      rw [perform_within]
      cases opened : a.opened key with
      | error fault => exact start
      | ok entries =>
          have entered := perform_enterScope_eq_ok_iff.mpr ⟨entries, opened, rfl⟩
          have middle := ih _ entered (start.enter _)
          dsimp only
          generalize performed : perform _ body = result at middle ⊢
          obtain ⟨outcome, after⟩ := result
          cases outcome with
          | error fault => exact middle.truncate start.depth_lt
          | ok x =>
              rw [perform_settle_ok_snd]
              exact middle.leaveScope (deeper _ x after entered performed)

theorem Inside.opened {base : Archive} {key : String} (entries : Record) :
    Inside base key { base with scopes := ⟨key, entries⟩ :: base.scopes } := ⟨[], entries, rfl⟩

theorem StaysAbove.inside {base a : Archive} {key : String} {α : Type} {action : Action α}
    (h : StaysAbove (base.depth + 1) action a) (start : Inside base key a) :
    Inside base key (a.perform action).2 := by
  obtain ⟨inner, entries, same⟩ := start
  have grown : Growing base ⟨key, entries⟩ a := ⟨inner, [], by rw [same, List.append_nil]⟩
  obtain ⟨inner', more, same'⟩ := h.growing grown
  exact ⟨inner', entries ++ more, same'⟩

theorem perform_within_of_enter {α : Type} {a inside : Archive} {key : String} {body : Action α}
    (entered : a.perform (enterScope key) = (.ok (), inside)) :
    a.perform (within key body) =
      (inside.perform body).2.perform (settle a.depth (inside.perform body).1) := by
  obtain ⟨entries, opened, rfl⟩ := perform_enterScope_eq_ok_iff.mp entered
  rw [perform_within, opened]

theorem perform_within_of_not_enter {α : Type} {a after : Archive} {key : String} {fault : Fault}
    (refused : a.perform (enterScope key) = (.error fault, after)) (body : Action α) :
    a.perform (within key body) = (.error fault, a) := by
  rw [perform_enterScope] at refused
  rw [perform_within]
  cases opened : a.opened key with
  | error other =>
      rw [opened] at refused
      cases refused
      rfl
  | ok entries =>
      rw [opened] at refused
      cases refused

theorem Inside.truncate_base {base a : Archive} {key : String} (h : Inside base key a) :
    a.truncate base.depth = base := by
  obtain ⟨inner, entries, rfl⟩ := h
  have many : (inner ++ ⟨key, entries⟩ :: base.scopes).length - base.depth = inner.length + 1 := by
    rw [depth, List.length_append, List.length_cons]
    omega
  have dropped : (inner ++ ⟨key, entries⟩ :: base.scopes).drop (inner.length + 1) = base.scopes := by
    rw [List.drop_append, List.drop_eq_nil_of_le (by omega), List.nil_append, Nat.add_sub_cancel_left]
    rfl
  rw [Archive.truncate]
  dsimp only
  rw [many, dropped]

theorem Inside.eq_of_depth {base a : Archive} {key : String} (h : Inside base key a)
    (depth : a.depth = base.depth + 1) :
    a = { base with scopes := ⟨key, a.current⟩ :: base.scopes } := by
  obtain ⟨inner, entries, rfl⟩ := h
  rw [Archive.depth, Archive.depth, List.length_append, List.length_cons] at depth
  obtain rfl : inner = [] := List.length_eq_zero_iff.mp (by omega)
  rfl

theorem perform_settle_of_inside {α : Type} {a after : Archive} {key : String} {entries : Record}
    (opened : a.opened key = .ok entries) (inside : Inside a key after)
    (depth : after.depth = a.depth + 1) (x : α) :
    after.perform (settle a.depth (.ok x)) =
      (.ok x, if a.isWriting then a.extend [(key, .record after.current)] else a) := by
  have same := inside.eq_of_depth depth
  have open_ : after.scopes = ⟨key, after.current⟩ :: a.scopes := congrArg Archive.scopes same
  have outside : { after with scopes := a.scopes } = a := by rw [same]
  have mode : after.isWriting = a.isWriting := by rw [same]; rfl
  rw [perform_settle_ok]
  cases writing : a.isWriting with
  | true =>
      have free := not_mem_keys_of_opened writing opened
      rw [perform_leaveScope_of_free (mode.trans writing) open_ (by rw [outside]; exact free), outside]
      rfl
  | false =>
      rw [perform_leaveScope_of_reading (mode.trans writing) open_, outside]
      rfl

/-- Looking at a record from inside, whatever comes of it, leaves an archive as it was. -/
theorem perform_within_of_reading {α : Type} {a : Archive} (reading : a.isWriting = false)
    {key : String} {body : Action α} {find : Record → Except Fault α}
    (looks : ∀ b : Archive, b.isWriting = false → b.perform body = (find b.current, b)) :
    a.perform (within key body) = (a.opened key >>= find, a) := by
  cases opened : a.opened key with
  | error fault =>
      rw [perform_within, opened]
      rfl
  | ok entries =>
      have inside : Inside a key { a with scopes := ⟨key, entries⟩ :: a.scopes } := .opened entries
      have entered := perform_enterScope_eq_ok_iff.mpr ⟨entries, opened, rfl⟩
      have looked := looks { a with scopes := ⟨key, entries⟩ :: a.scopes } reading
      rw [perform_within_of_enter entered, looked]
      change perform _ (settle a.depth (find entries)) = (find entries, a)
      cases find entries with
      | error fault => rw [perform_settle_error, inside.truncate_base]
      | ok x =>
          rw [perform_settle_of_inside opened inside rfl, if_neg (ne_true_of_eq_false reading)]

theorem Nested.depth_eq {α : Type} {action : Action α} (h : Nested action) (a : Archive) :
    (a.perform action).2.depth = a.depth := by
  induction h generalizing a with
  | pure | throw | get => rfl
  | bind first next ih ihs =>
      apply perform_bind_keeps (P := fun after => after.depth = a.depth) (ih a)
      intro x after _ before
      exact (ihs x after).trans before
  | read key => rw [perform_read]
  | write key value =>
      obtain ⟨more, added⟩ := exists_extend_of_write a key value
      rw [added, depth_extend]
  | within key body ih =>
      rw [perform_within]
      cases opened : a.opened key with
      | error fault => rfl
      | ok entries =>
          have middle := ih { a with scopes := ⟨key, entries⟩ :: a.scopes }
          dsimp only
          generalize perform _ _ = result at middle ⊢
          obtain ⟨outcome, after⟩ := result
          have deeper : after.depth = a.depth + 1 := middle
          cases outcome with
          | error fault =>
              rw [perform_settle_error]
              exact (depth_truncate after a.depth).trans (by omega)
          | ok x =>
              rw [perform_settle_ok_snd, depth_perform_leaveScope]
              change after.depth - 1 = a.depth
              omega

/-- In an archive that is read, entering and leaving scopes is all that changes anything. So a run that
closes just the scopes it opens leaves the archive as it was, whatever it results in. -/
theorem Nested.unchanged_of_reading {α : Type} {action : Action α} (h : Nested action) {a : Archive}
    (reading : a.isWriting = false) : (a.perform action).2 = a := by
  induction h generalizing a with
  | pure | throw | get => rfl
  | bind first next ih ihs =>
      apply perform_bind_keeps (P := fun after => after = a) (ih reading)
      rintro x _ _ rfl
      exact ihs x reading
  | read key => rw [perform_read]
  | write key value => rw [perform_write_of_reading reading]
  | within key body ih =>
      rw [perform_within]
      cases opened : a.opened key with
      | error fault => rfl
      | ok entries =>
          have inside : Inside a key { a with scopes := ⟨key, entries⟩ :: a.scopes } :=
            .opened entries
          have kept := ih (a := { a with scopes := ⟨key, entries⟩ :: a.scopes }) reading
          dsimp only
          generalize perform _ _ = result at kept ⊢
          obtain ⟨outcome, after⟩ := result
          obtain rfl : after = _ := kept
          cases outcome with
          | error fault => rw [perform_settle_error, inside.truncate_base]
          | ok x =>
              rw [perform_settle_of_inside opened inside rfl, if_neg (ne_true_of_eq_false reading)]

/-- An action that closes just the scopes it opens never has fewer open than at its beginning. -/
theorem Nested.staysAbove {α : Type} {action : Action α} (h : Nested action) {floor : Nat}
    {a : Archive} (high : floor ≤ a.depth) : StaysAbove floor action a := by
  induction h generalizing a with
  | pure x => exact .pure x
  | throw fault => exact .throw fault
  | get => exact .get
  | read key => exact .read key
  | write key value => exact .write key value
  | bind first next ih ihs =>
      refine .bind (ih high) ?_
      intro x after performed
      have same := first.depth_eq a
      rw [performed] at same
      exact ihs x (same ▸ high)
  | within key body ih =>
      have deeper {inside : Archive} (entered : a.perform (enterScope key) = (.ok (), inside)) :
          inside.depth = a.depth + 1 := by
        obtain ⟨entries, _, rfl⟩ := perform_enterScope_eq_ok_iff.mp entered
        rfl
      refine .within key ?_ ?_
      · intro inside entered
        apply ih
        rw [deeper entered]
        omega
      · intro inside x after entered performed
        have same := body.depth_eq inside
        rw [performed, deeper entered] at same
        rw [same]
        omega

end GraphSnapshot.Archive
