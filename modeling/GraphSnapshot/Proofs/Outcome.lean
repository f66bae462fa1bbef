/-! Computations that may fail. A sequence of steps succeeds exactly if each step does, and fails as the
first step that fails. -/
namespace GraphSnapshot
variable {ε ε' α β : Type}

theorem bind_eq_ok_iff {e : Except ε α} {next : α → Except ε β} {y : β} :
    (e >>= next) = .ok y ↔ ∃ x, e = .ok x ∧ next x = .ok y := by
  cases e with
  | error fault => exact ⟨nofun, fun ⟨_, same, _⟩ => nomatch same⟩
  | ok x =>
    refine ⟨fun h => ⟨x, rfl, h⟩, ?_⟩
    rintro ⟨_, ⟨rfl⟩, h⟩
    exact h

theorem pure_eq_ok_iff {x y : α} : (pure x : Except ε α) = .ok y ↔ x = y := by
  change Except.ok x = Except.ok y ↔ _
  rw [Except.ok.injEq]

theorem pure_ne_error {x : α} {fault : ε} : (pure x : Except ε α) ≠ .error fault := nofun

theorem bind_eq_error_iff {e : Except ε α} {next : α → Except ε β} {fault : ε} :
    (e >>= next) = .error fault ↔
      e = .error fault ∨ ∃ x, e = .ok x ∧ next x = .error fault := by
  cases e with
  | error other =>
    change Except.error other = Except.error fault ↔ _
    rw [Except.error.injEq, Except.error.injEq]
    refine ⟨.inl, ?_⟩
    rintro (same | ⟨_, ⟨⟩, _⟩)
    exact same
  | ok x =>
    change next x = Except.error fault ↔ _
    refine ⟨fun failed => .inr ⟨x, rfl, failed⟩, ?_⟩
    rintro (⟨⟨⟩⟩ | ⟨_, ⟨rfl⟩, failed⟩)
    exact failed

theorem bind_pure_eq_ok_iff {check : Except ε PUnit} {x y : α} :
    (check >>= fun _ => pure x) = .ok y ↔ check = .ok ⟨⟩ ∧ x = y := by
  rw [bind_eq_ok_iff]
  constructor
  · intro ⟨_, checked, same⟩
    exact ⟨checked, pure_eq_ok_iff.mp same⟩
  · intro ⟨checked, same⟩
    exact ⟨⟨⟩, checked, pure_eq_ok_iff.mpr same⟩

/-- Checks one after another succeed exactly if each does. -/
theorem checks_eq_ok_iff {check : Except ε Unit} {rest : Except ε α} {x : α} :
    (check >>= fun _ => rest) = .ok x ↔ check = .ok () ∧ rest = .ok x := by
  rw [bind_eq_ok_iff]
  constructor
  · intro ⟨_, checked, done⟩
    exact ⟨checked, done⟩
  · intro ⟨checked, done⟩
    exact ⟨(), checked, done⟩

theorem option_forM_eq_ok_iff {check : α → Except ε Unit} {o : Option α} :
    o.forM check = .ok () ↔ ∀ x, o = some x → check x = .ok () := by
  cases o with
  | none => exact ⟨fun _ _ => nofun, fun _ => rfl⟩
  | some y =>
    constructor
    · rintro checked _ ⟨rfl⟩
      exact checked
    · intro checked
      exact checked y rfl

theorem list_forM_eq_ok_iff {check : α → Except ε Unit} {xs : List α} :
    xs.forM check = .ok () ↔ ∀ x ∈ xs, check x = .ok () := by
  induction xs with
  | nil => exact ⟨fun _ _ => nofun, fun _ => rfl⟩
  | cons x rest ih =>
    rw [List.forall_mem_cons, ← ih]
    exact checks_eq_ok_iff

/-- Steps that take items of one form only: the fold succeeds exactly if all items have that form and
the steps on what they show succeed. -/
theorem foldlM_eq_ok_iff_of_forms {σ : Type} {step : σ → β → Except ε σ} {next : σ → α → Except ε σ}
    {form : α → β}
    (steps : ∀ s item after, step s item = .ok after ↔
      ∃ x, item = form x ∧ next s x = .ok after)
    {items : List β} {first last : σ} :
    items.foldlM step first = .ok last ↔
      ∃ xs : List α, items = xs.map form ∧ xs.foldlM next first = .ok last := by
  induction items generalizing first with
  | nil =>
    constructor
    · intro same
      exact ⟨[], rfl, same⟩
    · rintro ⟨xs, none, same⟩
      obtain rfl := List.map_eq_nil_iff.mp none.symm
      exact same
  | cons item rest ih =>
    rw [List.foldlM_cons, bind_eq_ok_iff]
    simp only [steps, ih]
    constructor
    · rintro ⟨middle, ⟨x, rfl, here⟩, xs, rfl, later⟩
      exact ⟨x :: xs, rfl, bind_eq_ok_iff.mpr ⟨middle, here, later⟩⟩
    · rintro ⟨_ | ⟨x, xs⟩, split, whole⟩
      · cases split
      · obtain ⟨rfl, rfl⟩ := List.cons.inj split
        obtain ⟨middle, here, later⟩ := bind_eq_ok_iff.mp whole
        exact ⟨middle, ⟨x, rfl, here⟩, xs, rfl, later⟩

/-- How a fold fails, from how a step fails as long as what has been made so far fits what is still to
come. -/
theorem foldlM_fails {σ : Type} {step : σ → α → Except ε σ} (fits : σ → List α → Prop)
    (p : ε → Prop)
    (fails : ∀ s x rest fault, fits s (x :: rest) → step s x = .error fault → p fault)
    (keeps : ∀ s x rest after, fits s (x :: rest) → step s x = .ok after → fits after rest)
    {xs : List α} {first : σ} (start : fits first xs) {fault : ε}
    (failed : xs.foldlM step first = .error fault) : p fault := by
  induction xs generalizing first with
  | nil => cases failed
  | cons x rest ih =>
    rw [List.foldlM_cons, bind_eq_error_iff] at failed
    rcases failed with here | ⟨middle, made, later⟩
    · exact fails first x rest fault start here
    · exact ih (keeps first x rest middle start made) later

theorem throw_ne_ok {fault : ε} {x : α} : (throw fault : Except ε α) ≠ .ok x := nofun

theorem check_eq_ok_iff {p : Prop} [Decidable p] {fault : ε} {rest : Except ε α} {x : α} :
    (if p then throw fault >>= fun _ : PUnit => rest else rest) = .ok x ↔ ¬p ∧ rest = .ok x := by
  split
  · next found => exact ⟨nofun, fun ⟨clear, _⟩ => absurd found clear⟩
  · next clear => exact ⟨fun h => ⟨clear, h⟩, And.right⟩

theorem condition_eq_ok_iff {p : Prop} [Decidable p] {fault : ε} {x : α} :
    (if p then Except.ok x else .error fault) = .ok x ↔ p := by
  split
  · next holds => exact ⟨fun _ => holds, fun _ => rfl⟩
  · next fails => exact ⟨nofun, fun holds => absurd holds fails⟩

theorem refusal_eq_ok_iff {p : Prop} [Decidable p] {fault : ε} :
    (if p then throw fault else pure () : Except ε Unit) = .ok () ↔ ¬p := by
  split
  · next found => exact ⟨nofun, fun clear => absurd found clear⟩
  · next clear => exact ⟨fun _ => clear, fun _ => rfl⟩

theorem refusal_eq_error_iff {p : Prop} [Decidable p] {fault other : ε} :
    (if p then throw other else pure () : Except ε Unit) = .error fault ↔ p ∧ other = fault := by
  split
  · next found =>
    exact ⟨fun same => ⟨found, Except.error.inj same⟩, fun ⟨_, same⟩ => congrArg _ same⟩
  · next clear => exact ⟨nofun, fun ⟨found, _⟩ => absurd found clear⟩

theorem mapError_eq_ok_iff {f : ε → ε'} {e : Except ε α} {x : α} :
    e.mapError f = .ok x ↔ e = .ok x := by
  cases e with
  | error fault => exact ⟨nofun, nofun⟩
  | ok y =>
    change Except.ok y = Except.ok x ↔ _
    rw [Except.ok.injEq, Except.ok.injEq]

theorem list_forM_eq_error_iff {check : α → Except ε Unit} {xs : List α} {fault : ε} :
    xs.forM check = .error fault ↔ ∃ before x after, xs = before ++ x :: after ∧
      (∀ y ∈ before, check y = .ok ()) ∧ check x = .error fault := by
  induction xs with
  | nil =>
    refine ⟨nofun, ?_⟩
    rintro ⟨before, _, _, none, _⟩
    cases before <;> cases none
  | cons first rest ih =>
    have split : (first :: rest).forM check = (check first >>= fun _ => rest.forM check) := rfl
    rw [split, bind_eq_error_iff, ih]
    constructor
    · rintro (refused | ⟨_, passed, before, x, after, rfl, passes, refused⟩)
      · exact ⟨[], first, rest, rfl, nofun, refused⟩
      · exact ⟨first :: before, x, after, rfl, List.forall_mem_cons.mpr ⟨passed, passes⟩, refused⟩
    · rintro ⟨_ | ⟨other, before⟩, x, after, same, passes, refused⟩
      · obtain ⟨rfl, rfl⟩ := List.cons.inj same
        exact .inl refused
      · obtain ⟨rfl, rfl⟩ := List.cons.inj same
        obtain ⟨passed, passes⟩ := List.forall_mem_cons.mp passes
        exact .inr ⟨(), passed, before, x, after, rfl, passes, refused⟩

theorem check_eq_error_iff {p : Prop} [Decidable p] {fault other : ε} {rest : Except ε α} :
    (if p then throw other >>= fun _ : PUnit => rest else rest) = .error fault ↔
      p ∧ other = fault ∨ ¬p ∧ rest = .error fault := by
  split
  · next found =>
    refine ⟨fun failed => .inl ⟨found, Except.error.inj failed⟩, ?_⟩
    rintro (⟨_, rfl⟩ | ⟨clear, _⟩)
    · rfl
    · exact absurd found clear
  · next clear =>
    refine ⟨fun failed => .inr ⟨clear, failed⟩, ?_⟩
    rintro (⟨found, _⟩ | ⟨_, failed⟩)
    · exact absurd found clear
    · exact failed

theorem mapError_eq_error_iff {f : ε → ε'} {e : Except ε α} {fault : ε'} :
    e.mapError f = .error fault ↔ ∃ cause, e = .error cause ∧ f cause = fault := by
  cases e with
  | ok x => exact ⟨nofun, fun ⟨_, same, _⟩ => nomatch same⟩
  | error cause =>
    refine ⟨fun same => ⟨cause, rfl, Except.error.inj same⟩, ?_⟩
    rintro ⟨_, ⟨rfl⟩, rfl⟩
    rfl

end GraphSnapshot
