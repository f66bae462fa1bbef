import GraphSnapshot.Proofs.Archive.Nesting

/-! Archives only grow. No operation takes an entry away, changes one or puts one in front of another,
and of entries with the same name the first one that is written stays. -/
namespace GraphSnapshot

namespace Entries
variable {α : Type} {front : Entries α}

/-- The first entry of each name, in the order of the entries. -/
def firsts (entries : Entries α) : Entries α :=
  entries.eraseDupsBy fun later earlier => later.1 == earlier.1

theorem firsts_append (distinct : front.Distinct) (back : Entries α) :
    firsts (front ++ back) = front ++ firsts (back.filter fun entry => entry.1 ∉ front.keys) := by
  induction front generalizing back with
  | nil =>
      have all : back.filter (fun entry => entry.1 ∉ keys ([] : Entries α)) = back :=
        List.filter_eq_self.mpr fun _ _ => rfl
      rw [all, List.nil_append, List.nil_append]
  | cons entry rest ih =>
      obtain ⟨apart, distinct⟩ := List.nodup_cons.mp distinct
      have others : rest.filter (fun later => (later.1 == entry.1) = false) = rest := by
        refine List.filter_eq_self.mpr fun later member => decide_eq_true ?_
        refine beq_false_of_ne fun same => apart ?_
        exact same ▸ List.mem_map_of_mem member
      rw [List.cons_append, firsts, List.eraseDupsBy_cons, List.filter_append, others, ← firsts,
        ih distinct, List.filter_filter, List.cons_append]
      refine congrArg (fun others => entry :: (rest ++ firsts others)) (List.filter_congr ?_)
      intro later _
      have names : later.1 ∈ keys (entry :: rest) ↔ later.1 = entry.1 ∨ later.1 ∈ keys rest :=
        List.mem_cons
      rw [Bool.eq_iff_iff]
      simp [names, and_comm]

theorem firsts_of_distinct (distinct : front.Distinct) : firsts front = front := by
  have all := firsts_append distinct []
  rw [List.append_nil, List.filter_nil] at all
  exact all.trans (List.append_nil front)

theorem firsts_append_cons_of_mem (distinct : front.Distinct) {key : String}
    (taken : key ∈ front.keys) (value : α) (back : Entries α) :
    firsts (front ++ (key, value) :: back) = firsts (front ++ back) := by
  rw [firsts_append distinct, firsts_append distinct, List.filter_cons_of_neg]
  rw [decide_eq_true_eq]
  exact not_not_intro taken

end Entries

namespace Archive

abbrev Runs {α : Type} (action : Action α) : Prop := ComposedWith (fun _ => True) action

theorem Nested.runs {α : Type} {action : Action α} (h : Nested action) : Runs action := by
  induction h with
  | pure x => exact .pure x
  | throw fault => exact .throw fault
  | bind _ _ ih ihs => exact .bind ih ihs
  | get => exact .get
  | read key => exact .read key
  | write key value => exact .write key trivial
  | within key _ ih => exact .within key ih

structure RootGrows (a b : Archive) : Prop where
  mode : b.mode = a.mode
  kept : a.root <+: b.root
  same : a.isWriting = false → b.root = a.root

namespace RootGrows
variable {a b c : Archive}

theorem refl (a : Archive) : RootGrows a a := ⟨rfl, List.prefix_refl _, fun _ => rfl⟩

theorem of_scopes (a : Archive) (scopes : List Scope) : RootGrows a { a with scopes } :=
  ⟨rfl, List.prefix_refl _, fun _ => rfl⟩

theorem trans (first : RootGrows a b) (second : RootGrows b c) : RootGrows a c := by
  refine ⟨second.mode.trans first.mode, first.kept.trans second.kept, ?_⟩
  intro reading
  have reading' : b.isWriting = false := by
    rw [isWriting, first.mode, ← isWriting, reading]
  exact (second.same reading').trans (first.same reading)

theorem extend (writing : a.isWriting = true) (more : Record) : RootGrows a (a.extend more) := by
  refine ⟨mode_extend a more, ?_, fun reading => nomatch writing.symm.trans reading⟩
  obtain ⟨mode, root, scopes⟩ := a
  cases scopes with
  | nil => exact List.prefix_append _ _
  | cons scope outer => exact List.prefix_refl _

theorem write (a : Archive) (key : String) (value : Value) :
    RootGrows a (a.perform (write key value)).2 := by
  rcases perform_write_eq a key value with kept | ⟨writing, _, added⟩
  · rw [kept]
    exact .refl a
  · rw [added]
    exact .extend writing _

theorem leaveScope (a : Archive) : RootGrows a (a.perform leaveScope).2 := by
  cases open_ : a.scopes with
  | nil =>
      rw [perform_leaveScope_nil open_]
      exact .refl a
  | cons scope outer =>
      rw [perform_leaveScope_cons open_]
      dsimp only
      split
      · exact (RootGrows.of_scopes a outer).trans (.write _ _ _)
      · exact .of_scopes a outer

end RootGrows

/-- A relation that holds between an archive and what each operation makes of it, and goes on from
there, holds between an archive and what any run makes of it. -/
theorem ComposedWith.relates {allowed : Value → Prop} {r : Archive → Archive → Prop}
    (refl : ∀ a, r a a) (trans : ∀ {a b c}, r a b → r b c → r a c)
    (write : ∀ a key {value}, allowed value → r a (a.perform (Archive.write key value)).2)
    (enter : ∀ {a key entries}, a.opened key = .ok entries →
      r a { a with scopes := ⟨key, entries⟩ :: a.scopes })
    (leave : ∀ a, r a (a.perform Archive.leaveScope).2) (drop : ∀ a depth, r a (a.truncate depth))
    {α : Type} {action : Action α} (h : ComposedWith allowed action) (a : Archive) :
    r a (a.perform action).2 := by
  induction h generalizing a with
  | pure | throw | get => exact refl a
  | bind first next ih ihs =>
      apply perform_bind_keeps (P := r a) (ih a)
      intro x after _ before
      exact trans before (ihs x after)
  | outcome action ih => exact ih a
  | read key =>
      rw [perform_read]
      exact refl a
  | write key fits => exact write a key fits
  | enterScope key =>
      rw [perform_enterScope]
      cases opened : a.opened key with
      | error fault => exact refl a
      | ok entries => exact enter opened
  | leaveScope => exact leave a
  | within key body ih =>
      rw [perform_within]
      cases opened : a.opened key with
      | error fault => exact refl a
      | ok entries =>
          have inside := trans (enter opened) (ih _)
          dsimp only
          generalize perform _ _ = result at inside ⊢
          obtain ⟨outcome, after⟩ := result
          cases outcome with
          | error fault => exact trans inside (drop after a.depth)
          | ok x =>
              rw [perform_settle_ok_snd]
              exact trans inside (leave after)

/-- No run of operations does anything to the root but adding entries behind the others. -/
theorem ComposedWith.rootGrows {allowed : Value → Prop} {α : Type} {action : Action α}
    (h : ComposedWith allowed action) (a : Archive) : RootGrows a (a.perform action).2 :=
  h.relates .refl .trans (fun a key _ _ => .write a key _) (fun _ => .of_scopes _ _) .leaveScope
    (fun _ _ => .of_scopes _ _) a

/-- Writes one entry after another, whatever becomes of each. -/
def writeAll (entries : Record) : Action Unit :=
  entries.forM fun entry => do let _ ← outcome (write entry.1 entry.2)

theorem withCurrent_current (a : Archive) : a.withCurrent a.current = a := by
  have same := extend_nil a
  rw [extend, List.append_nil] at same
  exact same

theorem withCurrent_withCurrent (a : Archive) (entries entries' : Record) :
    (a.withCurrent entries).withCurrent entries' = a.withCurrent entries' := by
  obtain ⟨mode, root, scopes⟩ := a
  cases scopes <;> rfl

theorem perform_write_of_taken {a : Archive} (writing : a.isWriting = true) {key : String}
    (taken : key ∈ a.current.keys) (value : Value) :
    a.perform (write key value) = (.error (.duplicateKey key), a) := by
  rw [perform_write, if_pos writing, Entries.insert, if_pos (Entries.contains_iff.mpr taken)]

theorem perform_writeAll {a : Archive} (writing : a.isWriting = true) (distinct : a.current.Distinct)
    (entries : Record) :
    a.perform (writeAll entries) =
      (.ok (), a.withCurrent (Entries.firsts (a.current ++ entries))) := by
  induction entries generalizing a with
  | nil =>
      rw [List.append_nil, Entries.firsts_of_distinct distinct, withCurrent_current]
      rfl
  | cons entry rest ih =>
      obtain ⟨key, value⟩ := entry
      have first : a.perform (do let _ ← outcome (write key value)) =
          (.ok (), (a.perform (write key value)).2) := rfl
      rw [writeAll, List.forM, perform_bind_of_ok first, ← writeAll]
      by_cases taken : key ∈ a.current.keys
      · rw [perform_write_of_taken writing taken, ih writing distinct,
          Entries.firsts_append_cons_of_mem distinct taken]
      · have added := perform_write_of_free writing taken value
        have distinct : (a.extend [(key, value)]).current.Distinct :=
          Entries.distinct_of_insert distinct
            (Entries.insert_eq_ok_iff.mpr ⟨taken, current_extend a _⟩)
        rw [added, ih (by rw [isWriting_extend, writing]) distinct, current_extend, List.append_assoc,
          extend, withCurrent_withCurrent]
        rfl

end Archive
end GraphSnapshot
