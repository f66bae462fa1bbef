import GraphSnapshot.FileTree
import GraphSnapshot.Proofs.FileSystem.Replacing
import GraphSnapshot.Proofs.Outcome

/-! The tree keeps the laws of files. Only directories decide where a path leads, so a file that is
put where no directory stands, or is removed, leaves every path as it was. -/
namespace GraphSnapshot.FileTree
open FileSystem (Agree Beside Lawful Obliges View)

variable {t t' : FileTree} {place other target : Place} {node : Node} {content : List UInt8}
  {text : String}

theorem ne_nil_of_free (free : t.node? place ≠ some .directory) : place ≠ [] := by
  rintro rfl
  exact free t.node?_root

theorem node?_remove (different : other ≠ place) : (t.remove place).node? other = t.node? other := by
  rw [node?, node?, lookup_remove, if_neg different]

theorem length_lt_freshName {entry : Place × Node} (member : entry ∈ t.nodes) {name : String}
    (named : name ∈ entry.1) : name.length < t.freshName.length := by
  have listed : name.length ∈ (t.nodes.flatMap Prod.fst).map String.length :=
    List.mem_map_of_mem (List.mem_flatMap.mpr ⟨entry, member, named⟩)
  have longest := List.le_max?_getD_of_mem (k := 0) listed
  rw [freshName, String.length_ofList, List.length_cons, List.length_replicate, ← List.foldl_map,
    List.foldl_max]
  omega

theorem node?_fresh (directory : Place) : t.node? (directory ++ [t.freshName]) = none := by
  rw [node?, if_neg (List.concat_ne_nil _ _), List.lookup_eq_none_iff]
  intro entry member
  rw [bne_iff_ne]
  intro same
  have last : t.freshName ∈ entry.1 := same ▸ List.mem_append_right _ List.mem_cons_self
  exact Nat.lt_irrefl _ (length_lt_freshName member last)

/-- The same directories, and paths start at the same one. -/
structure SameDirectories (t t' : FileTree) : Prop where
  working : t'.working = t.working
  directory : ∀ place, t'.node? place = some .directory ↔ t.node? place = some .directory

namespace SameDirectories

theorem put (free : t.node? place ≠ some .directory) :
    SameDirectories t (t.put place (.file content)) := by
  refine ⟨rfl, ?_⟩
  intro other
  by_cases same : other = place
  · subst same
    rw [node?_put_self (ne_nil_of_free free)]
    exact ⟨nofun, fun directory => absurd directory free⟩
  · rw [node?_put same]

theorem remove (free : t.node? place ≠ some .directory) : SameDirectories t (t.remove place) := by
  refine ⟨rfl, ?_⟩
  intro other
  by_cases same : other = place
  · subst same
    rw [node?_remove_self (ne_nil_of_free free)]
    exact ⟨nofun, fun directory => absurd directory free⟩
  · rw [node?_remove same]

theorem trans {t'' : FileTree} (first : SameDirectories t t') (second : SameDirectories t' t'') :
    SameDirectories t t'' :=
  ⟨second.working.trans first.working, fun place =>
    (second.directory place).trans (first.directory place)⟩

theorem walk?_eq (same : SameDirectories t t') (place : Place) (steps : List Step) :
    t'.walk? place steps = t.walk? place steps := by
  induction steps generalizing place with
  | nil => rfl
  | cons step steps ih => cases step <;> simp only [walk?, same.directory, ih]

theorem follow?_eq (same : SameDirectories t t') (path : Path) : t'.follow? path = t.follow? path := by
  rw [follow?, follow?, same.working, same.walk?_eq]

end SameDirectories

/-- Where a path leads. With a slash at its end it leads to directories only. -/
def place? (t : FileTree) (text : String) : Option Place := do
  let path ← Path.ofText? text
  let place ← t.follow? path
  if path.endsInSlash && t.node? place ≠ some .directory then none else some place

theorem SameDirectories.place?_eq (same : SameDirectories t t') (text : String) :
    t'.place? text = t.place? text := by
  simp only [place?, same.follow?_eq, ne_eq, same.directory]

theorem place?_eq_some_iff :
    t.place? text = some place ↔ ∃ path, Path.ofText? text = some path ∧
      t.follow? path = some place ∧
      (path.endsInSlash = true → t.node? place = some .directory) := by
  simp only [place?, Option.bind_eq_bind, Option.bind_eq_some_iff, Bool.and_eq_true,
    decide_eq_true_eq, Option.ite_none_left_eq_some, Option.some.injEq, not_and, ne_eq,
    Decidable.not_not]
  constructor
  · rintro ⟨path, parsed, _, led, allowed, rfl⟩
    exact ⟨path, parsed, led, allowed⟩
  · rintro ⟨path, parsed, led, allowed⟩
    exact ⟨path, parsed, place, led, allowed, rfl⟩

theorem find?_eq_some_iff :
    t.find? text = some (place, node) ↔ t.place? text = some place ∧ t.node? place = some node := by
  simp only [find?, place?_eq_some_iff, Option.bind_eq_bind, Option.bind_eq_some_iff,
    Bool.and_eq_true, decide_eq_true_eq, Option.ite_none_left_eq_some, Option.some.injEq,
    Prod.mk.injEq, not_and, ne_eq, Decidable.not_not]
  constructor
  · rintro ⟨path, parsed, _, led, _, stands, allowed, rfl, rfl⟩
    exact ⟨⟨path, parsed, led, fun ending => allowed ending ▸ stands⟩, stands⟩
  · rintro ⟨⟨path, parsed, led, allowed⟩, stands⟩
    refine ⟨path, parsed, place, led, node, stands, fun ending => ?_, rfl, rfl⟩
    exact Option.some.inj (stands.symm.trans (allowed ending))

theorem contentAt_of_file (leads : t.place? text = some place)
    (stands : t.node? place = some (.file content)) : t.contentAt text = .ok content := by
  rw [contentAt, find?_eq_some_iff.mpr ⟨leads, stands⟩]

theorem target?_file_eq_some_iff :
    t.target? text (.file content) = some target ↔ ∃ path, Path.ofText? text = some path ∧
      path.endsInName = true ∧ path.endsInSlash = false ∧ t.follow? path = some target := by
  simp only [target?, Option.bind_eq_bind, Option.bind_eq_some_iff, reduceCtorEq, decide_false,
    Bool.or_false, Bool.and_eq_true, Bool.not_eq_true', Option.ite_none_right_eq_some, and_assoc]

theorem place?_of_target? (found : t.target? text (.file content) = some target) :
    t.place? text = some target := by
  obtain ⟨path, parsed, _, ending, led⟩ := target?_file_eq_some_iff.mp found
  refine place?_eq_some_iff.mpr ⟨path, parsed, led, fun other => ?_⟩
  exact absurd (ending.symm.trans other) Bool.noConfusion

instance : View FileTree where
  Place := Place
  node? := node?
  place? := place?
  placeOf := id

theorem agree_put (free : t.node? place ≠ some .directory) :
    Agree t (t.put place (.file content)) (· = place) :=
  ⟨fun _ different => node?_put different, (SameDirectories.put free).place?_eq⟩

theorem agree_remove (free : t.node? place ≠ some .directory) :
    Agree t (t.remove place) (· = place) :=
  ⟨fun _ different => node?_remove different, (SameDirectories.remove free).place?_eq⟩

theorem not_directory_of_file (file : t.node? place = some (.file content)) :
    t.node? place ≠ some .directory := by
  rw [file]
  exact nofun

theorem makeFile_cases (text : String) (t : FileTree) :
    makeFile text t = (none, t) ∨ ∃ place, t.place? text = some place ∧
      t.node? place = some .directory ∧
      makeFile text t = (some (place ++ [t.freshName]), t.put (place ++ [t.freshName]) (.file [])) := by
  rw [makeFile]
  split
  · next place found =>
    obtain ⟨leads, holds⟩ := find?_eq_some_iff.mp found
    split
    · exact .inr ⟨place, leads, holds, rfl⟩
    · exact .inl rfl
  · exact .inl rfl

theorem moveTo_cases (place : Place) (text : String) (t : FileTree) :
    moveTo place text t = (none, t) ∨ ∃ content target, t.node? place = some (.file content) ∧
      t.target? text (.file []) = some target ∧ t.node? target ≠ some .directory ∧
      moveTo place text t = (some (), (t.remove place).put target (.file content)) := by
  rw [moveTo]
  split
  · next content target file goal =>
    split
    · next free => exact .inr ⟨content, target, file, goal, free, rfl⟩
    · exact .inl rfl
  · exact .inl rfl

theorem lawful_create {place : Place} {after : FileTree}
    (made : makeFile text t = (some place, after)) :
    (∃ directory, t.place? text = some directory ∧ t.node? directory = some .directory) ∧
      t.node? place = none ∧ after.node? place = some (.file []) ∧ Agree t after (· = place) := by
  obtain none | ⟨directory, leads, holds, some⟩ := makeFile_cases text t
  · cases none.symm.trans made
  · obtain ⟨⟨rfl⟩, rfl⟩ := Prod.mk.inj (some.symm.trans made)
    have fresh := node?_fresh (t := t) directory
    refine ⟨⟨directory, leads, holds⟩, fresh, node?_put_self (List.concat_ne_nil _ _), ?_⟩
    exact agree_put (by rw [fresh]; exact nofun)

theorem lawful_append (file : t.node? place = some (.file content)) (bytes : List UInt8) :
    ∃ after, appendTo place bytes t = (some (), after) ∧
      after.node? place = some (.file (content ++ bytes)) ∧ Agree t after (· = place) := by
  have free := not_directory_of_file file
  refine ⟨_, ?_, node?_put_self (ne_nil_of_free free), agree_put free⟩
  rw [appendTo, file]

theorem lawful_move {after : FileTree} (file : t.node? place = some (.file content))
    (moved : moveTo place text t = (some (), after)) :
    ∃ target, t.place? text = some target ∧ t.node? target ≠ some .directory ∧
      after.node? target = some (.file content) ∧ after.contentAt text = .ok content ∧
      (place ≠ target → after.node? place = none) ∧
      Agree t after fun other => other = target ∨ other = place := by
  obtain none | ⟨_, target, same, goal, free, some⟩ := moveTo_cases place text t
  · cases none.symm.trans moved
  · obtain ⟨_, rfl⟩ := Prod.mk.inj (some.symm.trans moved)
    obtain ⟨⟨⟩⟩ := file.symm.trans same
    have removed := SameDirectories.remove (not_directory_of_file file)
    have left : (t.remove place).node? target ≠ Option.some .directory :=
      mt (removed.directory target).mp free
    have inside := ne_nil_of_free free
    have both : Agree t ((t.remove place).put target (.file content)) fun other =>
        other = target ∨ other = place :=
      ((agree_remove (not_directory_of_file file)).mono fun _ => Or.inr).trans
        ((agree_put left).mono fun _ => Or.inl)
    refine ⟨target, place?_of_target? goal, free, node?_put_self inside, ?_, ?_, both⟩
    · exact contentAt_of_file ((both.paths text).trans (place?_of_target? goal))
        (node?_put_self inside)
    · intro different
      rw [node?_put different, node?_remove_self (ne_nil_of_free (not_directory_of_file file))]

theorem lawful : Lawful FileTree where
  create := lawful_create
  create_fails {before after path} failed := by
    obtain none | ⟨_, _, _, some⟩ := makeFile_cases path before
    · obtain ⟨_, rfl⟩ := Prod.mk.inj (none.symm.trans failed)
      exact .refl _ _
    · cases some.symm.trans failed
  append {before after temporary content bytes answer} file appended := by
    obtain ⟨_, made, holds, rest⟩ := lawful_append file bytes
    obtain ⟨_, rfl⟩ := Prod.mk.inj (made.symm.trans appended)
    exact ⟨bytes, List.prefix_refl _, fun _ => rfl, holds, rest⟩
  sync {before after temporary answer} synced := by
    obtain ⟨_, rfl⟩ := Prod.mk.inj synced
    exact .refl _ _
  move := lawful_move
  move_fails {before after temporary path} failed := by
    obtain none | ⟨_, _, _, _, _, some⟩ := moveTo_cases temporary path before
    · obtain ⟨_, rfl⟩ := Prod.mk.inj (none.symm.trans failed)
      exact .refl _ _
    · cases some.symm.trans failed
  discard {before temporary content} file := by
    have free := not_directory_of_file file
    exact ⟨node?_remove_self (ne_nil_of_free free), agree_remove free⟩

/-- The tree refuses nothing where a path names no directory and the name of a new file fits behind that
of the directory around it. -/
theorem obliges {directory : Place} (goal : t.target? text (.file []) = some target)
    (free : t.node? target ≠ some .directory)
    (leads : t.place? (Path.directoryOf text) = some directory)
    (holds : t.node? directory = some .directory)
    (short : (Path.directoryOf text).utf8ByteSize + 1 + freshNameSize ≤ maxPathSize) :
    Obliges t text where
  create := by
    refine ⟨directory ++ [t.freshName], t.put (directory ++ [t.freshName]) (.file []), ?_⟩
    change makeFile (Path.directoryOf text) t = _
    rw [makeFile, find?_eq_some_iff.mpr ⟨leads, holds⟩]
    exact if_pos short
  append {s temporary content} bytes beside := by
    obtain ⟨after, made, _⟩ := lawful_append beside.holds bytes
    exact congrArg Prod.fst made
  sync _ := rfl
  move {s temporary content} beside := by
    obtain ⟨path, parsed, named, ending, _⟩ := target?_file_eq_some_iff.mp goal
    have leads : s.place? text = some target :=
      (beside.rest.paths text).trans (place?_of_target? goal)
    obtain ⟨path', parsed', led, _⟩ := place?_eq_some_iff.mp leads
    obtain rfl := Option.some.inj (parsed.symm.trans parsed')
    have again : s.target? text (.file []) = some target :=
      target?_file_eq_some_iff.mpr ⟨path, parsed, named, ending, led⟩
    have still : s.node? target ≠ some .directory := by
      by_cases own : target = temporary
      · rw [own]
        exact not_directory_of_file beside.holds
      · have same : s.node? target = t.node? target := beside.rest.nodes target own
        rwa [same]
    change (moveTo temporary text s).1 = _
    have file : s.node? temporary = some (.file content) := beside.holds
    rw [moveTo, file, again]
    exact congrArg Prod.fst (if_pos still)

end GraphSnapshot.FileTree
