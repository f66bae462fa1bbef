import GraphSnapshot.FileSystem

/-! Files and directories as a tree. The root is always a directory, and the directory around it is
the root itself. -/
namespace GraphSnapshot

/-- The names from the root down to a file or directory. -/
abbrev Place := List String

structure FileTree where
  /-- What stands at each place but the root. -/
  nodes : List (Place × Node)
  /-- Where paths start that do not start at the root. -/
  working : Place := []
deriving DecidableEq

namespace FileTree

def empty : FileTree := ⟨[], []⟩

def node? (t : FileTree) (place : Place) : Option Node :=
  if place = [] then some .directory else t.nodes.lookup place

def remove (t : FileTree) (place : Place) : FileTree :=
  { t with nodes := t.nodes.filter fun entry => entry.1 ≠ place }

def put (t : FileTree) (place : Place) (node : Node) : FileTree :=
  { t with nodes := (place, node) :: (t.remove place).nodes }

theorem node?_root (t : FileTree) : t.node? [] = some .directory := rfl

theorem lookup_remove (t : FileTree) (place other : Place) :
    (t.remove place).nodes.lookup other = if other = place then none else t.nodes.lookup other := by
  obtain ⟨nodes, working⟩ := t
  simp only [remove]
  induction nodes with
  | nil => simp only [List.filter_nil, List.lookup_nil, ite_self]
  | cons entry rest ih =>
    obtain ⟨first, node⟩ := entry
    by_cases gone : first = place
    · subst gone
      simp only [ne_eq, List.filter_cons, not_true_eq_false, decide_false, Bool.false_eq_true,
        if_false] at ih ⊢
      rw [ih, List.lookup_cons]
      by_cases same : other = first
      · rw [if_pos same, if_pos same]
      · rw [if_neg same, if_neg same, beq_false_of_ne same]
    · simp only [ne_eq, List.filter_cons, gone, not_false_eq_true, decide_true, if_true,
        List.lookup_cons] at ih ⊢
      by_cases same : other = first
      · subst same
        rw [if_neg gone, beq_self_eq_true]
      · rw [beq_false_of_ne same]
        exact ih

theorem node?_remove_self {t : FileTree} {place : Place} (inside : place ≠ []) :
    (t.remove place).node? place = none := by
  rw [node?, if_neg inside, lookup_remove, if_pos rfl]

theorem node?_put {t : FileTree} {place other : Place} {node : Node} (different : other ≠ place) :
    (t.put place node).node? other = t.node? other := by
  rw [put, node?, node?, List.lookup_cons, beq_false_of_ne different, lookup_remove,
    if_neg different]

theorem node?_put_self {t : FileTree} {place : Place} {node : Node} (inside : place ≠ []) :
    (t.put place node).node? place = some node := by
  rw [put, node?, if_neg inside, List.lookup_cons, beq_self_eq_true]

/-- The place to which steps lead. There is a next step only in a directory. -/
def walk? (t : FileTree) : Place → List Step → Option Place
  | place, [] => some place
  | place, step :: steps =>
    if t.node? place = some .directory then
      match step with
      | .stay => t.walk? place steps
      | .up => t.walk? place.dropLast steps
      | .down name => t.walk? (place ++ [name]) steps
    else none

def follow? (t : FileTree) (path : Path) : Option Place :=
  t.walk? (if path.absolute then [] else t.working) path.steps

def find? (t : FileTree) (text : String) : Option (Place × Node) := do
  let path ← Path.ofText? text
  let place ← t.follow? path
  let node ← t.node? place
  if path.endsInSlash && node ≠ .directory then none else some (place, node)

/-- The place at which a path puts a node. The last step names it, and only the name of a directory
may have a slash after it. -/
def target? (t : FileTree) (text : String) (node : Node) : Option Place := do
  let path ← Path.ofText? text
  if path.endsInName && (!path.endsInSlash || node = .directory) then t.follow? path else none

abbrev Action (α : Type) := FileSystem.Action FileTree α

def perform {α : Type} (t : FileTree) (action : Action α) : Except Fault α × FileTree :=
  FileSystem.perform t action

def makeDirectory (path : String) : Action Unit := do
  let t ← get
  match t.target? path .directory with
  | some place => if t.node? place = none then set (t.put place .directory) else throw .io
  | none => throw .io

def writeFile (path : String) (content : List UInt8) : Action Unit := do
  let t ← get
  match t.target? path (.file content) with
  | some place =>
    if t.node? place ≠ some .directory then set (t.put place (.file content)) else throw .io
  | none => throw .io

def contentAt (t : FileTree) (path : String) : Except Fault (List UInt8) :=
  match t.find? path with
  | some (_, .file content) => .ok content
  | _ => .error .io

def names (t : FileTree) (path : String) : Except Fault (List String) :=
  match t.find? path with
  | some (place, .directory) =>
    let children := t.nodes.filterMap fun entry =>
      if entry.1.dropLast = place then entry.1.getLast? else none
    .ok (children.mergeSort fun a b => decide (a ≤ b))
  | _ => .error .io

/-- The bytes in the name of a new file. Which name it is cannot be seen afterwards, so any name that
is free stands for it. -/
def freshNameSize : Nat := 10

/-- A name longer than every name in the tree, and so the name of nothing in it. -/
def freshName (t : FileTree) : String :=
  let longest := (t.nodes.flatMap Prod.fst).foldl (fun longest name => max longest name.length) 0
  String.ofList ('.' :: List.replicate longest '~')

def makeFile (directory : String) (t : FileTree) : Option Place × FileTree :=
  match t.find? directory with
  | some (place, .directory) =>
    if directory.utf8ByteSize + 1 + freshNameSize ≤ maxPathSize then
      let fresh := place ++ [t.freshName]
      (some fresh, t.put fresh (.file []))
    else (none, t)
  | _ => (none, t)

def appendTo (place : Place) (bytes : List UInt8) (t : FileTree) : Option Unit × FileTree :=
  match t.node? place with
  | some (.file content) => (some (), t.put place (.file (content ++ bytes)))
  | _ => (none, t)

/-- Moves a file to where a path leads, and replaces a file that was there. -/
def moveTo (source : Place) (path : String) (t : FileTree) : Option Unit × FileTree :=
  match t.node? source, t.target? path (.file []) with
  | some (.file content), some target =>
    if t.node? target ≠ some .directory then
      (some (), (t.remove source).put target (.file content))
    else (none, t)
  | _, _ => (none, t)

instance : FileSystem FileTree where
  Temporary := Place
  create := makeFile
  append := appendTo
  sync _ t := (some (), t)
  move := moveTo
  discard place t := t.remove place
  contentAt := contentAt

end FileTree
end GraphSnapshot
