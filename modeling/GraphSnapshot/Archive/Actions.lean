import GraphSnapshot.Archive.Basic

/-! What can be done with an archive step by step. A step that fails still hands on the archive, so
that what it did before it failed can be seen. -/
namespace GraphSnapshot.Archive

abbrev Action (α : Type) := ExceptT Fault (StateM Archive) α

def perform {α : Type} (a : Archive) (action : Action α) : Except Fault α × Archive :=
  action.run.run a

def write (key : String) (value : Value) : Action Unit := do
  let a ← get
  if a.isWriting then set (a.withCurrent (← a.current.insert key value))
  else throw (.misuse .writeWhileReading)

def read (key : String) : Action Value := do
  let a ← get
  if a.isWriting then throw (.misuse .readWhileWriting) else a.current.require key

def contains (key : String) : Action Bool := do return (← get).current.contains key

def keys : Action (List String) := do return (← get).current.keys

/-- The entries of the scope that entering a key opens. -/
def opened (a : Archive) (key : String) : Except Fault Record :=
  if maxDepth ≤ a.depth then throw (.violation (.scopeTooDeep key maxDepth))
  else if a.isWriting then
    if a.current.contains key then throw (.duplicateKey key) else return []
  else do (← a.current.require key).asRecord

def enterScope (key : String) : Action Unit := do
  let a ← get
  let entries ← a.opened key
  set { a with scopes := ⟨key, entries⟩ :: a.scopes }

/-- Closes the innermost scope. What was written in it becomes a record of the scope around it. -/
def leaveScope : Action Unit := do
  let a ← get
  match a.scopes with
  | [] => throw (.misuse .noOpenScope)
  | scope :: outer =>
    set { a with scopes := outer }
    if a.isWriting then write scope.key (.record scope.entries)

/-- Ends a scope that was entered at a depth: closes it after a success, and after a failure drops
all scopes opened since. -/
def settle {α : Type} (depth : Nat) (outcome : Except Fault α) : Action α := do
  match outcome with
  | .ok result =>
    leaveScope
    return result
  | .error fault =>
    modify fun a => a.truncate depth
    throw fault

/-- An action whose failure is a result. -/
def outcome {α : Type} (action : Action α) : Action (Except Fault α) := ExceptT.lift action.run

/-- Runs an action inside a scope. If it fails, the scopes opened since are dropped. -/
def within {α : Type} (key : String) (body : Action α) : Action α := do
  let depth := (← get).depth
  enterScope key
  settle depth (← outcome body)

end GraphSnapshot.Archive
