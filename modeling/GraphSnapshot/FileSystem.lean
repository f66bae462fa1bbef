import GraphSnapshot.Fault
import GraphSnapshot.Path

/-! Files as far as archives need them. What keeps the files is left open, and so is what may go wrong
with them. A file is replaced by writing a new one beside it and moving that into its place; whatever
goes wrong until then, the new file is removed. -/
namespace GraphSnapshot

inductive Node where
  | directory
  | file (content : List UInt8)
deriving DecidableEq

/-- What is asked of files in a state `σ`. Nothing in the place of a result says that it went wrong. -/
class FileSystem (σ : Type) where
  /-- A new file that has not been moved into its place. -/
  Temporary : Type
  /-- Makes an empty file in a directory. -/
  create : String → σ → Option Temporary × σ
  append : Temporary → List UInt8 → σ → Option Unit × σ
  sync : Temporary → σ → Option Unit × σ
  move : Temporary → String → σ → Option Unit × σ
  discard : Temporary → σ → σ
  contentAt : σ → String → Except Fault (List UInt8)

namespace FileSystem
variable {σ : Type}

/-- A step on files. A step that fails still hands them on. -/
abbrev Action (σ α : Type) := ExceptT Fault (StateM σ) α

def perform {α : Type} (files : σ) (action : Action σ α) : Except Fault α × σ :=
  action.run.run files

def request {α : Type} (call : σ → Option α × σ) : Action σ α := do
  let (answer, files) := call (← get)
  set files
  match answer with
  | some result => return result
  | none => throw .io

/-- A file that is being written. Bytes are collected before they are handed on. -/
structure Output (σ : Type) [FileSystem σ] where
  temporary : Temporary σ
  target : String
  buffered : List UInt8

namespace Output
variable [FileSystem σ]

def capacity : Nat := 2 * 1024 * 1024

def create (path : String) : Action σ (Output σ) := do
  let temporary ← request (FileSystem.create (Path.directoryOf path))
  return ⟨temporary, path, []⟩

def flush (out : Output σ) : Action σ (Output σ) :=
  if out.buffered = [] then pure out
  else do
    request (FileSystem.append out.temporary out.buffered)
    return { out with buffered := [] }

/-- Hands on what was collected if it leaves no room for so many bytes. -/
def makeRoom (out : Output σ) (count : Nat) : Action σ (Output σ) :=
  if capacity - out.buffered.length < count then out.flush else pure out

/-- Collects bytes, or hands them on if they are too many. -/
def write (out : Output σ) (bytes : List UInt8) : Action σ (Output σ) := do
  let out ← out.makeRoom bytes.length
  if capacity ≤ bytes.length then
    request (FileSystem.append out.temporary bytes)
    return out
  else return { out with buffered := out.buffered ++ bytes }

def commit (out : Output σ) : Action σ Unit := do
  let out ← out.flush
  request (FileSystem.sync out.temporary)
  request (FileSystem.move out.temporary out.target)

def discard (out : Output σ) : Action σ Unit := modify (FileSystem.discard out.temporary)

end Output

/-- Puts content, piece by piece, into the file at a path. -/
def replaceFile [FileSystem σ] (path : String) (pieces : List (List UInt8)) : Action σ Unit := do
  let out ← Output.create path
  tryCatch (do (← pieces.foldlM Output.write out).commit) fun fault => do
    out.discard
    throw fault

end FileSystem
end GraphSnapshot
