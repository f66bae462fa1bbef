import GraphSnapshot.FileTree
import GraphSnapshot.Snapshot

/-! Archives and snapshots in files. -/
namespace GraphSnapshot

/-- The bytes of a file that is open for reading, and how it was opened. -/
inductive Source where
  | mapped (content : List UInt8)
  | buffered (content : List UInt8)

namespace Source

def bytes : Source → List UInt8
  | .mapped content => content
  | .buffered content => content

/-- A file that cannot hold a header is not opened. -/
def ofFile {σ : Type} [FileSystem σ] (files : σ) (path : String) (options : ReadOptions) :
    Except Fault Source := do
  let content ← FileSystem.contentAt files path
  if content.length < Header.size then throw (.unexpectedEnd content.length)
  return if options.memoryMap then .mapped content else .buffered content

end Source

variable {σ : Type} [FileSystem σ] [Zlib]

namespace Archive

def ofFile (files : σ) (path : String) (options : ReadOptions) : Except Fault Archive := do
  ofBytes (← Source.ofFile files path options).bytes

/-- Finishes an archive and puts it into a file, all or nothing. -/
def save (a : Archive) (path : String) : FileSystem.Action σ Unit := do
  let (header, stored) ← a.materialize
  FileSystem.replaceFile path [header.toBytes, stored]

end Archive

namespace Snapshot

def serializeToFile (g : Graph) (path : String) (options : WriteOptions) :
    FileSystem.Action σ Unit := do
  let (outcome, a) := (Archive.writer options).perform (save g)
  liftM outcome
  a.save path

def deserializeFile (files : σ) (path : String) (options : ReadOptions) : Except Fault Graph := do
  let a ← Archive.ofFile files path options
  (a.perform load).1

def getValueFromFile (files : σ) (path : String) (key : String) : Except Fault Value := do
  let a ← Archive.ofFile files path {}
  (a.perform (Archive.read key)).1

end Snapshot
end GraphSnapshot
