import GraphSnapshot.Header
import GraphSnapshot.Options
import GraphSnapshot.Value

/-! Archives: a record at the root and a stack of open scopes. A scope that is being written becomes
an entry of the scope around it when it is closed; one that is being read is a record found there. -/
namespace GraphSnapshot

inductive Mode where
  | writing (options : WriteOptions)
  | reading (header : Header)
deriving DecidableEq

structure Scope where
  key : String
  entries : Record
deriving DecidableEq

structure Archive where
  mode : Mode
  root : Record
  /-- The innermost scope comes first. -/
  scopes : List Scope
deriving DecidableEq

namespace Archive

/-- At most this many scopes are open at once. -/
def maxDepth : Nat := 64

def writer (options : WriteOptions) : Archive := ⟨.writing options, [], []⟩

def isWriting (a : Archive) : Bool :=
  match a.mode with
  | .writing _ => true
  | .reading _ => false

def header? (a : Archive) : Option Header :=
  match a.mode with
  | .writing _ => none
  | .reading header => some header

def depth (a : Archive) : Nat := a.scopes.length

/-- The entries of the innermost scope, or of the root. -/
def current (a : Archive) : Record :=
  match a.scopes with
  | [] => a.root
  | scope :: _ => scope.entries

def withCurrent (a : Archive) (entries : Record) : Archive :=
  match a.scopes with
  | [] => { a with root := entries }
  | scope :: outer => { a with scopes := { scope with entries } :: outer }

def truncate (a : Archive) (depth : Nat) : Archive :=
  { a with scopes := a.scopes.drop (a.scopes.length - depth) }

end Archive
end GraphSnapshot
