import GraphSnapshot.Fault.Corruption

/-! Everything that can go wrong, by cause. -/
namespace GraphSnapshot

/-- Uses of an archive outside its order of calls. -/
inductive Misuse where
  | writeWhileReading
  | readWhileWriting
  | materializeWhileReading
  | scopesOpen (count : Nat)
  | noOpenScope
deriving DecidableEq, Repr

def Misuse.message : Misuse → String
  | .writeWhileReading => "write on a Read-mode archive"
  | .readWhileWriting => "read on a Write-mode archive"
  | .materializeWhileReading => "materialize on a Read-mode archive"
  | .scopesOpen count => s!"{count} scope(s) still open"
  | .noOpenScope => "leave_scope without an open scope"

inductive Fault where
  | duplicateKey (key : String)
  | keyNotFound (key : String)
  | misuse (cause : Misuse)
  | kindMismatch (expected actual : Kind)
  | elementMismatch (expected actual : ElementType)
  | unsupportedVersion (version : Int)
  | violation (cause : Violation)
  | invalidMagic
  | unexpectedEnd (position : Nat)
  | corrupt (cause : Corruption)
  | io
deriving DecidableEq, Repr

def Fault.message : Fault → String
  | .duplicateKey key => s!"Duplicate key: {key}"
  | .keyNotFound key => s!"Key not found: {key}"
  | .misuse cause => s!"Invalid archive state: {cause.message}"
  | .kindMismatch expected actual =>
    s!"Type mismatch: expected {expected.name}, got {actual.name}"
  | .elementMismatch expected actual =>
    s!"Type mismatch: expected {expected.name}, got {actual.name}"
  | .unsupportedVersion version => s!"Unsupported version: {version}"
  | .violation cause => s!"Schema violation: {cause.message}"
  | .invalidMagic => "Invalid graph archive: expected GRAR magic bytes"
  | .unexpectedEnd position => s!"Unexpected end of archive at position {position}"
  | .corrupt cause => s!"Corrupt archive: {cause.message}"
  | .io => "I/O error"

end GraphSnapshot
