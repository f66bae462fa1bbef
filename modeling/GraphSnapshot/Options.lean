/-! Options for writing and for opening archives. -/
namespace GraphSnapshot

structure WriteOptions where
  /-- Positive levels ask for compression, higher ones for more effort. -/
  compressionLevel : Int32 := -1
deriving DecidableEq, Repr

namespace WriteOptions

/-- Sets the level, moved into the range from -1 to 9. -/
def withCompression (options : WriteOptions) (level : Int32) : WriteOptions :=
  { options with compressionLevel := if level < -1 then -1 else if 9 < level then 9 else level }

def compresses (options : WriteOptions) : Bool := 0 < options.compressionLevel

end WriteOptions

structure ReadOptions where
  /-- Map the file into memory, or else copy it into a buffer. -/
  memoryMap : Bool := true
deriving DecidableEq, Repr

def ReadOptions.withMemoryMap (options : ReadOptions) (memoryMap : Bool) : ReadOptions :=
  { options with memoryMap }

end GraphSnapshot
