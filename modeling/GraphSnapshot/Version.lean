/-! Versions: of the format of archives, of the entries of a snapshot, and of the library. -/
namespace GraphSnapshot

def Header.currentVersion : UInt16 := 1

/-- The version of the entries that are written and understood. -/
def Snapshot.version : Int64 := 1

/-- The name and version under which the library reports itself, up to the date of the build. -/
def libraryVersion : String := "graph-archive 0.1.0 "

end GraphSnapshot
