import GraphSnapshot.FileSystem

/-! What may be relied on when files are written: what each step changes when it succeeds, and what it
leaves when it fails. Which steps fail is left open. -/
namespace GraphSnapshot.FileSystem

/-- What is seen of files: what stands where, and where paths lead, whether or not anything stands
there. -/
class View (σ : Type) [FileSystem σ] where
  Place : Type
  node? : σ → Place → Option Node
  place? : σ → String → Option Place
  placeOf : Temporary σ → Place

export View (Place node? place? placeOf)

variable {σ : Type} [FileSystem σ] [View σ] {before middle after : σ}

/-- Nothing has changed, unless it is at some places. -/
structure Agree (before after : σ) (apart : Place σ → Prop) : Prop where
  nodes : ∀ place, ¬apart place → node? after place = node? before place
  paths : ∀ path, place? after path = place? before path

namespace Agree
variable {apart other : Place σ → Prop}

theorem refl (files : σ) (apart : Place σ → Prop) : Agree files files apart :=
  ⟨fun _ _ => rfl, fun _ => rfl⟩

theorem trans (first : Agree before middle apart) (second : Agree middle after apart) :
    Agree before after apart := by
  refine ⟨?_, ?_⟩
  · intro place same
    exact (second.nodes place same).trans (first.nodes place same)
  · intro path
    exact (second.paths path).trans (first.paths path)

theorem mono (agree : Agree before after apart) (more : ∀ place, apart place → other place) :
    Agree before after other :=
  ⟨fun place same => agree.nodes place fun changed => same (more place changed), agree.paths⟩

end Agree

abbrev Same (before after : σ) : Prop := Agree before after fun _ => False

/-- A new file is made in a directory, where nothing stood, and only that file is written to and
discarded. Bytes that cannot all be written may be written in part. A file that is moved is found
where the path leads, in the place of another file if there is one, but not of a directory. What else
fails has changed nothing. -/
structure Lawful (σ : Type) [FileSystem σ] [View σ] : Prop where
  create {before after : σ} {path : String} {temporary : Temporary σ} :
    FileSystem.create path before = (some temporary, after) →
      (∃ place, place? before path = some place ∧ node? before place = some .directory) ∧
      node? before (placeOf temporary) = none ∧
      node? after (placeOf temporary) = some (.file []) ∧
      Agree before after (· = placeOf temporary)
  create_fails {before after : σ} {path : String} :
    FileSystem.create path before = (none, after) → Same before after
  append {before after : σ} {temporary : Temporary σ} {content bytes : List UInt8}
    {answer : Option Unit} :
    node? before (placeOf temporary) = some (.file content) →
      FileSystem.append temporary bytes before = (answer, after) →
      ∃ front, front <+: bytes ∧ (answer = some () → front = bytes) ∧
        node? after (placeOf temporary) = some (.file (content ++ front)) ∧
        Agree before after (· = placeOf temporary)
  sync {before after : σ} {temporary : Temporary σ} {answer : Option Unit} :
    FileSystem.sync temporary before = (answer, after) → Same before after
  move {before after : σ} {temporary : Temporary σ} {path : String} {content : List UInt8} :
    node? before (placeOf temporary) = some (.file content) →
      FileSystem.move temporary path before = (some (), after) →
      ∃ place, place? before path = some place ∧ node? before place ≠ some .directory ∧
        node? after place = some (.file content) ∧ contentAt after path = .ok content ∧
        (placeOf temporary ≠ place → node? after (placeOf temporary) = none) ∧
        Agree before after fun other => other = place ∨ other = placeOf temporary
  move_fails {before after : σ} {temporary : Temporary σ} {path : String} :
    FileSystem.move temporary path before = (none, after) → Same before after
  discard {before : σ} {temporary : Temporary σ} {content : List UInt8} :
    node? before (placeOf temporary) = some (.file content) →
      node? (FileSystem.discard temporary before) (placeOf temporary) = none ∧
      Agree before (FileSystem.discard temporary before) (· = placeOf temporary)

end GraphSnapshot.FileSystem
