import GraphSnapshot.Proofs.FileSystem.Laws

/-! Replacing a file. While the new file is written, nothing has changed but that file, which holds a
front of the content; in the end it is where the path leads, or it is gone. -/
namespace GraphSnapshot.FileSystem

section Perform
variable {σ α β : Type}

theorem perform_bind (files : σ) (action : Action σ α) (next : α → Action σ β) :
    perform files (action >>= next) =
      match perform files action with
      | (.ok x, after) => perform after (next x)
      | (.error fault, after) => (.error fault, after) := by
  have run : (action >>= next).run.run files =
      match action.run.run files with
      | (.ok x, after) => (next x).run.run after
      | (.error fault, after) => (.error fault, after) := by
    rw [ExceptT.run_bind, StateT.run_bind]
    generalize action.run.run files = r
    obtain ⟨r, after⟩ := r
    cases r <;> rfl
  exact run

theorem perform_get (files : σ) : perform files (get : Action σ σ) = (.ok files, files) := rfl

theorem perform_request_of_some {files after : σ} {call : σ → Option α × σ} {result : α}
    (called : call files = (some result, after)) :
    perform files (request call) = (.ok result, after) := by
  rw [request, perform_bind, perform_get]
  simp only [called]
  rfl

theorem perform_request_of_none {files after : σ} {call : σ → Option α × σ}
    (called : call files = (none, after)) :
    perform files (request call) = (.error .io, after) := by
  rw [request, perform_bind, perform_get]
  simp only [called]
  rfl

theorem perform_tryCatch (files : σ) (action : Action σ α) (handle : Fault → Action σ α) :
    perform files (tryCatch action handle) =
      match perform files action with
      | (.ok x, after) => (.ok x, after)
      | (.error fault, after) => perform after (handle fault) := by
  have run : (tryCatch action handle).run.run files =
      match action.run.run files with
      | (.ok x, after) => (.ok x, after)
      | (.error fault, after) => (handle fault).run.run after := by
    rw [ExceptT.run_tryCatch, StateT.run_bind]
    generalize action.run.run files = r
    obtain ⟨r, after⟩ := r
    cases r <;> rfl
  exact run

end Perform

variable {σ α β : Type} [FileSystem σ] [View σ] {before s after : σ} {temporary : Temporary σ}
  {path : String} {content bytes : List UInt8}

/-- Nothing has changed but a new file, where nothing stood before. -/
structure Beside (before s : σ) (temporary : Temporary σ) (content : List UInt8) : Prop where
  free : node? before (placeOf temporary) = none
  holds : node? s (placeOf temporary) = some (.file content)
  rest : Agree before s (· = placeOf temporary)

/-- No step fails by which a file is made, filled and moved to where a path leads. -/
structure Obliges (files : σ) (path : String) : Prop where
  create : ∃ temporary after,
    FileSystem.create (Path.directoryOf path) files = (some temporary, after)
  append {s : σ} {temporary : Temporary σ} {content : List UInt8} (bytes : List UInt8) :
    Beside files s temporary content → (FileSystem.append temporary bytes s).1 = some ()
  sync {s : σ} {temporary : Temporary σ} {content : List UInt8} :
    Beside files s temporary content → (FileSystem.sync temporary s).1 = some ()
  move {s : σ} {temporary : Temporary σ} {content : List UInt8} :
    Beside files s temporary content → (FileSystem.move temporary path s).1 = some ()

theorem Beside.same (beside : Beside before s temporary content) (same : Same s after) :
    Beside before after temporary content :=
  ⟨beside.free, (same.nodes _ not_false).trans beside.holds,
    beside.rest.trans (same.mono fun _ => False.elim)⟩

namespace Lawful
variable (laws : Lawful σ)
include laws

theorem beside_create (made : FileSystem.create path before = (some temporary, after)) :
    Beside before after temporary [] := by
  obtain ⟨_, free, holds, rest⟩ := laws.create made
  exact ⟨free, holds, rest⟩

theorem exists_beside_append (beside : Beside before s temporary content) {answer : Option Unit}
    (appended : FileSystem.append temporary bytes s = (answer, after)) :
    ∃ front, (answer = some () → front = bytes) ∧ Beside before after temporary (content ++ front) := by
  obtain ⟨front, _, whole, holds, rest⟩ := laws.append beside.holds appended
  exact ⟨front, whole, beside.free, holds, beside.rest.trans rest⟩

theorem same_discard (beside : Beside before s temporary content) :
    Same before (FileSystem.discard temporary s) := by
  obtain ⟨gone, rest⟩ := laws.discard beside.holds
  have both := beside.rest.trans rest
  refine ⟨?_, both.paths⟩
  intro place _
  by_cases own : place = placeOf temporary
  · rw [own, gone, beside.free]
  · exact both.nodes place own

theorem exists_place_of_move (beside : Beside before s temporary content)
    (moved : FileSystem.move temporary path s = (some (), after)) :
    ∃ place, place? before path = some place ∧ node? before place ≠ some .directory ∧
      node? after place = some (.file content) ∧ contentAt after path = .ok content ∧
      Agree before after (· = place) := by
  obtain ⟨place, leads, other, holds, read, gone, rest⟩ := laws.move beside.holds moved
  rw [beside.rest.paths] at leads
  have both := (beside.rest.mono fun _ => Or.inr).trans rest
  refine ⟨place, leads, ?_, holds, read, ?_, both.paths⟩
  · by_cases own : place = placeOf temporary
    · rw [own, beside.free]
      exact nofun
    · rwa [← beside.rest.nodes place own]
  · intro elsewhere different
    by_cases own : elsewhere = placeOf temporary
    · subst own
      rw [gone different, beside.free]
    · exact both.nodes elsewhere fun changed => changed.elim different own

end Lawful

/-- A step leads on, or it fails with the new file still there. -/
def Leads (before : σ) (path : String) (temporary : Temporary σ) (good : α → σ → Prop) :
    Except Fault α × σ → Prop
  | (.ok x, after) => good x after
  | (.error fault, after) =>
    fault = .io ∧ ¬Obliges before path ∧ ∃ content, Beside before after temporary content

theorem leads_bind {action : Action σ α} {next : α → Action σ β} {good : α → σ → Prop}
    {last : β → σ → Prop} (first : Leads before path temporary good (perform s action))
    (second : ∀ x after, good x after → Leads before path temporary last (perform after (next x))) :
    Leads before path temporary last (perform s (action >>= next)) := by
  rw [perform_bind]
  generalize perform s action = result at first
  obtain ⟨outcome, after⟩ := result
  cases outcome with
  | error fault => exact first
  | ok x => exact second x after first

theorem Leads.mono {good better : α → σ → Prop} {result : Except Fault α × σ}
    (leads : Leads before path temporary good result)
    (more : ∀ x after, good x after → better x after) :
    Leads before path temporary better result := by
  obtain ⟨outcome, after⟩ := result
  cases outcome with
  | error fault => exact leads
  | ok x => exact more x after leads

theorem leads_request {call : σ → Option Unit × σ} {good : σ → Prop}
    (obliges : Obliges before path → (call s).1 = some ())
    (goes : ∀ after, call s = (some (), after) → good after)
    (stays : ∀ after, call s = (none, after) →
      ∃ content, Beside before after temporary content) :
    Leads before path temporary (fun _ => good) (perform s (request call)) := by
  obtain ⟨after, called | called⟩ : ∃ after, call s = (none, after) ∨ call s = (some (), after) := by
    generalize call s = result
    obtain ⟨_ | _, after⟩ := result
    · exact ⟨after, .inl rfl⟩
    · exact ⟨after, .inr rfl⟩
  · rw [perform_request_of_none called]
    refine ⟨rfl, fun willing => ?_, stays after called⟩
    cases (obliges willing).symm.trans (congrArg Prod.fst called)
  · rw [perform_request_of_some called]
    exact goes after called

/-- A file that is being written holds some content, and the last part of it may still be collected. -/
structure Output.Holds (before s : σ) (path : String) (temporary : Temporary σ) (out : Output σ)
    (content : List UInt8) : Prop where
  file : out.temporary = temporary
  goal : out.target = path
  written : ∃ front, Beside before s temporary front ∧ front ++ out.buffered = content

namespace Lawful
variable (laws : Lawful σ) {out : Output σ}
include laws

theorem leads_append (beside : Beside before s temporary content) (bytes : List UInt8) :
    Leads before path temporary (fun _ after => Beside before after temporary (content ++ bytes))
      (perform s (request (FileSystem.append temporary bytes))) := by
  refine leads_request (fun willing => willing.append bytes beside) ?_ ?_
  · intro after appended
    obtain ⟨_, whole, grown⟩ := laws.exists_beside_append beside appended
    exact whole rfl ▸ grown
  · intro after appended
    obtain ⟨_, _, grown⟩ := laws.exists_beside_append beside appended
    exact ⟨_, grown⟩

theorem leads_flush (held : out.Holds before s path temporary content) :
    Leads before path temporary
      (fun next after =>
        next = { out with buffered := [] } ∧ Beside before after temporary content)
      (perform s out.flush) := by
  obtain ⟨rfl, _, front, beside, rfl⟩ := held
  rw [Output.flush]
  split
  · next empty =>
    rw [empty, List.append_nil]
    exact ⟨by rw [← empty], beside⟩
  · refine leads_bind (laws.leads_append beside out.buffered) fun _ after grown => ?_
    exact ⟨rfl, grown⟩

theorem leads_makeRoom (held : out.Holds before s path temporary content) (count : Nat) :
    Leads before path temporary
      (fun next after => next.Holds before after path temporary content ∧
        (Output.capacity ≤ count → next.buffered = []))
      (perform s (out.makeRoom count)) := by
  rw [Output.makeRoom]
  split
  · refine (laws.leads_flush held).mono ?_
    rintro _ after ⟨rfl, beside⟩
    exact ⟨⟨held.file, held.goal, content, beside, List.append_nil content⟩, fun _ => rfl⟩
  · next room =>
    refine ⟨held, fun many => List.length_eq_zero_iff.mp ?_⟩
    have positive : 0 < Output.capacity := by decide
    omega

theorem leads_write (held : out.Holds before s path temporary content) (bytes : List UInt8) :
    Leads before path temporary
      (fun next after => next.Holds before after path temporary (content ++ bytes))
      (perform s (out.write bytes)) := by
  refine leads_bind (laws.leads_makeRoom held bytes.length) fun next after ⟨holds, empty⟩ => ?_
  obtain ⟨rfl, goal, front, beside, rfl⟩ := holds
  split
  · next many =>
    refine leads_bind (laws.leads_append beside bytes) fun _ last grown => ?_
    refine ⟨rfl, goal, _, grown, ?_⟩
    rw [empty many, List.append_nil, List.append_nil]
  · exact ⟨rfl, goal, front, beside, (List.append_assoc ..).symm⟩

theorem leads_forM_write (held : out.Holds before s path temporary content)
    (pieces : List (List UInt8)) :
    Leads before path temporary
      (fun next after => next.Holds before after path temporary (content ++ pieces.flatten))
      (perform s (pieces.foldlM Output.write out)) := by
  induction pieces generalizing out s content with
  | nil =>
      rw [List.flatten_nil, List.append_nil]
      exact held
  | cons piece rest ih =>
      rw [List.foldlM_cons, List.flatten_cons, ← List.append_assoc]
      exact leads_bind (laws.leads_write held piece) fun next after grown => ih grown

theorem leads_commit (held : out.Holds before s path temporary content) :
    Leads before path temporary
      (fun _ after => ∃ place, place? before path = some place ∧
        node? before place ≠ some .directory ∧ node? after place = some (.file content) ∧
        contentAt after path = .ok content ∧ Agree before after (· = place))
      (perform s out.commit) := by
  refine leads_bind (laws.leads_flush held) ?_
  rintro _ flushed ⟨rfl, beside⟩
  obtain ⟨rfl, rfl, _⟩ := held
  have syncs : Leads before out.target out.temporary
      (fun _ synced => Beside before synced out.temporary content)
      (perform flushed (request (FileSystem.sync out.temporary))) := by
    refine leads_request (fun willing => willing.sync beside) ?_ ?_
    · intro synced called
      exact beside.same (laws.sync called)
    · intro synced called
      exact ⟨content, beside.same (laws.sync called)⟩
  refine leads_bind syncs fun _ synced still => ?_
  refine leads_request (fun willing => willing.move still) ?_ ?_
  · intro after moved
    exact laws.exists_place_of_move still moved
  · intro after stayed
    exact ⟨content, still.same (laws.move_fails stayed)⟩

end Lawful

/-- What putting content at a path may come to. Content that there is not leaves the files as they are,
and content that is refused leaves everything that is seen of them as it is. Otherwise the directory in
which the path leads is there, the content is found where it leads, which is not the place of a
directory, and nothing else has changed. -/
inductive AllOrNothing (files : σ) (path : String) :
    Except Fault (List UInt8) → Except Fault Unit × σ → Prop
  | missing {fault : Fault} : AllOrNothing files path (.error fault) (.error fault, files)
  | refused {content : List UInt8} {after : σ} :
      ¬Obliges files path → Same files after →
      AllOrNothing files path (.ok content) (.error .io, after)
  | stored {content : List UInt8} {directory place : Place σ} {after : σ} :
      place? files (Path.directoryOf path) = some directory →
      node? files directory = some .directory →
      place? files path = some place → node? files place ≠ some .directory →
      node? after place = some (.file content) → contentAt after path = .ok content →
      Agree files after (· = place) →
      AllOrNothing files path (.ok content) (.ok (), after)

/-- Where no step is refused, only missing content is not stored. -/
theorem AllOrNothing.fst_eq_ok_iff {files : σ} {outcome : Except Fault (List UInt8)}
    {result : Except Fault Unit × σ} (h : AllOrNothing files path outcome result)
    (willing : Obliges files path) : result.1 = .ok () ↔ ∃ content, outcome = .ok content := by
  cases h with
  | missing => exact ⟨nofun, nofun⟩
  | refused refuses _ => exact absurd willing refuses
  | stored => exact ⟨fun _ => ⟨_, rfl⟩, fun _ => rfl⟩

theorem Lawful.allOrNothing_replaceFile (laws : Lawful σ) (files : σ) (path : String)
    (pieces : List (List UInt8)) :
    AllOrNothing files path (.ok pieces.flatten) (perform files (replaceFile path pieces)) := by
  rw [replaceFile, perform_bind, Output.create, perform_bind]
  rcases called : FileSystem.create (Path.directoryOf path) files with ⟨_ | temporary, started⟩
  · rw [perform_request_of_none called]
    refine .refused (fun willing => ?_) (laws.create_fails called)
    obtain ⟨temporary, after, made⟩ := willing.create
    cases called.symm.trans made
  · rw [perform_request_of_some called]
    obtain ⟨⟨directory, leads, holds⟩, _⟩ := laws.create called
    have written : Output.Holds files started path temporary ⟨temporary, path, []⟩ [] :=
      ⟨rfl, rfl, [], laws.beside_create called, rfl⟩
    have outcome := leads_bind (laws.leads_forM_write written pieces) fun out after held =>
      laws.leads_commit held
    change AllOrNothing files path _ (perform started (tryCatch _ _))
    rw [perform_tryCatch]
    generalize perform started _ = result at outcome ⊢
    obtain ⟨finished, after⟩ := result
    cases finished with
    | ok done =>
        obtain ⟨place, goal, other, found, read, rest⟩ := outcome
        exact .stored leads holds goal other found read rest
    | error fault =>
        obtain ⟨rfl, refuses, content, still⟩ := outcome
        exact .refused refuses (laws.same_discard still)

end GraphSnapshot.FileSystem
