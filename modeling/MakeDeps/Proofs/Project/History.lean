import MakeDeps.Proofs.CommandLine.Effect
import MakeDeps.Proofs.Resolver.FirstFailure

/-!
# The history of a project

A project is resolved and written again and again while its files change. It keeps the graph of the
last resolution that succeeded, explicit or within `Project.generate`, and what is written is always
that graph (`project_history`). What fails changes no file, with one exception: a text that cannot
be encoded empties the file that it was meant for (`generate_truncates`).
-/

namespace MakeDeps

/-- What a project with a graph is to write, and where to. -/
inductive Project.Renders (p : Project) : Generator → String → Path → String → Prop
  | makefile {fileName folder : String} {g : Graph} {text : String} :
    p.graph = some g →
    Makefile.render g p.config = .ok text →
    Renders p (.makefile fileName) folder (CommandLine.outputPath folder fileName) text

/-- What happens to a project, or to the files around it. -/
inductive Action where
  /-- The files change by some other hand. -/
  | edit (files : FileSystem)
  | resolve
  | generate (gen : Generator) (folder : String)
  | generateNow (gen : Generator) (folder : String)

/-- What comes of an action. -/
inductive ActionResult where
  | edited
  | resolved (outcome : Outcome Graph)
  | generated (outcome : Outcome Written)

/-- The action has not succeeded. -/
def ActionResult.Fails : ActionResult → Prop
  | edited => False
  | resolved outcome => ∃ failure, outcome.result = .error failure
  | generated outcome => ∃ failure, outcome.result = .error failure

/-- A project among its files. -/
structure Workspace where
  project : Project
  files : FileSystem

/-- An action with what comes of it. -/
structure Step where
  before : Workspace
  action : Action
  result : ActionResult
  after : Workspace

namespace Workspace

/-- Does something to the project or to the files. -/
def perform (cwd : Location) (w : Workspace) (action : Action) : Step :=
  match action with
  | .edit files => ⟨w, action, .edited, { w with files := files }⟩
  | .resolve =>
    let effect := w.project.resolve w.files cwd
    ⟨w, action, .resolved effect.outcome, ⟨effect.project, effect.files⟩⟩
  | .generate gen folder =>
    let effect := w.project.generate w.files cwd gen (.ofString folder)
    ⟨w, action, .generated effect.outcome, ⟨effect.project, effect.files⟩⟩
  | .generateNow gen folder =>
    let effect := w.project.generateNow w.files cwd gen (.ofString folder)
    ⟨w, action, .generated effect.outcome, ⟨effect.project, effect.files⟩⟩

/-- Does one thing after the other. -/
def history (cwd : Location) : Workspace → List Action → List Step
  | _, [] => []
  | w, action :: actions =>
    let step := w.perform cwd action
    step :: history cwd step.after actions

end Workspace

namespace Step

/-- The graph that `Project.resolve` returns in the course of the step, if it is called at all, be
it by `Project.generate`, and succeeds. -/
def resolution? (cwd : Location) (s : Step) : Option Graph :=
  let returned := (s.before.project.resolve s.before.files cwd).outcome.result.toOption
  match s.action with
  | .edit _ => none
  | .resolve => returned
  | .generate _ _ => if s.before.project.graph = none then returned else none
  | .generateNow _ _ => none

/-- The step is to write this text to this path: it generates, and the text is what the graph that
the project has then renders to. -/
def Renders (s : Step) (path : Path) (text : String) : Prop :=
  ∃ gen folder, (s.action = .generate gen folder ∨ s.action = .generateNow gen folder) ∧
    s.after.project.Renders gen folder path text

/-- The step writes the text of its graph, as these bytes, and changes nothing else. -/
structure Writes (cwd : Location) (s : Step) (w : Written) (bytes : List UInt8) : Prop where
  rendered : s.Renders w.path w.text
  encoded : s.before.project.host.encoding.encode w.text = .ok bytes
  read : s.after.files.read cwd w.path = .ok bytes
  put : s.before.files.Puts cwd w.path bytes s.after.files

/-- The step fails since its text cannot be encoded, leaves an empty file, and changes nothing
else. -/
structure Empties (cwd : Location) (s : Step) (path : Path) (e : Text.EncodingError) : Prop where
  failed : ∃ log, s.result = .generated ⟨.error (.unencodable e), log⟩
  read : s.after.files.read cwd path = .ok []
  put : s.before.files.Puts cwd path [] s.after.files

end Step

/-- The graph of the last resolution that succeeded. -/
def lastGraph? (cwd : Location) (steps : List Step) : Option Graph :=
  (steps.filterMap (Step.resolution? cwd)).getLast?

namespace Project

variable {p : Project} {fs : FileSystem} {cwd : Location} {gen : Generator} {folder : String}
  {e : Effect Written} {failure : Failure} {g : Graph}

/-- What it does to a project and its files to generate, whether the project is resolved on the way
or not. -/
structure Generates (p : Project) (fs : FileSystem) (cwd : Location) (gen : Generator)
    (folder : String) (e : Effect Written) : Prop where
  kept : ∀ failure, e.outcome.result = .error failure → e.files = fs ∨
    ∃ path text error, e.project.Renders gen folder path text ∧
      p.host.encoding.encode text = .error error ∧ failure = .unencodable error ∧
      fs.write cwd path [] = .ok e.files
  emptied : ∀ path text error files, e.project.Renders gen folder path text →
    p.host.encoding.encode text = .error error → fs.write cwd path [] = .ok files →
    e.outcome.result = .error (.unencodable error) ∧ e.files = files
  unscanned : p.graph ≠ none → scanned e.outcome.log = []
  written : ∀ w, e.outcome.result = .ok w → e.project.Renders gen folder w.path w.text ∧
    ∃ bytes, p.host.encoding.encode w.text = .ok bytes ∧ fs.write cwd w.path bytes = .ok e.files

/-- If it fails with nothing to write, the files are as they were. -/
lemma generates_of_error {log : List Event} {q : Project}
    (hlog : p.graph ≠ none → scanned log = [])
    (hrenders : ∀ path text, ¬q.Renders gen folder path text) :
    p.Generates fs cwd gen folder ⟨⟨.error failure, log⟩, q, fs⟩ :=
  ⟨fun _ _ => .inl rfl, fun _ _ _ _ h => absurd h (hrenders _ _), hlog, fun w hw => by cases hw⟩

/-- A bare generator has nothing to write. -/
lemma not_renders_bare {name : String} (path : Path) (text : String) :
    ¬p.Renders (.bare name) folder path text := by
  intro h
  cases h

/-- The names in the path that is written to have no separator. -/
lemma Renders.noSeparator {path : Path} {text : String} (h : p.Renders gen folder path text) :
    ∀ part ∈ path.parts, '/' ∉ part.toList := by
  cases h with
  | makefile _ _ => exact CommandLine.noSeparator_outputPath

/-- A project without a graph has nothing to write. -/
lemma not_renders_unresolved (h : p.graph = none) (path : Path) (text : String) :
    ¬p.Renders gen folder path text := by
  intro hrenders
  cases hrenders with
  | makefile hgraph _ => cases h.symm.trans hgraph

/-- From a graph, a Makefile is written. -/
lemma generateNow_makefile (h : p.graph = some g) (fileName : String) :
    p.generateNow fs cwd (.makefile fileName) (.ofString folder) =
      p.writeMakefile fs cwd g (CommandLine.outputPath folder fileName) := by
  rw [generateNow, h]
  rfl

/-- A Makefile needs a graph. -/
lemma generateNow_unresolved (h : p.graph = none) (fileName : String) (folder : Path) :
    p.generateNow fs cwd (.makefile fileName) folder =
      ⟨⟨.error (.generate (.unresolved "make")), []⟩, p, fs⟩ := by
  rw [generateNow, h]
  rfl

/-- What a project writes does not change it. -/
lemma writeMakefile_project (p : Project) (fs : FileSystem) (cwd : Location) (g : Graph)
    (output : Path) : (p.writeMakefile fs cwd g output).project = p := by
  have hends := p.makefileEnds_writeMakefile fs cwd g output
  generalize p.writeMakefile fs cwd g output = e at hends ⊢
  cases hends <;> rfl

/-- What a project generates does not change it. -/
lemma generateNow_project (p : Project) (fs : FileSystem) (cwd : Location) (gen : Generator)
    (folder : String) : (p.generateNow fs cwd gen (.ofString folder)).project = p := by
  cases gen with
  | bare name => rfl
  | makefile fileName =>
    cases h : p.graph with
    | none => rw [generateNow_unresolved h]
    | some g => rw [generateNow_makefile h, writeMakefile_project]

/-- However the writing of a Makefile ends, it is one of the ways to generate. -/
lemma MakefileEnds.generates {fileName : String} (hgraph : p.graph = some g)
    (h : p.MakefileEnds fs cwd g (CommandLine.outputPath folder fileName) e) :
    p.Generates fs cwd (.makefile fileName) folder e := by
  cases h with
  | unrendered hrender =>
    refine generates_of_error (fun _ => rfl) fun path text hrenders => ?_
    cases hrenders with
    | makefile hgraph' hrender' =>
      cases hgraph.symm.trans hgraph'
      cases hrender.symm.trans hrender'
  | unwritten hrender hwrite =>
    refine ⟨fun _ _ => .inl rfl, fun path text error files hrenders hencode hwrite' => ?_,
      fun _ => rfl, fun w hw => by cases hw⟩
    cases hrenders with
    | makefile hgraph' hrender' =>
      cases hgraph.symm.trans hgraph'
      cases hrender.symm.trans hrender'
      rw [hencode] at hwrite
      cases hwrite.symm.trans hwrite'
  | unencoded hrender hencode hwrite =>
    refine ⟨fun failure hfailure => ?_, fun path text error files hrenders hencode' hwrite' => ?_,
      fun _ => rfl, fun w hw => by cases hw⟩
    · cases hfailure
      exact .inr ⟨_, _, _, .makefile hgraph hrender, hencode, rfl, hwrite⟩
    · cases hrenders with
      | makefile hgraph' hrender' =>
        cases hgraph.symm.trans hgraph'
        cases hrender.symm.trans hrender'
        cases hencode.symm.trans hencode'
        cases hwrite.symm.trans hwrite'
        exact ⟨rfl, rfl⟩
  | written hrender hencode hwrite =>
    refine ⟨fun failure hfailure => ?_, fun path text error files hrenders hencode' _ => ?_,
      fun _ => rfl, fun w hw => ?_⟩
    · cases hfailure
    · cases hrenders with
      | makefile hgraph' hrender' =>
        cases hgraph.symm.trans hgraph'
        cases hrender.symm.trans hrender'
        cases hencode.symm.trans hencode'
    · cases hw
      exact ⟨.makefile hgraph hrender, _, hencode, hwrite⟩

/-- To generate from the graph that there is. -/
lemma generates_generateNow (p : Project) (fs : FileSystem) (cwd : Location) (gen : Generator)
    (folder : String) :
    p.Generates fs cwd gen folder (p.generateNow fs cwd gen (.ofString folder)) := by
  cases gen with
  | bare name => exact generates_of_error (fun _ => rfl) not_renders_bare
  | makefile fileName =>
    cases h : p.graph with
    | none =>
      rw [generateNow_unresolved h]
      exact generates_of_error (fun _ => rfl) (not_renders_unresolved h)
    | some g =>
      rw [generateNow_makefile h]
      exact (p.makefileEnds_writeMakefile fs cwd g _).generates h

/-- A resolution fails and leaves the project as it was, or it succeeds and the project keeps the
graph. -/
lemma resolve_cases (p : Project) (fs : FileSystem) (cwd : Location) :
    (∃ failure log, p.resolve fs cwd = ⟨⟨.error failure, log⟩, p, fs⟩) ∨
      ∃ g log, p.resolve fs cwd = ⟨⟨.ok g, log⟩, { p with graph := some g }, fs⟩ := by
  unfold resolve
  split
  · exact .inl ⟨_, _, rfl⟩
  · next r _ =>
    obtain ⟨result, log⟩ := r.resolve fs
    cases result with
    | error failure => exact .inl ⟨failure, log, rfl⟩
    | ok g => exact .inr ⟨g, log, rfl⟩

/-- Once there is a graph, a Makefile is generated at once. -/
lemma generate_of_graph (h : p.graph = some g) (folder : Path) :
    p.generate fs cwd gen folder = p.generateNow fs cwd gen folder := by
  rw [generate, h]

/-- A project without a graph is resolved before anything is generated. -/
lemma generate_of_error {log : List Event} (h : p.graph = none)
    (hresolve : p.resolve fs cwd = ⟨⟨.error failure, log⟩, p, fs⟩) (folder : Path) :
    p.generate fs cwd gen folder = ⟨⟨.error failure, log⟩, p, fs⟩ := by
  rw [generate, h, hresolve]

/-- Without a graph, a Makefile is generated once the resolution has succeeded. -/
lemma generate_of_ok {log : List Event} {q : Project} (h : p.graph = none)
    (hresolve : p.resolve fs cwd = ⟨⟨.ok g, log⟩, q, fs⟩) (folder : Path) :
    p.generate fs cwd gen folder =
      ⟨⟨(q.generateNow fs cwd gen folder).outcome.result,
        log ++ (q.generateNow fs cwd gen folder).outcome.log⟩,
      (q.generateNow fs cwd gen folder).project, (q.generateNow fs cwd gen folder).files⟩ := by
  rw [generate, h, hresolve]

/-- A project resolves as its resolver does. -/
lemma outcome_resolve {r : Resolver} (h : p.resolver fs cwd = .ok r) :
    (p.resolve fs cwd).outcome = r.resolve fs := by
  rw [resolve, h]
  dsimp only
  split <;> rfl

/-- A resolution that succeeds gives the project its graph, and otherwise it keeps what it had. -/
lemma resolve_project (p : Project) (fs : FileSystem) (cwd : Location) :
    (p.resolve fs cwd).project =
      { p with graph := (p.resolve fs cwd).outcome.result.toOption.or p.graph } := by
  rcases p.resolve_cases fs cwd with ⟨failure, log, h⟩ | ⟨g, log, h⟩
  · simp [h, Except.toOption]
  · simp [h, Except.toOption]

/-- To generate resolves the project if it has no graph. -/
lemma generate_project (p : Project) (fs : FileSystem) (cwd : Location) (gen : Generator)
    (folder : String) : (p.generate fs cwd gen (.ofString folder)).project =
      if p.graph = none then (p.resolve fs cwd).project else p := by
  cases hgraph : p.graph with
  | some g =>
    rw [generate_of_graph hgraph, if_neg (by simp)]
    exact p.generateNow_project fs cwd gen folder
  | none =>
    rw [if_pos rfl]
    rcases p.resolve_cases fs cwd with ⟨failure, log, h⟩ | ⟨g, log, h⟩
    · rw [generate_of_error hgraph h, h]
    · rw [generate_of_ok hgraph h, h]
      exact generateNow_project _ fs cwd gen folder

/-- What generating does is what may be done. -/
lemma generates_generate (p : Project) (fs : FileSystem) (cwd : Location) (gen : Generator)
    (folder : String) :
    p.Generates fs cwd gen folder (p.generate fs cwd gen (.ofString folder)) := by
  cases hgraph : p.graph with
  | some g =>
    rw [generate_of_graph hgraph]
    exact p.generates_generateNow fs cwd gen folder
  | none =>
    rcases p.resolve_cases fs cwd with ⟨failure, log, h⟩ | ⟨g, log, h⟩
    · rw [generate_of_error hgraph h]
      exact generates_of_error (fun hresolved => absurd hgraph hresolved)
        (not_renders_unresolved hgraph)
    · have hnow := generates_generateNow { p with graph := some g } fs cwd gen folder
      rw [generate_of_ok hgraph h]
      exact ⟨hnow.kept, hnow.emptied, fun hresolved => absurd hgraph hresolved, hnow.written⟩

end Project

namespace Workspace
open Step

variable {cwd : Location} {w : Workspace} {action : Action} {s : Step} {past future : List Step}

/-- A step is from the workspace where it is performed. -/
@[simp] lemma perform_before (cwd : Location) (w : Workspace) (action : Action) :
    (w.perform cwd action).before = w := by
  cases action <;> rfl

/-- A step is of the action that is performed. -/
@[simp] lemma perform_action (cwd : Location) (w : Workspace) (action : Action) :
    (w.perform cwd action).action = action := by
  cases action <;> rfl

/-- A project changes when it is resolved, and then it keeps the graph. -/
lemma perform_project (cwd : Location) (w : Workspace) (action : Action) :
    (w.perform cwd action).after.project = { w.project with
      graph := ((w.perform cwd action).resolution? cwd).or w.project.graph } := by
  cases action with
  | edit files => rfl
  | resolve => exact w.project.resolve_project w.files cwd
  | generate gen folder =>
    refine (w.project.generate_project w.files cwd gen folder).trans ?_
    rw [Step.resolution?, perform_action, perform_before]
    dsimp only
    split
    · exact w.project.resolve_project w.files cwd
    · rfl
  | generateNow gen folder => exact w.project.generateNow_project w.files cwd gen folder

/-- A resolution changes no file. -/
lemma perform_resolve_files (cwd : Location) (w : Workspace) :
    (w.perform cwd .resolve).after.files = w.files := by
  rcases w.project.resolve_cases w.files cwd with ⟨failure, log, heq⟩ | ⟨g, log, heq⟩
  · simp [perform, heq]
  · simp [perform, heq]

/-- To generate is one thing, with or without a resolution on the way. -/
lemma perform_generates {gen : Generator} {folder : String}
    (h : action = .generate gen folder ∨ action = .generateNow gen folder) :
    ∃ e, w.project.Generates w.files cwd gen folder e ∧
      w.perform cwd action = ⟨w, action, .generated e.outcome, ⟨e.project, e.files⟩⟩ := by
  rcases h with rfl | rfl
  · exact ⟨_, w.project.generates_generate w.files cwd gen folder, rfl⟩
  · exact ⟨_, w.project.generates_generateNow w.files cwd gen folder, rfl⟩

/-- What fails changes no file, unless it is to write a text that cannot be encoded. -/
lemma perform_files (h : (w.perform cwd action).result.Fails) :
    (w.perform cwd action).after.files = w.files ∨
      ∃ path text e, (w.perform cwd action).Renders path text ∧
        w.project.host.encoding.encode text = .error e ∧
        (w.perform cwd action).Empties cwd path e := by
  have hgenerated {gen : Generator} {folder : String}
      (haction : action = .generate gen folder ∨ action = .generateNow gen folder) :
      (w.perform cwd action).after.files = w.files ∨
        ∃ path text e, (w.perform cwd action).Renders path text ∧
          w.project.host.encoding.encode text = .error e ∧
          (w.perform cwd action).Empties cwd path e := by
    obtain ⟨effect, hgenerates, heffect⟩ := perform_generates (w := w) haction
    rw [heffect] at h ⊢
    obtain ⟨failure, hfailure⟩ := h
    refine (hgenerates.kept failure hfailure).imp_right ?_
    rintro ⟨path, text, e, hrenders, hencode, rfl, hwrite⟩
    have hpath := hrenders.noSeparator
    refine ⟨path, text, e, ⟨gen, folder, haction, hrenders⟩, hencode, ⟨effect.outcome.log, ?_⟩,
      FileSystem.read_write hwrite hpath, FileSystem.find?_write hwrite hpath⟩
    rw [← hfailure]
  cases action with
  | edit files => cases h
  | resolve => exact .inl (perform_resolve_files cwd w)
  | generate gen folder => exact hgenerated (.inl rfl)
  | generateNow gen folder => exact hgenerated (.inr rfl)

/-- A text that cannot be encoded empties the file that it is meant for, if that can be opened. -/
lemma perform_empties {path : Path} {text : String} {e : Text.EncodingError} {files : FileSystem}
    (h : (w.perform cwd action).Renders path text)
    (hencode : w.project.host.encoding.encode text = .error e)
    (hwrite : w.files.write cwd path [] = .ok files) :
    (w.perform cwd action).Empties cwd path e := by
  obtain ⟨gen, folder, haction, hrenders⟩ := h
  rw [perform_action] at haction
  obtain ⟨effect, hgenerates, heffect⟩ := perform_generates (w := w) haction
  rw [heffect] at hrenders ⊢
  obtain ⟨hresult, rfl⟩ := hgenerates.emptied path text e files hrenders hencode hwrite
  have hpath := hrenders.noSeparator
  refine ⟨⟨effect.outcome.log, ?_⟩, FileSystem.read_write hwrite hpath,
    FileSystem.find?_write hwrite hpath⟩
  rw [← hresult]

/-- A resolution is what the resolver of the project finds. -/
lemma resolution?_resolve {r : Resolver} (h : w.project.resolver w.files cwd = .ok r) :
    (w.perform cwd .resolve).resolution? cwd = (r.resolve w.files).result.toOption := by
  rw [Step.resolution?, perform_action, perform_before, Project.outcome_resolve h]

/-- If the project cannot be resolved first, there is nothing to generate from. -/
lemma perform_generate_of_error {gen : Generator} {folder : String} {failure : Failure}
    (h : w.project.graph = none)
    (hresolve : (w.project.resolve w.files cwd).outcome.result = .error failure) :
    (w.perform cwd (.generate gen folder)).after = w ∧
    ∃ log, (w.perform cwd (.generate gen folder)).result = .generated ⟨.error failure, log⟩ := by
  rcases w.project.resolve_cases w.files cwd with ⟨failure', log, heq⟩ | ⟨g, log, heq⟩
  · rw [heq] at hresolve
    cases hresolve
    rw [perform, Project.generate_of_error h heq]
    exact ⟨rfl, log, rfl⟩
  · rw [heq] at hresolve
    cases hresolve

/-- A generator by itself fails without a graph and changes nothing. -/
lemma perform_generateNow_unresolved (h : w.project.graph = none) (fileName folder : String) :
    (w.perform cwd (.generateNow (.makefile fileName) folder)).after = w ∧
    (w.perform cwd (.generateNow (.makefile fileName) folder)).result =
      .generated ⟨.error (.generate (.unresolved "make")), []⟩ := by
  rw [perform, Project.generateNow_unresolved h]
  exact ⟨rfl, rfl⟩

/-- What is told and written where something is generated. -/
lemma perform_generated {outcome : Outcome Written}
    (h : (w.perform cwd action).result = .generated outcome) :
    (w.project.graph ≠ none → scanned outcome.log = []) ∧
    ∀ written, outcome.result = .ok written →
      ∃ bytes, (w.perform cwd action).Writes cwd written bytes := by
  obtain ⟨gen, folder, haction⟩ : ∃ gen folder,
      action = .generate gen folder ∨ action = .generateNow gen folder := by
    cases action with
    | edit files => cases h
    | resolve => cases h
    | generate gen folder => exact ⟨gen, folder, .inl rfl⟩
    | generateNow gen folder => exact ⟨gen, folder, .inr rfl⟩
  obtain ⟨effect, hgenerates, heffect⟩ := perform_generates (w := w) haction
  rw [heffect] at h ⊢
  cases h
  refine ⟨hgenerates.unscanned, fun written hwritten => ?_⟩
  obtain ⟨hrenders, bytes, hencode, hwrite⟩ := hgenerates.written written hwritten
  have hpath := hrenders.noSeparator
  exact ⟨bytes, ⟨gen, folder, haction, hrenders⟩, hencode, FileSystem.read_write hwrite hpath,
    FileSystem.find?_write hwrite hpath⟩

end Workspace

section
variable {cwd : Location} {w : Workspace} {s : Step} {past future : List Step}

/-- The last graph is that of the later steps, if they have one. -/
lemma lastGraph?_cons (cwd : Location) (s : Step) (steps : List Step) :
    lastGraph? cwd (s :: steps) = (lastGraph? cwd steps).or (s.resolution? cwd) := by
  rw [lastGraph?, List.filterMap_cons]
  cases s.resolution? cwd with
  | none => simp [lastGraph?]
  | some g => simp [lastGraph?, List.getLast?_cons]

/-- The last graph is that of the last step, if it has one. -/
lemma lastGraph?_concat (cwd : Location) (steps : List Step) (s : Step) :
    lastGraph? cwd (steps ++ [s]) = (s.resolution? cwd).or (lastGraph? cwd steps) := by
  rw [lastGraph?, List.filterMap_append]
  cases h : s.resolution? cwd <;> simp [lastGraph?, h]

/-- In the course of a history a project has the graph of the last resolution that succeeded, or
else the one that it had at the beginning. -/
lemma Workspace.history_project {actions : List Action}
    (h : w.history cwd actions = past ++ s :: future) :
    s = s.before.perform cwd s.action ∧
    s.before.project = { w.project with graph := (lastGraph? cwd past).or w.project.graph } := by
  induction past generalizing w actions with
  | nil =>
    cases actions with
    | nil => cases h
    | cons action actions =>
      rw [history] at h
      obtain ⟨rfl, -⟩ := List.cons.inj h
      simp [lastGraph?]
  | cons first past ih =>
    cases actions with
    | nil => cases h
    | cons action actions =>
      rw [history] at h
      obtain ⟨rfl, hrest⟩ := List.cons.inj h
      obtain ⟨hs, hproject⟩ := ih hrest
      refine ⟨hs, hproject.trans ?_⟩
      rw [perform_project, lastGraph?_cons, Option.or_assoc]

/-- In the course of any history that begins with a new project, the project has the graph that
`Project.resolve` returned when it last succeeded, and none before that; nothing else about it
changes. A resolution changes no file. What fails changes no file either, unless the text of a
Makefile cannot be encoded: wherever this happens and the file can be opened, it is left empty. As
long as there is no graph, `Project.generate` ends where the resolution fails, with the project
unresolved, and a generator of its own fails. A generator that succeeds has written what is rendered
from the graph that the project has then, in UTF-8 if this is the encoding, and nothing else; and
once there is a graph, nothing is scanned to generate. -/
theorem project_history {root : Path} {config : Config} {libraries : LibraryTable} {host : Host}
    {files : FileSystem} {actions : List Action}
    (h : (⟨.new root config libraries host, files⟩ : Workspace).history cwd actions =
      past ++ s :: future) :
    s = s.before.perform cwd s.action ∧
    s.before.project =
      { Project.new root config libraries host with graph := lastGraph? cwd past } ∧
    s.after.project =
      { Project.new root config libraries host with graph := lastGraph? cwd (past ++ [s]) } ∧
    (s.action = .resolve → s.after.files = s.before.files) ∧
    (s.result.Fails → s.after.files = s.before.files ∨ ∃ path text e, s.Renders path text ∧
      host.encoding.encode text = .error e ∧ s.Empties cwd path e) ∧
    (∀ path text e emptied, s.Renders path text → host.encoding.encode text = .error e →
      s.before.files.write cwd path [] = .ok emptied → s.Empties cwd path e) ∧
    (lastGraph? cwd past = none →
      (∀ gen folder failure, s.action = .generate gen folder →
        (s.before.project.resolve s.before.files cwd).outcome.result = .error failure →
        s.after = s.before ∧ ∃ log, s.result = .generated ⟨.error failure, log⟩) ∧
      ∀ fileName folder, s.action = .generateNow (.makefile fileName) folder →
        s.after = s.before ∧
        s.result = .generated ⟨.error (.generate (.unresolved "make")), []⟩) ∧
    ∀ outcome, s.result = .generated outcome →
      (lastGraph? cwd past ≠ none → scanned outcome.log = []) ∧
      ∀ written, outcome.result = .ok written → ∃ bytes, s.Writes cwd written bytes ∧
        ∀ isSurrogate, host.encoding = .utf8 isSurrogate →
          bytes = written.text.toUTF8.data.toList := by
  obtain ⟨hs, hbefore⟩ := Workspace.history_project h
  obtain ⟨w, action, rfl⟩ : ∃ (w : Workspace) (action : Action), s = w.perform cwd action :=
    ⟨_, _, hs⟩
  rw [Workspace.perform_before] at hbefore
  have hgraph : w.project.graph = lastGraph? cwd past := by
    rw [hbefore]
    exact Option.or_none
  have hhost : w.project.host = host := by
    rw [hbefore]
    rfl
  have hafter : (w.perform cwd action).after.project =
      { Project.new root config libraries host with
        graph := lastGraph? cwd (past ++ [w.perform cwd action]) } := by
    rw [Workspace.perform_project, lastGraph?_concat, hgraph, hbefore]
  rw [Workspace.perform_before, Workspace.perform_action, ← hgraph, ← hhost]
  refine ⟨rfl, ?_, hhost ▸ hafter, ?_, Workspace.perform_files, ?_, fun hnone => ⟨?_, ?_⟩,
    fun outcome houtcome => ?_⟩
  · rw [hgraph, hhost, hbefore]
    exact congrArg (Project.mk _ _ _ _) Option.or_none
  · rintro rfl
    exact Workspace.perform_resolve_files cwd w
  · exact fun path text e emptied => Workspace.perform_empties
  · rintro gen folder failure rfl hresolve
    exact Workspace.perform_generate_of_error hnone hresolve
  · rintro fileName folder rfl
    exact Workspace.perform_generateNow_unresolved hnone fileName folder
  · obtain ⟨hunscanned, hwritten⟩ := Workspace.perform_generated houtcome
    refine ⟨hunscanned, fun written hok => ?_⟩
    obtain ⟨bytes, hwrites⟩ := hwritten written hok
    refine ⟨bytes, hwrites, fun isSurrogate hutf8 => ?_⟩
    have hencode := hwrites.encoded
    rw [Workspace.perform_before, hutf8, Text.Encoding.encode_utf8_eq_ok_iff] at hencode
    rw [hencode.2, Text.Utf8.encode_toList]

end

/-- A new project, in a directory whose files include each other. -/
def cyclicWorkspace : Workspace where
  project := .new .here ⟨"gcc", "c", "app", "c99", "O0", ["tests"], "main"⟩ .standard
    CommandLine.roomyHost
  files := Resolver.cyclicTree

/-- The project is resolved. Then an include is broken, so that the project cannot be resolved any
more, and its Makefile is written. -/
def brokenHistory : List Action :=
  [.resolve, .edit Resolver.brokenTree, .resolve, .generate (.makefile "Makefile") "."]

/-- What is written is the graph of the resolution that succeeded. -/
theorem project_history_broken : ∃ past s,
    cyclicWorkspace.history ["p"] brokenHistory = past ++ [s] ∧
    s.before.project.graph = some Resolver.cyclicGraph ∧
    ∀ outcome, s.result = .generated outcome → scanned outcome.log = [] := by
  have hcyclic : cyclicWorkspace.project.resolver cyclicWorkspace.files ["p"] =
      .ok Resolver.cyclic := by
    cbv
  have hbroken : Resolver.create Resolver.brokenTree ["p"] .here "c" .standard
      Resolver.roomy = .ok Resolver.broken := by
    cbv
  let first := cyclicWorkspace.perform ["p"] .resolve
  let second := first.after.perform ["p"] (.edit Resolver.brokenTree)
  let third := second.after.perform ["p"] .resolve
  have hfirst : first.resolution? ["p"] = some Resolver.cyclicGraph := by
    rw [Workspace.resolution?_resolve hcyclic]
    exact congrArg Except.toOption Resolver.resolve_cyclic
  have hthird : third.resolution? ["p"] = none := by
    have hresolver : second.after.project.resolver Resolver.brokenTree ["p"] =
        .ok Resolver.broken := by
      rw [Workspace.perform_project, Workspace.perform_project]
      exact hbroken
    rw [Workspace.resolution?_resolve hresolver]
    exact congrArg Except.toOption Resolver.resolve_broken
  have hlast : lastGraph? ["p"] [first, second, third] = some Resolver.cyclicGraph := by
    rw [lastGraph?_cons, lastGraph?_cons, lastGraph?_cons, hfirst, hthird]
    rfl
  have hhistory : cyclicWorkspace.history ["p"] brokenHistory = [first, second, third] ++
      [third.after.perform ["p"] (.generate (.makefile "Makefile") ".")] := rfl
  obtain ⟨-, hbefore, -, -, -, -, -, hgenerated⟩ := project_history hhistory
  refine ⟨_, _, hhistory, ?_, fun outcome houtcome => ?_⟩
  · rw [hbefore]
    exact hlast
  · exact (hgenerated outcome houtcome).1 (by rw [hlast]; simp)

/-- A new project among files with the Makefile of an earlier run. The name of the program is no
text. -/
def staleWorkspace : Workspace where
  project := .new .here (CommandLine.plainConfig "\uFFFF") .standard CommandLine.surrogateHost
  files := CommandLine.staleTree

/-- To generate can fail and change a file: the Makefile of an earlier run is left empty. -/
theorem generate_truncates : ∃ s,
    staleWorkspace.history [] [.generate (.makefile "make") "."] = [s] ∧ s.result.Fails ∧
    s.before.files.read [] (.ofString "make") = .ok [111, 108, 100] ∧
    s.after.files.read [] (.ofString "make") = .ok [] := by
  have hresolver : staleWorkspace.project.resolver staleWorkspace.files [] =
      .ok CommandLine.staleResolver := by
    cbv
  let step := staleWorkspace.perform [] (.generate (.makefile "make") ".")
  have hgraph : step.after.project.graph = some CommandLine.staleGraph := by
    have hreturned : step.resolution? [] = some CommandLine.staleGraph := by
      change (staleWorkspace.project.resolve staleWorkspace.files []).outcome.result.toOption = _
      rw [Project.outcome_resolve hresolver]
      exact congrArg Except.toOption CommandLine.resolve_staleTree
    rw [Workspace.perform_project, hreturned]
    rfl
  have hconfig : step.after.project.config = CommandLine.plainConfig "\uFFFF" := by
    rw [Workspace.perform_project]
    rfl
  have hrenders : step.Renders (CommandLine.outputPath "." "make") (Makefile.print
      (Makefile.lines CommandLine.staleGraph (CommandLine.plainConfig "\uFFFF"))) :=
    ⟨_, _, .inl rfl, .makefile hgraph (hconfig ▸ CommandLine.render_staleGraph "\uFFFF")⟩
  have hprogram : '\uFFFF' ∈ (CommandLine.plainConfig "\uFFFF").program.toList := by decide
  have hlacks : CommandLine.surrogateHost.encoding.has '\uFFFF' = false := by decide
  obtain ⟨e, hencode⟩ := Makefile.exists_encode_error CommandLine.staleGraph _ hprogram hlacks
  obtain ⟨files, hwrite⟩ := CommandLine.exists_write_staleTree
  have hempties := Workspace.perform_empties hrenders hencode hwrite
  obtain ⟨log, hfailed⟩ := hempties.failed
  refine ⟨step, rfl, ?_, by cbv, ?_⟩
  · rw [hfailed]
    exact ⟨_, rfl⟩
  · have hread := hempties.read
    have hpath : CommandLine.outputPath "." "make" = .ofString "make" := by
      cbv
    rwa [hpath] at hread

end MakeDeps
