import ImportChart.Proofs.FileSystem
import ImportChart.Proofs.Walk
import ImportChart.Run
import Mathlib.Control.Monad.Basic

/-!
# What a run does to the files

All stages of a run but the last only read: how they end is told by the files alone, and they leave
them as they are, whether they succeed or fail (`Stage.ReadsOnly`). Such stages compose to such
stages (`Stage.ReadsOnly.bind`), so each part of a run is looked at by itself, and `Run.text` says
without any effect what they come to: the text to be written, or the failure
(`Run.document_readsOnly`).

`Run.FailsEarly` lists where a run can fail before it writes: over its configuration, over a
directory that is not there, over the walk through it or a file that cannot be read, over options
that no diagram can be drawn with, and over a record that has no text. There is no other place
(`Run.text_eq_error_iff`), whatever walk is taken and however records are written as text.

The last stage writes, and it writes once. So a run that fails early leaves every file as it was,
and one that succeeds has put its text at its output path and changed nothing else
(`run_writes_once`). A write that fails has failed before it changed anything: a file system has no
other failures here than those of opening the file.
-/

namespace ImportChart

/-! ## Stages that only read -/

namespace Stage

/-- A stage that starts with some files ends in a certain way and leaves the files as they are. It
may add to what has been told. -/
def ReadsOnly (stage : Stage α) (system : FileSystem) (outcome : Except Failure α) : Prop :=
  ∀ log, ∃ told, stage.run.run { system, log } = (outcome, { system, log := log ++ told })

variable {system : FileSystem}

/-- The second of two stages goes on where the first has succeeded. -/
theorem run_bind (stage : Stage α) (next : α → Stage β) (world : World) :
    (stage >>= next).run.run world =
      match stage.run.run world with
      | (.ok a, after) => (next a).run.run after
      | (.error failure, after) => (.error failure, after) := by
  rw [ExceptT.run_bind, StateT.run_bind]
  rcases stage.run.run world with ⟨_ | _, after⟩
  · rfl
  · rfl

/-- A write fails and leaves the files as they are, or leaves them as they are after it. -/
theorem run_writeFile (path : String) (content : List UInt8) (world : World) :
    (writeFile path content).run.run world =
      match world.system.write path content with
      | .error cause => (.error (.io cause.message), world)
      | .ok after => (.ok (), { world with system := after }) := by
  have hfiles : files.run.run world = (.ok world.system, world) := rfl
  rw [writeFile, run_bind, hfiles]
  dsimp only
  cases world.system.write path content with
  | error cause => rfl
  | ok after => rfl

namespace ReadsOnly

theorem ofExcept (outcome : Except Failure α) :
    ReadsOnly (MonadExcept.ofExcept outcome) system outcome := by
  intro log
  refine ⟨[], ?_⟩
  rw [List.append_nil]
  cases outcome with
  | error failure => rfl
  | ok a => rfl

theorem pure (a : α) : ReadsOnly (Pure.pure a) system (.ok a) :=
  ofExcept (.ok a)

theorem note (notice : Notice) : ReadsOnly (note notice) system (.ok ()) :=
  fun _ => ⟨[notice], rfl⟩

theorem files : ReadsOnly files system (.ok system) := by
  intro log
  exact ⟨[], by rw [List.append_nil]; rfl⟩

/-- Stages that only read, one after the other, only read. -/
theorem bind {stage : Stage α} {next : α → Stage β} {outcome : Except Failure α}
    {more : α → Except Failure β} (hstage : stage.ReadsOnly system outcome)
    (hnext : ∀ a, outcome = .ok a → (next a).ReadsOnly system (more a)) :
    (stage >>= next).ReadsOnly system (outcome >>= more) := by
  intro log
  obtain ⟨told, hrun⟩ := hstage log
  rw [run_bind, hrun]
  cases houtcome : outcome with
  | error failure => exact ⟨told, rfl⟩
  | ok a =>
    obtain ⟨later, hlater⟩ := hnext a houtcome (log ++ told)
    exact ⟨told ++ later, by rw [← List.append_assoc]; exact hlater⟩

/-- A stage that only reads may hand on what it found to one that cannot fail. -/
theorem map {stage : Stage α} {next : α → Stage β} {outcome : Except Failure α} {f : α → β}
    (hstage : stage.ReadsOnly system outcome) (hnext : ∀ a, (next a).ReadsOnly system (.ok (f a))) :
    (stage >>= next).ReadsOnly system (outcome.map f) := by
  have h : (stage >>= next).ReadsOnly system (outcome >>= fun a => .ok (f a)) :=
    hstage.bind fun a _ => hnext a
  cases outcome with
  | error failure => exact h
  | ok a => exact h

/-- A stage that succeeds and only reads can be put before another. -/
theorem bind_ok {stage : Stage α} {next : α → Stage β} {a : α} {outcome : Except Failure β}
    (hstage : stage.ReadsOnly system (.ok a)) (hnext : (next a).ReadsOnly system outcome) :
    (stage >>= next).ReadsOnly system outcome := by
  have h : (stage >>= next).ReadsOnly system (.ok a >>= fun _ => outcome) :=
    hstage.bind fun b hb => by
    cases hb
    exact hnext
  exact h

theorem forM (items : List β) (notice : β → Notice) :
    ReadsOnly (items.forM fun item => Stage.note (notice item)) system (.ok ()) := by
  induction items with
  | nil => exact pure ()
  | cons item rest ih => exact (note (notice item)).bind_ok ih

end ReadsOnly

end Stage

/-! ## The parts of a run -/

/-- The diagram of an analysis, or of its file in focus. -/
def Analysis.diagram (analysis : Analysis) (focus : Option String)
    (drawn : RenderOptions) : String :=
  match focus with
  | some path => Diagram.renderFile (.tree analysis.tree) path drawn.direction
  | none => Diagram.render (.tree analysis.tree) drawn

/-- The text that is made of an analysis: a record of it, whatever the render settings are, or a
diagram, if they can be drawn with. -/
def Analysis.rendering (analysis : Analysis) (services : Services) (options : RunOptions)
    (settings : RenderSettings) : Except Failure String :=
  match options.format with
  | .json => (services.serialize (Run.record analysis)).mapError Failure.exporting
  | .mermaid =>
    (settings.validate.mapError SettingsError.failure).map (analysis.diagram options.focus)

namespace Run

open Stage

/-- The settings that a run works with: those of its configuration file, or the defaults if there is
none, with the options put over them. -/
def effectiveSettings (options : RunOptions) (userDirectory : Option String) (system : FileSystem) :
    Except Failure Settings :=
  match ConfigurationSource.find? system options.configuration userDirectory with
  | none => .ok (options.applyTo {})
  | some source => ((source.read system).mapError Failure.configuration).map options.applyTo

/-- The text that a run writes, or its failure before it writes. -/
def text (services : Services) (arguments : Arguments) (userDirectory : Option String)
    (system : FileSystem) : Except Failure String := do
  let settings ← effectiveSettings arguments.options userDirectory system
  let snapshot ← system.snapshot services.walk arguments.input settings.analysis.includeUnrecognized
  (snapshot.analyze settings.analysis).rendering services arguments.options settings.render

variable (system : FileSystem)

theorem settings_readsOnly (options : RunOptions) (userDirectory : Option String) :
    (settings options userDirectory).ReadsOnly system
      (effectiveSettings options userDirectory system) := by
  refine ReadsOnly.files.bind_ok ?_
  rw [effectiveSettings]
  cases ConfigurationSource.find? system options.configuration userDirectory with
  | none => exact .pure _
  | some source =>
    exact (ReadsOnly.note _).bind_ok
      (ReadsOnly.files.bind_ok ((ReadsOnly.ofExcept _).map fun _ => .pure _))

theorem snapshot_readsOnly (walk : Walk) (root : String) (settings : AnalysisSettings) :
    (snapshot walk root settings).ReadsOnly system
      (system.snapshot walk root settings.includeUnrecognized) := by
  refine ReadsOnly.files.bind_ok ?_
  exact (ReadsOnly.ofExcept _).map fun loaded => (ReadsOnly.note _).bind_ok (.pure _)

theorem analysis_readsOnly (snapshot : Snapshot) (settings : AnalysisSettings) :
    (analysis snapshot settings).ReadsOnly system (.ok (snapshot.analyze settings)) := by
  have hlast : ∀ notice,
      (Stage.note notice >>= fun _ => Pure.pure (snapshot.analyze settings)).ReadsOnly system
      (.ok (snapshot.analyze settings)) := fun notice => (ReadsOnly.note notice).bind_ok (.pure _)
  rw [analysis]
  dsimp only
  split
  · exact (ReadsOnly.note _).bind_ok (hlast _)
  · exact hlast _

theorem warnings_readsOnly (snapshot : Snapshot) (diagnostics : List Diagnostic) (detailed : Bool) :
    (warnings snapshot diagnostics detailed).ReadsOnly system (.ok ()) := by
  rw [warnings]
  split
  · exact .forM _ _
  · split
    · exact .pure ()
    · exact .note _

theorem renderOptions_readsOnly (settings : RenderSettings) :
    (renderOptions settings).ReadsOnly system (settings.validate.mapError SettingsError.failure) :=
  .ofExcept _

theorem diagram_readsOnly (analysis : Analysis) (settings : RenderSettings)
    (focus : Option String) :
    (diagram analysis settings focus).ReadsOnly system
      ((settings.validate.mapError SettingsError.failure).map (analysis.diagram focus)) := by
  have hlast : ∀ diagram,
      (Stage.note (.drawn (.ofDiagram diagram)) >>= fun _ => Pure.pure diagram).ReadsOnly system
      (.ok diagram) := fun diagram => (ReadsOnly.note _).bind_ok (.pure diagram)
  unfold diagram
  cases focus with
  | none => exact (renderOptions_readsOnly system settings).map fun _ =>
      (ReadsOnly.note _).bind_ok (hlast _)
  | some path =>
    have hfocused := (renderOptions_readsOnly system settings).map fun drawn =>
      hlast (analysis.diagram (some path) drawn)
    dsimp only
    split
    · exact (ReadsOnly.note _).bind_ok hfocused
    · exact hfocused

/-- **What a run comes to before it writes.** It leaves the files as they are. -/
theorem document_readsOnly (services : Services) (arguments : Arguments)
    (userDirectory : Option String) :
    (document services arguments userDirectory).ReadsOnly system
      (text services arguments userDirectory system) := by
  refine (ReadsOnly.note _).bind_ok ((settings_readsOnly system _ _).bind fun settings _ => ?_)
  refine (snapshot_readsOnly system _ _ _).bind fun snapshot _ => ?_
  refine (analysis_readsOnly system _ _).bind_ok ((warnings_readsOnly system _ _ _).bind_ok ?_)
  rw [Analysis.rendering]
  cases arguments.options.format with
  | mermaid => exact diagram_readsOnly system _ _ _
  | json => exact .ofExcept _

/-! ## Early failures -/

section Failures

variable {system} {services : Services} {arguments : Arguments}
  {userDirectory : Option String} {failure : Failure}

/-- Where a run fails before it writes, the stages before that being done. -/
inductive FailsEarly (services : Services) (arguments : Arguments) (userDirectory : Option String)
    (system : FileSystem) : Failure → Prop where
  /-- Its configuration file is missing, cannot be read, or is no configuration. -/
  | configuration {source : ConfigurationSource} {cause : ConfigurationError} :
      ConfigurationSource.find? system arguments.options.configuration userDirectory = some source →
      source.read system = .error cause →
      FailsEarly services arguments userDirectory system (.configuration cause)
  /-- No directory is at its input path. -/
  | directory {settings : Settings} :
      effectiveSettings arguments.options userDirectory system = .ok settings →
      system.directoryAt? arguments.input = none →
      FailsEarly services arguments userDirectory system
        (.io ("input directory not found: " ++ arguments.input))
  /-- The walk through the directory fails, or it comes to a file that cannot be read. -/
  | loading {settings : Settings} {directory : Place} {before after : List (Except String Visit)}
      {item : Except String Visit} {loaded : List (String × String)} {failure : Failure} :
      effectiveSettings arguments.options userDirectory system = .ok settings →
      system.directoryAt? arguments.input = some directory →
      services.walk system arguments.input = before ++ item :: after →
      system.loadVisits directory settings.analysis.includeUnrecognized before = .ok loaded →
      system.StopsAt directory settings.analysis.includeUnrecognized item failure →
      FailsEarly services arguments userDirectory system failure
  /-- It is to draw a diagram, and its options are wrong. -/
  | options {settings : Settings} {snapshot : Snapshot} {wrong : SettingsError} :
      effectiveSettings arguments.options userDirectory system = .ok settings →
      system.snapshot services.walk arguments.input settings.analysis.includeUnrecognized =
        .ok snapshot →
      arguments.options.format = .mermaid → settings.render.validate = .error wrong →
      FailsEarly services arguments userDirectory system wrong.failure
  /-- It is to write a record, and the record has no text. -/
  | exporting {settings : Settings} {snapshot : Snapshot} {cause : String} :
      effectiveSettings arguments.options userDirectory system = .ok settings →
      system.snapshot services.walk arguments.input settings.analysis.includeUnrecognized =
        .ok snapshot →
      arguments.options.format = .json →
      services.serialize (record (snapshot.analyze settings.analysis)) = .error cause →
      FailsEarly services arguments userDirectory system (.exporting cause)

theorem effectiveSettings_eq_error_iff {options : RunOptions} :
    effectiveSettings options userDirectory system = .error failure ↔
      ∃ source cause,
        ConfigurationSource.find? system options.configuration userDirectory = some source ∧
        source.read system = .error cause ∧ failure = .configuration cause := by
  rw [effectiveSettings]
  cases ConfigurationSource.find? system options.configuration userDirectory with
  | none => simp
  | some source =>
    cases hread : source.read system with
    | error cause => simp [hread, Except.mapError, Except.map, eq_comm]
    | ok settings => simp [hread, Except.mapError, Except.map]

theorem rendering_eq_error_iff {analysis : Analysis} {options : RunOptions}
    {settings : RenderSettings} :
    analysis.rendering services options settings = .error failure ↔
      (options.format = .mermaid ∧
        ∃ wrong, settings.validate = .error wrong ∧ failure = wrong.failure) ∨
      (options.format = .json ∧
        ∃ cause, services.serialize (record analysis) = .error cause ∧
          failure = .exporting cause) := by
  rw [Analysis.rendering]
  cases options.format with
  | mermaid =>
    cases settings.validate with
    | error wrong => simp [Except.mapError, Except.map, eq_comm]
    | ok drawn => simp [Except.mapError, Except.map]
  | json =>
    cases services.serialize (record analysis) with
    | error cause => simp [Except.mapError, eq_comm]
    | ok text => simp [Except.mapError]

/-- One computation after another fails where the first does, or where the second does. -/
theorem bind_eq_error_iff {first : Except Failure α} {next : α → Except Failure β} :
    (first >>= next) = .error failure ↔
      first = .error failure ∨ ∃ a, first = .ok a ∧ next a = .error failure := by
  cases first with
  | error cause => simp [bind, Except.bind]
  | ok a => simp [bind, Except.bind]

theorem map_eq_error_iff {first : Except Failure α} {f : α → β} :
    first.map f = .error failure ↔ first = .error failure := by
  cases first with
  | error cause => simp [Except.map]
  | ok a => simp [Except.map]

/-- A run fails before it writes exactly where one of its stages fails. -/
theorem text_eq_error_iff : text services arguments userDirectory system = .error failure ↔
    FailsEarly services arguments userDirectory system failure := by
  have hsnapshot : ∀ settings : AnalysisSettings,
      system.snapshot services.walk arguments.input settings.includeUnrecognized =
          .error failure ↔
        system.loadFiles services.walk arguments.input settings.includeUnrecognized =
          .error failure :=
    fun _ => map_eq_error_iff
  rw [text, bind_eq_error_iff, effectiveSettings_eq_error_iff]
  simp only [bind_eq_error_iff, rendering_eq_error_iff, hsnapshot,
    FileSystem.loadFiles_eq_error_iff]
  constructor
  · rintro (⟨source, cause, hfind, hread, rfl⟩ | ⟨settings, hsettings,
      hload | ⟨snapshot, hloaded, hrender⟩⟩)
    · exact .configuration hfind hread
    · obtain ⟨hnone, rfl⟩ | ⟨directory, before, item, after, loaded, hdirectory, hwalk,
          hbefore, hstops⟩ := hload
      · exact .directory hsettings hnone
      · exact .loading hsettings hdirectory hwalk hbefore hstops
    · obtain ⟨hformat, wrong, hwrong, rfl⟩ | ⟨hformat, cause, hcause, rfl⟩ := hrender
      · exact .options hsettings hloaded hformat hwrong
      · exact .exporting hsettings hloaded hformat hcause
  · intro h
    cases h with
    | configuration hfind hread => exact .inl ⟨_, _, hfind, hread, rfl⟩
    | directory hsettings hnone => exact .inr ⟨_, hsettings, .inl (.inl ⟨hnone, rfl⟩)⟩
    | loading hsettings hdirectory hwalk hbefore hstops =>
      exact .inr ⟨_, hsettings, .inl (.inr ⟨_, _, _, _, _, hdirectory, hwalk, hbefore, hstops⟩)⟩
    | options hsettings hloaded hformat hwrong =>
      exact .inr ⟨_, hsettings, .inr ⟨_, hloaded, .inl ⟨hformat, _, hwrong, rfl⟩⟩⟩
    | exporting hsettings hloaded hformat hcause =>
      exact .inr ⟨_, hsettings, .inr ⟨_, hloaded, .inr ⟨hformat, _, hcause, rfl⟩⟩⟩

end Failures

end Run

/-! ## The run -/

section Whole

variable {services : Services} {arguments : Arguments} {userDirectory : Option String}
  {system : FileSystem}

/-- A run whose text cannot be made fails so and writes nothing. -/
theorem run_of_text_eq_error {failure : Failure}
    (h : Run.text services arguments userDirectory system = .error failure) :
    (run services arguments userDirectory system).result = .error failure ∧
      (run services arguments userDirectory system).system = system := by
  obtain ⟨told, hdocument⟩ := Run.document_readsOnly system services arguments userDirectory []
  rw [run, Run.whole, Stage.run_bind, hdocument, h]
  exact ⟨rfl, rfl⟩

/-- A run whose text is made ends as the write of it does. -/
theorem run_of_text_eq_ok {text : String}
    (h : Run.text services arguments userDirectory system = .ok text) :
    match system.destination arguments.options.output with
    | .error cause =>
      (run services arguments userDirectory system).result = .error (.io cause.message) ∧
        (run services arguments userDirectory system).system = system
    | .ok place =>
      (run services arguments userDirectory system).result = .ok () ∧
        (run services arguments userDirectory system).system =
          system.put place (.file (Utf8.encode text)) := by
  obtain ⟨told, hdocument⟩ := Run.document_readsOnly system services arguments userDirectory []
  rw [run, Run.whole, Stage.run_bind, hdocument, h]
  dsimp only
  rw [Stage.run_bind, Stage.run_writeFile, FileSystem.write]
  cases system.destination arguments.options.output with
  | error cause => exact ⟨rfl, rfl⟩
  | ok place => exact ⟨rfl, rfl⟩

/-- A run whose text is made and can be put somewhere succeeds, and the text is put there. -/
theorem run_of_destination {text : String} {place : Place}
    (h : Run.text services arguments userDirectory system = .ok text)
    (hplace : system.destination arguments.options.output = .ok place) :
    (run services arguments userDirectory system).result = .ok () ∧
      (run services arguments userDirectory system).system =
        system.put place (.file (Utf8.encode text)) := by
  have hended := run_of_text_eq_ok h
  rw [hplace] at hended
  exact hended

/-- A run that fails leaves every file as it was. It has failed early, or its output path is none
where a file can be put. -/
theorem run_of_result_eq_error {failure : Failure}
    (h : (run services arguments userDirectory system).result = .error failure) :
    (run services arguments userDirectory system).system = system ∧
      (Run.FailsEarly services arguments userDirectory system failure ∨
        ∃ cause, system.destination arguments.options.output = .error cause ∧
          failure = .io cause.message) := by
  cases htext : Run.text services arguments userDirectory system with
  | error cause =>
    obtain ⟨hresult, hsystem⟩ := run_of_text_eq_error htext
    cases hresult.symm.trans h
    exact ⟨hsystem, .inl (Run.text_eq_error_iff.mp htext)⟩
  | ok text =>
    have hended := run_of_text_eq_ok htext
    cases hplace : system.destination arguments.options.output with
    | error cause =>
      rw [hplace] at hended
      cases hended.1.symm.trans h
      exact ⟨hended.2, .inr ⟨cause, rfl, rfl⟩⟩
    | ok place =>
      rw [hplace] at hended
      cases hended.1.symm.trans h

/-- A run that succeeds has made its text and put it at its output path. -/
theorem run_of_result_eq_ok (h : (run services arguments userDirectory system).result = .ok ()) :
    ∃ text place, Run.text services arguments userDirectory system = .ok text ∧
      system.destination arguments.options.output = .ok place ∧
      (run services arguments userDirectory system).system =
        system.put place (.file (Utf8.encode text)) := by
  cases htext : Run.text services arguments userDirectory system with
  | error cause => cases (run_of_text_eq_error htext).1.symm.trans h
  | ok text =>
    have hended := run_of_text_eq_ok htext
    cases hplace : system.destination arguments.options.output with
    | error cause =>
      rw [hplace] at hended
      cases hended.1.symm.trans h
    | ok place =>
      rw [hplace] at hended
      exact ⟨text, place, rfl, rfl, hended.2⟩

end Whole

/-- **A run writes once, and last.** Whatever walk it takes and however records are written as text,
a run that fails before it writes, at any of its stages, fails so and leaves every file as it was. A
run does not fail otherwise, unless its output path is none where a file can be put, and then it
changes nothing either. If it succeeds, the text that it is to write lies at its output path, and
every other place holds what it held. It does succeed if the text is made and its output path is one
where a file can be put. -/
theorem run_writes_once (services : Services) (arguments : Arguments)
    (userDirectory : Option String) (system : FileSystem) :
    let ended := run services arguments userDirectory system
    (∀ failure, Run.FailsEarly services arguments userDirectory system failure →
      ended.result = .error failure ∧ ended.system = system) ∧
    (∀ failure, ended.result = .error failure → ended.system = system ∧
      (Run.FailsEarly services arguments userDirectory system failure ∨
        ∃ cause, system.destination arguments.options.output = .error cause ∧
          failure = .io cause.message)) ∧
    (ended.result = .ok () → ∃ text place,
      Run.text services arguments userDirectory system = .ok text ∧
      system.destination arguments.options.output = .ok place ∧
      ended.system = system.put place (.file (Utf8.encode text)) ∧
      (∀ other, ended.system.get? other =
        if place = other then some (.file (Utf8.encode text)) else system.get? other) ∧
      (place ∉ system.unreadable →
        ended.system.read arguments.options.output = .ok (Utf8.encode text))) ∧
    (∀ text place, Run.text services arguments userDirectory system = .ok text →
      system.destination arguments.options.output = .ok place → ended.result = .ok ()) := by
  intro ended
  refine ⟨fun _ hearly => run_of_text_eq_error (Run.text_eq_error_iff.mpr hearly),
    fun _ => run_of_result_eq_error, fun hok => ?_,
    fun _ _ htext hplace => (run_of_destination htext hplace).1⟩
  obtain ⟨text, place, htext, hplace, hsystem⟩ := run_of_result_eq_ok hok
  refine ⟨text, place, htext, hplace, hsystem, fun other => ?_, fun hreadable => ?_⟩
  · rw [hsystem]
    exact FileSystem.get?_put system place other _ (FileSystem.destination_ne_nil hplace)
  · rw [hsystem]
    exact FileSystem.read_put hplace hreadable

/-- A directory with one file, and the output file of an earlier run beside it. -/
def chartedBefore : FileSystem where
  entries :=
    [(["out.mmd"], .file (Utf8.encode "graph TB\n")), (["repo"], .directory),
     (["repo", "a.js"], .file (Utf8.encode "import 'react';"))]
  workingDirectory := []

/-- The same, but the file in the directory may not be read. -/
def protectedSource : FileSystem :=
  { chartedBefore with unreadable := [["repo", "a.js"]] }

/-- A walk that comes to one file and breaks off. -/
def brokenOff : Walk := fun _ _ =>
  [.ok { names := ["a.js"], isFile := true }, .error "Input/output error"]

/-- The earlier output is left by a run that cannot read a file, by one whose walk breaks off, and
by one whose record has no text. -/
theorem run_writes_once_chartedBefore :
    let drawn : Arguments := { input := "repo" }
    let recorded : Arguments := { input := "repo", options := { format := .json } }
    let denied := run .plain drawn none protectedSource
    let stopped := run { Services.plain with walk := brokenOff } drawn none chartedBefore
    let textless :=
      run { Services.plain with serialize := fun _ => .error "no text" } recorded none chartedBefore
    (denied.result = .error (.io "Permission denied (os error 13)") ∧
      denied.system = protectedSource) ∧
    (stopped.result = .error (.io "Input/output error") ∧ stopped.system = chartedBefore) ∧
    (textless.result = .error (.exporting "no text") ∧ textless.system = chartedBefore) ∧
    chartedBefore.read "out.mmd" = .ok (Utf8.encode "graph TB\n") := by
  intro drawn recorded denied stopped textless
  refine ⟨(run_writes_once _ _ _ _).1 _ ?_,
    (run_writes_once _ _ _ _).1 _ ?_, (run_writes_once _ _ _ _).1 _ ?_, by decide +kernel⟩
  · have hdirectory : protectedSource.directoryAt? "repo" = some ["repo"] := by decide +kernel
    have hwalk : Services.plain.walk protectedSource "repo" =
        [.ok { names := [], isFile := false }] ++
          .ok { names := ["a.js"], isFile := true } :: [] := by
      decide +kernel
    have hstops : protectedSource.StopsAt ["repo"] false (.ok { names := ["a.js"], isFile := true })
        (.io FileError.denied.message) := .file rfl (by decide +kernel) (by decide +kernel)
    exact .loading rfl hdirectory hwalk rfl hstops
  · have hdirectory : chartedBefore.directoryAt? "repo" = some ["repo"] := by decide +kernel
    have hloaded :
        chartedBefore.loadVisits ["repo"] false [.ok { names := ["a.js"], isFile := true }] =
        .ok [("a.js", "import 'react';")] := by decide +kernel
    have hwalk : brokenOff chartedBefore "repo" =
        [.ok { names := ["a.js"], isFile := true }] ++ .error "Input/output error" :: [] := rfl
    exact .loading rfl hdirectory hwalk hloaded (.walk _)
  · have hfiles :
        chartedBefore.loadFiles .plain "repo" false = .ok [("a.js", "import 'react';")] := by
      decide +kernel
    exact .exporting rfl (FileSystem.snapshot_of_loadFiles hfiles) rfl rfl

end ImportChart
