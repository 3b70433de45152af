import ImportChart.Proofs.Run.Outcome
import Mathlib.Control.Monad.Basic

/-!
# Which runs reject their settings

Render settings are looked at where a diagram is drawn: a direction that is none of the five is
rejected, or else a negative depth limit (`RenderSettings.validate_of_isInvalid`). Each way to draw
a diagram asks for them, that of one file in focus too, although it draws without a limit. A run
that writes a record instead of a diagram does not ask, and so it does not tell its user that they
are wrong: it ends as it would with any other render settings (`run_of_invalid_settings`).
-/

namespace ImportChart

/-! ## Settings that no diagram can be drawn with -/

/-- A text that is none of the five directions, with the space around it left out and all letters
made capitals. -/
def NamesNoDirection (text : String) : Prop :=
  ∀ direction ∈ Direction.all, (trimmed text.toList).map Char.toUpper ≠ direction.letters.toList

/-- Render settings with a direction that is none of the five, or with a negative depth limit. -/
def RenderSettings.IsInvalid (settings : RenderSettings) : Prop :=
  NamesNoDirection settings.direction ∨ ∃ depth, settings.maxDepth = some depth ∧ depth < 0

theorem Direction.ofText?_eq_none_iff {text : String} :
    ofText? text = none ↔ NamesNoDirection text := by
  rw [ofText?, List.find?_eq_none, NamesNoDirection]
  refine forall₂_congr fun direction _ => ?_
  rw [decide_eq_true_eq, ne_comm]

namespace RenderSettings

variable {settings : RenderSettings}

theorem validate_of_namesNoDirection (h : NamesNoDirection settings.direction) :
    settings.validate = .error (.invalidDirection settings.direction) := by
  rw [validate, Direction.parse, Direction.ofText?_eq_none_iff.mpr h]

theorem validate_of_negative {depth : Int} (hnamed : ¬ NamesNoDirection settings.direction)
    (hdepth : settings.maxDepth = some depth) (hnegative : depth < 0) :
    settings.validate = .error (.negativeDepth depth) := by
  rw [← Direction.ofText?_eq_none_iff] at hnamed
  obtain ⟨direction, hdirection⟩ := Option.ne_none_iff_exists'.mp hnamed
  rw [validate, Direction.parse, hdirection]
  dsimp only
  rw [hdepth]
  exact if_pos hnegative

/-- Invalid settings are rejected over their direction if that is wrong, and else over their depth
limit. -/
theorem validate_of_isInvalid (h : settings.IsInvalid) : ∃ wrong, settings.validate = .error wrong ∧
    (NamesNoDirection settings.direction → wrong.diagnostic.code = some .invalidDirection) ∧
    (¬ NamesNoDirection settings.direction → wrong.diagnostic.code = some .negativeDepth) := by
  by_cases hnamed : NamesNoDirection settings.direction
  · exact ⟨_, validate_of_namesNoDirection hnamed, fun _ => rfl, fun hnot => absurd hnamed hnot⟩
  · obtain ⟨depth, hdepth, hnegative⟩ := h.resolve_left hnamed
    exact ⟨_, validate_of_negative hnamed hdepth hnegative,
      fun hnot => absurd hnot hnamed, fun _ => rfl⟩

end RenderSettings

/-! ## Runs with such settings -/

section Runs

variable {services : Services} {arguments : Arguments} {userDirectory : Option String}
  {system : FileSystem} {settings : Settings} {snapshot : Snapshot}

/-- The text of a run is made of the analysis of what it has loaded. -/
theorem Run.text_of_loaded
    (hsettings : effectiveSettings arguments.options userDirectory system = .ok settings)
    (hsnapshot : system.snapshot services.walk arguments.input
      settings.analysis.includeUnrecognized = .ok snapshot) :
    text services arguments userDirectory system =
      (snapshot.analyze settings.analysis).rendering services arguments.options
        settings.render := by
  rw [text, hsettings]
  dsimp only [bind, Except.bind]
  rw [hsnapshot]

/-- **Runs with invalid render settings.** Let a run load its settings, which are invalid, and its
directory. If it is to draw a diagram, of everything or of one file, it fails over the direction if
that is wrong and else over the depth limit, and every file is as it was. If it is to write a
record, it does not fail over its settings, and it writes the text of the record if there is one and
its output path is one where a file can be put. -/
theorem run_of_invalid_settings
    (hsettings : Run.effectiveSettings arguments.options userDirectory system = .ok settings)
    (hsnapshot : system.snapshot services.walk arguments.input
      settings.analysis.includeUnrecognized = .ok snapshot)
    (hinvalid : settings.render.IsInvalid) :
    let ended := run services arguments userDirectory system
    (arguments.options.format = .mermaid → ∃ diagnostic,
      ended.result = .error (.settings diagnostic) ∧
      (NamesNoDirection settings.render.direction →
        diagnostic.code.map DiagnosticCode.text = some "E100") ∧
      (¬ NamesNoDirection settings.render.direction →
        diagnostic.code.map DiagnosticCode.text = some "E101") ∧
      ended.system = system) ∧
    (arguments.options.format = .json →
      (∀ diagnostic, ended.result ≠ .error (.settings diagnostic)) ∧
      ∀ text place,
        services.serialize (Run.record (snapshot.analyze settings.analysis)) = .ok text →
        system.destination arguments.options.output = .ok place →
        ended.result = .ok () ∧ ended.system.get? place = some (.file (Utf8.encode text)) ∧
        (place ∉ system.unreadable →
          ended.system.read arguments.options.output = .ok (Utf8.encode text))) := by
  intro ended
  have htext := Run.text_of_loaded hsettings hsnapshot
  rw [Analysis.rendering] at htext
  refine ⟨fun hformat => ?_,
    fun hformat => ⟨fun diagnostic hfailure => ?_, fun text place hrecord hplace => ?_⟩⟩
  · obtain ⟨wrong, hwrong, hdirection, hdepth⟩ := RenderSettings.validate_of_isInvalid hinvalid
    rw [hformat, hwrong] at htext
    obtain ⟨hresult, hsystem⟩ := run_of_text_eq_error htext
    exact ⟨wrong.diagnostic, hresult, fun h => by rw [hdirection h]; rfl,
      fun h => by rw [hdepth h]; rfl, hsystem⟩
  · -- a record fails over its text or its output path
    obtain ⟨-, hearly | ⟨cause, -, hcause⟩⟩ := run_of_result_eq_error hfailure
    · rw [← Run.text_eq_error_iff, htext, hformat] at hearly
      dsimp only at hearly
      cases hrecord : services.serialize (Run.record (snapshot.analyze settings.analysis)) with
      | error cause =>
        rw [hrecord] at hearly
        cases hearly
      | ok text =>
        rw [hrecord] at hearly
        cases hearly
    · cases hcause
  · rw [hformat, hrecord] at htext
    obtain ⟨hresult, hsystem⟩ := run_of_destination htext hplace
    refine ⟨hresult, ?_, fun hreadable => ?_⟩
    · rw [hsystem, FileSystem.get?_put system place place _ (FileSystem.destination_ne_nil hplace),
        if_pos rfl]
    · rw [hsystem]
      exact FileSystem.read_put hplace hreadable

/-- A directory with one file, and settings beside it with a negative depth limit. -/
def wronglyConfigured : FileSystem where
  entries :=
    [(["depscope"], .directory),
      (["depscope", "config.toml"], .file (Utf8.encode "[render]\nmax_depth = -1\n")),
     (["repo"], .directory), (["repo", "a.js"], .file (Utf8.encode "import 'react';"))]
  workingDirectory := []

theorem snapshot_wronglyConfigured :
    wronglyConfigured.snapshot .plain "repo" false =
      .ok (.ofLoaded [("a.js", "import 'react';")]) :=
  FileSystem.snapshot_of_loadFiles (by decide +kernel)

/-- A command line that draws one file, its direction in small letters and with space around it. -/
def focusedArguments : Arguments where
  input := "repo"
  options := { direction := some " tb ", focus := some "a.js" }

theorem run_of_invalid_settings_focused :
    ∃ settings, Run.effectiveSettings focusedArguments.options none wronglyConfigured =
      .ok settings ∧
      settings.render.IsInvalid ∧ ¬ NamesNoDirection settings.render.direction ∧
      (run .plain focusedArguments none wronglyConfigured).system = wronglyConfigured ∧
      ∃ diagnostic,
        (run .plain focusedArguments none wronglyConfigured).result =
          .error (.settings diagnostic) ∧
        diagnostic.code.map DiagnosticCode.text = some "E101" := by
  have hsettings : Run.effectiveSettings focusedArguments.options none wronglyConfigured =
      .ok { render := { direction := " tb ", maxDepth := some (-1) } } := by decide +kernel
  have hinvalid : RenderSettings.IsInvalid { direction := " tb ", maxDepth := some (-1) } :=
    .inr ⟨-1, rfl, by decide⟩
  have hnamed : ¬ NamesNoDirection " tb " := by
    unfold NamesNoDirection
    decide +kernel
  obtain ⟨diagnostic, hresult, -, hdepth, hsystem⟩ :=
    (@run_of_invalid_settings .plain focusedArguments none _ _ _
      hsettings snapshot_wronglyConfigured hinvalid).1 rfl
  exact ⟨_, hsettings, hinvalid, hnamed, hsystem, diagnostic, hresult, hdepth hnamed⟩

/-- A command line that asks for a record and names a direction that there is not. -/
def recordArguments : Arguments where
  input := "repo"
  options := { direction := some "UP", format := .json }

/-- A run that writes a record succeeds and writes its output file, though its direction is none of
the five. -/
theorem run_of_invalid_settings_record :
    ∃ settings snapshot,
      Run.effectiveSettings recordArguments.options none wronglyConfigured = .ok settings ∧
      wronglyConfigured.snapshot .plain recordArguments.input
        settings.analysis.includeUnrecognized =
        .ok snapshot ∧
      NamesNoDirection settings.render.direction ∧
      (run .plain recordArguments none wronglyConfigured).result = .ok () ∧
      wronglyConfigured.isFile "out.mmd" = false ∧
      (run .plain recordArguments none wronglyConfigured).system.isFile "out.mmd" = true := by
  have hsettings : Run.effectiveSettings recordArguments.options none wronglyConfigured =
      .ok { render := { direction := "UP", maxDepth := some (-1) } } := by decide +kernel
  have hunnamed : NamesNoDirection "UP" := by
    unfold NamesNoDirection
    decide +kernel
  refine ⟨_, _, hsettings, snapshot_wronglyConfigured, hunnamed, ?_⟩
  decide +kernel

end Runs

end ImportChart
