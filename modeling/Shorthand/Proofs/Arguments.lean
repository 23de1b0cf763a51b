import Shorthand.CommandLine.Settings

/-!
# Arguments that need no thought

Behind `--` an argument is an operand, whatever it looks like (`foldlM_operands`).  So the settings
of a command with queries behind `--`, with a file of queries, or with nothing at all are the
standard settings with those queries or that file.
-/

namespace Shorthand

namespace CommandLine

/-- Behind `--` every argument is an operand. -/
theorem foldlM_operands {cmd : Command} (hcmd : cmd.takesOperands = true)
    (options : List (String × String)) (operands arguments : List String) :
    arguments.foldlM (State.step cmd) ⟨⟨options, operands⟩, none, true⟩ =
      .ok ⟨⟨options, operands ++ arguments⟩, none, true⟩ := by
  induction arguments generalizing operands with
  | nil =>
    rw [List.append_nil]
    rfl
  | cons a as ih =>
    have hstep : State.step cmd ⟨⟨options, operands⟩, none, true⟩ a =
        .ok ⟨⟨options, operands ++ [a]⟩, none, true⟩ := by
      rw [State.step, if_pos rfl, State.operand, if_pos hcmd]
      rfl
    rw [List.foldlM_cons, hstep]
    show List.foldlM _ _ as = _
    rw [ih, List.append_assoc]
    rfl

/-- An argument that does not start with a dash is the value that an option waits for. -/
theorem step_value (cmd : Command) (g : Given) (p : Parameter) {value : String}
    (h : value.toList.head? ≠ some '-') :
    State.step cmd ⟨g, some (p, none), false⟩ value = .ok ⟨g, some (p, some value), false⟩ := by
  rw [State.step, if_neg Bool.false_ne_true]
  split
  · next he => exact absurd (by rw [he]; rfl) h
  · next he => exact absurd (by rw [he]; rfl) h
  · next he => exact absurd (by rw [he]; rfl) h
  · rfl

end CommandLine

namespace Settings

/-- The settings of a command without arguments. -/
def standard : Settings := ofGiven .nothing

theorem ofArguments_nil : ofArguments [] = .ok standard := rfl

theorem ofArguments_operands (qs : List String) :
    ofArguments ("--" :: qs) = .ok { standard with queries := qs.map Query.unnamed } := by
  have hparse : CommandLine.parse command ("--" :: qs) = .ok ⟨[], qs⟩ := by
    unfold CommandLine.parse
    rw [List.foldlM_cons]
    show (List.foldlM _ (CommandLine.State.mk ⟨[], []⟩ none true) qs >>= _) = _
    rw [CommandLine.foldlM_operands rfl]
    rfl
  unfold ofArguments
  rw [hparse]
  rfl

theorem ofArguments_input {path : String} (h : path.toList.head? ≠ some '-') :
    ofArguments ["--input", path] = .ok { standard with input := some path } := by
  have hparse : CommandLine.parse command ["--input", path] = .ok ⟨[("input", path)], []⟩ := by
    unfold CommandLine.parse
    rw [List.foldlM_cons]
    show (List.foldlM _ (CommandLine.State.mk ⟨[], []⟩
      (some (⟨"input", some 'i', some "INPUT", false⟩, none)) false) [path] >>= _) = _
    rw [List.foldlM_cons, CommandLine.step_value command _ _ h]
    rfl
  unfold ofArguments
  rw [hparse]
  rfl

theorem check_standard :
    Check.path "output_path" standard.outputPath = .ok () ∧
      Check.formats "formats" standard.formats = .ok () ∧
      Check.basename "basename" standard.basename = .ok () := by
  have htxt : ReportFormat.ofName? "txt" = some .txt := by decide
  refine ⟨rfl, ?_, rfl⟩
  show Check.formats "formats" ["txt"] = .ok ()
  simp [Check.formats, htxt]

/-- The standard settings are in order, with any queries and without a file. -/
theorem check_queries (queries : List Query) :
    check { standard with queries := queries } = .ok () := by
  obtain ⟨hpath, hformats, hname⟩ := check_standard
  unfold check
  dsimp only
  rw [show standard.input = none from rfl, hpath, hformats, hname]
  rfl

/-- The standard settings are in order with a file whose path is. -/
theorem check_input {path : String} (h : Check.path "input" path = .ok ()) :
    check { standard with input := some path } = .ok () := by
  obtain ⟨hpath, hformats, hname⟩ := check_standard
  unfold check
  dsimp only
  rw [h, hpath, hformats, hname]
  rfl

end Settings

end Shorthand
