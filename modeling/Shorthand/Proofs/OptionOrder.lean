import Mathlib.Data.List.TakeWhile
import Shorthand.Proofs.Arguments

/-!
# Options in any order

An option can be written as one argument, `--name=value` or `--name` (`Choice`).  Such an argument
is taken for that option, whatever its value looks like (`step_choice`), so a row of options that
repeats only what may be repeated is taken as it stands (`foldlM_choices`).  Settings are therefore
read back from the arguments that express them, in whatever order the options come:

    ofArguments (options ++ "--" :: queries) = .ok settings                    (ofArguments_choices)
-/

namespace Shorthand

namespace CommandLine

/-! ## Options as arguments -/

/-- An option in one argument. -/
inductive Choice where
  | valued (name value : String)
  | flag (name : String)
  deriving DecidableEq, Repr

namespace Choice

/-- The long name of the option. -/
def name : Choice → String
  | .valued name _ => name
  | .flag name => name

/-- The argument that gives the option. -/
def argument : Choice → String
  | .valued name value => "--" ++ name ++ "=" ++ value
  | .flag name => "--" ++ name

/-- The option as it is recorded. -/
def entry : Choice → String × String
  | .valued name value => (name, value)
  | .flag name => (name, "")

@[simp]
theorem fst_entry (c : Choice) : c.entry.1 = c.name := by cases c <;> rfl

/-- Whether the option comes with a value. -/
def hasValue : Choice → Bool
  | .valued _ _ => true
  | .flag _ => false

/-- The option is one of the command's, with a value just if it takes one. -/
structure IsOf (cmd : Command) (c : Choice) (p : Parameter) : Prop where
  found : cmd.long? c.name = some p
  kind : p.valueName.isSome = c.hasValue
  named : c.name ≠ ""
  plain : '=' ∉ c.name.toList
  notHelp : c.name ≠ help.long

end Choice

theorem Command.long_eq {cmd : Command} {name : String} {p : Parameter}
    (h : cmd.long? name = some p) : p.long = name := by
  have := List.find?_some h
  simpa using this

/-! ## Asking for options -/

namespace Given

variable (operands : List String)

@[simp]
theorem values_append (options options' : List (String × String)) (long : String) :
    values ⟨options ++ options', operands⟩ long =
      values ⟨options, operands⟩ long ++ values ⟨options', operands⟩ long := by
  simp [values]

theorem values_entry (c : Choice) : values ⟨[c.entry], operands⟩ c.name = [c.entry.2] := by
  simp [values]

@[simp]
theorem values_cons (name value : String) (options : List (String × String)) (long : String) :
    values ⟨(name, value) :: options, operands⟩ long =
      if name = long then value :: values ⟨options, operands⟩ long
      else values ⟨options, operands⟩ long := by
  by_cases h : name = long <;> simp [values, h]

/-- An option that is given for each of some values has those values. -/
theorem values_map (name : String) (xs : List String) (long : String) :
    values ⟨xs.map fun x => (name, x), operands⟩ long = if name = long then xs else [] := by
  induction xs with
  | nil => simp [values]
  | cons x xs ih =>
    by_cases hname : name = long <;> simp_all

variable {operands}

/-- Where an option is given once, the order of the options does not matter. -/
theorem values_congr {g g' : Given} (h : g.options.Perm g'.options) {long : String}
    (hone : (g'.values long).length ≤ 1) : g.values long = g'.values long := by
  have hperm : (g.values long).Perm (g'.values long) := (h.filter _).map _
  match hvalues : g'.values long with
  | [] => rwa [hvalues, List.perm_nil] at hperm
  | [v] => rwa [hvalues, List.perm_singleton] at hperm
  | _ :: _ :: _ =>
    rw [hvalues] at hone
    simp at hone

theorem has_eq (g : Given) (long : String) : g.has long = !(g.values long).isEmpty := by
  unfold has values
  induction g.options with
  | nil => rfl
  | cons o os ih =>
    rw [List.any_cons, ih, List.filter_cons]
    cases o.1 == long <;> rfl

end Given

/-! ## Taking options -/

section
variable {cmd : Command}

theorem step_long (g : Given) {argument : String} {body : List Char}
    (h : argument.toList = '-' :: '-' :: body) (hbody : body ≠ []) :
    State.step cmd ⟨g, none, false⟩ argument = State.long cmd ⟨g, none, false⟩ body := by
  obtain ⟨c, cs, rfl⟩ := List.exists_cons_of_ne_nil hbody
  rw [State.step, if_neg Bool.false_ne_true, h]
  rfl

theorem forall_ne_equals {name : List Char} (h : '=' ∉ name) :
    ∀ c ∈ name, decide (c ≠ '=') = true := by
  intro c hc
  simpa using ne_of_mem_of_not_mem hc h

section
variable {name : String} (hplain : '=' ∉ name.toList) {p : Parameter}
  (hfound : cmd.long? name = some p) (s : State)
include hplain hfound

theorem long_valued {v : String} (hv : p.valueName = some v) (value : String) :
    s.long cmd (name.toList ++ '=' :: value.toList) = s.take p value := by
  have hname := forall_ne_equals hplain
  have htake : (name.toList ++ '=' :: value.toList).takeWhile (· ≠ '=') = name.toList := by
    rw [List.takeWhile_append_of_pos hname]
    simp
  have hdrop : (name.toList ++ '=' :: value.toList).dropWhile (· ≠ '=') = '=' :: value.toList := by
    rw [List.dropWhile_append_of_pos hname]
    simp
  unfold State.long
  simp only [htake, hdrop, String.ofList_toList, hfound, hv]

theorem long_flag (hv : p.valueName = none) : s.long cmd name.toList = s.take p "" := by
  have hname := forall_ne_equals hplain
  have htake := List.takeWhile_eq_self_iff.mpr hname
  have hdrop := List.dropWhile_eq_nil_iff.mpr hname
  unfold State.long
  simp only [htake, hdrop, String.ofList_toList, hfound, hv]

end

/-- A command takes an option that it has, unless it is there already and must not repeat. -/
theorem take_option {p : Parameter} (hhelp : p.long ≠ help.long)
    (options : List (String × String))
    (hnew : (∃ o ∈ options, o.1 = p.long) → p.repeats = true) (operands : List String)
    (value : String) :
    State.take ⟨⟨options, operands⟩, none, false⟩ p value =
      .ok ⟨⟨options ++ [(p.long, value)], operands⟩, none, false⟩ := by
  have hrepeated : (!p.repeats && Given.has ⟨options, operands⟩ p.long) = false := by
    rw [Bool.and_eq_false_iff, Bool.not_eq_false']
    by_cases hmem : ∃ o ∈ options, o.1 = p.long
    · exact .inl (hnew hmem)
    · right
      rw [Given.has, List.any_eq_false]
      intro o ho he
      exact hmem ⟨o, ho, by simpa using he⟩
  show State.record ⟨⟨options, operands⟩, none, false⟩ p value = _
  rw [State.record, if_neg (by simpa using hhelp), if_neg (by rw [hrepeated]; decide)]

/-- An option in one argument is taken for that option. -/
theorem step_choice {c : Choice} {p : Parameter} (h : c.IsOf cmd p)
    {options : List (String × String)}
    (hnew : (∃ o ∈ options, o.1 = c.name) → p.repeats = true) (operands : List String) :
    State.step cmd ⟨⟨options, operands⟩, none, false⟩ c.argument =
      .ok ⟨⟨options ++ [c.entry], operands⟩, none, false⟩ := by
  obtain ⟨hfound, hkind, hnamed, hplain, hhelp⟩ := h
  have hlong := Command.long_eq hfound
  have hne : c.name.toList ≠ [] := mt String.toList_eq_nil_iff.mp hnamed
  have htake := take_option (hlong ▸ hhelp) options (hlong ▸ hnew) operands
  cases c with
  | valued name value =>
    have hbody : (Choice.valued name value).argument.toList =
        '-' :: '-' :: (name.toList ++ '=' :: value.toList) := by
      simp [Choice.argument, String.toList_append]
    have hname : '=' ∉ name.toList := hplain
    obtain ⟨v, hv⟩ := Option.isSome_iff_exists.mp hkind
    rw [step_long _ hbody (by simp), long_valued hname hfound _ hv, htake, hlong]
    rfl
  | flag name =>
    have hbody : (Choice.flag name).argument.toList = '-' :: '-' :: name.toList := by
      simp [Choice.argument, String.toList_append]
    have hname : '=' ∉ name.toList := hplain
    have hv : p.valueName = none := by simpa [Choice.hasValue] using hkind
    rw [step_long _ hbody hne, long_flag hname hfound _ hv, htake, hlong]
    rfl

/-- The command takes the option more than once. -/
def Command.Repeats (cmd : Command) (name : String) : Prop :=
  ∀ p, cmd.long? name = some p → p.repeats = true

/-- Options are taken one after the other, where only those come again that may. -/
theorem foldlM_choices {chosen : List Choice} (hof : ∀ c ∈ chosen, ∃ p, c.IsOf cmd p)
    (options : List (String × String)) (operands : List String)
    (honce : ∀ c ∈ chosen, cmd.Repeats c.name ∨
      (Given.values ⟨options ++ chosen.map Choice.entry, operands⟩ c.name).length ≤ 1) :
    (chosen.map Choice.argument).foldlM (State.step cmd) ⟨⟨options, operands⟩, none, false⟩ =
      .ok ⟨⟨options ++ chosen.map Choice.entry, operands⟩, none, false⟩ := by
  induction chosen generalizing options with
  | nil =>
    rw [List.map_nil, List.map_nil, List.append_nil]
    rfl
  | cons c cs ih =>
    obtain ⟨p, hp⟩ := hof c List.mem_cons_self
    have hsplit : options ++ (c :: cs).map Choice.entry =
        options ++ [c.entry] ++ cs.map Choice.entry := by
      rw [List.append_assoc]
      rfl
    have hnew : (∃ o ∈ options, o.1 = c.name) → p.repeats = true := by
      rintro ⟨o, ho, he⟩
      rcases honce c List.mem_cons_self with hrepeats | hlength
      · exact hrepeats p hp.found
      · -- an earlier entry and this one are two
        have hearlier : 0 < (Given.values ⟨options, operands⟩ c.name).length := by
          refine List.length_pos_of_mem (List.mem_map_of_mem (List.mem_filter.mpr ⟨ho, ?_⟩))
          exact beq_iff_eq.mpr he
        rw [hsplit, Given.values_append, Given.values_append, Given.values_entry] at hlength
        simp only [List.length_append, List.length_singleton] at hlength
        omega
    rw [List.map_cons, List.foldlM_cons, step_choice hp hnew operands]
    show (cs.map Choice.argument).foldlM (State.step cmd) _ = _
    rw [hsplit]
    refine ih (fun d hd => hof d (List.mem_cons_of_mem c hd)) _ fun d hd => ?_
    rw [← hsplit]
    exact honce d (List.mem_cons_of_mem c hd)

/-- Options, `--` and operands are what they say. -/
theorem parse_choices (hcmd : cmd.takesOperands = true) {chosen : List Choice}
    (hof : ∀ c ∈ chosen, ∃ p, c.IsOf cmd p)
    (honce : ∀ c ∈ chosen, cmd.Repeats c.name ∨
      (Given.values ⟨chosen.map Choice.entry, []⟩ c.name).length ≤ 1) (operands : List String) :
    parse cmd (chosen.map Choice.argument ++ "--" :: operands) =
      .ok ⟨chosen.map Choice.entry, operands⟩ := by
  have hoptions : (chosen.map Choice.argument).foldlM (State.step cmd) State.start =
      .ok ⟨⟨chosen.map Choice.entry, []⟩, none, false⟩ := foldlM_choices hof [] [] honce
  unfold parse
  rw [List.foldlM_append, hoptions]
  show (List.foldlM (State.step cmd) (State.mk ⟨chosen.map Choice.entry, []⟩ none true) operands >>=
    _) = _
  rw [foldlM_operands hcmd]
  rfl

end

end CommandLine

namespace Settings

open CommandLine (Choice Given)

/-! ## Settings as options -/

/-- The options that say what the settings are, queries apart. -/
def choices (s : Settings) : List Choice :=
  s.input.toList.map (.valued "input") ++ .valued "output-path" s.outputPath ::
    (s.formats.map (.valued "formats") ++ .valued "basename" s.basename ::
      ((if s.listSymbols then [.flag "list-symbols"] else []) ++
        if s.verbose then [.flag "verbose"] else []))

/-- The names of the options, each with whether it takes a value. -/
def optionNames : List (String × Bool) :=
  [ ("input", true), ("output-path", true), ("formats", true), ("basename", true),
    ("list-symbols", false), ("verbose", false) ]

theorem isOf_of_mem_optionNames {c : Choice} (h : (c.name, c.hasValue) ∈ optionNames) :
    ∃ p, c.IsOf command p := by
  have hall : ∀ o ∈ optionNames, o.1 ≠ "" ∧ '=' ∉ o.1.toList ∧ o.1 ≠ CommandLine.help.long ∧
      ((command.long? o.1).any fun p => p.valueName.isSome == o.2) = true := by decide
  obtain ⟨hnamed, hplain, hhelp, hparameter⟩ := hall _ h
  obtain ⟨p, hfound, hkind⟩ := (Option.any_eq_true _ _).mp hparameter
  exact ⟨p, hfound, beq_iff_eq.mp hkind, hnamed, hplain, hhelp⟩

theorem mem_optionNames_of_mem_choices {s : Settings} {c : Choice} (h : c ∈ s.choices) :
    (c.name, c.hasValue) ∈ optionNames := by
  simp only [choices, List.mem_append, List.mem_map, List.mem_cons, List.mem_ite_nil_right,
    List.not_mem_nil, or_false] at h
  rcases h with ⟨v, -, rfl⟩ | rfl | ⟨v, -, rfl⟩ | rfl | ⟨-, rfl⟩ | ⟨-, rfl⟩ <;>
    simp [optionNames, Choice.name, Choice.hasValue]

theorem repeats_formats : command.Repeats "formats" := by
  intro p hp
  cases hp
  rfl

@[simp]
theorem values_valued (name : String) (xs operands : List String) (long : String) :
    Given.values ⟨(xs.map (Choice.valued name)).map Choice.entry, operands⟩ long =
      if name = long then xs else [] := by
  rw [List.map_map]
  exact Given.values_map operands name xs long

@[simp]
theorem values_flag (name : String) (b : Bool) (operands : List String) (long : String) :
    Given.values ⟨(if b then [Choice.flag name] else []).map Choice.entry, operands⟩ long =
      if name = long ∧ b = true then [""] else [] := by
  cases b with
  | false => simp [Given.values]
  | true =>
    refine (Given.values_cons operands name "" [] long).trans ?_
    simp [Given.values]

/-- What the options of the settings say. -/
theorem values_choices (s : Settings) (operands : List String) (long : String) :
    Given.values ⟨s.choices.map Choice.entry, operands⟩ long =
      (if "input" = long then s.input.toList else []) ++
      ((if "output-path" = long then [s.outputPath] else []) ++
      ((if "formats" = long then s.formats else []) ++
      ((if "basename" = long then [s.basename] else []) ++
      ((if "list-symbols" = long ∧ s.listSymbols = true then [""] else []) ++
        if "verbose" = long ∧ s.verbose = true then [""] else [])))) := by
  have hone : ∀ name value rest,
      Given.values ⟨(Choice.valued name value).entry :: rest, operands⟩ long =
        (if name = long then [value] else []) ++ Given.values ⟨rest, operands⟩ long := by
    intro name value rest
    refine (Given.values_cons operands name value rest long).trans ?_
    split <;> rfl
  unfold choices
  simp only [List.map_append, List.map_cons, Given.values_append, values_valued, values_flag, hone]

/-- Only formats are given more than once. -/
theorem length_values_choices_le (s : Settings) {long : String} (hformats : long ≠ "formats")
    (operands : List String) :
    (Given.values ⟨s.choices.map Choice.entry, operands⟩ long).length ≤ 1 := by
  rw [values_choices, if_neg (Ne.symm hformats), List.nil_append]
  by_cases hi : "input" = long
  · subst hi
    cases s.input <;> simp
  by_cases ho : "output-path" = long
  · subst ho
    simp
  by_cases hb : "basename" = long
  · subst hb
    simp
  by_cases hl : "list-symbols" = long
  · subst hl
    cases s.listSymbols <;> simp
  · simp only [hi, ho, hb, hl, false_and, if_false, List.nil_append]
    split <;> simp

theorem values_eq_map_filter (chosen : List Choice) (operands : List String) (long : String) :
    Given.values ⟨chosen.map Choice.entry, operands⟩ long =
      (chosen.filter fun c => c.name == long).map fun c => c.entry.2 := by
  have hname : ((fun o : String × String => o.1 == long) ∘ Choice.entry) =
      fun c => c.name == long := by
    funext c
    exact congrArg (· == long) c.fst_entry
  unfold Given.values
  rw [List.filter_map, List.map_map, hname]
  rfl

/-- The options give the settings back, whatever their order. -/
theorem ofGiven_choices {s : Settings} {chosen : List Choice} (hchosen : chosen.Perm s.choices)
    (horder : chosen.filter (fun c => c.name == "formats") =
      s.formats.map (Choice.valued "formats"))
    (hformats : s.formats ≠ []) (hcommas : ∀ f ∈ s.formats, ',' ∉ f.toList)
    (operands : List String) :
    ofGiven ⟨chosen.map Choice.entry, operands⟩ =
      { s with queries := operands.map Query.unnamed } := by
  have hvalues : ∀ long, long ≠ "formats" →
      Given.values ⟨chosen.map Choice.entry, operands⟩ long =
        Given.values ⟨s.choices.map Choice.entry, operands⟩ long :=
    fun long hlong =>
      Given.values_congr (hchosen.map _) (length_values_choices_le s hlong operands)
  have hkept : Given.values ⟨chosen.map Choice.entry, operands⟩ "formats" = s.formats := by
    rw [values_eq_map_filter, horder, List.map_map]
    exact List.map_id _
  have hitems : Given.items ⟨chosen.map Choice.entry, operands⟩ "formats" = s.formats := by
    have hpieces : ∀ f ∈ s.formats, (f.toList.splitOn ',').map String.ofList = [f] := by
      intro f hf
      rw [List.splitOn_eq_singleton (hcommas f hf), List.map_singleton, String.ofList_toList]
    unfold Given.items
    rw [hkept, List.flatMap_def, List.map_congr_left hpieces, ← List.flatMap_def]
    exact List.flatMap_singleton' _
  obtain ⟨queries, input, outputPath, formats, basename, listSymbols, verbose⟩ := s
  unfold ofGiven Given.value?
  simp only [Given.has_eq, hkept, hitems]
  rw [hvalues "input" (by decide), hvalues "output-path" (by decide),
    hvalues "basename" (by decide), hvalues "list-symbols" (by decide), hvalues "verbose" (by decide)]
  simp only [values_choices]
  cases input <;> cases listSymbols <;> cases verbose <;> simp [hformats]

/-! ## Top theorem -/

/-- Settings whose queries have no names and whose formats have no commas, of which there is one at
least, are read back from the arguments that express them: their options in any order that keeps
the formats in order, `--`, and the queries. -/
theorem ofArguments_choices {s : Settings} (hqueries : ∀ q ∈ s.queries, q.name = none)
    (hformats : s.formats ≠ []) (hcommas : ∀ f ∈ s.formats, ',' ∉ f.toList)
    {chosen : List Choice} (hchosen : chosen.Perm s.choices)
    (horder : chosen.filter (fun c => c.name == "formats") =
      s.formats.map (Choice.valued "formats")) :
    ofArguments (chosen.map Choice.argument ++ "--" :: s.queries.map Query.text) = .ok s := by
  have hmem : ∀ c ∈ chosen, (c.name, c.hasValue) ∈ optionNames := fun c hc =>
    mem_optionNames_of_mem_choices (hchosen.mem_iff.mp hc)
  have honce : ∀ c ∈ chosen, command.Repeats c.name ∨
      (Given.values ⟨chosen.map Choice.entry, []⟩ c.name).length ≤ 1 := by
    intro c hc
    by_cases hname : c.name = "formats"
    · exact .inl (hname ▸ repeats_formats)
    · have hlength := length_values_choices_le s hname []
      have hvalues := Given.values_congr (g := ⟨chosen.map Choice.entry, []⟩)
        (hchosen.map Choice.entry) hlength
      exact .inr (hvalues ▸ hlength)
  have hunnamed : (s.queries.map Query.text).map Query.unnamed = s.queries := by
    rw [List.map_map]
    refine (List.map_congr_left fun q hq => ?_).trans (List.map_id _)
    show Query.mk none q.text = q
    rw [← hqueries q hq]
  unfold ofArguments
  rw [CommandLine.parse_choices rfl (fun c hc => isOf_of_mem_optionNames (hmem c hc)) honce]
  show Except.ok (ofGiven _) = _
  rw [ofGiven_choices hchosen horder hformats hcommas, hunnamed]

/-- Settings whose texts look like options. -/
def dashedTexts : Settings where
  queries := [.unnamed "--", .unnamed "-v", .unnamed "--input=q"]
  input := some "--"
  outputPath := "=a=b"
  formats := ["-txt", "", "--formats=csv"]
  basename := "--help"
  listSymbols := false
  verbose := true

/-- The options of those settings, the formats with others between them. -/
def dashedOptions : List Choice :=
  [ .valued "formats" "-txt", .flag "verbose", .valued "basename" "--help", .valued "formats" "",
    .valued "input" "--", .valued "formats" "--formats=csv", .valued "output-path" "=a=b" ]

/-- Texts that look like options are read as texts. -/
theorem ofArguments_choices_dashed :
    ofArguments ["--formats=-txt", "--verbose", "--basename=--help", "--formats=", "--input=--",
      "--formats=--formats=csv", "--output-path==a=b", "--", "--", "-v", "--input=q"] =
      .ok dashedTexts :=
  @ofArguments_choices dashedTexts (by decide) (by decide) (by decide) dashedOptions (by decide)
    (by decide)

end Settings

end Shorthand
