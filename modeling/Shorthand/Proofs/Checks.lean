import Shorthand.Batch.Basic
import Shorthand.CommandLine.Settings

/-!
# What passes a check

Each check says what it lets pass:

    path       the value is not empty and has no NUL                        (path_eq_ok_iff)
    basename   a plain file name                                            (basename_eq_ok_iff)
    formats    there is a name, and each denotes a format                   (formats_eq_ok_iff)

Settings and batches that pass give plans whose reports can be named (`Plan.IsSound`).  What does
not pass is a fault of the settings, and all such faults are of high severity (`FindsHigh`).
-/

namespace Shorthand

namespace Check

/-! ## Checks in a row -/

theorem ite_eq_ok_iff {c : Prop} [Decidable c] {e : Fault} {x : Except Fault Unit} :
    (if c then .error e else x) = .ok () ↔ ¬ c ∧ x = .ok () := by
  by_cases h : c
  · simp [h]
  · simp [h]

theorem bind_eq_ok_iff {x : Except Fault Unit} {f : Unit → Except Fault Unit} :
    (x >>= f) = .ok () ↔ x = .ok () ∧ f () = .ok () := by
  cases x with
  | ok u => exact ⟨fun h => ⟨rfl, h⟩, fun h => h.2⟩
  | error e =>
    constructor
    · intro h
      cases h
    · rintro ⟨h, -⟩
      cases h

/-- Whatever the check finds is of high severity. -/
def FindsHigh (x : Except Fault Unit) : Prop := ∀ e, x = .error e → e.severity = .high

theorem findsHigh_ok : FindsHigh (.ok ()) := by
  intro e h
  cases h

theorem findsHigh_ite {c : Prop} [Decidable c] {e : Fault} {x : Except Fault Unit}
    (he : e.severity = .high) (hx : FindsHigh x) : FindsHigh (if c then .error e else x) := by
  intro e' h
  split at h
  · cases h
    exact he
  · exact hx e' h

/-- A check of a value that may be missing. -/
def whereGiven (check : String → Except Fault Unit) : Option String → Except Fault Unit
  | none => .ok ()
  | some value => check value

theorem findsHigh_whereGiven {check : String → Except Fault Unit}
    (h : ∀ value, FindsHigh (check value)) (value? : Option String) :
    FindsHigh (whereGiven check value?) := by
  cases value? with
  | none => exact findsHigh_ok
  | some value => exact h value

theorem FindsHigh.bind {x : Except Fault Unit} {f : Unit → Except Fault Unit} (hx : FindsHigh x)
    (hf : FindsHigh (f ())) : FindsHigh (x >>= f) := by
  cases x with
  | ok u => exact hf
  | error e => exact hx

/-! ## Single checks -/

theorem path_eq_ok_iff {field value : String} :
    path field value = .ok () ↔ value ≠ "" ∧ '\x00' ∉ value.toList := by
  unfold path
  rw [ite_eq_ok_iff, ite_eq_ok_iff, String.isEmpty_iff, List.contains_iff_mem]
  simp

theorem findsHigh_path (field value : String) : FindsHigh (path field value) :=
  findsHigh_ite rfl (findsHigh_ite rfl findsHigh_ok)

theorem nonEmpty_eq_ok_iff {field value : String} :
    nonEmpty field value = .ok () ↔ Text.allBlank value.toList = false := by
  unfold nonEmpty
  rw [ite_eq_ok_iff]
  simp

theorem findsHigh_nonEmpty (field value : String) : FindsHigh (nonEmpty field value) :=
  findsHigh_ite rfl findsHigh_ok

theorem basename_eq_ok_iff {field value : String} :
    basename field value = .ok () ↔
      Text.allBlank value.toList = false ∧ '/' ∉ value.toList ∧ '\\' ∉ value.toList ∧
        value ≠ "." ∧ value ≠ ".." := by
  unfold basename
  rw [bind_eq_ok_iff, nonEmpty_eq_ok_iff]
  refine and_congr_right fun _ => ite_eq_ok_iff.trans ?_
  have hseparators : (value.toList.any fun c => c == '/' || c == '\\') = true ↔
      '/' ∈ value.toList ∨ '\\' ∈ value.toList := by
    simp only [List.any_eq_true, Bool.or_eq_true, beq_iff_eq, and_or_left, exists_or,
      exists_eq_right]
  rw [Bool.or_eq_true, Bool.or_eq_true, hseparators, beq_iff_eq, beq_iff_eq]
  simp only [not_or, and_assoc]
  exact ⟨fun h => ⟨h.1, h.2.1, h.2.2.1, h.2.2.2.1⟩, fun h => ⟨h.1, h.2.1, h.2.2.1, h.2.2.2, rfl⟩⟩

/-- The base name that is taken where none is chosen passes. -/
theorem basename_default (field : String) : basename field Plan.defaultBasename = .ok () :=
  basename_eq_ok_iff.mpr (by decide)

theorem findsHigh_basename (field value : String) : FindsHigh (basename field value) :=
  (findsHigh_nonEmpty field value).bind (findsHigh_ite rfl findsHigh_ok)

theorem formats_eq_ok_iff {field : String} {names : List String} :
    formats field names = .ok () ↔
      names ≠ [] ∧ ∀ name ∈ names, ReportFormat.ofName? name ≠ none := by
  unfold formats
  rw [ite_eq_ok_iff, List.isEmpty_iff]
  refine and_congr_right fun _ => ?_
  cases hfind : names.find? fun name => (ReportFormat.ofName? name).isNone with
  | none => simpa [List.find?_eq_none] using hfind
  | some name =>
    have hname : ReportFormat.ofName? name = none := by simpa using List.find?_some hfind
    constructor
    · intro h
      cases h
    · intro h
      exact absurd hname (h name (List.mem_of_find?_eq_some hfind))

theorem findsHigh_formats (field : String) (names : List String) :
    FindsHigh (formats field names) := by
  refine findsHigh_ite rfl ?_
  split
  · rintro e ⟨⟩
    rfl
  · exact findsHigh_ok

end Check

/-! ## Settings and batches -/

/-- The plan has formats, all of them known, and its reports are named plainly in a folder that has
a name. -/
structure Plan.IsSound (p : Plan) : Prop where
  folder : p.outputPath ≠ ""
  formats : p.formats ≠ []
  known : ∀ name ∈ p.formats, ReportFormat.ofName? name ≠ none
  plain : '/' ∉ p.basename.toList

theorem Plan.isSound_of_checks {p : Plan} {first second third : String}
    (hpath : Check.path first p.outputPath = .ok ())
    (hformats : Check.formats second p.formats = .ok ())
    (hbasename : Check.basename third p.basename = .ok ()) : p.IsSound where
  folder := (Check.path_eq_ok_iff.mp hpath).1
  formats := (Check.formats_eq_ok_iff.mp hformats).1
  known := (Check.formats_eq_ok_iff.mp hformats).2
  plain := (Check.basename_eq_ok_iff.mp hbasename).2.1

namespace Settings

theorem check_eq (s : Settings) :
    s.check = (do
      Check.whereGiven (Check.path "input") s.input
      Check.path "output_path" s.outputPath
      Check.formats "formats" s.formats
      Check.basename "basename" s.basename) := by
  unfold check
  cases s.input <;> rfl

theorem findsHigh_check (s : Settings) : Check.FindsHigh s.check := by
  rw [check_eq]
  refine (Check.findsHigh_whereGiven (Check.findsHigh_path _) _).bind ?_
  refine (Check.findsHigh_path _ _).bind ?_
  exact (Check.findsHigh_formats _ _).bind (Check.findsHigh_basename _ _)

theorem isSound_plan {s : Settings} (h : s.check = .ok ()) : s.plan.IsSound := by
  rw [check_eq] at h
  simp only [Check.bind_eq_ok_iff] at h
  obtain ⟨-, hpath, hformats, hbasename⟩ := h
  exact Plan.isSound_of_checks hpath hformats hbasename

end Settings

namespace Batch

theorem check_eq (b : Batch) :
    b.check = (do
      Check.nonEmpty "batch.name" b.info.name
      Check.whereGiven (Check.path "input.path") b.input.path
      checkQueries 0 b.input.queries
      Check.path "output.path" b.output.path
      Check.formats "output.formats" b.output.formats
      Check.whereGiven (Check.basename "output.basename") b.output.basename) := by
  unfold check
  cases b.input.path <;> cases b.output.basename <;> rfl

theorem findsHigh_checkQueries (index : Nat) (queries : List Query) :
    Check.FindsHigh (checkQueries index queries) := by
  induction queries generalizing index with
  | nil => exact Check.findsHigh_ok
  | cons q qs ih =>
    unfold checkQueries
    cases q.name with
    | none => exact ih (index + 1)
    | some name => exact (Check.findsHigh_nonEmpty _ _).bind (ih (index + 1))

theorem findsHigh_check (b : Batch) : Check.FindsHigh b.check := by
  rw [check_eq]
  refine (Check.findsHigh_nonEmpty _ _).bind ?_
  refine (Check.findsHigh_whereGiven (Check.findsHigh_path _) _).bind ?_
  refine (findsHigh_checkQueries 0 _).bind ?_
  refine (Check.findsHigh_path _ _).bind ?_
  refine (Check.findsHigh_formats _ _).bind ?_
  exact Check.findsHigh_whereGiven (Check.findsHigh_basename _) _

theorem isSound_plan {b : Batch} (h : b.check = .ok ()) : b.plan.IsSound := by
  rw [check_eq] at h
  simp only [Check.bind_eq_ok_iff] at h
  obtain ⟨-, -, -, hpath, hformats, hbasename⟩ := h
  have hname : Check.basename "output.basename" b.plan.basename = .ok () := by
    unfold plan
    cases hgiven : b.output.basename with
    | none => exact Check.basename_default "output.basename"
    | some basename =>
      rw [hgiven] at hbasename
      exact hbasename
  exact Plan.isSound_of_checks hpath hformats hname

end Batch

end Shorthand
