import Shorthand.Proofs.Paths

/-!
# Writing below the starting folder

A path that leads to a file in a folder below the starting folder (`LeadsTo`) is written unless a
file stands where the folder has to be, or a folder where the file has to be.  The folder is made if
it is not there (`ensureFolder_name`), and the file then stands in it (`write_leadsTo`).
-/

namespace Shorthand.Tree

/-! ## Walking -/

/-- A name that leads down: it stands neither for its folder nor for the one above, and is not too
long. -/
structure IsPlain (name : Name) : Prop where
  notSelf : name ≠ self
  notAbove : name ≠ above
  short : size name ≤ nameLimit

section
variable {t : Tree} {place : Place}

theorem needFolder_eq_ok (h : t.node? place = some .folder) : t.needFolder place = .ok () := by
  unfold needFolder
  rw [h]

/-- A dot leads nowhere. -/
theorem walk_self (h : t.node? place = some .folder) (names : List Name) :
    t.walk place (self :: names) = t.walk place names := by
  rw [walk, needFolder_eq_ok h, if_pos rfl]
  rfl

theorem walk_dots (h : t.node? place = some .folder) (n : Nat) (names : List Name) :
    t.walk place (List.replicate n self ++ names) = t.walk place names := by
  induction n with
  | zero => rfl
  | succ n ih => rw [List.replicate_succ, List.cons_append, walk_self h, ih]

/-- A plain name leads down. -/
theorem walk_plain (h : t.node? place = some .folder) {name : Name} (hname : IsPlain name)
    (names : List Name) : t.walk place (name :: names) = t.walk (place ++ [name]) names := by
  rw [walk, needFolder_eq_ok h, if_neg hname.notSelf, if_neg hname.notAbove,
    if_neg (Nat.not_lt.mpr hname.short)]
  rfl

theorem walkAbove_eq_ok {start : Place} {names : List Name}
    (hwalk : t.walk start names.dropLast = .ok place) (h : t.node? place = some .folder) :
    t.walkAbove start names = .ok place := by
  unfold walkAbove
  rw [hwalk]
  show (t.needFolder place >>= fun _ => pure place) = _
  rw [needFolder_eq_ok h]
  rfl

/-! ## Folders -/

/-- A folder is there after it was made, unless a file stands in its place.  Nothing else
changes. -/
theorem ensureFolder_name (h : t.node? place = some .folder) {name : Name} (hname : IsPlain name)
    (hfile : ∀ data, t.node? (place ++ [name]) ≠ some (.file data)) :
    ∃ t', t.ensureFolder place [name] = .ok t' ∧ t'.here = t.here ∧
      t'.node? (place ++ [name]) = some .folder ∧
      ∀ other, other ≠ place ++ [name] → t'.node? other = t.node? other := by
  have hmake : t.makeFolder place [name] = (t.node? (place ++ [name])).elim
      (.ok (t.put (place ++ [name]) .folder)) fun _ => .error .exists := by
    unfold makeFolder
    rw [List.getLast?_singleton]
    dsimp only
    rw [walkAbove_eq_ok rfl h]
    refine (if_neg (not_or.mpr ⟨hname.notSelf, hname.notAbove⟩)).trans ?_
    refine (if_neg (Nat.not_lt.mpr hname.short)).trans ?_
    cases t.node? (place ++ [name]) with
    | none => rfl
    | some node => rfl
  unfold ensureFolder
  rw [hmake]
  cases hnode : t.node? (place ++ [name]) with
  | none =>
    refine ⟨t.put (place ++ [name]) .folder, rfl, rfl, by simp, ?_⟩
    exact fun other hother => by simp [hother]
  | some node =>
    cases node with
    | file data => exact absurd hnode (hfile data)
    | folder =>
      have hhas : t.hasFolder place [name] = true := by
        unfold hasFolder
        rw [walk_plain h hname, walk]
        simp [hnode]
      exact ⟨t, if_pos hhas, rfl, hnode, fun _ _ => rfl⟩

end

/-! ## Files -/

/-- The path leads to the file `name` in the folder `folder` below the starting folder. -/
structure LeadsTo (path : List Char) (folder name : Name) : Prop where
  permitted : permit path = .ok ()
  relative : path.head? ≠ some '/'
  namesFile : namesFolder path = false
  steps : ∃ n, Path.steps path = List.replicate n self ++ [folder, name]
  plainFolder : IsPlain folder
  plainName : IsPlain name

namespace LeadsTo

variable {path : List Char} {folder name : Name}

theorem start_eq (h : LeadsTo path folder name) (t : Tree) : t.start path = t.here :=
  if_neg h.relative

theorem folderOf_eq_singleton (h : LeadsTo path folder name) : folderOf path = [folder] := by
  obtain ⟨n, hsteps⟩ := h.steps
  have hparts : Path.parts path = [folder, name] := by
    unfold Path.parts
    rw [hsteps, List.filter_append, List.filter_replicate, if_neg (by decide), List.nil_append]
    exact List.filter_eq_self.mpr (by simpa using ⟨h.plainFolder.notSelf, h.plainName.notSelf⟩)
  rw [folderOf_eq, hparts]
  rfl

theorem prepare_eq (h : LeadsTo path folder name) {t t' : Tree}
    (hensure : t.ensureFolder t.here [folder] = .ok t') : t.prepare path = (.ok (), t') := by
  unfold prepare
  rw [permitFolder_eq_ok h.permitted, h.folderOf_eq_singleton, h.start_eq]
  show ((t.ensureFolders t.here [folder]).1.mapError _, (t.ensureFolders t.here [folder]).2) = _
  have hfolders : t.ensureFolders t.here [folder] = (.ok (), t') := by
    simp only [ensureFolders, List.reverse_singleton, hensure]
  rw [hfolders]
  rfl

theorem create_eq (h : LeadsTo path folder name) {t : Tree}
    (hhere : t.node? t.here = some .folder) (hfolder : t.node? (t.here ++ [folder]) = some .folder)
    (hfile : t.node? (t.here ++ [folder, name]) ≠ some .folder) (data : List UInt8) :
    t.create path data = .ok (t.put (t.here ++ [folder, name]) (.file data)) := by
  obtain ⟨n, hsteps⟩ := h.steps
  have hlast : (Path.steps path).getLast? = some name := by rw [hsteps]; simp
  have hwalk : t.walk t.here (Path.steps path).dropLast = .ok (t.here ++ [folder]) := by
    have hdrop : (Path.steps path).dropLast = List.replicate n self ++ [folder] := by
      rw [hsteps]
      simp
    rw [hdrop, walk_dots hhere, walk_plain hhere h.plainFolder]
    rfl
  have happ : t.here ++ [folder] ++ [name] = t.here ++ [folder, name] := by simp
  unfold create
  rw [hlast, h.start_eq]
  dsimp only
  rw [walkAbove_eq_ok hwalk hfolder]
  show (if name = self ∨ name = above ∨ namesFolder path = true then _ else
    if nameLimit < size name then _ else _) = _
  rw [if_neg (by simp [h.plainName.notSelf, h.plainName.notAbove, h.namesFile]),
    if_neg (Nat.not_lt.mpr h.plainName.short), happ]
  split
  · next hnode => exact absurd hnode hfile
  · rfl

end LeadsTo

/-- A path below the starting folder is written, and its file stands where it leads. -/
theorem write_leadsTo {t : Tree} {path : String} {folder name : Name}
    (h : LeadsTo path.toList folder name) (hhere : t.node? t.here = some .folder)
    (hfolder : ∀ data, t.node? (t.here ++ [folder]) ≠ some (.file data))
    (hfile : t.node? (t.here ++ [folder, name]) ≠ some .folder) (data : List UInt8) :
    ∃ t', t.write path data = (.ok (), t') ∧
      t'.node? (t.here ++ [folder, name]) = some (.file data) := by
  obtain ⟨made, hensure, hmadeHere, hmadeFolder, hkept⟩ :=
    ensureFolder_name hhere h.plainFolder hfolder
  -- making the folder changes neither the starting folder nor the place of the file
  have hne : ∀ names : List Name, names.length ≠ 1 → t.here ++ names ≠ t.here ++ [folder] := by
    intro names hlength he
    exact hlength (congrArg List.length (List.append_cancel_left he))
  have hmadeHere' : made.node? made.here = some .folder := by
    have := hkept (t.here ++ []) (hne [] (by decide))
    rw [List.append_nil] at this
    rw [hmadeHere, this, hhere]
  have hmadeFile : made.node? (made.here ++ [folder, name]) ≠ some .folder := by
    rw [hmadeHere, hkept _ (hne [folder, name] (by simp))]
    exact hfile
  have hcreate := h.create_eq hmadeHere' (hmadeHere ▸ hmadeFolder) hmadeFile data
  refine ⟨made.put (made.here ++ [folder, name]) (.file data), ?_, ?_⟩
  · unfold write
    rw [h.prepare_eq hensure]
    dsimp only
    rw [h.permitted]
    dsimp only
    rw [hcreate]
  · simp [hmadeHere]

end Shorthand.Tree
