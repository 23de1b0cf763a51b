import Mathlib.Data.List.Basic
import Shorthand.Proofs.TreeWrites
import Shorthand.Run.Services

/-!
# Histories of a tree

A write makes folders where nothing stood and, if it succeeds, puts one file where no folder stood
(`writes_write`).  So a folder stays a folder, and a path that leads to a place leads there from
then on, whatever is written (`KeepsFolders.locate`).  That makes a tree a store, after any history
of calls and for all paths, also where several of them lead to one file (`keepsFiles_after`):

    write p d succeeds, and no later write leads to its file   →   read p = d
    read q = d, and write p does not lead to its file          →   read q = d afterwards
    write p fails                                              →   only folders are new
-/

namespace Shorthand

namespace Tree

/-- Steps in a row give a result if each of them does. -/
theorem of_bind_eq_ok {ε α β : Type} {x : Except ε α} {f : α → Except ε β} {b : β}
    (h : (x >>= f) = .ok b) : ∃ a, x = .ok a ∧ f a = .ok b := by
  cases x with
  | ok a => exact ⟨a, rfl, h⟩
  | error e => cases h

/-! ## Folders that stay -/

/-- All folders are folders still, and relative paths start where they did. -/
structure KeepsFolders (t t' : Tree) : Prop where
  here : t'.here = t.here
  folder : ∀ place, t.node? place = some .folder → t'.node? place = some .folder

/-- Nothing has changed, but there may be folders where nothing stood. -/
structure GainsFolders (t t' : Tree) : Prop where
  here : t'.here = t.here
  node : ∀ place, t'.node? place = t.node? place ∨
    t.node? place = none ∧ t'.node? place = some .folder

section
variable {t t' t'' : Tree} {place : Place}

theorem KeepsFolders.refl (t : Tree) : t.KeepsFolders t := ⟨rfl, fun _ h => h⟩

theorem KeepsFolders.trans (h : t.KeepsFolders t') (h' : t'.KeepsFolders t'') :
    t.KeepsFolders t'' :=
  ⟨h'.here.trans h.here, fun place hp => h'.folder place (h.folder place hp)⟩

theorem GainsFolders.refl (t : Tree) : t.GainsFolders t := ⟨rfl, fun _ => .inl rfl⟩

/-- What stood somewhere still stands there. -/
theorem GainsFolders.node?_eq (h : t.GainsFolders t') {node : Node}
    (hnode : t.node? place = some node) : t'.node? place = some node := by
  rcases h.node place with hsame | ⟨hnone, -⟩
  · rw [hsame, hnode]
  · rw [hnone] at hnode
    cases hnode

theorem GainsFolders.keepsFolders (h : t.GainsFolders t') : t.KeepsFolders t' :=
  ⟨h.here, fun _ hp => h.node?_eq hp⟩

theorem GainsFolders.trans (h : t.GainsFolders t') (h' : t'.GainsFolders t'') :
    t.GainsFolders t'' := by
  refine ⟨h'.here.trans h.here, fun place => ?_⟩
  rcases h.node place with hsame | ⟨hnone, hfolder⟩
  · rw [← hsame]
    exact h'.node place
  · exact .inr ⟨hnone, h'.node?_eq hfolder⟩

theorem gainsFolders_put (hne : place ≠ []) (hnone : t.node? place = none) :
    t.GainsFolders (t.put place .folder) := by
  refine ⟨rfl, fun other => ?_⟩
  by_cases hother : other = place
  · subst hother
    exact .inr ⟨hnone, by simp [hne]⟩
  · exact .inl (by simp [hother])

theorem keepsFolders_put (hnot : t.node? place ≠ some .folder) (node : Node) :
    t.KeepsFolders (t.put place node) := by
  refine ⟨rfl, fun other hother => ?_⟩
  have hne : other ≠ place := by
    rintro rfl
    exact hnot hother
  simp [hne, hother]

end

/-! ## Walks -/

/-- Names lead from a place to a place, one step for each name; every step stands in a folder. -/
inductive Walks (t : Tree) : Place → List Name → Place → Prop
  | done {place : Place} : Walks t place [] place
  | stay {start place : Place} {names : List Name} :
      t.node? start = some .folder → Walks t start names place →
      Walks t start (self :: names) place
  | up {start place : Place} {names : List Name} :
      t.node? start = some .folder → Walks t start.dropLast names place →
      Walks t start (above :: names) place
  | down {start place : Place} {name : Name} {names : List Name} :
      t.node? start = some .folder → IsPlain name → Walks t (start ++ [name]) names place →
      Walks t start (name :: names) place

section
variable {t t' : Tree} {start place : Place} {names : List Name}

theorem needFolder_eq_ok_iff : t.needFolder place = .ok () ↔ t.node? place = some .folder := by
  refine ⟨fun h => ?_, needFolder_eq_ok⟩
  unfold needFolder at h
  split at h
  · assumption
  · cases h
  · cases h

/-- Two dots lead to the folder above. -/
theorem walk_above (h : t.node? place = some .folder) (names : List Name) :
    t.walk place (above :: names) = t.walk place.dropLast names := by
  rw [walk, needFolder_eq_ok h, if_neg (by decide), if_pos rfl]
  rfl

theorem walks_of_walk (h : t.walk start names = .ok place) : t.Walks start names place := by
  induction names generalizing start with
  | nil =>
    cases h
    exact .done
  | cons name names ih =>
    rw [walk] at h
    obtain ⟨u, hneed, hnext⟩ := of_bind_eq_ok h
    have hstart := needFolder_eq_ok_iff.mp hneed
    split at hnext
    next hself => exact hself ▸ .stay hstart (ih hnext)
    next hself =>
      split at hnext
      next habove => exact habove ▸ .up hstart (ih hnext)
      next habove =>
        split at hnext
        · cases hnext
        next hshort => exact .down hstart ⟨hself, habove, Nat.le_of_not_lt hshort⟩ (ih hnext)

/-- What walking finds is where the names lead. -/
theorem walk_eq_ok_iff : t.walk start names = .ok place ↔ t.Walks start names place := by
  refine ⟨walks_of_walk, fun h => ?_⟩
  induction h with
  | done => rfl
  | stay hstart _ ih => rw [walk_self hstart, ih]
  | up hstart _ ih => rw [walk_above hstart, ih]
  | down hstart hplain _ ih => rw [walk_plain hstart hplain, ih]

theorem Walks.append {middle : Place} {more : List Name} (h : t.Walks start names middle)
    (h' : t.Walks middle more place) : t.Walks start (names ++ more) place := by
  induction h with
  | done => exact h'
  | stay hstart _ ih => exact .stay hstart (ih h')
  | up hstart _ ih => exact .up hstart (ih h')
  | down hstart hplain _ ih => exact .down hstart hplain (ih h')

/-- Names that lead to a place lead there as long as the folders stay. -/
theorem KeepsFolders.walks (h : t.KeepsFolders t') (hw : t.Walks start names place) :
    t'.Walks start names place := by
  induction hw with
  | done => exact .done
  | stay hstart _ ih => exact .stay (h.folder _ hstart) ih
  | up hstart _ ih => exact .up (h.folder _ hstart) ih
  | down hstart hplain _ ih => exact .down (h.folder _ hstart) hplain ih

/-- So does a path. -/
theorem KeepsFolders.locate (h : t.KeepsFolders t') {path : List Char}
    (hpath : t.locate path = .ok place) : t'.locate path = .ok place := by
  have hstart : t'.start path = t.start path := by rw [Tree.start, Tree.start, h.here]
  unfold Tree.locate at hpath ⊢
  rw [hstart]
  exact walk_eq_ok_iff.mpr (h.walks (walk_eq_ok_iff.mp hpath))

theorem walkAbove_eq_ok_iff :
    t.walkAbove start names = .ok place ↔
      t.walk start names.dropLast = .ok place ∧ t.node? place = some .folder := by
  refine ⟨fun h => ?_, fun h => walkAbove_eq_ok h.1 h.2⟩
  obtain ⟨found, hwalk, h⟩ := of_bind_eq_ok h
  obtain ⟨u, hneed, h⟩ := of_bind_eq_ok h
  cases h
  exact ⟨hwalk, needFolder_eq_ok_iff.mp hneed⟩

/-- A path that names a file leads to its last name in the folder above. -/
theorem locate_of_walkAbove {path : List Char} {name : Name}
    (hname : (Path.steps path).getLast? = some name) (hfolder : namesFolder path = false)
    (hplain : IsPlain name)
    (habove : t.walkAbove (t.start path) (Path.steps path) = .ok place) :
    t.locate path = .ok (place ++ [name]) := by
  obtain ⟨hwalk, hplace⟩ := walkAbove_eq_ok_iff.mp habove
  obtain ⟨names, hnames⟩ := List.getLast?_eq_some_iff.mp hname
  rw [hnames, List.dropLast_concat] at hwalk
  unfold Tree.locate
  rw [hfolder, if_neg Bool.false_ne_true, List.append_nil, hnames, walk_eq_ok_iff]
  exact (walk_eq_ok_iff.mp hwalk).append (.down hplace hplain .done)

end

/-! ## Making folders -/

section
variable {t t' : Tree} {start : Place} {names : List Name}

theorem makeFolder_gainsFolders (h : t.makeFolder start names = .ok t') : t.GainsFolders t' := by
  unfold makeFolder at h
  split at h
  · cases h
  obtain ⟨place, -, h⟩ := of_bind_eq_ok h
  split at h
  · cases h
  split at h
  · cases h
  split at h
  · cases h
  next hnone =>
    cases h
    exact gainsFolders_put (by simp) hnone

theorem ensureFolder_gainsFolders (h : t.ensureFolder start names = .ok t') :
    t.GainsFolders t' := by
  unfold ensureFolder at h
  split at h
  next made hmake =>
    cases h
    exact makeFolder_gainsFolders hmake
  next e hmake =>
    split at h
    · cases h
      exact .refl t
    · cases h

/-- Whether or not they are all made, making folders changes nothing else. -/
theorem ensureFolders_gainsFolders (t : Tree) (start : Place) (names : List Name) :
    t.GainsFolders (t.ensureFolders start names).2 := by
  induction names with
  | nil => exact .refl t
  | cons name names ih =>
    rw [ensureFolders]
    split
    next made hmade => exact ensureFolder_gainsFolders hmade
    next =>
      split
      next made habove =>
        rw [habove] at ih
        split
        next made' hmade => exact ih.trans (ensureFolder_gainsFolders hmade)
        next => exact ih
      next e made habove =>
        rw [habove] at ih
        exact ih
    next => exact .refl t

theorem prepare_gainsFolders (t : Tree) (path : List Char) :
    t.GainsFolders (t.prepare path).2 := by
  unfold prepare
  split
  · exact .refl t
  · exact ensureFolders_gainsFolders t _ _

end

/-! ## Writing -/

/-- A file that was created stands where its path leads. -/
theorem create_eq_ok {t t' : Tree} {path : List Char} {data : List UInt8}
    (h : t.create path data = .ok t') :
    ∃ place, place ≠ [] ∧ t.locate path = .ok place ∧ t.node? place ≠ some .folder ∧
      t' = t.put place (.file data) := by
  unfold create at h
  split at h
  · cases h
  next name hname =>
    obtain ⟨place, habove, h⟩ := of_bind_eq_ok h
    split at h
    · cases h
    next hnot =>
      split at h
      · cases h
      next hshort =>
        simp only [not_or, Bool.not_eq_true] at hnot
        have hplain : IsPlain name := ⟨hnot.1, hnot.2.1, Nat.le_of_not_lt hshort⟩
        split at h
        · cases h
        next hnode =>
          cases h
          exact ⟨place ++ [name], by simp, locate_of_walkAbove hname hnot.2.2 hplain habove, hnode,
            rfl⟩

/-- What a write can do: it fails and may leave new folders, or it puts a file where its path
leads. -/
inductive Writes (t : Tree) (path : String) (data : List UInt8) :
    Except IoFault Unit × Tree → Prop
  | failed {made : Tree} {cause : IoFault} :
      t.GainsFolders made → Writes t path data (.error cause, made)
  | put {made : Tree} {place : Place} :
      t.GainsFolders made → permit path.toList = .ok () → place ≠ [] →
      made.locate path.toList = .ok place → made.node? place ≠ some .folder →
      Writes t path data (.ok (), made.put place (.file data))

theorem writes_write (t : Tree) (path : String) (data : List UInt8) :
    t.Writes path data (t.write path data) := by
  have hgains := t.prepare_gainsFolders path.toList
  unfold write
  split
  next e made hprepare =>
    rw [hprepare] at hgains
    exact .failed hgains
  next made hprepare =>
    rw [hprepare] at hgains
    split
    next e hpermit => exact .failed hgains
    next hpermit =>
      split
      next written hcreate =>
        obtain ⟨place, hne, hlocate, hnode, rfl⟩ := create_eq_ok hcreate
        exact .put hgains hpermit hne hlocate hnode
      next e hcreate => exact .failed hgains

/-! ## Reading -/

theorem fileAt_eq_ok_iff {t : Tree} {path : List Char} {data : List UInt8} :
    t.fileAt path = .ok data ↔
      ∃ place, t.locate path = .ok place ∧ t.node? place = some (.file data) := by
  constructor
  · intro h
    obtain ⟨place, hlocate, h⟩ := of_bind_eq_ok h
    split at h
    next hnode =>
      cases h
      exact ⟨place, hlocate, hnode⟩
    · cases h
    · cases h
  · rintro ⟨place, hlocate, hnode⟩
    simp only [fileAt, hlocate, bind, Except.bind, hnode]

/-- A path is read if it leads to a file. -/
theorem read_eq_ok_iff {t : Tree} {path : String} {data : List UInt8} :
    t.read path = .ok data ↔ permit path.toList = .ok () ∧
      ∃ place, t.locate path.toList = .ok place ∧ t.node? place = some (.file data) := by
  rw [← fileAt_eq_ok_iff]
  constructor
  · intro h
    obtain ⟨u, hpermit, h⟩ := of_bind_eq_ok h
    refine ⟨hpermit, ?_⟩
    cases hfile : t.fileAt path.toList with
    | error e =>
      rw [hfile] at h
      cases h
    | ok found =>
      rw [hfile] at h
      cases h
      rfl
  · rintro ⟨hpermit, hfile⟩
    unfold read
    rw [hpermit, hfile]
    rfl

/-- Both paths lead to one place. -/
def SameFile (t : Tree) (p q : String) : Prop :=
  ∃ place, t.locate p.toList = .ok place ∧ t.locate q.toList = .ok place

instance (t : Tree) (p q : String) : Decidable (t.SameFile p q) :=
  match hp : t.locate p.toList with
  | .ok place => decidable_of_iff (t.locate q.toList = .ok place) <| by simp [SameFile, hp]
  | .error e => .isFalse <| by simp [SameFile, hp]

theorem KeepsFolders.sameFile {t t' : Tree} (h : t.KeepsFolders t') {p q : String}
    (hsame : t.SameFile p q) : t'.SameFile p q := by
  obtain ⟨place, hp, hq⟩ := hsame
  exact ⟨place, h.locate hp, h.locate hq⟩

namespace Writes

variable {t : Tree} {path : String} {data : List UInt8} {ending : Except IoFault Unit × Tree}

/-- No write takes a folder away. -/
theorem keepsFolders (h : t.Writes path data ending) : t.KeepsFolders ending.2 := by
  cases h with
  | failed hgains => exact hgains.keepsFolders
  | put hgains _ _ _ hnode => exact hgains.keepsFolders.trans (keepsFolders_put hnode _)

/-- What was written is read. -/
theorem read_eq {t' : Tree} (h : t.Writes path data (.ok (), t')) : t'.read path = .ok data := by
  cases h with
  | @put made place _ hpermit hne hlocate hnode =>
    exact read_eq_ok_iff.mpr ⟨hpermit, place, (keepsFolders_put hnode _).locate hlocate,
      by simp [hne]⟩

/-- A file that the path does not lead to keeps its data. -/
theorem node?_eq (h : t.Writes path data ending) {place : Place} {kept : List UInt8}
    (hfile : t.node? place = some (.file kept))
    (hother : ending.1 = .ok () → ending.2.locate path.toList ≠ .ok place) :
    ending.2.node? place = some (.file kept) := by
  cases h with
  | failed hgains => exact hgains.node?_eq hfile
  | @put made target hgains _ _ hlocate hnode =>
    have hne : place ≠ target := by
      rintro rfl
      exact hother rfl ((keepsFolders_put hnode _).locate hlocate)
    simp [hne, hgains.node?_eq hfile]

/-- So a path that does not lead to the written file is read as before. -/
theorem read_eq_of_read (h : t.Writes path data ending) {other : String} {kept : List UInt8}
    (hread : t.read other = .ok kept)
    (hother : ending.1 = .ok () → ¬ ending.2.SameFile other path) :
    ending.2.read other = .ok kept := by
  obtain ⟨hpermit, place, hlocate, hnode⟩ := read_eq_ok_iff.mp hread
  have hlocate' := h.keepsFolders.locate hlocate
  refine read_eq_ok_iff.mpr ⟨hpermit, place, hlocate', h.node?_eq hnode fun hok hpath => ?_⟩
  exact hother hok ⟨place, hlocate', hpath⟩

end Writes

end Tree

/-! ## Histories -/

/-- What a store can be asked. -/
inductive Call where
  | read (path : String)
  | write (path : String) (data : List UInt8)
  deriving DecidableEq, Repr

namespace Call

/-- True of a call that writes. -/
def isWrite : Call → Bool
  | read _ => false
  | write _ _ => true

/-- Makes a call, whatever it answers. -/
def make {m : Type → Type} [Monad m] (services : Services m) : Call → m Unit
  | read path => discard (services.read path)
  | write path data => discard (services.write path data)

end Call

section
variable {σ : Type} (store : Store σ)

/-- The state after calls that are made one after the other.  None of them asks for the time. -/
def Store.after (s : σ) (calls : List Call) : σ :=
  ((calls.forM (Call.make (.ofStore store ""))).run s).2

@[simp]
theorem Store.after_read (s : σ) (path : String) (calls : List Call) :
    store.after s (.read path :: calls) = store.after s calls := rfl

@[simp]
theorem Store.after_write (s : σ) (path : String) (data : List UInt8) (calls : List Call) :
    store.after s (.write path data :: calls) =
      store.after (store.write s path data).2 calls := rfl

/-- Reading changes nothing: without the reads, a history ends in the same state. -/
theorem Store.after_filter_isWrite (s : σ) (calls : List Call) :
    store.after s (calls.filter Call.isWrite) = store.after s calls := by
  induction calls generalizing s with
  | nil => rfl
  | cons call calls ih =>
    cases call with
    | read path => rw [List.filter_cons_of_neg Bool.false_ne_true, ih, after_read]
    | write path data => rw [List.filter_cons_of_pos rfl, after_write, after_write, ih]

end

namespace Tree

variable (base : String)

theorem writes_within (t : Tree) (path : String) (data : List UInt8) :
    t.Writes (Path.join base path) data ((store.within base).write t path data) := by
  dsimp only [Store.within, store]
  exact t.writes_write (Path.join base path) data

/-- No history takes a folder away. -/
theorem keepsFolders_after (t : Tree) (calls : List Call) :
    t.KeepsFolders ((store.within base).after t calls) := by
  induction calls generalizing t with
  | nil => exact .refl t
  | cons call calls ih =>
    cases call with
    | read path => simpa using ih t
    | write path data =>
      rw [Store.after_write]
      exact (writes_within base t path data).keepsFolders.trans (ih _)

/-- A file is read as before after a history in which no write leads to it. -/
theorem read_after {t : Tree} {path : String} {data : List UInt8} {calls : List Call}
    (hread : (store.within base).read t path = .ok data)
    (hother : ∀ q d, .write q d ∈ calls →
      ¬ ((store.within base).after t calls).SameFile (Path.join base path) (Path.join base q)) :
    (store.within base).read ((store.within base).after t calls) path = .ok data := by
  induction calls generalizing t with
  | nil => exact hread
  | cons call calls ih =>
    have hrest := fun q d hmem => hother q d (List.mem_cons_of_mem call hmem)
    cases call with
    | read q =>
      rw [Store.after_read] at hrest ⊢
      exact ih hread hrest
    | write q d =>
      rw [Store.after_write] at hother hrest ⊢
      refine ih ((writes_within base t q d).read_eq_of_read hread fun _ hsame => ?_) hrest
      -- what leads to one file at some time leads to it at the end
      exact hother q d List.mem_cons_self ((keepsFolders_after base _ calls).sameFile hsame)

/-! ## Top theorem -/

/-- A tree is a store of files, whose paths are seen from the folder `base`. -/
structure KeepsFiles (t : Tree) : Prop where
  /-- What was written is read. -/
  written : ∀ p data t', (store.within base).write t p data = (.ok (), t') →
    (store.within base).read t' p = .ok data
  /-- And it is read as long as no other write leads to its file. -/
  lasting : ∀ p data t', (store.within base).write t p data = (.ok (), t') →
    ∀ later, (∀ q d, .write q d ∈ later →
      ¬ ((store.within base).after t' later).SameFile (Path.join base p) (Path.join base q)) →
    (store.within base).read ((store.within base).after t' later) p = .ok data
  /-- A write, also one that fails, leaves the data of every other file. -/
  others : ∀ p data answer t', (store.within base).write t p data = (answer, t') →
    ∀ q kept, (store.within base).read t q = .ok kept →
      (answer = .ok () → ¬ t'.SameFile (Path.join base q) (Path.join base p)) →
      (store.within base).read t' q = .ok kept
  /-- A write that fails leaves all that was there, and nothing new but folders. -/
  failed : ∀ p data cause t', (store.within base).write t p data = (.error cause, t') →
    t.GainsFolders t'

/-- Whatever is read and written, a tree stays a store of files; and reading changes nothing. -/
theorem keepsFiles_after (t : Tree) (calls : List Call) :
    KeepsFiles base ((store.within base).after t calls) ∧
      (store.within base).after t (calls.filter Call.isWrite) =
        (store.within base).after t calls := by
  refine ⟨?_, Store.after_filter_isWrite _ t calls⟩
  generalize (store.within base).after t calls = s
  have hwrites : ∀ {p data ending}, (store.within base).write s p data = ending →
      s.Writes (Path.join base p) data ending := by
    rintro p data _ rfl
    exact writes_within base s p data
  constructor
  case written => exact fun p data t' h => (hwrites h).read_eq
  case lasting => exact fun p data t' h later hlater => read_after base (hwrites h).read_eq hlater
  case others => exact fun p data answer t' h q kept hq => (hwrites h).read_eq_of_read hq
  case failed =>
    intro p data cause t' h
    cases hwrites h with
    | failed hgains => exact hgains

/-- Calls that lead to the files `a/x` and `b`. -/
def twoFiles : List Call := [.write "a/x" [1], .read "b", .write "b" [2]]

/-- Another path to `a/x`, which makes a folder on its way. -/
def otherPath : Except IoFault Unit × Tree :=
  (store.within "out").write ((store.within "out").after (startingAt "work") twoFiles)
    "n/..//a/./x" [3]

/-- A path below a file, which also makes a folder on its way. -/
def belowFile : Except IoFault Unit × Tree :=
  (store.within "out").write ((store.within "out").after (startingAt "work") twoFiles)
    "m/../b/y" [4]

/-- What is written by the other path is read, and `b` stays.  A write below `b` fails, and the
folder on its way is all that is new. -/
theorem keepsFiles_after_twoFiles :
    otherPath.1 = .ok () ∧ otherPath.2.SameFile "out/a/x" "out/n/..//a/./x" ∧
      (store.within "out").read otherPath.2 "n/..//a/./x" = .ok [3] ∧
      (store.within "out").read otherPath.2 "b" = .ok [2] ∧
      belowFile.1 = .error (.os .exists) ∧
      ((store.within "out").after (startingAt "work") twoFiles).GainsFolders belowFile.2 := by
  have hok : otherPath.1 = .ok () := by decide +kernel
  have hcause : belowFile.1 = .error (.os .exists) := by decide +kernel
  have hsame : otherPath.2.SameFile "out/a/x" "out/n/..//a/./x" := by decide +kernel
  have hdiffers : ¬ otherPath.2.SameFile (Path.join "out" "b") (Path.join "out" "n/..//a/./x") :=
    by decide +kernel
  have hread : (store.within "out").read
      ((store.within "out").after (startingAt "work") twoFiles) "b" = .ok [2] := by decide +kernel
  have hother : otherPath = (.ok (), otherPath.2) := by rw [← hok]
  have hbelow : belowFile = (.error (.os .exists), belowFile.2) := by rw [← hcause]
  have h := (keepsFiles_after "out" (startingAt "work") twoFiles).1
  exact ⟨hok, hsame, h.written _ _ _ hother,
    h.others _ _ _ _ hother _ _ hread fun _ => hdiffers, hcause, h.failed _ _ _ _ hbelow⟩

end Tree

end Shorthand
