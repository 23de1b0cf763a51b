import Shorthand.Store.Tree

/-!
# The folder above a path

The path of the folder above is a beginning of the path itself (`parent_isPrefix`), and it has all
its parts but the last (`parts_parent`).

    parent "a//b/./c/" = "a//b"        parts "a//b" = ["a", "b"] = (parts "a//b/./c/").dropLast

So the folder above may be looked at where the path may (`permitFolder_eq_ok`).
-/

namespace Shorthand

namespace Path

/-! ## Parts -/

theorem steps_append (cs : List Char) {name : List Char} (hname : name ≠ []) (h : '/' ∉ name) :
    steps (cs ++ '/' :: name) = steps cs ++ [name] := by
  unfold steps
  rw [List.splitOn_append_cons_self, List.splitOn_eq_singleton h, List.filter_append]
  simp [hname]

theorem steps_slash (cs : List Char) : steps (cs ++ ['/']) = steps cs := by
  unfold steps
  rw [List.splitOn_append_cons_self, List.filter_append]
  simp

theorem parts_eq_filter (path : List Char) :
    parts path = (path.splitOn '/').filter (!isIdle ·) := by
  unfold parts steps
  rw [List.filter_filter]
  refine List.filter_congr fun part _ => ?_
  rw [Bool.eq_iff_iff]
  simp [isIdle, and_comm]

theorem slash_not_mem_of_mem_splitOn {path part : List Char} (h : part ∈ path.splitOn '/') :
    '/' ∉ part := by
  induction path generalizing part with
  | nil => simp_all
  | cons c cs ih =>
    rw [List.splitOn_cons_eq_if_modifyHead] at h
    split at h
    · rcases List.mem_cons.mp h with rfl | h
      · exact List.not_mem_nil
      · exact ih h
    · next hc =>
      obtain ⟨first, rest, hsplit⟩ := List.exists_cons_of_ne_nil (List.splitOn_ne_nil '/' cs)
      rw [hsplit] at h ih
      rcases List.mem_cons.mp h with rfl | h
      · have hfirst : '/' ∉ first := ih List.mem_cons_self
        have hne : c ≠ '/' := mt beq_iff_eq.mpr hc
        exact fun hmem => (List.mem_cons.mp hmem).elim hne.symm hfirst
      · exact ih (List.mem_cons_of_mem _ h)

/-! ## The folder above -/

theorem filter_dropWhile_isIdle (pieces : List (List Char)) :
    (pieces.dropWhile isIdle).filter (!isIdle ·) = pieces.filter (!isIdle ·) := by
  induction pieces with
  | nil => rfl
  | cons piece pieces ih => cases hidle : isIdle piece <;> simp [hidle, ih]

theorem filter_tail_dropWhile_isIdle (pieces : List (List Char)) :
    (pieces.dropWhile isIdle).tail.filter (!isIdle ·) = (pieces.filter (!isIdle ·)).tail := by
  induction pieces with
  | nil => rfl
  | cons piece pieces ih => cases hidle : isIdle piece <;> simp [hidle, ih]

/-- The folder above is spelled by the first pieces of the path, which hold all its parts but the
last. -/
theorem exists_parent_eq (path : List Char) : ∃ kept, kept <+: path.splitOn '/' ∧
    parent path = ['/'].intercalate kept ∧ kept.filter (!isIdle ·) = (parts path).dropLast := by
  refine ⟨_, ?_, rfl, ?_⟩
  · rw [← List.reverse_reverse (path.splitOn '/'), List.reverse_prefix, List.reverse_reverse]
    exact (List.dropWhile_suffix _).trans ((List.tail_suffix _).trans (List.dropWhile_suffix _))
  · rw [List.filter_reverse, filter_dropWhile_isIdle, filter_tail_dropWhile_isIdle,
      List.filter_reverse, ← List.dropLast_reverse, List.reverse_reverse, parts_eq_filter]

@[simp]
theorem parts_parent (path : List Char) : parts (parent path) = (parts path).dropLast := by
  obtain ⟨kept, hkept, hparent, hparts⟩ := exists_parent_eq path
  rw [← hparts, hparent, parts_eq_filter]
  by_cases hnil : kept = []
  · rw [hnil]
    rfl
  · rw [List.splitOn_intercalate '/' (fun _ h => slash_not_mem_of_mem_splitOn (hkept.mem h)) hnil]

example : parent "a//b/./c/".toList = "a//b".toList := by decide

theorem intercalate_isPrefix (sep : List Char) {xs ys : List (List Char)} (h : xs <+: ys) :
    sep.intercalate xs <+: sep.intercalate ys := by
  induction xs generalizing ys with
  | nil => exact List.nil_prefix
  | cons x xs ih =>
    obtain ⟨rest, rfl⟩ := h
    by_cases hrest : xs ++ rest = []
    · obtain ⟨rfl, rfl⟩ := List.append_eq_nil_iff.mp hrest
      exact List.prefix_rfl
    · rw [List.cons_append, List.intercalate_cons_of_ne_nil hrest]
      by_cases hxs : xs = []
      · rw [hxs, List.intercalate_singleton, List.append_assoc]
        exact List.prefix_append x _
      · rw [List.intercalate_cons_of_ne_nil hxs]
        exact (List.prefix_append_right_inj _).mpr (ih (List.prefix_append xs rest))

theorem parent_isPrefix (path : List Char) : parent path <+: path := by
  obtain ⟨kept, hkept, hparent, -⟩ := exists_parent_eq path
  have hprefix := intercalate_isPrefix ['/'] hkept
  rwa [List.intercalate_splitOn, ← hparent] at hprefix

end Path

/-! ## Limits -/

namespace Tree

theorem folderOf_eq (path : List Char) : folderOf path = (Path.parts path).dropLast :=
  Path.parts_parent path

theorem le_foldl_utf8Size (n : Nat) (cs : List Char) :
    n ≤ cs.foldl (fun n c => n + c.utf8Size) n := by
  induction cs generalizing n with
  | nil => exact Nat.le_refl n
  | cons c cs ih => exact Nat.le_trans (Nat.le_add_right n _) (ih _)

theorem size_le_of_isPrefix {cs path : List Char} (h : cs <+: path) : size cs ≤ size path := by
  obtain ⟨rest, rfl⟩ := h
  unfold size
  rw [List.foldl_append]
  exact le_foldl_utf8Size _ rest

theorem permit_eq_ok_iff {path : List Char} :
    permit path = .ok () ↔ '\x00' ∉ path ∧ path ≠ [] ∧ size path < pathLimit := by
  unfold permit
  split
  · simp_all
  · split
    · simp_all
    · split <;> simp_all

theorem permit_of_isPrefix {cs path : List Char} (h : cs <+: path) (hne : cs ≠ [])
    (hpath : permit path = .ok ()) : permit cs = .ok () := by
  obtain ⟨hnul, -, hsize⟩ := permit_eq_ok_iff.mp hpath
  exact permit_eq_ok_iff.mpr
    ⟨fun hmem => hnul (h.mem hmem), hne, Nat.lt_of_le_of_lt (size_le_of_isPrefix h) hsize⟩

/-- Who may look at a path may look at the folder above. -/
theorem permitFolder_eq_ok {path : List Char} (h : permit path = .ok ()) :
    permitFolder path = .ok () := by
  unfold permitFolder
  split
  · rfl
  · next hne =>
    exact permit_of_isPrefix (Path.parent_isPrefix path) (mt List.isEmpty_iff.mpr hne) h

end Tree

end Shorthand
