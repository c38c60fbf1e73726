import Helios.Library.Segments

/-!
# Paths of the filesystem

Absolute paths are resolved by their segments: empty ones and dots are left out, and a parent
segment is refused.  What a resolution gives is a path that resolves to itself.
-/

namespace Helios

open List

inductive ComponentFsPathError where
  | invalidBasePath
  | notPermitted
  deriving DecidableEq, Repr

namespace FsPath

variable {path : List Char}

open Segments

def pushRelativeSegments (path output : List Char) : Except ComponentFsPathError (List Char) :=
  (path.splitOn '/').foldlM (fun output segment =>
    if segment = [] ∨ segment = ['.'] then .ok output
    else if segment = ['.', '.'] then .error .notPermitted
    else .ok (output ++ '/' :: segment)) output

def pushAbsoluteSegments (path output : List Char) : Except ComponentFsPathError (List Char) :=
  if path.head? ≠ some '/' then .error .invalidBasePath else pushRelativeSegments path output

section

variable (path)

def finalizeAbsolutePath : List Char :=
  if path = [] then ['/'] else path

def resolveAbsolutePath : Except ComponentFsPathError (List Char) := do
  let output ← pushAbsoluteSegments path []
  .ok (finalizeAbsolutePath output)

def resolveChildPath (base child : List Char) : Except ComponentFsPathError (List Char) :=
  if child.head? = some '/' then .error .notPermitted
  else do
    let output ← pushAbsoluteSegments base []
    let output ← pushRelativeSegments child output
    .ok (finalizeAbsolutePath output)

def resolveGuestPath (base path : List Char) : Except ComponentFsPathError (List Char) :=
  if path.head? = some '/' then resolveAbsolutePath path else resolveChildPath base path

/-! ### What is pushed -/

/-- The segments that a path keeps. -/
def kept : List (List Char) :=
  (path.splitOn '/').filter fun segment => segment ≠ [] ∧ segment ≠ ['.']

/-- A segment of a resolved path. -/
def Plain (segment : List Char) : Prop :=
  segment ≠ [] ∧ segment ≠ ['.'] ∧ segment ≠ ['.', '.'] ∧ '/' ∉ segment

/-- A path that resolution leaves as it is. -/
def Resolved : Prop :=
  ∃ segments, (∀ segment ∈ segments, Plain segment) ∧
    path = finalizeAbsolutePath (joined '/' segments)

end

/-- The segments are pushed in order, unless one of them is the parent. -/
theorem pushRelativeSegments_eq (path output : List Char) :
  pushRelativeSegments path output =
    if ['.', '.'] ∈ path.splitOn '/' then .error .notPermitted
    else .ok (output ++ joined '/' (kept path))
  := by
  rw [pushRelativeSegments, kept]
  generalize path.splitOn '/' = segments
  induction segments generalizing output with
  | nil => simp [pure, Except.pure]
  | cons segment segments ih =>
    rw [foldlM_cons]
    by_cases hskip : segment = [] ∨ segment = ['.']
    · rw [if_pos hskip]
      simp only [bind, Except.bind]
      rw [ih]
      have hparent : ['.', '.'] ≠ segment := by
        rintro rfl
        simp at hskip
      have hdropped : ¬ (segment ≠ [] ∧ segment ≠ ['.']) := by
        rintro ⟨hempty, hdot⟩
        rcases hskip with h | h
        · exact hempty h
        · exact hdot h
      simp only [mem_cons, hparent, false_or, filter_cons, decide_eq_true_eq, if_neg hdropped]
    · rw [if_neg hskip]
      by_cases hparent : segment = ['.', '.']
      · rw [hparent]
        rfl
      · rw [if_neg hparent]
        simp only [bind, Except.bind]
        rw [ih]
        have hkept : segment ≠ [] ∧ segment ≠ ['.'] := not_or.mp hskip
        simp only [mem_cons, Ne.symm hparent, false_or, filter_cons, decide_eq_true_eq, if_pos
          hkept, joined_cons, append_assoc]

theorem kept_plain {segment : List Char} (hparent : ['.', '.'] ∉ path.splitOn '/')
    (h : segment ∈ kept path) :
  Plain segment
  := by
  rw [kept, mem_filter, decide_eq_true_eq] at h
  obtain ⟨hmem, hempty, hdot⟩ := h
  refine ⟨hempty, hdot, ?_, not_mem_of_mem_splitOn hmem⟩
  rintro rfl
  exact hparent hmem

theorem resolveAbsolutePath_eq_ok {resolved : List Char}
    (h : resolveAbsolutePath path = .ok resolved) :
  ['.', '.'] ∉ path.splitOn '/' ∧ resolved = finalizeAbsolutePath (joined '/' (kept path))
  := by
  rw [resolveAbsolutePath, pushAbsoluteSegments] at h
  split at h
  · cases h
  · rw [pushRelativeSegments_eq] at h
    split at h <;> cases h
    rename_i hparent
    exact ⟨hparent, rfl⟩

theorem resolved_of_resolveAbsolutePath {resolved : List Char}
    (h : resolveAbsolutePath path = .ok resolved) :
  Resolved resolved
  := by
  obtain ⟨hparent, rfl⟩ := resolveAbsolutePath_eq_ok h
  exact ⟨kept path, fun segment hsegment => kept_plain hparent hsegment, rfl⟩

theorem kept_joined {segments : List (List Char)} (h : ∀ segment ∈ segments, Plain segment) :
  kept (joined '/' segments) = segments
  := by
  rw [kept, splitOn_joined fun segment hsegment => (h segment hsegment).2.2.2]
  rw [filter_cons_of_neg (by simp), filter_eq_self]
  intro segment hsegment
  rw [decide_eq_true_eq]
  exact ⟨(h segment hsegment).1, (h segment hsegment).2.1⟩

/-- A resolved path starts at the root. -/
theorem Resolved.head (h : Resolved path) :
  path.head? = some '/'
  := by
  obtain ⟨segments, _, rfl⟩ := h
  cases segments with
  | nil | cons segment segments => rfl

/-- A resolved path resolves to itself. -/
theorem Resolved.resolve (h : Resolved path) :
  resolveAbsolutePath path = .ok path
  := by
  have hhead := h.head
  obtain ⟨segments, hplain, rfl⟩ := h
  rw [resolveAbsolutePath, pushAbsoluteSegments, if_neg (by simp [hhead]), pushRelativeSegments_eq]
  cases segments with
  | nil => decide
  | cons segment segments =>
    have hpath : finalizeAbsolutePath (joined '/' (segment :: segments)) =
        joined '/' (segment :: segments) := rfl
    rw [hpath, kept_joined hplain, if_neg]
    · rfl
    · rw [splitOn_joined fun segment hsegment => (hplain segment hsegment).2.2.2]
      intro hmem
      rcases mem_cons.mp hmem with hnil | hmem
      · cases hnil
      · exact (hplain _ hmem).2.2.1 rfl

end FsPath

end Helios
