import Mathlib.Data.List.Basic

/-!
# Paths

A path is a list of components that starts at the root or at the working
directory.  Resolving a path walks its components: a name goes down one
directory, and `..` goes back up.  Directories are taken to be no links.
-/

set_option autoImplicit false

namespace Famp.Data

structure Path where
  isAbsolute : Bool
  components : List (List Char)
  deriving DecidableEq, Repr

namespace Path

def parentDir : List Char := ['.', '.']

/-- The components of a text; empty ones and `.` stay where they are. -/
def parts (text : List Char) : List (List Char) :=
  (text.splitOnP (· == '/')).filter fun part => part != [] && part != ['.']

def ofText (text : List Char) : Path := ⟨text.head? == some '/', parts text⟩

/-- An absolute text replaces the path. -/
def join (base : Path) (text : List Char) : Path :=
  if (ofText text).isAbsolute then ofText text
  else ⟨base.isAbsolute, base.components ++ parts text⟩

def enter (isAbsolute : Bool) (entered : List (List Char)) (part : List Char) : List (List Char) :=
  if part = parentDir then
    match entered with
    | [] => if isAbsolute then [] else [parentDir]
    | innermost :: outer =>
      if innermost = parentDir then parentDir :: innermost :: outer else outer
  else part :: entered

/-- Where the path leads, the innermost name first. -/
def resolve (path : Path) : Bool × List (List Char) :=
  (path.isAbsolute, path.components.foldl (enter path.isAbsolute) [])

/-- The file lies directly in the directory. -/
def IsChild (dir file : Path) : Prop :=
  ∃ name, name ≠ parentDir ∧ file.resolve = (dir.resolve.1, name :: dir.resolve.2)

structure IsFileName (text : List Char) : Prop where
  unbroken : '/' ∉ text
  named : text ≠ []
  notHere : text ≠ ['.']
  notParent : text ≠ parentDir

theorem IsFileName.parts_eq {text : List Char} (isFileName : IsFileName text) :
    parts text = [text] := by
  have single : text.splitOnP (· == '/') = [text] := by
    refine List.splitOnP_eq_singleton ?_
    intro c member
    rw [beq_eq_false_iff_ne]
    rintro rfl
    exact isFileName.unbroken member
  simp [parts, single, isFileName.named, isFileName.notHere]

theorem IsFileName.join_eq {text : List Char} (isFileName : IsFileName text) (base : Path) :
    base.join text = ⟨base.isAbsolute, base.components ++ [text]⟩ := by
  have relative : (ofText text).isAbsolute = false := by
    cases text with
    | nil => rfl
    | cons first rest =>
      have differ : first ≠ '/' := by
        rintro rfl
        exact isFileName.unbroken (List.mem_cons_self ..)
      simp [ofText, differ]
  simp [join, relative, isFileName.parts_eq]

theorem IsFileName.resolve_join {text : List Char} (isFileName : IsFileName text) (base : Path) :
    (base.join text).resolve = (base.resolve.1, text :: base.resolve.2) := by
  simp [isFileName.join_eq base, resolve, enter, isFileName.notParent]

theorem IsFileName.isChild {text : List Char} (isFileName : IsFileName text) (base : Path) :
    IsChild base (base.join text) :=
  ⟨text, isFileName.notParent, isFileName.resolve_join base⟩

theorem IsFileName.resolve_join_inj {first second : List Char} (one : IsFileName first)
    (two : IsFileName second) {base : Path}
    (same : (base.join first).resolve = (base.join second).resolve) : first = second := by
  rw [one.resolve_join, two.resolve_join, Prod.mk.injEq, List.cons.injEq] at same
  exact same.2.1

end Path

end Famp.Data
