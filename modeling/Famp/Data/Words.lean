import Mathlib.Data.List.Basic

/-!
# Lines and words of a text

Texts as lists of characters: their lines, the words of a line, and that both
come back from a text that was put together from them.
-/

set_option autoImplicit false

namespace Famp.Data

/-- The `White_Space` property of Unicode. -/
def isWhiteSpace (c : Char) : Bool :=
  let n := c.toNat
  (9 ≤ n && n ≤ 13) || n == 0x20 || n == 0x85 || n == 0xA0 || n == 0x1680 ||
    (0x2000 ≤ n && n ≤ 0x200A) || n == 0x2028 || n == 0x2029 || n == 0x202F || n == 0x205F ||
    n == 0x3000

/-- A visible ASCII character. -/
def isGraphic (c : Char) : Bool := 0x21 ≤ c.toNat && c.toNat ≤ 0x7E

variable {c : Char} {texts : List (List Char)} {word line : List Char}

theorem not_isWhiteSpace_of_isGraphic (graphic : isGraphic c = true) : isWhiteSpace c = false := by
  simp only [isGraphic, Bool.and_eq_true, decide_eq_true_eq] at graphic
  simp [isWhiteSpace]
  omega

theorem ne_of_isGraphic {blank : Char} (graphic : isGraphic c = true)
    (white : isWhiteSpace blank = true) : c ≠ blank := by
  rintro rfl
  rw [not_isWhiteSpace_of_isGraphic graphic] at white
  cases white

/-! ## Lines -/

/-- The lines of a text, without their ends; a last line needs no end. -/
def lines : List Char → List (List Char)
  | [] => []
  | '\r' :: '\n' :: rest => [] :: lines rest
  | '\n' :: rest => [] :: lines rest
  | c :: rest =>
    match lines rest with
    | [] => [[c]]
    | line :: more => (c :: line) :: more

theorem lines_cons {rest : List Char} {more : List (List Char)} (inside : c ≠ '\r' ∧ c ≠ '\n')
    (split : lines rest = line :: more) : lines (c :: rest) = (c :: line) :: more := by
  rw [lines.eq_4 c rest (fun _ cr _ => inside.1 cr) inside.2, split]

theorem lines_append (clean : ∀ c ∈ line, c ≠ '\r' ∧ c ≠ '\n') (rest : List Char) :
    lines (line ++ '\n' :: rest) = line :: lines rest := by
  induction line with
  | nil => rw [List.nil_append, lines]
  | cons c line ih =>
    have later := ih fun c member => clean c (List.mem_cons_of_mem _ member)
    exact lines_cons (clean c List.mem_cons_self) later

theorem lines_flatMap (clean : ∀ line ∈ texts, ∀ c ∈ line, c ≠ '\r' ∧ c ≠ '\n') :
    lines (texts.flatMap fun line => line ++ ['\n']) = texts := by
  induction texts with
  | nil => rfl
  | cons line rest ih =>
    rw [List.flatMap_cons, List.append_assoc, List.singleton_append,
      lines_append (clean line List.mem_cons_self),
      ih fun other member => clean other (List.mem_cons_of_mem _ member)]

/-! ## Words -/

/-- The pieces between white space. -/
def words (text : List Char) : List (List Char) :=
  (text.splitOnP isWhiteSpace).filter fun piece => !piece.isEmpty

theorem mem_splitOnP (split : Char → Bool) {text : List Char} (member : c ∈ text) :
    split c = true ∨ ∃ piece ∈ text.splitOnP split, c ∈ piece := by
  induction text with
  | nil => cases member
  | cons d rest ih =>
    rw [List.splitOnP_cons_eq_if_modifyHead]
    split
    next separator =>
      rcases List.mem_cons.mp member with rfl | later
      · exact .inl separator
      · rcases ih later with here | ⟨piece, within, inside⟩
        · exact .inl here
        · exact .inr ⟨piece, List.mem_cons_of_mem _ within, inside⟩
    next =>
      obtain ⟨first, more, pieces⟩ := List.exists_cons_of_ne_nil (List.splitOnP_ne_nil split rest)
      rw [pieces] at ih ⊢
      rw [List.modifyHead_cons]
      rcases List.mem_cons.mp member with rfl | later
      · exact .inr ⟨_, List.mem_cons_self, List.mem_cons_self⟩
      · rcases ih later with here | ⟨piece, within, inside⟩
        · exact .inl here
        · rcases List.mem_cons.mp within with rfl | within
          · exact .inr ⟨_, List.mem_cons_self, List.mem_cons_of_mem _ inside⟩
          · exact .inr ⟨piece, List.mem_cons_of_mem _ within, inside⟩

def spaced : List (List Char) → List Char
  | [] => []
  | [word] => word
  | word :: rest => word ++ ' ' :: ' ' :: spaced rest

theorem spaced_cons (word : List Char) (rest : List (List Char)) :
    ∃ more, spaced (word :: rest) = word ++ more := by
  cases rest with
  | nil => exact ⟨[], (List.append_nil word).symm⟩
  | cons next rest => exact ⟨' ' :: ' ' :: spaced (next :: rest), rfl⟩

structure IsWord (text : List Char) : Prop where
  nonempty : text ≠ []
  graphic : ∀ c ∈ text, isGraphic c = true

theorem IsWord.unbroken (isWord : IsWord word) :
    ∀ c ∈ word, isWhiteSpace c = false := fun c member =>
  not_isWhiteSpace_of_isGraphic (isWord.graphic c member)

theorem words_append (isWord : IsWord word) (rest : List Char) :
    words (word ++ ' ' :: ' ' :: rest) = word :: words rest := by
  unfold words
  rw [List.splitOnP_append_cons_of_forall_mem isWord.unbroken ' ' (by decide), List.splitOnP_cons_eq_if_modifyHead]
  simp [isWord.nonempty, show isWhiteSpace ' ' = true by decide]

theorem words_single (isWord : IsWord word) : words word = [word] := by
  unfold words
  rw [List.splitOnP_eq_singleton isWord.unbroken]
  simp [isWord.nonempty]

theorem words_spaced (areWords : ∀ word ∈ texts, IsWord word) : words (spaced texts) = texts := by
  induction texts with
  | nil => rfl
  | cons word rest ih =>
    have later := ih fun other member => areWords other (List.mem_cons_of_mem _ member)
    have first := areWords word List.mem_cons_self
    cases rest with
    | nil => exact words_single first
    | cons next rest =>
      rw [spaced, words_append first, later]
      exact nofun

theorem mem_spaced (member : c ∈ spaced texts) : c = ' ' ∨ ∃ word ∈ texts, c ∈ word := by
  induction texts with
  | nil => cases member
  | cons word rest ih =>
    cases rest with
    | nil => exact .inr ⟨word, List.mem_cons_self, member⟩
    | cons next rest =>
      simp only [spaced, List.mem_append, List.mem_cons] at member
      rcases member with inside | blank | blank | later
      · exact .inr ⟨word, List.mem_cons_self, inside⟩
      · exact .inl blank
      · exact .inl blank
      · rcases ih later with blank | ⟨other, within, inside⟩
        · exact .inl blank
        · exact .inr ⟨other, List.mem_cons_of_mem _ within, inside⟩

end Famp.Data
