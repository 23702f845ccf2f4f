import Famp.Core.Ids
import Famp.Data.OrdMap
import Famp.Data.Words

/-!
# Texts of principals

The text of a principal, and the principals that come from a text: their text is
the one they came from, and it is a word without a comment sign.
-/

set_option autoImplicit false

namespace Famp.Core

open Std Data

namespace Principal

/-- `agent:<authority>/<name>`. -/
def display (p : Principal) : String :=
  String.ofList ("agent:".toList ++ p.authority.toList ++ '/' :: p.name.toList)

theorem toList_display (p : Principal) :
    p.display.toList = "agent:".toList ++ p.authority.toList ++ '/' :: p.name.toList :=
  String.toList_ofList

theorem takeWhile_slash {rest : List Char} (separated : '/' ∈ rest) :
    rest = rest.takeWhile (· ≠ '/') ++
      '/' :: rest.drop ((rest.takeWhile (· ≠ '/')).length + 1) := by
  induction rest with
  | nil => cases separated
  | cons c rest ih =>
    by_cases slash : c = '/'
    · subst slash
      simp
    · have later : '/' ∈ rest := (List.mem_cons.mp separated).resolve_left (Ne.symm slash)
      rw [List.takeWhile_cons_of_pos (by simpa using slash), List.cons_append, List.length_cons,
        List.drop_succ_cons, ← ih later]

theorem isGraphic_of_word {c : Char}
    (letter : isAsciiAlphanumeric c = true ∨ c = '.' ∨ c = '_' ∨ c = '-') :
    isGraphic c = true ∧ c ≠ '#' := by
  rcases letter with letter | rfl | rfl | rfl
  · simp only [isAsciiAlphanumeric, Bool.or_eq_true, Bool.and_eq_true, decide_eq_true_eq,
      Char.le_def, UInt32.le_iff_toNat_le] at letter
    refine ⟨?_, ?_⟩
    · simp only [isGraphic, Bool.and_eq_true, decide_eq_true_eq, Char.toNat]
      have digits : ('0'.val.toNat, '9'.val.toNat) = (48, 57) := rfl
      have lower : ('a'.val.toNat, 'z'.val.toNat) = (97, 122) := rfl
      have upper : ('A'.val.toNat, 'Z'.val.toNat) = (65, 90) := rfl
      simp only [Prod.mk.injEq] at digits lower upper
      omega
    · rintro rfl
      revert letter
      decide
  · decide
  · decide
  · decide

theorem fromStr_spec {text : String} {p : Principal} (parsed : fromStr text = some p) :
    text = p.display ∧ validateAuthority p.authority.toList = true ∧
      validateNameOrInstanceId p.name.toList = true := by
  simp only [fromStr] at parsed
  split at parsed
  next scheme =>
    have whole := List.take_append_drop 6 text.toList
    rw [scheme] at whole
    generalize text.toList.drop 6 = rest at parsed whole
    generalize agent : "agent:".toList = front at whole
    split at parsed
    next => cases parsed
    next =>
      split at parsed
      next separated =>
        split at parsed
        next valid =>
          obtain ⟨authority, name⟩ := Bool.and_eq_true_iff.mp valid
          have cut := takeWhile_slash (List.contains_iff_mem.mp separated)
          generalize rest.takeWhile (· ≠ '/') = first at parsed authority name cut
          generalize rest.drop (first.length + 1) = last at parsed name cut
          cases parsed
          refine ⟨?_, ?_, ?_⟩
          · rw [← String.toList_inj, toList_display, agent, String.toList_ofList, String.toList_ofList,
              List.append_assoc, ← cut, whole]
          · rwa [String.toList_ofList]
          · rwa [String.toList_ofList]
        next => cases parsed
      next => cases parsed
  next => cases parsed

/-- The characters that the text of a principal is made of. -/
def TextChar (c : Char) : Prop := isGraphic c = true ∧ c ≠ '#'

theorem textChars_of_all {chars : List Char}
    (all : chars.all (fun c => isGraphic c && c != '#') = true) : ∀ c ∈ chars, TextChar c := by
  simpa [TextChar] using all

theorem textChar_of_authority {authority : List Char} (valid : validateAuthority authority = true) :
    ∀ c ∈ authority, TextChar c := by
  intro c member
  simp only [validateAuthority, Bool.and_eq_true, List.all_eq_true] at valid
  rcases mem_splitOnP (· == '.') member with dot | ⟨label, within, inside⟩
  · exact isGraphic_of_word (.inr (.inl (by simpa using dot)))
  · have checked := valid.2 label within
    simp only [validLabel, Bool.and_eq_true, List.all_eq_true] at checked
    have letter := checked.2 c inside
    simp only [Bool.or_eq_true, beq_iff_eq] at letter
    exact isGraphic_of_word (letter.imp_right fun dash => .inr (.inr dash))

theorem textChar_of_name {name : List Char} (valid : validateNameOrInstanceId name = true) :
    ∀ c ∈ name, TextChar c := by
  intro c member
  simp only [validateNameOrInstanceId, Bool.and_eq_true, List.all_eq_true] at valid
  have letter := valid.2 c member
  simp only [Bool.or_eq_true, beq_iff_eq, or_assoc] at letter
  exact isGraphic_of_word letter

end Principal

/-- A principal that comes from its text, as every principal of the program does. -/
structure ParsedPrincipal where
  principal : Principal
  parses : Principal.fromStr principal.display = some principal

namespace ParsedPrincipal

instance : DecidableEq ParsedPrincipal := fun p q =>
  decidable_of_iff (p.principal = q.principal) ⟨fun same => by cases p; cases q; simp_all,
    congrArg principal⟩

def text (p : ParsedPrincipal) : String := p.principal.display

theorem text_injective : Function.Injective text := by
  intro p q same
  have principals : some p.principal = some q.principal := by
    rw [← p.parses, ← q.parses]
    exact congrArg Principal.fromStr same
  cases p
  cases q
  simpa using principals

instance : Ord ParsedPrincipal := ⟨compareOn text⟩

instance : TransOrd ParsedPrincipal := inferInstanceAs (TransCmp (compareOn text))

instance : LawfulEqOrd ParsedPrincipal := compareOn_lawfulEq text_injective

def fromStr (text : String) : Option ParsedPrincipal :=
  match parsed : Principal.fromStr text with
  | none => none
  | some principal =>
    some ⟨principal, by rw [← (Principal.fromStr_spec parsed).1]; exact parsed⟩

theorem principal_of_fromStr {text : String} {p : ParsedPrincipal} (parsed : fromStr text = some p) :
    Principal.fromStr text = some p.principal := by
  unfold fromStr at parsed
  split at parsed
  next => cases parsed
  next principal found =>
    cases parsed
    exact found

theorem fromStr_text (p : ParsedPrincipal) : fromStr p.text = some p := by
  unfold fromStr
  split
  next none_eq => cases none_eq.symm.trans p.parses
  next principal parsed =>
    obtain rfl : principal = p.principal := Option.some.inj (parsed.symm.trans p.parses)
    rfl

theorem text_chars (p : ParsedPrincipal) : ∀ c ∈ p.text.toList, Principal.TextChar c := by
  obtain ⟨-, authority, name⟩ := Principal.fromStr_spec p.parses
  intro c member
  rw [text, Principal.toList_display, List.mem_append, List.mem_append, List.mem_cons] at member
  rcases member with (scheme | inside) | rfl | inside
  · exact Principal.textChars_of_all (by decide) c scheme
  · exact Principal.textChar_of_authority authority c inside
  · exact ⟨by decide, by decide⟩
  · exact Principal.textChar_of_name name c inside

theorem text_isWord (p : ParsedPrincipal) : IsWord p.text.toList where
  nonempty := by
    rw [text, Principal.toList_display]
    simp
  graphic c member := (p.text_chars c member).1

end ParsedPrincipal

theorem peerAlice_parses : Principal.fromStr (Principal.display ⟨"peer.example", "alice"⟩) =
    some ⟨"peer.example", "alice"⟩ := by decide +kernel

theorem peerBob_parses : Principal.fromStr (Principal.display ⟨"peer.example", "bob"⟩) =
    some ⟨"peer.example", "bob"⟩ := by decide +kernel

end Famp.Core
