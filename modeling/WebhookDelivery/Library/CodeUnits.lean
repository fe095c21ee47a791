import Mathlib.Data.List.Lex
import Mathlib.Data.List.Sort

/-!
# Strings by their UTF-16 code units

JavaScript compares strings by their code units, which is not the order of
their code points once a character lies beyond U+FFFF.  Sorting in that order
does not depend on the order of the input.
-/

namespace JavaScript

/-- One code unit, or a surrogate pair. -/
def charUnits (char : Char) : List Nat :=
  if char.toNat < 0x10000 then [char.toNat]
  else
    [0xD800 + (char.toNat - 0x10000) / 0x400,
      0xDC00 + (char.toNat - 0x10000) % 0x400]

def codeUnits (string : String) : List Nat :=
  string.toList.flatMap charUnits

/-- `sort` without a comparison function. -/
def sort (strings : List String) : List String :=
  strings.insertionSort fun first second => codeUnits first ≤ codeUnits second

/-- A code point is no surrogate. -/
theorem toNat_of_char (char : Char) :
    char.toNat < 0xD800 ∨ 0xDFFF < char.toNat ∧ char.toNat < 0x110000 := by
  rcases char.valid with low | high
  · exact .inl low
  · exact .inr high

/-- No character's code units begin those of another. -/
theorem charUnits_append_inj {first second : Char} {firsts seconds : List Nat}
    (same : charUnits first ++ firsts = charUnits second ++ seconds) :
    first = second ∧ firsts = seconds := by
  have firstPoint := toNat_of_char first
  have secondPoint := toNat_of_char second
  unfold charUnits at same
  split at same <;> split at same <;>
    simp only [List.cons_append, List.nil_append, List.cons.injEq] at same
  · exact ⟨Char.toNat_inj.mp same.1, same.2⟩
  · omega
  · omega
  · exact ⟨Char.toNat_inj.mp (by omega), same.2.2⟩

theorem flatMap_charUnits_inj {first second : List Char}
    (same : first.flatMap charUnits = second.flatMap charUnits) :
    first = second := by
  have nonempty (char : Char) (chars : List Char) :
      (char :: chars).flatMap charUnits ≠ [] := by
    rw [List.flatMap_cons, charUnits]
    split <;> simp
  induction first generalizing second with
  | nil =>
      cases second with
      | nil => rfl
      | cons char chars => exact absurd same.symm (nonempty char chars)
  | cons char chars ih =>
      cases second with
      | nil => exact absurd same (nonempty char chars)
      | cons other others =>
          rw [List.flatMap_cons, List.flatMap_cons] at same
          obtain ⟨rfl, rest⟩ := charUnits_append_inj same
          rw [ih rest]

theorem codeUnits_injective : Function.Injective codeUnits := by
  intro first second same
  exact String.toList_inj.mp (flatMap_charUnits_inj same)

theorem perm_sort (strings : List String) : (sort strings).Perm strings :=
  List.perm_insertionSort _ strings

theorem pairwise_sort (strings : List String) :
    (sort strings).Pairwise fun first second =>
      codeUnits first ≤ codeUnits second := by
  have total : Std.Total fun first second : String =>
      codeUnits first ≤ codeUnits second :=
    ⟨fun _ _ => le_total _ _⟩
  have transitive : IsTrans String fun first second =>
      codeUnits first ≤ codeUnits second :=
    ⟨fun _ _ _ => le_trans⟩
  exact List.pairwise_insertionSort _ strings

/-- Sorting forgets the order of its input. -/
theorem sort_eq_of_perm {first second : List String}
    (shuffled : first.Perm second) : sort first = sort second := by
  have sorted := (perm_sort first).trans (shuffled.trans (perm_sort second).symm)
  exact sorted.eq_of_pairwise
    (fun _ _ _ _ before after => codeUnits_injective (le_antisymm before after))
    (pairwise_sort first) (pairwise_sort second)

end JavaScript
