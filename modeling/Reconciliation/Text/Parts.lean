/-
# Parts of a text

Splitting a text at a mark.  The parts, joined by the mark, are the text again.
-/

namespace Reconciliation

/-- Splits a text at every `mark`. -/
def splitAtChar (mark : Char) : List Char → List (List Char)
  | [] => [[]]
  | c :: rest =>
    if c = mark then [] :: splitAtChar mark rest
    else match splitAtChar mark rest with
      | part :: parts => (c :: part) :: parts
      | [] => [[c]]

theorem splitAtChar_ne_nil (mark : Char) (text : List Char) : splitAtChar mark text ≠ [] := by
  cases text with
  | nil => simp [splitAtChar]
  | cons c rest =>
    unfold splitAtChar
    split
    · simp
    · split <;> simp

/-- Nothing is lost by splitting. -/
theorem intercalate_splitAtChar (mark : Char) (text : List Char) :
    [mark].intercalate (splitAtChar mark text) = text := by
  induction text with
  | nil => simp [splitAtChar, List.intercalate]
  | cons c rest ih =>
    unfold splitAtChar
    split
    · rename_i h
      subst h
      cases hs : splitAtChar c rest with
      | nil => exact absurd hs (splitAtChar_ne_nil c rest)
      | cons part parts =>
        rw [hs] at ih
        simpa [List.intercalate, List.intersperse] using ih
    · cases hs : splitAtChar mark rest with
      | nil => exact absurd hs (splitAtChar_ne_nil mark rest)
      | cons part parts =>
        rw [hs] at ih
        cases parts with
        | nil => simpa [List.intercalate, List.intersperse] using ih
        | cons second parts =>
          simpa [List.intercalate, List.intersperse] using ih

end Reconciliation
