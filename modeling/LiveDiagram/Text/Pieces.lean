/-!
# Pieces

A text is divided into pieces by the characters of a class.  There is always one piece more than
there are dividers, so nothing is lost: an empty text is one empty piece.

## Main results

* `pieces_append`: dividing two texts with a divider between them gives the pieces of both.
-/

namespace LiveDiagram

variable {α : Type}

/-- Puts a character in front of text already divided. -/
def consPiece (divides : α → Bool) (c : α) (later : List (List α)) : List (List α) :=
  if divides c then [] :: later
  else
    match later with
    | [] => [[c]]
    | piece :: rest => (c :: piece) :: rest

/-- The pieces between dividers. -/
def pieces (divides : α → Bool) (s : List α) : List (List α) :=
  s.foldr (consPiece divides) [[]]

/-- The pieces of a text between the places of one character. -/
def piecesAt (divider : Char) (s : String) : List String :=
  (pieces (· == divider) s.toList).map String.ofList

theorem pieces_ne_nil (divides : α → Bool) (s : List α) : pieces divides s ≠ [] := by
  cases s with
  | nil => simp [pieces]
  | cons c s =>
    simp only [pieces, List.foldr_cons, consPiece]
    split
    · simp
    · split <;> simp

theorem pieces_append {divides : α → Bool} {c : α} (hc : divides c = true) (s t : List α) :
    pieces divides (s ++ c :: t) = pieces divides s ++ pieces divides t := by
  induction s with
  | nil => simp [pieces, consPiece, hc]
  | cons b s ih =>
    have hs : pieces divides (b :: s) = consPiece divides b (pieces divides s) := rfl
    have hst : pieces divides (b :: s ++ c :: t) =
        consPiece divides b (pieces divides (s ++ c :: t)) := rfl
    rw [hst, hs, ih]
    cases hp : pieces divides s with
    | nil => exact absurd hp (pieces_ne_nil divides s)
    | cons p ps =>
      simp only [consPiece]
      split <;> simp

end LiveDiagram
