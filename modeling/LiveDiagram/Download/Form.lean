import LiveDiagram.Text.Percent
import LiveDiagram.Text.Pieces

/-!
# Forms

A form is a run of `key=value` fields with ampersands between them.  A plus sign stands for a
space, a percent sign and two hexadecimal digits for any byte, and the bytes so spelled are text
in UTF-8.

Nothing is refused: a percent sign without its digits stands for itself, a field without an equals
sign has the empty value, and damaged text is repaired.

## Main results

* `parse_join`: the fields of two forms joined by an ampersand are the fields of both.
-/

namespace LiveDiagram.Form

open LiveDiagram.Ascii

/-! ## Splitting -/

/-- What stands before the first equals sign, and what stands behind it. -/
def splitField (s : Bytes) : Bytes × Bytes :=
  (s.takeWhile (· != equals), (s.dropWhile (· != equals)).drop 1)

/-! ## Spelling -/

/-- The text that a run of form bytes spells. -/
def spelled (s : Bytes) : String :=
  Utf8.decode (Percent.decode (s.map fun b => if b = plus then space else b))

/-! ## Fields -/

/-- A field with its key. -/
abbrev Field := String × String

/-- The fields of a form, in order.  Between two ampersands that touch there is none. -/
def parse (s : Bytes) : List Field :=
  ((pieces (· == ampersand) s).filter (!·.isEmpty)).map fun piece =>
    (spelled (splitField piece).1, spelled (splitField piece).2)

/-- The value of the first field with this key, unless it is empty. -/
def nonEmpty? (fields : List Field) (key : String) : Option String :=
  (fields.lookup key).filter (· ≠ "")

/-! ## Joining -/

theorem parse_join (s t : Bytes) : parse (s ++ ampersand :: t) = parse s ++ parse t := by
  simp [parse, @pieces_append _ (· == ampersand) ampersand (by simp)]

end LiveDiagram.Form
