import LiveDiagram.Json.Fault

/-!
# What stands between JSON values

Blanks, the three words, and the commas, colons and brackets of lists and objects.  Each step
takes what it needs and leaves the next value for someone else to read, so that values of one kind
(any value, a record, a list) share the same steps and report the same faults.

## Main results

* `nextElement_length`, `colonStep_length`: a step never gives bytes back.
-/

namespace LiveDiagram.Json

open LiveDiagram.Ascii

/-- A space, a tab or a line end. -/
def isBlank (b : UInt8) : Bool :=
  b == space || b == lineFeed || b == 0x09 || b == carriageReturn

/-- The bytes behind a run of blanks. -/
def dropBlanks (s : Bytes) : Bytes :=
  s.dropWhile isBlank

/-- The rest of a word whose first letter has been read. -/
def word : Bytes → Bytes → Except Fault Bytes
  | [], s => .ok s
  | _ :: _, [] => .error (.here .endInValue [])
  | c :: letters, b :: rest =>
    if b = c then word letters rest else .error (.here .expectedWord rest)

/-- The end of a list or object was reached, or one more item begins. -/
inductive Next where
  | closed (rest : Bytes)
  | item (rest : Bytes)

/-- The bytes behind a step. -/
def Next.rest : Next → Bytes
  | .closed rest => rest
  | .item rest => rest

/-! ## Lists -/

/-- To the next element of a list, over the comma unless it is the first, or over the closing
bracket. -/
def nextElement (first : Bool) (s : Bytes) : Except Fault Next :=
  match dropBlanks s with
  | [] => .error (.ahead .endInList [])
  | b :: rest =>
    if b = closeBracket then .ok (.closed rest)
    else if first then .ok (.item (b :: rest))
    else if b = comma then
      match dropBlanks rest with
      | [] => .error (.ahead .endInValue [])
      | c :: rest =>
        if c = closeBracket then .error (.ahead .trailingComma (c :: rest))
        else .ok (.item (c :: rest))
    else .error (.ahead .expectedListCommaOrEnd (b :: rest))

/-- The closing bracket of a list that should hold no more elements. -/
def endList (s : Bytes) : Except Fault Bytes :=
  match dropBlanks s with
  | [] => .error (.ahead .endInList [])
  | b :: rest =>
    if b = closeBracket then .ok rest
    else if b = comma then
      match dropBlanks rest with
      | [] => .error (.ahead .trailingCharacters [])
      | c :: rest =>
        .error (.ahead (if c = closeBracket then .trailingComma else .trailingCharacters)
          (c :: rest))
    else .error (.ahead .trailingCharacters (b :: rest))

/-! ## Objects -/

/-- To the text of the next key of an object, over its opening quote and the comma before it, or
over the closing brace. -/
def nextKey (first : Bool) (s : Bytes) : Except Fault Next :=
  match dropBlanks s with
  | [] => .error (.ahead .endInObject [])
  | b :: rest =>
    if b = closeBrace then .ok (.closed rest)
    else if first then
      if b = quote then .ok (.item rest) else .error (.ahead .keyNotString (b :: rest))
    else if b = comma then
      match dropBlanks rest with
      | [] => .error (.ahead .endInValue [])
      | c :: rest =>
        if c = quote then .ok (.item rest)
        else if c = closeBrace then .error (.ahead .trailingComma (c :: rest))
        else .error (.ahead .keyNotString (c :: rest))
    else .error (.ahead .expectedObjectCommaOrEnd (b :: rest))

/-- Over the colon between a key and its value. -/
def colonStep (s : Bytes) : Except Fault Bytes :=
  match dropBlanks s with
  | [] => .error (.ahead .endInObject [])
  | b :: rest => if b = colon then .ok rest else .error (.ahead .expectedColon (b :: rest))

/-! ## A step never gives bytes back -/

theorem dropBlanks_length (s : Bytes) : (dropBlanks s).length ≤ s.length :=
  (List.dropWhile_sublist _).length_le

theorem word_length {w s rest : Bytes} (h : word w s = .ok rest) : rest.length ≤ s.length := by
  fun_induction word w s <;> simp_all
  omega

theorem nextElement_length {first : Bool} {s : Bytes} {n : Next} (h : nextElement first s = .ok n) :
    n.rest.length ≤ s.length := by
  have hs := dropBlanks_length s
  unfold nextElement at h
  split at h
  · cases h
  · rename_i b rest heq
    rw [heq] at hs
    simp only [List.length_cons] at hs
    split at h
    · cases h
      simp only [Next.rest]
      omega
    · split at h
      · cases h
        simpa only [Next.rest, List.length_cons]
      · split at h
        · have hr := dropBlanks_length rest
          split at h
          · cases h
          · rename_i heq
            rw [heq] at hr
            split at h <;> cases h
            simp only [Next.rest]
            omega
        · cases h

theorem colonStep_length {s rest : Bytes} (h : colonStep s = .ok rest) :
    rest.length < s.length := by
  have hs := dropBlanks_length s
  unfold colonStep at h
  split at h
  · cases h
  · rename_i heq
    rw [heq] at hs
    simp only [List.length_cons] at hs
    split at h <;> cases h
    omega

end LiveDiagram.Json
