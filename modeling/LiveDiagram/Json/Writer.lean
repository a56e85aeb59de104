import LiveDiagram.Json.Literal

/-!
# Writing JSON values

No blanks, members in the order the object keeps them, numbers as `Number.numeral` writes them,
texts as literals.  The items of a list are written by a recursion of their own, so that the whole
stays structural.

A value is written piece by piece to where its text is to go, and that may refuse a piece.  Memory
never does, so the text of a value is always there to be had.

## Main results

* `Value.encode_eq`: writing a value to memory succeeds, and gives its text.
-/

namespace LiveDiagram.Json

open LiveDiagram.Ascii

mutual

/-- The text of a value. -/
def Value.write : Value → Bytes
  | .null => Utf8.encode "null"
  | .bool true => Utf8.encode "true"
  | .bool false => Utf8.encode "false"
  | .number n => n.numeral
  | .string s => writeLiteral s
  | .array [] => [openBracket, closeBracket]
  | .array (v :: vs) => openBracket :: v.write ++ Value.writeElements vs
  | .object [] => [openBrace, closeBrace]
  | .object ((k, v) :: ms) =>
    openBrace :: writeLiteral k ++ colon :: v.write ++ Value.writeMembers ms

/-- The elements behind the first, each with its comma, and the closing bracket. -/
def Value.writeElements : List Value → Bytes
  | [] => [closeBracket]
  | v :: vs => comma :: v.write ++ Value.writeElements vs

/-- The members behind the first, each with its comma, and the closing brace. -/
def Value.writeMembers : List (String × Value) → Bytes
  | [] => [closeBrace]
  | (k, v) :: ms => comma :: writeLiteral k ++ colon :: v.write ++ Value.writeMembers ms

end

/-! ## Writing to a sink -/

/-- Where text goes to.  It may refuse what comes next, for a reason given in words. -/
structure Sink (σ : Type) where
  put : σ → Bytes → Except String σ

/-- Memory, which takes everything. -/
def Sink.memory : Sink Bytes where
  put s b := .ok (s ++ b)

mutual

/-- Writes a value to a sink. -/
def Value.writeTo {σ : Type} (k : Sink σ) (s : σ) : Value → Except String σ
  | .null => k.put s (Utf8.encode "null")
  | .bool true => k.put s (Utf8.encode "true")
  | .bool false => k.put s (Utf8.encode "false")
  | .number n => k.put s n.numeral
  | .string t => k.put s (writeLiteral t)
  | .array [] => k.put s [openBracket, closeBracket]
  | .array (v :: vs) => do
    let s ← k.put s [openBracket]
    let s ← v.writeTo k s
    Value.writeElementsTo k s vs
  | .object [] => k.put s [openBrace, closeBrace]
  | .object ((key, v) :: ms) => do
    let s ← k.put s (openBrace :: writeLiteral key)
    let s ← k.put s [colon]
    let s ← v.writeTo k s
    Value.writeMembersTo k s ms

/-- Writes the elements behind the first to a sink. -/
def Value.writeElementsTo {σ : Type} (k : Sink σ) (s : σ) : List Value → Except String σ
  | [] => k.put s [closeBracket]
  | v :: vs => do
    let s ← k.put s [comma]
    let s ← v.writeTo k s
    Value.writeElementsTo k s vs

/-- Writes the members behind the first to a sink. -/
def Value.writeMembersTo {σ : Type} (k : Sink σ) (s : σ) :
    List (String × Value) → Except String σ
  | [] => k.put s [closeBrace]
  | (key, v) :: ms => do
    let s ← k.put s (comma :: writeLiteral key)
    let s ← k.put s [colon]
    let s ← v.writeTo k s
    Value.writeMembersTo k s ms

end

/-- The text of a value as it builds up in memory. -/
def Value.encode (v : Value) : Except String Bytes :=
  v.writeTo .memory []

@[simp] theorem Sink.put_memory (s b : Bytes) : Sink.memory.put s b = .ok (s ++ b) :=
  rfl

theorem ok_bind {ε α β : Type} (a : α) (f : α → Except ε β) : (Except.ok a >>= f) = f a :=
  rfl

mutual

theorem Value.writeTo_memory (v : Value) (s : Bytes) : v.writeTo .memory s = .ok (s ++ v.write) := by
  cases v with
  | null => rfl
  | bool b => cases b <;> rfl
  | number n => rfl
  | string t => rfl
  | array items =>
      cases items with
      | nil => rfl
      | cons v vs =>
          simp [Value.writeTo, Value.write, ok_bind, v.writeTo_memory, Value.writeElementsTo_memory vs]
  | object members =>
      cases members with
      | nil => rfl
      | cons m ms =>
          obtain ⟨key, v⟩ := m
          simp [Value.writeTo, Value.write, ok_bind, v.writeTo_memory, Value.writeMembersTo_memory ms]

theorem Value.writeElementsTo_memory (vs : List Value) (s : Bytes) :
    Value.writeElementsTo .memory s vs = .ok (s ++ Value.writeElements vs) := by
  cases vs with
  | nil => rfl
  | cons v vs =>
      simp [Value.writeElementsTo, Value.writeElements, ok_bind, v.writeTo_memory,
        Value.writeElementsTo_memory vs]

theorem Value.writeMembersTo_memory (ms : List (String × Value)) (s : Bytes) :
    Value.writeMembersTo .memory s ms = .ok (s ++ Value.writeMembers ms) := by
  cases ms with
  | nil => rfl
  | cons m ms =>
      obtain ⟨key, v⟩ := m
      simp [Value.writeMembersTo, Value.writeMembers, ok_bind, v.writeTo_memory,
        Value.writeMembersTo_memory ms]

end

/-- Writing a value to memory succeeds, and gives its text. -/
theorem Value.encode_eq (v : Value) : v.encode = .ok v.write :=
  v.writeTo_memory []

/-- The text of an object. -/
def Members.write (m : Members) : Bytes :=
  Value.write (.object m)

end LiveDiagram.Json
