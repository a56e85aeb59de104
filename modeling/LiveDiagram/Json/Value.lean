import LiveDiagram.Text.Utf8

/-!
# JSON values

A number keeps what its spelling says: a whole number in the 64-bit ranges stays whole and exact,
every other one is a double.  An object keeps its members sorted by key, one per key; since UTF-8
orders texts as their code points do, that is also the order of the keys' bytes.

## Main results

* `Members.lookup_insert_self`, `Members.lookup_insert_ne`: the last member written for a key
  is the one found, and no other key sees the change.
-/

namespace LiveDiagram.Json

/-- A JSON number. -/
inductive Number where
  | integer (i : Int)
  | float (x : Float)
deriving DecidableEq

/-- A JSON value. -/
inductive Value where
  | null
  | bool (b : Bool)
  | number (n : Number)
  | string (s : String)
  | array (items : List Value)
  | object (members : List (String × Value))

/-- The members of an object, in ascending order of their keys. -/
abbrev Members := List (String × Value)

/-- Sets one member; an earlier one with the same key gives way. -/
def Members.insert (key : String) (v : Value) : Members → Members
  | [] => [(key, v)]
  | (k, w) :: rest =>
    if key < k then (key, v) :: (k, w) :: rest
    else if key = k then (key, v) :: rest
    else (k, w) :: Members.insert key v rest

/-- The member with this key. -/
def Members.lookup (key : String) : Members → Option Value
  | [] => none
  | (k, v) :: rest => if key = k then some v else Members.lookup key rest

theorem Members.lookup_insert_self (key : String) (v : Value) (m : Members) :
    Members.lookup key (Members.insert key v m) = some v := by
  fun_induction Members.insert key v m <;> simp_all [Members.lookup]

theorem Members.lookup_insert_ne {key other : String} (h : other ≠ key) (v : Value)
    (m : Members) : Members.lookup other (Members.insert key v m) = Members.lookup other m := by
  fun_induction Members.insert key v m <;> simp_all [Members.lookup]

end LiveDiagram.Json
