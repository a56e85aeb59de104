import LiveDiagram.Proofs.Json.Numerals

/-!
# What is written is spelled

A written text is a spelling of its value in the strictest style: members stand in ascending order of
their keys, and each number in the one way in which it is written.  So it can be read again wherever
numbers can, and nothing has to be known about the writer beyond this.

A numeral need not stand for the number that it was written for.  Then the text spells the value with
those other numbers in it (`Value.mapNumbers`), and all the rest of the value is unchanged.

A value that was read has everything that this takes (`Normal`): its objects ascend, its numbers have
numerals, and no more brackets are open at once than the reader allows.

## Main results

* `spells_write`: the text of a value, whatever stands behind it.
* `Normal.of_spells`: what was read can be written.
* `parse_write`: what an object reads back as.
-/

namespace LiveDiagram.Json

open LiveDiagram.Ascii

/-- A value with at most this many brackets open at once, with ascending objects, and with only such
numbers. -/
inductive Normal (kept : Number → Prop) : Nat → Value → Prop where
  | null {depth : Nat} : Normal kept depth .null
  | bool {depth : Nat} (b : Bool) : Normal kept depth (.bool b)
  | number {depth : Nat} {n : Number} (h : kept n) : Normal kept depth (.number n)
  | string {depth : Nat} (s : String) : Normal kept depth (.string s)
  | array {depth : Nat} {vs : List Value} (h : ∀ v ∈ vs, Normal kept depth v) :
      Normal kept (depth + 1) (.array vs)
  | object {depth : Nat} {m : Members} (hascending : Ascending m)
      (h : ∀ x ∈ m, Normal kept depth x.2) : Normal kept (depth + 1) (.object m)

theorem Normal.mono {kept kept' : Number → Prop} (hkept : ∀ n, kept n → kept' n) {depth : Nat}
    {v : Value} (h : Normal kept depth v) : Normal kept' depth v := by
  induction h with
  | null => exact .null
  | bool b => exact .bool b
  | number h => exact .number (hkept _ h)
  | string s => exact .string s
  | array h ih => exact .array ih
  | object hascending h ih => exact .object hascending ih

/-! ## Other numbers -/

mutual

/-- A value with other numbers in it. -/
def Value.mapNumbers (f : Number → Number) : Value → Value
  | .null => .null
  | .bool b => .bool b
  | .number n => .number (f n)
  | .string s => .string s
  | .array vs => .array (Value.mapElements f vs)
  | .object m => .object (Value.mapMembers f m)

/-- The elements with other numbers in them. -/
def Value.mapElements (f : Number → Number) : List Value → List Value
  | [] => []
  | v :: vs => v.mapNumbers f :: Value.mapElements f vs

/-- The members with other numbers in them. -/
def Value.mapMembers (f : Number → Number) : List (String × Value) → List (String × Value)
  | [] => []
  | (k, v) :: m => (k, v.mapNumbers f) :: Value.mapMembers f m

end

/-- An object with other numbers in it. -/
def Members.mapNumbers (f : Number → Number) (m : Members) : Members :=
  Value.mapMembers f m

section

variable {f : Number → Number} {depth : Nat} {v : Value}

theorem mapElements_eq_map (vs : List Value) :
    Value.mapElements f vs = vs.map (Value.mapNumbers f) := by
  induction vs with
  | nil => rfl
  | cons v vs ih => rw [Value.mapElements, ih, List.map_cons]

theorem mapMembers_eq_map (m : Members) :
    Value.mapMembers f m = m.map fun x => (x.1, x.2.mapNumbers f) := by
  induction m with
  | nil => rfl
  | cons x m ih => rw [Value.mapMembers, ih, List.map_cons]

/-- Keys stay as they are. -/
theorem Ascending.mapMembers {m : Members} (h : Ascending m) : Ascending (Value.mapMembers f m) := by
  rw [mapMembers_eq_map]
  exact List.pairwise_map.mpr h

/-- A value whose numbers stay as they are is unchanged. -/
theorem Normal.mapNumbers_eq_self {kept : Number → Prop} (hf : ∀ n, kept n → f n = n)
    (h : Normal kept depth v) : v.mapNumbers f = v := by
  induction h with
  | null => rfl
  | bool b => rfl
  | number h => rw [Value.mapNumbers, hf _ h]
  | string s => rfl
  | array h ih =>
      rw [Value.mapNumbers, mapElements_eq_map, List.map_congr_left ih, List.map_id']
  | object hascending h ih =>
      rw [Value.mapNumbers, mapMembers_eq_map,
        List.map_congr_left fun x hx => congrArg (Prod.mk x.1) (ih x hx), List.map_id']

theorem Members.mapNumbers_eq_self {kept : Number → Prop} (hf : ∀ n, kept n → f n = n) {m : Members}
    (h : Normal kept depth (.object m)) : m.mapNumbers f = m :=
  Value.object.inj (h.mapNumbers_eq_self hf)

theorem Normal.mapNumbers {kept kept' : Number → Prop} (hf : ∀ n, kept n → kept' (f n))
    (h : Normal kept depth v) : Normal kept' depth (v.mapNumbers f) := by
  induction h with
  | null => exact .null
  | bool b => exact .bool b
  | number h => exact .number (hf _ h)
  | string s => exact .string s
  | array h ih =>
      rw [Value.mapNumbers, mapElements_eq_map]
      exact .array (List.forall_mem_map.mpr ih)
  | object hascending h ih =>
      refine .object hascending.mapMembers ?_
      rw [mapMembers_eq_map]
      exact List.forall_mem_map.mpr ih

end

/-! ## Writing -/

/-- A written literal is spelled. -/
theorem unescapes_writeLiteral (s : String) (rest : Bytes) :
    Unescapes (escape (Utf8.encode s) ++ quote :: rest) (Utf8.encode s) rest :=
  unescapes_of_literal (literal_write s rest)

/-- A style in which such numbers are written, with numerals that stand for what `f` makes of them, and
objects in ascending order. -/
structure Style.WritesAs (style : Style) (kept : Number → Prop) (f : Number → Number) : Prop where
  readable : style.Readable
  numeral : ∀ n, kept n → style.numeral n.numeral (f n)
  ordered : ∀ m, Ascending m → style.ordered m

/-- A style in which such numbers are written with numerals of their own. -/
abbrev Style.Writes (style : Style) (kept : Number → Prop) : Prop :=
  style.WritesAs kept id

section

variable {style : Style} {kept : Number → Prop} {f : Number → Number} {depth : Nat}

theorem endsNumeral_writeElements (vs : List Value) (rest : Bytes) :
    endsNumeral (Value.writeElements vs ++ rest) = true := by
  cases vs <;> rfl

theorem endsNumeral_writeMembers (m : Members) (rest : Bytes) :
    endsNumeral (Value.writeMembers m ++ rest) = true := by
  cases m with
  | nil => rfl
  | cons x m => rfl

/-- What the items of a list or object need for their texts to be spelled with commas between. -/
structure Writes (f : Number → Number) (spells : Bytes → Value → Bytes → Prop) (v : Value) :
    Prop where
  spells : ∀ rest, endsNumeral rest = true → spells (v.write ++ rest) (v.mapNumbers f) rest
  front : ∀ rest, endsNumeral rest = true → dropBlanks (v.write ++ rest) = v.write ++ rest

/-- The elements behind some other element, up to the closing bracket. -/
theorem enclosed_writeElements {spells : Bytes → Value → Bytes → Prop} {vs : List Value}
    (h : ∀ v ∈ vs, Writes f spells v) (rest : Bytes) :
    Enclosed closeBracket spells false (Value.writeElements vs ++ rest) (Value.mapElements f vs)
      rest := by
  induction vs with
  | nil => exact .close (dropBlanks_cons (by decide) rest)
  | cons v vs ih =>
      obtain ⟨hv, hvs⟩ := List.forall_mem_cons.mp h
      have hbehind := endsNumeral_writeElements vs rest
      have hcomma : dropBlanks (Value.writeElements (v :: vs) ++ rest) =
          comma :: (v.write ++ (Value.writeElements vs ++ rest)) := by
        rw [Value.writeElements, List.cons_append, List.cons_append, List.append_assoc]
        exact dropBlanks_cons (by decide) _
      have hfront := Onward.next hcomma
      rw [hv.front _ hbehind] at hfront
      exact .item hfront (hv.spells _ hbehind) (ih hvs)

theorem entry_write {spells : Bytes → Value → Bytes → Prop} {x : String × Value}
    (h : Writes f spells x.2) {rest : Bytes} (hrest : endsNumeral rest = true) :
    Entry spells (writeLiteral x.1 ++ colon :: (x.2.write ++ rest)) (x.1, x.2.mapNumbers f)
      rest := by
  rw [writeLiteral_append]
  refine .mk (unescapes_writeLiteral x.1 _) (dropBlanks_cons (by decide) _) ?_
  rw [h.front _ hrest]
  exact h.spells _ hrest

/-- The members behind some other member, up to the closing brace. -/
theorem enclosed_writeMembers {spells : Bytes → Value → Bytes → Prop} {m : Members}
    (h : ∀ x ∈ m, Writes f spells x.2) (rest : Bytes) :
    Enclosed closeBrace (Entry spells) false (Value.writeMembers m ++ rest)
      (Value.mapMembers f m) rest := by
  induction m with
  | nil => exact .close (dropBlanks_cons (by decide) rest)
  | cons x m ih =>
      obtain ⟨hx, hm⟩ := List.forall_mem_cons.mp h
      have hbehind := endsNumeral_writeMembers m rest
      have hcomma : dropBlanks (Value.writeMembers (x :: m) ++ rest) =
          comma :: (writeLiteral x.1 ++ colon :: (x.2.write ++ (Value.writeMembers m ++ rest))) := by
        rw [Value.writeMembers]
        simp only [List.cons_append, List.append_assoc]
        exact dropBlanks_cons (by decide) _
      have hfront := Onward.next hcomma
      rw [writeLiteral_append, dropBlanks_cons (by decide), ← writeLiteral_append] at hfront
      exact .item hfront (entry_write hx hbehind) (ih hm)

theorem scalar_write (hstyle : style.WritesAs kept f) {v : Value} (h : Normal kept 0 v) {rest : Bytes}
    (hrest : endsNumeral rest = true) : Scalar style (v.write ++ rest) (v.mapNumbers f) rest := by
  cases h with
  | null => exact .null
  | bool b =>
      cases b with
      | false => exact .false
      | true => exact .true
  | number h => exact .number (hstyle.numeral _ h) hrest
  | string s =>
      rw [Value.write, writeLiteral_append]
      exact .string (unescapes_writeLiteral s rest)

/-- The text of a value spells it, whatever stands behind it. -/
theorem spells_write (hstyle : style.WritesAs kept f) {v : Value} (h : Normal kept depth v)
    {rest : Bytes} (hrest : endsNumeral rest = true) : Spells style depth (v.write ++ rest) (v.mapNumbers f)
      rest := by
  induction depth generalizing v rest with
  | zero => exact scalar_write hstyle h hrest
  | succ depth ih =>
      have hitem : ∀ {v}, Normal kept depth v → Writes f (Spells style depth) v := fun hv =>
        ⟨fun rest hrest => ih hv hrest, fun rest hrest =>
          (front_of_spells hstyle.readable (ih hv hrest)).1⟩
      cases h with
      | null => exact .scalar (scalar_write hstyle .null hrest)
      | bool b => exact .scalar (scalar_write hstyle (.bool b) hrest)
      | number h => exact .scalar (scalar_write hstyle (.number h) hrest)
      | string s => exact .scalar (scalar_write hstyle (.string s) hrest)
      | @array _ vs h =>
          cases vs with
          | nil => exact .array (.close (dropBlanks_cons (by decide) rest))
          | cons v vs =>
              obtain ⟨hv, hvs⟩ := List.forall_mem_cons.mp h
              have hbehind := endsNumeral_writeElements vs rest
              have hfront : Onward true (v.write ++ (Value.writeElements vs ++ rest)) _ := .first
              rw [(hitem hv).front _ hbehind] at hfront
              rw [Value.write, List.cons_append, List.cons_append, List.append_assoc]
              exact .array (.item hfront ((hitem hv).spells _ hbehind)
                (enclosed_writeElements (fun w hw => hitem (hvs w hw)) rest))
      | @object _ m hascending h =>
          have hmapped := hascending.mapMembers (f := f)
          have hordered := hstyle.ordered _ hmapped
          cases m with
          | nil => exact .object (.close (dropBlanks_cons (by decide) rest)) hordered hmapped.gathers
          | cons x m =>
              obtain ⟨hx, hm⟩ := List.forall_mem_cons.mp h
              have hbehind := endsNumeral_writeMembers m rest
              have hwrite : (Value.object (x :: m)).write ++ rest = openBrace ::
                  (writeLiteral x.1 ++ colon :: (x.2.write ++ (Value.writeMembers m ++ rest))) := by
                rw [Value.write]
                simp only [List.cons_append, List.append_assoc]
              have hfront : Onward true
                  (writeLiteral x.1 ++ colon :: (x.2.write ++ (Value.writeMembers m ++ rest))) _ := .first
              rw [writeLiteral_append, dropBlanks_cons (by decide), ← writeLiteral_append] at hfront
              rw [hwrite]
              exact .object (.item hfront (entry_write (hitem hx) hbehind)
                (enclosed_writeMembers (fun y hy => hitem (hm y hy)) rest)) hordered hmapped.gathers

/-- The text of an object denotes it, with what its numerals stand for. -/
theorem denotes_write_mapNumbers (hstyle : style.WritesAs kept f) {m : Members}
    (h : Normal kept depthLimit (.object m)) : Denotes style m.write (m.mapNumbers f) := by
  have hspells := spells_write hstyle h (show endsNumeral [] = true from rfl)
  rw [List.append_nil] at hspells
  have hfront := (front_of_spells hstyle.readable hspells).1
  exact ⟨[], hfront.symm ▸ hspells, rfl⟩

/-- The text of an object denotes it. -/
theorem denotes_write (hstyle : style.Writes kept) {m : Members}
    (h : Normal kept depthLimit (.object m)) : Denotes style m.write m := by
  have hdenotes := denotes_write_mapNumbers hstyle h
  rwa [Members.mapNumbers_eq_self (f := id) (fun _ _ => rfl) h] at hdenotes

/-- **A written object reads back**, with what its numerals stand for. -/
theorem parse_write (hstyle : style.WritesAs kept f) {m : Members}
    (h : Normal kept depthLimit (.object m)) : Members.parse m.write = .ok (m.mapNumbers f) :=
  parse_of_denotes hstyle.readable (denotes_write_mapNumbers hstyle h)

end

/-! ## What was read can be written -/

theorem mem_of_lookup_eq_some {key : String} {v : Value} {m : Members}
    (h : Members.lookup key m = some v) : (key, v) ∈ m := by
  induction m with
  | nil => cases h
  | cons x m ih =>
      rw [Members.lookup] at h
      split at h
      · next hkey =>
          rw [hkey, ← Option.some.inj h]
          exact List.mem_cons_self
      · exact List.mem_cons_of_mem x (ih h)

theorem Ascending.lookup_of_mem {m : Members} (h : Ascending m) {x : String × Value} (hx : x ∈ m) :
    Members.lookup x.1 m = some x.2 := by
  induction m with
  | nil => cases hx
  | cons y m ih =>
      obtain ⟨hbefore, hrest⟩ := List.pairwise_cons.mp h
      rw [Members.lookup]
      rcases List.mem_cons.mp hx with rfl | hx
      · exact if_pos rfl
      · rw [if_neg (hbefore x hx).ne']
        exact ih hrest hx

/-- An object has no members but those that stand in its text. -/
theorem Gathers.subset {entries m : Members} (h : Gathers entries m) {x : String × Value}
    (hx : x ∈ m) : x ∈ entries := by
  have hlookup := h.lookup x.1
  rw [h.ascending.lookup_of_mem hx] at hlookup
  exact List.mem_reverse.mp (mem_of_lookup_eq_some hlookup.symm)

theorem Enclosed.exists_of_mem {α : Type} {close : UInt8} {spells : Bytes → α → Bytes → Prop}
    {first : Bool} {s rest : Bytes} {xs : List α} (h : Enclosed close spells first s xs rest) {x : α}
    (hx : x ∈ xs) : ∃ s rest, spells s x rest := by
  induction h with
  | close hclose => cases hx
  | item hfront hy hrest ih =>
      rcases List.mem_cons.mp hx with rfl | hx
      · exact ⟨_, _, hy⟩
      · exact ih hx

/-- A value that is spelled can be written, if its numbers can. -/
theorem Normal.of_spells {style : Style} {kept : Number → Prop}
    (hkept : ∀ w n, style.numeral w n → kept n) {depth : Nat} {s rest : Bytes} {v : Value}
    (h : Spells style depth s v rest) : Normal kept depth v := by
  have hscalar : ∀ {depth s v rest}, Scalar style s v rest → Normal kept depth v := by
    intro depth s v rest h
    cases h with
    | null => exact .null
    | true => exact .bool true
    | false => exact .bool false
    | number h hrest => exact .number (hkept _ _ h)
    | string h => exact .string _
  induction depth generalizing s v rest with
  | zero => exact hscalar h
  | succ depth ih =>
      cases h with
      | scalar h => exact hscalar h
      | array h =>
          refine .array fun v hv => ?_
          obtain ⟨s, rest, hspells⟩ := h.exists_of_mem hv
          exact ih hspells
      | object h hordered hgathers =>
          refine .object hgathers.ascending fun x hx => ?_
          obtain ⟨s, rest, hentry⟩ := h.exists_of_mem (hgathers.subset hx)
          cases hentry with
          | mk hkey hcolon hvalue => exact ih hvalue

end LiveDiagram.Json
