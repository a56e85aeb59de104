import LiveDiagram.Proofs.Json.Skipping
import LiveDiagram.Proofs.Json.Written

/-!
# Records written as objects

A record that is written as an object is read by matching keys and passing over what it does not know;
an object is otherwise read as a whole, into members with their values.  The two readers share the
steps between the members and nothing else, and still they agree: what a record makes of a text that
is an object depends only on the members that the object reader finds there.

The object itself does not say enough, since of two members with one key it keeps the last.  So the
members are taken as they stand in the text (`Lists`), with keys as texts and values as the object
reader reads them.

## Main results

* `exists_lists_of_parse`, `parse_of_lists`: a text is read as an object if it lists members, and the
  object is what they gather to.
* `Shape.parse_eq_ok_iff_of_lists`: a record is read from such a text by adding the members one by one.
* `Shape.isSome_fill?_iff_of_gathers`, `Shape.get?_of_gathers`: which objects a record takes, and what
  its fields hold then.
-/

namespace LiveDiagram.Json

open LiveDiagram.Ascii

/-! ## The members of a text -/

/-- This text is an object and blanks around it, and these are its members in the order in which they
stand. -/
def Lists (s : Bytes) (entries : Members) : Prop :=
  ∃ front rest, dropBlanks s = openBrace :: front ∧
    Enclosed closeBrace (Entry (Reads s.length (depthLimit - 1))) true front entries rest ∧
    dropBlanks rest = []

/-- What is read as a value takes at least one byte, since it can be passed over. -/
theorem Reads.length_lt {bound depth : Nat} {s rest : Bytes} {v : Value}
    (h : Reads bound depth s v rest) : rest.length < s.length :=
  skipValue_length (skipValue_of_value h)

theorem accepts_reads (limit bound depth : Nat) :
    Accepts limit (value bound depth) (Reads bound depth) where
  front _ _ _ h := h.exists_front
  length_lt _ _ _ h := h.length_lt
  read s _ _ h _ := (value_dropBlanks bound depth s).symm.trans h

/-- A text that is read as an object lists members. -/
theorem exists_lists_of_parse {s : Bytes} {m : Members} (h : Members.parse s = .ok m) :
    ∃ entries, Lists s entries := by
  obtain ⟨rest, hread, hblanks⟩ := document_eq_ok_iff.mp h
  unfold object at hread
  split at hread
  · cases hread
  · next b front hfront =>
      split at hread
      · next hb =>
          subst hb
          obtain ⟨entries, -, hentries, -⟩ :=
            enclosed_of_members carried_true (yields_reads _ _) hread trivial
          exact ⟨entries, front, rest, hfront, hentries, hblanks⟩
      · cases hread

/-- It is read as the object that its members make. -/
theorem parse_of_lists {s : Bytes} {entries : Members} (h : Lists s entries) :
    Members.parse s = .ok (gather [] entries) := by
  obtain ⟨front, rest, hfront, hentries, hblanks⟩ := h
  have hlength := dropBlanks_length_lt hfront
  have hread := members_of_enclosed (accepts_reads s.length _ _) hentries hlength.le hlength []
  refine document_eq_ok_iff.mpr ⟨rest, ?_, hblanks⟩
  rw [object, hfront]
  exact hread

theorem Lists.gathers {s : Bytes} {entries m : Members} (h : Lists s entries)
    (hparse : Members.parse s = .ok m) : Gathers entries m := by
  obtain rfl : gather [] entries = m := Except.ok.inj ((parse_of_lists h).symm.trans hparse)
  exact gathers_nil.gather entries

/-! ## Adding members to a record -/

/-- Adds one member to the fields of a record: it is passed over if there is no such field, and refused
if the field has been read before or the value is not of its type. -/
def Shape.add? (shape : Shape) (done : Fields) (x : String × Value) : Option Fields :=
  match shape.fields.lookup x.1 with
  | none => some done
  | some type =>
    if (done.get? x.1).isSome then none
    else (type.ofValue? x.2).map fun y => (x.1, y) :: done

/-- Adds members one by one. -/
def Shape.fill? (shape : Shape) (done : Fields) (entries : Members) : Option Fields :=
  entries.foldlM shape.add? done

@[simp] theorem Shape.fill?_nil (shape : Shape) (done : Fields) : shape.fill? done [] = some done :=
  rfl

theorem Shape.fill?_cons (shape : Shape) (done : Fields) (x : String × Value) (entries : Members) :
    shape.fill? done (x :: entries) =
      (shape.add? done x).bind fun done => shape.fill? done entries :=
  List.foldlM_cons

section

variable (shape : Shape) {bound depth : Nat}

theorem Shape.member_eq_ok_iff {key : String} {v : Value} {middle front behind : Bytes}
    (hcolon : dropBlanks middle = colon :: front)
    (hvalue : Reads bound depth (dropBlanks front) v behind) {done fs : Fields} {r : Bytes} :
    shape.member key done middle = .ok (fs, r) ↔
      shape.add? done (key, v) = some fs ∧ behind = r := by
  have hstep := colonStep_eq_ok_iff.mpr hcolon
  have hread : Reads bound depth front v behind := (value_dropBlanks bound depth front).symm.trans hvalue
  unfold member add?
  cases shape.fields.lookup key with
  | none =>
      simp only [hstep, skipValue_of_value hread]
      simp [Except.map]
  | some type =>
      cases (done.get? key).isSome with
      | true => simp
      | false =>
          have hfield := fun y r' => FieldType.read_eq_ok_iff hread type (x := y) (r := r')
          simp only [hstep, Bool.false_eq_true, if_false, map_eq_ok_iff, Prod.exists, hfield,
            Option.map_eq_some_iff, Prod.mk.injEq]
          constructor
          · rintro ⟨y, r', ⟨hy, rfl⟩, rfl, rfl⟩
            exact ⟨⟨y, hy, rfl⟩, rfl⟩
          · rintro ⟨⟨y, hy, rfl⟩, rfl⟩
            exact ⟨y, behind, ⟨hy, rfl⟩, rfl, rfl⟩

/-- The members are read as they are added. -/
theorem Shape.members_eq_ok_iff {limit : Nat} {first : Bool} {s rest : Bytes} {entries : Members}
    (h : Enclosed closeBrace (Entry (Reads limit depth)) first s entries rest)
    (hbound : s.length < bound) {done fs : Fields} {r : Bytes} :
    members shape.member bound first done s = .ok (fs, r) ↔
      shape.fill? done entries = some fs ∧ rest = r := by
  induction h generalizing bound done with
  | close hclose =>
      cases bound with
      | zero => exact absurd hbound (Nat.not_lt_zero _)
      | succ bound => simp [members, nextKey_eq_closed_iff.mpr hclose]
  | @item first s front behind rest x entries hfront hx hrest ih =>
      have hlength := hfront.length_le
      have hshorter := hx.length_lt fun _ _ _ => Reads.length_lt
      cases bound with
      | zero => exact absurd hbound (Nat.not_lt_zero _)
      | succ bound =>
          cases hx with
          | @mk text middle value behind key v hkey hcolon hvalue =>
              have hmember : ∀ fs r, shape.member key done middle = .ok (fs, r) ↔
                  shape.add? done (key, v) = some fs ∧ behind = r :=
                fun _ _ => shape.member_eq_ok_iff hcolon hvalue
              simp only [members, nextKey_eq_item_iff.mpr hfront, literal_of_unescapes hkey,
                shape.fill?_cons]
              cases hread : shape.member key done middle with
              | error f =>
                  cases hadd : shape.add? done (key, v) with
                  | none => simp
                  | some done' =>
                      rw [(hmember done' behind).mpr ⟨hadd, rfl⟩] at hread
                      cases hread
              | ok y =>
                  obtain ⟨done', r'⟩ := y
                  obtain ⟨hadd, rfl⟩ := (hmember done' r').mp hread
                  simp only [hadd, Option.bind_some]
                  exact ih (by omega)

/-- **A record is read from a text that is an object as its members are added**, one by one in the
order in which they stand; no field that must be there may be missing then. -/
theorem Shape.parse_eq_ok_iff_of_lists {input : Bytes} {entries : Members} (h : Lists input entries)
    {fs : Fields} :
    shape.parse input = .ok fs ↔
      shape.fill? [] entries = some fs ∧ shape.missing? fs = none := by
  obtain ⟨front, rest, hfront, hentries, hblanks⟩ := h
  have hmembers : ∀ fs r, members shape.member input.length true [] front = .ok (fs, r) ↔
      shape.fill? [] entries = some fs ∧ rest = r :=
    fun _ _ => shape.members_eq_ok_iff hentries (dropBlanks_length_lt hfront)
  simp only [Shape.parse, document_eq_ok_iff, Shape.read, hfront,
    show openBrace ≠ openBracket by decide, if_false, if_true]
  cases hread : members shape.member input.length true [] front with
  | error f =>
      have hnone : shape.fill? [] entries ≠ some fs := fun hfill => by
        rw [(hmembers fs rest).mpr ⟨hfill, rfl⟩] at hread
        cases hread
      simp [hnone]
  | ok y =>
      obtain ⟨all, r⟩ := y
      obtain ⟨hfill, rfl⟩ := (hmembers all r).mp hread
      simp only [hfill, Option.some.injEq]
      cases hmissing : shape.missing? all with
      | some key =>
          constructor
          · rintro ⟨r, heq, -⟩
            cases heq
          · rintro ⟨rfl, hnone⟩
            rw [hmissing] at hnone
            cases hnone
      | none =>
          constructor
          · rintro ⟨r, heq, -⟩
            cases heq
            exact ⟨rfl, hmissing⟩
          · rintro ⟨rfl, -⟩
            exact ⟨rest, rfl, hblanks⟩

end

/-! ## Fields given once -/

/-- How often a key stands in front of a value. -/
def occurrences (key : String) (entries : Members) : Nat :=
  (entries.map Prod.fst).count key

theorem occurrences_cons (key : String) (x : String × Value) (entries : Members) :
    occurrences key (x :: entries) = occurrences key entries + if x.1 = key then 1 else 0 := by
  rw [occurrences, List.map_cons, List.count_cons, ← occurrences]
  simp only [beq_iff_eq]

theorem lookup_eq_none_of_occurrences {key : String} {entries : Members}
    (h : occurrences key entries = 0) : Members.lookup key entries = none := by
  induction entries with
  | nil => rfl
  | cons x entries ih =>
      rw [occurrences_cons] at h
      have hne : key ≠ x.1 := by
        rintro rfl
        simp at h
      rw [Members.lookup, if_neg hne]
      exact ih (by omega)

/-- A key that stands in a text once at most has one value there, whichever end one looks from. -/
theorem lookup_reverse {key : String} {entries : Members} (h : occurrences key entries ≤ 1) :
    Members.lookup key entries.reverse = Members.lookup key entries := by
  induction entries with
  | nil => rfl
  | cons x entries ih =>
      rw [occurrences_cons] at h
      have hbehind : Members.lookup key entries.reverse = Members.lookup key entries := ih (by omega)
      rw [List.reverse_cons, lookup_append, hbehind]
      by_cases hkey : key = x.1
      · subst hkey
        have hnone : Members.lookup x.1 entries = none :=
          lookup_eq_none_of_occurrences (by simpa using h)
        simp [Members.lookup, hnone]
      · simp [Members.lookup, hkey]

/-- It is the value that the object has, too. -/
theorem Gathers.lookup_of_occurrences {key : String} {entries m : Members} (h : Gathers entries m)
    (honce : occurrences key entries ≤ 1) : Members.lookup key m = Members.lookup key entries :=
  (h.lookup key).trans (lookup_reverse honce)

theorem lookup_eq_some_of_mem {key : String} {v : Value} {entries : Members}
    (honce : occurrences key entries ≤ 1) (hmem : (key, v) ∈ entries) :
    Members.lookup key entries = some v := by
  induction entries with
  | nil => exact absurd hmem List.not_mem_nil
  | cons x entries ih =>
      rw [occurrences_cons] at honce
      rw [Members.lookup]
      rcases List.mem_cons.mp hmem with rfl | hbehind
      · rw [if_pos rfl]
      · have hlookup := ih (by omega) hbehind
        by_cases hkey : key = x.1
        · subst hkey
          have hnone : Members.lookup x.1 entries = none :=
            lookup_eq_none_of_occurrences (by simpa using honce)
          rw [hnone] at hlookup
          cases hlookup
        · rw [if_neg hkey, hlookup]

theorem Fields.get?_cons (done : Fields) (x : String × FieldValue) (key : String) :
    Fields.get? (x :: done) key = if key = x.1 then some x.2 else done.get? key := by
  rw [Fields.get?, List.lookup_cons, ← Fields.get?]
  by_cases hkey : key = x.1
  · simp [hkey]
  · rw [beq_false_of_ne hkey, if_neg hkey]

/-- Every field is given once at most, counting what has been read before, and with values of its
type. -/
def Shape.Fits (shape : Shape) (done : Fields) (entries : Members) : Prop :=
  ∀ key type, shape.fields.lookup key = some type →
    occurrences key entries + (done.get? key).isSome.toNat ≤ 1 ∧
      ∀ v, (key, v) ∈ entries → (type.ofValue? v).isSome

section

variable {shape : Shape} {done : Fields} {entries : Members} {key : String} {v : Value}

/-- A member that is no field does not matter. -/
theorem Shape.fits_cons_of_unknown (hkey : shape.fields.lookup key = none) :
    shape.Fits done ((key, v) :: entries) ↔ shape.Fits done entries := by
  have hother : ∀ k type, shape.fields.lookup k = some type → k ≠ key := by
    rintro k type htype rfl
    rw [hkey] at htype
    cases htype
  refine forall_congr' fun k => forall_congr' fun type => imp_congr_right fun htype => ?_
  have hne := hother k type htype
  simp [occurrences_cons, hne, hne.symm]

/-- A field that has not been read before, with a value of its type, counts as read from then on. -/
theorem Shape.fits_cons_of_field {type : FieldType} {y : FieldValue}
    (hkey : shape.fields.lookup key = some type) (hnew : done.get? key = none)
    (hvalue : type.ofValue? v = some y) :
    shape.Fits done ((key, v) :: entries) ↔ shape.Fits ((key, y) :: done) entries := by
  refine forall_congr' fun k => forall_congr' fun type' => imp_congr_right fun htype => ?_
  by_cases hk : k = key
  · subst hk
    obtain rfl : type = type' := Option.some.inj (hkey.symm.trans htype)
    simp [occurrences_cons, Fields.get?_cons, hnew, hvalue]
  · simp [occurrences_cons, Fields.get?_cons, hk, Ne.symm hk]

/-- **Members can be added if they fit**, and only then. -/
theorem Shape.isSome_fill?_iff : (shape.fill? done entries).isSome ↔ shape.Fits done entries := by
  induction entries generalizing done with
  | nil =>
      have hread : ∀ k, (done.get? k).isSome.toNat ≤ 1 := fun k => Bool.toNat_le _
      simp [Fits, occurrences, hread]
  | cons x entries ih =>
      obtain ⟨key, v⟩ := x
      rw [fill?_cons, add?]
      cases hkey : shape.fields.lookup key with
      | none => exact ih.trans (fits_cons_of_unknown hkey).symm
      | some type =>
          -- A field read before, or a value of another type, is what does not fit.
          cases hdone : done.get? key with
          | some y =>
              have hunfit : ¬ shape.Fits done ((key, v) :: entries) := fun hfits => by
                have honce := (hfits key type hkey).1
                rw [occurrences_cons, if_pos rfl, hdone, Option.isSome_some, Bool.toNat_true] at honce
                omega
              simp [hunfit]
          | none =>
              cases hvalue : type.ofValue? v with
              | none =>
                  have hunfit : ¬ shape.Fits done ((key, v) :: entries) := fun hfits => by
                    have hsome := (hfits key type hkey).2 v List.mem_cons_self
                    rw [hvalue] at hsome
                    cases hsome
                  simp [hvalue, hunfit]
              | some y =>
                  rw [fits_cons_of_field hkey hdone hvalue, ← ih]
                  simp [hvalue]

/-- **Whether a record takes the members of an object**: each field is given once at most, and what the
object has for it is of its type. -/
theorem Shape.isSome_fill?_iff_of_gathers {m : Members} (h : Gathers entries m) :
    (shape.fill? [] entries).isSome ↔ ∀ key type, shape.fields.lookup key = some type →
      occurrences key entries ≤ 1 ∧
        ∀ v, Members.lookup key m = some v → (type.ofValue? v).isSome := by
  rw [isSome_fill?_iff]
  constructor
  · intro hfits key type hkey
    obtain ⟨honce, hvalues⟩ := hfits key type hkey
    refine ⟨honce, fun v hv => hvalues v ?_⟩
    rw [h.lookup_of_occurrences honce] at hv
    exact mem_of_lookup_eq_some hv
  · intro hobject key type hkey
    obtain ⟨honce, hvalues⟩ := hobject key type hkey
    refine ⟨honce, fun v hv => hvalues v ?_⟩
    rw [h.lookup_of_occurrences honce]
    exact lookup_eq_some_of_mem honce hv

/-- **What a field holds in the end** is what was read before or else what its member gives. -/
theorem Shape.get?_of_fill? {fs : Fields} {type : FieldType}
    (hfill : shape.fill? done entries = some fs) (hkey : shape.fields.lookup key = some type) :
    fs.get? key = (done.get? key).or ((Members.lookup key entries).bind type.ofValue?) := by
  induction entries generalizing done with
  | nil =>
      cases hfill
      simp [Members.lookup]
  | cons x entries ih =>
      obtain ⟨k, v⟩ := x
      rw [fill?_cons] at hfill
      obtain ⟨done', hadd, hrest⟩ := Option.bind_eq_some_iff.mp hfill
      rw [ih hrest, Members.lookup]
      unfold add? at hadd
      by_cases hk : key = k
      · subst hk
        simp only [hkey] at hadd
        split at hadd
        · cases hadd
        · next hnew =>
            obtain ⟨y, hy, rfl⟩ := Option.map_eq_some_iff.mp hadd
            simp only [Bool.not_eq_true, Option.isSome_eq_false_iff, Option.isNone_iff_eq_none] at hnew
            simp [Fields.get?_cons, hnew, hy]
      · rw [if_neg hk]
        split at hadd
        · cases hadd
          rfl
        · split at hadd
          · cases hadd
          · obtain ⟨y, hy, rfl⟩ := Option.map_eq_some_iff.mp hadd
            rw [Fields.get?_cons, if_neg hk]

/-- In a record that was read from an object, a field holds what the object has for it. -/
theorem Shape.get?_of_gathers {m : Members} (h : Gathers entries m) {fs : Fields} {type : FieldType}
    (hfill : shape.fill? [] entries = some fs) (hkey : shape.fields.lookup key = some type) :
    fs.get? key = (Members.lookup key m).bind type.ofValue? := by
  have hsome : (shape.fill? [] entries).isSome := Option.isSome_of_eq_some hfill
  have honce := ((isSome_fill?_iff_of_gathers h).mp hsome key type hkey).1
  rw [h.lookup_of_occurrences honce, get?_of_fill? hfill hkey]
  rfl

end

end LiveDiagram.Json
