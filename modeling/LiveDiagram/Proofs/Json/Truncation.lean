import Mathlib.Data.List.TakeWhile
import LiveDiagram.Json.Record
import LiveDiagram.Proofs.Json.Continuation

/-!
# Texts that were cut short

Nothing that is read as a whole text is still read as one when its end is missing.  A record and an
object end with a bracket of their own (`EndsItself`): a reader that met it in the front part would
have stopped there in the whole text too, and what was cut off would be left over.

The loops of a reader are bounded by the length of the text.  The whole text has the larger bound, so
the notions compare two readers, one for the front part and one for the whole.

## Main results

* `value_extends`: a value is read the same from every longer text, as long as something stands
  behind it.
* `Shape.endsItself_read`, `endsItself_object`: records and objects are, in any case.
* `exists_error_of_cut`: the front part of a text is refused.
-/

namespace LiveDiagram.Json

open LiveDiagram.Ascii

/-- What one reader takes from the front of a text, if it leaves something there, the other takes from
the whole. -/
def Extends {α : Type} (whole front : Bytes → Read α) : Prop :=
  ∀ s x b rest, front s = .ok (x, b :: rest) →
    ∀ more, whole (s ++ more) = .ok (x, b :: (rest ++ more))

/-- What one reader takes from the front of a text the other takes from the whole. -/
def EndsItself {α : Type} (whole front : Bytes → Read α) : Prop :=
  ∀ s x rest, front s = .ok (x, rest) → ∀ more, whole (s ++ more) = .ok (x, rest ++ more)

theorem EndsItself.extends {α : Type} {whole front : Bytes → Read α} (h : EndsItself whole front) :
    Extends whole front :=
  fun s x b rest hread more => h s x (b :: rest) hread more

theorem Extends.map {α β : Type} {whole front : Bytes → Read α} (h : Extends whole front)
    (f : α → β) :
    Extends (fun s => (whole s).map fun r => (f r.1, r.2))
      (fun s => (front s).map fun r => (f r.1, r.2)) := by
  intro s x b rest hread more
  obtain ⟨⟨y, behind⟩, hy, heq⟩ := map_eq_ok_iff.1 hread
  cases heq
  simp only [h s y b rest hy more]
  rfl

theorem EndsItself.map {α β : Type} {whole front : Bytes → Read α} (h : EndsItself whole front)
    (f : α → β) :
    EndsItself (fun s => (whole s).map fun r => (f r.1, r.2))
      (fun s => (front s).map fun r => (f r.1, r.2)) := by
  intro s x rest hread more
  obtain ⟨⟨y, behind⟩, hy, heq⟩ := map_eq_ok_iff.1 hread
  cases heq
  simp only [h s y behind hy more]
  rfl

/-! ## Loops -/

section

variable {α σ : Type} {first : Bool} {s rest : Bytes}

theorem elements_ne_nil {item : Bytes → Read α} {bound : Nat} {done xs : List α}
    (h : elements item bound first done s = .ok (xs, rest)) : s ≠ [] := by
  rintro rfl
  cases bound <;> cases h

theorem members_ne_nil {member : String → σ → Bytes → Read σ} {bound : Nat} {gathered all : σ}
    (h : members member bound first gathered s = .ok (all, rest)) : s ≠ [] := by
  rintro rfl
  cases bound <;> cases h

/-- A list ends itself if its items extend: behind each of them stands a comma or the bracket. -/
theorem elements_endsItself {whole front : Bytes → Read α} (hitem : Extends whole front)
    {bound larger : Nat} (hbound : bound ≤ larger) (first : Bool) (done : List α) :
    EndsItself (elements whole larger first done) (elements front bound first done) := by
  induction bound generalizing larger first done with
  | zero =>
      intro s xs rest h
      cases h
  | succ bound ih =>
      intro s xs rest h more
      obtain ⟨larger, rfl⟩ := Nat.exists_eq_add_of_lt hbound
      rw [elements] at h ⊢
      split at h
      · cases h
      · next behind hclosed =>
          cases h
          simp only [nextElement_more_closed hclosed more]
      · next text hnext =>
          simp only [nextElement_more_item hnext more]
          split at h
          · cases h
          · next x behind hread =>
              obtain ⟨b, tail, rfl⟩ := List.exists_cons_of_ne_nil (elements_ne_nil h)
              simp only [hitem text x b tail hread more]
              exact ih (by omega) false (x :: done) _ xs rest h more

/-- An object ends itself if its members extend. -/
theorem members_endsItself {whole front : String → σ → Bytes → Read σ}
    (hmember : ∀ key gathered, Extends (whole key gathered) (front key gathered))
    {bound larger : Nat} (hbound : bound ≤ larger) (first : Bool) (gathered : σ) :
    EndsItself (members whole larger first gathered) (members front bound first gathered) := by
  induction bound generalizing larger first gathered with
  | zero =>
      intro s all rest h
      cases h
  | succ bound ih =>
      intro s all rest h more
      obtain ⟨larger, rfl⟩ := Nat.exists_eq_add_of_lt hbound
      rw [members] at h ⊢
      split at h
      · cases h
      · next behind hclosed =>
          cases h
          simp only [nextKey_more_closed hclosed more]
      · next text hnext =>
          simp only [nextKey_more_item hnext more]
          split at h
          · cases h
          · next key value hkey =>
              simp only [literal_more hkey more]
              split at h
              · cases h
              · next gathered' behind hread =>
                  obtain ⟨b, tail, rfl⟩ := List.exists_cons_of_ne_nil (members_ne_nil h)
                  simp only [hmember key gathered value gathered' b tail hread more]
                  exact ih (by omega) false gathered' _ all rest h more

end

/-! ## Values -/

/-- A value without brackets extends; `b` is its first byte. -/
theorem scalar_extends (b : UInt8) : Extends (scalar b) (scalar b) := by
  intro s v c rest h more
  have hword : ∀ (w : Bytes) (constant : Value),
      ((word w s).map fun r => (constant, r)) = .ok (v, c :: rest) →
        ((word w (s ++ more)).map fun r => (constant, r)) = .ok (v, c :: (rest ++ more)) := by
    intro w constant hread
    obtain ⟨behind, hw, heq⟩ := map_eq_ok_iff.1 hread
    cases heq
    rw [word_more hw]
    rfl
  unfold scalar at h ⊢
  split at h
  · next hb =>
      rw [if_pos hb]
      exact EndsItself.map (fun s t rest h more => literal_more h more) .string s v _ h more
  next hquote =>
  rw [if_neg hquote]
  split at h
  · next hb =>
      rw [if_pos hb]
      exact Extends.map (fun s n d rest h more => number_more h more) .number (b :: s) v c rest h more
  next hnumber =>
  rw [if_neg hnumber]
  split at h
  · next hb =>
      rw [if_pos hb]
      exact hword _ _ h
  next hnull =>
  rw [if_neg hnull]
  split at h
  · next hb =>
      rw [if_pos hb]
      exact hword _ _ h
  next htrue =>
  rw [if_neg htrue]
  split at h
  · next hb =>
      rw [if_pos hb]
      exact hword _ _ h
  · cases h

theorem memberOf_extends {whole front : Bytes → Read Value} (hitem : Extends whole front)
    (key : String) (gathered : Members) :
    Extends (memberOf whole key gathered) (memberOf front key gathered) := by
  intro s all b rest h more
  rw [memberOf_eq_ok_iff] at h ⊢
  obtain ⟨text, v, hcolon, hread, hinsert⟩ := h
  exact ⟨text ++ more, v, dropBlanks_more hcolon more, hitem text v b rest hread more, hinsert⟩

theorem value_extends {bound larger : Nat} (hbound : bound ≤ larger) (depth : Nat) :
    Extends (value larger depth) (value bound depth) := by
  induction depth with
  | zero =>
      intro s v c rest h more
      rw [value] at h ⊢
      split at h
      · cases h
      · next b front hdrop =>
          simp only [dropBlanks_more hdrop more]
          split at h
          · cases h
          next hlist =>
          rw [if_neg hlist]
          split at h
          · cases h
          next hobject =>
          rw [if_neg hobject]
          exact scalar_extends b front v c rest h more
  | succ depth ih =>
      intro s v c rest h more
      rw [value] at h ⊢
      split at h
      · cases h
      · next b front hdrop =>
          simp only [dropBlanks_more hdrop more]
          split at h
          · next hb =>
              rw [if_pos hb]
              exact (elements_endsItself ih hbound true []).map .array front v _ h more
          next hlist =>
          rw [if_neg hlist]
          split at h
          · next hb =>
              rw [if_pos hb]
              exact (members_endsItself (memberOf_extends ih) hbound true []).map .object
                front v _ h more
          next hobject =>
          rw [if_neg hobject]
          exact scalar_extends b front v c rest h more

theorem endsItself_object {bound larger : Nat} (hbound : bound ≤ larger) :
    EndsItself (object larger) (object bound) := by
  intro s m rest h more
  rw [object] at h ⊢
  split at h
  · cases h
  · next b front hdrop =>
      simp only [dropBlanks_more hdrop more]
      split at h
      · next hb =>
          rw [if_pos hb]
          exact members_endsItself (memberOf_extends (value_extends hbound _)) hbound true []
            front m rest h more
      · cases h

/-! ## Records -/

theorem endsItself_text : EndsItself text text := by
  intro s t rest h more
  rw [text] at h ⊢
  split at h
  · cases h
  · next b front hdrop =>
      simp only [dropBlanks_more hdrop more]
      split at h
      · next hb =>
          rw [if_pos hb]
          exact literal_more h more
      · cases h

theorem endsItself_optionalText : EndsItself optionalText optionalText := by
  intro s x rest h more
  rw [optionalText] at h ⊢
  split at h
  · cases h
  · next b front hdrop =>
      simp only [dropBlanks_more hdrop more]
      split at h
      · next hb =>
          obtain ⟨behind, hw, heq⟩ := map_eq_ok_iff.1 h
          cases heq
          rw [if_pos hb, word_more hw]
          rfl
      · next hb =>
          rw [if_neg hb]
          exact endsItself_text.map .text (b :: front) x rest h more

theorem unsigned_extends : Extends unsigned unsigned := by
  intro s x c rest h more
  rw [unsigned] at h ⊢
  split at h
  · cases h
  · next b front hdrop =>
      simp only [dropBlanks_more hdrop more]
      split at h
      · next hb =>
          rw [if_pos hb]
          split at h
          · cases h
          · next n behind hnumber =>
              cases h
              have hmore := number_more hnumber more
              rw [List.cons_append] at hmore
              rw [hmore]
          · cases h
          · cases h
      · cases h

theorem FieldType.read_extends (type : FieldType) : Extends type.read type.read := by
  cases type with
  | text => exact (endsItself_text.map FieldValue.text).extends
  | optionalText => exact endsItself_optionalText.extends
  | word => exact unsigned_extends.map FieldValue.word

section

variable (shape : Shape)

theorem Shape.member_extends (key : String) (done : Fields) :
    Extends (shape.member key done) (shape.member key done) := by
  intro s fields b rest h more
  unfold Shape.member at h ⊢
  split at h
  · split at h
    · cases h
    · next front hcolon =>
        obtain ⟨behind, hskip, heq⟩ := map_eq_ok_iff.1 h
        cases heq
        simp only [colonStep_more hcolon more, skipValue_more hskip more]
        rfl
  · next type htype =>
      split at h
      · cases h
      · next hnew =>
          rw [if_neg hnew]
          split at h
          · cases h
          · next front hcolon =>
              simp only [colonStep_more hcolon more]
              exact (type.read_extends.map fun x => (key, x) :: done) front fields b rest h more

theorem Shape.readList_ne_nil {first : Bool} {done all : Fields} {s rest : Bytes}
    {fields : List (String × FieldType)} (h : shape.readList first done fields s = .ok (all, rest)) :
    s ≠ [] := by
  rintro rfl
  cases fields <;> cases h

theorem Shape.endsItself_readList (fields : List (String × FieldType)) (first : Bool)
    (done : Fields) :
    EndsItself (shape.readList first done fields) (shape.readList first done fields) := by
  induction fields generalizing first done with
  | nil =>
      intro s all rest h more
      obtain ⟨behind, hend, heq⟩ := map_eq_ok_iff.1 h
      cases heq
      rw [Shape.readList, endList_more hend more]
      rfl
  | cons field fields ih =>
      intro s all rest h more
      rw [Shape.readList] at h ⊢
      split at h
      · cases h
      · next behind hclosed =>
          simp only [nextElement_more_closed hclosed more]
          split at h <;> cases h
          next hrequired => rw [if_neg hrequired]
      · next text hnext =>
          simp only [nextElement_more_item hnext more]
          split at h
          · cases h
          · next x behind hread =>
              obtain ⟨b, tail, rfl⟩ := List.exists_cons_of_ne_nil (shape.readList_ne_nil h)
              simp only [field.2.read_extends text x b tail hread more]
              exact ih false _ _ all rest h more

theorem Shape.endsItself_read {bound larger : Nat} (hbound : bound ≤ larger) :
    EndsItself (shape.read larger) (shape.read bound) := by
  intro s done rest h more
  rw [Shape.read] at h ⊢
  split at h
  · cases h
  · next b front hdrop =>
      simp only [dropBlanks_more hdrop more]
      split at h
      · next hb =>
          rw [if_pos hb]
          exact shape.endsItself_readList shape.fields true [] front done rest h more
      next hlist =>
      rw [if_neg hlist]
      split at h
      · next hb =>
          rw [if_pos hb]
          split at h
          · cases h
          · next fields behind hmembers =>
              rw [members_endsItself shape.member_extends hbound true [] front fields behind
                hmembers more]
              split at h <;> cases h
              next hmissing => simp only [hmissing]
      · cases h

end

/-! ## Whole texts -/

/-- **The front part of a text is refused**, if more than blanks are missing. -/
theorem exists_error_of_cut {α : Type} {whole front : Bytes → Read α} (hends : EndsItself whole front)
    {kept lost : Bytes} {x : α} (haccepted : document whole (kept ++ lost) = .ok x)
    (hlost : ∃ b ∈ lost, isBlank b = false) : ∃ e, document front kept = .error e := by
  cases hkept : document front kept with
  | error e => exact ⟨e, rfl⟩
  | ok y =>
      obtain ⟨rest, hread, hblank⟩ := document_eq_ok_iff.mp hkept
      obtain ⟨rest', hread', hblank'⟩ := document_eq_ok_iff.mp haccepted
      have hsame := hends kept y rest hread lost
      rw [hread'] at hsame
      cases hsame
      obtain ⟨b, hb, hnot⟩ := hlost
      have hall := List.dropWhile_eq_nil_iff.mp hblank' b (List.mem_append_right rest hb)
      rw [hnot] at hall
      cases hall

/-- A record is refused when its end is missing. -/
theorem Shape.exists_error_of_cut (shape : Shape) {kept lost : Bytes} {fields : Fields}
    (haccepted : shape.parse (kept ++ lost) = .ok fields) (hlost : ∃ b ∈ lost, isBlank b = false) :
    ∃ e, shape.parse kept = .error e := by
  have hlength : kept.length ≤ (kept ++ lost).length := by
    rw [List.length_append]
    omega
  exact Json.exists_error_of_cut (shape.endsItself_read hlength) haccepted hlost

/-- An object is refused when its end is missing. -/
theorem Members.exists_error_of_cut {kept lost : Bytes} {m : Members}
    (haccepted : Members.parse (kept ++ lost) = .ok m) (hlost : ∃ b ∈ lost, isBlank b = false) :
    ∃ e, Members.parse kept = .error e := by
  have hlength : kept.length ≤ (kept ++ lost).length := by
    rw [List.length_append]
    omega
  exact Json.exists_error_of_cut (endsItself_object hlength) haccepted hlost

end LiveDiagram.Json
