import LiveDiagram.Proofs.Json.Continuation
import LiveDiagram.Proofs.Json.Numerals

/-!
# What is read can be passed over

A member that a record does not know is not read but passed over, by a loop that keeps the open
brackets in a list and checks less than the reader does.  Both stop at the same place: whatever is
read as a value is passed over, and the same bytes stand behind it.

The reader goes into a bracket and comes back; the loop never comes back, it goes on with one bracket
less in its list.  So the statement is about the loop under any brackets that are still open: passing
over a value is going on from behind it (`resume`).

## Main results

* `resume_of_enclosed`: the loop passes over the items of a bracket one by one, up to behind it.
* `skipFrom_of_value`, `skipValue_of_value`: it passes over whatever is read.
-/

namespace LiveDiagram.Json

open LiveDiagram.Ascii

/-! ## Numbers -/

section

variable {negative down : Bool} {n : Scientific} {x : Number} {s rest : Bytes}

theorem pastDigits_takeDigits (m count : Nat) (s : Bytes) :
    pastDigits (takeDigits m count s).rest = pastDigits s := by
  fun_induction takeDigits m count s with
  | case1 => rfl
  | case2 m count b rest hdigit ih =>
      rw [ih, pastDigits, pastDigits, List.dropWhile_cons_of_pos hdigit.1]
  | case3 => rfl

theorem eq_of_inexact (h : inexact negative n s = .ok (x, rest)) : rest = s := by
  unfold inexact at h
  split at h <;> cases h
  rfl

theorem exponentDigits_eq_inr {e m : Nat} (h : exponentDigits m s = .inr (e, rest)) :
    rest = pastDigits s := by
  fun_induction exponentDigits m s with
  | case1 =>
      cases h
      rfl
  | case2 m b behind hdigit hfits ih => rw [ih h, pastDigits, pastDigits, List.dropWhile_cons_of_pos hdigit]
  | case3 => cases h
  | case4 m b behind hdigit =>
      cases h
      rw [pastDigits, List.dropWhile_cons_of_neg hdigit]

theorem exponentDigits_eq_inl {m : Nat} (h : exponentDigits m s = .inl rest) :
    pastDigits rest = pastDigits s := by
  fun_induction exponentDigits m s with
  | case1 => cases h
  | case2 m b behind hdigit hfits ih => rw [ih h, pastDigits, pastDigits, List.dropWhile_cons_of_pos hdigit]
  | case3 m b behind hdigit hfits =>
      cases h
      rw [pastDigits, pastDigits, List.dropWhile_cons_of_pos hdigit]
  | case4 => cases h

theorem skipExponentValue_of_read (h : exponentValue negative n down s = .ok (x, rest)) :
    skipExponentValue s = .ok rest := by
  unfold exponentValue at h
  split at h
  · cases h
  · next b behind =>
      split at h
      · next hdigit =>
          have hpast : pastDigits (b :: behind) = pastDigits behind :=
            List.dropWhile_cons_of_pos hdigit
          rw [skipExponentValue, if_pos hdigit, ← hpast]
          split at h
          · next e front hdigits =>
              rw [eq_of_inexact h, exponentDigits_eq_inr hdigits]
          · next front hdigits =>
              split at h <;> cases h
              rw [exponentDigits_eq_inl hdigits]
      · cases h

theorem skipExponent_of_read (h : exponentPart negative n s = .ok (x, rest)) :
    skipExponent s = .ok rest := by
  unfold exponentPart at h
  split at h
  · exact skipExponentValue_of_read h
  · next b behind =>
      rw [skipExponent]
      split at h
      · next hplus =>
          rw [if_pos (Or.inl hplus)]
          exact skipExponentValue_of_read h
      · next hplus =>
          split at h
          · next hminus =>
              rw [if_pos (Or.inr hminus)]
              exact skipExponentValue_of_read h
          · next hminus =>
              rw [if_neg (not_or.mpr ⟨hplus, hminus⟩)]
              exact skipExponentValue_of_read h

theorem skipAfterFraction_of_read (h : afterFraction negative n s = .ok (x, rest)) :
    skipAfterFraction s = .ok rest := by
  unfold afterFraction at h
  split at h
  · rw [eq_of_inexact h]
    rfl
  · rw [skipAfterFraction]
    split at h
    · next hmark =>
        rw [if_pos hmark]
        exact skipExponent_of_read h
    · next hmark => rw [if_neg hmark, eq_of_inexact h]

theorem skipFraction_of_read (h : fractionPart negative n s = .ok (x, rest)) :
    skipFraction s = .ok rest := by
  unfold fractionPart at h
  split at h
  · cases h
  · next b behind =>
      split at h
      · next hdigit =>
          dsimp only at h
          rw [pastDigits_takeDigits] at h
          rw [skipFraction, digitAhead, if_pos hdigit]
          exact skipAfterFraction_of_read h
      · cases h

theorem skipAfterInteger_of_read {m dropped : Nat}
    (h : afterInteger negative m dropped s = .ok (x, rest)) : skipAfterInteger s = .ok rest := by
  unfold afterInteger at h
  split at h
  · split at h
    · cases h
      rfl
    · rw [eq_of_inexact h]
      rfl
  · rw [skipAfterInteger]
    split at h
    · next hpoint =>
        rw [if_pos hpoint]
        exact skipFraction_of_read h
    next hpoint =>
    rw [if_neg hpoint, skipAfterFraction]
    split at h
    · next hmark =>
        rw [if_pos hmark]
        exact skipExponent_of_read h
    next hmark =>
    rw [if_neg hmark]
    split at h
    · cases h
      rfl
    · rw [eq_of_inexact h]

theorem skipMagnitude_of_read (h : magnitude negative s = .ok (x, rest)) :
    skipMagnitude s = .ok rest := by
  unfold magnitude at h
  split at h
  · cases h
  · rw [skipMagnitude]
    split at h
    · next hzero =>
        rw [if_pos hzero]
        split at h
        · cases h
        · next hahead =>
            rw [if_neg hahead]
            exact skipAfterInteger_of_read h
    next hzero =>
    rw [if_neg hzero]
    split at h
    · next hdigit =>
        dsimp only at h
        rw [pastDigits_takeDigits] at h
        rw [if_pos hdigit]
        exact skipAfterInteger_of_read h
    · cases h

end

/-! ## Texts -/

theorem skipLiteral_code {a b c d : UInt8} {n : Nat} (hunit : hexNumber? [d, c, b, a] = some n)
    (s : Bytes) :
    skipLiteral .plain (backslash :: 'u'.toUInt8 :: a :: b :: c :: d :: s) =
      skipLiteral .plain s := by
  simp only [skipLiteral, show backslash ≠ quote by decide, if_false, if_true, List.length_cons,
    List.length_nil, Nat.reduceAdd, Nat.reduceLT, hunit, Option.isSome_some]

/-- What is spelled between the quotes is passed over.  A pair is two code units like any other. -/
theorem skipLiteral_of_unescapes {s t rest : Bytes} (h : Unescapes s t rest) :
    skipLiteral .plain s = .ok rest := by
  induction h with
  | close => simp [skipLiteral]
  | plain hquote hbackslash hspace h ih =>
      simp only [skipLiteral, hquote, hbackslash, hspace, if_false, ih]
  | @short b c s t rest hshort h ih =>
      have hu : b ≠ 'u'.toUInt8 := by
        rintro rfl
        cases hshort
      simp only [skipLiteral, show backslash ≠ quote by decide, hu, hshort, if_false, if_true,
        Option.isSome_some, ih]
  | code hunit hleading htrailing h ih => rw [skipLiteral_code hunit, ih]
  | pair hhigh hleading hlow htrailing h ih =>
      rw [skipLiteral_code hhigh, skipLiteral_code hlow, ih]

/-! ## Values without brackets -/

theorem skipStart_of_scalar {s front rest : Bytes} {b : UInt8} {v : Value}
    (hfront : dropBlanks s = b :: front) (hbracket : b ≠ openBracket) (hbrace : b ≠ openBrace)
    (h : scalar b front = .ok (v, rest)) : skipStart s = .ok (none, rest) := by
  have hspelling : Spelling 0 b front v rest := .of_scalar h
  simp only [skipStart, hfront, if_neg hbracket, if_neg hbrace]
  cases hspelling with
  | string hliteral =>
      rw [if_pos rfl, skipLiteral_of_unescapes (unescapes_of_literal hliteral)]
      rfl
  | number hb hnumber =>
      rw [if_neg (ne_of_startsNumber hb).1]
      by_cases hminus : b = minus
      · rw [number, if_pos hminus] at hnumber
        rw [if_pos hminus, skipMagnitude_of_read hnumber]
        rfl
      · rw [number, if_neg hminus] at hnumber
        rw [if_neg hminus, if_pos (hb.resolve_left hminus), skipMagnitude_of_read hnumber]
        rfl
  | null hword =>
      rw [if_neg (by decide), if_neg (by decide), if_neg (by decide), if_pos rfl, hword]
      rfl
  | true hword =>
      rw [if_neg (by decide), if_neg (by decide), if_neg (by decide), if_neg (by decide),
        if_pos rfl, hword]
      rfl
  | false hword =>
      rw [if_neg (by decide), if_neg (by decide), if_neg (by decide), if_neg (by decide),
        if_neg (by decide), if_pos rfl, hword]
      rfl
  | array => exact absurd rfl hbracket
  | object => exact absurd rfl hbrace

/-! ## Brackets -/

/-- Goes on passing over, from behind an item or from behind an opening bracket. -/
def resume (mayContinue : Bool) (stack : List Bracket) (s : Bytes) : Except Fault Bytes :=
  match settle mayContinue stack s with
  | .error f => .error f
  | .ok ([], rest) => .ok rest
  | .ok (bracket :: outer, rest) => skipFrom (bracket :: outer) rest

theorem skipFrom_eq_resume {stack : List Bracket} {opened : Option Bracket} {s front : Bytes}
    (hstart : skipStart s = .ok (opened, front)) :
    skipFrom stack s = resume opened.isNone (opened.toList ++ stack) front := by
  rw [resume]
  fun_cases skipFrom stack s <;> grind

theorem resume_of_settle {mayContinue : Bool} {bracket : Bracket} {outer stack : List Bracket}
    {s text : Bytes} (h : settle mayContinue stack s = .ok (bracket :: outer, text)) :
    resume mayContinue stack s = skipFrom (bracket :: outer) text := by
  rw [resume, h]

/-- An item that the loop passes over: it does not begin with the closing byte, and from wherever the
item begins behind blanks, the loop comes to what stands behind it. -/
def Passes {α : Type} (bracket : Bracket) (spells : Bytes → α → Bytes → Prop) : Prop :=
  ∀ front x behind, spells front x behind →
    (∃ b t, front = b :: t ∧ b ≠ bracket.close) ∧
      ∀ s stack, dropBlanks s = front →
        ∃ text, enterItem bracket s = .ok text ∧
          skipFrom (bracket :: stack) text = resume true (bracket :: stack) behind

/-- **The items of a bracket are passed over** one by one, and then the bracket itself. -/
theorem resume_of_enclosed {α : Type} {bracket : Bracket} {spells : Bytes → α → Bytes → Prop}
    (hitem : Passes bracket spells) {first : Bool} {s rest : Bytes} {xs : List α}
    (h : Enclosed bracket.close spells first s xs rest) (stack : List Bracket) :
    resume (!first) (bracket :: stack) s = resume true stack rest := by
  induction h with
  | close hclose => simp only [resume, settle, hclose, if_true]
  | @item first s front behind rest x xs hfront hx hrest ih =>
      obtain ⟨⟨b, t, hb, hclose⟩, henter⟩ := hitem _ _ _ hx
      rw [← ih]
      cases hfront with
      | first =>
          obtain ⟨text, htext, hskip⟩ := henter (b :: t) stack ((dropBlanks_of_front hb).trans hb.symm)
          have hsettle : settle (!true) (bracket :: stack) s = .ok (bracket :: stack, text) := by
            simp only [settle, hb, if_neg hclose, Bool.not_true, Bool.false_eq_true, not_false_eq_true,
              if_true, htext]
            rfl
          exact (resume_of_settle hsettle).trans hskip
      | @next s f hcomma =>
          obtain ⟨text, htext, hskip⟩ := henter f stack rfl
          have hother : comma ≠ bracket.close := by cases bracket <;> decide
          have hsettle : settle (!false) (bracket :: stack) s = .ok (bracket :: stack, text) := by
            simp only [settle, hcomma, if_neg hother, Bool.not_false, not_true_eq_false, if_false,
              if_true, htext]
            rfl
          exact (resume_of_settle hsettle).trans hskip

/-! ## Values -/

/-- Blanks in front of a value do not matter. -/
theorem value_dropBlanks (bound depth : Nat) (s : Bytes) :
    value bound depth (dropBlanks s) = value bound depth s := by
  have htwice : dropBlanks (dropBlanks s) = dropBlanks s := by
    cases hs : dropBlanks s with
    | nil => rfl
    | cons b front => exact dropBlanks_of_front hs
  rw [value, value, htwice]

/-- What is read as a value at this place. -/
def Reads (bound depth : Nat) (s : Bytes) (v : Value) (rest : Bytes) : Prop :=
  value bound depth s = .ok (v, rest)

theorem yields_reads (bound depth : Nat) :
    Yields (fun _ => True) (value bound depth) (Reads bound depth) :=
  fun s _ _ h _ => ⟨(value_dropBlanks bound depth s).trans h, trivial⟩

/-- A value begins, behind blanks, with no closing bracket. -/
theorem Reads.exists_front {bound depth : Nat} {s rest : Bytes} {v : Value}
    (h : Reads bound depth s v rest) : ∃ b front, s = b :: front ∧ b ≠ closeBracket := by
  obtain ⟨b, front, hfront, hspelling⟩ := exists_spelling h
  cases s with
  | nil => cases hfront
  | cons c t =>
      refine ⟨c, t, rfl, ?_⟩
      rintro rfl
      rw [dropBlanks_cons (by decide)] at hfront
      obtain ⟨rfl, rfl⟩ := List.cons.inj hfront
      cases hspelling with
      | number hb hnumber => exact absurd hb (by decide)

theorem passes_list {bound depth : Nat}
    (hvalue : ∀ s v rest, Reads bound depth s v rest →
      ∀ stack, skipFrom stack s = resume true stack rest) :
    Passes .list (Reads bound depth) := by
  intro front v behind hv
  refine ⟨hv.exists_front, fun s stack hs => ⟨s, rfl, ?_⟩⟩
  refine hvalue s v behind ?_ _
  rw [Reads, ← value_dropBlanks, hs]
  exact hv

theorem passes_object {bound depth : Nat}
    (hvalue : ∀ s v rest, Reads bound depth s v rest →
      ∀ stack, skipFrom stack s = resume true stack rest) :
    Passes .object (Entry (Reads bound depth)) := by
  intro front x behind hx
  cases hx with
  | @mk key middle text _ name v hkey hcolon hv =>
      refine ⟨⟨quote, key, rfl, by decide⟩, fun s stack hs => ⟨text, ?_, ?_⟩⟩
      · simp only [enterItem, hs, if_true, skipLiteral_of_unescapes hkey]
        exact colonStep_eq_ok_iff.mpr hcolon
      · refine hvalue text v behind ?_ _
        rw [Reads, ← value_dropBlanks]
        exact hv

/-- **Whatever is read is passed over**, under any brackets that are open. -/
theorem skipFrom_of_value {bound depth : Nat} {s rest : Bytes} {v : Value}
    (h : Reads bound depth s v rest) (stack : List Bracket) :
    skipFrom stack s = resume true stack rest := by
  -- At every depth a value without brackets is one turn of the loop.
  have hscalar : ∀ {b : UInt8} {front : Bytes}, dropBlanks s = b :: front → b ≠ openBracket →
      b ≠ openBrace → scalar b front = .ok (v, rest) → skipFrom stack s = resume true stack rest :=
    fun hfront hbracket hbrace hread =>
      skipFrom_eq_resume (skipStart_of_scalar hfront hbracket hbrace hread)
  induction depth generalizing s v rest stack with
  | zero =>
      unfold Reads value at h
      split at h
      · cases h
      · next b front hfront =>
          split at h
          · cases h
          next hbracket =>
          split at h
          · cases h
          next hbrace => exact hscalar hfront hbracket hbrace h
  | succ depth ih =>
      have hvalue : ∀ s v rest, Reads bound depth s v rest →
          ∀ stack, skipFrom stack s = resume true stack rest :=
        fun s v rest hread stack => ih hread stack fun hfront hbracket hbrace hread =>
          skipFrom_eq_resume (skipStart_of_scalar hfront hbracket hbrace hread)
      unfold Reads value at h
      split at h
      · cases h
      · next b front hfront =>
          split at h
          · next hb =>
              subst hb
              obtain ⟨⟨vs, behind⟩, hread, heq⟩ := map_eq_ok_iff.mp h
              cases heq
              obtain ⟨xs, -, hxs, -⟩ :=
                enclosed_of_elements carried_true (yields_reads bound depth) hread trivial
              have hstart : skipStart s = .ok (some .list, front) := by
                simp only [skipStart, hfront, if_true]
              rw [skipFrom_eq_resume hstart]
              exact resume_of_enclosed (passes_list hvalue) hxs stack
          next hbracket =>
          split at h
          · next hb =>
              subst hb
              obtain ⟨⟨m, behind⟩, hread, heq⟩ := map_eq_ok_iff.mp h
              cases heq
              obtain ⟨entries, -, hentries, -⟩ :=
                enclosed_of_members carried_true (yields_reads bound depth) hread trivial
              have hstart : skipStart s = .ok (some .object, front) := by
                simp only [skipStart, hfront, if_neg hbracket, if_true]
              rw [skipFrom_eq_resume hstart]
              exact resume_of_enclosed (passes_object hvalue) hentries stack
          next hbrace => exact hscalar hfront hbracket hbrace h

/-- A value that is read is passed over, to the same place behind it. -/
theorem skipValue_of_value {bound depth : Nat} {s rest : Bytes} {v : Value}
    (h : Reads bound depth s v rest) : skipValue s = .ok rest :=
  skipFrom_of_value h []

end LiveDiagram.Json
