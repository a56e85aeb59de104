import LiveDiagram.Proofs.Json.Acceptance
import LiveDiagram.Proofs.Json.Numerals

/-!
# Texts that go on

A reader that stopped before the end of a text has met the byte that stopped it, and takes the same
from every text that begins so.  What ends with a byte of its own, a literal, a word or a bracket, is
taken the same even where nothing stood behind it.  Only a number has no such byte: at the end of a
text it may be the beginning of a longer one.

The lemmas follow the steps of the readers, one for each.

## Main results

* `number_more`: a number, as long as something stands behind it.
* `skipValue_more`: a value that is only passed over, as long as something stands behind it.
-/

namespace LiveDiagram.Json

open LiveDiagram.Ascii

section

variable {s rest : Bytes} {b : UInt8}

/-- What leaves a byte unread had something to read. -/
theorem ne_nil_of_behind (h : (b :: rest).length ≤ s.length) : s ≠ [] := by
  rintro rfl
  exact absurd h (Nat.not_succ_le_zero _)

/-! ## Runs of bytes -/

/-- A run that was ended by a byte ends there in every longer text. -/
theorem dropWhile_more {p : UInt8 → Bool} (h : s.dropWhile p = b :: rest) (more : Bytes) :
    (s ++ more).dropWhile p = b :: (rest ++ more) := by
  rw [List.dropWhile_append, h]
  rfl

theorem takeWhile_more {p : UInt8 → Bool} (h : s.dropWhile p = b :: rest) (more : Bytes) :
    (s ++ more).takeWhile p = s.takeWhile p := by
  induction s with
  | nil => cases h
  | cons c t ih =>
      rw [List.dropWhile_cons] at h
      rw [List.cons_append, List.takeWhile_cons, List.takeWhile_cons]
      split at h
      · next hc => rw [if_pos hc, if_pos hc, ih h]
      · next hc => rw [if_neg hc, if_neg hc]

theorem dropBlanks_more (h : dropBlanks s = b :: rest) (more : Bytes) :
    dropBlanks (s ++ more) = b :: (rest ++ more) :=
  dropWhile_more h more

theorem pastDigits_more (h : pastDigits s = b :: rest) (more : Bytes) :
    pastDigits (s ++ more) = b :: (rest ++ more) :=
  dropWhile_more h more

theorem digitAhead_more (hs : s ≠ []) (more : Bytes) : digitAhead (s ++ more) = digitAhead s := by
  obtain ⟨c, t, rfl⟩ := List.exists_cons_of_ne_nil hs
  rfl

theorem word_more {w : Bytes} (h : word w s = .ok rest) (more : Bytes) :
    word w (s ++ more) = .ok (rest ++ more) := by
  rw [eq_append_of_word h, List.append_assoc, word_append]

/-! ## Literals -/

theorem scan_more {mode : Mode} {done t : Bytes} (h : scan mode done s = .ok (t, rest))
    (more : Bytes) : scan mode done (s ++ more) = .ok (t, rest ++ more) := by
  fun_induction scan mode done s <;> simp_all [scan]

theorem literal_more {t : String} (h : literal s = .ok (t, rest)) (more : Bytes) :
    literal (s ++ more) = .ok (t, rest ++ more) := by
  unfold literal at h
  split at h
  · cases h
  · next raw behind hscan =>
      split at h <;> cases h
      next htext => simp only [literal, scan_more hscan, htext]

end

/-! ## Numbers -/

section

variable {s rest : Bytes} {b : UInt8} {neg down : Bool} {n : Scientific} {x : Number}

theorem takeDigits_more {m t : Nat} (h : (takeDigits m t s).rest ≠ []) (more : Bytes) :
    takeDigits m t (s ++ more) =
      { takeDigits m t s with rest := (takeDigits m t s).rest ++ more } := by
  fun_induction takeDigits m t s <;> simp_all [takeDigits]

theorem exponentDigits_more {m e : Nat} (h : exponentDigits m s = .inr (e, b :: rest))
    (more : Bytes) : exponentDigits m (s ++ more) = .inr (e, b :: (rest ++ more)) := by
  fun_induction exponentDigits m s <;> simp_all [exponentDigits]

theorem exponentDigits_more_left {m : Nat} (h : exponentDigits m s = .inl rest) (more : Bytes) :
    exponentDigits m (s ++ more) = .inl (rest ++ more) := by
  fun_induction exponentDigits m s <;> simp_all [exponentDigits]

theorem inexact_more (h : inexact neg n s = .ok (x, rest)) (more : Bytes) :
    inexact neg n (s ++ more) = .ok (x, rest ++ more) := by
  unfold inexact at h
  split at h <;> cases h
  next hx => simp only [inexact, hx]

theorem exponentValue_more (h : exponentValue neg n down s = .ok (x, b :: rest)) (more : Bytes) :
    exponentValue neg n down (s ++ more) = .ok (x, b :: (rest ++ more)) := by
  cases s with
  | nil => cases h
  | cons c t =>
      rw [List.cons_append, exponentValue]
      rw [exponentValue] at h
      split at h
      · next hc =>
          rw [if_pos hc]
          split at h
          · next e behind hdigits =>
              have hbehind := inexact_more h more
              obtain ⟨d, tail, rfl⟩ :=
                List.exists_cons_of_ne_nil (ne_nil_of_behind (inexact_length h))
              have hmore := exponentDigits_more hdigits more
              rw [List.cons_append] at hmore
              rw [hmore]
              exact hbehind
          · next behind hdigits =>
              have hmore := exponentDigits_more_left hdigits more
              rw [List.cons_append] at hmore
              rw [hmore]
              split at h
              · cases h
              · next hover =>
                  obtain ⟨hx, hpast⟩ := Prod.mk.inj (Except.ok.inj h)
                  simp only [if_neg hover, hx, pastDigits_more hpast more]
      · cases h

theorem exponentPart_more (h : exponentPart neg n s = .ok (x, b :: rest)) (more : Bytes) :
    exponentPart neg n (s ++ more) = .ok (x, b :: (rest ++ more)) := by
  cases s with
  | nil => cases h
  | cons c t =>
      rw [List.cons_append, exponentPart]
      rw [exponentPart] at h
      split at h
      · next hc => rw [if_pos hc, exponentValue_more h]
      · next hc =>
          rw [if_neg hc]
          split at h
          · next hm => rw [if_pos hm, exponentValue_more h]
          · next hm =>
              rw [if_neg hm]
              exact exponentValue_more h more

theorem afterFraction_more (h : afterFraction neg n s = .ok (x, b :: rest)) (more : Bytes) :
    afterFraction neg n (s ++ more) = .ok (x, b :: (rest ++ more)) := by
  cases s with
  | nil => exact absurd rfl (ne_nil_of_behind (afterFraction_length h))
  | cons c t =>
      rw [List.cons_append, afterFraction]
      rw [afterFraction] at h
      split at h
      · next hc => rw [if_pos hc, exponentPart_more h]
      · next hc =>
          rw [if_neg hc]
          exact inexact_more h more

/-- Digits that were followed by something are followed by it in every longer text. -/
theorem pastDigits_takeDigits_more {m t : Nat}
    (h : pastDigits (takeDigits m t s).rest ≠ []) (more : Bytes) :
    takeDigits m t (s ++ more) =
        { takeDigits m t s with rest := (takeDigits m t s).rest ++ more } ∧
      pastDigits ((takeDigits m t s).rest ++ more) =
        pastDigits (takeDigits m t s).rest ++ more ∧
      ((takeDigits m t s).rest ++ more).takeWhile isDigit =
        (takeDigits m t s).rest.takeWhile isDigit := by
  obtain ⟨c, tail, hpast⟩ := List.exists_cons_of_ne_nil h
  have hne : (takeDigits m t s).rest ≠ [] := by
    intro hnil
    rw [hnil] at hpast
    cases hpast
  refine ⟨takeDigits_more hne more, ?_, takeWhile_more hpast more⟩
  rw [hpast, pastDigits_more hpast]
  rfl

theorem fractionPart_more (h : fractionPart neg n s = .ok (x, b :: rest)) (more : Bytes) :
    fractionPart neg n (s ++ more) = .ok (x, b :: (rest ++ more)) := by
  cases s with
  | nil => cases h
  | cons c t =>
      rw [List.cons_append, fractionPart]
      rw [fractionPart] at h
      split at h
      · next hc =>
          rw [if_pos hc]
          have hpast := ne_nil_of_behind (afterFraction_length h)
          obtain ⟨htaken, hbehind, -⟩ := pastDigits_takeDigits_more hpast more
          rw [List.cons_append] at htaken
          simp only [htaken, hbehind]
          exact afterFraction_more h more
      · cases h

theorem afterInteger_more {m d : Nat} (h : afterInteger neg m d s = .ok (x, b :: rest))
    (more : Bytes) : afterInteger neg m d (s ++ more) = .ok (x, b :: (rest ++ more)) := by
  cases s with
  | nil => exact absurd rfl (ne_nil_of_behind (afterInteger_length h))
  | cons c t =>
      rw [List.cons_append, afterInteger]
      rw [afterInteger] at h
      split at h
      · next hc => rw [if_pos hc, fractionPart_more h]
      · next hc =>
          rw [if_neg hc]
          split at h
          · next he => rw [if_pos he, exponentPart_more h]
          · next he =>
              rw [if_neg he]
              split at h
              · next hd =>
                  cases h
                  rw [if_pos hd]
              · next hd =>
                  rw [if_neg hd]
                  exact inexact_more h more

theorem magnitude_more (h : magnitude neg s = .ok (x, b :: rest)) (more : Bytes) :
    magnitude neg (s ++ more) = .ok (x, b :: (rest ++ more)) := by
  cases s with
  | nil => cases h
  | cons c t =>
      rw [List.cons_append, magnitude]
      rw [magnitude] at h
      split at h
      · next hc =>
          rw [if_pos hc]
          split at h
          · cases h
          · next hdigit =>
              rw [digitAhead_more (ne_nil_of_behind (afterInteger_length h)), if_neg hdigit]
              exact afterInteger_more h more
      · next hc =>
          rw [if_neg hc]
          split at h
          · next hdigit =>
              rw [if_pos hdigit]
              have hpast := ne_nil_of_behind (afterInteger_length h)
              obtain ⟨htaken, hbehind, hdropped⟩ := pastDigits_takeDigits_more hpast more
              simp only [htaken, hbehind, hdropped]
              exact afterInteger_more h more
          · cases h

theorem number_more (h : number s = .ok (x, b :: rest)) (more : Bytes) :
    number (s ++ more) = .ok (x, b :: (rest ++ more)) := by
  cases s with
  | nil => cases h
  | cons c t =>
      rw [List.cons_append, number]
      rw [number] at h
      split at h
      · next hc => rw [if_pos hc, magnitude_more h]
      · next hc =>
          rw [if_neg hc]
          exact magnitude_more h more

end

/-! ## Commas, colons and brackets -/

section

variable {s rest front : Bytes} {c : UInt8} {first : Bool}

theorem Onward.more (h : Onward first s (c :: front)) (more : Bytes) :
    Onward first (s ++ more) (c :: (front ++ more)) := by
  generalize htext : c :: front = text at h
  cases h with
  | first =>
      rw [← dropBlanks_more htext.symm more]
      exact .first
  | next hcomma =>
      rw [← dropBlanks_more htext.symm more]
      exact .next (dropBlanks_more hcomma more)

theorem nextElement_more_closed (h : nextElement first s = .ok (.closed rest)) (more : Bytes) :
    nextElement first (s ++ more) = .ok (.closed (rest ++ more)) := by
  rw [nextElement_eq_closed_iff] at h ⊢
  exact dropBlanks_more h more

theorem nextElement_more_item (h : nextElement first s = .ok (.item rest)) (more : Bytes) :
    nextElement first (s ++ more) = .ok (.item (rest ++ more)) := by
  rw [nextElement_eq_item_iff] at h ⊢
  obtain ⟨honward, b, behind, rfl, hb⟩ := h
  exact ⟨honward.more more, b, behind ++ more, rfl, hb⟩

theorem nextKey_more_closed (h : nextKey first s = .ok (.closed rest)) (more : Bytes) :
    nextKey first (s ++ more) = .ok (.closed (rest ++ more)) := by
  rw [nextKey_eq_closed_iff] at h ⊢
  exact dropBlanks_more h more

theorem nextKey_more_item (h : nextKey first s = .ok (.item rest)) (more : Bytes) :
    nextKey first (s ++ more) = .ok (.item (rest ++ more)) := by
  rw [nextKey_eq_item_iff] at h ⊢
  exact h.more more

theorem endList_more (h : endList s = .ok rest) (more : Bytes) :
    endList (s ++ more) = .ok (rest ++ more) := by
  rw [endList_eq_ok_iff] at h ⊢
  exact dropBlanks_more h more

theorem colonStep_eq_ok_iff : colonStep s = .ok rest ↔ dropBlanks s = colon :: rest := by
  constructor
  · intro h
    unfold colonStep at h
    split at h
    · cases h
    · next b behind hdrop =>
        split at h <;> cases h
        next hb => rw [hdrop, hb]
  · intro h
    simp only [colonStep, h, if_true]

theorem colonStep_more (h : colonStep s = .ok rest) (more : Bytes) :
    colonStep (s ++ more) = .ok (rest ++ more) := by
  rw [colonStep_eq_ok_iff] at h ⊢
  exact dropBlanks_more h more

end

/-! ## Skipped values -/

section

variable {s rest : Bytes} {b : UInt8}

theorem skipLiteral_more {mode : Mode} (h : skipLiteral mode s = .ok rest) (more : Bytes) :
    skipLiteral mode (s ++ more) = .ok (rest ++ more) := by
  fun_induction skipLiteral mode s <;> simp_all [skipLiteral]

theorem skipExponentValue_more (h : skipExponentValue s = .ok (b :: rest)) (more : Bytes) :
    skipExponentValue (s ++ more) = .ok (b :: (rest ++ more)) := by
  cases s with
  | nil => cases h
  | cons c t =>
      rw [List.cons_append, skipExponentValue]
      rw [skipExponentValue] at h
      split at h
      · next hc => rw [if_pos hc, pastDigits_more (Except.ok.inj h)]
      · cases h

theorem skipExponent_more (h : skipExponent s = .ok (b :: rest)) (more : Bytes) :
    skipExponent (s ++ more) = .ok (b :: (rest ++ more)) := by
  cases s with
  | nil => cases h
  | cons c t =>
      rw [List.cons_append, skipExponent]
      rw [skipExponent] at h
      split at h
      · next hc => rw [if_pos hc, skipExponentValue_more h]
      · next hc =>
          rw [if_neg hc]
          exact skipExponentValue_more h more

theorem skipAfterFraction_more (h : skipAfterFraction s = .ok (b :: rest)) (more : Bytes) :
    skipAfterFraction (s ++ more) = .ok (b :: (rest ++ more)) := by
  cases s with
  | nil => cases h
  | cons c t =>
      rw [List.cons_append, skipAfterFraction]
      rw [skipAfterFraction] at h
      split at h
      · next hc => rw [if_pos hc, skipExponent_more h]
      · next hc =>
          cases h
          rw [if_neg hc]

theorem skipFraction_more (h : skipFraction s = .ok (b :: rest)) (more : Bytes) :
    skipFraction (s ++ more) = .ok (b :: (rest ++ more)) := by
  rw [skipFraction, digitAhead_more (ne_nil_of_behind (skipFraction_length h))]
  rw [skipFraction] at h
  split at h
  · next hdigit =>
      obtain ⟨c, tail, hpast⟩ :=
        List.exists_cons_of_ne_nil (ne_nil_of_behind (skipAfterFraction_length h))
      rw [if_pos hdigit, pastDigits_more hpast more]
      rw [hpast] at h
      exact skipAfterFraction_more h more
  · cases h

theorem skipAfterInteger_more (h : skipAfterInteger s = .ok (b :: rest)) (more : Bytes) :
    skipAfterInteger (s ++ more) = .ok (b :: (rest ++ more)) := by
  cases s with
  | nil => cases h
  | cons c t =>
      rw [List.cons_append, skipAfterInteger]
      rw [skipAfterInteger] at h
      split at h
      · next hc => rw [if_pos hc, skipFraction_more h]
      · next hc =>
          rw [if_neg hc]
          exact skipAfterFraction_more h more

theorem skipMagnitude_more (h : skipMagnitude s = .ok (b :: rest)) (more : Bytes) :
    skipMagnitude (s ++ more) = .ok (b :: (rest ++ more)) := by
  cases s with
  | nil => cases h
  | cons c t =>
      rw [List.cons_append, skipMagnitude]
      rw [skipMagnitude] at h
      split at h
      · next hc =>
          rw [if_pos hc]
          split at h
          · cases h
          · next hdigit =>
              rw [digitAhead_more (ne_nil_of_behind (skipAfterInteger_length h)), if_neg hdigit]
              exact skipAfterInteger_more h more
      · next hc =>
          rw [if_neg hc]
          split at h
          · next hdigit =>
              obtain ⟨d, tail, hpast⟩ :=
                List.exists_cons_of_ne_nil (ne_nil_of_behind (skipAfterInteger_length h))
              rw [if_pos hdigit, pastDigits_more hpast more]
              rw [hpast] at h
              exact skipAfterInteger_more h more
          · cases h

theorem enterItem_more {bracket : Bracket} (h : enterItem bracket s = .ok rest) (more : Bytes) :
    enterItem bracket (s ++ more) = .ok (rest ++ more) := by
  cases bracket with
  | list =>
      cases h
      rfl
  | object =>
      simp only [enterItem] at h ⊢
      split at h
      · cases h
      · next c front hdrop =>
          rw [dropBlanks_more hdrop]
          split at h
          · next hc =>
              split at h
              · cases h
              · next behind hkey =>
                  simp only [if_pos hc, skipLiteral_more hkey more, colonStep_more h more]
          · cases h

theorem settle_more {mayContinue : Bool} {stack stack' : List Bracket}
    (h : settle mayContinue stack s = .ok (stack', rest)) (more : Bytes) :
    settle mayContinue stack (s ++ more) = .ok (stack', rest ++ more) := by
  induction stack generalizing mayContinue s with
  | nil =>
      cases h
      rfl
  | cons bracket outer ih =>
      simp only [settle] at h ⊢
      split at h
      · cases h
      · next c front hdrop =>
          simp only [dropBlanks_more hdrop more]
          split at h
          · next hc =>
              rw [if_pos hc]
              exact ih h
          · next hc =>
              rw [if_neg hc]
              split at h
              · next hmay =>
                  obtain ⟨r, hr, heq⟩ := map_eq_ok_iff.1 h
                  cases heq
                  have hmore := enterItem_more hr more
                  rw [List.cons_append] at hmore
                  rw [if_pos hmay, hmore]
                  rfl
              · next hmay =>
                  rw [if_neg hmay]
                  split at h
                  · next hcomma =>
                      obtain ⟨r, hr, heq⟩ := map_eq_ok_iff.1 h
                      cases heq
                      rw [if_pos hcomma, enterItem_more hr more]
                      rfl
                  · cases h

/-- A scalar is passed over in the longer text as in the shorter one. -/
theorem skipped_more {opened : Option Bracket} {before after : Except Fault Bytes} {more : Bytes}
    (h : (before.map fun r => (none, r)) = .ok (opened, b :: rest))
    (hmore : before = .ok (b :: rest) → after = .ok (b :: (rest ++ more))) :
    (after.map fun r => (none, r)) = .ok (opened, b :: (rest ++ more)) := by
  obtain ⟨r, hr, heq⟩ := map_eq_ok_iff.1 h
  cases heq
  rw [hmore hr]
  rfl

theorem skipStart_more {opened : Option Bracket} (h : skipStart s = .ok (opened, b :: rest))
    (more : Bytes) : skipStart (s ++ more) = .ok (opened, b :: (rest ++ more)) := by
  unfold skipStart at h ⊢
  split at h
  · cases h
  next c front hdrop =>
  simp only [dropBlanks_more hdrop more]
  split at h
  · next hc =>
      cases h
      rw [if_pos hc]
      rfl
  next hlist =>
  rw [if_neg hlist]
  split at h
  · next hc =>
      cases h
      rw [if_pos hc]
      rfl
  next hobject =>
  rw [if_neg hobject]
  split at h
  · next hc =>
      rw [if_pos hc]
      exact skipped_more h fun hr => skipLiteral_more hr more
  next hquote =>
  rw [if_neg hquote]
  split at h
  · next hc =>
      rw [if_pos hc]
      exact skipped_more h fun hr => skipMagnitude_more hr more
  next hminus =>
  rw [if_neg hminus]
  split at h
  · next hc =>
      rw [if_pos hc]
      exact skipped_more h fun hr => skipMagnitude_more hr more
  next hdigit =>
  rw [if_neg hdigit]
  split at h
  · next hc =>
      rw [if_pos hc]
      exact skipped_more h fun hr => word_more hr more
  next hnull =>
  rw [if_neg hnull]
  split at h
  · next hc =>
      rw [if_pos hc]
      exact skipped_more h fun hr => word_more hr more
  next htrue =>
  rw [if_neg htrue]
  split at h
  · next hc =>
      rw [if_pos hc]
      exact skipped_more h fun hr => word_more hr more
  · cases h

/-- The turn of the loop that closes the last bracket. -/
theorem skipFrom_of_closed {stack : List Bracket} {opened : Option Bracket} {front : Bytes}
    (hstart : skipStart s = .ok (opened, front))
    (hsettle : settle opened.isNone (opened.toList ++ stack) front = .ok ([], rest)) :
    skipFrom stack s = .ok rest := by
  fun_cases skipFrom stack s <;> grind

/-- A turn of the loop that comes to one more value. -/
theorem skipFrom_of_open {stack outer : List Bracket} {bracket : Bracket}
    {opened : Option Bracket} {front behind : Bytes}
    (hstart : skipStart s = .ok (opened, front))
    (hsettle : settle opened.isNone (opened.toList ++ stack) front =
      .ok (bracket :: outer, behind)) :
    skipFrom stack s = skipFrom (bracket :: outer) behind := by
  fun_cases skipFrom stack s <;> grind

theorem skipFrom_more {stack : List Bracket} (h : skipFrom stack s = .ok (b :: rest))
    (more : Bytes) : skipFrom stack (s ++ more) = .ok (b :: (rest ++ more)) := by
  fun_induction skipFrom stack s with
  | case1 => cases h
  | case2 => cases h
  | case3 stack s opened front hstart behind hsettle =>
      cases h
      obtain ⟨c, tail, rfl⟩ :=
        List.exists_cons_of_ne_nil (ne_nil_of_behind (settle_length hsettle))
      exact skipFrom_of_closed (skipStart_more hstart more) (settle_more hsettle more)
  | case4 stack s opened front hstart bracket outer behind hsettle ih =>
      have hlength := skipFrom_length h
      have hfront := settle_length hsettle
      obtain ⟨c, tail, rfl⟩ := List.exists_cons_of_length_pos (l := front) (by omega)
      rw [skipFrom_of_open (skipStart_more hstart more) (settle_more hsettle more)]
      exact ih h

theorem skipValue_more (h : skipValue s = .ok (b :: rest)) (more : Bytes) :
    skipValue (s ++ more) = .ok (b :: (rest ++ more)) :=
  skipFrom_more h more

end

end LiveDiagram.Json
