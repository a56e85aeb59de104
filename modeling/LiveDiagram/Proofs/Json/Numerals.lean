import LiveDiagram.Proofs.Json.Acceptance

/-!
# Texts whose numbers are whole

The reader and the grammar agree on which numerals are whole numbers, so on texts that hold no other
numbers they agree on everything: what is read is what is spelled.  Which numerals a text holds is
seen without reading it, by telling what stands inside string literals from what does not
(`numerals`).

## Main results

* `unescapes_of_literal`: a literal that is read is spelled.
* `spells_of_value`: so is a value, where numbers are whole.
* `parse_eq_ok_iff_denotes`: a text whose numbers are whole is read as an object exactly if it denotes it.
-/

namespace LiveDiagram.Json

open LiveDiagram.Ascii

/-! ## Whole numbers -/

/-- A whole number in the 64-bit ranges, without a sign before zero. -/
def WholeNumeral (w : Bytes) (n : Number) : Prop :=
  ∃ i : Int, -0x8000000000000000 ≤ i ∧ i < UInt64.size ∧ w = Decimal.signedNumeral i ∧
    n = .integer i

/-- Numbers are whole, and members may stand in any order. -/
def Style.whole : Style := ⟨WholeNumeral, fun _ => True⟩

theorem WholeNumeral.readable {w : Bytes} {n : Number} (h : WholeNumeral w n) {rest : Bytes}
    (hrest : endsNumeral rest = true) : number (w ++ rest) = .ok (n, rest) := by
  obtain ⟨i, hlow, hhigh, rfl, rfl⟩ := h
  exact number_signedNumeral hlow hhigh hrest

theorem Style.readable_whole : Style.whole.Readable :=
  fun _ _ _ hw hrest => WholeNumeral.readable hw hrest

/-! ## The numerals of a text -/

/-- Where in a text one is. -/
inductive Place where
  | between
  | literal
  /-- Behind a backslash. -/
  | escape
  /-- Inside a numeral; what has been seen of it, last first. -/
  | numeral (seen : Bytes)

/-- A byte that goes on with a numeral. -/
def continuesNumeral (b : UInt8) : Bool :=
  isDigit b || b == point || isExponentMark b || b == plus || b == minus

/-- The numerals from some place in a text on. -/
def numeralsFrom : Place → Bytes → List Bytes
  | .numeral seen, [] => [seen.reverse]
  | _, [] => []
  | .between, b :: rest =>
    if b = quote then numeralsFrom .literal rest
    else if b = minus ∨ isDigit b then numeralsFrom (.numeral [b]) rest
    else numeralsFrom .between rest
  | .literal, b :: rest =>
    if b = quote then numeralsFrom .between rest
    else if b = backslash then numeralsFrom .escape rest
    else numeralsFrom .literal rest
  | .escape, _ :: rest => numeralsFrom .literal rest
  | .numeral seen, b :: rest =>
    if continuesNumeral b then numeralsFrom (.numeral (b :: seen)) rest
    else seen.reverse ::
      if b = quote then numeralsFrom .literal rest else numeralsFrom .between rest

/-- The numerals of a text. -/
def numerals (s : Bytes) : List Bytes :=
  numeralsFrom .between s

/-- Every number in this text is written as a whole number in the 64-bit ranges. -/
def HasWholeNumbers (s : Bytes) : Prop :=
  ∀ w ∈ numerals s, ∃ n, WholeNumeral w n

/-- A byte that begins neither a literal nor a numeral is passed over. -/
theorem numerals_cons {b : UInt8} (hquote : b ≠ quote) (hstart : ¬(b = minus ∨ isDigit b = true))
    (s : Bytes) : numerals (b :: s) = numerals s := by
  simp only [numerals, numeralsFrom, if_neg hquote, if_neg hstart]

theorem numerals_dropBlanks (s : Bytes) : numerals (dropBlanks s) = numerals s := by
  induction s with
  | nil => rfl
  | cons b s ih =>
      by_cases hb : isBlank b = true
      · have hne : b ≠ quote ∧ ¬(b = minus ∨ isDigit b = true) := by
          refine ⟨?_, ?_⟩
          · rintro rfl
            cases hb
          · intro hstart
            rw [isBlank_of_startsNumber hstart] at hb
            cases hb
        rw [numerals_cons hne.1 hne.2, ← ih, dropBlanks, dropBlanks, List.dropWhile_cons_of_pos hb]
      · rw [dropBlanks_cons (Bool.eq_false_iff.mpr hb)]

/-- A numeral goes on as far as it can. -/
theorem numeralsFrom_numeral (seen s : Bytes) :
    numeralsFrom (.numeral seen) s =
      (seen.reverse ++ s.takeWhile continuesNumeral) :: numerals (s.dropWhile continuesNumeral) := by
  induction s generalizing seen with
  | nil => simp [numeralsFrom, numerals]
  | cons b s ih =>
      by_cases hb : continuesNumeral b = true
      · simp [numeralsFrom, hb, ih]
      · have hstart : ¬(b = minus ∨ isDigit b = true) := by
          intro hstart
          apply hb
          rcases hstart with rfl | hdigit
          · rfl
          · simp [continuesNumeral, hdigit]
        rw [List.takeWhile_cons_of_neg hb, List.dropWhile_cons_of_neg hb, List.append_nil]
        simp only [numeralsFrom, if_neg hb, numerals, if_neg hstart]

theorem endsNumeral_dropWhile (s : Bytes) :
    endsNumeral (s.dropWhile continuesNumeral) = true := by
  have hhead := List.head?_dropWhile_not continuesNumeral s
  cases hs : s.dropWhile continuesNumeral with
  | nil => rfl
  | cons b rest =>
      rw [hs] at hhead
      simp only [List.head?_cons, continuesNumeral, Bool.or_eq_false_iff] at hhead
      simp [endsNumeral, hhead]

/-- A number that is read where numbers are whole is a whole number. -/
theorem whole_of_number {b : UInt8} {s rest : Bytes} {n : Number}
    (h : number (b :: s) = .ok (n, rest)) (hwhole : HasWholeNumbers (b :: s)) :
    Scalar .whole (b :: s) (.number n) rest ∧ HasWholeNumbers rest := by
  have hstart := startsNumber_of_number h
  have hquote : b ≠ quote := by
    rcases hstart with rfl | hdigit
    · decide
    · rintro rfl
      cases hdigit
  -- The first numeral begins here, and what is behind it cannot go on with it.
  have hnumerals : numerals (b :: s) =
      (b :: s.takeWhile continuesNumeral) :: numerals (s.dropWhile continuesNumeral) := by
    rw [numerals, numeralsFrom, if_neg hquote, if_pos hstart, numeralsFrom_numeral]
    rfl
  obtain ⟨m, hm⟩ := hwhole (b :: s.takeWhile continuesNumeral)
    (by rw [hnumerals]; exact List.mem_cons_self)
  have hread := hm.readable (endsNumeral_dropWhile s)
  have hsplit : (b :: s.takeWhile continuesNumeral) ++ s.dropWhile continuesNumeral = b :: s := by
    rw [List.cons_append, List.takeWhile_append_dropWhile]
  rw [hsplit, h] at hread
  cases hread
  refine ⟨?_, fun w hw => hwhole w ?_⟩
  · rw [← hsplit]
    exact .number hm (endsNumeral_dropWhile s)
  · rw [hnumerals]
    exact List.mem_cons_of_mem _ hw

/-! ## Literals -/

/-- What a reader between the quotes has taken when it waits for this. -/
inductive Awaiting : Mode → Bytes → Prop where
  | plain : Awaiting .plain []
  | escape : Awaiting .escape [backslash]
  | code {digits : Bytes} (hdigits : digits.length < 4) :
      Awaiting (.code none digits) (backslash :: 'u'.toUInt8 :: digits.reverse)
  | pair {a b c d : UInt8} {high : Nat} (hhigh : hexNumber? [d, c, b, a] = some high)
      (hleading : isLeading high = true) :
      Awaiting (.pair high) [backslash, 'u'.toUInt8, a, b, c, d]
  | pairLetter {a b c d : UInt8} {high : Nat} (hhigh : hexNumber? [d, c, b, a] = some high)
      (hleading : isLeading high = true) :
      Awaiting (.pairLetter high) [backslash, 'u'.toUInt8, a, b, c, d, backslash]
  | secondCode {a b c d : UInt8} {high : Nat} {digits : Bytes}
      (hhigh : hexNumber? [d, c, b, a] = some high) (hleading : isLeading high = true)
      (hdigits : digits.length < 4) :
      Awaiting (.code (some high) digits)
        ([backslash, 'u'.toUInt8, a, b, c, d, backslash, 'u'.toUInt8] ++ digits.reverse)

/-- What is scanned is spelled between the quotes. -/
theorem unescapes_of_scan {mode : Mode} {done s raw rest taken : Bytes}
    (h : scan mode done s = .ok (raw, rest)) (htaken : Awaiting mode taken) :
    ∃ t, raw = done.reverse ++ t ∧ Unescapes (taken ++ s) t rest := by
  have hfour : ∀ {digits : Bytes}, digits.length < 4 → ¬ digits.length < 3 →
      ∃ c b a, digits = [c, b, a] := fun hlt hge => List.length_eq_three.mp (by omega)
  fun_induction scan mode done s generalizing taken with
  | case2 done before =>
      cases h
      cases htaken
      exact ⟨[], (List.append_nil _).symm, .close⟩
  | case3 done before hne ih =>
      cases htaken
      exact ih h .escape
  | case5 done b before hquote hbackslash hspace ih =>
      cases htaken
      obtain ⟨t, rfl, ht⟩ := ih h .plain
      exact ⟨b :: t, by simp, .plain hquote hbackslash hspace ht⟩
  | case6 done before ih =>
      cases htaken
      exact ih h (.code (by decide))
  | case7 done b before hu c hshort ih =>
      cases htaken
      obtain ⟨t, rfl, ht⟩ := ih h .plain
      exact ⟨c :: t, by simp, .short hshort ht⟩
  | case9 done d before high digits hlength ih =>
      cases htaken with
      | code hdigits =>
          obtain ⟨t, hraw, ht⟩ := ih h (.code (Nat.succ_lt_succ hlength))
          exact ⟨t, hraw, by simpa using ht⟩
      | secondCode hhigh hleading hdigits =>
          obtain ⟨t, hraw, ht⟩ := ih h (.secondCode hhigh hleading (Nat.succ_lt_succ hlength))
          exact ⟨t, hraw, by simpa using ht⟩
  | case12 done d before digits hlength n hunit htrailing hleading ih =>
      cases htaken with
      | code hdigits =>
          obtain ⟨c, b, a, rfl⟩ := hfour hdigits hlength
          exact ih h (.pair hunit hleading)
  | case13 done d before digits hlength n hunit htrailing hleading ih =>
      cases htaken with
      | code hdigits =>
          obtain ⟨c, b, a, rfl⟩ := hfour hdigits hlength
          obtain ⟨t, rfl, ht⟩ := ih h .plain
          refine ⟨String.utf8EncodeChar (Char.ofNat n) ++ t, by simp [reversedBytes], ?_⟩
          exact .code hunit (Bool.eq_false_iff.mpr hleading) (Bool.eq_false_iff.mpr htrailing) ht
  | case14 done d before digits hlength n high hunit htrailing ih =>
      cases htaken with
      | secondCode hhigh hleading hdigits =>
          obtain ⟨c, b, a, rfl⟩ := hfour hdigits hlength
          obtain ⟨t, hraw, ht⟩ := ih h .plain
          refine ⟨_, ?_, .pair hhigh hleading hunit htrailing ht⟩
          rw [hraw, reversedBytes, List.reverse_append, List.reverse_reverse, List.append_assoc]
  | case16 done before high ih =>
      cases htaken with
      | pair hhigh hleading => exact ih h (.pairLetter hhigh hleading)
  | case18 done before high ih =>
      cases htaken with
      | pairLetter hhigh hleading => exact ih h (.secondCode hhigh hleading (by decide))
  | _ => cases h

/-- A literal that is read is spelled. -/
theorem unescapes_of_literal {s rest : Bytes} {t : String} (h : literal s = .ok (t, rest)) :
    Unescapes s (Utf8.encode t) rest := by
  unfold literal at h
  split at h
  · cases h
  · next raw behind hscan =>
      split at h
      · next text hdecode =>
          cases h
          obtain ⟨u, hraw, hu⟩ := unescapes_of_scan hscan .plain
          rw [List.reverse_nil, List.nil_append] at hraw
          rwa [← hraw, Utf8.decode?_eq_some_iff.mp hdecode] at hu
      · cases h

theorem plain_of_hexValue? {b : UInt8} {v : Nat} (h : hexValue? b = some v) :
    b ≠ quote ∧ b ≠ backslash := by
  refine ⟨?_, ?_⟩ <;> rintro rfl <;> cases h

/-- The digits of a code unit are neither quotes nor backslashes. -/
theorem plain_of_hexNumber? {digits : Bytes} {n : Nat} (h : hexNumber? digits = some n) :
    ∀ b ∈ digits, b ≠ quote ∧ b ≠ backslash := by
  induction digits generalizing n with
  | nil => exact fun b hb => absurd hb List.not_mem_nil
  | cons d before ih =>
      unfold hexNumber? at h
      split at h
      · next m v hm hv => exact List.forall_mem_cons.mpr ⟨plain_of_hexValue? hv, ih hm⟩
      · cases h

/-- There are no numerals inside a literal. -/
theorem numeralsFrom_literal {s t rest : Bytes} (h : Unescapes s t rest) :
    numeralsFrom .literal s = numerals rest := by
  -- A code unit is passed over.
  have hunit : ∀ {a b c d : UInt8} {n : Nat} {s : Bytes}, hexNumber? [d, c, b, a] = some n →
      numeralsFrom .literal (backslash :: 'u'.toUInt8 :: a :: b :: c :: d :: s) =
        numeralsFrom .literal s := by
    intro a b c d n s hn
    have hplain := plain_of_hexNumber? hn
    simp only [List.forall_mem_cons] at hplain
    obtain ⟨hd, hc, hb, ha, -⟩ := hplain
    simp only [numeralsFrom, show backslash ≠ quote by decide, if_false, if_true, ha, hb, hc, hd]
  induction h with
  | close => simp only [numeralsFrom, if_true, numerals]
  | plain hquote hbackslash hspace h ih => simp only [numeralsFrom, hquote, hbackslash, if_false, ih]
  | short hshort h ih =>
      simp only [numeralsFrom, show backslash ≠ quote by decide, if_false, if_true, ih]
  | code hn hleading htrailing h ih => rw [hunit hn, ih]
  | pair hhigh hleading hlow htrailing h ih => rw [hunit hhigh, hunit hlow, ih]

theorem HasWholeNumbers.literal {s rest : Bytes} {t : String} (h : HasWholeNumbers (quote :: s))
    (hread : Json.literal s = .ok (t, rest)) : HasWholeNumbers rest := by
  have hsame : numerals (quote :: s) = numerals rest :=
    numeralsFrom_literal (unescapes_of_literal hread)
  rwa [HasWholeNumbers, hsame] at h

/-! ## Steps between values -/

theorem HasWholeNumbers.dropBlanks {s : Bytes} (h : HasWholeNumbers s) :
    HasWholeNumbers (Json.dropBlanks s) := by
  rwa [HasWholeNumbers, numerals_dropBlanks]

/-- Behind blanks and a bracket, comma or colon there are the same numerals. -/
theorem HasWholeNumbers.behind {s rest : Bytes} {b : UInt8} (h : HasWholeNumbers s)
    (hdrop : Json.dropBlanks s = b :: rest) (hquote : b ≠ quote)
    (hstart : ¬(b = minus ∨ isDigit b = true)) : HasWholeNumbers rest := by
  have hblanks := h.dropBlanks
  rwa [hdrop, HasWholeNumbers, numerals_cons hquote hstart] at hblanks

/-- What remains true of a text while a reader takes things from its front. -/
structure Carried (P : Bytes → Prop) : Prop where
  dropBlanks : ∀ {s : Bytes}, P s → P (Json.dropBlanks s)
  literal : ∀ {s rest : Bytes} {t : String}, P (quote :: s) → Json.literal s = .ok (t, rest) → P rest
  behind : ∀ {s rest : Bytes} {b : UInt8}, P s → Json.dropBlanks s = b :: rest → b ≠ quote →
    ¬(b = minus ∨ isDigit b = true) → P rest

theorem carried_hasWholeNumbers : Carried HasWholeNumbers :=
  ⟨HasWholeNumbers.dropBlanks, HasWholeNumbers.literal, HasWholeNumbers.behind⟩

theorem carried_true : Carried fun _ => True :=
  ⟨fun _ => trivial, fun _ _ => trivial, fun _ _ _ _ => trivial⟩

theorem Carried.onward {P : Bytes → Prop} (hP : Carried P) {first : Bool} {s front : Bytes} (h : P s)
    (hfront : Onward first s front) : P front := by
  cases hfront with
  | first => exact hP.dropBlanks h
  | next hcomma => exact hP.dropBlanks (hP.behind h hcomma (by decide) (by decide))

/-! ## Loops -/

/-- What this reader takes is spelled, in texts of this kind. -/
def Yields {α : Type} (P : Bytes → Prop) (item : Bytes → Read α)
    (spells : Bytes → α → Bytes → Prop) : Prop :=
  ∀ s x rest, item s = .ok (x, rest) → P s → spells (dropBlanks s) x rest ∧ P rest

section

variable {P : Bytes → Prop} (hP : Carried P) {bound : Nat} {first : Bool} {s rest : Bytes}
include hP

theorem enclosed_of_elements {α : Type} {item : Bytes → Read α} {spells : Bytes → α → Bytes → Prop}
    (hitem : Yields P item spells) {done all : List α}
    (h : elements item bound first done s = .ok (all, rest)) (hs : P s) :
    ∃ xs, all = done.reverse ++ xs ∧ Enclosed closeBracket spells first s xs rest ∧ P rest := by
  induction bound generalizing first done s with
  | zero => cases h
  | succ bound ih =>
      unfold elements at h
      split at h
      · cases h
      · next behind hnext =>
          cases h
          have hclose := nextElement_eq_closed_iff.mp hnext
          exact ⟨[], (List.append_nil _).symm, .close hclose,
            hP.behind hs hclose (by decide) (by decide)⟩
      · next front hnext =>
          obtain ⟨hfront, -⟩ := nextElement_eq_item_iff.mp hnext
          split at h
          · cases h
          · next x behind hread =>
              obtain ⟨hx, hbehind⟩ := hitem front x behind hread (hP.onward hs hfront)
              obtain ⟨xs, hall, hxs, hrest⟩ := ih h hbehind
              rw [hfront.dropBlanks_eq] at hx
              exact ⟨x :: xs, by simpa using hall, .item hfront hx hxs, hrest⟩

theorem enclosed_of_members {item : Bytes → Read Value} {spells : Bytes → Value → Bytes → Prop}
    (hitem : Yields P item spells) {m all : Members}
    (h : members (memberOf item) bound first m s = .ok (all, rest)) (hs : P s) :
    ∃ entries, all = gather m entries ∧
      Enclosed closeBrace (Entry spells) first s entries rest ∧ P rest := by
  induction bound generalizing first m s with
  | zero => cases h
  | succ bound ih =>
      unfold members at h
      split at h
      · cases h
      · next behind hnext =>
          cases h
          have hclose := nextKey_eq_closed_iff.mp hnext
          exact ⟨[], rfl, .close hclose, hP.behind hs hclose (by decide) (by decide)⟩
      · next front hnext =>
          have hfront := nextKey_eq_item_iff.mp hnext
          have hquote := hP.onward hs hfront
          split at h
          · cases h
          · next key middle hkey =>
              have hmiddle := hP.literal hquote hkey
              split at h
              · cases h
              · next gathered behind hmember =>
                  obtain ⟨value, v, hcolon, hread, rfl⟩ := memberOf_eq_ok_iff.mp hmember
                  have hvalue := hP.behind hmiddle hcolon (by decide) (by decide)
                  obtain ⟨hv, hbehind⟩ := hitem value v behind hread hvalue
                  obtain ⟨entries, rfl, hentries, hrest⟩ := ih h hbehind
                  have hentry : Entry spells (quote :: front) (key, v) behind :=
                    .mk (unescapes_of_literal hkey) hcolon hv
                  exact ⟨(key, v) :: entries, rfl, .item hfront hentry hentries, hrest⟩

end

/-! ## Values -/

theorem eq_append_of_word {w s rest : Bytes} (h : word w s = .ok rest) : s = w ++ rest := by
  fun_induction word w s with
  | case1 s =>
      cases h
      rfl
  | case3 c letters rest' ih => rw [List.cons_append, ← ih h]
  | _ => cases h

/-- There are no numerals in a word. -/
theorem numerals_append {w : Bytes} (hw : ∀ b ∈ w, b ≠ quote ∧ ¬(b = minus ∨ isDigit b = true))
    (rest : Bytes) : numerals (w ++ rest) = numerals rest := by
  induction w with
  | nil => rfl
  | cons b w ih =>
      obtain ⟨hb, hw⟩ := List.forall_mem_cons.mp hw
      rw [List.cons_append, numerals_cons hb.1 hb.2, ih hw]

/-- A value without brackets that is read is spelled. -/
theorem spelled_of_scalar {b : UInt8} {s rest : Bytes} {v : Value} (h : scalar b s = .ok (v, rest))
    (hs : HasWholeNumbers (b :: s)) : Scalar .whole (b :: s) v rest ∧ HasWholeNumbers rest := by
  have hword : ∀ {w : Bytes}, (∀ c ∈ w, c ≠ quote ∧ ¬(c = minus ∨ isDigit c = true)) →
      HasWholeNumbers (w ++ rest) → HasWholeNumbers rest := by
    intro w hw hs
    rwa [HasWholeNumbers, numerals_append hw] at hs
  have hspelling : Spelling 0 b s v rest := .of_scalar h
  cases hspelling with
  | null h =>
      obtain rfl := eq_append_of_word h
      exact ⟨.null, hword (by decide +kernel) hs⟩
  | true h =>
      obtain rfl := eq_append_of_word h
      exact ⟨.true, hword (by decide +kernel) hs⟩
  | false h =>
      obtain rfl := eq_append_of_word h
      exact ⟨.false, hword (by decide +kernel) hs⟩
  | number hb h => exact whole_of_number h hs
  | string h => exact ⟨.string (unescapes_of_literal h), hs.literal h⟩
  | array => cases h
  | object => cases h

/-- **A value that is read is spelled**, where numbers are whole. -/
theorem spells_of_value (bound depth : Nat) :
    Yields HasWholeNumbers (value bound depth) (Spells .whole depth) := by
  induction depth with
  | zero =>
      intro s v rest h hs
      have hs := hs.dropBlanks
      unfold value at h
      split at h
      · cases h
      · next b front hdrop =>
          rw [hdrop] at hs ⊢
          split at h
          · cases h
          · split at h
            · cases h
            · exact spelled_of_scalar h hs
  | succ depth ih =>
      intro s v rest h hs
      unfold value at h
      split at h
      · cases h
      · next b front hdrop =>
          rw [hdrop]
          split at h
          · next hb =>
              subst hb
              obtain ⟨⟨all, behind⟩, hread, heq⟩ := map_eq_ok_iff.mp h
              cases heq
              obtain ⟨vs, rfl, hvs, hrest⟩ :=
                enclosed_of_elements carried_hasWholeNumbers ih hread (hs.behind hdrop (by decide) (by decide))
              exact ⟨.array hvs, hrest⟩
          · split at h
            · next hb =>
                subst hb
                obtain ⟨⟨all, behind⟩, hread, heq⟩ := map_eq_ok_iff.mp h
                cases heq
                obtain ⟨entries, rfl, hentries, hrest⟩ :=
                  enclosed_of_members carried_hasWholeNumbers ih hread (hs.behind hdrop (by decide) (by decide))
                exact ⟨.object hentries trivial (gathers_nil.gather entries), hrest⟩
            · have hblanks := hs.dropBlanks
              rw [hdrop] at hblanks
              obtain ⟨hscalar, hrest⟩ := spelled_of_scalar h hblanks
              exact ⟨.scalar hscalar, hrest⟩

/-- **A text whose numbers are whole is read as an object exactly if it denotes it.** -/
theorem parse_eq_ok_iff_denotes {s : Bytes} (hs : HasWholeNumbers s) {m : Members} :
    Members.parse s = .ok m ↔ Denotes .whole s m := by
  refine ⟨fun h => ?_, parse_of_denotes Style.readable_whole⟩
  obtain ⟨rest, hread, hblanks⟩ := document_eq_ok_iff.mp h
  unfold object at hread
  split at hread
  · cases hread
  · next b front hdrop =>
      split at hread
      · next hb =>
          subst hb
          obtain ⟨entries, rfl, hentries, -⟩ := enclosed_of_members carried_hasWholeNumbers
            (spells_of_value _ _) hread (hs.behind hdrop (by decide) (by decide))
          refine ⟨rest, ?_, hblanks⟩
          rw [hdrop]
          exact .object hentries trivial (gathers_nil.gather entries)
      · cases hread

end LiveDiagram.Json
