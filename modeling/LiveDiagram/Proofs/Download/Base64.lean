import Mathlib.Algebra.Group.Nat.Defs
import LiveDiagram.Download.Base64

/-!
# Base64 texts and their reader

What a standard text is, is said about bits: those of the file, one byte after another, are cut into
sixes, zero bits fill the last six up, each six is a letter of the alphabet, and padding fills the last
group of four letters up.  Neither the writer, which works on three bytes at a time, nor the reader,
which looks at the last group by itself, appears in that.

The reader is the writer's inverse: the text it has read is always spelled by the numbers it keeps,
so that a text it accepts is the one that would be written.

## Main results

* `isTextOf_iff`: the writer gives the one standard text of a file.
* `decode_encode`, `decode_eq_ok_iff`: the reader accepts what the writer gives, and nothing else.
-/

namespace LiveDiagram.Base64

open LiveDiagram.Ascii

/-! ## Standard texts -/

/-- The letters, in the order of the numbers they stand for. -/
def alphabet : String := "ABCDEFGHIJKLMNOPQRSTUVWXYZabcdefghijklmnopqrstuvwxyz0123456789+/"

/-- The letter for a number below 64. -/
def letter (n : Nat) : UInt8 :=
  (Utf8.encode alphabet).getD n 0

/-- The lowest bits of a number, the highest of them in front. -/
def bits : Nat → Nat → List Bool
  | 0, _ => []
  | width + 1, n => bits width (n / 2) ++ [n % 2 == 1]

/-- The bits of a file. -/
def fileBits (file : Bytes) : List Bool :=
  file.flatMap fun b => bits 8 b.toNat

/-- A text is made of these numbers, of which the last ends in so many filling bits, and of so much
padding. -/
structure Layout (file text : Bytes) (numbers : List Nat) (fill padding : Nat) : Prop where
  numbers_lt : ∀ n ∈ numbers, n < 64
  cut : numbers.flatMap (bits 6) = fileBits file ++ List.replicate fill false
  fill_lt : fill < 6
  spelled : text = numbers.map letter ++ List.replicate padding equals
  padding_lt : padding < 4
  whole : 4 ∣ text.length

/-- The standard padded text of a file. -/
def IsTextOf (file text : Bytes) : Prop :=
  ∃ numbers fill padding, Layout file text numbers fill padding

theorem letter_eq_symbol {n : Nat} (h : n < 64) : letter n = symbol n := by
  have all : ∀ n < 64, letter n = symbol n := by decide +kernel
  exact all n h

/-! ## Bits -/

theorem length_bits (width n : Nat) : (bits width n).length = width := by
  induction width generalizing n with
  | zero => rfl
  | succ width ih => rw [bits, List.length_append, ih, List.length_singleton]

/-- Numbers with few bits are told apart by them. -/
theorem bits_inj {width m n : Nat} (hm : m < 2 ^ width) (hn : n < 2 ^ width)
    (h : bits width m = bits width n) : m = n := by
  induction width generalizing m n with
  | zero => omega
  | succ width ih =>
      rw [bits, bits] at h
      obtain ⟨hfront, hlast⟩ := List.append_inj' h rfl
      have hhalf : m / 2 = n / 2 := ih (by omega) (by omega) hfront
      have hparity : m % 2 = 1 ↔ n % 2 = 1 := by
        rw [← beq_iff_eq, List.singleton_inj.mp hlast, beq_iff_eq]
      omega

/-- The bits of a number put together from two. -/
theorem bits_add (front back m : Nat) {n : Nat} (hn : n < 2 ^ back) :
    bits (front + back) (m * 2 ^ back + n) = bits front m ++ bits back n := by
  induction back generalizing n with
  | zero =>
      obtain rfl : n = 0 := by omega
      simp [bits]
  | succ back ih =>
      have hhalf : (m * 2 ^ (back + 1) + n) / 2 = m * 2 ^ back + n / 2 := by
        rw [Nat.pow_succ, ← Nat.mul_assoc]
        omega
      have hparity : (m * 2 ^ (back + 1) + n) % 2 = n % 2 := by
        rw [Nat.pow_succ, ← Nat.mul_assoc]
        omega
      show bits (front + back) ((m * 2 ^ (back + 1) + n) / 2) ++ _ = _
      rw [hhalf, hparity, ih (by omega), List.append_assoc]
      rfl

theorem bits_zero (width : Nat) : bits width 0 = List.replicate width false := by
  induction width with
  | zero => rfl
  | succ width ih => rw [bits, ih, List.replicate_succ']; rfl

/-- A number that is filled up ends in zero bits. -/
theorem bits_fill (front back m : Nat) :
    bits (front + back) (m * 2 ^ back) = bits front m ++ List.replicate back false := by
  rw [← bits_zero, ← bits_add front back m (Nat.two_pow_pos back), Nat.add_zero]

theorem fileBits_nil : fileBits [] = [] := rfl

theorem fileBits_cons (b : UInt8) (file : Bytes) :
    fileBits (b :: file) = bits 8 b.toNat ++ fileBits file := rfl

theorem length_fileBits (file : Bytes) : (fileBits file).length = 8 * file.length := by
  induction file with
  | nil => rfl
  | cons b file ih =>
      rw [fileBits_cons, List.length_append, length_bits, ih, List.length_cons]
      omega

theorem length_flatMap_bits (numbers : List Nat) :
    (numbers.flatMap (bits 6)).length = 6 * numbers.length := by
  induction numbers with
  | nil => rfl
  | cons n numbers ih =>
      rw [List.flatMap_cons, List.length_append, length_bits, ih, List.length_cons]
      omega

/-- Numbers below 64 are told apart by their bits. -/
theorem flatMap_bits_inj {m n : List Nat} (hm : ∀ x ∈ m, x < 64) (hn : ∀ x ∈ n, x < 64)
    (h : m.flatMap (bits 6) = n.flatMap (bits 6)) : m = n := by
  have hlength := congrArg List.length h
  rw [length_flatMap_bits, length_flatMap_bits] at hlength
  induction m generalizing n with
  | nil =>
      rw [List.length_nil] at hlength
      exact (List.eq_nil_of_length_eq_zero (by omega)).symm
  | cons x m ih =>
      obtain ⟨y, n, rfl⟩ := List.exists_cons_of_length_pos (l := n) (by
        rw [List.length_cons] at hlength
        omega)
      rw [List.length_cons, List.length_cons] at hlength
      rw [List.flatMap_cons, List.flatMap_cons] at h
      obtain ⟨hfront, hback⟩ := List.append_inj h (by rw [length_bits, length_bits])
      rw [List.forall_mem_cons] at hm hn
      rw [bits_inj hm.1 hn.1 hfront, ih hm.2 hn.2 hback (by omega)]

/-- Where a byte is cut, its bits are those of the two parts. -/
theorem bits_byte (front back : Nat) (h : front + back = 8) (b : UInt8) :
    bits 8 b.toNat = bits front (b.toNat / 2 ^ back) ++ bits back (b.toNat % 2 ^ back) := by
  rw [← bits_add front back _ (Nat.mod_lt _ (Nat.two_pow_pos back)), h, Nat.div_add_mod']

theorem bits_first (b : UInt8) : bits 8 b.toNat = bits 6 (b.toNat / 4) ++ bits 2 (b.toNat % 4) :=
  bits_byte 6 2 rfl b

theorem bits_second (b : UInt8) : bits 8 b.toNat = bits 4 (b.toNat / 16) ++ bits 4 (b.toNat % 16) :=
  bits_byte 4 4 rfl b

theorem bits_third (b : UInt8) : bits 8 b.toNat = bits 2 (b.toNat / 64) ++ bits 6 (b.toNat % 64) :=
  bits_byte 2 6 rfl b

/-! ## The writer -/

/-- A file has one standard text. -/
theorem Layout.unique {file s t : Bytes} {m n : List Nat} {fill fill' padding padding' : Nat}
    (hs : Layout file s m fill padding) (ht : Layout file t n fill' padding') : s = t := by
  have hm := congrArg List.length hs.cut
  have hn := congrArg List.length ht.cut
  rw [length_flatMap_bits, List.length_append, List.length_replicate, length_fileBits] at hm hn
  have hfill : fill = fill' := by
    have := hs.fill_lt
    have := ht.fill_lt
    omega
  have hnumbers : m = n := by
    apply flatMap_bits_inj hs.numbers_lt ht.numbers_lt
    rw [hs.cut, ht.cut, hfill]
  have hwhole := hs.whole
  have hwhole' := ht.whole
  rw [hs.spelled, List.length_append, List.length_map, List.length_replicate] at hwhole
  rw [ht.spelled, List.length_append, List.length_map, List.length_replicate] at hwhole'
  have hpadding : padding = padding' := by
    have := hs.padding_lt
    have := ht.padding_lt
    rw [hnumbers] at hwhole
    omega
  rw [hs.spelled, ht.spelled, hnumbers, hpadding]

theorem spelled_eq {numbers : List Nat} (h : ∀ n ∈ numbers, n < 64) (padding : Nat) :
    numbers.map letter ++ List.replicate padding equals =
      numbers.map symbol ++ List.replicate padding equals := by
  rw [List.map_congr_left fun n hn => letter_eq_symbol (h n hn)]

/-- The numbers that three bytes are cut into. -/
def sixes (a b c : UInt8) : List Nat :=
  [a.toNat / 4, a.toNat % 4 * 16 + b.toNat / 16, b.toNat % 16 * 4 + c.toNat / 64, c.toNat % 64]

theorem sixes_lt (a b c : UInt8) : ∀ n ∈ sixes a b c, n < 64 := by
  have ha := a.toNat_lt
  have hb := b.toNat_lt
  have hc := c.toNat_lt
  simp only [sixes, List.forall_mem_cons]
  exact ⟨by omega, by omega, by omega, by omega, List.forall_mem_nil _⟩

theorem bits_seam (a b : UInt8) :
    bits 6 (a.toNat % 4 * 16 + b.toNat / 16) = bits 2 (a.toNat % 4) ++ bits 4 (b.toNat / 16) := by
  have hb := b.toNat_lt
  exact bits_add 2 4 _ (by omega)

theorem bits_sixes (a b c : UInt8) : (sixes a b c).flatMap (bits 6) = fileBits [a, b, c] := by
  have hc := c.toNat_lt
  have hseam : bits 6 (b.toNat % 16 * 4 + c.toNat / 64) =
      bits 4 (b.toNat % 16) ++ bits 2 (c.toNat / 64) := bits_add 4 2 _ (by omega)
  simp only [sixes, List.flatMap_cons, List.flatMap_nil, fileBits_cons, fileBits_nil, bits_first a,
    bits_second b, bits_third c, bits_seam, hseam, List.append_assoc]

/-- Three more bytes in front are four more letters. -/
theorem Layout.three {file text : Bytes} {numbers : List Nat} {fill padding : Nat}
    (h : Layout file text numbers fill padding) (a b c : UInt8) :
    Layout (a :: b :: c :: file) ((sixes a b c).map symbol ++ text) (sixes a b c ++ numbers) fill
      padding := by
  have hlt : ∀ n ∈ sixes a b c ++ numbers, n < 64 :=
    List.forall_mem_append.mpr ⟨sixes_lt a b c, h.numbers_lt⟩
  refine ⟨hlt, ?_, h.fill_lt, ?_, h.padding_lt, ?_⟩
  · rw [List.flatMap_append, bits_sixes, h.cut, ← List.append_assoc]
    rfl
  · rw [spelled_eq hlt, h.spelled, spelled_eq h.numbers_lt, List.map_append, List.append_assoc]
  · have hwhole := h.whole
    rw [List.length_append, List.length_map]
    show 4 ∣ 4 + text.length
    omega

theorem exists_layout (file : Bytes) :
    ∃ numbers fill padding, Layout file (encode file) numbers fill padding := by
  fun_induction encode file with
  | case1 =>
      refine ⟨[], 0, 0, ?_, rfl, by omega, rfl, by omega, ?_⟩
      · intro n hn
        cases hn
      · exact Nat.dvd_zero 4
  | case2 a =>
      have ha := a.toNat_lt
      have hlt : ∀ n ∈ [a.toNat / 4, a.toNat % 4 * 16], n < 64 := by
        simp only [List.forall_mem_cons]
        exact ⟨by omega, by omega, List.forall_mem_nil _⟩
      refine ⟨_, 4, 2, hlt, ?_, by omega, ?_, by omega, Nat.dvd_refl 4⟩
      · have hlast : bits 6 (a.toNat % 4 * 16) = bits 2 (a.toNat % 4) ++ List.replicate 4 false :=
          bits_fill 2 4 _
        simp only [List.flatMap_cons, List.flatMap_nil, fileBits_cons, fileBits_nil, bits_first a,
          hlast, List.append_assoc, List.append_nil]
      · rw [spelled_eq hlt]
        rfl
  | case3 a b =>
      have ha := a.toNat_lt
      have hb := b.toNat_lt
      have hlt : ∀ n ∈ [a.toNat / 4, a.toNat % 4 * 16 + b.toNat / 16, b.toNat % 16 * 4],
          n < 64 := by
        simp only [List.forall_mem_cons]
        exact ⟨by omega, by omega, by omega, List.forall_mem_nil _⟩
      refine ⟨_, 2, 1, hlt, ?_, by omega, ?_, by omega, Nat.dvd_refl 4⟩
      · have hlast : bits 6 (b.toNat % 16 * 4) = bits 4 (b.toNat % 16) ++ List.replicate 2 false :=
          bits_fill 4 2 _
        simp only [List.flatMap_cons, List.flatMap_nil, fileBits_cons, fileBits_nil, bits_first a,
          bits_second b, bits_seam, hlast, List.append_assoc, List.append_nil]
      · rw [spelled_eq hlt]
        rfl
  | case4 a b c rest ih =>
      obtain ⟨numbers, fill, padding, h⟩ := ih
      exact ⟨_, fill, padding, h.three a b c⟩

/-- The writer gives the one standard text of a file. -/
theorem isTextOf_iff {file text : Bytes} : IsTextOf file text ↔ text = encode file := by
  obtain ⟨numbers, fill, padding, h⟩ := exists_layout file
  constructor
  · rintro ⟨numbers', fill', padding', h'⟩
    exact h'.unique h
  · rintro rfl
    exact ⟨numbers, fill, padding, h⟩

/-! ## The reader: what it has accepted -/

theorem symbol_of_sextet? {b : UInt8} {n : Nat} (h : sextet? b = some n) :
    n < 64 ∧ b = symbol n := by
  have all : ∀ n ∈ sextet? b, n < 64 ∧ b = symbol n := by
    refine forall_lt (k := 0x100) (P := fun b => ∀ n ∈ sextet? b, n < 64 ∧ b = symbol n) ?_
      b.toNat_lt
    decide +kernel
  exact all n h

/-- The text read so far is spelled by the numbers found. -/
theorem spelled_of_sextets {offset : Nat} {done numbers : List Nat} {s : Bytes}
    (hdone : ∀ n ∈ done, n < 64) (h : sextets offset done s = .ok numbers) :
    (∀ n ∈ numbers, n < 64) ∧ done.reverse.map symbol ++ s = numbers.map symbol := by
  fun_induction sextets offset done s with
  | case1 offset done =>
      cases h
      refine ⟨fun n hn => hdone n (List.mem_reverse.mp hn), List.append_nil _⟩
  | case2 offset done b rest n hn ih =>
      obtain ⟨hlt, rfl⟩ := symbol_of_sextet? hn
      obtain ⟨hnumbers, hspelled⟩ := ih (List.forall_mem_cons.mpr ⟨hlt, hdone⟩) h
      refine ⟨hnumbers, ?_⟩
      rw [← hspelled, List.reverse_cons, List.map_append, List.append_assoc]
      rfl
  | case3 => cases h

/-- The part of the last group read so far is spelled by the numbers found and the padding.  No letter
is read once there is padding, so the two never mix. -/
theorem spelled_of_lastGroup {start padding pads : Nat} {symbols numbers : List Nat} {s : Bytes}
    (hsymbols : ∀ n ∈ symbols, n < 64) (h : lastGroup start symbols padding s = .ok (numbers, pads)) :
    (∀ n ∈ numbers, n < 64) ∧
      symbols.map symbol ++ (List.replicate padding equals ++ s) =
        numbers.map symbol ++ List.replicate pads equals := by
  fun_induction lastGroup start symbols padding s with
  | case1 symbols padding =>
      cases h
      exact ⟨hsymbols, by rw [List.append_nil]⟩
  | case2 => cases h
  | case3 symbols padding rest place hplace ih =>
      obtain ⟨hnumbers, hspelled⟩ := ih hsymbols h
      refine ⟨hnumbers, ?_⟩
      rw [← hspelled, List.replicate_succ', List.append_assoc]
      rfl
  | case4 => cases h
  | case5 symbols padding b rest hb hpadding n hn ih =>
      obtain ⟨hlt, rfl⟩ := symbol_of_sextet? hn
      obtain rfl : padding = 0 := by omega
      have hmore : ∀ m ∈ symbols ++ [n], m < 64 :=
        List.forall_mem_append.mpr ⟨hsymbols, List.forall_mem_singleton.mpr hlt⟩
      obtain ⟨hnumbers, hspelled⟩ := ih hmore h
      refine ⟨hnumbers, ?_⟩
      rw [← hspelled, List.map_append, List.append_assoc]
      rfl
  | case6 => cases h

/-! ## The reader: groups of four -/

/-- A byte made of the bits of two numbers. -/
theorem toNat_first {p q : Nat} (hp : p < 64) (hq : q < 64) :
    (UInt8.ofNat (p * 4 + q / 16)).toNat = p * 4 + q / 16 :=
  UInt8.toNat_ofNat_of_lt (show _ < 256 by omega)

theorem toNat_second (q : Nat) {r : Nat} (hr : r < 64) :
    (UInt8.ofNat (q % 16 * 16 + r / 4)).toNat = q % 16 * 16 + r / 4 :=
  UInt8.toNat_ofNat_of_lt (show _ < 256 by omega)

theorem toNat_third (r : Nat) {s : Nat} (hs : s < 64) :
    (UInt8.ofNat (r % 4 * 64 + s)).toNat = r % 4 * 64 + s :=
  UInt8.toNat_ofNat_of_lt (show _ < 256 by omega)

/-- What four numbers make is written as these numbers. -/
theorem encode_four {p q r s : Nat} (hp : p < 64) (hq : q < 64) (hr : r < 64) (hs : s < 64)
    (tail : Bytes) :
    encode (UInt8.ofNat (p * 4 + q / 16) :: UInt8.ofNat (q % 16 * 16 + r / 4) ::
      UInt8.ofNat (r % 4 * 64 + s) :: tail) =
        symbol p :: symbol q :: symbol r :: symbol s :: encode tail := by
  rw [encode, toNat_first hp hq, toNat_second q hr, toNat_third r hs,
    show (p * 4 + q / 16) / 4 = p by omega,
    show (p * 4 + q / 16) % 4 * 16 + (q % 16 * 16 + r / 4) / 16 = q by omega,
    show (q % 16 * 16 + r / 4) % 16 * 4 + (r % 4 * 64 + s) / 64 = r by omega,
    show (r % 4 * 64 + s) % 64 = s by omega]

/-- What complete groups make is written as these groups. -/
theorem encode_join {groups : List Nat} (hlt : ∀ n ∈ groups, n < 64) (hfour : 4 ∣ groups.length)
    (tail : Bytes) : encode (join groups ++ tail) = groups.map symbol ++ encode tail := by
  fun_induction join groups with
  | case1 p q r s rest ih =>
      simp only [List.forall_mem_cons] at hlt
      obtain ⟨hp, hq, hr, hs, hrest⟩ := hlt
      simp only [List.length_cons] at hfour
      rw [List.cons_append, List.cons_append, List.cons_append, encode_four hp hq hr hs,
        ih hrest (by omega)]
      rfl
  | case2 groups hshort =>
      match groups with
      | [] => rfl
      | [_] | [_, _] | [_, _, _] =>
          simp only [List.length_cons, List.length_nil] at hfour
          omega
      | p :: q :: r :: s :: rest => exact absurd rfl (hshort p q r s rest)

/-- What a last group with no bits left over makes is written as this group. -/
theorem encode_joinLast {symbols : List Nat} {padding : Nat} (hlt : ∀ n ∈ symbols, n < 64)
    (htwo : 2 ≤ symbols.length) (hfour : symbols.length + padding = 4)
    (hrest : (joinLast symbols).2 = 0) :
    encode (joinLast symbols).1 = symbols.map symbol ++ List.replicate padding equals := by
  match symbols with
  | [] | [_] =>
      simp only [List.length_cons, List.length_nil] at htwo
      omega
  | [p, q] =>
      obtain rfl : padding = 2 := Nat.add_left_cancel hfour
      simp only [List.forall_mem_cons] at hlt
      change q % 16 = 0 at hrest
      show encode [UInt8.ofNat (p * 4 + q / 16)] = _
      rw [encode, toNat_first hlt.1 hlt.2.1, show (p * 4 + q / 16) / 4 = p by omega,
        show (p * 4 + q / 16) % 4 * 16 = q by omega]
      rfl
  | [p, q, r] =>
      obtain rfl : padding = 1 := Nat.add_left_cancel hfour
      simp only [List.forall_mem_cons] at hlt
      change r % 4 = 0 at hrest
      show encode [UInt8.ofNat (p * 4 + q / 16), UInt8.ofNat (q % 16 * 16 + r / 4)] = _
      rw [encode, toNat_first hlt.1 hlt.2.1, toNat_second q hlt.2.2.1,
        show (p * 4 + q / 16) / 4 = p by omega,
        show (p * 4 + q / 16) % 4 * 16 + (q % 16 * 16 + r / 4) / 16 = q by omega,
        show (q % 16 * 16 + r / 4) % 16 * 4 = r by omega]
      rfl
  | [p, q, r, s] =>
      obtain rfl : padding = 0 := Nat.add_left_cancel hfour
      have hjoin := encode_join hlt (Nat.dvd_refl 4) []
      rwa [List.append_nil] at hjoin
  | _ :: _ :: _ :: _ :: _ :: _ =>
      simp only [List.length_cons] at hfour
      omega

/-! ## The reader: whole texts -/

/-- Where the last group of a text starts. -/
def lastStart (s : Bytes) : Nat :=
  (s.length - 1) / 4 * 4

/-- What it takes for a text to be accepted: the groups before the last and the last group are read,
the last one is filled up to four, and no bits are left over. -/
theorem decode_eq_ok_iff_parts {s file : Bytes} (hs : s ≠ []) :
    decode s = .ok file ↔ isStray (s.drop (lastStart s)) = false ∧ ∃ groups symbols padding,
      sextets 0 [] (s.take (lastStart s)) = .ok groups ∧
      lastGroup (lastStart s) [] 0 (s.drop (lastStart s)) = .ok (symbols, padding) ∧
      2 ≤ symbols.length ∧ symbols.length + padding = 4 ∧ (joinLast symbols).2 = 0 ∧
      file = join groups ++ (joinLast symbols).1 := by
  rw [decode]
  simp only [lastStart, hs, if_false]
  -- every branch but one is an error
  grind

/-- The reader accepts nothing but what the writer gives. -/
theorem eq_encode_of_decode {s file : Bytes} (h : decode s = .ok file) : s = encode file := by
  by_cases hs : s = []
  · subst hs
    cases h
    rfl
  obtain ⟨-, groups, symbols, padding, hgroups, hlast, htwo, hfour, hrest, rfl⟩ :=
    (decode_eq_ok_iff_parts hs).mp h
  obtain ⟨hlt, hfront⟩ := spelled_of_sextets (List.forall_mem_nil _) hgroups
  obtain ⟨hltLast, hback⟩ := spelled_of_lastGroup (List.forall_mem_nil _) hlast
  have hlength : groups.length = lastStart s := by
    have hcount := congrArg List.length hfront
    rw [List.length_map] at hcount
    rw [← hcount, List.reverse_nil, List.map_nil, List.nil_append, List.length_take]
    exact Nat.min_eq_left (by rw [lastStart]; omega)
  -- the groups before the last are complete, since the last one starts at a multiple of four
  have hquads : 4 ∣ groups.length := by
    rw [hlength, lastStart]
    exact Nat.dvd_mul_left 4 _
  calc s = s.take (lastStart s) ++ s.drop (lastStart s) := (List.take_append_drop _ s).symm
    _ = groups.map symbol ++ (symbols.map symbol ++ List.replicate padding equals) := by
      rw [← hfront, ← hback]
      rfl
    _ = groups.map symbol ++ encode (joinLast symbols).1 := by
      rw [encode_joinLast hltLast htwo hfour hrest]
    _ = encode (join groups ++ (joinLast symbols).1) := (encode_join hlt hquads _).symm

/-! ## The reader: what it accepts -/

theorem sextets_symbols {numbers : List Nat} (hlt : ∀ n ∈ numbers, n < 64) (offset : Nat)
    (done : List Nat) :
    sextets offset done (numbers.map symbol) = .ok (done.reverse ++ numbers) := by
  induction numbers generalizing offset done with
  | nil => rw [List.append_nil]; rfl
  | cons n numbers ih =>
      rw [List.forall_mem_cons] at hlt
      rw [List.map_cons, sextets, sextet?_symbol hlt.1]
      simp only [ih hlt.2, List.reverse_cons, List.append_assoc, List.singleton_append]

theorem lastGroup_symbol {n : Nat} (h : n < 64) (start : Nat) (symbols : List Nat) (rest : Bytes) :
    lastGroup start symbols 0 (symbol n :: rest) = lastGroup start (symbols ++ [n]) 0 rest := by
  have hne : symbol n ≠ equals := by
    intro heq
    have hnone : sextet? equals = none := by decide
    rw [← heq, sextet?_symbol h] at hnone
    cases hnone
  rw [lastGroup]
  simp only [hne, if_false, ne_eq, not_true_eq_false, sextet?_symbol h]

theorem lastGroup_equals {start padding : Nat} {symbols : List Nat} (h : 2 ≤ symbols.length)
    (rest : Bytes) :
    lastGroup start symbols padding (equals :: rest) =
      lastGroup start symbols (padding + 1) rest := by
  have hplace : ¬ symbols.length + padding < 2 := by omega
  rw [lastGroup]
  simp only [if_true, hplace, if_false]

/-- Three bytes are made of their numbers again. -/
theorem join_sixes (a b c : UInt8) (groups : List Nat) :
    join (sixes a b c ++ groups) = a :: b :: c :: join groups := by
  have ha := a.toNat_lt
  have hb := b.toNat_lt
  have hc := c.toNat_lt
  show UInt8.ofNat _ :: UInt8.ofNat _ :: UInt8.ofNat _ :: join groups = _
  rw [show a.toNat / 4 * 4 + (a.toNat % 4 * 16 + b.toNat / 16) / 16 = a.toNat by omega,
    show (a.toNat % 4 * 16 + b.toNat / 16) % 16 * 16 + (b.toNat % 16 * 4 + c.toNat / 64) / 4 =
      b.toNat by omega,
    show (b.toNat % 16 * 4 + c.toNat / 64) % 4 * 64 + c.toNat % 64 = c.toNat by omega,
    UInt8.ofNat_toNat, UInt8.ofNat_toNat, UInt8.ofNat_toNat]

/-- A file is cut into what complete groups make and a last part of at most three bytes. -/
theorem exists_groups {file : Bytes} (h : file ≠ []) :
    ∃ groups tail, (∀ n ∈ groups, n < 64) ∧ 4 ∣ groups.length ∧ tail ≠ [] ∧ tail.length ≤ 3 ∧
      file = join groups ++ tail := by
  fun_induction encode file with
  | case1 => exact absurd rfl h
  | case2 a => exact ⟨[], [a], List.forall_mem_nil _, Nat.dvd_zero 4, by simp, by simp, rfl⟩
  | case3 a b => exact ⟨[], [a, b], List.forall_mem_nil _, Nat.dvd_zero 4, by simp, by simp, rfl⟩
  | case4 a b c rest ih =>
      by_cases hrest : rest = []
      · subst hrest
        exact ⟨[], [a, b, c], List.forall_mem_nil _, Nat.dvd_zero 4, by simp, by simp, rfl⟩
      obtain ⟨groups, tail, hlt, hquads, hne, hshort, rfl⟩ := ih hrest
      refine ⟨sixes a b c ++ groups, tail, ?_, ?_, hne, hshort, ?_⟩
      · exact List.forall_mem_append.mpr ⟨sixes_lt a b c, hlt⟩
      · rw [List.length_append]
        show 4 ∣ 4 + groups.length
        omega
      · rw [join_sixes]
        rfl

/-- The last part of a file is read back. -/
theorem lastGroup_encode {tail : Bytes} (hne : tail ≠ []) (hshort : tail.length ≤ 3) (start : Nat) :
    (encode tail).length = 4 ∧ ∃ symbols padding,
      lastGroup start [] 0 (encode tail) = .ok (symbols, padding) ∧ 2 ≤ symbols.length ∧
      symbols.length + padding = 4 ∧ joinLast symbols = (tail, 0) := by
  match tail with
  | [] => exact absurd rfl hne
  | [a] =>
      have ha := a.toNat_lt
      refine ⟨rfl, [a.toNat / 4, a.toNat % 4 * 16], 2, ?_, by simp, by simp, ?_⟩
      · rw [encode, lastGroup_symbol (by omega), lastGroup_symbol (by omega),
          lastGroup_equals (by simp), lastGroup_equals (by simp)]
        rfl
      · rw [joinLast, show a.toNat / 4 * 4 + a.toNat % 4 * 16 / 16 = a.toNat by omega,
          show a.toNat % 4 * 16 % 16 = 0 by omega, UInt8.ofNat_toNat]
  | [a, b] =>
      have ha := a.toNat_lt
      have hb := b.toNat_lt
      refine ⟨rfl, [a.toNat / 4, a.toNat % 4 * 16 + b.toNat / 16, b.toNat % 16 * 4], 1, ?_, by simp,
        by simp, ?_⟩
      · rw [encode, lastGroup_symbol (by omega), lastGroup_symbol (by omega),
          lastGroup_symbol (by omega), lastGroup_equals (by simp)]
        rfl
      · rw [joinLast, show a.toNat / 4 * 4 + (a.toNat % 4 * 16 + b.toNat / 16) / 16 = a.toNat by omega,
          show (a.toNat % 4 * 16 + b.toNat / 16) % 16 * 16 + b.toNat % 16 * 4 / 4 = b.toNat by omega,
          show b.toNat % 16 * 4 % 4 = 0 by omega, UInt8.ofNat_toNat, UInt8.ofNat_toNat]
  | [a, b, c] =>
      have hlt := sixes_lt a b c
      simp only [sixes, List.forall_mem_cons] at hlt
      refine ⟨rfl, sixes a b c, 0, ?_, by simp [sixes], rfl, ?_⟩
      · rw [encode, lastGroup_symbol hlt.1, lastGroup_symbol hlt.2.1, lastGroup_symbol hlt.2.2.1,
          lastGroup_symbol hlt.2.2.2.1]
        rfl
      · show (join (sixes a b c ++ []), 0) = _
        rw [join_sixes]
        rfl
  | _ :: _ :: _ :: _ :: _ =>
      simp only [List.length_cons] at hshort
      omega

theorem isStray_of_length {s : Bytes} (h : s.length = 4) : isStray s = false := by
  match s with
  | [_, _, _, _] => rfl

/-- What the writer gives is read back. -/
theorem decode_encode (file : Bytes) : decode (encode file) = .ok file := by
  by_cases hfile : file = []
  · subst hfile
    rfl
  obtain ⟨groups, tail, hlt, hquads, hne, hshort, rfl⟩ := exists_groups hfile
  obtain ⟨hfour, symbols, padding, hlast, htwo, hsum, hjoin⟩ :=
    lastGroup_encode hne hshort groups.length
  rw [encode_join hlt hquads]
  have hstart : lastStart (groups.map symbol ++ encode tail) = groups.length := by
    rw [lastStart, List.length_append, List.length_map, hfour]
    omega
  have hnil : groups.map symbol ++ encode tail ≠ [] := by
    apply List.append_ne_nil_of_right_ne_nil
    intro hempty
    rw [hempty] at hfour
    cases hfour
  have htake : (groups.map symbol ++ encode tail).take groups.length = groups.map symbol :=
    List.take_left' (List.length_map symbol)
  have hdrop : (groups.map symbol ++ encode tail).drop groups.length = encode tail :=
    List.drop_left' (List.length_map symbol)
  rw [decode_eq_ok_iff_parts hnil, hstart, htake, hdrop]
  refine ⟨?_, groups, symbols, padding, sextets_symbols hlt 0 [], hlast, htwo, hsum, ?_, ?_⟩
  · exact isStray_of_length hfour
  · rw [hjoin]
  · rw [hjoin]

/-- **The reader is strict**: it accepts the texts that the writer gives, and no others. -/
theorem decode_eq_ok_iff {s file : Bytes} : decode s = .ok file ↔ s = encode file := by
  constructor
  · exact eq_encode_of_decode
  · rintro rfl
    exact decode_encode file

/-- A text that is refused is the text of no file. -/
theorem not_isTextOf_of_decode {text : Bytes} {f : Fault} (h : decode text = .error f)
    (file : Bytes) : ¬ IsTextOf file text := by
  intro hfile
  rw [decode_eq_ok_iff.mpr (isTextOf_iff.mp hfile)] at h
  cases h

theorem encode_injective {file file' : Bytes} (h : encode file = encode file') : file = file' := by
  have hread := decode_encode file
  rw [h, decode_encode] at hread
  exact (Except.ok.inj hread).symm

theorem toNat_lt_of_mem_encode {file : Bytes} : ∀ b ∈ encode file, b.toNat < 0x80 := by
  have hletter : ∀ n < 64, (letter n).toNat < 0x80 := by decide +kernel
  obtain ⟨numbers, fill, padding, h⟩ := exists_layout file
  rw [h.spelled, List.forall_mem_append, List.forall_mem_map]
  refine ⟨fun n hn => hletter n (h.numbers_lt n hn), ?_⟩
  intro b hb
  rw [List.eq_of_mem_replicate hb]
  decide

end LiveDiagram.Base64
