import Mathlib.Data.List.Basic
import Mathlib.Data.List.TakeWhile
import LiveDiagram.Editor.Forward
import LiveDiagram.Editor.Instance

/-!
# The address of an instance

An instance is known by its port.  Whoever sends it a document makes an address of that port and has
it parsed again, with its digits between a colon and a slash.  What comes out is the host with four
bytes of this machine, the port, unless it is the one that is usual, and the path of the document.

## Main results

* `Host.numberIn_toDigits`: the digits of a number denote it.
* `Forward.target_url`: the address of an instance leads to its document, whatever its port.
-/

namespace LiveDiagram

-- By definition; to derive the equation of `url`, Lean would compare the texts byte by byte.
theorem Instance.url_eq (port : UInt16) : url port = "http://127.0.0.1:" ++ port.toNat.repr :=
  rfl

/-! ## Decimal digits -/

namespace Host

theorem numberIn_concat (cs : List Char) {d : Nat} (hd : d < 10) :
    numberIn 10 (cs ++ [d.digitChar]) = (numberIn 10 cs).map (10 * · + d) := by
  have hvalue : ∀ d < 10, ((Ascii.hexValue? d.digitChar.toUInt8).filter fun v =>
      v < 10 ∧ d.digitChar.toNat < 0x80) = some d := by decide
  rw [numberIn, List.foldlM_append, ← numberIn]
  cases numberIn 10 cs with
  | none => rfl
  | some n =>
      simp only [Option.bind_eq_bind, Option.bind_some, List.foldlM_cons, List.foldlM_nil,
        hvalue d hd]
      rfl

theorem numberIn_toDigits (n : Nat) : numberIn 10 (Nat.toDigits 10 n) = some n := by
  have hzero : numberIn 10 [] = some 0 := rfl
  induction n using Nat.strongRecOn with
  | ind n ih =>
      by_cases hn : n < 10
      · rw [Nat.toDigits_of_lt_base hn, ← List.nil_append [n.digitChar], numberIn_concat [] hn, hzero]
        simp
      · rw [Nat.toDigits_of_base_le (by decide) (by omega),
          numberIn_concat _ (Nat.mod_lt n (by decide)), ih (n / 10) (by omega), Option.map_some,
          Nat.div_add_mod]

end Host

namespace Url

/-! ## Ports -/

/-- A property of the ten digits may be checked on them. -/
theorem forall_isDigit {p : Char → Prop} (h : ∀ n < 10, p (Char.ofNat (0x30 + n))) {c : Char}
    (hc : c.isDigit = true) : p c := by
  have hrange : 0x30 ≤ c.toNat ∧ c.toNat ≤ 0x39 := by
    simpa [Char.isDigit, UInt32.le_iff_toNat_le] using hc
  have hdigit := h (c.toNat - 0x30) (by omega)
  rwa [Nat.add_sub_cancel' hrange.1, Char.ofNat_toNat] at hdigit

theorem isDigit_of_mem_toDigits {c : Char} {n : Nat} (h : c ∈ Nat.toDigits 10 n) :
    c.isDigit = true :=
  Nat.isDigit_of_mem_toDigits (by decide) (by decide) h

theorem port?_toDigits (port : UInt16) :
    port? (':' :: Nat.toDigits 10 port.toNat) = .ok (some port) := by
  have hall : (Nat.toDigits 10 port.toNat).all Char.isDigit = true :=
    List.all_eq_true.mpr fun c hc => isDigit_of_mem_toDigits hc
  have hvalue := Host.numberIn_toDigits port.toNat
  obtain ⟨c, cs, hcons⟩ :=
    List.exists_cons_of_ne_nil (Nat.toDigits_ne_nil (b := 10) (n := port.toNat))
  rw [hcons] at hall hvalue ⊢
  rw [port?, if_pos hall, hvalue]
  · simp only [if_pos port.toNat_lt, UInt16.ofNat_toNat]
  · intro _
    exact List.cons_ne_nil c cs

/-! ## Addresses -/

/-- What counts in an address without blanks and control characters is all of it. -/
theorem significant_of_forall {s : List Char} (h : ∀ c ∈ s, 0x20 < c.toNat) : significant s = s := by
  have hkeep : ∀ s : List Char, (∀ c ∈ s, 0x20 < c.toNat) → s.dropWhile isBlank = s := by
    intro s hs
    cases s with
    | nil => rfl
    | cons c s =>
        apply List.dropWhile_cons_of_neg
        have hc := hs c List.mem_cons_self
        simp only [isBlank, decide_eq_true_eq]
        omega
  rw [significant, hkeep s h, hkeep s.reverse fun c hc => h c (List.mem_reverse.mp hc),
    List.reverse_reverse, List.filter_eq_self]
  intro c hc
  have hlarge := h c hc
  simp only [Bool.and_eq_true, bne_iff_ne, ne_eq]
  refine ⟨⟨?_, ?_⟩, ?_⟩ <;> rintro rfl <;> exact absurd hlarge (by decide)

/-- The address of a document on this machine. -/
def ofPort (port : UInt16) : Url where
  scheme := "http"
  username := ""
  password := ""
  host := .bytes 0x7F000001
  port := if port = 80 then none else some port
  path := "/api/diagram"
  query := none
  fragment := none

/-- No character of a server's name ends it, and none announces it. -/
theorem of_mem_server (port : UInt16) :
    ∀ c ∈ "127.0.0.1:".toList ++ Nat.toDigits 10 port.toNat,
      (!endsHost true c) = true ∧ c ≠ '@' := by
  have hname : ∀ c ∈ "127.0.0.1:".toList, (!endsHost true c) = true ∧ c ≠ '@' :=
    List.forall_iff_forall_mem.mp (by decide)
  intro c hc
  rcases List.mem_append.mp hc with hc | hc
  · exact hname c hc
  · exact forall_isDigit (p := fun c => (!endsHost true c) = true ∧ c ≠ '@') (by decide)
      (isDigit_of_mem_toDigits hc)

theorem splitUser_server (port : UInt16) :
    splitUser ("127.0.0.1:".toList ++ Nat.toDigits 10 port.toNat) =
      ([], "127.0.0.1:".toList ++ Nat.toDigits 10 port.toNat) := by
  rw [splitUser, if_neg]
  intro hat
  exact (of_mem_server port '@' (List.contains_iff_mem.mp hat)).2 rfl

/-- The usual port is not kept. -/
theorem filter_usualPort (port : UInt16) :
    (some port).filter (fun n => usualPort? "http" ≠ some n) =
      if port = 80 then none else some port := by
  have husual : usualPort? "http" = some 80 := by decide
  rw [husual, Option.filter_some]
  by_cases hport : port = 80
  · rw [if_pos hport, if_neg]
    simp only [hport, ne_eq, not_true_eq_false, decide_false, Bool.false_eq_true, not_false_eq_true]
  · rw [if_neg hport, if_pos]
    simp only [ne_eq, Option.some.injEq, decide_eq_true_eq]
    exact fun h => hport h.symm

theorem parseBehind_server (port : UInt16) :
    parseBehind "http"
        ("127.0.0.1:".toList ++ Nat.toDigits 10 port.toNat ++ "/api/diagram".toList) =
      .ok (ofPort port) := by
  have hplain := fun c hc => (of_mem_server port c hc).1
  have hauthority : ("127.0.0.1:".toList ++ Nat.toDigits 10 port.toNat ++
      "/api/diagram".toList).takeWhile (!endsHost true ·) =
        "127.0.0.1:".toList ++ Nat.toDigits 10 port.toNat := by
    rw [List.takeWhile_append_of_pos hplain]
    exact List.append_nil _
  have hrest : ("127.0.0.1:".toList ++ Nat.toDigits 10 port.toNat ++
      "/api/diagram".toList).dropWhile (!endsHost true ·) = "/api/diagram".toList := by
    rw [List.dropWhile_append_of_pos hplain]
    rfl
  have hsplit : splitHost false ("127.0.0.1:".toList ++ Nat.toDigits 10 port.toNat) =
      ("127.0.0.1".toList, ':' :: Nat.toDigits 10 port.toNat) := rfl
  have hhost : host? "http" "127.0.0.1".toList = .ok (.bytes 0x7F000001) := by decide +kernel
  have hpath : writePath true "/api/diagram".toList = "/api/diagram" := by decide +kernel
  have hspecial : isSpecial "http" = true := by decide
  have hfile : ¬ "http" = "file" := by decide
  have hwhole : "/api/diagram".toList.takeWhile (fun c => c != '?' && c != '#') =
      "/api/diagram".toList := by decide
  have htail : "/api/diagram".toList.dropWhile (fun c => c != '?' && c != '#') = [] := by decide
  simp only [parseBehind, hspecial, hauthority, hrest, hfile, if_false, splitUser_server, hsplit,
    hhost, port?_toDigits, hpath, hwhole, htail, filter_usualPort]
  rfl

theorem toList_documentUrl (port : UInt16) :
    (Forward.documentUrl (Instance.url port)).toList = "http://".toList ++
      ("127.0.0.1:".toList ++ Nat.toDigits 10 port.toNat ++ "/api/diagram".toList) := by
  rw [Forward.documentUrl, Instance.url_eq, String.toList_append, String.toList_append,
    Nat.toList_repr, List.append_assoc, List.append_assoc]
  rfl

/-- The address of an instance is read as it is meant. -/
theorem parse_documentUrl (port : UInt16) :
    parse (Forward.documentUrl (Instance.url port)) = .ok (ofPort port) := by
  have hsignificant : significant (Forward.documentUrl (Instance.url port)).toList =
      (Forward.documentUrl (Instance.url port)).toList := by
    have hname : ∀ c ∈ "127.0.0.1:".toList, 0x20 < c.toNat :=
      List.forall_iff_forall_mem.mp (by decide)
    have hscheme : ∀ c ∈ "http://".toList, 0x20 < c.toNat :=
      List.forall_iff_forall_mem.mp (by decide)
    have hpath : ∀ c ∈ "/api/diagram".toList, 0x20 < c.toNat :=
      List.forall_iff_forall_mem.mp (by decide)
    apply significant_of_forall
    rw [toList_documentUrl]
    intro c hc
    simp only [List.mem_append] at hc
    rcases hc with hc | (hc | hc) | hc
    · exact hscheme c hc
    · exact hname c hc
    · exact forall_isDigit (p := fun c => 0x20 < c.toNat) (by decide) (isDigit_of_mem_toDigits hc)
    · exact hpath c hc
  have hscheme : ∀ s, splitScheme? ("http://".toList ++ s) = some ("http", "//".toList ++ s) :=
    fun s => rfl
  have hslashes : splitSlashes? "http" ("//".toList ++
      ("127.0.0.1:".toList ++ Nat.toDigits 10 port.toNat ++ "/api/diagram".toList)) =
        some ("127.0.0.1:".toList ++ Nat.toDigits 10 port.toNat ++ "/api/diagram".toList) := rfl
  rw [parse, hsignificant, toList_documentUrl, hscheme]
  simp only [hslashes, parseBehind_server]

end Url

namespace Forward

/-- **The address of an instance leads to its document**, whatever its port. -/
theorem target_url (port : UInt16) : target (Instance.url port) = .ok (Url.ofPort port) := by
  rw [target, Url.parse_documentUrl]
  rfl

end Forward

end LiveDiagram
