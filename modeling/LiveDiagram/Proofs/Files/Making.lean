import LiveDiagram.Proofs.Files.Contents
import LiveDiagram.Proofs.Files.Trees

/-!
# Making the directories of a path

The directories of a path are made from the first missing one on, by trying the whole path, then the
path of the directory above, and so on up to one that can be made, and then all the way down again.
Whatever can be seen to be wrong in the whole path is seen before anything is made.  What is seen only
on the way down is a name that is too long, since names behind a missing directory are not looked at,
and whatever `..` leads to behind one.

The recursion is over the parts in reverse, and so are the lemmas: `makeReversed` takes the parts of a
path, last first, with idle ones anywhere.

## Main results

* `adds_makeDirectories`: only directories are added, and only where beginnings of the path lead.
* `isDirectory_eq_false_of_makeReversed`: if it fails, the directory is not there.
* `makeReversed_of_missing`: with something missing and no `..` behind it, only a name can be too long.
-/

namespace LiveDiagram

namespace Path

/-- The parts of a path, last first, as a path without idle parts at its end. -/
def ofReversed (parts : List String) : Path :=
  ⟨(parts.dropWhile isIdle).reverse⟩

theorem ofReversed_cons_of_idle {part : String} (h : isIdle part = true) (outer : List String) :
    ofReversed (part :: outer) = ofReversed outer := by
  rw [ofReversed, List.dropWhile_cons_of_pos h, ofReversed]

theorem ofReversed_cons {part : String} (h : isIdle part = false) (outer : List String) :
    ofReversed (part :: outer) = ⟨outer.reverse ++ [part]⟩ := by
  rw [ofReversed, List.dropWhile_cons_of_neg (by simp [h]), List.reverse_cons]

theorem aboveReversed_cons {part : String} (h : isIdle part = false) (outer : List String) :
    aboveReversed (part :: outer) = ofReversed outer :: aboveReversed outer := by
  rw [aboveReversed, if_neg (by simp [h]), ofReversed]

theorem aboveReversed_cons_of_idle {part : String} (h : isIdle part = true) (outer : List String) :
    aboveReversed (part :: outer) = aboveReversed outer := by
  rw [aboveReversed, if_pos h]

theorem aboveReversed_dropWhile (parts : List String) :
    aboveReversed (parts.dropWhile isIdle) = aboveReversed parts := by
  induction parts with
  | nil => rfl
  | cons part outer ih =>
      cases h : isIdle part with
      | true => rw [List.dropWhile_cons_of_pos h, ih, aboveReversed_cons_of_idle h]
      | false => rw [List.dropWhile_cons_of_neg (by simp [h])]

theorem above_ofReversed (parts : List String) : (ofReversed parts).above = aboveReversed parts := by
  rw [above, ofReversed, List.reverse_reverse, aboveReversed_dropWhile]

/-- Without idle parts at its end, a path has no parts or ends with a name or `..`. -/
theorem ofReversed_cases (parts : List String) :
    ofReversed parts = ⟨[]⟩ ∨
      ∃ outer part, isIdle part = false ∧ ofReversed parts = ⟨outer ++ [part]⟩ := by
  induction parts with
  | nil => exact .inl rfl
  | cons part outer ih =>
      cases hidle : isIdle part with
      | true => rwa [ofReversed_cons_of_idle hidle]
      | false => exact .inr ⟨outer.reverse, part, hidle, ofReversed_cons hidle outer⟩

/-- The idle parts at the end of a path. -/
theorem exists_append_ofReversed (parts : List String) :
    ∃ idle, parts = (ofReversed parts.reverse).parts ++ idle ∧ ∀ part ∈ idle, isIdle part = true :=
  FileTree.exists_append_dropWhile isIdle parts

theorem prefix_ofReversed (parts : List String) : (ofReversed parts).parts <+: parts.reverse := by
  rw [ofReversed, List.reverse_prefix]
  exact List.dropWhile_suffix _

/-- The paths of the directories that a path passes through are beginnings of it. -/
theorem prefix_of_mem_aboveReversed {parts : List String} {q : Path} (h : q ∈ aboveReversed parts) :
    q.parts <+: parts.reverse := by
  induction parts with
  | nil => cases h
  | cons part outer ih =>
      rw [List.reverse_cons]
      have hmore : outer.reverse <+: outer.reverse ++ [part] := List.prefix_append _ _
      cases hidle : isIdle part with
      | true =>
          rw [aboveReversed_cons_of_idle hidle] at h
          exact (ih h).trans hmore
      | false =>
          rw [aboveReversed_cons hidle] at h
          rcases List.mem_cons.mp h with rfl | h
          · exact (prefix_ofReversed outer).trans hmore
          · exact (ih h).trans hmore

end Path

namespace FileTree

open LiveDiagram.Path

/-! ## Trees with more directories -/

/-- The second tree is the first with more directories, all of them in places of this kind. -/
def Adds (P : Location → Prop) (t t' : FileTree) : Prop :=
  ∀ l, t'.lookup l = t.lookup l ∨ t.lookup l = none ∧ t'.lookup l = some .directory ∧ P l

section

variable {P Q : Location → Prop} {t t' t'' : FileTree} {l : Location}

theorem Adds.refl (t : FileTree) : Adds P t t :=
  fun _ => .inl rfl

theorem Adds.mono (h : Adds P t t') (hPQ : ∀ l, P l → Q l) : Adds Q t t' :=
  fun l => (h l).imp_right fun ⟨hnone, hmade, hl⟩ => ⟨hnone, hmade, hPQ l hl⟩

theorem Adds.trans (h : Adds P t t') (h' : Adds P t' t'') : Adds P t t'' := by
  intro l
  rcases h l with hsame | ⟨hnone, hmade, hl⟩
  · rw [← hsame]
    exact h' l
  · rcases h' l with hsame | ⟨hnone', -⟩
    · exact .inr ⟨hnone, hsame.trans hmade, hl⟩
    · rw [hmade] at hnone'
      cases hnone'

theorem Adds.grows (h : Adds P t t') : Grows t t' := by
  intro l hl
  rcases h l with hsame | ⟨hnone, -⟩
  · rw [hsame, hl]
  · rw [hl] at hnone
    cases hnone

theorem adds_put_directory (hnone : t.lookup l = none) (hl : P l) : Adds P t (t.put l .directory) := by
  have hroot : l ≠ [] := ne_nil_of_lookup_ne (t := t) (by simp [hnone])
  intro m
  by_cases hm : m = l
  · subst hm
    exact .inr ⟨hnone, lookup_put_self t hroot _, hl⟩
  · exact .inl (lookup_put_ne t hm _)

end

/-- A place that a beginning of the path leads to. -/
def OnTheWay (t : FileTree) (p : Path) (l : Location) : Prop :=
  ∃ front, front <+: p.parts ∧ t.resolve ⟨front⟩ = .ok l

section

variable {t t' : FileTree} {p q : Path}

theorem OnTheWay.mono {l : Location} (h : OnTheWay t q l) (hgrows : Grows t t')
    (hbegin : q.parts <+: p.parts) : OnTheWay t' p l := by
  obtain ⟨front, hfront, hl⟩ := h
  exact ⟨front, hfront.trans hbegin, hgrows.resolve hl⟩

theorem makeDirectory_eq_ok (h : t.makeDirectory p = .ok t') :
    ∃ l, OnTheWay t p l ∧ t.lookup l = none ∧ t' = t.put l .directory := by
  unfold makeDirectory at h
  split at h
  · cases h
  · next l hl =>
      split at h
      · cases h
      · next hnone =>
          cases h
          obtain ⟨back, hparts, -⟩ := exists_append_dropWhile (fun s => decide (s = "")) p.parts
          exact ⟨l, ⟨_, ⟨back, hparts.symm⟩, hl⟩, hnone, rfl⟩

/-- **Making the directories of a path adds directories**, where beginnings of the path lead, and changes
nothing else, whether it succeeds or not. -/
theorem adds_makeDirectories (t : FileTree) (p : Path) :
    Adds (OnTheWay (t.makeDirectories p).2 p) t (t.makeDirectories p).2 := by
  have hbegin : ∀ q ∈ p :: p.above, q.parts <+: p.parts := by
    refine List.forall_mem_cons.mpr ⟨List.prefix_refl _, fun q hq => ?_⟩
    have habove := prefix_of_mem_aboveReversed hq
    rwa [List.reverse_reverse] at habove
  refine rel_makeInnermost (R := fun t t' => Adds (OnTheWay t' p) t t') (fun t => .refl t) ?_ ?_ t
  · intro t t' t'' h h'
    exact (h.mono fun _ hl => hl.mono h'.grows (List.prefix_refl _)).trans h'
  · intro t t' q hq hmade
    obtain ⟨l, hway, hnone, rfl⟩ := makeDirectory_eq_ok hmade
    have hgrows : Grows t (t.put l .directory) :=
      (adds_put_directory (P := fun _ => True) hnone trivial).grows
    exact adds_put_directory hnone (hway.mono hgrows (hbegin q hq))

end

/-! ## The recursion over the parts -/

/-- Makes the directories of a path by its parts, last first. -/
def makeReversed (t : FileTree) (parts : List String) : Except FileError Unit × FileTree :=
  t.makeInnermost (ofReversed parts :: aboveReversed parts)

theorem makeDirectories_ofReversed (t : FileTree) (parts : List String) :
    t.makeDirectories (ofReversed parts) = t.makeReversed parts := by
  rw [makeDirectories, above_ofReversed, makeReversed]

section

variable {t t' : FileTree} {part : String} {outer parts more : List String} {e : FileError}

theorem makeReversed_cons_of_idle (h : isIdle part = true) :
    t.makeReversed (part :: outer) = t.makeReversed outer := by
  rw [makeReversed, ofReversed_cons_of_idle h, aboveReversed_cons_of_idle h, makeReversed]

theorem makeReversed_cons (h : isIdle part = false) :
    t.makeReversed (part :: outer) =
      match t.makeDirectory ⟨outer.reverse ++ [part]⟩ with
      | .error .notFound =>
        match t.makeReversed outer with
        | (.ok (), t) => t.settleDirectory ⟨outer.reverse ++ [part]⟩
        | failed => failed
      | _ => t.settleDirectory ⟨outer.reverse ++ [part]⟩ := by
  rw [makeReversed, ofReversed_cons h, aboveReversed_cons h]
  rfl

theorem settleDirectory_eq_error {p : Path} (h : t.settleDirectory p = (.error e, t')) :
    t' = t ∧ t.isDirectory p = false := by
  unfold settleDirectory at h
  split at h
  · cases h
  · split at h
    · cases h
    · next hother =>
        cases h
        exact ⟨rfl, Bool.eq_false_iff.mpr hother⟩

/-- If making the directories fails, the last of them is not there. -/
theorem isDirectory_eq_false_of_makeReversed (h : t.makeReversed parts = (.error e, t')) :
    t'.isDirectory (ofReversed parts) = false := by
  induction parts with
  | nil =>
      unfold makeReversed makeInnermost at h
      split at h
      · obtain ⟨rfl, hother⟩ := settleDirectory_eq_error h
        exact hother
      · obtain ⟨rfl, hother⟩ := settleDirectory_eq_error h
        exact hother
  | cons part outer ih =>
      cases hidle : isIdle part with
      | true =>
          rw [makeReversed_cons_of_idle hidle] at h
          rw [ofReversed_cons_of_idle hidle]
          exact ih h
      | false =>
          rw [makeReversed_cons hidle] at h
          rw [ofReversed_cons hidle]
          split at h
          · split at h
            · obtain ⟨rfl, hother⟩ := settleDirectory_eq_error h
              exact hother
            · -- What lies below a directory that is not there is not there either.
              have houter := ih h
              obtain ⟨idle, hsplit, -⟩ := exists_append_ofReversed outer.reverse
              rw [List.reverse_reverse] at hsplit
              refine Bool.eq_false_iff.mpr fun hthere => ?_
              rw [hsplit, List.append_assoc] at hthere
              rw [isDirectory_of_append hthere] at houter
              cases houter
          · obtain ⟨rfl, hother⟩ := settleDirectory_eq_error h
            exact hother

theorem makeDirectory_concat (t : FileTree) (parts : List String) (h : isIdle part = false) :
    t.makeDirectory ⟨parts ++ [part]⟩ =
      match t.resolve ⟨parts ++ [part]⟩ with
      | .error e => .error e
      | .ok l =>
        match t.lookup l with
        | some _ => .error .exists
        | none => .ok (t.put l .directory) := by
  have hname : part ≠ "" := by
    rintro rfl
    cases h
  have hstripped : ((parts ++ [part]).reverse.dropWhile (· = "")).reverse = parts ++ [part] := by
    simp [hname]
  cases hresolve : t.resolve ⟨parts ++ [part]⟩ with
  | error e => simp only [makeDirectory, hstripped, hresolve]
  | ok l =>
      cases hthere : t.lookup l with
      | some _ => simp only [makeDirectory, hstripped, hresolve, hthere]
      | none => simp only [makeDirectory, hstripped, hresolve, hthere]

end

/-! ## Down from where something is missing -/

section

variable {t : FileTree} {front : List String} {l : Location}

/-- The last part of a path to where nothing is, is a name. -/
theorem exists_concat_of_missing (hl : t.follow [] front = .ok l) (hnone : t.lookup l = none) :
    ∃ outer part, front = outer ++ [part] ∧ isIdle part = false := by
  rcases List.eq_nil_or_concat front with rfl | ⟨outer, part, rfl⟩
  · cases hl
    cases hnone
  · rw [List.concat_eq_append] at hl ⊢
    refine ⟨outer, part, rfl, Bool.eq_false_iff.mpr fun hidle => ?_⟩
    obtain ⟨m, -, hlast⟩ := follow_append_eq_ok_iff.mp hl
    obtain rfl := eq_of_follow_idle (by simpa using hidle) hlast
    rw [lookup_of_follow_cons hlast] at hnone
    cases hnone

/-- Following a path stops at what is missing. -/
theorem follow_eq_notFound (hl : t.follow [] front = .ok l) (hnone : t.lookup l = none)
    (part : String) (rest : List String) :
    t.follow [] (front ++ part :: rest) = .error .notFound := by
  rw [follow_append, hl]
  show t.follow l (part :: rest) = _
  rw [follow, hnone]

/-- Something is missing if a path cannot be followed for that reason. -/
theorem exists_missing_of_follow {here : Location} {parts : List String}
    (h : t.follow here parts = .error .notFound) :
    ∃ front back l, parts = front ++ back ∧ t.follow here front = .ok l ∧ t.lookup l = none := by
  induction parts generalizing here with
  | nil => cases h
  | cons part rest ih =>
      rw [← List.singleton_append, follow_append] at h
      cases hstep : t.follow here [part] with
      | ok m =>
          rw [hstep] at h
          obtain ⟨front, back, l, rfl, hl, hnone⟩ := ih h
          refine ⟨part :: front, back, l, rfl, ?_, hnone⟩
          rw [← List.singleton_append]
          exact follow_append_eq_ok_iff.mpr ⟨m, hstep, hl⟩
      | error e =>
          rw [hstep] at h
          cases h
          refine ⟨[], part :: rest, here, rfl, rfl, ?_⟩
          -- One step fails for this reason only if there is nothing to step from.
          rw [follow] at hstep
          split at hstep
          · assumption
          · cases hstep
          · split at hstep
            · cases hstep
            split at hstep
            · cases hstep
            split at hstep <;> cases hstep

theorem resolve_eq_follow {p : Path} (hnul : p.hasNul = false)
    (hlength : p.text.utf8ByteSize < lengthLimit) : t.resolve p = t.follow [] p.parts := by
  rw [resolve, hnul, if_neg (Nat.not_le.mpr hlength)]
  rfl

/-- A path cannot be made while something above is missing. -/
theorem makeDirectory_eq_notFound (hl : t.follow [] front = .ok l) (hnone : t.lookup l = none)
    {more : List String} {part : String} (hidle : isIdle part = false)
    (hnul : (Path.mk (front ++ more ++ [part])).hasNul = false)
    (hlength : (Path.mk (front ++ more ++ [part])).text.utf8ByteSize < lengthLimit) :
    t.makeDirectory ⟨front ++ more ++ [part]⟩ = .error .notFound := by
  obtain ⟨x, rest, hx⟩ : ∃ x rest, more ++ [part] = x :: rest :=
    List.exists_cons_of_ne_nil (by simp)
  rw [makeDirectory_concat _ _ hidle, resolve_eq_follow hnul hlength]
  simp only [List.append_assoc, hx, follow_eq_notFound hl hnone]

/-- One more directory is made in one that is there, unless its name is too long. -/
theorem settleDirectory_concat {parts : List String} {base : Location} {part : String}
    (hbase : t.follow [] parts = .ok base) (hdirectory : t.lookup base = some .directory)
    (hfree : t.lookup (base ++ [part]) = none) (hidle : isIdle part = false) (hup : part ≠ "..")
    (hnul : (Path.mk (parts ++ [part])).hasNul = false)
    (hlength : (Path.mk (parts ++ [part])).text.utf8ByteSize < lengthLimit) :
    t.settleDirectory ⟨parts ++ [part]⟩ =
      if nameLimit < part.utf8ByteSize then (.error .nameTooLong, t)
      else (.ok (), t.put (base ++ [part]) .directory) := by
  have hstep : t.follow base [part] =
      if nameLimit < part.utf8ByteSize then .error .nameTooLong else .ok (base ++ [part]) := by
    simp [follow, hdirectory, hidle, hup]
  have hresolve : t.resolve ⟨parts ++ [part]⟩ = t.follow base [part] := by
    rw [resolve_eq_follow hnul hlength, follow_append, hbase]
    rfl
  rw [hstep] at hresolve
  by_cases hlong : nameLimit < part.utf8ByteSize
  · rw [if_pos hlong] at hresolve ⊢
    simp only [settleDirectory, makeDirectory_concat _ _ hidle, hresolve, isDirectory, find,
      Bool.false_eq_true, if_false]
  · rw [if_neg hlong] at hresolve ⊢
    simp only [settleDirectory, makeDirectory_concat _ _ hidle, hresolve, hfree]

/-- The directories of a path have been made: they are below a place, and nothing else has changed. -/
structure MadeBelow (l : Location) (t made : FileTree) (parts : List String) (base : Location) :
    Prop where
  follow : made.follow [] parts = .ok base
  directory : made.lookup base = some .directory
  below : l <+: base
  adds : Adds (· <+: base) t made

/-- Below the directories that have been made there is nothing yet. -/
theorem MadeBelow.lookup_concat_eq_none {made : FileTree} {parts : List String} {base : Location}
    (h : MadeBelow l t made parts base) (ht : t.IsTree) (hnone : t.lookup l = none) (name : String) :
    made.lookup (base ++ [name]) = none := by
  rcases h.adds (base ++ [name]) with hsame | ⟨-, -, hbegin⟩
  · obtain ⟨names, hnames⟩ := h.below
    rw [hsame, ← hnames, List.append_assoc]
    exact ht.lookup_append_eq_none hnone _
  · have hle := hbegin.length_le
    rw [List.length_append, List.length_singleton] at hle
    omega

theorem MadeBelow.step {made : FileTree} {parts : List String} {base : Location} {part : String}
    (h : MadeBelow l t made parts base) (hfree : made.lookup (base ++ [part]) = none)
    (hidle : isIdle part = false) (hup : part ≠ "..") (hlong : ¬ nameLimit < part.utf8ByteSize) :
    MadeBelow l t (made.put (base ++ [part]) .directory) (parts ++ [part]) (base ++ [part]) := by
  have hlonger : base <+: base ++ [part] := List.prefix_append _ _
  have hlast : Adds (· <+: base ++ [part]) made (made.put (base ++ [part]) .directory) :=
    adds_put_directory hfree (List.prefix_refl _)
  have hstep : made.follow base [part] = .ok (base ++ [part]) := by
    simp [FileTree.follow, h.directory, hidle, hup, hlong]
  exact ⟨hlast.grows.follow (follow_append_eq_ok_iff.mpr ⟨base, h.follow, hstep⟩),
    lookup_put_self made (by simp) _, h.below.trans hlonger,
    (h.adds.mono fun _ hm => hm.trans hlonger).trans hlast⟩

/-- Making the directories of a path that ends with a name or `..` changes nothing, unless something is
missing on the way. -/
theorem eq_or_missing {parts : List String} {part : String} (hidle : isIdle part = false) :
    (t.makeDirectories ⟨parts ++ [part]⟩).2 = t ∨
      ((Path.mk (parts ++ [part])).hasNul = false ∧
        (Path.mk (parts ++ [part])).text.utf8ByteSize < lengthLimit ∧
        ∃ front back l, parts ++ [part] = front ++ back ∧ t.follow [] front = .ok l ∧
          t.lookup l = none) := by
  have hsettle : ∀ e, t.makeDirectory ⟨parts ++ [part]⟩ = .error e → e ≠ .notFound →
      (t.makeDirectories ⟨parts ++ [part]⟩).2 = t := by
    intro e he hother
    unfold makeDirectories makeInnermost
    rw [he]
    cases e with
    | notFound => exact absurd rfl hother
    | _ => simp only [settleDirectory, he]
  have hmake := t.makeDirectory_concat parts hidle
  cases hresolve : t.resolve ⟨parts ++ [part]⟩ with
  | ok l =>
      obtain ⟨hnul, hlength, hl⟩ := resolve_eq_ok_iff.mp hresolve
      cases hlookup : t.lookup l with
      | none =>
          exact .inr ⟨hnul, hlength, parts ++ [part], [], l, (List.append_nil _).symm, hl, hlookup⟩
      | some entry =>
          simp only [hresolve, hlookup] at hmake
          exact .inl (hsettle _ hmake (by simp))
  | error e =>
      simp only [hresolve] at hmake
      by_cases he : e = .notFound
      · subst he
        unfold resolve at hresolve
        split at hresolve
        · cases hresolve
        · next hnul =>
            split at hresolve
            · cases hresolve
            · next hlength =>
                exact .inr ⟨Bool.eq_false_iff.mpr hnul, Nat.not_le.mp hlength,
                  exists_missing_of_follow hresolve⟩
      · exact .inl (hsettle e hmake he)

/-- The first directory that is missing is made. -/
theorem exists_madeBelow (hl : t.follow [] front = .ok l) (hnone : t.lookup l = none)
    (hnul : (Path.mk front).hasNul = false)
    (hlength : (Path.mk front).text.utf8ByteSize < lengthLimit) :
    ∃ base made, t.makeReversed front.reverse = (.ok (), made) ∧ MadeBelow l t made front base := by
  obtain ⟨outer, part, rfl, hidle⟩ := exists_concat_of_missing hl hnone
  have hmade : t.makeDirectory ⟨outer ++ [part]⟩ = .ok (t.put l .directory) := by
    simp only [makeDirectory_concat _ _ hidle, resolve_eq_follow hnul hlength, hl, hnone]
  have hadds : Adds (· <+: l) t (t.put l .directory) :=
    adds_put_directory hnone (List.prefix_refl _)
  have hroot : l ≠ [] := ne_nil_of_lookup_ne (t := t) (by simp [hnone])
  refine ⟨l, t.put l .directory, ?_, hadds.grows.follow hl, lookup_put_self t hroot _,
    List.prefix_refl _, hadds⟩
  rw [List.reverse_append]
  show t.makeReversed (part :: outer.reverse) = _
  rw [makeReversed_cons hidle, List.reverse_reverse, hmade]
  simp only [settleDirectory, hmade]

variable {back : List String}

/-- **If something is missing on the way and no `..` stands behind it, the directories are made**, one
in the other from there on, unless a name is too long. -/
theorem makeReversed_of_missing (ht : t.IsTree) (hl : t.follow [] front = .ok l)
    (hnone : t.lookup l = none) (hdown : ".." ∉ back)
    (hnul : (Path.mk (front ++ back.reverse)).hasNul = false)
    (hlength : (Path.mk (front ++ back.reverse)).text.utf8ByteSize < lengthLimit) :
    (∃ base made, t.makeReversed (back ++ front.reverse) = (.ok (), made) ∧
      MadeBelow l t made (front ++ back.reverse) base) ∨
    ∃ made, t.makeReversed (back ++ front.reverse) = (.error .nameTooLong, made) := by
  induction back with
  | nil =>
      rw [List.reverse_nil, List.append_nil] at hnul hlength ⊢
      exact .inl (exists_madeBelow hl hnone hnul hlength)
  | cons part outer ih =>
      rw [List.mem_cons, not_or] at hdown
      rw [List.reverse_cons, ← List.append_assoc] at hnul hlength ⊢
      have houterNul := hnul
      rw [hasNul_append, Bool.or_eq_false_iff] at houterNul
      have houterLength := Nat.lt_of_le_of_lt (size_le_append _ [part]) hlength
      have houter := ih hdown.2 houterNul.1 houterLength
      rw [List.cons_append]
      cases hidle : isIdle part with
      | true =>
          rw [makeReversed_cons_of_idle hidle]
          refine houter.imp_left ?_
          rintro ⟨base, made, hmade, hbelow⟩
          have hstay : made.follow base [part] = .ok base :=
            follow_idle (by simpa using hidle) hbelow.directory
          exact ⟨base, made, hmade, follow_append_eq_ok_iff.mpr ⟨base, hbelow.follow, hstay⟩,
            hbelow.directory, hbelow.below, hbelow.adds⟩
      | false =>
          have hreversed : (outer ++ front.reverse).reverse = front ++ outer.reverse := by simp
          rw [makeReversed_cons hidle, hreversed, makeDirectory_eq_notFound hl hnone hidle hnul hlength]
          rcases houter with ⟨base, made, hmade, hbelow⟩ | ⟨made, hmade⟩
          · have hfree := hbelow.lookup_concat_eq_none ht hnone part
            have hup : part ≠ ".." := Ne.symm hdown.1
            simp only [hmade, settleDirectory_concat hbelow.follow hbelow.directory hfree hidle hup
              hnul hlength]
            by_cases hlong : nameLimit < part.utf8ByteSize
            · rw [if_pos hlong]
              exact .inr ⟨made, rfl⟩
            · rw [if_neg hlong]
              exact .inl ⟨_, _, rfl, hbelow.step hfree hidle hup hlong⟩
          · simp only [hmade]
            exact .inr ⟨made, rfl⟩

end

end FileTree

end LiveDiagram
