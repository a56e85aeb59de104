import LiveDiagram.Proofs.Files.Stored
import LiveDiagram.Proofs.Json.Storable

/-!
# Numbers in stored preferences

A double is stored as the shortest decimal that it stands for, and rounding that decimal once would give
the double back.  The reader rounds more than once, and so may make a neighbour of it.  What is loaded is
therefore the object with each double read again, and everything else as it was saved.

Doubles with a short numeral stay as they are.  With any others, loading and saving need not come to
rest: there are doubles that move on by one place in every round, always in the same direction.

## Main results

* `stored_numbers`: what is loaded, once and after any number of rounds.
* `stored_number_lost`: a setting that is loaded as another number.
-/

namespace LiveDiagram

open LiveDiagram.Json

namespace Preferences

variable {p : Preferences} {t t' : FileTree} {m : Members}

/-- Loads the preferences and saves them, a number of times. -/
def resave (p : Preferences) : Nat → FileTree → Except Error Unit × FileTree
  | 0, t => (.ok (), t)
  | n + 1, t =>
    match p.load t with
    | .error e => (.error e, t)
    | .ok m =>
      match p.save t m with
      | (.error e, t) => (.error e, t)
      | (.ok (), t) => p.resave n t

/-- Whatever is saved from a text, the text holds an object that can be written. -/
theorem exists_save_of_saveRaw {body : Bytes} (h : p.saveRaw t body = (.ok (), t')) :
    ∃ m, Members.parse body = .ok m ∧ Normal Number.Storable depthLimit (.object m) ∧
      p.save t m = (.ok (), t') := by
  unfold saveRaw at h
  split at h
  · cases h
  · next m hparse => exact ⟨m, hparse, normal_of_parse hparse, h⟩

theorem load_stored (hm : Normal Number.Storable depthLimit (.object m))
    (h : p.save t m = (.ok (), t')) : p.load t' = .ok m.reread :=
  load_of_save_mapNumbers writesAs_stored hm h

/-- Each round reads every double once more. -/
theorem resave_stored (hm : Normal Number.Storable depthLimit (.object m))
    (h : p.save t m = (.ok (), t')) (n : Nat) :
    ∃ t'', p.resave n t' = (.ok (), t'') ∧ p.load t'' = .ok (Members.reread^[n + 1] m) := by
  induction n generalizing m t t' with
  | zero => exact ⟨t', rfl, load_stored hm h⟩
  | succ n ih =>
      have hload := load_stored hm h
      obtain ⟨saved, hsaved⟩ := exists_save_eq_ok h m.reread
      obtain ⟨t'', hrounds, hlast⟩ := ih (hm.mapNumbers fun _ => Number.Storable.reread) hsaved
      refine ⟨t'', ?_, hlast⟩
      rw [resave, hload]
      simp only [hsaved]
      exact hrounds

/-- With nothing but short numerals, no round changes anything. -/
theorem resave_short (hm : Normal Number.ShortlyStorable depthLimit (.object m))
    (h : p.save t m = (.ok (), t')) (n : Nat) : p.resave n t' = (.ok (), t') := by
  have hload := load_stored (hm.mono fun _ => Number.ShortlyStorable.storable) h
  rw [Members.reread_eq_self hm] at hload
  induction n with
  | zero => rfl
  | succ n ih =>
      rw [resave, hload]
      simp only [(save_eq_ok h).2]
      exact ih

/-- **Numbers in preferences**, for every object that is saved: its numbers are finite, and it has no
more brackets open at once than the reader allows.  Every text that is saved holds such an object.

It is loaded with each double read again, and so it is after any number of rounds of loading and saving,
none of which fails.  If all its numerals are short, that is the object itself: it is loaded as it was
saved, putting its text saves it, getting it gives that text, and no round changes anything.

The numeral of a double is a decimal that the double stands for, so a reader that rounds once would give
the double back.  This one finds it in range and gives `Decimal.reread`, which is finite again and is the
double itself if the numeral is short. -/
theorem stored_numbers (hm : Normal Number.Storable depthLimit (.object m))
    (h : p.save t m = (.ok (), t')) :
    (∀ body saved, p.saveRaw t body = (.ok (), saved) →
        ∃ m', Members.parse body = .ok m' ∧ Normal Number.Storable depthLimit (.object m') ∧
          p.save t m' = (.ok (), saved)) ∧
      p.load t' = .ok m.reread ∧
      (∀ n, ∃ t'', p.resave n t' = (.ok (), t'') ∧
        p.load t'' = .ok (Members.reread^[n + 1] m)) ∧
      (Normal Number.ShortlyStorable depthLimit (.object m) →
        m.reread = m ∧ p.saveRaw t m.write = (.ok (), t') ∧ p.loadRaw t' = .ok m.write ∧
          ∀ n, p.resave n t' = (.ok (), t')) ∧
      ∀ x : Float, x.isFinite = true →
        (x.toBits.toNat % Decimal.signUnit ≠ 0 → (Decimal.Binary.ofFloat x).Covers
          ((Decimal.spelled x).significand * 10 ^ (Decimal.spelled x).exponent)) ∧
        (Decimal.spelled x).toFloat? (Decimal.isNegative x) = some (Decimal.reread x) ∧
        (Decimal.reread x).isFinite = true ∧
        (Decimal.Short x → Decimal.reread x = x) := by
  refine ⟨fun body saved => exists_save_of_saveRaw, load_stored hm h, resave_stored hm h,
    fun hshort => ?_, fun x hx => ?_⟩
  · have hsame := Members.reread_eq_self hshort
    have hparse : Members.parse m.write = .ok m.reread := parse_write writesAs_stored hm
    refine ⟨hsame, ?_, (save_eq_ok h).1, resave_short hshort h⟩
    rw [saveRaw, hparse, hsame]
    exact h
  · exact ⟨fun hzero => (Decimal.covers_spelled hx hzero).1, Decimal.toFloat?_spelled hx,
      Decimal.isFinite_reread hx, Decimal.reread_eq_self hx⟩

/-- The largest whole number, a negative zero, a fraction, and small and large powers of ten. -/
theorem stored_numbers_short :
    let p : Preferences := ⟨⟨["state"]⟩⟩
    let m : Members := [("grid", .number (.integer 18446744073709551615)),
      ("pan", .array [.number (.float (-0.0)), .number (.float 1e-7), .number (.float (-123.456))]),
      ("zoom", .number (.float 6.02e23))]
    let t := (p.save .empty m).2
    Normal Number.Storable depthLimit (.object m) ∧ p.save .empty m = (.ok (), t) ∧
      p.load t = .ok m ∧
      p.loadRaw t = .ok (Utf8.encode
        "\x7b\"grid\":18446744073709551615,\"pan\":[-0.0,1e-7,-123.456],\"zoom\":6.02e+23\x7d") ∧
      ∀ n, p.resave n t = (.ok (), t) := by
  intro p m t
  have hshort : Normal Number.ShortlyStorable depthLimit (.object m) := by
    refine .object (by decide +kernel) ?_
    simp only [m, List.forall_mem_cons]
    refine ⟨.number (.integer (by decide) (by decide)), .array ?_,
      .number (.float (by decide +kernel) (by decide +kernel)), fun _ h => absurd h List.not_mem_nil⟩
    simp only [List.forall_mem_cons]
    exact ⟨.number (.float (by decide +kernel) (by decide +kernel)),
      .number (.float (by decide +kernel) (by decide +kernel)),
      .number (.float (by decide +kernel) (by decide +kernel)), fun _ h => absurd h List.not_mem_nil⟩
  have hstorable := hshort.mono fun _ => Number.ShortlyStorable.storable
  have hsaved : p.save .empty m = (.ok (), t) := Prod.ext (by decide +kernel) rfl
  obtain ⟨-, hload, -, hrounds, -⟩ := stored_numbers hstorable hsaved
  obtain ⟨hsame, -, -, hstays⟩ := hrounds hshort
  rw [hsame] at hload
  exact ⟨hstorable, hsaved, hload, by decide +kernel, hstays⟩

/-- A setting that is sent, stored and loaded as another number. -/
theorem stored_number_lost :
    let p : Preferences := ⟨⟨["state"]⟩⟩
    let x := Float.ofBits 0x3feff1af9daa797f
    let y := Float.ofBits 0x3feff1af9daa7980
    let m : Members := [("zoom", .number (.float x))]
    let t := (p.save .empty m).2
    x.isFinite = true ∧ p.save .empty m = (.ok (), t) ∧
      p.loadRaw t = .ok (Utf8.encode "\x7b\"zoom\":0.9982526854908399\x7d") ∧
      p.load t = .ok [("zoom", .number (.float y))] ∧ y ≠ x ∧
      p.loadRaw (p.saveRaw .empty (Utf8.encode "\x7b\"zoom\":0.9982526854908399\x7d")).2 =
        .ok (Utf8.encode "\x7b\"zoom\":0.99825268549084\x7d") := by
  intro p x y m t
  have hx : x.isFinite = true := by decide +kernel
  have hsaved : p.save .empty m = (.ok (), t) := Prod.ext (by decide +kernel) rfl
  have hm : Normal Number.Storable depthLimit (.object m) :=
    .object (List.pairwise_singleton _ _) (List.forall_mem_singleton.mpr (.number (.float hx)))
  have hreread : Decimal.reread x = y := by decide +kernel
  have hload := load_stored hm hsaved
  refine ⟨hx, hsaved, by decide +kernel, hload.trans ?_, by decide +kernel, by decide +kernel⟩
  show Except.ok [("zoom", Value.number (.float (Decimal.reread x)))] = _
  rw [hreread]

/-- A double that moves on in every round. -/
example :
    let x := Float.ofBits 0x7a08ac852e34d700
    (List.range 9).map (fun n => (Decimal.reread^[n] x).toBits.toNat - x.toBits.toNat) =
      [0, 1, 2, 3, 4, 5, 6, 7, 8] := by
  decide +kernel

end Preferences

end LiveDiagram
