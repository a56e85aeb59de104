import LiveDiagram.Document.Store
import LiveDiagram.Proofs.Json.ObjectForm

/-!
# Writes that are objects

The reader of writes knows two keys and passes over everything else without building it, while
preferences are read by a reader that builds the whole object.  A body that the second accepts is
therefore read twice over, by two readers with different opinions of numbers, surrogates and depth, and
this module says that on such bodies they agree.

What the object says is not quite enough to know what the write is: of two members with one key the
object keeps the last, and the write is refused.

## Main results

* `WriteRequest.parse_object_law`: which objects are writes, and what such a write does to a store.
-/

namespace LiveDiagram

open LiveDiagram.Json

namespace WriteRequest

/-- The text that an object asks to write: the empty one if it has none, and nothing if what it has is no
text. -/
def contentOf? (m : Members) : Option String :=
  match Members.lookup "content" m with
  | none => some ""
  | some (.string t) => some t
  | some _ => none

/-- The source that an object gives a write: `api` if it names none or the empty one, and nothing if what
it has is neither a text nor null. -/
def sourceOf? (m : Members) : Option String :=
  match Members.lookup "source" m with
  | none | some .null => some "api"
  | some (.string t) => some (if t = "" then "api" else t)
  | some _ => none

/-- What is said of both fields is said of every field. -/
theorem forall_field_iff {P : String → FieldType → Prop} :
    (∀ key type, shape.fields.lookup key = some type → P key type) ↔
      P "content" .text ∧ P "source" .optionalText := by
  constructor
  · intro hall
    exact ⟨hall _ _ (by decide), hall _ _ (by decide)⟩
  · rintro ⟨hcontent, hsource⟩ key type hkey
    rw [shape, List.lookup_cons] at hkey
    split at hkey
    · next hname =>
        obtain rfl := eq_of_beq hname
        cases hkey
        exact hcontent
    · rw [List.lookup_cons] at hkey
      split at hkey
      · next hname =>
          obtain rfl := eq_of_beq hname
          cases hkey
          exact hsource
      · cases hkey

section

variable {entries m : Members} (h : Gathers entries m)
include h

/-- **Which objects are writes.** -/
theorem isSome_fill?_iff :
    (shape.fill? [] entries).isSome ↔
      (occurrences "content" entries ≤ 1 ∧ (contentOf? m).isSome) ∧
        occurrences "source" entries ≤ 1 ∧ (sourceOf? m).isSome := by
  have hcontent : (∀ v, Members.lookup "content" m = some v → (FieldType.text.ofValue? v).isSome) ↔
      (contentOf? m).isSome := by
    unfold contentOf?
    cases Members.lookup "content" m with
    | none => simp
    | some v => cases v <;> simp [FieldType.ofValue?]
  have hsource : (∀ v, Members.lookup "source" m = some v →
      (FieldType.optionalText.ofValue? v).isSome) ↔ (sourceOf? m).isSome := by
    unfold sourceOf?
    cases Members.lookup "source" m with
    | none => simp
    | some v => cases v <;> simp [FieldType.ofValue?]
  rw [Shape.isSome_fill?_iff_of_gathers h, forall_field_iff, hcontent, hsource]

/-- A write that was read from an object has the text and the source that the object says. -/
theorem of_fill? {fs : Fields} (hfill : shape.fill? [] entries = some fs) {content source : String}
    (hcontent : contentOf? m = some content) (hsource : sourceOf? m = some source) :
    (fs.text? "content").getD "" = content ∧
      ∀ text, sourceName ⟨text, fs.text? "source"⟩ = source := by
  have hfirst : fs.get? "content" =
      (Members.lookup "content" m).bind FieldType.text.ofValue? :=
    Shape.get?_of_gathers h hfill (by decide)
  have hsecond : fs.get? "source" =
      (Members.lookup "source" m).bind FieldType.optionalText.ofValue? :=
    Shape.get?_of_gathers h hfill (by decide)
  unfold contentOf? at hcontent
  unfold sourceOf? at hsource
  constructor
  · rw [Fields.text?, hfirst]
    cases hlookup : Members.lookup "content" m with
    | none =>
        rw [hlookup] at hcontent
        exact Option.some.inj hcontent
    | some v =>
        rw [hlookup] at hcontent
        cases v with
        | string t => exact Option.some.inj hcontent
        | _ => cases hcontent
  · intro text
    rw [sourceName, Fields.text?, hsecond]
    cases hlookup : Members.lookup "source" m with
    | none =>
        rw [hlookup] at hsource
        exact Option.some.inj hsource
    | some v =>
        rw [hlookup] at hsource
        cases v with
        | null => exact Option.some.inj hsource
        | string t => exact Option.some.inj hsource
        | _ => cases hsource

end

/-- **The reader of writes agrees with the reader of objects.**  Take any bytes that are read as an object.
They list members, and whatever members they list make that object.  If neither `content` nor `source`
is the key of two of them, and the object has a text or nothing for the one and a text, null or nothing
for the other, then the bytes are a write, and to any store it does what the object says: the text
becomes the object's text, under the next version, and the event that listeners are offered has the
object's source, or `api` for none.  In all other cases the bytes are refused. -/
theorem parse_object_law {b : Bytes} {m : Members} (hparse : Members.parse b = .ok m) :
    (∃ entries, Lists b entries) ∧ ∀ entries, Lists b entries →
      Gathers entries m ∧
      (∀ content source, occurrences "content" entries ≤ 1 → occurrences "source" entries ≤ 1 →
        contentOf? m = some content → sourceOf? m = some source →
        ∃ w, WriteRequest.parse b = .ok w ∧ ∀ s : Store,
          (s.apply w).1 = s.version.next ∧
          (s.apply w).2 = ⟨content, s.version.next,
            (s.registry.broadcast ⟨content, source, s.version.next⟩).2⟩) ∧
      (1 < occurrences "content" entries ∨ 1 < occurrences "source" entries ∨
          contentOf? m = none ∨ sourceOf? m = none →
        ∃ e, WriteRequest.parse b = .error e) := by
  refine ⟨exists_lists_of_parse hparse, fun entries hlists => ?_⟩
  have hgathers := hlists.gathers hparse
  refine ⟨hgathers, ?_, ?_⟩
  · intro content source hcontentOnce hsourceOnce hcontent hsource
    have hsome : (shape.fill? [] entries).isSome :=
      (isSome_fill?_iff hgathers).mpr
        ⟨⟨hcontentOnce, by rw [hcontent]; rfl⟩, hsourceOnce, by rw [hsource]; rfl⟩
    obtain ⟨fs, hfill⟩ := Option.isSome_iff_exists.mp hsome
    have hfields : shape.parse b = .ok fs :=
      (shape.parse_eq_ok_iff_of_lists hlists).mpr ⟨hfill, rfl⟩
    obtain ⟨htext, hname⟩ := of_fill? hgathers hfill hcontent hsource
    refine ⟨⟨content, fs.text? "source"⟩, ?_, fun s => ⟨rfl, ?_⟩⟩
    · rw [WriteRequest.parse, hfields, ← htext]
      rfl
    · rw [Store.apply, hname]
      rfl
  · intro hodd
    have hnone : ¬ (shape.fill? [] entries).isSome := by
      rw [isSome_fill?_iff hgathers]
      rintro ⟨⟨hcontentOnce, hcontent⟩, hsourceOnce, hsource⟩
      rcases hodd with htwice | htwice | hbad | hbad
      · omega
      · omega
      · rw [hbad] at hcontent
        cases hcontent
      · rw [hbad] at hsource
        cases hsource
    cases hfields : shape.parse b with
    | ok fs =>
        have hfill := ((shape.parse_eq_ok_iff_of_lists hlists).mp hfields).1
        exact absurd (Option.isSome_of_eq_some hfill) hnone
    | error e =>
        refine ⟨e, ?_⟩
        rw [WriteRequest.parse, hfields]
        rfl

/-- Unknown members may hold anything, also the known keys, and keys may be escaped; but a key may not
be given twice. -/
theorem parse_object_law_nested_and_twice :
    let nested := Utf8.encode
      "\x7b\"x\":[\x7b\"content\":1\x7d],\"s\\u006furce\":\"\",\"content\":\"hi\"\x7d"
    let twice := Utf8.encode "\x7b\"content\":\"a\",\"content\":\"b\"\x7d"
    ((∃ m, Members.parse nested = .ok m) ∧ ∃ w, WriteRequest.parse nested = .ok w ∧ ∀ s : Store,
      (s.apply w).1 = s.version.next ∧
      (s.apply w).2 = ⟨"hi", s.version.next,
        (s.registry.broadcast ⟨"hi", "api", s.version.next⟩).2⟩) ∧
    (∃ m, Members.parse twice = .ok m) ∧ ∃ e, WriteRequest.parse twice = .error e := by
  intro nested twice
  have hnested : Members.parse nested = .ok [("content", .string "hi"), ("source", .string ""),
      ("x", .array [.object [("content", .number (.integer 1))]])] := by rfl
  have hnestedLists : Lists nested [("x", .array [.object [("content", .number (.integer 1))]]),
      ("source", .string ""), ("content", .string "hi")] :=
    ⟨_, _, rfl, .item .first (.mk (unescapes_of_literal rfl) rfl rfl)
      (.item (.next rfl) (.mk (unescapes_of_literal rfl) rfl rfl)
        (.item (.next rfl) (.mk (unescapes_of_literal rfl) rfl rfl) (.close rfl))), rfl⟩
  have htwice : Members.parse twice = .ok [("content", .string "b")] := by rfl
  have htwiceLists : Lists twice [("content", .string "a"), ("content", .string "b")] :=
    ⟨_, _, rfl, .item .first (.mk (unescapes_of_literal rfl) rfl rfl)
      (.item (.next rfl) (.mk (unescapes_of_literal rfl) rfl rfl) (.close rfl)), rfl⟩
  obtain ⟨-, hwrite, -⟩ := (parse_object_law hnested).2 _ hnestedLists
  obtain ⟨-, -, hrefuse⟩ := (parse_object_law htwice).2 _ htwiceLists
  exact ⟨⟨⟨_, hnested⟩, hwrite "hi" "api" (by decide) (by decide) rfl rfl⟩, ⟨_, htwice⟩,
    hrefuse (.inl (by decide))⟩

end WriteRequest

end LiveDiagram
