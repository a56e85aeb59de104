import LiveDiagram.Proofs.Http.Routes
import LiveDiagram.Proofs.Json.ListForm

/-!
# Bodies that are no object

A write is meant to be sent as an object.  Its fields may all be left out, and so may they in the
list form: the empty list is a write of the empty text.  Whoever sends one, by mistake or not,
overwrites the document with nothing.

Apart from the four list forms, a body that does not begin as an object does is refused, whether it
is a value or not, and a write that is refused changes nothing.

## Main results

* `WriteRequest.parse_eq_ok_iff`: the writes that are not objects.
* `stray_body_law`: what the gateway makes of a body that is no object.
* `empty_list_overwrites`: a body that is no object and overwrites the document all the same.
-/

namespace LiveDiagram

open LiveDiagram.Json

/-- The write that a list stands for. -/
def WriteRequest.ofList? : List Value → Option WriteRequest
  | [] => some ⟨"", none⟩
  | [.string content] => some ⟨content, none⟩
  | [.string content, .null] => some ⟨content, none⟩
  | [.string content, .string source] => some ⟨content, some source⟩
  | _ => none

namespace WriteRequest

theorem map_ofList? (vs : List Value) :
    (shape.ofList? [] shape.fields vs).map (fun fs =>
      WriteRequest.mk ((fs.text? "content").getD "") (fs.text? "source")) = ofList? vs := by
  match vs with
  | [] => rfl
  | [v] => cases v <;> rfl
  | [v, w] => cases v <;> cases w <;> rfl
  | v :: w :: x :: rest => cases v <;> cases w <;> rfl

/-- Of the bodies that do not begin as an object does, a write is a list of one of four forms. -/
theorem parse_eq_ok_iff {body : Bytes} (hfront : (dropBlanks body).head? ≠ some Ascii.openBrace)
    {w : WriteRequest} :
    parse body = .ok w ↔ ∃ vs, Value.parse body = .ok (.array vs) ∧ ofList? vs = some w := by
  unfold parse
  constructor
  · intro hw
    cases hfields : shape.parse body with
    | error e =>
        rw [hfields] at hw
        cases hw
    | ok fs =>
        obtain ⟨vs, hvs, hlist⟩ := (shape.parse_eq_ok_iff hfront).mp hfields
        rw [hfields] at hw
        refine ⟨vs, hvs, ?_⟩
        rw [← map_ofList?, hlist]
        exact congrArg some (Except.ok.inj hw)
  · rintro ⟨vs, hvs, hlist⟩
    rw [← map_ofList?, Option.map_eq_some_iff] at hlist
    obtain ⟨fs, hfields, rfl⟩ := hlist
    rw [(shape.parse_eq_ok_iff hfront).mpr ⟨vs, hvs, hfields⟩]
    rfl

end WriteRequest

namespace Gateway

/-- **What becomes of a body that is no object**, sent to overwrite the document: of any bytes that
do not begin, behind blanks, with an opening brace.  If they are a list of one of the four forms,
the write it stands for is carried out, with the source that such a write has.  Otherwise they are
refused as invalid, with the status of a bad request, and nothing at all is changed: not the text,
not the version and no queue. -/
theorem stray_body_law {g : Gateway} {r : Request} (hopen : g.triggered = false)
    (hmethod : r.method = "PUT") (hpath : r.path = "/api/diagram")
    (hfront : (dropBlanks r.body).head? ≠ some Ascii.openBrace) :
    (∀ vs w, Value.parse r.body = .ok (.array vs) → WriteRequest.ofList? vs = some w →
      WriteRequest.parse r.body = .ok w ∧
      g.handle r = (.response (.json (WriteReceipt.write ⟨g.store.version.next⟩)),
        { g with store := (g.store.set w.content w.sourceName).2 })) ∧
    ((∀ vs, Value.parse r.body = .ok (.array vs) → WriteRequest.ofList? vs = none) →
      ∃ e, WriteRequest.parse r.body = .error e ∧
        (Response.failure (.invalidJson e)).status = 400 ∧
        g.handle r = (.response (.failure (.invalidJson e)), g)) := by
  have hroute := Request.route_eq_writeDocument_iff.mpr ⟨hmethod, hpath⟩
  rw [handle_writeDocument hopen hroute, writeDocument]
  constructor
  · intro vs w hvs hlist
    have hparse := (WriteRequest.parse_eq_ok_iff hfront).mpr ⟨vs, hvs, hlist⟩
    rw [hparse]
    exact ⟨rfl, rfl⟩
  · intro hnone
    cases hparse : WriteRequest.parse r.body with
    | error e => exact ⟨e, rfl, rfl, rfl⟩
    | ok w =>
        obtain ⟨vs, hvs, hlist⟩ := (WriteRequest.parse_eq_ok_iff hfront).mp hparse
        rw [hnone vs hvs] at hlist
        cases hlist

/-- A list of numbers is refused. -/
theorem stray_body_law_numbers :
    let g := Gateway.new (.new "precious" 16) .empty ⟨[]⟩
    let r : Request := ⟨"PUT", "/api/diagram", Utf8.encode "[1,2]"⟩
    g.triggered = false ∧ r.method = "PUT" ∧ r.path = "/api/diagram" ∧
      (dropBlanks r.body).head? ≠ some Ascii.openBrace ∧
      ∃ e, WriteRequest.parse r.body = .error e ∧
        (Response.failure (.invalidJson e)).status = 400 ∧
        g.handle r = (.response (.failure (.invalidJson e)), g) := by
  intro g r
  have hpath : r.path = "/api/diagram" := by decide +kernel
  have hfront : (dropBlanks r.body).head? ≠ some Ascii.openBrace := by decide +kernel
  have hvalue : Value.parse r.body =
      .ok (.array [.number (.integer 1), .number (.integer 2)]) := by rfl
  refine ⟨rfl, rfl, hpath, hfront, ?_⟩
  apply (stray_body_law rfl rfl hpath hfront).2
  intro vs hvs
  rw [hvalue] at hvs
  cases hvs
  rfl

/-- The empty list is no object, and overwrites the document with nothing. -/
theorem empty_list_overwrites :
    let g := Gateway.new (.new "precious" 16) .empty ⟨[]⟩
    let r : Request := ⟨"PUT", "/api/diagram", Utf8.encode "[]"⟩
    Value.parse r.body = .ok (.array []) ∧ (∀ ms, Value.array [] ≠ .object ms) ∧
      ¬ (∃ e, WriteRequest.parse r.body = .error e) ∧
      (g.handle r).1 = .response (.json (WriteReceipt.write ⟨⟨2⟩⟩)) ∧
      g.store.content = "precious" ∧ (g.handle r).2.store.content = "" := by
  intro g r
  have hparse : WriteRequest.parse r.body = .ok ⟨"", none⟩ := by rfl
  refine ⟨rfl, by simp, ?_, by decide +kernel, rfl, by decide +kernel⟩
  · rintro ⟨e, he⟩
    rw [hparse] at he
    cases he

end Gateway

end LiveDiagram
