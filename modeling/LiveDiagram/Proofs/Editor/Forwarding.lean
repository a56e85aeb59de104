import LiveDiagram.Proofs.Document.Entries
import LiveDiagram.Proofs.Document.Wire
import LiveDiagram.Proofs.Editor.Address
import LiveDiagram.Proofs.Editor.StateDirectory
import LiveDiagram.Proofs.Http.Routes

/-!
# Sending a document

What a second process sends to the instance that runs is a write like any other.  Its text is spelled
as a literal, read by the gateway, stored and announced; the version comes back in a receipt, which
the sender takes for text before it reads it.  None of these steps loses anything, whatever the text
and whatever the version.

## Main results

* `Forward.outcome_receipt`: the sender finds in the answer the version that was given.
* `Forward.forward_law`: a document sent is a document written.
-/

namespace LiveDiagram

/-! ## Listeners -/

/-- What listeners get of an event: one copy in every queue with room, and nothing else.  By its id a
listener is found in a well formed registry, which every registry of a run is. -/
structure Registry.Informed (before after : Registry) (e : ChangeEvent) : Prop where
  delivered : ∀ s ∈ before.subscriptions, s.registered = true → s.held = true →
    s.queue.length < before.capacity → { s with queue := s.queue ++ [e] } ∈ after.subscriptions
  found : before.WellFormed → ∀ id s, before.find? id = some s →
    after.find? id = some
      (if s.registered = true ∧ s.queue.length < before.capacity then
        { s with queue := s.queue ++ [e] }
      else s)

theorem Registry.informed_broadcast (r : Registry) (e : ChangeEvent) :
    r.Informed (r.broadcast e).2 e where
  delivered := by
    intro s hs hregistered hheld hroom
    have hafter : s.afterOffer r.capacity e = { s with queue := s.queue ++ [e] } := by
      rw [Subscription.afterOffer_of_held r.capacity e hheld, if_pos ⟨hregistered, hroom⟩]
    rw [← hafter]
    apply List.mem_filter.mpr
    refine ⟨List.mem_map_of_mem hs, ?_⟩
    rw [hafter, Subscription.isLive, hregistered]
    rfl
  found := by
    intro hwf id s hfind
    have hheld : s.held = true := ((Registry.find?_eq_some_iff hwf id s).mp hfind).2
    rw [Registry.find?_broadcast hwf, hfind, Option.map_some,
      Subscription.afterOffer_of_held r.capacity e hheld]

/-! ## Writes from the command line -/

/-- The gateway after a document was sent to it. -/
def Gateway.forwarded (g : Gateway) (content : String) : Gateway :=
  { g with store := (g.store.set content Source.cli.name).2 }

namespace Forward

/-- The body that is sent is read as the write it was meant to be. -/
theorem writeDocument_request (g : Gateway) (u : Url) (content : String) :
    g.writeDocument (request u content).body =
      (.json (WriteReceipt.write ⟨g.store.version.next⟩), g.forwarded content) := by
  have hsource : (WriteRequest.mk content (some Source.cli.name)).sourceName = Source.cli.name := by
    rw [WriteRequest.sourceName]
    exact if_neg (by decide)
  rw [Gateway.writeDocument, request, WriteRequest.parse_write]
  simp only [Store.apply, hsource]
  rfl

/-! ## Receipts -/

theorem isAscii_receipt (v : Version) : ∀ x ∈ WriteReceipt.write ⟨v⟩, x.toNat < 0x80 := by
  have hkey : ∀ x ∈ Json.writeLiteral "version", x.toNat < 0x80 := by decide +kernel
  intro x hx
  rw [WriteReceipt.write_eq] at hx
  simp only [List.mem_cons, List.mem_append, List.not_mem_nil, or_false] at hx
  rcases hx with rfl | hx | rfl | hx | rfl
  · decide
  · exact hkey x hx
  · decide
  · have hdigit := Ascii.toNat_of_isDigit (Decimal.isDigit_of_mem_numeral hx)
    omega
  · decide

theorem outcome_receipt (u : Url) (v : Version) :
    outcome u (.ok (.json (WriteReceipt.write ⟨v⟩))) = .ok v := by
  have hascii := Ascii.encode_text (isAscii_receipt v)
  have htext : Utf8.encode (Utf8.decode (WriteReceipt.write ⟨v⟩)) = WriteReceipt.write ⟨v⟩ := by
    rw [← hascii, Utf8.decode_encode]
  have hstatus : ¬ 400 ≤ 200 := by omega
  simp only [outcome, Response.json, if_neg hstatus, htext, WriteReceipt.parse_write]

/-! ## The exchange -/

theorem send_eq {g : Gateway} (hopen : g.triggered = false) {u : Url} {content : String}
    (hpath : (request u content).path = "/api/diagram") :
    send none g u content = (.ok g.store.version.next, g.forwarded content) := by
  have hroute := Request.route_eq_writeDocument_iff.mpr ⟨rfl, hpath⟩
  rw [send, Gateway.handle_writeDocument hopen hroute, writeDocument_request]
  simp only [outcome_receipt]

theorem path_request_ofPort (port : UInt16) (content : String) :
    (request (Url.ofPort port) content).path = "/api/diagram" := by
  have hpath : (Request.mk "PUT" "/api/diagram" []).path = "/api/diagram" := by decide +kernel
  exact hpath

theorem push_url {g : Gateway} (hopen : g.triggered = false) (port : UInt16) (content : String) :
    push (fun _ => none) g (Instance.url port) content =
      (.ok g.store.version.next, g.forwarded content) := by
  rw [push, target_url]
  exact send_eq hopen (path_request_ofPort port content)

/-- **A document sent is a document written.**  Whatever the text, the version and the listeners:

* the body of the request, handled as a write, gives an answer in which the sender finds the next
  version;
* so does the whole exchange, at any address of which the path is that of the document, and above
  all at the address of an instance, whatever its port;
* afterwards the store holds that text under that version, and every listener with room has the
  event of it, from the command line, behind what it had.

The version is the next whole number, as long as there is one below `2 ^ 64`. -/
theorem forward_law (g : Gateway) (content : String) :
    let next := g.store.version.next
    let event : ChangeEvent := ⟨content, "cli", next⟩
    (∀ u, outcome u (.ok (g.writeDocument (request u content).body).1) = .ok next ∧
      (g.writeDocument (request u content).body).2 = g.forwarded content) ∧
    (g.triggered = false → ∀ base u, target base = .ok u →
      (request u content).path = "/api/diagram" →
        push (fun _ => none) g base content = (.ok next, g.forwarded content)) ∧
    (g.triggered = false → ∀ port,
      push (fun _ => none) g (Instance.url port) content = (.ok next, g.forwarded content)) ∧
    (g.forwarded content).store.snapshot = ⟨content, next⟩ ∧
    (g.store.version.number.toNat + 1 < UInt64.size →
      next.number.toNat = g.store.version.number.toNat + 1) ∧
    g.store.registry.Informed (g.forwarded content).store.registry event := by
  intro next event
  refine ⟨?_, ?_, fun hopen port => push_url hopen port content, rfl, ?_,
    g.store.registry.informed_broadcast event⟩
  · intro u
    rw [writeDocument_request]
    exact ⟨outcome_receipt u next, rfl⟩
  · intro hopen base u htarget hpath
    rw [push, htarget]
    exact send_eq hopen hpath
  · intro hfits
    show (g.store.version.number + 1).toNat = _
    rw [UInt64.toNat_add]
    exact Nat.mod_eq_of_lt hfits

/-- The empty text, sent to an instance with one listener that has room for one event. -/
theorem forward_law_empty_text :
    let g : Gateway := Gateway.new
      { Store.new "precious" 1 with registry := ((Registry.empty 1).subscribe true).2 } .empty ⟨[]⟩
    g.triggered = false ∧ g.store.registry.WellFormed ∧
      (∃ s, g.store.registry.find? 1 = some s ∧ s.registered = true ∧
        s.queue.length < g.store.registry.capacity) ∧
      target (Instance.url 8080) = .ok (Url.ofPort 8080) ∧
      (request (Url.ofPort 8080) "").path = "/api/diagram" ∧
      push (fun _ => none) g (Instance.url 8080) "" = (.ok ⟨2⟩, g.forwarded "") ∧
      (g.forwarded "").store.snapshot = ⟨"", ⟨2⟩⟩ ∧
      ((g.forwarded "").store.registry.find? 1).map (·.queue) = some [⟨"", "cli", ⟨2⟩⟩] := by
  intro g
  obtain ⟨hbody, hbase, hport, hsnapshot, hversion, hinformed⟩ := forward_law g ""
  have hwf : g.store.registry.WellFormed :=
    Registry.wellFormed_subscribe (Registry.wellFormed_empty 1) true
  have hfind : g.store.registry.find? 1 = some ⟨1, true, true, true, []⟩ := rfl
  have hpath := path_request_ofPort 8080 ""
  refine ⟨rfl, hwf, ⟨_, hfind, rfl, by decide⟩, target_url 8080, hpath,
    hbase rfl _ _ (target_url 8080) hpath, hsnapshot, ?_⟩
  rw [hinformed.found hwf 1 _ hfind]
  rfl

end Forward

end LiveDiagram
