import LiveDiagram.Document.Basic
import LiveDiagram.Proofs.Json.ReadBack

/-!
# The document on the wire

Snapshots, change events, writes and receipts are written as objects without blanks.  Whoever
receives one can read it back: a snapshot by any reader of JSON, the others by the record readers of
this library.

## Main results

* `Version.parse_numeral`: a version reads back from its numeral.
* `ChangeEvent.parse_write`, `WriteReceipt.parse_write`: events and receipts read back as they were.
* `WriteRequest.parse_write`: what a writer sends is what is carried out.
* `Snapshot.parse_write`: a snapshot reads as the object of its text and its version.
-/

namespace LiveDiagram

open LiveDiagram.Json LiveDiagram.Ascii

/-! ## Versions -/

theorem Version.parse_numeral (v : Version) : Version.parse v.numeral = .ok v := by
  have hread := @unsigned_numeral _ v.number.toNat_lt [] rfl
  rw [List.append_nil, Nat.toUInt64, UInt64.ofNat_toNat] at hread
  rw [Version.parse, parseUnsigned, Version.numeral, document_eq_ok hread]
  rfl

/-! ## Change events -/

theorem ChangeEvent.write_eq (e : ChangeEvent) :
    e.write = openBrace :: (writeLiteral "content" ++ colon :: (writeLiteral e.content ++
      comma :: (writeLiteral "source" ++ colon :: (writeLiteral e.source ++
        comma :: (writeLiteral "version" ++ colon ::
          (Decimal.numeral e.version.number.toNat ++ [closeBrace])))))) := by
  simp only [ChangeEvent.write, ChangeEvent.toJson, Version.toJson, Value.write, Value.writeMembers,
    List.append_assoc, List.cons_append]
  rfl

theorem ChangeEvent.parse_write (e : ChangeEvent) : ChangeEvent.parse e.write = .ok e := by
  have hread : ChangeEvent.shape.read e.write.length e.write = .ok
      ([("version", .word e.version.number), ("source", .text e.source),
        ("content", .text e.content)], []) := by
    obtain ⟨bound, hbound⟩ : ∃ bound, e.write.length = bound + 4 :=
      ⟨e.write.length - 4, by
        rw [write_eq]
        simp only [List.length_cons, List.length_append]
        omega⟩
    rw [hbound, write_eq, Shape.read, dropBlanks_cons (by decide)]
    dsimp only
    rw [if_neg (by decide), if_pos rfl, members_first,
      Shape.member_colon rfl rfl (FieldType.read_text _ _)]
    dsimp only [Except.bind]
    rw [members_next, Shape.member_colon rfl rfl (FieldType.read_text _ _)]
    dsimp only [Except.bind]
    rw [members_next, Shape.member_colon rfl rfl (FieldType.read_word _ rfl)]
    dsimp only [Except.bind]
    rw [members_close]
    rfl
  rw [ChangeEvent.parse, Shape.parse, document_eq_ok hread]
  rfl

/-! ## Writes -/

theorem WriteRequest.write_eq (content : String) (source : Source) :
    WriteRequest.write content source = openBrace :: (writeLiteral "content" ++ colon ::
      (writeLiteral content ++ comma :: (writeLiteral "source" ++ colon ::
        (writeLiteral source.name ++ [closeBrace])))) := by
  simp only [WriteRequest.write, Value.write, Value.writeMembers, List.append_assoc,
    List.cons_append]

theorem WriteRequest.parse_write (content : String) (source : Source) :
    WriteRequest.parse (WriteRequest.write content source) = .ok ⟨content, some source.name⟩ := by
  have hread : WriteRequest.shape.read (WriteRequest.write content source).length
      (WriteRequest.write content source) =
        .ok ([("source", .text source.name), ("content", .text content)], []) := by
    obtain ⟨bound, hbound⟩ : ∃ bound, (WriteRequest.write content source).length = bound + 3 :=
      ⟨(WriteRequest.write content source).length - 3, by
        rw [write_eq]
        simp only [List.length_cons, List.length_append]
        omega⟩
    rw [hbound, write_eq, Shape.read, dropBlanks_cons (by decide)]
    dsimp only
    rw [if_neg (by decide), if_pos rfl, members_first,
      Shape.member_colon rfl rfl (FieldType.read_text _ _)]
    dsimp only [Except.bind]
    rw [members_next, Shape.member_colon rfl rfl (FieldType.read_optionalText _ _)]
    dsimp only [Except.bind]
    rw [members_close]
    rfl
  rw [WriteRequest.parse, Shape.parse, document_eq_ok hread]
  rfl

/-! ## Receipts -/

theorem WriteReceipt.write_eq (r : WriteReceipt) :
    r.write = openBrace :: (writeLiteral "version" ++ colon ::
      (Decimal.numeral r.version.number.toNat ++ [closeBrace])) := by
  simp only [WriteReceipt.write, Version.toJson, Value.write, Value.writeMembers,
    List.append_assoc, List.cons_append]
  rfl

theorem WriteReceipt.parse_write (r : WriteReceipt) : WriteReceipt.parse r.write = .ok r := by
  have hread : WriteReceipt.shape.read r.write.length r.write =
      .ok ([("version", .word r.version.number)], []) := by
    obtain ⟨bound, hbound⟩ : ∃ bound, r.write.length = bound + 2 :=
      ⟨r.write.length - 2, by
        rw [write_eq]
        simp only [List.length_cons, List.length_append]
        omega⟩
    rw [hbound, write_eq, Shape.read, dropBlanks_cons (by decide)]
    dsimp only
    rw [if_neg (by decide), if_pos rfl, members_first,
      Shape.member_colon rfl rfl (FieldType.read_word _ rfl)]
    dsimp only [Except.bind]
    rw [members_close]
    rfl
  rw [WriteReceipt.parse, Shape.parse, document_eq_ok hread]
  rfl

/-! ## Snapshots -/

theorem Snapshot.write_eq (s : Snapshot) :
    s.write = openBrace :: (writeLiteral "content" ++ colon :: (writeLiteral s.content ++
      comma :: (writeLiteral "version" ++ colon ::
        (Decimal.numeral s.version.number.toNat ++ [closeBrace])))) := by
  simp only [Snapshot.write, Version.toJson, Value.write, Value.writeMembers,
    List.append_assoc, List.cons_append]
  rfl

theorem Snapshot.parse_write (s : Snapshot) :
    Value.parse s.write = .ok (.object
      [("content", .string s.content),
        ("version", .number (.integer s.version.number.toNat))]) := by
  apply document_eq_ok
  obtain ⟨bound, hbound⟩ : ∃ bound, s.write.length = bound + 3 :=
    ⟨s.write.length - 3, by
      rw [write_eq]
      simp only [List.length_cons, List.length_append]
      omega⟩
  rw [hbound, write_eq, depthLimit, value_openBrace, members_first,
    memberOf_colon "content" [] (value_writeLiteral _ _ _ _)]
  dsimp only [Except.bind]
  rw [members_next, memberOf_colon "version" _ (value_numeral s.version.number.toNat_lt _ _ rfl)]
  dsimp only [Except.bind]
  rw [members_close]
  rfl

end LiveDiagram
