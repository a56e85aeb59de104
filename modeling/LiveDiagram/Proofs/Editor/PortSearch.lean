import LiveDiagram.Editor.Port

/-!
# Which port is found

The ports to try lie one above the other, up to the nine above the one that was asked for, and stop at
the highest port there is.  Near the top several attempts are made on that one, which is a waste but
does no harm: a port that was taken is taken still.  So the first attempt that succeeds is made on the
lowest port that can be had, and if none succeeds every port in reach is taken.

Attempts are counted by their offset.  Every port in reach has one, and below it the attempts are on
different ports; that is all that the saturation leaves of a search through a list without repetitions.

## Main results

* `toNat_above`: which port an attempt is made on.
* `first_eq`: a search listens on the first port of a list that is free.
* `search_law`: what is bound, and when nothing is.
-/

namespace LiveDiagram.Ports

/-! ## Ports in reach -/

/-- The port that was asked for, and the nine above it as far as there are that many. -/
def InReach (asked port : UInt16) : Prop :=
  asked.toNat ≤ port.toNat ∧ port.toNat ≤ min (asked.toNat + 9) 65535

/-- The lowest port in reach on which nobody listens. -/
structure LowestFree (ports : Ports) (asked port : UInt16) : Prop where
  inReach : InReach asked port
  free : ports.taken port = false
  lowest : ∀ lower, InReach asked lower → lower < port → ports.taken lower = true

/-- No attempt is made beyond the highest port. -/
theorem toNat_above (port : UInt16) (offset : Nat) :
    (above port offset).toNat = min (port.toNat + offset) 65535 := by
  show (UInt16.ofNat (min (port.toNat + offset) 65535)).toNat = _
  rw [UInt16.toNat_ofNat']
  have hle : min (port.toNat + offset) 65535 ≤ 65535 := Nat.min_le_right _ _
  omega

section

variable {asked port : UInt16}

theorem inReach_above {offset : Nat} (h : offset < 10) : InReach asked (above asked offset) := by
  have hlt := asked.toNat_lt
  rw [InReach, toNat_above]
  omega

/-- A port in reach is tried at its distance from the one that was asked for. -/
theorem InReach.above_eq (h : InReach asked port) : above asked (port.toNat - asked.toNat) = port := by
  have hlt := port.toNat_lt
  obtain ⟨hfrom, hto⟩ := h
  apply UInt16.toNat_inj.mp
  rw [toNat_above]
  omega

/-- Nothing above port zero is port zero. -/
theorem InReach.ne_zero (h : InReach asked port) (hasked : asked ≠ 0) : port ≠ 0 := by
  rintro rfl
  apply hasked
  apply UInt16.toNat_inj.mp
  exact Nat.le_zero.mp h.1

theorem candidates_eq (h : asked ≠ 0) : candidates asked = (List.range 10).map (above asked) := by
  rw [candidates, if_neg h]

theorem mem_candidates_iff (h : asked ≠ 0) : port ∈ candidates asked ↔ InReach asked port := by
  rw [candidates_eq h, List.mem_map]
  constructor
  · rintro ⟨offset, hoffset, rfl⟩
    exact inReach_above (List.mem_range.mp hoffset)
  · intro hport
    refine ⟨port.toNat - asked.toNat, List.mem_range.mpr ?_, hport.above_eq⟩
    obtain ⟨-, hto⟩ := hport
    omega

end

section

variable {ports : Ports} {asked port : UInt16}

/-! ## The first port that is free -/

/-- A search listens on the first port of the list that is free. -/
theorem first_eq (ports : Ports) (reason : String) {tried : List UInt16} (h : 0 ∉ tried) :
    ports.first reason tried =
      match tried.find? (fun port => !ports.taken port) with
      | some port => .ok port
      | none => .error (if tried = [] then reason else inUse) := by
  induction tried generalizing reason with
  | nil => rfl
  | cons port rest ih =>
      rw [List.mem_cons, not_or] at h
      obtain ⟨hport, hrest⟩ := h
      rw [first, listen, if_neg (Ne.symm hport)]
      cases htaken : ports.taken port with
      | false =>
          rw [List.find?_cons_of_pos (by simp [htaken])]
          rfl
      | true =>
          rw [List.find?_cons_of_neg (by simp [htaken])]
          simp only [if_true, ih inUse hrest, ite_self, reduceCtorEq, if_false]

/-- The attempts before the one on a port are on lower ports. -/
theorem above_lt {offset : Nat} (h : offset < port.toNat - asked.toNat) :
    above asked offset < port := by
  have hlt := port.toNat_lt
  rw [UInt16.lt_iff_toNat_lt, toNat_above]
  omega

/-- The first free port among the attempts is the lowest one in reach. -/
theorem find?_candidates_eq_some_iff (h : asked ≠ 0) :
    (candidates asked).find? (fun port => !ports.taken port) = some port ↔
      LowestFree ports asked port := by
  rw [candidates_eq h, List.find?_map, Option.map_eq_some_iff]
  simp only [List.find?_range_eq_some, List.mem_range, Function.comp, Bool.not_eq_true',
    Bool.not_not]
  constructor
  · rintro ⟨offset, ⟨hfree, hoffset, hbefore⟩, rfl⟩
    refine ⟨inReach_above hoffset, hfree, fun lower hlower hlt => ?_⟩
    rw [← hlower.above_eq]
    apply hbefore
    -- A lower port is nearer to the one that was asked for.
    have hfrom := hlower.1
    rw [UInt16.lt_iff_toNat_lt, toNat_above] at hlt
    omega
  · rintro ⟨hreach, hfree, hlowest⟩
    refine ⟨port.toNat - asked.toNat, ⟨?_, ?_, fun offset hoffset => ?_⟩, hreach.above_eq⟩
    · rw [hreach.above_eq]
      exact hfree
    · have hto := hreach.2
      omega
    · have hto := hreach.2
      exact hlowest _ (inReach_above (by omega)) (above_lt hoffset)

theorem find?_candidates_eq_none_iff (h : asked ≠ 0) :
    (candidates asked).find? (fun port => !ports.taken port) = none ↔
      ∀ port, InReach asked port → ports.taken port = true := by
  simp only [List.find?_eq_none, mem_candidates_iff h, Bool.not_eq_true', Bool.not_eq_false]

end

/-! ## The law -/

/-- To listen on an address is to listen on the first port that is free. -/
theorem bind_eq (ports : Ports) {address : SocketAddress} (h : address.port ≠ 0) :
    ports.bind address =
      match (candidates address.port).find? (fun port => !ports.taken port) with
      | some port => .ok { address with port }
      | none => .error (.bind address inUse) := by
  have hzero : 0 ∉ candidates address.port := fun hmem =>
    ((mem_candidates_iff h).mp hmem).ne_zero h rfl
  have hsome : candidates address.port ≠ [] := by simp [candidates_eq h]
  rw [bind, first_eq ports "" hzero, if_neg hsome]
  cases (candidates address.port).find? fun port => !ports.taken port <;> rfl

/-- **The search for a port**, for every port but zero that is asked for and whatever ports are taken.

The lowest free port is bound among the one that was asked for and the nine above it, as far as there
are that many, on the host that was asked for.  If all of these are taken, and only then, nothing is
bound, and the failure names the address that was asked for.  Each of them is tried if those below it
are taken, and no other: none below, none beyond the highest port, and not port zero. -/
theorem search_law (ports : Ports) {address : SocketAddress} (h : address.port ≠ 0) :
    (∀ bound, ports.bind address = .ok bound ↔
      bound.host = address.host ∧ LowestFree ports address.port bound.port) ∧
    (∀ e, ports.bind address = .error e ↔
      e = .bind address inUse ∧ ∀ port, InReach address.port port → ports.taken port = true) ∧
    (∀ port, port ∈ candidates address.port ↔ InReach address.port port) ∧
    0 ∉ candidates address.port := by
  have htried : ∀ port, port ∈ candidates address.port ↔ InReach address.port port :=
    fun _ => mem_candidates_iff h
  refine ⟨fun bound => ?_, fun e => ?_, htried, fun hzero => ((htried 0).mp hzero).ne_zero h rfl⟩
  · rw [bind_eq ports h, ← find?_candidates_eq_some_iff h]
    cases (candidates address.port).find? fun port => !ports.taken port with
    | none => simp
    | some port =>
        simp only [Except.ok.injEq, Option.some.injEq]
        constructor
        · rintro rfl
          exact ⟨rfl, rfl⟩
        · rintro ⟨hhost, rfl⟩
          rw [← hhost]
  · rw [bind_eq ports h, ← find?_candidates_eq_none_iff h]
    cases (candidates address.port).find? fun port => !ports.taken port with
    | none => simp [eq_comm]
    | some port => simp

/-- Close to the highest port: two are taken and the highest is bound, or that one is taken as well,
after ten attempts on three ports. -/
theorem search_law_highest_ports :
    let address : SocketAddress := ⟨"127.0.0.1", 65533⟩
    let crowded : Ports := ⟨fun port => port = 65533 ∨ port = 65534, 49152⟩
    let full : Ports := ⟨fun port => 65533 ≤ port, 49152⟩
    address.port ≠ 0 ∧
      crowded.bind address = .ok ⟨"127.0.0.1", 65535⟩ ∧
      full.bind address = .error (.bind address inUse) := by
  intro address crowded full
  have hasked : address.port ≠ 0 := by decide
  refine ⟨hasked, ?_, ?_⟩
  · refine ((search_law crowded hasked).1 _).mpr ⟨rfl, ⟨by decide, by decide⟩, by decide, ?_⟩
    intro lower hlower hlt
    have hfrom : 65533 ≤ lower.toNat := hlower.1
    have hbelow : lower.toNat < 65535 := UInt16.lt_iff_toNat_lt.mp hlt
    have hcases : lower.toNat = 65533 ∨ lower.toNat = 65534 := by omega
    apply decide_eq_true
    exact hcases.imp (fun heq => UInt16.toNat_inj.mp heq) fun heq => UInt16.toNat_inj.mp heq
  · refine ((search_law full hasked).2.1 _).mpr ⟨rfl, fun port hport => ?_⟩
    exact decide_eq_true (UInt16.le_iff_toNat_le.mpr hport.1)

end LiveDiagram.Ports
