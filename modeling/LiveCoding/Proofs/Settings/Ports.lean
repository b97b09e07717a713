import LiveCoding.Settings.Basic

/-!
# Settings that nothing is wrong with

The ports are checked twice, once as numbers and once where they are narrowed to ports.
Numbers that pass the first check pass the second.

## Main Statements

* `Settings.problems_eq_nil_iff`: when nothing is wrong.
* `Settings.ports_eq_ok_iff`: the ports are the numbers that were set.
* `Settings.ports_eq_error_iff`: only the first check ever fails.
-/

namespace LiveCoding

namespace Settings

variable {settings : Settings} {n : Int} {port oscPort serverPort : UInt16}

theorem isPort_iff : isPort n ↔ 1 ≤ n ∧ n ≤ 65535 := by
  rw [isPort, Bool.and_eq_true, decide_eq_true_eq, decide_eq_true_eq]

/-- A port is the number that it was narrowed from. -/
theorem toPort?_eq_some_iff : toPort? n = some port ↔ (port.toNat : Int) = n := by
  have small := port.toNat_lt
  simp only [toPort?, Bool.and_eq_true, decide_eq_true_eq]
  constructor
  · intro h
    split at h
    next fits =>
      obtain rfl := Option.some.inj h
      rw [UInt16.toNat_ofNat']
      omega
    next => contradiction
  · rintro rfl
    rw [if_pos (by omega), Int.toNat_natCast, UInt16.ofNat_toNat]

/-- What passes as a port can be narrowed. -/
theorem exists_toPort? (h : isPort n) : ∃ port, toPort? n = some port := by
  obtain ⟨low, high⟩ := isPort_iff.mp h
  simp only [toPort?, Bool.and_eq_true, decide_eq_true_eq]
  exact ⟨_, if_pos (by omega)⟩

theorem problems_eq_nil_iff : settings.problems = [] ↔
    settings.sclangPath.isEmpty = false ∧ isPort settings.oscPort ∧
      isPort settings.languageServerPort := by
  unfold problems
  rw [List.append_eq_nil_iff, List.append_eq_nil_iff, and_assoc]
  refine and_congr ?_ (and_congr ?_ ?_)
  · cases settings.sclangPath.isEmpty <;> simp
  · cases isPort settings.oscPort <;> simp
  · cases isPort settings.languageServerPort <;> simp

/-- **The ports are those that were set**, if nothing is wrong. -/
theorem ports_eq_ok_iff : settings.ports = .ok (oscPort, serverPort) ↔
    settings.problems = [] ∧ (oscPort.toNat : Int) = settings.oscPort ∧
      (serverPort.toNat : Int) = settings.languageServerPort := by
  unfold ports
  cases problems : settings.problems with
  | cons problem rest => simp
  | nil =>
    obtain ⟨-, osc, server⟩ := problems_eq_nil_iff.mp problems
    obtain ⟨osc', hosc⟩ := exists_toPort? osc
    obtain ⟨server', hserver⟩ := exists_toPort? server
    simp only [hosc, hserver, ← toPort?_eq_some_iff, Except.ok.injEq, Prod.mk.injEq,
      Option.some.injEq, true_and]

/-- Settings that nothing is wrong with have ports. -/
theorem exists_ports (h : settings.problems = []) :
    ∃ oscPort serverPort, settings.ports = .ok (oscPort, serverPort) := by
  obtain ⟨-, osc, server⟩ := problems_eq_nil_iff.mp h
  obtain ⟨oscPort, hosc⟩ := exists_toPort? osc
  obtain ⟨serverPort, hserver⟩ := exists_toPort? server
  exact ⟨oscPort, serverPort, ports_eq_ok_iff.mpr
    ⟨h, toPort?_eq_some_iff.mp hosc, toPort?_eq_some_iff.mp hserver⟩⟩

/-- **Settings without ports** are those that something is wrong with, and that is what is
reported of them. -/
theorem ports_eq_error_iff {problems : List Problem} : settings.ports = .error problems ↔
    problems = settings.problems ∧ problems ≠ [] := by
  cases wrong : settings.problems with
  | nil =>
    obtain ⟨oscPort, serverPort, hports⟩ := exists_ports wrong
    rw [hports]
    constructor
    · intro h
      contradiction
    · rintro ⟨rfl, h⟩
      exact absurd rfl h
  | cons problem rest =>
    have hports : settings.ports = .error (problem :: rest) := by
      rw [ports, wrong]
    rw [hports, Except.error.injEq]
    constructor
    · rintro rfl
      exact ⟨rfl, List.cons_ne_nil _ _⟩
    · rintro ⟨rfl, -⟩
      rfl

end Settings

end LiveCoding
