import Testbench.Design
import Mathlib.Data.ENat.Lattice

/-! When a design halts. The halt output is looked at after each cycle out of reset and
never before the first one; the first cycle after which it is up, if there is one, and
the budget decide together how long the design is clocked. -/
namespace Testbench.Design

variable {σ : Type u}

/-- The halt output is up after so many cycles, at least one. -/
def HaltsAfter (design : Design σ) (state : σ) (cycles : Nat) : Prop :=
  1 ≤ cycles ∧ design.halted ((design.tick false)^[cycles] state) = true

/-- The first cycle after which the halt output is up; infinite without one. -/
noncomputable def firstHalt (design : Design σ) (state : σ) : ℕ∞ :=
  ⨅ (cycles : Nat) (_ : design.HaltsAfter state cycles), (cycles : ℕ∞)

def cyclesWithin (design : Design σ) : (budget : Nat) → σ → Nat
  | 0, _ => 0
  | budget + 1, state =>
    let state := design.tick false state
    if design.halted state then 1 else design.cyclesWithin budget state + 1

def haltsWithin (design : Design σ) : (budget : Nat) → σ → Bool
  | 0, _ => false
  | budget + 1, state =>
    let state := design.tick false state
    design.halted state || design.haltsWithin budget state

variable (design : Design σ)

theorem haltsAfter_succ (state : σ) (cycles : Nat) :
    design.HaltsAfter state (cycles + 1) ↔
      design.halted ((design.tick false)^[cycles] (design.tick false state)) = true := by
  unfold HaltsAfter
  rw [Function.iterate_succ_apply]
  exact and_iff_right (Nat.le_add_left 1 cycles)

theorem cyclesWithin_succ (budget : Nat) (state : σ) :
    design.cyclesWithin (budget + 1) state =
      if design.halted (design.tick false state) then 1
      else design.cyclesWithin budget (design.tick false state) + 1 :=
  rfl

theorem haltsWithin_succ (budget : Nat) (state : σ) :
    design.haltsWithin (budget + 1) state = (design.halted (design.tick false state) ||
      design.haltsWithin budget (design.tick false state)) :=
  rfl

theorem cyclesWithin_le (budget : Nat) (state : σ) : design.cyclesWithin budget state ≤ budget := by
  induction budget generalizing state with
  | zero => exact Nat.le_refl 0
  | succ budget ih =>
    have rest := ih (design.tick false state)
    rw [cyclesWithin_succ]
    split <;> omega

theorem not_haltsAfter_of_lt (budget : Nat) (state : σ) (cycles : Nat)
    (before : cycles < design.cyclesWithin budget state) : ¬design.HaltsAfter state cycles := by
  induction budget generalizing state cycles with
  | zero => exact absurd before (Nat.not_lt_zero cycles)
  | succ budget ih =>
    cases cycles with
    | zero => exact fun halts => absurd halts.1 (by decide)
    | succ cycles =>
      rw [haltsAfter_succ]
      rw [cyclesWithin_succ] at before
      split at before
      · omega
      · rename_i running
        cases cycles with
        | zero => exact running
        | succ cycles =>
          intro halts
          exact ih (design.tick false state) (cycles + 1) (by omega)
            ⟨Nat.le_add_left 1 cycles, halts⟩

theorem haltsAfter_cyclesWithin (budget : Nat) (state : σ)
    (halts : design.haltsWithin budget state = true) :
    design.HaltsAfter state (design.cyclesWithin budget state) := by
  induction budget generalizing state with
  | zero => exact absurd halts (by simp [haltsWithin])
  | succ budget ih =>
    rw [haltsWithin_succ] at halts
    rw [cyclesWithin_succ]
    split
    · rename_i halted
      exact (design.haltsAfter_succ state 0).mpr halted
    · rename_i running
      rw [Bool.or_eq_true, or_iff_right running] at halts
      exact (design.haltsAfter_succ state _).mpr (ih _ halts).2

theorem cyclesWithin_of_not_haltsWithin (budget : Nat) (state : σ)
    (runs : design.haltsWithin budget state = false) :
    design.cyclesWithin budget state = budget ∧ ¬design.HaltsAfter state budget := by
  induction budget generalizing state with
  | zero => exact ⟨rfl, fun halts => absurd halts.1 (by decide)⟩
  | succ budget ih =>
    rw [haltsWithin_succ, Bool.or_eq_false_iff] at runs
    obtain ⟨cycles, last⟩ := ih _ runs.2
    rw [cyclesWithin_succ, runs.1, if_neg Bool.false_ne_true, cycles, haltsAfter_succ]
    refine ⟨rfl, fun halts => ?_⟩
    cases budget with
    | zero => exact absurd halts (by simp [runs.1])
    | succ budget => exact last ⟨Nat.le_add_left 1 budget, halts⟩

theorem le_firstHalt (state : σ) (bound : Nat)
    (running : ∀ cycles < bound, ¬design.HaltsAfter state cycles) :
    (bound : ℕ∞) ≤ design.firstHalt state := by
  refine le_iInf₂ fun cycles halts => ?_
  have reached : bound ≤ cycles := Nat.le_of_not_lt fun before => running cycles before halts
  exact_mod_cast reached

theorem firstHalt_le (state : σ) (cycles : Nat) (halts : design.HaltsAfter state cycles) :
    design.firstHalt state ≤ cycles :=
  iInf₂_le cycles halts

theorem cyclesWithin_eq_min (budget : Nat) (state : σ) :
    (design.cyclesWithin budget state : ℕ∞) = min (budget : ℕ∞) (design.firstHalt state) := by
  have reached := design.le_firstHalt state _ (design.not_haltsAfter_of_lt budget state)
  have bound : (design.cyclesWithin budget state : ℕ∞) ≤ budget := by
    exact_mod_cast design.cyclesWithin_le budget state
  apply le_antisymm (le_min bound reached)
  cases h : design.haltsWithin budget state with
  | true =>
    exact (min_le_right _ _).trans
      (design.firstHalt_le state _ (design.haltsAfter_cyclesWithin budget state h))
  | false =>
    rw [(design.cyclesWithin_of_not_haltsWithin budget state h).1]
    exact min_le_left _ _

theorem haltsWithin_iff (budget : Nat) (state : σ) :
    design.haltsWithin budget state = true ↔ design.firstHalt state ≤ budget := by
  constructor
  · intro halts
    have first := design.firstHalt_le state _ (design.haltsAfter_cyclesWithin budget state halts)
    refine first.trans ?_
    exact_mod_cast design.cyclesWithin_le budget state
  · intro first
    by_contra running
    obtain ⟨cycles, last⟩ := design.cyclesWithin_of_not_haltsWithin budget state
      (Bool.eq_false_iff.mpr running)
    have later : ((budget + 1 : Nat) : ℕ∞) ≤ design.firstHalt state := by
      apply design.le_firstHalt
      intro other before
      rcases Nat.lt_or_eq_of_le (Nat.le_of_lt_succ before) with lower | same
      · exact design.not_haltsAfter_of_lt budget state other (by rw [cycles]; exact lower)
      · exact same ▸ last
    have impossible : ((budget + 1 : Nat) : ℕ∞) ≤ (budget : Nat) := later.trans first
    exact absurd (by exact_mod_cast impossible : budget + 1 ≤ budget) (by omega)

theorem firstHalt_eq (state : σ) (cycles : Nat) (halts : design.HaltsAfter state cycles)
    (running : ∀ earlier < cycles, ¬design.HaltsAfter state earlier) :
    design.firstHalt state = cycles :=
  le_antisymm (design.firstHalt_le state cycles halts) (design.le_firstHalt state cycles running)

theorem cyclesWithin_of_firstHalt {state : σ} {cycles : Nat}
    (first : design.firstHalt state = cycles) (budget : Nat) :
    design.cyclesWithin budget state = min budget cycles := by
  have law := design.cyclesWithin_eq_min budget state
  rw [first, ← Monotone.map_min (Nat.mono_cast (α := ℕ∞))] at law
  exact_mod_cast law

theorem haltsWithin_of_firstHalt {state : σ} {cycles : Nat}
    (first : design.firstHalt state = cycles) (budget : Nat) :
    design.haltsWithin budget state = true ↔ cycles ≤ budget := by
  rw [design.haltsWithin_iff, first]
  exact_mod_cast Iff.rfl

variable {small large : Nat}

theorem cyclesWithin_of_le (le : small ≤ large) (state : σ) :
    design.cyclesWithin small state = min small (design.cyclesWithin large state) := by
  have short := design.cyclesWithin_eq_min small state
  have long := design.cyclesWithin_eq_min large state
  have same : min (small : ℕ∞) (large : ℕ∞) = small := min_eq_left (by exact_mod_cast le)
  have law : (design.cyclesWithin small state : ℕ∞) =
      min (small : ℕ∞) (design.cyclesWithin large state) := by
    rw [short, long, ← min_assoc, same]
  rw [← Monotone.map_min (Nat.mono_cast (α := ℕ∞))] at law
  exact_mod_cast law

theorem haltsWithin_of_le (le : small ≤ large) (state : σ)
    (halts : design.haltsWithin small state = true) :
    design.haltsWithin large state = true ∧
      design.cyclesWithin large state = design.cyclesWithin small state := by
  have first := (design.haltsWithin_iff small state).mp halts
  have fits : (small : ℕ∞) ≤ large := by exact_mod_cast le
  refine ⟨(design.haltsWithin_iff large state).mpr (first.trans fits), ?_⟩
  have short := design.cyclesWithin_eq_min small state
  have long := design.cyclesWithin_eq_min large state
  rw [min_eq_right first] at short
  rw [min_eq_right (first.trans fits), ← short] at long
  exact_mod_cast long

end Testbench.Design
