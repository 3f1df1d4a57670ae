import Testbench.Trace.ValueChange
import Mathlib.Data.Nat.PSub

/-! Names and numbers of signals determine each other: every string of printable
characters but the empty one is the name of exactly one signal. -/
namespace Testbench.Trace

def printable (c : Char) : Bool :=
  '!' ≤ c && c ≤ '~'

/-- The place of a name among all names, counted from one. -/
def place : List Char → Nat
  | [] => 0
  | c :: rest => c.toNat - '!'.toNat + 1 + digitCount * place rest

def number? (name : List Char) : Option Nat :=
  if name.all printable then (place name).ppred else none

theorem printable_digit : ∀ d < digitCount,
    printable (Char.ofNat ('!'.toNat + d)) ∧
      (Char.ofNat ('!'.toNat + d)).toNat - '!'.toNat = d := by
  decide

theorem digit_of_printable {c : Char} (h : printable c) :
    c.toNat - '!'.toNat < digitCount ∧ '!'.toNat + (c.toNat - '!'.toNat) = c.toNat := by
  obtain ⟨low, high⟩ := Bool.and_eq_true_iff.mp h
  have above := UInt32.le_iff_toNat_le.mp (Char.le_def.mp (of_decide_eq_true low))
  have below := UInt32.le_iff_toNat_le.mp (Char.le_def.mp (of_decide_eq_true high))
  change 33 ≤ c.toNat at above
  change c.toNat ≤ 126 at below
  change c.toNat - 33 < 94 ∧ 33 + (c.toNat - 33) = c.toNat
  omega

theorem identifier_of_lt {n : Nat} (short : n < digitCount) :
    identifier n = [Char.ofNat ('!'.toNat + n)] := by
  rw [identifier, if_pos short, Nat.mod_eq_of_lt short]

theorem identifier_of_le {n : Nat} (long : digitCount ≤ n) :
    identifier n =
      Char.ofNat ('!'.toNat + n % digitCount) :: identifier (n / digitCount - 1) := by
  rw [identifier, if_neg (Nat.not_lt.mpr long)]

theorem rest_lt {n : Nat} (long : digitCount ≤ n) : n / digitCount - 1 < n := by
  unfold digitCount at *
  omega

theorem place_identifier (n : Nat) : place (identifier n) = n + 1 := by
  induction n using Nat.strongRecOn with
  | ind n ih =>
    by_cases short : n < digitCount
    · rw [identifier_of_lt short, place, (printable_digit n short).2]
      rfl
    · have long := Nat.not_lt.mp short
      rw [identifier_of_le long, place, (printable_digit _ (Nat.mod_lt n (by decide))).2,
        ih _ (rest_lt long)]
      unfold digitCount at *
      omega

theorem printable_of_mem_identifier {n : Nat} {c : Char} (mem : c ∈ identifier n) :
    printable c := by
  induction n using Nat.strongRecOn with
  | ind n ih =>
    by_cases short : n < digitCount
    · rw [identifier_of_lt short, List.mem_singleton] at mem
      exact mem ▸ (printable_digit n short).1
    · have long := Nat.not_lt.mp short
      rw [identifier_of_le long, List.mem_cons] at mem
      rcases mem with rfl | mem
      · exact (printable_digit _ (Nat.mod_lt n (by decide))).1
      · exact ih _ (rest_lt long) mem

theorem identifier_of_place {name : List Char} (printed : name.all printable) {n : Nat}
    (named : place name = n + 1) : identifier n = name := by
  induction name generalizing n with
  | nil => exact nomatch named
  | cons c rest ih =>
    obtain ⟨first, others⟩ := Bool.and_eq_true_iff.mp printed
    obtain ⟨bound, char⟩ := digit_of_printable first
    rw [place] at named
    cases rest with
    | nil =>
      have small : n = c.toNat - '!'.toNat := by
        rw [place] at named
        omega
      rw [small, identifier_of_lt bound, char, Char.ofNat_toNat]
    | cons d rest =>
      -- what follows the first character is a name itself, of the number before its place
      have next : place (d :: rest) = n / digitCount - 1 + 1 ∧
          n % digitCount = c.toNat - '!'.toNat ∧ digitCount ≤ n := by
        have positive : 0 < place (d :: rest) := by
          rw [place]
          omega
        unfold digitCount at *
        omega
      obtain ⟨before, digit, long⟩ := next
      rw [identifier_of_le long, digit, char, Char.ofNat_toNat, ih others before]

theorem number?_eq_some_iff (name : List Char) (n : Nat) :
    number? name = some n ↔ identifier n = name := by
  unfold number?
  constructor
  · intro h
    split at h
    · rename_i printed
      exact identifier_of_place printed (Nat.ppred_eq_some.mp h).symm
    · exact nomatch h
  · rintro rfl
    rw [if_pos (List.all_eq_true.mpr fun _ => printable_of_mem_identifier), place_identifier]
    rfl

end Testbench.Trace
