import Mathlib
import MidiPatch.Yaml.Plain

/-!
# Decimal numbers

The decimal form of a number is read back as that number, with or without zeros in front of it.
-/

namespace MidiPatch.Yaml.Plain

/-- What one more digit makes of a number. -/
def addDigit (base n : Nat) (d : Char) : Option Nat := do
  let v ← hexValue? d
  if v < base then some (n * base + v) else none

theorem digits?_eq {base : Nat} {ds : List Char} (some : ds ≠ []) :
    digits? base ds = ds.foldlM (addDigit base) 0 := by
  cases ds with
  | nil => exact absurd rfl some
  | cons d ds => rfl

theorem hexValue?_digitChar : ∀ v < 10, hexValue? v.digitChar = some v := by decide

theorem addDigit_digitChar (n : Nat) {v : Nat} (digit : v < 10) :
    addDigit 10 n v.digitChar = some (n * 10 + v) := by
  rw [addDigit, hexValue?_digitChar v digit]
  exact if_pos digit

theorem foldlM_toDigits (n : Nat) : (Nat.toDigits 10 n).foldlM (addDigit 10) 0 = some n := by
  induction n using Nat.strongRecOn with
  | ind n ih =>
    rw [Nat.toDigits_eq_if (by decide)]
    split
    · rename_i digit
      rw [List.foldlM_cons, addDigit_digitChar 0 digit, Nat.zero_mul, Nat.zero_add]
      rfl
    · rename_i long
      have last : n % 10 < 10 := Nat.mod_lt n (by decide)
      rw [List.foldlM_append, ih (n / 10) (by omega)]
      change addDigit 10 (n / 10) (n % 10).digitChar >>= pure = some n
      rw [addDigit_digitChar (n / 10) last, Nat.div_add_mod' n 10]
      rfl

theorem foldlM_zeros (count : Nat) :
    (List.replicate count '0').foldlM (addDigit 10) 0 = some 0 := by
  induction count with
  | zero => rfl
  | succ count ih => exact ih

/-- Zeros in front of a number do not change what it is. -/
theorem digits?_padded (zeros n : Nat) :
    digits? 10 (List.replicate zeros '0' ++ Nat.toDigits 10 n) = some n := by
  rw [digits?_eq (by simp), List.foldlM_append, foldlM_zeros]
  exact foldlM_toDigits n

/-! ### Numbers as they are written -/

/-- A number begins with a digit, which is zero for zero alone. -/
theorem toDigits_head {n : Nat} (pos : n ≠ 0) :
    ∃ d ds, Nat.toDigits 10 n = d :: ds ∧ d ≠ '0' ∧ d.isDigit = true := by
  induction n using Nat.strongRecOn with
  | ind n ih =>
    rw [Nat.toDigits_eq_if (by decide)]
    split
    · rename_i digit
      exact ⟨n.digitChar, [], rfl, by simpa using pos, by simpa [Nat.isDigit_digitChar] using digit⟩
    · rename_i long
      obtain ⟨d, ds, same, leading⟩ := ih (n / 10) (by omega) (by omega)
      rw [same]
      exact ⟨d, ds ++ [(n % 10).digitChar], rfl, leading⟩

theorem hasLeadingZero_of_head {d : Char} {ds : List Char} (nonzero : d ≠ '0')
    (digit : d.isDigit = true) : hasLeadingZero (d :: ds) = false := by
  have unsigned : d ≠ '+' ∧ d ≠ '-' := by
    constructor <;> (rintro rfl; exact nomatch digit)
  simp [hasLeadingZero, unsigned, nonzero]

theorem unsigned?_of_head {d : Char} {ds : List Char} (nonzero : d ≠ '0') :
    unsigned? (d :: ds) = digits? 10 (d :: ds) := by
  simp [unsigned?, nonzero]

theorem natural?_toString (n : Nat) : natural? (toString n) = some n := by
  by_cases pos : n = 0
  · subst pos; rfl
  have read : digits? 10 (Nat.toDigits 10 n) = some n := digits?_padded 0 n
  have written : (toString n).toList = Nat.toDigits 10 n := Nat.toList_repr
  obtain ⟨d, ds, same, nonzero, digit⟩ := toDigits_head pos
  have unsigned : d ≠ '+' := by rintro rfl; exact nomatch digit
  rw [natural?, written, same]
  simp only [hasLeadingZero_of_head nonzero digit, Bool.false_eq_true, if_false]
  split
  · rename_i rest plus
    exact absurd (List.cons.inj plus).1 unsigned
  · rw [unsigned?_of_head nonzero, ← same, read]

end MidiPatch.Yaml.Plain
