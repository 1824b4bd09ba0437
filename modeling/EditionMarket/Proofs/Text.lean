import Mathlib.Data.Nat.Digits.Defs
import EditionMarket.Decimal
import EditionMarket.Text.Blank
import EditionMarket.Text.Digits
import EditionMarket.Text.Quoted

/-!
# Digits and lines

What is written with digits is read as the number it was written for, in decimal and in hexadecimal.
Lines that are put one after the other, with a line feed after each, are told apart again if no
character in them ends a line.

Main statements: `number_digits`, `digit?_digitChar`, `splitLines_join`.
-/

namespace EditionMarket.Text

/-! ## Digits -/

/-- A digit is read as the number that it stands for. -/
theorem digit?_digitChar {d : Nat} (h : d < 16) : digit? (Nat.digitChar d) = some d := by
  have all : ∀ d < 16, digit? (Nat.digitChar d) = some d := by decide
  exact all d h

/-- The decimal digits of a number stand for that number. -/
theorem number_digits (n : Nat) : number 10 (Decimal.digits n) = n := by
  induction n using Nat.strongRecOn with
  | ind n ih =>
    by_cases h : n < 10
    · have one : digit? (Nat.digitChar n) = some n := digit?_digitChar (by omega)
      simp [Decimal.digits, Nat.toDigits_of_lt_base h, number, numberFrom, one]
    · have last : digit? (Nat.digitChar (n % 10)) = some (n % 10) := digit?_digitChar (by omega)
      have before : number 10 (Nat.toDigits 10 (n / 10)) = n / 10 := ih (n / 10) (by omega)
      rw [Decimal.digits, Nat.toDigits_of_base_le (by omega) (by omega), number_concat, before, last,
        Option.getD_some]
      omega

/-- The digits of a number are decimal digits. -/
theorem isDigit_of_mem_digits {n : Nat} {c : Char} (h : c ∈ Decimal.digits n) : c.isDigit :=
  Nat.isDigit_of_mem_toDigits (by decide) (by decide) h

/-- A number has at least one digit. -/
theorem exists_digits (n : Nat) :
    ∃ c rest, Decimal.digits n = c :: rest ∧ ∀ d ∈ c :: rest, d.isDigit := by
  obtain ⟨c, rest, h⟩ := List.exists_cons_of_ne_nil (show Decimal.digits n ≠ [] from Nat.toDigits_ne_nil)
  exact ⟨c, rest, h, fun d hd => isDigit_of_mem_digits (h ▸ hd)⟩

/-- Only zero starts with the digit zero. -/
theorem eq_zero_of_digits {n : Nat} {rest : List Char} (h : Decimal.digits n = '0' :: rest) :
    n = 0 := by
  induction n using Nat.strongRecOn generalizing rest with
  | ind n ih =>
    by_cases small : n < 10
    · rw [Decimal.digits, Nat.toDigits_of_lt_base small, List.cons.injEq] at h
      have value := digit?_digitChar (d := n) (by omega)
      rw [h.1] at value
      exact (Option.some.inj value).symm
    · rw [Decimal.digits, Nat.toDigits_of_base_le (by omega) (by omega)] at h
      -- The digits in front of the last one start with zero as well.
      obtain ⟨c, front, hfront, -⟩ := exists_digits (n / 10)
      rw [show Nat.toDigits 10 (n / 10) = c :: front from hfront, List.cons_append, List.cons.injEq] at h
      rw [h.1] at hfront
      have zero := ih (n / 10) (by omega) hfront
      omega

/-- An integer that may be written has no more digits than may be read. -/
theorem length_digits_le {n : Int} (h : isWritable n) :
    (Decimal.digits n.natAbs).length ≤ mostDigits := by
  simp only [isWritable, Nat.pow_eq, decide_eq_true_eq] at h
  have positive : 0 < mostDigits := by decide
  generalize mostDigits = most at h positive ⊢
  exact (Nat.length_toDigits_le_iff (by decide) positive).mpr h

/-- A natural number below one that may be written may be written. -/
theorem isWritable_of_le {m n : Nat} (h : m ≤ n) (hn : isWritable n) : isWritable m := by
  simp only [isWritable, Int.natAbs_natCast, decide_eq_true_eq] at hn ⊢
  exact Nat.lt_of_le_of_lt h hn

/-! ## Lines -/

/-- A line ends where its line feed stands. -/
theorem splitLinesFrom_line {cs : List Char} (h : ∀ c ∈ cs, endsLine c = false)
    (line rest : List Char) :
    splitLinesFrom line (cs ++ '\n' :: rest) = (line.reverse ++ cs) :: splitLinesFrom [] rest := by
  induction cs generalizing line with
  | nil => simp [splitLinesFrom, show endsLine '\n' from rfl]
  | cons c cs ih =>
    have hc : endsLine c = false := h c List.mem_cons_self
    have hr : c ≠ '\r' := by rintro rfl; exact absurd hc (by decide)
    rw [List.cons_append, splitLinesFrom, hc, if_neg Bool.false_ne_true,
      ih fun d hd => h d (List.mem_cons_of_mem c hd), List.reverse_cons, List.append_assoc,
      List.singleton_append]
    exact fun _ e => absurd e hr

/-- Lines without line ends are told apart by the line feeds after them. -/
theorem splitLines_join {lines : List String}
    (h : ∀ line ∈ lines, ∀ c ∈ line.toList, endsLine c = false) :
    splitLines (String.join (lines.map (· ++ "\n"))) = lines := by
  suffices go : splitLinesFrom [] (lines.flatMap fun line => line.toList ++ ['\n'])
      = lines.map String.toList by
    have joined : (String.join (lines.map (· ++ "\n"))).toList
        = lines.flatMap fun line => line.toList ++ ['\n'] := by
      simp [String.toList_join, List.flatMap_map]
    simp [splitLines, joined, go]
  induction lines with
  | nil => rfl
  | cons line lines ih =>
    have first := h line List.mem_cons_self
    have others := ih fun other ho => h other (List.mem_cons_of_mem line ho)
    rw [List.flatMap_cons, List.append_assoc, List.singleton_append, splitLinesFrom_line first,
      others]
    rfl

end EditionMarket.Text
