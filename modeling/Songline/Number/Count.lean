set_option autoImplicit false

namespace Songline.Count

/-- The count that decimal digits spell, if there are any and it fits into 32 bits. -/
def ofDigits? (ds : List Char) : Option UInt32 :=
  if ds.isEmpty || !ds.all Char.isDigit then none
  else if Nat.ofDigitChars 10 ds 0 < UInt32.size then some (UInt32.ofNat (Nat.ofDigitChars 10 ds 0))
  else none

/-- The digits of a count, without leading zeros. -/
def digits (n : UInt32) : List Char := Nat.toDigits 10 n.toNat

def text (n : UInt32) : String := String.ofList (digits n)

theorem toNat_of_ofDigits? {ds : List Char} {n : UInt32} (h : ofDigits? ds = some n) :
    n.toNat = Nat.ofDigitChars 10 ds 0 := by
  simp only [ofDigits?] at h
  split at h
  · cases h
  · split at h
    · cases h
      rw [UInt32.toNat_ofNat']
      exact Nat.mod_eq_of_lt ‹_›
    · cases h

theorem digits_ne_nil (n : UInt32) : digits n ≠ [] := Nat.toDigits_ne_nil

theorem isDigit_of_mem_digits {n : UInt32} {c : Char} (h : c ∈ digits n) : c.isDigit = true :=
  Nat.isDigit_of_mem_toDigits (by decide) (by decide) h

/-- Reading what was written. -/
theorem ofDigits?_digits (n : UInt32) : ofDigits? (digits n) = some n := by
  have value : Nat.ofDigitChars 10 (digits n) 0 = n.toNat := Nat.ofDigitChars_ten_toDigits
  have all : (digits n).all Char.isDigit = true :=
    List.all_eq_true.2 fun _ h => isDigit_of_mem_digits h
  have small := n.toNat_lt
  simp [ofDigits?, digits_ne_nil, all, value, small]

end Songline.Count
