set_option autoImplicit false

namespace Songline.Saturating

def top : Nat := 18446744073709551615

def ofNat (n : Nat) : UInt64 := UInt64.ofNat (min n top)

@[simp] theorem toNat_ofNat (n : Nat) : (ofNat n).toNat = min n top := by
  have : min n top < 2 ^ 64 := by simp only [top]; omega
  rw [ofNat, UInt64.toNat_ofNat']
  exact Nat.mod_eq_of_lt this

theorem toNat_le_top (a : UInt64) : a.toNat ≤ top := by
  have := a.toNat_lt
  simp only [top]
  omega

def add (a b : UInt64) : UInt64 := ofNat (a.toNat + b.toNat)

@[simp] theorem toNat_add (a b : UInt64) : (add a b).toNat = min (a.toNat + b.toNat) top := by
  simp [add]

def mul (a b : UInt64) : UInt64 := ofNat (a.toNat * b.toNat)

@[simp] theorem toNat_mul (a b : UInt64) : (mul a b).toNat = min (a.toNat * b.toNat) top := by
  simp [mul]

/-- Stops at zero. -/
def sub (a b : UInt64) : UInt64 := ofNat (a.toNat - b.toNat)

@[simp] theorem toNat_sub (a b : UInt64) : (sub a b).toNat = a.toNat - b.toNat := by
  have := toNat_le_top a
  simp only [sub, toNat_ofNat]
  omega

def add? (a b : UInt64) : Option UInt64 :=
  if a.toNat + b.toNat ≤ top then some (ofNat (a.toNat + b.toNat)) else none

theorem toNat_of_add? {a b c : UInt64} (h : add? a b = some c) :
    c.toNat = a.toNat + b.toNat := by
  simp only [add?] at h
  split at h
  · cases h
    rw [toNat_ofNat]
    omega
  · cases h

end Songline.Saturating
