import Mathlib.Algebra.Group.Nat.Defs

/-! Numbers that are given out one after another and kept in a machine word. As long as there are
fewer than 2 ^ 64 of them, they differ. -/

namespace PluginBridge.Numbering

theorem next_ofNat (n : Nat) : UInt64.ofNat n + 1 = UInt64.ofNat (n + 1) :=
  (UInt64.ofNat_add n 1).symm

theorem ofNat_injective {first second : Nat} (firstFew : first < 2 ^ 64)
    (secondFew : second < 2 ^ 64) (same : UInt64.ofNat first = UInt64.ofNat second) :
    first = second := by
  have values := congrArg UInt64.toNat same
  rw [UInt64.toNat_ofNat', UInt64.toNat_ofNat', Nat.mod_eq_of_lt firstFew,
    Nat.mod_eq_of_lt secondFew] at values
  exact values

end PluginBridge.Numbering
