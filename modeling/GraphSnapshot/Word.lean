/-! Sizes, lengths and counts are words: numbers below a limit. -/
namespace GraphSnapshot

/-- One more than the largest word. -/
def wordLimit : Nat := 0x10000000000000000

/-- The product, if it is still a word. -/
def wordMul? (a b : Nat) : Option Nat := if a * b < wordLimit then some (a * b) else none

theorem toNat_lt_wordLimit (word : UInt64) : word.toNat < wordLimit := word.toNat_lt

theorem wordMul?_eq_some_iff {a b product : Nat} :
    wordMul? a b = some product ↔ a * b = product ∧ product < wordLimit := by
  rw [wordMul?]
  split
  · next small =>
    rw [Option.some.injEq]
    exact ⟨fun same => ⟨same, same ▸ small⟩, And.left⟩
  · next large =>
    refine ⟨nofun, ?_⟩
    rintro ⟨rfl, small⟩
    exact absurd small large

end GraphSnapshot
