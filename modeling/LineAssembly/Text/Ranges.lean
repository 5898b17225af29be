/-! Sets of characters given by inclusive ranges of code points. -/
namespace LineAssembly
namespace Text

abbrev Ranges := List (Nat × Nat)

def Ranges.has (ranges : Ranges) (c : Char) : Bool :=
  ranges.any fun r => r.1 ≤ c.toNat && c.toNat ≤ r.2

end Text
end LineAssembly
