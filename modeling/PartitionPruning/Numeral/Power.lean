/-!
# Powers

The library writes powers of naturals and integers, with exponents that are naturals. Inside its
namespace `^` is the power that the number type brings itself, whatever algebra is in scope beside
it, so that a definition means the same wherever it is read. The exponent has to be seen to be a
natural: a literal one is written `2 ^ (31 : Nat)`.
-/

namespace PartitionPruning

scoped instance (priority := 2000) natPower : Pow Nat Nat := instPowNat

scoped instance (priority := 2000) intPower : Pow Int Nat := instPowNat

end PartitionPruning
