/-!
Powers of whole numbers. They are the same here and where algebra brings in powers of its own.
-/

namespace JsonPath

@[default_instance 10001]
instance (priority := high) natPow {α : Type} [NatPow α] : Pow α Nat := instPowNat

end JsonPath
