import Mathlib.Data.Set.Function

/-! A hash of an injective encoding commits to what was encoded, as long as the two
messages in question are not a collision. No hash is assumed to be injective. -/
namespace Foundation

/-- The messages `a` and `b` are not a collision of `h`. -/
def NoCollision {M D : Type*} (h : M → D) (a b : M) : Prop := h a = h b → a = b

theorem NoCollision.binding {F M D : Type*} {h : M → D} {enc : F → M} {S : Set F} {f g : F}
    (hno : NoCollision h (enc f) (enc g)) (henc : Set.InjOn enc S) (hf : f ∈ S) (hg : g ∈ S)
    (he : h (enc f) = h (enc g)) : f = g :=
  henc hf hg (hno he)

end Foundation
