import IconRegistry.Registry.NameOrder

/-! The order of names is total, and names that compare equal are the same, however their letters are cased. -/
namespace IconRegistry

open Std

/-- Texts are compared lexicographically by the codes of their characters. -/
theorem Text.order_eq_compareLex (s t : Text) :
    Text.order s t = List.compareLex (compareOn Char.toNat) s t := by
  induction s generalizing t with
  | nil => cases t <;> simp [Text.order, List.compareLex_nil_nil, List.compareLex_nil_cons]
  | cons a s ih =>
      cases t with
      | nil => simp [Text.order, List.compareLex_cons_nil]
      | cons b t => rw [Text.order, List.compareLex_cons_cons, ih]; rfl

instance Text.lawfulEqCmp_toNat : LawfulEqCmp (compareOn Char.toNat) where
  eq_of_compare h := Char.toNat_inj.mp (LawfulEqOrd.eq_of_compare h)

instance Text.transCmp_order : TransCmp Text.order := by
  rw [show Text.order = List.compareLex (compareOn Char.toNat) from
    funext fun s => funext fun t => Text.order_eq_compareLex s t]
  infer_instance

instance Text.lawfulEqCmp_order : LawfulEqCmp Text.order where
  eq_of_compare {s t} h := by
    rw [Text.order_eq_compareLex] at h
    exact LawfulEqCmp.eq_of_compare h

namespace Registry

instance transCmp_lower : TransCmp (fun a b : Text => Text.order (Text.toLower a) (Text.toLower b)) where
  eq_swap := Text.transCmp_order.eq_swap
  isLE_trans := Text.transCmp_order.isLE_trans

instance transCmp_names : TransCmp compareNames :=
  inferInstanceAs (TransCmp (compareLex (fun a b : Text => Text.order (Text.toLower a) (Text.toLower b))
    (fun a b : Text => Text.order b a)))

/-- The case of the letters decides where all else is equal. -/
instance lawfulEqCmp_names : LawfulEqCmp compareNames where
  eq_of_compare {a b} h := by
    rw [compareNames, Ordering.then_eq_eq] at h
    exact (LawfulEqCmp.eq_of_compare h.2).symm

end Registry

end IconRegistry
