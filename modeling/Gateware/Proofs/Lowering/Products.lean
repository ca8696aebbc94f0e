import Gateware.Proofs.Lowering.Meaning
import Gateware.Proofs.Semantics.NumericStd
import Mathlib.Algebra.BigOperators.Group.List.Basic

/-!
# Products of numbers with a sign

A product of several factors is lowered to a chain in which every product is cut back to the width
of the factors.  Products may be regrouped and reordered freely if cutting back means computing
modulo two to the power of the width.  The `resize` of `numeric_std` does something else to a number
with a sign, so this file says what a chain comes to when a tool computes it.

One link of a chain keeps the sign of the exact product and its low bits (`toInt_link`).  For a
whole chain, by induction over the factors, this gives `signedChain`.  Its low bits are those of the exact
product, however the factors are grouped (`signedChain_emod`), and it is the exact product if no
product on the way needs more room than there is (`signedChain_of_fits`).  Otherwise the sign can be
wrong, and it depends on the order of the factors.
-/

namespace Gateware

open Hardware (Expr Signals standardResize wrapKeepingSign)

/-! ## Chains of numbers -/

/-- What a chain of factors with a sign comes to at a width: the first is multiplied with the others
from the last to the second, and every product is cut back at once. -/
def signedChain (width : Nat) (first : Int) (rest : List Int) : Int :=
  rest.foldr (fun x inner => wrapKeepingSign width (x * inner)) first

section

variable {width : Nat} {first : Int}

/-- Below the sign, a chain is the exact product. -/
lemma signedChain_emod (width : Nat) (first : Int) (rest : List Int) :
    signedChain width first rest % 2 ^ (width - 1) = (rest.prod * first) % 2 ^ (width - 1) := by
  induction rest with
  | nil => simp [signedChain]
  | cons x rest ih =>
      have hstep : signedChain width first (x :: rest) =
          wrapKeepingSign width (x * signedChain width first rest) := rfl
      rw [hstep, Hardware.wrapKeepingSign_emod, Int.mul_emod, ih, ← Int.mul_emod, List.prod_cons,
        mul_assoc]

/-- A chain in which every product has room is the exact product. -/
lemma signedChain_of_fits {rest : List Int}
    (h : ∀ tail, tail <:+ rest →
      -2 ^ (width - 1) ≤ tail.prod * first ∧ tail.prod * first < 2 ^ (width - 1)) :
    signedChain width first rest = rest.prod * first := by
  induction rest with
  | nil => simp [signedChain]
  | cons x rest ih =>
      have hinner : signedChain width first rest = rest.prod * first :=
        ih fun tail htail => h tail (htail.trans (List.suffix_cons x rest))
      have hstep : signedChain width first (x :: rest) =
          wrapKeepingSign width (x * signedChain width first rest) := rfl
      obtain ⟨hlow, hhigh⟩ := h (x :: rest) List.suffix_rfl
      rw [List.prod_cons, mul_assoc] at hlow hhigh ⊢
      rw [hstep, hinner, Hardware.wrapKeepingSign_of_fits hlow hhigh]

end

/-! ## Chains of expressions -/

section

variable {signals : Signals} {w : Nat} {l r e : Expr} {x y first : BitVec w}

/-- One link keeps the sign of the exact product, and its low bits. -/
lemma toInt_link (hw : 0 < w) (x y : BitVec w) :
    (standardResize true w (x.signExtend (w + w) * y.signExtend (w + w))).toInt =
      wrapKeepingSign w (x.toInt * y.toInt) := by
  have hnarrow : ¬ w + w ≤ w := by omega
  rw [standardResize, if_pos rfl, if_neg hnarrow, Hardware.toInt_cutKeepingSign _ hw (by omega),
    Hardware.toInt_product]

lemma evalWith_link (hl : l.evalWith standardResize signals = .ok (.vector ⟨⟨w, true⟩, x⟩))
    (hr : r.evalWith standardResize signals = .ok (.vector ⟨⟨w, true⟩, y⟩)) :
    (link .mul w l r).evalWith standardResize signals = .ok (.vector ⟨⟨w, true⟩,
      standardResize true w (x.signExtend (w + w) * y.signExtend (w + w))⟩) := by
  have hproduct : Hardware.binaryValue .mul ⟨⟨w, true⟩, x⟩ ⟨⟨w, true⟩, y⟩ =
      .ok (.vector ⟨⟨w + w, true⟩, x.signExtend (w + w) * y.signExtend (w + w)⟩) :=
    Hardware.binaryValue_same rfl ⟨w, true⟩ x y
  simp only [link, if_true, Expr.evalWith, hl, hr, except_bind, Except.bind, Value.bits_vector,
    hproduct, except_pure]

lemma evalWith_chain (hw : 0 < w)
    (he : e.evalWith standardResize signals = .ok (.vector ⟨⟨w, true⟩, first⟩))
    {es : List Expr} {rest : List (BitVec w)}
    (hes : List.Forall₂
      (fun e row => e.evalWith standardResize signals = .ok (.vector ⟨⟨w, true⟩, row⟩)) es rest) :
    ∃ result, (es.foldr (link .mul w) e).evalWith standardResize signals =
        .ok (.vector ⟨⟨w, true⟩, result⟩) ∧
      result.toInt = signedChain w first.toInt (rest.map BitVec.toInt) := by
  induction hes with
  | nil => exact ⟨first, he, rfl⟩
  | cons hx _ ih =>
      obtain ⟨inner, hinner, hvalue⟩ := ih
      refine ⟨_, evalWith_link hx hinner, ?_⟩
      rw [toInt_link hw, hvalue]
      rfl

end

/-- The low bits of a row are those of a number that it agrees with below its highest bit. -/
lemma setWidth_eq_ofInt {w low : Nat} {row : BitVec w} {n : Int} (hlow : low ≤ w)
    (h : row.toInt % 2 ^ low = n % 2 ^ low) : row.setWidth low = BitVec.ofInt low n := by
  apply BitVec.eq_of_toNat_eq
  rw [Hardware.toInt_emod_two_pow row hlow] at h
  rw [BitVec.toNat_setWidth, BitVec.toNat_ofInt]
  push_cast
  rw [← h]
  rfl

/-! ## Lowered products -/

/-- An operand is lowered to a number of a type, and a tool computes a row for it. -/
def Carries {κ : Type} (model : CostModel κ) (m : Program.Member) (signals : Signals) (t : BitType)
    (e : Program.Expr) (row : BitVec t.width) : Prop :=
  ∃ x, (lower model m false e).result = .ok x ∧ x.type = t ∧
    x.expr.evalWith standardResize signals = .ok (.vector ⟨t, row⟩)

section

variable {κ : Type} {model : CostModel κ} {m : Program.Member} {signals : Signals} {t : BitType}

lemma convert_same (t : BitType) (e : Expr) : convert t t e = e := by simp [convert]

/-- Operands of the type of the operation are not converted. -/
lemma Carries.toType {e : Program.Expr} {row : BitVec t.width} {x : Lowered κ}
    (h : Carries model m signals t e row) (hx : (lower model m false e).result = .ok x) :
    (x.toType t).evalWith standardResize signals = .ok (.vector ⟨t, row⟩) := by
  obtain ⟨y, hy, rfl, hrow⟩ := h
  rw [hx] at hy
  cases hy
  rwa [Lowered.toType, convert_same]

lemma carried_operands {es : List Program.Expr} {rows : List (BitVec t.width)}
    {xs : List (Lowered κ)} (h : List.Forall₂ (Carries model m signals t) es rows)
    (hxs : List.Forall₂ (fun e x => (lower model m false e).result = .ok x) es xs) :
    List.Forall₂ (fun e row => e.evalWith standardResize signals = .ok (.vector ⟨t, row⟩))
      (xs.map fun x => x.toType t) rows := by
  induction h generalizing xs with
  | nil =>
      cases hxs
      exact .nil
  | cons hrow _ ih =>
      cases hxs with
      | cons hx hrest => exact .cons (hrow.toType hx) (ih hrest)

end

/-- **What a lowered product of numbers with a sign comes to.**  If all factors have the type of the
product, a tool computes `signedChain` of them.  All bits but the highest are those of the exact
product.  The whole row is, if no product of the first factor with the last ones needs more than the
width. -/
theorem signed_products_keep_sign {κ : Type} (model : CostModel κ) (m : Program.Member) (top : Bool)
    (es : List Program.Expr) (w : Nat) (x : Lowered κ) (signals : Signals) (first : BitVec w)
    (rest : List (BitVec w))
    (hx : (lower model m top (.binary .mul es ⟨w, true⟩)).result = .ok x)
    (hes : List.Forall₂ (Carries model m signals ⟨w, true⟩) es (first :: rest)) :
    ∃ result : BitVec w,
      x.expr.evalWith standardResize signals = .ok (.vector ⟨⟨w, true⟩, result⟩) ∧
      result.toInt = signedChain w first.toInt (rest.map BitVec.toInt) ∧
      result.setWidth (w - 1) =
        BitVec.ofInt (w - 1) ((rest.map BitVec.toInt).prod * first.toInt) ∧
      ((∀ tail, tail <:+ rest.map BitVec.toInt → -2 ^ (w - 1) ≤ tail.prod * first.toInt ∧
          tail.prod * first.toInt < 2 ^ (w - 1)) →
        result = BitVec.ofInt w ((rest.map BitVec.toInt).prod * first.toInt)) := by
  obtain ⟨hw, -, -, -, cost, -, xs, hxs, hjoin⟩ := lower_binary.mp hx
  cases hjoin with
  | binary hop => simp [BinaryOp.isAssociative] at hop
  | associative hop =>
      have hrows := carried_operands hes hxs
      cases xs with
      | nil => cases hrows
      | cons y ys =>
          rw [List.map_cons] at hrows
          cases hrows with
          | cons hfirst hrest =>
              obtain ⟨result, heval, hvalue⟩ := evalWith_chain hw hfirst hrest
              refine ⟨result, ?_, hvalue, ?_, fun hfits => ?_⟩
              · simpa [Lowered.associative, chainExpr_cons] using heval
              · apply setWidth_eq_ofInt (by omega)
                rw [hvalue, signedChain_emod]
              · rw [← signedChain_of_fits hfits, ← hvalue, BitVec.ofInt_toInt]

/-! ## Three factors -/

/-- A member with three inputs of eight bits with a sign, that multiplies those with the given
names. -/
def Program.Member.product (factors : List String) : Program.Member where
  name := "Product"
  inputs := [⟨"a", ⟨8, true⟩⟩, ⟨"b", ⟨8, true⟩⟩, ⟨"c", ⟨8, true⟩⟩]
  result := ⟨8, true⟩
  body := .binary .mul (factors.map .input) ⟨8, true⟩

/-- Values for the inputs of that member. -/
def Program.Assignment.factors (a b c : Int) : Program.Assignment := fun input =>
  .ofInt _ (if input.name = "a" then a else if input.name = "b" then b else c)

/-- Five times minus three times seven has room at every step. -/
theorem signed_products_keep_sign_small :
    ∃ x, (lower .free (.product ["a", "b", "c"]) true
        (Program.Member.product ["a", "b", "c"]).body).result = .ok x ∧
      x.expr.evalWith standardResize
          ((Program.Member.product ["a", "b", "c"]).signals (.factors 5 (-3) 7)) =
        .ok (.vector ⟨⟨8, true⟩, .ofInt 8 (-105)⟩) := by
  let signals := (Program.Member.product ["a", "b", "c"]).signals (.factors 5 (-3) 7)
  have ha : Carries .free (.product ["a", "b", "c"]) signals ⟨8, true⟩ (.input "a") (.ofInt 8 5) :=
    ⟨_, rfl, rfl, rfl⟩
  have hb : Carries .free (.product ["a", "b", "c"]) signals ⟨8, true⟩ (.input "b")
      (.ofInt 8 (-3)) := ⟨_, rfl, rfl, rfl⟩
  have hc : Carries .free (.product ["a", "b", "c"]) signals ⟨8, true⟩ (.input "c") (.ofInt 8 7) :=
    ⟨_, rfl, rfl, rfl⟩
  have hfirst : (BitVec.ofInt 8 5).toInt = 5 := by decide
  have hrest : [BitVec.ofInt 8 (-3), BitVec.ofInt 8 7].map BitVec.toInt = [-3, 7] := by decide
  obtain ⟨result, heval, -, -, hexact⟩ := signed_products_keep_sign .free
    (.product ["a", "b", "c"]) true _ 8 _ signals (.ofInt 8 5) [.ofInt 8 (-3), .ofInt 8 7] rfl
    (.cons ha (.cons hb (.cons hc .nil)))
  rw [hfirst, hrest] at hexact
  have hfits : result = BitVec.ofInt 8 (-105) := by
    refine hexact fun tail htail => ?_
    simp only [List.suffix_cons_iff, List.suffix_nil] at htail
    rcases htail with rfl | rfl | rfl <;> decide
  exact ⟨_, rfl, hfits ▸ heval⟩

/-- Sixteen times sixteen times minus one is zero modulo `2 ^ 8`.  The chain of the factors in this
order comes to `-128`, and to zero with the last two exchanged. -/
theorem signed_product_wraps_otherwise :
    ∃ x y, (lower .free (.product ["a", "b", "c"]) true
        (Program.Member.product ["a", "b", "c"]).body).result = .ok x ∧
      (lower .free (.product ["a", "c", "b"]) true
        (Program.Member.product ["a", "c", "b"]).body).result = .ok y ∧
      x.expr.evalWith standardResize
          ((Program.Member.product ["a", "b", "c"]).signals (.factors 16 16 (-1))) =
        .ok (.vector ⟨⟨8, true⟩, .ofInt 8 (-128)⟩) ∧
      y.expr.evalWith standardResize
          ((Program.Member.product ["a", "c", "b"]).signals (.factors 16 16 (-1))) =
        .ok (.vector ⟨⟨8, true⟩, .ofInt 8 0⟩) ∧
      BitVec.ofInt 8 (16 * 16 * -1) = .ofInt 8 0 ∧
      BitVec.ofInt 8 (-128) ≠ .ofInt 8 (16 * 16 * -1) :=
  ⟨_, _, rfl, rfl, rfl, rfl, by decide, by decide⟩

end Gateware
