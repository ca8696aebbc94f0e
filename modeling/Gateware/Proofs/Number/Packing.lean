import Gateware.Number.Exact
import Gateware.Proofs.Number.Rounding
import Mathlib

/-!
# Floating-point numbers as bits

The bits of a floating-point number hold its mantissa and exponent in canonical form
(`canonical_of_unpack`), and any two in that form, with an exponent that is not too large, can be
put into bits and taken out again (`unpack_pack`).
-/

namespace Gateware

open Float.Model Float.Model.UnpackedFloat

/-- The mantissa of a normal number, with the bit that is not kept. -/
lemma toNat_implicit_append (b : BitVec 52) : (1#1 ++ b).toNat = 2 ^ 52 + b.toNat := by
  rw [BitVec.toNat_append, ← Nat.shiftLeft_add_eq_or_of_lt b.isLt]
  rfl

section

variable {s : Sign} {m : ℕ} {e : ℤ} {hm : 0 < m}

lemma canonical_of_unpack {f : Float.Model} (h : f.unpack = .finite s m e hm) :
    Canonical m e ∧ e ≤ 971 := by
  have hbias : Format.binary64.exponentBias = 1023 := rfl
  have hlt := (@unpackMantissa Format.binary64 f.toBits.toBitVec).isLt
  change _ < 2 ^ 52 at hlt
  have hlt' := (@unpackExponent Format.binary64 f.toBits.toBitVec).isLt
  change _ < 2 ^ 11 at hlt'
  unfold Float.Model.unpack UnpackedFloat.unpack at h
  dsimp only at h
  split_ifs at h with hspecial hnone hzero hsubnormal
  · injection h with hs hmantissa hexponent
    rw [hzero, hbias] at hexponent
    simp only [BitVec.toNat_zero] at hexponent
    exact ⟨⟨hm, by omega, by omega, .inr (by omega)⟩, by omega⟩
  · injection h with hs hmantissa hexponent
    rw [toNat_implicit_append] at hmantissa
    rw [hbias] at hexponent
    have hpos : (@unpackExponent Format.binary64 f.toBits.toBitVec).toNat ≠ 0 :=
      fun hnat => hzero (BitVec.eq_of_toNat_eq hnat)
    have hmost : (@unpackExponent Format.binary64 f.toBits.toBitVec).toNat ≠ 2047 :=
      fun hnat => hspecial (BitVec.eq_of_toNat_eq hnat)
    exact ⟨⟨hm, by omega, by omega, .inl (by omega)⟩, by omega⟩

lemma ofModel_pack {x : Float} {u : UnpackedFloat} (h : x.toModel.unpack = u) :
    Float.ofModel (Float.Model.pack u) = x := by
  subst h
  obtain ⟨⟨bits, hvalid⟩⟩ := x
  have hpack := pack_unpack_of_valid hvalid
  simp only [Float.Model.pack, Float.Model.unpack, Float.ofModel.injEq, Float.Model.mk.injEq]
  rw [hpack]

lemma ofNat_ne_ofNat {w n k : ℕ} (hn : n < 2 ^ w) (hk : k < 2 ^ w) (h : n ≠ k) :
    BitVec.ofNat w n ≠ BitVec.ofNat w k := by
  intro heq
  have hnat := congrArg BitVec.toNat heq
  rw [BitVec.toNat_ofNat, BitVec.toNat_ofNat, Nat.mod_eq_of_lt hn, Nat.mod_eq_of_lt hk] at hnat
  exact h hnat

/-- A normal number is put into bits without its first bit. -/
lemma unpack_normal (hfull : 2 ^ 52 ≤ m) (hlt : m < 2 ^ 53) {biased : ℕ} (hpos : 0 < biased)
    (hmost : biased < 2047) (he : (biased : ℤ) = e + 1075) :
    UnpackedFloat.unpack Format.binary64
      (packComponents Format.binary64 s (BitVec.ofNat 11 biased) (BitVec.ofNat 52 m)) =
        .finite s m e hm := by
  have hmantissa : (1#1 ++ BitVec.ofNat 52 m).toNat = m := by
    rw [toNat_implicit_append, BitVec.toNat_ofNat]
    omega
  have hexponent : (BitVec.ofNat 11 biased).toNat = biased := by
    rw [BitVec.toNat_ofNat]
    omega
  have hspecial : BitVec.ofNat 11 biased ≠ -1#11 :=
    ofNat_ne_ofNat (k := 2047) (by omega) (by omega) (by omega)
  have hzero : BitVec.ofNat 11 biased ≠ 0#11 := ofNat_ne_ofNat (by omega) (by omega) (by omega)
  unfold UnpackedFloat.unpack
  simp only [unpackMantissa_packComponents, unpackExponent_packComponents,
    unpackSign_packComponents, Sign.ofBitVec_toBitVec, hspecial, hzero, if_false,
    UnpackedFloat.finite.injEq, true_and]
  refine ⟨hmantissa, ?_⟩
  rw [hexponent]
  show (biased : ℤ) - (1023 + 52) = e
  omega

/-- A number below the normal ones has the least exponent. -/
lemma unpack_subnormal (hlt : m < 2 ^ 52) (he : e = -1074) :
    UnpackedFloat.unpack Format.binary64
      (packComponents Format.binary64 s 0#11 (BitVec.ofNat 52 m)) = .finite s m e hm := by
  have hmantissa : (BitVec.ofNat 52 m).toNat = m := by
    rw [BitVec.toNat_ofNat]
    omega
  have hne : BitVec.ofNat 52 m ≠ 0#52 := ofNat_ne_ofNat hlt (by omega) hm.ne'
  have hspecial : (0#11) ≠ -1#11 := by decide
  unfold UnpackedFloat.unpack
  simp only [unpackMantissa_packComponents, unpackExponent_packComponents,
    unpackSign_packComponents, Sign.ofBitVec_toBitVec, hspecial, hne, if_false, if_true,
    dite_false, UnpackedFloat.finite.injEq, true_and]
  exact ⟨hmantissa, he.symm⟩

/-- A number that is put into bits can be taken out again. -/
lemma unpack_pack (hcanonical : Canonical m e) (he : e ≤ 971) :
    (Float.Model.pack (.finite s m e hm)).unpack = .finite s m e hm := by
  obtain ⟨-, hlt, hleast, hnormal⟩ := hcanonical
  have hbiased : ((e + 1023 + 52).toNat : ℤ) = e + 1075 := by omega
  generalize hb : (e + 1023 + 52).toNat = biased at hbiased
  have hpack : UnpackedFloat.pack Format.binary64 (.finite s m e hm) =
      if 2 ^ 11 ≤ biased + 1 then packedInfinity Format.binary64 s
      else if m.log2 + 1 = 53 then
        packComponents Format.binary64 s (BitVec.ofNat 11 biased) (BitVec.ofNat 52 m)
      else packComponents Format.binary64 s 0#11 (BitVec.ofNat 52 m) := by
    rw [← hb]
    rfl
  rw [if_neg (by omega)] at hpack
  show UnpackedFloat.unpack Format.binary64 (UnpackedFloat.pack Format.binary64 _) = _
  rw [hpack]
  by_cases hfull : 2 ^ 52 ≤ m
  · have hlog : m.log2 = 52 := (Nat.log2_eq_iff hm.ne').mpr ⟨hfull, hlt⟩
    rw [if_pos (by omega)]
    exact unpack_normal hfull hlt (by omega) (by omega) hbiased
  · have hlog : m.log2 < 52 := (Nat.log2_lt hm.ne').mpr (by omega)
    rw [if_neg (by omega)]
    exact unpack_subnormal (by omega) (by omega)

end

end Gateware
