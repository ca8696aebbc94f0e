import Gateware.Number.Shortest
import Gateware.Proofs.Number.Rounding
import Mathlib.Algebra.Order.Floor.Semifield

/-!
# The shortest decimal of a floating-point number

The interval that is searched for a decimal holds exactly the numbers that are rounded to the
floating-point number in question (`Span.contains_iff`), so what is found is read back as that
number.  The search does find something: on a grid with seventeen digits the points are so close
that the one after the middle lies in the interval (`Span.contains_succ`).
-/

namespace Gateware

/-- The value of a decimal. -/
def Decimal.value (x : Decimal) : ℚ := (x.digits : ℚ) / 10 ^ x.places

lemma Decimal.fraction_value (x : Decimal) :
    0 < x.fraction.2 ∧ ((x.fraction.1 : ℚ)) / x.fraction.2 = x.value := by
  have hten : (10 : ℚ) ≠ 0 := by norm_num
  refine ⟨Nat.pow_pos (by norm_num), ?_⟩
  simp only [fraction, value, Nat.pow_eq, zpow_eq_div hten x.places]
  push_cast
  field_simp

namespace Span

section

variable {m n d : ℕ} {e : ℤ}

lemma ofFinite_below (m : ℕ) (e : ℤ) :
    ((ofFinite m e).below : ℚ) = 4 * 2 ^ e.toNat * reachBelow m e := by
  have hcondition : (m == 0x10000000000000 && e != -1074) = true ↔ m = 2 ^ 52 ∧ e ≠ -1074 := by
    simp
  simp only [ofFinite, Nat.pow_eq, reachBelow, hcondition]
  split_ifs
  · push_cast
    ring
  · push_cast
    ring

lemma ofFinite_low (hm : 0 < m) :
    (((ofFinite m e).mid - (ofFinite m e).below : ℕ) : ℚ) =
      4 * 2 ^ e.toNat * (m - reachBelow m e) := by
  have hmid : (ofFinite m e).mid = 4 * m * 2 ^ e.toNat := rfl
  have hle : (ofFinite m e).below ≤ (ofFinite m e).mid := by
    have hunit : 2 ^ e.toNat ≤ m * 2 ^ e.toNat := Nat.le_mul_of_pos_left _ hm
    rw [hmid]
    simp only [ofFinite, Nat.pow_eq]
    split_ifs
    · linarith
    · linarith
  rw [Nat.cast_sub hle, ofFinite_below, hmid]
  push_cast
  ring

lemma ofFinite_high (m : ℕ) (e : ℤ) :
    (((ofFinite m e).mid + (ofFinite m e).above : ℕ) : ℚ) = 4 * 2 ^ e.toNat * (m + 1 / 2) := by
  simp only [ofFinite, Nat.pow_eq]
  push_cast
  ring

/-- The interval holds the numbers that are rounded to the number in its middle. -/
lemma contains_iff (hm : 0 < m) (hd : 0 < d) :
    (ofFinite m e).contains n d = true ↔ RoundsTo ((n : ℚ) / d) m e := by
  have hd' : (0 : ℚ) < d := by exact_mod_cast hd
  have hunit : (0 : ℚ) < 4 * 2 ^ e.toNat * d := by positivity
  -- Both sides are compared after multiplication with the denominators.
  have hvalue : (n : ℚ) / d / 2 ^ e =
      ((n * (ofFinite m e).den : ℕ) : ℚ) / (4 * 2 ^ e.toNat * d) := by
    rw [zpow_eq_div two_ne_zero]
    simp only [ofFinite, Nat.pow_eq]
    push_cast
    field_simp
  have hlow : ((((ofFinite m e).mid - (ofFinite m e).below) * d : ℕ) : ℚ) =
      (m - reachBelow m e) * (4 * 2 ^ e.toNat * d) := by
    push_cast only [Nat.cast_mul]
    rw [ofFinite_low hm]
    ring
  have hhigh : ((((ofFinite m e).mid + (ofFinite m e).above) * d : ℕ) : ℚ) =
      (m + 1 / 2) * (4 * 2 ^ e.toNat * d) := by
    push_cast only [Nat.cast_mul]
    rw [ofFinite_high]
    ring
  unfold RoundsTo
  rw [hvalue, le_div_iff₀ hunit, div_le_iff₀ hunit, div_eq_iff hunit.ne', div_eq_iff hunit.ne',
    ← hlow, ← hhigh]
  norm_cast
  have hclosed : (ofFinite m e).closed = (m % 2 == 0) := rfl
  unfold contains
  dsimp only
  rw [hclosed]
  generalize ((ofFinite m e).mid - (ofFinite m e).below) * d = low
  generalize ((ofFinite m e).mid + (ofFinite m e).above) * d = high
  generalize n * (ofFinite m e).den = x
  by_cases heven : m % 2 = 0
  · simp [heven]
  · simp only [heven, beq_iff_eq, if_false, Bool.and_eq_true, decide_eq_true_eq, imp_false, not_or]
    omega

end

/-! ## Grids -/

section

variable {s : Span} {places : ℤ} {x : Decimal}

lemma contains_of_onGrid (h : s.onGrid places = some x) :
    s.contains x.fraction.1 x.fraction.2 = true := by
  unfold onGrid at h
  dsimp only at h
  split at h
  · split_ifs at h <;> cases h <;> assumption
  · cases h
    assumption
  · cases h
    assumption
  · cases h

lemma exists_onGrid
    (h : s.contains (Decimal.fraction ⟨s.floorAt places + 1, places⟩).1
      (Decimal.fraction ⟨s.floorAt places + 1, places⟩).2 = true) :
    ∃ x, s.onGrid places = some x := by
  -- Both points of the grid have the same denominator.
  have hhigh : s.contains (Decimal.fraction ⟨s.floorAt places + 1, places⟩).1
      (Decimal.fraction ⟨s.floorAt places, places⟩).2 = true := h
  unfold onGrid
  dsimp only
  rw [hhigh]
  split
  · split_ifs
    · exact ⟨_, rfl⟩
    · exact ⟨_, rfl⟩
  · exact ⟨_, rfl⟩
  · exact ⟨_, rfl⟩
  · next hfalse => cases hfalse

lemma exists_onGrid_of_search : ∀ {count : ℕ} {places : ℤ}, s.search places count = some x →
    ∃ places, s.onGrid places = some x
  | 0, places, h => by cases h
  | count + 1, places, h => by
      rw [search] at h
      cases hgrid : s.onGrid places with
      | some y =>
          rw [hgrid] at h
          exact ⟨places, hgrid.trans h⟩
      | none =>
          rw [hgrid] at h
          exact exists_onGrid_of_search h

lemma exists_search : ∀ {count : ℕ} {places : ℤ} (k : ℕ), k < count →
    (∃ x, s.onGrid (places + k) = some x) → ∃ x, s.search places count = some x
  | count + 1, places, k, hk, hgrid => by
      rw [search]
      cases hfirst : s.onGrid places with
      | some y => exact ⟨y, rfl⟩
      | none =>
          cases k with
          | zero =>
              obtain ⟨x, hx⟩ := hgrid
              simp [hfirst] at hx
          | succ k =>
              refine exists_search k (by omega) ?_
              have hplaces : places + 1 + (k : ℤ) = places + (k + 1 : ℕ) := by omega
              rwa [hplaces]

end

/-! ## Where the search starts -/

/-- The number in the middle of an interval. -/
def middle (s : Span) : ℚ := (s.mid : ℚ) / s.den

lemma scaled_middle (s : Span) (places : ℤ) :
    s.middle * 10 ^ places =
      ((s.mid * 10 ^ places.toNat : ℕ) : ℚ) / (s.den * 10 ^ (-places).toNat : ℕ) := by
  have hten : (10 : ℚ) ≠ 0 := by norm_num
  rw [middle, zpow_eq_div hten places]
  push_cast
  rw [div_mul_div_comm]

lemma floorAt_eq (s : Span) (places : ℤ) : s.floorAt places = ⌊s.middle * 10 ^ places⌋₊ := by
  rw [scaled_middle, Nat.floor_div_eq_div]
  rfl

lemma leadingPlaces_shows {num den n : ℕ} (h : den ≤ num * 10 ^ n) : ∀ {fuel k₀ : ℕ},
    n = k₀ + fuel → den ≤ num * 10 ^ leadingPlaces num den k₀ fuel
  | 0, k₀, hn => by
      rw [hn] at h
      exact h
  | fuel + 1, k₀, hn => by
      unfold leadingPlaces
      split_ifs with hthere
      · exact hthere
      · exact leadingPlaces_shows h (by omega)

/-- The middle shows a digit on the first grid. -/
lemma one_le_firstPlaces {s : Span} {n : ℕ} (hden : 0 < s.den) (h : s.den ≤ s.mid * 10 ^ n)
    (hn : n = 400) : 1 ≤ s.middle * 10 ^ s.firstPlaces := by
  have hdenominator : (0 : ℚ) < (s.den * 10 ^ (-s.firstPlaces).toNat : ℕ) := by
    exact_mod_cast Nat.mul_pos hden (Nat.pow_pos (by norm_num))
  rw [scaled_middle, one_le_div hdenominator, Nat.cast_le]
  unfold firstPlaces
  split_ifs with hlarge
  · have hquotient : 0 < s.mid / s.den := Nat.div_pos hlarge hden
    have hlength : 0 < (Nat.toDigits 10 (s.mid / s.den)).length := Nat.length_toDigits_pos
    generalize hcount : (Nat.toDigits 10 (s.mid / s.den)).length = count at hlength
    have hdown : (-(1 - (count : ℤ))).toNat = count - 1 := by omega
    have hup : (1 - (count : ℤ)).toNat = 0 := by omega
    rw [hdown, hup, pow_zero, mul_one, mul_comm, ← Nat.le_div_iff_mul_le hden]
    -- Below that power of ten the number would have fewer digits.
    by_cases hone : count - 1 = 0
    · rw [hone, pow_zero]
      exact hquotient
    · by_contra hless
      have hshort := (Nat.length_toDigits_le_iff (by norm_num : 1 < 10)
        (Nat.pos_of_ne_zero hone)).mpr (not_le.mp hless)
      omega
  · have hshows := leadingPlaces_shows h (hn.trans (Nat.zero_add 400).symm)
    have hdown : (-((leadingPlaces s.mid s.den 0 400 : ℕ) : ℤ)).toNat = 0 := by omega
    rw [hdown, pow_zero, mul_one, Int.toNat_natCast]
    exact hshows

/-! ## Seventeen digits suffice -/

section

variable {m : ℕ} {e : ℤ}

lemma middle_ofFinite (m : ℕ) (e : ℤ) : (ofFinite m e).middle = m * 2 ^ e := by
  rw [middle, zpow_eq_div two_ne_zero e]
  simp only [ofFinite, Nat.pow_eq]
  push_cast
  field_simp

lemma ofFinite_den_le (hcanonical : Canonical m e) {n : ℕ} (hn : n = 400) :
    (ofFinite m e).den ≤ (ofFinite m e).mid * 10 ^ n := by
  have hpos := hcanonical.pos
  have hleast := hcanonical.least
  have hmid : (ofFinite m e).mid = 4 * (m * 2 ^ e.toNat) := by
    rw [← mul_assoc]
    rfl
  have hden : (ofFinite m e).den = 4 * 2 ^ (-e).toNat := rfl
  have hone : 1 ≤ m * 2 ^ e.toNat := Nat.mul_pos hpos (Nat.pow_pos two_pos)
  have hpower : 2 ^ (-e).toNat ≤ 10 ^ n := two_pow_le_ten_pow (by omega)
  rw [hmid, hden, mul_assoc]
  refine Nat.mul_le_mul_left 4 ?_
  exact hpower.trans (Nat.le_mul_of_pos_left _ hone)

/-- With seventeen digits more than the first one the points of the grid are closer to each other
than the middle of the interval is to its upper end. -/
lemma contains_succ (hcanonical : Canonical m e) :
    let places := (ofFinite m e).firstPlaces + 17
    let next : Decimal := ⟨(ofFinite m e).floorAt places + 1, places⟩
    (ofFinite m e).contains next.fraction.1 next.fraction.2 = true := by
  intro places next
  have hscale : (0 : ℚ) < 10 ^ places := by positivity
  have hunit : (0 : ℚ) < 2 ^ e := by positivity
  have hmant : (m : ℚ) < 2 ^ 53 := by exact_mod_cast hcanonical.lt
  obtain ⟨hdenominator, hnext⟩ := next.fraction_value
  rw [contains_iff hcanonical.pos hdenominator, hnext]
  have hvalue : next.value * 10 ^ places = (⌊m * 2 ^ e * (10 : ℚ) ^ places⌋₊ : ℚ) + 1 := by
    have hdigits : (next.digits : ℚ) = (⌊m * 2 ^ e * (10 : ℚ) ^ places⌋₊ : ℚ) + 1 := by
      rw [← middle_ofFinite, ← floorAt_eq]
      exact Nat.cast_succ _
    rw [← hdigits]
    exact div_mul_cancel₀ _ hscale.ne'
  -- The step of the grid is at most a part of 10 ^ 17 of the number.
  have hstep : 10 ^ 17 ≤ m * 2 ^ e * (10 : ℚ) ^ places := by
    have hden : 0 < (ofFinite m e).den := Nat.mul_pos (by norm_num) (Nat.pow_pos two_pos)
    have hfirst := one_le_firstPlaces hden (ofFinite_den_le hcanonical rfl) rfl
    rw [middle_ofFinite] at hfirst
    have hten : (10 : ℚ) ≠ 0 := by norm_num
    have hsplit : (10 : ℚ) ^ places = 10 ^ (ofFinite m e).firstPlaces * 10 ^ 17 := by
      rw [← zpow_natCast (10 : ℚ) 17, ← zpow_add₀ hten]
      rfl
    rw [hsplit, ← mul_assoc]
    linarith
  have habove : (m : ℚ) * 2 ^ e < next.value := by
    have hfloor := Nat.lt_floor_add_one (m * 2 ^ e * (10 : ℚ) ^ places)
    rw [← hvalue] at hfloor
    exact lt_of_mul_lt_mul_right hfloor hscale.le
  have hbelow : next.value < (m + 1 / 2) * 2 ^ e := by
    have hfloor := Nat.floor_le (by positivity : 0 ≤ m * 2 ^ e * (10 : ℚ) ^ places)
    have hshift : next.value * 10 ^ places ≤ m * 2 ^ e * (10 : ℚ) ^ places + 1 := by linarith
    refine lt_of_mul_lt_mul_right ?_ hscale.le
    have hwide : 10 ^ 17 < 2 ^ 53 * (2 ^ e * (10 : ℚ) ^ places) := by
      calc (10 : ℚ) ^ 17 ≤ m * (2 ^ e * 10 ^ places) := by linarith
        _ < 2 ^ 53 * (2 ^ e * 10 ^ places) := by gcongr
    linarith
  have hreach := mul_pos (reachBelow_pos m e) hunit
  refine ⟨?_, ?_, ?_⟩
  · rw [le_div_iff₀ hunit]
    linarith
  · rw [div_le_iff₀ hunit]
    exact hbelow.le
  · rintro (hlow | hhigh)
    · rw [div_eq_iff hunit.ne'] at hlow
      linarith
    · rw [div_eq_iff hunit.ne'] at hhigh
      linarith

/-- The decimal that is found is rounded to the number it was searched for. -/
lemma shortest_roundsTo (hcanonical : Canonical m e) :
    RoundsTo (ofFinite m e).shortest.value m e := by
  obtain ⟨x, hx⟩ : ∃ x, (ofFinite m e).search (ofFinite m e).firstPlaces 18 = some x :=
    exists_search 17 (by norm_num) (exists_onGrid (contains_succ hcanonical))
  have hshortest : (ofFinite m e).shortest = x := by rw [shortest, hx, Option.getD_some]
  obtain ⟨places, hgrid⟩ := exists_onGrid_of_search hx
  obtain ⟨hdenominator, hvalue⟩ := x.fraction_value
  rw [hshortest, ← hvalue, ← contains_iff hcanonical.pos hdenominator]
  exact contains_of_onGrid hgrid

end

end Span

end Gateware
