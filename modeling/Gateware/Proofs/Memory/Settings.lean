import Gateware.Device.Boards
import Gateware.Proofs.Memory.Layout
import Gateware.Proofs.Results
import Mathlib.Algebra.Order.Ring.Int

/-!
# Memory settings over every run

A device changes its memory settings as it likes: it offers alignments and header sizes, good ones
and bad ones, takes over what the user wants, and goes on or stops after an error as it sees fit.
`Reached` are the settings that come up in any such run.  All of them are `Valid`: the alignment is
a power of two, and both numbers are within the range of a signed 64-bit number.

The argument is one step lemma, `MemoryChange.apply_valid`.  It rests on what the two setters
accept (`setAlignment_eq_ok`, `setMinimumPrefix_eq_ok`), since overrides go through the setters
too.  What a device ends with is then valid by `MemoryScript.run_reached`, and rounding up to its
alignment gives the least multiple, or the largest number if that is out of range
(`align_isLeast`).
-/

namespace Gateware

namespace MemorySettings

/-- The alignment is a power of two, and both numbers are in range. -/
structure Valid (m : MemorySettings) : Prop where
  alignment : ∃ k ≤ 62, m.alignment = 2 ^ k
  minimumPrefix : m.minimumPrefix ≤ 2 ^ 63 - 1

/-- Settings that come up when a device makes one change after another. -/
inductive Reached : MemorySettings → Prop
  | start : Reached {}
  | change {m : MemorySettings} (c : MemoryChange) (h : Reached m) : Reached (c.apply m).settings

lemma valid_start : Valid {} where
  alignment := ⟨0, by omega, rfl⟩
  minimumPrefix := by decide

lemma Valid.alignment_pos {m : MemorySettings} (h : m.Valid) : 0 < m.alignment := by
  obtain ⟨k, -, hk⟩ := h.alignment
  rw [hk]
  exact Nat.two_pow_pos k

end MemorySettings

/-! ## The setters -/

lemma isPowerOfTwo_iff {n : Nat} : isPowerOfTwo n = true ↔ ∃ k, n = 2 ^ k := by
  rw [isPowerOfTwo, beq_iff_eq]
  constructor
  · intro h
    exact ⟨n.log2, h⟩
  · rintro ⟨k, rfl⟩
    rw [Nat.log2_two_pow]
    rfl

namespace MemorySettings

variable {m m' : MemorySettings} {v : Int64} {e : DeviceError}

lemma toNat_two_pow (k : ℕ) : ((2 : ℤ) ^ k).toNat = 2 ^ k := by
  rw [← Int.toNat_natCast (2 ^ k)]
  push_cast
  rfl

lemma acceptable_iff :
    (decide (0 < v.toInt) && isPowerOfTwo v.toInt.toNat) = true ↔ ∃ k : ℕ, v.toInt = 2 ^ k := by
  rw [Bool.and_eq_true, decide_eq_true_iff, isPowerOfTwo_iff]
  constructor
  · rintro ⟨hpos, k, hk⟩
    refine ⟨k, ?_⟩
    rw [← Int.toNat_of_nonneg hpos.le, hk]
    push_cast
    rfl
  · rintro ⟨k, hk⟩
    rw [hk]
    exact ⟨pow_pos two_pos k, k, toNat_two_pow k⟩

/-- An alignment is accepted exactly if it is a power of two. -/
lemma setAlignment_eq_ok :
    m.setAlignment v = .ok m' ↔
      (∃ k : ℕ, v.toInt = 2 ^ k) ∧ m' = { m with alignment := v.toInt.toNat } := by
  rw [setAlignment, guard_eq_ok, acceptable_iff]

lemma setAlignment_eq_error :
    m.setAlignment v = .error e ↔ (¬ ∃ k : ℕ, v.toInt = 2 ^ k) ∧ e = .invalidAlignment v := by
  rw [setAlignment, guard_eq_error, acceptable_iff]

/-- A header size is accepted exactly if it is not negative. -/
lemma setMinimumPrefix_eq_ok :
    m.setMinimumPrefix v = .ok m' ↔
      0 ≤ v.toInt ∧ m' = { m with minimumPrefix := v.toInt.toNat } := by
  rw [setMinimumPrefix, guard_eq_ok]

lemma setMinimumPrefix_eq_error :
    m.setMinimumPrefix v = .error e ↔ ¬ 0 ≤ v.toInt ∧ e = .invalidPrefix v := by
  rw [setMinimumPrefix, guard_eq_error]

lemma Valid.setAlignment (h : m.Valid) (hset : m.setAlignment v = .ok m') : m'.Valid := by
  obtain ⟨⟨k, hk⟩, rfl⟩ := setAlignment_eq_ok.mp hset
  have hbound : (2 : ℤ) ^ k < 2 ^ 63 := hk ▸ v.toInt_lt
  have hexp : k < 63 := (pow_lt_pow_iff_right₀ one_lt_two).mp hbound
  refine ⟨⟨k, by omega, ?_⟩, h.minimumPrefix⟩
  show v.toInt.toNat = 2 ^ k
  rw [hk, toNat_two_pow]

lemma Valid.setMinimumPrefix (h : m.Valid) (hset : m.setMinimumPrefix v = .ok m') : m'.Valid := by
  obtain ⟨-, rfl⟩ := setMinimumPrefix_eq_ok.mp hset
  refine ⟨h.alignment, ?_⟩
  show v.toInt.toNat ≤ 2 ^ 63 - 1
  have hbound := v.toInt_lt
  omega

end MemorySettings

/-! ## One change -/

section

variable {m : MemorySettings} {set : MemorySettings → Int64 → Except DeviceError MemorySettings}

lemma MemoryOutcome.ofSetter_valid {x : Except DeviceError MemorySettings} (h : m.Valid)
    (hx : ∀ m', x = .ok m' → m'.Valid) : (ofSetter m x).settings.Valid := by
  cases x with
  | ok m' => exact hx m' rfl
  | error e => exact h

lemma overrideWith_valid (name : String) (value : Option Int64) (h : m.Valid)
    (hset : ∀ v m', set m v = .ok m' → m'.Valid) :
    (overrideWith name set value m).settings.Valid := by
  cases value with
  | none => exact h
  | some v => exact MemoryOutcome.ofSetter_valid h (hset v)

lemma MemoryOutcome.andThen_valid {o : MemoryOutcome} {next : MemorySettings → MemoryOutcome}
    (h : o.settings.Valid) (hnext : ∀ m : MemorySettings, m.Valid → (next m).settings.Valid) :
    (o.andThen next).settings.Valid := by
  unfold andThen
  cases o.result with
  | error e => exact h
  | ok u => exact hnext _ h

lemma MemorySettings.override_valid (request : Request) (h : m.Valid) :
    (m.override request).settings.Valid := by
  unfold override
  split
  · exact h
  · exact h
  · refine MemoryOutcome.andThen_valid ?_ fun m' hm' => ?_
    · exact overrideWith_valid _ _ h fun v m' => h.setAlignment
    · exact overrideWith_valid _ _ hm' fun v m'' => hm'.setMinimumPrefix

/-- A change keeps settings valid, whether it succeeds or not. -/
lemma MemoryChange.apply_valid (c : MemoryChange) (h : m.Valid) : (c.apply m).settings.Valid := by
  cases c with
  | alignment v => exact MemoryOutcome.ofSetter_valid h fun m' => h.setAlignment
  | minimumPrefix v => exact MemoryOutcome.ofSetter_valid h fun m' => h.setMinimumPrefix
  | overrides request => exact MemorySettings.override_valid request h

end

/-! ## Runs -/

namespace MemorySettings

variable {m : MemorySettings}

lemma Reached.valid (h : Reached m) : m.Valid := by
  induction h with
  | start => exact valid_start
  | change c _ ih => exact c.apply_valid ih

end MemorySettings

/-- What a device decides to do after a change makes no difference: the settings it ends with come
up in a run. -/
lemma MemoryScript.run_reached : ∀ (script : MemoryScript) {m : MemorySettings},
    m.Reached → (script.run m).settings.Reached
  | done _, _, h => h
  | change c next, m, h => run_reached (next (c.apply m).settings (c.apply m).result) (h.change c)

lemma Registry.memoryFor_eq_ok {r : Registry} {request : Request} {m : MemorySettings} :
    (r.memoryFor request).result = .ok m ↔
      ∃ d, (r.find request.device).result = .ok d ∧
        ((d.memory request).run {}).result = .ok () ∧
        ((d.memory request).run {}).settings = m := by
  simp only [memoryFor, Traced.result_bind, Traced.result_note, Traced.result_pure, bind_eq_ok,
    map_eq_ok]
  constructor
  · rintro ⟨d, hd, m', ⟨⟨⟩, hrun, rfl⟩, ⟨⟩, -, ⟨⟩⟩
    exact ⟨d, hd, hrun, rfl⟩
  · rintro ⟨d, hd, hrun, rfl⟩
    exact ⟨d, hd, _, ⟨(), hrun, rfl⟩, (), trivial, rfl⟩

lemma Registry.memoryFor_valid {r : Registry} {request : Request} {m : MemorySettings}
    (h : (r.memoryFor request).result = .ok m) : m.Valid := by
  obtain ⟨d, -, -, rfl⟩ := memoryFor_eq_ok.mp h
  exact ((d.memory request).run_reached .start).valid

/-! ## What a run can rely on -/

section

variable {m : MemorySettings} {v : Int64}

/-- A setter takes over a value that is allowed, and otherwise changes nothing. -/
lemma MemoryOutcome.ofSetter_cases {x : Except DeviceError MemorySettings} {allowed : Prop}
    {m' : MemorySettings} {e : DeviceError} (hok : ∀ m'', x = .ok m'' ↔ allowed ∧ m'' = m')
    (herror : ∀ e', x = .error e' ↔ ¬ allowed ∧ e' = e) :
    allowed ∧ ofSetter m x = ⟨[], m', .ok ()⟩ ∨ ¬ allowed ∧ ofSetter m x = ⟨[], m, .error e⟩ := by
  cases x with
  | ok m'' =>
      obtain ⟨hallowed, rfl⟩ := (hok m'').mp rfl
      exact .inl ⟨hallowed, rfl⟩
  | error e' =>
      obtain ⟨hrefused, rfl⟩ := (herror e').mp rfl
      exact .inr ⟨hrefused, rfl⟩

lemma apply_alignment :
    let o := (MemoryChange.alignment v).apply m
    (o.result = .ok () ↔ ∃ k : ℕ, v.toInt = 2 ^ k) ∧
      (o.result = .ok () → (o.settings.alignment : ℤ) = v.toInt) ∧
      (o.result ≠ .ok () → o.result = .error (.invalidAlignment v) ∧ o.settings = m) ∧
      o.settings.minimumPrefix = m.minimumPrefix := by
  simp only [MemoryChange.apply]
  rcases MemoryOutcome.ofSetter_cases (m := m) (fun _ => MemorySettings.setAlignment_eq_ok)
    (fun _ => MemorySettings.setAlignment_eq_error) with ⟨hallowed, heq⟩ | ⟨hrefused, heq⟩
  · obtain ⟨k, hk⟩ := hallowed
    have hpos : 0 < v.toInt := hk ▸ pow_pos two_pos k
    rw [heq]
    exact ⟨⟨fun _ => ⟨k, hk⟩, fun _ => rfl⟩, fun _ => Int.toNat_of_nonneg hpos.le,
      fun h => absurd rfl h, rfl⟩
  · rw [heq]
    exact ⟨⟨fun h => (nomatch h), fun h => absurd h hrefused⟩, fun h => (nomatch h),
      fun _ => ⟨rfl, rfl⟩, rfl⟩

lemma apply_minimumPrefix :
    let o := (MemoryChange.minimumPrefix v).apply m
    (o.result = .ok () ↔ 0 ≤ v.toInt) ∧
      (o.result = .ok () → (o.settings.minimumPrefix : ℤ) = v.toInt) ∧
      (o.result ≠ .ok () → o.result = .error (.invalidPrefix v) ∧ o.settings = m) ∧
      o.settings.alignment = m.alignment := by
  simp only [MemoryChange.apply]
  rcases MemoryOutcome.ofSetter_cases (m := m) (fun _ => MemorySettings.setMinimumPrefix_eq_ok)
    (fun _ => MemorySettings.setMinimumPrefix_eq_error) with ⟨hallowed, heq⟩ | ⟨hrefused, heq⟩
  · rw [heq]
    exact ⟨⟨fun _ => hallowed, fun _ => rfl⟩, fun _ => Int.toNat_of_nonneg hallowed,
      fun h => absurd rfl h, rfl⟩
  · rw [heq]
    exact ⟨⟨fun h => (nomatch h), fun h => absurd h hrefused⟩, fun h => (nomatch h),
      fun _ => ⟨rfl, rfl⟩, rfl⟩

/-- A size is rounded up to the least multiple of the alignment, or to the largest number if no
multiple is within 64 bits. -/
lemma MemorySettings.align_isLeast (h : 0 < m.alignment) (b : Nat) :
    IsLeast {x | b ≤ x ∧ m.alignment ∣ x ∧ x ≤ maxLong} (m.align b) ∨
      (¬ ∃ x ≤ maxLong, b ≤ x ∧ m.alignment ∣ x) ∧ m.align b = maxLong := by
  obtain ⟨⟨hge, hdvd⟩, hleast⟩ := roundUp_isLeast b h
  unfold align saturated
  by_cases hfits : roundUp b m.alignment ≤ maxLong
  · rw [Nat.min_eq_left hfits]
    exact .inl ⟨⟨hge, hdvd, hfits⟩, fun x hx => hleast ⟨hx.1, hx.2.1⟩⟩
  · rw [Nat.min_eq_right (by omega)]
    refine .inr ⟨?_, rfl⟩
    rintro ⟨x, hx, hbx, hmul⟩
    exact hfits (Nat.le_trans (hleast ⟨hbx, hmul⟩) hx)

end

/-- **Memory settings stay valid over every run.**  Setters take over exactly the values that are
allowed and change nothing else, so whatever a device does to set up its memory, sizes can be
rounded up to its alignment. -/
theorem settings_stay_valid :
    (∀ m : MemorySettings, m.Reached → m.Valid) ∧
    (∀ (m : MemorySettings) (v : Int64),
      let o := (MemoryChange.alignment v).apply m
      (o.result = .ok () ↔ ∃ k : ℕ, v.toInt = 2 ^ k) ∧
        (o.result = .ok () → (o.settings.alignment : ℤ) = v.toInt) ∧
        (o.result ≠ .ok () → o.result = .error (.invalidAlignment v) ∧ o.settings = m) ∧
        o.settings.minimumPrefix = m.minimumPrefix) ∧
    (∀ (m : MemorySettings) (v : Int64),
      let o := (MemoryChange.minimumPrefix v).apply m
      (o.result = .ok () ↔ 0 ≤ v.toInt) ∧
        (o.result = .ok () → (o.settings.minimumPrefix : ℤ) = v.toInt) ∧
        (o.result ≠ .ok () → o.result = .error (.invalidPrefix v) ∧ o.settings = m) ∧
        o.settings.alignment = m.alignment) ∧
    (∀ (registry : Registry) (request : Request) (m : MemorySettings),
      (registry.memoryFor request).result = .ok m →
        m.Valid ∧ 0 < m.alignment ∧
        ∀ b ≤ maxLong,
          IsLeast {x | b ≤ x ∧ m.alignment ∣ x ∧ x ≤ maxLong} (m.align b) ∨
            (¬ ∃ x ≤ maxLong, b ≤ x ∧ m.alignment ∣ x) ∧ m.align b = maxLong) := by
  refine ⟨fun m => MemorySettings.Reached.valid, fun m v => apply_alignment,
    fun m v => apply_minimumPrefix, fun registry request m h => ?_⟩
  have hvalid := Registry.memoryFor_valid h
  exact ⟨hvalid, hvalid.alignment_pos, fun b _ => m.align_isLeast hvalid.alignment_pos b⟩

/-- A card takes whole pages, after a good alignment and two values that were refused as well; 5000
bytes take two pages, and for the last bytes below `2 ^ 64` there is no multiple. -/
theorem settings_stay_valid_pages :
    ((MemoryChange.minimumPrefix (-1)).apply
      ((MemoryChange.alignment 12).apply
        ((MemoryChange.alignment 4096).apply {}).settings).settings).settings.Valid ∧
    (Registry.standard.memoryFor { device := "Alveo U50" }).result = .ok ⟨4096, 4⟩ ∧
    IsLeast {x | 5000 ≤ x ∧ 4096 ∣ x ∧ x ≤ maxLong} 8192 ∧
    ¬ ∃ x ≤ maxLong, maxLong - 1 ≤ x ∧ 4096 ∣ x := by
  obtain ⟨hreached, -, -, hmemory⟩ := settings_stay_valid
  have hcard : (Registry.standard.memoryFor { device := "Alveo U50" }).result = .ok ⟨4096, 4⟩ := rfl
  obtain ⟨-, -, halign⟩ := hmemory _ _ _ hcard
  refine ⟨hreached _ (.change _ (.change _ (.change _ .start))), hcard, ?_, ?_⟩
  · rcases halign 5000 (by decide) with hleast | ⟨-, hmax⟩
    · exact hleast
    · exact absurd hmax (by decide)
  · rcases halign (maxLong - 1) (by decide) with hleast | ⟨hnone, -⟩
    · exact absurd hleast.1.2.1 (by decide)
    · exact hnone

end Gateware
