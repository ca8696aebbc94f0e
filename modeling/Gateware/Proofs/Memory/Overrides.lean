import Gateware.Proofs.Memory.Settings

/-!
# What overrides leave behind

A user may override the memory settings of a device.  `Request.overrides` are the values that a
request asks for, however they are stored; a request without such a setting asks for none.

Overrides are taken over one after the other, each with the check of its setter.  `Overriding` lists
the four ways in which that can go, with the settings that are left behind, and
`MemorySettings.override_cases` says that there is no other.  In three of them a failure leaves
everything as it was.  In the fourth it does not: an alignment is in place before the size of the
header turns out to be negative, and it stays (`overrides_half_taken`).
-/

namespace Gateware

/-- The memory settings that a request asks for. -/
def Request.overrides (request : Request) : Except SettingError MemoryOverrides :=
  (request.settings.get SettingKind.memory MemorySettings.overridesKey).map
    fun given : Option MemoryOverrides => given.getD {}

/-- A number is the one that a user asks for or, if the user asks for none, what it was before. -/
def Follows (wanted : Option Int64) (before after : ℕ) : Prop :=
  match wanted with
  | none => after = before
  | some v => (after : ℤ) = v.toInt

namespace MemoryOverrides

/-- An alignment that is given is a power of two. -/
def AlignmentAllowed (given : MemoryOverrides) : Prop :=
  ∀ v ∈ given.alignment, ∃ k : ℕ, v.toInt = 2 ^ k

/-- A size of the header that is given is not negative. -/
def PrefixAllowed (given : MemoryOverrides) : Prop := ∀ v ∈ given.minimumPrefix, 0 ≤ v.toInt

end MemoryOverrides

/-- How overriding the settings `before` can go: what the request asks for, the settings that are
left behind, and the result. -/
inductive Overriding (before : MemorySettings) :
    Except SettingError MemoryOverrides → MemorySettings → Except DeviceError Unit → Prop
  /-- The overrides cannot be had. -/
  | unreadable (e : SettingError) : Overriding before (.error e) before (.error (.setting e))
  /-- The alignment is refused. -/
  | misaligned {given : MemoryOverrides} (v : Int64) (hv : given.alignment = some v)
      (hrefused : ¬ ∃ k : ℕ, v.toInt = 2 ^ k) :
      Overriding before (.ok given) before (.error (.invalidAlignment v))
  /-- The size of the header is refused, after the alignment has been taken over. -/
  | negative {given : MemoryOverrides} {after : MemorySettings} (v : Int64)
      (hallowed : given.AlignmentAllowed)
      (halignment : Follows given.alignment before.alignment after.alignment)
      (hv : given.minimumPrefix = some v) (hrefused : v.toInt < 0)
      (hkept : after.minimumPrefix = before.minimumPrefix) :
      Overriding before (.ok given) after (.error (.invalidPrefix v))
  /-- Both have been taken over. -/
  | taken {given : MemoryOverrides} {after : MemorySettings}
      (hallowed : given.AlignmentAllowed)
      (halignment : Follows given.alignment before.alignment after.alignment)
      (hallowed' : given.PrefixAllowed)
      (hheader : Follows given.minimumPrefix before.minimumPrefix after.minimumPrefix) :
      Overriding before (.ok given) after (.ok ())

namespace Overriding

variable {before after : MemorySettings} {given : MemoryOverrides}
  {result : Except DeviceError Unit} {v : Int64}

lemma of_misaligned (h : Overriding before (.ok given) after result)
    (hv : given.alignment = some v) (hrefused : ¬ ∃ k : ℕ, v.toInt = 2 ^ k) :
    result = .error (.invalidAlignment v) := by
  cases h with
  | misaligned w hw _ =>
      cases hw.symm.trans hv
      rfl
  | negative w hallowed => exact absurd (hallowed v hv) hrefused
  | taken hallowed => exact absurd (hallowed v hv) hrefused

lemma of_negative (h : Overriding before (.ok given) after result)
    (hallowed : given.AlignmentAllowed) (hv : given.minimumPrefix = some v)
    (hrefused : v.toInt < 0) : result = .error (.invalidPrefix v) := by
  cases h with
  | misaligned w hw hmisaligned => exact absurd (hallowed w hw) hmisaligned
  | negative w _ _ hw =>
      cases hw.symm.trans hv
      rfl
  | taken _ _ hallowed' => exact absurd (hallowed' v hv) (by omega)

/-- Overrides are taken over exactly if both are allowed. -/
lemma result_eq_ok (h : Overriding before (.ok given) after result) :
    result = .ok () ↔ given.AlignmentAllowed ∧ given.PrefixAllowed := by
  cases h with
  | misaligned v hv hrefused =>
      have hnot : ¬ given.AlignmentAllowed := fun hallowed => hrefused (hallowed v hv)
      simp [hnot]
  | negative v _ _ hv hrefused =>
      have hnot : ¬ given.PrefixAllowed := fun hallowed => by
        have := hallowed v hv
        omega
      simp [hnot]
  | taken hallowed _ hallowed' => simp [hallowed, hallowed']

lemma follows (h : Overriding before (.ok given) after (.ok ())) :
    Follows given.alignment before.alignment after.alignment ∧
      Follows given.minimumPrefix before.minimumPrefix after.minimumPrefix := by
  cases h with
  | taken _ halignment _ hheader => exact ⟨halignment, hheader⟩

end Overriding

/-! ## One override -/

/-- An alignment is taken over if it is allowed, and otherwise nothing changes. -/
lemma overrideWith_alignment (m : MemorySettings) (given : MemoryOverrides) :
    let o := overrideWith "alignment" MemorySettings.setAlignment given.alignment m
    (given.AlignmentAllowed ∧ o.result = .ok () ∧
      Follows given.alignment m.alignment o.settings.alignment ∧
      o.settings.minimumPrefix = m.minimumPrefix) ∨
    ∃ v, given.alignment = some v ∧ (¬ ∃ k : ℕ, v.toInt = 2 ^ k) ∧
      o.result = .error (.invalidAlignment v) ∧ o.settings = m := by
  cases hgiven : given.alignment with
  | none =>
      refine .inl ⟨?_, rfl, rfl, rfl⟩
      intro v hv
      rw [hgiven] at hv
      cases hv
  | some v =>
      obtain ⟨hok, hvalue, herror, hkept⟩ := apply_alignment (m := m) (v := v)
      by_cases hpower : ∃ k : ℕ, v.toInt = 2 ^ k
      · have hresult := hok.mpr hpower
        refine .inl ⟨?_, hresult, hvalue hresult, hkept⟩
        intro w hw
        rw [hgiven] at hw
        cases hw
        exact hpower
      · obtain ⟨hresult, hsettings⟩ := herror (mt hok.mp hpower)
        exact .inr ⟨v, rfl, hpower, hresult, hsettings⟩

/-- A size of the header is taken over if it is allowed, and otherwise nothing changes. -/
lemma overrideWith_minimumPrefix (m : MemorySettings) (given : MemoryOverrides) :
    let o := overrideWith "prefix" MemorySettings.setMinimumPrefix given.minimumPrefix m
    o.settings.alignment = m.alignment ∧
    ((given.PrefixAllowed ∧ o.result = .ok () ∧
      Follows given.minimumPrefix m.minimumPrefix o.settings.minimumPrefix) ∨
    ∃ v, given.minimumPrefix = some v ∧ v.toInt < 0 ∧ o.result = .error (.invalidPrefix v) ∧
      o.settings.minimumPrefix = m.minimumPrefix) := by
  cases hgiven : given.minimumPrefix with
  | none =>
      refine ⟨rfl, .inl ⟨?_, rfl, rfl⟩⟩
      intro v hv
      rw [hgiven] at hv
      cases hv
  | some v =>
      obtain ⟨hok, hvalue, herror, hkept⟩ := apply_minimumPrefix (m := m) (v := v)
      refine ⟨hkept, ?_⟩
      by_cases hsize : 0 ≤ v.toInt
      · have hresult := hok.mpr hsize
        refine .inl ⟨?_, hresult, hvalue hresult⟩
        intro w hw
        rw [hgiven] at hw
        cases hw
        exact hsize
      · obtain ⟨hresult, hsettings⟩ := herror (mt hok.mp hsize)
        exact .inr ⟨v, rfl, by omega, hresult, congrArg MemorySettings.minimumPrefix hsettings⟩

lemma MemoryOutcome.andThen_of_ok {o : MemoryOutcome} (h : o.result = .ok ())
    (next : MemorySettings → MemoryOutcome) :
    (o.andThen next).settings = (next o.settings).settings ∧
      (o.andThen next).result = (next o.settings).result := by
  simp [andThen, h]

lemma MemoryOutcome.andThen_of_error {o : MemoryOutcome} {next : MemorySettings → MemoryOutcome}
    {e : DeviceError} (h : o.result = .error e) : o.andThen next = o := by
  simp [andThen, h]

/-! ## All overrides -/

section

variable {m : MemorySettings} {request : Request} {given : MemoryOverrides}

lemma MemorySettings.override_of_ok (h : request.overrides = .ok given) :
    m.override request =
      (overrideWith "alignment" setAlignment given.alignment m).andThen
        (overrideWith "prefix" setMinimumPrefix given.minimumPrefix) := by
  obtain ⟨found, hget, hgiven⟩ := map_eq_ok.mp h
  unfold override
  rw [hget]
  cases found with
  | none =>
      -- Overriding with nothing does nothing.
      cases hgiven
      rfl
  | some o =>
      cases hgiven
      rfl

lemma MemorySettings.override_of_error {e : SettingError} (h : request.overrides = .error e) :
    m.override request = .unchanged m (.error (.setting e)) := by
  rw [override, map_eq_error.mp h]

/-- **There are four ways in which overriding can go.** -/
lemma MemorySettings.override_cases (m : MemorySettings) (request : Request) :
    Overriding m request.overrides (m.override request).settings (m.override request).result := by
  cases hrequest : request.overrides with
  | error e =>
      rw [override_of_error hrequest]
      exact .unreadable e
  | ok given =>
      rw [override_of_ok hrequest]
      rcases overrideWith_alignment m given with
        ⟨hallowed, hresult, halignment, hkept⟩ | ⟨v, hv, hrefused, hresult, hsettings⟩
      · obtain ⟨hsettings', hresult'⟩ := MemoryOutcome.andThen_of_ok hresult
          (overrideWith "prefix" setMinimumPrefix given.minimumPrefix)
        rw [hsettings', hresult']
        generalize (overrideWith "alignment" setAlignment given.alignment m).settings = m' at *
        obtain ⟨hsame, ⟨hallowed', hdone, hheader⟩ | ⟨v, hv, hrefused, hfailed, hkept'⟩⟩ :=
          overrideWith_minimumPrefix m' given
        · rw [hdone]
          exact .taken hallowed (hsame ▸ halignment) hallowed' (hkept ▸ hheader)
        · rw [hfailed]
          exact .negative v hallowed (hsame ▸ halignment) hv hrefused (hkept'.trans hkept)
      · rw [MemoryOutcome.andThen_of_error hresult, hresult, hsettings]
        exact .misaligned v hv hrefused

end

/-- **Overrides are taken over in order.**  They are taken over as a whole exactly if both are
allowed, and then each setting is what the user asks for, or what it was where the user asks for
nothing.  A failure leaves the settings as they were, unless it is the size of the header that is
refused: that leaves the header as it was, and the alignment as the user wants it. -/
theorem overrides_taken_in_order (m : MemorySettings) (request : Request) :
    let o := m.override request
    (o.result = .ok () ↔
      ∃ given, request.overrides = .ok given ∧ given.AlignmentAllowed ∧ given.PrefixAllowed) ∧
    (o.result = .ok () → ∃ given, request.overrides = .ok given ∧
      Follows given.alignment m.alignment o.settings.alignment ∧
      Follows given.minimumPrefix m.minimumPrefix o.settings.minimumPrefix) ∧
    ∀ e, o.result = .error e → o.settings.minimumPrefix = m.minimumPrefix ∧
      ((∃ unreadable, request.overrides = .error unreadable ∧ e = .setting unreadable ∧
          o.settings.alignment = m.alignment) ∨
        ∃ given v, request.overrides = .ok given ∧
          (given.alignment = some v ∧ (¬ ∃ k : ℕ, v.toInt = 2 ^ k) ∧ e = .invalidAlignment v ∧
              o.settings.alignment = m.alignment ∨
            given.minimumPrefix = some v ∧ v.toInt < 0 ∧ e = .invalidPrefix v ∧
              Follows given.alignment m.alignment o.settings.alignment)) := by
  intro o
  have hcases : Overriding m request.overrides o.settings o.result := m.override_cases request
  generalize o.settings = after at hcases ⊢
  generalize o.result = result at hcases ⊢
  generalize request.overrides = wanted at hcases ⊢
  refine ⟨?_, ?_, ?_⟩
  · cases wanted with
    | error e =>
        cases hcases
        simp
    | ok given => simp [hcases.result_eq_ok]
  · rintro rfl
    cases wanted with
    | error e => cases hcases
    | ok given => exact ⟨given, rfl, hcases.follows⟩
  · rintro e rfl
    cases hcases with
    | unreadable e => exact ⟨rfl, .inl ⟨e, rfl, rfl, rfl⟩⟩
    | misaligned v hv hrefused => exact ⟨rfl, .inr ⟨_, v, rfl, .inl ⟨hv, hrefused, rfl, rfl⟩⟩⟩
    | negative v _ halignment hv hrefused hkept =>
        exact ⟨hkept, .inr ⟨_, v, rfl, .inr ⟨hv, hrefused, rfl, halignment⟩⟩⟩

/-- Overrides of settings with whole pages and four cells, as a user writes them.  Larger pages and
a longer header are taken over; pages of a wrong size change nothing; and larger pages with a header
of less than nothing are refused, and stay. -/
theorem overrides_taken_in_order_pages :
    let request (alignment minimumPrefix : Int64) : Request :=
      { device := "Alveo U50"
        settings := .ofRaw [("MemoryConfiguration",
          .table [("alignment", .int alignment), ("minimum_prefix", .int minimumPrefix)])] }
    let override (alignment minimumPrefix : Int64) :=
      MemorySettings.override ⟨4096, 4⟩ (request alignment minimumPrefix)
    ((override 8192 6).result = .ok () ∧ (override 8192 6).settings.alignment = 8192 ∧
      (override 8192 6).settings.minimumPrefix = 6) ∧
    ((override 1000 6).result = .error (.invalidAlignment 1000) ∧
      (override 1000 6).settings.alignment = 4096 ∧
      (override 1000 6).settings.minimumPrefix = 4) ∧
    ((override 8192 (-1)).result = .error (.invalidPrefix (-1)) ∧
      (override 8192 (-1)).settings.alignment = 8192 ∧
      (override 8192 (-1)).settings.minimumPrefix = 4) := by
  intro request override
  refine ⟨⟨rfl, ?_⟩, ⟨rfl, ?_⟩, ⟨rfl, ?_⟩⟩
  · obtain ⟨-, htaken, -⟩ := overrides_taken_in_order ⟨4096, 4⟩ (request 8192 6)
    obtain ⟨_, ⟨⟩, halignment, hheader⟩ := htaken rfl
    exact ⟨Int.ofNat_inj.mp halignment, Int.ofNat_inj.mp hheader⟩
  · obtain ⟨-, -, hfailed⟩ := overrides_taken_in_order ⟨4096, 4⟩ (request 1000 6)
    obtain ⟨hheader, ⟨_, ⟨⟩, -⟩ | ⟨_, _, ⟨⟩, ⟨-, -, -, halignment⟩ | ⟨-, -, ⟨⟩, -⟩⟩⟩ :=
      hfailed _ rfl
    exact ⟨halignment, hheader⟩
  · obtain ⟨-, -, hfailed⟩ := overrides_taken_in_order ⟨4096, 4⟩ (request 8192 (-1))
    obtain ⟨hheader, ⟨_, ⟨⟩, -⟩ | ⟨_, _, ⟨⟩, ⟨-, -, ⟨⟩, -⟩ | ⟨-, -, -, halignment⟩⟩⟩ :=
      hfailed _ rfl
    exact ⟨Int.ofNat_inj.mp halignment, hheader⟩

/-- A failure can leave half of the overrides behind: the alignment that was asked for together with
a negative header is in place afterwards. -/
theorem overrides_half_taken :
    let request : Request :=
      { device := "Alveo U50"
        settings := Store.empty.insert MemorySettings.overridesKey SettingKind.memory
          (⟨some 64, some (-1)⟩ : MemoryOverrides) }
    (MemorySettings.override ⟨16, 5⟩ request).result = .error (.invalidPrefix (-1)) ∧
      (MemorySettings.override ⟨16, 5⟩ request).settings ≠ ⟨16, 5⟩ := by
  refine ⟨rfl, ?_⟩
  intro h
  exact absurd (congrArg MemorySettings.alignment h) (by decide)

end Gateware
