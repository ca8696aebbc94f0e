import Gateware.Proofs.Settings.Store

/-!
# Looking and asking agree

There are two ways to a setting.  `Store.get` looks and leaves no trace, and `Store.getOrCreate`
asks for a value that can then be changed in its place.  The memory settings of a user are looked
at, while other parts of the compiler ask for what they need.  So it must not matter which way is
taken: both come to the same value, or to the same error (`get_eq_of_some`), and what is looked at
is the same whether or not somebody has asked before.

The last point holds for everything that is done afterwards (`get_run`), as long as nobody asks for
a value of another kind.  Raw TOML belongs to the kind that asks first.
-/

namespace Gateware.Store

variable {S : Schema}

/-- Whether an access leaves the kind of a setting to those who ask for the given kind. -/
def Access.Spares (kind : S.Kind) (key : String) : Access S → Prop
  | .getOrCreate kind' key' _ => key' = key → kind' = kind
  | _ => True

section

variable {store store' : Store S} {key : String} {kind : S.Kind} {value : S.Value kind}
  {entry : Entry S} {e : SettingError}

/-! ## What is looked at -/

lemma get_of_none (h : store.find? key = none) : store.get kind key = .ok none := by
  simp [get, h]

lemma get_of_find?_eq (h : store.find? key = store'.find? key) :
    store.get kind key = store'.get kind key := by
  simp [get, h]

lemma Holds.get_eq (h : store.Holds key kind value) : store.get kind key = .ok (some value) := by
  simp [get_of_some h, Entry.read, Except.map]

lemma get_of_raw {raw : Toml} (h : store.find? key = some (.raw raw))
    (hconvert : S.convert kind raw = some value) : store.get kind key = .ok (some value) := by
  simp [get_of_some h, Entry.read, convertRaw, hconvert, Except.map]

/-- Whoever asks meets with what can be looked at, or else with the fallback. -/
lemma valueFor_eq_get (store : Store S) (kind : S.Kind) (key : String) :
    store.valueFor kind key = (store.get kind key).map fun v => v.getD (S.fallback kind) := by
  cases hfind : store.find? key with
  | none => simp [valueFor, get, hfind, Except.map]
  | some entry =>
      rw [valueFor_of_some hfind, get_of_some hfind]
      cases Entry.read key kind entry with
      | error e => rfl
      | ok value => rfl

/-- An entry that cannot be read is raw TOML of another form, or a value of another kind. -/
lemma error_of_read (h : Entry.read key kind entry = .error e) :
    e = .malformed key ∨ e = .otherKind key := by
  cases entry with
  | raw raw =>
      simp only [Entry.read, convertRaw] at h
      cases hconvert : S.convert kind raw with
      | none =>
          rw [hconvert] at h
          cases h
          exact .inl rfl
      | some value =>
          rw [hconvert] at h
          cases h
  | typed kind' value =>
      simp only [Entry.read] at h
      split_ifs at h with hkind
      cases h
      exact .inr rfl

/-- **Looking and asking come to the same**, where there is something under the key. -/
lemma get_eq_of_some (kind : S.Kind) (h : store.find? key = some entry) :
    (∃ e, store.get kind key = .error e ∧ store.getOrCreate kind key = (store, .error e) ∧
      (e = .malformed key ∨ e = .otherKind key)) ∨
    ∃ value, store.get kind key = .ok (some value) ∧
      (store.getOrCreate kind key).2 = .ok value ∧
      (store.getOrCreate kind key).1.Holds key kind value := by
  have hvalue : store.valueFor kind key = Entry.read key kind entry := valueFor_of_some h
  rw [get_of_some h]
  cases hread : Entry.read key kind entry with
  | error e =>
      rw [hread] at hvalue
      exact .inl ⟨e, rfl, getOrCreate_of_error hvalue, error_of_read hread⟩
  | ok value =>
      rw [hread] at hvalue
      refine .inr ⟨value, rfl, ?_⟩
      rcases getOrCreate_of_ok hvalue with ⟨hthere, hholds⟩ | hput
      · rw [hthere]
        exact ⟨rfl, hholds⟩
      · rw [hput]
        exact ⟨rfl, holds_insert⟩

/-! ## Looking later -/

/-- Two stores in which the same can be looked at are still such stores after an access, unless it
makes a value of another kind in one of them. -/
lemma get_perform {access : Access S} (h : store.get kind key = store'.get kind key)
    (hspares : access.Spares kind key) :
    (store.perform access).1.get kind key = (store'.perform access).1.get kind key := by
  by_cases hkey : key = access.key
  · cases access with
    | insertRaw key' raw =>
        change key = key' at hkey
        subst hkey
        refine get_of_find?_eq ?_
        simp [perform, insertRaw]
    | insert key' kind' value =>
        change key = key' at hkey
        subst hkey
        refine get_of_find?_eq ?_
        simp [perform, insert]
    | get kind' key' => exact h
    | getOrCreate kind' key' change =>
        change key = key' at hkey
        subst hkey
        obtain rfl : kind' = kind := hspares rfl
        have hvalue : store.valueFor kind' key = store'.valueFor kind' key := by
          rw [valueFor_eq_get, valueFor_eq_get, h]
        cases hcase : store'.valueFor kind' key with
        | error e =>
            rw [perform_of_error hcase, perform_of_error (hvalue.trans hcase)]
            exact h
        | ok value =>
            rw [perform_of_ok hcase, perform_of_ok (hvalue.trans hcase), holds_insert.get_eq,
              holds_insert.get_eq]
  · rw [get_of_find?_eq (find?_perform_of_ne hkey), get_of_find?_eq (find?_perform_of_ne hkey), h]

lemma get_run {accesses : List (Access S)} (h : store.get kind key = store'.get kind key)
    (hspares : ∀ access ∈ accesses, access.Spares kind key) :
    (store.run accesses).get kind key = (store'.run accesses).get kind key := by
  induction accesses generalizing store store' with
  | nil => exact h
  | cons access accesses ih =>
      obtain ⟨hfirst, hrest⟩ := List.forall_mem_cons.mp hspares
      exact ih (get_perform h hfirst) hrest

end

/-- **Both ways to a setting agree**, in every store that can come up.  Under a key that is there,
both fail with the same error, or both come to the same value.  Under a key that is not there,
nothing can be looked at, and whoever asks gets the fallback, which is stored.  Whoever got a value
has left it to be looked at; and if the key was there before, what is looked at later is what it
would have been, whatever else is done, as long as nobody asks for a value of another kind. -/
theorem looking_agrees_with_asking (S : Schema) (values : List (String × Toml))
    (accesses : List (Access S)) (kind : S.Kind) (key : String) :
    let store := (ofRaw values).run accesses
    let asked := store.getOrCreate kind key
    (store.contains key = true →
      (∃ e, store.get kind key = .error e ∧ asked.2 = .error e ∧
        (e = .malformed key ∨ e = .otherKind key)) ∨
      ∃ value, store.get kind key = .ok (some value) ∧ asked.2 = .ok value) ∧
    (store.contains key = false →
      store.get kind key = .ok none ∧ asked.2 = .ok (S.fallback kind) ∧
        asked.1.find? key = some (.typed kind (S.fallback kind)) ∧
        ∀ other, other ≠ key → asked.1.find? other = store.find? other) ∧
    ∀ value, asked.2 = .ok value →
      asked.1.get kind key = .ok (some value) ∧
      (store.contains key = true → ∀ later : List (Access S),
        (∀ access ∈ later, access.Spares kind key) →
          (asked.1.run later).get kind key = (store.run later).get kind key) := by
  intro store asked
  cases hfind : store.find? key with
  | none =>
      have hasked : asked = (store.insert key kind (S.fallback kind), .ok (S.fallback kind)) :=
        getOrCreate_of_none hfind
      have habsent : store.contains key = false := by simp [contains, hfind]
      rw [habsent, hasked]
      refine ⟨by simp, fun _ => ⟨get_of_none hfind, rfl, holds_insert, ?_⟩, ?_⟩
      · intro other hother
        exact find?_put_of_ne _ hother
      · intro value hhanded
        cases hhanded
        exact ⟨holds_insert.get_eq, by simp⟩
  | some entry =>
      have hpresent : store.contains key = true := by simp [contains, hfind]
      rw [hpresent]
      rcases get_eq_of_some kind hfind with ⟨e, hget, hasked, he⟩ | ⟨value, hget, hasked, hholds⟩
      · have hfailed : asked.2 = .error e := by simp only [asked, hasked]
        refine ⟨fun _ => .inl ⟨e, hget, hfailed, he⟩, by simp, ?_⟩
        intro value hhanded
        rw [hfailed] at hhanded
        cases hhanded
      · have hafter : asked.1.get kind key = .ok (some value) := hholds.get_eq
        have hhanded : asked.2 = .ok value := hasked
        refine ⟨fun _ => .inr ⟨value, hget, hhanded⟩, by simp, ?_⟩
        intro value' hvalue'
        rw [hhanded] at hvalue'
        cases hvalue'
        exact ⟨hafter, fun _ later => get_run (hafter.trans hget.symm)⟩

/-- Memory settings as a user writes them, with a word that somebody has counted up before.  They
are looked at and asked for alike, before and after others have been at work; the word is no text
for anybody, and a serial port that is not there has its fallback. -/
theorem looking_agrees_with_asking_overrides :
    let raw := Toml.table [("alignment", .int 8192), ("burst", .int 32)]
    let next : UInt32 → UInt32 := fun n => n + 1
    let store : Settings := (ofRaw [("MemoryConfiguration", raw), ("Runs", .int 1)]).run
      [.getOrCreate SettingKind.word "Runs" next]
    let asked := store.getOrCreate SettingKind.memory "MemoryConfiguration"
    let later : List (Access Schema.standard) :=
      [.get SettingKind.text "MemoryConfiguration", .getOrCreate SettingKind.port "Port" id,
        .getOrCreate SettingKind.memory "MemoryConfiguration" id]
    store.get SettingKind.memory "MemoryConfiguration" = .ok (some ⟨some 8192, none⟩) ∧
    asked.2 = .ok ⟨some 8192, none⟩ ∧
    (asked.1.run later).get SettingKind.memory "MemoryConfiguration" =
      (store.run later).get SettingKind.memory "MemoryConfiguration" ∧
    (store.getOrCreate SettingKind.text "Runs").2 = .error (.otherKind "Runs") ∧
    (store.getOrCreate SettingKind.port "Port").2 = .ok ⟨0, false⟩ := by
  intro raw next store asked later
  have hagrees := looking_agrees_with_asking Schema.standard
    [("MemoryConfiguration", raw), ("Runs", .int 1)] [.getOrCreate SettingKind.word "Runs" next]
  have hhanded : asked.2 = .ok ⟨some 8192, none⟩ := rfl
  have hspares : ∀ access ∈ later, access.Spares SettingKind.memory "MemoryConfiguration" := by
    intro access haccess
    simp only [later, List.mem_cons, List.not_mem_nil, or_false] at haccess
    rcases haccess with rfl | rfl | rfl
    · trivial
    · exact fun h => absurd h (by decide)
    · exact fun _ => rfl
  obtain ⟨-, -, hlater⟩ := hagrees SettingKind.memory "MemoryConfiguration"
  obtain ⟨hword, -, -⟩ := hagrees SettingKind.text "Runs"
  obtain ⟨-, hport, -⟩ := hagrees SettingKind.port "Port"
  refine ⟨rfl, hhanded, (hlater _ hhanded).2 rfl later hspares, ?_, (hport rfl).2.1⟩
  rcases hword rfl with ⟨e, hlooked, hasked, -⟩ | ⟨value, hlooked, -⟩
  · cases hlooked
    exact hasked
  · cases hlooked

end Gateware.Store
