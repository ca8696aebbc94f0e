import Gateware.Proofs.Results
import Gateware.Settings.Standard

/-!
# Settings as typed cells

A store is used by parts that know nothing of each other, so what one of them does must not reach
the settings of another.  An `Access` is one use of a store, and `Store.run` makes any number of
them in order.  The view of a store is `Store.find?`, the cell under each key: empty, raw, or a
value of one kind.

* An access touches the cell under its own key and no other (`find?_perform_of_ne`), and one that is
  refused changes nothing at all (`perform_of_refused`).
* A cell that holds a value keeps its kind until something else is put there, and the value changes
  only as it is written (`Store.Holds.perform`, and `Store.Holds.run` for whole runs).
-/

namespace Gateware

/-! ## Entries in order -/

namespace Toml

section

variable {α : Type} {key other : String} {value : α} {entries : List (String × α)}

lemma lookup_insertEntry_self : (insertEntry key value entries).lookup key = some value := by
  induction entries with
  | nil => simp [insertEntry]
  | cons entry entries ih =>
      obtain ⟨k, v⟩ := entry
      rw [insertEntry]
      split_ifs with hbefore hsame
      · simp
      · simp
      · rw [Bool.not_eq_true] at hsame
        rw [List.lookup_cons, hsame]
        exact ih

lemma lookup_insertEntry_of_ne (h : other ≠ key) :
    (insertEntry key value entries).lookup other = entries.lookup other := by
  have hne : (other == key) = false := by simpa using h
  induction entries with
  | nil => simp [insertEntry, List.lookup_cons, hne]
  | cons entry entries ih =>
      obtain ⟨k, v⟩ := entry
      rw [insertEntry]
      split_ifs with hbefore hsame
      · rw [List.lookup_cons, hne]
      · rw [beq_iff_eq] at hsame
        rw [List.lookup_cons, List.lookup_cons, ← hsame, hne]
      · rw [List.lookup_cons, List.lookup_cons, ih]

lemma insertEntry_cons_self (first : α) :
    insertEntry key value ((key, first) :: entries) = (key, value) :: entries := by
  rw [insertEntry, if_neg (String.lt_irrefl key), if_pos (beq_self_eq_true key)]

/-- Only the last of several values counts. -/
lemma insertEntry_insertEntry (first : α) :
    insertEntry key value (insertEntry key first entries) = insertEntry key value entries := by
  induction entries with
  | nil => exact insertEntry_cons_self first
  | cons entry entries ih =>
      obtain ⟨k, v⟩ := entry
      rw [insertEntry, insertEntry]
      split_ifs with hbefore hsame
      · exact insertEntry_cons_self first
      · exact insertEntry_cons_self first
      · rw [insertEntry, if_neg hbefore, if_neg hsame, ih]

/-- The entries are in ascending order of their keys, with one entry for each key at most. -/
def Ordered (entries : List (String × α)) : Prop := entries.Pairwise fun a b => a.1 < b.1

lemma mem_insertEntry {entry : String × α} (h : entry ∈ insertEntry key value entries) :
    entry = (key, value) ∨ entry ∈ entries := by
  induction entries with
  | nil => simpa [insertEntry] using h
  | cons first entries ih =>
      obtain ⟨k, v⟩ := first
      rw [insertEntry] at h
      split_ifs at h with hbefore hsame
      · exact List.mem_cons.mp h
      · rcases List.mem_cons.mp h with h | h
        · exact .inl h
        · exact .inr (List.mem_cons_of_mem _ h)
      · rcases List.mem_cons.mp h with h | h
        · exact .inr (h ▸ List.mem_cons_self)
        · exact (ih h).imp_right (List.mem_cons_of_mem _)

lemma Ordered.insertEntry (h : Ordered entries) : Ordered (insertEntry key value entries) := by
  induction entries with
  | nil => exact List.pairwise_singleton _ _
  | cons first entries ih =>
      obtain ⟨k, v⟩ := first
      obtain ⟨hfirst, hrest⟩ := List.pairwise_cons.mp h
      rw [Toml.insertEntry]
      split_ifs with hbefore hsame
      · refine List.pairwise_cons.mpr ⟨?_, h⟩
        intro entry hentry
        rcases List.mem_cons.mp hentry with rfl | hentry
        · exact hbefore
        · exact String.lt_trans hbefore (hfirst entry hentry)
      · rw [beq_iff_eq] at hsame
        rw [hsame]
        exact List.pairwise_cons.mpr ⟨hfirst, hrest⟩
      · rw [beq_iff_eq] at hsame
        refine List.pairwise_cons.mpr ⟨?_, ih hrest⟩
        intro entry hentry
        rcases mem_insertEntry hentry with rfl | hentry
        · by_contra hnot
          exact hsame (String.le_antisymm (String.not_lt.mp hnot) (String.not_lt.mp hbefore))
        · exact hfirst entry hentry

end

end Toml

namespace Store

variable {S : Schema}

/-! ## Accesses -/

/-- One use of a store. -/
inductive Access (S : Schema) where
  | insertRaw (key : String) (value : Toml)
  | insert (key : String) (kind : S.Kind) (value : S.Value kind)
  | get (kind : S.Kind) (key : String)
  /-- The value is asked for and then changed in its place, by `id` if it is only looked at. -/
  | getOrCreate (kind : S.Kind) (key : String) (change : S.Value kind → S.Value kind)

/-- What a store answers. -/
inductive Answer (S : Schema) where
  | stored
  /-- What there is under a key. -/
  | found (kind : S.Kind) (value : Option (S.Value kind))
  /-- The value before it is changed. -/
  | handed (kind : S.Kind) (value : S.Value kind)
  | refused (error : SettingError)

namespace Access

/-- The key under which a store is used. -/
def key : Access S → String
  | insertRaw key _ | insert key _ _ | get _ key | getOrCreate _ key _ => key

/-- Whether an access only asks. -/
def asks : Access S → Bool
  | get .. => true
  | _ => false

/-- Whether an access puts something else in place of what is there. -/
def replaces : Access S → Bool
  | insertRaw .. | insert .. => true
  | _ => false

end Access

/-- Uses a store once. -/
def perform (store : Store S) : Access S → Store S × Answer S
  | .insertRaw key value => (store.insertRaw key value, .stored)
  | .insert key kind value => (store.insert key kind value, .stored)
  | .get kind key => (store, match store.get kind key with
    | .ok value => .found kind value
    | .error e => .refused e)
  | .getOrCreate kind key change =>
    let (store, result) := store.update kind key change
    (store, match result with
      | .ok value => .handed kind value
      | .error e => .refused e)

/-- The store after accesses in order. -/
def run (store : Store S) (accesses : List (Access S)) : Store S :=
  accesses.foldl (fun store access => (store.perform access).1) store

/-! ## What an access does -/

section

variable {store : Store S} {key other : String} {kind : S.Kind} {value : S.Value kind}
  {change : S.Value kind → S.Value kind} {entry : Entry S} {e : SettingError}

@[simp] lemma find?_put_self (entry : Entry S) : (store.put key entry).find? key = some entry :=
  Toml.lookup_insertEntry_self

lemma find?_put_of_ne (entry : Entry S) (h : other ≠ key) :
    (store.put key entry).find? other = store.find? other :=
  Toml.lookup_insertEntry_of_ne h

/-- The value of an entry, as one of the wanted kind. -/
def Entry.read (key : String) (kind : S.Kind) : Entry S → Except SettingError (S.Value kind)
  | .raw value => convertRaw key kind value
  | .typed kind' value =>
    if h : kind' = kind then .ok (h ▸ value) else .error (.otherKind key)

lemma get_of_some (h : store.find? key = some entry) :
    store.get kind key = (Entry.read key kind entry).map some := by
  cases entry with
  | raw value => simp only [get, h, Entry.read]
  | typed kind' value =>
      simp only [get, h, Entry.read]
      split_ifs <;> rfl

/-- The value that a request meets with: that of the entry, or the fallback if there is none. -/
def valueFor (store : Store S) (kind : S.Kind) (key : String) :
    Except SettingError (S.Value kind) :=
  match store.find? key with
  | none => .ok (S.fallback kind)
  | some entry => Entry.read key kind entry

lemma valueFor_of_some (h : store.find? key = some entry) :
    store.valueFor kind key = Entry.read key kind entry := by
  rw [valueFor, h]

lemma getOrCreate_of_none (h : store.find? key = none) :
    store.getOrCreate kind key =
      (store.insert key kind (S.fallback kind), .ok (S.fallback kind)) := by
  simp [getOrCreate, entryOr, h, insert]

/-- A value that can be had is there already, or is put there. -/
lemma getOrCreate_of_ok (h : store.valueFor kind key = .ok value) :
    store.getOrCreate kind key = (store, .ok value) ∧
        store.find? key = some (.typed kind value) ∨
      store.getOrCreate kind key = (store.insert key kind value, .ok value) := by
  cases hfind : store.find? key with
  | none =>
      rw [valueFor, hfind] at h
      cases h
      exact .inr (getOrCreate_of_none hfind)
  | some entry =>
      rw [valueFor_of_some hfind] at h
      cases entry with
      | raw raw =>
          have hconvert : convertRaw key kind raw = .ok value := h
          exact .inr (by simp only [getOrCreate, entryOr, hfind, hconvert])
      | typed kind' value' =>
          simp only [Entry.read] at h
          split_ifs at h with hkind
          subst hkind
          cases h
          exact .inl ⟨by simp only [getOrCreate, entryOr, hfind, dif_pos], rfl⟩

lemma getOrCreate_of_error (h : store.valueFor kind key = .error e) :
    store.getOrCreate kind key = (store, .error e) := by
  cases hfind : store.find? key with
  | none =>
      rw [valueFor, hfind] at h
      cases h
  | some entry =>
      rw [valueFor_of_some hfind] at h
      cases entry with
      | raw raw =>
          have hconvert : convertRaw key kind raw = .error e := h
          simp only [getOrCreate, entryOr, hfind, hconvert]
      | typed kind' value' =>
          simp only [Entry.read] at h
          simp only [getOrCreate, entryOr, hfind, h]

lemma update_of_ok (h : store.valueFor kind key = .ok value) :
    store.update kind key change = (store.insert key kind (change value), .ok value) := by
  rcases getOrCreate_of_ok h with ⟨hthere, -⟩ | hput
  · rw [update, hthere]
  · have htwice : (store.insert key kind value).insert key kind (change value) =
        store.insert key kind (change value) :=
      congrArg Store.mk (Toml.insertEntry_insertEntry _)
    rw [update, hput, ← htwice]

lemma update_of_error (h : store.valueFor kind key = .error e) :
    store.update kind key change = (store, .error e) := by
  rw [update, getOrCreate_of_error h]

lemma perform_of_ok (h : store.valueFor kind key = .ok value) :
    store.perform (.getOrCreate kind key change) =
      (store.insert key kind (change value), .handed kind value) := by
  rw [perform, update_of_ok h]

lemma perform_of_error (h : store.valueFor kind key = .error e) :
    store.perform (.getOrCreate kind key change) = (store, .refused e) := by
  rw [perform, update_of_error h]

lemma perform_get_of_ok (hfind : store.find? key = some entry)
    (hread : Entry.read key kind entry = .ok value) :
    store.perform (.get kind key) = (store, .found kind (some value)) := by
  rw [perform, get_of_some hfind, hread]
  rfl

lemma perform_get_of_error (hfind : store.find? key = some entry)
    (hread : Entry.read key kind entry = .error e) :
    store.perform (.get kind key) = (store, .refused e) := by
  rw [perform, get_of_some hfind, hread]
  rfl

/-- An access leaves a store as it is, or puts one entry under its own key. -/
lemma perform_cases (store : Store S) (access : Access S) :
    (store.perform access).1 = store ∨
      ∃ entry, (store.perform access).1 = store.put access.key entry ∧
        ∀ e, (store.perform access).2 ≠ .refused e := by
  cases access with
  | insertRaw key value => exact .inr ⟨.raw value, rfl, by rintro e ⟨⟩⟩
  | insert key kind value => exact .inr ⟨.typed kind value, rfl, by rintro e ⟨⟩⟩
  | get kind key => exact .inl rfl
  | getOrCreate kind key change =>
      cases hvalue : store.valueFor kind key with
      | error e =>
          rw [perform_of_error hvalue]
          exact .inl rfl
      | ok value =>
          rw [perform_of_ok hvalue]
          exact .inr ⟨.typed kind (change value), rfl, by rintro e ⟨⟩⟩

lemma find?_perform_of_ne {access : Access S} (h : key ≠ access.key) :
    (store.perform access).1.find? key = store.find? key := by
  rcases perform_cases store access with heq | ⟨entry, heq, -⟩
  · rw [heq]
  · rw [heq, find?_put_of_ne entry h]

lemma perform_of_refused {access : Access S} (h : (store.perform access).2 = .refused e) :
    (store.perform access).1 = store := by
  rcases perform_cases store access with heq | ⟨entry, -, haccepted⟩
  · exact heq
  · exact absurd h (haccepted e)

lemma perform_of_asks {access : Access S} (h : access.asks = true) :
    (store.perform access).1 = store := by
  cases access with
  | get kind key => rfl
  | insertRaw | insert | getOrCreate => cases h

/-- What an access answers, and what it leaves under its key, depends on nothing but the cell under
that key. -/
lemma perform_local {store store' : Store S} {access : Access S}
    (h : store.find? access.key = store'.find? access.key) :
    (store.perform access).2 = (store'.perform access).2 ∧
      (store.perform access).1.find? access.key = (store'.perform access).1.find? access.key := by
  cases access with
  | insertRaw key value => exact ⟨rfl, by simp [perform, insertRaw, Access.key]⟩
  | insert key kind value => exact ⟨rfl, by simp [perform, insert, Access.key]⟩
  | get kind key =>
      change store.find? key = store'.find? key at h
      have hget : store.get kind key = store'.get kind key := by
        unfold get
        rw [h]
      exact ⟨by rw [perform, perform, hget], h⟩
  | getOrCreate kind key change =>
      change store.find? key = store'.find? key at h
      have hvalue : store.valueFor kind key = store'.valueFor kind key := by
        unfold valueFor
        rw [h]
      cases hcase : store'.valueFor kind key with
      | error e =>
          rw [perform_of_error hcase, perform_of_error (hvalue.trans hcase)]
          exact ⟨rfl, h⟩
      | ok value =>
          rw [perform_of_ok hcase, perform_of_ok (hvalue.trans hcase)]
          exact ⟨rfl, by simp [insert, Access.key]⟩

lemma perform_ordered (h : Toml.Ordered store.entries) (access : Access S) :
    Toml.Ordered (store.perform access).1.entries := by
  rcases perform_cases store access with heq | ⟨entry, heq, -⟩
  · rwa [heq]
  · rw [heq]
    exact h.insertEntry

end

/-! ## Runs -/

section

variable {store store' : Store S} {key : String}

lemma run_ordered (h : Toml.Ordered store.entries) (accesses : List (Access S)) :
    Toml.Ordered (store.run accesses).entries := by
  induction accesses generalizing store with
  | nil => exact h
  | cons access accesses ih => exact ih (perform_ordered h access)

lemma ordered_ofRaw (values : List (String × Toml)) :
    Toml.Ordered (ofRaw values : Store S).entries := by
  have hfold : ∀ entries : List (String × Entry S), Toml.Ordered entries →
      Toml.Ordered (values.foldl (fun entries value => Toml.insertEntry value.1 (.raw value.2)
        entries) entries) := by
    induction values with
    | nil => exact fun entries h => h
    | cons value values ih => exact fun entries h => ih _ h.insertEntry
  exact hfold [] .nil

/-- A cell goes its own way: accesses under other keys may as well not have been made. -/
lemma find?_run (h : store.find? key = store'.find? key) (accesses : List (Access S)) :
    (store.run accesses).find? key =
      (store'.run (accesses.filter (·.key == key))).find? key := by
  induction accesses generalizing store store' with
  | nil => exact h
  | cons access accesses ih =>
      by_cases hkey : access.key = key
      · rw [List.filter_cons_of_pos (by simpa using hkey)]
        subst hkey
        exact ih (perform_local h).2
      · rw [List.filter_cons_of_neg (by simpa using hkey)]
        exact ih ((find?_perform_of_ne (Ne.symm hkey)).trans h)

end

/-! ## Cells that hold a value -/

/-- The cell under a key holds a value of a kind. -/
def Holds (store : Store S) (key : String) (kind : S.Kind) (value : S.Value kind) : Prop :=
  store.find? key = some (.typed kind value)

/-- The value of a setting after an access that does not replace it: it changes only if it is handed
out as a value of its kind. -/
def Access.written (key : String) (kind : S.Kind) (value : S.Value kind) :
    Access S → S.Value kind
  | .getOrCreate kind' key' change =>
    if h : kind' = kind then
      if key' = key then (h ▸ change : S.Value kind → S.Value kind) value else value
    else value
  | _ => value

/-- The value that was last written to a setting, given what was there before some accesses. -/
def lastWritten (key : String) (kind : S.Kind) (value : S.Value kind)
    (accesses : List (Access S)) : S.Value kind :=
  accesses.foldl (Access.written key kind) value

section

variable {store : Store S} {key : String} {kind kind' : S.Kind} {value : S.Value kind}

lemma holds_insert : (store.insert key kind value).Holds key kind value :=
  find?_put_self (.typed kind value)

lemma Holds.valueFor (h : store.Holds key kind value) : store.valueFor kind key = .ok value :=
  (valueFor_of_some h).trans (dif_pos rfl)

lemma Holds.valueFor_of_ne (h : store.Holds key kind value) (hne : kind' ≠ kind) :
    store.valueFor kind' key = .error (.otherKind key) :=
  (valueFor_of_some h).trans (dif_neg hne.symm)

lemma Holds.get (h : store.Holds key kind value) :
    store.perform (.get kind key) = (store, .found kind (some value)) :=
  perform_get_of_ok h (dif_pos rfl)

lemma Holds.get_of_ne (h : store.Holds key kind value) (hne : kind' ≠ kind) :
    store.perform (.get kind' key) = (store, .refused (.otherKind key)) :=
  perform_get_of_error h (dif_neg hne.symm)

/-- A value stays under its key, with its kind, until something else is put there. -/
lemma Holds.perform (h : store.Holds key kind value) {access : Access S}
    (hkept : access.key = key → access.replaces = false) :
    (store.perform access).1.Holds key kind (access.written key kind value) := by
  by_cases hkey : key = access.key
  · specialize hkept hkey.symm
    cases access with
    | insertRaw | insert => cases hkept
    | get kind' key' => exact h
    | getOrCreate kind' key' change =>
        change key = key' at hkey
        subst hkey
        by_cases hkind : kind' = kind
        · subst hkind
          rw [perform_of_ok h.valueFor]
          simpa [Access.written] using holds_insert
        · rw [perform_of_error (h.valueFor_of_ne hkind)]
          simpa [Access.written, hkind] using h
  · have hwritten : access.written key kind value = value := by
      cases access with
      | getOrCreate kind' key' change =>
          have hne : ¬ key' = key := fun heq => hkey heq.symm
          simp [Access.written, hne]
      | insertRaw | insert | get => rfl
    rw [Holds, find?_perform_of_ne hkey, hwritten]
    exact h

lemma Holds.run (h : store.Holds key kind value) {accesses : List (Access S)}
    (hkept : ∀ access ∈ accesses, access.key = key → access.replaces = false) :
    (store.run accesses).Holds key kind (lastWritten key kind value accesses) := by
  induction accesses generalizing store value with
  | nil => exact h
  | cons access accesses ih =>
      obtain ⟨hfirst, hrest⟩ := List.forall_mem_cons.mp hkept
      exact ih (h.perform hfirst) hrest

/-- Whoever was handed a value has put it into the cell. -/
lemma holds_of_handed {change : S.Value kind → S.Value kind}
    (h : (store.perform (.getOrCreate kind key change)).2 = .handed kind value) :
    (store.perform (.getOrCreate kind key change)).1.Holds key kind (change value) := by
  cases hvalue : store.valueFor kind key with
  | error e =>
      rw [perform_of_error hvalue] at h
      cases h
  | ok value' =>
      rw [perform_of_ok hvalue] at h ⊢
      cases h
      exact holds_insert

end

/-- Raw TOML that a kind does not accept is refused, and is there for other kinds. -/
lemma perform_raw {store : Store S} {key : String} {raw : Toml} {kind : S.Kind}
    (hfind : store.find? key = some (.raw raw)) (hconvert : S.convert kind raw = none)
    (change : S.Value kind → S.Value kind) :
    store.perform (.get kind key) = (store, .refused (.malformed key)) ∧
      store.perform (.getOrCreate kind key change) = (store, .refused (.malformed key)) ∧
      ∀ kind' value change', S.convert kind' raw = some value →
        (store.perform (.getOrCreate kind' key change')).2 = .handed kind' value := by
  have hread : Entry.read key kind (.raw raw) = .error (.malformed key) := by
    rw [Entry.read, convertRaw, hconvert]
  refine ⟨perform_get_of_error hfind hread,
    perform_of_error ((valueFor_of_some hfind).trans hread), ?_⟩
  intro kind' value change' hconvert'
  have hread' : Entry.read key kind' (.raw raw) = .ok value := by
    rw [Entry.read, convertRaw, hconvert']
  rw [perform_of_ok ((valueFor_of_some hfind).trans hread')]

/-- **Every setting is a typed cell of its own, over every run.**  There is one cell for each key,
and what is under a key depends on the accesses under that key alone.  An access that only asks, or
is refused, leaves the whole store as it was; so raw TOML that cannot be converted can still be
converted to another kind.  Once a value has been handed out, it is the value last written that is
found and handed out, and no other kind gets anything, until something else is put in its place. -/
theorem settings_are_cells (S : Schema) :
    (∀ (values : List (String × Toml)) (accesses : List (Access S)),
      Toml.Ordered ((ofRaw values).run accesses).entries) ∧
    (∀ (store : Store S) (accesses : List (Access S)) (key : String),
      (store.run accesses).find? key =
        (store.run (accesses.filter (·.key == key))).find? key) ∧
    (∀ (store : Store S) (access : Access S),
      (∀ key, key ≠ access.key → (store.perform access).1.find? key = store.find? key) ∧
      (access.asks = true → (store.perform access).1 = store) ∧
      ∀ e, (store.perform access).2 = .refused e → (store.perform access).1 = store) ∧
    (∀ (store : Store S) (key : String) (raw : Toml) (kind : S.Kind)
        (change : S.Value kind → S.Value kind),
      store.find? key = some (.raw raw) → S.convert kind raw = none →
        store.perform (.get kind key) = (store, .refused (.malformed key)) ∧
        store.perform (.getOrCreate kind key change) = (store, .refused (.malformed key)) ∧
        ∀ kind' value change', S.convert kind' raw = some value →
          (store.perform (.getOrCreate kind' key change')).2 = .handed kind' value) ∧
    ∀ (store : Store S) (key : String) (kind : S.Kind) (change : S.Value kind → S.Value kind)
        (value : S.Value kind) (accesses : List (Access S)),
      (store.perform (.getOrCreate kind key change)).2 = .handed kind value →
      (∀ access ∈ accesses, access.key = key → access.replaces = false) →
        let later := (store.perform (.getOrCreate kind key change)).1.run accesses
        let current := lastWritten key kind (change value) accesses
        later.perform (.get kind key) = (later, .found kind (some current)) ∧
        (∀ change', later.perform (.getOrCreate kind key change') =
          (later.insert key kind (change' current), .handed kind current)) ∧
        ∀ kind', kind' ≠ kind →
          later.perform (.get kind' key) = (later, .refused (.otherKind key)) ∧
          ∀ change', later.perform (.getOrCreate kind' key change') =
            (later, .refused (.otherKind key)) := by
  refine ⟨fun values accesses => run_ordered (ordered_ofRaw values) accesses,
    fun store accesses key => find?_run rfl accesses,
    fun store access => ⟨fun key => find?_perform_of_ne, perform_of_asks,
      fun e => perform_of_refused⟩,
    fun store key raw kind change hfind hconvert => perform_raw hfind hconvert change, ?_⟩
  intro store key kind change value accesses hhanded hkept later current
  have hholds : later.Holds key kind current := (holds_of_handed hhanded).run hkept
  refine ⟨hholds.get, fun change' => perform_of_ok hholds.valueFor, fun kind' hne => ?_⟩
  exact ⟨hholds.get_of_ne hne, fun change' => perform_of_error (hholds.valueFor_of_ne hne)⟩

/-- A serial port: its raw settings are no text, they are read once, and what is changed afterwards
stays changed whatever happens to another port. -/
theorem settings_are_cells_port :
    let raw := Toml.table [("baud_rate", .int 9600)]
    let start : Settings := ofRaw [("Other", .int 1), ("Port", raw)]
    let faster : PortSettings → PortSettings := fun p => { p with baudRate := 115200 }
    let checked : PortSettings → PortSettings := fun p => { p with parity := true }
    let accesses : List (Access Schema.standard) :=
      [.get SettingKind.word "Port", .insertRaw "Other" raw,
        .getOrCreate SettingKind.port "Other" faster, .getOrCreate SettingKind.port "Port" checked]
    let later := (start.perform (.getOrCreate SettingKind.port "Port" faster)).1.run accesses
    start.perform (.getOrCreate SettingKind.text "Port" id) =
      (start, .refused (.malformed "Port")) ∧
    (start.perform (.getOrCreate SettingKind.port "Port" faster)).2 =
      .handed SettingKind.port ⟨9600, false⟩ ∧
    later.perform (.get SettingKind.port "Port") =
      (later, .found SettingKind.port (some ⟨115200, true⟩)) ∧
    later.perform (.get SettingKind.text "Port") = (later, .refused (.otherKind "Port")) := by
  intro raw start faster checked accesses later
  obtain ⟨-, -, -, hraw, hvalue⟩ := settings_are_cells Schema.standard
  obtain ⟨-, hrefused, hconverted⟩ :=
    hraw start "Port" raw SettingKind.text id rfl rfl
  have hhanded := hconverted SettingKind.port ⟨9600, false⟩ faster rfl
  obtain ⟨hfound, -, hother⟩ := hvalue start "Port" SettingKind.port faster _ accesses hhanded
    (by decide +kernel)
  exact ⟨hrefused, hhanded, hfound, (hother SettingKind.text (fun h => nomatch h)).1⟩

end Store

end Gateware
