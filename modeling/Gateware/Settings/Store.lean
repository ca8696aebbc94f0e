import Gateware.Toml.Value

/-!
# The settings store

Parts of the compiler that know nothing of each other keep their settings in one store, each under a
key of its own and with a type of its own.  Settings from a request arrive as raw TOML; they are
converted when they are first asked for.

Which types there are is a `Schema`: kinds of settings, the values of each kind, the value that a
missing setting has, and the conversion from TOML.  An entry of a `Store` is raw or a value of one
kind.

* `Store.get` looks at a setting and changes nothing.
* `Store.getOrCreate` makes sure that the setting is there, as a value of the wanted kind.
* `Store.update` does the same and then changes the value in its place.

A failed request leaves the store as it was.
-/

namespace Gateware

/-- The kinds of settings that a store can hold. -/
structure Schema where
  /-- The kinds. -/
  Kind : Type
  /-- Kinds can be told apart. -/
  kindEq : DecidableEq Kind
  /-- The values of a kind. -/
  Value : Kind → Type
  /-- The value of a setting that nobody has set. -/
  fallback : (kind : Kind) → Value kind
  /-- The value that raw TOML stands for, if it has the form that the kind asks for. -/
  convert : (kind : Kind) → Toml → Option (Value kind)

instance (S : Schema) : DecidableEq S.Kind := S.kindEq

/-- Why a setting could not be had. -/
inductive SettingError where
  /-- The raw entry has the wrong form. -/
  | malformed (key : String)
  /-- The entry is a value of another kind. -/
  | otherKind (key : String)
deriving Repr, DecidableEq

/-- The message of a setting error. -/
def SettingError.message : SettingError → String
  | malformed key => s!"custom configuration '{key}' is malformed: unexpected form"
  | otherKind key => s!"custom configuration '{key}' does not hold a value of the requested kind"

/-- One entry of a store. -/
inductive Entry (S : Schema) where
  | raw (value : Toml)
  | typed (kind : S.Kind) (value : S.Value kind)

/-- Settings by key, in ascending order of the keys. -/
structure Store (S : Schema) where
  entries : List (String × Entry S)

namespace Store

variable {S : Schema}

/-- A store without settings. -/
def empty : Store S := ⟨[]⟩

/-- A store with raw settings. -/
def ofRaw (values : List (String × Toml)) : Store S :=
  ⟨values.foldl (fun entries (k, v) => Toml.insertEntry k (.raw v) entries) []⟩

/-- The entry under a key. -/
def find? (store : Store S) (key : String) : Option (Entry S) := store.entries.lookup key

/-- The store with an entry put under a key, in place of what was there. -/
def put (store : Store S) (key : String) (entry : Entry S) : Store S :=
  ⟨Toml.insertEntry key entry store.entries⟩

/-- Stores raw TOML under a key. -/
def insertRaw (store : Store S) (key : String) (value : Toml) : Store S := store.put key (.raw value)

/-- Stores a value under a key. -/
def insert (store : Store S) (key : String) (kind : S.Kind) (value : S.Value kind) : Store S :=
  store.put key (.typed kind value)

/-- Whether there is a setting under a key. -/
def contains (store : Store S) (key : String) : Bool := (store.find? key).isSome

/-- The keys, in ascending order. -/
def keys (store : Store S) : List String := store.entries.map (·.1)

/-- How many settings there are. -/
def size (store : Store S) : Nat := store.entries.length

/-- The value that raw TOML under a key stands for. -/
def convertRaw (key : String) (kind : S.Kind) (value : Toml) :
    Except SettingError (S.Value kind) :=
  match S.convert kind value with
  | some v => .ok v
  | none => .error (.malformed key)

/-- The setting under a key, or nothing if there is none. -/
def get (store : Store S) (kind : S.Kind) (key : String) :
    Except SettingError (Option (S.Value kind)) :=
  match store.find? key with
  | none => .ok none
  | some (.raw value) => (convertRaw key kind value).map some
  | some (.typed kind' value) =>
    if h : kind' = kind then .ok (some (h ▸ value)) else .error (.otherKind key)

/-- The entry under a key, which is the given one if there was none before. -/
def entryOr (store : Store S) (key : String) (entry : Entry S) : Store S × Entry S :=
  match store.find? key with
  | some found => (store, found)
  | none => (store.put key entry, entry)

/-- The setting under a key, which is made from the fallback of its kind if there is none.  It is a
value of the wanted kind afterwards, unless the request fails. -/
def getOrCreate (store : Store S) (kind : S.Kind) (key : String) :
    Store S × Except SettingError (S.Value kind) :=
  let (store, entry) := store.entryOr key (.typed kind (S.fallback kind))
  match entry with
  | .raw value =>
    match convertRaw key kind value with
    | .ok v => (store.insert key kind v, .ok v)
    | .error e => (store, .error e)
  | .typed kind' value =>
    (store, if h : kind' = kind then .ok (h ▸ value) else .error (.otherKind key))

/-- Changes the setting under a key in its place, and returns what it was before. -/
def update (store : Store S) (kind : S.Kind) (key : String) (change : S.Value kind → S.Value kind) :
    Store S × Except SettingError (S.Value kind) :=
  match store.getOrCreate kind key with
  | (store, .ok value) => (store.insert key kind (change value), .ok value)
  | (store, .error e) => (store, .error e)

/-- One entry in a listing: raw TOML in full, and typed values without their content. -/
def describeEntry (entry : String × Entry S) : String :=
  Text.quoted entry.1 ++ ": " ++ match entry.2 with
    | .raw value => value.describe
    | .typed .. => "\"<typed>\""

/-- A listing of the store. -/
def describe (store : Store S) : String :=
  "\x7b" ++ String.intercalate ", " (store.entries.map describeEntry) ++ "\x7d"

end Store

end Gateware
