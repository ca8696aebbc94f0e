import Gateware.Toml.Value

/-!
# Tables under construction

While a document is read its tables are still open: a header or a dotted key may add to them later,
depending on how they came about.  A `Branch` is a value, which is closed, a table with its origin,
or a list of tables written with doubled brackets, of which the last is open.

* a table is *implied* if it was only passed on the way to a header, and a header may still define
  it;
* it is *dotted* if a dotted key made it, and only dotted keys may add entries to it directly;
* it is *headed* once a header has defined it, which may happen only once, and no dotted key may
  pass through it from outside.
-/

namespace Gateware.Toml

/-- How a table came about. -/
inductive Origin where
  | implied
  | dotted
  | headed
deriving Repr, DecidableEq

/-- A part of a document under construction. -/
inductive Branch where
  | closed (value : Toml)
  | table (origin : Origin) (entries : List (String × Branch))
  | tables (items : List (List (String × Branch)))

/-- The entries of a table under construction, in the order in which they were written. -/
abbrev Entries := List (String × Branch)

namespace Entries

/-- The entries with the value under a key replaced. -/
def replace (entries : Entries) (key : String) (branch : Branch) : Entries :=
  entries.map fun (k, b) => if k == key then (k, branch) else (k, b)

/-- Follows a path from a table and changes the table at its end, making the tables on the way that
do not exist yet.  `change` is told whether the last table is dotted. -/
def atPath (dotted : Bool) (change : Bool → Entries → Option Entries) (isDotted : Bool) :
    List String → Entries → Option Entries
  | [], entries => change isDotted entries
  | key :: path, entries =>
    match entries.lookup key with
    | none => do
      let inner ← atPath dotted change dotted path []
      some (entries ++ [(key, .table (if dotted then .dotted else .implied) inner)])
    | some (.closed _) => none
    | some (.table origin inner) =>
      if dotted && origin == .headed then none
      else do
        let inner ← atPath dotted change (origin == .dotted) path inner
        some (replace entries key (.table origin inner))
    | some (.tables items) => do
      let last ← items.getLast?
      let last ← atPath dotted change false path last
      some (replace entries key (.tables (items.dropLast ++ [last])))

/-- Adds a value under a dotted key to a table.  The table that receives it is the given one for a
plain key, and has to be a dotted one otherwise. -/
def addValue (path : List String) (key : String) (value : Toml) (entries : Entries) :
    Option Entries :=
  atPath true (fun isDotted entries =>
    if isDotted == path.isEmpty || (entries.lookup key).isSome then none
    else some (entries ++ [(key, .closed value)])) false path entries

/-- Opens the table of a header.  A table that was implied so far counts as written here. -/
def openTable (path : List String) (key : String) (entries : Entries) : Option Entries :=
  atPath false (fun _ entries =>
    match entries.lookup key with
    | none => some (entries ++ [(key, .table .headed [])])
    | some (.table .implied inner) =>
      some (entries.filter (·.1 != key) ++ [(key, .table .headed inner)])
    | some _ => none) false path entries

/-- Opens one more table of a list of tables. -/
def openItem (path : List String) (key : String) (entries : Entries) : Option Entries :=
  atPath false (fun _ entries =>
    match entries.lookup key with
    | none => some (entries ++ [(key, .tables [[]])])
    | some (.tables items) => some (replace entries key (.tables (items ++ [[]])))
    | some _ => none) false path entries

/-- Adds a value to the table that a header has opened. -/
def addBelow (header : List String) (path : List String) (key : String) (value : Toml)
    (entries : Entries) : Option Entries :=
  atPath false (fun _ entries => addValue path key value entries) false header entries

end Entries

/-! ## Finished values -/

mutual

/-- The value of a finished part. -/
def Branch.finish : Branch → Toml
  | .closed value => value
  | .table _ entries => .table (finishEntries entries)
  | .tables items => .array (finishTables items)

/-- The values of the entries of a finished table. -/
def finishEntries : List (String × Branch) → List (String × Toml)
  | [] => []
  | (k, b) :: entries => (k, b.finish) :: finishEntries entries

/-- The values of a finished list of tables. -/
def finishTables : List (List (String × Branch)) → List Toml
  | [] => []
  | entries :: items => .table (finishEntries entries) :: finishTables items

end

end Gateware.Toml
