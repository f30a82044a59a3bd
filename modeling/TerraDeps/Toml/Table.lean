/-!
# TOML tables

A TOML document is a table: a list of keys with values in order of first mention. A table remembers
how it came to be, because that decides what may still be added to it. `assign` gives a value to a
dotted key and `openTable` fills the table that a header names; both refuse to define anything
twice.
-/

set_option autoImplicit false

namespace TerraDeps.Toml

/-- How a table came to be. -/
inductive TableForm where
  /-- A header names it. -/
  | headed
  /-- The header of a table within it was seen. -/
  | implied
  /-- Dotted keys lead through it. -/
  | dotted
  /-- It was written in braces and is complete. -/
  | closed
  deriving DecidableEq, Repr

/-- A value of a document. -/
inductive Value where
  | text (s : String)
  | integer (n : Int)
  /-- What starts like an integer and writes none. It may stand where no value is asked for. -/
  | malformed (written : String)
  | boolean (b : Bool)
  /-- A floating-point number as written. -/
  | float (written : String)
  /-- A date or a time as written. -/
  | time (written : String)
  | array (items : List Value)
  | table (form : TableForm) (entries : List (String × Value))
  /-- The tables whose headers stand in double brackets. -/
  | tables (items : List (List (String × Value)))

/-- The keys of a table with their values. -/
abbrev Entries := List (String × Value)

/-- The entries with the value under `key` replaced by what `change` makes of it. -/
def alter (key : String) (change : Option Value → Option Value) : Entries → Option Entries
  | [] => (change none).map fun v => [(key, v)]
  | (k, v) :: rest =>
    if k = key then (change (some v)).map fun w => (k, w) :: rest
    else (alter key change rest).map ((k, v) :: ·)

/-- The entries with a value under a dotted key that has none yet. -/
def assign : List String → Value → Entries → Option Entries
  | [], _, _ => none
  | [key], v, entries => alter key (fun old => if old.isNone then some v else none) entries
  | key :: path, v, entries =>
    alter key (fun
      | none => (assign path v []).map (.table .dotted)
      | some (.table form inner) =>
        if form = .dotted ∨ form = .implied then (assign path v inner).map (.table form) else none
      | some _ => none) entries

/-- The tables with the last of them changed. -/
def changeLast (change : Entries → Option Entries) : List Entries → Option (List Entries)
  | [] => none
  | [last] => (change last).map ([·])
  | first :: rest => (changeLast change rest).map (first :: ·)

/-- The entries after `fill` has filled the table that a header names: one more of the tables of
that name if the header is `repeated`, else a table that no header has named before. -/
def openTable (repeated : Bool) (fill : Entries → Option Entries) :
    List String → Entries → Option Entries
  | [], _ => none
  | [key], entries =>
    alter key (fun
      | none => (fill []).map fun es => if repeated then .tables [es] else .table .headed es
      | some (.table .implied inner) => if repeated then none else (fill inner).map (.table .headed)
      | some (.tables items) =>
        if repeated then (fill []).map fun es => .tables (items ++ [es]) else none
      | some _ => none) entries
  | key :: path, entries =>
    alter key (fun
      | none => (openTable repeated fill path []).map (.table .implied)
      | some (.table form inner) =>
        if form = .closed then none else (openTable repeated fill path inner).map (.table form)
      | some (.tables items) => (changeLast (openTable repeated fill path) items).map .tables
      | some _ => none) entries

end TerraDeps.Toml
