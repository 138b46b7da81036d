import CallRefactor.Config.Value

/-!
# Tables of a TOML document

A table is filled by assignments from several places of a document, so until the end each table
remembers how it came to be. A table with a header of its own is closed to dotted keys from
elsewhere, and every key is assigned once.
-/

namespace CallRefactor.Toml

/-- How a table came to be. -/
inductive Origin where
  /-- By its own header, or as an inline table. -/
  | header
  /-- As part of the header of a table inside it. -/
  | implied
  /-- By a dotted key. -/
  | dotted
deriving DecidableEq

/-- What a key stands for while a document is being read. -/
inductive Node where
  /-- A finished value. -/
  | value (value : Value)
  /-- A table. -/
  | table (origin : Origin) (entries : List (String × Node))
  /-- Tables under one header, the first first. -/
  | tables (items : List (List (String × Node)))

/-- The entries of a table that is still being read. -/
abbrev Entries := List (String × Node)

namespace Entries

/-- What a key stands for. -/
def find? (entries : Entries) (key : String) : Option Node := entries.lookup key

/-- Gives a key that is present another meaning, or adds the key. -/
def assign (entries : Entries) (key : String) (node : Node) : Entries :=
  if entries.any (·.1 = key) then
    entries.map fun entry => if entry.1 = key then (key, node) else entry
  else entries ++ [(key, node)]

/-- Changes the table at the end of a path, which is made if it is not there. Of several tables
under one header the last is meant. -/
def change (origin : Origin) (f : Entries → Option Entries) : List String → Entries →
    Option Entries
  | [], entries => f entries
  | key :: path, entries =>
    match entries.find? key with
    | none =>
      (change origin f path []).map fun inner => entries.assign key (.table origin inner)
    | some (.table own inner) =>
      if origin = .dotted ∧ own = .header then none
      else (change origin f path inner).map fun inner => entries.assign key (.table own inner)
    | some (.tables items) =>
      match items.getLast? with
      | none => none
      | some inner =>
        (change origin f path inner).map fun inner =>
          entries.assign key (.tables (items.dropLast ++ [inner]))
    | some (.value _) => none

/-- Assigns a value to a dotted key that has none yet. -/
def assignNew (path : List String) (value : Value) (entries : Entries) : Option Entries :=
  match path.getLast? with
  | none => none
  | some key =>
    change .dotted
      (fun inner =>
        if (inner.find? key).isSome then none else some (inner.assign key (.value value)))
      path.dropLast entries

/-- Opens the table of a header. It must be new, or known only from the headers inside it. -/
def openTable (path : List String) (entries : Entries) : Option Entries :=
  match path.getLast? with
  | none => none
  | some key =>
    change .implied
      (fun inner => match inner.find? key with
        | none => some (inner.assign key (.table .header []))
        | some (.table .implied known) => some (inner.assign key (.table .header known))
        | some _ => none)
      path.dropLast entries

/-- Opens one more table under a header for several. -/
def openNext (path : List String) (entries : Entries) : Option Entries :=
  match path.getLast? with
  | none => none
  | some key =>
    change .implied
      (fun inner => match inner.find? key with
        | none => some (inner.assign key (.tables [[]]))
        | some (.tables items) => some (inner.assign key (.tables (items ++ [[]])))
        | some _ => none)
      path.dropLast entries

end Entries

/-! ## Finished tables -/

mutual

/-- The value that a key ends up with. -/
def Node.toValue : Node → Value
  | .value value => value
  | .table _ entries => .table (entriesToValue entries)
  | .tables items => .list (itemsToValue items)

/-- The entries of a finished table. -/
def entriesToValue : List (String × Node) → List (String × Value)
  | [] => []
  | (key, node) :: rest => (key, node.toValue) :: entriesToValue rest

/-- The finished tables under one header. -/
def itemsToValue : List (List (String × Node)) → List Value
  | [] => []
  | entries :: rest => .table (entriesToValue entries) :: itemsToValue rest

end

end CallRefactor.Toml
