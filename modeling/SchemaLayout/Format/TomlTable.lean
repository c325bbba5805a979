import SchemaLayout.Format.Value

/-!
# The tables of TOML

How the statements of a document build up its tables. A table can be opened once by its header; one
that came into being as part of the path of another header can still be opened, and one that came
into being through dotted keys can only be extended by such keys.
-/
namespace SchemaLayout.Toml

/-- How a table came into being. -/
inductive Origin where
  /-- Through its own header. -/
  | header
  /-- As part of the path in a header. -/
  | implied
  /-- Through dotted keys. -/
  | dotted
  deriving DecidableEq, Repr

/-- What stands under a key. -/
inductive Node where
  | value (value : Value)
  | table (origin : Origin) (entries : List (String × Node))
  /-- The tables of one name, the last one first. -/
  | tables (last : List (String × Node)) (earlier : List (List (String × Node)))

/-- The entries of a table. -/
abbrev Entries := List (String × Node)

namespace Entries

/-- The entries with a new node under a key that is there. -/
def replace (entries : Entries) (key : String) (node : Node) : Entries :=
  entries.map fun entry => if entry.1 = key then (key, node) else entry

/-- The entries with a value put under a key, which must be free. Tables on the way come into being
through the key; where such a table was opened by its header already, or the last one came into
being otherwise, nothing can be put. `open?` says whether a value may be put right here. -/
def put (value : Value) (open? : Bool) : (path : List String) → Entries → Option Entries
  | [], _ => none
  | [key], entries =>
    if open? && (entries.lookup key).isNone then some (entries ++ [(key, .value value)]) else none
  | key :: rest, entries =>
    match entries.lookup key with
    | none =>
      (put value true rest []).map fun inner => entries ++ [(key, .table .dotted inner)]
    | some (.table .header _) => none
    | some (.table origin inner) =>
      (put value (origin == .dotted) rest inner).map fun inner =>
        entries.replace key (.table origin inner)
    | some (.tables last earlier) =>
      (put value false rest last).map fun last => entries.replace key (.tables last earlier)
    | some (.value _) => none

/-- The entries after the header of a table, or of one more table of a name if `many`. -/
def openTable (many : Bool) : (path : List String) → Entries → Option Entries
  | [], _ => none
  | [key], entries =>
    match many, entries.lookup key with
    | false, none => some (entries ++ [(key, .table .header [])])
    | false, some (.table .implied inner) => some (entries.replace key (.table .header inner))
    | true, none => some (entries ++ [(key, .tables [] [])])
    | true, some (.tables last earlier) =>
      some (entries.replace key (.tables [] (last :: earlier)))
    | _, _ => none
  | key :: rest, entries =>
    match entries.lookup key with
    | none =>
      (openTable many rest []).map fun inner => entries ++ [(key, .table .implied inner)]
    | some (.table origin inner) =>
      (openTable many rest inner).map fun inner => entries.replace key (.table origin inner)
    | some (.tables last earlier) =>
      (openTable many rest last).map fun last => entries.replace key (.tables last earlier)
    | some (.value _) => none

/-- The entries with the table at a path changed; of several tables of a name it is the last. -/
def within (change : Entries → Option Entries) : (path : List String) → Entries → Option Entries
  | [], entries => change entries
  | key :: rest, entries =>
    match entries.lookup key with
    | some (.table origin inner) =>
      (within change rest inner).map fun inner => entries.replace key (.table origin inner)
    | some (.tables last earlier) =>
      (within change rest last).map fun last => entries.replace key (.tables last earlier)
    | _ => none

end Entries

mutual

/-- The content of a node. -/
def Node.content : Node → Value
  | .value value => value
  | .table _ entries => .record (contentEntries entries)
  | .tables last earlier => .list (contentTables [.record (contentEntries last)] earlier)

/-- The contents under all keys. -/
def contentEntries : List (String × Node) → List (String × Value)
  | [] => []
  | (key, node) :: rest => (key, node.content) :: contentEntries rest

/-- The contents of tables, given the last one first, in front of those of later ones. -/
def contentTables (later : List Value) : List (List (String × Node)) → List Value
  | [] => later
  | entries :: earlier => contentTables (.record (contentEntries entries) :: later) earlier

end

end SchemaLayout.Toml
