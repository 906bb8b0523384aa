import WorkflowLint.Toml.Value

/-!
# Documents under construction

While a document is read, its tables are still open: later lines may add to them. Each table
remembers how it came about, because that decides what may still happen to it.

* A table that only lies on the way to another one may be declared once by a header of its own.
* A table that a dotted key made, or passed through, may be extended by dotted keys of the same
  section only, and not be declared any more.
* A table that a header declared is extended by the lines of its own section only.
* A value is closed: nothing can be added to an array or a table that was written as a value.

Every operation fails (`none`) where these rules are broken or a key is defined twice.

## Main definitions

* `WorkflowLint.Toml.Entry` — a table, an array of tables or a value.
* `WorkflowLint.Toml.Entry.define?` — add a key and its value.
* `WorkflowLint.Toml.Entry.declare?`, `WorkflowLint.Toml.Entry.append?` — the two kinds of headers.
* `WorkflowLint.Toml.Entry.close` — the finished table.
-/

set_option autoImplicit false

namespace WorkflowLint.Toml

/-- How a table came about. -/
inductive Standing where
  /-- It lies on the way to a table that was declared. -/
  | onTheWay
  /-- A dotted key of the given section made it or passed through it. -/
  | dotted (sectionIndex : Nat)
  /-- A header declared it. -/
  | declared
  deriving DecidableEq, Repr, Inhabited

/-- May a dotted key of the given section pass through such a table? -/
def Standing.admits (s : Standing) (sectionIndex : Nat) : Bool :=
  match s with
  | onTheWay => true
  | dotted made => made == sectionIndex
  | declared => false

/-- What stands behind a key of a document under construction. -/
inductive Entry where
  /-- A value, to which nothing can be added. -/
  | value (v : Value)
  /-- A table. -/
  | table (standing : Standing) (entries : List (String × Entry))
  /-- An array of tables: the finished ones, and the one that is open. -/
  | tables (finished : List (List (String × Entry))) (last : List (String × Entry))
  deriving Inhabited

namespace Entry

/-- Change what stands behind a key. A new key goes to the end. -/
def update? (key : String) (f : Option Entry → Option Entry) :
    List (String × Entry) → Option (List (String × Entry))
  | [] => do return [(key, ← f none)]
  | (k, e) :: es =>
    if k == key then do return (k, ← f (some e)) :: es
    else do return (k, e) :: (← update? key f es)

/-- Change the table behind a path, and make the tables on the way as needed. An array of tables
stands for its last table. -/
def modify? (f : List (String × Entry) → Option (List (String × Entry))) :
    List String → List (String × Entry) → Option (List (String × Entry))
  | [], es => f es
  | key :: keys, es =>
    update? key (fun
      | none => do return .table .onTheWay (← modify? f keys [])
      | some (.table standing sub) => do return .table standing (← modify? f keys sub)
      | some (.tables finished last) => do return .tables finished (← modify? f keys last)
      | some (.value _) => none) es

/-- Add a value behind a dotted key. -/
def insert? (sectionIndex : Nat) (v : Value) :
    List String → List (String × Entry) → Option (List (String × Entry))
  | [], _ => none
  | [key], es =>
    update? key (fun
      | none => some (.value v)
      | some _ => none) es
  | key :: keys, es =>
    update? key (fun
      | none => do return .table (.dotted sectionIndex) (← insert? sectionIndex v keys [])
      | some (.table standing sub) =>
        if standing.admits sectionIndex then do
          return .table (.dotted sectionIndex) (← insert? sectionIndex v keys sub)
        else none
      | some _ => none) es

/-- Add a key and its value to the table behind the path `header`. -/
def define? (header : List String) (sectionIndex : Nat) (key : List String) (v : Value) :
    List (String × Entry) → Option (List (String × Entry)) :=
  modify? (insert? sectionIndex v key) header

/-- Declare the table behind a path. -/
def declare? (path : List String) (es : List (String × Entry)) : Option (List (String × Entry)) := do
  let key ← path.getLast?
  modify? (update? key fun
    | none => some (.table .declared [])
    | some (.table .onTheWay sub) => some (.table .declared sub)
    | some _ => none) path.dropLast es

/-- Add a table to the array of tables behind a path. -/
def append? (path : List String) (es : List (String × Entry)) : Option (List (String × Entry)) := do
  let key ← path.getLast?
  modify? (update? key fun
    | none => some (.tables [] [])
    | some (.tables finished last) => some (.tables (finished ++ [last]) [])
    | some _ => none) path.dropLast es

mutual

/-- The finished value. -/
def close : Entry → Value
  | .value v => v
  | .table _ entries => .table (closeEntries entries)
  | .tables finished last => .array (closeTables finished ++ [.table (closeEntries last)])

/-- The finished entries of a table. -/
def closeEntries : List (String × Entry) → List (String × Value)
  | [] => []
  | (key, e) :: es => (key, e.close) :: closeEntries es

/-- The finished tables of an array. -/
def closeTables : List (List (String × Entry)) → List Value
  | [] => []
  | es :: rest => .table (closeEntries es) :: closeTables rest

end

end Entry

end WorkflowLint.Toml
