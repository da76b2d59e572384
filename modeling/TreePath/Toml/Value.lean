/-! # TOML documents

A document is a table: values by key. A table comes about in one of four ways, which tell whether
more can be put into it later: a header states it, a header of a table in it implies it, a dotted
key of a table in it names it, or it is written in braces.

* `openTable` and `openElement`: what a header of a table, or of an element of an array of tables,
  does to a document.
* `put`: what a line with a key and a value does to a table. -/

namespace TreePath.Toml

/-- How a table came about. -/
inductive Origin where
  /-- A header states the table, or it is an element of an array of tables. -/
  | stated
  /-- A header states a table in it. -/
  | implied
  /-- A dotted key names it. -/
  | dotted
  /-- It is written in braces. -/
  | inline
  deriving DecidableEq, Repr, Inhabited

/-- A value. -/
inductive Value where
  | string (text : String)
  | integer (value : Int)
  | float (value : Float)
  | boolean (value : Bool)
  /-- A date, a time or both, as it is written. -/
  | dateTime (text : String)
  | array (items : List Value)
  | table (origin : Origin) (entries : List (String × Value))
  /-- An array of tables, of which there is at least one. -/
  | tables (elements : List (List (String × Value)))
  deriving Repr, Inhabited

/-- The entries of a table. -/
abbrev Entries := List (String × Value)

namespace Entries

/-- The value of a key. -/
def get? (es : Entries) (key : String) : Option Value := es.lookup key

/-- The entries with another value of a key, or with a new key at the end. -/
def set (es : Entries) (key : String) (v : Value) : Entries :=
  if (es.get? key).isSome then es.map fun e => if e.1 = key then (key, v) else e
  else es ++ [(key, v)]

/-- Applies `f` to the last of some tables. -/
def mapLast (f : Entries → Option Entries) : List Entries → Option (List Entries)
  | [] => none
  | [es] => (f es).map ([·])
  | es :: rest => (mapLast f rest).map (es :: ·)

/-- Goes into the table of a key, for a header: a new one is implied, and of an array of tables it
is the last. Applies `f` to the entries. -/
def within (es : Entries) (key : String) (f : Entries → Option Entries) : Option Entries :=
  match es.get? key with
  | none => (f []).map fun inner => es.set key (.table .implied inner)
  | some (.table .inline _) => none
  | some (.table origin inner) => (f inner).map fun inner => es.set key (.table origin inner)
  | some (.tables elements) =>
    (mapLast f elements).map fun elements => es.set key (.tables elements)
  | some _ => none

/-- States the table of a key, which may be implied before. -/
def stateTable (es : Entries) (key : String) : Option Entries :=
  match es.get? key with
  | none => some (es.set key (.table .stated []))
  | some (.table .implied inner) => some (es.set key (.table .stated inner))
  | some _ => none

/-- Adds an empty table to the array of tables of a key. -/
def addElement (es : Entries) (key : String) : Option Entries :=
  match es.get? key with
  | none => some (es.set key (.tables [[]]))
  | some (.tables elements) => some (es.set key (.tables (elements ++ [[]])))
  | some _ => none

/-- The header of a table. -/
def openTable : List String → Entries → Option Entries
  | [], _ => none
  | [key], es => es.stateTable key
  | key :: path, es => es.within key (openTable path)

/-- The header of an element of an array of tables. -/
def openElement : List String → Entries → Option Entries
  | [], _ => none
  | [key], es => es.addElement key
  | key :: path, es => es.within key (openElement path)

/-- Applies `f` to the table that a header opened. -/
def atHeader (f : Entries → Option Entries) : List String → Entries → Option Entries
  | [], es => f es
  | key :: path, es => es.within key (atHeader f path)

/-- Puts a value under a dotted key. Every part but the last names a table, which may be new or
named by dotted keys before; a table on the way, but not the last, may also be implied or an
element. -/
def put (v : Value) : List String → Entries → Option Entries
  | [], _ => none
  | [key], es => if (es.get? key).isSome then none else some (es.set key v)
  | key :: path, es =>
    match es.get? key with
    | none => (put v path []).map fun inner => es.set key (.table .dotted inner)
    | some (.table .dotted inner) =>
      (put v path inner).map fun inner => es.set key (.table .dotted inner)
    | some (.table .implied inner) =>
      if path.length ≤ 1 then none
      else (put v path inner).map fun inner => es.set key (.table .implied inner)
    | some (.tables elements) =>
      if path.length ≤ 1 then none
      else (mapLast (put v path) elements).map fun elements => es.set key (.tables elements)
    | some _ => none

/-- A table of keys and values in their order. -/
def ofPairs (pairs : List (List String × Value)) : Option Entries :=
  pairs.foldlM (fun es p => put p.2 p.1 es) []

end Entries

end TreePath.Toml
