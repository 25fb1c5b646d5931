import SearchCriteria.Toml.Moment
import SearchCriteria.Toml.Number

/-!
# Tables

A document is a tree of tables. How a table came to be decides what may still be
added to it: no key is given twice, and no table is described in two places.
-/

namespace SearchCriteria.Toml

/-- How a table came to be. -/
inductive Origin where
  /-- A header names it. -/
  | header
  /-- A header names a table inside it. -/
  | implied
  /-- A dotted key leads through it. -/
  | dotted
  /-- It is written in braces, as a value. -/
  | braces
  deriving DecidableEq

/-- What a key may stand for. -/
inductive Node where
  | string (text : String)
  | integer (number : Int)
  | decimal (number : Decimal)
  | boolean (value : Bool)
  | moment (value : Moment)
  | array (items : List Node)
  | table (origin : Origin) (entries : List (String × Node))
  /-- Tables that headers in double brackets begin, with the latest one apart. -/
  | tables (earlier : List (List (String × Node))) (latest : List (String × Node))

/-- The keys of a table and what they stand for. -/
abbrev Entries := List (String × Node)

namespace Entries

/-- What the key stands for. -/
def find? (entries : Entries) (key : String) : Option Node := entries.lookup key

/-- Lets the key stand for the node. -/
def put (key : String) (node : Node) : Entries → Entries
  | [] => [(key, node)]
  | (other, old) :: rest =>
    if other = key then (key, node) :: rest else (other, old) :: put key node rest

/-- Gives a key its value, behind the path that a dotted key leads through. A dotted
key makes tables or goes on in those that dotted keys have made. Through other tables
without a header of their own and through the latest of an array it may lead, but
not end there, which `mayEnd` tells. -/
def assign (key : String) (value : Node) (mayEnd : Bool) : List String → Entries → Option Entries
  | [], entries =>
    if mayEnd ∧ (entries.find? key).isNone then some (entries ++ [(key, value)]) else none
  | step :: path, entries =>
    match entries.find? step with
    | none => (assign key value true path []).map fun inner =>
      entries ++ [(step, .table .dotted inner)]
    | some (.table .dotted inner) => (assign key value true path inner).map fun inner =>
      entries.put step (.table .dotted inner)
    | some (.table .implied inner) => (assign key value false path inner).map fun inner =>
      entries.put step (.table .implied inner)
    | some (.tables earlier latest) => (assign key value false path latest).map fun latest =>
      entries.put step (.tables earlier latest)
    | some _ => none

/-- Changes the table at the end of a path of headers. Missing tables are implied, and
an array of tables leads to its latest one. -/
def descend (change : Entries → Option Entries) : List String → Entries → Option Entries
  | [], entries => change entries
  | step :: path, entries =>
    match entries.find? step with
    | none => (descend change path []).map fun inner =>
      entries ++ [(step, .table .implied inner)]
    | some (.table origin inner) =>
      if origin = .braces then none
      else (descend change path inner).map fun inner => entries.put step (.table origin inner)
    | some (.tables earlier latest) => (descend change path latest).map fun latest =>
      entries.put step (.tables earlier latest)
    | some _ => none

/-- Begins a table with a header. Only a table that is implied so far may be begun. -/
def beginTable (key : String) (entries : Entries) : Option Entries :=
  match entries.find? key with
  | none => some (entries ++ [(key, .table .header [])])
  | some (.table .implied inner) => some (entries.put key (.table .header inner))
  | some _ => none

/-- Begins the next table of an array with a header in double brackets. -/
def beginElement (key : String) (entries : Entries) : Option Entries :=
  match entries.find? key with
  | none => some (entries ++ [(key, .tables [] [])])
  | some (.tables earlier latest) => some (entries.put key (.tables (earlier ++ [latest]) []))
  | some _ => none

end Entries

end SearchCriteria.Toml
