/-!
# TOML documents

The values of a TOML document. A table remembers how it came about, because that decides who may
still add to it: a table written out in braces is closed, one opened by a header may not be opened
again, and one that exists only as part of a longer header or key may still be opened or extended.
-/

namespace LikelyInvariants

/-- How a table came about. -/
inductive TableKind where
  /-- As part of a longer header. -/
  | implied
  /-- As part of a dotted key. -/
  | dotted
  /-- By its own header. -/
  | headed
  /-- Written out in braces. -/
  | closed
deriving DecidableEq

/-- A value of a TOML document. Numbers with a fraction or an exponent and dates are recognised,
but nothing in a configuration depends on which they are. -/
inductive Toml where
  | string (s : String)
  | integer (n : Int)
  /-- A number with a fraction or an exponent, which may be too large for a float. -/
  | float (tooLarge : Bool)
  | boolean (b : Bool)
  | datetime
  | array (items : List Toml)
  | table (kind : TableKind) (entries : List (String × Toml))
  /-- Tables opened one after the other by a header in double brackets. -/
  | tables (earlier : List (List (String × Toml))) (last : List (String × Toml))

namespace Toml

/-- The entries of a table, in the order of the document. -/
abbrev Entries := List (String × Toml)

/-- The entries with the value of a key replaced. -/
def replace (es : Entries) (key : String) (v : Toml) : Entries :=
  es.map fun (k, w) => if k = key then (k, v) else (k, w)

/-- Changes the table at a path, creating the tables on the way that do not exist. On the way of a
dotted key no table with a header of its own may lie, and no path leads into a closed table or
through a value that is no table. -/
def updateAt? (dotted : Bool) (change : TableKind → Entries → Option (TableKind × Entries)) :
    List String → TableKind → Entries → Option (TableKind × Entries)
  | [], kind, es => change kind es
  | key :: path, kind, es =>
    match es.lookup key with
    | none =>
      (updateAt? dotted change path (if dotted then .dotted else .implied) []).map
        fun (k, sub) => (kind, es ++ [(key, .table k sub)])
    | some (.table k sub) =>
      if k = .closed || (dotted && k = .headed) then none
      else (updateAt? dotted change path k sub).map
        fun (k, sub) => (kind, replace es key (.table k sub))
    | some (.tables earlier last) =>
      (updateAt? dotted change path .headed last).map
        fun (_, last) => (kind, replace es key (.tables earlier last))
    | some _ => none

/-- Adds a value under a dotted key, below the table of some kind with some entries. -/
def insert? (path : List String) (key : String) (v : Toml) :
    TableKind → Entries → Option (TableKind × Entries) :=
  updateAt? true (fun kind es =>
    if (es.lookup key).isSome || (!path.isEmpty && kind ≠ .dotted) then none
    else some (kind, es ++ [(key, v)])) path

/-- Opens the table of a header in single brackets. -/
def openTable? (path : List String) (key : String) :
    TableKind → Entries → Option (TableKind × Entries) :=
  updateAt? false (fun kind es =>
    match es.lookup key with
    | none => some (kind, es ++ [(key, .table .headed [])])
    | some (.table .implied sub) => some (kind, replace es key (.table .headed sub))
    | some _ => none) path

/-- Opens one more table of a header in double brackets. -/
def openNextTable? (path : List String) (key : String) :
    TableKind → Entries → Option (TableKind × Entries) :=
  updateAt? false (fun kind es =>
    match es.lookup key with
    | none => some (kind, es ++ [(key, .tables [] [])])
    | some (.tables earlier last) =>
      some (kind, replace es key (.tables (earlier ++ [last]) []))
    | some _ => none) path

/-- Whether an integer is within reach of the widest integers, of 128 bits. -/
def isReadable (n : Int) : Bool := -(1 <<< 127) ≤ n && n < 1 <<< 128

mutual

/-- Whether all numbers in a value can be represented. -/
def isRepresentable : Toml → Bool
  | string _ => true
  | integer n => isReadable n
  | float tooLarge => !tooLarge
  | boolean _ => true
  | datetime => true
  | array items => areRepresentable items
  | table _ es => areEntriesRepresentable es
  | tables earlier last =>
    areTablesRepresentable earlier && areEntriesRepresentable last

def areRepresentable : List Toml → Bool
  | [] => true
  | v :: vs => v.isRepresentable && areRepresentable vs

def areEntriesRepresentable : List (String × Toml) → Bool
  | [] => true
  | (_, v) :: es => v.isRepresentable && areEntriesRepresentable es

def areTablesRepresentable : List (List (String × Toml)) → Bool
  | [] => true
  | es :: rest => areEntriesRepresentable es && areTablesRepresentable rest

end

end Toml

end LikelyInvariants
