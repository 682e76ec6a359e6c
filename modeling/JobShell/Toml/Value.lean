import JobShell.Toml.Scalar

/-!
# Values of the TOML format

A value is a scalar, an array or a table. Tables are filled in step by step, and
each remembers how it came to be, since that decides how it may be filled in
further.
-/
namespace JobShell

/-- How a table came to be. -/
structure TableOrigin where
  /-- It is there only because something in it was named. -/
  implied : Bool
  /-- It was named by a key with points. -/
  dotted : Bool
  deriving DecidableEq, Repr

/-- A value. -/
inductive TomlValue where
  | text (t : Text)
  | integer (n : Int)
  /-- A number that is not an integer. -/
  | float
  | flag (b : Bool)
  /-- A date, a time or both. -/
  | moment (t : Text)
  | array (l : List TomlValue)
  | inlineTable (origin : TableOrigin) (fields : List (Text × TomlValue))
  | table (origin : TableOrigin) (fields : List (Text × TomlValue))
  /-- Tables that were given one by one, under the same name. -/
  | tables (l : List TomlValue)

namespace TomlValue

/-- An empty table. -/
def emptyTable : TomlValue := .table ⟨false,false⟩ []

/-- An empty table within braces. -/
def emptyInlineTable : TomlValue := .inlineTable ⟨false,false⟩ []

/-- The field of a name. -/
def field? (name : Text) (fields : List (Text × TomlValue)) : Option TomlValue :=
  (fields.find? (·.1 == name)).map Prod.snd

/-- Fields with a field replaced, or added at the end. -/
def setField (name : Text) (v : TomlValue) (fields : List (Text × TomlValue)) : List (Text × TomlValue) :=
  if fields.any (·.1 == name) then fields.map (fun p => if p.1 == name then (name,v) else p)
  else fields ++ [(name,v)]

/-- Changes the table that a path leads to. Tables that are missing on the way come to be; a key with
    points (`dotted`) leads through no table that was given a place of its own, and the last of tables that
    were given one by one stands for all of them. -/
def within (dotted : Bool) (f : TomlValue → Option TomlValue) : List Text → TomlValue → Option TomlValue
  | [], v => f v
  | name :: path, .table origin fields =>
    match field? name fields with
    | none => (within dotted f path (.table ⟨true,dotted⟩ [])).map fun v => .table origin (setField name v fields)
    | some (.table o inner) =>
      if dotted && !o.implied then none
      else (within dotted f path (.table o inner)).map fun v => .table origin (setField name v fields)
    | some (.tables l) =>
      match l.getLast? with
      | none => none
      | some last => (within dotted f path last).map fun v =>
          .table origin (setField name (.tables (l.dropLast ++ [v])) fields)
    | some _ => none
  | name :: path, .inlineTable origin fields =>
    match field? name fields with
    | none => (within dotted f path (.inlineTable ⟨true,true⟩ [])).map fun v =>
        .inlineTable origin (setField name v fields)
    | some (.inlineTable o inner) =>
      if !o.implied then none
      else (within dotted f path (.inlineTable o inner)).map fun v => .inlineTable origin (setField name v fields)
    | some _ => none
  | _ :: _, _ => none

/-- Adds a field to a table; none when there is one of that name, or when a key with points ends in a
    table that did not come to be by such keys. -/
def insertField (dotted : Bool) (name : Text) (v : TomlValue) : TomlValue → Option TomlValue
  | .table origin fields =>
    if origin.dotted != dotted || (field? name fields).isSome then none
    else some (.table origin (setField name v fields))
  | .inlineTable origin fields =>
    if origin.dotted != dotted || (field? name fields).isSome then none
    else some (.inlineTable origin (setField name v fields))
  | _ => none

/-- Adds a field below the table at a place. -/
def insert (place path : List Text) (name : Text) (v root : TomlValue) : Option TomlValue :=
  within false (within true (insertField (!path.isEmpty) name v) path) place root

/-- Gives a table a place of its own. -/
def openTable (path : List Text) (name : Text) (root : TomlValue) : Option TomlValue :=
  within false (fun
    | .table origin fields =>
      match field? name fields with
      | none => some (.table origin (setField name emptyTable fields))
      | some (.table o inner) =>
        if o.implied && !o.dotted then some (.table origin (setField name (.table ⟨false,false⟩ inner) fields))
        else none
      | some _ => none
    | _ => none) path root

/-- Adds one of several tables of a name. -/
def addTable (path : List Text) (name : Text) (root : TomlValue) : Option TomlValue :=
  within false (fun
    | .table origin fields =>
      match field? name fields with
      | none => some (.table origin (setField name (.tables [emptyTable]) fields))
      | some (.tables l) => some (.table origin (setField name (.tables (l ++ [emptyTable])) fields))
      | some _ => none
    | _ => none) path root

/-- The name of the field that a date or a time has when it is taken for a table. -/
def momentField : Text := txt "$__toml_private_datetime"

/-- The fields of a table. -/
def fields? : TomlValue → Option (List (Text × TomlValue))
  | .table _ fields | .inlineTable _ fields => some fields
  | .moment t => some [(momentField,.text t)]
  | _ => none

/-- The elements of an array. -/
def elements? : TomlValue → Option (List TomlValue)
  | .array l | .tables l => some l
  | _ => none

end TomlValue
end JobShell
