import JobShell.Text.Basic

/-!
# Bindings

Names with values, in increasing order of the names and each name once: the
environment of a process and the table of aliases.
-/
namespace JobShell

/-- Names with their values. -/
abbrev Bindings := List (Text × Text)

namespace Bindings

/-- The value of a name. -/
def get? (name : Text) : Bindings → Option Text
  | [] => none
  | (k,v) :: r => if k = name then some v else get? name r

/-- The bindings with `name` bound to `value`. -/
def set (name value : Text) : Bindings → Bindings
  | [] => [(name,value)]
  | (k,v) :: r =>
    if k = name then (name,value) :: r
    else if Text.before name k then (name,value) :: (k,v) :: r
    else (k,v) :: set name value r

/-- The bindings without `name`. -/
def unset (name : Text) (b : Bindings) : Bindings := b.filter (fun p => p.1 != name)

/-- The names. -/
def names (b : Bindings) : List Text := b.map Prod.fst

/-- The bindings with those of a list set one after the other. -/
def setAll (b : Bindings) (l : List (Text × Text)) : Bindings := l.foldl (fun b p => b.set p.1 p.2) b

/-- The bindings of a list, a later value of a name replacing an earlier one. -/
def ofList (l : List (Text × Text)) : Bindings := setAll [] l

@[simp] theorem get?_set_self (name value : Text) (b : Bindings) :
    (b.set name value).get? name = some value := by
  induction b with
  | nil => simp [set,get?]
  | cons p r ih =>
    unfold set
    split
    · simp [get?]
    · rename_i differs
      split
      · simp [get?]
      · simp [get?,differs,ih]

theorem get?_set_of_ne {name other : Text} (h : name ≠ other) (value : Text) (b : Bindings) :
    (b.set name value).get? other = b.get? other := by
  induction b with
  | nil => simp [set,get?,h]
  | cons p r ih =>
    unfold set
    split
    · rename_i same
      simp [get?,same,h]
    · split
      · simp [get?,h]
      · simp [get?,ih]

@[simp] theorem get?_unset_self (name : Text) (b : Bindings) : (b.unset name).get? name = none := by
  induction b with
  | nil => rfl
  | cons p r ih =>
    by_cases same : p.1 = name
    · simpa [unset,same] using ih
    · simpa [unset,same,get?] using ih

end Bindings
end JobShell
