import JobShell.System.FileSystem
import Mathlib.Tactic.SplitIfs

/-!
# Ways through a file system

A path is followed name by name. `FileSystem.Leads` has a rule for each thing
that a name can do: to stay, to go up, to go on through a link or into a
directory, and to be the last one. A walk ends well exactly where the rules lead
(`FileSystem.walk_eq_ok_iff`), so that what holds of every way is shown rule by
rule.
-/
namespace JobShell
namespace FileSystem

/-- A name that is looked up in the directory that was come to. Nothing is made by a name with a slash after it. -/
structure LookedUp (making : Bool) (name : Raw) (rest : List Raw) (slash : Bool) : Prop where
  notHere : ¬(name == ['.']) = true
  notUp : ¬(name == ['.','.']) = true
  makable : ¬(making && rest.isEmpty && slash) = true
  short : ¬name.length > 255

/-- Where names lead from a place, within a number of steps and of links. -/
inductive Leads (fs : FileSystem) (making : Bool) : Nat → Nat → Place → List Raw → Bool → Target → Prop where
  | ended {fuel links : Nat} {here : Place} {slash : Bool} {n : Node} (there : fs.node? here = some n) :
    Leads fs making (fuel+1) links here [] slash (.found here n)
  | stay {fuel links : Nat} {here : Place} {rest : List Raw} {slash : Bool} {t : Target}
    (onward : Leads fs making fuel links here rest slash t) : Leads fs making (fuel+1) links here (['.'] :: rest) slash t
  | up {fuel links : Nat} {here : Place} {rest : List Raw} {slash : Bool} {t : Target}
    (onward : Leads fs making fuel links here.dropLast rest slash t) :
    Leads fs making (fuel+1) links here (['.','.'] :: rest) slash t
  | link {fuel links : Nat} {here : Place} {name : Raw} {rest : List Raw} {slash : Bool} {target : Raw} {t : Target}
    (looked : LookedUp making name rest slash) (there : fs.node? (here ++ [name]) = some (.link target))
    (filled : ¬target.isEmpty = true)
    (onward : Leads fs making fuel links (if target.head? = some '/' then [] else here) (steps target ++ rest)
      (slash || (rest.isEmpty && endsInSlash target)) t) :
    Leads fs making (fuel+1) (links+1) here (name :: rest) slash t
  | inside {fuel links : Nat} {here : Place} {name : Raw} {rest : List Raw} {slash : Bool} {t : Target}
    (looked : LookedUp making name rest slash) (there : fs.node? (here ++ [name]) = some .directory)
    (onward : Leads fs making fuel links (here ++ [name]) rest slash t) :
    Leads fs making (fuel+1) links here (name :: rest) slash t
  | last {fuel links : Nat} {here : Place} {name : Raw} {n : Node} (looked : LookedUp making name [] false)
    (there : fs.node? (here ++ [name]) = some n) (noLink : ∀ target, n ≠ .link target) (noDirectory : n ≠ .directory) :
    Leads fs making (fuel+1) links here [name] false (.found (here ++ [name]) n)
  | free {fuel links : Nat} {here : Place} {name : Raw} {slash : Bool} (looked : LookedUp making name [] slash)
    (nothing : fs.node? (here ++ [name]) = none) :
    Leads fs making (fuel+1) links here [name] slash (.free (here ++ [name]))

section
variable {fs : FileSystem} {making : Bool} {fuel links : Nat} {here : Place} {name : Raw} {names rest : List Raw}
  {slash : Bool} {t : Target}

/-- Where nothing is made it does not matter what comes after a name. -/
theorem LookedUp.reading (looked : LookedUp making name rest slash) (rest' : List Raw) (slash' : Bool) :
    LookedUp false name rest' slash' :=
  ⟨looked.notHere,looked.notUp,Bool.false_ne_true,looked.short⟩

theorem LookedUp.slash_eq_false (looked : LookedUp true name [] slash) : slash = false := by
  simpa using looked.makable

/-- What names lead to while something may be made they lead to in any case. -/
theorem LookedUp.of_making (looked : LookedUp true name rest slash) (making : Bool) :
    LookedUp making name rest slash := by
  cases making with
  | true => exact looked
  | false => exact looked.reading rest slash

/-- A name that is looked up leads on by what stands there. -/
theorem walk_lookedUp (looked : LookedUp making name rest slash) :
    fs.walk making (fuel+1) links here (name :: rest) slash =
      match fs.node? (here ++ [name]) with
      | none => if rest.isEmpty then .ok (.free (here ++ [name])) else .error Errno.noEntry
      | some (.link target) =>
        match links with
        | 0 => .error Errno.tooManyLinks
        | l+1 =>
          if target.isEmpty then .error Errno.noEntry
          else walk fs making fuel l (if target.head? = some '/' then [] else here) (steps target ++ rest)
            (slash || (rest.isEmpty && endsInSlash target))
      | some .directory => walk fs making fuel links (here ++ [name]) rest slash
      | some n =>
        if rest.isEmpty && !slash then .ok (.found (here ++ [name]) n) else .error Errno.notDirectory := by
  rewrite [walk,if_neg looked.notHere,if_neg looked.notUp,if_neg looked.makable,if_neg looked.short]
  rfl

/-- A walk ends well exactly where the rules lead. -/
theorem walk_eq_ok_iff : fs.walk making fuel links here names slash = .ok t ↔ fs.Leads making fuel links here names slash t := by
  constructor
  · intro way
    fun_induction fs.walk making fuel links here names slash
    case case2 there =>
      cases way
      exact .ended there
    case case4 first ih =>
      obtain rfl := beq_iff_eq.mp first
      exact .stay (ih way)
    case case5 second ih =>
      obtain rfl := beq_iff_eq.mp second
      exact .up (ih way)
    case case8 notHere notUp makable short nothing last =>
      cases way
      obtain rfl := List.isEmpty_iff.mp last
      exact .free ⟨notHere,notUp,makable,short⟩ nothing
    case case12 notHere notUp makable short target there l filled ih => exact .link ⟨notHere,notUp,makable,short⟩ there filled (ih way)
    case case13 notHere notUp makable short there ih => exact .inside ⟨notHere,notUp,makable,short⟩ there (ih way)
    case case14 notHere notUp makable short n noLink noDirectory there last =>
      cases way
      obtain ⟨alone,noSlash⟩ := (Bool.and_eq_true ..).mp last
      obtain rfl := List.isEmpty_iff.mp alone
      obtain rfl := (Bool.not_eq_true' _).mp noSlash
      exact .last ⟨notHere,notUp,makable,short⟩ there noLink noDirectory
    all_goals cases way
  · intro leads
    induction leads with
    | ended there => rw [walk,there]
    | stay onward ih => rwa [walk,if_pos (by decide)]
    | up onward ih => rwa [walk,if_neg (by decide),if_pos (by decide)]
    | link looked there filled onward ih =>
      rw [walk_lookedUp looked,there]
      exact (if_neg filled).trans ih
    | inside looked there onward ih => rwa [walk_lookedUp looked,there]
    | @last fuel links here name n looked there noLink noDirectory =>
      rw [walk_lookedUp looked,there]
      cases n with
      | link target => exact absurd rfl (noLink target)
      | directory => exact absurd rfl noDirectory
      | _ => rfl
    | free looked nothing =>
      rw [walk_lookedUp looked,nothing]
      rfl

end
end FileSystem
end JobShell
