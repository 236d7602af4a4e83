import ChangeFeed.Fault
import ChangeFeed.Text.Blank

/-!
# Routing — from captured tables to Doris tables

A captured table is known by its identity, the parts of its name joined by
dots. `Routing` says where its rows and schema changes go: all to one fixed
target, or each as a map says. A target is written `database.table`.
-/

namespace ChangeFeed

/-- **The identity of a captured table**: those parts of its name that are not blank. -/
def tableIdentity (database schema table : Option Text) : Text :=
  Text.joined ['.'] (([database, schema, table].filterMap id).filter fun part => !part.isBlank)

/-- The database and the table of a target; neither may be empty. -/
def splitTarget (identifier : Text) : Except Fault (Text × Text) :=
  match identifier.splitFirst? '.' with
  | some (database, table) =>
    if database.isEmpty || table.isEmpty then .error (.invalidTarget identifier)
    else .ok (database, table)
  | none => .error (.invalidTarget identifier)

/-- A map from identities to targets, one entry for each identity. -/
abbrev TargetMap := List (Text × Text)

namespace TargetMap

/-- The target of an identity. -/
def find? (source : Text) : TargetMap → Option Text
  | [] => none
  | (key, target) :: rest => if key = source then some target else find? source rest

/-- Sets the target of an identity. -/
def put (source target : Text) : TargetMap → TargetMap
  | [] => [(source, target)]
  | (key, old) :: rest =>
    if key = source then (key, target) :: rest else (key, old) :: put source target rest

/-- Sets several targets, one after the other. -/
def putAll (entries : List (Text × Text)) (map : TargetMap) : TargetMap :=
  entries.foldl (fun map (source, target) => map.put source target) map

/-- The entries in the order of the identities. -/
def sorted (map : TargetMap) : List (Text × Text) :=
  map.mergeSort fun a b => Text.precedes a.1 b.1

/-- After setting a target it is the identity's, and no other has changed. -/
theorem find?_put (source other target : Text) (map : TargetMap) :
    (map.put source target).find? other =
      if source = other then some target else map.find? other := by
  induction map with
  | nil => simp [put, find?]
  | cons entry rest ih =>
    obtain ⟨key, old⟩ := entry
    by_cases hk : key = source
    · subst hk
      by_cases ho : key = other <;> simp [put, find?, ho]
    · by_cases ho : key = other
      · subst ho
        simp [put, find?, hk, Ne.symm hk]
      · simp [put, find?, hk, ho, ih]

end TargetMap

/-- **Where captured tables go.** -/
structure Routing where
  /-- The target of every table, if there is one and it is not blank. -/
  fixed : Option Text
  map : TargetMap
deriving Repr, DecidableEq

namespace Routing

/-- Nothing is routed. -/
def nowhere : Routing := ⟨none, []⟩

/-- A routing; a fixed target that is blank does not count. -/
def make (fixed : Option Text) (map : TargetMap) : Routing := ⟨fixed.bind Text.unlessBlank, map⟩

/-- **The target of an identity**: the fixed one, else the map's unless the identity is blank. -/
def target? (routing : Routing) (identity : Text) : Option Text :=
  match routing.fixed with
  | some target => some target
  | none => if identity.isBlank then none else routing.map.find? identity

end Routing

end ChangeFeed
