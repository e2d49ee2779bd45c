import Clausal.Filter
import Clausal.Registry.Basic

/-!
# Views

A view lets through some of the predicates of a registry. Lookups that a registry and a view share
are those of a `Scope`.
-/

namespace Clausal

/-- Some predicates of a registry, by their identifiers in order. -/
structure View where
  parent : Registry
  allowed : List String
  allowed_sublist : allowed.Sublist parent.ids

namespace View

/-- The identifiers of `parent` that are wanted. -/
def restrict (parent : Registry) (wanted : String → Bool) : View :=
  ⟨parent, parent.ids.filter wanted, List.filter_sublist⟩

/-- Fails when an identifier is not one of the registry. -/
def checkKnown (parent : Registry) : List String → Except SchemaError Unit
  | [] => .ok ()
  | id :: rest =>
    if parent.index.byId.contains id then checkKnown parent rest
    else .error (.notInParent id)

def ofIds (parent : Registry) (ids : List String) : Except SchemaError View := do
  checkKnown parent ids
  return restrict parent ids.contains

/-- The view of the predicates that meet a condition. -/
def ofFilter (parent : Registry) (filter : Filter) : View :=
  restrict parent fun id => parent.predicates.any fun s => s.id == id && filter.admits s

def full (parent : Registry) : View := restrict parent fun _ => true

def allows (v : View) (id : String) : Bool := v.allowed.contains id

def size (v : View) : Nat := v.allowed.length

/-- The predicates that are let through, as the registry lists them. -/
def predicates (v : View) : List Schema := v.parent.predicates.filter fun s => v.allows s.id

/-- The schema of an identifier that is let through. -/
def get (v : View) : Source := fun id =>
  if v.allows id then v.parent.get id else .error (.notInView id)

/-- The only predicate of a kind and name that is let through. -/
def find (v : View) (kind : Kind) (name : String) : Except SchemaError Schema :=
  Schema.theOne kind name ((v.parent.index.named ⟨kind, name⟩).filter fun s => v.allows s.id)

/-- The relation of a name between two entity schemas, when the one of the registry is let
through. -/
def relation (v : View) (name sub obj : String) : Except SchemaError Schema :=
  match (v.parent.index.relation? ⟨name, sub, obj⟩).filter fun s => v.allows s.id with
  | some s => .ok s
  | none => .error (.unknownRelationTriple name sub obj)

def names (v : View) : List String := Schema.namesOf v.predicates

end View

/-- What schemas are looked up in. -/
inductive Scope
  | registry (r : Registry)
  | view (v : View)

namespace Scope

def predicates : Scope → List Schema
  | .registry r => r.predicates
  | .view v => v.predicates

def get : Scope → Source
  | .registry r => r.get
  | .view v => v.get

def find : Scope → Kind → String → Except SchemaError Schema
  | .registry r => r.find
  | .view v => v.find

def relation : Scope → String → String → String → Except SchemaError Schema
  | .registry r => r.relation
  | .view v => v.relation

end Scope

end Clausal
