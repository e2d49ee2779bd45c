import Clausal.Proofs.Number.UnitInterval
import Clausal.Validation.Basic

/-!
# What is wrong with a rule

Which conditions and literals of a rule are at fault for a view and a library, said without regard
to how and in which order faults are looked for. A literal is at fault when anything in it is, at
any depth. No reference may stand below a negation, however many operators lie between the two, so
`Expr.Within` says of every expression in an expression whether it stands there.
-/

namespace Clausal

namespace Expr

/-- `Within b e u x`: the expression `x` stands in `e`; `b` says whether `e` stands below a
negation, and `u` whether `x` does. -/
inductive Within : Bool → Expr → Bool → Expr → Prop
  | self {b e} : Within b e b e
  | arg {b op args a u x} (mem : a ∈ args) (h : Within b a u x) : Within b (.call op args) u x
  | lhs {b lhs rhs u x} (h : Within b lhs u x) : Within b (.unify lhs rhs) u x
  | rhs {b lhs rhs u x} (h : Within b rhs u x) : Within b (.unify lhs rhs) u x
  | condition {b c y n u x} (h : Within b c u x) : Within b (.choice c y n) u x
  | yes {b c y n u x} (h : Within b y u x) : Within b (.choice c y n) u x
  | no {b c y n u x} (h : Within b n u x) : Within b (.choice c y n) u x
  | not {b e u x} (h : Within true e u x) : Within b (.not e) u x

end Expr

/-- A predicate that a reference can be to: one of a registry, or one that a library declares. -/
inductive Referent
  | schema (s : Schema)
  | spec (s : LibrarySpec)

namespace Referent

def arity : Referent → Nat
  | .schema s => s.arity
  | .spec s => s.arity

/-- The datatype that the argument at a position has to be of, if it has to be of any. -/
def datatype? : Referent → Nat → Option String
  | .schema s, i => s.signature.args[i]?.map (·.datatype)
  | .spec s, i => s.signature.bind (·[i]?)

end Referent

namespace Validator

variable (v : Validator) (headId : String)

/-- What an identifier refers to: the schema that the view lets through, and only without one the
spec of the library. -/
inductive RefersTo (id : String) : Referent → Prop
  | schema {s} (visible : v.view.allows id = true) (found : v.view.parent.get id = .ok s) :
    RefersTo id (.schema s)
  | spec {l s} (hidden : v.view.allows id = false) (library : v.library = some l)
    (found : l.predicate? id = some s) : RefersTo id (.spec s)

/-- What is wrong with a reference in a rule whose head has the given identifier. -/
inductive RefFault (r : Ref) : Prop
  | recursive (h : r.schemaId = headId)
  | outOfScope (hidden : v.view.allows r.schemaId = false)
    (undeclared : ∀ l, v.library = some l → ∀ s ∈ l.specs.values, s.schemaId? ≠ some r.schemaId)
  | arity {t} (h : v.RefersTo r.schemaId t) (ne : r.terms.length ≠ t.arity)
  | unnamed {x} (mem : .var x ∈ r.terms) (empty : Text.trim x.name = "")
  | datatype {t i c noted wanted} (h : v.RefersTo r.schemaId t)
    (const : r.terms[i]? = some (.const c)) (slot : t.datatype? i = some wanted)
    (note : c.datatype = some noted) (ne : Datatype.normalize noted ≠ Datatype.normalize wanted)
  | value {t i c wanted} (h : v.RefersTo r.schemaId t) (const : r.terms[i]? = some (.const c))
    (slot : t.datatype? i = some wanted) (misfit : c.value.fits wanted = false)

/-- What is wrong with an expression itself; the first argument says whether it stands below a
negation. -/
inductive NodeFault : Bool → Expr → Prop
  | unnamed {b x} (empty : Text.trim x.name = "") : NodeFault b (.var x)
  | disallowed {b op args} (h : Text.lower (Text.trim op) ∈ disallowedOps) :
    NodeFault b (.call op args)
  | negated {b r} (h : r.negated = true) : NodeFault b (.ref r)
  | belowNot {r} : NodeFault true (.ref r)
  | ref {b r} (h : v.RefFault headId r) : NodeFault b (.ref r)

/-- Something in an expression is at fault. -/
def ExprFault (b : Bool) (e : Expr) : Prop := ∃ u x, e.Within b u x ∧ v.NodeFault headId u x

/-- Something in a literal is at fault. -/
def LiteralFault : Literal → Prop
  | .ref r => v.RefFault headId r
  | .expr e => v.ExprFault headId false e

end Validator

/-! ### Where faults are -/

/-- A condition of a rule, or a literal of it, by its index. -/
structure Site where
  condition : Nat
  literal : Option Nat
deriving DecidableEq

namespace Site

/-- A condition itself comes before its literals. -/
def rank (s : Site) : Nat := s.literal.elim 0 (· + 1)

/-- The order of sites in a rule. -/
def Before (s t : Site) : Prop :=
  s.condition < t.condition ∨ s.condition = t.condition ∧ s.rank < t.rank

theorem not_before_self (s : Site) : ¬ s.Before s := by
  unfold Before
  omega

end Site

def Place.site (p : Place) : Site := ⟨p.condition, some p.literal⟩

namespace ValidationError

/-- The site that an error names. -/
def site : ValidationError → Site
  | outOfScope p _ | directRecursion p | arityMismatch p .. | typeMismatch p .. | emptyVariable p
  | nestedNegatedRef p | notAroundRef p | disallowedConstruct p _ => p.site
  | probabilityOutOfRange _ condition _ => ⟨condition, none⟩

/-- The rule that an error names. -/
def rule : ValidationError → String
  | outOfScope p _ | directRecursion p | arityMismatch p .. | typeMismatch p .. | emptyVariable p
  | nestedNegatedRef p | notAroundRef p | disallowedConstruct p _ => p.rule
  | probabilityOutOfRange rule _ _ => rule

end ValidationError

/-- The sites of a rule that are at fault: conditions with a number that is no probability, and
literals with a fault in them. -/
inductive Validator.FaultyAt (v : Validator) (r : Rule) : Site → Prop
  | probability {i c p} (hc : r.conditions[i]? = some c) (hp : c.prob = some p)
    (out : ¬ p.IsProbability) : FaultyAt v r ⟨i, none⟩
  | literal {i j c l} (hc : r.conditions[i]? = some c) (hl : c.literals[j]? = some l)
    (fault : v.LiteralFault r.head.id l) : FaultyAt v r ⟨i, some j⟩

end Clausal
