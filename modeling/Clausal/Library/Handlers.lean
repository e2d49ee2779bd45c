import Clausal.Library.Basic
import Clausal.Text.Quoted

/-!
# Handlers

A handler writes a predicate or operator of a library in one dialect, from its written arguments.
-/

namespace Clausal

/-- How an application is written, from its written arguments. -/
abbrev Handler := List String → String

/-- Handlers by spec and dialect, one for each. -/
structure Handlers where
  entries : List ((SpecKey × String) × Handler)
  keys_nodup : (entries.map (·.1)).Nodup

namespace Handlers

def empty : Handlers := ⟨[], .nil⟩

def get? (h : Handlers) (key : SpecKey) (dialect : String) : Option Handler :=
  h.entries.lookup (key, dialect)

theorem nodup_insert (h : Handlers) {key : SpecKey} {dialect : String} {handler : Handler}
    (free : h.get? key dialect = none) :
    ((h.entries ++ [((key, dialect), handler)]).map (·.1)).Nodup := by
  rw [List.map_append, List.nodup_append]
  refine ⟨h.keys_nodup, by simp, fun a ha b hb eq => ?_⟩
  obtain ⟨e, he, rfl⟩ := List.mem_map.1 ha
  have := List.lookup_eq_none_iff.1 free e he
  simp_all

/-- The handlers with one more, which is for a spec of the library. -/
def insert (h : Handlers) (l : Library) (key : SpecKey) (dialect : String) (handler : Handler) :
    Except LibraryError Handlers :=
  if (l.get? key).isNone then .error (.missingSpec key)
  else match free : h.get? key dialect with
    | some _ => .error (.duplicateHandler key dialect)
    | none => .ok ⟨h.entries ++ [((key, dialect), handler)], nodup_insert h free⟩

def size (h : Handlers) : Nat := h.entries.length

/-- The name under which handlers are listed. -/
def title (key : SpecKey) (dialect : String) : String :=
  s!"{key.name}/{Text.decimal key.arity} ({key.kind.text}) @ {dialect}"

def titles (h : Handlers) : List String :=
  (h.entries.map fun e => title e.1.1 e.1.2).mergeSort fun a b => (compare a b).isLE

/-- The handlers as they are listed in messages. -/
def describe (h : Handlers) : String :=
  "LibraryRuntime \x7b handlers: " ++ Text.quoteList h.titles ++ " \x7d"

end Handlers

end Clausal
