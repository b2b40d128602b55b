import Redaction.Method.Builtin
import Redaction.Text.LowerCase
import Redaction.Text.Quoted
import Std.Data.TreeMap

/-!
# The registry of methods

Methods by name. A name stands for its lowercase text, so that the case of names does not matter,
and the names are kept in order.
-/

namespace Redaction

open Redaction.Text

/-- The methods that instructions may name, by lowercase name. -/
structure Registry (σ : Type) where
  methods : Std.TreeMap String (Factory σ)

namespace Registry

variable {σ : Type}

def empty : Registry σ := ⟨∅⟩

/-- The registry with a method under a name, in place of the one that was there. -/
def register (r : Registry σ) (name : String) (factory : Factory σ) : Registry σ :=
  ⟨r.methods.insert (lower name) factory⟩

def disable (r : Registry σ) (name : String) : Registry σ := ⟨r.methods.erase (lower name)⟩

/-- The registry without a method, and whether the method was there. -/
def withdraw (r : Registry σ) (name : String) : Bool × Registry σ :=
  (r.methods.contains (lower name), r.disable name)

def find? (r : Registry σ) (name : String) : Option (Factory σ) := r.methods[lower name]?

def contains (r : Registry σ) (name : String) : Bool := (r.find? name).isSome

def names (r : Registry σ) : List String := r.methods.keys

def size (r : Registry σ) : Nat := r.methods.size

def isEmpty (r : Registry σ) : Bool := r.methods.isEmpty

def builtin : Registry σ :=
  (((empty.register "zero" Method.zero).register "star" Method.star).register
    "remove" Method.remove).register "redact" Method.redact

@[simp] theorem find?_empty (name : String) : (empty : Registry σ).find? name = none := by
  simp [find?, empty]

theorem find?_register (r : Registry σ) (name : String) (factory : Factory σ) (n : String) :
    (r.register name factory).find? n = if lower name = lower n then some factory else r.find? n := by
  simp only [find?, register, Std.TreeMap.getElem?_insert, Std.LawfulEqCmp.compare_eq_iff_eq]

theorem find?_disable (r : Registry σ) (name n : String) :
    (r.disable name).find? n = if lower name = lower n then none else r.find? n := by
  simp only [find?, disable, Std.TreeMap.getElem?_erase, Std.LawfulEqCmp.compare_eq_iff_eq]

def describe (r : Registry σ) : String :=
  "MethodRegistry \x7b methods: [" ++ ", ".intercalate (r.names.map quoted) ++ "] \x7d"

end Registry

end Redaction
