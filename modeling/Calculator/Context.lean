import Std.Data.TreeMap
import Calculator.Double.Notation

/-!
# Contexts

A context binds names to numbers. Names are kept in the order of their code points.
-/

namespace Calculator

structure Context where
  bindings : Std.TreeMap String Float := {}

namespace Context

def empty : Context := {}

def set (ctx : Context) (name : String) (value : Float) : Context :=
  ⟨ctx.bindings.insert name value⟩

def get? (ctx : Context) (name : String) : Option Float := ctx.bindings[name]?

def contains (ctx : Context) (name : String) : Bool := ctx.bindings.contains name

def remove (ctx : Context) (name : String) : Context := ⟨ctx.bindings.erase name⟩

def take (ctx : Context) (name : String) : Option Float × Context := (ctx.get? name, ctx.remove name)

def size (ctx : Context) : Nat := ctx.bindings.size

def isEmpty (ctx : Context) : Bool := ctx.bindings.isEmpty

def toList (ctx : Context) : List (String × Float) := ctx.bindings.toList

/-- Binds the names in turn; of two bindings of a name the later one counts. -/
def ofList (bindings : List (String × Float)) : Context :=
  bindings.foldl (fun ctx (name, value) => ctx.set name value) empty

/-- The same names with equal numbers. NaN is equal to nothing, and zero to negative zero. -/
def beq (ctx other : Context) : Bool :=
  ctx.size == other.size && ctx.toList.all fun (name, value) => (other.get? name).any (value == ·)

instance : BEq Context := ⟨beq⟩

def print (ctx : Context) : String :=
  let items := ctx.toList.map fun (name, value) => name ++ ": " ++ Double.plain value
  "\x7b" ++ ", ".intercalate items ++ "\x7d"

end Context

end Calculator
