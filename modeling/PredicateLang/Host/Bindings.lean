import PredicateLang.Host.Fault
import PredicateLang.Text.Quoted
import PredicateLang.Value.Basic

set_option autoImplicit false

namespace PredicateLang

abbrev Producer (ω : Type) := ω → Except BridgeFault Value × ω

structure Bindings (ω : Type) where
  -- Producers in ascending order of their names.
  entries : List (String × Producer ω)

namespace Bindings

variable {ω : Type}

def empty : Bindings ω := ⟨[]⟩

def register (b : Bindings ω) (name : String) (producer : Producer ω) : Bindings ω :=
  -- A name that is already there gets the new producer.
  ⟨Fields.insert name producer b.entries⟩

def find? (b : Bindings ω) (name : String) : Option (Producer ω) := Fields.get? name b.entries

def resolve (b : Bindings ω) (name : String) (world : ω) :
    Option (Except BridgeFault Value × ω) :=
  (b.find? name).map fun producer => producer world

def size (b : Bindings ω) : Nat := b.entries.length

def isEmpty (b : Bindings ω) : Bool := b.entries.isEmpty

def names (b : Bindings ω) : List String := b.entries.map Prod.fst

def display (b : Bindings ω) : String :=
  "\x7b" ++ ", ".intercalate (b.names.map Quoted.ofString) ++ "\x7d"

@[simp] theorem find?_register_self (b : Bindings ω) (name : String) (producer : Producer ω) :
    (b.register name producer).find? name = some producer :=
  Fields.get?_insert_self name producer b.entries

theorem find?_register_of_ne {name key : String} (differs : key ≠ name) (b : Bindings ω)
    (producer : Producer ω) : (b.register name producer).find? key = b.find? key :=
  Fields.get?_insert_of_ne differs producer b.entries

end Bindings

end PredicateLang
