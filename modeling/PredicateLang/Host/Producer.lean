import PredicateLang.Host.Bindings
import PredicateLang.Host.Conversion

set_option autoImplicit false

namespace PredicateLang.Producer

variable {ω : Type}

def fixed (v : Value) : Producer ω := fun world => (.ok v, world)

def failing (fault : BridgeFault) : Producer ω := fun world => (.error fault, world)

def converting (host : HostValue) : Producer ω := fun world => (host.toValue, world)

def reflecting (host : HostValue) : Producer ω := fun world => (host.reflect, world)

def counting (cell : Nat) : Producer (List Int64) := fun cells =>
  let count := cells.getD cell 0
  (.ok (.int count), cells.set cell (count + 1))

end PredicateLang.Producer
