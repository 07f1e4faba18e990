import SampleThunderPlugin.SamplePluginImplementation

/-! The client library's COM-RPC link: one interface pointer, set and cleared by Operational
and tested by the wrappers. A member function is the list of the calls it makes, in order,
with the pointers they go through, null ones included. -/

/-- What the link calls; interface is BaseClass::Interface() with what it returned. -/
inductive LinkCall (R : Type) where
  | interface (returned : Option R)
  | register (p : Option R)
  | unregister (p : Option R)
  | release (p : Option R)
  | greet (p : Option R) (message result : String)
  | echo (p : Option R) (message result : String)
  deriving DecidableEq, Repr

def LinkCall.ThroughNull {R : Type} : LinkCall R → Prop
  | .interface _ => False
  | .register p | .unregister p | .release p | .greet p _ _ | .echo p _ _ => p = none

structure SamplePluginLink (R : Type) where
  samplePluginInterface : Option R
  deriving DecidableEq, Repr

namespace SamplePluginLink

variable {R : Type}

/-- The argument interface is what Interface() returns if it is called. -/
def operational (upAndRunning : Bool) (interface : Option R) (l : SamplePluginLink R) :
    List (LinkCall R) × SamplePluginLink R :=
  if upAndRunning then
    match l.samplePluginInterface with
    | none => ([.interface interface, .register interface], ⟨interface⟩)
    | some _ => ([], l)
  else
    match l.samplePluginInterface with
    | some p => ([.unregister (some p), .release (some p)], ⟨none⟩)
    | none => ([], l)

/-- Without a call the wrapper returns ERROR_UNAVAILABLE. -/
def greet (l : SamplePluginLink R) (message result : String) : Option (LinkCall R) :=
  match l.samplePluginInterface with
  | some p => some (.greet (some p) message result)
  | none => none

def echo (l : SamplePluginLink R) (message result : String) : Option (LinkCall R) :=
  match l.samplePluginInterface with
  | some p => some (.echo (some p) message result)
  | none => none

/-- ~SamplePluginLink: Close may still deliver Operational(false). What is left is only
released. -/
def destroy (closeDelivers : Bool) (l : SamplePluginLink R) :
    List (LinkCall R) × SamplePluginLink R :=
  let (calls, l) := if closeDelivers then l.operational false none else ([], l)
  match l.samplePluginInterface with
  | some p => (calls ++ [.release (some p)], ⟨none⟩)
  | none => (calls, l)

section Outcomes
variable {l : SamplePluginLink R}

theorem operational_up (h : l.samplePluginInterface = none) (interface : Option R) :
    l.operational true interface = ([.interface interface, .register interface], ⟨interface⟩) := by
  simp [operational, h]

theorem operational_down {p : R} (h : l.samplePluginInterface = some p) (interface : Option R) :
    l.operational false interface = ([.unregister (some p), .release (some p)], ⟨none⟩) := by
  simp [operational, h]

theorem operational_repeated {upAndRunning : Bool}
    (h : l.samplePluginInterface = none ↔ upAndRunning = false) (interface : Option R) :
    l.operational upAndRunning interface = ([], l) := by
  cases hp : l.samplePluginInterface with
  | none =>
    obtain rfl := h.mp hp
    simp [operational, hp]
  | some p =>
    have hup : upAndRunning = true := by
      by_contra hn
      rw [h.mpr (by simpa using hn)] at hp
      cases hp
    simp [operational, hp, hup]

theorem operational_cases (l : SamplePluginLink R) (upAndRunning : Bool) :
    (l.samplePluginInterface = none ∧ upAndRunning = true) ∨
    (∃ p, l.samplePluginInterface = some p ∧ upAndRunning = false) ∨
    (l.samplePluginInterface = none ↔ upAndRunning = false) := by
  cases l.samplePluginInterface <;> cases upAndRunning <;> simp

theorem destroy_down (h : l.samplePluginInterface = none) (closeDelivers : Bool) :
    l.destroy closeDelivers = ([], l) := by
  have hdown : l.samplePluginInterface = none ↔ false = false := by simp [h]
  cases closeDelivers <;> simp [destroy, operational_repeated hdown, h]

theorem destroy_told {p : R} (h : l.samplePluginInterface = some p) :
    l.destroy true = ([.unregister (some p), .release (some p)], ⟨none⟩) := by
  simp [destroy, operational_down h]

theorem destroy_untold {p : R} (h : l.samplePluginInterface = some p) :
    l.destroy false = ([.release (some p)], ⟨none⟩) := by
  simp [destroy, h]

end Outcomes

end SamplePluginLink
