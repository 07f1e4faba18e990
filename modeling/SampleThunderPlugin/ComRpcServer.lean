import Mathlib.Data.Nat.Notation

/-! The plugin's private COM-RPC server: the two pointers it is constructed with, whether
Open succeeded, and what Acquire hands to a client that asks for an interface.
The socket and its threads are Thunder's. -/

/-- The interface ids a client can name; Thunder keeps them distinct. -/
inductive InterfaceId where
  | samplePlugin
  | shell
  | other (id : ℕ)
  deriving DecidableEq, Repr

inductive Reference (S I : Type) where
  | samplePlugin (samplePlugin : I)
  | shell (shell : S)
  deriving DecidableEq, Repr

structure ComRpcServer (S I : Type) where
  samplePlugin : Option I
  shell : Option S
  /-- Open returned ERROR_NONE. -/
  listening : Bool
  deriving DecidableEq, Repr

namespace ComRpcServer

variable {S I : Type}

/-- Until Open has returned the server does not listen. -/
def construct (parentInterface : I) (shell : S) : ComRpcServer S I :=
  ⟨some parentInterface, some shell, false⟩

def isListening (s : ComRpcServer S I) : Bool := s.listening

def queryInterface (grants : Reference S I → Bool) (r : Reference S I) :
    Option (Reference S I) :=
  if grants r then some r else none

def acquire (grants : Reference S I → Bool) (s : ComRpcServer S I)
    (interfaceId : InterfaceId) (versionId : UInt32) : Option (Reference S I) :=
  if versionId = 1 ∨ versionId = ~~~0 then
    match interfaceId, s.samplePlugin, s.shell with
    | .samplePlugin, some samplePlugin, _ => queryInterface grants (.samplePlugin samplePlugin)
    | .shell, _, some shell => queryInterface grants (.shell shell)
    | _, _, _ => none
  else none

/-- Acquire answers null, or hands out a reference on one of its two pointers, each under
its own id. -/
theorem acquire_cases (grants : Reference S I → Bool) (s : ComRpcServer S I)
    (interfaceId : InterfaceId) (versionId : UInt32) :
    s.acquire grants interfaceId versionId = none ∨
    (interfaceId = .samplePlugin ∧ ∃ samplePlugin, s.samplePlugin = some samplePlugin ∧
      s.acquire grants interfaceId versionId = some (.samplePlugin samplePlugin)) ∨
    (interfaceId = .shell ∧ ∃ shell, s.shell = some shell ∧
      s.acquire grants interfaceId versionId = some (.shell shell)) := by
  unfold acquire
  split
  · split
    · next hs =>
      unfold queryInterface
      split
      · exact Or.inr (Or.inl ⟨rfl, _, hs, rfl⟩)
      · exact Or.inl rfl
    · next hs =>
      unfold queryInterface
      split
      · exact Or.inr (Or.inr ⟨rfl, _, hs, rfl⟩)
      · exact Or.inl rfl
    · exact Or.inl rfl
  · exact Or.inl rfl

end ComRpcServer
