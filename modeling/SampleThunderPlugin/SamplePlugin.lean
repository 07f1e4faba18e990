import Mathlib.Logic.Function.Basic
import SampleThunderPlugin.ComRpcServer
import SampleThunderPlugin.SamplePluginImplementation

/-! The plugin inside the Thunder daemon: Initialize and Deinitialize, with everything they
take and give back. Pointers are numbers or names; what a call answers (Root, ConfigLine,
Open) is a parameter. Here each call runs to its end undisturbed. -/

inductive Callback (N : Type) where
  | notification
  | client (n : N)
  deriving DecidableEq, Repr

/-- What the calls made by one Initialize answer. -/
structure Answers (I : Type) where
  root : Option I
  /-- The id that Root writes through its reference parameter, if it writes one. -/
  connectionId : Option ℕ
  configLine : String
  /-- Whether the private server's Open succeeds. -/
  listens : Bool
  deriving DecidableEq, Repr

structure SamplePlugin (S I : Type) where
  connectionId : ℕ
  service : Option S
  samplePlugin : Option I
  rpcEngine : Option ℕ
  rpcServer : Option ℕ
  deriving DecidableEq, Repr

namespace SamplePlugin

structure Host (S I N : Type) where
  plugin : SamplePlugin S I
  /-- How often _notification is registered with each shell. -/
  sinks : S → ℕ
  implementations : I → SamplePluginImplementation (Callback N)
  /-- References on implementations: taken from Root, given back by Release. -/
  held : ReferenceLedger I
  /-- The implementations that the JSON-RPC handlers registered on the plugin point to. -/
  jsonHandlers : List I
  servers : ℕ → Option (ComRpcServer S I)
  /-- The server whose handler each engine was last given. -/
  announcements : ℕ → Option ℕ
  /-- Engines and servers created so far, the next one's number. -/
  created : ℕ

variable {S I N : Type}

def Host.fresh : Host S I N where
  plugin := ⟨0, none, none, none, none⟩
  sinks := fun _ => 0
  implementations := fun _ => .initial
  held := .empty
  jsonHandlers := []
  servers := fun _ => none
  announcements := fun _ => none
  created := 0

/-- The entry ASSERTs of Initialize. -/
def MayInitialize (h : Host S I N) : Prop :=
  h.plugin.service = none ∧ h.plugin.samplePlugin = none

/-- The entry ASSERTs of Deinitialize. -/
def MayDeinitialize (service : S) (h : Host S I N) : Prop :=
  h.plugin.service = some service ∧ h.plugin.samplePlugin ≠ none

namespace Host

def setService (h : Host S I N) (service : Option S) : Host S I N :=
  { h with plugin.service := service }

def assignServer (h : Host S I N) (server : Option ℕ) : Host S I N :=
  { h with plugin.rpcServer := server }

def createEngine (h : Host S I N) : Host S I N :=
  { h with plugin.rpcEngine := some h.created, created := h.created + 1 }

def releaseEngine (h : Host S I N) : Host S I N := { h with plugin.rpcEngine := none }

/-- The object exists from here on; its number is the one before the call. -/
def constructServer (h : Host S I N) (samplePlugin : I) (service : S) : Host S I N :=
  { h with
    servers := Function.update h.servers h.created (some (.construct samplePlugin service))
    created := h.created + 1 }

def openServer (h : Host S I N) (server : ℕ) (listens : Bool) : Host S I N :=
  { h with
    servers := Function.update h.servers server
      ((h.servers server).map fun v => { v with listening := listens }) }

def announce (h : Host S I N) (server : ℕ) : Host S I N :=
  match h.plugin.rpcEngine with
  | some engine => { h with announcements := Function.update h.announcements engine (some server) }
  | none => h

def server (h : Host S I N) : Option (ComRpcServer S I) := h.plugin.rpcServer.bind h.servers

def isListening (h : Host S I N) : Bool := h.server.any ComRpcServer.isListening

/-- The destructor's Close is over when the object is gone. -/
def deleteServer (h : Host S I N) : Host S I N :=
  match h.plugin.rpcServer with
  | some server => { h with servers := Function.update h.servers server none }
  | none => h

def registerJson (h : Host S I N) (samplePlugin : I) : Host S I N :=
  { h with jsonHandlers := h.jsonHandlers ++ [samplePlugin] }

section Shell
variable [DecidableEq S]

def registerSink (h : Host S I N) (service : S) : Host S I N :=
  { h with sinks := Function.update h.sinks service (h.sinks service + 1) }

def unregisterSink (h : Host S I N) (service : S) : Host S I N :=
  { h with sinks := Function.update h.sinks service (h.sinks service - 1) }

end Shell

section Implementation
variable [DecidableEq I]

/-- Root writes the connection id before its result is assigned, whatever the result is. -/
def root (h : Host S I N) (a : Answers I) : Host S I N :=
  { h with
    plugin.connectionId := a.connectionId.getD h.plugin.connectionId
    plugin.samplePlugin := a.root
    held := match a.root with
      | some samplePlugin => h.held.addRef samplePlugin
      | none => h.held }

def release (h : Host S I N) (samplePlugin : I) : Host S I N :=
  { h with held := h.held.release samplePlugin }

def modify (h : Host S I N) (samplePlugin : I) (p : SamplePluginImplementation (Callback N)) :
    Host S I N :=
  { h with implementations := Function.update h.implementations samplePlugin p }

def configure (fromString : SamplePluginConfiguration → String → SamplePluginConfiguration)
    (h : Host S I N) (samplePlugin : I) (line : String) : Host S I N :=
  h.modify samplePlugin ((h.implementations samplePlugin).configure fromString line)

variable [DecidableEq N]

def registerNotification (h : Host S I N) (samplePlugin : I) : Host S I N :=
  h.modify samplePlugin ((h.implementations samplePlugin).register .notification)

def unregisterNotification (h : Host S I N) (samplePlugin : I) : Host S I N :=
  h.modify samplePlugin ((h.implementations samplePlugin).unregister .notification)

end Implementation

end Host

section Calls
variable [DecidableEq S] [DecidableEq I] [DecidableEq N]

/-- new ComRpcServer(...): the members, Open, Announcements, and the assignment. -/
def newComRpcServer (h : Host S I N) (samplePlugin : I) (service : S) (listens : Bool) :
    Host S I N :=
  ((((h.constructServer samplePlugin service).openServer h.created listens).announce
    h.created).assignServer (some h.created))

/-- The string it returns and the state it leaves; the empty string stands for success. -/
def initializePlugin (fromString : SamplePluginConfiguration → String → SamplePluginConfiguration)
    (service : S) (a : Answers I) (h : Host S I N) : String × Host S I N :=
  let h := ((h.setService (some service)).registerSink service).root a
  match h.plugin.samplePlugin with
  | some samplePlugin =>
    let h := ((h.configure fromString samplePlugin a.configLine).registerNotification
      samplePlugin).registerJson samplePlugin
    let config := fromString .default a.configLine
    if config.privateComRpcServer then
      let h := newComRpcServer h.createEngine samplePlugin service a.listens
      if h.isListening then ("", h)
      else ("Failed to start COM-RPC server", (h.deleteServer.assignServer none).releaseEngine)
    else ("", h)
  | none =>
    ("Failed to initialize SamplePlugin", (h.unregisterSink service).setService none)

def deinitializePlugin (h : Host S I N) : Host S I N :=
  let h := match h.plugin.rpcServer with
    | some _ => (h.deleteServer.assignServer none).releaseEngine
    | none => h
  let h := match h.plugin.service, h.plugin.samplePlugin with
    | some service, some samplePlugin =>
      ((h.unregisterSink service).unregisterNotification samplePlugin).release samplePlugin
    | _, _ => h
  { h with plugin.connectionId := 0, plugin.service := none, plugin.samplePlugin := none }

structure Restored (h u : Host S I N) : Prop where
  plugin : u.plugin = h.plugin
  sinks : u.sinks = h.sinks
  callbacks : ∀ i, (u.implementations i).callbacks = (h.implementations i).callbacks
  jsonHandlers : u.jsonHandlers = h.jsonHandlers
  held : ∀ i, u.held.balance i = h.held.balance i

omit [DecidableEq S] [DecidableEq I] [DecidableEq N] in
@[simp] theorem announce_plugin (h : Host S I N) (server : ℕ) :
    (h.announce server).plugin = h.plugin := by
  unfold Host.announce
  split <;> rfl

omit [DecidableEq S] [DecidableEq I] [DecidableEq N] in
@[simp] theorem announce_servers (h : Host S I N) (server : ℕ) :
    (h.announce server).servers = h.servers := by
  unfold Host.announce
  split <;> rfl

omit [DecidableEq S] [DecidableEq I] [DecidableEq N] in
@[simp] theorem deleteServer_plugin (h : Host S I N) : h.deleteServer.plugin = h.plugin := by
  unfold Host.deleteServer
  split <;> rfl

omit [DecidableEq S] [DecidableEq I] [DecidableEq N] in
@[simp] theorem announce_held (h : Host S I N) (server : ℕ) :
    (h.announce server).held = h.held := by
  unfold Host.announce
  split <;> rfl

omit [DecidableEq S] [DecidableEq I] [DecidableEq N] in
@[simp] theorem deleteServer_held (h : Host S I N) : h.deleteServer.held = h.held := by
  unfold Host.deleteServer
  split <;> rfl

omit [DecidableEq S] [DecidableEq I] [DecidableEq N] in
@[simp] theorem announce_jsonHandlers (h : Host S I N) (server : ℕ) :
    (h.announce server).jsonHandlers = h.jsonHandlers := by
  unfold Host.announce
  split <;> rfl

omit [DecidableEq S] [DecidableEq I] [DecidableEq N] in
@[simp] theorem deleteServer_jsonHandlers (h : Host S I N) :
    h.deleteServer.jsonHandlers = h.jsonHandlers := by
  unfold Host.deleteServer
  split <;> rfl

omit [DecidableEq S] [DecidableEq I] [DecidableEq N] in
@[simp] theorem isListening_newComRpcServer (h : Host S I N) (samplePlugin : I) (service : S)
    (listens : Bool) : (newComRpcServer h samplePlugin service listens).isListening = listens := by
  simp [newComRpcServer, Host.isListening, Host.server, Host.assignServer, Host.openServer,
    Host.constructServer, ComRpcServer.isListening]

omit [DecidableEq S] [DecidableEq I] [DecidableEq N] in
@[simp] theorem service_newComRpcServer (h : Host S I N) (samplePlugin : I) (service : S)
    (listens : Bool) :
    (newComRpcServer h samplePlugin service listens).plugin.service = h.plugin.service := by
  simp [newComRpcServer, Host.assignServer, Host.openServer, Host.constructServer]

variable (fromString : SamplePluginConfiguration → String → SamplePluginConfiguration)

theorem initialize_root_null (service : S) {a : Answers I} {h : Host S I N}
    (hentry : MayInitialize h) (hroot : a.root = none) :
    initializePlugin fromString service a h = ("Failed to initialize SamplePlugin",
      { h with plugin.connectionId := a.connectionId.getD h.plugin.connectionId }) := by
  obtain ⟨⟨id, sv, sp, engine, server⟩, sinks, implementations, held, handlers, servers,
    announcements, created⟩ := h
  obtain ⟨rfl, rfl⟩ : sv = none ∧ sp = none := hentry
  simp [initializePlugin, Host.root, Host.setService, Host.registerSink, Host.unregisterSink,
    hroot]

/-- With an implementation, it fails exactly on a private server that does not listen. -/
theorem initialize_root_some (service : S) {a : Answers I} (h : Host S I N) {i : I}
    (hroot : a.root = some i) :
    (initializePlugin fromString service a h).2.plugin.service = some service ∧
      ((initializePlugin fromString service a h).1 ≠ "" ↔
        (fromString .default a.configLine).privateComRpcServer ∧ ¬ a.listens) := by
  simp only [initializePlugin, Host.root, hroot, isListening_newComRpcServer]
  by_cases hprivate : (fromString .default a.configLine).privateComRpcServer
  · by_cases hlistens : a.listens
    · simp [hprivate, hlistens, Host.createEngine, Host.registerJson, Host.registerNotification,
        Host.configure, Host.modify, Host.setService, Host.registerSink]
    · simp [hprivate, hlistens, Host.createEngine, Host.registerJson, Host.registerNotification,
        Host.configure, Host.modify, Host.setService, Host.registerSink, Host.releaseEngine,
        Host.assignServer]
  · simp [hprivate, Host.registerJson, Host.registerNotification, Host.configure, Host.modify,
      Host.setService, Host.registerSink]

/-- A failed Initialize leaves the state as it was exactly when Root, returning null, did not
change the connection id, and, returning an implementation, no private server was configured
that then did not listen. -/
theorem failed_initialize_restores_iff (service : S) (a : Answers I) {h : Host S I N}
    (hentry : MayInitialize h) :
    ((initializePlugin fromString service a h).1 ≠ "" →
        Restored h (initializePlugin fromString service a h).2) ↔
      (a.root = none → a.connectionId = none ∨ a.connectionId = some h.plugin.connectionId) ∧
      (a.root ≠ none → (fromString .default a.configLine).privateComRpcServer → a.listens) := by
  cases hroot : a.root with
  | none =>
    rw [initialize_root_null fromString service hentry hroot]
    constructor
    · intro hrestored
      have hmessage : "Failed to initialize SamplePlugin" ≠ "" := by decide
      have hid := congrArg connectionId (hrestored hmessage).plugin
      constructor
      · intro _
        cases hwritten : a.connectionId with
        | none => exact Or.inl rfl
        | some id => exact Or.inr (by simpa [hwritten] using hid)
      · intro hn
        exact absurd rfl hn
    · rintro ⟨hid, -⟩ -
      have hkept : a.connectionId.getD h.plugin.connectionId = h.plugin.connectionId := by
        rcases hid rfl with hnone | hsame
        · simp [hnone]
        · simp [hsame]
      exact ⟨by rw [hkept], rfl, fun _ => rfl, rfl, fun _ => rfl⟩
  | some i =>
    obtain ⟨hservice, hfails⟩ := initialize_root_some fromString service h hroot
    have hnot : ¬ Restored h (initializePlugin fromString service a h).2 := by
      intro hr
      have hsame := hservice.symm.trans (congrArg SamplePlugin.service hr.plugin)
      rw [hentry.1] at hsame
      cases hsame
    constructor
    · intro hrestored
      refine ⟨by simp, ?_⟩
      intro _ hprivate
      by_contra hlistens
      exact hnot (hrestored (hfails.mpr ⟨hprivate, hlistens⟩))
    · rintro ⟨-, hlistens⟩ hfailed
      obtain ⟨hprivate, hnotListening⟩ := hfails.mp hfailed
      exact absurd (hlistens (by simp) hprivate) hnotListening

/-- Root returned an implementation and the private server does not listen: the call fails
and leaves the shell, the implementation and all registrations in place. -/
theorem unheard_server_leaves_service :
    ¬ ∀ (fromString : SamplePluginConfiguration → String → SamplePluginConfiguration)
        (service : ℕ) (a : Answers ℕ) (h : Host ℕ ℕ ℕ), MayInitialize h →
      (initializePlugin fromString service a h).1 ≠ "" →
      Restored h (initializePlugin fromString service a h).2 := by
  intro hclaim
  have hr := hclaim (fun _ _ => ⟨⟨false, false, []⟩, true⟩) 0 ⟨some 1, none, "", false⟩ .fresh
    ⟨rfl, rfl⟩ (by decide)
  exact absurd hr.plugin (by decide)

/-- Root returns null and writes no id: the failed call leaves nothing behind. -/
theorem failed_initialize_restores_iff_silent_root :
    Restored (.fresh : Host ℕ ℕ ℕ)
      (initializePlugin (fun _ _ => .default) 0 ⟨none, none, "", false⟩ .fresh).2 :=
  (failed_initialize_restores_iff (fun _ _ => .default) 0 ⟨none, none, "", false⟩
    (h := .fresh) ⟨rfl, rfl⟩).mpr ⟨fun _ => Or.inl rfl, fun hn => absurd rfl hn⟩ (by decide)

end Calls

end SamplePlugin
