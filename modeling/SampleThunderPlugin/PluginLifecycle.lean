import SampleThunderPlugin.LabelledRuns
import SampleThunderPlugin.SamplePlugin

/-! Initialize and Deinitialize statement by statement, with the rest of the world between
any two statements: lost connections reported to the sink, Acquire requests on the private
server, requests of COM-RPC clients and of the JSON-RPC handlers on implementations.
A statement that needs a pointer is only taken through a pointer that is not null. -/
namespace PluginLifecycle

open LabelledRuns
open SamplePlugin (Host MayInitialize MayDeinitialize)
open SamplePluginImplementation (Request Reply deliveredTo)

/-- The next statement of Initialize; between new and the assignment the server is a local. -/
inductive InitializeAt where
  | setService
  | registerSink
  | root
  | configure
  | registerNotification
  | registerJson
  | readConfig
  | createEngine
  | constructServer
  | openServer (server : ℕ)
  | announce (server : ℕ)
  | assignServer (server : ℕ)
  | isListening
  | deleteServer
  | clearServer
  | releaseEngine
  | unregisterSink
  | clearService
  | done (success : String)
  deriving DecidableEq, Repr

inductive DeinitializeAt where
  | testServer
  | deleteServer
  | clearServer
  | releaseEngine
  | testSamplePlugin
  | unregisterSink
  | unregisterNotification
  | releaseSamplePlugin
  | clearConnectionId
  | clearService
  | clearSamplePlugin
  | done
  deriving DecidableEq, Repr

inductive Pc (S I : Type) where
  | idle
  | initializing (service : S) (a : Answers I) (stmt : InitializeAt)
  | deinitializing (service : S) (stmt : DeinitializeAt)

structure Acquisition where
  server : ℕ
  interfaceId : InterfaceId
  versionId : UInt32
  deriving DecidableEq

structure State (S I N : Type) where
  host : Host S I N
  pc : Pc S I
  /-- History: the last Initialize call and what it was answered. No step reads it. -/
  activation : Option (S × Answers I)
  acquiring : List Acquisition
  jobs : List (Option S)
  jsonEvents : List Source

inductive Channel where
  | comRpc
  | jsonRpc
  deriving DecidableEq, Repr

inductive Event (S I N : Type) where
  | initializeCalled (service : S) (a : Answers I)
  | initializing (stmt : InitializeAt)
  | initializeReturned (success : String)
  | deinitializeCalled (service : S)
  | deinitializing (stmt : DeinitializeAt)
  | deinitializeReturned
  | deactivated (connectionId : ℕ)
  | acquire (r : Acquisition)
  | acquired (r : Acquisition) (result : Option (Reference S I))
  | request (channel : Channel) (i : I) (q : Request (Callback N)) (reply : Reply (Callback N))
  | constructed (i : I)

variable {S I N : Type}

def start : State S I N := ⟨.fresh, .idle, none, [], [], []⟩

/-- SamplePlugin::Deactivated; a job for a null shell stands for its failed ASSERT. -/
def State.deactivated (s : State S I N) (connectionId : ℕ) : State S I N :=
  if connectionId = s.host.plugin.connectionId then
    { s with jobs := s.jobs ++ [s.host.plugin.service] }
  else s

@[simp] theorem deactivated_host (s : State S I N) (connectionId : ℕ) :
    (s.deactivated connectionId).host = s.host := by
  unfold State.deactivated
  split <;> rfl

@[simp] theorem deactivated_acquiring (s : State S I N) (connectionId : ℕ) :
    (s.deactivated connectionId).acquiring = s.acquiring := by
  unfold State.deactivated
  split <;> rfl

/-- Requests that clients make never name the plugin's own sink. -/
def ByClient : Request (Callback N) → Prop
  | .register .notification | .unregister .notification => False
  | _ => True

/-- No Acquire is running in the server that _rpcServer points to. -/
def State.Quiet (s : State S I N) : Prop :=
  ∀ r ∈ s.acquiring, s.host.plugin.rpcServer ≠ some r.server

section Steps
variable [DecidableEq S] [DecidableEq I] [DecidableEq N]
variable (fromString : SamplePluginConfiguration → String → SamplePluginConfiguration)
variable (grants : Reference S I → Bool)

inductive InitializeStep (service : S) (a : Answers I) :
    InitializeAt → Host S I N → InitializeAt → Host S I N → Prop where
  | setService (h) :
      InitializeStep service a .setService h .registerSink (h.setService (some service))
  | registerSink (h sv) (hs : h.plugin.service = some sv) :
      InitializeStep service a .registerSink h .root (h.registerSink sv)
  | rootFound (h i) (hr : a.root = some i) :
      InitializeStep service a .root h .configure (h.root a)
  | rootNull (h) (hr : a.root = none) :
      InitializeStep service a .root h .unregisterSink (h.root a)
  | configure (h i) (hi : h.plugin.samplePlugin = some i) :
      InitializeStep service a .configure h .registerNotification
        (h.configure fromString i a.configLine)
  | registerNotification (h i) (hi : h.plugin.samplePlugin = some i) :
      InitializeStep service a .registerNotification h .registerJson (h.registerNotification i)
  | registerJson (h i) (hi : h.plugin.samplePlugin = some i) :
      InitializeStep service a .registerJson h .readConfig (h.registerJson i)
  | privateServer (h) (hc : (fromString .default a.configLine).privateComRpcServer = true) :
      InitializeStep service a .readConfig h .createEngine h
  | noServer (h) (hc : (fromString .default a.configLine).privateComRpcServer = false) :
      InitializeStep service a .readConfig h (.done "") h
  | createEngine (h) :
      InitializeStep service a .createEngine h .constructServer h.createEngine
  | constructServer (h i) (hi : h.plugin.samplePlugin = some i) :
      InitializeStep service a .constructServer h (.openServer h.created)
        (h.constructServer i service)
  | openServer (h k) :
      InitializeStep service a (.openServer k) h (.announce k) (h.openServer k a.listens)
  | announce (h k) : InitializeStep service a (.announce k) h (.assignServer k) (h.announce k)
  | assignServer (h k) :
      InitializeStep service a (.assignServer k) h .isListening (h.assignServer (some k))
  | listening (h v) (hv : h.server = some v) (hl : v.isListening = true) :
      InitializeStep service a .isListening h (.done "") h
  | notListening (h v) (hv : h.server = some v) (hl : v.isListening = false) :
      InitializeStep service a .isListening h .deleteServer h
  | deleteServer (h) : InitializeStep service a .deleteServer h .clearServer h.deleteServer
  | clearServer (h) :
      InitializeStep service a .clearServer h .releaseEngine (h.assignServer none)
  | releaseEngine (h) :
      InitializeStep service a .releaseEngine h (.done "Failed to start COM-RPC server")
        h.releaseEngine
  | unregisterSink (h sv) (hs : h.plugin.service = some sv) :
      InitializeStep service a .unregisterSink h .clearService (h.unregisterSink sv)
  | clearService (h) :
      InitializeStep service a .clearService h (.done "Failed to initialize SamplePlugin")
        (h.setService none)

inductive DeinitializeStep :
    DeinitializeAt → Host S I N → DeinitializeAt → Host S I N → Prop where
  | serverStarted (h k) (hk : h.plugin.rpcServer = some k) :
      DeinitializeStep .testServer h .deleteServer h
  | noServer (h) (hk : h.plugin.rpcServer = none) :
      DeinitializeStep .testServer h .testSamplePlugin h
  | deleteServer (h) : DeinitializeStep .deleteServer h .clearServer h.deleteServer
  | clearServer (h) : DeinitializeStep .clearServer h .releaseEngine (h.assignServer none)
  | releaseEngine (h) : DeinitializeStep .releaseEngine h .testSamplePlugin h.releaseEngine
  | samplePlugin (h i) (hi : h.plugin.samplePlugin = some i) :
      DeinitializeStep .testSamplePlugin h .unregisterSink h
  | noSamplePlugin (h) (hi : h.plugin.samplePlugin = none) :
      DeinitializeStep .testSamplePlugin h .clearConnectionId h
  | unregisterSink (h sv) (hs : h.plugin.service = some sv) :
      DeinitializeStep .unregisterSink h .unregisterNotification (h.unregisterSink sv)
  | unregisterNotification (h i) (hi : h.plugin.samplePlugin = some i) :
      DeinitializeStep .unregisterNotification h .releaseSamplePlugin (h.unregisterNotification i)
  | releaseSamplePlugin (h i) (hi : h.plugin.samplePlugin = some i) :
      DeinitializeStep .releaseSamplePlugin h .clearConnectionId (h.release i)
  | clearConnectionId (h) :
      DeinitializeStep .clearConnectionId h .clearService { h with plugin.connectionId := 0 }
  | clearService (h) :
      DeinitializeStep .clearService h .clearSamplePlugin (h.setService none)
  | clearSamplePlugin (h) :
      DeinitializeStep .clearSamplePlugin h .done { h with plugin.samplePlugin := none }

/-- A delete returns once the Acquires that run in the server are over. The sink raises one
JSON-RPC event for each of its SomethingHappend calls. An object that the plugin holds no
reference on may go, and another take its place. -/
inductive Step : State S I N → Event S I N → State S I N → Prop where
  | initializeCalled (s service a) (hp : s.pc = .idle) (hm : MayInitialize s.host) :
      Step s (.initializeCalled service a)
        { s with pc := .initializing service a .setService, activation := some (service, a) }
  | initializing (s service a stmt next host) (hp : s.pc = .initializing service a stmt)
      (hs : InitializeStep fromString service a stmt s.host next host)
      (hq : stmt = .deleteServer → s.Quiet) :
      Step s (.initializing stmt) { s with host := host, pc := .initializing service a next }
  | initializeReturned (s service a success) (hp : s.pc = .initializing service a (.done success)) :
      Step s (.initializeReturned success) { s with pc := .idle }
  | deinitializeCalled (s service) (hp : s.pc = .idle) (hm : MayDeinitialize service s.host) :
      Step s (.deinitializeCalled service) { s with pc := .deinitializing service .testServer }
  | deinitializing (s service stmt next host) (hp : s.pc = .deinitializing service stmt)
      (hs : DeinitializeStep stmt s.host next host) (hq : stmt = .deleteServer → s.Quiet) :
      Step s (.deinitializing stmt) { s with host := host, pc := .deinitializing service next }
  | deinitializeReturned (s service) (hp : s.pc = .deinitializing service .done) :
      Step s .deinitializeReturned { s with pc := .idle }
  | deactivated (s service connectionId) (hr : 0 < s.host.sinks service) :
      Step s (.deactivated connectionId) (s.deactivated connectionId)
  | acquire (s r v) (hv : s.host.servers r.server = some v) :
      Step s (.acquire r) { s with acquiring := r :: s.acquiring }
  | acquired (s r v) (hv : s.host.servers r.server = some v) (hr : r ∈ s.acquiring) :
      Step s (.acquired r (v.acquire grants r.interfaceId r.versionId))
        { s with acquiring := s.acquiring.erase r }
  | request (s channel i q reply p) (hq : ByClient q)
      (hj : channel = .jsonRpc → i ∈ s.host.jsonHandlers)
      (hs : (s.host.implementations i).serve fromString q = .ok (reply, p)) :
      Step s (.request channel i q reply)
        { s with
          host := s.host.modify i p
          jsonEvents := s.jsonEvents ++ deliveredTo .notification reply.delivered }
  | constructed (s i) (hi : s.host.held.balance i = 0) :
      Step s (.constructed i) { s with host := s.host.modify i .initial }

end Steps

end PluginLifecycle
