import SampleThunderPlugin.PluginLifecycle

/-! A call whose statements are not interrupted computes the function it was taken apart
from: Initialize and Deinitialize statement by statement reach exactly the state, and return
the string, that the functions on hosts give. -/
namespace UndisturbedCalls

open LabelledRuns PluginLifecycle
open SamplePlugin (Host MayInitialize MayDeinitialize initializePlugin deinitializePlugin
  newComRpcServer)

variable {S I N : Type} [DecidableEq S] [DecidableEq I] [DecidableEq N]
variable {fromString : SamplePluginConfiguration → String → SamplePluginConfiguration}
variable {grants : Reference S I → Bool}

def OfInitialize : Event S I N → Prop
  | .initializeCalled _ _ | .initializing _ | .initializeReturned _ => True
  | _ => False

def OfDeinitialize : Event S I N → Prop
  | .deinitializeCalled _ | .deinitializing _ | .deinitializeReturned => True
  | _ => False

section Initialize
variable {s : State S I N} {service : S} {a : Answers I}

/-- Initialize has come to a statement without an interruption. -/
def Executing (fromString : SamplePluginConfiguration → String → SamplePluginConfiguration)
    (grants : Reference S I → Bool) (s : State S I N) (service : S) (a : Answers I)
    (stmt : InitializeAt) (h : Host S I N) : Prop :=
  Reaches (Step fromString grants) OfInitialize s
    { s with host := h, pc := .initializing service a stmt, activation := some (service, a) }

theorem Executing.next {stmt next : InitializeAt} {h h' : Host S I N}
    (he : Executing fromString grants s service a stmt h)
    (hst : InitializeStep fromString service a stmt h next h')
    (hq : stmt = .deleteServer → s.acquiring = []) :
    Executing fromString grants s service a next h' := by
  refine Reaches.next he (.initializing _ service a stmt next h' rfl hst fun hd r hr => ?_) trivial
  rw [hq hd] at hr
  exact absurd hr List.not_mem_nil

theorem Executing.leave {success : String} {h : Host S I N}
    (he : Executing fromString grants s service a (.done success) h) (hp : s.pc = .idle) :
    Reaches (Step fromString grants) OfInitialize s
      { s with host := h, activation := some (service, a) } := by
  obtain ⟨host, pc, activation, acquiring, jobs, jsonEvents⟩ := s
  obtain rfl : pc = .idle := hp
  exact Reaches.next he (.initializeReturned _ service a success rfl) trivial

theorem executing_root
    (fromString : SamplePluginConfiguration → String → SamplePluginConfiguration)
    (grants : Reference S I → Bool) (service : S) (a : Answers I) (hp : s.pc = .idle)
    (hm : MayInitialize s.host) : Executing fromString grants s service a .root
      ((s.host.setService (some service)).registerSink service) := by
  have h₀ : Executing fromString grants s service a .setService s.host :=
    Reaches.next .refl (.initializeCalled s service a hp hm) trivial
  have h₁ := h₀.next (.setService _) (by simp)
  exact h₁.next (.registerSink _ service rfl) (by simp)

omit [DecidableEq S] [DecidableEq I] [DecidableEq N] in
theorem server_newComRpcServer (h : Host S I N) (i : I) (service : S) (listens : Bool) :
    (newComRpcServer h i service listens).server = some ⟨some i, some service, listens⟩ := by
  simp [newComRpcServer, Host.server, Host.assignServer, Host.openServer, Host.constructServer,
    ComRpcServer.construct]

theorem Executing.newServer {h : Host S I N} {i : I}
    (he : Executing fromString grants s service a .createEngine h)
    (hi : h.plugin.samplePlugin = some i) :
    Executing fromString grants s service a .isListening
      (newComRpcServer h.createEngine i service a.listens) := by
  have h₁ := he.next (.createEngine _) (by simp)
  have h₂ := h₁.next (.constructServer _ i hi) (by simp)
  have h₃ := h₂.next (.openServer _ _) (by simp)
  have h₄ := h₃.next (.announce _ _) (by simp)
  exact h₄.next (.assignServer _ _) (by simp)

theorem Executing.hookUp {h : Host S I N} {i : I}
    (he : Executing fromString grants s service a .configure h)
    (hi : h.plugin.samplePlugin = some i) :
    Executing fromString grants s service a .readConfig
      (((h.configure fromString i a.configLine).registerNotification i).registerJson i) := by
  have h₁ := he.next (.configure _ i hi) (by simp)
  have h₂ := h₁.next (.registerNotification _ i hi) (by simp)
  exact h₂.next (.registerJson _ i hi) (by simp)

theorem Executing.listening {h : Host S I N} {i : I}
    (he : Executing fromString grants s service a .isListening
      (newComRpcServer h i service a.listens)) (hl : a.listens = true) :
    Executing fromString grants s service a (.done "") (newComRpcServer h i service a.listens) :=
  he.next (.listening _ _ (server_newComRpcServer h i service a.listens) hl) (by simp)

theorem Executing.notListening {h : Host S I N} {i : I}
    (he : Executing fromString grants s service a .isListening
      (newComRpcServer h i service a.listens)) (hl : a.listens = false)
    (hq : s.acquiring = []) :
    Executing fromString grants s service a (.done "Failed to start COM-RPC server")
      ((newComRpcServer h i service a.listens).deleteServer.assignServer none).releaseEngine := by
  have h₁ := he.next (.notListening _ _ (server_newComRpcServer h i service a.listens) hl)
    (by simp)
  have h₂ := h₁.next (.deleteServer _) fun _ => hq
  have h₃ := h₂.next (.clearServer _) (by simp)
  exact h₃.next (.releaseEngine _) (by simp)

theorem initialize_reaches
    (fromString : SamplePluginConfiguration → String → SamplePluginConfiguration)
    (grants : Reference S I → Bool) (s : State S I N) (service : S) (a : Answers I)
    (hp : s.pc = .idle) (hm : MayInitialize s.host) (hq : s.acquiring = []) :
    Executing fromString grants s service a
      (.done (initializePlugin fromString service a s.host).1)
      (initializePlugin fromString service a s.host).2 := by
  have hroot := executing_root fromString grants service a hp hm
  cases hr : a.root with
  | none =>
    have h₁ := hroot.next (.rootNull _ hr) (by simp)
    have h₂ := h₁.next (.unregisterSink _ service rfl) (by simp)
    have h₃ := h₂.next (.clearService _) (by simp)
    simpa [initializePlugin, Host.root, hr] using h₃
  | some i =>
    have hfound := hroot.next (.rootFound _ i hr) (by simp)
    have hhooked := hfound.hookUp hr
    by_cases hc : (fromString .default a.configLine).privateComRpcServer = true
    · have hserver := (hhooked.next (.privateServer _ hc) (by simp)).newServer hr
      cases hl : a.listens with
      | true => simpa [initializePlugin, Host.root, hr, hc, hl] using hserver.listening hl
      | false => simpa [initializePlugin, Host.root, hr, hc, hl] using hserver.notListening hl hq
    · have hdone := hhooked.next (.noServer _ (by simpa using hc)) (by simp)
      simpa [initializePlugin, Host.root, hr, hc] using hdone

end Initialize

section Deinitialize
variable {s : State S I N} {service : S}

def Withdrawing (fromString : SamplePluginConfiguration → String → SamplePluginConfiguration)
    (grants : Reference S I → Bool) (s : State S I N) (service : S) (stmt : DeinitializeAt)
    (h : Host S I N) : Prop :=
  Reaches (Step fromString grants) OfDeinitialize s
    { s with host := h, pc := .deinitializing service stmt }

theorem Withdrawing.next {stmt next : DeinitializeAt} {h h' : Host S I N}
    (he : Withdrawing fromString grants s service stmt h) (hst : DeinitializeStep stmt h next h')
    (hq : stmt = .deleteServer → s.acquiring = []) :
    Withdrawing fromString grants s service next h' := by
  refine Reaches.next he (.deinitializing _ service stmt next h' rfl hst fun hd r hr => ?_) trivial
  rw [hq hd] at hr
  exact absurd hr List.not_mem_nil

theorem Withdrawing.leave {h : Host S I N}
    (he : Withdrawing fromString grants s service .done h) (hp : s.pc = .idle) :
    Reaches (Step fromString grants) OfDeinitialize s { s with host := h } := by
  obtain ⟨host, pc, activation, acquiring, jobs, jsonEvents⟩ := s
  obtain rfl : pc = .idle := hp
  exact Reaches.next he (.deinitializeReturned _ service rfl) trivial

theorem Withdrawing.finish {h : Host S I N} {i : I}
    (he : Withdrawing fromString grants s service .testSamplePlugin h)
    (hs : h.plugin.service = some service) (hi : h.plugin.samplePlugin = some i) :
    Withdrawing fromString grants s service .done
      { (((h.unregisterSink service).unregisterNotification i).release i) with
        plugin.connectionId := 0, plugin.service := none, plugin.samplePlugin := none } := by
  have h₁ := he.next (.samplePlugin _ i hi) (by simp)
  have h₂ := h₁.next (.unregisterSink _ service hs) (by simp)
  have h₃ := h₂.next (.unregisterNotification _ i hi) (by simp)
  have h₄ := h₃.next (.releaseSamplePlugin _ i hi) (by simp)
  have h₅ := h₄.next (.clearConnectionId _) (by simp)
  have h₆ := h₅.next (.clearService _) (by simp)
  exact h₆.next (.clearSamplePlugin _) (by simp)

theorem deinitialize_reaches
    (fromString : SamplePluginConfiguration → String → SamplePluginConfiguration)
    (grants : Reference S I → Bool) (s : State S I N) (service : S)
    (hp : s.pc = .idle) (hm : MayDeinitialize service s.host) (hq : s.acquiring = []) :
    Reaches (Step fromString grants) OfDeinitialize s
      { s with host := deinitializePlugin s.host } := by
  obtain ⟨hservice, hplugin⟩ := hm
  obtain ⟨i, hi⟩ := Option.ne_none_iff_exists'.mp hplugin
  have h₀ : Withdrawing fromString grants s service .testServer s.host :=
    Reaches.next .refl (.deinitializeCalled s service hp ⟨hservice, hplugin⟩) trivial
  cases hk : s.host.plugin.rpcServer with
  | none =>
    have hdone := (h₀.next (.noServer _ hk) (by simp)).finish hservice hi
    simpa [deinitializePlugin, hk, hservice, hi] using hdone.leave hp
  | some k =>
    have h₁ := h₀.next (.serverStarted _ k hk) (by simp)
    have h₂ := h₁.next (.deleteServer _) fun _ => hq
    have h₃ := h₂.next (.clearServer _) (by simp)
    have h₄ := h₃.next (.releaseEngine _) (by simp)
    have hdone := h₄.finish (i := i)
      (by simpa [Host.releaseEngine, Host.assignServer] using hservice)
      (by simpa [Host.releaseEngine, Host.assignServer] using hi)
    simpa [deinitializePlugin, hk, hservice, hi, Host.releaseEngine, Host.assignServer] using
      hdone.leave hp

end Deinitialize

end UndisturbedCalls
