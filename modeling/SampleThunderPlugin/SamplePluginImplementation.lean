import SampleThunderPlugin.StableList
import SampleThunderPlugin.ReferenceLedger
import SampleThunderPlugin.SubscriptionRoster

/-! The object behind the COM-RPC interface: greetings, echo and the callback list.
Requests are served one at a time here, so taking and dropping _notificationMutex has no
effect of its own; the threads that contend for it are modelled on top of this file.
Callbacks do not call back: what a raise does to them is the list of calls it makes.
The JSON parser is Thunder's, so Configure takes it as a parameter. -/

inductive ErrorCode where
  | errorNone
  | errorBadRequest
  | errorIncompleteConfig
  | errorUnavailable
  deriving DecidableEq, Repr

inductive Source where
  | excitingThingHappened
  | boringThingHappened
  deriving DecidableEq, Repr

/-- A JSON array of strings as the code reads it. -/
structure GreetingsField where
  isSet : Bool
  isNull : Bool
  elements : List String
  deriving DecidableEq, Repr

structure SamplePluginConfiguration where
  greetings : GreetingsField
  privateComRpcServer : Bool
  deriving DecidableEq, Repr

def SamplePluginConfiguration.default : SamplePluginConfiguration := ⟨⟨false, false, []⟩, false⟩

/-- std::uniform_int_distribution: any value within the bounds it is given. -/
structure UniformInt where
  draw : ℕ → ℕ → ℕ
  within : ∀ a b, a ≤ b → a ≤ draw a b ∧ draw a b ≤ b

def UniformInt.favouring (k : ℕ) : UniformInt where
  draw a b := max a (min k b)
  within a b h := by omega

/-- What unsigned subtraction, operator[] and a member call do not check for themselves. -/
inductive Fault where
  | sizeUnderflow
  | indexOutOfRange
  | nullPointer
  deriving DecidableEq, Repr

structure SamplePluginImplementation (N : Type) where
  notificationCallbacks : StableList N
  config : SamplePluginConfiguration
  greetings : List String
  /-- The numbers taken from _rng so far. -/
  draws : ℕ
  /-- AddRef and Release calls made on the callbacks. -/
  refs : ReferenceLedger N

namespace SamplePluginImplementation

open SubscriptionRoster (Move apply roster LastIsJoin JoinedAt)

variable {N : Type}

def initial : SamplePluginImplementation N :=
  ⟨.empty, .default, [], 0, .empty⟩

def callbacks (s : SamplePluginImplementation N) : List N := s.notificationCallbacks.values

/-- What a caller sees of one request, with the SomethingHappend calls it made on the way. -/
structure Reply (N : Type) where
  code : ErrorCode
  result : String
  delivered : List (N × Source)

def configure (fromString : SamplePluginConfiguration → String → SamplePluginConfiguration)
    (s : SamplePluginImplementation N) (line : String) : SamplePluginImplementation N :=
  let config := fromString s.config line
  if config.greetings.isSet && !config.greetings.isNull then
    { s with config := config, greetings := s.greetings ++ config.greetings.elements }
  else { s with config := config }

/-- The loop passes its own constant on, whatever event it was asked to raise. -/
def raiseSomethingHappenedNotification (s : SamplePluginImplementation N)
    (_eventSource : Source) : List (N × Source) :=
  s.callbacks.map fun callback => (callback, .excitingThingHappened)

def sizeMinusOne (greetings : List String) : Except Fault ℕ :=
  if greetings.length = 0 then .error .sizeUnderflow else .ok (greetings.length - 1)

def greetingAt (greetings : List String) (i : ℕ) : Except Fault String :=
  match greetings[i]? with
  | some greeting => .ok greeting
  | none => .error .indexOutOfRange

def greet (distribution : UniformInt) (s : SamplePluginImplementation N)
    (message result : String) : Except Fault (Reply N × SamplePluginImplementation N) :=
  if message = "" then .ok (⟨.errorBadRequest, result, []⟩, s)
  else if s.greetings.length ≠ 0 then do
    let last ← sizeMinusOne s.greetings
    let greeting ← greetingAt s.greetings (distribution.draw 0 last)
    let s := { s with draws := s.draws + 1 }
    .ok (⟨.errorNone, greeting ++ ", " ++ message,
      s.raiseSomethingHappenedNotification .excitingThingHappened⟩, s)
  else .ok (⟨.errorIncompleteConfig, result, []⟩, s)

def echo (s : SamplePluginImplementation N) (message _result : String) :
    Reply N × SamplePluginImplementation N := (⟨.errorNone, message, []⟩, s)

section Callbacks
variable [DecidableEq N]

/-- The part of Register between Lock and Unlock. -/
def register (s : SamplePluginImplementation N) (notification : N) :
    SamplePluginImplementation N :=
  match s.notificationCallbacks.find notification with
  | none =>
    { s with
      notificationCallbacks := s.notificationCallbacks.pushBack notification
      refs := s.refs.addRef notification }
  | some _ => s

/-- The part of Unregister between Lock and Unlock. -/
def unregister (s : SamplePluginImplementation N) (notification : N) :
    SamplePluginImplementation N :=
  match s.notificationCallbacks.find notification with
  | none => s
  | some itr =>
    { s with
      notificationCallbacks := s.notificationCallbacks.erase itr
      refs := s.refs.release notification }

inductive Request (N : Type) where
  | configure (line : String)
  | greet (distribution : UniformInt) (message result : String)
  | echo (message result : String)
  | register (notification : N)
  | unregister (notification : N)

def serve (fromString : SamplePluginConfiguration → String → SamplePluginConfiguration)
    (s : SamplePluginImplementation N) :
    Request N → Except Fault (Reply N × SamplePluginImplementation N)
  | .configure line => .ok (⟨.errorNone, "", []⟩, s.configure fromString line)
  | .greet distribution message result => s.greet distribution message result
  | .echo message result => .ok (s.echo message result)
  | .register notification => .ok (⟨.errorNone, "", []⟩, s.register notification)
  | .unregister notification => .ok (⟨.errorNone, "", []⟩, s.unregister notification)

def serveAll (fromString : SamplePluginConfiguration → String → SamplePluginConfiguration)
    (s : SamplePluginImplementation N) :
    List (Request N) → Except Fault (List (Reply N) × SamplePluginImplementation N)
  | [] => .ok ([], s)
  | q :: qs => do
    let (reply, s) ← s.serve fromString q
    let (replies, s) ← s.serveAll fromString qs
    .ok (reply :: replies, s)

def view : Request N → Option (Move N)
  | .register notification => some (.join notification)
  | .unregister notification => some (.leave notification)
  | _ => none

structure Invariant (s : SamplePluginImplementation N) : Prop where
  nodup : s.callbacks.Nodup
  refs : s.refs.OneEach s.callbacks

theorem initial_invariant : Invariant (initial : SamplePluginImplementation N) :=
  ⟨List.nodup_nil, ReferenceLedger.oneEach_empty⟩

theorem register_of_mem {s : SamplePluginImplementation N} {n : N} (h : n ∈ s.callbacks) :
    s.register n = s := by
  cases hf : s.notificationCallbacks.find n with
  | none => exact absurd h (StableList.find_eq_none.mp hf)
  | some itr => simp only [register, hf]

theorem register_of_notMem {s : SamplePluginImplementation N} {n : N} (h : n ∉ s.callbacks) :
    s.register n =
      { s with
        notificationCallbacks := s.notificationCallbacks.pushBack n
        refs := s.refs.addRef n } := by
  simp only [register, StableList.find_eq_none.mpr h]

theorem unregister_of_notMem {s : SamplePluginImplementation N} {n : N}
    (h : n ∉ s.callbacks) : s.unregister n = s := by
  simp only [unregister, StableList.find_eq_none.mpr h]

theorem unregister_of_mem {s : SamplePluginImplementation N} {n : N} (h : n ∈ s.callbacks) :
    ∃ itr, s.notificationCallbacks.find n = some itr ∧ s.unregister n =
      { s with
        notificationCallbacks := s.notificationCallbacks.erase itr
        refs := s.refs.release n } := by
  cases hf : s.notificationCallbacks.find n with
  | none => exact absurd h (StableList.find_eq_none.mp hf)
  | some itr => exact ⟨itr, rfl, by simp only [unregister, hf]⟩

theorem register_callbacks (s : SamplePluginImplementation N) (n : N) :
    (s.register n).callbacks = apply s.callbacks (some (.join n)) := by
  by_cases h : n ∈ s.callbacks
  · simp only [register_of_mem h, apply, if_pos h]
  · simp only [register_of_notMem h, apply, if_neg h]
    exact StableList.values_pushBack _ _

theorem unregister_callbacks (s : SamplePluginImplementation N) (n : N) :
    (s.unregister n).callbacks = apply s.callbacks (some (.leave n)) := by
  by_cases h : n ∈ s.callbacks
  · obtain ⟨itr, hf, hu⟩ := unregister_of_mem h
    rw [hu]
    exact StableList.values_erase_find hf
  · simp only [unregister_of_notMem h, apply, List.erase_of_not_mem h]

theorem mem_register {s : SamplePluginImplementation N} {m n : N} :
    m ∈ (s.register n).callbacks ↔ m = n ∨ m ∈ s.callbacks := by
  rw [register_callbacks, apply]
  split
  · next hn =>
    constructor
    · exact Or.inr
    · rintro (rfl | hm)
      · exact hn
      · exact hm
  · simp [or_comm]

theorem mem_unregister {s : SamplePluginImplementation N} (h : s.callbacks.Nodup) {m n : N} :
    m ∈ (s.unregister n).callbacks ↔ m ≠ n ∧ m ∈ s.callbacks := by
  rw [unregister_callbacks, apply, h.mem_erase_iff]

theorem register_refs (s : SamplePluginImplementation N) (n : N) :
    (s.register n).refs = if n ∈ s.callbacks then s.refs else s.refs.addRef n := by
  by_cases h : n ∈ s.callbacks
  · rw [register_of_mem h, if_pos h]
  · rw [register_of_notMem h, if_neg h]

theorem unregister_refs (s : SamplePluginImplementation N) (n : N) :
    (s.unregister n).refs = if n ∈ s.callbacks then s.refs.release n else s.refs := by
  by_cases h : n ∈ s.callbacks
  · obtain ⟨itr, -, hu⟩ := unregister_of_mem h
    rw [hu, if_pos h]
  · rw [unregister_of_notMem h, if_neg h]

@[simp] theorem register_greetings (s : SamplePluginImplementation N) (n : N) :
    (s.register n).greetings = s.greetings := by
  unfold register
  split <;> rfl

@[simp] theorem unregister_greetings (s : SamplePluginImplementation N) (n : N) :
    (s.unregister n).greetings = s.greetings := by
  unfold unregister
  split <;> rfl

theorem register_config (s : SamplePluginImplementation N) (n : N) :
    (s.register n).config = s.config := by
  unfold register
  split <;> rfl

theorem unregister_config (s : SamplePluginImplementation N) (n : N) :
    (s.unregister n).config = s.config := by
  unfold unregister
  split <;> rfl

theorem register_invariant {s : SamplePluginImplementation N} (h : Invariant s) (n : N) :
    Invariant (s.register n) := by
  constructor
  · rw [register_callbacks]
    exact SubscriptionRoster.apply_nodup h.nodup _
  · rw [register_callbacks, register_refs]
    simp only [apply]
    split
    · exact h.refs
    · next hn => exact h.refs.join hn

theorem unregister_invariant {s : SamplePluginImplementation N} (h : Invariant s) (n : N) :
    Invariant (s.unregister n) := by
  constructor
  · rw [unregister_callbacks]
    exact SubscriptionRoster.apply_nodup h.nodup _
  · rw [unregister_callbacks, unregister_refs]
    simp only [apply]
    split
    · next hn => exact h.refs.leave h.nodup hn
    · next hn => rw [List.erase_of_not_mem hn]; exact h.refs

def deliveredTo (notification : N) (delivered : List (N × Source)) : List Source :=
  delivered.filterMap fun d => if d.1 = notification then some d.2 else none

theorem deliveredTo_of_notMem {l : List N} {n : N} (source : Source) (h : n ∉ l) :
    deliveredTo n (l.map fun callback => (callback, source)) = [] := by
  simp only [deliveredTo, List.filterMap_map, List.filterMap_eq_nil_iff]
  intro m hm
  have hne : m ≠ n := fun hmn => h (hmn ▸ hm)
  simp [hne]

theorem deliveredTo_of_mem {l : List N} {n : N} (source : Source) (hn : l.Nodup) (h : n ∈ l) :
    deliveredTo n (l.map fun callback => (callback, source)) = [source] := by
  induction l with
  | nil => exact absurd h List.not_mem_nil
  | cons m l ih =>
    rw [List.nodup_cons] at hn
    by_cases hm : m = n
    · subst hm
      simpa [deliveredTo] using deliveredTo_of_notMem source hn.1
    · have hl : n ∈ l := (List.mem_cons.mp h).resolve_left (Ne.symm hm)
      simpa [deliveredTo, hm] using ih hn.2 hl

end Callbacks

@[simp] theorem configure_callbacks
    (fromString : SamplePluginConfiguration → String → SamplePluginConfiguration)
    (s : SamplePluginImplementation N) (line : String) :
    (s.configure fromString line).callbacks = s.callbacks := by
  simp only [configure]
  split <;> rfl

@[simp] theorem configure_refs
    (fromString : SamplePluginConfiguration → String → SamplePluginConfiguration)
    (s : SamplePluginImplementation N) (line : String) :
    (s.configure fromString line).refs = s.refs := by
  simp only [configure]
  split <;> rfl

/-- Everything Greet can do: two refusals that touch nothing, and one success. -/
theorem greet_cases (distribution : UniformInt) (s : SamplePluginImplementation N)
    (message result : String) :
    (message = "" ∧ s.greet distribution message result =
      .ok (⟨.errorBadRequest, result, []⟩, s)) ∨
    (message ≠ "" ∧ s.greetings = [] ∧ s.greet distribution message result =
      .ok (⟨.errorIncompleteConfig, result, []⟩, s)) ∨
    (message ≠ "" ∧ ∃ greeting, s.greetings[distribution.draw 0 (s.greetings.length - 1)]? =
        some greeting ∧ s.greet distribution message result =
      .ok (⟨.errorNone, greeting ++ ", " ++ message,
        s.raiseSomethingHappenedNotification .excitingThingHappened⟩,
        { s with draws := s.draws + 1 })) := by
  by_cases hm : message = ""
  · exact Or.inl ⟨hm, by simp [greet, hm]⟩
  by_cases hg : s.greetings = []
  · exact Or.inr (Or.inl ⟨hm, hg, by simp [greet, hm, hg]⟩)
  have hlen : s.greetings.length ≠ 0 := by simpa using hg
  have hlast := (distribution.within 0 (s.greetings.length - 1) (Nat.zero_le _)).2
  have hlt : distribution.draw 0 (s.greetings.length - 1) < s.greetings.length := by omega
  refine Or.inr (Or.inr ⟨hm, _, List.getElem?_eq_getElem hlt, ?_⟩)
  simp only [greet, if_neg hm, hlen, ne_eq, not_false_eq_true, if_true, sizeMinusOne, if_false,
    greetingAt, bind, Except.bind, List.getElem?_eq_getElem hlt]
  rfl

theorem greet_frame {distribution : UniformInt} {s p : SamplePluginImplementation N}
    {message result : String} {reply : Reply N}
    (h : s.greet distribution message result = .ok (reply, p)) :
    p.notificationCallbacks = s.notificationCallbacks ∧ p.refs = s.refs ∧
      p.greetings = s.greetings := by
  rcases greet_cases distribution s message result with
    ⟨-, hg⟩ | ⟨-, -, hg⟩ | ⟨-, greeting, -, hg⟩ <;> rw [hg] at h <;> cases h <;>
    exact ⟨rfl, rfl, rfl⟩

section Histories
variable [DecidableEq N]
variable (fromString : SamplePluginConfiguration → String → SamplePluginConfiguration)

/-- No request meets a fault, and each one does to the callback list what the view says. -/
theorem serve_spec (s : SamplePluginImplementation N) (q : Request N) :
    ∃ reply s', s.serve fromString q = .ok (reply, s') ∧
      s'.callbacks = apply s.callbacks (view q) ∧ (Invariant s → Invariant s') := by
  cases q with
  | configure line =>
    exact ⟨_, _, rfl, configure_callbacks _ _ _, fun h => ⟨by simpa using h.nodup,
      by simpa using h.refs⟩⟩
  | greet distribution message result =>
    rcases greet_cases distribution s message result with
      ⟨-, h⟩ | ⟨-, -, h⟩ | ⟨-, greeting, -, h⟩
    · exact ⟨_, _, h, rfl, id⟩
    · exact ⟨_, _, h, rfl, id⟩
    · exact ⟨_, _, h, rfl, fun hs => ⟨hs.nodup, hs.refs⟩⟩
  | echo message result => exact ⟨_, _, rfl, rfl, id⟩
  | register n => exact ⟨_, _, rfl, register_callbacks s n, fun h => register_invariant h n⟩
  | unregister n => exact ⟨_, _, rfl, unregister_callbacks s n, fun h => unregister_invariant h n⟩

theorem serveAll_cons {s s' : SamplePluginImplementation N} {q : Request N} {reply : Reply N}
    (h : s.serve fromString q = .ok (reply, s')) (qs : List (Request N)) :
    s.serveAll fromString (q :: qs) =
      (s'.serveAll fromString qs).map fun r => (reply :: r.1, r.2) := by
  simp only [serveAll, h, bind, Except.bind, Except.map]

theorem serveAll_spec (s : SamplePluginImplementation N) (h : List (Request N)) :
    ∃ replies s', s.serveAll fromString h = .ok (replies, s') ∧
      s'.callbacks = h.foldl (fun l q => apply l (view q)) s.callbacks ∧
      (Invariant s → Invariant s') := by
  induction h generalizing s with
  | nil => exact ⟨_, _, rfl, rfl, id⟩
  | cons q qs ih =>
    obtain ⟨reply, s₁, hq, hc, hi⟩ := serve_spec fromString s q
    obtain ⟨replies, s₂, hqs, hcs, his⟩ := ih s₁
    refine ⟨reply :: replies, s₂, ?_, ?_, fun hs => his (hi hs)⟩
    · rw [serveAll_cons fromString hq, hqs]
      rfl
    · rw [hcs, hc, List.foldl_cons]

/-- From a fresh object the callback list is the roster of the requests served so far. -/
theorem serveAll_roster (h : List (Request N)) :
    ∃ replies s, initial.serveAll fromString h = .ok (replies, s) ∧
      s.callbacks = roster view h ∧ Invariant s := by
  obtain ⟨replies, s, hs, hc, hi⟩ := serveAll_spec fromString (initial (N := N)) h
  exact ⟨replies, s, hs, hc, hi initial_invariant⟩

/-- The callback list holds those whose last move is a Register, once each and in the
order their present registrations began, with one reference on each of them. -/
theorem callback_list_follows_history (h : List (Request N)) (k : ℕ) :
    ∃ replies s, initial.serveAll fromString (h.take k) = .ok (replies, s) ∧
      s.callbacks.Nodup ∧
      (∀ n, n ∈ s.callbacks ↔ LastIsJoin view (h.take k) n) ∧
      s.callbacks.Pairwise (fun a b => ∀ i j, JoinedAt view (h.take k) a i →
        JoinedAt view (h.take k) b j → i < j) ∧
      ∀ n, s.refs.balance n = if n ∈ s.callbacks then 1 else 0 := by
  obtain ⟨replies, s, hs, hc, hi⟩ := serveAll_roster fromString (h.take k)
  refine ⟨replies, s, hs, hi.nodup, ?_, ?_, hi.refs⟩
  · intro n
    rw [hc]
    exact SubscriptionRoster.mem_roster
  · rw [hc]
    exact SubscriptionRoster.roster_ordered (h.take k)

end Histories

end SamplePluginImplementation
