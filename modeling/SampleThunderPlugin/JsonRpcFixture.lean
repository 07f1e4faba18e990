import SampleThunderPlugin.SamplePluginImplementation

/-! The benchmark's JSON-RPC fixture: every SetUp replaces the link of the run before by a new
one, and nothing is undone in TearDown. Links go by the order of their construction; what
Invoke returns is given with each iteration, 0 for ERROR_NONE. -/

structure JsonRpcFixture where
  remoteObject : Option ℕ
  deriving DecidableEq, Repr

namespace JsonRpcFixture

inductive Call where
  | construct (link : ℕ) (remoteCallsign localCallsign : String)
  | destroy (link : ℕ)
  | invoke (link : ℕ) (waitTime : ℕ) (method data : String)
  deriving DecidableEq, Repr

structure Echo where
  message : String
  success : UInt32
  deriving DecidableEq, Repr

structure State where
  fixture : JsonRpcFixture
  /-- Links constructed so far, the next one's number. -/
  constructed : ℕ
  calls : List Call
  skipped : List String

def fresh : State := ⟨⟨none⟩, 0, [], []⟩

/-- The new link is there before the old one is destroyed. -/
def setUp (s : State) : State :=
  { s with
    fixture := ⟨some s.constructed⟩
    constructed := s.constructed + 1
    calls := s.calls ++ .construct s.constructed "SamplePlugin.1" "" ::
      (s.fixture.remoteObject.map .destroy).toList }

def tearDown (s : State) : State := s

section Functions
variable (errorToString : UInt32 → String)

def echoError (success : UInt32) : String :=
  "JSON-RPC returned error " ++ toString success.toNat ++ " (" ++ errorToString success ++ ")"

def doEcho (e : Echo) (s : State) : Except Fault State :=
  match s.fixture.remoteObject with
  | some link =>
    let s := { s with calls := s.calls ++ [.invoke link 5000 "echo" e.message] }
    if e.success ≠ 0 then
      .ok { s with skipped := s.skipped ++ [echoError errorToString e.success] }
    else .ok s
  | none => .error .nullPointer

def doEchoes (s : State) : List Echo → Except Fault State
  | [] => .ok s
  | e :: es => do
    let s ← doEcho errorToString e s
    doEchoes s es

def benchmarks (s : State) : List (List Echo) → Except Fault State
  | [] => .ok s
  | b :: bs => do
    let s ← doEchoes errorToString (setUp s) b
    benchmarks (tearDown s) bs

/-- ~JsonRpcFixture, which the compiler writes. -/
def destroyFixture (s : State) : State :=
  { s with
    fixture := ⟨none⟩
    calls := s.calls ++ (s.fixture.remoteObject.map .destroy).toList }

end Functions

def liveAfter (live : List ℕ) : List Call → List ℕ
  | [] => live
  | .construct link _ _ :: cs => liveAfter (live ++ [link]) cs
  | .destroy link :: cs => liveAfter (live.erase link) cs
  | .invoke _ _ _ _ :: cs => liveAfter live cs

/-- Only a link that is there is called or destroyed, and none is constructed over it. -/
def Lawful (live : List ℕ) : List Call → Prop
  | [] => True
  | .construct link _ _ :: cs => link ∉ live ∧ Lawful (live ++ [link]) cs
  | .destroy link :: cs => link ∈ live ∧ Lawful (live.erase link) cs
  | .invoke link _ _ _ :: cs => link ∈ live ∧ Lawful live cs

def invokes (link : ℕ) (b : List Echo) : List Call :=
  b.map fun e => .invoke link 5000 "echo" e.message

def destroyed (cs : List Call) : List ℕ :=
  cs.filterMap fun c =>
    match c with
    | .destroy link => some link
    | _ => none

def latest : ℕ → Option ℕ
  | 0 => none
  | k + 1 => some k

def callsFrom (k : ℕ) : List (List Echo) → List Call
  | [] => []
  | b :: bs => .construct k "SamplePlugin.1" "" :: ((latest k).map .destroy).toList ++
      invokes k b ++ callsFrom (k + 1) bs

theorem liveAfter_append (live : List ℕ) (cs ds : List Call) :
    liveAfter live (cs ++ ds) = liveAfter (liveAfter live cs) ds := by
  induction cs generalizing live with
  | nil => rfl
  | cons c cs ih => cases c <;> exact ih _

theorem lawful_append {live : List ℕ} {cs ds : List Call} :
    Lawful live (cs ++ ds) ↔ Lawful live cs ∧ Lawful (liveAfter live cs) ds := by
  induction cs generalizing live with
  | nil => simp [Lawful, liveAfter]
  | cons c cs ih => cases c <;> simp [Lawful, liveAfter, ih, and_assoc]

theorem liveAfter_invokes (live : List ℕ) (link : ℕ) (b : List Echo) :
    liveAfter live (invokes link b) = live := by
  induction b with
  | nil => rfl
  | cons e es ih => exact ih

theorem lawful_invokes {live : List ℕ} {link : ℕ} (h : link ∈ live) (b : List Echo) :
    Lawful live (invokes link b) := by
  induction b with
  | nil => trivial
  | cons e es ih => exact ⟨h, ih⟩

theorem lawful_callsFrom (k : ℕ) (bs : List (List Echo)) :
    Lawful (latest k).toList (callsFrom k bs) ∧
      liveAfter (latest k).toList (callsFrom k bs) = (latest (k + bs.length)).toList := by
  induction bs generalizing k with
  | nil => exact ⟨trivial, rfl⟩
  | cons b bs ih =>
    obtain ⟨hlawful, hlive⟩ := ih (k + 1)
    have hinvokes : Lawful (latest (k + 1)).toList (invokes k b) :=
      lawful_invokes (by simp [latest]) b
    have hnext := liveAfter_invokes (latest (k + 1)).toList k b
    have hlength : k + (b :: bs).length = k + 1 + bs.length := by
      simp only [List.length_cons]
      omega
    rw [hlength]
    cases k with
    | zero =>
      simp only [latest, Option.toList] at hinvokes hnext hlawful hlive ⊢
      simp only [callsFrom, latest, Option.map, Option.toList, List.cons_append, List.nil_append,
        Lawful, liveAfter, lawful_append, liveAfter_append, hnext]
      exact ⟨⟨List.not_mem_nil, hinvokes, hlawful⟩, hlive⟩
    | succ k =>
      have hold : [k, k + 1].erase k = [k + 1] := by simp
      simp only [latest, Option.toList] at hinvokes hnext hlawful hlive ⊢
      simp only [callsFrom, latest, Option.map, Option.toList, List.cons_append, List.nil_append,
        Lawful, liveAfter, lawful_append, liveAfter_append, hold, hnext]
      exact ⟨⟨by simp, by simp, hinvokes, hlawful⟩, hlive⟩

theorem destroyed_append (cs ds : List Call) :
    destroyed (cs ++ ds) = destroyed cs ++ destroyed ds := List.filterMap_append

theorem destroyed_invokes (link : ℕ) (b : List Echo) : destroyed (invokes link b) = [] := by
  simp [destroyed, invokes]

theorem destroyed_latest (k : ℕ) :
    destroyed ((latest k).map Call.destroy).toList = (latest k).toList := by
  cases k <;> rfl

theorem destroyed_callsFrom (k : ℕ) (bs : List (List Echo)) :
    destroyed (callsFrom k bs) ++ (latest (k + bs.length)).toList =
      (latest k).toList ++ List.range' k bs.length := by
  induction bs generalizing k with
  | nil => simp [callsFrom, destroyed]
  | cons b bs ih =>
    have hnext := ih (k + 1)
    have hlength : k + (b :: bs).length = k + 1 + bs.length := by
      simp only [List.length_cons]
      omega
    have hcons : destroyed (callsFrom k (b :: bs)) =
        (latest k).toList ++ destroyed (callsFrom (k + 1) bs) := by
      have hcalls : callsFrom k (b :: bs) = [Call.construct k "SamplePlugin.1" ""] ++
          (((latest k).map Call.destroy).toList ++ (invokes k b ++ callsFrom (k + 1) bs)) := by
        simp [callsFrom]
      rw [hcalls, destroyed_append, destroyed_append, destroyed_append, destroyed_invokes,
        destroyed_latest]
      rfl
    rw [hlength, hcons, List.append_assoc, hnext, List.length_cons, List.range'_succ]
    rfl

section Results
variable (errorToString : UInt32 → String)

def failures (b : List Echo) : List String :=
  b.filterMap fun e => if e.success ≠ 0 then some (echoError errorToString e.success) else none

theorem doEchoes_spec {s : State} {link : ℕ} (h : s.fixture.remoteObject = some link)
    (b : List Echo) : doEchoes errorToString s b =
      .ok { s with
        calls := s.calls ++ invokes link b
        skipped := s.skipped ++ failures errorToString b } := by
  induction b generalizing s with
  | nil => simp [doEchoes, invokes, failures]
  | cons e es ih =>
    by_cases he : e.success = 0
    · have hone : doEcho errorToString e s = .ok
          { s with calls := s.calls ++ [.invoke link 5000 "echo" e.message] } := by
        simp [doEcho, h, he]
      simp only [doEchoes, hone, bind, Except.bind]
      refine (ih ?_).trans ?_
      · exact h
      · simp [invokes, failures, he]
    · have hone : doEcho errorToString e s = .ok
          { s with
            calls := s.calls ++ [.invoke link 5000 "echo" e.message]
            skipped := s.skipped ++ [echoError errorToString e.success] } := by
        simp [doEcho, h, he]
      simp only [doEchoes, hone, bind, Except.bind]
      refine (ih ?_).trans ?_
      · exact h
      · simp [invokes, failures, he]

theorem benchmarks_spec {s : State} (h : s.fixture.remoteObject = latest s.constructed)
    (bs : List (List Echo)) : benchmarks errorToString s bs =
      .ok {
        fixture := ⟨latest (s.constructed + bs.length)⟩
        constructed := s.constructed + bs.length
        calls := s.calls ++ callsFrom s.constructed bs
        skipped := s.skipped ++ failures errorToString bs.flatten } := by
  induction bs generalizing s with
  | nil =>
    obtain ⟨⟨remoteObject⟩, constructed, calls, skipped⟩ := s
    obtain rfl : remoteObject = latest constructed := h
    simp [benchmarks, callsFrom, failures]
  | cons b bs ih =>
    have hechoes :=
      doEchoes_spec errorToString (s := setUp s) (show _ = some s.constructed from rfl) b
    simp only [benchmarks, hechoes, bind, Except.bind, tearDown]
    rw [ih rfl]
    simp only [setUp, h, callsFrom, failures, List.length_cons, List.flatten_cons,
      List.filterMap_append, List.append_assoc, List.cons_append]
    simp only [Nat.add_assoc, Nat.add_comm 1]

/-- However many benchmarks run, with whatever outcome of each Invoke: nothing goes through
null; each iteration calls the link that its own SetUp constructed; a link is called and
destroyed only while it is there, one at a time is left between two benchmarks, and the
destructor leaves none, each destroyed once and in the order of construction; and the
benchmark is skipped with the text of every error and with no other. -/
theorem benchmarks_own_their_links (bs : List (List Echo)) :
    ∃ s, benchmarks errorToString fresh bs = .ok s ∧
      s.calls = callsFrom 0 bs ∧ s.skipped = failures errorToString bs.flatten ∧
      liveAfter [] s.calls = (latest bs.length).toList ∧
      Lawful [] (destroyFixture s).calls ∧ liveAfter [] (destroyFixture s).calls = [] ∧
      destroyed (destroyFixture s).calls = List.range bs.length := by
  have hspec := benchmarks_spec errorToString (s := fresh) rfl bs
  obtain ⟨hlawful, hlive⟩ := lawful_callsFrom 0 bs
  have hdestroyed := destroyed_callsFrom 0 bs
  simp only [fresh, Nat.zero_add, List.nil_append] at hspec hlive hdestroyed
  refine ⟨_, hspec, rfl, rfl, hlive, ?_, ?_, ?_⟩
  · simp only [destroyFixture, lawful_append]
    refine ⟨hlawful, ?_⟩
    change Lawful (liveAfter (latest 0).toList _) _
    rw [hlive]
    cases bs.length <;> simp [latest, Lawful]
  · simp only [destroyFixture, liveAfter_append]
    change liveAfter (liveAfter (latest 0).toList _) _ = _
    rw [hlive]
    cases bs.length <;> simp [latest, liveAfter]
  · simp only [destroyFixture, destroyed_append, destroyed_latest]
    rw [hdestroyed, List.range_eq_range']
    rfl

end Results

end JsonRpcFixture
