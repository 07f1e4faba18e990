import SampleThunderPlugin.ReferenceLedger
import SampleThunderPlugin.SamplePluginImplementation

/-! The benchmark's COM-RPC fixture: one link that every run opens in SetUp and closes in
TearDown, and the references that the iterations in between get from it. What the calls on
the link answer is given with each run; error codes are Thunder's, 0 for ERROR_NONE. -/

structure ComRpcFixture where
  linkOpen : Bool
  deriving DecidableEq, Repr

namespace ComRpcFixture

structure Echo where
  message : String
  isOperational : Bool
  /-- Whether Interface() returns a reference, and not null. -/
  interface : Bool
  success : UInt32
  deriving DecidableEq, Repr

structure Benchmark where
  /-- What Open returns. -/
  success : UInt32
  echoes : List Echo
  deriving DecidableEq, Repr

structure State where
  fixture : ComRpcFixture
  /-- Close calls so far. -/
  closes : ℕ
  held : ReferenceLedger ℕ
  /-- References from Interface() so far, the next one's number. -/
  issued : ℕ
  /-- The messages that Echo was called with. -/
  sent : List String
  skipped : List String

def fresh : State := ⟨⟨false⟩, 0, .empty, 0, [], []⟩

def State.skipWithError (s : State) (error : String) : State :=
  { s with skipped := s.skipped ++ [error] }

/-- Interface()->Echo(msg, result): the reference is used and not kept. -/
def State.interfaceEcho (message : String) (s : State) : State :=
  { s with held := s.held.addRef s.issued, issued := s.issued + 1, sent := s.sent ++ [message] }

section Functions
variable (errorToString : UInt32 → String)

def setUp (success : UInt32) (s : State) : State :=
  if success ≠ 0 then
    s.skipWithError ("Failed to establish connection with Thunder with error " ++
      errorToString success)
  else { s with fixture := ⟨true⟩ }

/-- The flag stays as it is. -/
def tearDown (s : State) : State :=
  if s.fixture.linkOpen then { s with closes := s.closes + 1 } else s

def echoError (success : UInt32) : String :=
  "COM-RPC returned error " ++ toString success.toNat ++ " (" ++ errorToString success ++ ")"

def doEcho (e : Echo) (s : State) : Except Fault State :=
  if e.isOperational then
    if e.interface then
      let s := s.interfaceEcho e.message
      if e.success ≠ 0 then .ok (s.skipWithError (echoError errorToString e.success)) else .ok s
    else .error .nullPointer
  else .ok (s.skipWithError "SamplePlugin not operational")

def doEchoes (s : State) : List Echo → Except Fault State
  | [] => .ok s
  | e :: es => do
    let s ← doEcho errorToString e s
    doEchoes s es

def benchmark (b : Benchmark) (s : State) : Except Fault State := do
  let s ← doEchoes errorToString (setUp errorToString b.success s) b.echoes
  .ok (tearDown s)

/-- After each TearDown: in its run Close was called once if Open succeeded and else not, and
no reference obtained so far is left. -/
def Balanced (s : State) : List Benchmark → Prop
  | [] => True
  | b :: bs => ∀ s', benchmark errorToString b s = .ok s' →
      (s'.closes = s.closes + if b.success = 0 then 1 else 0) ∧
      (∀ r, s'.held.balance r = 0) ∧ Balanced s' bs

end Functions

def Benchmark.Completes (b : Benchmark) : Prop :=
  ∀ e ∈ b.echoes, e.isOperational = true → e.interface = true

/-- As far as the runs complete: no Open fails once one has succeeded, and no iteration
finds the link operational. -/
def Undemanding (opened : Bool) : List Benchmark → Prop
  | [] => True
  | b :: bs => b.Completes →
      (opened = true → b.success = 0) ∧ (∀ e ∈ b.echoes, e.isOperational = false) ∧
      Undemanding (opened || b.success = 0) bs

def Unreleased (s : State) : Prop := ∀ r, s.held.balance r = if r < s.issued then 1 else 0

theorem all_released_iff {s : State} (h : Unreleased s) :
    (∀ r, s.held.balance r = 0) ↔ s.issued = 0 := by
  constructor
  · intro hall
    have h₀ := h 0
    rw [hall 0] at h₀
    by_contra hn
    rw [if_pos (by omega)] at h₀
    omega
  · intro hi r
    rw [h r, hi, if_neg (by omega)]

theorem interfaceEcho_unreleased {s : State} (h : Unreleased s) (message : String) :
    Unreleased (s.interfaceEcho message) := by
  intro r
  have hs := h r
  by_cases hi : r = s.issued
  · subst hi
    simp [State.interfaceEcho, hs]
  · have hlt : r < s.issued + 1 ↔ r < s.issued := by omega
    simp [State.interfaceEcho, hi, hs, hlt]

section Results
variable (errorToString : UInt32 → String)

theorem doEcho_spec {s : State} (h : Unreleased s) {e : Echo}
    (he : e.isOperational = true → e.interface = true) :
    ∃ s', doEcho errorToString e s = .ok s' ∧ Unreleased s' ∧ s'.fixture = s.fixture ∧
      s'.closes = s.closes ∧ s'.issued = s.issued + if e.isOperational then 1 else 0 := by
  cases ho : e.isOperational with
  | false =>
    refine ⟨s.skipWithError "SamplePlugin not operational", ?_, h, rfl, rfl, rfl⟩
    simp [doEcho, ho]
  | true =>
    have hr := interfaceEcho_unreleased h e.message
    have hi := he ho
    by_cases hc : e.success = 0
    · refine ⟨s.interfaceEcho e.message, ?_, hr, rfl, rfl, rfl⟩
      simp [doEcho, ho, hi, hc]
    · refine ⟨(s.interfaceEcho e.message).skipWithError (echoError errorToString e.success), ?_,
        hr, rfl, rfl, rfl⟩
      simp [doEcho, ho, hi, hc]

theorem doEchoes_spec {s : State} (h : Unreleased s) {es : List Echo}
    (hes : ∀ e ∈ es, e.isOperational = true → e.interface = true) :
    ∃ s', doEchoes errorToString s es = .ok s' ∧ Unreleased s' ∧ s'.fixture = s.fixture ∧
      s'.closes = s.closes ∧ s'.issued = s.issued + es.countP (·.isOperational) := by
  induction es generalizing s with
  | nil => exact ⟨s, rfl, h, rfl, rfl, rfl⟩
  | cons e es ih =>
    obtain ⟨s₁, h₁, hr₁, hf₁, hc₁, hi₁⟩ := doEcho_spec errorToString h (hes e (by simp))
    obtain ⟨s₂, h₂, hr₂, hf₂, hc₂, hi₂⟩ := ih hr₁ fun e he => hes e (by simp [he])
    refine ⟨s₂, ?_, hr₂, hf₂.trans hf₁, hc₂.trans hc₁, ?_⟩
    · simp only [doEchoes, h₁, bind, Except.bind, h₂]
    · rw [hi₂, hi₁, List.countP_cons]
      omega

theorem doEchoes_null {s : State} {es : List Echo} {e : Echo} (he : e ∈ es)
    (ho : e.isOperational = true) (hn : e.interface = false) :
    ∃ fault, doEchoes errorToString s es = .error fault := by
  induction es generalizing s with
  | nil => cases he
  | cons d es ih =>
    cases hd : doEcho errorToString d s with
    | error fault => exact ⟨fault, by simp only [doEchoes, hd, bind, Except.bind]⟩
    | ok s' =>
      rcases List.mem_cons.mp he with rfl | he
      · simp [doEcho, ho, hn] at hd
      · obtain ⟨fault, hf⟩ := ih (s := s') he
        exact ⟨fault, by simp only [doEchoes, hd, bind, Except.bind, hf]⟩

theorem setUp_spec (success : UInt32) (s : State) :
    (setUp errorToString success s).fixture.linkOpen =
        (s.fixture.linkOpen || decide (success = 0)) ∧
      (setUp errorToString success s).closes = s.closes ∧
      (setUp errorToString success s).held = s.held ∧
      (setUp errorToString success s).issued = s.issued := by
  by_cases h : success = 0 <;> simp [setUp, h, State.skipWithError]

theorem tearDown_spec (s : State) :
    (tearDown s).fixture = s.fixture ∧
      (tearDown s).closes = (s.closes + if s.fixture.linkOpen then 1 else 0) ∧
      (tearDown s).held = s.held ∧ (tearDown s).issued = s.issued := by
  by_cases h : s.fixture.linkOpen = true <;> simp [tearDown, h]

theorem benchmark_spec {s : State} (h : Unreleased s) {b : Benchmark} (hb : b.Completes) :
    ∃ s', benchmark errorToString b s = .ok s' ∧ Unreleased s' ∧
      s'.fixture.linkOpen = (s.fixture.linkOpen || decide (b.success = 0)) ∧
      s'.closes = (s.closes + if s'.fixture.linkOpen then 1 else 0) ∧
      s'.issued = s.issued + b.echoes.countP (·.isOperational) := by
  obtain ⟨hopen, hcloses, hheld, hissued⟩ := setUp_spec errorToString b.success s
  have hset : Unreleased (setUp errorToString b.success s) := by
    intro r
    rw [hheld, hissued, h r]
  obtain ⟨s₁, h₁, hr, hf, hc, hi⟩ := doEchoes_spec errorToString hset hb
  obtain ⟨hflag, hclosed, hkept, hcount⟩ := tearDown_spec s₁
  refine ⟨tearDown s₁, ?_, ?_, ?_, ?_, ?_⟩
  · simp only [benchmark, h₁, bind, Except.bind]
  · intro r
    rw [hkept, hcount, hr r]
  · rw [hflag, hf, hopen]
  · rw [hclosed, hflag, hc, hcloses]
  · rw [hcount, hi, hissued]

theorem benchmark_null {s s' : State} {b : Benchmark} (h : benchmark errorToString b s = .ok s') :
    b.Completes := by
  intro e he ho
  by_contra hn
  obtain ⟨fault, hf⟩ := doEchoes_null errorToString (s := setUp errorToString b.success s) he ho
    (by simpa using hn)
  simp [benchmark, hf, bind, Except.bind] at h

theorem balanced_iff_of {s : State} (h : Unreleased s) (hs : s.issued = 0) (bs : List Benchmark) :
    Balanced errorToString s bs ↔ Undemanding s.fixture.linkOpen bs := by
  induction bs generalizing s with
  | nil => exact Iff.rfl
  | cons b bs ih =>
    constructor
    · intro hbal hb
      obtain ⟨s₁, hrun, hr, hopen, hcloses, hissued⟩ := benchmark_spec errorToString h hb
      obtain ⟨hone, hnone, hrest⟩ := hbal s₁ hrun
      have hi := (all_released_iff hr).mp hnone
      refine ⟨?_, ?_, ?_⟩
      · intro hl
        by_contra hne
        rw [hopen, hl] at hcloses
        simp [hne] at hone hcloses
        omega
      · have hcount : b.echoes.countP (·.isOperational) = 0 := by omega
        simpa [List.countP_eq_zero] using hcount
      · rw [← hopen]
        exact (ih hr hi).mp hrest
    · intro hund s₁ hrun
      have hb := benchmark_null errorToString hrun
      obtain ⟨hfail, hdown, hrest⟩ := hund hb
      obtain ⟨s₂, hrun₂, hr, hopen, hcloses, hissued⟩ := benchmark_spec errorToString h hb
      obtain rfl : s₁ = s₂ := Except.ok.inj (hrun.symm.trans hrun₂)
      have hcount : b.echoes.countP (·.isOperational) = 0 := by
        rw [List.countP_eq_zero]
        exact fun e he => by simp [hdown e he]
      have hi : s₁.issued = 0 := by omega
      refine ⟨?_, (all_released_iff hr).mpr hi, (ih hr hi).mpr (hopen ▸ hrest)⟩
      rw [hcloses, hopen]
      by_cases hz : b.success = 0
      · simp [hz]
      · have hl : s.fixture.linkOpen = false := by
          by_contra hl
          exact hz (hfail (by simpa using hl))
        simp [hz, hl]

/-- The benchmark runs that leave nothing open, nothing closed twice and nothing held are
those in which no Open fails after one that succeeded and no iteration gets to Interface(). -/
theorem balanced_iff (bs : List Benchmark) :
    Balanced errorToString fresh bs ↔ Undemanding false bs :=
  balanced_iff_of errorToString (s := fresh) (fun _ => by simp [fresh]) rfl bs

end Results

/-- A run that opens, then one that does not: the second TearDown closes as well. -/
theorem failed_open_is_closed :
    ¬ ∀ (errorToString : UInt32 → String) (bs : List Benchmark),
      Balanced errorToString fresh bs := by
  intro hclaim
  have hbal := hclaim (fun _ => "") [⟨0, []⟩, ⟨1, []⟩]
  have hsecond := (hbal _ rfl).2.2 _ rfl
  exact absurd hsecond.1 (by decide)

end ComRpcFixture
