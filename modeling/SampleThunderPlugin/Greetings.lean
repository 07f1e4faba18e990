import SampleThunderPlugin.SamplePluginImplementation

/-! The greetings that Greet can choose from, over any history of requests, and what Greet
does with them. Configure appends the array of its line to the greetings that are there. -/
namespace Greetings

open SamplePluginImplementation (Request Reply deliveredTo)

def arrayOf (config : SamplePluginConfiguration) : Option (List String) :=
  if config.greetings.isSet && !config.greetings.isNull then some config.greetings.elements
  else none

variable {N : Type}
variable (fromString : SamplePluginConfiguration → String → SamplePluginConfiguration)

def configAfter (config : SamplePluginConfiguration) : Request N → SamplePluginConfiguration
  | .configure line => fromString config line
  | _ => config

def arrayNow (config : SamplePluginConfiguration) : Request N → Option (List String)
  | .configure line => arrayOf (fromString config line)
  | _ => none

def arraysSet (config : SamplePluginConfiguration) : List (Request N) → List (List String)
  | [] => []
  | q :: qs =>
    (arrayNow fromString config q).toList ++ arraysSet (configAfter fromString config q) qs

def configured (h : List (Request N)) : List String := (arraysSet fromString .default h).flatten

theorem configure_greetings (s : SamplePluginImplementation N) (line : String) :
    (s.configure fromString line).greetings =
      s.greetings ++ ((arrayOf (fromString s.config line)).toList).flatten ∧
    (s.configure fromString line).config = fromString s.config line := by
  unfold SamplePluginImplementation.configure arrayOf
  simp only
  split <;> simp

theorem greet_reaches {s : SamplePluginImplementation N} {greeting message : String}
    (hm : message ≠ "") (hg : greeting ∈ s.greetings) (result : String) :
    ∃ distribution reply s', s.greet distribution message result = .ok (reply, s') ∧
      reply.code = .errorNone ∧ reply.result = greeting ++ ", " ++ message := by
  obtain ⟨k, hk, rfl⟩ := List.getElem_of_mem hg
  refine ⟨.favouring k, ?_⟩
  have hdraw : (UniformInt.favouring k).draw 0 (s.greetings.length - 1) = k := by
    simp only [UniformInt.favouring]
    omega
  rcases SamplePluginImplementation.greet_cases (.favouring k) s message result with
    ⟨he, -⟩ | ⟨-, hnone, -⟩ | ⟨-, greeting, hgreeting, hok⟩
  · exact absurd he hm
  · rw [hnone] at hk
    exact absurd hk (Nat.not_lt_zero k)
  · rw [hdraw, List.getElem?_eq_getElem hk] at hgreeting
    obtain rfl := Option.some.inj hgreeting
    exact ⟨_, _, hok, rfl, rfl⟩

section Histories
variable [DecidableEq N]

theorem serve_greetings {s s' : SamplePluginImplementation N} {q : Request N} {reply : Reply N}
    (h : s.serve fromString q = .ok (reply, s')) :
    s'.config = configAfter fromString s.config q ∧
      s'.greetings = s.greetings ++ ((arrayNow fromString s.config q).toList).flatten := by
  cases q with
  | configure line =>
    cases h
    exact ⟨(configure_greetings fromString s line).2, (configure_greetings fromString s line).1⟩
  | greet distribution message result =>
    rcases SamplePluginImplementation.greet_cases distribution s message result with
      ⟨-, hg⟩ | ⟨-, -, hg⟩ | ⟨-, greeting, -, hg⟩ <;>
      obtain ⟨rfl, rfl⟩ := Prod.mk.inj (Except.ok.inj (hg.symm.trans h)) <;>
      exact ⟨rfl, by simp [arrayNow]⟩
  | echo message result =>
    cases h
    exact ⟨rfl, by simp [arrayNow]⟩
  | register n =>
    cases h
    exact ⟨SamplePluginImplementation.register_config s n, by simp [arrayNow]⟩
  | unregister n =>
    cases h
    exact ⟨SamplePluginImplementation.unregister_config s n, by simp [arrayNow]⟩

theorem serveAll_greetings {s s' : SamplePluginImplementation N} {h : List (Request N)}
    {replies : List (Reply N)} (hs : s.serveAll fromString h = .ok (replies, s')) :
    s'.greetings = s.greetings ++ (arraysSet fromString s.config h).flatten := by
  induction h generalizing s replies with
  | nil =>
    cases hs
    simp [arraysSet]
  | cons q qs ih =>
    obtain ⟨reply, s₁, hq, -, -⟩ := SamplePluginImplementation.serve_spec fromString s q
    obtain ⟨rest, s₂, hqs, -, -⟩ := SamplePluginImplementation.serveAll_spec fromString s₁ qs
    rw [SamplePluginImplementation.serveAll_cons fromString hq, hqs] at hs
    obtain ⟨-, rfl⟩ := Prod.mk.inj (Except.ok.inj hs)
    obtain ⟨hconfig, hgreetings⟩ := serve_greetings fromString hq
    rw [ih hqs, hgreetings, hconfig, arraysSet, List.flatten_append, List.append_assoc]

theorem greetings_configured (h : List (Request N)) :
    ∃ replies s, SamplePluginImplementation.initial.serveAll fromString h = .ok (replies, s) ∧
      s.greetings = configured fromString h ∧ s.Invariant := by
  obtain ⟨replies, s, hs, -, hi⟩ := SamplePluginImplementation.serveAll_roster fromString h
  exact ⟨replies, s, hs, serveAll_greetings fromString hs, hi⟩

/-- Whatever was configured and whatever is drawn, Greet meets no fault. It succeeds exactly
for a message and with a greeting configured; then it answers with one of the greetings and
every callback hears one event. Otherwise its code tells which of the two is missing and
everything is as it was. Every greeting is the answer for some draw. -/
theorem greet_contract (h : List (Request N)) :
    ∃ replies s, SamplePluginImplementation.initial.serveAll fromString h = .ok (replies, s) ∧
      (∀ distribution message result, ∃ reply s',
        s.greet distribution message result = .ok (reply, s') ∧
        (reply.code = .errorNone ↔ message ≠ "" ∧ configured fromString h ≠ []) ∧
        (reply.code = .errorNone →
          (∃ greeting ∈ configured fromString h, reply.result = greeting ++ ", " ++ message) ∧
          ∀ n, (deliveredTo n reply.delivered).length = if n ∈ s.callbacks then 1 else 0) ∧
        (reply.code ≠ .errorNone →
          reply.code = (if message = "" then .errorBadRequest else .errorIncompleteConfig) ∧
          reply.result = result ∧ reply.delivered = [] ∧ s' = s)) ∧
      ∀ message result, message ≠ "" → ∀ greeting ∈ configured fromString h,
        ∃ distribution reply s', s.greet distribution message result = .ok (reply, s') ∧
          reply.code = .errorNone ∧ reply.result = greeting ++ ", " ++ message := by
  obtain ⟨replies, s, hs, hconfigured, hinv⟩ := greetings_configured fromString h
  refine ⟨replies, s, hs, ?_, ?_⟩
  · intro distribution message result
    rcases SamplePluginImplementation.greet_cases distribution s message result with
      ⟨hm, hg⟩ | ⟨hm, hnone, hg⟩ | ⟨hm, greeting, hgreeting, hg⟩
    · refine ⟨_, _, hg, by simp [hm], by simp, ?_⟩
      intro _
      exact ⟨by simp [hm], rfl, rfl, rfl⟩
    · refine ⟨_, _, hg, by simp [← hconfigured, hnone], by simp, ?_⟩
      intro _
      exact ⟨by simp [hm], rfl, rfl, rfl⟩
    · have hmem := List.mem_of_getElem? hgreeting
      rw [hconfigured] at hmem
      refine ⟨_, _, hg, by simp [hm, List.ne_nil_of_mem hmem], ?_, fun hn => absurd rfl hn⟩
      intro _
      refine ⟨⟨greeting, hmem, rfl⟩, ?_⟩
      intro n
      rw [SamplePluginImplementation.raiseSomethingHappenedNotification]
      split
      · next hn =>
        rw [SamplePluginImplementation.deliveredTo_of_mem _ hinv.nodup hn]
        rfl
      · next hn =>
        rw [SamplePluginImplementation.deliveredTo_of_notMem _ hn]
        rfl
  · intro message result hm greeting hmem
    rw [← hconfigured] at hmem
    exact greet_reaches hm hmem result

end Histories

/-! FromString replaces what was parsed before by the contents of the line. -/

section Replacing
variable (parse : String → SamplePluginConfiguration)

/-- The array that a Configure call's line sets by itself. -/
def lineArray : Request N → Option (List String)
  | .configure line => arrayOf (parse line)
  | _ => none

theorem arraysSet_replacing (config : SamplePluginConfiguration) (h : List (Request N)) :
    arraysSet (fun _ => parse) config h = h.filterMap (lineArray parse) := by
  induction h generalizing config with
  | nil => rfl
  | cons q qs ih =>
    rw [arraysSet, ih]
    cases q with
    | configure line =>
      simp only [arrayNow, lineArray, List.filterMap_cons]
      cases arrayOf (parse line) <;> rfl
    | _ => rfl

/-- The greetings are those of the last line that set an array exactly if all arrays set
before it were empty: the arrays of earlier lines are kept in front. -/
theorem greetings_of_last_line_iff [DecidableEq N] (h : List (Request N)) :
    ∃ replies s, SamplePluginImplementation.initial.serveAll (fun _ => parse) h =
        .ok (replies, s) ∧
      (s.greetings = (h.filterMap (lineArray parse)).getLast?.getD [] ↔
        ∀ array ∈ (h.filterMap (lineArray parse)).dropLast, array = []) := by
  obtain ⟨replies, s, hs, hconfigured, -⟩ := greetings_configured (fun _ => parse) h
  refine ⟨replies, s, hs, ?_⟩
  rw [hconfigured, configured, arraysSet_replacing]
  rcases List.eq_nil_or_concat (h.filterMap (lineArray parse)) with hnil | ⟨arrays, last, hlast⟩
  · rw [hnil]
    simp
  · rw [hlast]
    simp [List.flatten_eq_nil_iff]

theorem configure_repeated [DecidableEq N] (line : String) (k : ℕ) :
    ∃ replies s, (SamplePluginImplementation.initial (N := N)).serveAll (fun _ => parse)
        (List.replicate k (.configure line)) = .ok (replies, s) ∧
      s.greetings = (List.replicate k ((arrayOf (parse line)).getD [])).flatten := by
  obtain ⟨replies, s, hs, hconfigured, -⟩ :=
    greetings_configured (fun _ => parse) (List.replicate k (.configure (N := N) line))
  refine ⟨replies, s, hs, ?_⟩
  rw [hconfigured, configured, arraysSet_replacing]
  cases ha : arrayOf (parse line) with
  | none => simp [lineArray, ha]
  | some array => simp [lineArray, ha]

/-- The same line twice. -/
theorem configure_twice_doubles :
    ¬ ∀ (parse : String → SamplePluginConfiguration) (h : List (Request ℕ))
        (replies : List (Reply ℕ)) (s : SamplePluginImplementation ℕ),
      SamplePluginImplementation.initial.serveAll (fun _ => parse) h = .ok (replies, s) →
      s.greetings = (h.filterMap (lineArray parse)).getLast?.getD [] := by
  intro hclaim
  have htwice := hclaim (fun _ => ⟨⟨true, false, ["Hello"]⟩, false⟩)
    [.configure "", .configure ""] _ _ rfl
  exact absurd htwice (by decide)

end Replacing

end Greetings
