/-
# The two targets agree

A program is read by the same rules for both targets, and its callbacks and diagnostics depend on
that reading only: what is recorded for a block can be read off its tree (`problemsOf_eq`).  So both
targets succeed on the same programs, bind the same callbacks and fail with the same collision.
Their diagnostics differ in one kind: what the target has no block for.  Only Arduino records it,
and the other diagnostics stand around it in the same order (`generate_targets`).
-/

import BoardBlocks.Proofs.CommandCode
import BoardBlocks.Proofs.FlatSource

namespace BoardBlocks
namespace Generation

/-! ### What a generation records -/

/-- Serving the line records nothing, or that the target does not have it. -/
theorem serialWork_records (target : Target) (settings : CodeSettings) {b : Block}
    (h : b.opcode = .serialWork) :
    Records (absorb b.opcode (serialWork (target.dialect settings) b))
      (blockProblems target b) := by
  simp only [blockProblems, h]
  cases target with
  | arduino => exact h ▸ .absorb_throw rfl b.opcode
  | microPython => exact Records.absorb (.store _ (.store MicroPython.serialWork (.pure _))) _

/-- A block that is no hat records its problems when it is translated. -/
theorem command_records (target : Target) (settings : CodeSettings) {b : Block}
    (h : Flat.isHat b = false) :
    Records (absorb b.opcode (command (target.dialect settings) b []))
      (blockProblems target b) := by
  by_cases hsends : b.opcode ∈ sendingOpcodes
  · have hwrites := command_writes target (target.dialect settings) hsends
      (chain (target.dialect settings) [])
    exact ⟨_, _, hwrites.absorb b.opcode⟩
  · unfold command commandWith
    cases hop : b.opcode <;> simp only
    case onTopic => simp [Flat.isHat, hop, Opcode.shape] at h
    case serialWork => exact hop ▸ serialWork_records target settings hop
    case code =>
      simp only [blockProblems, hop]
      exact hop ▸ templateOf_records (args_record _ b.args) b.opcode b.text
    case topicData | expr =>
      simp only [blockProblems, hop]
      exact .absorb_throw rfl _
    all_goals simp [sendingOpcodes, hop] at hsends

/-- **What a generation records for a block is read off its tree.** -/
theorem problemsOf_eq (target : Target) (settings : CodeSettings) (b : Block) :
    Flat.problemsOf (target.dialect settings) b = blockProblems target b := by
  cases h : Flat.isHat b with
  | false =>
    have hw := Flat.writes_absorb_command (target.dialect settings) h
    exact Records.unique ⟨_, _, hw⟩ (command_records target settings h)
  | true =>
    have hop := Flat.opcode_of_isHat h
    simp only [blockProblems, hop]
    cases htopic : hatTopic b with
    | ok topic =>
      have ht : Flat.hasTopic b = true := by simp [Flat.hasTopic, htopic, Except.toOption]
      exact Flat.problemsOf_hat _ h ht
    | error e => rw [Flat.problemsOf_invalid _ h htopic, hop]

/-! ### Unsupported blocks -/

/-- Whether a diagnostic says that the target has no such block. -/
def Diagnostic.isUnsupported (x : Diagnostic) : Bool :=
  match x.error with
  | .unsupported _ _ => true
  | _ => false

/-- No diagnostic of a list says that the target has no such block. -/
def AllSupported (ds : List Diagnostic) : Prop :=
  ∀ x ∈ ds, x.isUnsupported = false

theorem AllSupported.nil : AllSupported [] :=
  fun _ hx => nomatch hx

theorem AllSupported.singleton {x : Diagnostic} (h : x.isUnsupported = false) :
    AllSupported [x] := by
  intro y hy
  rwa [List.mem_singleton.1 hy]

theorem AllSupported.append {ds ds' : List Diagnostic} (h : AllSupported ds)
    (h' : AllSupported ds') : AllSupported (ds ++ ds') := by
  intro x hx
  rcases List.mem_append.1 hx with hx | hx
  · exact h x hx
  · exact h' x hx

theorem AllSupported.filter_eq {ds : List Diagnostic} (h : AllSupported ds) :
    ds.filter (fun x => !x.isUnsupported) = ds :=
  List.filter_eq_self.2 fun x hx => by rw [h x hx]; rfl

/-! ### Arguments never lack support -/

section Arguments

variable {problems : List (String × List Diagnostic)}
  (hproblems : ∀ p ∈ problems, AllSupported p.2)
include hproblems

/-- The problems of a required argument are supported, if those of its value are. -/
theorem requiredProblems_supported (opcode : Opcode) (name : String) :
    AllSupported (requiredProblems opcode problems name) := by
  unfold requiredProblems
  cases hget : Keyed.get? name problems with
  | none => exact .singleton rfl
  | some ds => exact hproblems _ (Keyed.mem_of_get?_eq_some hget)

/-- The problems of an optional argument are supported, if those of its value are. -/
theorem optionalProblems_supported (name : String) :
    AllSupported (optionalProblems problems name) := by
  unfold optionalProblems
  cases hget : Keyed.get? name problems with
  | none => exact .nil
  | some ds => exact hproblems _ (Keyed.mem_of_get?_eq_some hget)

/-- The problems of a template are supported, if those of its arguments are. -/
theorem templateProblems_supported (opcode : Opcode) (text : Option String) :
    AllSupported (templateProblems opcode problems text) := by
  cases text with
  | none => exact .singleton rfl
  | some template =>
    intro x hx
    obtain ⟨name, -, hx⟩ := List.mem_flatMap.1 hx
    exact requiredProblems_supported hproblems opcode name x hx

/-- The problems of a reporter are supported, if those of its arguments are. -/
theorem reporterProblems_supported (opcode : Opcode) (text : Option String) :
    AllSupported (reporterProblems opcode problems text) := by
  cases opcode
  case topicData => exact .nil
  case expr => exact templateProblems_supported hproblems .expr text
  all_goals exact .singleton rfl

end Arguments

mutual
/-- No argument is unsupported, however deep it is. -/
theorem argProblems_supported : ∀ a : Arg, AllSupported (argProblems a)
  | .text _ | .number _ => .nil
  | .block b => valueProblems_supported b
termination_by structural a => a

/-- No block in a value position is unsupported. -/
theorem valueProblems_supported : ∀ b : Block, AllSupported (valueProblems b)
  | ⟨opcode, args, text⟩ => reporterProblems_supported (argsProblems_supported args) opcode text
termination_by structural b => b

/-- Nor are the arguments of a block, each by itself. -/
theorem argsProblems_supported : ∀ args : List (String × Arg), ∀ p ∈ argsProblems args,
    AllSupported p.2
  | [], _, hp => nomatch hp
  | (_, arg) :: args, p, hp => by
    rcases List.mem_cons.1 hp with rfl | hp
    · exact argProblems_supported arg
    · exact argsProblems_supported args p hp
termination_by structural args => args
end

/-! ### Blocks and programs -/

/-- What is wrong with a topic is not that the target has no hats. -/
theorem hatTopic_supported {b : Block} {e : GenerationError} (h : hatTopic b = .error e) :
    (⟨b.opcode, e⟩ : Diagnostic).isUnsupported = false := by
  rcases Flat.eq_of_hatTopic_error h with rfl | rfl <;> rfl

/-- Only serving the serial line can be unsupported. -/
theorem blockProblems_supported (target : Target) {b : Block} (h : b.opcode ≠ .serialWork) :
    AllSupported (blockProblems target b) := by
  have hargs := argsProblems_supported b.args
  have hrequired := requiredProblems_supported hargs b.opcode
  have hoptional := optionalProblems_supported hargs
  unfold blockProblems
  cases hop : b.opcode <;> simp only
  case connect | connectCloud =>
    exact hop ▸ (((hrequired _).append (hrequired _)).append (hoptional _)).append (hoptional _)
  case joinNetwork | publish => exact hop ▸ (hrequired _).append (hrequired _)
  case subscribe => exact hop ▸ hrequired _
  case onTopic =>
    cases htopic : hatTopic b with
    | ok topic => exact .nil
    | error e => exact .singleton (hop ▸ hatTopic_supported htopic)
  case serialWork => exact absurd hop h
  case code => exact templateProblems_supported hargs _ _
  case topicData | expr => exact .singleton rfl

/-- **For one block the targets differ in what is unsupported only.** -/
theorem blockProblems_microPython (b : Block) : blockProblems .microPython b =
    (blockProblems .arduino b).filter fun x => !x.isUnsupported := by
  by_cases h : b.opcode = .serialWork
  · simp [blockProblems, h, Diagnostic.isUnsupported]
  · rw [(blockProblems_supported .arduino h).filter_eq]
    unfold blockProblems
    cases hop : b.opcode <;> first | rfl | exact absurd hop h

/-- **The two targets agree on everything but the text.**  Whatever the settings, both succeed on
the same programs and fail with the same error.  Where they succeed they bind the same callbacks,
and the diagnostics for MicroPython are those for Arduino without the unsupported blocks, in the
same order. -/
theorem generate_targets (p : Program) (settings settings' : CodeSettings) :
    match generate .arduino settings p, generate .microPython settings' p with
    | .ok a, .ok m => a.callbacks = m.callbacks ∧
        m.diagnostics = a.diagnostics.filter fun x => !x.isUnsupported
    | .error e, .error e' => e = e'
    | _, _ => False := by
  rw [Flat.generate_eq, Flat.generate_eq]
  cases Callbacks.registerAll {} (Flat.topics p.scripts) with
  | error c => rfl
  | ok t =>
    refine ⟨rfl, ?_⟩
    have hblocks : ∀ bs : List Block,
        bs.flatMap (Flat.problemsOf (Target.dialect settings' .microPython)) =
          (bs.flatMap (Flat.problemsOf (Target.dialect settings .arduino))).filter
            fun x => !x.isUnsupported := by
      intro bs
      rw [List.filter_flatMap]
      refine congrArg (bs.flatMap ·) (funext fun b => ?_)
      rw [problemsOf_eq, problemsOf_eq, blockProblems_microPython]
    simp only [Flat.generated, List.filter_flatMap, hblocks]

end Generation
end BoardBlocks
