/-
# What the evaluation of a value leaves alone

The arguments of a block are evaluated in the middle of a generation, nested blocks and placeholders
of any depth included.  Nothing of that touches the sketch or the callbacks, and only diagnostics
are appended:

| step | gives | fails |
| --- | --- | --- |
| an argument, needed or not | a value | never |
| a template | its text, filled | if the block has no source text |
| a reporter | an expression | as a template, or if the block is no reporter |

What fails does so before it records anything, and never fatally.  So no placeholder of a template
fails either: whatever a template did about that, it would be the same (`evaluation_frame`).
-/

import BoardBlocks.Proofs.BlockEffects

namespace BoardBlocks
namespace Generation

variable {α : Type}

/-- Steps that do the same everywhere are one step. -/
theorem Gen.ext {x y : Gen α} (h : ∀ c, runGen x c = runGen y c) : x = y :=
  funext h

/-- What is wrong with a passthrough block as it stands. -/
def templateError? (b : Block) : Option GenerationError :=
  match b.text with
  | none => some (.missingArgument b.opcode "text")
  | some _ => none

/-- What is wrong with a block in the place of a value. -/
def reporterError? (b : Block) : Option GenerationError :=
  match b.opcode with
  | .topicData => none
  | .expr => templateError? b
  | opcode => some (.shapeMismatch opcode .value)

/-- Wherever it runs, the step fails with the error `e?` and does nothing else; if that is `none`,
it gives a value and writes nothing but diagnostics. -/
def EvaluatesUnless (x : Gen α) (e? : Option GenerationError) : Prop :=
  match e? with
  | some e => Writes x (.error e) [] []
  | none => Evaluates x

/-- The source text of a passthrough block, where `handle` says what to do about a placeholder that
fails. -/
def templateHandling (d : Dialect) (b : Block) (handle : GenerationError → Gen String) :
    Gen String :=
  match b.text with
  | none => throw (.missingArgument b.opcode "text")
  | some text => Snippet.fill text fun name => tryCatch (Value.code <$> required d b name) handle

/-- The value of an argument, if there is one, writes nothing but diagnostics. -/
theorem value?_evaluates (d : Dialect) (b : Block) (name : String) :
    Evaluates (value? d b name) := by
  unfold value?
  split
  · exact (argValue_evaluates d _).map some
  · exact .pure none

/-- A step that gives a value has no use for a handler. -/
theorem Evaluates.tryCatch_eq {x : Gen α} (hx : Evaluates x) (handle : GenerationError → Gen α) :
    tryCatch x handle = x := by
  obtain ⟨a, ds, h⟩ := hx
  refine Gen.ext fun c => ?_
  rw [runGen_tryCatch, h]

/-- A template evaluates, unless it has its one error. -/
theorem template_evaluatesUnless (d : Dialect) (b : Block) :
    EvaluatesUnless (template d b) (templateError? b) := by
  unfold template templateError?
  cases b.text with
  | none => exact .throw _
  | some text => exact fill_evaluates text fun name => (required_evaluates d b name).map Value.code

/-- A reporter evaluates, unless it has its one error. -/
theorem reporter_evaluatesUnless (d : Dialect) (b : Block) :
    EvaluatesUnless (reporter d b) (reporterError? b) := by
  have htemplate := template_evaluatesUnless d b
  obtain ⟨opcode, args, text⟩ := b
  rw [reporter]
  cases opcode
  case topicData => exact .pure _
  case expr => exact htemplate
  all_goals exact .throw _

/-- **When a step fails** that evaluates unless something is wrong. -/
theorem EvaluatesUnless.error_iff {x : Gen α} {e? : Option GenerationError}
    (h : EvaluatesUnless x e?) {e : GenerationError} {c c' : Context} :
    runGen x c = (.error e, c') ↔ e? = some e ∧ c' = c := by
  cases e? with
  | none =>
    obtain ⟨a, ds, hwrites⟩ := h
    simp [hwrites c]
  | some e' =>
    have hwrites : runGen x c = (.error e', c) := by simpa using h c
    simp [hwrites, eq_comm]

/-- The error of a template is not fatal. -/
theorem isFatal_templateError {b : Block} {e : GenerationError} (h : templateError? b = some e) :
    e.isFatal = false := by
  unfold templateError? at h
  split at h
  · obtain rfl := Option.some.inj h
    rfl
  · exact nomatch h

/-- Nothing that is wrong with a block in the place of a value is fatal. -/
theorem isFatal_reporterError {b : Block} {e : GenerationError} (h : reporterError? b = some e) :
    e.isFatal = false := by
  unfold reporterError? at h
  split at h
  · exact nomatch h
  · exact isFatal_templateError h
  · obtain rfl := Option.some.inj h
    rfl

/-- **What is evaluated for a value touches neither the sketch nor the callbacks**, whatever the
dialect and however deep the blocks are nested.

* An argument has a value, needed or not, and only diagnostics come with it.
* A template fails exactly if its block has no source text, and a reporter exactly in that case or
  if the block is no reporter; then nothing is recorded.  Otherwise they give code, and only
  diagnostics come with it.
* No placeholder of a template fails, so that what is done about it makes no difference. -/
theorem evaluation_frame (d : Dialect) (b : Block) :
    (∀ name, Evaluates (value? d b name) ∧ Evaluates (required d b name) ∧
      Evaluates (optional d b name)) ∧
    EvaluatesUnless (template d b) (templateError? b) ∧
    EvaluatesUnless (reporter d b) (reporterError? b) ∧
    ∀ handle, templateHandling d b handle = template d b := by
  refine ⟨fun name => ?_, template_evaluatesUnless d b, reporter_evaluatesUnless d b,
    fun handle => ?_⟩
  · exact ⟨value?_evaluates d b name, required_evaluates d b name, optional_evaluates d b name⟩
  · unfold templateHandling template
    cases b.text with
    | none => rfl
    | some text =>
      have hlookup : ∀ name, tryCatch (Value.code <$> required d b name) handle =
          Value.code <$> required d b name := fun name =>
        ((required_evaluates d b name).map Value.code).tryCatch_eq handle
      simp only [hlookup]
      rfl

end Generation
end BoardBlocks
