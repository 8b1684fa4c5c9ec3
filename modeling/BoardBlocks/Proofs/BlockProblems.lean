/-
# What is recorded for a block

The diagnostics of a block can be read off its tree (`blockProblems`).  They come in the order in
which its arguments are evaluated, those of a nested block before what is wrong with the block
itself:

| block | recorded |
| --- | --- |
| a command or placeholder without an argument it needs | the missing argument |
| a nested block that is no reporter | that it is no value |
| a reporter or an expression without source text | the missing text |
| a reporter in a chain | that it is no statement |
| a hat without a valid topic | what is wrong with the topic |
| serving the serial line | on Arduino, that there is no such block |

Only the last line depends on the target; in the others no text of a dialect has a part.  For the
arguments of a block this is proved here (`argValue_records`), whatever is made of their values.
-/

import BoardBlocks.Generation.Program
import BoardBlocks.Proofs.BlockEffects

namespace BoardBlocks
namespace Generation

variable {α β : Type}

/-! ### Reading the problems off a tree -/

/-- The problems of an argument that a block needs, from those of all its arguments. -/
def requiredProblems (opcode : Opcode) (problems : List (String × List Diagnostic))
    (name : String) : List Diagnostic :=
  (Keyed.get? name problems).getD [⟨opcode, .missingArgument opcode name⟩]

/-- The problems of an argument that a block may leave out. -/
def optionalProblems (problems : List (String × List Diagnostic)) (name : String) :
    List Diagnostic :=
  (Keyed.get? name problems).getD []

/-- The problems of a passthrough block: those of its placeholders, in order. -/
def templateProblems (opcode : Opcode) (problems : List (String × List Diagnostic))
    (text : Option String) : List Diagnostic :=
  match text with
  | none => [⟨opcode, .missingArgument opcode "text"⟩]
  | some template => (Snippet.slots template).flatMap (requiredProblems opcode problems)

/-- The problems of one element of a template, from those of its placeholders. -/
def partProblems (problems : String → List Diagnostic) : Snippet.Part → List Diagnostic
  | .char _ => []
  | .slot name => problems (String.ofList name)

/-- The problems of the slots of a template are those of its parts, since its texts have none. -/
theorem flatMap_slots (problems : String → List Diagnostic) (template : String) :
    (Snippet.slots template).flatMap problems =
      (Snippet.parts template).flatMap (partProblems problems) := by
  rw [Snippet.slots, List.flatMap, List.flatMap, List.map_filterMap]
  induction Snippet.parts template with
  | nil => rfl
  | cons part parts ih => cases part <;> simp [partProblems, ih]

/-- The problems of a block in the place of a value, from those of its arguments. -/
def reporterProblems (opcode : Opcode) (problems : List (String × List Diagnostic))
    (text : Option String) : List Diagnostic :=
  match opcode with
  | .topicData => []
  | .expr => templateProblems opcode problems text
  | _ => [⟨opcode, .shapeMismatch opcode .value⟩]

mutual
/-- The problems of an argument. -/
def argProblems : Arg → List Diagnostic
  | .text _ | .number _ => []
  | .block b => valueProblems b
termination_by structural a => a
/-- The problems of a block in the place of a value. -/
def valueProblems : Block → List Diagnostic
  | ⟨opcode, args, text⟩ => reporterProblems opcode (argsProblems args) text
termination_by structural b => b
/-- The problems of each of the arguments of a block. -/
def argsProblems : List (String × Arg) → List (String × List Diagnostic)
  | [] => []
  | (name, arg) :: args => (name, argProblems arg) :: argsProblems args
termination_by structural args => args
end

/-- The problems of a block in a chain. -/
def blockProblems (target : Target) (b : Block) : List Diagnostic :=
  let required := requiredProblems b.opcode (argsProblems b.args)
  let optional := optionalProblems (argsProblems b.args)
  match b.opcode with
  | .connect | .connectCloud =>
    required "SERVER" ++ required "CLIENTID" ++ optional "USER" ++ optional "PASS"
  | .joinNetwork => required "AP" ++ required "PASS"
  | .publish => required "TOPIC" ++ required "DATA"
  | .subscribe => required "TOPIC"
  | .onTopic =>
    match hatTopic b with
    | .ok _ => []
    | .error e => [⟨b.opcode, e⟩]
  | .serialWork =>
    match target with
    | .arduino => [⟨b.opcode, .unsupported b.opcode target⟩]
    | .microPython => []
  | .code => templateProblems b.opcode (argsProblems b.args) b.text
  | .topicData | .expr => [⟨b.opcode, .shapeMismatch b.opcode .statement⟩]

/-! ### Steps that record given problems -/

/-- Wherever it runs, the step gives a value and records the problems `ds`. -/
def Records (x : Gen α) (ds : List Diagnostic) : Prop :=
  ∃ a cs, Writes x (.ok a) cs ds

theorem Records.pure (a : α) : Records (pure a) [] :=
  ⟨a, [], .pure a⟩

theorem Records.map {x : Gen α} {ds : List Diagnostic} (hx : Records x ds) (f : α → β) :
    Records (f <$> x) ds := by
  obtain ⟨a, cs, h⟩ := hx
  exact ⟨f a, cs, h.map f⟩

/-- Two steps in a row record the problems of the first, then those of the second. -/
theorem Records.bind {x : Gen α} {f : α → Gen β} {ds ds' : List Diagnostic} (hx : Records x ds)
    (hf : ∀ a, Records (f a) ds') : Records (x >>= f) (ds ++ ds') := by
  obtain ⟨a, cs, h⟩ := hx
  obtain ⟨b, cs', h'⟩ := hf a
  exact ⟨b, cs ++ cs', h.bind h'⟩

/-- Storing fragments records nothing. -/
theorem Records.store {x : Gen α} {ds : List Diagnostic} (cs : List Contribution)
    (hx : Records x ds) : Records (do contributeAll cs; x) ds := by
  obtain ⟨a, cs', h⟩ := hx
  exact ⟨a, cs ++ cs', (Writes.contributeAll cs).bind (f := fun _ => x) h⟩

/-- A step for each element of a list records the problems of the elements, in order. -/
theorem Records.mapM {f : α → Gen β} {problems : α → List Diagnostic}
    (hf : ∀ a, Records (f a) (problems a)) (xs : List α) :
    Records (xs.mapM f) (xs.flatMap problems) := by
  induction xs with
  | nil => exact .pure []
  | cons x xs ih =>
    have hrest : ∀ b, Records (do let bs ← xs.mapM f; return b :: bs) (xs.flatMap problems) := by
      intro b
      have h := ih.bind fun bs => Records.pure (b :: bs)
      rwa [List.append_nil] at h
    rw [List.mapM_cons, List.flatMap_cons]
    exact (hf x).bind hrest

/-- Absorbing the failure of a step that does not fail changes nothing. -/
theorem Records.absorb {x : Gen String} {ds : List Diagnostic} (hx : Records x ds)
    (opcode : Opcode) : Records (absorb opcode x) ds := by
  obtain ⟨code, cs, h⟩ := hx
  exact ⟨code, cs, h.absorb opcode⟩

/-- A failure that is not fatal is the one problem of an absorbed step. -/
theorem Records.absorb_throw {e : GenerationError} (he : e.isFatal = false) (opcode : Opcode) :
    Records (Generation.absorb opcode (throw e)) [⟨opcode, e⟩] :=
  ⟨"", [], (Writes.throw e).absorb_error he opcode⟩

/-- A step records one list of problems. -/
theorem Records.unique {x : Gen α} {ds ds' : List Diagnostic} (h : Records x ds)
    (h' : Records x ds') : ds = ds' := by
  obtain ⟨a, cs, hw⟩ := h
  obtain ⟨a', cs', hw'⟩ := h'
  have heq := (hw (.start .arduino)).symm.trans (hw' (.start .arduino))
  simpa [Context.extend, Context.start] using congrArg (fun r => r.2.diagnostics) heq

/-! ### Arguments -/

/-- The problems under a name are those of the argument with that name. -/
theorem get?_argsProblems (args : List (String × Arg)) (name : String) :
    Keyed.get? name (argsProblems args) = (Keyed.get? name args).map argProblems := by
  induction args with
  | nil => rfl
  | cons p args ih =>
    rw [argsProblems, Keyed.get?_cons, Keyed.get?_cons, ih]
    by_cases hname : p.1 = name <;> simp [hname]

section Arguments

variable {d : Dialect} {args : List (String × Arg)}
  (hargs : ∀ p ∈ args, Records (argValue d p.2) (argProblems p.2))
include hargs

/-- A required argument records its own problems, or that it is missing. -/
theorem requiredOf_records (opcode : Opcode) (name : String) :
    Records (requiredOf opcode (argValues d args) name)
      (requiredProblems opcode (argsProblems args) name) := by
  rw [requiredOf, requiredProblems, get?_argValues, get?_argsProblems]
  cases hget : Keyed.get? name args with
  | none => exact ⟨.empty, [], (Writes.report opcode _).bind (.pure _)⟩
  | some arg => exact hargs _ (Keyed.mem_of_get?_eq_some hget)

/-- The placeholders of a template record their problems in order. -/
theorem templateOf_records (opcode : Opcode) (text : Option String) :
    Records (absorb opcode (templateOf opcode (argValues d args) text))
      (templateProblems opcode (argsProblems args) text) := by
  cases text with
  | none => exact .absorb_throw rfl opcode
  | some template =>
    rw [templateProblems, flatMap_slots]
    refine Records.absorb (Records.map (Records.mapM (fun part => ?_) _) String.join) opcode
    cases part with
    | char c => exact .pure _
    | slot name => exact (requiredOf_records hargs opcode _).map Value.code

/-- A reporter records the problems of its shape and its template. -/
theorem reporterOf_records (opcode : Opcode) (choice text : Option String) :
    Records (absorb opcode (reporterOf d opcode (argValues d args) choice text))
      (reporterProblems opcode (argsProblems args) text) := by
  cases opcode
  case topicData => exact (Records.pure _).absorb _
  case expr => exact templateOf_records hargs .expr text
  all_goals exact .absorb_throw rfl _

end Arguments

mutual
/-- **The evaluation of an argument records the problems of its tree**, whatever the dialect. -/
theorem argValue_records (d : Dialect) : ∀ a : Arg, Records (argValue d a) (argProblems a)
  | .text content => .pure (Value.ofText content)
  | .number n => .pure (Value.ofNumber (Decimal.plain n))
  | .block b => (reporter_records d b).map Value.ofCode
termination_by structural a => a

/-- A block in a value position records its problems, however deep its arguments are. -/
theorem reporter_records (d : Dialect) : ∀ b : Block,
    Records (absorb b.opcode (reporter d b)) (valueProblems b)
  | ⟨opcode, args, text⟩ => reporterOf_records (args_record d args) opcode _ text
termination_by structural b => b

/-- The arguments of a block record theirs, each by itself. -/
theorem args_record (d : Dialect) : ∀ args : List (String × Arg), ∀ p ∈ args,
    Records (argValue d p.2) (argProblems p.2)
  | [], _, hp => nomatch hp
  | (_, arg) :: args, p, hp => by
    rcases List.mem_cons.1 hp with rfl | hp
    · exact argValue_records d arg
    · exact args_record d args p hp
termination_by structural args => args
end

end Generation
end BoardBlocks
