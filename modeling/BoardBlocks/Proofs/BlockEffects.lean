/-
# What the translation of one block does

An argument is evaluated without touching the sketch or the callbacks, and always to a value: what
goes wrong inside it is recorded (`argValue_evaluates`).  So the translation of a block that is no
hat writes the fragments of its opcode, or fails before it has written any, and neither its code nor
its diagnostics depend on what was generated before (`command_translates`).
-/

import BoardBlocks.Proofs.GenerationSteps

namespace BoardBlocks

theorem Keyed.mem_of_get?_eq_some {α : Type} {key : String} {v : α} {es : List (String × α)}
    (h : Keyed.get? key es = some v) : (key, v) ∈ es := by
  obtain ⟨e, he, rfl⟩ := Option.map_eq_some_iff.1 h
  have hkey : e.1 = key := by simpa using List.find?_some he
  exact hkey ▸ List.mem_of_find?_eq_some he

namespace Generation

variable {α β : Type}

/-- A step that gives a value and writes nothing but diagnostics. -/
def Evaluates (x : Gen α) : Prop :=
  ∃ a ds, Writes x (.ok a) [] ds

/-- A step that stores the fragments `cs`, records diagnostics and ends in a value or in an error
that is not fatal. -/
def Translates (x : Gen α) (cs : List Contribution) : Prop :=
  ∃ r ds, Writes x r cs ds ∧ ∀ e, r = .error e → e.isFatal = false

theorem Evaluates.pure (a : α) : Evaluates (pure a) :=
  ⟨a, [], .pure a⟩

theorem Evaluates.map {x : Gen α} (hx : Evaluates x) (f : α → β) : Evaluates (f <$> x) := by
  obtain ⟨a, ds, h⟩ := hx
  exact ⟨f a, ds, h.map f⟩

/-- Two steps in a row write nothing but diagnostics if each of them does. -/
theorem Evaluates.bind {x : Gen α} {f : α → Gen β} (hx : Evaluates x)
    (hf : ∀ a, Evaluates (f a)) : Evaluates (x >>= f) := by
  obtain ⟨a, ds, h⟩ := hx
  obtain ⟨b, ds', h'⟩ := hf a
  exact ⟨b, ds ++ ds', h.bind h'⟩

/-- A step for each element of a list writes nothing but diagnostics. -/
theorem Evaluates.mapM {f : α → Gen β} (hf : ∀ a, Evaluates (f a)) (xs : List α) :
    Evaluates (xs.mapM f) := by
  induction xs with
  | nil => exact .pure []
  | cons x xs ih =>
    rw [List.mapM_cons]
    exact (hf x).bind fun b => ih.bind fun bs => .pure (b :: bs)

/-- A step that only evaluates is a translation that stores nothing. -/
theorem Evaluates.translates {x : Gen α} (hx : Evaluates x) : Translates x [] := by
  obtain ⟨a, ds, h⟩ := hx
  refine ⟨.ok a, ds, h, ?_⟩
  rintro e he
  exact nomatch he

/-- A failure that is not fatal is a translation that stores nothing. -/
theorem Translates.throw {e : GenerationError} (he : e.isFatal = false) :
    Translates (throw e : Gen α) [] := by
  refine ⟨.error e, [], .throw e, ?_⟩
  rintro e' he'
  obtain rfl := Except.error.inj he'
  exact he

/-- What comes after an evaluation writes what the whole writes. -/
theorem Evaluates.bind_translates {x : Gen α} {f : α → Gen β} {cs : List Contribution}
    (hx : Evaluates x) (hf : ∀ a, Translates (f a) cs) : Translates (x >>= f) cs := by
  obtain ⟨a, ds, h⟩ := hx
  obtain ⟨r, ds', h', hr⟩ := hf a
  exact ⟨r, ds ++ ds', h.bind h', hr⟩

/-- Fragments stored ahead of a translation come before its own. -/
theorem Translates.store {x : Gen α} {cs' : List Contribution} (cs : List Contribution)
    (hx : Translates x cs') : Translates (do contributeAll cs; x) (cs ++ cs') := by
  obtain ⟨r, ds, h, hr⟩ := hx
  exact ⟨r, ds, (Writes.contributeAll cs).bind (f := fun _ => x) h, hr⟩

/-- A step that ends by storing fragments and giving code. -/
theorem Translates.store_pure (cs : List Contribution) (a : α) :
    Translates (do contributeAll cs; return a) cs := by
  simpa using Translates.store cs (Evaluates.pure a).translates

/-- Absorbed, a translation always gives code. -/
theorem Translates.absorb {x : Gen String} {cs : List Contribution} (hx : Translates x cs)
    (opcode : Opcode) : ∃ code ds, Writes (absorb opcode x) (.ok code) cs ds := by
  obtain ⟨r, ds, h, hr⟩ := hx
  cases r with
  | ok code => exact ⟨code, ds, h.absorb opcode⟩
  | error e => exact ⟨"", ds ++ [⟨opcode, e⟩], h.absorb_error (hr e rfl) opcode⟩

/-! ### Arguments -/

/-- The step under a name evaluates the argument with that name. -/
theorem get?_argValues (d : Dialect) (args : List (String × Arg)) (name : String) :
    Keyed.get? name (argValues d args) = (Keyed.get? name args).map (argValue d) := by
  induction args with
  | nil => rfl
  | cons p args ih =>
    rw [argValues, Keyed.get?_cons, Keyed.get?_cons, ih]
    by_cases hname : p.1 = name <;> simp [hname]

/-- A required argument writes nothing but diagnostics, whatever the steps for the arguments are. -/
theorem requiredOf_evaluates (opcode : Opcode) {values : List (String × Gen Value)}
    (hv : ∀ v ∈ values, Evaluates v.2) (name : String) :
    Evaluates (requiredOf opcode values name) := by
  unfold requiredOf
  split
  · rename_i value hget
    exact hv _ (Keyed.mem_of_get?_eq_some hget)
  · exact ⟨.empty, _, (Writes.report opcode _).bind (.pure _)⟩

/-- A template is filled if each of its placeholders has a text. -/
theorem fill_evaluates (template : String) {lookup : String → Gen String}
    (h : ∀ name, Evaluates (lookup name)) : Evaluates (Snippet.fill template lookup) := by
  refine Evaluates.map (Evaluates.mapM (fun part => ?_) _) _
  cases part with
  | char c => exact .pure _
  | slot name => exact h _

/-- Filling a template stores nothing, and does not fail fatally. -/
theorem templateOf_translates (opcode : Opcode) {values : List (String × Gen Value)}
    (hv : ∀ v ∈ values, Evaluates v.2) (text : Option String) :
    Translates (templateOf opcode values text) [] := by
  cases text with
  | none => exact .throw rfl
  | some template =>
    have hlookup := fun name => (requiredOf_evaluates opcode hv name).map Value.code
    exact (fill_evaluates template hlookup).translates

/-- A reporter stores nothing, whatever the steps for its arguments are. -/
theorem reporterOf_translates (d : Dialect) (opcode : Opcode) {values : List (String × Gen Value)}
    (hv : ∀ v ∈ values, Evaluates v.2) (choice text : Option String) :
    Translates (reporterOf d opcode values choice text) [] := by
  unfold reporterOf
  split
  · exact (Evaluates.pure _).translates
  · exact templateOf_translates _ hv text
  · exact .throw rfl

mutual
/-- **An argument always has a value, and only diagnostics come with it.** -/
theorem argValue_evaluates (d : Dialect) : ∀ a : Arg, Evaluates (argValue d a)
  | .text content => .pure (Value.ofText content)
  | .number n => .pure (Value.ofNumber (Decimal.plain n))
  | .block b =>
    let ⟨code, ds, h⟩ := (reporter_translates d b).absorb b.opcode
    Evaluates.map ⟨code, ds, h⟩ Value.ofCode
termination_by structural a => a

/-- A block in a value position stores nothing, however deep its arguments are. -/
theorem reporter_translates (d : Dialect) : ∀ b : Block, Translates (reporter d b) []
  | ⟨opcode, args, text⟩ =>
    reporterOf_translates d opcode (argValues_evaluate d args) _ text
termination_by structural b => b

/-- Nor do the arguments of a block, each by itself. -/
theorem argValues_evaluate (d : Dialect) :
    ∀ args : List (String × Arg), ∀ v ∈ argValues d args, Evaluates v.2
  | [], _, hv => nomatch hv
  | (_, arg) :: args, v, hv => by
    rcases List.mem_cons.1 hv with rfl | hv
    · exact argValue_evaluates d arg
    · exact argValues_evaluate d args v hv
termination_by structural args => args
end

theorem required_evaluates (d : Dialect) (b : Block) (name : String) :
    Evaluates (required d b name) :=
  requiredOf_evaluates b.opcode (argValues_evaluate d b.args) name

theorem optional_evaluates (d : Dialect) (b : Block) (name : String) :
    Evaluates (optional d b name) := by
  refine Evaluates.bind ?_ fun v => .pure _
  unfold value?
  split
  · exact (argValue_evaluates d _).map some
  · exact .pure none

/-! ### Commands -/

/-- The fragments that a block of each kind stores when it is translated, hats apart. -/
def contributionsOf (d : Dialect) (b : Block) : List Contribution :=
  match b.opcode with
  | .connect | .connectCloud | .joinNetwork | .publish | .subscribe => d.boilerplate
  | .serialWork =>
    match d.serialWork with
    | some (contributions, _) => d.boilerplate ++ contributions
    | none => []
  | .onTopic | .topicData | .code | .expr => []

/-- The blocks that talk to the link store the boilerplate. -/
theorem connect_translates (d : Dialect) (b : Block) :
    Translates (connect d b) d.boilerplate := by
  refine (required_evaluates d b _).bind_translates fun server => ?_
  refine (required_evaluates d b _).bind_translates fun clientId => ?_
  refine (optional_evaluates d b _).bind_translates fun user => ?_
  refine (optional_evaluates d b _).bind_translates fun password => ?_
  exact .store_pure _ _

theorem joinNetwork_translates (d : Dialect) (b : Block) :
    Translates (joinNetwork d b) d.boilerplate := by
  refine (required_evaluates d b _).bind_translates fun network => ?_
  refine (required_evaluates d b _).bind_translates fun password => ?_
  exact .store_pure _ _

theorem publish_translates (d : Dialect) (b : Block) :
    Translates (publish d b) d.boilerplate := by
  refine (required_evaluates d b _).bind_translates fun topic => ?_
  refine (required_evaluates d b _).bind_translates fun data => ?_
  exact .store_pure _ _

theorem subscribe_translates (d : Dialect) (b : Block) :
    Translates (subscribe d b) d.boilerplate := by
  refine (required_evaluates d b _).bind_translates fun topic => ?_
  exact .store_pure _ _

/-- Serving the line stores what the target has for it, and nothing on a target without it. -/
theorem serialWork_translates (d : Dialect) (b : Block) (h : b.opcode = .serialWork) :
    Translates (serialWork d b) (contributionsOf d b) := by
  simp only [serialWork, contributionsOf, h]
  cases d.serialWork with
  | none => exact .throw rfl
  | some work => exact .store d.boilerplate (.store_pure work.1 work.2)

/-- **A block that is no hat writes the fragments of its kind.** -/
theorem command_translates (d : Dialect) (b : Block) (h : b.opcode.shape ≠ .hat)
    (body : Gen (List String)) : Translates (commandWith d b body) (contributionsOf d b) := by
  unfold commandWith
  cases hop : b.opcode <;> simp only [contributionsOf, hop]
  case connect | connectCloud => exact connect_translates d b
  case joinNetwork => exact joinNetwork_translates d b
  case publish => exact publish_translates d b
  case subscribe => exact subscribe_translates d b
  case onTopic => exact absurd (by rw [hop]; rfl) h
  case serialWork => simpa only [contributionsOf, hop] using serialWork_translates d b hop
  case code => exact templateOf_translates _ (argValues_evaluate d b.args) b.text
  case topicData | expr => exact .throw rfl

end Generation
end BoardBlocks
