/-
# What a step of a generation does

Most steps of a generation do not look at the state they run in.  Such a step ends in the same
result everywhere, stores the same fragments in the sketch and records the same diagnostics behind
those that are there: `Writes x r cs ds`.  Steps of that kind compose (`Writes.bind`), and `absorb`
turns one that fails into one that records the failure (`Writes.absorb_error`).

Only registering a callback and pushing a statement are not of that kind.
-/

import BoardBlocks.Generation.Rules

namespace BoardBlocks

/-- The sketch with fragments stored in order. -/
def Sketch.storeAll (s : Sketch) (cs : List Generation.Contribution) : Sketch :=
  cs.foldl (fun s x => s.contribute x.part x.key x.fragment) s

theorem Sketch.storeAll_append (s : Sketch) (cs cs' : List Generation.Contribution) :
    s.storeAll (cs ++ cs') = (s.storeAll cs).storeAll cs' :=
  List.foldl_append

namespace Generation

variable {α β : Type}

/-! ### Running one step after the other -/

@[simp] theorem runGen_pure (a : α) (c : Context) : runGen (pure a) c = (.ok a, c) := rfl

@[simp] theorem runGen_throw (e : GenerationError) (c : Context) :
    runGen (throw e : Gen α) c = (.error e, c) := rfl

/-- A step that succeeds hands its value and its context on. -/
theorem runGen_bind_ok {x : Gen α} {a : α} {c c' : Context} (h : runGen x c = (.ok a, c'))
    (f : α → Gen β) : runGen (x >>= f) c = runGen (f a) c' := by
  show (ExceptT.bindCont f (runGen x c).1).run (runGen x c).2 = _
  rw [h]
  rfl

/-- A step that fails ends what follows it. -/
theorem runGen_bind_error {x : Gen α} {e : GenerationError} {c c' : Context}
    (h : runGen x c = (.error e, c')) (f : α → Gen β) :
    runGen (x >>= f) c = (.error e, c') := by
  show (ExceptT.bindCont f (runGen x c).1).run (runGen x c).2 = _
  rw [h]
  rfl

/-- What catches a failure runs in the context that the failure left. -/
theorem runGen_tryCatch (x : Gen α) (f : GenerationError → Gen α) (c : Context) :
    runGen (tryCatch x f) c =
      match runGen x c with
      | (.ok a, c') => (.ok a, c')
      | (.error e, c') => runGen (f e) c' := by
  rcases h : runGen x c with ⟨e | a, c'⟩
  · have hx : StateT.run x c = (.error e, c') := h
    simp only [runGen, tryCatch, tryCatchThe, MonadExceptOf.tryCatch, ExceptT.tryCatch,
      ExceptT.run, ExceptT.mk, StateT.run_bind, hx]
    rfl
  · have hx : StateT.run x c = (.ok a, c') := h
    simp only [runGen, tryCatch, tryCatchThe, MonadExceptOf.tryCatch, ExceptT.tryCatch,
      ExceptT.run, ExceptT.mk, StateT.run_bind, hx]
    rfl

/-- There is nothing to absorb where a step succeeds. -/
theorem runGen_absorb_ok {x : Gen String} {code : String} {c c' : Context}
    (h : runGen x c = (.ok code, c')) (opcode : Opcode) :
    runGen (absorb opcode x) c = (.ok code, c') := by
  rw [absorb, runGen_tryCatch, h]

/-- A failure becomes the empty code and a diagnostic, unless it is fatal. -/
theorem runGen_absorb_error {x : Gen String} {e : GenerationError} {c c' : Context}
    (h : runGen x c = (.error e, c')) (opcode : Opcode) :
    runGen (absorb opcode x) c =
      if e.isFatal then (.error e, c')
      else (.ok "", { c' with diagnostics := c'.diagnostics ++ [⟨opcode, e⟩] }) := by
  rw [absorb, runGen_tryCatch, h]
  cases he : e.isFatal <;> simp only [he] <;> rfl

/-! ### Steps that only write -/

/-- The context with fragments stored and diagnostics recorded behind the present ones. -/
def Context.extend (c : Context) (cs : List Contribution) (ds : List Diagnostic) : Context :=
  { c with sketch := c.sketch.storeAll cs, diagnostics := c.diagnostics ++ ds }

@[simp] theorem Context.extend_nil (c : Context) : c.extend [] [] = c := by
  simp [extend, Sketch.storeAll]

/-- Extending twice is extending by both, in order. -/
theorem Context.extend_extend (c : Context) (cs cs' : List Contribution)
    (ds ds' : List Diagnostic) :
    (c.extend cs ds).extend cs' ds' = c.extend (cs ++ cs') (ds ++ ds') := by
  simp [extend, Sketch.storeAll_append]

theorem Context.extend_callbacks (c : Context) (t : Callbacks) (cs : List Contribution)
    (ds : List Diagnostic) :
    ({ c with callbacks := t } : Context).extend cs ds = { c.extend cs ds with callbacks := t } :=
  rfl

/-- Wherever it runs, the step `x` ends in `r`, stores the fragments `cs` and records the
diagnostics `ds`. -/
def Writes (x : Gen α) (r : Except GenerationError α) (cs : List Contribution)
    (ds : List Diagnostic) : Prop :=
  ∀ c, runGen x c = (r, c.extend cs ds)

/-- What a step records may be said in other words. -/
theorem Writes.of_eq {x : Gen α} {r : Except GenerationError α} {cs : List Contribution}
    {ds ds' : List Diagnostic} (hx : Writes x r cs ds) (h : ds = ds') : Writes x r cs ds' :=
  h ▸ hx

theorem Writes.pure (a : α) : Writes (pure a) (.ok a) [] [] := fun c => by
  rw [runGen_pure, Context.extend_nil]

theorem Writes.throw (e : GenerationError) :
    Writes (throw e : Gen α) (.error e) [] [] := fun c => by
  rw [runGen_throw, Context.extend_nil]

/-- Two steps in a row write what the first writes, then what the second writes. -/
theorem Writes.bind {x : Gen α} {a : α} {f : α → Gen β} {r : Except GenerationError β}
    {cs cs' : List Contribution} {ds ds' : List Diagnostic} (hx : Writes x (.ok a) cs ds)
    (hf : Writes (f a) r cs' ds') : Writes (x >>= f) r (cs ++ cs') (ds ++ ds') := fun c => by
  rw [runGen_bind_ok (hx c), hf, Context.extend_extend]

theorem Writes.map {x : Gen α} {a : α} {cs : List Contribution} {ds : List Diagnostic}
    (hx : Writes x (.ok a) cs ds) (f : α → β) : Writes (f <$> x) (.ok (f a)) cs ds := fun c => by
  rw [map_eq_pure_bind, runGen_bind_ok (hx c), runGen_pure]

theorem Writes.report (opcode : Opcode) (e : GenerationError) :
    Writes (report opcode e) (.ok ()) [] [⟨opcode, e⟩] := fun _ => rfl

theorem Writes.contribute (x : Contribution) : Writes (contribute x) (.ok ()) [x] [] := fun c => by
  show _ = (Except.ok (), { c with sketch := _, diagnostics := c.diagnostics ++ [] })
  rw [List.append_nil]
  rfl

/-- Contributions write their fragments, in order. -/
theorem Writes.contributeAll (cs : List Contribution) :
    Writes (contributeAll cs) (.ok ()) cs [] := by
  induction cs with
  | nil => exact .pure ()
  | cons x cs ih => exact (Writes.contribute x).bind ih

/-- A step that succeeds writes the same where its failures are absorbed. -/
theorem Writes.absorb {x : Gen String} {code : String} {cs : List Contribution}
    {ds : List Diagnostic} (hx : Writes x (.ok code) cs ds) (opcode : Opcode) :
    Writes (absorb opcode x) (.ok code) cs ds := fun c =>
  runGen_absorb_ok (hx c) opcode

/-- A failure that is not fatal is recorded behind the diagnostics of the failed step. -/
theorem Writes.absorb_error {x : Gen String} {e : GenerationError} {cs : List Contribution}
    {ds : List Diagnostic} (hx : Writes x (.error e) cs ds) (he : e.isFatal = false)
    (opcode : Opcode) :
    Writes (Generation.absorb opcode x) (.ok "") cs (ds ++ [⟨opcode, e⟩]) := fun c => by
  rw [runGen_absorb_error (hx c), if_neg (by simp [he])]
  simp [Context.extend, List.append_assoc]

end Generation
end BoardBlocks
