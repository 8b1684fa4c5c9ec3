/-
# A generation gives what the flat reading says

The rules translate a hat together with the whole chain below it, so hats nest; they register its
topic before its body and store its fragments after.  `runGen_chain` says what that comes to for any
chain in any context, by induction on the chain: the hats register in order, their blocks write in
order, and their own fragments follow from the last hat to the first.
-/

import BoardBlocks.Proofs.FlatProgram

namespace BoardBlocks
namespace Generation
namespace Flat

/-! ### Single blocks -/

theorem shape_ne_hat {b : Block} (h : isHat b = false) : b.opcode.shape ≠ .hat := by
  simpa [isHat] using h

/-- A block that is no hat does the same in every context as in an empty one. -/
theorem writes_absorb_command (d : Dialect) {b : Block} (h : isHat b = false) :
    Writes (absorb b.opcode (command d b [])) (.ok (codeOf d b)) (contributionsOf d b)
      (problemsOf d b) := by
  obtain ⟨r, ds, hw, hr⟩ := command_translates d b (shape_ne_hat h) (chain d [])
  have htr : translation d b = (r, (Context.start d.target).extend (contributionsOf d b) ds) :=
    hw (.start d.target)
  have hds : (translation d b).2.diagnostics = ds := by
    rw [htr]
    exact List.nil_append ds
  unfold codeOf problemsOf
  rw [hds, htr]
  cases r with
  | ok code =>
    rw [List.append_nil]
    exact hw.absorb b.opcode
  | error e => exact hw.absorb_error (hr e rfl) b.opcode

/-- A reporter in the place of a statement has one problem, its shape. -/
theorem problemsOf_reporter (d : Dialect) {b : Block} (h : b.opcode.shape = .reporter) :
    problemsOf d b = [⟨b.opcode, .shapeMismatch b.opcode .statement⟩] := by
  have hthrow : command d b [] = throw (.shapeMismatch b.opcode .statement) := by
    unfold command commandWith
    cases hop : b.opcode <;> simp_all [Opcode.shape]
  simp [problemsOf, translation, hthrow, Context.start]

/-- A reporter in the place of a statement stores nothing. -/
theorem contributionsOf_reporter (d : Dialect) {b : Block} (h : b.opcode.shape = .reporter) :
    contributionsOf d b = [] := by
  unfold contributionsOf
  cases hop : b.opcode <;> simp_all [Opcode.shape]

theorem opcode_of_isHat {b : Block} (h : isHat b = true) : b.opcode = .onTopic := by
  cases hop : b.opcode <;> simp_all [isHat, Opcode.shape]

/-! ### Hats -/

/-- The topic of a hat that has one is the topic of the flat reading. -/
theorem hatTopic_eq {b : Block} (ht : hasTopic b = true) (body : List Block) :
    hatTopic b = .ok (Hat.topic ⟨b, body⟩) := by
  unfold hasTopic at ht
  unfold Hat.topic
  cases h : hatTopic b <;> simp_all [Except.toOption]

/-- What can be wrong with a topic. -/
theorem eq_of_hatTopic_error {b : Block} {e : GenerationError} (h : hatTopic b = .error e) :
    e = .missingArgument b.opcode "TOPIC" ∨ e = .shapeMismatch b.opcode .literalTopic := by
  have hcheck : ∀ topic : String, (if Text.blank (topicKey topic) then
      Except.error (.missingArgument b.opcode "TOPIC") else .ok topic) = .error e →
      e = .missingArgument b.opcode "TOPIC" := by
    intro topic htopic
    split at htopic
    · exact (Except.error.inj htopic).symm
    · exact nomatch htopic
  unfold hatTopic at h
  split at h
  · exact .inl (hcheck _ h)
  · exact .inl (hcheck _ h)
  · exact .inr (Except.error.inj h).symm
  · exact .inl (hcheck _ h)

/-- A hat with an invalid topic fails, and not fatally. -/
theorem hatTopic_error {b : Block} (ht : hasTopic b = false) :
    ∃ e, hatTopic b = .error e ∧ e.isFatal = false := by
  unfold hasTopic at ht
  cases h : hatTopic b with
  | ok topic => simp [h, Except.toOption] at ht
  | error e =>
    refine ⟨e, rfl, ?_⟩
    rcases eq_of_hatTopic_error h with rfl | rfl <;> rfl

/-- A hat without a valid topic fails before it does anything. -/
theorem onTopic_error (d : Dialect) {b : Block} {e : GenerationError} (h : hatTopic b = .error e)
    (body : Gen (List String)) : Writes (onTopic d b body) (.error e) [] [] := by
  intro c
  have hx : runGen (liftM (hatTopic b) : Gen String) c = (.error e, c) := by
    rw [h]
    rfl
  rw [onTopic, runGen_bind_error hx, Context.extend_nil]

/-- What a hat does once its topic is known. -/
def hatRest (d : Dialect) (topic : String) (body : Gen (List String)) : Gen String := do
  let name ← registerCallback topic
  let statements ← body
  contribute ⟨.setup, name, d.registration topic name⟩
  contribute ⟨.functions, name, d.routine name statements⟩
  return ""

/-- A hat with a topic stores the boilerplate, then does the rest. -/
theorem runGen_onTopic (d : Dialect) {b : Block} {topic : String} (h : hatTopic b = .ok topic)
    (body : Gen (List String)) (c : Context) :
    runGen (onTopic d b body) c = runGen (hatRest d topic body) (c.extend d.boilerplate []) := by
  have hx : runGen (liftM (hatTopic b) : Gen String) c = (.ok topic, c) := by
    rw [h]
    rfl
  rw [onTopic, runGen_bind_ok hx, runGen_bind_ok (Writes.contributeAll d.boilerplate c)]
  rfl

/-- Registering a topic changes the table, or fails with the collision. -/
theorem runGen_registerCallback (topic : String) (c : Context) :
    runGen (registerCallback topic) c =
      match c.callbacks.register topic with
      | .ok (name, t) => (.ok name, { c with callbacks := t })
      | .error e => (.error (.collision e), c) := by
  have hget : runGen (get : Gen Context) c = (.ok c, c) := rfl
  rw [registerCallback, runGen_bind_ok hget]
  cases c.callbacks.register topic <;> rfl

/-- A topic that collides stops the hat before its body. -/
theorem runGen_hatRest_collision (d : Dialect) {topic : String} {e : Collision} {c : Context}
    (h : c.callbacks.register topic = .error e) (body : Gen (List String)) :
    runGen (hatRest d topic body) c = (.error (.collision e), c) := by
  have hreg := runGen_registerCallback topic c
  rw [h] at hreg
  rw [hatRest, runGen_bind_error hreg]

/-- A body that fails stops the hat after its topic is registered. -/
theorem runGen_hatRest_error (d : Dialect) {topic name : String} {t : Callbacks}
    {e : GenerationError} {c c' : Context} (h : c.callbacks.register topic = .ok (name, t))
    {body : Gen (List String)} (hbody : runGen body { c with callbacks := t } = (.error e, c')) :
    runGen (hatRest d topic body) c = (.error e, c') := by
  have hreg := runGen_registerCallback topic c
  rw [h] at hreg
  rw [hatRest, runGen_bind_ok hreg, runGen_bind_error hbody]

/-- Behind a body that succeeds a hat stores its registration and its routine. -/
theorem runGen_hatRest_ok (d : Dialect) {topic name : String} {t : Callbacks}
    {statements : List String} {c c' : Context} (h : c.callbacks.register topic = .ok (name, t))
    {body : Gen (List String)}
    (hbody : runGen body { c with callbacks := t } = (.ok statements, c')) :
    runGen (hatRest d topic body) c = (.ok "", c'.extend
      [⟨.setup, name, d.registration topic name⟩,
        ⟨.functions, name, d.routine name statements⟩] []) := by
  have hreg := runGen_registerCallback topic c
  rw [h] at hreg
  rw [hatRest, runGen_bind_ok hreg, runGen_bind_ok hbody, runGen_bind_ok (Writes.contribute _ _),
    runGen_bind_ok (Writes.contribute _ _), runGen_pure, Context.extend_extend]
  rfl

/-- A hat with a valid topic has no diagnostic of its own. -/
theorem problemsOf_hat (d : Dialect) {b : Block} (h : isHat b = true) (ht : hasTopic b = true) :
    problemsOf d b = [] := by
  have htr : translation d b = runGen (onTopic d b (pure [])) (.start d.target) := by
    unfold translation command commandWith
    rw [opcode_of_isHat h]
    rfl
  have hreg : (Context.extend (.start d.target) d.boilerplate []).callbacks.register
      (Hat.topic ⟨b, []⟩) = .ok (_, _) := rfl
  rw [problemsOf, htr, runGen_onTopic d (hatTopic_eq ht []),
    runGen_hatRest_ok d hreg (runGen_pure _ _)]
  rfl

/-- A hat whose topic is not valid has that for its one diagnostic. -/
theorem problemsOf_invalid (d : Dialect) {b : Block} {e : GenerationError} (h : isHat b = true)
    (he : hatTopic b = .error e) : problemsOf d b = [⟨b.opcode, e⟩] := by
  unfold problemsOf translation command commandWith
  rw [opcode_of_isHat h]
  dsimp only
  rw [onTopic_error d he _ (.start d.target)]
  rfl

/-! ### Chains -/

/-- A block that is no hat stores its fragments before those of what follows. -/
theorem contributions_cons (d : Dialect) {b : Block} (h : isHat b = false) (bs : List Block) :
    contributions d (b :: bs) = contributionsOf d b ++ contributions d bs := by
  simp [contributions, leading_cons h, reached_cons h]

/-- A hat stores the boilerplate before what follows it, its registration and routine after it. -/
theorem contributions_cons_hat (d : Dialect) {b : Block} (h : isHat b = true)
    (ht : hasTopic b = true) (bs : List Block) :
    contributions d (b :: bs) = d.boilerplate ++ contributions d bs ++
      [Hat.registration d ⟨b, leading bs⟩, Hat.routine d ⟨b, leading bs⟩] := by
  simp [contributions, leading_cons_hat h, reached_cons_hat h ht]

/-- A chain that starts with a hat with an invalid topic stores nothing. -/
theorem contributions_cons_invalid (d : Dialect) {b : Block} (h : isHat b = true)
    (ht : hasTopic b = false) (bs : List Block) : contributions d (b :: bs) = [] := by
  simp [contributions, leading_cons_hat h, reached_cons_invalid h ht]

/-- What a chain does in a context: its result if the topics of its hats can be registered, and the
first collision if they cannot. -/
def ChainOutcome (d : Dialect) (bs : List Block) (c : Context) : Prop :=
  match c.callbacks.registerAll ((reached bs).map Hat.topic) with
  | .ok t => runGen (chain d bs) c = (.ok (statementsOf d (leading bs)),
      { c.extend (contributions d bs) ((visited bs).flatMap (problemsOf d)) with callbacks := t })
  | .error e => ∃ c', runGen (chain d bs) c = (.error (.collision e), c')

/-- A block that is no hat writes, and the rest of the chain runs after it. -/
theorem runGen_chain_cons (d : Dialect) {b : Block} (h : isHat b = false) (bs : List Block)
    (c : Context) : runGen (chain d (b :: bs)) c =
      runGen ((statementsOf d [b] ++ ·) <$> chain d bs)
        (c.extend (contributionsOf d b) (problemsOf d b)) := by
  cases hs : b.opcode.shape with
  | hat => exact absurd hs (shape_ne_hat h)
  | command =>
    have hchain : chain d (b :: bs) = (do
        let code ← absorb b.opcode (command d b [])
        return code :: (← chain d bs)) := by
      rw [chain, hs]
      rfl
    have hstatements : statementsOf d [b] = [codeOf d b] := by simp [statementsOf, hs]
    rw [hchain, runGen_bind_ok (writes_absorb_command d h c), hstatements, map_eq_pure_bind]
    rfl
  | reporter =>
    have hchain : chain d (b :: bs) = (do
        report b.opcode (.shapeMismatch b.opcode .statement)
        chain d bs) := by
      rw [chain, hs]
    have hw := Writes.report b.opcode (.shapeMismatch b.opcode .statement)
    rw [← contributionsOf_reporter d hs, ← problemsOf_reporter d hs] at hw
    have hstatements : statementsOf d [b] = [] := by simp [statementsOf, hs]
    rw [hchain, runGen_bind_ok (hw c), hstatements]
    simp

/-- A hat takes the chain behind it for its body, absorbs its failures and leaves no statement. -/
theorem chain_cons_hat (d : Dialect) {b : Block} (h : isHat b = true) (bs : List Block) :
    chain d (b :: bs) = (do
      let _ ← absorb b.opcode (onTopic d b (chain d bs))
      return []) := by
  have hop := opcode_of_isHat h
  rw [chain, hop]
  simp only [Opcode.shape, commandWith, hop]

/-- A block that is no hat leaves the outcome to what follows it. -/
theorem chainOutcome_cons (d : Dialect) {b : Block} (h : isHat b = false) {bs : List Block}
    (ih : ∀ c, ChainOutcome d bs c) (c : Context) : ChainOutcome d (b :: bs) c := by
  have hend : endsChain b = false := by simp [endsChain, h]
  have ih := ih (c.extend (contributionsOf d b) (problemsOf d b))
  unfold ChainOutcome at ih ⊢
  rw [show (c.extend _ _).callbacks = c.callbacks from rfl] at ih
  rw [runGen_chain_cons d h, reached_cons h, map_eq_pure_bind]
  cases hreg : c.callbacks.registerAll ((reached bs).map Hat.topic) with
  | ok t =>
    simp only [hreg] at ih ⊢
    rw [runGen_bind_ok ih, runGen_pure, leading_cons h, contributions_cons d h,
      visited_cons hend, List.flatMap_cons, Context.extend_extend, statementsOf, statementsOf,
      ← List.map_append, ← List.filter_append, List.singleton_append, ← statementsOf]
  | error e =>
    simp only [hreg] at ih ⊢
    obtain ⟨c', hc'⟩ := ih
    exact ⟨c', runGen_bind_error hc' _⟩

/-- A hat with an invalid topic ends the chain with its problem alone. -/
theorem chainOutcome_invalid (d : Dialect) {b : Block} (h : isHat b = true)
    (ht : hasTopic b = false) (bs : List Block) (c : Context) : ChainOutcome d (b :: bs) c := by
  obtain ⟨e, he, hlocal⟩ := hatTopic_error ht
  have hend : endsChain b = true := by simp [endsChain, h, ht]
  have hw := (onTopic_error d he (chain d bs)).absorb_error hlocal b.opcode c
  unfold ChainOutcome
  rw [reached_cons_invalid h ht, contributions_cons_invalid d h ht, visited_cons_invalid hend,
    leading_cons_hat h, chain_cons_hat d h, runGen_bind_ok hw, List.flatMap_singleton,
    problemsOf_invalid d h he]
  rfl

/-- A hat registers its topic first, and so collides before any hat behind it; the chain behind it
then becomes its body. -/
theorem chainOutcome_hat (d : Dialect) {b : Block} (h : isHat b = true)
    (ht : hasTopic b = true) {bs : List Block} (ih : ∀ c, ChainOutcome d bs c) (c : Context) :
    ChainOutcome d (b :: bs) c := by
  have hend : endsChain b = false := by simp [endsChain, h, ht]
  have hx := runGen_onTopic d (hatTopic_eq ht (leading bs)) (chain d bs) c
  have hcallbacks : (c.extend d.boilerplate []).callbacks = c.callbacks := rfl
  unfold ChainOutcome
  rw [reached_cons_hat h ht, List.map_cons, Callbacks.registerAll, chain_cons_hat d h,
    ← hcallbacks]
  cases hreg : (c.extend d.boilerplate []).callbacks.register (Hat.topic ⟨b, leading bs⟩) with
  | error e =>
    have hfail := hx.trans (runGen_hatRest_collision d hreg _)
    have habsorb := runGen_absorb_error hfail b.opcode
    exact ⟨_, runGen_bind_error habsorb _⟩
  | ok r =>
    obtain ⟨name, t⟩ := r
    obtain rfl := Callbacks.name_of_register hreg
    have ih := ih { c.extend d.boilerplate [] with callbacks := t }
    unfold ChainOutcome at ih
    simp only at ih ⊢
    cases hall : t.registerAll ((reached bs).map Hat.topic) with
    | error e =>
      simp only [hall] at ih ⊢
      obtain ⟨c', hc'⟩ := ih
      have hfail := hx.trans (runGen_hatRest_error d hreg hc')
      have habsorb := runGen_absorb_error hfail b.opcode
      exact ⟨_, runGen_bind_error habsorb _⟩
    | ok t' =>
      simp only [hall] at ih ⊢
      have hok := hx.trans (runGen_hatRest_ok d hreg ih)
      have habsorb := runGen_absorb_ok hok b.opcode
      rw [runGen_bind_ok habsorb, runGen_pure, leading_cons_hat h, contributions_cons_hat d h ht,
        visited_cons hend, List.flatMap_cons, problemsOf_hat d h ht, List.nil_append,
        ← Context.extend_callbacks, ← Context.extend_callbacks, ← Context.extend_callbacks,
        Context.extend_extend, Context.extend_extend, List.append_assoc,
        List.nil_append, List.append_nil]
      rfl

/-- **Every chain gives what its flat reading says**, wherever it runs. -/
theorem runGen_chain (d : Dialect) (bs : List Block) (c : Context) : ChainOutcome d bs c := by
  induction bs using chain_induction generalizing c with
  | nil =>
    show runGen (pure []) c = (_, { c.extend [] [] with callbacks := c.callbacks })
    rw [Context.extend_nil, runGen_pure]
    rfl
  | plain b bs h _ ih => exact chainOutcome_cons d h ih c
  | hat b bs h ht _ ih => exact chainOutcome_hat d h ht ih c
  | invalid b bs h ht _ => exact chainOutcome_invalid d h ht bs c

end Flat
end Generation
end BoardBlocks
