/-
# Blocks that fail

Whether a block fails, and with what, can be told from the block and the dialect alone
(`commandError?`):

| block | fails if |
| --- | --- |
| a hat | its topic is no literal, or blank without its quotes |
| serving the serial line | the dialect has no such block |
| source text of its own | there is none |
| a reporter | always, for it is no statement |
| any other | never |

It does so before it has stored, registered or recorded anything, so the context stays as it was.
The only other failure is that of a hat whose routine name, or that of a hat below it, is taken;
that one is fatal, and what was generated before it stays.

In a chain a failed block comes to one diagnostic.  A command leaves an empty statement behind, a
hat nothing, and a reporter none either (`command_failure_frame`).
-/

import BoardBlocks.Proofs.CommandCode
import BoardBlocks.Proofs.FlatGeneration
import BoardBlocks.Proofs.ValueFrames

namespace BoardBlocks
namespace Generation

/-- What is wrong with a block in a chain. -/
def commandError? (d : Dialect) (b : Block) : Option GenerationError :=
  match b.opcode with
  | .onTopic =>
    match hatTopic b with
    | .ok _ => none
    | .error e => some e
  | .serialWork => if d.serialWork.isSome then none else some (.unsupported b.opcode d.target)
  | .code => templateError? b
  | .topicData | .expr => some (.shapeMismatch b.opcode .statement)
  | .connect | .connectCloud | .joinNetwork | .publish | .subscribe => none

/-! ### Blocks with something wrong -/

/-- Nothing that is wrong with a single block is fatal. -/
theorem isFatal_commandError {d : Dialect} {b : Block} {e : GenerationError}
    (h : commandError? d b = some e) : e.isFatal = false := by
  unfold commandError? at h
  cases hop : b.opcode <;> simp only [hop] at h
  case onTopic =>
    cases ht : hatTopic b with
    | ok topic => simp [ht] at h
    | error e' =>
      obtain rfl : e' = e := by simpa [ht] using h
      rcases Flat.eq_of_hatTopic_error ht with rfl | rfl <;> rfl
  case serialWork =>
    split at h
    · exact nomatch h
    · obtain rfl := Option.some.inj h
      rfl
  case code => exact isFatal_templateError h
  case topicData | expr =>
    obtain rfl := Option.some.inj h
    rfl
  all_goals exact nomatch h

/-- A block with something wrong fails with that, and does nothing else. -/
theorem commandWith_error {d : Dialect} {b : Block} {e : GenerationError}
    (h : commandError? d b = some e) (body : Gen (List String)) :
    Writes (commandWith d b body) (.error e) [] [] := by
  unfold commandError? at h
  unfold commandWith
  cases hop : b.opcode <;> simp only [hop] at h ⊢
  case onTopic =>
    cases ht : hatTopic b with
    | ok topic => simp [ht] at h
    | error e' =>
      obtain rfl : e' = e := by simpa [ht] using h
      exact Flat.onTopic_error d ht body
  case serialWork =>
    unfold serialWork
    cases hwork : d.serialWork with
    | some work => simp [hwork] at h
    | none =>
      obtain rfl : .unsupported .serialWork d.target = e := by simpa [hwork] using h
      exact hop ▸ .throw _
  case code =>
    have htemplate := template_evaluatesUnless d b
    rwa [h] at htemplate
  case topicData | expr =>
    obtain rfl := Option.some.inj h
    exact .throw _
  all_goals exact nomatch h

/-! ### Blocks with nothing wrong -/

/-- A chain fails only if two of its topics would share a routine. -/
theorem isFatal_of_chain_error {d : Dialect} {bs : List Block} {e : GenerationError}
    {c c' : Context} (h : runGen (chain d bs) c = (.error e, c')) : e.isFatal = true := by
  have hchain := Flat.runGen_chain d bs c
  unfold Flat.ChainOutcome at hchain
  split at hchain
  · rw [h] at hchain
    exact nomatch congrArg Prod.fst hchain
  · obtain ⟨c'', hc⟩ := hchain
    rw [h] at hc
    obtain rfl := Except.error.inj (congrArg Prod.fst hc)
    rfl

/-- A hat with a valid topic fails only if its own routine name, or one below it, is taken. -/
theorem isFatal_of_onTopic_error {d : Dialect} {b : Block} {topic : String}
    (ht : hatTopic b = .ok topic) {bs : List Block} {e : GenerationError} {c c' : Context}
    (h : runGen (onTopic d b (chain d bs)) c = (.error e, c')) : e.isFatal = true := by
  rw [Flat.runGen_onTopic d ht] at h
  cases hreg : (c.extend d.boilerplate []).callbacks.register topic with
  | error collision =>
    rw [Flat.runGen_hatRest_collision d hreg] at h
    obtain rfl := Except.error.inj (congrArg Prod.fst h)
    rfl
  | ok r =>
    obtain ⟨name, t⟩ := r
    rcases hbody : runGen (chain d bs) { c.extend d.boilerplate [] with callbacks := t } with
      ⟨e' | statements, c''⟩
    · rw [Flat.runGen_hatRest_error d hreg hbody] at h
      obtain rfl := Except.error.inj (congrArg Prod.fst h)
      exact isFatal_of_chain_error hbody
    · rw [Flat.runGen_hatRest_ok d hreg hbody] at h
      exact nomatch congrArg Prod.fst h

/-- A block with nothing wrong fails only fatally. -/
theorem isFatal_of_command_error {d : Dialect} {b : Block} (hb : commandError? d b = none)
    {rest : List Block} {e : GenerationError} {c c' : Context}
    (h : runGen (command d b rest) c = (.error e, c')) : e.isFatal = true := by
  -- A step that gives a value has not failed.
  have hvalue : ∀ {x : Gen String} {code : String} {cs : List Contribution} {ds : List Diagnostic},
      Writes x (.ok code) cs ds → runGen x c = (.error e, c') → e.isFatal = true := by
    intro x code cs ds hx herror
    rw [hx c] at herror
    exact nomatch congrArg Prod.fst herror
  unfold commandError? at hb
  unfold command at h
  cases hop : b.opcode <;> simp only [hop] at hb
  case connect | connectCloud | joinNetwork | publish | subscribe =>
    have hsending : b.opcode ∈ sendingOpcodes := by
      rw [hop]
      decide
    exact hvalue (command_writes d.target d hsending _) h
  case onTopic =>
    simp only [commandWith, hop] at h
    cases ht : hatTopic b with
    | ok topic => exact isFatal_of_onTopic_error ht h
    | error e' => simp [ht] at hb
  case serialWork =>
    simp only [commandWith, hop, serialWork] at h
    cases hwork : d.serialWork with
    | none => simp [hwork] at hb
    | some work =>
      rw [hwork] at h
      have hstore := (Writes.contributeAll d.boilerplate).bind (f := fun _ => do
        contributeAll work.1; return work.2) (store_writes work.1 work.2)
      exact hvalue hstore h
  case code =>
    simp only [commandWith, hop] at h
    have htemplate := template_evaluatesUnless d b
    rw [hb] at htemplate
    obtain ⟨code, ds, hwrites⟩ := htemplate
    exact hvalue hwrites h
  case topicData | expr => simp at hb

/-- **When a block fails without ending the run.** -/
theorem command_error_iff {d : Dialect} {b : Block} {rest : List Block} {e : GenerationError}
    {c c' : Context} : runGen (command d b rest) c = (.error e, c') ∧ e.isFatal = false ↔
      commandError? d b = some e ∧ c' = c := by
  constructor
  · rintro ⟨h, he⟩
    cases hb : commandError? d b with
    | none => exact absurd (isFatal_of_command_error hb h) (by simp [he])
    | some e' =>
      have hwrites := commandWith_error hb (chain d rest) c
      rw [Context.extend_nil] at hwrites
      obtain ⟨herror, hcontext⟩ := Prod.mk.inj (h.symm.trans hwrites)
      exact ⟨congrArg some (Except.error.inj herror).symm, hcontext⟩
  · rintro ⟨hb, rfl⟩
    refine ⟨?_, isFatal_commandError hb⟩
    have hwrites := commandWith_error hb (chain d rest) c'
    rwa [Context.extend_nil] at hwrites

/-! ### Failed blocks in a chain -/

/-- A reporter in a chain fails because it is no statement. -/
theorem commandError_reporter {d : Dialect} {b : Block} (hshape : b.opcode.shape = .reporter) :
    commandError? d b = some (.shapeMismatch b.opcode .statement) := by
  unfold commandError?
  cases hop : b.opcode <;> simp_all [Opcode.shape]

/-- **A block that fails leaves no trace.**  If the translation of a block fails without ending the
run, then the sketch, the callbacks and the diagnostics are what they were before, wherever that is
and whatever stands below the block.

In a chain the failure is recorded once.  A hat ends the chain without statements; a command leaves
an empty statement, and the blocks below it are translated as if it was not there; a reporter leaves
none. -/
theorem command_failure_frame {d : Dialect} {b : Block} {rest : List Block} {e : GenerationError}
    {c c' : Context} (h : runGen (command d b rest) c = (.error e, c')) (he : e.isFatal = false) :
    c' = c ∧
    ∀ below, runGen (chain d (b :: below)) c =
      let recorded := { c with diagnostics := c.diagnostics ++ [⟨b.opcode, e⟩] }
      match b.opcode.shape with
      | .hat => (.ok [], recorded)
      | .command => runGen (("" :: ·) <$> chain d below) recorded
      | .reporter => runGen (chain d below) recorded := by
  obtain ⟨hb, rfl⟩ := command_error_iff.1 ⟨h, he⟩
  refine ⟨rfl, fun below => ?_⟩
  have habsorb : ∀ body, runGen (absorb b.opcode (commandWith d b body)) c' =
      (.ok "", { c' with diagnostics := c'.diagnostics ++ [⟨b.opcode, e⟩] }) := by
    intro body
    have hwrites := (commandWith_error hb body).absorb_error he b.opcode c'
    rwa [List.nil_append] at hwrites
  rw [chain]
  cases hshape : b.opcode.shape with
  | hat => exact runGen_bind_ok (habsorb _) _
  | command =>
    rw [map_eq_pure_bind]
    exact runGen_bind_ok (habsorb _) _
  | reporter =>
    rw [commandError_reporter hshape] at hb
    obtain rfl := Option.some.inj hb
    exact runGen_bind_ok (Writes.report b.opcode _ c') _

/-- A hat whose topic is known at run time only. -/
def readTopic : Block where
  opcode := .onTopic
  args := [("TOPIC", .block { opcode := .expr, text := some "topic()" })]

/-- After a subscription such a hat changes nothing and hides the subscription below it. -/
theorem command_failure_frame_readTopic :
    let d := Dialect.microPython {}
    let subscribe : Block := { opcode := .subscribe, args := [("TOPIC", .text "/t")] }
    let c := (runGen (command d subscribe []) (.start .microPython)).2
    let e := GenerationError.shapeMismatch .onTopic .literalTopic
    runGen (command d readTopic [subscribe]) c = (.error e, c) ∧
      runGen (chain d [readTopic, subscribe]) c =
        (.ok [], { c with diagnostics := [⟨.onTopic, e⟩] }) := by
  intro d subscribe c e
  have h : runGen (command d readTopic [subscribe]) c = (.error e, c) := rfl
  exact ⟨h, (command_failure_frame h rfl).2 [subscribe]⟩

end Generation
end BoardBlocks
