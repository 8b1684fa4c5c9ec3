/-
# The source of a program, read flat

The scripts of a program go one after the other into one sketch, and a fragment replaces an earlier
one under its key.  What a generation that succeeds makes of a program is what the flat reading says
(`generate_ok`).
-/

import BoardBlocks.Proofs.FlatGeneration

namespace BoardBlocks
namespace Generation
namespace Flat

/-! ### Scripts in order -/

/-- The sketch after a script. -/
def afterScript (d : Dialect) (sketch : Sketch) (s : Script) : Sketch :=
  (sketch.storeAll (contributions d s.blocks)).pushAll s.stage (statementsOf d (leading s.blocks))

/-- The topics of the hats of scripts, as they were written. -/
def topics (scripts : List Script) : List String :=
  scripts.flatMap fun s => (reached s.blocks).map Hat.topic

/-- The library states this of the class method. -/
theorem forM_cons {α : Type} (f : α → Gen Unit) (x : α) (xs : List α) :
    (x :: xs).forM f = f x >>= fun _ => xs.forM f :=
  List.forM_cons

/-- Pushing statements one by one adds them all, and fails nowhere. -/
theorem runGen_pushAll (stage : Stage) (codes : List String) (c : Context) :
    runGen (codes.forM (pushStatement stage)) c =
      (.ok (), { c with sketch := c.sketch.pushAll stage codes }) := by
  induction codes generalizing c with
  | nil => rfl
  | cons code codes ih =>
    have hpush : runGen (pushStatement stage code) c =
      (.ok (), { c with sketch := c.sketch.push stage code }) := rfl
    rw [forM_cons, runGen_bind_ok hpush, ih]
    rfl

/-- What scripts do in a context: the sketch after them if the topics of their hats can be
registered, and the first collision if they cannot. -/
def ScriptsOutcome (d : Dialect) (scripts : List Script) (c : Context) : Prop :=
  match c.callbacks.registerAll (topics scripts) with
  | .ok t => runGen (scripts.forM (runScript d)) c = (.ok (), {
      sketch := scripts.foldl (afterScript d) c.sketch
      callbacks := t
      diagnostics := c.diagnostics ++
        scripts.flatMap fun s => (visited s.blocks).flatMap (problemsOf d) })
  | .error e => ∃ c', runGen (scripts.forM (runScript d)) c = (.error (.collision e), c')

/-- Scripts one after the other do what the flat reading says of all of them. -/
theorem runGen_scripts (d : Dialect) (scripts : List Script) (c : Context) :
    ScriptsOutcome d scripts c := by
  induction scripts generalizing c with
  | nil =>
    show runGen (pure ()) c = (.ok (), { c with diagnostics := c.diagnostics ++ [] })
    rw [List.append_nil, runGen_pure]
  | cons s scripts ih =>
    have hchain := runGen_chain d s.blocks c
    unfold ScriptsOutcome
    unfold ChainOutcome at hchain
    rw [topics, List.flatMap_cons, ← topics, Callbacks.registerAll_append, forM_cons]
    cases hreg : c.callbacks.registerAll ((reached s.blocks).map Hat.topic) with
    | error e =>
      simp only [hreg] at hchain ⊢
      obtain ⟨c', hc'⟩ := hchain
      have hscript : runGen (runScript d s) c = (.error (.collision e), c') := by
        rw [runScript, runGen_bind_error hc']
      exact ⟨c', runGen_bind_error hscript _⟩
    | ok t =>
      simp only [hreg] at hchain ⊢
      have hscript : runGen (runScript d s) c = (.ok (), {
          sketch := afterScript d c.sketch s
          callbacks := t
          diagnostics := c.diagnostics ++ (visited s.blocks).flatMap (problemsOf d) }) := by
        rw [runScript, runGen_bind_ok hchain, runGen_pushAll]
        rfl
      rw [runGen_bind_ok hscript]
      have ih := ih {
        sketch := afterScript d c.sketch s
        callbacks := t
        diagnostics := c.diagnostics ++ (visited s.blocks).flatMap (problemsOf d) }
      unfold ScriptsOutcome at ih
      cases hall : t.registerAll (topics scripts) with
      | error e => simpa only [hall] using ih
      | ok t' => simpa only [hall, List.flatMap_cons, List.foldl_cons, List.append_assoc] using ih

/-! ### The sketch of all scripts -/

theorem target_foldl_afterScript (d : Dialect) (scripts : List Script) (sketch : Sketch) :
    (scripts.foldl (afterScript d) sketch).target = sketch.target := by
  induction scripts generalizing sketch with
  | nil => rfl
  | cons s scripts ih => rw [List.foldl_cons, ih, afterScript, Sketch.target_pushAll,
      Sketch.target_storeAll]

/-- Scripts put their fragments into a section in their order. -/
theorem entries_foldl_afterScript (d : Dialect) (scripts : List Script) (sketch : Sketch)
    (x : Section) : (scripts.foldl (afterScript d) sketch).entries x =
      Keyed.putAll (Sketch.partOf x (scripts.flatMap fun s => contributions d s.blocks))
        (sketch.entries x) := by
  induction scripts generalizing sketch with
  | nil => rfl
  | cons s scripts ih =>
    rw [List.foldl_cons, ih, afterScript, Sketch.entries_pushAll, Sketch.entries_storeAll,
      ← Keyed.putAll_append, List.flatMap_cons, Sketch.partOf, Sketch.partOf, Sketch.partOf,
      ← List.map_append, ← List.filter_append]

/-- Scripts add to a stage the statements ahead of the first hats of those that run there. -/
theorem body_foldl_afterScript (d : Dialect) (scripts : List Script) {sketch : Sketch}
    (h : sketch.target = d.target) (stage : Stage) :
    (scripts.foldl (afterScript d) sketch).body stage =
      sketch.body stage ++ (scripts.filter fun s => s.stage = stage).flatMap fun s =>
        Snippet.statements d.target (statementsOf d (leading s.blocks)) := by
  induction scripts generalizing sketch with
  | nil => exact (List.append_nil _).symm
  | cons s scripts ih =>
    have htarget : (afterScript d sketch s).target = d.target := by
      rw [afterScript, Sketch.target_pushAll, Sketch.target_storeAll, h]
    rw [List.foldl_cons, ih htarget, afterScript, Sketch.body_pushAll, Sketch.body_storeAll,
      Sketch.target_storeAll, h]
    by_cases hs : s.stage = stage <;> simp [hs]

/-- **All scripts together give the flat sketch.** -/
theorem foldl_afterScript (d : Dialect) (p : Program) :
    p.scripts.foldl (afterScript d) { target := d.target } = sketch d p := by
  refine Sketch.ext_views (target_foldl_afterScript d _ _) (fun x => ?_) fun stage => ?_
  · rw [entries_foldl_afterScript, Sketch.entries_empty, entries_sketch, entries]
  · rw [body_foldl_afterScript d _ rfl, Sketch.body_empty, body_sketch, body, List.nil_append]

/-- The topics of the reached hats have the keys of the program. -/
theorem map_topicKey_topics (p : Program) : (topics p.scripts).map topicKey = keys p := by
  simp only [topics, keys, List.map_flatMap, List.map_map]
  rfl

theorem target_dialect (target : Target) (settings : CodeSettings) :
    (target.dialect settings).target = target := by
  cases target <;> rfl

/-- The table of a program whose topics can all be registered. -/
theorem holds_keys {p : Program} {t : Callbacks}
    (h : Callbacks.registerAll {} (topics p.scripts) = .ok t) : t.Holds (keys p) := by
  have hholds := Callbacks.Holds.empty.registerAll h
  rwa [List.nil_append, map_topicKey_topics] at hholds

/-- How the run of a program ends: in the flat sketch with all topics registered, or in the
collision that stopped it. -/
theorem runGen_runProgram (target : Target) (settings : CodeSettings) (p : Program) :
    match Callbacks.registerAll {} (topics p.scripts) with
    | .ok t => runGen (runProgram (target.dialect settings) p) (.start target) = (.ok (), {
        sketch := sketch (target.dialect settings) p
        callbacks := t
        diagnostics := p.scripts.flatMap fun s =>
          (visited s.blocks).flatMap (problemsOf (target.dialect settings)) })
    | .error e => ∃ c', runGen (runProgram (target.dialect settings) p) (.start target) =
        (.error (.collision e), c') := by
  have hout := runGen_scripts (target.dialect settings) p.scripts (.start target)
  have hstart : (Context.start target).callbacks = {} := rfl
  unfold ScriptsOutcome at hout
  rw [hstart] at hout
  rw [runProgram]
  cases hreg : Callbacks.registerAll {} (topics p.scripts) with
  | error e => simpa only [hreg] using hout
  | ok t =>
    simp only [hreg] at hout ⊢
    rw [hout, ← foldl_afterScript, target_dialect]
    rfl

/-- **The registrations decide how a generation ends**: with what the flat reading says if all
topics can be registered, and with the collision if they cannot. -/
theorem generate_eq (target : Target) (settings : CodeSettings) (p : Program) :
    generate target settings p =
      match Callbacks.registerAll {} (topics p.scripts) with
      | .ok _ => .ok (generated (target.dialect settings) p)
      | .error c => .error (.collision c) := by
  have hrun := runGen_runProgram target settings p
  rw [generate]
  cases hreg : Callbacks.registerAll {} (topics p.scripts) with
  | error c =>
    simp only [hreg] at hrun
    obtain ⟨c', hc'⟩ := hrun
    rw [hc']
  | ok t =>
    simp only [hreg] at hrun
    rw [hrun, generated, ← (holds_keys hreg).bindings_eq]

/-- What a generation that succeeds has registered and made. -/
theorem generate_ok {target : Target} {settings : CodeSettings} {p : Program} {g : Generated}
    (h : generate target settings p = .ok g) :
    g = generated (target.dialect settings) p ∧ ∃ t : Callbacks, t.Holds (keys p) := by
  rw [generate_eq] at h
  cases hreg : Callbacks.registerAll {} (topics p.scripts) with
  | error c =>
    rw [hreg] at h
    exact nomatch h
  | ok t =>
    rw [hreg] at h
    exact ⟨(Except.ok.inj h).symm, t, holds_keys hreg⟩

/-- A generation that does not fail gives something. -/
theorem exists_generated {target : Target} {settings : CodeSettings} {p : Program}
    (h : (generate target settings p).toOption.isSome = true) :
    ∃ g, generate target settings p = .ok g := by
  cases hg : generate target settings p with
  | ok g => exact ⟨g, rfl⟩
  | error e =>
    rw [hg] at h
    exact nomatch h

/-- A generation that fails does so at the first collision of its topics. -/
theorem generate_error {target : Target} {settings : CodeSettings} {p : Program}
    {e : GenerationError} (h : generate target settings p = .error e) :
    ∃ c, Callbacks.CollidesFirst (keys p) c ∧ e = .collision c := by
  rw [generate_eq] at h
  cases hreg : Callbacks.registerAll {} (topics p.scripts) with
  | ok t =>
    rw [hreg] at h
    exact nomatch h
  | error c =>
    have hfirst := Callbacks.Holds.empty.registerAll_error hreg
    rw [List.nil_append, map_topicKey_topics] at hfirst
    rw [hreg] at h
    exact ⟨c, hfirst, (Except.error.inj h).symm⟩

end Flat
end Generation
end BoardBlocks
