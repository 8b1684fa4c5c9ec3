/-
# Statements stay terminated

A code is made a statement in two places: when it is pushed to a stage, and when a routine is laid
out around it.  The statements of a stage and the calls among its fragments come to both.  Making a
statement gives a normal form (`IsStatement`): the code has no trailing white space, and in a sketch
it is empty or ends in `;` or a closing brace.  The second time changes nothing, and as only blank
code becomes empty, it drops nothing that the first time has left.

So the functions `setup` and `loop` of a sketch consist of the lines of their stages as they stand
there (`statement_stable`).
-/

import BoardBlocks.Proofs.FlatSource
import BoardBlocks.Proofs.SketchContents

namespace BoardBlocks

namespace Snippet

/-! ### The normal form of a statement -/

/-- Code that is a statement as it stands. -/
structure IsStatement (target : Target) (code : String) : Prop where
  isBlank_getLast? : ∀ c ∈ code.toList.getLast?, Text.isBlank c = false
  terminated : target = .arduino → isTerminated code.toList = true

/-- A text ends as a statement of a sketch if its last character does. -/
theorem isTerminated_iff (cs : List Char) :
    isTerminated cs = true ↔ ∀ c ∈ cs.getLast?, c = ';' ∨ c = '\x7d' := by
  unfold isTerminated
  cases cs.getLast? <;> simp

theorem isStatement_statement (target : Target) (code : String) :
    IsStatement target (statement target code) := by
  have hend : ∀ c ∈ (Text.dropBlankEnd code.toList).getLast?, Text.isBlank c = false :=
    getLast?_rdropWhile code.toList
  constructor
  · rw [toList_statement]
    cases target with
    | microPython => exact hend
    | arduino =>
      rw [terminate]
      split
      · exact hend
      · intro c hc
        obtain rfl : ';' = c := by simpa using hc
        decide
  · rintro rfl
    rw [toList_statement, terminate]
    split
    · assumption
    · simp [isTerminated]

/-- A statement is left as it is. -/
theorem IsStatement.statement_eq {target : Target} {code : String} (h : IsStatement target code) :
    statement target code = code := by
  have hkeep : Text.dropBlankEnd code.toList = code.toList := by
    refine List.rdropWhile_eq_self_iff.2 fun hne => ?_
    simp [h.isBlank_getLast? _ (List.getLast?_eq_some_getLast hne)]
  rw [← String.toList_inj, toList_statement]
  cases target with
  | microPython => exact hkeep
  | arduino =>
    rw [terminate, hkeep]
    exact if_pos (h.terminated rfl)

/-- Making a statement of a statement changes nothing. -/
theorem statement_statement (target : Target) (code : String) :
    statement target (statement target code) = statement target code :=
  (isStatement_statement target code).statement_eq

/-- A statement of a sketch ends in a semicolon or a closing brace. -/
theorem getLast?_statement {code : String} (h : statement .arduino code ≠ "") :
    ∃ c, (statement .arduino code).toList.getLast? = some c ∧ (c = ';' ∨ c = '\x7d') := by
  have hne : (statement .arduino code).toList ≠ [] := fun hnil => h (String.toList_inj.1 hnil)
  have hlast := List.getLast?_eq_some_getLast hne
  have hterminated := (isStatement_statement .arduino code).terminated rfl
  exact ⟨_, hlast, (isTerminated_iff _).1 hterminated _ hlast⟩

/-! ### Lists of statements -/

/-- A statement that is not empty, so that no list of statements drops it. -/
structure IsLine (target : Target) (code : String) : Prop extends IsStatement target code where
  ne_empty : code ≠ ""

/-- What a list of statements keeps is a statement and not empty. -/
theorem isLine_of_mem_statements {target : Target} {codes : List String} {s : String}
    (h : s ∈ statements target codes) : IsLine target s := by
  obtain ⟨hmem, hne⟩ := List.mem_filter.1 h
  obtain ⟨code, -, rfl⟩ := List.mem_map.1 hmem
  exact ⟨isStatement_statement target code, by simpa using hne⟩

/-- **Lines stay the statements that they are**, all of them and in order. -/
theorem statements_eq_self {target : Target} {codes : List String}
    (h : ∀ code ∈ codes, IsLine target code) : statements target codes = codes := by
  have hmap : codes.map (statement target) = codes :=
    (List.map_congr_left fun code hcode => (h code hcode).statement_eq).trans (List.map_id codes)
  rw [statements, hmap]
  exact List.filter_eq_self.2 fun code hcode => by simpa using (h code hcode).ne_empty

/-- A call is a line: something of it is visible. -/
theorem Call.isLine (call : Call) (target : Target) : IsLine target (call.statement target) := by
  refine ⟨isStatement_statement target call.text, fun hempty => ?_⟩
  have hblank := (statement_eq_empty_iff target call.text).1 hempty
  have hclose : ')' ∈ call.text.toList := by simp [text]
  exact absurd (List.all_eq_true.1 hblank _ hclose) (by decide)

end Snippet

open Snippet

/-! ### The lines of a stage -/

/-- The section whose fragments stand before the statements of a stage. -/
def Stage.part : Stage → Section
  | .setup => .setup
  | .loop => .loop

namespace Sketch

/-- The lines of a stage are its fragments, then its statements. -/
theorem stageLines_eq (s : Sketch) (stage : Stage) :
    s.stageLines stage = s.fragments stage.part ++ s.body stage := by
  cases stage <;> rfl

/-- The lines of a stage stay what they are if its fragments and its statements are lines. -/
theorem statements_stageLines {s : Sketch} {stage : Stage} {target : Target}
    (hentries : ∀ e ∈ s.entries stage.part, IsLine target e.2)
    (hbody : ∀ code ∈ s.body stage, IsLine target code) :
    statements target (s.stageLines stage) = s.stageLines stage := by
  refine statements_eq_self fun code hcode => ?_
  rw [stageLines_eq, List.mem_append] at hcode
  rcases hcode with hfragment | hcode
  · obtain ⟨e, he, rfl⟩ := List.mem_map.1 hfragment
    exact hentries e he
  · exact hbody code hcode

/-- Whatever changes brought them, the codes of a stage are statements. -/
theorem body_isLine (target : Target) (changes : List Change) (stage : Stage) :
    ∀ code ∈ (changeAll { target } changes).body stage, IsLine target code := by
  have hbody : (changeAll { target } changes).body stage =
      statements target (codesFor stage changes) := by
    rw [body_changeAll, body_empty, List.nil_append]
  rw [hbody]
  exact fun code => isLine_of_mem_statements

/-- A change that brings a stage calls only, if it brings it a fragment. -/
def Change.BringsCall (target : Target) : Change → Prop
  | .contribute x _ fragment =>
    ∀ stage : Stage, stage.part = x → ∃ call : Call, fragment = call.statement target
  | .push .. => True

/-- The fragments of a stage are statements too, if the changes bring it calls only. -/
theorem entries_isLine {target : Target} {changes : List Change}
    (h : ∀ change ∈ changes, change.BringsCall target) (stage : Stage) :
    ∀ e ∈ (changeAll { target } changes).entries stage.part, IsLine target e.2 := by
  intro e he
  rw [entries_changeAll, entries_empty] at he
  have hmem := (Keyed.mem_putAll he).resolve_right List.not_mem_nil
  obtain ⟨change, hchange, hentry⟩ := List.mem_filterMap.1 hmem
  have hbrings := h change hchange
  cases change with
  | push stage' code => exact absurd hentry.symm (Option.some_ne_none e)
  | contribute x key fragment =>
    rw [Change.entry?] at hentry
    split at hentry
    · rename_i hx
      obtain rfl := Option.some.inj hentry
      obtain ⟨call, rfl⟩ := hbrings stage hx.symm
      exact call.isLine target
    · exact absurd hentry.symm (Option.some_ne_none e)

end Sketch

namespace Generation

/-! ### Generated sketches -/

/-- A fragment that is a call if it goes to a stage. -/
def Contribution.BringsCall (target : Target) (c : Contribution) : Prop :=
  ∀ stage : Stage, stage.part = c.part → ∃ call : Call, c.fragment = call.statement target

/-- The boilerplate brings the stages calls only. -/
theorem boilerplate_bringsCall (settings : CodeSettings) :
    ∀ c ∈ Arduino.boilerplate settings, c.BringsCall .arduino := by
  simp only [Arduino.boilerplate, List.forall_mem_cons]
  refine ⟨?_, ?_, ?_, ?_, ?_, fun c hc => nomatch hc⟩
  · exact fun stage hstage => by cases stage <;> cases hstage
  · exact fun stage hstage => by cases stage <;> cases hstage
  · exact fun _ _ => ⟨_, rfl⟩
  · exact fun _ _ => ⟨_, rfl⟩
  · exact fun _ _ => ⟨_, rfl⟩

/-- A block brings the stages calls only. -/
theorem contributionsOf_bringsCall (settings : CodeSettings) (b : Block) :
    ∀ c ∈ contributionsOf (.arduino settings) b, c.BringsCall .arduino := by
  intro c hc
  unfold contributionsOf at hc
  cases hop : b.opcode <;> simp only [hop] at hc
  case connect | connectCloud | joinNetwork | publish | subscribe =>
    exact boilerplate_bringsCall settings c hc
  all_goals exact nomatch hc

/-- What a chain stores for a stage are calls: the boilerplate and the registrations. -/
theorem contributions_bringCalls (settings : CodeSettings) (bs : List Block) :
    ∀ c ∈ Flat.contributions (.arduino settings) bs, c.BringsCall .arduino := by
  have hblocks : ∀ bs : List Block,
      ∀ c ∈ bs.flatMap (contributionsOf (.arduino settings)), c.BringsCall .arduino := by
    intro bs c hc
    obtain ⟨b, -, hc⟩ := List.mem_flatMap.1 hc
    exact contributionsOf_bringsCall settings b c hc
  intro c hc
  rw [Flat.contributions, List.mem_append, List.mem_append] at hc
  rcases hc with (hc | hc) | hc
  · exact hblocks _ c hc
  · obtain ⟨hat, -, hc⟩ := List.mem_flatMap.1 hc
    rcases List.mem_append.1 hc with hc | hc
    · exact boilerplate_bringsCall settings c hc
    · exact hblocks _ c hc
  · obtain ⟨hat, -, hc⟩ := List.mem_flatMap.1 hc
    rcases List.mem_pair.1 hc with rfl | rfl
    · exact fun _ _ => ⟨_, rfl⟩
    · exact fun stage hstage => by cases stage <;> cases hstage

/-- The lines of a stage of a generated sketch are statements already, and none is dropped. -/
theorem statements_generated (settings : CodeSettings) (p : Program) (stage : Stage) :
    statements .arduino ((Flat.sketch (.arduino settings) p).stageLines stage) =
      (Flat.sketch (.arduino settings) p).stageLines stage := by
  refine Sketch.statements_stageLines (fun e he => ?_) fun code hcode => ?_
  · rw [Flat.entries_sketch, Flat.entries] at he
    have hmem := (Keyed.mem_putAll he).resolve_right List.not_mem_nil
    obtain ⟨c, hc, rfl⟩ := List.mem_map.1 hmem
    obtain ⟨hc, hpart⟩ := List.mem_filter.1 hc
    obtain ⟨s, -, hc⟩ := List.mem_flatMap.1 hc
    obtain ⟨call, hcall⟩ := contributions_bringCalls settings s.blocks c hc stage
      (of_decide_eq_true hpart).symm
    rw [hcall]
    exact call.isLine .arduino
  · rw [Flat.body_sketch, Flat.body] at hcode
    obtain ⟨s, -, hcode⟩ := List.mem_flatMap.1 hcode
    exact isLine_of_mem_statements hcode

end Generation

namespace Snippet

open Generation (Dialect Context runGen runProgram)

/-- **A statement is made once and for all.**

* Making a statement a statement changes nothing, and code that is one already stays as it is.
* It is empty exactly if the code is blank.  One of a sketch that is not empty ends in a semicolon or
  a closing brace.
* Whatever changes put a sketch together, the statements of its stages stay as they are when they
  are made statements again, and none is dropped; neither is any line of a stage whose fragments are
  calls.
* So it is with all lines of the stages of a generated Arduino sketch. -/
theorem statement_stable :
    (∀ target code, statement target (statement target code) = statement target code ∧
      (IsStatement target code → statement target code = code)) ∧
    (∀ target code, statement target code = "" ↔ Text.blank code = true) ∧
    (∀ code, statement .arduino code ≠ "" →
      ∃ c, (statement .arduino code).toList.getLast? = some c ∧ (c = ';' ∨ c = '\x7d')) ∧
    (∀ (target : Target) (changes : List Sketch.Change) (stage : Stage),
      let s := Sketch.changeAll { target } changes
      statements target (s.body stage) = s.body stage ∧
        ((∀ change ∈ changes, change.BringsCall target) →
          statements target (s.stageLines stage) = s.stageLines stage)) ∧
    ∀ (settings : CodeSettings) (p : Program) (c : Context),
      runGen (runProgram (Target.arduino.dialect settings) p) (.start .arduino) = (.ok (), c) →
        ∀ stage, statements .arduino (c.sketch.stageLines stage) = c.sketch.stageLines stage := by
  refine ⟨fun target code => ⟨statement_statement target code, IsStatement.statement_eq⟩,
    statement_eq_empty_iff, fun code => getLast?_statement,
    fun target changes stage => ⟨?_, fun h => ?_⟩, fun settings p c hrun stage => ?_⟩
  · exact statements_eq_self (Sketch.body_isLine target changes stage)
  · exact Sketch.statements_stageLines (Sketch.entries_isLine h stage)
      (Sketch.body_isLine target changes stage)
  · have hflat := Generation.Flat.runGen_runProgram .arduino settings p
    rw [hrun] at hflat
    cases hreg : Callbacks.registerAll {} (Generation.Flat.topics p.scripts) with
    | error e =>
      simp only [hreg] at hflat
      obtain ⟨c', hc'⟩ := hflat
      exact nomatch congrArg Prod.fst hc'
    | ok t =>
      simp only [hreg] at hflat
      obtain rfl := congrArg Prod.snd hflat
      exact Generation.statements_generated settings p stage

/-- A call among the fragments, and statements that are open, blank, closed by a brace, or nothing
but a semicolon. -/
def calledChanges : List Sketch.Change :=
  [.push .setup "g() ", .push .setup "\t\n", .push .setup "if (x) \x7b\n\x7d\n", .push .setup "; ",
    .contribute .setup "k" (Call.statement { name := "f" } .arduino)]

/-- A program that publishes over and over. -/
def publishing : Program :=
  ⟨[⟨.loop, [{ opcode := .publish, args := [("DATA", .text "1"), ("TOPIC", .text "/t")] }]⟩]⟩

/-- All lines but the blank one are kept, in the changes and in the program. -/
theorem statement_stable_calledChanges :
    IsStatement .arduino ";" ∧ statement .arduino ";" = ";" ∧
      (∀ change ∈ calledChanges, change.BringsCall .arduino) ∧
      statements .arduino ["f();", "g();", "if (x) \x7b\n\x7d", ";"] =
        ["f();", "g();", "if (x) \x7b\n\x7d", ";"] ∧
      ∃ c, runGen (runProgram (Target.arduino.dialect {}) publishing) (.start .arduino) =
          (.ok (), c) ∧
        c.sketch.stageLines .loop = ["iot.loop();", "iot.publish(\"/t\", \"1\");"] ∧
        statements .arduino (c.sketch.stageLines .loop) = c.sketch.stageLines .loop := by
  obtain ⟨hstatement, -, -, hchanges, hprograms⟩ := statement_stable
  have hsemicolon : IsStatement .arduino ";" := by
    have hline : statement .arduino ";" = ";" := by decide
    exact hline ▸ isStatement_statement .arduino ";"
  have hcalls : ∀ change ∈ calledChanges, change.BringsCall .arduino := by
    simp only [calledChanges, List.forall_mem_cons]
    exact ⟨trivial, trivial, trivial, trivial, fun _ _ => ⟨_, rfl⟩, fun c hc => nomatch hc⟩
  have hlines : (Sketch.changeAll { target := .arduino } calledChanges).stageLines .setup =
      ["f();", "g();", "if (x) \x7b\n\x7d", ";"] := by decide
  have hrun : runGen (runProgram (Target.arduino.dialect {}) publishing) (.start .arduino) =
    (.ok (), (runGen (runProgram (Target.arduino.dialect {}) publishing) (.start .arduino)).2) := rfl
  refine ⟨hsemicolon, (hstatement _ _).2 hsemicolon, hcalls, ?_, _, hrun, ?_,
    hprograms {} publishing _ hrun .loop⟩
  · rw [← hlines]
    exact (hchanges .arduino calledChanges .setup).2 hcalls
  · decide +kernel

end Snippet
end BoardBlocks
