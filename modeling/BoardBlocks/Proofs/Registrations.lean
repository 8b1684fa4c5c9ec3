/-
# Topics in the registrations

Each callback of a program is registered at setup by a statement that names a topic and the routine.
Of several hats on one topic the registration is, like the routine, that of the hat that is kept.
The topic in it is not the same for both targets:

| target | statement | topic |
| --- | --- | --- |
| Arduino | `iot.regGot("…", &GOT…);` | as the hat has it |
| MicroPython | `GOT_HANDLERS["…"] = GOT…` | without quotes |

The table of callbacks holds topics without quotes.  So a script registers every routine for exactly
the topic of its callback, but a sketch does so only where the hat that is kept has its topic without
quotes (`callbacks_registered_iff`).
-/

import BoardBlocks.Proofs.KeptRoutines
import BoardBlocks.Proofs.StringLiterals

namespace BoardBlocks

namespace Snippet

/-- A call becomes a statement of a sketch by a semicolon behind it. -/
theorem statement_of_paren (s : String) : statement .arduino (s ++ ")") = s ++ ");" := by
  have hkeep : Text.dropBlankEnd (s.toList ++ [')']) = s.toList ++ [')'] := by
    rw [Text.dropBlankEnd, List.reverse_append, List.reverse_singleton, List.singleton_append,
      List.dropWhile_cons_of_neg (by decide), List.reverse_cons, List.reverse_reverse]
  have hopen : isTerminated (s.toList ++ [')']) = false := by
    simp [isTerminated]
  rw [← String.toList_inj, toList_statement, String.toList_append, String.toList_append]
  show terminate .arduino (s.toList ++ [')']) = s.toList ++ [')', ';']
  simp only [terminate, hkeep, hopen, Bool.false_eq_true, if_false, List.append_assoc]
  rfl

end Snippet

namespace Generation

/-- The statement that registers a routine for exactly a topic. -/
def registering (target : Target) (topic name : String) : String :=
  match target with
  | .arduino => "iot.regGot(" ++ Text.quote topic ++ ", &" ++ name ++ ");"
  | .microPython => "GOT_HANDLERS[" ++ Text.quote topic ++ "] = " ++ name

/-- The topic that a registration names, from the topic of the hat. -/
def registeredTopic (target : Target) (written : String) : String :=
  match target with
  | .arduino => written
  | .microPython => topicKey written

/-- What the dialects write is a registration of the topic that they take from the hat. -/
theorem registration_eq (target : Target) (settings : CodeSettings) (written name : String) :
    (target.dialect settings).registration written name =
      registering target (registeredTopic target written) name := by
  cases target with
  | arduino =>
    have hcall : (Arduino.method "regGot" [Text.quote written, "&" ++ name]).text =
        "iot.regGot(" ++ Text.quote written ++ ", &" ++ name ++ ")" := by
      rw [← String.toList_inj]
      simp [Arduino.method, Arduino.object, Snippet.Call.text, Snippet.commaList]
    show Snippet.statement .arduino (Arduino.method "regGot" [_, _]).text = _
    rw [hcall, Snippet.statement_of_paren]
    rfl
  | microPython => rfl

/-- A registration names one topic. -/
theorem registering_inj {target : Target} {topic topic' name : String} :
    registering target topic name = registering target topic' name ↔ topic = topic' := by
  refine ⟨fun h => ?_, congrArg (registering target · name)⟩
  cases target with
  | arduino =>
    have hquoted := (String.append_left_inj _).1 ((String.append_left_inj _).1
      ((String.append_left_inj _).1 h))
    exact Text.quote_injective ((String.append_right_inj _).1 hquoted)
  | microPython =>
    have hquoted := (String.append_left_inj _).1 ((String.append_left_inj _).1 h)
    exact Text.quote_injective ((String.append_right_inj _).1 hquoted)

namespace Flat

/-- The state in which a generation ends that succeeds. -/
theorem exists_run {target : Target} {settings : CodeSettings} {p : Program} {g : Generated}
    (h : generate target settings p = .ok g) :
    ∃ c, runGen (runProgram (target.dialect settings) p) (.start target) = (.ok (), c) ∧
      g.source = c.sketch.render ∧ g.callbacks = c.callbacks.bindings ∧
      c.sketch = sketch (target.dialect settings) p ∧ c.callbacks.Holds (keys p) := by
  have hrun := runGen_runProgram target settings p
  cases hreg : Callbacks.registerAll {} (topics p.scripts) with
  | error e =>
    rw [generate_eq, hreg] at h
    exact nomatch h
  | ok t =>
    simp only [hreg] at hrun
    rw [generate, hrun] at h
    obtain rfl := Except.ok.inj h
    exact ⟨_, hrun, rfl, rfl, rfl, holds_keys hreg⟩

end Flat

/-- **What the callbacks are registered for.**  After a generation the setup section has under the
name of each callback the registration of the hat that is kept for its topic.  That is one for
exactly the topic of the callback if the target is MicroPython or the hat has its topic without
quotes, and not otherwise. -/
theorem callbacks_registered_iff {target : Target} {settings : CodeSettings} {p : Program}
    {g : Generated} (h : generate target settings p = .ok g) :
    ∃ c, runGen (runProgram (target.dialect settings) p) (.start target) = (.ok (), c) ∧
      g.source = c.sketch.render ∧ g.callbacks = c.callbacks.bindings ∧
      ∀ b ∈ g.callbacks, ∃ hat, Flat.kept? p b.topic = some hat ∧ topicKey hat.topic = b.topic ∧
        c.sketch.fragment? .setup b.name =
          some (registering target (registeredTopic target hat.topic) b.name) ∧
        (c.sketch.fragment? .setup b.name = some (registering target b.topic b.name) ↔
          target = .microPython ∨ hat.topic = b.topic) := by
  obtain ⟨c, hrun, hsource, hcallbacks, hsketch, hholds⟩ := Flat.exists_run h
  refine ⟨c, hrun, hsource, hcallbacks, fun b hb => ?_⟩
  rw [hcallbacks, hholds.bindings_eq] at hb
  obtain ⟨key, hmem, rfl⟩ := List.mem_map.1 hb
  have hkey := List.mem_eraseDups.1 hmem
  obtain ⟨hat, hkept, hhat⟩ := Flat.exists_kept? hkey
  have hfragment := Flat.fragment?_registration (dialect_isApart target settings) hholds hkept hhat
    hkey
  rw [← hsketch, registration_eq] at hfragment
  refine ⟨hat, hkept, hhat, hfragment, ?_⟩
  rw [hfragment, Option.some.injEq, registering_inj]
  cases target with
  | arduino => simp [registeredTopic]
  | microPython => exact iff_of_true hhat (Or.inl rfl)

/-- A script looks the topic of the repeated hats up without the quotes that the hat that is kept
has. -/
theorem callbacks_registered_iff_repeatedTopic :
    ∃ g c, generate .microPython {} repeatedTopic = .ok g ∧
      runGen (runProgram (.microPython {}) repeatedTopic) (.start .microPython) = (.ok (), c) ∧
      g.callbacks = [⟨"/t", "GOT_t"⟩] ∧
      (Flat.kept? repeatedTopic "/t").map Flat.Hat.topic = some "\"/t\"" ∧
      c.sketch.fragment? .setup "GOT_t" = some "GOT_HANDLERS[\"/t\"] = GOT_t" := by
  obtain ⟨g, h⟩ : ∃ g, generate .microPython {} repeatedTopic = .ok g :=
    Flat.exists_generated (by decide +kernel)
  have hcallbacks : g.callbacks = [⟨"/t", "GOT_t"⟩] := by
    rw [(Flat.generate_ok h).1]
    decide +kernel
  obtain ⟨c, hrun, -, -, hall⟩ := callbacks_registered_iff h
  obtain ⟨hat, -, -, -, hiff⟩ := hall ⟨"/t", "GOT_t"⟩ (by simp [hcallbacks])
  refine ⟨g, c, h, hrun, hcallbacks, by decide +kernel, ?_⟩
  rw [hiff.2 (.inl rfl)]
  decide +kernel

/-- A program with one hat, whose topic is in quotes. -/
def quotedTopic : Program :=
  ⟨[⟨.setup, [{ opcode := .onTopic, args := [("TOPIC", .text "\"/t\"")] }]⟩]⟩

/-- **A sketch registers quotes.**  The callbacks have the topic without its quotes, and the sketch
registers the routine for the topic with them. -/
theorem generate_registers_quotes :
    ∃ g c, generate .arduino {} quotedTopic = .ok g ∧
      runGen (runProgram (.arduino {}) quotedTopic) (.start .arduino) = (.ok (), c) ∧
      g.source = c.sketch.render ∧ ⟨"/t", "GOT_t"⟩ ∈ g.callbacks ∧
      c.sketch.fragment? .setup "GOT_t" = some "iot.regGot(\"\\\"/t\\\"\", &GOT_t);" ∧
      c.sketch.fragment? .setup "GOT_t" ≠ some (registering .arduino "/t" "GOT_t") := by
  obtain ⟨g, h⟩ : ∃ g, generate .arduino {} quotedTopic = .ok g :=
    Flat.exists_generated (by decide +kernel)
  obtain ⟨c, hrun, hsource, -, hsketch, -⟩ := Flat.exists_run h
  have hcallbacks : g.callbacks = [⟨"/t", "GOT_t"⟩] := by
    rw [(Flat.generate_ok h).1]
    decide +kernel
  have hfragment : c.sketch.fragment? .setup "GOT_t" =
      some "iot.regGot(\"\\\"/t\\\"\", &GOT_t);" := by
    rw [hsketch]
    decide +kernel
  refine ⟨g, c, h, hrun, hsource, by simp [hcallbacks], hfragment, ?_⟩
  rw [hfragment]
  decide +kernel

end Generation
end BoardBlocks
