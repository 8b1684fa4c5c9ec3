/-
# Where a subscription and a hat meet

A script asks for a topic with a subscription, and the firmware reports what arrives on it under the
topic of that line.  The routine is looked up under the topic that its hat was registered with.  The
same text is cleaned in two ways:

| | double quotes | single quotes | white space at the ends |
| --- | --- | --- | --- |
| on the line (`cleanArg`) | dropped | kept | dropped |
| in the table (`topicKey`) | dropped | dropped | kept |

So a hat hears what a subscription with its very text asked for if and only if the text has no
single quote and, but for double quotes, no white space at its ends (`dispatch_subscribed_iff`).
-/

import BoardBlocks.Proofs.CommandFrames
import BoardBlocks.Proofs.KeptRoutines
import BoardBlocks.Proofs.SentLines
import BoardBlocks.Wire.Dispatcher

namespace BoardBlocks

/-! ### One text, cleaned in two ways -/

/-- A key is a topic without single quotes, once its double quotes are dropped. -/
theorem toList_topicKey_eq (topic : String) :
    (topicKey topic).toList = (topic.toList.filter (· ≠ '"')).filter (· ≠ '\'') := by
  rw [toList_topicKey, List.filter_filter]
  refine List.filter_congr fun c _ => ?_
  simp [isQuote, Bool.and_comm]

namespace Wire

/-- **When a topic is the same on the line and in the table.** -/
theorem cleanArg_eq_topicKey_iff (topic : String) : cleanArg topic = topicKey topic ↔
    '\'' ∉ topic.toList ∧ cleanChars topic.toList = topic.toList.filter (· ≠ '"') := by
  rw [← String.toList_inj, toList_cleanArg, toList_topicKey_eq, cleanChars]
  have hquote : '\'' ∈ topic.toList ↔ '\'' ∈ topic.toList.filter (· ≠ '"') := by simp
  rw [hquote]
  generalize topic.toList.filter (· ≠ '"') = cs
  have hplain : '\'' ∉ cs → cs.filter (· ≠ '\'') = cs := filter_ne_of_not_mem
  constructor
  · intro h
    -- A single quote would stay on the line, for it is no white space.
    have hnone : '\'' ∉ cs := by
      intro hmem
      have hstays : '\'' ∈ Text.stripBlank cs := Text.mem_stripBlank (by decide) hmem
      rw [h] at hstays
      simp at hstays
    exact ⟨hnone, h.trans (hplain hnone)⟩
  · rintro ⟨hnone, h⟩
    rw [h, hplain hnone]

namespace Dispatcher

/-- The dispatcher of a list of callbacks, registered in order; a handler is known by its name. -/
def ofBindings (bs : List Binding) : Dispatcher String :=
  bs.foldl (fun d b => (d.register b.topic b.name).1) {}

/-- The callbacks of keys fire for those keys only, each of them its own. -/
theorem handler?_ofBindings (keys : List String) (topic : String) :
    (ofBindings (Callbacks.bindingsOf keys)).handler? topic =
      if topic ∈ keys then some (callbackName topic) else none := by
  induction keys using List.reverseRecOn with
  | nil => rfl
  | append_singleton keys key ih =>
    rw [Callbacks.bindingsOf, List.map_append, ofBindings, List.foldl_append, ← ofBindings,
      ← Callbacks.bindingsOf]
    show (register _ key (callbackName key)).1.handler? topic = _
    by_cases h : topic = key
    · subst h
      rw [handler?_register_self, if_pos (by simp)]
    · rw [handler?_register_of_ne _ h, ih]
      simp [h]

end Dispatcher
end Wire

namespace Generation

open Wire (Command Dispatcher Frame cleanArg cleanChars)

/-! ### Subscriptions of a chain -/

namespace Flat

/-- The code of the commands of a program: of each script that in the body of its stage, then that
in its routines. -/
def written (d : Dialect) (p : Program) : List String :=
  p.scripts.flatMap fun s => statementsOf d (leading s.blocks) ++
    (reached s.blocks).flatMap fun h => statementsOf d h.body

/-- The blocks that are no hats stand before the first hat or in the body of a hat. -/
theorem mem_of_mem_visited {b : Block} (h : isHat b = false) {bs : List Block}
    (hb : b ∈ visited bs) : b ∈ leading bs ∨ ∃ hat ∈ reached bs, b ∈ hat.body := by
  have hne : ∀ {x : Block}, isHat x = true → b ≠ x := by
    rintro x hx rfl
    exact Bool.false_ne_true (h.symm.trans hx)
  induction bs using chain_induction with
  | nil => exact absurd hb List.not_mem_nil
  | plain x bs hx hend ih =>
    rw [leading_cons hx, reached_cons hx]
    rw [visited_cons hend] at hb
    rcases List.mem_cons.1 hb with rfl | hb
    · exact .inl List.mem_cons_self
    · exact (ih hb).imp_left (List.mem_cons_of_mem x)
  | hat x bs hx ht hend ih =>
    rw [visited_cons hend] at hb
    rw [reached_cons_hat hx ht]
    rcases ih ((List.mem_cons.1 hb).resolve_left (hne hx)) with hb | ⟨hat, hhat, hb⟩
    · exact .inr ⟨_, List.mem_cons_self, hb⟩
    · exact .inr ⟨hat, List.mem_cons_of_mem _ hhat, hb⟩
  | invalid x bs hx ht hend =>
    rw [visited_cons_invalid hend] at hb
    exact absurd (List.mem_singleton.1 hb) (hne hx)

/-- The code of every command that a generation comes to is written. -/
theorem codeOf_mem_written (d : Dialect) {p : Program} {s : Script} (hs : s ∈ p.scripts)
    {b : Block} (h : b.opcode.shape = .command) (hb : b ∈ visited s.blocks) :
    codeOf d b ∈ written d p := by
  have hcode : ∀ {bs : List Block}, b ∈ bs → codeOf d b ∈ statementsOf d bs := fun hb =>
    List.mem_map_of_mem (List.mem_filter.2 ⟨hb, decide_eq_true h⟩)
  have hhat : isHat b = false := by simp [isHat, h]
  refine List.mem_flatMap.2 ⟨s, hs, ?_⟩
  rcases mem_of_mem_visited hhat hb with hb | ⟨hat, hreached, hb⟩
  · exact List.mem_append_left _ (hcode hb)
  · exact List.mem_append_right _ (List.mem_flatMap.2 ⟨hat, hreached, hcode hb⟩)

end Flat

/-! ### What a subscription writes -/

/-- An argument that is a literal has it for the literal of its value. -/
theorem literal_valueOf (d : Dialect) {b : Block} {name content : String}
    (h : b.literal? name = some content) : (valueOf d b name).literal = some content := by
  unfold Block.literal? at h
  unfold valueOf
  split at h
  · rename_i text harg
    rw [harg]
    exact h
  · rename_i n harg
    rw [harg]
    exact h
  · exact nomatch h

/-- The code of a subscription to a literal topic is a write of its line. -/
theorem codeOf_subscribe (settings : CodeSettings) {b : Block} (hop : b.opcode = .subscribe)
    {topic : String} (h : b.literal? "TOPIC" = some topic) :
    Flat.codeOf (.microPython settings) b =
      writeCode (Text.quote (Command.subscribe topic).encode) [] := by
  have hmem : b.opcode ∈ sendingOpcodes := by
    rw [hop]
    decide
  have hwrites := command_writes .microPython (.microPython settings) hmem
    (chain (.microPython settings) [])
  rw [Flat.codeOf, Flat.translation, command, hwrites]
  show sendingCode (.microPython settings) b = _
  have hliteral := literal_valueOf (.microPython settings) h
  have hliterals : ∀ v ∈ [valueOf (.microPython settings) b "TOPIC"], v.literal.isSome := by
    simp [hliteral]
  have hline := writeLine_literals hliterals fun text =>
    .subscribe (text (valueOf (.microPython settings) b "TOPIC"))
  simp only [hliteral, Option.getD_some] at hline
  rw [sendingCode, hop]
  exact hline

/-- The frame of a subscription whose cleaned topic has no space. -/
theorem parse_subscribe {topic : String} (h : ' ' ∉ (cleanArg topic).toList) :
    Frame.parse (Command.subscribe topic).encode =
      .ok { opcode := 12, fields := ["2", "0", cleanArg topic, "0"] } := by
  have hzero : Wire.pieces "0" = ["0"] := by decide
  have hcount : toString (Command.subscribe topic).count = "2" := by
    rw [Command.count]
    decide
  rw [Command.parse_encode, hcount]
  simp only [Command.fields, List.flatMap_cons, List.flatMap_nil, hzero,
    Wire.pieces_of_not_mem h]
  rfl

/-- The callbacks of a program fire for the topics of its hats, each of them its own routine. -/
theorem dispatch_ofBindings {target : Target} {settings : CodeSettings} {p : Program}
    {g : Generated} (h : generate target settings p = .ok g) (topic payload : String) :
    (Dispatcher.ofBindings g.callbacks).dispatch ⟨topic, payload⟩ =
      if topic ∈ Flat.keys p then some (callbackName topic, payload) else none := by
  have hcallbacks : g.callbacks = Callbacks.bindingsOf (Flat.keys p).eraseDups := by
    rw [(Flat.generate_ok h).1]
    rfl
  rw [Dispatcher.dispatch, hcallbacks, Dispatcher.handler?_ofBindings]
  by_cases hmem : topic ∈ Flat.keys p <;> simp [hmem]

/-- **When a hat hears what a subscription asked for.**  In a MicroPython program that generates, a
subscription to a literal topic writes one line, in which the topic stands cleaned.  A notification
on the topic of that line fires the routine of a hat with the same text if and only if the text has
no single quote and no white space at its ends once its double quotes are dropped. -/
theorem dispatch_subscribed_iff {settings : CodeSettings} {p : Program} {g : Generated}
    (h : generate .microPython settings p = .ok g) {s s' : Script} (hs : s ∈ p.scripts)
    (hs' : s' ∈ p.scripts) {b : Block} (hb : b ∈ Flat.visited s.blocks)
    (hop : b.opcode = .subscribe) {hat : Flat.Hat} (hhat : hat ∈ Flat.reached s'.blocks)
    {topic : String} (hsubscribed : b.literal? "TOPIC" = some topic)
    (htopic : hatTopic hat.block = .ok topic) (hspace : ' ' ∉ (cleanArg topic).toList)
    (payload : String) :
    ∃ literal line, Flat.codeOf (.microPython settings) b = writeCode literal [] ∧
      writeCode literal [] ∈ Flat.written (.microPython settings) p ∧
      sentText? literal [] = some line ∧
      Frame.parse line = .ok { opcode := 12, fields := ["2", "0", cleanArg topic, "0"] } ∧
      ((Dispatcher.ofBindings g.callbacks).dispatch ⟨cleanArg topic, payload⟩ =
          some (hat.name, payload) ↔
        '\'' ∉ topic.toList ∧ cleanChars topic.toList = topic.toList.filter (· ≠ '"')) := by
  obtain ⟨-, t, ht⟩ := Flat.generate_ok h
  have hshape : b.opcode.shape = .command := by rw [hop]; rfl
  have hcode := codeOf_subscribe settings hop hsubscribed
  have hwritten := Flat.codeOf_mem_written (.microPython settings) hs hshape hb
  rw [hcode] at hwritten
  refine ⟨_, _, hcode, hwritten, sentText?_quote_nil _, parse_subscribe hspace, ?_⟩
  have hkey : hat.key = topicKey topic := by
    rw [Flat.Hat.key, Flat.Hat.topic, htopic]
    rfl
  have hmem : hat.key ∈ Flat.keys p := Flat.mem_keys_of_mem hs' hhat
  rw [dispatch_ofBindings h, ← Wire.cleanArg_eq_topicKey_iff, ← hkey]
  constructor
  · intro hfires
    split at hfires
    · rename_i hasked
      have hname := congrArg Prod.fst (Option.some.inj hfires)
      exact ht.eq_of_name_eq _ hasked _ hmem hname
    · exact nomatch hfires
  · intro hmeet
    rw [hmeet, if_pos hmem]
    rfl

/-- A program that subscribes to a topic and has a hat with the same text. -/
def askingFor (topic : String) : Program :=
  ⟨[⟨.setup, [{ opcode := .subscribe, args := [("TOPIC", .text topic)] },
    { opcode := .onTopic, args := [("TOPIC", .text topic)] }]⟩]⟩

/-- Double quotes are dropped on the line and in the table. -/
theorem dispatch_subscribed_iff_doubleQuoted :
    ∃ g line, generate .microPython {} (askingFor "\"/t\"") = .ok g ∧
      Frame.parse line = .ok { opcode := 12, fields := ["2", "0", "/t", "0"] } ∧
      (Dispatcher.ofBindings g.callbacks).dispatch ⟨"/t", "42"⟩ = some ("GOT_t", "42") := by
  obtain ⟨g, h⟩ : ∃ g, generate .microPython {} (askingFor "\"/t\"") = .ok g :=
    Flat.exists_generated (by decide +kernel)
  let b : Block := { opcode := .subscribe, args := [("TOPIC", .text "\"/t\"")] }
  let hat : Flat.Hat := ⟨{ opcode := .onTopic, args := [("TOPIC", .text "\"/t\"")] }, []⟩
  have hb : b ∈ Flat.visited [b, hat.block] := List.mem_cons_self
  have hhat : hat ∈ Flat.reached [b, hat.block] := List.mem_cons_self
  have htopic : hatTopic hat.block = .ok "\"/t\"" := rfl
  obtain ⟨literal, line, -, -, -, hframe, hiff⟩ := dispatch_subscribed_iff h List.mem_cons_self
    List.mem_cons_self hb rfl hhat rfl htopic (by decide) "42"
  have hclean : cleanArg "\"/t\"" = "/t" := by decide
  have hname : hat.name = "GOT_t" := by decide +kernel
  rw [hclean, hname] at hiff
  rw [hclean] at hframe
  exact ⟨g, line, h, hframe, hiff.2 (by decide)⟩

/-- A topic under which a subscription and a hat with its very text miss each other: the program
generates and has the hat, the subscription is for one topic without spaces and line feeds, and no
notification on that topic fires anything. -/
def Misses (topic : String) : Prop :=
  ' ' ∉ (cleanArg topic).toList ∧ '\n' ∉ (cleanArg topic).toList ∧
    ∃ g line, generate .microPython {} (askingFor topic) = .ok g ∧
      Flat.topics (askingFor topic).scripts = [topic] ∧
      writeCode (Text.quote line) [] ∈ Flat.written (.microPython {}) (askingFor topic) ∧
      Frame.parse line = .ok { opcode := 12, fields := ["2", "0", cleanArg topic, "0"] } ∧
      ∀ payload,
        (Dispatcher.ofBindings g.callbacks).dispatch ⟨cleanArg topic, payload⟩ = none

/-- If no hat has the cleaned topic for its key, subscription and hat miss each other. -/
theorem Misses.of_not_mem_keys {topic : String} (hspace : ' ' ∉ (cleanArg topic).toList)
    (hfeed : '\n' ∉ (cleanArg topic).toList)
    (hok : (generate .microPython {} (askingFor topic)).toOption.isSome = true)
    (htopics : Flat.topics (askingFor topic).scripts = [topic])
    (hkeys : cleanArg topic ∉ Flat.keys (askingFor topic)) : Misses topic := by
  obtain ⟨g, h⟩ := Flat.exists_generated hok
  let b : Block := { opcode := .subscribe, args := [("TOPIC", .text topic)] }
  have hwritten : Flat.codeOf (.microPython {}) b ∈
      Flat.written (.microPython {}) (askingFor topic) :=
    Flat.codeOf_mem_written _ List.mem_cons_self rfl List.mem_cons_self
  rw [codeOf_subscribe {} rfl rfl] at hwritten
  refine ⟨hspace, hfeed, g, _, h, htopics, hwritten, parse_subscribe hspace, fun payload => ?_⟩
  rw [dispatch_ofBindings h, if_neg hkeys]

/-- **A subscription and a hat with the same text can miss each other**: with single quotes around
the topic, and with white space around it. -/
theorem dispatch_misses_subscribed : Misses "'/t'" ∧ Misses " /t " :=
  ⟨.of_not_mem_keys (by decide) (by decide) (by decide +kernel) (by decide +kernel)
      (by decide +kernel),
    .of_not_mem_keys (by decide) (by decide) (by decide +kernel) (by decide +kernel)
      (by decide +kernel)⟩

end Generation
end BoardBlocks
