/-
# The names that a script binds itself

Besides the routines of its hats a MicroPython script binds six names at its top level, in the
imports, definitions and functions that the blocks of the palette bring along:

| bound by | names |
| --- | --- |
| imports | `UART`, `sleep_ms` |
| definitions | `uart`, `GOT_HANDLERS`, `linebuf` |
| functions | `iotSerialWork` |

Every routine name starts with `GOT`, so the table `GOT_HANDLERS` is the only one of the six that a
routine can have.  It has it for the topics `/HANDLERS` and `_HANDLERS` and no others
(`callbacks_reserved_iff`).  Nothing refuses these two: the routine then takes the place of the
table that it is to be entered in (`generate_rebinds_handlers`).
-/

import BoardBlocks.Proofs.CallbackNames
import BoardBlocks.Proofs.FlatSource

namespace BoardBlocks

/-! ### Which topics have the name of the table -/

/-- The topics whose routine has the name of the table of routines. -/
theorem callbackName_eq_handlers_iff (topic : String) :
    callbackName topic = Generation.MicroPython.handlers ↔
      topicKey topic = "/HANDLERS" ∨ topicKey topic = "_HANDLERS" := by
  have hname : Generation.MicroPython.handlers = callbackName "/HANDLERS" := by decide
  have hkey : (topicKey "/HANDLERS").toList = '/' :: "HANDLERS".toList := by decide
  rw [hname, callbackName_eq_iff, hkey, List.forall₂_cons_right_iff, ← String.toList_inj,
    ← String.toList_inj]
  constructor
  · rintro ⟨c, cs, hc, hcs, hchars⟩
    rw [hchars, (forall₂_namedAlike_iff_eq (by decide) (by decide)).1 hcs]
    rcases (nameChar_eq_underscore_iff c).1 ((nameChar_eq_iff c '/').2 hc) with rfl | rfl
    · exact .inl rfl
    · exact .inr rfl
  · rintro (h | h) <;>
      exact ⟨_, _, by decide, (forall₂_namedAlike_iff_eq (by decide) (by decide)).2 rfl, h⟩

namespace Generation

/-! ### The names at the top level -/

namespace MicroPython

/-- Whether a character may stand in a Python name made of ASCII characters. -/
def isIdentifierChar (c : Char) : Bool :=
  c.isAlphanum || c = '_'

/-- The name that a statement binds at the top level of a script, on characters: the name imported
by a `from`, the function defined by a `def`, or the left side of an assignment. -/
def boundChars (cs : List Char) : List Char :=
  if "from ".toList.isPrefixOf cs then (cs.reverse.takeWhile (· ≠ ' ')).reverse
  else if "def ".toList.isPrefixOf cs then (cs.drop 4).takeWhile isIdentifierChar
  else cs.takeWhile isIdentifierChar

/-- The name that a statement binds at the top level of a script. -/
def boundName (statement : String) : String :=
  String.ofList (boundChars statement.toList)

/-- The fragments that stand at the top level of a script and bind a name there. -/
def topLevel (cs : List Contribution) : List Contribution :=
  cs.filter fun c => c.part = .headers || c.part = .definitions || c.part = .functions

/-- The names that the blocks of the palette bind, hats apart. -/
def reservedNames (settings : CodeSettings) : List String :=
  (topLevel (boilerplate settings ++ serialWork)).map fun c => boundName c.fragment

/-- The text of a routine binds its name. -/
theorem boundName_routine {r : Snippet.PyRoutine} (h : r.name.toList.all isIdentifierChar) :
    boundName r.text = r.name := by
  obtain ⟨rest, hrest⟩ : ∃ rest : List Char,
      r.text.toList = "def ".toList ++ (r.name.toList ++ '(' :: rest) := by
    simp only [Snippet.PyRoutine.text, String.toList_append, List.append_assoc]
    exact ⟨_, rfl⟩
  have hbound : ∀ cs : List Char,
      boundChars ("def ".toList ++ cs) = cs.takeWhile isIdentifierChar := fun _ => rfl
  have hparen : isIdentifierChar '(' = false := by decide
  rw [boundName, hrest, hbound, List.takeWhile_append_of_pos (List.all_eq_true.1 h),
    List.takeWhile_cons, hparen]
  simp

/-- **The six names that a script binds itself**, whatever the settings. -/
theorem reservedNames_eq (settings : CodeSettings) : reservedNames settings =
    ["UART", "sleep_ms", "uart", "GOT_HANDLERS", "linebuf", "iotSerialWork"] := by
  -- Only the line that opens the port depends on the settings, and only behind its name.
  have hport : ∀ rest : String, boundName ("uart = UART(" ++ rest) = "uart" := by
    intro rest
    rw [boundName, String.toList_append]
    rfl
  have hnames : reservedNames settings = [boundName "from machine import UART",
      boundName "from utime import sleep_ms",
      boundName ("uart = UART(" ++ toString settings.uartId.toNat ++ ", " ++
        toString settings.serialBaud.toNat ++ ")"),
      boundName (handlers ++ " = \x7b\x7d"), boundName "linebuf = ''",
      boundName (Snippet.PyRoutine.text
        { name := serialRoutine, globals := ["linebuf"], body := [serialBody] })] := rfl
  rw [hnames, String.append_assoc, String.append_assoc, String.append_assoc, hport,
    boundName_routine (by decide)]
  decide

/-- Of the names that a script binds itself a routine can only have that of the table. -/
theorem callbackName_mem_reservedNames_iff (settings : CodeSettings) (topic : String) :
    callbackName topic ∈ reservedNames settings ↔
      topicKey topic = "/HANDLERS" ∨ topicKey topic = "_HANDLERS" := by
  rw [← callbackName_eq_handlers_iff, reservedNames_eq]
  have hne : ∀ name : String, name.toList.take 3 ≠ "GOT".toList → callbackName topic ≠ name := by
    rintro name hname rfl
    rw [toList_callbackName] at hname
    exact hname rfl
  simp [handlers, hne "UART" (by decide), hne "sleep_ms" (by decide), hne "uart" (by decide),
    hne "linebuf" (by decide), hne "iotSerialWork" (by decide)]

end MicroPython

/-- **Which routines take a name that the script binds itself.**  The routines of a script have
pairwise different names.  One of them has a name of the script's own exactly if its topic is
`/HANDLERS` or `_HANDLERS`. -/
theorem callbacks_reserved_iff {settings : CodeSettings} {p : Program} {g : Generated}
    (h : generate .microPython settings p = .ok g) :
    (g.callbacks.map (·.name)).Nodup ∧
      ∀ b ∈ g.callbacks, b.name ∈ MicroPython.reservedNames settings ↔
        b.topic = "/HANDLERS" ∨ b.topic = "_HANDLERS" := by
  obtain ⟨hg, t, ht⟩ := Flat.generate_ok h
  have hcallbacks : g.callbacks = t.bindings := by
    rw [ht.bindings_eq, hg]
    rfl
  rw [hcallbacks]
  refine ⟨ht.nodup_names, fun b hb => ?_⟩
  rw [ht.bindings_eq, Callbacks.bindingsOf] at hb
  obtain ⟨key, hkey, rfl⟩ := List.mem_map.1 hb
  -- A key has no quotes left, so it is the topic that its name is made from.
  have hclean : topicKey key = key := by
    obtain ⟨s, -, hs⟩ := List.mem_flatMap.1 (List.mem_eraseDups.1 hkey)
    obtain ⟨hat, -, rfl⟩ := List.mem_map.1 hs
    exact topicKey_topicKey hat.topic
  rw [MicroPython.callbackName_mem_reservedNames_iff, hclean]

/-- A program with hats on `/HANDLERS` and `/t`. -/
def handlersTopic : Program :=
  let onTopic (topic : String) : Block := { opcode := .onTopic, args := [("TOPIC", .text topic)] }
  ⟨[⟨.setup, [onTopic "/HANDLERS"]⟩, ⟨.setup, [onTopic "/t"]⟩]⟩

/-- The two topics have names of their own, so the program generates what it reads as. -/
theorem generate_handlersTopic : generate .microPython {} handlersTopic =
    .ok (Flat.generated (.microPython {}) handlersTopic) := by
  have hreg : (Callbacks.registerAll {} (Flat.topics handlersTopic.scripts)).toOption.isSome =
      true := by decide +kernel
  rw [Flat.generate_eq]
  cases h : Callbacks.registerAll {} (Flat.topics handlersTopic.scripts) with
  | error c =>
    rw [h] at hreg
    exact nomatch hreg
  | ok t => rfl

/-- The table has one callback for each of the two topics. -/
theorem callbacks_handlersTopic : (Flat.generated (.microPython {}) handlersTopic).callbacks =
    [⟨"/HANDLERS", "GOT_HANDLERS"⟩, ⟨"/t", "GOT_t"⟩] := by
  decide +kernel

/-- Of two routines the one of `/HANDLERS` has a name of the script's own. -/
theorem callbacks_reserved_iff_handlersTopic :
    ∃ g, generate .microPython {} handlersTopic = .ok g ∧
      g.callbacks = [⟨"/HANDLERS", "GOT_HANDLERS"⟩, ⟨"/t", "GOT_t"⟩] ∧
      "GOT_HANDLERS" ∈ MicroPython.reservedNames {} ∧
      "GOT_t" ∉ MicroPython.reservedNames {} := by
  obtain ⟨-, hiff⟩ := callbacks_reserved_iff generate_handlersTopic
  rw [callbacks_handlersTopic] at hiff
  have htable := hiff ⟨"/HANDLERS", "GOT_HANDLERS"⟩ (by simp)
  have hother := hiff ⟨"/t", "GOT_t"⟩ (by simp)
  refine ⟨_, generate_handlersTopic, callbacks_handlersTopic, htable.2 (.inl rfl), fun hmem => ?_⟩
  exact absurd (hother.1 hmem) (by decide)

/-- **A script can rebind the table of its routines.**  The definitions make the table, a routine
of the same name takes its place, and the statement that should enter the routine in the table is
then one on the routine. -/
theorem generate_rebinds_handlers :
    ∃ g, generate .microPython {} handlersTopic = .ok g ∧
      (∃ b ∈ g.callbacks, b.name ∈ MicroPython.reservedNames {}) ∧
      ∃ s : Sketch, g.source = s.render ∧
        s.fragment? .definitions "iot_handlers" = some "GOT_HANDLERS = \x7b\x7d" ∧
        s.fragment? .functions "GOT_HANDLERS" = some "def GOT_HANDLERS(topicData):\n    pass\n" ∧
        s.fragment? .setup "GOT_HANDLERS" = some "GOT_HANDLERS[\"/HANDLERS\"] = GOT_HANDLERS" := by
  refine ⟨_, generate_handlersTopic, ⟨⟨"/HANDLERS", "GOT_HANDLERS"⟩, ?_, ?_⟩,
    Flat.sketch (.microPython {}) handlersTopic, rfl, ?_, ?_, ?_⟩
  · rw [callbacks_handlersTopic]
    exact List.mem_cons_self
  · rw [MicroPython.reservedNames_eq]
    decide
  all_goals decide +kernel

end Generation
end BoardBlocks
