/-
# Arguments that fail

A nested block that has no value is recorded, and its argument goes on as the expression without any
text.  It is no literal, unlike the text that stands in for a missing argument.  In the code of a
script this makes a difference to the same block with an empty text there:

| argument | an empty text | failed |
| --- | --- | --- |
| in the line | nothing in its place | a slot, and an empty element in the tuple behind it |
| not in the line | nothing | nothing |

The user name of a connection is blank either way, so a connection whose user name fails has no
credentials.  Everything else in the two codes is the same (`failed_argument_code`).
-/

import BoardBlocks.Proofs.SentLines
import BoardBlocks.Proofs.ValueFrames
import Mathlib.Data.List.Nodup

namespace BoardBlocks
namespace Generation

/-- The arguments in the line that a block sends, in order. -/
def lineArguments (d : Dialect) (b : Block) : List String :=
  (lineTokens d b).filterMap Token.argument?

/-- The elements of the tuple behind the line of a block, in order. -/
def lineTuple (d : Dialect) (b : Block) : List String :=
  MicroPython.expressions ((lineArguments d b).map (valueOf d b))

/-! ### The code of a line -/

section Line

variable {d : Dialect} {b b' : Block}

/-- The tokens of a line depend on the opcode and on whether there is a user name. -/
theorem lineTokens_congr (hop : b'.opcode = b.opcode)
    (hblank : (valueOf d b' "USER").isBlank = (valueOf d b "USER").isBlank) :
    lineTokens d b' = lineTokens d b := by
  unfold lineTokens
  rw [hop, hblank]

/-- The code of a block depends on its line and on the values of the arguments in it. -/
theorem sendingCode_congr (hop : b'.opcode = b.opcode)
    (hblank : (valueOf d b' "USER").isBlank = (valueOf d b "USER").isBlank)
    (h : ∀ name ∈ lineArguments d b, valueOf d b' name = valueOf d b name) :
    sendingCode d b' = sendingCode d b := by
  unfold lineArguments lineTokens at h
  simp only [sendingCode, hop, hblank]
  cases hb : b.opcode <;> simp only [hb] at h ⊢
  case connect | connectCloud =>
    cases huser : (valueOf d b "USER").isBlank <;> simp_all [Token.argument?]
  all_goals simp_all [Token.argument?]

/-- No argument is on a line twice. -/
theorem lineArguments_nodup (d : Dialect) (b : Block) : (lineArguments d b).Nodup := by
  unfold lineArguments lineTokens
  cases b.opcode <;> simp only
  case connect | connectCloud => split <;> decide
  all_goals decide

/-- A block that sends a command writes one string literal with its tuple behind it. -/
theorem sendingCode_write (settings : CodeSettings) (h : b.opcode ∈ sendingOpcodes) :
    ∃ line, sendingCode (.microPython settings) b =
      writeCode (Text.quote line) (lineTuple (.microPython settings) b) := by
  obtain ⟨command, -, hcode⟩ := sendingCode_spells settings h
  exact ⟨_, hcode.trans (writeLine_eq _ command)⟩

end Line

/-! ### Empty elements -/

/-- What an element adds to the length of a joined text that has others. -/
theorem length_intercalate_insert (sep x : String) {before after : List String}
    (h : before ++ after ≠ []) : (sep.intercalate (before ++ x :: after)).length =
      (sep.intercalate (before ++ after)).length + sep.length + x.length := by
  induction before with
  | nil =>
    have hafter : after ≠ [] := h
    rw [List.nil_append, List.nil_append, String.intercalate_cons_of_ne_nil hafter,
      String.length_append, String.length_append]
    omega
  | cons y ys ih =>
    have hne : ys ++ x :: after ≠ [] := by simp
    rw [List.cons_append, List.cons_append, String.intercalate_cons_of_ne_nil hne,
      String.length_append, String.length_append]
    by_cases hys : ys ++ after = []
    · obtain ⟨rfl, rfl⟩ := List.append_eq_nil_iff.1 hys
      simp
    · rw [ih hys, String.intercalate_cons_of_ne_nil hys, String.length_append,
        String.length_append]
      omega

/-- What stands behind the literal of a write. -/
def formatCode (expressions : List String) : String :=
  if expressions = [] then "" else " % (" ++ ", ".intercalate expressions ++ ",)"

/-- An empty element shows. -/
theorem formatCode_empty_ne (before after : List String) :
    formatCode (before ++ "" :: after) ≠ formatCode (before ++ after) := by
  have hne : before ++ "" :: after ≠ [] := by simp
  intro h
  have hlength := congrArg String.length h
  rw [formatCode, if_neg hne, formatCode] at hlength
  split_ifs at hlength with hrest
  · simp at hlength
  · have hwithout := length_intercalate_insert ", " "" hrest
    have hsep : ", ".length = 2 := rfl
    rw [String.length_append, String.length_append, String.length_append, String.length_append]
      at hlength
    omega

/-- A write can be told apart into its line and its tuple. -/
theorem writeCode_quote_inj {line line' : String} {xs ys : List String}
    (h : writeCode (Text.quote line) xs = writeCode (Text.quote line') ys) :
    line = line' ∧ formatCode xs = formatCode ys := by
  have hread : ∀ (line : String) (xs : List String),
      Text.readLiteral ((writeCode (Text.quote line) xs).toList.drop "uart.write(".length) =
        some (line.toList, (formatCode xs ++ ")").toList) := by
    intro line xs
    have hcode : (writeCode (Text.quote line) xs).toList = "uart.write(".toList ++
        (Text.quoted line.toList ++ (formatCode xs ++ ")").toList) := by
      simp [writeCode, formatCode, Text.toList_quote]
    rw [hcode, ← String.length_toList, List.drop_left]
    exact Text.readLiteral_quoted _ _
  have hboth := (hread line xs).symm.trans (h ▸ hread line' ys)
  obtain ⟨hline, htail⟩ := Prod.mk.inj (Option.some.inj hboth)
  exact ⟨String.toList_inj.1 hline, by simpa using String.toList_inj.1 htail⟩

/-! ### A failed argument and an empty text -/

section Failed

variable {d : Dialect} {b inner : Block} {name : String} {e : GenerationError} {c₀ c₁ : Context}

/-- A nested block that fails goes on as no text. -/
theorem expressionOf_of_error (h : runGen (reporter d inner) c₀ = (.error e, c₁)) :
    expressionOf d inner = "" := by
  have hreporter := reporter_evaluatesUnless d inner
  have he := (hreporter.error_iff.1 h).1
  have hstart : runGen (reporter d inner) (.start d.target) = (.error e, .start d.target) :=
    hreporter.error_iff.2 ⟨he, rfl⟩
  rw [expressionOf, runGen_absorb_error hstart, if_neg (by simp [isFatal_reporterError he])]
  rfl

/-- A nested block that fails has the empty code for its value. -/
theorem valueOf_of_error (harg : b.arg? name = some (.block inner))
    (h : runGen (reporter d inner) c₀ = (.error e, c₁)) : valueOf d b name = .ofCode "" := by
  rw [valueOf, harg, Option.map_some, Option.getD_some, argValueOf, expressionOf_of_error h]

theorem valueOf_withArg_self (d : Dialect) (b : Block) (name : String) (a : Arg) :
    valueOf d (b.withArg name a) name = argValueOf d a := by
  rw [valueOf, Block.arg?_withArg_self]
  rfl

theorem valueOf_withArg_of_ne (d : Dialect) (b : Block) {name other : String} (h : other ≠ name)
    (a : Arg) : valueOf d (b.withArg name a) other = valueOf d b other := by
  rw [valueOf, Block.arg?_withArg_of_ne b h, valueOf]

/-- Setting an argument leaves the values of all others alone. -/
theorem valueOf_withArg_of_notMem (d : Dialect) (b : Block) {name : String} {names : List String}
    (h : name ∉ names) (a : Arg) :
    ∀ other ∈ names, valueOf d (b.withArg name a) other = valueOf d b other := by
  intro other hother
  refine valueOf_withArg_of_ne d b ?_ a
  rintro rfl
  exact h hother

/-- A failed argument is as blank as an empty text. -/
theorem isBlank_withArg_of_error (harg : b.arg? name = some (.block inner))
    (h : runGen (reporter d inner) c₀ = (.error e, c₁)) (other : String) :
    (valueOf d (b.withArg name (.text "")) other).isBlank = (valueOf d b other).isBlank := by
  by_cases hother : other = name
  · obtain rfl := hother
    rw [valueOf_withArg_self, valueOf_of_error harg h]
    rfl
  · rw [valueOf_withArg_of_ne d b hother]

/-- An argument that fails is an empty element of the tuple, and an empty text is none. -/
theorem lineTuple_of_error (harg : b.arg? name = some (.block inner))
    (h : runGen (reporter d inner) c₀ = (.error e, c₁)) (hname : name ∈ lineArguments d b) :
    ∃ before after, lineTuple d b = before ++ "" :: after ∧
      lineTuple d (b.withArg name (.text "")) = before ++ after := by
  have hline : lineArguments d (b.withArg name (.text "")) = lineArguments d b :=
    congrArg (List.filterMap Token.argument?)
      (lineTokens_congr rfl (isBlank_withArg_of_error harg h "USER"))
  obtain ⟨before, after, hsplit⟩ := List.append_of_mem hname
  have hnodup := lineArguments_nodup d b
  rw [hsplit, List.nodup_middle, List.nodup_cons, List.mem_append, not_or] at hnodup
  obtain ⟨⟨hbefore, hafter⟩, -⟩ := hnodup
  -- The name stands in the line once, so no other value changes.
  have hother : ∀ names : List String, name ∉ names →
      names.map (valueOf d (b.withArg name (.text ""))) = names.map (valueOf d b) :=
    fun names hnames => List.map_congr_left (valueOf_withArg_of_notMem d b hnames _)
  refine ⟨MicroPython.expressions (before.map (valueOf d b)),
    MicroPython.expressions (after.map (valueOf d b)), ?_, ?_⟩
  · rw [lineTuple, hsplit, List.map_append, List.map_cons, valueOf_of_error harg h]
    simp [MicroPython.expressions, Value.ofCode]
  · rw [lineTuple, hline, hsplit, List.map_append, List.map_cons, hother before hbefore,
      hother after hafter, valueOf_withArg_self]
    simp [MicroPython.expressions, argValueOf, Value.ofText]

end Failed

/-- **A failed argument is not an empty text.**  Take a block that sends a command, with a nested
block as an argument whose translation fails.  Next to the same block with an empty text there, it
gives the same code exactly if the argument does not stand in the line.

If it does, then both write one string literal, and the tuple behind it has an empty element for the
failed argument and none for the empty text; the other elements are the same. -/
theorem failed_argument_code (settings : CodeSettings) {b inner : Block} {name : String}
    (hb : b.opcode ∈ sendingOpcodes) (harg : b.arg? name = some (.block inner))
    {e : GenerationError} {c₀ c₁ : Context}
    (hfails : runGen (reporter (.microPython settings) inner) c₀ = (.error e, c₁))
    (rest : List Block) (c : Context) :
    ∃ code code' c' c'', runGen (command (.microPython settings) b rest) c = (.ok code, c') ∧
      runGen (command (.microPython settings) (b.withArg name (.text "")) rest) c =
        (.ok code', c'') ∧
      (code = code' ↔ name ∉ lineArguments (.microPython settings) b) ∧
      (name ∈ lineArguments (.microPython settings) b → ∃ line line' before after,
        code = writeCode (Text.quote line) (before ++ "" :: after) ∧
        code' = writeCode (Text.quote line') (before ++ after)) := by
  have hb' : (b.withArg name (.text "")).opcode ∈ sendingOpcodes := hb
  have hcodes : name ∈ lineArguments (.microPython settings) b → ∃ line line' before after,
      sendingCode (.microPython settings) b =
        writeCode (Text.quote line) (before ++ "" :: after) ∧
      sendingCode (.microPython settings) (b.withArg name (.text "")) =
        writeCode (Text.quote line') (before ++ after) := by
    intro hname
    obtain ⟨before, after, htuple, htuple'⟩ := lineTuple_of_error harg hfails hname
    obtain ⟨line, hline⟩ := sendingCode_write settings hb
    obtain ⟨line', hline'⟩ := sendingCode_write settings hb'
    exact ⟨line, line', before, after, htuple ▸ hline, htuple' ▸ hline'⟩
  refine ⟨_, _, _, _, command_writes .microPython _ hb (chain _ rest) c,
    command_writes .microPython _ hb' (chain _ rest) c, ⟨?_, fun hname => ?_⟩, hcodes⟩
  · intro hsame hname
    obtain ⟨line, line', before, after, hcode, hcode'⟩ := hcodes hname
    rw [hcode, hcode'] at hsame
    exact formatCode_empty_ne before after (writeCode_quote_inj hsame).2
  · have hop : (b.withArg name (.text "")).opcode = b.opcode := rfl
    have hblank := isBlank_withArg_of_error harg hfails "USER"
    exact (sendingCode_congr hop hblank (valueOf_withArg_of_notMem _ b hname _)).symm

/-- Source text without any. -/
def noText : Block where
  opcode := .expr

/-- A connection whose user name is read at run time, and whose password has no source text. -/
def unreadPassword : Block where
  opcode := .connectCloud
  args := [("CLIENTID", .text "c"), ("PASS", .block noText), ("SERVER", .text "s"),
    ("USER", .block { opcode := .expr, text := some "user()" })]

/-- Its code is not that of the connection with an empty password. -/
theorem failed_argument_code_unreadPassword :
    let d := Dialect.microPython {}
    ∃ code code' c' c'', runGen (command d unreadPassword []) (.start .microPython) =
        (.ok code, c') ∧
      runGen (command d (unreadPassword.withArg "PASS" (.text "")) []) (.start .microPython) =
        (.ok code', c'') ∧
      code ≠ code' ∧
      ∃ line line' before after, code = writeCode (Text.quote line) (before ++ "" :: after) ∧
        code' = writeCode (Text.quote line') (before ++ after) := by
  intro d
  have hb : unreadPassword.opcode ∈ sendingOpcodes := by decide
  have harg : unreadPassword.arg? "PASS" = some (.block noText) := rfl
  have hfails : runGen (reporter d noText) (.start .microPython) =
      (.error (.missingArgument .expr "text"), .start .microPython) := rfl
  have hname : "PASS" ∈ lineArguments d unreadPassword := by decide +kernel
  obtain ⟨code, code', c', c'', hrun, hrun', hsame, hline⟩ :=
    failed_argument_code {} hb harg hfails [] (.start .microPython)
  exact ⟨code, code', c', c'', hrun, hrun', fun h => hsame.1 h hname, hline hname⟩

/-- Publishing data without source text: the tuple of the write is one comma. -/
theorem publish_failed_data :
    let d := Dialect.microPython {}
    let b : Block :=
      { opcode := .publish, args := [("DATA", .block noText), ("TOPIC", .text "/t")] }
    let code (b : Block) := (runGen (command d b []) (.start .microPython)).1.toOption
    reporterError? noText = some (.missingArgument .expr "text") ∧
      code b = some "uart.write(\"WF 11 4 11 0 0 /t %s\\n\" % (,))" ∧
      code (b.withArg "DATA" (.text "")) = some "uart.write(\"WF 11 4 11 0 0 /t \\n\")" := by
  decide +kernel

end Generation
end BoardBlocks
