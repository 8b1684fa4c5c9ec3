/-
# The lines that a script sends

Each command of a script is one write to the serial line.  What it writes is given by tokens, words
and arguments of the block, behind the marker of the protocol:

| block | tokens |
| --- | --- |
| connect | `15 2 15` `SERVER` `CLIENTID` |
| connect with a user name | `15 4 15` `SERVER` `CLIENTID` `USER` `PASS` |
| join a network | `52 2 52` `AP` `PASS` |
| publish | `11 4 11 0 0` `TOPIC` `DATA` |
| subscribe | `12 2 0` `TOPIC` `0` |

The line has single spaces between the tokens and a line feed at its end.  A literal argument stands
in it without double quotes and without white space at its ends, an expression as the text that it
has at run time (`intendedLine`).

The code gets there in three layers: percent signs are doubled if the line is a format, arguments
are cleaned, and the whole line is escaped as a string literal.  Read back as Python, it sends the
line that was intended (`command_sends`).  Expressions are opaque: an expression is any text, and
has any text at run time.
-/

import BoardBlocks.Proofs.CommandCode
import BoardBlocks.Proofs.Formats
import BoardBlocks.Proofs.StringLiterals

namespace BoardBlocks
namespace Generation

open Wire (Command cleanArg cleanChars)

/-! ### Lines as tokens -/

/-- A token of a line: a fixed word, or an argument of the block. -/
inductive Token where
  | word (text : String)
  | argument (name : String)
deriving DecidableEq, Repr

namespace Token

/-- The argument that stands in a token. -/
def argument? : Token → Option String
  | .word _ => none
  | .argument name => some name

/-- The text of a token, from the texts of the arguments. -/
def render (argument : String → String) : Token → String
  | .word text => text
  | .argument name => argument name

/-- What an argument says in a line: a literal its own text, cleaned, and an expression what it
evaluates to. -/
def said (values : String → Value) (results : String → String) (name : String) : String :=
  match (values name).literal with
  | some content => cleanArg content
  | none => results name

/-- The arguments in a list of tokens that are expressions, in order. -/
def slots (values : String → Value) (tokens : List Token) : List String :=
  (tokens.filterMap argument?).filter fun name => (values name).literal.isNone

/-- The line of a list of tokens. -/
def line (values : String → Value) (results : String → String) (tokens : List Token) : String :=
  " ".intercalate (tokens.map (render (said values results))) ++ "\n"

end Token

/-- The tokens of the line that a block sends.  The credentials of a connection count if its user
name is not blank. -/
def lineTokens (d : Dialect) (b : Block) : List Token :=
  .word Wire.marker :: match b.opcode with
  | .connect | .connectCloud =>
    if (valueOf d b "USER").isBlank then
      [.word "15", .word "2", .word "15", .argument "SERVER", .argument "CLIENTID"]
    else
      [.word "15", .word "4", .word "15", .argument "SERVER", .argument "CLIENTID",
        .argument "USER", .argument "PASS"]
  | .joinNetwork => [.word "52", .word "2", .word "52", .argument "AP", .argument "PASS"]
  | .publish => [.word "11", .word "4", .word "11", .word "0", .word "0", .argument "TOPIC",
      .argument "DATA"]
  | .subscribe => [.word "12", .word "2", .word "0", .argument "TOPIC", .word "0"]
  | _ => []

/-- The arguments in the line of a block that are expressions, in order. -/
def expressionSlots (d : Dialect) (b : Block) : List String :=
  Token.slots (valueOf d b) (lineTokens d b)

/-- The line that a block should send, given what its expressions evaluate to. -/
def intendedLine (d : Dialect) (b : Block) (results : String → String) : String :=
  Token.line (valueOf d b) results (lineTokens d b)

/-! ### Writes in Python -/

/-- A write of a literal, formatted with a tuple of expressions if there are any. -/
def writeCode (literal : String) (expressions : List String) : String :=
  "uart.write(" ++ literal ++
    (if expressions = [] then "" else " % (" ++ ", ".intercalate expressions ++ ",)") ++ ")"

/-- What a write sends whose expressions evaluate to `results`: the text of the literal, which has
to be one literal and nothing else, formatted with the results if there are any. -/
def sentText? (literal : String) (results : List String) : Option String :=
  match Text.readLiteral literal.toList with
  | some (text, []) =>
    if results = [] then some (String.ofList text)
    else (Format.fill text (results.map String.toList)).map String.ofList
  | _ => none

theorem readLiteral_quote (s : String) :
    Text.readLiteral (Text.quote s).toList = some (s.toList, []) := by
  have h := Text.readLiteral_quoted s.toList []
  rwa [List.append_nil, ← Text.toList_quote] at h

/-- A quoted text is sent as it is, if nothing is formatted into it. -/
theorem sentText?_quote_nil (s : String) : sentText? (Text.quote s) [] = some s := by
  simp only [sentText?, readLiteral_quote, if_pos, String.ofList_toList]

/-- A quoted text is sent as what the results make of it. -/
theorem sentText?_quote {s : String} {results : List String} (hne : results ≠ []) {cs : List Char}
    (h : Format.fill s.toList (results.map String.toList) = some cs) :
    sentText? (Text.quote s) results = some (String.ofList cs) := by
  simp only [sentText?, readLiteral_quote, if_neg hne, h, Option.map_some]

/-- A write of a literal formats nothing. -/
theorem write_eq (literal : String) : MicroPython.write literal = writeCode literal [] := by
  rw [← String.toList_inj]
  simp [MicroPython.write, MicroPython.uart, Snippet.Call.text, Snippet.commaList, writeCode]

/-- A write of a literal and a tuple formats the expressions of the tuple. -/
theorem write_format_eq {literal : String} {expressions : List String} (h : expressions ≠ []) :
    MicroPython.write (literal ++ " % (" ++ Snippet.commaList expressions ++ ",)") =
      writeCode literal expressions := by
  rw [← String.toList_inj]
  simp [MicroPython.write, MicroPython.uart, Snippet.Call.text, Snippet.commaList, writeCode, h]

/-- A command is written as a literal, with its expressions behind it. -/
theorem writeLine_eq (args : List Value) (command : (Value → String) → Command) :
    MicroPython.writeLine args command = writeCode
      (Text.quote (command (MicroPython.lineText (MicroPython.isDynamic args))).encode)
      (MicroPython.expressions args) := by
  have hdynamic : MicroPython.expressions args = [] ↔ MicroPython.isDynamic args = false := by
    rw [MicroPython.expressions, MicroPython.isDynamic, List.map_eq_nil_iff,
      List.filter_eq_nil_iff, List.any_eq_false]
  rw [MicroPython.writeLine]
  cases h : MicroPython.isDynamic args with
  | false =>
    rw [hdynamic.2 h]
    exact write_eq _
  | true =>
    have hne : MicroPython.expressions args ≠ [] := by simp [hdynamic, h]
    exact write_format_eq hne

/-- The expressions of a line are the codes of the values that are no literals. -/
theorem expressions_map (values : String → Value) (names : List String) :
    MicroPython.expressions (names.map values) =
      (names.filter fun name => (values name).literal.isNone).map fun name => (values name).code := by
  rw [MicroPython.expressions, List.filter_map, List.map_map]
  rfl

/-- A line of literals is written as it stands. -/
theorem writeLine_literals {args : List Value} (h : ∀ v ∈ args, v.literal.isSome)
    (command : (Value → String) → Command) : MicroPython.writeLine args command =
      writeCode (Text.quote (command fun v => v.literal.getD "%s").encode) [] := by
  have hliteral : ∀ v ∈ args, ¬ v.literal.isNone := fun v hv => by
    simpa [Option.isSome_iff_ne_none] using h v hv
  have hdynamic : MicroPython.isDynamic args = false := List.any_eq_false.2 hliteral
  have hexpressions : MicroPython.expressions args = [] := by
    rw [MicroPython.expressions, List.filter_eq_nil_iff.2 hliteral, List.map_nil]
  have htext : MicroPython.lineText false = fun v => v.literal.getD "%s" := by
    funext v
    unfold MicroPython.lineText
    cases v.literal <;> rfl
  rw [writeLine_eq, hdynamic, hexpressions, htext]

/-! ### One command -/

section Line

variable {values : String → Value} {tokens : List Token} {command : (Value → String) → Command}

/-- What a command has to do with tokens: whatever stands for the arguments, its own tokens are the
words, which hold no percent sign, and the cleaned arguments. -/
structure Spells (command : (Value → String) → Command) (values : String → Value)
    (tokens : List Token) : Prop where
  tokens_eq : ∀ text, (command text).tokens =
    tokens.map (Token.render fun name => cleanArg (text (values name)))
  plain : ∀ token ∈ tokens, '%' ∉ (token.render fun _ => "").toList

/-- The line of a command is its tokens, each cleaned argument in its place. -/
theorem Spells.encode_eq (h : Spells command values tokens) (text : Value → String) :
    (command text).encode = " ".intercalate
      (tokens.map (Token.render fun name => cleanArg (text (values name)))) ++ "\n" := by
  rw [Command.encode, h.tokens_eq]

/-- Without expressions the line is what was intended as it stands. -/
theorem Spells.encode_literal (h : Spells command values tokens)
    (hslots : Token.slots values tokens = []) (results : String → String) :
    (command (MicroPython.lineText false)).encode = Token.line values results tokens := by
  rw [h.encode_eq, Token.line]
  refine congrArg (fun xs => " ".intercalate xs ++ "\n") (List.map_congr_left fun token ht => ?_)
  cases token with
  | word word => rfl
  | argument name =>
    have hmem : name ∈ tokens.filterMap Token.argument? := List.mem_filterMap.2 ⟨_, ht, rfl⟩
    have hliteral : (values name).literal ≠ none := by
      simpa using List.filter_eq_nil_iff.1 hslots name hmem
    obtain ⟨content, hcontent⟩ := Option.ne_none_iff_exists'.1 hliteral
    simp [Token.render, Token.said, MicroPython.lineText, hcontent]

/-- What a token takes from the tuple. -/
def Token.taken (values : String → Value) (results : String → String) :
    Token → List (List Char)
  | .word _ => []
  | .argument name => if (values name).literal.isNone then [(results name).toList] else []

/-- The tokens of a line take from the tuple what its slots evaluate to, in order. -/
theorem Token.flatMap_taken (values : String → Value) (results : String → String)
    (tokens : List Token) : tokens.flatMap (Token.taken values results) =
      ((Token.slots values tokens).map results).map String.toList := by
  induction tokens with
  | nil => rfl
  | cons token tokens ih =>
    rw [List.flatMap_cons, ih]
    cases token with
    | word word => rfl
    | argument name =>
      by_cases hname : (values name).literal.isNone <;>
        simp [Token.taken, Token.slots, Token.argument?, hname]

theorem toList_doublePercent (s : String) :
    (MicroPython.doublePercent s).toList = s.toList.flatMap Format.double := by
  rw [MicroPython.doublePercent, String.toList_ofList]
  rfl

/-- An argument in a format is filled with the text that is intended for it. -/
theorem fill_argument (values : String → Value) (results : String → String) (name : String) :
    Format.fill (cleanArg (MicroPython.lineText true (values name))).toList
      (Token.taken values results (.argument name)) =
        some (Token.said values results name).toList := by
  cases hliteral : (values name).literal with
  | some content =>
    -- The percent signs are doubled first and the quotes dropped after; the two commute.
    have hclean : (cleanArg (MicroPython.doublePercent content)).toList =
        (cleanArg content).toList.flatMap Format.double := by
      rw [Wire.toList_cleanArg, toList_doublePercent, Wire.cleanChars_double, Wire.toList_cleanArg]
    have hfill := Format.fill_double (cleanArg content).toList
    rw [← hclean] at hfill
    simpa [MicroPython.lineText, Token.taken, Token.said, hliteral] using hfill
  | none =>
    have hslot : cleanArg "%s" = "%s" := by decide
    have hfill := Format.fill_slot (results name).toList
    simpa [MicroPython.lineText, Token.taken, Token.said, hliteral, hslot] using hfill

/-- **A line with expressions is a format that fills to what was intended**, and each expression is
taken once. -/
theorem Spells.fill_encode (h : Spells command values tokens) (results : String → String) :
    Format.fill (command (MicroPython.lineText true)).encode.toList
      (((Token.slots values tokens).map results).map String.toList) =
        some (Token.line values results tokens).toList := by
  have htokens : ∀ token ∈ tokens, Format.fill
      (token.render fun name => cleanArg (MicroPython.lineText true (values name))).toList
      (token.taken values results) = some (token.render (Token.said values results)).toList := by
    intro token ht
    cases token with
    | word word =>
      have hplain : '%' ∉ word.toList := h.plain (.word word) ht
      exact Format.fill_of_not_mem hplain
    | argument name => exact fill_argument values results name
  have hspace : Format.fill " ".toList [] = some " ".toList := by decide
  have hfeed : Format.fill "\n".toList [] = some "\n".toList := by decide
  have hline := Format.fill_append (Format.fill_intercalate hspace htokens) hfeed
  rw [List.append_nil, Token.flatMap_taken] at hline
  rw [h.encode_eq, Token.line, String.toList_append, String.toList_append,
    String.toList_intercalate, String.toList_intercalate, List.map_map (l := tokens),
    List.map_map (l := tokens)]
  exact hline

/-- **A write of a command sends the line that was intended.** -/
theorem Spells.writeLine_sends (h : Spells command values tokens) (results : String → String) :
    ∃ literal, MicroPython.writeLine ((tokens.filterMap Token.argument?).map values) command =
        writeCode literal ((Token.slots values tokens).map fun name => (values name).code) ∧
      sentText? literal ((Token.slots values tokens).map results) =
        some (Token.line values results tokens) := by
  have hdynamic : MicroPython.isDynamic ((tokens.filterMap Token.argument?).map values) =
      !(Token.slots values tokens).isEmpty := by
    rw [MicroPython.isDynamic, List.any_map, Token.slots]
    induction tokens.filterMap Token.argument? with
    | nil => rfl
    | cons name names ih => by_cases hname : (values name).literal.isNone <;> simp_all
  rw [writeLine_eq, hdynamic, expressions_map]
  refine ⟨_, rfl, ?_⟩
  by_cases hslots : Token.slots values tokens = []
  · have hfalse : (!(Token.slots values tokens).isEmpty) = false := by simp [hslots]
    rw [hfalse, hslots, h.encode_literal hslots results]
    exact sentText?_quote_nil _
  · have htrue : (!(Token.slots values tokens).isEmpty) = true := by simpa using hslots
    have hne : (Token.slots values tokens).map results ≠ [] := by simpa using hslots
    have hsent := sentText?_quote hne (h.fill_encode results)
    rw [htrue]
    rwa [String.ofList_toList] at hsent

end Line

/-! ### The blocks that send a command -/

/-- **Every block that sends a command writes one whose tokens are those of the block.** -/
theorem sendingCode_spells (settings : CodeSettings) {b : Block}
    (h : b.opcode ∈ sendingOpcodes) :
    ∃ command, Spells command (valueOf (.microPython settings) b)
        (lineTokens (.microPython settings) b) ∧
      sendingCode (.microPython settings) b = MicroPython.writeLine
        (((lineTokens (.microPython settings) b).filterMap Token.argument?).map
          (valueOf (.microPython settings) b)) command := by
  -- Some of the numbers are fields of their command, so they are cleaned like its arguments.
  have hclean : ∀ word ∈ ["0", "11", "15", "52"], cleanArg word = word := by decide
  simp only [List.forall_mem_cons] at hclean
  obtain ⟨h0, h11, h15, h52, -⟩ := hclean
  generalize hvalues : valueOf (.microPython settings) b = values
  unfold sendingCode lineTokens
  rw [hvalues]
  cases hop : b.opcode <;> simp only
  case connect | connectCloud =>
    by_cases hblank : (values "USER").isBlank = true
    · rw [if_pos hblank, if_pos hblank]
      refine ⟨fun text => .connectBroker (text (values "SERVER")) (text (values "CLIENTID")) none,
        ⟨fun text => ?_, by decide⟩, rfl⟩
      simp only [Command.tokens, Command.opcode, Command.count, Command.fields, List.map_cons, h15]
      rfl
    · rw [if_neg hblank, if_neg hblank]
      refine ⟨fun text => .connectBroker (text (values "SERVER")) (text (values "CLIENTID"))
        (some ⟨text (values "USER"), text (values "PASS")⟩), ⟨fun text => ?_, by decide⟩, rfl⟩
      simp only [Command.tokens, Command.opcode, Command.count, Command.fields, List.map_cons, h15,
        Option.isSome_some, if_true]
      rfl
  case joinNetwork =>
    refine ⟨fun text => .joinNetwork (text (values "AP")) (text (values "PASS")),
      ⟨fun text => ?_, by decide⟩, rfl⟩
    simp only [Command.tokens, Command.opcode, Command.count, Command.fields, List.map_cons, h52]
    rfl
  case publish =>
    refine ⟨fun text => .publish (text (values "TOPIC")) (text (values "DATA")),
      ⟨fun text => ?_, by decide⟩, rfl⟩
    simp only [Command.tokens, Command.opcode, Command.count, Command.fields, List.map_cons, h0,
      h11]
    rfl
  case subscribe =>
    refine ⟨fun text => .subscribe (text (values "TOPIC")), ⟨fun text => ?_, by decide⟩, rfl⟩
    simp only [Command.tokens, Command.opcode, Command.count, Command.fields, List.map_cons, h0]
    rfl
  all_goals simp [sendingOpcodes, hop] at h

/-- **Every command of a script sends the line that was intended.**  Wherever it is translated, a
block that sends a command becomes a write of one string literal, followed by a tuple exactly if
one of its arguments is an expression.  Whatever the expressions evaluate to, filling the literal
with the results takes each of them once and gives the marker, the numbers and the arguments of the
command with single spaces between them. -/
theorem command_sends (settings : CodeSettings) {b : Block} (h : b.opcode ∈ sendingOpcodes)
    (body : Gen (List String)) (results : String → String) (c : Context) :
    ∃ code c' literal, runGen (commandWith (.microPython settings) b body) c = (.ok code, c') ∧
      code = writeCode literal ((expressionSlots (.microPython settings) b).map fun name =>
        (valueOf (.microPython settings) b name).code) ∧
      sentText? literal ((expressionSlots (.microPython settings) b).map results) =
        some (intendedLine (.microPython settings) b results) := by
  have hwrites := command_writes .microPython (.microPython settings) h body
  obtain ⟨command, hspells, hcode⟩ := sendingCode_spells settings h
  obtain ⟨literal, hwrite, hsent⟩ := hspells.writeLine_sends results
  exact ⟨_, _, literal, hwrites c, hcode.trans hwrite, hsent⟩

/-- Publishing a reading under a topic with a percent sign, quotes and a backslash in it. -/
def publishReading : Block where
  opcode := .publish
  args := [("DATA", .block { opcode := .expr, text := some "read()" }),
    ("TOPIC", .text " 50% \"off\"\\ ")]

/-- The percent sign of the topic is sent as one, and so are those of the reading. -/
theorem command_sends_publishReading :
    publishReading.opcode ∈ sendingOpcodes ∧
      ∃ code c' literal, runGen (commandWith (.microPython {}) publishReading (return []))
          (.start .microPython) = (.ok code, c') ∧
        code = writeCode literal ["read()"] ∧
        sentText? literal ["7 %s%"] = some "WF 11 4 11 0 0 50% off\\ 7 %s%\n" := by
  have hopcode : publishReading.opcode ∈ sendingOpcodes := by decide
  obtain ⟨code, c', literal, hrun, hcode, hsent⟩ :=
    command_sends {} hopcode (return []) (fun _ => "7 %s%") (.start .microPython)
  have hslots : (expressionSlots (.microPython {}) publishReading).map
      (fun name => (valueOf (.microPython {}) publishReading name).code) = ["read()"] := by
    decide +kernel
  have hresults : (expressionSlots (.microPython {}) publishReading).map (fun _ => "7 %s%") =
      ["7 %s%"] := by
    decide +kernel
  have hline : intendedLine (.microPython {}) publishReading (fun _ => "7 %s%") =
      "WF 11 4 11 0 0 50% off\\ 7 %s%\n" := by
    decide +kernel
  rw [hslots] at hcode
  rw [hresults, hline] at hsent
  exact ⟨hopcode, code, c', literal, hrun, hcode, hsent⟩

end Generation
end BoardBlocks
