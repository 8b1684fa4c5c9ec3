/-
# Credentials of a connection

A block that connects to the cloud may have a user name and a password.  Three places ask whether
there is a user name, each of the text as it suits it:

| place | there is a user name if the text |
| --- | --- |
| code for either target | is not blank |
| the line, which has it cleaned | is not blank without its double quotes |
| a session inside the host | is not empty |

The two targets always agree.  A user name that something is left of on the line counts everywhere,
and one that is missing or empty nowhere (`connectCloud_credentials`).  One of white space only is
dropped from the code, but the session opens its client with it (`connectCloud_blank_user`).
-/

import BoardBlocks.Link.Blocks
import BoardBlocks.Proofs.CommandFrames
import BoardBlocks.Proofs.Registrations
import BoardBlocks.Proofs.SentLines
import BoardBlocks.Proofs.SessionRuns
import Mathlib.Data.List.TakeWhile

namespace BoardBlocks

namespace Block

/-- All arguments of a block are texts. -/
def HasTexts (b : Block) : Prop :=
  ∀ p ∈ b.args, ∃ content, p.2 = .text content

/-- The text of an argument; empty if the block does not have it. -/
def textOf (b : Block) (name : String) : String :=
  (b.literal? name).getD ""

/-- An argument of a block of texts is a text, if the block has it. -/
theorem HasTexts.arg?_eq {b : Block} (h : b.HasTexts) (name : String) :
    b.arg? name = (b.literal? name).map .text := by
  unfold literal?
  cases harg : b.arg? name with
  | none => rfl
  | some arg =>
    obtain ⟨content, rfl⟩ : ∃ content, arg = .text content :=
      h _ (Keyed.mem_of_get?_eq_some harg)
    rfl

end Block

namespace Link

/-- The user name that a client is opened with. -/
def openedUser? (effects : List Effect) : Option String :=
  effects.findSome? fun
    | .opened _ _ options => options.username
    | _ => none

/-- Ending what was before opens nothing. -/
theorem openedUser?_finish (s : Session) : openedUser? s.finish.2 = none := by
  rw [Session.finish_eq, openedUser?, List.findSome?_append]
  cases s.client <;> cases s.pending <;> rfl

/-- A client has the user name that it is made with, unless that is empty. -/
theorem ClientOptions.username_make (clientId : String) (username password : Option String) :
    (make clientId username password).username = username.filter (· ≠ "") := by
  unfold make
  cases username.filter (· ≠ "") <;> rfl

/-- Connecting opens the client with the user name, unless that is empty. -/
theorem openedUser?_connect (s : Session) (server clientId : String)
    (username password : Option String) :
    openedUser? (s.connect server clientId username password).2 = username.filter (· ≠ "") := by
  rw [Session.connect_eq, openedUser?, List.findSome?_append, ← openedUser?, openedUser?_finish,
    Option.none_or, List.findSome?_singleton]
  exact ClientOptions.username_make _ _ _

/-- The palette's block opens a client with the user as it was written, unless that is empty. -/
theorem openedUser?_connectCloudBlock (palette : PaletteSettings) (b : Block) (h : Host) :
    openedUser? (connectCloudBlock palette (.ofBlock b) h).2 =
      if b.textOf "USER" = "" then none else some (b.textOf "USER") := by
  rw [connectCloudBlock, Host.connect, Host.after, openedUser?_connect, Block.textOf,
    Arguments.ofBlock]
  cases b.literal? "USER" with
  | none => rfl
  | some user => by_cases huser : user = "" <;> simp [huser]

end Link

namespace Wire

/-- Nothing is left of a blank argument. -/
theorem not_blank_of_cleanArg_ne {arg : String} (hclean : cleanArg arg ≠ "") :
    Text.blank arg = false := by
  refine Bool.eq_false_iff.2 fun h => hclean ?_
  have hblank : ∀ c ∈ arg.toList.filter (· ≠ '"'), Text.isBlank c = true := fun c hc =>
    List.all_eq_true.1 h c (List.mem_filter.1 hc).1
  rw [← String.toList_inj, toList_cleanArg, cleanChars, Text.stripBlank, Text.dropBlankStart,
    List.dropWhile_eq_nil_iff.2 hblank]
  rfl

end Wire

namespace Generation

open Wire (Command cleanArg)

/-! ### Code with and without credentials -/

/-- The code of a text argument: a string literal, or nothing. -/
def textCode (b : Block) (name : String) : String :=
  ((b.literal? name).map Text.quote).getD ""

/-- The call that connects a sketch: with four arguments, or with two. -/
def connectCall (b : Block) (credentials : Bool) : String :=
  (Arduino.method "mqttConect" ([textCode b "SERVER", textCode b "CLIENTID"] ++
    if credentials then [textCode b "USER", textCode b "PASS"] else [])).text

/-- The command that connects a script: with user name and password, or without. -/
def connectCommand (b : Block) (credentials : Bool) : Command :=
  .connectBroker (b.textOf "SERVER") (b.textOf "CLIENTID")
    (if credentials then some ⟨b.textOf "USER", b.textOf "PASS"⟩ else none)

/-- The write of that command. -/
def connectWrite (b : Block) (credentials : Bool) : String :=
  writeCode (Text.quote (connectCommand b credentials).encode) []

/-- A call with four arguments is longer than one with two of them. -/
theorem connectCall_inj {b : Block} {credentials credentials' : Bool} :
    connectCall b credentials = connectCall b credentials' ↔ credentials = credentials' := by
  refine ⟨fun h => ?_, congrArg (connectCall b)⟩
  have hlength := congrArg (fun s : String => s.toList.length) h
  cases credentials <;> cases credentials' <;>
    simp [connectCall, Arduino.method, Snippet.Call.text, Snippet.commaList] at hlength ⊢

theorem count_connectCommand (b : Block) (credentials : Bool) :
    (connectCommand b credentials).count = if credentials then 4 else 2 := by
  cases credentials <;> rfl

/-- The lines state different counts. -/
theorem connectWrite_inj {b : Block} {credentials credentials' : Bool} :
    connectWrite b credentials = connectWrite b credentials' ↔ credentials = credentials' := by
  refine ⟨fun h => ?_, congrArg (connectWrite b)⟩
  have hline : (connectCommand b credentials).encode = (connectCommand b credentials').encode := by
    have hquoted := (String.append_left_inj _).1 ((String.append_left_inj _).1 h)
    exact Text.quote_injective ((String.append_right_inj _).1 hquoted)
  have hframe := congrArg Wire.Frame.parse hline
  rw [Command.parse_encode, Command.parse_encode] at hframe
  have hcount : toString (connectCommand b credentials).count =
      toString (connectCommand b credentials').count := by
    injection hframe with hframe
    injection hframe with _ hfields
    exact (List.cons.inj hfields).1
  rw [count_connectCommand, count_connectCommand] at hcount
  revert hcount
  cases credentials <;> cases credentials' <;> decide

/-- A text argument is a literal that reads as the text. -/
theorem valueOf_of_hasTexts (d : Dialect) {b : Block} (h : b.HasTexts) (name : String) :
    valueOf d b name = ⟨textCode b name, some (b.textOf name)⟩ := by
  rw [valueOf, h.arg?_eq, textCode, Block.textOf]
  cases b.literal? name <;> rfl

section Code

variable {b : Block} (hop : b.opcode = .connectCloud) (htexts : b.HasTexts)
  (settings : CodeSettings) (body : Gen (List String)) (c : Context)
include hop htexts

/-- In a sketch the block is a call, with credentials unless the user name is blank. -/
theorem code_connectCloud_arduino : (runGen (commandWith (.arduino settings) b body) c).1 =
    .ok (connectCall b (!Text.blank (b.textOf "USER"))) := by
  have hmem : b.opcode ∈ sendingOpcodes := by
    rw [hop]
    decide
  have hcode : sendingCode (.arduino settings) b =
      connectCall b (!Text.blank (b.textOf "USER")) := by
    simp only [sendingCode, hop, valueOf_of_hasTexts _ htexts, Value.isBlank, Value.text,
      Option.getD_some]
    cases Text.blank (b.textOf "USER") <;> rfl
  rw [← hcode]
  exact congrArg Prod.fst (command_writes .arduino (.arduino settings) hmem body c)

/-- In a script it is a write of its command, with credentials on the same condition. -/
theorem code_connectCloud_microPython :
    (runGen (commandWith (.microPython settings) b body) c).1 =
      .ok (connectWrite b (!Text.blank (b.textOf "USER"))) := by
  have hmem : b.opcode ∈ sendingOpcodes := by
    rw [hop]
    decide
  have hcode : sendingCode (.microPython settings) b =
      connectWrite b (!Text.blank (b.textOf "USER")) := by
    simp only [sendingCode, hop, valueOf_of_hasTexts _ htexts, Value.isBlank, Value.text,
      Option.getD_some]
    show MicroPython.connect _ _ _ = _
    cases Text.blank (b.textOf "USER") with
    | true =>
      rw [if_pos rfl, MicroPython.connect, writeLine_literals (by simp), connectWrite,
        connectCommand]
      rfl
    | false =>
      rw [if_neg Bool.false_ne_true, MicroPython.connect, writeLine_literals (by simp),
        connectWrite, connectCommand]
      rfl
  rw [← hcode]
  exact congrArg Prod.fst (command_writes .microPython (.microPython settings) hmem body c)

end Code

/-! ### Where a user name counts -/

/-- **When a connection to the cloud has credentials**, for a block of texts and wherever it is
translated or run.

* The sketch has a call with four arguments exactly if the script writes a line with user name and
  password; otherwise both leave them out.
* A user name that something is left of on the line counts for both, and the session opens its
  client with it.
* A blank user name, or none, counts for neither.
* The session opens its client with a user name exactly if that is not empty as it stands. -/
theorem connectCloud_credentials {b : Block} (hop : b.opcode = .connectCloud) (htexts : b.HasTexts)
    (settings : CodeSettings) (palette : PaletteSettings) (body : Gen (List String))
    (c c' : Context) (host : Link.Host) :
    let sketch := (runGen (commandWith (.arduino settings) b body) c).1
    let script := (runGen (commandWith (.microPython settings) b body) c').1
    let user := b.textOf "USER"
    let opened := Link.openedUser? (Link.connectCloudBlock palette (.ofBlock b) host).2
    (sketch = .ok (connectCall b true) ↔ script = .ok (connectWrite b true)) ∧
    (sketch ≠ .ok (connectCall b true) →
      sketch = .ok (connectCall b false) ∧ script = .ok (connectWrite b false)) ∧
    (cleanArg user ≠ "" → sketch = .ok (connectCall b true) ∧ opened = some user) ∧
    (Text.blank user = true → sketch ≠ .ok (connectCall b true)) ∧
    (opened.isSome = true ↔ user ≠ "") := by
  intro sketch script user opened
  have hsketch : sketch = .ok (connectCall b (!Text.blank user)) :=
    code_connectCloud_arduino hop htexts settings body c
  have hscript : script = .ok (connectWrite b (!Text.blank user)) :=
    code_connectCloud_microPython hop htexts settings body c'
  have hopened : opened = if user = "" then none else some user :=
    Link.openedUser?_connectCloudBlock palette b host
  have hcall : sketch = .ok (connectCall b true) ↔ Text.blank user = false := by
    rw [hsketch, Except.ok.injEq, connectCall_inj, Bool.not_eq_true']
  have hwrite : script = .ok (connectWrite b true) ↔ Text.blank user = false := by
    rw [hscript, Except.ok.injEq, connectWrite_inj, Bool.not_eq_true']
  refine ⟨hcall.trans hwrite.symm, fun hwithout => ?_, fun hclean => ?_, fun hblank => ?_, ?_⟩
  · rw [Ne, hcall, Bool.not_eq_false] at hwithout
    rw [hsketch, hscript, hwithout]
    exact ⟨rfl, rfl⟩
  · have huser : user ≠ "" := by
      intro huser
      rw [huser] at hclean
      exact hclean rfl
    exact ⟨hcall.2 (Wire.not_blank_of_cleanArg_ne hclean), by rw [hopened, if_neg huser]⟩
  · rw [Ne, hcall, hblank]
    exact Bool.false_ne_true ∘ Eq.symm
  · rw [hopened]
    by_cases huser : user = "" <;> simp [huser]

/-- A block that connects to the cloud, with texts for all that it may have. -/
def connectWith (user : String) : Block where
  opcode := .connectCloud
  args := [("CLIENTID", .text "c"), ("PASS", .text "p"), ("SERVER", .text "s"),
    ("USER", .text user)]

theorem hasTexts_connectWith (user : String) : (connectWith user).HasTexts := by
  simp [Block.HasTexts, connectWith]

/-- A user name without quotes or white space counts everywhere. -/
theorem connectCloud_credentials_id :
    (runGen (commandWith (.arduino {}) (connectWith "id") (pure [])) (.start .arduino)).1 =
      .ok "iot.mqttConect(\"s\", \"c\", \"id\", \"p\")" ∧
    (runGen (commandWith (.microPython {}) (connectWith "id") (pure [])) (.start .microPython)).1 =
      .ok "uart.write(\"WF 15 4 15 s c id p\\n\")" ∧
    Link.openedUser? (Link.connectCloudBlock {} (.ofBlock (connectWith "id")) (.start {})).2 =
      some "id" := by
  obtain ⟨hiff, -, hclean, -, -⟩ := connectCloud_credentials (b := connectWith "id") rfl
    (hasTexts_connectWith "id") {} {} (pure []) (.start .arduino) (.start .microPython) (.start {})
  obtain ⟨hsketch, hopened⟩ := hclean (by decide +kernel)
  have hcall : connectCall (connectWith "id") true =
      "iot.mqttConect(\"s\", \"c\", \"id\", \"p\")" := by decide +kernel
  have hwrite : connectWrite (connectWith "id") true =
      "uart.write(\"WF 15 4 15 s c id p\\n\")" := by decide +kernel
  exact ⟨hcall ▸ hsketch, hwrite ▸ hiff.1 hsketch, hopened⟩

/-- **White space for a user name** is nothing on the line and left out of the code for both
targets, but the session opens its client with it. -/
theorem connectCloud_blank_user :
    (runGen (commandWith (.arduino {}) (connectWith " ") (pure [])) (.start .arduino)).1 =
      .ok "iot.mqttConect(\"s\", \"c\")" ∧
    (runGen (commandWith (.microPython {}) (connectWith " ") (pure [])) (.start .microPython)).1 =
      .ok "uart.write(\"WF 15 2 15 s c\\n\")" ∧
    Link.openedUser? (Link.connectCloudBlock {} (.ofBlock (connectWith " ")) (.start {})).2 =
      some " " ∧
    ¬ ((Link.openedUser? (Link.connectCloudBlock {} (.ofBlock (connectWith " "))
      (.start {})).2).isSome = true ↔ cleanArg ((connectWith " ").textOf "USER") ≠ "") := by
  decide +kernel

end Generation
end BoardBlocks
