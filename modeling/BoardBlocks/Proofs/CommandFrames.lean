/-
# Commands read back as frames

The line of a command is a frame again: its opcode, and the count and the fields of the command
(`parse_encode`).  A field with spaces inside falls into pieces, for nothing on the line tells them
from the spaces between fields; an empty one is one empty piece.  The line feed at the end is the
only thing that reading drops, since a cleaned argument ends in no line break of its own.

So where no argument has a space inside, a line belongs to one command only, up to what cleaning
takes away from the arguments (`encode_frames`).
-/

import BoardBlocks.Proofs.Splitting
import BoardBlocks.Proofs.Trimming
import BoardBlocks.Wire.Frame
import Mathlib.Data.List.Basic

namespace BoardBlocks

/-- Joined pieces end the way that the separator and the pieces end. -/
theorem getLast?_intercalate {α : Type} {P : α → Prop} {a : α} (ha : P a) {xs : List (List α)}
    (h : ∀ x ∈ xs, ∀ c ∈ x.getLast?, P c) : ∀ c ∈ ([a].intercalate xs).getLast?, P c := by
  induction xs with
  | nil => simp
  | cons x xs ih =>
    cases xs with
    | nil => simpa using h x
    | cons y ys =>
      have hrest := ih fun z hz => h z (List.mem_cons_of_mem x hz)
      intro c hc
      rw [List.intercalate_cons_cons, List.getLast?_append, List.getLast?_concat, Option.mem_def,
        Option.or_eq_some_iff] at hc
      rcases hc with hc | ⟨-, hc⟩
      · exact hrest c hc
      · exact Option.some.inj hc ▸ ha

namespace Wire

/-! ### Where a line ends -/

/-- Of a text that does not end in a line break nothing is dropped, whatever comes behind it. -/
theorem dropLineEnd_append {cs : List Char} (h : ∀ c ∈ cs.getLast?, c ≠ '\r' ∧ c ≠ '\n')
    (rest : List Char) : dropLineEnd (cs ++ rest) = cs ++ dropLineEnd rest := by
  have hkeep : cs.rdropWhile (fun c => c = '\r' || c = '\n') = cs := by
    refine List.rdropWhile_eq_self_iff.2 fun hne => ?_
    simpa using h _ (List.getLast?_eq_some_getLast hne)
  refine (rdropWhile_append cs rest).trans ?_
  rw [hkeep]
  split
  · rename_i hrest
    show cs = cs ++ rest.rdropWhile _
    rw [hrest, List.append_nil]
  · rfl

/-- In particular only the line feed behind it is dropped. -/
theorem dropLineEnd_concat {cs : List Char} (h : ∀ c ∈ cs.getLast?, c ≠ '\r' ∧ c ≠ '\n') :
    dropLineEnd (cs ++ ['\n']) = cs := by
  have hfeed : dropLineEnd ['\n'] = [] := by decide
  rw [dropLineEnd_append h, hfeed, List.append_nil]

/-! ### Tokens -/

/-- The pieces between the spaces of a field, once it is cleaned. -/
def pieces (field : String) : List String :=
  ((cleanChars field.toList).splitOn ' ').map String.ofList

theorem pieces_of_not_mem {field : String} (h : ' ' ∉ (cleanArg field).toList) :
    pieces field = [cleanArg field] := by
  rw [toList_cleanArg] at h
  rw [pieces, List.splitOn_eq_singleton h]
  rfl

namespace Command

theorem count_mem (c : Command) : c.count ∈ [2, 4] := by
  cases c with
  | connectBroker server clientId credentials => cases credentials <;> simp [count]
  | _ => simp [count]

/-- The number of a command reads back from its digits. -/
theorem opcodeOf?_opcode (c : Command) :
    opcodeOf? (toString c.opcode.toNat).toList = some c.opcode := by
  cases c <;> simp only [opcode] <;> decide

/-- The tokens in front of the fields. -/
def front (c : Command) : List (List Char) :=
  [marker.toList, (toString c.opcode.toNat).toList, (toString c.count).toList]

/-- A line is its front and its cleaned fields with spaces between them, and one line feed. -/
theorem toList_encode (c : Command) : c.encode.toList =
    [' '].intercalate (c.front ++ c.fields.map fun f => cleanChars f.toList) ++ ['\n'] := by
  rw [encode, String.toList_append, String.toList_intercalate, tokens]
  simp [front, Function.comp_def]

/-- The tokens in front consist of letters and digits. -/
theorem front_plain (c : Command) {x : Char} (hx : x.isAlphanum = false) :
    ∀ token ∈ c.front, x ∉ token := by
  have hopcode : (toString c.opcode.toNat).toList.all Char.isAlphanum = true := by
    cases c <;> simp only [opcode] <;> decide
  have hcount : ∀ n ∈ [2, 4], (toString n).toList.all Char.isAlphanum = true := by decide
  have hfront : ∀ token ∈ c.front, token.all Char.isAlphanum = true := by
    simp only [front, List.forall_mem_cons]
    exact ⟨by decide, hopcode, hcount _ c.count_mem, by simp⟩
  intro token htoken hmem
  have halnum := List.all_eq_true.1 (hfront token htoken) x hmem
  exact absurd halnum (by simp [hx])

/-- **The line of a command is a frame** of its opcode, its count and the pieces of its fields. -/
theorem parse_encode (c : Command) : Frame.parse c.encode =
    .ok { opcode := c.opcode, fields := toString c.count :: c.fields.flatMap pieces } := by
  have hends : ∀ x ∈ ([' '].intercalate
      (c.front ++ c.fields.map fun f => cleanChars f.toList)).getLast?, x ≠ '\r' ∧ x ≠ '\n' := by
    refine getLast?_intercalate (by decide) fun token ht x hx => ?_
    rcases List.mem_append.1 ht with ht | ht
    · have hreturn : '\r' ∉ token := c.front_plain (by decide) token ht
      have hfeed : '\n' ∉ token := c.front_plain (by decide) token ht
      have hmem := List.mem_of_getLast? hx
      exact ⟨fun h => hreturn (h ▸ hmem), fun h => hfeed (h ▸ hmem)⟩
    · obtain ⟨f, -, rfl⟩ := List.mem_map.1 ht
      exact Text.stripBlank_getLast? _ x hx
  have hfront : c.front.flatMap (·.splitOn ' ') = c.front := by
    have hplain : ∀ token ∈ c.front, ' ' ∉ token := c.front_plain (by decide)
    simp only [front, List.forall_mem_cons] at hplain
    obtain ⟨hmarker, hopcode, hcount, -⟩ := hplain
    simp only [front, List.flatMap_cons, List.flatMap_nil]
    rw [List.splitOn_eq_singleton hmarker, List.splitOn_eq_singleton hopcode,
      List.splitOn_eq_singleton hcount]
    rfl
  rw [Frame.parse, toList_encode, dropLineEnd_concat hends,
    splitOn_intercalate ' ' (by simp [front]), List.flatMap_append, hfront]
  simp only [front, List.cons_append, List.nil_append, Frame.ofTokens, if_pos, opcodeOf?_opcode]
  simp only [List.map_cons, String.ofList_toList, List.flatMap_map, List.map_flatMap]
  rfl

/-! ### Telling commands apart -/

/-- The arguments of a command. -/
def arguments : Command → List String
  | .init => []
  | .joinNetwork network password => [network, password]
  | .connectBroker server clientId none => [server, clientId]
  | .connectBroker server clientId (some c) => [server, clientId, c.username, c.password]
  | .publish topic data => [topic, data]
  | .subscribe topic => [topic]

/-- The command with its arguments cleaned. -/
def clean : Command → Command
  | .init => .init
  | .joinNetwork network password => .joinNetwork (cleanArg network) (cleanArg password)
  | .connectBroker server clientId credentials =>
    .connectBroker (cleanArg server) (cleanArg clientId)
      (credentials.map fun c => ⟨cleanArg c.username, cleanArg c.password⟩)
  | .publish topic data => .publish (cleanArg topic) (cleanArg data)
  | .subscribe topic => .subscribe (cleanArg topic)

@[simp] theorem opcode_clean (c : Command) : c.clean.opcode = c.opcode := by
  cases c <;> simp only [clean, opcode]

@[simp] theorem count_clean (c : Command) : c.clean.count = c.count := by
  cases c with
  | connectBroker server clientId credentials => cases credentials <;> simp [clean, count]
  | _ => simp only [clean, count]

/-- The words among the fields of commands. -/
def words : List String := ["0", "2", "3", "4", "5", "11", "15", "52"]

/-- Cleaning leaves a word alone, and there is no space in it. -/
theorem word_plain : ∀ word ∈ words, cleanArg word = word ∧ ' ' ∉ (cleanArg word).toList := by
  decide

/-- A field is a word or an argument. -/
theorem mem_fields {c : Command} {f : String} (h : f ∈ c.fields) : f ∈ words ∨ f ∈ c.arguments := by
  cases c with
  | connectBroker server clientId credentials =>
    cases credentials <;> simp only [fields, words, arguments, List.mem_cons] at h ⊢ <;> grind
  | _ =>
    simp only [fields, words, arguments, List.mem_cons] at h ⊢
    grind

/-- The fields of a cleaned command are the cleaned fields. -/
theorem fields_clean (c : Command) : c.clean.fields = c.fields.map cleanArg := by
  have hclean : ∀ word ∈ words, cleanArg word = word := fun word h => (word_plain word h).1
  simp only [words, List.forall_mem_cons] at hclean
  cases c with
  | connectBroker server clientId credentials => cases credentials <;> simp [clean, fields, hclean]
  | _ => simp [clean, fields, hclean]

/-- A command is known from its opcode and its fields. -/
theorem eq_of_fields_eq {c c' : Command} (hopcode : c.opcode = c'.opcode)
    (hfields : c.fields = c'.fields) : c = c' := by
  cases c with
  | connectBroker server clientId credentials =>
    cases c' with
    | connectBroker server' clientId' credentials' =>
      rcases credentials with _ | ⟨username, password⟩ <;>
        rcases credentials' with _ | ⟨username', password'⟩ <;> simp_all [fields]
    | _ => simp [opcode] at hopcode
  | _ => cases c' <;> simp_all [opcode, fields]

/-- Without spaces inside its arguments a command has each cleaned field for one piece. -/
theorem flatMap_pieces {c : Command} (h : ∀ arg ∈ c.arguments, ' ' ∉ (cleanArg arg).toList) :
    c.fields.flatMap pieces = c.clean.fields := by
  have hsingle : ∀ f ∈ c.fields, pieces f = [cleanArg f] := by
    intro f hf
    rcases mem_fields hf with hword | harg
    · exact pieces_of_not_mem (word_plain f hword).2
    · exact pieces_of_not_mem (h f harg)
  rw [fields_clean, List.map_eq_flatMap]
  exact List.flatMap_congr hsingle

/-- The line of a command is that of the cleaned command before cleaning. -/
theorem encode_eq (c : Command) :
    c.encode = " ".intercalate
      (marker :: toString c.clean.opcode.toNat :: toString c.clean.count :: c.clean.fields) ++
        "\n" := by
  rw [fields_clean, opcode_clean, count_clean]
  rfl

/-- **A line reads back as its command, up to cleaning.**  The line of any command is a frame of its
opcode, with its count and the pieces of its fields.  Two commands without spaces inside their
arguments have the same line if and only if they are the same once their arguments are cleaned: of
one kind, both with credentials or both without, and with the same cleaned arguments. -/
theorem encode_frames :
    (∀ c : Command, Frame.parse c.encode =
      .ok { opcode := c.opcode, fields := toString c.count :: c.fields.flatMap pieces }) ∧
    ∀ c c' : Command, (∀ arg ∈ c.arguments, ' ' ∉ (cleanArg arg).toList) →
      (∀ arg ∈ c'.arguments, ' ' ∉ (cleanArg arg).toList) →
        (c.encode = c'.encode ↔ c.clean = c'.clean) := by
  refine ⟨parse_encode, fun c c' h h' => ⟨fun hline => ?_, fun hclean => ?_⟩⟩
  · have hframe : Frame.parse c.encode = Frame.parse c'.encode := congrArg Frame.parse hline
    rw [parse_encode, parse_encode, flatMap_pieces h, flatMap_pieces h'] at hframe
    simp only [Except.ok.injEq, Frame.mk.injEq, List.cons.injEq] at hframe
    obtain ⟨hopcode, -, hfields⟩ := hframe
    exact eq_of_fields_eq (by simpa using hopcode) hfields
  · rw [encode_eq, encode_eq, hclean]

/-- A network name with a space falls into two pieces.  Quotes and white space around an argument
make no other line, single quotes do. -/
theorem encode_frames_quoted :
    Frame.parse (joinNetwork "my net" " ").encode = .ok ⟨52, ["2", "52", "my", "net", ""]⟩ ∧
      (∀ arg ∈ (publish "\" /t\"" "a\tb\n").arguments, ' ' ∉ (cleanArg arg).toList) ∧
      (∀ arg ∈ (publish "/t" "a\tb").arguments, ' ' ∉ (cleanArg arg).toList) ∧
      (publish "\" /t\"" "a\tb\n").encode = (publish "/t" "a\tb").encode ∧
      (publish "'/t'" "a\tb").encode ≠ (publish "/t" "a\tb").encode := by
  have hquoted : ∀ arg ∈ (publish "\" /t\"" "a\tb\n").arguments,
      ' ' ∉ (cleanArg arg).toList := by decide
  have hsingle : ∀ arg ∈ (publish "'/t'" "a\tb").arguments, ' ' ∉ (cleanArg arg).toList := by
    decide
  have hplain : ∀ arg ∈ (publish "/t" "a\tb").arguments, ' ' ∉ (cleanArg arg).toList := by decide
  refine ⟨?_, hquoted, hplain, (encode_frames.2 _ _ hquoted hplain).2 (by decide), fun hline => ?_⟩
  · rw [encode_frames.1]
    decide
  · exact absurd ((encode_frames.2 _ _ hsingle hplain).1 hline) (by decide)

end Command

end Wire
end BoardBlocks
