/-
# Cleaned arguments

Cleaning an argument takes its double quotes away and then the white space at its ends, in this
order: dropping a quote can bring white space to an end, but trimming brings no quote back.  So what
is cleaned is in a normal form (`IsClean`), and cleaning leaves exactly the texts of that form alone.

An argument may therefore be cleaned before it is put into a command, and the percent signs of a
format may be doubled before or after that: the line is the same (`cleanArg_normalizes`).
-/

import BoardBlocks.Proofs.CommandLines
import BoardBlocks.Proofs.SentLines

namespace BoardBlocks

namespace Wire

/-! ### The normal form of an argument -/

/-- A text without double quotes and without white space at its ends. -/
structure IsClean (cs : List Char) : Prop where
  quote_not_mem : '"' ∉ cs
  isBlank_head? : ∀ c ∈ cs.head?, Text.isBlank c = false
  isBlank_getLast? : ∀ c ∈ cs.getLast?, Text.isBlank c = false

/-- What cleaning leaves is clean. -/
theorem isClean_cleanChars (cs : List Char) : IsClean (cleanChars cs) :=
  ⟨quote_not_mem_cleanChars cs, Text.isBlank_head?_stripBlank _, Text.isBlank_getLast?_stripBlank _⟩

/-- Cleaning leaves a clean text alone. -/
theorem IsClean.cleanChars_eq {cs : List Char} (h : IsClean cs) : cleanChars cs = cs := by
  rw [cleanChars, filter_ne_of_not_mem h.quote_not_mem]
  exact Text.stripBlank_eq_self h.isBlank_head? h.isBlank_getLast?

/-- **Cleaning leaves exactly the clean texts alone.** -/
theorem cleanArg_eq_self_iff (arg : String) : cleanArg arg = arg ↔ IsClean arg.toList := by
  rw [← String.toList_inj, toList_cleanArg]
  exact ⟨fun h => h ▸ isClean_cleanChars arg.toList, IsClean.cleanChars_eq⟩

theorem isClean_cleanArg (arg : String) : IsClean (cleanArg arg).toList :=
  toList_cleanArg arg ▸ isClean_cleanChars arg.toList

/-- Cleaning twice is cleaning once. -/
theorem cleanArg_cleanArg (arg : String) : cleanArg (cleanArg arg) = cleanArg arg :=
  (cleanArg_eq_self_iff _).2 (isClean_cleanArg arg)

/-- Doubling percent signs and cleaning can change places. -/
theorem cleanArg_doublePercent (arg : String) :
    cleanArg (Generation.MicroPython.doublePercent arg) =
      Generation.MicroPython.doublePercent (cleanArg arg) := by
  rw [← String.toList_inj, toList_cleanArg, Generation.toList_doublePercent, cleanChars_double,
    Generation.toList_doublePercent, toList_cleanArg]

/-! ### Commands with other arguments -/

namespace Command

/-- The command with each argument replaced by what is made of it and of its place, from 0. -/
def mapArguments (f : Nat → String → String) : Command → Command
  | .init => .init
  | .joinNetwork network password => .joinNetwork (f 0 network) (f 1 password)
  | .connectBroker server clientId credentials =>
    .connectBroker (f 0 server) (f 1 clientId)
      (credentials.map fun c => ⟨f 2 c.username, f 3 c.password⟩)
  | .publish topic data => .publish (f 0 topic) (f 1 data)
  | .subscribe topic => .subscribe (f 0 topic)

theorem opcode_mapArguments (f : Nat → String → String) (c : Command) :
    (c.mapArguments f).opcode = c.opcode := by
  cases c <;> rfl

theorem arguments_mapArguments (f : Nat → String → String) (c : Command) :
    (c.mapArguments f).arguments = c.arguments.mapIdx f := by
  cases c with
  | connectBroker server clientId credentials => cases credentials <;> rfl
  | _ => rfl

/-- What cleaning takes away from an argument makes no difference to the cleaned command. -/
theorem clean_mapArguments {f : Nat → String → String}
    (h : ∀ i arg, cleanArg (f i arg) = cleanArg arg) (c : Command) :
    (c.mapArguments f).clean = c.clean := by
  cases c with
  | connectBroker server clientId credentials =>
    cases credentials <;> simp [mapArguments, clean, h]
  | _ => simp [mapArguments, clean, h]

/-- The line of a command depends on the cleaned command only. -/
theorem encode_congr {c c' : Command} (h : c.clean = c'.clean) : c.encode = c'.encode := by
  rw [encode_eq, encode_eq, h]

/-- The command with the arguments at the chosen places cleaned. -/
def cleanWhere (chosen : Nat → Bool) : Command → Command :=
  mapArguments fun i arg => if chosen i then cleanArg arg else arg

end Command

open Generation.MicroPython (doublePercent)

/-- **Cleaning is a normal form for arguments.**

* Cleaning twice is cleaning once.
* A cleaned argument has no double quote and no white space at its ends, and an argument that is so
  already stays as it is.
* Percent signs can be doubled before or after.
* Whichever arguments of a command are cleaned before, its line is the same. -/
theorem cleanArg_normalizes :
    (∀ arg, cleanArg (cleanArg arg) = cleanArg arg) ∧
    (∀ arg, IsClean (cleanArg arg).toList ∧ (IsClean arg.toList → cleanArg arg = arg)) ∧
    (∀ arg, cleanArg (doublePercent arg) = doublePercent (cleanArg arg)) ∧
    ∀ (c : Command) (chosen : Nat → Bool),
      (c.cleanWhere chosen).opcode = c.opcode ∧
      (c.cleanWhere chosen).arguments =
        c.arguments.mapIdx (fun i arg => if chosen i then cleanArg arg else arg) ∧
      (c.cleanWhere chosen).encode = c.encode := by
  refine ⟨cleanArg_cleanArg, fun arg => ⟨isClean_cleanArg arg, (cleanArg_eq_self_iff arg).2⟩,
    cleanArg_doublePercent, fun c chosen => ⟨c.opcode_mapArguments _, c.arguments_mapArguments _, ?_⟩⟩
  refine Command.encode_congr (Command.clean_mapArguments (fun i arg => ?_) c)
  split
  · exact cleanArg_cleanArg arg
  · rfl

/-- Quotes around white space and white space around quotes, with a quote inside that stays away. -/
theorem cleanArg_normalizes_quoted :
    IsClean "a b".toList ∧ cleanArg "a b" = "a b" ∧
      cleanArg (cleanArg " \" a\" b \" ") = cleanArg " \" a\" b \" " ∧
      ((Command.publish " \"/t\" " "\" 5% \"").cleanWhere (· = 1)).encode =
        (Command.publish " \"/t\" " "\" 5% \"").encode := by
  have hclean : IsClean "a b".toList := by
    refine ⟨by decide, fun c hc => ?_, fun c hc => ?_⟩
    · obtain rfl : 'a' = c := Option.some.inj hc
      decide
    · obtain rfl : 'b' = c := Option.some.inj hc
      decide
  obtain ⟨htwice, hnormal, -, hencode⟩ := cleanArg_normalizes
  exact ⟨hclean, (hnormal "a b").2 hclean, htwice _, (hencode _ _).2.2⟩

end Wire
end BoardBlocks
