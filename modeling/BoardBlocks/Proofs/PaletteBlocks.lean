/-
# The palette agrees with the translations

The palette and the translations name the arguments and the targets of a block each for themselves:

| block | needed | may be left out | targets |
| --- | --- | --- | --- |
| connecting | `SERVER`, `CLIENTID` | to the cloud: `USER`, `PASS` | both |
| joining a network | `AP`, `PASS` | | both |
| publishing | `TOPIC`, `DATA` | | both |
| subscribing, a hat | `TOPIC` | | both |
| the data of a topic | | `DATATYPE` | both |
| serving the serial line | | | MicroPython |

They agree (`palette_agrees`).  A block with the arguments that its palette entry lists, all of them
literals, is translated without a diagnostic on the targets that the entry lists, and has no
translation on another one.  Each argument that is taken away is recorded as missing, if it is
needed, and by itself.
-/

import BoardBlocks.Palette.Basic
import BoardBlocks.Proofs.FailedBlocks
import BoardBlocks.Proofs.WellFormedBlocks
import Mathlib.Data.List.Find

namespace BoardBlocks

/-! ### Blocks of literals -/

namespace Block

/-- The block with one argument taken away. -/
def without (b : Block) (name : String) : Block :=
  { b with args := b.args.filter fun p => p.1 ≠ name }

@[simp] theorem opcode_without (b : Block) (name : String) : (b.without name).opcode = b.opcode := rfl

@[simp] theorem arg?_without_self (b : Block) (name : String) :
    (b.without name).arg? name = none := by
  simp [arg?, without, Keyed.get?, List.find?_filter]

theorem arg?_without_of_ne (b : Block) {name other : String} (h : other ≠ name) :
    (b.without name).arg? other = b.arg? other := by
  rw [arg?, without, Keyed.get?, List.find?_filter]
  refine congrArg (Option.map _) (List.find?_congr fun p _ => ?_)
  by_cases hp : p.1 = other <;> simp [hp, h]

/-- Every argument of a block is a text or a number. -/
def HasLiterals (b : Block) : Prop :=
  ∀ name arg, b.arg? name = some arg → (b.literal? name).isSome

/-- Removing an argument leaves literals. -/
theorem HasLiterals.without {b : Block} (h : b.HasLiterals) (name : String) :
    (b.without name).HasLiterals := by
  intro other arg harg
  have hne : other ≠ name := by
    rintro rfl
    simp at harg
  have hsame := b.arg?_without_of_ne hne
  have hliteral := h other arg (hsame ▸ harg)
  rwa [literal?, hsame, ← literal?]

/-- A literal has a value, and nothing is recorded for it. -/
theorem HasLiterals.wellFormed {b : Block} (h : b.HasLiterals) {name : String} {arg : Arg}
    (harg : b.arg? name = some arg) : arg.WellFormed := by
  have hliteral := h name arg harg
  rw [literal?, harg] at hliteral
  cases arg with
  | text content => exact .text content
  | number value => exact .number value
  | block inner => exact absurd hliteral Bool.false_ne_true

/-- A block of literals supplies what it needs as soon as it has it. -/
theorem HasLiterals.supplies {b : Block} (h : b.HasLiterals) {needed : List String}
    (hneeded : ∀ name ∈ needed, (b.arg? name).isSome) (optional : List String) :
    b.Supplies needed optional := by
  refine ⟨fun name hname => ?_, fun name _ arg harg => h.wellFormed harg⟩
  obtain ⟨arg, harg⟩ := Option.isSome_iff_exists.1 (hneeded name hname)
  exact ⟨arg, harg, h.wellFormed harg⟩

end Block

namespace Generation

/-- The arguments that a block of a kind needs, in the order in which they are evaluated. -/
def neededArguments : Opcode → List String
  | .connect | .connectCloud => ["SERVER", "CLIENTID"]
  | .joinNetwork => ["AP", "PASS"]
  | .publish => ["TOPIC", "DATA"]
  | .subscribe | .onTopic => ["TOPIC"]
  | .topicData | .serialWork | .code | .expr => []

/-- No argument is needed twice. -/
theorem neededArguments_nodup (opcode : Opcode) : (neededArguments opcode).Nodup := by
  cases opcode <;> decide

/-- What is recorded for an argument that a block of a kind does not have. -/
def missing (opcode : Opcode) (name : String) : Diagnostic :=
  ⟨opcode, .missingArgument opcode name⟩

/-- What is recorded for a needed argument if all arguments are literals. -/
theorem requiredProblems_of_literals {b : Block} (h : b.HasLiterals) (name : String) :
    requiredProblems b.opcode (argsProblems b.args) name =
      if (b.arg? name).isSome then [] else [missing b.opcode name] := by
  rw [requiredProblems, get?_argsProblems, ← Block.arg?]
  cases harg : b.arg? name with
  | none => rfl
  | some arg => exact (argProblems_eq_nil_iff arg).2 (h.wellFormed harg)

/-- An optional argument of a block of literals has no problem. -/
theorem optionalProblems_of_literals {b : Block} (h : b.HasLiterals) (name : String) :
    optionalProblems (argsProblems b.args) name = [] := by
  rw [optionalProblems, get?_argsProblems, ← Block.arg?]
  cases harg : b.arg? name with
  | none => rfl
  | some arg => exact (argProblems_eq_nil_iff arg).2 (h.wellFormed harg)

/-- **A block of literals that sends a command records the needed arguments that it lacks**, in
order. -/
theorem blockProblems_of_literals (target : Target) {b : Block} (hop : b.opcode ∈ sendingOpcodes)
    (h : b.HasLiterals) : blockProblems target b =
      ((neededArguments b.opcode).filter fun name => (b.arg? name).isNone).map
        (missing b.opcode) := by
  have hrequired := requiredProblems_of_literals h
  have hoptional := optionalProblems_of_literals h
  have hfilter : ∀ names : List String,
      (names.filter fun name => (b.arg? name).isNone).map (missing b.opcode) =
        names.flatMap (requiredProblems b.opcode (argsProblems b.args)) := by
    intro names
    induction names with
    | nil => rfl
    | cons name names ih =>
      rw [List.flatMap_cons, ← ih, hrequired, List.filter_cons]
      cases b.arg? name <;> simp
  rw [hfilter]
  unfold blockProblems
  cases hb : b.opcode <;> simp only [hb] at hop ⊢
  case connect | connectCloud => simp [neededArguments, hoptional]
  case joinNetwork | publish | subscribe => simp [neededArguments]
  all_goals exact absurd hop (by decide)

/-- Taking one argument away records it, if it is needed, and nothing else. -/
theorem blockProblems_without (target : Target) {b : Block} (hop : b.opcode ∈ sendingOpcodes)
    (h : b.HasLiterals) (hneeded : ∀ name ∈ neededArguments b.opcode, (b.arg? name).isSome)
    (name : String) : blockProblems target (b.without name) =
      if name ∈ neededArguments b.opcode then [missing b.opcode name] else [] := by
  have habsent : ∀ other ∈ neededArguments b.opcode,
      ((b.without name).arg? other).isNone = decide (other = name) := by
    intro other hother
    by_cases hname : other = name
    · simp [hname]
    · simpa [b.arg?_without_of_ne hname, hname, Option.ne_none_iff_isSome] using hneeded other hother
  have hproblems := blockProblems_of_literals target (b := b.without name) hop (h.without name)
  rw [b.opcode_without, List.filter_congr habsent,
    List.filter_eq, (neededArguments_nodup b.opcode).count] at hproblems
  rw [hproblems]
  split <;> rfl

/-- What a command for the board stores is what every block stores. -/
theorem contributionsOf_of_sends (d : Dialect) {b : Block} (h : b.opcode ∈ sendingOpcodes) :
    contributionsOf d b = d.boilerplate := by
  unfold contributionsOf
  cases hop : b.opcode <;> simp only
  all_goals exact absurd (hop ▸ h) (by decide)

/-- A block that records no problem is translated without a diagnostic. -/
theorem translation_of_no_problems {target : Target} {settings : CodeSettings} {b : Block}
    (h : blockProblems target b = []) :
    ∃ code c, runGen (command (target.dialect settings) b []) (.start target) = (.ok code, c) ∧
      c.diagnostics = [] := by
  have htranslation : Flat.translation (target.dialect settings) b =
      runGen (command (target.dialect settings) b []) (.start target) := by
    rw [Flat.translation, Flat.target_dialect]
  rw [← problemsOf_eq target settings, Flat.problemsOf, htranslation, List.append_eq_nil_iff] at h
  rcases hrun : runGen (command (target.dialect settings) b []) (.start target) with ⟨e | code, c⟩
  · simp [hrun] at h
  · exact ⟨code, c, rfl, by simpa [hrun] using h⟩

end Generation

namespace Palette

/-! ### Blocks of the palette -/

/-- The names of the arguments that an entry lists. -/
def Entry.names (e : Entry) : List String :=
  Keyed.keys e.arguments

/-- A block of the kind of an entry with exactly the arguments that the entry lists, each of them a
text or a number.  The topic of a hat is not blank without its quotes. -/
structure Entry.Fits (e : Entry) (b : Block) : Prop where
  opcode_eq : b.opcode = e.opcode
  isSome_arg?_iff : ∀ name, (b.arg? name).isSome ↔ name ∈ e.names
  hasLiterals : b.HasLiterals
  topic : ∀ topic, b.opcode.shape = .hat → b.literal? "TOPIC" = some topic →
    Text.blank (topicKey topic) = false

/-- Whether the entry of a kind lists an argument that may be left out. -/
def isOptional (opcode : Opcode) (name : String) : Prop :=
  opcode = .connectCloud ∧ name ∈ ["USER", "PASS"]

instance (opcode : Opcode) (name : String) : Decidable (isOptional opcode name) :=
  inferInstanceAs (Decidable (_ ∧ _))

theorem opcode_entry (settings : PaletteSettings) (opcode : Opcode) :
    (entry settings opcode).opcode = opcode := by
  cases opcode <;> rfl

/-- The descriptor lists the entry of every opcode of the palette. -/
theorem entry?_descriptor (settings : PaletteSettings) {opcode : Opcode}
    (h : opcode ∈ Opcode.palette) :
    Descriptor.entry? (descriptor settings) opcode = some (entry settings opcode) := by
  have hfind : Opcode.palette.find? (fun op => op = opcode) = some opcode := by
    cases opcode with
    | code | expr => exact absurd h (by decide)
    | _ => rfl
  rw [ Descriptor.entry?, descriptor, List.find?_map]
  simp only [Function.comp_def, opcode_entry, hfind, Option.map_some]

/-- The entry of a command or a hat lists the arguments that are needed, and those that may be left
out. -/
theorem mem_names_entry (settings : PaletteSettings) {opcode : Opcode}
    (h : opcode.shape ≠ .reporter) (name : String) :
    name ∈ (entry settings opcode).names ↔
      name ∈ Generation.neededArguments opcode ∨ isOptional opcode name := by
  cases opcode with
  | topicData | expr => exact absurd rfl h
  | _ => simp [entry, Entry.names, Keyed.keys, Generation.neededArguments, isOptional] <;> tauto

/-- Every entry is for both targets, but the one that serves the serial line, which is for
MicroPython. -/
theorem mem_targets_entry (settings : PaletteSettings) (opcode : Opcode) (target : Target) :
    target ∈ (entry settings opcode).targets ↔
      (opcode = .serialWork → target = .microPython) := by
  cases opcode <;> cases target <;> simp [entry]

end Palette

namespace Generation

open Palette (Entry isOptional)

/-- The translation of a block in the place that is meant for it: as a statement, at the head of a
chain, or as a value. -/
def translate (d : Dialect) (b : Block) : Gen String :=
  match b.opcode.shape with
  | .command | .hat => command d b []
  | .reporter => reporter d b

section Fits

variable {palette : PaletteSettings} {opcode : Opcode} {b : Block}
  (hb : (Palette.entry palette opcode).Fits b)
include hb

theorem opcode_of_fits : b.opcode = opcode :=
  hb.opcode_eq.trans (Palette.opcode_entry palette opcode)

/-- A block that fits an entry has every argument that it needs. -/
theorem isSome_of_fits (h : opcode.shape ≠ .reporter) :
    ∀ name ∈ neededArguments b.opcode, (b.arg? name).isSome := by
  intro name hname
  rw [opcode_of_fits hb] at hname
  exact (hb.isSome_arg?_iff name).2 ((Palette.mem_names_entry palette h name).2 (.inl hname))

/-- On its targets such a block is well formed. -/
theorem wellFormed_of_fits (hop : opcode ∈ Opcode.palette) (hshape : opcode.shape ≠ .reporter)
    {target : Target} (htarget : target ∈ (Palette.entry palette opcode).targets) :
    b.WellFormed target := by
  have hopcode := opcode_of_fits hb
  have hsupplies := hb.hasLiterals.supplies (isSome_of_fits hb hshape)
  rw [hopcode] at hsupplies
  unfold Block.WellFormed
  rw [hopcode]
  cases opcode <;> simp only
  case connect | connectCloud | joinNetwork | publish | subscribe => exact hsupplies _
  case onTopic =>
    obtain ⟨arg, harg⟩ := Option.isSome_iff_exists.1
      (isSome_of_fits hb hshape "TOPIC" (by rw [hopcode]; decide))
    obtain ⟨topic, htopic⟩ := Option.isSome_iff_exists.1 (hb.hasLiterals "TOPIC" arg harg)
    exact ⟨topic, htopic, hb.topic topic (by rw [hopcode]; rfl) htopic⟩
  case serialWork => exact (Palette.mem_targets_entry palette _ target).1 htarget rfl
  case topicData => exact absurd rfl hshape
  case code | expr => exact absurd hop (by decide)

/-- **On its targets such a block is translated**, and nothing is recorded. -/
theorem translate_of_fits (hop : opcode ∈ Opcode.palette) (settings : CodeSettings)
    {target : Target} (htarget : target ∈ (Palette.entry palette opcode).targets) :
    ∃ code c, runGen (translate (target.dialect settings) b) (.start target) = (.ok code, c) ∧
      c.diagnostics = [] := by
  have hopcode := opcode_of_fits hb
  by_cases hshape : opcode.shape = .reporter
  · -- The only reporter of the palette does not look at its arguments, but at a menu choice.
    obtain rfl : opcode = .topicData := by
      cases opcode with
      | topicData => rfl
      | expr => exact absurd hop (by decide)
      | _ => exact absurd hshape (by decide)
    obtain ⟨_, args, text⟩ := b
    obtain rfl : _ = Opcode.topicData := hopcode
    exact ⟨_, .start target, rfl, rfl⟩
  · have hcommand : translate (target.dialect settings) b =
        command (target.dialect settings) b [] := by
      unfold translate
      rw [hopcode]
      cases hs : opcode.shape with
      | reporter => exact absurd hs hshape
      | _ => rfl
    rw [hcommand]
    exact translation_of_no_problems
      ((blockProblems_eq_nil_iff target b).2 (wellFormed_of_fits hb hop hshape htarget))

/-- On any other target it is unsupported. -/
theorem translate_unsupported (settings : CodeSettings) {target : Target}
    (htarget : target ∉ (Palette.entry palette opcode).targets) :
    runGen (translate (target.dialect settings) b) (.start target) =
      (.error (.unsupported opcode target), .start target) := by
  rw [Palette.mem_targets_entry] at htarget
  obtain ⟨rfl, hne⟩ : opcode = .serialWork ∧ target ≠ .microPython := by simpa using htarget
  obtain rfl : target = .arduino := by
    cases target with
    | arduino => rfl
    | microPython => exact absurd rfl hne
  have hopcode := opcode_of_fits hb
  have herror : commandError? (Target.arduino.dialect settings) b =
      some (.unsupported .serialWork .arduino) := by
    unfold commandError?
    rw [hopcode]
    rfl
  have hcommand : translate (Target.arduino.dialect settings) b =
      command (Target.arduino.dialect settings) b [] := by
    unfold translate
    rw [hopcode]
    rfl
  have hwrites := commandWith_error herror (chain (Target.arduino.dialect settings) [])
    (.start .arduino)
  rw [Context.extend_nil] at hwrites
  rw [hcommand]
  exact hwrites

/-- A command whose entry lists an argument sends a command to the board. -/
theorem sends_of_mem_names (hcommand : opcode.shape = .command) {name : String}
    (hname : name ∈ (Palette.entry palette opcode).names) : b.opcode ∈ sendingOpcodes := by
  rw [opcode_of_fits hb]
  cases opcode with
  | onTopic | topicData | expr => exact absurd hcommand (by decide)
  | serialWork | code => simp [Palette.entry, Entry.names, Keyed.keys] at hname
  | _ => decide

/-- Without one argument, a block that fits has one problem, or none if it may leave that argument
out. -/
theorem problemsOf_without (hcommand : opcode.shape = .command) (settings : CodeSettings)
    (target : Target) {name : String} (hname : name ∈ (Palette.entry palette opcode).names) :
    Flat.problemsOf (target.dialect settings) (b.without name) =
      if isOptional opcode name then [] else [missing opcode name] := by
  have hshape : opcode.shape ≠ .reporter := by
    rw [hcommand]
    decide
  rw [problemsOf_eq, blockProblems_without target (sends_of_mem_names hb hcommand hname)
    hb.hasLiterals (isSome_of_fits hb hshape), opcode_of_fits hb]
  by_cases hoptional : isOptional opcode name
  · have hnot : name ∉ neededArguments opcode := by
      obtain ⟨rfl, hmem⟩ := hoptional
      exact (by decide : ∀ name ∈ ["USER", "PASS"], name ∉ neededArguments .connectCloud) name hmem
    rw [if_neg hnot, if_pos hoptional]
  · have hneeded := ((Palette.mem_names_entry palette hshape name).1 hname).resolve_right hoptional
    rw [if_pos hneeded, if_neg hoptional]

/-- **A needed argument that is taken away from a command is recorded**, wherever the command
stands, and one that may be left out is not. -/
theorem chain_without_command (hcommand : opcode.shape = .command) (settings : CodeSettings)
    (target : Target) {name : String} (hname : name ∈ (Palette.entry palette opcode).names) :
    ∃ code, ∀ below c, runGen (chain (target.dialect settings) (b.without name :: below)) c =
      runGen ((code :: ·) <$> chain (target.dialect settings) below)
        (c.extend (target.dialect settings).boilerplate
          (if isOptional opcode name then [] else [missing opcode name])) := by
  have hshape : b.opcode.shape = .command := by
    rw [opcode_of_fits hb, hcommand]
  have hhat : Flat.isHat (b.without name) = false := by
    rw [Flat.isHat, b.opcode_without, hshape]
    rfl
  have hsends := sends_of_mem_names hb hcommand hname
  have hstatements : Flat.statementsOf (target.dialect settings) [b.without name] =
      [Flat.codeOf (target.dialect settings) (b.without name)] := by
    simp [Flat.statementsOf, hshape]
  refine ⟨Flat.codeOf (target.dialect settings) (b.without name), fun below c => ?_⟩
  rw [Flat.runGen_chain_cons _ hhat, problemsOf_without hb hcommand settings target hname,
    contributionsOf_of_sends _ (b.opcode_without name ▸ hsends), hstatements]
  rfl

/-- **The topic that is taken away from a hat is recorded**, and nothing else happens. -/
theorem chain_without_topic (hhat : opcode.shape = .hat) (d : Dialect) {name : String}
    (hname : name ∈ (Palette.entry palette opcode).names) (below : List Block) (c : Context) :
    runGen (chain d (b.without name :: below)) c = (.ok [], c.extend [] [missing opcode name]) := by
  obtain rfl : opcode = .onTopic := by
    cases opcode with
    | onTopic => rfl
    | _ => exact absurd hhat (by decide)
  obtain rfl : name = "TOPIC" := List.mem_singleton.1 hname
  have hopcode : (b.without "TOPIC").opcode = .onTopic := by
    rw [b.opcode_without, opcode_of_fits hb]
  have htopic : hatTopic (b.without "TOPIC") =
      .error (.missingArgument (b.without "TOPIC").opcode "TOPIC") := by
    rw [hatTopic, Block.arg?_without_self]
    rfl
  have hisHat : Flat.isHat (b.without "TOPIC") = true := by
    rw [Flat.isHat, hopcode]
    rfl
  have habsorb := (Flat.onTopic_error d htopic (chain d below)).absorb_error rfl
    (b.without "TOPIC").opcode c
  rw [Flat.chain_cons_hat d hisHat, runGen_bind_ok habsorb, runGen_pure, hopcode]
  rfl

end Fits

/-- **The palette agrees with the translations.**  Each kind of the palette has an entry.  Whatever
the settings and the target, let a block have exactly the arguments that the entry of its kind lists,
each of them a literal, and a topic that is not blank if it is a hat.

* Translated on its own in its place, it succeeds without a diagnostic if the entry lists the target,
  and otherwise fails because the target does not support it, with nothing done.
* Without one of the arguments, the block in a chain records that this one is missing, and nothing
  else; the chain goes on behind a command and ends at a hat.  Only a user name and a password for
  the cloud may be taken away unrecorded. -/
theorem palette_agrees (palette : PaletteSettings) {opcode : Opcode}
    (hop : opcode ∈ Opcode.palette) :
    ∃ e, Palette.Descriptor.entry? (Palette.descriptor palette) opcode = some e ∧
      ∀ (settings : CodeSettings) (target : Target) (b : Block), e.Fits b →
        let d := target.dialect settings
        (target ∈ e.targets → ∃ code c, runGen (translate d b) (.start target) = (.ok code, c) ∧
          c.diagnostics = []) ∧
        (target ∉ e.targets → runGen (translate d b) (.start target) =
          (.error (.unsupported opcode target), .start target)) ∧
        ∀ name ∈ e.names,
          (opcode.shape = .hat → ∀ below c, runGen (chain d (b.without name :: below)) c =
            (.ok [], c.extend [] [missing opcode name])) ∧
          (opcode.shape = .command → ∃ code, ∀ below c,
            runGen (chain d (b.without name :: below)) c =
              runGen ((code :: ·) <$> chain d below) (c.extend d.boilerplate
                (if isOptional opcode name then [] else [missing opcode name]))) := by
  refine ⟨Palette.entry palette opcode, Palette.entry?_descriptor palette hop,
    fun settings target b hb => ⟨?_, ?_, fun name hname => ⟨?_, ?_⟩⟩⟩
  · exact translate_of_fits hb hop settings
  · exact translate_unsupported hb settings
  · exact fun hhat => chain_without_topic hb hhat _ hname
  · exact fun hcommand => chain_without_command hb hcommand settings target hname

/-- A connection to the cloud with all its arguments. -/
def cloudBlock : Block where
  opcode := .connectCloud
  args := [("CLIENTID", .text "board"), ("PASS", .text "\"key\""), ("SERVER", .text "broker"),
    ("USER", .text "")]

/-- The block has just the arguments that its entry lists. -/
theorem cloudBlock_fits : (Palette.entry {} .connectCloud).Fits cloudBlock where
  opcode_eq := rfl
  isSome_arg?_iff _ := Keyed.isSome_get?_iff
  hasLiterals := by
    intro name arg harg
    have hmem := Keyed.mem_of_get?_eq_some harg
    rw [Block.literal?, harg]
    simp only [cloudBlock, List.mem_cons, Prod.mk.injEq, List.not_mem_nil, or_false] at hmem
    rcases hmem with ⟨-, rfl⟩ | ⟨-, rfl⟩ | ⟨-, rfl⟩ | ⟨-, rfl⟩ <;> rfl
  topic _ hhat := absurd hhat (by decide)

/-- A cloud connection translates as the palette has it, lacks its server if that is removed, and
may leave its password out. -/
theorem palette_agrees_cloudBlock :
    (∃ code c, runGen (translate (.arduino {}) cloudBlock) (.start .arduino) = (.ok code, c) ∧
      c.diagnostics = []) ∧
    (runGen (chain (.arduino {}) [cloudBlock.without "SERVER"]) (.start .arduino)).2.diagnostics =
      [missing .connectCloud "SERVER"] ∧
    (runGen (chain (.arduino {}) [cloudBlock.without "PASS"]) (.start .arduino)).2.diagnostics =
      [] := by
  obtain ⟨e, he, hagrees⟩ := @palette_agrees {} .connectCloud (by decide)
  obtain rfl : Palette.entry {} .connectCloud = e :=
    Option.some.inj ((Palette.entry?_descriptor {} (by decide)).symm.trans he)
  obtain ⟨hsupported, -, hremoved⟩ := hagrees {} .arduino cloudBlock cloudBlock_fits
  have hdiagnostics : ∀ name ∈ (Palette.entry {} .connectCloud).names,
      (runGen (chain (.arduino {}) [cloudBlock.without name]) (.start .arduino)).2.diagnostics =
        if isOptional .connectCloud name then [] else [missing .connectCloud name] := by
    intro name hname
    obtain ⟨code, hcode⟩ := (hremoved name hname).2 rfl
    exact congrArg (·.2.diagnostics) (hcode [] (.start .arduino))
  exact ⟨hsupported (by decide), hdiagnostics "SERVER" (by decide), hdiagnostics "PASS" (by decide)⟩

end Generation
end BoardBlocks
