/-
# The keys of the sections

A block that talks to the board's link brings the whole boilerplate of its target along, before
anything else that it stores.  So if any such block is visited, the boilerplate leads the fragments
of the program, and its keys lead every section:

| section | Arduino | MicroPython | after them |
| --- | --- | --- | --- |
| headers | `iot` | `uart`, `sleep` | nothing |
| definitions | `iot` | `uart`, `iot_handlers` | `linebuf` if the line is served |
| setup | `_serial`, `iot` | `iot` | the names of the routines |
| loop | `iot` | nothing | nothing |
| functions | nothing | nothing | the names of the routines, `iotserial` if the line is served |

A key stands where it came first.  The hats of a script store their fragments from the last hat to
the first, and each stores its registration and its routine together.  So setup and functions have
the names in one order (`Flat.storedNames`), which differs from that of the callbacks if a script
has several hats.
-/

import BoardBlocks.Proofs.CollidingTopics
import BoardBlocks.Proofs.Registrations

namespace BoardBlocks

namespace Keyed

variable {α : Type}

/-- **A key stands where it was first put.** -/
theorem keys_putAll (cs : List (String × α)) : keys (putAll cs []) = (keys cs).eraseDups := by
  induction cs using List.reverseRecOn with
  | nil => rfl
  | append_singleton cs c ih =>
    have hput : putAll (cs ++ [c]) [] = put c.1 c.2 (putAll cs []) := putAll_append cs [c] []
    have hkeys : keys (cs ++ [c]) = keys cs ++ [c.1] := List.map_append
    rw [hput, hkeys, keys_put, ih, Callbacks.eraseDups_concat]
    by_cases hkey : c.1 ∈ keys cs <;> simp [hkey]

end Keyed

namespace Generation

/-! ### Keys of fragments -/

/-- The keys of the fragments that go to a section, in order and with repetitions. -/
def keysOf (x : Section) (cs : List Contribution) : List String :=
  (cs.filter fun c => c.part = x).map (·.key)

theorem keysOf_append (x : Section) (cs cs' : List Contribution) :
    keysOf x (cs ++ cs') = keysOf x cs ++ keysOf x cs' := by
  rw [keysOf, List.filter_append, List.map_append]
  rfl

/-- The keys of the boilerplate of a target in a section. -/
def boilerplateKeys : Target → Section → List String
  | .arduino, .headers | .arduino, .definitions | .arduino, .loop => ["iot"]
  | .arduino, .setup => ["_serial", "iot"]
  | .microPython, .headers => ["uart", "sleep"]
  | .microPython, .definitions => ["uart", "iot_handlers"]
  | .microPython, .setup => ["iot"]
  | .microPython, .loop | .arduino, .functions | .microPython, .functions => []

/-- The keys of what serving the line stores in a section. -/
def serialKeys : Section → List String
  | .definitions => ["linebuf"]
  | .functions => ["iotserial"]
  | .headers | .setup | .loop => []

/-- The keys of what a hat stores in a section, from the name of its routine. -/
def nameKeys (name : String) : Section → List String
  | .setup | .functions => [name]
  | .headers | .definitions | .loop => []

/-- The boilerplate of a target has the same keys with any settings. -/
theorem keysOf_boilerplate (target : Target) (settings : CodeSettings) (x : Section) :
    keysOf x (target.dialect settings).boilerplate = boilerplateKeys target x := by
  cases target <;> cases x <;> rfl

/-- No boilerplate is stored twice under a key. -/
theorem eraseDups_boilerplateKeys (target : Target) (x : Section) :
    (boilerplateKeys target x).eraseDups = boilerplateKeys target x := by
  cases target <;> cases x <;> rfl

theorem boilerplateKeys_functions (target : Target) : boilerplateKeys target .functions = [] := by
  cases target <;> rfl

/-- Whether a block brings the boilerplate of the target along: the blocks that talk to the link, a
hat with a valid topic and, where the target has it, serving the serial line. -/
def bringsBoilerplate (target : Target) (b : Block) : Bool :=
  match b.opcode with
  | .connect | .connectCloud | .joinNetwork | .publish | .subscribe => true
  | .onTopic => Flat.hasTopic b
  | .serialWork => target = .microPython
  | .topicData | .code | .expr => false

/-- Whether a block serves the serial line on a target. -/
def servesLine (target : Target) (b : Block) : Bool :=
  target = .microPython && b.opcode = .serialWork

/-! ### What leads the fragments -/

/-- Fragments are led by the boilerplate if it is used, and there are none if it is not. -/
def IsLed (d : Dialect) (used : Bool) (cs : List Contribution) : Prop :=
  if used then d.boilerplate <+: cs else cs = []

/-- Led fragments behind led fragments are led: a second boilerplate changes nothing. -/
theorem IsLed.append {d : Dialect} {used used' : Bool} {cs cs' : List Contribution}
    (h : IsLed d used cs) (h' : IsLed d used' cs') : IsLed d (used || used') (cs ++ cs') := by
  cases used with
  | true => exact List.IsPrefix.trans h (List.prefix_append cs cs')
  | false =>
    obtain rfl : cs = [] := h
    exact h'

/-- Fragments of many are led, if those of each are. -/
theorem IsLed.flatMap {α : Type} {d : Dialect} {used : α → Bool} {f : α → List Contribution}
    (h : ∀ a, IsLed d (used a) (f a)) (as : List α) : IsLed d (as.any used) (as.flatMap f) := by
  induction as with
  | nil => rfl
  | cons a as ih =>
    rw [List.any_cons, List.flatMap_cons]
    exact (h a).append ih

/-- A block that serves the line brings the boilerplate along. -/
theorem bringsBoilerplate_of_servesLine {target : Target} {b : Block}
    (h : servesLine target b = true) : bringsBoilerplate target b = true := by
  obtain ⟨rfl, hop⟩ : target = .microPython ∧ b.opcode = .serialWork := by
    simpa [servesLine] using h
  simp [bringsBoilerplate, hop]

/-- **What a block that is no hat stores**: the boilerplate, if it brings it along, and what serving
the line needs. -/
theorem contributionsOf_eq (target : Target) (settings : CodeSettings) {b : Block}
    (h : Flat.isHat b = false) : contributionsOf (target.dialect settings) b =
      if bringsBoilerplate target b then
        (target.dialect settings).boilerplate ++
          if servesLine target b then MicroPython.serialWork else []
      else [] := by
  have hnot : b.opcode ≠ .onTopic := by simpa [Flat.isHat_eq] using h
  unfold contributionsOf bringsBoilerplate servesLine
  cases hop : b.opcode <;> simp only
  case connect | connectCloud | joinNetwork | publish | subscribe => simp
  case onTopic => exact absurd hop hnot
  case serialWork => cases target <;> rfl
  case topicData | code | expr => rfl

/-- Such a block stores the boilerplate first, or nothing. -/
theorem isLed_contributionsOf (target : Target) (settings : CodeSettings) {b : Block}
    (h : Flat.isHat b = false) : IsLed (target.dialect settings) (bringsBoilerplate target b)
      (contributionsOf (target.dialect settings) b) := by
  rw [contributionsOf_eq target settings h]
  cases bringsBoilerplate target b with
  | true => exact List.prefix_append _ _
  | false => rfl

/-! ### What comes after the boilerplate -/

/-- The keys of fragments in a section that are none of the boilerplate. -/
def added (target : Target) (x : Section) (cs : List Contribution) : List String :=
  (keysOf x cs).removeAll (boilerplateKeys target x)

theorem added_append (target : Target) (x : Section) (cs cs' : List Contribution) :
    added target x (cs ++ cs') = added target x cs ++ added target x cs' := by
  rw [added, keysOf_append, List.removeAll, List.filter_append]
  rfl

theorem added_flatMap {α : Type} (target : Target) (x : Section) (f : α → List Contribution)
    (as : List α) : added target x (as.flatMap f) = as.flatMap fun a => added target x (f a) := by
  induction as with
  | nil => rfl
  | cons a as ih => rw [List.flatMap_cons, added_append, ih, List.flatMap_cons]

/-- The boilerplate adds nothing to itself. -/
theorem added_boilerplate (target : Target) (settings : CodeSettings) (x : Section) :
    added target x (target.dialect settings).boilerplate = [] := by
  rw [added, keysOf_boilerplate]
  cases target <;> cases x <;> rfl

/-- No routine has a key of the boilerplate for its name. -/
theorem callbackName_notMem_boilerplateKeys (target : Target) (x : Section) (topic : String) :
    callbackName topic ∉ boilerplateKeys target x := by
  have hkeys : ∀ key ∈ boilerplateKeys target x, key.toList.head? ≠ some 'G' := by
    cases target <;> cases x <;> decide
  exact fun hmem => callbackName_ne (hkeys _ hmem) topic rfl

/-- A hat adds its name to the sections that it stores something in. -/
theorem added_hat (target : Target) (settings : CodeSettings) (x : Section) (h : Flat.Hat) :
    added target x [h.registration (target.dialect settings), h.routine (target.dialect settings)] =
      nameKeys h.name x := by
  have hkeys : keysOf x [h.registration (target.dialect settings),
      h.routine (target.dialect settings)] = nameKeys h.name x := by
    cases x <;> rfl
  rw [added, hkeys, List.removeAll, List.filter_eq_self]
  intro key hkey
  have hname : key = callbackName h.key := by cases x <;> simp_all [nameKeys, Flat.Hat.name]
  simpa [hname] using callbackName_notMem_boilerplateKeys target x h.key

/-- Of the blocks that are no hats only those that serve the line add keys. -/
theorem added_contributionsOf (target : Target) (settings : CodeSettings) (x : Section)
    {b : Block} (h : Flat.isHat b = false) :
    added target x (contributionsOf (target.dialect settings) b) =
      if servesLine target b then serialKeys x else [] := by
  have hserial : added target x MicroPython.serialWork = serialKeys x := by
    cases target <;> cases x <;> rfl
  rw [contributionsOf_eq target settings h]
  cases hserves : servesLine target b with
  | true =>
    rw [if_pos (bringsBoilerplate_of_servesLine hserves), if_pos rfl, if_pos rfl, added_append,
      added_boilerplate, hserial, List.nil_append]
  | false =>
    cases bringsBoilerplate target b with
    | true => simpa using added_boilerplate target settings x
    | false => simp [added, keysOf, List.removeAll]

/-- A hat does not serve the serial line. -/
theorem servesLine_of_isHat (target : Target) {b : Block} (h : Flat.isHat b = true) :
    servesLine target b = false := by
  simp [servesLine, Flat.opcode_of_isHat h]

/-- **The keys that a chain adds**: those of its blocks that serve the line, then the names of its
hats from the last to the first. -/
theorem added_contributions (target : Target) (settings : CodeSettings) (x : Section)
    (bs : List Block) : added target x (Flat.contributions (target.dialect settings) bs) =
      (((Flat.visited bs).filter (servesLine target)).flatMap fun _ => serialKeys x) ++
        (Flat.reached bs).reverse.flatMap fun h => nameKeys h.name x := by
  induction bs using Flat.chain_induction with
  | nil => cases x <;> rfl
  | plain b bs h hend ih =>
    rw [Flat.contributions_cons _ h, added_append, added_contributionsOf target settings x h, ih,
      Flat.visited_cons hend, Flat.reached_cons h, List.filter_cons]
    cases servesLine target b <;> simp
  | hat b bs h ht hend ih =>
    rw [Flat.contributions_cons_hat _ h ht, added_append, added_append, added_boilerplate, ih,
      added_hat, Flat.visited_cons hend, Flat.reached_cons_hat h ht, List.filter_cons,
      servesLine_of_isHat target h]
    simp
  | invalid b bs h ht hend =>
    rw [Flat.contributions_cons_invalid _ h ht, Flat.visited_cons_invalid hend,
      Flat.reached_cons_invalid h ht]
    simp [servesLine_of_isHat target h, added, keysOf, List.removeAll]

/-- A chain stores the boilerplate first if one of its visited blocks brings it along, and nothing
at all if none does. -/
theorem isLed_contributions (target : Target) (settings : CodeSettings) (bs : List Block) :
    IsLed (target.dialect settings) ((Flat.visited bs).any (bringsBoilerplate target))
      (Flat.contributions (target.dialect settings) bs) := by
  have hbrings : ∀ b, Flat.isHat b = true → bringsBoilerplate target b = Flat.hasTopic b := by
    intro b h
    simp [bringsBoilerplate, Flat.opcode_of_isHat h]
  induction bs using Flat.chain_induction with
  | nil => rfl
  | plain b bs h hend ih =>
    rw [Flat.contributions_cons _ h, Flat.visited_cons hend, List.any_cons]
    exact (isLed_contributionsOf target settings h).append ih
  | hat b bs h ht hend ih =>
    rw [Flat.contributions_cons_hat _ h ht, Flat.visited_cons hend, List.any_cons, hbrings b h, ht,
      List.append_assoc]
    exact List.prefix_append _ _
  | invalid b bs h ht hend =>
    rw [Flat.contributions_cons_invalid _ h ht, Flat.visited_cons_invalid hend, List.any_cons,
      hbrings b h, ht]
    rfl

/-! ### The keys of a program -/

namespace Flat

/-- The names of the routines of a program in the order in which they are stored: script after
script, the hats of each from the last to the first. -/
def storedNames (p : Program) : List String :=
  (p.scripts.flatMap fun s => (reached s.blocks).reverse.map Hat.name).eraseDups

/-- The keys that a program adds to a section. -/
def addedKeys (target : Target) (p : Program) (x : Section) : List String :=
  p.scripts.flatMap fun s =>
    (((visited s.blocks).filter (servesLine target)).flatMap fun _ => serialKeys x) ++
      (reached s.blocks).reverse.flatMap fun h => nameKeys h.name x

/-- A section has the key of each fragment that was stored there, where it first came. -/
theorem keys_sketch_eq (d : Dialect) (p : Program) (x : Section) : (sketch d p).keys x =
    (keysOf x (p.scripts.flatMap fun s => contributions d s.blocks)).eraseDups := by
  rw [Sketch.keys, entries_sketch, entries, Keyed.keys_putAll, Keyed.keys, Sketch.partOf, List.map_map]
  rfl

/-- **The keys of a section**, if a block brings the boilerplate along. -/
theorem keys_sketch {target : Target} (settings : CodeSettings) {p : Program}
    (hused : (visitedBlocks p).any (bringsBoilerplate target) = true) (x : Section) :
    (sketch (target.dialect settings) p).keys x =
      boilerplateKeys target x ++ (addedKeys target p x).eraseDups := by
  have hled := IsLed.flatMap (fun s : Script => isLed_contributions target settings s.blocks)
    p.scripts
  have hadded : added target x (p.scripts.flatMap fun s =>
      contributions (target.dialect settings) s.blocks) = addedKeys target p x := by
    rw [added_flatMap]
    simp only [added_contributions]
    rfl
  rw [← List.any_flatMap, ← visitedBlocks, hused] at hled
  obtain ⟨rest, hrest⟩ := hled
  rw [keys_sketch_eq, ← hadded, ← hrest, added_append, added_boilerplate, List.nil_append,
    keysOf_append, keysOf_boilerplate, List.eraseDups_append, eraseDups_boilerplateKeys]
  rfl

/-- If no block brings the boilerplate along, the sections are empty. -/
theorem keys_sketch_of_unused {target : Target} (settings : CodeSettings) {p : Program}
    (hused : (visitedBlocks p).any (bringsBoilerplate target) = false) (x : Section) :
    (sketch (target.dialect settings) p).keys x = [] := by
  have hled := IsLed.flatMap (fun s : Script => isLed_contributions target settings s.blocks)
    p.scripts
  rw [← List.any_flatMap, ← visitedBlocks, hused] at hled
  have hnone : p.scripts.flatMap (fun s => contributions (target.dialect settings) s.blocks) = [] :=
    hled
  rw [keys_sketch_eq, hnone]
  rfl

/-- The names in the sections are those of the callbacks. -/
theorem storedNames_perm {p : Program} {t : Callbacks} (ht : t.Holds (keys p)) :
    (storedNames p).Perm (t.bindings.map (·.name)) := by
  refine (List.perm_ext_iff_of_nodup (Callbacks.nodup_eraseDups _) ht.nodup_names).2 fun name => ?_
  rw [ht.bindings_eq]
  simp [Callbacks.bindingsOf, keys, Hat.name, and_assoc]

/-- An added key is one for serving the line, if a block does, or one of a reached hat. -/
theorem mem_addedKeys {target : Target} {p : Program} {x : Section} {key : String} :
    key ∈ addedKeys target p x ↔
      (∃ b ∈ visitedBlocks p, servesLine target b = true) ∧ key ∈ serialKeys x ∨
        ∃ s ∈ p.scripts, ∃ h ∈ reached s.blocks, key ∈ nameKeys h.name x := by
  simp only [addedKeys, visitedBlocks, List.mem_flatMap, List.mem_append, List.mem_filter,
    List.mem_reverse]
  constructor
  · rintro ⟨s, hs, ⟨b, ⟨hb, hserves⟩, hkey⟩ | ⟨h, hh, hkey⟩⟩
    · exact .inl ⟨⟨b, ⟨s, hs, hb⟩, hserves⟩, hkey⟩
    · exact .inr ⟨s, hs, h, hh, hkey⟩
  · rintro (⟨⟨b, ⟨s, hs, hb⟩, hserves⟩, hkey⟩ | ⟨s, hs, h, hh, hkey⟩)
    · exact ⟨s, hs, .inl ⟨b, ⟨hb, hserves⟩, hkey⟩⟩
    · exact ⟨s, hs, .inr ⟨h, hh, hkey⟩⟩

/-- Nothing is added to a section that neither hats nor the serial line store anything in. -/
theorem addedKeys_of_nil {x : Section} (hserial : serialKeys x = [])
    (hname : ∀ name, nameKeys name x = []) (target : Target) (p : Program) :
    addedKeys target p x = [] := by
  refine List.eq_nil_iff_forall_not_mem.2 fun key hkey => ?_
  rcases mem_addedKeys.1 hkey with ⟨-, hkey⟩ | ⟨s, -, h, -, hkey⟩
  · rw [hserial] at hkey
    exact nomatch hkey
  · rw [hname] at hkey
    exact nomatch hkey

/-- To the definitions only the line buffer is added, if a block serves the line. -/
theorem addedKeys_definitions (target : Target) (p : Program) :
    (addedKeys target p .definitions).eraseDups =
      if (visitedBlocks p).any (servesLine target) then ["linebuf"] else [] := by
  have hall : ∀ key ∈ addedKeys target p .definitions, key = "linebuf" := by
    intro key hkey
    rcases mem_addedKeys.1 hkey with ⟨-, hkey⟩ | ⟨s, -, h, -, hkey⟩
    · exact List.mem_singleton.1 hkey
    · exact nomatch hkey
  have hmem : "linebuf" ∈ addedKeys target p .definitions ↔
      (visitedBlocks p).any (servesLine target) = true := by
    rw [mem_addedKeys, List.any_eq_true]
    simp [serialKeys, nameKeys]
  rw [Callbacks.eraseDups_of_forall_eq hall]
  exact if_congr hmem rfl rfl

/-- To the setup the names of the routines are added. -/
theorem addedKeys_setup (target : Target) (p : Program) :
    (addedKeys target p .setup).eraseDups = storedNames p := by
  have hserial : ∀ bs : List Block, bs.flatMap (fun _ => serialKeys .setup) = [] := fun bs =>
    List.flatMap_eq_nil_iff.2 fun _ _ => rfl
  simp only [addedKeys, storedNames, hserial, List.nil_append, nameKeys, List.map_eq_flatMap]

/-- No hat has the name of the routine that serves the line. -/
theorem name_ne_iotserial (h : Hat) : h.name ≠ "iotserial" :=
  (callbackName_ne (by decide) h.key).symm

/-- To the functions the names of the routines are added, apart from the routine that serves the
line. -/
theorem addedKeys_functions (target : Target) (p : Program) :
    (addedKeys target p .functions).eraseDups.filter (· ≠ "iotserial") = storedNames p := by
  have hserial : ∀ bs : List Block,
      (bs.flatMap fun _ => serialKeys .functions).filter (· ≠ "iotserial") = [] := fun bs => by
    rw [List.filter_flatMap]
    exact List.flatMap_eq_nil_iff.2 fun _ _ => rfl
  have hnames : ∀ hs : List Hat, (hs.flatMap fun h => nameKeys h.name .functions).filter
      (· ≠ "iotserial") = hs.map Hat.name := fun hs => by
    rw [List.map_eq_flatMap]
    refine List.filter_eq_self.2 fun name hname => ?_
    obtain ⟨h, -, hname⟩ := List.mem_flatMap.1 hname
    exact List.mem_singleton.1 hname ▸ decide_eq_true (name_ne_iotserial h)
  rw [Callbacks.filter_eraseDups, addedKeys, List.filter_flatMap, storedNames]
  simp only [List.filter_append, hserial, hnames, List.nil_append]

/-- The routine that serves the line is added once, if a block serves it. -/
theorem count_addedKeys_functions (target : Target) (p : Program) :
    (addedKeys target p .functions).eraseDups.count "iotserial" =
      if (visitedBlocks p).any (servesLine target) then 1 else 0 := by
  have hmem : "iotserial" ∈ (addedKeys target p .functions).eraseDups ↔
      (visitedBlocks p).any (servesLine target) = true := by
    rw [List.mem_eraseDups, mem_addedKeys, List.any_eq_true]
    simp [serialKeys, nameKeys, (name_ne_iotserial _).symm]
  rw [(Callbacks.nodup_eraseDups _).count]
  exact if_congr hmem rfl rfl

end Flat

/-- The keyed sections of a sketch in which the boilerplate was stored: its keys come first, those
for serving the line and the names of the routines after them. -/
structure SectionKeys (target : Target) (serves : Bool) (names : List String) (s : Sketch) :
    Prop where
  headers : s.keys .headers = boilerplateKeys target .headers
  definitions : s.keys .definitions =
    boilerplateKeys target .definitions ++ if serves then ["linebuf"] else []
  setup : s.keys .setup = boilerplateKeys target .setup ++ names
  loop : s.keys .loop = boilerplateKeys target .loop
  functions : (s.keys .functions).filter (· ≠ "iotserial") = names
  count_functions : (s.keys .functions).count "iotserial" = if serves then 1 else 0

/-- **The visited blocks determine the keys of all sections.**

* If no visited block brings the boilerplate along, every section is empty.
* If any does, the boilerplate leads every section, whatever blocks there are and in whatever order.
  After it come the keys for serving the line if a visited block does that, and the names of the
  routines in setup and functions, in one order.
* The names are those of the callbacks, each once. -/
theorem section_keys {target : Target} {settings : CodeSettings} {p : Program} {g : Generated}
    (h : generate target settings p = .ok g) :
    ∃ c, runGen (runProgram (target.dialect settings) p) (.start target) = (.ok (), c) ∧
      g.source = c.sketch.render ∧ g.callbacks = c.callbacks.bindings ∧
      ((∀ b ∈ Flat.visitedBlocks p, bringsBoilerplate target b = false) →
        ∀ x, c.sketch.keys x = []) ∧
      ((∃ b ∈ Flat.visitedBlocks p, bringsBoilerplate target b = true) →
        SectionKeys target ((Flat.visitedBlocks p).any (servesLine target)) (Flat.storedNames p)
          c.sketch) ∧
      (Flat.storedNames p).Nodup ∧
      (Flat.storedNames p).Perm (g.callbacks.map (·.name)) := by
  obtain ⟨c, hrun, hsource, hcallbacks, hsketch, hholds⟩ := Flat.exists_run h
  refine ⟨c, hrun, hsource, hcallbacks, ?_, ?_, Callbacks.nodup_eraseDups _, ?_⟩
  · intro hunused
    rw [hsketch]
    exact Flat.keys_sketch_of_unused settings (List.any_eq_false.2 (by simpa using hunused))
  · intro hused
    have hkeys := Flat.keys_sketch settings (List.any_eq_true.2 hused)
    rw [← hsketch] at hkeys
    have hheaders := Flat.addedKeys_of_nil (x := .headers) rfl (fun _ => rfl) target p
    have hloop := Flat.addedKeys_of_nil (x := .loop) rfl (fun _ => rfl) target p
    have hfunctions : c.sketch.keys .functions =
        (Flat.addedKeys target p .functions).eraseDups := by
      rw [hkeys, boilerplateKeys_functions, List.nil_append]
    exact {
      headers := by rw [hkeys, hheaders, List.eraseDups_nil, List.append_nil]
      definitions := by rw [hkeys, Flat.addedKeys_definitions]
      setup := by rw [hkeys, Flat.addedKeys_setup]
      loop := by rw [hkeys, hloop, List.eraseDups_nil, List.append_nil]
      functions := by rw [hfunctions, Flat.addedKeys_functions]
      count_functions := by rw [hfunctions, Flat.count_addedKeys_functions] }
  · rw [hcallbacks]
    exact Flat.storedNames_perm hholds

/-- A program whose only script has two hats, and blocks that serve the line between and after
them. -/
def servedHats : Program :=
  let onTopic (topic : String) : Block := { opcode := .onTopic, args := [("TOPIC", .text topic)] }
  ⟨[⟨.setup, [onTopic "/a", { opcode := .serialWork }, onTopic "/b", { opcode := .serialWork }]⟩]⟩

/-- The routine of the second hat is stored before that of the first. -/
theorem section_keys_servedHats : ∃ g c, generate .microPython {} servedHats = .ok g ∧
    runGen (runProgram (.microPython {}) servedHats) (.start .microPython) = (.ok (), c) ∧
    c.sketch.keys .definitions = ["uart", "iot_handlers", "linebuf"] ∧
    c.sketch.keys .setup = ["iot", "GOT_b", "GOT_a"] ∧
    (c.sketch.keys .functions).filter (· ≠ "iotserial") = ["GOT_b", "GOT_a"] ∧
    "iotserial" ∈ c.sketch.keys .functions := by
  obtain ⟨g, h⟩ : ∃ g, generate .microPython {} servedHats = .ok g :=
    Flat.exists_generated (by decide +kernel)
  obtain ⟨c, hrun, -, -, -, hused, -⟩ := section_keys h
  have hkeys := hused (by decide +kernel)
  have hserves : (Flat.visitedBlocks servedHats).any (servesLine .microPython) = true := by
    decide +kernel
  have hnames : Flat.storedNames servedHats = ["GOT_b", "GOT_a"] := by decide +kernel
  rw [hserves, hnames] at hkeys
  refine ⟨g, c, h, hrun, hkeys.definitions, hkeys.setup, hkeys.functions, ?_⟩
  exact List.count_pos_iff.1 (by rw [hkeys.count_functions]; decide)

end Generation
end BoardBlocks
