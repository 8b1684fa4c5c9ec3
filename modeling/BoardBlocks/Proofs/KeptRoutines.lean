/-
# Which routine stays

Of the fragments stored under the name of a callback the last one stays.  Only hats store such
fragments, for every other key of a section starts with another letter than `GOT` does
(`callbackName_ne`).  The hats of a chain store theirs from the last to the first, so the first hat
of a chain on a topic wins over the later ones, and a later script over an earlier one.
-/

import BoardBlocks.Proofs.FlatSource
import Mathlib.Data.List.Find

namespace BoardBlocks

/-- A key that does not start like a callback name is none. -/
theorem callbackName_ne {key : String} (h : key.toList.head? ≠ some 'G') (topic : String) :
    key ≠ callbackName topic := by
  rintro rfl
  simp [callbackName, callbackStart] at h

namespace Generation

/-- A fragment whose key is no callback name. -/
def Contribution.IsApart (c : Contribution) : Prop :=
  c.key.toList.head? ≠ some 'G'

/-- Outside of hats a dialect stores nothing under a callback name. -/
structure Dialect.IsApart (d : Dialect) : Prop where
  boilerplate : ∀ c ∈ d.boilerplate, c.IsApart
  block : ∀ b, ∀ c ∈ contributionsOf d b, c.IsApart

/-- Fragments whose keys do not start with `G` are not under callback names. -/
theorem isApart_of_keys {cs : List Contribution}
    (h : ∀ key ∈ cs.map (·.key), key.toList.head? ≠ some 'G') : ∀ c ∈ cs, c.IsApart :=
  fun c hc => h c.key (List.mem_map_of_mem hc)

/-- No boilerplate is stored under a callback name. -/
theorem boilerplate_isApart (target : Target) (settings : CodeSettings) :
    ∀ c ∈ (target.dialect settings).boilerplate, c.IsApart := by
  refine isApart_of_keys ?_
  cases target with
  | arduino =>
    show ∀ key ∈ ["iot", "iot", "_serial", "iot", "iot"], _
    decide
  | microPython =>
    show ∀ key ∈ ["uart", "sleep", "uart", "iot_handlers", "iot"], _
    decide

/-- Nor is what serves the serial line. -/
theorem serialWork_isApart (target : Target) (settings : CodeSettings) :
    ∀ work, (target.dialect settings).serialWork = some work → ∀ c ∈ work.1, c.IsApart := by
  rintro work hwork
  cases target with
  | arduino => exact nomatch hwork
  | microPython =>
    obtain rfl := Option.some.inj hwork
    refine isApart_of_keys ?_
    show ∀ key ∈ ["linebuf", "iotserial"], _
    decide

/-- So outside of hats neither dialect stores anything under a callback name. -/
theorem dialect_isApart (target : Target) (settings : CodeSettings) :
    (target.dialect settings).IsApart := by
  have hboilerplate := boilerplate_isApart target settings
  refine ⟨hboilerplate, fun b c hc => ?_⟩
  unfold contributionsOf at hc
  cases hop : b.opcode <;> simp only [hop, List.not_mem_nil] at hc
  case connect | connectCloud | joinNetwork | publish | subscribe => exact hboilerplate c hc
  case serialWork =>
    cases hwork : (target.dialect settings).serialWork with
    | none => simp [hwork] at hc
    | some work =>
      simp only [hwork] at hc
      rcases List.mem_append.1 hc with hc | hc
      · exact hboilerplate c hc
      · exact serialWork_isApart target settings work hwork c hc

namespace Flat

/-- The test for a fragment of a section under the callback name of a key. -/
def isUnder (x : Section) (key : String) (c : Contribution) : Bool :=
  c.part = x && c.key = callbackName key

/-- A fragment without a callback name is not found under one. -/
theorem isUnder_eq_false {c : Contribution} (h : c.IsApart) (x : Section) (key : String) :
    isUnder x key c = false := by
  simp [isUnder, callbackName_ne h key]

/-- Among fragments without callback names none is found under one. -/
theorem find?_isUnder_of_isApart {cs : List Contribution} (h : ∀ c ∈ cs, c.IsApart) (x : Section)
    (key : String) : cs.reverse.find? (isUnder x key) = none := by
  refine List.find?_eq_none.2 fun c hc => ?_
  rw [isUnder_eq_false (h c (List.mem_reverse.1 hc))]
  exact Bool.false_ne_true

/-- The fragment that a hat stores in a section is `f`, under its own name. -/
def StoredIn (d : Dialect) (x : Section) (f : Hat → Contribution) : Prop :=
  ∀ (key : String) (h : Hat), [h.routine d, h.registration d].find? (isUnder x key) =
    (Option.guard (fun h : Hat => h.name = callbackName key) h).map f

/-- The routine of a hat is what the hat stores among the functions. -/
theorem routine_storedIn (d : Dialect) : StoredIn d .functions (Hat.routine d) := by
  intro key h
  by_cases hname : h.name = callbackName key <;>
    simp [isUnder, Hat.routine, Hat.registration, hname, Option.guard]

/-- The registration of a hat is what the hat stores in the setup. -/
theorem registration_storedIn (d : Dialect) : StoredIn d .setup (Hat.registration d) := by
  intro key h
  by_cases hname : h.name = callbackName key <;>
    simp [isUnder, Hat.routine, Hat.registration, hname, Option.guard]

/-- Of the fragments that a chain stores under a name, the last one is that of the first hat. -/
theorem find?_contributions {d : Dialect} (hd : d.IsApart) {x : Section} {f : Hat → Contribution}
    (hf : StoredIn d x f) (bs : List Block) (key : String) :
    (contributions d bs).reverse.find? (isUnder x key) =
      ((reached bs).find? fun h => h.name = callbackName key).map f := by
  have hleading : ∀ c ∈ (leading bs).flatMap (contributionsOf d), c.IsApart := by
    intro c hc
    obtain ⟨b, -, hc⟩ := List.mem_flatMap.1 hc
    exact hd.block b c hc
  have hbodies : ∀ c ∈ (reached bs).flatMap fun h =>
      d.boilerplate ++ h.body.flatMap (contributionsOf d), c.IsApart := by
    intro c hc
    obtain ⟨h, -, hc⟩ := List.mem_flatMap.1 hc
    rcases List.mem_append.1 hc with hc | hc
    · exact hd.boilerplate c hc
    · obtain ⟨b, -, hc⟩ := List.mem_flatMap.1 hc
      exact hd.block b c hc
  have hrev : (fun h : Hat => [h.registration d, h.routine d].reverse) =
      fun h => [h.routine d, h.registration d] := rfl
  rw [contributions, List.reverse_append, List.reverse_append, List.find?_append,
    List.find?_append, find?_isUnder_of_isApart hbodies, find?_isUnder_of_isApart hleading,
    List.flatMap_reverse, List.reverse_reverse, List.find?_flatMap, Option.or_none, Option.or_none,
    ← List.findSome?_guard, List.map_findSome?]
  exact congrArg (List.findSome? · (reached bs)) (funext (hf key))

/-- The kept hat of a key is the first one with it in the scripts, taken from the last one back. -/
theorem kept?_eq (p : Program) (key : String) :
    kept? p key =
      (p.scripts.reverse.flatMap fun s => reached s.blocks).find? fun h => h.key = key :=
  List.find?_flatMap.symm

/-- The key of a hat that is reached is a key of the program. -/
theorem mem_keys_of_mem {p : Program} {s : Script} (hs : s ∈ p.scripts) {h : Hat}
    (hh : h ∈ reached s.blocks) : h.key ∈ keys p :=
  List.mem_flatMap.2 ⟨s, hs, List.mem_map_of_mem hh⟩

/-- A topic of a program has a hat whose routine is kept. -/
theorem exists_kept? {p : Program} {key : String} (hkey : key ∈ keys p) :
    ∃ h, kept? p key = some h ∧ h.key = key := by
  obtain ⟨s, hs, hmem⟩ := List.mem_flatMap.1 hkey
  obtain ⟨h₀, hh₀, hkey₀⟩ := List.mem_map.1 hmem
  rw [kept?_eq]
  cases hf : (p.scripts.reverse.flatMap fun s => reached s.blocks).find? fun h => h.key = key with
  | some h => exact ⟨h, rfl, by simpa using List.find?_some hf⟩
  | none =>
    refine absurd hkey₀ ?_
    simpa using List.find?_eq_none.1 hf h₀
      (List.mem_flatMap.2 ⟨s, List.mem_reverse.2 hs, hh₀⟩)

/-- The fragment found under the name of a callback is the last one that was stored there. -/
theorem fragment?_eq (d : Dialect) (p : Program) (x : Section) (key : String) :
    (sketch d p).fragment? x (callbackName key) =
      ((p.scripts.flatMap fun s => contributions d s.blocks).reverse.find? (isUnder x key)).map
        (·.fragment) := by
  rw [Sketch.fragment?, entries_sketch, entries, Keyed.get?_putAll, Keyed.get?_nil, Option.or_none,
    Sketch.partOf, ← List.map_reverse, ← List.filter_reverse, List.find?_map, List.find?_filter,
    Option.map_map]
  refine congrArg (Option.map _) (congrArg (List.find? · _) (funext fun c => ?_))
  simp [isUnder]

/-- Where no two topics share a name, the fragment under the name of a topic is that of its hat. -/
theorem fragment?_kept {d : Dialect} (hd : d.IsApart) {x : Section} {f : Hat → Contribution}
    (hf : StoredIn d x f) {p : Program} {t : Callbacks} (ht : t.Holds (keys p)) {key : String}
    (hkey : key ∈ keys p) :
    (sketch d p).fragment? x (callbackName key) = (kept? p key).map fun h => (f h).fragment := by
  have hfind : (p.scripts.flatMap fun s => contributions d s.blocks).reverse.find?
      (isUnder x key) = ((p.scripts.reverse.flatMap fun s => reached s.blocks).find? fun h =>
        h.name = callbackName key).map f := by
    rw [List.reverse_flatMap, List.find?_flatMap, List.find?_flatMap, List.map_findSome?]
    exact congrArg (List.findSome? · _) (funext fun s => find?_contributions hd hf s.blocks key)
  -- Among the hats of the program, those with the name of the topic are those on the topic.
  have hname : ((p.scripts.reverse.flatMap fun s => reached s.blocks).find? fun h =>
      h.name = callbackName key) = kept? p key := by
    rw [kept?_eq]
    refine List.find?_congr fun h hh => ?_
    obtain ⟨s, hs, hh⟩ := List.mem_flatMap.1 hh
    have hmem := mem_keys_of_mem (List.mem_reverse.1 hs) hh
    rw [decide_eq_decide]
    exact ⟨ht.eq_of_name_eq _ hmem _ hkey, congrArg callbackName⟩
  rw [fragment?_eq, hfind, hname, Option.map_map]
  rfl

/-- The routine under the name of a topic is that of its hat. -/
theorem fragment?_sketch {d : Dialect} (hd : d.IsApart) {p : Program} {t : Callbacks}
    (ht : t.Holds (keys p)) {key : String} (hkey : key ∈ keys p) :
    (sketch d p).fragment? .functions (callbackName key) =
      (kept? p key).map fun h => d.routine (callbackName key) (statementsOf d h.body) := by
  obtain ⟨h, hkept, rfl⟩ := exists_kept? hkey
  rw [fragment?_kept hd (routine_storedIn d) ht hkey, hkept, Option.map_some, Option.map_some]
  rfl

/-- The registration under the name of a topic is that of its hat. -/
theorem fragment?_registration {d : Dialect} (hd : d.IsApart) {p : Program} {t : Callbacks}
    (ht : t.Holds (keys p)) {key : String} {h : Hat} (hkept : kept? p key = some h)
    (hkey : h.key = key) (hmem : key ∈ keys p) :
    (sketch d p).fragment? .setup (callbackName key) =
      some (d.registration h.topic (callbackName key)) := by
  subst hkey
  rw [fragment?_kept hd (registration_storedIn d) ht hmem, hkept, Option.map_some]
  rfl

end Flat

/-- **A generation gives what the flat reading says.**  The blocks before the first hat of a script
go to its stage; every hat before the first one with an invalid topic becomes a routine of the
blocks up to the next hat; the rest of the script is lost.  Of several hats on one topic the first
one of the last script that has any is kept. -/
theorem generate_eq_flat {target : Target} {settings : CodeSettings} {p : Program} {g : Generated}
    (h : generate target settings p = .ok g) :
    g = Flat.generated (target.dialect settings) p ∧
      ∀ key ∈ Flat.keys p, ∃ hat, Flat.kept? p key = some hat ∧
        (Flat.sketch (target.dialect settings) p).fragment? .functions (callbackName key) =
          some ((target.dialect settings).routine (callbackName key)
            (Flat.statementsOf (target.dialect settings) hat.body)) := by
  obtain ⟨hg, t, ht⟩ := Flat.generate_ok h
  refine ⟨hg, fun key hkey => ?_⟩
  obtain ⟨hat, hkept, -⟩ := Flat.exists_kept? hkey
  refine ⟨hat, hkept, ?_⟩
  rw [Flat.fragment?_sketch (dialect_isApart target settings) ht hkey, hkept]
  rfl

/-- A program with three hats on one topic in two scripts, one of which has an invalid hat. -/
def repeatedTopic : Program :=
  let onTopic (topic : String) : Block := { opcode := .onTopic, args := [("TOPIC", .text topic)] }
  let code (text : String) : Block := { opcode := .code, text }
  ⟨[⟨.setup, [code "a()", onTopic "/t", code "b()"]⟩,
    ⟨.loop, [onTopic "\"/t\"", code "c()", code "d()", onTopic "/t", code "e()",
      { opcode := .onTopic }, onTopic "u", code "f()"]⟩]⟩

/-- The routine kept for `/t` is the one of the first hat of the second script. -/
theorem generate_eq_flat_repeatedTopic :
    ∃ g, generate .microPython {} repeatedTopic = .ok g ∧
      g = Flat.generated (.microPython {}) repeatedTopic ∧
      Flat.keys repeatedTopic = ["/t", "/t", "/t"] ∧
      (Flat.sketch (.microPython {}) repeatedTopic).fragment? .functions "GOT_t" =
        some (MicroPython.routine "GOT_t" ["c()", "d()"]) := by
  cases h : generate .microPython {} repeatedTopic with
  | error e =>
    have hok : (generate .microPython {} repeatedTopic).toOption.isSome = true := by decide +kernel
    rw [h] at hok
    exact nomatch hok
  | ok g =>
    obtain ⟨hg, hkept⟩ := generate_eq_flat h
    obtain ⟨hat, hhat, hfragment⟩ := hkept "/t" (by decide +kernel)
    have hbody : ((Flat.kept? repeatedTopic "/t").map fun hat =>
        Flat.statementsOf (.microPython {}) hat.body) = some ["c()", "d()"] := by decide +kernel
    rw [hhat] at hbody
    have hname : callbackName "/t" = "GOT_t" := by decide +kernel
    refine ⟨g, rfl, hg, by decide +kernel, ?_⟩
    rw [← hname, ← Option.some.inj hbody]
    exact hfragment

end Generation
end BoardBlocks
