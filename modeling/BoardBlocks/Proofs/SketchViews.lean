/-
# What a sketch holds after fragments and statements

A sketch is seen through its target, the keyed entries of its five sections and the bodies of its
two stages (`Sketch.ext_views`).  Storing fragments changes entries only, pushing statements changes
bodies only, so the order between the two does not matter.

Of the fragments stored under one key of a section the last is found (`get?_putAll`).
-/

import BoardBlocks.Proofs.GenerationSteps

namespace BoardBlocks

namespace Keyed

variable {α : Type}

/-- Entries put in order. -/
def putAll (cs : List (String × α)) (es : List (String × α)) : List (String × α) :=
  cs.foldl (fun es c => put c.1 c.2 es) es

theorem putAll_append (cs cs' es : List (String × α)) :
    putAll (cs ++ cs') es = putAll cs' (putAll cs es) :=
  List.foldl_append

/-- **The entry put last under a key is the one found.** -/
theorem get?_putAll (key : String) (cs es : List (String × α)) :
    get? key (putAll cs es) =
      ((cs.reverse.find? fun c => c.1 = key).map (·.2)).or (get? key es) := by
  induction cs generalizing es with
  | nil => rfl
  | cons c cs ih =>
    rw [putAll, List.foldl_cons, ← putAll, ih, List.reverse_cons, List.find?_append]
    by_cases hc : c.1 = key
    · cases cs.reverse.find? fun c => c.1 = key <;> simp [← hc]
    · rw [get?_put_of_ne (Ne.symm hc)]
      cases cs.reverse.find? fun c => c.1 = key <;> simp [hc]

/-- Something is found under the keys of the entries and under no other key. -/
theorem isSome_get?_iff {key : String} {es : List (String × α)} :
    (get? key es).isSome = true ↔ key ∈ keys es := by
  rw [get?, Option.isSome_map, List.find?_isSome]
  simp [keys]

/-- What is put is all that is new. -/
theorem mem_put {key : String} {value : α} {es : List (String × α)} {e : String × α}
    (h : e ∈ put key value es) : e = (key, value) ∨ e ∈ es := by
  induction es with
  | nil => exact .inl (List.mem_singleton.1 h)
  | cons e' es ih =>
    rw [put] at h
    split at h
    · exact (List.mem_cons.1 h).imp_right (List.mem_cons_of_mem e')
    · rcases List.mem_cons.1 h with rfl | h
      · exact .inr List.mem_cons_self
      · exact (ih h).imp_right (List.mem_cons_of_mem e')

/-- What is there after putting was put or was there before. -/
theorem mem_putAll {cs es : List (String × α)} {e : String × α} (h : e ∈ putAll cs es) :
    e ∈ cs ∨ e ∈ es := by
  induction cs generalizing es with
  | nil => exact .inr h
  | cons c cs ih =>
    rcases ih h with hmem | hput
    · exact .inl (List.mem_cons_of_mem c hmem)
    · rcases mem_put hput with rfl | hes
      · exact .inl List.mem_cons_self
      · exact .inr hes

end Keyed

namespace Sketch

open Generation (Contribution)

/-- The fragments of a list that go to a section, with their keys. -/
def partOf (x : Section) (cs : List Contribution) : List (String × String) :=
  (cs.filter fun c => c.part = x).map fun c => (c.key, c.fragment)

/-- Appends codes to the body of a stage. -/
def pushAll (s : Sketch) (stage : Stage) (codes : List String) : Sketch :=
  codes.foldl (fun s code => s.push stage code) s

/-- Two sketches of one target with the same entries and bodies are the same. -/
theorem ext_views {s t : Sketch} (htarget : s.target = t.target)
    (hentries : ∀ x, s.entries x = t.entries x) (hbody : ∀ stage, s.body stage = t.body stage) :
    s = t := by
  obtain ⟨target, headers, definitions, setup, loop, functions, setupBody, loopBody⟩ := s
  obtain rfl : target = t.target := htarget
  obtain rfl : headers = t.headers := hentries .headers
  obtain rfl : definitions = t.definitions := hentries .definitions
  obtain rfl : setup = t.setup := hentries .setup
  obtain rfl : loop = t.loop := hentries .loop
  obtain rfl : functions = t.functions := hentries .functions
  obtain rfl : setupBody = t.setupBody := hbody .setup
  obtain rfl : loopBody = t.loopBody := hbody .loop
  rfl

@[simp] theorem entries_empty (target : Target) (x : Section) : entries { target } x = [] := by
  cases x <;> rfl

@[simp] theorem body_empty (target : Target) (stage : Stage) : body { target } stage = [] := by
  cases stage <;> rfl

@[simp] theorem target_contribute (s : Sketch) (x : Section) (key fragment : String) :
    (s.contribute x key fragment).target = s.target := by
  cases x <;> rfl

@[simp] theorem target_push (s : Sketch) (stage : Stage) (code : String) :
    (s.push stage code).target = s.target := by
  by_cases h : Snippet.statement s.target code = ""
  · simp [push, h]
  · cases stage <;> simp [push, h]

@[simp] theorem entries_push (s : Sketch) (stage : Stage) (code : String) (x : Section) :
    (s.push stage code).entries x = s.entries x := by
  by_cases h : Snippet.statement s.target code = ""
  · simp [push, h]
  · cases stage <;> cases x <;> simp [push, h, entries]

/-- A statement goes to its stage alone, unless it is blank. -/
theorem body_push (s : Sketch) (stage stage' : Stage) (code : String) :
    (s.push stage code).body stage' =
      s.body stage' ++ if stage = stage' then Snippet.statements s.target [code] else [] := by
  by_cases h : Snippet.statement s.target code = ""
  · simp [push, h, Snippet.statements]
  · cases stage <;> cases stage' <;> simp [push, h, Snippet.statements, body]

@[simp] theorem target_storeAll (s : Sketch) (cs : List Contribution) :
    (s.storeAll cs).target = s.target := by
  induction cs generalizing s with
  | nil => rfl
  | cons c cs ih => exact (ih _).trans (target_contribute s _ _ _)

@[simp] theorem body_storeAll (s : Sketch) (cs : List Contribution) (stage : Stage) :
    (s.storeAll cs).body stage = s.body stage := by
  induction cs generalizing s with
  | nil => rfl
  | cons c cs ih => exact (ih _).trans (body_contribute s _ _ _ _)

/-- **Fragments change the entries of their own sections only.** -/
theorem entries_storeAll (s : Sketch) (cs : List Contribution) (x : Section) :
    (s.storeAll cs).entries x = Keyed.putAll (partOf x cs) (s.entries x) := by
  induction cs generalizing s with
  | nil => rfl
  | cons c cs ih =>
    rw [storeAll, List.foldl_cons, ← storeAll, ih]
    by_cases hc : c.part = x
    · subst hc
      rw [entries_contribute_self]
      simp [partOf, Keyed.putAll]
    · rw [entries_contribute_of_ne s (Ne.symm hc)]
      simp [partOf, hc]

@[simp] theorem target_pushAll (s : Sketch) (stage : Stage) (codes : List String) :
    (s.pushAll stage codes).target = s.target := by
  induction codes generalizing s with
  | nil => rfl
  | cons code codes ih => exact (ih _).trans (target_push s _ _)

@[simp] theorem entries_pushAll (s : Sketch) (stage : Stage) (codes : List String) (x : Section) :
    (s.pushAll stage codes).entries x = s.entries x := by
  induction codes generalizing s with
  | nil => rfl
  | cons code codes ih => exact (ih _).trans (entries_push s _ _ _)

/-- **Statements go to the body of their own stage only**, in order and without the blank ones. -/
theorem body_pushAll (s : Sketch) (stage stage' : Stage) (codes : List String) :
    (s.pushAll stage codes).body stage' =
      s.body stage' ++ if stage = stage' then Snippet.statements s.target codes else [] := by
  induction codes generalizing s with
  | nil => simp [pushAll, Snippet.statements]
  | cons code codes ih =>
    rw [pushAll, List.foldl_cons, ← pushAll, ih, body_push, target_push]
    by_cases h : stage = stage'
    · simp only [if_pos h, List.append_assoc, Snippet.statements, ← List.filter_append,
        ← List.map_append, List.singleton_append]
    · simp [h]

end Sketch
end BoardBlocks
