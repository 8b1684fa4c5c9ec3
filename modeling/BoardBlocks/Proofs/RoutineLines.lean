/-
# Statements stay inside their routine

The body of a routine and the endless loop of a script are told by their indentation.  A statement
may be any text: it may have several lines, blank ones among them, with or without carriage returns.
Wherever it is written, each of its lines that is not empty stands behind four spaces.

| text | before the body | behind it |
| --- | --- | --- |
| C++ function | signature | a closing brace |
| Python function | signature, the module variables it assigns | |
| script | everything else, `while True:` | |

Taken from behind the four spaces, the lines of the body are those of the statements (`Encloses`),
so none of them is lost and none gets outside.
-/

import BoardBlocks.Proofs.SketchRuns
import BoardBlocks.Proofs.Splitting
import BoardBlocks.Proofs.Trimming
import BoardBlocks.Sketch.Layout

namespace BoardBlocks

namespace Text

/-! ### Lines of a text -/

theorem dropReturn_sublist (cs : List Char) : (dropReturn cs).Sublist cs := by
  unfold dropReturn
  split
  · exact List.dropLast_sublist cs
  · exact List.Sublist.refl cs

/-- A line is a piece of the text between its line feeds, up to a carriage return. -/
theorem exists_of_mem_closeLines {ls : List (List Char)} {line : List Char}
    (h : line ∈ closeLines ls) : ∃ piece ∈ ls, line.Sublist piece := by
  fun_induction closeLines ls with
  | case1 => exact absurd h List.not_mem_nil
  | case2 last hempty => exact absurd h List.not_mem_nil
  | case3 last hempty => exact ⟨line, h, List.Sublist.refl line⟩
  | case4 l m ls ih =>
    rcases List.mem_cons.1 h with rfl | h
    · exact ⟨l, List.mem_cons_self, dropReturn_sublist l⟩
    · obtain ⟨piece, hpiece, hline⟩ := ih h
      exact ⟨piece, List.mem_cons_of_mem _ hpiece, hline⟩

/-- A line has no line feed in it. -/
theorem lf_not_mem_linesOf {cs line : List Char} (h : line ∈ linesOf cs) : '\n' ∉ line := by
  obtain ⟨piece, hpiece, hline⟩ := exists_of_mem_closeLines h
  exact fun hmem => not_mem_of_mem_splitOn hpiece (hline.subset hmem)

/-- Only the empty text has no lines. -/
theorem linesOf_ne_nil {cs : List Char} (h : cs ≠ []) : linesOf cs ≠ [] := by
  have hjoin : ['\n'].intercalate (cs.splitOn '\n') = cs := List.intercalate_splitOn '\n'
  rw [linesOf]
  cases hpieces : cs.splitOn '\n' with
  | nil => exact absurd hpieces (List.splitOn_ne_nil '\n' cs)
  | cons piece pieces =>
    rw [hpieces] at hjoin
    cases pieces with
    | nil =>
      obtain rfl : piece = cs := by simpa using hjoin
      simp [closeLines, h]
    | cons piece' pieces => exact List.cons_ne_nil _ _

end Text

namespace Snippet

/-! ### Indented code -/

/-- A line inside a routine: it is empty or stands behind four spaces. -/
def IsInside (line : List Char) : Prop :=
  line = [] ∨ List.replicate 4 ' ' <+: line

/-- The lines of a body, and the lines that stand in it behind four spaces. -/
structure Encloses (body lines : List (List Char)) : Prop where
  isInside : ∀ line ∈ body, IsInside line
  map_drop : body.map (·.drop 4) = lines

/-- Enclosed lines behind enclosed lines are enclosed. -/
theorem Encloses.append {body body' lines lines' : List (List Char)} (h : Encloses body lines)
    (h' : Encloses body' lines') : Encloses (body ++ body') (lines ++ lines') := by
  refine ⟨List.forall_mem_append.2 ⟨h.isInside, h'.isInside⟩, ?_⟩
  rw [List.map_append, h.map_drop, h'.map_drop]

/-- An indented line is inside, or it is empty. -/
theorem isInside_indentLine (line : List Char) : IsInside (indentLine indentation.toList line) := by
  cases line with
  | nil => exact .inl rfl
  | cons c line => exact .inr (List.prefix_append _ _)

theorem drop_indentLine (line : List Char) :
    (indentLine indentation.toList line).drop 4 = line := by
  cases line with
  | nil => rfl
  | cons c line => rfl

/-- The lines of indented code.  Code without lines is one empty line then. -/
theorem splitOn_indentChars (cs : List Char) :
    (indentChars cs indentation.toList).splitOn '\n' =
      if cs = [] then [[]] else (Text.linesOf cs).map (indentLine indentation.toList) := by
  split
  · rename_i hempty
    rw [hempty]
    rfl
  · rename_i hne
    have hlf : ∀ line ∈ (Text.linesOf cs).map (indentLine indentation.toList), '\n' ∉ line := by
      refine List.forall_mem_map.2 fun line hline => ?_
      have hline := Text.lf_not_mem_linesOf hline
      have hindent : '\n' ∉ indentation.toList := by decide
      unfold indentLine
      split
      · exact List.not_mem_nil
      · exact fun hmem => (List.mem_append.1 hmem).elim hindent hline
    exact List.splitOn_intercalate '\n' hlf (by simpa using Text.linesOf_ne_nil hne)

/-- The lines of a body that is made of some code. -/
def bodyLines (codes : List String) : List (List Char) :=
  codes.flatMap fun code => (indentChars code.toList indentation.toList).splitOn '\n'

/-- The lines of a body come before those of what follows it. -/
theorem splitOn_body (codes : List String) (rest : List Char) :
    ((String.join (codes.map bodyLine)).toList ++ rest).splitOn '\n' =
      bodyLines codes ++ rest.splitOn '\n' := by
  have hbody : (String.join (codes.map bodyLine)).toList =
      codes.flatMap fun code => indentChars code.toList indentation.toList ++ ['\n'] := by
    simp [String.toList_join, List.flatMap_map, bodyLine]
  rw [hbody, splitOn_flatMap_concat, bodyLines]

/-- All lines of a body are inside. -/
theorem isInside_bodyLines (codes : List String) : ∀ line ∈ bodyLines codes, IsInside line := by
  intro line hline
  obtain ⟨code, -, hline⟩ := List.mem_flatMap.1 hline
  rw [splitOn_indentChars] at hline
  split at hline
  · exact .inl (List.mem_singleton.1 hline)
  · obtain ⟨line, -, rfl⟩ := List.mem_map.1 hline
    exact isInside_indentLine line

/-- **Code that is not empty is enclosed line by line.** -/
theorem encloses_bodyLines {codes : List String} (h : ∀ code ∈ codes, code ≠ "") :
    Encloses (bodyLines codes) (codes.flatMap fun code => Text.linesOf code.toList) := by
  refine ⟨isInside_bodyLines codes, ?_⟩
  rw [bodyLines, List.map_flatMap]
  refine List.flatMap_congr fun code hcode => ?_
  have hne : code.toList ≠ [] := by simpa using h code hcode
  rw [splitOn_indentChars, if_neg hne, List.map_map]
  exact List.map_id'' drop_indentLine _

/-! ### Statements -/

/-- Nothing is left of a text exactly if all of it is blank. -/
theorem dropBlankEnd_eq_nil_iff (cs : List Char) :
    Text.dropBlankEnd cs = [] ↔ cs.all Text.isBlank = true :=
  List.rdropWhile_eq_nil_iff.trans List.all_eq_true.symm

/-- A code is no statement exactly if it is blank. -/
theorem statement_eq_empty_iff (target : Target) (code : String) :
    statement target code = "" ↔ Text.blank code = true := by
  have hterminate : terminate target code.toList = [] ↔ Text.dropBlankEnd code.toList = [] := by
    cases target with
    | microPython => exact Iff.rfl
    | arduino =>
      rw [terminate]
      split
      · exact Iff.rfl
      · rename_i hopen
        refine iff_of_false (by simp) fun hempty => ?_
        rw [hempty] at hopen
        exact hopen rfl
  rw [← String.toList_inj, toList_statement]
  exact hterminate.trans (dropBlankEnd_eq_nil_iff code.toList)

/-- The statements of a target are those of the codes that are not blank. -/
theorem statements_eq (target : Target) (codes : List String) :
    statements target codes =
      (codes.filter fun code => !Text.blank code).map (statement target) := by
  have hblank : (fun s => decide (s ≠ "")) ∘ statement target = fun code => !Text.blank code := by
    funext code
    rw [Bool.eq_iff_iff]
    simp [statement_eq_empty_iff]
  rw [statements, List.filter_map, hblank]

/-- The lines of the statements of a target: those of each code that is not blank, without its
trailing white space, and terminated where the target has it so. -/
def statementLines (target : Target) (codes : List String) : List (List Char) :=
  (codes.filter fun code => !Text.blank code).flatMap fun code =>
    Text.linesOf (terminate target code.toList)

/-- **A body encloses the lines of its statements.** -/
theorem encloses_statements (target : Target) (codes : List String) :
    Encloses (bodyLines (statements target codes)) (statementLines target codes) := by
  have hne : ∀ s ∈ statements target codes, s ≠ "" := fun s hs => by
    simpa using (List.mem_filter.1 hs).2
  have hlines : (statements target codes).flatMap (fun code => Text.linesOf code.toList) =
      statementLines target codes := by
    rw [statements_eq, List.flatMap_map]
    simp only [toList_statement, statementLines]
  exact hlines ▸ encloses_bodyLines hne

/-! ### Routines -/

/-- The first line of a C++ function. -/
def CppRoutine.signature (r : CppRoutine) : String :=
  r.returns ++ " " ++ r.name ++ "(" ++ commaList r.params ++ ")\x7b"

/-- The first line of a Python function. -/
def PyRoutine.signature (r : PyRoutine) : String :=
  "def " ++ r.name ++ "(" ++ commaList r.params ++ "):"

/-- The line of the module variables that a Python function assigns. -/
def PyRoutine.globalLine? (r : PyRoutine) : Option String :=
  if r.globals = [] then none else some ("    global " ++ commaList r.globals)

/-- A list of names on one line stays on one line. -/
theorem lf_not_mem_commaList {items : List String} (h : ∀ item ∈ items, '\n' ∉ item.toList) :
    '\n' ∉ (commaList items).toList := by
  rw [commaList, String.toList_intercalate]
  exact not_mem_intercalate (by decide) (List.forall_mem_map.2 h)

/-- **The lines of a C++ function** are its signature, its body and its closing brace, which is the
first line of its kind. -/
theorem CppRoutine.splitOn_text {r : CppRoutine}
    (h : ∀ part ∈ r.returns :: r.name :: r.params, '\n' ∉ part.toList) :
    r.text.toList.splitOn '\n' =
        r.signature.toList :: (bodyLines (statements .arduino r.body) ++ [['\x7d'], []]) ∧
      ['\x7d'] ∉ r.signature.toList :: bodyLines (statements .arduino r.body) := by
  obtain ⟨hreturns, h⟩ := List.forall_mem_cons.1 h
  obtain ⟨hname, hparams⟩ := List.forall_mem_cons.1 h
  have hsignature : '\n' ∉ r.signature.toList := by
    simp [signature, hreturns, hname, lf_not_mem_commaList hparams]
  have htext : r.text.toList = r.signature.toList ++ '\n' ::
      ((String.join ((statements .arduino r.body).map bodyLine)).toList ++ ['\x7d', '\n']) := by
    simp [text, signature]
  constructor
  · rw [htext, List.splitOn_append_cons_self, List.splitOn_eq_singleton hsignature, splitOn_body]
    rfl
  · rw [List.mem_cons, not_or]
    refine ⟨fun hbrace => ?_, fun hbrace => ?_⟩
    · have hopen : '(' ∈ r.signature.toList := by simp [signature]
      rw [← hbrace] at hopen
      exact absurd hopen (by decide)
    · rcases isInside_bodyLines _ _ hbrace with hempty | hindent
      · exact nomatch hempty
      · exact absurd hindent (by decide)

/-- The body of a Python function. -/
def PyRoutine.bodyText (r : PyRoutine) : String :=
  if (statements .microPython r.body).isEmpty then indentation ++ "pass\n"
  else String.join ((statements .microPython r.body).map bodyLine)

/-- The lines of the body of a Python function. -/
def PyRoutine.bodyLines (r : PyRoutine) : List (List Char) :=
  if r.body.all Text.blank then ["    pass".toList]
  else Snippet.bodyLines (statements .microPython r.body)

/-- The text of a body is its lines, each ended by a line feed. -/
theorem PyRoutine.splitOn_bodyText (r : PyRoutine) :
    r.bodyText.toList.splitOn '\n' = r.bodyLines ++ [[]] := by
  have hempty : (statements .microPython r.body).isEmpty = r.body.all Text.blank := by
    rw [statements_eq, Bool.eq_iff_iff]
    simp
  rw [bodyText, bodyLines, hempty]
  split
  · decide
  · have h := splitOn_body (statements .microPython r.body) []
    rwa [List.append_nil] at h

/-- The body of a function encloses the lines of its statements, or `pass` if they are all blank. -/
theorem PyRoutine.encloses_bodyLines (r : PyRoutine) :
    Encloses r.bodyLines
      (if r.body.all Text.blank then ["pass".toList] else statementLines .microPython r.body) := by
  rw [bodyLines]
  split
  · refine ⟨fun line hline => ?_, rfl⟩
    obtain rfl := List.mem_singleton.1 hline
    exact .inr (by decide)
  · exact encloses_statements .microPython r.body

/-- **The lines of a Python function** are its signature, the line of the variables that it assigns,
if any, and its body. -/
theorem PyRoutine.splitOn_text {r : PyRoutine}
    (h : ∀ part ∈ r.name :: (r.params ++ r.globals), '\n' ∉ part.toList) :
    r.text.toList.splitOn '\n' =
      r.signature.toList :: (r.globalLine?.toList.map String.toList ++ (r.bodyLines ++ [[]])) := by
  obtain ⟨hname, h⟩ := List.forall_mem_cons.1 h
  obtain ⟨hparams, hglobals⟩ := List.forall_mem_append.1 h
  have hsignature : '\n' ∉ r.signature.toList := by
    simp [signature, hname, lf_not_mem_commaList hparams]
  have hglobal : '\n' ∉ ("    global " ++ commaList r.globals).toList := by
    simp [lf_not_mem_commaList hglobals]
  have htext : r.text.toList = r.signature.toList ++ '\n' ::
      (r.preamble.toList ++ r.bodyText.toList) := by
    simp [text, bodyText, signature]
  have hpreamble (rest : List Char) : (r.preamble.toList ++ rest).splitOn '\n' =
      r.globalLine?.toList.map String.toList ++ rest.splitOn '\n' := by
    by_cases hnone : r.globals = []
    · simp [preamble, globalLine?, hnone]
    · have hline : r.preamble.toList ++ rest =
          ("    global " ++ commaList r.globals).toList ++ '\n' :: rest := by
        simp [preamble, hnone, indentation]
      rw [hline, List.splitOn_append_cons_self, List.splitOn_eq_singleton hglobal, globalLine?,
        if_neg hnone]
      rfl
  rw [htext, List.splitOn_append_cons_self, List.splitOn_eq_singleton hsignature, hpreamble,
    splitOn_bodyText]
  rfl

end Snippet

namespace Sketch

open Snippet

/-! ### The loop of a script -/

/-- A sketch with nothing to loop over. -/
def withoutLoop (s : Sketch) : Sketch :=
  { s with loop := [], loopBody := [] }

/-- A script with something to loop over ends in an endless loop over it. -/
theorem microPythonText_eq (s : Sketch) :
    s.microPythonText = s.withoutLoop.microPythonText ++
      if s.stageLines .loop = [] then ""
      else "while True:\n" ++ String.join ((s.stageLines .loop).map bodyLine) := by
  have hwithout : s.withoutLoop.microPythonText =
      group (s.fragments .headers) ++ group (s.fragments .definitions) ++
        String.join ((s.fragments .functions).map fun f => Text.trimEnd f ++ "\n\n") ++
        group (s.stageLines .setup) :=
    String.append_empty
  rw [hwithout, microPythonText]
  simp only [List.isEmpty_iff]

/-- The lines of the loop of a script that changes put together: those of its loop fragments, and
then those of the statements pushed to its loop. -/
def loopLines (changes : List Change) : List (List Char) :=
  ((changeAll { target := .microPython } changes).fragments .loop).flatMap
      (fun f => Text.linesOf f.toList) ++
    statementLines .microPython (codesFor .loop changes)

/-- The body of the loop encloses the lines of its fragments, then those of its statements. -/
theorem encloses_loop {changes : List Change}
    (h : ∀ f ∈ (changeAll { target := .microPython } changes).fragments .loop, f ≠ "") :
    Encloses (bodyLines ((changeAll { target := .microPython } changes).stageLines .loop))
      (loopLines changes) := by
  have hbody : (changeAll { target := .microPython } changes).loopBody =
      statements .microPython (codesFor .loop changes) :=
    body_changeAll { target := .microPython } changes .loop
  rw [stageLines, hbody, bodyLines, List.flatMap_append]
  exact (encloses_bodyLines h).append (encloses_statements .microPython _)

end Sketch

namespace Snippet

/-- **Statements stay inside their routine.**  Where no part of a signature has a line feed, the
lines of a C++ function are the signature, the body and the closing brace, and no line before is
such a brace; those of a Python function are the signature, the line of the variables that it
assigns, if any, and the body.  The script of a sketch that changes put together is the one without
a loop, followed by `while True:` and a body if there is anything to loop over.

In each body every line is empty or stands behind four spaces.  Behind them are the lines of the
statements in order, `pass` in a Python function that has none, and in the loop the lines of the
fragments before those of the statements, unless some fragment is the empty text. -/
theorem text_encloses {c : CppRoutine} {p : PyRoutine}
    (hc : ∀ part ∈ c.returns :: c.name :: c.params, '\n' ∉ part.toList)
    (hp : ∀ part ∈ p.name :: (p.params ++ p.globals), '\n' ∉ part.toList)
    (changes : List Sketch.Change) :
    (∃ body, c.text.toList.splitOn '\n' = c.signature.toList :: (body ++ [['\x7d'], []]) ∧
        ['\x7d'] ∉ c.signature.toList :: body ∧
        Encloses body (statementLines .arduino c.body)) ∧
      (∃ body, p.text.toList.splitOn '\n' =
          p.signature.toList :: (p.globalLine?.toList.map String.toList ++ (body ++ [[]])) ∧
        Encloses body (if p.body.all Text.blank then ["pass".toList]
          else statementLines .microPython p.body)) ∧
      let s := Sketch.changeAll { target := .microPython } changes
      (s.stageLines .loop = [] → s.render = s.withoutLoop.render) ∧
        (s.stageLines .loop ≠ [] → ∃ text body,
          s.render = s.withoutLoop.render ++ "while True:\n" ++ text ∧
          text.toList.splitOn '\n' = body ++ [[]] ∧ (∀ line ∈ body, IsInside line) ∧
          ((∀ f ∈ s.fragments .loop, f ≠ "") → Encloses body (Sketch.loopLines changes))) := by
  refine ⟨?_, ?_, ?_⟩
  · obtain ⟨htext, hbrace⟩ := CppRoutine.splitOn_text hc
    exact ⟨_, htext, hbrace, encloses_statements .arduino c.body⟩
  · exact ⟨_, PyRoutine.splitOn_text hp, p.encloses_bodyLines⟩
  · intro s
    have htarget : s.target = .microPython := Sketch.target_changeAll _ changes
    have hrender : s.render = s.withoutLoop.render ++ if s.stageLines .loop = [] then ""
        else "while True:\n" ++ String.join ((s.stageLines .loop).map bodyLine) := by
      have h := s.microPythonText_eq
      have hwithout : s.withoutLoop.target = .microPython := htarget
      rwa [Sketch.render, Sketch.render, htarget, hwithout]
    constructor
    · intro hnone
      rw [hrender, if_pos hnone, String.append_empty]
    · intro hsome
      refine ⟨String.join ((s.stageLines .loop).map bodyLine), bodyLines (s.stageLines .loop),
        ?_, ?_, isInside_bodyLines _, Sketch.encloses_loop⟩
      · rw [hrender, if_neg hsome, String.append_assoc]
      · have h := splitOn_body (s.stageLines .loop) []
        rwa [List.append_nil] at h

/-- A function with a statement of several lines, a blank one and one that is not terminated. -/
def bracedRoutine : CppRoutine where
  returns := "void"
  name := "f"
  params := ["int x", "int y"]
  body := ["if (x) \x7b\r\n\n  y();\n\x7d\n", " \n", "z"]

/-- A function whose statements are all blank. -/
def idleRoutine : PyRoutine where
  name := "g"
  params := ["t"]
  globals := ["n", "m"]
  body := ["", "\t\r\n"]

/-- A loop whose fragment comes after its statements. -/
def loopChanges : List Sketch.Change :=
  [.push .loop "a()\n  b() ", .contribute .loop "k" "c()\r\nd()", .push .loop " "]

/-- A routine of several lines, a function without a statement and a loop, line by line. -/
theorem text_encloses_bracedRoutine :
    (∀ part ∈ bracedRoutine.returns :: bracedRoutine.name :: bracedRoutine.params,
        '\n' ∉ part.toList) ∧
      (∀ part ∈ idleRoutine.name :: (idleRoutine.params ++ idleRoutine.globals),
        '\n' ∉ part.toList) ∧
      (∃ body, bracedRoutine.text.toList.splitOn '\n' =
          bracedRoutine.signature.toList :: (body ++ [['\x7d'], []]) ∧
        body.map (·.drop 4) = ["if (x) \x7b", "", "  y();", "\x7d", "z;"].map String.toList) ∧
      (∃ body, idleRoutine.text.toList.splitOn '\n' =
          "def g(t):".toList :: "    global n, m".toList :: (body ++ [[]]) ∧
        body.map (·.drop 4) = ["pass".toList]) ∧
      ∃ text body, (Sketch.changeAll { target := .microPython } loopChanges).render =
          "while True:\n" ++ text ∧
        text.toList.splitOn '\n' = body ++ [[]] ∧
        body.map (·.drop 4) = ["c()", "d()", "a()", "  b()"].map String.toList := by
  have hc : ∀ part ∈ bracedRoutine.returns :: bracedRoutine.name :: bracedRoutine.params,
      '\n' ∉ part.toList := by decide
  have hp : ∀ part ∈ idleRoutine.name :: (idleRoutine.params ++ idleRoutine.globals),
      '\n' ∉ part.toList := by decide
  obtain ⟨⟨body, htext, -, hbody⟩, ⟨idle, hidle, hpass⟩, -, hloop⟩ :=
    text_encloses hc hp loopChanges
  obtain ⟨text, looped, hrender, hlines, -, hlooped⟩ := hloop (by decide)
  refine ⟨hc, hp, ⟨body, htext, ?_⟩, ⟨idle, hidle, ?_⟩, text, looped, hrender, hlines, ?_⟩
  · rw [hbody.map_drop]
    decide
  · rw [hpass.map_drop]
    decide
  · rw [(hlooped (by decide)).map_drop]
    decide

end Snippet
end BoardBlocks
