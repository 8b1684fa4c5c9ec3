/-
# Runs of the line decoder

A decoder takes pieces of streams and resets, in any order and number.  The resets cut a run into
streams, and each of them is split on its own.
-/

import BoardBlocks.Proofs.LineSplitter
import BoardBlocks.Proofs.Runs

namespace BoardBlocks
namespace Wire
namespace LineDecoder

/-- What can be done to a decoder. -/
inductive Operation where
  | feed (bytes : List UInt8)
  | reset
deriving DecidableEq, Repr

/-- The bytes that an operation brings. -/
def Operation.bytes : Operation → List UInt8
  | .feed bytes => bytes
  | .reset => []

/-- The decoder after an operation and the lines that the operation delivers. -/
def operate (d : LineDecoder) : Operation → LineDecoder × List String
  | .feed bytes => d.feed bytes
  | .reset => (d.reset, [])

/-- The decoder after operations in order and the lines that each of them delivers. -/
def run (d : LineDecoder) (ops : List Operation) : LineDecoder × List (List String) :=
  runWith operate d ops

/-- The streams of a run: what was fed before, between and after its resets. -/
def streams (ops : List Operation) : List (List UInt8) :=
  (ops.splitOn .reset).map fun calls => calls.flatMap Operation.bytes

/-- The bytes fed since the last reset. -/
def current (ops : List Operation) : List UInt8 :=
  (streams ops).getLastD []

theorem run_append (d : LineDecoder) (ops ops' : List Operation) :
    d.run (ops ++ ops') =
      (((d.run ops).1.run ops').1, (d.run ops).2 ++ ((d.run ops).1.run ops').2) :=
  runWith_append operate d ops ops'

theorem run_concat (d : LineDecoder) (ops : List Operation) (op : Operation) :
    d.run (ops ++ [op]) =
      (((d.run ops).1.operate op).1, (d.run ops).2 ++ [((d.run ops).1.operate op).2]) :=
  run_append d ops [op]

theorem length_run (d : LineDecoder) (ops : List Operation) :
    (d.run ops).2.length = ops.length :=
  length_runWith operate d ops

/-- A reset begins a new stream. -/
theorem streams_concat_reset (ops : List Operation) :
    streams (ops ++ [.reset]) = streams ops ++ [[]] := by
  rw [streams, splitOn_concat_self, List.map_append]
  rfl

theorem current_concat_reset (ops : List Operation) : current (ops ++ [.reset]) = [] := by
  rw [current, streams_concat_reset, List.getLastD_concat]

/-- A piece goes on with the stream since the last reset. -/
theorem streams_concat_feed (ops : List Operation) (bytes : List UInt8) :
    ∃ init, streams ops = init ++ [current ops] ∧
      streams (ops ++ [.feed bytes]) = init ++ [current ops ++ bytes] := by
  have hne : Operation.feed bytes ≠ .reset := fun h => nomatch h
  obtain ⟨init, last, hops, hconcat⟩ := splitOn_concat_of_ne hne ops
  have hcurrent : current ops = last.flatMap Operation.bytes := by
    rw [current, streams, hops, List.map_append, List.map_singleton, List.getLastD_concat]
  refine ⟨init.map fun calls => calls.flatMap Operation.bytes, ?_, ?_⟩
  · rw [hcurrent, streams, hops, List.map_append, List.map_singleton]
  · rw [hcurrent, streams, hconcat, List.map_append, List.map_singleton, List.flatMap_append]
    simp [Operation.bytes]

/-- Fed bytes go to the last stream. -/
theorem current_concat_feed (ops : List Operation) (bytes : List UInt8) :
    current (ops ++ [.feed bytes]) = current ops ++ bytes := by
  obtain ⟨init, -, hconcat⟩ := streams_concat_feed ops bytes
  rw [current, hconcat, List.getLastD_concat]

/-- The segments that have ended in the streams of a run. -/
def endedIn (ops : List Operation) : List (List UInt8) :=
  (streams ops).flatMap terminated

/-- Fed bytes end the lines that they complete. -/
theorem endedIn_concat_feed (ops : List Operation) (bytes : List UInt8) :
    endedIn (ops ++ [.feed bytes]) = endedIn ops ++ completed (current ops) bytes := by
  obtain ⟨init, hops, hconcat⟩ := streams_concat_feed ops bytes
  rw [endedIn, endedIn, hops, hconcat]
  simp only [List.flatMap_append, List.flatMap_singleton, terminated_append, List.append_assoc]

theorem endedIn_concat_reset (ops : List Operation) : endedIn (ops ++ [.reset]) = endedIn ops := by
  rw [endedIn, streams_concat_reset]
  simp [endedIn, terminated, segments]

/-- The decoder after a run holds the unfinished segment of the stream since the last reset. -/
theorem run_eq_holding (ops : List Operation) :
    (run {} ops).1 = holding (.ofNat (refused (endedIn ops))) (unfinished (current ops)) := by
  induction ops using List.reverseRecOn with
  | nil => rfl
  | append_singleton ops op ih =>
    rw [run_concat, ih]
    cases op with
    | feed bytes =>
      show (feed _ bytes).1 = _
      rw [feed_holding, endedIn_concat_feed, current_concat_feed, refused_append,
        UInt32.ofNat_add]
    | reset =>
      show reset _ = _
      rw [reset_holding, endedIn_concat_reset, current_concat_reset]
      rfl

/-- A call gives the texts of the lines that its bytes complete. -/
theorem operate_feed_run (ops : List Operation) (bytes : List UInt8) :
    ((run {} ops).1.operate (.feed bytes)).2 = (completed (current ops) bytes).filterMap text? := by
  rw [run_eq_holding]
  show (feed _ bytes).2 = _
  rw [feed_holding]

/-- All lines given, as bytes, are the ended ones that make a line. -/
theorem map_utf8_run (ops : List Operation) :
    (run {} ops).2.flatten.map utf8 = (endedIn ops).filter IsLine := by
  induction ops using List.reverseRecOn with
  | nil => rfl
  | append_singleton ops op ih =>
    rw [run_concat, List.flatten_append, List.map_append, ih, List.flatten_singleton]
    cases op with
    | feed bytes =>
      rw [operate_feed_run, map_utf8_filterMap_text?, endedIn_concat_feed, List.filter_append]
    | reset =>
      rw [endedIn_concat_reset]
      exact List.append_nil _

/-- **The decoder splits.**  Over any run of a fresh decoder the lines delivered are, byte for byte
and in order, those among the ended segments of its streams; the other ended segments are counted,
and what is pending is the last unfinished segment unless that is too long.  A call that feeds
`bytes` after the run delivers the lines among the segments that end in `bytes`, whatever comes
later, and gives back their number.  A reset only forgets the unfinished segment. -/
theorem run_eq_split (ops : List Operation) :
    (run {} ops).2.flatten.map utf8 = (endedIn ops).filter IsLine ∧
      (run {} ops).1.dropped = .ofNat (refused (endedIn ops)) ∧
      (run {} ops).1.pending =
        (if (unfinished (current ops)).length ≤ 256 then (unfinished (current ops)).length else 0) ∧
      (∀ bytes after, ∃ lines, (run {} (ops ++ .feed bytes :: after)).2[ops.length]? = some lines ∧
        lines.map utf8 = (completed (current ops) bytes).filter IsLine ∧
        ((run {} ops).1.deliver bytes).2 = { lines, count := lines.length }) ∧
      run {} (ops ++ [.reset]) =
        ({ dropped := (run {} ops).1.dropped }, (run {} ops).2 ++ [[]]) := by
  have hstate := run_eq_holding ops
  refine ⟨map_utf8_run ops, ?_, ?_, ?_, ?_⟩
  · rw [hstate, dropped_holding]
  · rw [hstate, pending_holding]
  · intro bytes after
    refine ⟨(completed (current ops) bytes).filterMap text?, ?_, map_utf8_filterMap_text? _, ?_⟩
    · rw [run_append, List.getElem?_append_right (Nat.le_of_eq (length_run _ _)), length_run,
        Nat.sub_self, ← operate_feed_run]
      rfl
    · rw [← operate_feed_run]
      exact deliver_eq _ bytes
  · rw [run_concat, operate, reset]

end LineDecoder
end Wire
end BoardBlocks
