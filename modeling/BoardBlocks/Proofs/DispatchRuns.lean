/-
# Runs of a dispatcher with its decoder

A receiver is a dispatcher with the decoder that its bytes pass through.  It takes registrations,
notifications, lines, pieces of the stream and resets, in any order and number.

| call | what it dispatches | what it returns |
| --- | --- | --- |
| `register` | nothing | the handler it replaces |
| `dispatch` | its notification | whether a handler fired |
| `line` | its line, if that is a notification | whether a handler fired |
| `feed` | the notifications among the lines that its bytes finish | how many handlers fired |
| `reset` | nothing | nothing |

A notification fires the handler that was registered last for its topic when the call is made.  The
lines that a piece of the stream finishes depend on the bytes since the last reset only, not on how
they were cut or on what was called in between.
-/

import BoardBlocks.Proofs.DecoderRuns
import BoardBlocks.Wire.Dispatcher

namespace BoardBlocks
namespace Wire

/-- A dispatcher with its decoder. -/
structure Receiver (Handler : Type) where
  table : Dispatcher Handler := {}
  decoder : LineDecoder := {}

namespace Receiver

/-- What can be asked of a receiver. -/
inductive Operation (Handler : Type) where
  | register (topic : String) (handler : Handler)
  | dispatch (n : Notification)
  | line (text : String)
  | feed (bytes : List UInt8)
  | reset

/-- What an operation gives back. -/
structure Outcome (Handler : Type) where
  /-- The handler that a registration replaces. -/
  replaced : Option Handler := none
  /-- The number that is returned; `true` counts as 1. -/
  returned : Nat := 0
  /-- The handlers that fire, with their payloads, in order. -/
  fired : List (Handler × String) := []
deriving DecidableEq, Repr

variable {Handler : Type}

/-- What comes of dispatching once. -/
def Outcome.once (fired : Option (Handler × String)) : Outcome Handler :=
  { returned := fired.isSome.toNat, fired := fired.toList }

/-- The receiver after an operation and what the operation gives back. -/
def operate (r : Receiver Handler) : Operation Handler → Receiver Handler × Outcome Handler
  | .register topic handler =>
    let (table, replaced) := r.table.register topic handler
    ({ r with table }, { replaced })
  | .dispatch n => (r, .once (r.table.dispatch n))
  | .line line => (r, .once (r.table.dispatchLine line))
  | .feed bytes =>
    let (decoder, fired) := r.table.dispatchBytes r.decoder bytes
    -- Each line that fires a handler is counted when it is dispatched.
    let returned := (r.decoder.feed bytes).2.countP fun line => (r.table.dispatchLine line).isSome
    ({ r with decoder }, { returned, fired })
  | .reset => ({ r with decoder := r.decoder.reset }, {})

/-- The receiver after operations in order and what each of them gives back. -/
def run (r : Receiver Handler) (ops : List (Operation Handler)) :
    Receiver Handler × List (Outcome Handler) :=
  runWith operate r ops

theorem run_concat (r : Receiver Handler) (ops : List (Operation Handler))
    (op : Operation Handler) :
    r.run (ops ++ [op]) =
      (((r.run ops).1.operate op).1, (r.run ops).2 ++ [((r.run ops).1.operate op).2]) :=
  runWith_append operate r ops [op]

/-! ### The table -/

/-- The handler that an operation registers for a topic. -/
def Operation.handler? (topic : String) : Operation Handler → Option Handler
  | .register other handler => if topic = other then some handler else none
  | _ => none

/-- The handler that was registered last for a topic. -/
def lastRegistered (ops : List (Operation Handler)) (topic : String) : Option Handler :=
  ops.reverse.findSome? (·.handler? topic)

/-- A registration for the topic is the last one from then on. -/
theorem lastRegistered_concat (ops : List (Operation Handler)) (op : Operation Handler)
    (topic : String) :
    lastRegistered (ops ++ [op]) topic = (op.handler? topic).or (lastRegistered ops topic) := by
  rw [lastRegistered, List.reverse_concat, List.findSome?_cons]
  cases op.handler? topic <;> rfl

/-- An operation changes the handler of a topic only by registering one for it. -/
theorem handler?_operate (r : Receiver Handler) (op : Operation Handler) (topic : String) :
    (r.operate op).1.table.handler? topic = (op.handler? topic).or (r.table.handler? topic) := by
  cases op with
  | register other handler =>
    show (r.table.register other handler).1.handler? topic = _
    by_cases h : topic = other
    · rw [h, Dispatcher.handler?_register_self, Operation.handler?, if_pos rfl]
      rfl
    · rw [Dispatcher.handler?_register_of_ne _ h, Operation.handler?, if_neg h]
      rfl
  | _ => rfl

/-- **The handler of a topic is the one registered last for it.** -/
theorem handler?_run (ops : List (Operation Handler)) (topic : String) :
    (run {} ops).1.table.handler? topic = lastRegistered ops topic := by
  induction ops using List.reverseRecOn with
  | nil => rfl
  | append_singleton ops op ih => rw [run_concat, handler?_operate, ih, lastRegistered_concat]

/-- A notification goes to the handler that was registered last for its topic. -/
theorem dispatch_run (ops : List (Operation Handler)) (n : Notification) :
    (run {} ops).1.table.dispatch n = (lastRegistered ops n.topic).map (·, n.payload) := by
  rw [Dispatcher.dispatch, handler?_run]

/-- Whether an operation is a registration. -/
def Operation.isRegister : Operation Handler → Bool
  | .register .. => true
  | _ => false

/-- **Only registrations change the table.** -/
theorem table_run (ops : List (Operation Handler)) :
    (run {} ops).1.table = (run {} (ops.filter Operation.isRegister)).1.table := by
  induction ops using List.reverseRecOn with
  | nil => rfl
  | append_singleton ops op ih =>
    rw [List.filter_append, run_concat]
    cases op with
    | register topic handler =>
      rw [List.filter_cons_of_pos rfl, List.filter_nil, run_concat]
      exact congrArg (fun d : Dispatcher Handler => (d.register topic handler).1) ih
    | _ =>
      rw [List.filter_cons_of_neg (by simp [Operation.isRegister]), List.filter_nil,
        List.append_nil]
      exact ih

/-! ### The stream -/

/-- What an operation does to the decoder. -/
def Operation.decoding? : Operation Handler → Option LineDecoder.Operation
  | .feed bytes => some (.feed bytes)
  | .reset => some .reset
  | _ => none

/-- What operations do to the decoder, in order. -/
def decodings (ops : List (Operation Handler)) : List LineDecoder.Operation :=
  ops.filterMap Operation.decoding?

theorem decodings_concat (ops : List (Operation Handler)) (op : Operation Handler) :
    decodings (ops ++ [op]) = decodings ops ++ op.decoding?.toList := by
  rw [decodings, List.filterMap_append, decodings]
  cases op <;> rfl

/-- An operation changes the decoder by what it does to it, and by nothing else. -/
theorem decoder_operate (r : Receiver Handler) (op : Operation Handler) :
    (r.operate op).1.decoder = (r.decoder.run op.decoding?.toList).1 := by
  cases op <;> rfl

/-- **The decoder sees the bytes and resets alone.** -/
theorem decoder_run (ops : List (Operation Handler)) :
    (run {} ops).1.decoder = (LineDecoder.run {} (decodings ops)).1 := by
  induction ops using List.reverseRecOn with
  | nil => rfl
  | append_singleton ops op ih =>
    rw [run_concat, decoder_operate, ih, decodings_concat, LineDecoder.run_append]

/-- The lines of the stream that an operation finishes. -/
def finished (before : List (Operation Handler)) : Operation Handler → List String
  | .feed bytes => (completed (LineDecoder.current (decodings before)) bytes).filterMap text?
  | _ => []

/-- The decoder gives the lines that the bytes finish in the stream. -/
theorem feed_run (before : List (Operation Handler)) (bytes : List UInt8) :
    ((run {} before).1.decoder.feed bytes).2 = finished before (.feed bytes) := by
  rw [decoder_run]
  exact LineDecoder.operate_feed_run _ bytes

/-- The decoder gives the lines that an operation finishes. -/
theorem delivered_run (before : List (Operation Handler)) (op : Operation Handler) :
    ((LineDecoder.run {} (decodings before)).1.run op.decoding?.toList).2.flatten =
      finished before op := by
  cases op with
  | feed bytes =>
    rw [finished, ← LineDecoder.operate_feed_run]
    exact List.append_nil _
  | _ => rfl

/-- **No line of the stream is lost or doubled by the calls in between.** -/
theorem finished_run (ops : List (Operation Handler)) :
    (eachAfter finished ops).flatten = (LineDecoder.run {} (decodings ops)).2.flatten := by
  induction ops using List.reverseRecOn with
  | nil => rfl
  | append_singleton ops op ih =>
    rw [eachAfter_concat, List.flatten_concat, ih, decodings_concat, LineDecoder.run_append,
      List.flatten_append, delivered_run]

/-! ### What fires -/

/-- The notification that a line is, if it is one. -/
def notification? (line : String) : Option Notification :=
  (Notification.parse line).toOption

/-- A line goes to a handler if it is a notification and there is a handler for it. -/
theorem dispatchLine_eq (d : Dispatcher Handler) (line : String) :
    d.dispatchLine line = (notification? line).bind d.dispatch := by
  rw [Dispatcher.dispatchLine, notification?]
  cases Notification.parse line <;> rfl

/-- The notifications that an operation dispatches, in order. -/
def notifications (before : List (Operation Handler)) : Operation Handler → List Notification
  | .dispatch n => [n]
  | .line line => (notification? line).toList
  | .feed bytes => (finished before (.feed bytes)).filterMap notification?
  | .register .. | .reset => []

/-- The handlers that an operation fires: for each notification the one registered last for its
topic, if there is one, with its payload. -/
def firings (before : List (Operation Handler)) (op : Operation Handler) :
    List (Handler × String) :=
  (notifications before op).filterMap fun n => (lastRegistered before n.topic).map (·, n.payload)

/-- The handler that an operation replaces. -/
def replaced (before : List (Operation Handler)) : Operation Handler → Option Handler
  | .register topic _ => lastRegistered before topic
  | _ => none

/-- What an operation gives back after others. -/
def expected (before : List (Operation Handler)) (op : Operation Handler) : Outcome Handler where
  replaced := replaced before op
  returned := (firings before op).length
  fired := firings before op

theorem filterMap_toList {α β : Type} (f : α → Option β) (a : Option α) :
    a.toList.filterMap f = (a.bind f).toList := by
  cases a with
  | none => rfl
  | some a => cases h : f a <;> simp [h]

/-- An operation that dispatches at most one notification. -/
theorem once_eq_expected {before : List (Operation Handler)} {op : Operation Handler}
    (hreplaced : replaced before op = none) {n : Option Notification}
    (hn : notifications before op = n.toList) :
    Outcome.once (n.bind (run {} before).1.table.dispatch) = expected before op := by
  have hfirings : firings before op = (n.bind (run {} before).1.table.dispatch).toList := by
    rw [firings, hn, filterMap_toList, funext (dispatch_run before)]
  rw [expected, hreplaced, hfirings, Outcome.once]
  cases n.bind (run {} before).1.table.dispatch <;> rfl

/-- **What an operation gives back**, told from the operations before it. -/
theorem operate_run (before : List (Operation Handler)) (op : Operation Handler) :
    ((run {} before).1.operate op).2 = expected before op := by
  cases op with
  | register topic handler =>
    show ({ replaced := (run {} before).1.table.handler? topic } : Outcome Handler) = _
    rw [handler?_run]
    rfl
  | dispatch n => exact once_eq_expected rfl (n := some n) rfl
  | line text =>
    rw [operate, dispatchLine_eq]
    exact once_eq_expected rfl rfl
  | feed bytes =>
    have hfirings : firings before (.feed bytes) =
        (finished before (.feed bytes)).filterMap (run {} before).1.table.dispatchLine := by
      rw [firings, notifications, List.filterMap_filterMap, funext (dispatchLine_eq _),
        funext (dispatch_run before)]
    rw [expected, hfirings, List.length_filterMap_eq_countP, ← feed_run]
    rfl
  | reset => rfl

/-- **Dispatching a stream is exact.**  Over any run of a fresh receiver:

* Every call gives back what the calls before it tell.  Each notification that it dispatches fires
  the handler registered last for exactly its topic, once and in order, with its payload; what is no
  notification and what has no handler fires nothing.  The number returned is that of the handlers
  fired, and a registration gives back the handler it replaces.
* The lines that the pieces of the stream finish are those that the decoder delivers for the bytes
  and resets alone, in order.
* The table holds the handlers registered last, and only the registrations made it.
* The decoder is the one that the bytes and resets alone leave. -/
theorem run_dispatches (ops : List (Operation Handler)) :
    (run {} ops).2 = eachAfter expected ops ∧
      (eachAfter finished ops).flatten = (LineDecoder.run {} (decodings ops)).2.flatten ∧
      (∀ topic, (run {} ops).1.table.handler? topic = lastRegistered ops topic) ∧
      (run {} ops).1.table = (run {} (ops.filter Operation.isRegister)).1.table ∧
      (run {} ops).1.decoder = (LineDecoder.run {} (decodings ops)).1 := by
  refine ⟨?_, finished_run ops, handler?_run ops, table_run ops, decoder_run ops⟩
  rw [run, runWith_outputs]
  exact congrArg (eachAfter · ops) (funext fun before => funext (operate_run before))

-- A handler that is replaced in the middle of a line does not hear the line.
example : (run {} [.register "/a" 1, .feed (utf8 "WF 3 2 5 /a 1"), .register "/a" 2,
    .feed (utf8 "7\n"), .line "WF 3 2 5 /b 1"]).2 =
      [{}, {}, { replaced := some 1 }, { returned := 1, fired := [(2, "17")] }, {}] := by
  decide +kernel

end Receiver
end Wire
end BoardBlocks
