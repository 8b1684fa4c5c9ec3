/-
# Lines from a byte stream

Serial reads arrive in pieces of any size.  The decoder collects bytes until a line feed and then
delivers the line without it.  Carriage returns are passed over wherever they stand.  A line of more
than 256 other bytes, or one that is not UTF-8, is dropped whole and counted; the count wraps at
2³².
-/

namespace BoardBlocks
namespace Wire

/-- How many bytes of one line are kept. -/
def lineCapacity : Nat := 256

/-- The unfinished line, whether it has outgrown the capacity, and the lines dropped so far. -/
structure LineDecoder where
  buffer : List UInt8 := []
  overflowed : Bool := false
  dropped : UInt32 := 0
deriving DecidableEq, Repr

namespace LineDecoder

/-- The text of a line of bytes. -/
def decodeLine? (bytes : List UInt8) : Option String :=
  String.fromUTF8? ⟨bytes.toArray⟩

/-- The line that is finished now, unless it has to be dropped. -/
def line? (d : LineDecoder) : Option String :=
  if d.overflowed then none else decodeLine? d.buffer

/-- Takes one byte: the decoder after it and the line that it finishes. -/
def step (d : LineDecoder) (byte : UInt8) : LineDecoder × Option String :=
  if byte = 10 then
    match d.line? with
    | some line => ({ d with buffer := [], overflowed := false }, some line)
    | none => ({ buffer := [], overflowed := false, dropped := d.dropped + 1 }, none)
  else if byte = 13 || d.overflowed then (d, none)
  else if d.buffer.length < lineCapacity then ({ d with buffer := d.buffer ++ [byte] }, none)
  else ({ d with buffer := [], overflowed := true }, none)

/-- What a piece of the stream brings. -/
structure Delivery where
  /-- The lines that it finishes, in order. -/
  lines : List String := []
  /-- How many lines were delivered. -/
  count : Nat := 0
deriving DecidableEq, Repr

/-- A delivery with the line of an earlier byte, if that finished one. -/
def Delivery.after (line : Option String) (rest : Delivery) : Delivery :=
  match line with
  | some line => { lines := line :: rest.lines, count := rest.count + 1 }
  | none => rest

/-- Takes a piece of the stream: the decoder after it, and the lines that it finishes with their
number. -/
def deliver (d : LineDecoder) : List UInt8 → LineDecoder × Delivery
  | [] => (d, {})
  | byte :: bytes =>
    let (d, line) := d.step byte
    let (d, rest) := d.deliver bytes
    (d, rest.after line)

/-- Takes a piece of the stream for a caller that does not ask for the number of lines. -/
def feed (d : LineDecoder) (bytes : List UInt8) : LineDecoder × List String :=
  let (d, delivery) := d.deliver bytes
  (d, delivery.lines)

/-- Forgets the unfinished line; the count of dropped lines stays. -/
def reset (d : LineDecoder) : LineDecoder :=
  { d with buffer := [], overflowed := false }

/-- How many bytes of the unfinished line are kept. -/
def pending (d : LineDecoder) : Nat :=
  d.buffer.length

@[simp] theorem feed_nil (d : LineDecoder) : d.feed [] = (d, []) := rfl

/-- A piece of the stream is taken byte by byte. -/
theorem feed_cons (d : LineDecoder) (byte : UInt8) (bytes : List UInt8) :
    d.feed (byte :: bytes) = (((d.step byte).1.feed bytes).1,
      (d.step byte).2.toList ++ ((d.step byte).1.feed bytes).2) := by
  rw [feed, deliver]
  rcases d.step byte with ⟨d, _ | line⟩ <;> rfl

/-- The number that comes with the lines is theirs. -/
theorem count_deliver (d : LineDecoder) (bytes : List UInt8) :
    (d.deliver bytes).2.count = (d.deliver bytes).2.lines.length := by
  induction bytes generalizing d with
  | nil => rfl
  | cons byte bytes ih =>
    rw [deliver]
    rcases d.step byte with ⟨d, _ | line⟩
    · exact ih d
    · exact congrArg (· + 1) (ih d)

/-- A call delivers the lines of the piece and gives back their number. -/
theorem deliver_eq (d : LineDecoder) (bytes : List UInt8) :
    (d.deliver bytes).2 = { lines := (d.feed bytes).2, count := (d.feed bytes).2.length } :=
  congrArg (Delivery.mk _) (d.count_deliver bytes)

/-- Cutting the stream elsewhere delivers the same lines. -/
theorem feed_append (d : LineDecoder) (xs ys : List UInt8) :
    d.feed (xs ++ ys) =
      (((d.feed xs).1.feed ys).1, (d.feed xs).2 ++ ((d.feed xs).1.feed ys).2) := by
  induction xs generalizing d with
  | nil => simp
  | cons x xs ih => simp [feed_cons, ih, List.append_assoc]

end LineDecoder
end Wire
end BoardBlocks
