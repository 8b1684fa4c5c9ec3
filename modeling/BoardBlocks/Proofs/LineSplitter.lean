/-
# Lines by splitting

What the line decoder delivers, said without a decoder.  The bytes that came since the last reset
are split at their line feeds and rid of their carriage returns.

| segment | what becomes of it |
| --- | --- |
| ended, at most 256 bytes, UTF-8 | delivered |
| ended, anything else | counted as dropped |
| not ended | pending, or nothing once it is longer than 256 bytes |

How the bytes are cut into pieces plays no part.
-/

import BoardBlocks.Proofs.Splitting
import BoardBlocks.Wire.LineDecoder
import Mathlib.Data.List.Induction

namespace BoardBlocks

namespace Wire

/-- The bytes of a text. -/
def utf8 (s : String) : List UInt8 :=
  s.toByteArray.data.toList

/-- Bytes make a line if there are no more than the capacity and they are those of a text. -/
def IsLine (segment : List UInt8) : Prop :=
  segment.length ≤ 256 ∧ ∃ s : String, utf8 s = segment

/-- The parts of a stream between its line feeds, without carriage returns. -/
def segments (bytes : List UInt8) : List (List UInt8) :=
  (bytes.splitOn 10).map fun segment => segment.filter (· ≠ 13)

/-- The segments that a line feed ends. -/
def terminated (bytes : List UInt8) : List (List UInt8) :=
  (segments bytes).dropLast

/-- The segment that no line feed ends. -/
def unfinished (bytes : List UInt8) : List UInt8 :=
  (segments bytes).getLastD []

/-- The segments that are ended by a piece of the stream that comes after `now`. -/
def completed (now bytes : List UInt8) : List (List UInt8) :=
  (terminated (now ++ bytes)).drop (terminated now).length

/-! ### A byte more at the end -/

/-- The segments of a stream are those that have ended and the one that has not. -/
theorem segments_eq (now : List UInt8) : segments now = terminated now ++ [unfinished now] := by
  have hne : segments now ≠ [] := by simp [segments]
  rw [terminated, unfinished, List.getLastD_eq_getLast?, List.getLast?_eq_some_getLast hne,
    Option.getD_some, List.dropLast_concat_getLast]

/-- A line feed ends the last segment. -/
theorem terminated_concat_lf (now : List UInt8) :
    terminated (now ++ [10]) = terminated now ++ [unfinished now] := by
  rw [terminated, segments, splitOn_concat_self, List.map_append, List.map_singleton,
    List.dropLast_concat, ← segments, segments_eq]

/-- Nothing is unfinished behind a line feed. -/
theorem unfinished_concat_lf (now : List UInt8) : unfinished (now ++ [10]) = [] := by
  rw [unfinished, segments, splitOn_concat_self, List.map_append, List.map_singleton,
    List.getLastD_concat]
  rfl

/-- Any other byte ends no segment. -/
theorem terminated_concat {byte : UInt8} (h : byte ≠ 10) (now : List UInt8) :
    terminated (now ++ [byte]) = terminated now := by
  obtain ⟨init, last, hnow, hconcat⟩ := splitOn_concat_of_ne h now
  simp only [terminated, segments, hnow, hconcat, List.map_append, List.map_singleton,
    List.dropLast_concat]

/-- Any other byte goes to the unfinished segment, unless it is a carriage return. -/
theorem unfinished_concat {byte : UInt8} (h : byte ≠ 10) (now : List UInt8) :
    unfinished (now ++ [byte]) = unfinished now ++ [byte].filter (· ≠ 13) := by
  obtain ⟨init, last, hnow, hconcat⟩ := splitOn_concat_of_ne h now
  simp only [unfinished, segments, hnow, hconcat, List.map_append, List.map_singleton,
    List.getLastD_concat, List.filter_append]

/-- A stream keeps the segments that have ended. -/
theorem terminated_append (now bytes : List UInt8) :
    terminated (now ++ bytes) = terminated now ++ completed now bytes := by
  have hprefix : terminated now <+: terminated (now ++ bytes) := by
    induction bytes using List.reverseRecOn with
    | nil => simp
    | append_singleton bytes byte ih =>
      rw [← List.append_assoc]
      by_cases hbyte : byte = 10
      · rw [hbyte, terminated_concat_lf]
        exact ih.trans (List.prefix_append _ _)
      · rwa [terminated_concat hbyte]
  obtain ⟨more, hmore⟩ := hprefix
  rw [completed, ← hmore, List.drop_left]

/-- The segments that several bytes end are those of the first byte, then those of the others. -/
theorem completed_cons (now : List UInt8) (byte : UInt8) (bytes : List UInt8) :
    completed now (byte :: bytes) = completed now [byte] ++ completed (now ++ [byte]) bytes := by
  have h := terminated_append now (byte :: bytes)
  rw [List.append_cons, terminated_append, terminated_append now, List.append_assoc] at h
  exact (List.append_cancel_left h).symm

/-! ### Lines and dropped segments -/

/-- The text of a segment that makes a line. -/
def text? (segment : List UInt8) : Option String :=
  if segment.length ≤ 256 then LineDecoder.decodeLine? segment else none

/-- The text of a line has the bytes that it was decoded from. -/
theorem utf8_of_decodeLine? {segment : List UInt8} {s : String}
    (h : LineDecoder.decodeLine? segment = some s) : utf8 s = segment := by
  unfold LineDecoder.decodeLine? String.fromUTF8? at h
  split at h
  · obtain rfl := Option.some.inj h
    rfl
  · exact nomatch h

/-- The bytes of a text decode to the text. -/
theorem decodeLine?_utf8 (s : String) : LineDecoder.decodeLine? (utf8 s) = some s := by
  have hvalid : ByteArray.IsValidUTF8 ⟨(utf8 s).toArray⟩ := s.isValidUTF8
  rw [LineDecoder.decodeLine?, String.fromUTF8?, dif_pos hvalid]
  rfl

/-- The text of a segment has the bytes of the segment. -/
theorem text?_eq_some {segment : List UInt8} {s : String} :
    text? segment = some s ↔ segment.length ≤ 256 ∧ utf8 s = segment := by
  rw [text?]
  constructor
  · intro h
    split at h
    · rename_i hlen
      exact ⟨hlen, utf8_of_decodeLine? h⟩
    · exact nomatch h
  · rintro ⟨hlen, rfl⟩
    rw [if_pos hlen, decodeLine?_utf8]

/-- A segment makes a line exactly if it has a text. -/
theorem isLine_iff (segment : List UInt8) : IsLine segment ↔ (text? segment).isSome := by
  rw [Option.isSome_iff_exists, IsLine]
  simp only [text?_eq_some, exists_and_left]

instance (segment : List UInt8) : Decidable (IsLine segment) :=
  decidable_of_iff _ (isLine_iff segment).symm

/-- How many segments are no lines. -/
def refused (segments : List (List UInt8)) : Nat :=
  segments.countP fun segment => ¬ IsLine segment

theorem refused_append (xs ys : List (List UInt8)) :
    refused (xs ++ ys) = refused xs + refused ys :=
  List.countP_append

/-- The texts of segments are the lines among them, byte for byte. -/
theorem map_utf8_filterMap_text? (segments : List (List UInt8)) :
    (segments.filterMap text?).map utf8 = segments.filter IsLine := by
  induction segments with
  | nil => rfl
  | cons segment segments ih =>
    cases h : text? segment with
    | none =>
      have hline : ¬ IsLine segment := by rw [isLine_iff, h]; exact Bool.false_ne_true
      rw [List.filterMap_cons_none h, ih, List.filter_cons_of_neg (by simpa using hline)]
    | some s =>
      have hline : IsLine segment := by rw [isLine_iff, h]; rfl
      rw [List.filterMap_cons_some h, List.map_cons, ih, (text?_eq_some.1 h).2,
        List.filter_cons_of_pos (by simpa using hline)]

namespace LineDecoder

/-! ### The decoder holds the unfinished segment -/

/-- The decoder that has dropped `dropped` lines and read a segment since the last line feed. -/
def holding (dropped : UInt32) (segment : List UInt8) : LineDecoder :=
  if segment.length ≤ 256 then { buffer := segment, dropped }
  else { overflowed := true, dropped }

/-- A segment that fits is held in the buffer. -/
theorem holding_of_le {segment : List UInt8} (h : segment.length ≤ 256)
    (dropped : UInt32) : holding dropped segment = { buffer := segment, dropped } :=
  if_pos h

/-- A segment that does not fit has overflowed, and none of it is held. -/
theorem holding_of_lt {segment : List UInt8} (h : 256 < segment.length)
    (dropped : UInt32) : holding dropped segment = { overflowed := true, dropped } :=
  if_neg (Nat.not_le.2 h)

theorem holding_nil (dropped : UInt32) : holding dropped [] = { dropped } :=
  holding_of_le (Nat.zero_le _) dropped

/-- The line of what is held is the text of the segment. -/
theorem line?_holding (dropped : UInt32) (segment : List UInt8) :
    (holding dropped segment).line? = text? segment := by
  unfold holding text?
  split <;> rfl

@[simp] theorem dropped_holding (dropped : UInt32) (segment : List UInt8) :
    (holding dropped segment).dropped = dropped := by
  unfold holding
  split <;> rfl

/-- A segment that fits is pending with all its bytes; one that does not has none. -/
theorem pending_holding (dropped : UInt32) (segment : List UInt8) :
    (holding dropped segment).pending =
      if segment.length ≤ 256 then segment.length else 0 := by
  unfold holding
  split <;> rfl

/-- A reset drops what is held and keeps the count. -/
theorem reset_holding (dropped : UInt32) (segment : List UInt8) :
    (holding dropped segment).reset = holding dropped [] := by
  rw [holding_nil, reset, dropped_holding]

/-- A line feed ends the segment. -/
theorem step_holding_lf (dropped : UInt32) (segment : List UInt8) :
    (holding dropped segment).step 10 =
      (holding (dropped + .ofNat (refused [segment])) [], text? segment) := by
  rw [step, if_pos rfl, line?_holding, holding_nil]
  cases h : text? segment with
  | none =>
    have hrefused : refused [segment] = 1 := by simp [refused, isLine_iff, h]
    rw [hrefused]
    simp
  | some s =>
    have hrefused : refused [segment] = 0 := by simp [refused, isLine_iff, h]
    rw [hrefused]
    simp [holding, (text?_eq_some.1 h).1]

/-- A carriage return is passed over. -/
theorem step_holding_cr (dropped : UInt32) (segment : List UInt8) :
    (holding dropped segment).step 13 = (holding dropped segment, none) :=
  rfl

/-- Any other byte goes to the segment, also when the segment is too long by now. -/
theorem step_holding {byte : UInt8} (hlf : byte ≠ 10) (hcr : byte ≠ 13) (dropped : UInt32)
    (segment : List UInt8) :
    (holding dropped segment).step byte = (holding dropped (segment ++ [byte]), none) := by
  have hlength : (segment ++ [byte]).length = segment.length + 1 := List.length_append
  rcases Nat.lt_trichotomy segment.length 256 with h | h | h
  · rw [holding_of_le (show segment.length ≤ _ by omega), holding_of_le (by omega)]
    simp [step, lineCapacity, hlf, hcr, h]
  · rw [holding_of_le (show segment.length ≤ _ by omega), holding_of_lt (by omega)]
    simp [step, lineCapacity, hlf, hcr, h]
  · rw [holding_of_lt h, holding_of_lt (by omega)]
    simp [step, hlf, hcr]

/-- **One byte.**  The decoder that holds the unfinished segment of a stream holds that of the
stream with the byte, and delivers what the byte completes. -/
theorem feed_holding_singleton (dropped : UInt32) (now : List UInt8) (byte : UInt8) :
    (holding dropped (unfinished now)).feed [byte] =
      (holding (dropped + .ofNat (refused (completed now [byte]))) (unfinished (now ++ [byte])),
        (completed now [byte]).filterMap text?) := by
  have hfeed (d : LineDecoder) : d.feed [byte] = ((d.step byte).1, (d.step byte).2.toList) := by
    simp [feed_cons]
  rw [hfeed]
  by_cases hlf : byte = 10
  · subst hlf
    rw [step_holding_lf, completed, terminated_concat_lf, List.drop_left, unfinished_concat_lf]
    cases h : text? (unfinished now) <;> simp [h]
  · have hcompleted : completed now [byte] = [] := by
      rw [completed, terminated_concat hlf, List.drop_length]
    rw [hcompleted, unfinished_concat hlf]
    by_cases hcr : byte = 13
    · subst hcr
      rw [step_holding_cr]
      simp [refused]
    · rw [step_holding hlf hcr]
      simp [refused, hcr]

/-- **One piece.**  The same for any number of bytes. -/
theorem feed_holding (dropped : UInt32) (now bytes : List UInt8) :
    (holding dropped (unfinished now)).feed bytes =
      (holding (dropped + .ofNat (refused (completed now bytes))) (unfinished (now ++ bytes)),
        (completed now bytes).filterMap text?) := by
  induction bytes generalizing dropped now with
  | nil => simp [completed, refused]
  | cons byte bytes ih =>
    have hnow : now ++ byte :: bytes = now ++ [byte] ++ bytes := List.append_cons now byte bytes
    have hfeed := feed_append (holding dropped (unfinished now)) [byte] bytes
    rw [feed_holding_singleton, ih, List.singleton_append] at hfeed
    rw [hfeed, hnow, completed_cons now byte bytes, refused_append, UInt32.ofNat_add,
      List.filterMap_append, UInt32.add_assoc]

end LineDecoder
end Wire
end BoardBlocks
