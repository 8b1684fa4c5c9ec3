/-
# Callback names

A hat on a topic becomes a routine whose name is derived from the topic: quotes are dropped, every
`/` becomes `_`, and `GOT` is put in front, so `/a/b` gives `GOT_a_b`.  All other characters pass
through, also those that no identifier can hold.

Two topics can give the same name (`/a/b` and `/a_b`).  A table of callbacks binds a name to one
topic only and refuses the second.
-/

namespace BoardBlocks

/-- What every callback name starts with. -/
def callbackStart : String := "GOT"

/-- Whether a character is a quote of either kind. -/
def isQuote (c : Char) : Bool :=
  c = '"' || c = '\''

/-- The topic as the board sees it: without quotes. -/
def topicKey (topic : String) : String :=
  String.ofList (topic.toList.filter fun c => !isQuote c)

@[simp] theorem toList_topicKey (topic : String) :
    (topicKey topic).toList = topic.toList.filter fun c => !isQuote c := by
  simp [topicKey]

/-- A key has no quotes. -/
theorem isQuote_of_mem_topicKey {topic : String} {c : Char} (h : c ∈ (topicKey topic).toList) :
    isQuote c = false := by
  rw [toList_topicKey] at h
  simpa using (List.mem_filter.1 h).2

/-- Dropping quotes twice is dropping them once. -/
theorem topicKey_topicKey (topic : String) : topicKey (topicKey topic) = topicKey topic := by
  rw [← String.toList_inj]
  simp [List.filter_filter]

/-- A topic character inside a callback name. -/
def nameChar (c : Char) : Char :=
  if c = '/' then '_' else c

/-- The name of the routine for a topic. -/
def callbackName (topic : String) : String :=
  callbackStart ++ String.ofList ((topicKey topic).toList.map nameChar)

/-- A topic has the callback name of its key. -/
theorem callbackName_topicKey (topic : String) :
    callbackName (topicKey topic) = callbackName topic := by
  rw [callbackName, topicKey_topicKey]
  rfl

/-- A topic with its routine. -/
structure Binding where
  topic : String
  name : String
deriving DecidableEq, Repr

/-- Two topics that share a routine name. -/
structure Collision where
  name : String
  first : String
  second : String
deriving DecidableEq, Repr

/-- The callbacks registered so far, in order. -/
structure Callbacks where
  bindings : List Binding := []
deriving DecidableEq, Repr

namespace Callbacks

/-- The binding of a routine name. -/
def find? (t : Callbacks) (name : String) : Option Binding :=
  t.bindings.find? fun b => b.name = name

/-- Registers a topic: the name of its routine and the table with the topic in it. -/
def register (t : Callbacks) (topic : String) : Except Collision (String × Callbacks) :=
  let key := topicKey topic
  let name := callbackName key
  match t.find? name with
  | some b => if b.topic = key then .ok (name, t) else .error ⟨name, b.topic, key⟩
  | none => .ok (name, ⟨t.bindings ++ [⟨key, name⟩]⟩)

/-- Whether a topic, quoted or not, is in the table. -/
def containsTopic (t : Callbacks) (topic : String) : Bool :=
  t.bindings.any fun b => b.topic = topicKey topic

end Callbacks

end BoardBlocks
