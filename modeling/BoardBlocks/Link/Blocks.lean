/-
# Blocks at work

What the blocks of the palette do when a program runs inside the host.  A connect block fills the
arguments it does not have from the palette settings.  Publishing and subscribing without a topic
do nothing.  The blocks that only matter on a board do nothing at all.
-/

import BoardBlocks.Block.Basic
import BoardBlocks.Callback
import BoardBlocks.Link.Host

namespace BoardBlocks
namespace Link

/-- The argument texts of a block at work. -/
abbrev Arguments := String → Option String

/-- The arguments of a block: what its literals say. -/
def Arguments.ofBlock (b : Block) : Arguments := b.literal?

/-- The arguments of a list of texts; the last text of a name counts. -/
def Arguments.ofList (texts : List (String × String)) : Arguments :=
  fun name => Keyed.get? name (Keyed.ofList texts)

/-- The client id to connect with. -/
def clientIdOf (settings : PaletteSettings) (args : Arguments) : String :=
  (args "CLIENTID").getD settings.defaultClientId

/-- Connects to a local broker, without credentials. -/
def connectBlock (settings : PaletteSettings) (args : Arguments) (h : Host) : Host × List Effect :=
  h.connect ((args "SERVER").getD settings.defaultServer) (clientIdOf settings args) none none

/-- Connects to the cloud, with the credentials that there are. -/
def connectCloudBlock (settings : PaletteSettings) (args : Arguments) (h : Host) :
    Host × List Effect :=
  h.connect ((args "SERVER").getD settings.cloudServer) (clientIdOf settings args)
    (args "USER") (args "PASS")

/-- Publishes data, empty if there is none, on a topic. -/
def publishBlock (args : Arguments) (h : Host) : Host × List Effect :=
  match args "TOPIC" with
  | some topic => h.publish topic ((args "DATA").getD "")
  | none => (h, [])

/-- Subscribes to a topic. -/
def subscribeBlock (args : Arguments) (h : Host) : Host × List Effect :=
  match args "TOPIC" with
  | some topic => h.subscribe topic
  | none => (h, [])

/-- Whether a hat starts on a received topic: its own topic has to be the same without quotes. -/
def hatMatches (args : Arguments) (received : String) : Bool :=
  (args "TOPIC").any fun topic => topicKey topic = received

/-- The last message. -/
def topicDataBlock (h : Host) : Option String :=
  h.session.message

end Link
end BoardBlocks
