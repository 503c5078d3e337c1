import MidiPatch.Yaml.Token

/-!
# YAML documents

A document is a tree of nodes. An alias stands for the node that was given an anchor; anchors are
numbered, and the document keeps the nodes they were given to.
-/

namespace MidiPatch.Yaml

inductive Node
  | alias (anchor : Nat)
  | scalar (text : String) (style : Style) (tag : Option String)
  | sequence (items : List Node) (tag : Option String)
  | mapping (entries : List (Node × Node)) (tag : Option String)
  deriving Repr

namespace Node

/-- The scalar that is meant where nothing is written. -/
def empty (tag : Option String) : Node := .scalar "" .plain tag

mutual

/--
How many events tell of a node: one for a scalar or an alias, two for the ends of anything else.
-/
def size : Node → Nat
  | .alias _ => 1
  | .scalar .. => 1
  | .sequence items _ => sizeOfItems items + 2
  | .mapping entries _ => sizeOfEntries entries + 2

def sizeOfItems : List Node → Nat
  | [] => 0
  | n :: rest => n.size + sizeOfItems rest

def sizeOfEntries : List (Node × Node) → Nat
  | [] => 0
  | (k, v) :: rest => k.size + v.size + sizeOfEntries rest

end

end Node

structure Document where
  root : Node
  anchored : List (Nat × Node) := []

namespace Document

/-- The node that an anchor was given to. -/
def target? (d : Document) (anchor : Nat) : Option Node := d.anchored.lookup anchor

end Document

end MidiPatch.Yaml
