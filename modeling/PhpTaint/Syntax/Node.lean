import PhpTaint.Syntax.Walk
import PhpTaint.Text.Affix
import PhpTaint.Text.Blank
import PhpTaint.Text.Quoted
import PhpTaint.Text.Utf8

/-!
# Syntax nodes in their source

A `Node` is a tree together with the source it spans. All facts about a node
that depend on bytes, its text and its line, are read here and nowhere else.

The identity of a node is its `Key`. Two nodes with one key are the same node
for every table of this library, whatever their trees are; a parser produces
such pairs only by reusing a span, but the tables do not rely on that.
-/

namespace PhpTaint.Syntax

/-- A source file: its name and the bytes that spans refer to. -/
structure Source where
  /-- The name under which the file is reported. -/
  file : String
  bytes : ByteArray

/-- The code as it is parsed: code that does not open a tag is taken to be
inside one. -/
def Source.completeCode (code : String) : String :=
  if Text.beginsWith (Text.trim code) "<?" then code else "<?php\n" ++ code

/-- The source of a file with the given code. -/
def Source.ofCode (file code : String) : Source := ⟨file, (Source.completeCode code).toUTF8⟩

/-- The identity of a syntax node. -/
structure Key where
  /-- The first byte of the span. -/
  start : Nat
  /-- The byte after the span. -/
  stop : Nat
  kind : String
  file : String
  deriving DecidableEq, Repr, Inhabited

/-- A syntax tree in its source. -/
structure Node where
  /-- The source that the spans refer to. -/
  source : Source
  tree : Tree

namespace Node

/-- The grammar symbol. -/
def kind (node : Node) : String := node.tree.kind

/-- The name of the file. -/
def file (node : Node) : String := node.source.file

/-- The identity of the node. -/
def key (node : Node) : Key := ⟨node.tree.start, node.tree.stop, node.tree.kind, node.source.file⟩

instance : BEq Node where
  beq left right := decide (left.key = right.key)

/-- Another tree of the same source. -/
def withTree (node : Node) (tree : Tree) : Node := ⟨node.source, tree⟩

/-- The text of the span; bytes that are not well-formed show as replacement
characters. -/
def text (node : Node) : String :=
  Text.Utf8.decodeReplacing (node.source.bytes.extract node.tree.start node.tree.stop).toList

/-- The line on which the span begins, counted from one. -/
def line (node : Node) : Nat :=
  (node.source.bytes.extract 0 node.tree.start).toList.count 10 + 1

/-- All children, punctuation included. -/
def children (node : Node) : List Node := node.tree.children.map node.withTree

/-- The children that are more than punctuation. -/
def namedChildren (node : Node) : List Node := node.tree.namedChildren.map node.withTree

/-- The first child with the given label. -/
def child? (node : Node) (label : String) : Option Node :=
  (node.tree.child? label).map node.withTree

/-- Whether one of the punctuation children is the given token. -/
def hasToken (node : Node) (token : String) : Bool := node.tree.hasToken token

/-- The proper descendants, each before its own children. -/
def descendants (node : Node) : List Node := node.tree.descendants.map node.withTree

/-- The node and its descendants. -/
def preorder (node : Node) : List Node := node.tree.preorder.map node.withTree

/-- The first characters of a text, marked when something was cut off. -/
def excerpt (limit : Nat) (text : String) : String :=
  let chars := text.toList
  if chars.length > limit then String.ofList (chars.take limit) ++ "..." else text

/-- The node as messages show it. -/
def describe (node : Node) : String :=
  "TSNode(" ++ node.kind ++ ", line=" ++ toString node.line ++ ", " ++
    Text.quoted (excerpt 40 node.text) ++ ")"

/-- The root of a parsed file. -/
def ofParsed (file code : String) (tree : Tree) : Node := ⟨Source.ofCode file code, tree⟩

end Node

end PhpTaint.Syntax
