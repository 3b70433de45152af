import ImportChart.Number.Binary64
import ImportChart.Ordered.Distinct
import ImportChart.Text.Path

/-!
# Counting a diagram

The statistics of a diagram are read off its text. A line with an arrow is an edge, and the nodes
are the distinct names on such lines outside of labels. A label runs from one quotation mark to the
next.
-/

namespace ImportChart

/-- How many nodes and edges a diagram shows. -/
structure Statistics where
  nodes : Nat
  edges : Nat
  deriving DecidableEq, Repr

namespace Statistics

/-- The name of a node at the start of a text: the word `node` and the digits after it. -/
def nodeNameAt? : List Char → Option (List Char)
  | 'n' :: 'o' :: 'd' :: 'e' :: rest =>
    match rest.takeWhile Char.isDigit with
    | [] => none
    | digits => some ('n' :: 'o' :: 'd' :: 'e' :: digits)
  | _ => none

/-- The names of nodes in a text that starts inside or outside of a label. -/
def nodeNames (inLabel : Bool) : List Char → List (List Char)
  | [] => []
  | c :: cs =>
    if c = '\x22' then nodeNames (!inLabel) cs
    else
      match (if inLabel then none else nodeNameAt? (c :: cs)) with
      | some name => name :: nodeNames inLabel cs
      | none => nodeNames inLabel cs

/-- The lines with an arrow. -/
def arrowLines (diagram : String) : List (List Char) :=
  (diagram.toList.splitOn '\n').filter (occursIn "-->".toList)

/-- The statistics of a diagram. -/
def ofDiagram (diagram : String) : Statistics :=
  let lines := arrowLines diagram
  { nodes := (firsts (lines.flatMap (nodeNames false))).length, edges := lines.length }

/-- The edges for each node; zero for a diagram without nodes. -/
def averageDegree (statistics : Statistics) : Binary64 :=
  .ofQuotient statistics.edges statistics.nodes

/-- The statistics on one line. -/
def display (statistics : Statistics) : String :=
  toString statistics.nodes ++ " nodes, " ++ toString statistics.edges ++
    " edges, average degree " ++
    statistics.averageDegree.toTwoPlaces

end Statistics

end ImportChart
