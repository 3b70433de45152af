import ImportChart.Graph.Statistics
import ImportChart.Proofs.Graph.Diagram
import Mathlib.Data.List.Nodup

/-!
# Counting a diagram again

The statistics of a diagram know nothing of the graph behind it: they look for arrows and for names
in its text. On the diagram of a drawable graph they count what is there
(`Statistics.ofDiagram_lines`). The lines with an arrow are those of the edges, as no other line has
one; each gives the names of its two nodes, since a label holds no quotation mark and so ends where
it is closed; and names of different places differ. So labels may hold anything that looks like
names, arrows or comments.

A node without an edge is on no line with an arrow and is not counted (`Graph.endpoints`).
-/

namespace ImportChart

/-- The places of the nodes at which an edge starts or ends, in order. -/
def Graph.endpoints (graph : Graph) : List Nat :=
  (List.range graph.nodes.length).filter fun place =>
    graph.edges.any fun edge => decide (edge.1 = place ∨ edge.2 = place)

/-- The places at which the edges start and end, edge by edge. -/
def Graph.ends (graph : Graph) : List Nat :=
  graph.edges.flatMap fun edge => [edge.1, edge.2]

theorem Graph.IsDrawable.mem_ends {graph : Graph} (h : graph.IsDrawable) {place : Nat} :
    place ∈ graph.ends ↔ place ∈ graph.endpoints := by
  rw [endpoints, ends, List.mem_filter, List.mem_range, List.any_eq_true, List.mem_flatMap]
  constructor
  · rintro ⟨edge, hedge, hplace⟩
    obtain ⟨hsource, htarget⟩ := h.edge_lt edge hedge
    rcases List.mem_cons.mp hplace with rfl | hplace
    · exact ⟨hsource, edge, hedge, decide_eq_true (.inl rfl)⟩
    · obtain rfl := List.mem_singleton.mp hplace
      exact ⟨htarget, edge, hedge, decide_eq_true (.inr rfl)⟩
  · rintro ⟨-, edge, hedge, hplace⟩
    refine ⟨edge, hedge, ?_⟩
    rcases of_decide_eq_true hplace with rfl | rfl
    · exact List.mem_cons_self
    · exact List.mem_cons_of_mem _ List.mem_cons_self

namespace Statistics

open Diagram

/-! ## Names on a line -/

/-- Outside of labels, characters with which no name and no label starts are passed over. -/
theorem nodeNames_append {text : List Char} (hmark : '\x22' ∉ text) (hletter : 'n' ∉ text)
    (rest : List Char) :
    nodeNames false (text ++ rest) = nodeNames false rest := by
  induction text with
  | nil => rfl
  | cons c cs ih =>
    rw [List.mem_cons, not_or] at hmark hletter
    have hnone : nodeNameAt? (c :: (cs ++ rest)) = none := by
      unfold nodeNameAt?
      split
      · next heq => exact absurd (List.cons.inj heq).1 (Ne.symm hletter.1)
      · rfl
    have hskip : nodeNames false (c :: (cs ++ rest)) = nodeNames false (cs ++ rest) := by
      rw [nodeNames, if_neg (Ne.symm hmark.1), if_neg Bool.false_ne_true, hnone]
    exact hskip.trans (ih hmark.2 hletter.2)

theorem nodeNames_mark (inLabel : Bool) (rest : List Char) :
    nodeNames inLabel ('\x22' :: rest) = nodeNames (!inLabel) rest := by
  rw [nodeNames, if_pos rfl]

/-- A label ends with the first quotation mark behind it, and no name is read in it. -/
theorem nodeNames_label {label : List Char} (h : '\x22' ∉ label) (rest : List Char) :
    nodeNames true (label ++ '\x22' :: rest) = nodeNames false rest := by
  induction label with
  | nil => exact nodeNames_mark true rest
  | cons c cs ih =>
    rw [List.mem_cons, not_or] at h
    rw [List.cons_append, nodeNames, if_neg (Ne.symm h.1), if_pos rfl]
    exact ih h.2

/-- The name of a node is read whole where no digit follows it. -/
theorem nodeNameAt?_nodeName (place : Nat) {c : Char} (hc : c.isDigit = false) (rest : List Char) :
    nodeNameAt? ((nodeName place).toList ++ c :: rest) = some (nodeName place).toList := by
  have hdigits :
      (Nat.toDigits 10 place ++ c :: rest).takeWhile Char.isDigit = Nat.toDigits 10 place := by
    rw [List.takeWhile_append_of_pos fun d hd =>
      Nat.isDigit_of_mem_toDigits (by decide) (by decide) hd,
      List.takeWhile_cons_of_neg (by rw [hc]; exact Bool.false_ne_true), List.append_nil]
  rw [toList_nodeName]
  simp only [List.cons_append, List.nil_append, nodeNameAt?, hdigits]
  split
  · next hnone => exact absurd hnone Nat.toDigits_ne_nil
  · rfl

theorem nodeNames_nodeName (place : Nat) {c : Char} (hc : c.isDigit = false) (rest : List Char) :
    nodeNames false ((nodeName place).toList ++ c :: rest) =
      (nodeName place).toList :: nodeNames false (c :: rest) := by
  have hname := nodeNameAt?_nodeName place hc rest
  -- the rest of a name is passed over when the name is read
  have hmark : '\x22' ∉ ['o', 'd', 'e'] ++ Nat.toDigits 10 place :=
    List.not_mem_append (by decide) (not_mem_toDigits rfl place)
  have hletter : 'n' ∉ ['o', 'd', 'e'] ++ Nat.toDigits 10 place :=
    List.not_mem_append (by decide) (not_mem_toDigits rfl place)
  have hrest := nodeNames_append hmark hletter (c :: rest)
  rw [toList_nodeName] at hname ⊢
  rw [List.cons_append, List.cons_append] at hname ⊢
  rw [nodeNames, if_neg (by decide), if_neg Bool.false_ne_true, hname]
  exact congrArg _ hrest

theorem nodeNames_labelled (place : Nat) (label : String) (rest : List Char) :
    nodeNames false ((labelled (nodeName place) label).toList ++ rest) =
      (nodeName place).toList :: nodeNames false rest := by
  have hlabel : '\x22' ∉ (cleanLabel label).toList := not_mem_cleanLabel (.inl (by decide))
  have htext : (labelled (nodeName place) label).toList ++ rest =
      (nodeName place).toList ++
        '[' :: '\x22' :: ((cleanLabel label).toList ++ '\x22' :: ([']'] ++ rest)) := by
    simp [labelled]
  have hopen (more : List Char) : nodeNames false ('[' :: more) = nodeNames false more :=
    @nodeNames_append ['['] (by decide) (by decide) more
  have hclose : nodeNames false ([']'] ++ rest) = nodeNames false rest :=
    nodeNames_append (by decide) (by decide) rest
  rw [htext, nodeNames_nodeName place rfl, hopen, nodeNames_mark, Bool.not_false,
    nodeNames_label hlabel, hclose]

/-- The names on the line of an edge are those of its nodes. -/
theorem nodeNames_edgeLine (graph : Graph) (edge : Nat × Nat) :
    nodeNames false (edgeLine graph edge).toList = [(nodeName edge.1).toList,
      (nodeName edge.2).toList] := by
  have hend := nodeNames_labelled edge.2 (graph.labelAt edge.2) []
  rw [List.append_nil] at hend
  simp only [edgeLine, String.toList_append, List.append_assoc]
  rw [nodeNames_append (by decide) (by decide), nodeNames_labelled,
    nodeNames_append (by decide) (by decide), hend]
  rfl

/-! ## Lines with an arrow -/

theorem occursIn_edgeLine (graph : Graph) (edge : Nat × Nat) :
    occursIn "-->".toList (edgeLine graph edge).toList = true := by
  have harrow : " --> ".toList = [' '] ++ "-->".toList ++ [' '] := by decide
  refine occursIn_iff.mpr
    ⟨"    ".toList ++ (labelled (nodeName edge.1) (graph.labelAt edge.1)).toList ++ [' '],
    [' '] ++ (labelled (nodeName edge.2) (graph.labelAt edge.2)).toList, ?_⟩
  simp only [edgeLine, String.toList_append, harrow, List.append_assoc]

theorem occursIn_of_isPlain {line : String} (h : IsPlain line) :
    occursIn "-->".toList line.toList = false := by
  refine Bool.eq_false_iff.mpr fun harrow => h.2 ?_
  have hpoint : '>' ∈ "-->".toList := by decide
  exact (occursIn_iff.mp harrow).subset hpoint

/-- The lines with an arrow are those of the edges, in a styled diagram as in any other. -/
theorem arrowLines_lines {graph : Graph} (h : graph.IsDrawable) (options : RenderOptions) :
    arrowLines (ofLines (lines graph options)) = graph.edges.map fun edge =>
      (edgeLine graph edge).toList := by
  have hheader : ¬ occursIn "-->".toList (header options.direction).toList = true :=
    Bool.eq_false_iff.mp (occursIn_of_isPlain (isPlain_header options.direction))
  have hedges : ∀ line ∈ (graph.edges.map (edgeLine graph)).map String.toList,
      occursIn "-->".toList line = true := by
    intro line hline
    rw [List.map_map] at hline
    obtain ⟨edge, -, rfl⟩ := List.mem_map.mp hline
    exact occursIn_edgeLine graph edge
  have hstyling : ∀ line ∈ (styling graph options).map String.toList,
      ¬ occursIn "-->".toList line = true := by
    intro line hline
    obtain ⟨text, htext, rfl⟩ := List.mem_map.mp hline
    exact Bool.eq_false_iff.mp (occursIn_of_isPlain (h.isPlain_of_mem_styling htext))
  rw [arrowLines, splitOn_ofLines (lines_ne_nil graph options) (h.newline_not_mem_lines options),
    h.lines_eq, List.map_cons, List.map_append, List.filter_cons_of_neg hheader, List.filter_append,
    List.filter_eq_self.mpr hedges, List.filter_eq_nil_iff.mpr hstyling, List.append_nil,
    List.map_map]
  rfl

/-! ## Counting -/

/-- The names at the ends of edges, each once, are as many as the nodes at which an edge starts or
ends. -/
theorem length_firsts_names {graph : Graph} (h : graph.IsDrawable) :
    (firsts (graph.ends.map fun place => (nodeName place).toList)).length =
      graph.endpoints.length := by
  have hinj : Function.Injective fun place => (nodeName place).toList := fun _ _ heq =>
    nodeName_injective (String.toList_inj.mp heq)
  have hnodup : (graph.endpoints.map fun place => (nodeName place).toList).Nodup :=
    (List.nodup_range.filter _).map hinj
  have hmem (name : List Char) :
      name ∈ firsts (graph.ends.map fun place => (nodeName place).toList) ↔
      name ∈ graph.endpoints.map fun place => (nodeName place).toList := by
    rw [mem_firsts, List.mem_map, List.mem_map]
    simp only [h.mem_ends]
  have hperm := (List.perm_ext_iff_of_nodup (nodup_firsts _) hnodup).mpr hmem
  rw [hperm.length_eq, List.length_map]

/-- The statistics of the diagram of a drawable graph count its edges and the nodes of its edges. -/
theorem ofDiagram_lines {graph : Graph} (h : graph.IsDrawable) (options : RenderOptions) :
    ofDiagram (ofLines (lines graph options)) =
      { nodes := graph.endpoints.length, edges := graph.edges.length } := by
  have hnames :
      (graph.edges.map fun edge => (edgeLine graph edge).toList).flatMap (nodeNames false) =
      graph.ends.map fun place => (nodeName place).toList := by
    rw [Graph.ends, List.flatMap_map, List.map_flatMap]
    refine congrArg (fun f => List.flatMap f graph.edges) (funext fun edge => ?_)
    exact nodeNames_edgeLine graph edge
  rw [ofDiagram, arrowLines_lines h options, hnames, length_firsts_names h, List.length_map]

/-- **The statistics read back what was drawn**: of the diagram of any input, styled or not, whose
paths and targets have no line ends, they count the edges of the graph and the nodes at which an
edge starts or ends. -/
theorem ofDiagram_render {input : GraphInput} {options : RenderOptions}
    (h : input.OnLines options) :
    ofDiagram (render input options) =
      { nodes := (Graph.ofInput input options).endpoints.length
        edges := (Graph.ofInput input options).edges.length } :=
  ofDiagram_lines (Graph.isDrawable_ofInput h) options

/-- Files whose paths and references look like parts of a diagram. The last file is a node without
an edge: its one dependency is not shown by default. -/
def misleadingInput : GraphInput :=
  .files
    [("src/node7 --> node8.js",
      [(ClassifiedReference.ofToken "./a" .internal).resolve (some "lib/a[\"node3\"] --> x\".js"),
       (ClassifiedReference.ofToken "%% node1 \" --> [" .external).resolve none,
       (ClassifiedReference.ofToken "./lost" .internal).resolve none]),
     ("lib/a[\"node3\"] --> x\".js",
      [(ClassifiedReference.ofToken "%% node1 \" --> [" .external).resolve none]),
     ("node0", [(ClassifiedReference.ofToken "fs" .builtin).resolve none])]

theorem ofDiagram_render_misleading : misleadingInput.OnLines {} ∧
    (Graph.ofInput misleadingInput {}).nodes.length = 4 ∧
    ofDiagram (render misleadingInput {}) = { nodes := 3, edges := 3 } := by
  have honLines : misleadingInput.OnLines {} := by decide +kernel
  have hnodes : (Graph.ofInput misleadingInput {}).nodes.length = 4 := by decide +kernel
  have hendpoints : (Graph.ofInput misleadingInput {}).endpoints.length = 3 := by decide +kernel
  have hedges : (Graph.ofInput misleadingInput {}).edges.length = 3 := by decide +kernel
  refine ⟨honLines, hnodes, ?_⟩
  rw [ofDiagram_render honLines, hendpoints, hedges]

end Statistics

end ImportChart
