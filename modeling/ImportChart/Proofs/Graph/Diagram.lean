import ImportChart.Graph.Diagram
import ImportChart.Proofs.Graph.Construction
import ImportChart.Proofs.Text.Segments

/-!
# The lines of a diagram

A diagram is read line by line, so each of its lines must stay one line, and a line of an edge must
be told apart from every other line. Of a drawable graph (`Graph.IsDrawable`) every edge has a line,
which shows the names and the labels of its two nodes (`Graph.IsDrawable.edgeLines_eq`), and no line
holds a line end. The header and the trailer hold no point of an arrow either (`IsPlain`). The lines
are read back from the diagram (`Diagram.splitOn_ofLines`).

The graph of an input is drawable if the paths and targets it is made of stand on one line each
(`GraphInput.OnLines`); whatever else they hold is no matter here.
-/

namespace ImportChart

/-! ## Names of nodes -/

theorem toList_nodeName (place : Nat) :
    (nodeName place).toList = ['n', 'o', 'd', 'e'] ++ Nat.toDigits 10 place := by
  rw [nodeName, String.toList_append, Nat.toString_eq_repr, Nat.toList_repr]
  rfl

theorem not_mem_toDigits {c : Char} (hc : c.isDigit = false) (place : Nat) :
    c ∉ Nat.toDigits 10 place := by
  intro hmem
  rw [Nat.isDigit_of_mem_toDigits (by decide) (by decide) hmem] at hc
  cases hc

/-- No name has a character that is neither in its word nor a digit. -/
theorem not_mem_nodeName {c : Char} (hc : c ∉ ['n', 'o', 'd', 'e'])
    (hdigit : c.isDigit = false) (place : Nat) :
    c ∉ (nodeName place).toList := by
  rw [toList_nodeName]
  exact List.not_mem_append hc (not_mem_toDigits hdigit place)

/-- Two places do not share a name, however long their numbers are. -/
theorem nodeName_injective : Function.Injective nodeName := by
  intro place other h
  have htext := congrArg String.toList h
  rw [toList_nodeName, toList_nodeName] at htext
  have hdigits : Nat.toDigits 10 place = Nat.toDigits 10 other := List.append_cancel_left htext
  calc place
      = Nat.ofDigitChars 10 (Nat.toDigits 10 place) 0 := Nat.ofDigitChars_ten_toDigits.symm
    _ = Nat.ofDigitChars 10 (Nat.toDigits 10 other) 0 := by rw [hdigits]
    _ = other := Nat.ofDigitChars_ten_toDigits

/-! ## Texts without line ends and arrows -/

/-- A text without a line end and without the point of an arrow. -/
def IsPlain (text : String) : Prop :=
  '\n' ∉ text.toList ∧ '>' ∉ text.toList

instance (text : String) : Decidable (IsPlain text) :=
  inferInstanceAs (Decidable (_ ∧ _))

namespace IsPlain

variable {first second : String}

theorem append (hfirst : IsPlain first) (hsecond : IsPlain second) : IsPlain (first ++ second) := by
  rw [IsPlain, String.toList_append]
  exact ⟨List.not_mem_append hfirst.1 hsecond.1, List.not_mem_append hfirst.2 hsecond.2⟩

theorem intercalate {texts : List String} (hfirst : IsPlain first)
    (h : ∀ text ∈ texts, IsPlain text) :
    IsPlain (first.intercalate texts) :=
  ⟨not_mem_toList_intercalate hfirst.1 fun text htext => (h text htext).1,
    not_mem_toList_intercalate hfirst.2 fun text htext => (h text htext).2⟩

theorem nodeName (place : Nat) : IsPlain (nodeName place) :=
  ⟨not_mem_nodeName (by decide) rfl place, not_mem_nodeName (by decide) rfl place⟩

end IsPlain

/-! ## Drawable graphs -/

/-- A graph that can be drawn line by line: each node is named after its place and has its label on
one line, and each edge is between places of nodes. -/
structure Graph.IsDrawable (graph : Graph) : Prop where
  id_eq : ∀ {place : Nat} {node : GraphNode}, graph.nodes[place]? = some node →
    node.id = nodeName place
  label_line : ∀ node ∈ graph.nodes, '\n' ∉ node.label.toList
  edge_lt : ∀ edge ∈ graph.edges, edge.1 < graph.nodes.length ∧ edge.2 < graph.nodes.length

/-- The paths of the files drawn as sources and the targets drawn for them have no line ends. -/
def GraphInput.OnLines (options : RenderOptions) (input : GraphInput) : Prop :=
  ∀ file ∈ input.sources options,
    '\n' ∉ file.1.toList ∧ ∀ target ∈ file.2.filterMap Dependency.target?, '\n' ∉ target.toList

instance (options : RenderOptions) (input : GraphInput) : Decidable (input.OnLines options) :=
  inferInstanceAs (Decidable (∀ file ∈ input.sources options, _ ∧ ∀ target ∈ _, _))

theorem Dependency.mem_of_mem_label {dependency : Dependency} {target : String} {c : Char}
    (h : c ∈ (dependency.label target).toList) : c ∈ target.toList := by
  rw [label] at h
  split at h
  · exact Path.mem_of_mem_fileName h
  · exact h

/-- The labels met with files are on one line if their paths and targets are. -/
theorem Encounter.label_line {files : List (String × List Dependency)}
    (h : ∀ file ∈ files, '\n' ∉ file.1.toList ∧ ∀ target ∈ file.2.filterMap Dependency.target?,
      '\n' ∉ target.toList)
    {encounter : Encounter} (hmem : encounter ∈ files.flatMap ofFile) :
    '\n' ∉ encounter.label.toList := by
  obtain ⟨file, hfile, hmet⟩ := List.mem_flatMap.mp hmem
  obtain ⟨hpath, htargets⟩ := h file hfile
  rcases List.mem_cons.mp hmet with rfl | hmet
  · exact fun hend => hpath (Path.mem_of_mem_fileName hend)
  · obtain ⟨dependency, hdependency, hsome⟩ := List.mem_filterMap.mp hmet
    obtain ⟨target, htarget, rfl⟩ := Option.map_eq_some_iff.mp hsome
    have htarget := htargets target (List.mem_filterMap.mpr ⟨dependency, hdependency, htarget⟩)
    exact fun hend => htarget (Dependency.mem_of_mem_label hend)

/-- The nodes of the graph of an input are named after their places. -/
theorem Graph.id_eq_of_ofInput {input : GraphInput} {options : RenderOptions}
    {place : Nat} {node : GraphNode} (h : (ofInput input options).nodes[place]? = some node) :
    node.id = nodeName place :=
  (ofInput_traces input options).id_eq h

theorem Graph.isDrawable_ofInput {input : GraphInput} {options : RenderOptions}
    (h : input.OnLines options) :
    (ofInput input options).IsDrawable where
  id_eq := id_eq_of_ofInput
  label_line := by
    intro node hmem
    obtain ⟨place, hnode⟩ := List.getElem?_of_mem hmem
    obtain ⟨first, hfirst, rfl⟩ := (ofInput_traces input options).eq_toNode hnode
    exact Encounter.label_line h (List.mem_of_find?_eq_some hfirst)
  edge_lt := fun _ hedge => (ofInput_traces input options).edge_lt hedge

/-! ## Lines -/

/-- The label of the node at a place. -/
def Graph.labelAt (graph : Graph) (place : Nat) : String :=
  (graph.nodes[place]?.map GraphNode.label).getD ""

namespace Diagram

variable {graph : Graph}

/-- The line of an edge between places of nodes. -/
def edgeLine (graph : Graph) (edge : Nat × Nat) : String :=
  "    " ++ labelled (nodeName edge.1) (graph.labelAt edge.1) ++ " --> " ++
    labelled (nodeName edge.2) (graph.labelAt edge.2)

theorem not_mem_cleanLabel {label : String} {c : Char} (h : c ∈ labelMarks ∨ c ∉ label.toList) :
    c ∉ (cleanLabel label).toList := by
  rw [cleanLabel, String.toList_ofList, List.mem_filter]
  rintro ⟨hmem, hmark⟩
  rcases h with h | h
  · rw [List.contains_iff_mem.mpr h] at hmark
    exact Bool.noConfusion hmark
  · exact h hmem

theorem newline_not_mem_labelled {label : String} (place : Nat) (h : '\n' ∉ label.toList) :
    '\n' ∉ (labelled (nodeName place) label).toList := by
  have hname := (IsPlain.nodeName place).1
  have hlabel : '\n' ∉ (cleanLabel label).toList := not_mem_cleanLabel (.inr h)
  have hopen : '\n' ∉ "[\"".toList := by decide
  have hclose : '\n' ∉ "\"]".toList := by decide
  simp only [labelled, String.toList_append, List.mem_append, not_or]
  exact ⟨⟨⟨hname, hopen⟩, hlabel⟩, hclose⟩

/-- The lines of a text made of lines are these lines. -/
theorem splitOn_ofLines {lines : List String} (hne : lines ≠ [])
    (h : ∀ line ∈ lines, '\n' ∉ line.toList) :
    (ofLines lines).toList.splitOn '\n' = lines.map String.toList :=
  splitOn_toList_intercalate rfl hne h

theorem isPlain_header (direction : Direction) : IsPlain (header direction) := by
  cases direction with
  | leftRight => decide
  | topDown => decide
  | bottomTop => decide
  | rightLeft => decide
  | topBottom => decide

theorem isPlain_className (role : Role) : IsPlain role.className := by
  cases role with
  | source => decide
  | internal => decide
  | external => decide
  | builtin => decide

theorem isPlain_style (role : Role) : IsPlain role.style := by
  cases role with
  | source => decide +kernel
  | internal => decide +kernel
  | external => decide +kernel
  | builtin => decide +kernel

theorem isPlain_of_mem_classLines (hids : ∀ node ∈ graph.nodes, IsPlain node.id)
    {role : Role} {line : String} (h : line ∈ classLines graph role) : IsPlain line := by
  have hnames : ∀ name ∈ nodesOf graph role, IsPlain name := by
    intro name hname
    obtain ⟨node, hnode, rfl⟩ := List.mem_map.mp hname
    exact hids node (List.mem_filter.mp hnode).1
  have hclass := isPlain_className role
  have hspace : IsPlain " " := by decide
  rw [classLines] at h
  split at h
  · cases h
  · rcases List.mem_cons.mp h with rfl | h
    · have hkeyword : IsPlain "    classDef " := by decide
      exact ((hkeyword.append hclass).append hspace).append (isPlain_style role)
    · rw [List.mem_singleton.mp h]
      have hkeyword : IsPlain "    class " := by decide
      have hjoined : IsPlain (",".intercalate (nodesOf graph role)) :=
        .intercalate (by decide) hnames
      exact ((hkeyword.append hjoined).append hspace).append hclass

/-- Nodes that are named after their places have plain names. -/
theorem isPlain_id
    (hid : ∀ {place : Nat} {node : GraphNode}, graph.nodes[place]? = some node →
      node.id = nodeName place) :
    ∀ node ∈ graph.nodes, IsPlain node.id := by
  intro node hmem
  obtain ⟨place, hnode⟩ := List.getElem?_of_mem hmem
  rw [hid hnode]
  exact .nodeName place

/-- No line of the trailer is taken for the line of an edge. -/
theorem isPlain_of_mem_trailer (hids : ∀ node ∈ graph.nodes, IsPlain node.id) {line : String}
    (h : line ∈ trailer graph) : IsPlain line := by
  rcases List.mem_append.mp h with h | h
  · have hopening : ∀ line ∈ ["", "    %% Styling"], IsPlain line := by decide
    exact hopening line h
  · obtain ⟨role, -, hline⟩ := List.mem_flatMap.mp h
    exact isPlain_of_mem_classLines hids hline

/-- Each edge has its line, where nodes are named after their places and edges are between places of
nodes. -/
theorem edgeLines_eq_map
    (hid : ∀ {place : Nat} {node : GraphNode}, graph.nodes[place]? = some node →
      node.id = nodeName place)
    (hlt : ∀ edge ∈ graph.edges, edge.1 < graph.nodes.length ∧ edge.2 < graph.nodes.length) :
    edgeLines graph = graph.edges.map (edgeLine graph) := by
  have hsome : ∀ edge ∈ graph.edges, edgeLine? graph edge = some (edgeLine graph edge) := by
    intro edge hedge
    obtain ⟨hsource, htarget⟩ := hlt edge hedge
    have hsourceNode := List.getElem?_eq_getElem hsource
    have htargetNode := List.getElem?_eq_getElem htarget
    rw [edgeLine?, edgeLine, Graph.labelAt, Graph.labelAt, hsourceNode, htargetNode]
    show some _ = some _
    rw [hid hsourceNode, hid htargetNode]
    rfl
  rw [edgeLines, List.filterMap_congr hsome, List.filterMap_eq_map']

/-- The lines behind those of the edges: the trailer of a styled diagram. -/
def styling (graph : Graph) (options : RenderOptions) : List String :=
  if options.styled then trailer graph else []

theorem lines_ne_nil (graph : Graph) (options : RenderOptions) : lines graph options ≠ [] :=
  List.cons_ne_nil _ _

end Diagram

namespace Graph.IsDrawable

open Diagram

variable {graph : Graph}

theorem labelAt_line (h : graph.IsDrawable) (place : Nat) :
    '\n' ∉ (graph.labelAt place).toList := by
  rw [labelAt]
  cases hnode : graph.nodes[place]? with
  | none => exact List.not_mem_nil
  | some node => exact h.label_line node (List.mem_of_getElem? hnode)

theorem edgeLines_eq (h : graph.IsDrawable) : edgeLines graph = graph.edges.map (edgeLine graph) :=
  edgeLines_eq_map h.id_eq h.edge_lt

theorem newline_not_mem_edgeLine (h : graph.IsDrawable) (edge : Nat × Nat) :
    '\n' ∉ (edgeLine graph edge).toList := by
  have hsource := newline_not_mem_labelled edge.1 (h.labelAt_line edge.1)
  have htarget := newline_not_mem_labelled edge.2 (h.labelAt_line edge.2)
  have hindent : '\n' ∉ "    ".toList := by decide
  have harrow : '\n' ∉ " --> ".toList := by decide
  simp only [edgeLine, String.toList_append, List.mem_append, not_or]
  exact ⟨⟨⟨hindent, hsource⟩, harrow⟩, htarget⟩

theorem lines_eq (h : graph.IsDrawable) (options : RenderOptions) : lines graph options =
    header options.direction :: (graph.edges.map (edgeLine graph) ++ styling graph options) := by
  rw [lines, h.edgeLines_eq]
  rfl

theorem isPlain_of_mem_styling (h : graph.IsDrawable) {options : RenderOptions} {line : String}
    (hline : line ∈ styling graph options) : IsPlain line := by
  rw [styling] at hline
  split at hline
  · exact isPlain_of_mem_trailer (isPlain_id h.id_eq) hline
  · cases hline

/-- No line of a diagram goes on to another. -/
theorem newline_not_mem_lines (h : graph.IsDrawable) (options : RenderOptions) :
    ∀ line ∈ lines graph options, '\n' ∉ line.toList := by
  rw [h.lines_eq]
  intro line hline
  rcases List.mem_cons.mp hline with rfl | hline
  · exact (isPlain_header options.direction).1
  rcases List.mem_append.mp hline with hline | hline
  · obtain ⟨edge, -, rfl⟩ := List.mem_map.mp hline
    exact h.newline_not_mem_edgeLine edge
  · exact (h.isPlain_of_mem_styling hline).1

end Graph.IsDrawable

end ImportChart
