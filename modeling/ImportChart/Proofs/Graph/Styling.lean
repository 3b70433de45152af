import ImportChart.Proofs.Graph.Diagram
import ImportChart.Proofs.Graph.Successors
import Mathlib.Data.List.Perm.Basic

/-!
# The styling of a diagram

A styled diagram is the unstyled one and a trailer behind it. The trailer is read back here from its
text, line by line (`Diagram.assignments`, `Diagram.definitions`): a line gives a class and the
names of its nodes, or a class and its style. What is read shares out the nodes of the graph
(`Diagram.SharesOut`): every node is in one class and there once, the class of its role, whether an
edge of it is drawn or not; and only classes with nodes are there.

That no node is left out or named twice comes from the names: a node is named after its place
(`Graph.id_eq_of_ofInput`), so two nodes do not share a name, and the roles, one after another, take
each node once (`flatMap_filter_perm`).
-/

namespace ImportChart

/-- The elements of each key, key after key, are the elements, where no key is missing or comes
twice. -/
theorem flatMap_filter_perm [DecidableEq κ] {key : α → κ} {keys : List κ}
    (hkeys : keys.Nodup) {xs : List α} (h : ∀ a ∈ xs, key a ∈ keys) :
    (keys.flatMap fun k => xs.filter fun a => decide (key a = k)).Perm xs := by
  induction keys generalizing xs with
  | nil =>
    obtain rfl : xs = [] := List.eq_nil_iff_forall_not_mem.mpr fun a ha => List.not_mem_nil (h a ha)
    exact .refl _
  | cons k rest ih =>
    obtain ⟨hnew, hrest⟩ := List.nodup_cons.mp hkeys
    have hothers : (rest.flatMap fun other => xs.filter fun a => decide (key a = other)) =
        rest.flatMap fun other => (xs.filter fun a => !decide (key a = k)).filter fun a =>
          decide (key a = other) := by
      apply List.flatMap_congr
      intro other hother
      rw [List.filter_filter]
      apply List.filter_congr
      intro a _
      by_cases ha : key a = other
      · have hne : key a ≠ k := fun heq => hnew (heq ▸ ha ▸ hother)
        simp [ha, ha ▸ hne]
      · simp [ha]
    have hmem : ∀ a ∈ xs.filter fun a => !decide (key a = k), key a ∈ rest := by
      intro a ha
      obtain ⟨hmem, hne⟩ := List.mem_filter.mp ha
      refine (List.mem_cons.mp (h a hmem)).resolve_left fun heq => ?_
      simp [heq] at hne
    rw [List.flatMap_cons, hothers]
    exact ((ih hrest hmem).append_left _).trans (List.filter_append_perm _ xs)

theorem Role.nodup_all : Role.all.Nodup := by decide

theorem Role.mem_all (role : Role) : role ∈ Role.all := by
  cases role <;> decide

theorem Role.className_injective : Function.Injective Role.className := by
  intro role other
  cases role <;> cases other <;> decide

namespace Diagram

/-! ## Reading a trailer -/

/-- The parts of a text between marks. -/
def parts (mark : Char) (text : List Char) : List String :=
  (text.splitOn mark).map String.ofList

/-- The words of a line behind a keyword, if the line begins with it. -/
def wordsBehind? (keyword : String) (line : List Char) : Option (List String) :=
  if keyword.toList <+: line then some (parts ' ' (line.drop keyword.toList.length)) else none

/-- The names that a line puts into a class, and the class. -/
def assignment? (line : List Char) : Option (List String × String) :=
  match wordsBehind? "    class " line with
  | some [names, className] => some (parts ',' names.toList, className)
  | _ => none

/-- The class that a line defines, and its style. -/
def definition? (line : List Char) : Option (String × String) :=
  match wordsBehind? "    classDef " line with
  | some [className, style] => some (className, style)
  | _ => none

/-- What the lines of a text put into classes, in order. -/
def assignments (text : String) : List (List String × String) :=
  (text.toList.splitOn '\n').filterMap assignment?

/-- The classes that the lines of a text define, in order. -/
def definitions (text : String) : List (String × String) :=
  (text.toList.splitOn '\n').filterMap definition?

theorem parts_intercalate {sep : String} {mark : Char} (hsep : sep.toList = [mark])
    {texts : List String} (hne : texts ≠ []) (h : ∀ text ∈ texts, mark ∉ text.toList) :
    parts mark (sep.intercalate texts).toList = texts := by
  rw [parts, splitOn_toList_intercalate hsep hne h, List.map_map]
  exact List.map_id'' (fun _ => String.ofList_toList) texts

/-- The words of a line with two words behind a keyword. -/
theorem wordsBehind?_two {keyword first second : String} (hfirst : ' ' ∉ first.toList)
    (hsecond : ' ' ∉ second.toList) :
    wordsBehind? keyword (keyword ++ first ++ " " ++ second).toList = some [first, second] := by
  have hwords : ∀ word ∈ [first, second], ' ' ∉ word.toList :=
    List.forall_mem_cons.mpr ⟨hfirst, List.forall_mem_singleton.mpr hsecond⟩
  have hjoined : first ++ " " ++ second = " ".intercalate [first, second] := by
    rw [String.intercalate_cons_of_ne_nil (List.cons_ne_nil _ _), String.intercalate_singleton]
  have hline : (keyword ++ first ++ " " ++ second).toList =
      keyword.toList ++ (" ".intercalate [first, second]).toList := by
    rw [← hjoined, ← String.toList_append, String.append_assoc, String.append_assoc,
      String.append_assoc]
  unfold wordsBehind?
  rw [hline, if_pos (List.prefix_append _ _), List.drop_left,
    parts_intercalate rfl (List.cons_ne_nil _ _) hwords]

/-- A line does not begin with a keyword if its own keyword has another letter somewhere. -/
theorem wordsBehind?_of_ne {keyword own first second : String} {place : Nat} {letter other : Char}
    (hkeyword : keyword.toList[place]? = some letter) (hown : own.toList[place]? = some other)
    (hne : letter ≠ other) :
    wordsBehind? keyword (own ++ first ++ " " ++ second).toList = none := by
  have hnot : ¬ keyword.toList <+: (own ++ first ++ " " ++ second).toList := by
    rw [String.append_assoc, String.append_assoc, String.toList_append]
    intro hbegins
    obtain ⟨hlt, hletter⟩ := List.getElem?_eq_some_iff.mp hkeyword
    obtain ⟨hltown, hother⟩ := List.getElem?_eq_some_iff.mp hown
    rw [hbegins.getElem hlt, List.getElem_append_left hltown] at hletter
    exact hne (hletter.symm.trans hother)
  rw [wordsBehind?, if_neg hnot]

/-! ## The lines of a role -/

section Role

variable {graph : Graph} {role : Role}

theorem space_not_mem_className (role : Role) : ' ' ∉ role.className.toList := by
  cases role with
  | source => decide
  | internal => decide
  | external => decide
  | builtin => decide

theorem space_not_mem_style (role : Role) : ' ' ∉ role.style.toList := by
  cases role with
  | source => decide +kernel
  | internal => decide +kernel
  | external => decide +kernel
  | builtin => decide +kernel

/-- The line that defines the class of a role. -/
def definitionLine (role : Role) : String :=
  "    classDef " ++ role.className ++ " " ++ role.style

/-- The line that puts names into the class of a role. -/
def assignmentLine (names : List String) (role : Role) : String :=
  "    class " ++ ",".intercalate names ++ " " ++ role.className

theorem classLines_of_eq_nil (h : nodesOf graph role = []) : classLines graph role = [] := by
  rw [classLines, h]

theorem classLines_of_ne_nil (h : nodesOf graph role ≠ []) :
    classLines graph role = [definitionLine role, assignmentLine (nodesOf graph role) role] := by
  rw [classLines]
  split
  · next hnil => exact absurd hnil h
  · rfl

theorem definition?_definitionLine (role : Role) :
    definition? (definitionLine role).toList = some (role.className, role.style) := by
  unfold definition? definitionLine
  rw [wordsBehind?_two (space_not_mem_className role) (space_not_mem_style role)]

/-- The keywords are one up to their tenth letters. -/
theorem assignment?_definitionLine (role : Role) :
    assignment? (definitionLine role).toList = none := by
  unfold assignment? definitionLine
  rw [@wordsBehind?_of_ne _ _ _ _ 9 ' ' 'D' rfl rfl (by decide)]

theorem assignment?_assignmentLine {names : List String} (hne : names ≠ [])
    (hspace : ∀ name ∈ names, ' ' ∉ name.toList)
    (hcomma : ∀ name ∈ names, ',' ∉ name.toList) (role : Role) :
    assignment? (assignmentLine names role).toList = some (names, role.className) := by
  have hjoined : ' ' ∉ (",".intercalate names).toList :=
    not_mem_toList_intercalate (by decide) hspace
  unfold assignment? assignmentLine
  rw [wordsBehind?_two hjoined (space_not_mem_className role)]
  show some (parts ',' (",".intercalate names).toList, role.className) = _
  rw [parts_intercalate rfl hne hcomma]

theorem definition?_assignmentLine (names : List String) (role : Role) :
    definition? (assignmentLine names role).toList = none := by
  unfold definition? assignmentLine
  rw [@wordsBehind?_of_ne _ _ _ _ 9 'D' ' ' rfl rfl (by decide)]

end Role

/-! ## Reading the trailer of a graph -/

/-- The roles that nodes of a graph have, in the order of the trailer. -/
def rolesOf (graph : Graph) : List Role :=
  [.source, .internal, .external, .builtin].filter fun role =>
    decide (∃ node ∈ graph.nodes, node.role = role)

section Trailer

variable {graph : Graph} {role : Role}

theorem nodesOf_eq_nil_iff :
    nodesOf graph role = [] ↔ ¬ ∃ node ∈ graph.nodes, node.role = role := by
  rw [nodesOf, List.map_eq_nil_iff, List.filter_eq_nil_iff]
  simp only [decide_eq_true_eq, not_exists, not_and]

theorem mem_rolesOf : role ∈ rolesOf graph ↔ ∃ node ∈ graph.nodes, node.role = role := by
  rw [rolesOf, List.mem_filter, decide_eq_true_eq]
  exact and_iff_right role.mem_all

theorem trailer_ne_nil (graph : Graph) : trailer graph ≠ [] :=
  List.cons_ne_nil _ _

/-- What is read in a trailer is read in the lines of the roles that nodes have. -/
theorem filterMap_trailer {read : List Char → Option β} {item : Role → β}
    (hopening : [[], "    %% Styling".toList].filterMap read = [])
    (hlines : ∀ role, nodesOf graph role ≠ [] →
      [(definitionLine role).toList, (assignmentLine (nodesOf graph role) role).toList].filterMap
          read =
        [item role]) :
    ((trailer graph).map String.toList).filterMap read = (rolesOf graph).map item := by
  have hnone : ∀ role ∈ Role.all, decide (∃ node ∈ graph.nodes, node.role = role) = false →
      ((classLines graph role).map String.toList).filterMap read = [] := by
    intro role _ hrole
    rw [classLines_of_eq_nil (nodesOf_eq_nil_iff.mpr (of_decide_eq_false hrole)), List.map_nil,
      List.filterMap_nil]
  have htrailer : (trailer graph).map String.toList =
      [[], "    %% Styling".toList] ++ Role.all.flatMap fun role =>
        (classLines graph role).map String.toList := by
    rw [trailer, List.map_append, List.map_flatMap]
    rfl
  rw [htrailer, List.filterMap_append, hopening, List.nil_append, List.filterMap_flatMap,
    ← flatMap_filter_of_eq_nil hnone, List.map_eq_flatMap]
  apply List.flatMap_congr
  intro role hrole
  have hne : nodesOf graph role ≠ [] :=
    fun hnil => nodesOf_eq_nil_iff.mp hnil (mem_rolesOf.mp hrole)
  rw [classLines_of_ne_nil hne]
  exact hlines role hne

variable (hid : ∀ {place : Nat} {node : GraphNode}, graph.nodes[place]? = some node →
  node.id = nodeName place)

include hid

theorem exists_place_of_mem_nodesOf {name : String} (h : name ∈ nodesOf graph role) :
    ∃ place, name = nodeName place := by
  obtain ⟨node, hmem, rfl⟩ := List.mem_map.mp h
  obtain ⟨place, hnode⟩ := List.getElem?_of_mem (List.mem_filter.mp hmem).1
  exact ⟨place, hid hnode⟩

theorem splitOn_trailer :
    (ofLines (trailer graph)).toList.splitOn '\n' = (trailer graph).map String.toList := by
  apply splitOn_ofLines (trailer_ne_nil graph)
  intro line hline
  exact (isPlain_of_mem_trailer (isPlain_id hid) hline).1

theorem definitions_trailer : definitions (ofLines (trailer graph)) =
    (rolesOf graph).map fun role => (role.className, role.style) := by
  rw [definitions, splitOn_trailer hid]
  apply filterMap_trailer
  · decide
  · intro role _
    rw [List.filterMap_cons_some (definition?_definitionLine role),
      List.filterMap_cons_none (definition?_assignmentLine _ role)]
    rfl

theorem assignments_trailer : assignments (ofLines (trailer graph)) =
    (rolesOf graph).map fun role => (nodesOf graph role, role.className) := by
  rw [assignments, splitOn_trailer hid]
  apply filterMap_trailer
  · decide
  · intro role hne
    have hmark {c : Char} (hc : c ∉ ['n', 'o', 'd', 'e']) (hdigit : c.isDigit = false) :
        ∀ name ∈ nodesOf graph role, c ∉ name.toList := by
      intro name hname
      obtain ⟨place, rfl⟩ := exists_place_of_mem_nodesOf hid hname
      exact not_mem_nodeName hc hdigit place
    have hread :=
      assignment?_assignmentLine hne (hmark (by decide) rfl) (hmark (by decide) rfl) role
    rw [List.filterMap_cons_none (assignment?_definitionLine role), List.filterMap_cons_some hread]
    rfl

end Trailer

/-! ## The nodes on the lines -/

/-- Definitions of classes, and lines that put names into classes, share out the nodes of a
graph. -/
structure SharesOut (graph : Graph) (definitions : List (String × String))
    (lines : List (List String × String)) :
    Prop where
  /-- The names on the lines are those of the nodes. -/
  names_perm : (lines.flatMap Prod.fst).Perm (graph.nodes.map (·.id))
  /-- No name is there twice, be it on one line or on two. -/
  nodup_names : (lines.flatMap Prod.fst).Nodup
  mem_line_iff : ∀ node ∈ graph.nodes, ∀ line ∈ lines, node.id ∈ line.1 ↔
    line.2 = node.role.className
  /-- The names on a line stand in the order of the nodes. -/
  ordered : ∀ line ∈ lines, ∃ places : List Nat,
    line.1 = places.map nodeName ∧ places.Pairwise (· < ·)
  classes_eq : lines.map Prod.snd = (rolesOf graph).map Role.className
  definitions_eq : definitions = (rolesOf graph).map fun role => (role.className, role.style)

section Nodes

variable {graph : Graph} {role : Role}

/-- The nodes of the roles are all nodes. -/
theorem flatMap_nodesOf_perm (graph : Graph) :
    ((rolesOf graph).flatMap (nodesOf graph)).Perm (graph.nodes.map (·.id)) := by
  have hnone : ∀ role ∈ Role.all, decide (∃ node ∈ graph.nodes, node.role = role) = false →
      nodesOf graph role = [] :=
    fun role _ hrole => nodesOf_eq_nil_iff.mpr (of_decide_eq_false hrole)
  have hroles : (rolesOf graph).flatMap (nodesOf graph) = Role.all.flatMap (nodesOf graph) :=
    flatMap_filter_of_eq_nil hnone
  rw [hroles]
  unfold nodesOf
  rw [← List.map_flatMap]
  exact (flatMap_filter_perm Role.nodup_all fun node _ => node.role.mem_all).map _

variable (hid : ∀ {place : Nat} {node : GraphNode}, graph.nodes[place]? = some node →
  node.id = nodeName place)

include hid

/-- Nodes that are named after their places do not share a name. -/
theorem nodup_ids : (graph.nodes.map (·.id)).Nodup := by
  rw [List.nodup_iff_getElem?_ne_getElem?]
  intro place other hlt hlength heq
  rw [List.length_map] at hlength
  have hplace := List.getElem?_eq_getElem (Nat.lt_trans hlt hlength)
  have hother := List.getElem?_eq_getElem hlength
  rw [List.getElem?_map, List.getElem?_map, hplace, hother, Option.map_some, Option.map_some,
    hid hplace, hid hother]
    at heq
  exact Nat.ne_of_lt hlt (nodeName_injective (Option.some.inj heq))

/-- The names of the nodes of a role are those of places in their order. -/
theorem exists_places (role : Role) :
    ∃ places : List Nat, nodesOf graph role = places.map nodeName ∧ places.Pairwise (· < ·) := by
  let numbered := graph.nodes.zipIdx.filter fun entry => entry.1.role = role
  refine ⟨numbered.map Prod.snd, ?_, ?_⟩
  · have hnodes : graph.nodes.filter (fun node => node.role = role) = numbered.map Prod.fst := by
      rw [← List.zipIdx_map_fst 0 graph.nodes, List.filter_map]
      rfl
    rw [nodesOf, hnodes, List.map_map, List.map_map]
    apply List.map_congr_left
    intro entry hentry
    have hmem : (entry.1, entry.2) ∈ graph.nodes.zipIdx := (List.mem_filter.mp hentry).1
    exact hid (List.mk_mem_zipIdx_iff_getElem?.mp hmem)
  · have hsublist : (numbered.map Prod.snd).Sublist (graph.nodes.zipIdx.map Prod.snd) :=
      List.filter_sublist.map _
    rw [List.zipIdx_map_snd] at hsublist
    exact List.Pairwise.sublist hsublist List.pairwise_lt_range'

theorem id_mem_nodesOf_iff {node : GraphNode} (h : node ∈ graph.nodes) :
    node.id ∈ nodesOf graph role ↔ role = node.role := by
  rw [nodesOf, List.mem_map]
  constructor
  · rintro ⟨other, hother, heq⟩
    obtain ⟨hmem, hrole⟩ := List.mem_filter.mp hother
    rw [← List.inj_on_of_nodup_map (nodup_ids hid) hmem h heq]
    exact (of_decide_eq_true hrole).symm
  · rintro rfl
    exact ⟨node, List.mem_filter.mpr ⟨h, decide_eq_true rfl⟩, rfl⟩

/-- The trailer of a graph shares out its nodes. -/
theorem sharesOut_trailer : SharesOut graph (definitions (ofLines (trailer graph)))
    (assignments (ofLines (trailer graph))) := by
  have hnames :
      (((rolesOf graph).map fun role => (nodesOf graph role, role.className)).flatMap Prod.fst) =
      (rolesOf graph).flatMap (nodesOf graph) := List.flatMap_map _ _ _
  rw [definitions_trailer hid, assignments_trailer hid]
  constructor
  · rw [hnames]
    exact flatMap_nodesOf_perm graph
  · rw [hnames, (flatMap_nodesOf_perm graph).nodup_iff]
    exact nodup_ids hid
  · intro node hnode line hline
    obtain ⟨role, -, rfl⟩ := List.mem_map.mp hline
    rw [id_mem_nodesOf_iff hid hnode, Role.className_injective.eq_iff]
  · intro line hline
    obtain ⟨role, -, rfl⟩ := List.mem_map.mp hline
    exact exists_places hid role
  · rw [List.map_map]
    rfl
  · rfl

end Nodes

/-! ## Styled diagrams -/

theorem ofLines_append {lines more : List String} (hlines : lines ≠ []) (hmore : more ≠ []) :
    ofLines (lines ++ more) = ofLines lines ++ "\n" ++ ofLines more :=
  String.intercalate_append_of_ne_nil hlines hmore

/-- Styling does not change the graph. -/
theorem ofInput_styled (input : GraphInput) (options : RenderOptions) (styled : Bool) :
    Graph.ofInput input { options with styled } = Graph.ofInput input options := by
  rw [Graph.ofInput_eq_foldl, Graph.ofInput_eq_foldl]
  rfl

/-- The line of a node is that of its role. -/
theorem SharesOut.exists_line {graph : Graph} {definitions : List (String × String)}
    {lines : List (List String × String)} (h : SharesOut graph definitions lines) {node : GraphNode}
    (hnode : node ∈ graph.nodes) :
    ∃ line ∈ lines, node.id ∈ line.1 ∧ line.2 = node.role.className := by
  have hname : node.id ∈ lines.flatMap Prod.fst :=
    h.names_perm.mem_iff.mpr (List.mem_map_of_mem hnode)
  obtain ⟨line, hline, hmem⟩ := List.mem_flatMap.mp hname
  exact ⟨line, hline, hmem, (h.mem_line_iff node hnode line hline).mp hmem⟩

/-- A file that is drawn as a source has a node with the role of a source. -/
theorem exists_node_of_source {input : GraphInput} {options : RenderOptions}
    {source : String × List Dependency} (h : source ∈ input.sources options) :
    ∃ (place : Nat) (node : GraphNode), (Graph.ofInput input options).nodes[place]? = some node ∧
      node.key = source.1 ∧ node.role = .source := by
  have htraces := Graph.ofInput_traces input options
  have hmet : source.1 ∈ ((input.sources options).flatMap Encounter.ofFile).map Encounter.key := by
    rw [Encounter.map_key_flatMap_ofFile]
    exact List.mem_flatMap.mpr ⟨source, h, List.mem_cons_self⟩
  obtain ⟨node, hnode, hkey⟩ := Option.map_eq_some_iff.mp (htraces.key?_place hmet)
  obtain ⟨first, hfirst, rfl⟩ := htraces.eq_toNode hnode
  refine ⟨_, _, hnode, hkey, (Encounter.role_toNode hfirst _).1.mpr ?_⟩
  have hown : first.key = source.1 := hkey
  rw [hown]
  exact List.mem_map_of_mem h

/-- **A styled diagram** is the unstyled one with a trailer behind it. The trailer shares out the
nodes of the graph among the classes of their roles, and every file with dependencies is among the
sources, also if none is drawn. -/
theorem render_styled (input : GraphInput) (options : RenderOptions) :
    let graph := Graph.ofInput input options
    let trailer := ofLines (trailer graph)
    render input { options with styled := true } =
      render input { options with styled := false } ++ "\n" ++ trailer ∧
      SharesOut graph (definitions trailer) (assignments trailer) ∧
      ∀ source ∈ input.sources options, ∃ place, graph.key? place = some source.1 ∧
        ∃ line ∈ assignments trailer, nodeName place ∈ line.1 ∧ line.2 = Role.source.className := by
  intro graph trailer
  have hshares : SharesOut graph (definitions trailer) (assignments trailer) :=
    sharesOut_trailer Graph.id_eq_of_ofInput
  refine ⟨?_, hshares, ?_⟩
  · have hlines : lines graph { options with styled := true } =
        lines graph { options with styled := false } ++ Diagram.trailer graph :=
      congrArg (· ++ Diagram.trailer graph) (List.append_nil _).symm
    rw [render, render, ofInput_styled input options true, ofInput_styled input options false]
    change ofLines (lines graph { options with styled := true }) = _
    rw [hlines]
    exact ofLines_append (List.cons_ne_nil _ _) (trailer_ne_nil graph)
  · intro source hsource
    obtain ⟨place, node, hnode, hkey, hrole⟩ := exists_node_of_source hsource
    obtain ⟨line, hline, hmem, hclass⟩ := hshares.exists_line (List.mem_of_getElem? hnode)
    rw [Graph.id_eq_of_ofInput hnode] at hmem
    refine ⟨place, ?_, line, hline, hmem, hrole ▸ hclass⟩
    rw [Graph.key?, hnode, Option.map_some, hkey]

end Diagram

end ImportChart
